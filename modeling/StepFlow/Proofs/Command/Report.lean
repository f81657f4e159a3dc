import StepFlow.Command.Report
import StepFlow.Proofs.Text.Digits

/-!
# The lines of a log

The log of a run shows a step by a line that begins with the index of the step and the mark of its
status.  Behind these the name and the type of the node and the text of its error are shown as they
are, and these come from workflows and services: a line break among them ends the line early, and
what follows can look like the line of another step (`Report.label_shows_step`).

`Report.log_tells_steps` says what the log tells nevertheless.  Every line break in such a text is a
line too many.  Where there is none, the lines are those of the steps, and two runs with the same log
have the same marks.
-/

namespace StepFlow

/-! ## Lines -/

namespace Text

/-- The lines of a text, each of which ends with a line break.  What follows the last break is no
line. -/
def lines (s : String) : List String :=
  (s.toList.splitOn '\n').dropLast.map String.ofList

/-- A line break ends a line, or several if there were others before it. -/
theorem lines_append (s t : String) :
    lines (s ++ "\n" ++ t) = (s.toList.splitOn '\n').map String.ofList ++ lines t := by
  have hbreak : (s ++ "\n" ++ t).toList = s.toList ++ '\n' :: t.toList := by simp
  rw [lines, hbreak, List.splitOn_append_cons_self, List.dropLast_append_of_ne_nil
    (List.splitOn_ne_nil _ _), List.map_append, lines]

/-- A text without a line break becomes a line when one is put behind it. -/
theorem lines_append_of_notMem {s : String} (h : '\n' ∉ s.toList) (t : String) :
    lines (s ++ "\n" ++ t) = s :: lines t := by
  rw [lines_append, List.splitOn_eq_singleton h]
  simp

/-- There is one piece more than there are breaks. -/
theorem length_splitOn (cs : List Char) : (cs.splitOn '\n').length = cs.count '\n' + 1 := by
  induction cs with
  | nil => simp
  | cons c cs ih =>
    rw [List.splitOn_eq_splitOnP] at ih ⊢
    rw [List.splitOnP_cons_eq_if_modifyHead, List.count_cons]
    split
    · simp_all
    · simp_all

theorem length_lines_append (s t : String) :
    (lines (s ++ "\n" ++ t)).length = s.toList.count '\n' + 1 + (lines t).length := by
  rw [lines_append, List.length_append, List.length_map, length_splitOn]

theorem break_notMem_toDigits (n : Nat) : '\n' ∉ Nat.toDigits 10 n := by
  intro h
  exact absurd (allDigits_toDigits n '\n' h) (by decide)

end Text

/-! ## Steps on one line -/

namespace Step

/-- The texts of a step that its line in a log shows as they are. -/
def shownTexts (s : Step) : List String := s.nodeName :: s.nodeType :: s.error?.toList

/-- The number of line breaks in the texts of a step that a log shows. -/
def shownBreaks (s : Step) : Nat := (s.shownTexts.map (·.toList.count '\n')).sum

/-- No text of the step that a log shows has a line break. -/
def OnOneLine (s : Step) : Prop := ∀ text ∈ s.shownTexts, '\n' ∉ text.toList

instance : DecidablePred OnOneLine :=
  fun s => inferInstanceAs (Decidable (∀ text ∈ s.shownTexts, '\n' ∉ text.toList))

theorem shownBreaks_eq_zero_iff {s : Step} : s.shownBreaks = 0 ↔ s.OnOneLine := by
  simp [shownBreaks, OnOneLine, List.sum_eq_zero_iff_forall_eq_nat, List.count_eq_zero]

end Step

namespace Report

variable {index : Nat} {s : Step} {steps : List Step}

/-! ## The line of a step -/

/-- The beginning of the line of a step: its index in brackets and the mark of its status. -/
def stepHead (index : Nat) (status : StepStatus) : String :=
  "[" ++ padLeft 3 (toString index) ++ "] " ++ padRight 4 (marker status)

/-- What follows the beginning of the line of a step. -/
def stepRest (s : Step) : String :=
  " " ++ s.nodeName ++ " (" ++ s.nodeType ++ ") " ++ toString s.elapsedMs.toNat ++ "ms" ++
    match s.error? with
    | some text => ": " ++ text
    | none => ""

theorem stepLine_eq (index : Nat) (s : Step) :
    stepLine index s = stepHead index s.status ++ stepRest s := by
  rw [stepLine, stepHead, stepRest]
  cases s.error? <;> simp [String.append_assoc]

theorem break_notMem_stepHead (index : Nat) (status : StepStatus) :
    '\n' ∉ (stepHead index status).toList := by
  have hindex := Text.break_notMem_toDigits index
  have hmark : '\n' ∉ (padRight 4 (marker status)).toList := by cases status <;> decide +kernel
  simp [stepHead, padLeft, hindex, hmark]

/-- The line breaks in the line of a step are those of the texts that it shows. -/
theorem count_stepLine (index : Nat) (s : Step) :
    (stepLine index s).toList.count '\n' = s.shownBreaks := by
  have helapsed := List.count_eq_zero.2 (Text.break_notMem_toDigits s.elapsedMs.toNat)
  have hhead := List.count_eq_zero.2 (break_notMem_stepHead index s.status)
  rw [stepLine_eq, String.toList_append, List.count_append, hhead]
  cases herror : s.error? with
  | none =>
    simp [stepRest, Step.shownBreaks, Step.shownTexts, herror, helapsed]
  | some text =>
    simp [stepRest, Step.shownBreaks, Step.shownTexts, herror, helapsed]

/-- The mark of a status can be read off the beginning of a line. -/
theorem marker_eq_of_stepLine_eq {s t : Step} (h : stepLine index s = stepLine index t) :
    marker s.status = marker t.status := by
  have hlength : ∀ status, (padRight 4 (marker status)).toList.length = 4 := by
    intro status
    cases status <;> decide +kernel
  have hpadded : padRight 4 (marker s.status) = padRight 4 (marker t.status) := by
    rw [stepLine_eq, stepLine_eq, stepHead, stepHead, ← String.toList_inj] at h
    simp only [String.toList_append, List.append_assoc] at h
    have htail := List.append_cancel_left (List.append_cancel_left (List.append_cancel_left h))
    exact String.toList_inj.1 (List.append_inj_left htail ((hlength _).trans (hlength _).symm))
  -- The marks differ before they are padded if they differ behind it.
  revert hpadded
  cases s.status <;> cases t.status <;> decide +kernel

/-! ## The lines of a log -/

/-- A log has a line for every step, and one more for every line break in a text that it shows. -/
theorem length_lines_logFrom (index : Nat) (steps : List Step) :
    (Text.lines (logFrom index steps)).length =
      steps.length + (steps.map Step.shownBreaks).sum := by
  induction steps generalizing index with
  | nil => rfl
  | cons s rest ih =>
    rw [logFrom, Text.length_lines_append, count_stepLine, ih, List.map_cons, List.sum_cons,
      List.length_cons]
    omega

/-- Where every step is on one line, the lines are those of the steps. -/
theorem lines_logFrom (h : ∀ s ∈ steps, s.OnOneLine) (index : Nat) :
    Text.lines (logFrom index steps) = (steps.zipIdx index).map fun (s, i) => stepLine i s := by
  induction steps generalizing index with
  | nil => rfl
  | cons s rest ih =>
    have hline : '\n' ∉ (stepLine index s).toList := by
      rw [← List.count_eq_zero, count_stepLine]
      exact Step.shownBreaks_eq_zero_iff.2 (h s List.mem_cons_self)
    rw [logFrom, Text.lines_append_of_notMem hline, ih fun s hs => h s (List.mem_cons_of_mem _ hs)]
    rfl

theorem logFrom_eq_join (index : Nat) (steps : List Step) :
    logFrom index steps =
      String.join ((steps.zipIdx index).map fun (s, i) => stepLine i s ++ "\n") := by
  induction steps generalizing index with
  | nil => rfl
  | cons s rest ih => simp [logFrom, ih]

/-- Lines of the same texts in the same order carry the same marks. -/
theorem map_marker_eq_of_stepLines_eq {steps steps' : List Step} {index : Nat}
    (h : ((steps.zipIdx index).map fun (s, i) => stepLine i s) =
      (steps'.zipIdx index).map fun (s, i) => stepLine i s) :
    (steps.map fun s => marker s.status) = steps'.map fun s => marker s.status := by
  induction steps generalizing steps' index with
  | nil => cases steps' with
    | nil => rfl
    | cons => cases h
  | cons s rest ih =>
    cases steps' with
    | nil => cases h
    | cons t rest' =>
      simp only [List.zipIdx_cons, List.map_cons, List.cons.injEq] at h ⊢
      exact ⟨marker_eq_of_stepLine_eq h.1, ih h.2⟩

/-- A step of which only what a log shows is given. -/
def shownStep (nodeName nodeType : String) (status : StepStatus) (error? : Option String) : Step :=
  ⟨"n", nodeName, nodeType, status, .empty, none, error?, 0, .epoch⟩

/-- A run that has stopped with the given steps. -/
def shownRun (steps : List Step) : Run := ⟨steps, steps.length - 1, false, false, .empty⟩

/-- A log has as many lines as the run has steps, and one more for every line break in a name, a
type or an error that it shows; so it has exactly as many if there is none of these.  Then the lines
make up the log, each begins with the index in brackets and the mark of its step, and no other run
of this kind has the same log but with another number of steps or other marks. -/
theorem log_tells_steps :
    (∀ r : Run, (Text.lines (log r)).length = r.steps.length + (r.steps.map Step.shownBreaks).sum) ∧
    (∀ r : Run, (Text.lines (log r)).length = r.steps.length ↔ ∀ s ∈ r.steps, s.OnOneLine) ∧
    (∀ r : Run, (∀ s ∈ r.steps, s.OnOneLine) →
      String.join ((Text.lines (log r)).map (· ++ "\n")) = log r ∧
        ∀ (i : Nat) (s : Step), r.steps[i]? = some s →
          ∃ rest, (Text.lines (log r))[i]? =
            some ("[" ++ padLeft 3 (toString i) ++ "] " ++ padRight 4 (marker s.status) ++ rest)) ∧
    ∀ r r' : Run, (∀ s ∈ r.steps, s.OnOneLine) → (∀ s ∈ r'.steps, s.OnOneLine) →
      log r = log r' →
        (r.steps.map fun s => marker s.status) = r'.steps.map fun s => marker s.status := by
  refine ⟨fun r => length_lines_logFrom 0 r.steps, ?_, ?_, ?_⟩
  · intro r
    rw [log, length_lines_logFrom, Nat.add_eq_left, List.sum_eq_zero_iff_forall_eq_nat]
    simp only [List.forall_mem_map, Step.shownBreaks_eq_zero_iff]
  · intro r hr
    rw [log, lines_logFrom hr]
    constructor
    · rw [logFrom_eq_join, List.map_map]
      rfl
    · intro i s hs
      refine ⟨stepRest s, ?_⟩
      simp [List.getElem?_zipIdx, hs, stepLine_eq, stepHead]
  · intro r r' hr hr' hlog
    have hlines := congrArg Text.lines hlog
    rw [log, log, lines_logFrom hr, lines_logFrom hr'] at hlines
    exact map_marker_eq_of_stepLines_eq hlines

/-- The log of a run whose second step failed says so in its second line.  Two runs with different
steps can have the same log, but not the same log with different marks. -/
theorem log_tells_steps_failed :
    (∀ s ∈ [shownStep "In" "input" .success none,
        shownStep "Check" "decision" .error (some "HTTP 500: no")], s.OnOneLine) ∧
      (∃ rest, (Text.lines (log (shownRun [shownStep "In" "input" .success none,
        shownStep "Check" "decision" .error (some "HTTP 500: no")])))[1]? =
          some ("[  1] ERR " ++ rest)) ∧
      (∀ status ∈ [StepStatus.pending, .running],
        ∀ s ∈ [shownStep "Check" "decision" status none], s.OnOneLine) ∧
      log (shownRun [shownStep "Check" "decision" .pending none]) =
        log (shownRun [shownStep "Check" "decision" .running none]) ∧
      [marker .pending] = [marker .running] := by
  obtain ⟨-, -, hlines, hmarks⟩ := log_tells_steps
  have hfailed : ∀ s ∈ [shownStep "In" "input" .success none,
      shownStep "Check" "decision" .error (some "HTTP 500: no")], s.OnOneLine := by decide +kernel
  have hwaiting : ∀ status ∈ [StepStatus.pending, .running],
      ∀ s ∈ [shownStep "Check" "decision" status none], s.OnOneLine := by decide +kernel
  have hsame : log (shownRun [shownStep "Check" "decision" .pending none]) =
      log (shownRun [shownStep "Check" "decision" .running none]) := by decide +kernel
  refine ⟨hfailed, ?_, hwaiting, hsame, ?_⟩
  · have hhead : "[" ++ padLeft 3 (toString 1) ++ "] " ++ padRight 4 (marker .error) =
        "[  1] ERR " := by decide +kernel
    obtain ⟨-, hbegin⟩ := hlines (shownRun _) hfailed
    obtain ⟨rest, hrest⟩ := hbegin 1 (shownStep "Check" "decision" .error (some "HTTP 500: no")) rfl
    refine ⟨rest, hrest.trans ?_⟩
    rw [← hhead, shownStep]
  · exact hmarks (shownRun _) (shownRun _) (hwaiting .pending (by decide))
      (hwaiting .running (by decide)) hsame

/-- A name with a line break shows a step that the run does not have, or a failed step in place of
one that succeeded: runs with another number of steps or other marks have the same log. -/
theorem label_shows_step :
    Text.lines (log (shownRun
        [shownStep "In (input) 0ms\n[  1] ok   Out" "output" .success none])) =
        ["[  0] ok   In (input) 0ms", "[  1] ok   Out (output) 0ms"] ∧
      log (shownRun [shownStep "In (input) 0ms\n[  1] ok   Out" "output" .success none]) =
        log (shownRun [shownStep "In" "input" .success none,
          shownStep "Out" "output" .success none]) ∧
      log (shownRun [shownStep "In (input) 0ms\n[  1] ERR  Check" "input" .success none,
          shownStep "Out" "output" .success none]) =
        log (shownRun [shownStep "In" "input" .success none,
          shownStep "Check (input) 0ms\n[  1] ok   Out" "output" .error none]) := by
  decide +kernel

end Report

end StepFlow
