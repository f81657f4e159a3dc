import Mathlib.Tactic.Common
import StepFlow.Runner.Local

/-!
# Moves of a run

Every runner changes the state of its run in the same few ways: `Run.Move` lists them, one
constructor for each way an operation can turn out.  Which steps can be logged is a parameter,
a relation between a step and the data it meets.  Whatever holds of all moves therefore holds of
the local runner and of the remote one, whoever answers the requests.

Three invariants are carried along the moves.  `Run.Coherent` ties the cursor and the mark that
the run goes on to the log: the cursor stands on a step, and only the last step of a run that
has stopped can have failed.  `Reachable.context_eq` says that the data are the initial data
patched by the log, and `Reachable.logs` that every step met the data left by those before it.
-/

namespace StepFlow

namespace Run

variable {Logs : Context → Step → Prop} {initialData : Context} {op : Operation} {r r' : Run}

/-! ## Moves -/

/-- A run that goes on and has not logged its first step yet. -/
def begun (initialData : Context) : Run := { new initialData with isRunning := true }

/-- The ways in which an operation changes a run with the given initial data, where `Logs` tells
which steps can be logged at which data. -/
inductive Move (Logs : Context → Step → Prop) (initialData : Context) :
    Operation → Run → Run → Prop
  /-- A start that fails changes nothing. -/
  | refuse (r : Run) : Move Logs initialData .start r r
  /-- A start logs the first step of a new run. -/
  | start (r : Run) {s : Step} (halt : Bool) :
      Logs initialData s → Move Logs initialData .start r ((begun initialData).commit s halt)
  /-- A run that has stopped is not stepped forward. -/
  | rest {r : Run} : r.isRunning = false → Move Logs initialData .forward r r
  /-- A step forward first catches up with the log. -/
  | review {r r' : Run} :
      r.isRunning = true → r.reviewForward? = some r' → Move Logs initialData .forward r r'
  /-- A step forward from the last step logs another one. -/
  | extend {r : Run} {s : Step} (halt : Bool) :
      r.isRunning = true → r.reviewForward? = none → Logs r.context s →
      Move Logs initialData .forward r (r.commit s halt)
  /-- A step forward ends a run that has nowhere to go. -/
  | finish {r : Run} :
      r.isRunning = true → r.reviewForward? = none →
      Move Logs initialData .forward r { r with isRunning := false }
  | back (r : Run) : Move Logs initialData .back r r.stepBack
  | pause (r : Run) : Move Logs initialData .pause r { r with isPaused := true }
  | resume (r : Run) : Move Logs initialData .resume r { r with isPaused := false }
  | reset (r : Run) : Move Logs initialData .reset r (new initialData)

/-- The runs that moves lead to from a run that has not started. -/
inductive Reachable (Logs : Context → Step → Prop) (initialData : Context) : Run → Prop
  | new : Reachable Logs initialData (new initialData)
  | move {op : Operation} {r r' : Run} :
      Reachable Logs initialData r → Move Logs initialData op r r' →
      Reachable Logs initialData r'

/-- Catching up with the log moves the cursor to a later step and changes nothing else. -/
theorem reviewForward?_eq_some_iff :
    r.reviewForward? = some r' ↔
      r.cursor < r.lastIndex ∧ r' = { r with cursor := r.cursor + 1 } := by
  simp [reviewForward?, isReviewing, eq_comm]

/-- Stepping back changes nothing but the cursor. -/
theorem stepBack_eq :
    r.stepBack = { r with cursor := if 0 < r.cursor then r.cursor - 1 else r.cursor } := by
  unfold stepBack
  split <;> rfl

/-- A run goes on after a step only if the step does not ask for a halt. -/
theorem halt_eq_false_of_commit {s : Step} {halt : Bool}
    (h : (r.commit s halt).isRunning = true) : halt = false := by
  cases halt with
  | false => rfl
  | true => simp [commit] at h

/-! ## The cursor, the mark and the log -/

/-- The cursor and the mark that the run goes on agree with the log. -/
structure Coherent (r : Run) : Prop where
  /-- The cursor stands before the first step exactly if there is none. -/
  cursor_eq_iff : r.cursor = -1 ↔ r.steps = []
  /-- Otherwise it stands on a step. -/
  cursor_mem : r.steps ≠ [] → 0 ≤ r.cursor ∧ r.cursor ≤ r.steps.length - 1
  /-- A run that goes on has a step, and none of its steps failed. -/
  running : r.isRunning = true → r.steps ≠ [] ∧ ∀ s ∈ r.steps, s.status ≠ .error
  /-- Only the last step can have failed, and then the run has stopped. -/
  error_last : ∀ (i : Nat) (h : i < r.steps.length), r.steps[i].status = .error →
    i + 1 = r.steps.length ∧ r.isRunning = false

/-- A run that has not started is coherent. -/
theorem coherent_new (initialData : Context) : (new initialData).Coherent where
  cursor_eq_iff := by simp [new]
  cursor_mem := fun h => absurd rfl h
  running := fun h => by cases h
  error_last := fun i h => by simp [new] at h

/-- A step that is logged while no step has failed leaves a coherent run, whatever its status. -/
theorem coherent_commit (hclean : ∀ s ∈ r.steps, s.status ≠ .error) (s : Step) (halt : Bool) :
    (r.commit s halt).Coherent where
  cursor_eq_iff := by
    simp only [commit, List.append_eq_nil_iff, List.cons_ne_nil, and_false, iff_false]
    omega
  cursor_mem := fun _ => by
    simp only [commit, List.length_append, List.length_singleton]
    omega
  running := fun hrunning => by
    have hgood : s.status ≠ .error := by
      intro hstatus
      simp [commit, Step.hasFailed, hstatus] at hrunning
    refine ⟨by simp [commit], fun t ht => ?_⟩
    rcases List.mem_append.1 ht with ht | ht
    · exact hclean t ht
    · rwa [List.mem_singleton.1 ht]
  error_last := fun i hi hstatus => by
    simp only [commit, List.length_append, List.length_singleton] at hi hstatus ⊢
    -- The steps before the new one did not fail, so it is the new one that did.
    rcases Nat.lt_succ_iff_lt_or_eq.1 hi with hlt | rfl
    · rw [List.getElem_append_left hlt] at hstatus
      exact absurd hstatus (hclean _ (List.getElem_mem hlt))
    · have hstatus : s.status = .error := by simpa using hstatus
      exact ⟨rfl, by simp [Step.hasFailed, hstatus]⟩

/-- A coherent run stays coherent when the cursor moves to another step. -/
theorem Coherent.withCursor (h : r.Coherent) {cursor : Int} (hnonempty : r.steps ≠ [])
    (hlow : 0 ≤ cursor) (hhigh : cursor ≤ r.steps.length - 1) :
    ({ r with cursor := cursor } : Run).Coherent where
  cursor_eq_iff := ⟨fun heq => by simp only at heq; omega, fun hnil => absurd hnil hnonempty⟩
  cursor_mem := fun _ => ⟨hlow, hhigh⟩
  running := h.running
  error_last := h.error_last

/-- A move keeps a run coherent. -/
theorem Move.coherent (hmove : Move Logs initialData op r r') (h : r.Coherent) : r'.Coherent := by
  cases hmove with
  | refuse => exact h
  | start _ halt _ => exact coherent_commit (by simp [begun, new]) _ halt
  | rest => exact h
  | review hrunning hreview =>
    obtain ⟨hcursor, rfl⟩ := reviewForward?_eq_some_iff.1 hreview
    have hnonempty := (h.running hrunning).1
    have hmem := h.cursor_mem hnonempty
    unfold lastIndex at hcursor
    exact h.withCursor hnonempty (by omega) (by omega)
  | extend halt hrunning _ _ => exact coherent_commit (h.running hrunning).2 _ halt
  | finish hrunning _ =>
    exact
      { cursor_eq_iff := h.cursor_eq_iff
        cursor_mem := h.cursor_mem
        running := fun hrun => by cases hrun
        error_last := fun i hi hstatus => ⟨(h.error_last i hi hstatus).1, rfl⟩ }
  | back =>
    by_cases hpos : 0 < r.cursor
    · have hnonempty : r.steps ≠ [] := fun hnil => by
        have := h.cursor_eq_iff.2 hnil
        omega
      have hmem := h.cursor_mem hnonempty
      rw [stepBack, if_pos hpos]
      exact h.withCursor hnonempty (by omega) (by omega)
    · rw [stepBack, if_neg hpos]
      exact h
  | pause => exact ⟨h.cursor_eq_iff, h.cursor_mem, h.running, h.error_last⟩
  | resume => exact ⟨h.cursor_eq_iff, h.cursor_mem, h.running, h.error_last⟩
  | reset => exact coherent_new initialData

/-- Every run that moves lead to is coherent. -/
theorem Reachable.coherent (h : Reachable Logs initialData r) : r.Coherent := by
  induction h with
  | new => exact coherent_new initialData
  | move _ hmove ih => exact hmove.coherent ih

/-! ## The phase -/

/-- A run is in the phase of a failure exactly if it has stopped and one of its steps failed. -/
theorem phase_eq_errored_iff :
    r.phase = .errored ↔ r.isRunning = false ∧ ∃ s ∈ r.steps, s.status = .error := by
  have hfailed : r.hasFailed = true ↔ ∃ s ∈ r.steps, s.status = .error := by
    simp [hasFailed, Step.hasFailed]
  rw [← hfailed]
  cases hsteps : r.steps with
  | nil =>
    unfold phase hasFailed
    rw [hsteps]
    cases r.isRunning <;> cases r.isPaused <;> simp
  | cons first rest =>
    unfold phase
    rw [hsteps]
    cases r.isRunning <;> cases r.isPaused <;> cases r.hasFailed <;> simp

/-- A run has completed exactly if it has stopped after steps none of which failed. -/
theorem phase_eq_completed_iff :
    r.phase = .completed ↔
      r.isRunning = false ∧ r.steps ≠ [] ∧ ∀ s ∈ r.steps, s.status ≠ .error := by
  have hfailed : r.hasFailed = false ↔ ∀ s ∈ r.steps, s.status ≠ .error := by
    simp [hasFailed, Step.hasFailed]
  rw [← hfailed, ← List.isEmpty_eq_false_iff]
  unfold phase
  cases r.isRunning <;> cases r.isPaused <;> cases r.steps.isEmpty <;> cases r.hasFailed <;> simp

/-- A coherent run is in the phase of a failure exactly if its last step failed. -/
theorem Coherent.errored_iff_last (h : r.Coherent) :
    r.phase = .errored ↔ ∃ s, r.lastStep? = some s ∧ s.status = .error := by
  rw [phase_eq_errored_iff]
  constructor
  · rintro ⟨-, s, hs, hstatus⟩
    obtain ⟨i, hi, rfl⟩ := List.getElem_of_mem hs
    have hlast : i = r.steps.length - 1 := by
      have hlength := (h.error_last i hi hstatus).1
      omega
    exact ⟨r.steps[i], by simp [lastStep?, List.getLast?_eq_getElem?, ← hlast, hi], hstatus⟩
  · rintro ⟨s, hlast, hstatus⟩
    have hs : s ∈ r.steps := List.mem_of_getLast? hlast
    obtain ⟨i, hi, rfl⟩ := List.getElem_of_mem hs
    exact ⟨(h.error_last i hi hstatus).2, r.steps[i], hs, hstatus⟩

/-! ## Runs that have stopped -/

/-- Two states of a run have the same log and the same data, and neither goes on. -/
def StillAt (r r' : Run) : Prop :=
  r'.steps = r.steps ∧ r'.context = r.context ∧ r'.isRunning = false

/-- Once a run has stopped, only a start or a reset changes its log and its data. -/
theorem Move.stillAt (hmove : Move Logs initialData op r r') (hstopped : r.isRunning = false)
    (hstart : op ≠ .start) (hreset : op ≠ .reset) : r.StillAt r' := by
  cases hmove with
  | refuse => exact absurd rfl hstart
  | start => exact absurd rfl hstart
  | rest => exact ⟨rfl, rfl, hstopped⟩
  | review hrunning => rw [hstopped] at hrunning; cases hrunning
  | extend _ hrunning => rw [hstopped] at hrunning; cases hrunning
  | finish hrunning => rw [hstopped] at hrunning; cases hrunning
  | back => rw [stepBack_eq]; exact ⟨rfl, rfl, hstopped⟩
  | pause => exact ⟨rfl, rfl, hstopped⟩
  | resume => exact ⟨rfl, rfl, hstopped⟩
  | reset => exact absurd rfl hreset

/-! ## The data and the log -/

/-- A move either leaves log and data as they are, or clears them, or logs a step that the data
allow. -/
theorem Move.log_cases (hmove : Move Logs initialData op r r') :
    (r'.steps = r.steps ∧ r'.context = r.context) ∨
      (r'.steps = [] ∧ r'.context = initialData) ∨
      ∃ before s, (before = r ∨ before = begun initialData) ∧ Logs before.context s ∧
        r'.steps = before.steps ++ [s] ∧ r'.context = patched before.context s := by
  cases hmove with
  | refuse => exact .inl ⟨rfl, rfl⟩
  | @start _ s halt hlogs => exact .inr (.inr ⟨begun initialData, s, .inr rfl, hlogs, rfl, rfl⟩)
  | rest => exact .inl ⟨rfl, rfl⟩
  | review _ hreview =>
    obtain ⟨-, rfl⟩ := reviewForward?_eq_some_iff.1 hreview
    exact .inl ⟨rfl, rfl⟩
  | @extend _ s halt _ _ hlogs => exact .inr (.inr ⟨r, s, .inl rfl, hlogs, rfl, rfl⟩)
  | finish => exact .inl ⟨rfl, rfl⟩
  | back => rw [stepBack_eq]; exact .inl ⟨rfl, rfl⟩
  | pause => exact .inl ⟨rfl, rfl⟩
  | resume => exact .inl ⟨rfl, rfl⟩
  | reset => exact .inr (.inl ⟨rfl, rfl⟩)

/-- The data are the initial data, patched by the steps of the log in their order. -/
theorem Reachable.context_eq (h : Reachable Logs initialData r) :
    r.context = r.steps.foldl patched initialData := by
  induction h with
  | new => rfl
  | @move _ r r' _ hmove ih =>
    rcases hmove.log_cases with ⟨hsteps, hcontext⟩ | ⟨hsteps, hcontext⟩ |
      ⟨before, s, hbefore, -, hsteps, hcontext⟩
    · rw [hsteps, hcontext, ih]
    · rw [hsteps, hcontext]; rfl
    · have heq : before.context = before.steps.foldl patched initialData := by
        rcases hbefore with rfl | rfl
        · exact ih
        · rfl
      rw [hsteps, hcontext, heq, List.foldl_append]
      rfl

/-- What holds of every step at the data that it meets holds of each step of the log at the
initial data patched by the steps before it. -/
theorem Reachable.logs (h : Reachable Logs initialData r) (i : Nat) (hi : i < r.steps.length) :
    Logs ((r.steps.take i).foldl patched initialData) r.steps[i] := by
  induction h with
  | new => simp [Run.new] at hi
  | @move _ r r' hr hmove ih =>
    rcases hmove.log_cases with ⟨hsteps, -⟩ | ⟨hsteps, -⟩ | ⟨before, s, hbefore, hlogs, hsteps, -⟩
    · simp only [hsteps] at hi ⊢
      exact ih hi
    · simp [hsteps] at hi
    · have hearlier : ∀ hlt : i < before.steps.length,
          Logs ((before.steps.take i).foldl patched initialData) before.steps[i] := by
        rcases hbefore with rfl | rfl
        · exact ih
        · intro hlt
          simp [begun, Run.new] at hlt
      have heq : before.context = before.steps.foldl patched initialData := by
        rcases hbefore with rfl | rfl
        · exact hr.context_eq
        · rfl
      simp only [hsteps] at hi ⊢
      rcases Nat.lt_succ_iff_lt_or_eq.1 (by simpa using hi) with hlt | rfl
      · rw [List.getElem_append_left hlt, List.take_append_of_le_length (Nat.le_of_lt hlt)]
        exact hearlier hlt
      · simpa [← heq] using hlogs

end Run

end StepFlow
