import Mathlib.Tactic.Common
import StepFlow.Proofs.Graph
import StepFlow.Proofs.Handler
import StepFlow.Proofs.Runner.Local

/-!
# How data pass through a run

The data of a run and the inputs and outputs of its steps are kept apart from each other: the
data are patched when a step is logged, while the step records what it met and what it gave.
`data_threaded_of_reachable` says that the three agree in every state of the local runner: what
a step met are the initial data overwritten by the outputs of the steps before it, and the data
are the initial data overwritten by the outputs of all steps that succeeded.
-/

namespace StepFlow

/-! ## Data overwritten by outputs -/

/-- The data overwritten by the outputs of steps, in the order of the steps. -/
def Context.overwrittenBy (c : Context) (steps : List Step) : Context :=
  (steps.filterMap (·.output?)).foldl Context.override c

namespace Run

variable {Logs : Context → Step → Prop} {initialData : Context} {op : Operation} {r r' : Run}

/-- The output of a step that did not fail overwrites the data. -/
theorem patched_of_ne_error {s : Step} (h : s.status ≠ .error) (c : Context) :
    patched c s = c.overwrittenBy [s] := by
  have hfailed : s.hasFailed = false := beq_false_of_ne h
  unfold patched
  rw [hfailed]
  cases houtput : s.output? <;> simp [Context.overwrittenBy, houtput]

/-- A step that failed leaves the data as they are. -/
theorem patched_of_error {s : Step} (h : s.status = .error) (c : Context) : patched c s = c := by
  simp [patched, Step.hasFailed, h]

/-- Patching by steps that failed only without output is overwriting by all outputs. -/
theorem foldl_patched_eq_overwrittenBy {steps : List Step}
    (h : ∀ s ∈ steps, s.status = .error → s.output? = none) (c : Context) :
    steps.foldl patched c = c.overwrittenBy steps := by
  induction steps generalizing c with
  | nil => rfl
  | cons s rest ih =>
    have hrest := ih (fun t ht => h t (List.mem_cons_of_mem _ ht)) (patched c s)
    rw [List.foldl_cons, hrest]
    by_cases hstatus : s.status = .error
    · rw [patched_of_error hstatus]
      simp [Context.overwrittenBy, h s List.mem_cons_self hstatus]
    · rw [patched_of_ne_error hstatus]
      cases houtput : s.output? <;> simp [Context.overwrittenBy, houtput]

/-- The data that a step of the log meets are the initial data overwritten by the outputs of the
steps before it, none of which failed. -/
theorem Reachable.foldl_patched_take (h : Reachable Logs initialData r) {k : Nat}
    (hk : k < r.steps.length) :
    (r.steps.take k).foldl patched initialData = initialData.overwrittenBy (r.steps.take k) := by
  refine foldl_patched_eq_overwrittenBy (fun s hs hstatus => ?_) initialData
  obtain ⟨i, hi, rfl⟩ := List.getElem_of_mem hs
  rw [List.length_take] at hi
  rw [List.getElem_take] at hstatus
  have hlast := (h.coherent.error_last i (by omega) hstatus).1
  omega

/-- Steps that failed do not count for the data, whatever output they have. -/
theorem foldl_patched_filter {steps : List Step} {p : Step → Bool}
    (h : ∀ s ∈ steps, p s = false → s.status = .error) (c : Context) :
    (steps.filter p).foldl patched c = steps.foldl patched c := by
  induction steps generalizing c with
  | nil => rfl
  | cons s rest ih =>
    have hrest := ih fun t ht => h t (List.mem_cons_of_mem _ ht)
    cases hp : p s with
    | true => simp [hp, hrest]
    | false =>
      have hstatus := h s List.mem_cons_self hp
      simp [hp, hrest, patched_of_error hstatus]

/-- A step takes no name away from the data. -/
theorem isSome_get?_patched {c : Context} {name : String} (s : Step)
    (h : (c.get? name).isSome) : ((patched c s).get? name).isSome := by
  unfold patched
  split
  · exact h
  · split
    · exact Context.isSome_get?_override _ h
    · exact h

/-- While a run lasts no name disappears from its data. -/
theorem Move.isSome_get? (hmove : Move Logs initialData op r r') (hstart : op ≠ .start)
    (hreset : op ≠ .reset) {name : String} (h : (r.context.get? name).isSome) :
    (r'.context.get? name).isSome := by
  cases hmove with
  | refuse => exact h
  | start => exact absurd rfl hstart
  | rest => exact h
  | review _ hreview =>
    obtain ⟨-, rfl⟩ := reviewForward?_eq_some_iff.1 hreview
    exact h
  | extend => exact isSome_get?_patched _ h
  | finish => exact h
  | back => rw [stepBack_eq]; exact h
  | pause => exact h
  | resume => exact h
  | reset => exact absurd rfl hreset

/-- The operations that only look at a run or mark it. -/
def Browses (r : Run) (op : Operation) : Prop :=
  op = .back ∨ op = .pause ∨ op = .resume ∨ op = .forward ∧ r.isReviewing = true

/-- Looking at a run and marking it leave its data as they are. -/
theorem Move.context_eq (hmove : Move Logs initialData op r r') (h : r.Browses op) :
    r'.context = r.context := by
  cases hmove with
  | refuse => rfl
  | start => simp [Browses] at h
  | rest => rfl
  | review _ hreview =>
    obtain ⟨-, rfl⟩ := reviewForward?_eq_some_iff.1 hreview
    rfl
  | extend _ _ hreview => simp_all [Browses, reviewForward?]
  | finish => rfl
  | back => rw [stepBack_eq]
  | pause => rfl
  | resume => rfl
  | reset => simp [Browses] at h

end Run

/-! ## The local runner -/

namespace LocalRunner

variable {w : Workflow} {initialData context : Context} {s : Step} {r : LocalRunner}

/-- A step records the data that it met. -/
theorem Logged.input_eq (h : Logged initialData context s) : s.input = context := by
  obtain ⟨readings, n, rfl⟩ := h
  exact Handler.execute_input

/-- A step that failed has no output. -/
theorem Logged.output?_eq_none (h : Logged initialData context s) (hstatus : s.status = .error) :
    s.output? = none := by
  obtain ⟨readings, n, rfl⟩ := h
  exact (Handler.execute_of_error hstatus).2

/-- A step that did not fail succeeded. -/
theorem Logged.status_eq (h : Logged initialData context s) (hstatus : s.status ≠ .error) :
    s.status = .success := by
  obtain ⟨readings, n, rfl⟩ := h
  exact (Handler.execute_of_ne_error hstatus).1

/-- Every step of the log is one that was logged at some data. -/
theorem Reachable.exists_logged (h : Reachable w initialData r) (hs : s ∈ r.run.steps) :
    ∃ context, Logged initialData context s := by
  obtain ⟨i, hi, rfl⟩ := List.getElem_of_mem hs
  exact ⟨_, h.run.logs i hi⟩

/-- Steps of the log that failed have no output. -/
theorem Reachable.output?_eq_none (h : Reachable w initialData r) (hs : s ∈ r.run.steps)
    (hstatus : s.status = .error) : s.output? = none := by
  obtain ⟨context, hlogged⟩ := h.exists_logged hs
  exact hlogged.output?_eq_none hstatus

end LocalRunner

/-- In every state that operations lead the local runner to, the input of each step is the
initial data overwritten in order by the outputs of the steps before it, a step that failed has
no output, and the data are the initial data overwritten in order by the outputs of the steps
that succeeded.  No name disappears from the data unless the run is started anew or reset, and
looking at the run or marking it leaves the data as they are. -/
theorem data_threaded_of_reachable {w : Workflow} {initialData : Context} {r : LocalRunner}
    (h : LocalRunner.Reachable w initialData r) :
    (∀ (i : Nat) (hi : i < r.run.steps.length),
      r.run.steps[i].input = initialData.overwrittenBy (r.run.steps.take i)) ∧
    (∀ s ∈ r.run.steps, s.status = .error → s.output? = none) ∧
    r.run.context = initialData.overwrittenBy (r.run.steps.filter (·.status = .success)) ∧
    (∀ readings op, op ≠ .start → op ≠ .reset → ∀ name,
      (r.run.context.get? name).isSome → ((r.apply readings op).run.context.get? name).isSome) ∧
    (∀ readings op, r.run.Browses op → (r.apply readings op).run.context = r.run.context) := by
  refine ⟨fun i hi => ?_, fun s hs => h.output?_eq_none hs, ?_, ?_, ?_⟩
  · have hinput := (h.run.logs i hi).input_eq
    rw [hinput]
    exact Run.foldl_patched_eq_overwrittenBy
      (fun s hs => h.output?_eq_none (List.mem_of_mem_take hs)) initialData
  · have hfailed : ∀ s ∈ r.run.steps, decide (s.status = .success) = false → s.status = .error := by
      intro s hs hne
      obtain ⟨context, hlogged⟩ := h.exists_logged hs
      by_contra hstatus
      exact absurd (hlogged.status_eq hstatus) (of_decide_eq_false hne)
    rw [h.run.context_eq, ← Run.foldl_patched_filter hfailed]
    exact Run.foldl_patched_eq_overwrittenBy
      (fun s hs => h.output?_eq_none (List.mem_filter.1 hs).1) initialData
  · intro readings op hstart hreset name hsome
    exact (LocalRunner.apply_change readings r op).move.isSome_get? hstart hreset hsome
  · intro readings op hbrowses
    exact (LocalRunner.apply_change readings r op).move.context_eq hbrowses

/-- The third step of a run met the data overwritten by the outputs of the first two, and so the
decision of the second. -/
theorem data_threaded_fork :
    ∃ r, LocalRunner.Reachable Workflow.fork (.single "hot" (.bool true)) r ∧
      ∃ h : 2 < r.run.steps.length,
        r.run.steps[2].input =
          (Context.single "hot" (.bool true)).overwrittenBy (r.run.steps.take 2) ∧
        r.run.steps[2].input.get? "decision" = some (.bool true) ∧
        r.run.context = (Context.single "hot" (.bool true)).overwrittenBy
          (r.run.steps.filter (·.status = .success)) := by
  obtain ⟨r, hr, hlength, hdecision⟩ : ∃ r,
      LocalRunner.Reachable Workflow.fork (.single "hot" (.bool true)) r ∧
        ∃ h : 2 < r.run.steps.length,
          r.run.steps[2].input.get? "decision" = some (.bool true) :=
    ⟨_, ((LocalRunner.Reachable.new.apply .still .start).apply .still .forward).apply .still
      .forward, by decide +kernel, by decide +kernel⟩
  obtain ⟨hinput, -, hcontext, -⟩ := data_threaded_of_reachable hr
  exact ⟨r, hr, hlength, hinput 2 hlength, hdecision, hcontext⟩

end StepFlow
