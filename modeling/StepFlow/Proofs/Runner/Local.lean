import Mathlib.Tactic.Common
import StepFlow.Proofs.Graph
import StepFlow.Proofs.Handler
import StepFlow.Proofs.Run

/-!
# The operations of the local runner

What an operation does to a local runner, said once: `LocalRunner.Change` has a constructor for
each way in which an operation can turn out, and `LocalRunner.apply_change` says that there is
no other.  The run of the runner makes the corresponding move (`LocalRunner.Change.move`), so
that whatever moves preserve holds of every local runner that operations lead to.
-/

namespace StepFlow.LocalRunner

variable {w : Workflow} {initialData : Context} {readings : Readings} {op : Operation}
  {r r' : LocalRunner}

/-! ## Equations -/

/-- A runner that has just begun a new run and is about to execute its first node. -/
def begun (r : LocalRunner) : LocalRunner := { r.reset with run := Run.begun r.initialData }

theorem start_of_no_entry (h : r.workflow.entry? = none) :
    r.start readings = .error .noInputNode := by
  simp [start, h]

theorem start_of_entry {n : Node} (h : r.workflow.entry? = some n) :
    r.start readings = .ok (execute readings r.begun n) := by
  simp only [start, h]
  rfl

/-- A start that fails changes nothing. -/
theorem apply_start_of_no_entry (h : r.workflow.entry? = none) : r.apply readings .start = r := by
  simp [apply, start_of_no_entry h]

theorem apply_start_of_entry {n : Node} (h : r.workflow.entry? = some n) :
    r.apply readings .start = execute readings r.begun n := by
  simp [apply, start_of_entry h]

/-- A runner that has stopped is not stepped forward. -/
theorem forward_of_stopped (h : r.run.isRunning = false) : r.forward readings = r := by
  simp [forward, h]

/-- A step forward catches up with the log while the cursor trails it. -/
theorem forward_of_review {run : Run} (h : r.run.isRunning = true)
    (hreview : r.run.reviewForward? = some run) : r.forward readings = { r with run := run } := by
  simp [forward, h, hreview]

/-- A step forward from the last step executes the node that follows. -/
theorem forward_of_next {n : Node} (h : r.run.isRunning = true)
    (hreview : r.run.reviewForward? = none) (hnext : r.next? = some n) :
    r.forward readings = execute readings r n := by
  simp [forward, h, hreview, hnext]

/-- A step forward ends the run where no node follows. -/
theorem forward_of_end (h : r.run.isRunning = true) (hreview : r.run.reviewForward? = none)
    (hnext : r.next? = none) :
    r.forward readings = { r with run := { r.run with isRunning := false } } := by
  simp [forward, h, hreview, hnext]

/-- After an executed node follows its successor by the decision of its step. -/
theorem next?_execute {n : Node} : (execute readings r n).next? =
    r.workflow.successor? n.id
      (Handler.execute readings n r.run.context r.initialData).branch? := by
  simp [next?, execute, Run.commit, Run.lastStep?]

/-- An edge leads to the node that follows, and the node is found under its own identifier. -/
theorem exists_edge_of_next? {n : Node} (h : r.next? = some n) :
    ∃ e ∈ r.workflow.edges, n.id = e.target ∧ r.workflow.node? n.id = some n := by
  obtain ⟨s, -, hs⟩ := Option.bind_eq_some_iff.1 h
  obtain ⟨e, he, htarget⟩ := Workflow.successor?_eq_some_iff.1 hs
  have hid : n.id = e.target := (Workflow.mem_of_node? htarget).2
  rw [hid]
  exact ⟨e, he.mem, rfl, htarget⟩

/-- The node that follows is one of the workflow. -/
theorem mem_of_next? {n : Node} (h : r.next? = some n) : n ∈ r.workflow.nodes := by
  obtain ⟨e, -, -, hnode⟩ := exists_edge_of_next? h
  exact (Workflow.mem_of_node? hnode).1

/-! ## The ways in which an operation can turn out -/

/-- The ways in which an operation changes a local runner. -/
inductive Change (readings : Readings) (r : LocalRunner) : Operation → LocalRunner → Prop
  | refuse : r.workflow.entry? = none → Change readings r .start r
  | start {n : Node} : r.workflow.entry? = some n →
      Change readings r .start (execute readings r.begun n)
  | rest : r.run.isRunning = false → Change readings r .forward r
  | review {run : Run} : r.run.isRunning = true → r.run.reviewForward? = some run →
      Change readings r .forward { r with run := run }
  | extend {n : Node} : r.run.isRunning = true → r.run.reviewForward? = none →
      r.next? = some n → Change readings r .forward (execute readings r n)
  | finish : r.run.isRunning = true → r.run.reviewForward? = none → r.next? = none →
      Change readings r .forward { r with run := { r.run with isRunning := false } }
  | back : Change readings r .back r.back
  | pause : Change readings r .pause r.pause
  | resume : Change readings r .resume r.resume
  | reset : Change readings r .reset r.reset

/-- An operation turns out in one of these ways. -/
theorem apply_change (readings : Readings) (r : LocalRunner) (op : Operation) :
    Change readings r op (r.apply readings op) := by
  cases op with
  | start =>
    cases hentry : r.workflow.entry? with
    | none =>
      rw [apply_start_of_no_entry hentry]
      exact .refuse hentry
    | some n =>
      rw [apply_start_of_entry hentry]
      exact .start hentry
  | forward =>
    change Change readings r .forward (r.forward readings)
    cases hrunning : r.run.isRunning with
    | false =>
      rw [forward_of_stopped hrunning]
      exact .rest hrunning
    | true =>
      cases hreview : r.run.reviewForward? with
      | some run =>
        rw [forward_of_review hrunning hreview]
        exact .review hrunning hreview
      | none =>
        cases hnext : r.next? with
        | some n =>
          rw [forward_of_next hrunning hreview hnext]
          exact .extend hrunning hreview hnext
        | none =>
          rw [forward_of_end hrunning hreview hnext]
          exact .finish hrunning hreview hnext
  | back => exact .back
  | pause => exact .pause
  | resume => exact .resume
  | reset => exact .reset

/-- A runner keeps its workflow and its initial data. -/
theorem Change.keeps (h : Change readings r op r') :
    r'.workflow = r.workflow ∧ r'.initialData = r.initialData := by
  cases h <;> exact ⟨rfl, rfl⟩

/-- A step that the local runner logs at given data is that of a node executed on them. -/
def Logged (initialData context : Context) (s : Step) : Prop :=
  ∃ readings n, s = (Handler.execute readings n context initialData).step

/-- The run of a local runner changes by moves.  They log the nodes that the runner executes, each
of which is the entry or follows the last step. -/
theorem Change.moves {Logs : Context → Step → Prop} (h : Change readings r op r')
    (hlogs : ∀ context n, r.workflow.entry? = some n ∨ r.next? = some n →
      Logs context (Handler.execute readings n context r.initialData).step) :
    Run.Move Logs r.initialData op r.run r'.run := by
  cases h with
  | refuse => exact .refuse _
  | start hentry => exact .start _ _ (hlogs _ _ (.inl hentry))
  | rest hstopped => exact .rest hstopped
  | review hrunning hreview => exact .review hrunning hreview
  | extend hrunning hreview hnext => exact .extend _ hrunning hreview (hlogs _ _ (.inr hnext))
  | finish hrunning hreview _ => exact .finish hrunning hreview
  | back => exact .back _
  | pause => exact .pause _
  | resume => exact .resume _
  | reset => exact .reset _

/-- The moves of a local runner log executed nodes. -/
theorem Change.move (h : Change readings r op r') :
    Run.Move (Logged r.initialData) r.initialData op r.run r'.run :=
  h.moves fun _ n _ => ⟨readings, n, rfl⟩

/-- Once the run has stopped, only a start that succeeds or a reset changes its log and data. -/
theorem Change.stillAt (h : Change readings r op r') (hstopped : r.run.isRunning = false)
    (hreset : op ≠ .reset) (hstart : op = .start → ∃ fault, r.start readings = .error fault) :
    r.run.StillAt r'.run := by
  by_cases hop : op = .start
  · obtain ⟨fault, hfault⟩ := hstart hop
    subst hop
    cases h with
    | refuse => exact ⟨rfl, rfl, hstopped⟩
    | start hentry => rw [start_of_entry hentry] at hfault; cases hfault
  · exact h.move.stillAt hstopped hop hreset

/-! ## Reachable runners -/

/-- The states of a local runner that operations lead to. -/
inductive Reachable (w : Workflow) (initialData : Context) : LocalRunner → Prop
  | new : Reachable w initialData (new w initialData)
  | apply {r : LocalRunner} (readings : Readings) (op : Operation) :
      Reachable w initialData r → Reachable w initialData (r.apply readings op)

/-- A runner has the workflow and the initial data that it was made with. -/
theorem Reachable.made_with (h : Reachable w initialData r) :
    r.workflow = w ∧ r.initialData = initialData := by
  induction h with
  | new => exact ⟨rfl, rfl⟩
  | @apply r readings op _ ih =>
    obtain ⟨hworkflow, hinitial⟩ := (apply_change readings r op).keeps
    exact ⟨hworkflow.trans ih.1, hinitial.trans ih.2⟩

/-- The run of a local runner is one that moves lead to. -/
theorem Reachable.run (h : Reachable w initialData r) :
    Run.Reachable (Logged initialData) initialData r.run := by
  induction h with
  | new => exact .new
  | @apply r readings op hr ih =>
    have hmove := (apply_change readings r op).move
    rw [hr.made_with.2] at hmove
    exact ih.move hmove

/-! ## What operations return -/

/-- What an operation returns: the run after it, or the fault of a start that fails. -/
def returned (readings : Readings) (r : LocalRunner) : Operation → Except StartFault Run
  | .start => (r.start readings).map (·.run)
  | op => .ok (r.apply readings op).run

/-- What operations return that are carried out one after the other. -/
def trace (r : LocalRunner) : List (Operation × Readings) → List (Except StartFault Run)
  | [] => []
  | (op, readings) :: rest => r.returned readings op :: (r.apply readings op).trace rest

/-- An operation returns the run after it unless it starts a workflow without an entry. -/
theorem returned_eq : r.returned readings op =
    if op = .start ∧ r.workflow.entry? = none then .error .noInputNode
    else .ok (r.apply readings op).run := by
  cases op with
  | start =>
    cases hentry : r.workflow.entry? with
    | none => simp [returned, start_of_no_entry hentry, Except.map]
    | some n => simp [returned, start_of_entry hentry, apply_start_of_entry hentry, Except.map]
  | _ => rfl

/-- A run that is returned is that of a runner that operations lead to. -/
theorem Reachable.of_mem_trace {ops : List (Operation × Readings)} {run : Run}
    (h : Reachable w initialData r) (hrun : .ok run ∈ r.trace ops) :
    ∃ r', Reachable w initialData r' ∧ r'.run = run := by
  induction ops generalizing r with
  | nil => cases hrun
  | cons entry rest ih =>
    obtain ⟨op, readings⟩ := entry
    rcases List.mem_cons.1 hrun with hhead | htail
    · rw [returned_eq] at hhead
      split at hhead
      · cases hhead
      · exact ⟨_, h.apply readings op, (Except.ok.inj hhead).symm⟩
    · exact ih (h.apply readings op) htail

end StepFlow.LocalRunner
