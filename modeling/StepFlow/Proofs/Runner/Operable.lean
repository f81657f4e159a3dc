import Mathlib.Tactic.Common
import StepFlow.Proofs.Runner.Local
import StepFlow.Proofs.Runner.Remote

/-!
# Operations one after the other

What can be said of operations that follow each other is much the same for both runners.
`Operable` is what they have in common: a run, operations that take something from outside, and
what an operation does outside of the runner.  The local runner takes the readings of a clock and
executes nodes; the remote runner takes the time and an answer, and sends requests.  The law of an
operable runner ties the two sides together: while no run is begun or forgotten, a step is logged
for each act and no other step.
-/

namespace StepFlow

/-- Whether an operation goes on with a run, and neither begins a new one nor forgets it. -/
def Operation.navigates : Operation → Bool
  | .start => false
  | .reset => false
  | _ => true

/-- A runner that is operated from outside, with its run, what an operation makes of the runner
and what it does outside of it. -/
structure Operable (σ ι ε : Type) where
  run : σ → Run
  apply : ι → σ → Operation → σ
  act? : ι → σ → Operation → Option ε
  /-- An operation that goes on with the run logs a step exactly where it acts outside. -/
  logs : ∀ i s op, op.navigates = true → ∃ logged : List Step,
    (run (apply i s op)).steps = (run s).steps ++ logged ∧
      logged.length = (act? i s op).toList.length

namespace Operable

variable {σ ι ε : Type} (m : Operable σ ι ε)

/-- The runner after operations that are carried out one after the other. -/
def after : σ → List (Operation × ι) → σ
  | s, [] => s
  | s, (op, i) :: rest => after (m.apply i s op) rest

/-- What operations that are carried out one after the other do outside of the runner. -/
def acts : σ → List (Operation × ι) → List ε
  | _, [] => []
  | s, (op, i) :: rest => (m.act? i s op).toList ++ acts (m.apply i s op) rest

@[simp] theorem after_nil (s : σ) : m.after s [] = s := rfl

@[simp] theorem after_cons (s : σ) (op : Operation) (i : ι) (rest : List (Operation × ι)) :
    m.after s ((op, i) :: rest) = m.after (m.apply i s op) rest := rfl

@[simp] theorem acts_nil (s : σ) : m.acts s [] = [] := rfl

@[simp] theorem acts_cons (s : σ) (op : Operation) (i : ι) (rest : List (Operation × ι)) :
    m.acts s ((op, i) :: rest) = (m.act? i s op).toList ++ m.acts (m.apply i s op) rest := rfl

theorem after_append (s : σ) (ops rest : List (Operation × ι)) :
    m.after s (ops ++ rest) = m.after (m.after s ops) rest := by
  induction ops generalizing s with
  | nil => rfl
  | cons entry ops ih =>
    obtain ⟨op, i⟩ := entry
    exact ih (m.apply i s op)

theorem acts_append (s : σ) (ops rest : List (Operation × ι)) :
    m.acts s (ops ++ rest) = m.acts s ops ++ m.acts (m.after s ops) rest := by
  induction ops generalizing s with
  | nil => rfl
  | cons entry ops ih =>
    obtain ⟨op, i⟩ := entry
    simp only [List.cons_append, acts_cons, after_cons, ih, List.append_assoc]

end Operable

/-! ## The local runner -/

namespace LocalRunner

variable {w : Workflow} {initialData : Context} {readings : Readings} {op : Operation}
  {r : LocalRunner}

/-- The node that an operation executes: the entry at a start, and at a step forward from the last
step the node that follows. -/
def executes? (r : LocalRunner) : Operation → Option Node
  | .start => r.workflow.entry?
  | .forward => if r.run.isRunning && !r.run.isReviewing then r.next? else none
  | _ => none

/-- The local runner, operated with the readings that are taken for every step. -/
def operable : Operable LocalRunner Readings Node where
  run r := r.run
  apply readings r op := r.apply readings op
  act? _ r op := r.executes? op
  logs readings r op hop := by
    generalize happly : r.apply readings op = r'
    have hchange := apply_change readings r op
    rw [happly] at hchange
    cases hchange with
    | refuse => cases hop
    | start => cases hop
    | rest hstopped => exact ⟨[], by simp, by simp [executes?, hstopped]⟩
    | review hrunning hreview =>
      obtain ⟨hcursor, rfl⟩ := Run.reviewForward?_eq_some_iff.1 hreview
      exact ⟨[], by simp, by simp [executes?, Run.isReviewing, hcursor]⟩
    | extend hrunning hreview hnext =>
      have hlast : r.run.isReviewing = false := by simpa [Run.reviewForward?] using hreview
      exact ⟨[_], rfl, by simp [executes?, hrunning, hlast, hnext]⟩
    | finish hrunning hreview hnext => exact ⟨[], by simp, by simp [executes?, hnext]⟩
    | back => exact ⟨[], by simp [LocalRunner.back, Run.stepBack_eq], rfl⟩
    | pause => exact ⟨[], by simp [LocalRunner.pause], rfl⟩
    | resume => exact ⟨[], by simp [LocalRunner.resume], rfl⟩
    | reset => cases hop

/-- A runner that operations lead to is led to others by further operations. -/
theorem Reachable.after (h : Reachable w initialData r) (ops : List (Operation × Readings)) :
    Reachable w initialData (operable.after r ops) := by
  induction ops generalizing r with
  | nil => exact h
  | cons entry rest ih => exact ih (h.apply entry.2 entry.1)

end LocalRunner

/-! ## The remote runner -/

/-- A request that was sent, with what came back for it. -/
structure Exchange where
  request : StepRequest
  answer : Answer

namespace RemoteRunner

variable {w : Workflow} {initialData : Context} {timeoutMs : UInt64} {transport : Transport}
  {op : Operation} {r : RemoteRunner} {nodeId : String}

/-- The exchange of an operation, where it sends a request. -/
def exchange? (transport : Transport) (r : RemoteRunner) (op : Operation) : Option Exchange :=
  (r.begin op).request?.map fun q => ⟨q, transport q⟩

/-- The exchange in which a runner asks for a node. -/
def exchange (transport : Transport) (r : RemoteRunner) (nodeId : String) : Exchange :=
  ⟨r.request nodeId, transport (r.request nodeId)⟩

/-- A start asks for the entry of the workflow, at the initial data. -/
theorem exchange?_start_of_entry {n : Node} (h : r.workflow.entry? = some n) :
    r.exchange? transport .start = some (r.begun.exchange transport n.id) := by
  simp only [exchange?, begin, beginStart, h]
  rfl

/-- A start without an entry sends nothing. -/
theorem exchange?_start_of_no_entry (h : r.workflow.entry? = none) :
    r.exchange? transport .start = none := by
  simp [exchange?, begin, beginStart, h, Pending.request?]

/-- A step forward from the last step asks for the node that the last reply named. -/
theorem exchange?_forward_of_next (h : r.run.isRunning = true)
    (hreview : r.run.reviewForward? = none) (hnext : r.nextNodeId? = some nodeId) :
    r.exchange? transport .forward = some (r.exchange transport nodeId) := by
  simp [exchange?, exchange, begin, beginForward, h, hreview, hnext, Pending.request?, request]

/-- Catching up with the log sends nothing. -/
theorem exchange?_forward_of_review {run : Run} (h : r.run.isRunning = true)
    (hreview : r.run.reviewForward? = some run) : r.exchange? transport .forward = none := by
  simp [exchange?, begin, beginForward, h, hreview, Pending.request?]

/-- Where the last reply named no node, nothing is sent. -/
theorem exchange?_forward_of_end (h : r.run.isRunning = true)
    (hreview : r.run.reviewForward? = none) (hnext : r.nextNodeId? = none) :
    r.exchange? transport .forward = none := by
  simp [exchange?, begin, beginForward, h, hreview, hnext, Pending.request?]

/-- Only starts and steps forward send requests. -/
theorem exchange?_eq_none (hstart : op ≠ .start) (hforward : op ≠ .forward) :
    r.exchange? transport op = none := by
  cases op with
  | start => exact absurd rfl hstart
  | forward => exact absurd rfl hforward
  | _ => rfl

/-- A runner that has stopped sends nothing until it is started again. -/
theorem exchange?_of_stopped (h : r.run.isRunning = false) (hop : op ≠ .start) :
    r.exchange? transport op = none := by
  by_cases hforward : op = .forward
  · subst hforward
    simp [exchange?, begin, beginForward, h, Pending.request?]
  · exact exchange?_eq_none hop hforward

/-- The remote runner, operated with a time and an answer for every step. -/
def operable : Operable RemoteRunner (Instant × Transport) Exchange where
  run r := r.run
  apply i r op := r.apply i.1 i.2 op
  act? i r op := r.exchange? i.2 op
  logs i r op hop := by
    obtain ⟨now, transport⟩ := i
    generalize happly : r.apply now transport op = r'
    have hchange := apply_change now transport r op
    rw [happly] at hchange
    cases hchange with
    | refuse => cases hop
    | start => cases hop
    | rest hstopped => exact ⟨[], by simp, by simp [exchange?_of_stopped hstopped]⟩
    | review hrunning hreview =>
      have hsteps := (Run.reviewForward?_eq_some_iff.1 hreview).2
      exact ⟨[], by simp [hsteps], by simp [exchange?_forward_of_review hrunning hreview]⟩
    | @extend nodeId hrunning hreview hnext =>
      obtain ⟨s, halt, next?, heq⟩ := receive_eq now { r with nextNodeId? := none } nodeId
        (transport (request { r with nextNodeId? := none } nodeId))
      refine ⟨[s], by rw [delegate, heq]; rfl, ?_⟩
      simp [exchange?_forward_of_next hrunning hreview hnext]
    | finish hrunning hreview hnext =>
      exact ⟨[], by simp, by simp [exchange?_forward_of_end hrunning hreview hnext]⟩
    | back => exact ⟨[], by simp [RemoteRunner.back, Run.stepBack_eq], rfl⟩
    | pause => exact ⟨[], by simp [RemoteRunner.pause], rfl⟩
    | resume => exact ⟨[], by simp [RemoteRunner.resume], rfl⟩
    | reset => cases hop

/-- A runner that operations lead to is led to others by further operations. -/
theorem Reachable.after (h : Reachable w initialData timeoutMs r)
    (ops : List (Operation × Instant × Transport)) :
    Reachable w initialData timeoutMs (operable.after r ops) := by
  induction ops generalizing r with
  | nil => exact h
  | cons entry rest ih => exact ih (h.apply entry.2.1 entry.2.2 entry.1)

end RemoteRunner

end StepFlow
