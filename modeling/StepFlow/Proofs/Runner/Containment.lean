import Mathlib.Tactic.Common
import StepFlow.Proofs.Graph
import StepFlow.Proofs.Runner.Operable
import StepFlow.Runner.Service

/-!
# Failed requests

A request can fail on the way, and it can bring a reply that reports an error; the first leaves the
remote runner without the name of a next node, the second leaves it with whatever name the reply
gave.  `RemoteRunner.failed_request_contained` says that the difference never shows: either way one
failed step is logged, nothing of the answer gets into the data, and the run has stopped for good.
What makes both equally harmless is that a run that has stopped asks for nothing
(`RemoteRunner.silent_of_stopped`), so that a name that was left behind is not looked at before a
start or a reset takes it away.
-/

namespace StepFlow

/-- The wording of a fault on the way is never blank. -/
theorem TransportFault.message_ne_empty (fault : TransportFault) : fault.message ≠ "" := by
  intro hempty
  rcases fault with ms | text | text
  · exact absurd (String.append_eq_empty_iff.1 hempty).2 (by decide)
  · exact absurd (String.append_eq_empty_iff.1 hempty).1 (by decide)
  · exact absurd (String.append_eq_empty_iff.1 hempty).1 (by decide)

namespace Run

variable {r r' r'' : Run} {s : Step}

/-- A failed step is logged without a trace in the data, and stops the run. -/
theorem commit_of_error (h : s.status = .error) (halt : Bool) :
    (r.commit s halt).steps = r.steps ++ [s] ∧ (r.commit s halt).context = r.context ∧
      (r.commit s halt).isRunning = false ∧ (r.commit s halt).phase = .errored := by
  have hstopped : (r.commit s halt).isRunning = false := by simp [commit, Step.hasFailed, h]
  refine ⟨rfl, by simp [commit, patched, Step.hasFailed, h], hstopped, ?_⟩
  exact phase_eq_errored_iff.2 ⟨hstopped, s, by simp [commit], h⟩

theorem StillAt.trans (h : r.StillAt r') (h' : r'.StillAt r'') : r.StillAt r'' :=
  ⟨h'.1.trans h.1, h'.2.1.trans h.2.1, h'.2.2⟩

end Run

namespace RemoteRunner

variable {op : Operation} {r : RemoteRunner} {nodeId : String} {now : Instant}
  {transport : Transport}

/-! ## Runs that have stopped -/

/-- A runner that has stopped sends nothing and leaves its log and its data as they are, in whatever
order it is looked at, marked and asked to go on. -/
theorem silent_of_stopped (hstopped : r.run.isRunning = false)
    {ops : List (Operation × Instant × Transport)} (hops : ∀ o ∈ ops, o.1.navigates = true) :
    operable.acts r ops = [] ∧ r.run.StillAt (operable.after r ops).run := by
  induction ops generalizing r with
  | nil => exact ⟨rfl, rfl, rfl, hstopped⟩
  | cons o rest ih =>
    obtain ⟨op, now, transport⟩ := o
    have hop : op.navigates = true := hops (op, now, transport) List.mem_cons_self
    have hstart : op ≠ .start := by rintro rfl; cases hop
    have hreset : op ≠ .reset := by rintro rfl; cases hop
    have hstill : r.run.StillAt (r.apply now transport op).run :=
      (apply_change now transport r op).stillAt hstopped hreset (absurd · hstart)
    obtain ⟨hacts, hrest⟩ := ih hstill.2.2 fun o ho => hops o (List.mem_cons_of_mem _ ho)
    have hnone : operable.act? (now, transport) r op = none := exchange?_of_stopped hstopped hstart
    refine ⟨?_, hstill.trans hrest⟩
    rw [Operable.acts_cons, hnone]
    exact hacts

/-! ## Requests that fail -/

/-- An operation that asks for a node, together with the run as it is when the request is sent: a
start asks in a run that has just begun, and a step forward asks in a run that goes on and is looked
at its last step. -/
inductive Asks (r : RemoteRunner) : Operation → Run → String → Prop
  | start {n : Node} : r.workflow.entry? = some n → Asks r .start (Run.begun r.initialData) n.id
  | forward {nodeId : String} : r.run.isRunning = true → r.run.cursor = r.run.lastIndex →
      r.nextNodeId? = some nodeId → Asks r .forward r.run nodeId

/-- Such an operation sends a request and logs what comes back for it. -/
theorem Asks.exists_delegate {before : Run} (h : r.Asks op before nodeId) (now : Instant)
    (transport : Transport) :
    ∃ q : RemoteRunner, q.run = before ∧
      r.exchange? transport op = some (q.exchange transport nodeId) ∧
      r.apply now transport op = q.delegate now transport nodeId := by
  cases h with
  | start hentry =>
    exact ⟨r.begun, rfl, exchange?_start_of_entry hentry, apply_start_of_entry hentry⟩
  | forward hrunning hcursor hnext =>
    have hreview : r.run.reviewForward? = none := by
      simp [Run.reviewForward?, Run.isReviewing, hcursor]
    exact ⟨{ r with nextNodeId? := none }, rfl,
      exchange?_forward_of_next hrunning hreview hnext, forward_of_next hrunning hreview hnext⟩

/-- An answer at which the step of a node fails: it is unusable, or a reply that reports an error. -/
def Fails (nodeId : String) (answer : Answer) : Prop :=
  Unusable nodeId answer ∨ ∃ p, answer = .reply p ∧ p.status = .error

/-- A request that fails is logged as a failed step of its node; if the answer was unusable, the
step has the data of the run as its input, no output, and the wording of the fault. -/
theorem delegate_of_fails (now : Instant)
    (hfails : Fails nodeId (r.exchange transport nodeId).answer) :
    ∃ s halt next?, r.delegate now transport nodeId =
        { r with run := r.run.commit s halt, nextNodeId? := next? } ∧
      s.nodeId = nodeId ∧ s.status = .error ∧
      (Unusable nodeId (r.exchange transport nodeId).answer →
        s.input = r.run.context ∧ s.output? = none ∧ ∃ text, s.error? = some text ∧ text ≠ "") := by
  rcases unusable_or_reply nodeId (transport (r.request nodeId)) with hbad | ⟨p, hreply, hid⟩
  · obtain ⟨fault, heq⟩ := receive_unusable hbad now r
    exact ⟨_, _, _, heq, rfl, rfl, fun _ => ⟨rfl, rfl, _, rfl, fault.message_ne_empty⟩⟩
  · have husable : ¬Unusable nodeId (r.exchange transport nodeId).answer := by
      rw [exchange, hreply]
      rintro (_ | _ | hother)
      exact hother hid
    have hstatus : p.status = .error := by
      rcases hfails with hbad | ⟨p', hreply', hstatus⟩
      · exact absurd hbad husable
      · rw [exchange, hreply] at hreply'
        cases hreply'
        exact hstatus
    exact ⟨_, _, _, by rw [delegate, hreply, receive_reply hid rfl], hid, hstatus,
      fun hbad => absurd hbad husable⟩

/-- A request that fails, by a fault on the way, by silence, by a reply for another node or by a
reply that reports an error, does no more than log one failed step of the node that was asked for:
the data are those before the request, and the run has stopped in the phase of a failure.  However
the runner is looked at, marked and asked to go on afterwards, it sends nothing, and its log and its
data stay as they are.  A step that failed on the way has the data of the run as its input, no output
and a text. -/
theorem failed_request_contained {before : Run} (hasks : r.Asks op before nodeId) (now : Instant)
    (transport : Transport) {x : Exchange} (hsent : r.exchange? transport op = some x)
    (hfails : Fails nodeId x.answer) :
    (∃ s, (r.apply now transport op).run.steps = before.steps ++ [s] ∧ s.nodeId = nodeId ∧
      s.status = .error ∧
      (Unusable nodeId x.answer →
        s.input = before.context ∧ s.output? = none ∧ ∃ text, s.error? = some text ∧ text ≠ "")) ∧
    (r.apply now transport op).run.context = before.context ∧
    (r.apply now transport op).run.isRunning = false ∧
    (r.apply now transport op).run.phase = .errored ∧
    ∀ later : List (Operation × Instant × Transport), (∀ o ∈ later, o.1.navigates = true) →
      operable.acts (r.apply now transport op) later = [] ∧
      (r.apply now transport op).run.StillAt
        (operable.after (r.apply now transport op) later).run := by
  obtain ⟨q, rfl, hexchange, happly⟩ := hasks.exists_delegate now transport
  rw [hsent] at hexchange
  cases hexchange
  obtain ⟨s, halt, next?, heq, hid, hstatus, htext⟩ := delegate_of_fails now hfails
  obtain ⟨hsteps, hcontext, hstopped, hphase⟩ := q.run.commit_of_error hstatus halt
  have hrun : (r.apply now transport op).run = q.run.commit s halt := by rw [happly, heq]
  rw [hrun]
  refine ⟨⟨s, hsteps, hid, hstatus, htext⟩, hcontext, hstopped, hphase, ?_⟩
  intro later hlater
  rw [← hrun] at hstopped ⊢
  exact silent_of_stopped hstopped hlater

/-- A reply for the node `check` that reports an error, and yet has an output and names a node. -/
def brokenReply : StepReply where
  nodeId := "check"
  nodeName := "check"
  nodeType := "decision"
  status := .error
  input := .empty
  output? := some (.single "hot" (.bool false))
  error? := none
  elapsedMs := 0
  nextNodeId? := some "cool"

/-- An error reply to the second request of a run is contained: its output is not merged, and the
node that it names is never asked for. -/
theorem failed_request_contained_broken :
    ∃ r q, r = (new Workflow.fork (.single "hot" (.bool true)) 30000).apply Readings.still.now
        (Service.transport .still) .start ∧
      q = r.apply Readings.still.now (fun _ => .reply brokenReply) .forward ∧
      r.Asks .forward r.run "check" ∧ q.nextNodeId? = some "cool" ∧
      q.run.context = .single "hot" (.bool true) ∧ q.run.phase = .errored ∧
      operable.acts q [(.forward, Readings.still.now, Service.transport .still)] = [] := by
  obtain ⟨r, hr⟩ : ∃ r, r = (new Workflow.fork (.single "hot" (.bool true)) 30000).apply
      Readings.still.now (Service.transport .still) .start := ⟨_, rfl⟩
  have hrunning : r.run.isRunning = true := by rw [hr]; decide +kernel
  have hcursor : r.run.cursor = r.run.lastIndex := by rw [hr]; decide +kernel
  have hnext : r.nextNodeId? = some "check" := by rw [hr]; decide +kernel
  have hcontext : r.run.context = .single "hot" (.bool true) := by rw [hr]; decide +kernel
  have hasks : r.Asks .forward r.run "check" := .forward hrunning hcursor hnext
  obtain ⟨_, -, hsent, -⟩ :=
    hasks.exists_delegate Readings.still.now fun _ => .reply brokenReply
  obtain ⟨-, hdata, -, hphase, hlater⟩ :=
    failed_request_contained hasks Readings.still.now (fun _ => .reply brokenReply) hsent
      (.inr ⟨brokenReply, rfl, rfl⟩)
  refine ⟨r, _, hr, rfl, hasks, ?_, hdata.trans hcontext, hphase, (hlater _ (by decide)).1⟩
  rw [hr]
  decide +kernel

end RemoteRunner

end StepFlow
