import Mathlib.Tactic.Common
import StepFlow.Proofs.Run
import StepFlow.Runner.Remote

/-!
# The operations of the remote runner

What an operation does to a remote runner, whatever answers its request: `RemoteRunner.Change`
has a constructor for each way in which an operation can turn out, and
`RemoteRunner.apply_change` says that there is no other.  An answer may be a reply with any
status, a reply for another node, a fault or nothing at all; in each case exactly one step is
logged (`RemoteRunner.receive_eq`), so that the run makes one of the moves of `Run.Move`.
-/

namespace StepFlow.RemoteRunner

variable {w : Workflow} {initialData : Context} {timeoutMs : UInt64} {now : Instant}
  {transport : Transport} {op : Operation} {r r' : RemoteRunner}

/-! ## Equations -/

/-- A runner that has just begun a new run and is about to ask for its first node. -/
def begun (r : RemoteRunner) : RemoteRunner := { r.reset with run := Run.begun r.initialData }

/-- A runner that has asked for a node and logs what comes back. -/
def delegate (now : Instant) (transport : Transport) (r : RemoteRunner) (nodeId : String) :
    RemoteRunner :=
  r.receive now nodeId (transport (r.request nodeId))

theorem start_of_no_entry (h : r.workflow.entry? = none) :
    r.start now transport = .error .noInputNode := by
  simp [start, beginStart, h, Except.map]

theorem start_of_entry {n : Node} (h : r.workflow.entry? = some n) :
    r.start now transport = .ok (r.begun.delegate now transport n.id) := by
  simp only [start, beginStart, h]
  rfl

/-- A start that fails changes nothing and sends nothing. -/
theorem apply_start_of_no_entry (h : r.workflow.entry? = none) :
    r.apply now transport .start = r := by
  simp [apply, begin, beginStart, h, Pending.finish]

theorem apply_start_of_entry {n : Node} (h : r.workflow.entry? = some n) :
    r.apply now transport .start = r.begun.delegate now transport n.id := by
  simp only [apply, begin, beginStart, h]
  rfl

/-- A runner that has stopped is not stepped forward and sends nothing. -/
theorem forward_of_stopped (h : r.run.isRunning = false) : r.forward now transport = r := by
  simp [forward, beginForward, h, Pending.finish]

/-- A step forward catches up with the log while the cursor trails it, and sends nothing. -/
theorem forward_of_review {run : Run} (h : r.run.isRunning = true)
    (hreview : r.run.reviewForward? = some run) :
    r.forward now transport = { r with run := run } := by
  simp [forward, beginForward, h, hreview, Pending.finish]

/-- A step forward from the last step asks for the node that the last reply named. -/
theorem forward_of_next {nodeId : String} (h : r.run.isRunning = true)
    (hreview : r.run.reviewForward? = none) (hnext : r.nextNodeId? = some nodeId) :
    r.forward now transport = delegate now transport { r with nextNodeId? := none } nodeId := by
  simp [forward, beginForward, h, hreview, hnext, Pending.finish, delegate]

/-- A step forward ends the run where the last reply named no node. -/
theorem forward_of_end (h : r.run.isRunning = true) (hreview : r.run.reviewForward? = none)
    (hnext : r.nextNodeId? = none) :
    r.forward now transport = { r with run := { r.run with isRunning := false } } := by
  simp [forward, beginForward, h, hreview, hnext, Pending.finish]

/-- Whatever comes back for a request, exactly one step is logged. -/
theorem receive_eq (now : Instant) (r : RemoteRunner) (nodeId : String) (answer : Answer) :
    ∃ s halt next?, r.receive now nodeId answer =
      { r with run := r.run.commit s halt, nextNodeId? := next? } := by
  unfold receive
  split
  · exact ⟨_, _, _, rfl⟩
  · exact ⟨_, _, _, rfl⟩

/-- A reply for the node that was asked for is logged as it is, and its status and the type of
its node tell whether the run goes on. -/
theorem receive_reply {nodeId : String} {p : StepReply} {halt : Bool} (hid : p.nodeId = nodeId)
    (hhalt : halt = (p.status == .error || Role.isTerminalType p.nodeType)) :
    r.receive now nodeId (.reply p) =
      { r with run := r.run.commit (p.toStep now) halt, nextNodeId? := p.nextNodeId? } := by
  simp [receive, Answer.within, Except.bind, checkReply, hid, hhalt]

/-- What comes back for a request without being a reply for the node that was asked for: a fault,
nothing at all, or a reply for another node. -/
inductive Unusable (nodeId : String) : Answer → Prop
  | fault (fault : TransportFault) : Unusable nodeId (.fault fault)
  | silence : Unusable nodeId .silence
  | elsewhere {p : StepReply} : p.nodeId ≠ nodeId → Unusable nodeId (.reply p)

/-- An answer is unusable, or it is a reply for the node that was asked for. -/
theorem unusable_or_reply (nodeId : String) (answer : Answer) :
    Unusable nodeId answer ∨ ∃ p, answer = .reply p ∧ p.nodeId = nodeId := by
  cases answer with
  | fault fault => exact .inl (.fault fault)
  | silence => exact .inl .silence
  | reply p =>
    by_cases hid : p.nodeId = nodeId
    · exact .inr ⟨p, rfl, hid⟩
    · exact .inl (.elsewhere hid)

/-- An unusable answer is logged as a failed step, and no node is to follow. -/
theorem receive_unusable {nodeId : String} {answer : Answer} (h : Unusable nodeId answer)
    (now : Instant) (r : RemoteRunner) :
    ∃ fault, r.receive now nodeId answer =
      { r with run := r.run.commit (r.failedStep now nodeId fault) true, nextNodeId? := none } := by
  cases h with
  | fault fault => exact ⟨fault, rfl⟩
  | silence => exact ⟨.timeout r.timeoutMs, rfl⟩
  | elsewhere hid =>
    unfold receive
    rw [Answer.within, Except.bind, checkReply, if_neg hid]
    exact ⟨_, rfl⟩

/-- The first half of an operation leaves the workflow as it is. -/
theorem begin_workflow (r : RemoteRunner) (op : Operation) :
    (r.begin op).runner.workflow = r.workflow := by
  cases op with
  | start =>
    unfold begin beginStart
    cases r.workflow.entry? <;> rfl
  | forward =>
    change r.beginForward.runner.workflow = r.workflow
    unfold beginForward
    split
    · rfl
    · cases r.run.reviewForward? with
      | some run => rfl
      | none => cases r.nextNodeId? <;> rfl
  | _ => rfl

/-- An operation looks at the answers to requests with the nodes of the workflow and at no other
answers. -/
theorem apply_congr {t t' : Transport} (h : ∀ q, q.nodes = r.workflow.nodes → t q = t' q)
    (now : Instant) (op : Operation) : r.apply now t op = r.apply now t' op := by
  have hnodes (nodeId : String) :
      ((r.begin op).runner.request nodeId).nodes = r.workflow.nodes :=
    congrArg Workflow.nodes (r.begin_workflow op)
  unfold apply Pending.finish
  cases (r.begin op).nodeId? with
  | none => rfl
  | some nodeId => simp only [h _ (hnodes nodeId)]

/-! ## The ways in which an operation can turn out -/

/-- The ways in which an operation changes a remote runner. -/
inductive Change (now : Instant) (transport : Transport) (r : RemoteRunner) :
    Operation → RemoteRunner → Prop
  | refuse : r.workflow.entry? = none → Change now transport r .start r
  | start {n : Node} : r.workflow.entry? = some n →
      Change now transport r .start (r.begun.delegate now transport n.id)
  | rest : r.run.isRunning = false → Change now transport r .forward r
  | review {run : Run} : r.run.isRunning = true → r.run.reviewForward? = some run →
      Change now transport r .forward { r with run := run }
  | extend {nodeId : String} : r.run.isRunning = true → r.run.reviewForward? = none →
      r.nextNodeId? = some nodeId →
      Change now transport r .forward
        (delegate now transport { r with nextNodeId? := none } nodeId)
  | finish : r.run.isRunning = true → r.run.reviewForward? = none → r.nextNodeId? = none →
      Change now transport r .forward { r with run := { r.run with isRunning := false } }
  | back : Change now transport r .back r.back
  | pause : Change now transport r .pause r.pause
  | resume : Change now transport r .resume r.resume
  | reset : Change now transport r .reset r.reset

/-- An operation turns out in one of these ways. -/
theorem apply_change (now : Instant) (transport : Transport) (r : RemoteRunner) (op : Operation) :
    Change now transport r op (r.apply now transport op) := by
  cases op with
  | start =>
    cases hentry : r.workflow.entry? with
    | none =>
      rw [apply_start_of_no_entry hentry]
      exact .refuse hentry
    | some n =>
      rw [apply_start_of_entry hentry]
      exact .start hentry
  | forward =>
    change Change now transport r .forward (r.forward now transport)
    cases hrunning : r.run.isRunning with
    | false =>
      rw [forward_of_stopped hrunning]
      exact .rest hrunning
    | true =>
      cases hreview : r.run.reviewForward? with
      | some run =>
        rw [forward_of_review hrunning hreview]
        exact .review hrunning hreview
      | none =>
        cases hnext : r.nextNodeId? with
        | some nodeId =>
          rw [forward_of_next hrunning hreview hnext]
          exact .extend hrunning hreview hnext
        | none =>
          rw [forward_of_end hrunning hreview hnext]
          exact .finish hrunning hreview hnext
  | back => exact .back
  | pause => exact .pause
  | resume => exact .resume
  | reset => exact .reset

/-- A runner keeps its workflow and its initial data. -/
theorem Change.keeps (h : Change now transport r op r') :
    r'.workflow = r.workflow ∧ r'.initialData = r.initialData := by
  have hdelegate : ∀ (q : RemoteRunner) (nodeId : String),
      (q.delegate now transport nodeId).workflow = q.workflow ∧
        (q.delegate now transport nodeId).initialData = q.initialData := by
    intro q nodeId
    obtain ⟨s, halt, next?, heq⟩ := receive_eq now q nodeId (transport (q.request nodeId))
    rw [delegate, heq]
    exact ⟨rfl, rfl⟩
  cases h with
  | start => exact hdelegate r.begun _
  | extend => exact hdelegate { r with nextNodeId? := none } _
  | _ => exact ⟨rfl, rfl⟩

/-- The run of a remote runner changes by moves.  They log what comes back when the runner asks for
a node. -/
theorem Change.moves {Logs : Context → Step → Prop} (h : Change now transport r op r')
    (hlogs : ∀ (q : RemoteRunner) (nodeId : String), q.workflow = r.workflow →
      ∃ s halt, (q.delegate now transport nodeId).run = q.run.commit s halt ∧
        Logs q.run.context s) :
    Run.Move Logs r.initialData op r.run r'.run := by
  cases h with
  | refuse => exact .refuse _
  | @start n _ =>
    obtain ⟨s, halt, heq, hlog⟩ := hlogs r.begun n.id rfl
    rw [heq]
    exact .start _ halt hlog
  | rest hstopped => exact .rest hstopped
  | review hrunning hreview => exact .review hrunning hreview
  | @extend nodeId hrunning hreview _ =>
    obtain ⟨s, halt, heq, hlog⟩ := hlogs { r with nextNodeId? := none } nodeId rfl
    rw [heq]
    exact .extend halt hrunning hreview hlog
  | finish hrunning hreview _ => exact .finish hrunning hreview
  | back => exact .back _
  | pause => exact .pause _
  | resume => exact .resume _
  | reset => exact .reset _

/-- Any step may be logged by the moves of a remote runner. -/
theorem Change.move (h : Change now transport r op r') :
    Run.Move (fun _ _ => True) r.initialData op r.run r'.run := by
  refine h.moves fun q nodeId _ => ?_
  obtain ⟨s, halt, next?, heq⟩ := receive_eq now q nodeId (transport (q.request nodeId))
  exact ⟨s, halt, by rw [delegate, heq], trivial⟩

/-- Once the run has stopped, only a start that succeeds or a reset changes its log and data. -/
theorem Change.stillAt (h : Change now transport r op r') (hstopped : r.run.isRunning = false)
    (hreset : op ≠ .reset) (hstart : op = .start → ∃ fault, r.start now transport = .error fault) :
    r.run.StillAt r'.run := by
  by_cases hop : op = .start
  · obtain ⟨fault, hfault⟩ := hstart hop
    subst hop
    cases h with
    | refuse => exact ⟨rfl, rfl, hstopped⟩
    | start hentry => rw [start_of_entry hentry] at hfault; cases hfault
  · exact h.move.stillAt hstopped hop hreset

/-! ## Reachable runners -/

/-- The states of a remote runner that operations lead to, whatever answers its requests. -/
inductive Reachable (w : Workflow) (initialData : Context) (timeoutMs : UInt64) :
    RemoteRunner → Prop
  | new : Reachable w initialData timeoutMs (new w initialData timeoutMs)
  | apply {r : RemoteRunner} (now : Instant) (transport : Transport) (op : Operation) :
      Reachable w initialData timeoutMs r →
      Reachable w initialData timeoutMs (r.apply now transport op)

/-- A runner has the workflow and the initial data that it was made with. -/
theorem Reachable.made_with (h : Reachable w initialData timeoutMs r) :
    r.workflow = w ∧ r.initialData = initialData := by
  induction h with
  | new => exact ⟨rfl, rfl⟩
  | @apply r now transport op _ ih =>
    obtain ⟨hworkflow, hinitial⟩ := (apply_change now transport r op).keeps
    exact ⟨hworkflow.trans ih.1, hinitial.trans ih.2⟩

/-- The run of a remote runner is one that moves lead to. -/
theorem Reachable.run (h : Reachable w initialData timeoutMs r) :
    Run.Reachable (fun _ _ => True) initialData r.run := by
  induction h with
  | new => exact .new
  | @apply r now transport op hr ih =>
    have hmove := (apply_change now transport r op).move
    rw [hr.made_with.2] at hmove
    exact ih.move hmove

/-! ## What operations return -/

/-- What an operation returns: the run after it, or the fault of a start that fails. -/
def returned (now : Instant) (transport : Transport) (r : RemoteRunner) :
    Operation → Except StartFault Run
  | .start => (r.start now transport).map (·.run)
  | op => .ok (r.apply now transport op).run

/-- What operations return that are carried out one after the other. -/
def trace (r : RemoteRunner) :
    List (Operation × Instant × Transport) → List (Except StartFault Run)
  | [] => []
  | (op, now, transport) :: rest =>
    r.returned now transport op :: (r.apply now transport op).trace rest

/-- An operation returns the run after it unless it starts a workflow without an entry. -/
theorem returned_eq : r.returned now transport op =
    if op = .start ∧ r.workflow.entry? = none then .error .noInputNode
    else .ok (r.apply now transport op).run := by
  cases op with
  | start =>
    cases hentry : r.workflow.entry? with
    | none => simp [returned, start_of_no_entry hentry, Except.map]
    | some n => simp [returned, start_of_entry hentry, apply_start_of_entry hentry, Except.map]
  | _ => rfl

end StepFlow.RemoteRunner
