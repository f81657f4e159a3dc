import Mathlib.Data.List.Chain
import StepFlow.Proofs.Graph
import StepFlow.Proofs.Runner.Operable
import StepFlow.Runner.Service

/-!
# The requests of a run

The remote runner keeps the name of the node to be asked for next between two operations.  It
takes the name away before a request and puts another one in its place after the reply; a failure
on the way takes it away for good, while a reply that reports an error leaves its own behind.
`RemoteRunner.requests_follow_log` says that nevertheless no step is lost or repeated, whatever
answers the requests and in whatever order operations come: since the last start there has been
one request for each step of the log, each for the node that the reply before it named, at the
data that this reply left.

The invariant behind it, `RemoteRunner.Accounted`, has to say what a run that goes on keeps in
mind: the name is that of the last reply, which was no error.  Once the run has stopped nothing is
claimed of the name, since it is not looked at again.
-/

namespace StepFlow

/-- The data after a reply: they are overwritten by its output, if it has one. -/
def StepReply.merged (p : StepReply) (c : Context) : Context := p.output?.elim c c.override

/-- What the log entry of a reply that is no error makes of the data. -/
theorem StepReply.patched_toStep {p : StepReply} (h : p.status ≠ .error) (c : Context)
    (now : Instant) : Run.patched c (p.toStep now) = p.merged c := by
  have hfailed : (p.toStep now).hasFailed = false := beq_false_of_ne h
  unfold Run.patched StepReply.merged
  rw [hfailed]
  cases houtput : p.output? <;> simp [StepReply.toStep, houtput]

/-- One exchange leads to another: it brought a reply that was no error, and the other one asks for
the node that this reply named, at the data that it left. -/
def Exchange.LeadsTo (x y : Exchange) : Prop :=
  ∃ p, x.answer = .reply p ∧ p.status ≠ .error ∧
    p.nextNodeId? = some y.request.currentNodeId ∧
    y.request.context = p.merged x.request.context

namespace RemoteRunner

variable {w : Workflow} {entry : Node} {initialData : Context} {timeoutMs : UInt64}
  {now : Instant} {transport : Transport} {op : Operation} {r : RemoteRunner} {nodeId : String}
  {sent : List Exchange}

/-! ## One request -/

/-- A request carries the workflow as it is. -/
def Carries (w : Workflow) (q : StepRequest) : Prop :=
  q.workflowId = w.id ∧ q.nodes = w.nodes ∧ q.edges = w.edges

/-- A runner that asks for a node logs one step of it.  The run goes on only after a reply that is
no error; then the runner keeps the name of the next node in mind, and its data are those that the
reply left. -/
theorem delegate_eq (now : Instant) (transport : Transport) (r : RemoteRunner) (nodeId : String) :
    ∃ s halt next?, r.delegate now transport nodeId =
        { r with run := r.run.commit s halt, nextNodeId? := next? } ∧
      s.nodeId = nodeId ∧
      ((r.run.commit s halt).isRunning = true →
        ∃ p, (r.exchange transport nodeId).answer = .reply p ∧ p.status ≠ .error ∧
          next? = p.nextNodeId? ∧ (r.run.commit s halt).context = p.merged r.run.context) := by
  rcases unusable_or_reply nodeId (transport (r.request nodeId)) with hbad | ⟨p, hreply, hid⟩
  · obtain ⟨fault, heq⟩ := receive_unusable hbad now r
    refine ⟨_, _, _, heq, rfl, ?_⟩
    intro hrunning
    simp [Run.commit] at hrunning
  · refine ⟨_, _, _, by rw [delegate, hreply, receive_reply hid rfl], hid, ?_⟩
    intro hrunning
    have hstatus : p.status ≠ .error := by
      intro hstatus
      simp [Run.commit, hstatus] at hrunning
    exact ⟨p, hreply, hstatus, rfl, StepReply.patched_toStep hstatus r.run.context now⟩

/-! ## All requests of a run -/

/-- The exchanges since the start of a run agree with the log of the run and with what the runner
keeps in mind. -/
structure Accounted (w : Workflow) (entry : Node) (initialData : Context) (sent : List Exchange)
    (r : RemoteRunner) : Prop where
  workflow_eq : r.workflow = w
  /-- There was one request for each step. -/
  ids_eq : sent.map (·.request.currentNodeId) = r.run.steps.map (·.nodeId)
  carries : ∀ x ∈ sent, Carries w x.request
  /-- The first request was for the entry, at the initial data. -/
  first : ∀ x, sent.head? = some x →
    x.request.currentNodeId = entry.id ∧ x.request.context = initialData
  /-- Every exchange led to the next one. -/
  chain : sent.IsChain Exchange.LeadsTo
  /-- A run that goes on keeps in mind what the last reply said. -/
  pending : r.run.isRunning = true → ∃ x p, sent.getLast? = some x ∧ x.answer = .reply p ∧
    p.status ≠ .error ∧ r.nextNodeId? = p.nextNodeId? ∧
    r.run.context = p.merged x.request.context

/-- The invariant looks at the log, the data, the name of the next node and the mark that the run
goes on. -/
theorem Accounted.congr {r' : RemoteRunner} (h : r.Accounted w entry initialData sent)
    (hworkflow : r'.workflow = r.workflow) (hsteps : r'.run.steps = r.run.steps)
    (hcontext : r'.run.context = r.run.context) (hnext : r'.nextNodeId? = r.nextNodeId?)
    (hrunning : r'.run.isRunning = true → r.run.isRunning = true) :
    r'.Accounted w entry initialData sent where
  workflow_eq := hworkflow.trans h.workflow_eq
  ids_eq := by
    rw [hsteps]
    exact h.ids_eq
  carries := h.carries
  first := h.first
  chain := h.chain
  pending := by
    intro hrun
    rw [hnext, hcontext]
    exact h.pending (hrunning hrun)

/-- A request that continues the exchanges keeps them accounted for, whatever comes back for it. -/
theorem accounted_delegate (now : Instant) (hworkflow : r.workflow = w)
    (hids : sent.map (·.request.currentNodeId) = r.run.steps.map (·.nodeId))
    (hcarries : ∀ x ∈ sent, Carries w x.request)
    (hfirst : ∀ x, (sent ++ [r.exchange transport nodeId]).head? = some x →
      x.request.currentNodeId = entry.id ∧ x.request.context = initialData)
    (hchain : (sent ++ [r.exchange transport nodeId]).IsChain Exchange.LeadsTo) :
    (r.delegate now transport nodeId).Accounted w entry initialData
      (sent ++ [r.exchange transport nodeId]) := by
  obtain ⟨s, halt, next?, heq, hid, hgoesOn⟩ := delegate_eq now transport r nodeId
  rw [heq]
  refine ⟨hworkflow, ?_, ?_, hfirst, hchain, ?_⟩
  · simp [hids, Run.commit, hid, exchange, request]
  · intro x hx
    rcases List.mem_append.1 hx with hx | hx
    · exact hcarries x hx
    · rw [List.mem_singleton.1 hx, ← hworkflow]
      exact ⟨rfl, rfl, rfl⟩
  · intro hrunning
    obtain ⟨p, hreply, hstatus, hnext, hcontext⟩ := hgoesOn hrunning
    exact ⟨_, p, List.getLast?_concat, hreply, hstatus, hnext, hcontext⟩

/-- The exchange of a start is accounted for. -/
theorem accounted_start (now : Instant) (transport : Transport) (entry : Node)
    (hworkflow : r.workflow = w) (hinitial : r.initialData = initialData) :
    (r.begun.delegate now transport entry.id).Accounted w entry initialData
      [r.begun.exchange transport entry.id] := by
  have hfirst : ∀ x, [r.begun.exchange transport entry.id].head? = some x →
      x.request.currentNodeId = entry.id ∧ x.request.context = initialData := by
    intro x hx
    cases hx
    exact ⟨rfl, hinitial⟩
  have hbegun : r.begun.workflow = w := hworkflow
  have hids : ([] : List Exchange).map (·.request.currentNodeId) =
      r.begun.run.steps.map (·.nodeId) := rfl
  have hcarries : ∀ x ∈ ([] : List Exchange), Carries w x.request := by simp
  exact accounted_delegate now hbegun hids hcarries hfirst (List.isChain_singleton _)

/-- A step forward from the last step of a run that goes on continues the exchanges. -/
theorem Accounted.extend (h : r.Accounted w entry initialData sent)
    (hrunning : r.run.isRunning = true) (hnext : r.nextNodeId? = some nodeId) :
    (delegate now transport { r with nextNodeId? := none } nodeId).Accounted w entry initialData
      (sent ++ [r.exchange transport nodeId]) := by
  obtain ⟨last, p, hlast, hreply, hstatus, hnamed, hcontext⟩ := h.pending hrunning
  have hfirst : ∀ x, (sent ++ [r.exchange transport nodeId]).head? = some x →
      x.request.currentNodeId = entry.id ∧ x.request.context = initialData := by
    intro x hx
    rw [List.head?_append_of_ne_nil _ (List.ne_nil_of_mem (List.mem_of_getLast? hlast))] at hx
    exact h.first x hx
  have hleads : last.LeadsTo (r.exchange transport nodeId) :=
    ⟨p, hreply, hstatus, by rw [← hnamed, hnext]; rfl, hcontext⟩
  have hchain : (sent ++ [r.exchange transport nodeId]).IsChain Exchange.LeadsTo := by
    refine List.isChain_append.2 ⟨h.chain, List.isChain_singleton _, ?_⟩
    intro x hx y hy
    rw [hlast] at hx
    cases hx
    cases hy
    exact hleads
  exact accounted_delegate (r := { r with nextNodeId? := none }) now h.workflow_eq h.ids_eq
    h.carries hfirst hchain

/-- An operation that goes on with the run keeps the exchanges accounted for. -/
theorem Accounted.apply (h : r.Accounted w entry initialData sent) (hop : op.navigates = true)
    (now : Instant) (transport : Transport) :
    (r.apply now transport op).Accounted w entry initialData
      (sent ++ (r.exchange? transport op).toList) := by
  generalize happly : r.apply now transport op = r'
  have hchange := apply_change now transport r op
  rw [happly] at hchange
  cases hchange with
  | refuse => cases hop
  | start => cases hop
  | rest hstopped =>
    rw [exchange?_of_stopped hstopped (by decide), Option.toList_none, List.append_nil]
    exact h
  | review hrunning hreview =>
    obtain ⟨-, heq⟩ := Run.reviewForward?_eq_some_iff.1 hreview
    rw [exchange?_forward_of_review hrunning hreview, Option.toList_none, List.append_nil, heq]
    exact h.congr rfl rfl rfl rfl id
  | extend hrunning hreview hnext =>
    rw [exchange?_forward_of_next hrunning hreview hnext]
    exact h.extend hrunning hnext
  | finish hrunning hreview hnext =>
    rw [exchange?_forward_of_end hrunning hreview hnext, Option.toList_none, List.append_nil]
    exact h.congr rfl rfl rfl rfl fun hrun => by cases hrun
  | back =>
    rw [exchange?_eq_none (by decide) (by decide), Option.toList_none, List.append_nil,
      RemoteRunner.back, Run.stepBack_eq]
    exact h.congr rfl rfl rfl rfl id
  | pause =>
    rw [exchange?_eq_none (by decide) (by decide), Option.toList_none, List.append_nil]
    exact h.congr rfl rfl rfl rfl id
  | resume =>
    rw [exchange?_eq_none (by decide) (by decide), Option.toList_none, List.append_nil]
    exact h.congr rfl rfl rfl rfl id
  | reset => cases hop

/-- Any number of operations that go on with the run keep the exchanges accounted for. -/
theorem Accounted.after {ops : List (Operation × Instant × Transport)}
    (h : r.Accounted w entry initialData sent) (hops : ∀ o ∈ ops, o.1.navigates = true) :
    (operable.after r ops).Accounted w entry initialData (sent ++ operable.acts r ops) := by
  induction ops generalizing r sent with
  | nil => simpa using h
  | cons o rest ih =>
    obtain ⟨op, now, transport⟩ := o
    have hop : op.navigates = true := hops (op, now, transport) List.mem_cons_self
    have hrest := ih (h.apply hop now transport) fun o ho => hops o (List.mem_cons_of_mem _ ho)
    rw [List.append_assoc] at hrest
    exact hrest

/-- Looking back, marking the run, forgetting it, catching up with the log and asking a run that has
stopped to go on send nothing. -/
theorem exchange?_of_silent (hsilent : op = .back ∨ op = .pause ∨ op = .resume ∨ op = .reset ∨
      op = .forward ∧ (r.run.isRunning = false ∨ r.run.isReviewing = true)) :
    r.exchange? transport op = none := by
  rcases hsilent with rfl | rfl | rfl | rfl | ⟨rfl, hstopped | hreviewing⟩
  · exact exchange?_eq_none (by decide) (by decide)
  · exact exchange?_eq_none (by decide) (by decide)
  · exact exchange?_eq_none (by decide) (by decide)
  · exact exchange?_eq_none (by decide) (by decide)
  · exact exchange?_of_stopped hstopped (by decide)
  · cases hrunning : r.run.isRunning with
    | false => exact exchange?_of_stopped hrunning (by decide)
    | true =>
      have hreview : r.run.reviewForward? = some { r.run with cursor := r.run.cursor + 1 } := by
        rw [Run.reviewForward?, if_pos hreviewing]
      exact exchange?_forward_of_review hrunning hreview

/-- Whatever answers the requests of a remote runner and in whatever order operations come, since
its last start there has been exactly one request for each step of the log, for the node of that
step.  Every request carries the workflow as it is; the first one is for the entry, at the initial
data, and each other one is for the node that the reply before it named, at the data of the request
before it overwritten by the output of that reply, which was no error.  No request is sent by
looking back or catching up with the log, by marking the run or forgetting it, or once it has
stopped. -/
theorem requests_follow_log (hr : Reachable w initialData timeoutMs r)
    (hentry : w.entry? = some entry) (now : Instant) (transport : Transport)
    {ops : List (Operation × Instant × Transport)} (hops : ∀ o ∈ ops, o.1.navigates = true) :
    (∃ sent final, operable.acts r ((.start, now, transport) :: ops) = sent ∧
      operable.after r ((.start, now, transport) :: ops) = final ∧
      sent.map (·.request.currentNodeId) = final.run.steps.map (·.nodeId) ∧
      (∀ x ∈ sent, Carries w x.request) ∧
      (∃ x, sent.head? = some x ∧ x.request.currentNodeId = entry.id ∧
        x.request.context = initialData) ∧
      ∀ (k : Nat) (hk : k + 1 < sent.length), sent[k].LeadsTo sent[k + 1]) ∧
    ∀ (q : RemoteRunner) (transport : Transport) (op : Operation),
      (op = .back ∨ op = .pause ∨ op = .resume ∨ op = .reset ∨
        op = .forward ∧ (q.run.isRunning = false ∨ q.run.isReviewing = true)) →
      q.exchange? transport op = none := by
  refine ⟨?_, fun q transport op hsilent => exchange?_of_silent hsilent⟩
  obtain ⟨hworkflow, hinitial⟩ := hr.made_with
  have hentry' : r.workflow.entry? = some entry := by rw [hworkflow]; exact hentry
  have hstarted : r.apply now transport .start = r.begun.delegate now transport entry.id :=
    apply_start_of_entry hentry'
  have hall := (accounted_start now transport entry hworkflow hinitial).after hops
  rw [← hstarted] at hall
  have hsent : operable.acts r ((.start, now, transport) :: ops) =
      [r.begun.exchange transport entry.id] ++
        operable.acts (r.apply now transport .start) ops := by
    rw [Operable.acts_cons]
    change (r.exchange? transport .start).toList ++ _ = _
    rw [exchange?_start_of_entry hentry']
    rfl
  refine ⟨_, _, hsent, rfl, hall.ids_eq, hall.carries, ⟨_, rfl, hall.first _ rfl⟩, ?_⟩
  exact List.isChain_iff_getElem.1 hall.chain

/-- A run with a look back on the way, whose third request is never answered, sends three requests,
for the three nodes of its log, and then no more. -/
theorem requests_follow_log_silence :
    Workflow.fork.entry? = some ⟨"in", none, .input⟩ ∧
    ∃ (ops : List (Operation × Instant × Transport)) (sent : List Exchange) (final : RemoteRunner),
      ops.map (·.1) = [.forward, .back, .forward, .forward, .forward] ∧
      operable.after (new Workflow.fork (.single "hot" (.bool true)) 30000)
        ((.start, Readings.still.now, Service.transport .still) :: ops) = final ∧
      sent.map (·.request.currentNodeId) = ["in", "check", "cool"] ∧
      final.run.steps.map (fun s => (s.nodeId, s.status)) =
        [("in", .success), ("check", .success), ("cool", .error)] ∧
      ∀ (k : Nat) (hk : k + 1 < sent.length), sent[k].LeadsTo sent[k + 1] := by
  have hentry : Workflow.fork.entry? = some ⟨"in", none, .input⟩ := by decide
  have hnew : Reachable Workflow.fork (.single "hot" (.bool true)) 30000 (new _ _ _) := .new
  have hops : ∀ o ∈ ([(.forward, Readings.still.now, Service.transport .still),
      (.back, Readings.still.now, Service.transport .still),
      (.forward, Readings.still.now, Service.transport .still),
      (.forward, Readings.still.now, fun _ => .silence),
      (.forward, Readings.still.now, Service.transport .still)] :
        List (Operation × Instant × Transport)), o.1.navigates = true := by decide
  obtain ⟨⟨sent, final, -, hfinal, hids, -, -, hchain⟩, -⟩ :=
    requests_follow_log hnew hentry Readings.still.now (Service.transport .still) hops
  have hlog : final.run.steps.map (fun s => (s.nodeId, s.status)) =
      [("in", .success), ("check", .success), ("cool", .error)] := by
    rw [← hfinal]
    decide +kernel
  have hnodes : final.run.steps.map (·.nodeId) = ["in", "check", "cool"] := by
    have hfst := congrArg (List.map Prod.fst) hlog
    rw [List.map_map] at hfst
    exact hfst
  exact ⟨hentry, _, sent, final, rfl, hfinal, hids.trans hnodes, hlog, hchain⟩

end RemoteRunner

end StepFlow
