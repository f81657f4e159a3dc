import Mathlib.Tactic.Common
import StepFlow.Proofs.Graph
import StepFlow.Proofs.Runner.Operable
import StepFlow.Proofs.Runner.Threading
import StepFlow.Runner.Service

/-!
# The inputs in the log of a remote run

The entry that a request makes in the log is put together by three hands.  A failure on the way is
written down by the runner, which knows the data that it sent; otherwise the entry is the reply as it
came, and so is its input; and a reply that says nothing of an input was read as one with an empty
input.  `RemoteRunner.input_eq_sent_iff_echoes` says what the log then holds, whatever answers the
requests and in whatever order operations come: each request was sent at the data that the steps
before it left, but the input of its step is what the reply says, and so it is the data that were
sent exactly if the reply repeats them.  The service does, and `RemoteRunner.input_not_sent` is a
reply that does not.

The invariant `RemoteRunner.Recorded` puts the log beside the exchanges that made it, which
`RemoteRunner.exchanges` keeps account of: a start and a reset begin a new account.
-/

namespace StepFlow

namespace Exchange

/-- The reply to a request, if there is one and it is for the node that was asked for. -/
def reply? (x : Exchange) : Option StepReply :=
  match x.answer with
  | .reply p => if p.nodeId = x.request.currentNodeId then some p else none
  | .fault _ => none
  | .silence => none

theorem reply?_eq_some_iff {x : Exchange} {p : StepReply} :
    x.reply? = some p ↔ x.answer = .reply p ∧ p.nodeId = x.request.currentNodeId := by
  unfold reply?
  cases x.answer with
  | fault fault => simp
  | silence => simp
  | reply q =>
    by_cases hid : q.nodeId = x.request.currentNodeId
    · simp only [if_pos hid, Option.some.injEq, Answer.reply.injEq]
      constructor
      · rintro rfl
        exact ⟨rfl, hid⟩
      · rintro ⟨rfl, -⟩
        rfl
    · simp only [if_neg hid, Answer.reply.injEq, reduceCtorEq, false_iff, not_and]
      rintro rfl
      exact hid

/-- The input that gets into the log: that of the reply, or the data of the request where there is
no reply for it. -/
def recordedInput (x : Exchange) : Context := (x.reply?.map (·.input)).getD x.request.context

/-- The reply, if there is one for the request, repeats the data of the request. -/
def Echoes (x : Exchange) : Prop := ∀ p, x.reply? = some p → p.input = x.request.context

/-- The data of the request get into the log exactly if the reply repeats them. -/
theorem recordedInput_eq_iff (x : Exchange) :
    x.recordedInput = x.request.context ↔ x.Echoes := by
  unfold recordedInput Echoes
  cases x.reply? with
  | none => simp
  | some p => simp

end Exchange

namespace Service

variable {readings : Readings} {q : StepRequest}

/-- A step that the service executes has the data of the request as its input. -/
theorem input_of_handle {p : StepReply} (h : handle readings q = .ok p) : p.input = q.context := by
  cases hnode : q.workflow.node? q.currentNodeId with
  | none =>
    simp only [handle, hnode] at h
    cases h
  | some n =>
    simp only [handle, hnode] at h
    cases h
    exact Handler.execute_input

/-- The service repeats the data of every request. -/
theorem echoes (readings : Readings) (q : StepRequest) :
    Exchange.Echoes ⟨q, transport readings q⟩ := by
  intro p hp
  obtain ⟨hanswer, -⟩ := Exchange.reply?_eq_some_iff.1 hp
  cases hhandle : handle readings q with
  | error fault =>
    simp only [transport, hhandle] at hanswer
    cases hanswer
  | ok reply =>
    simp only [transport, hhandle] at hanswer
    cases hanswer
    exact input_of_handle hhandle

end Service

namespace RemoteRunner

variable {w : Workflow} {initialData : Context} {timeoutMs : UInt64} {r : RemoteRunner}
  {sent : List Exchange}

/-! ## The account of exchanges -/

/-- Whether an operation forgets the log: a reset does, and so does a start that succeeds. -/
def forgets (r : RemoteRunner) : Operation → Bool
  | .start => r.workflow.entry?.isSome
  | .reset => true
  | _ => false

/-- The exchanges of the log after an operation, given those before it. -/
def account (transport : Transport) (r : RemoteRunner) (sent : List Exchange) (op : Operation) :
    List Exchange :=
  (if r.forgets op then [] else sent) ++ (r.exchange? transport op).toList

/-- The exchanges of the log after operations that are carried out one after the other. -/
def exchanges : RemoteRunner → List Exchange → List (Operation × Instant × Transport) →
    List Exchange
  | _, sent, [] => sent
  | r, sent, (op, now, transport) :: rest =>
    exchanges (r.apply now transport op) (r.account transport sent op) rest

/-- An operation that goes on with the run and sends nothing leaves the account as it is. -/
theorem account_eq_self {transport : Transport} {op : Operation} (hkeeps : r.forgets op = false)
    (hsilent : r.exchange? transport op = none) (sent : List Exchange) :
    r.account transport sent op = sent := by
  simp [account, hkeeps, hsilent]

/-! ## The log beside the exchanges -/

/-- Each step of a run was made by the exchange in its place: the request was for the node of the
step, at the data that the steps before it left, and the step has the input of the reply. -/
structure Recorded (initialData : Context) (sent : List Exchange) (run : Run) : Prop where
  length_eq : sent.length = run.steps.length
  nodeId_eq : ∀ (k : Nat) (hs : k < sent.length) (hk : k < run.steps.length),
    run.steps[k].nodeId = sent[k].request.currentNodeId
  context_eq : ∀ (k : Nat) (hs : k < sent.length),
    sent[k].request.context = (run.steps.take k).foldl Run.patched initialData
  input_eq : ∀ (k : Nat) (hs : k < sent.length) (hk : k < run.steps.length),
    run.steps[k].input = sent[k].recordedInput

/-- A run without a log has no exchanges. -/
theorem recorded_of_no_steps {run : Run} (h : run.steps = []) : Recorded initialData [] run where
  length_eq := by rw [h]; rfl
  nodeId_eq := fun k hs => by cases hs
  context_eq := fun k hs => by cases hs
  input_eq := fun k hs => by cases hs

/-- Only the log of a run counts. -/
theorem Recorded.congr {run run' : Run} (h : Recorded initialData sent run)
    (hsteps : run'.steps = run.steps) : Recorded initialData sent run' := by
  obtain ⟨steps, cursor, isRunning, isPaused, context⟩ := run
  obtain ⟨steps', cursor', isRunning', isPaused', context'⟩ := run'
  cases hsteps
  exact ⟨h.length_eq, h.nodeId_eq, h.context_eq, h.input_eq⟩

/-- A step that is logged with the exchange that made it. -/
theorem Recorded.commit {run : Run} {x : Exchange} {s : Step} {halt : Bool}
    (h : Recorded initialData sent run) (hdata : run.context = run.steps.foldl Run.patched initialData)
    (hrequest : x.request.context = run.context) (hnode : s.nodeId = x.request.currentNodeId)
    (hinput : s.input = x.recordedInput) :
    Recorded initialData (sent ++ [x]) (run.commit s halt) := by
  have hlength := h.length_eq
  have hcases : ∀ k, k < (sent ++ [x]).length → k < sent.length ∨ k = sent.length := by
    intro k hk
    rw [List.length_append, List.length_singleton] at hk
    exact Nat.lt_succ_iff_lt_or_eq.1 hk
  refine ⟨?_, ?_, ?_, ?_⟩
  · simp [Run.commit, hlength]
  · intro k hs hk
    rcases hcases k hs with hlt | rfl
    · have hlt' : k < run.steps.length := hlength ▸ hlt
      simpa [Run.commit, hlt, hlt'] using h.nodeId_eq k hlt hlt'
    · simp [Run.commit, hlength, hnode]
  · intro k hs
    rcases hcases k hs with hlt | rfl
    · have hle : k ≤ run.steps.length := Nat.le_of_lt (hlength ▸ hlt)
      simpa [Run.commit, hlt, List.take_append_of_le_length hle] using h.context_eq k hlt
    · simp [Run.commit, hlength, hrequest, hdata]
  · intro k hs hk
    rcases hcases k hs with hlt | rfl
    · have hlt' : k < run.steps.length := hlength ▸ hlt
      simpa [Run.commit, hlt, hlt'] using h.input_eq k hlt hlt'
    · simp [Run.commit, hlength, hinput]

/-- What a request makes of the log: one step of the node that was asked for, with the input of the
reply. -/
theorem delegate_recorded (now : Instant) (transport : Transport) (r : RemoteRunner)
    (nodeId : String) :
    ∃ s halt, (r.delegate now transport nodeId).run = r.run.commit s halt ∧
      s.nodeId = nodeId ∧ s.input = (r.exchange transport nodeId).recordedInput := by
  rcases unusable_or_reply nodeId (transport (r.request nodeId)) with hbad | ⟨p, hreply, hid⟩
  · obtain ⟨fault, heq⟩ := receive_unusable hbad now r
    have hnone : (r.exchange transport nodeId).reply? = none := by
      refine Option.eq_none_iff_forall_ne_some.2 fun p hp => ?_
      obtain ⟨hreply, hid⟩ := Exchange.reply?_eq_some_iff.1 hp
      have hreply' : transport (r.request nodeId) = .reply p := hreply
      rw [hreply'] at hbad
      cases hbad with
      | elsewhere hne => exact hne hid
    refine ⟨_, _, by rw [delegate, heq], rfl, ?_⟩
    rw [Exchange.recordedInput, hnone]
    rfl
  · have hsome : (r.exchange transport nodeId).reply? = some p :=
      Exchange.reply?_eq_some_iff.2 ⟨hreply, hid⟩
    refine ⟨_, _, by rw [delegate, hreply, receive_reply hid rfl], hid, ?_⟩
    rw [Exchange.recordedInput, hsome]
    rfl

/-- A request continues the account. -/
theorem Recorded.delegate (h : Recorded initialData sent r.run)
    (hdata : r.run.context = r.run.steps.foldl Run.patched initialData) (now : Instant)
    (transport : Transport) (nodeId : String) :
    Recorded initialData (sent ++ [r.exchange transport nodeId])
      (r.delegate now transport nodeId).run := by
  obtain ⟨s, halt, heq, hnode, hinput⟩ := delegate_recorded now transport r nodeId
  rw [heq]
  exact h.commit hdata rfl hnode hinput

/-- An operation keeps the account in step with the log. -/
theorem Recorded.apply (h : Recorded initialData sent r.run)
    (hr : Reachable w initialData timeoutMs r) (now : Instant) (transport : Transport)
    (op : Operation) :
    Recorded initialData (r.account transport sent op) (r.apply now transport op).run := by
  generalize happly : r.apply now transport op = r'
  have hchange := apply_change now transport r op
  rw [happly] at hchange
  cases hchange with
  | refuse hentry =>
    rw [account_eq_self (by simp [forgets, hentry]) (exchange?_start_of_no_entry hentry)]
    exact h
  | @start n hentry =>
    have haccount : r.account transport sent .start = [] ++ [r.begun.exchange transport n.id] := by
      simp [account, forgets, hentry, exchange?_start_of_entry hentry]
    have hbegun : Recorded initialData [] r.begun.run := recorded_of_no_steps rfl
    rw [haccount]
    exact hbegun.delegate hr.made_with.2 now transport n.id
  | rest hstopped =>
    rw [account_eq_self rfl (exchange?_of_stopped hstopped (by decide))]
    exact h
  | review hrunning hreview =>
    obtain ⟨-, rfl⟩ := Run.reviewForward?_eq_some_iff.1 hreview
    rw [account_eq_self rfl (exchange?_forward_of_review hrunning hreview)]
    exact h.congr rfl
  | @extend nodeId hrunning hreview hnext =>
    have haccount : r.account transport sent .forward = sent ++ [r.exchange transport nodeId] := by
      simp [account, forgets, exchange?_forward_of_next hrunning hreview hnext]
    have hasking : Recorded initialData sent ({ r with nextNodeId? := none } : RemoteRunner).run := h
    rw [haccount]
    exact hasking.delegate hr.run.context_eq now transport nodeId
  | finish hrunning hreview hnext =>
    rw [account_eq_self rfl (exchange?_forward_of_end hrunning hreview hnext)]
    exact h.congr rfl
  | back =>
    rw [account_eq_self rfl (exchange?_eq_none (by decide) (by decide)), RemoteRunner.back,
      Run.stepBack_eq]
    exact h.congr rfl
  | pause =>
    rw [account_eq_self rfl (exchange?_eq_none (by decide) (by decide))]
    exact h.congr rfl
  | resume =>
    rw [account_eq_self rfl (exchange?_eq_none (by decide) (by decide))]
    exact h.congr rfl
  | reset => exact recorded_of_no_steps rfl

/-- Any operations keep the account in step with the log. -/
theorem Recorded.after (h : Recorded initialData sent r.run)
    (hr : Reachable w initialData timeoutMs r) (ops : List (Operation × Instant × Transport)) :
    Recorded initialData (r.exchanges sent ops) (operable.after r ops).run := by
  induction ops generalizing r sent with
  | nil => exact h
  | cons o rest ih =>
    obtain ⟨op, now, transport⟩ := o
    exact ih (h.apply hr now transport op) (hr.apply now transport op)

/-- Whatever answers the requests of a remote runner and in whatever order operations come, each
step of the log was made by one exchange: the request asked for the node of the step, and it was sent
at the data that the steps before it left, the initial data overwritten by their outputs.  The input
of the step is that of the reply, and the data of the request if there was no reply for it; so it is
the data of the request exactly if the reply repeats them, as those of the service always do. -/
theorem input_eq_sent_iff_echoes (w : Workflow) (initialData : Context) (timeoutMs : UInt64) :
    (∀ ops : List (Operation × Instant × Transport), ∃ sent r,
      (new w initialData timeoutMs).exchanges [] ops = sent ∧
      operable.after (new w initialData timeoutMs) ops = r ∧
      ∃ hlength : sent.length = r.run.steps.length, ∀ (k : Nat) (hk : k < r.run.steps.length),
        r.run.steps[k].nodeId = sent[k].request.currentNodeId ∧
        sent[k].request.context = initialData.overwrittenBy (r.run.steps.take k) ∧
        r.run.steps[k].input = sent[k].recordedInput ∧
        (r.run.steps[k].input = sent[k].request.context ↔ sent[k].Echoes)) ∧
    ∀ readings q, Exchange.Echoes ⟨q, Service.transport readings q⟩ := by
  constructor
  · intro ops
    have hnew : Reachable w initialData timeoutMs (new w initialData timeoutMs) := .new
    have hrecorded : Recorded initialData [] (new w initialData timeoutMs).run :=
      recorded_of_no_steps rfl
    have hafter := hrecorded.after hnew ops
    refine ⟨_, _, rfl, rfl, hafter.length_eq, ?_⟩
    intro k hk
    have hsent := hafter.length_eq ▸ hk
    have hinput := hafter.input_eq k hsent hk
    refine ⟨hafter.nodeId_eq k hsent hk, ?_, hinput, ?_⟩
    · rw [hafter.context_eq k hsent]
      exact (hnew.after ops).run.foldl_patched_take hk
    · rw [hinput]
      exact Exchange.recordedInput_eq_iff _
  · intro readings q
    exact Service.echoes readings q

/-- A reply for the node `in` that says nothing of its input, as it is written. -/
def bareJson : Json :=
  .object
    [("node_id", .string "in"), ("node_name", .string "in"), ("node_type", .string "input"),
      ("status", .string "success"), ("output", .object [("hot", .bool true)])]

/-- The reply as it is read. -/
def bareReply : StepReply where
  nodeId := "in"
  nodeName := "in"
  nodeType := "input"
  status := .success
  input := .empty
  output? := some (.single "hot" (.bool true))
  error? := none
  elapsedMs := 0
  nextNodeId? := none

/-- The input of a step is not always the data of the request: a reply that says nothing of its
input is read, and its step has an empty input, although the request was sent at data that are not
empty. -/
theorem input_not_sent :
    StepReply.decoder.ofJson bareJson = .ok bareReply ∧
      ∃ ops sent r, ops = [(.start, Readings.still.now, fun _ => .reply bareReply)] ∧
        (new Workflow.fork (.single "hot" (.bool true)) 30000).exchanges [] ops = sent ∧
        operable.after (new Workflow.fork (.single "hot" (.bool true)) 30000) ops = r ∧
        ∃ (hsent : 0 < sent.length) (hstep : 0 < r.run.steps.length),
          sent[0].request.context = .single "hot" (.bool true) ∧
          r.run.steps[0].input ≠ sent[0].request.context := by
  refine ⟨by decide +kernel, _, _, _, rfl, rfl, rfl, by decide +kernel, by decide +kernel, ?_⟩
  constructor
  · decide +kernel
  · decide +kernel

end RemoteRunner

end StepFlow
