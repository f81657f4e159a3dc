import StepFlow.Proofs.Graph
import StepFlow.Proofs.Handler
import StepFlow.Proofs.Runner.Local
import StepFlow.Proofs.Runner.Remote
import StepFlow.Runner.Service

/-!
# Delegated runs

A runner that delegates its steps to the service returns what a runner returns that executes
them itself.  The two keep different things in mind between operations: the local runner the
decision of the last step, from which it finds the next node when it is asked to go on; the
remote runner the identifier of that node, which the reply has named already.
`RemoteRunner.Mirrors` relates two runners with the same run whose memories come to the same
node, every operation keeps them so (`RemoteRunner.Mirrors.apply`), and the main result
`trace_delegated_eq_trace` follows by induction on the operations.
-/

namespace StepFlow

/-- A workflow whose nodes can be executed at a distance: it is valid, no node draws its result
at random, and no edge leads back to a node at which runs start. -/
structure Workflow.Delegable (w : Workflow) : Prop where
  validate_eq : w.validate = .ok ()
  draws_eq : ∀ n ∈ w.nodes, n.role.draws = false
  isEntry_eq : ∀ e ∈ w.edges, ∀ n ∈ w.nodes, n.id = e.target → n.role.isEntry = false

/-- A text begins as its first part does. -/
theorem head?_toList_append {a : String} {c : Char} (h : a.toList.head? = some c) (b : String) :
    (a ++ b).toList.head? = some c := by
  rw [String.toList_append, List.head?_append, h]
  rfl

/-- The wording of a fault on the way is never that of a fault of a handler. -/
theorem TransportFault.message_ne (fault : TransportFault) (cause : StepFault) :
    fault.message ≠ cause.message := by
  -- They differ in their first characters.
  have hfault : ∃ c ∈ ['s', 't', 'm'], fault.message.toList.head? = some c := by
    rcases fault with ms | text | text
    · exact ⟨'s', by decide, head?_toList_append (head?_toList_append (by decide) _) _⟩
    · exact ⟨'t', by decide, head?_toList_append (by decide) _⟩
    · exact ⟨'m', by decide, head?_toList_append (by decide) _⟩
  have hcause : ∃ c ∈ ['u', 'h', 'i'], cause.message.toList.head? = some c := by
    rcases cause with typeName | setting | fault | path
    · exact ⟨'u', by decide, head?_toList_append (by decide) _⟩
    · exact ⟨'h', by decide, head?_toList_append (by decide) _⟩
    · exact ⟨'i', by decide, head?_toList_append (by decide) _⟩
    · exact ⟨'u', by decide, head?_toList_append (by decide) _⟩
  have hapart : ∀ c ∈ ['s', 't', 'm'], c ∉ ['u', 'h', 'i'] := by simp
  intro heq
  obtain ⟨c, hc, hfault⟩ := hfault
  obtain ⟨d, hd, hcause⟩ := hcause
  rw [heq, hcause] at hfault
  cases hfault
  exact hapart c hc hd

/-- The entry that the reply for a step makes at the time of the step is the step. -/
theorem StepReply.toStep_ofStep {s : Step} {now : Instant} (h : s.timestamp = now)
    (nextNodeId? : Option String) : (StepReply.ofStep s nextNodeId?).toStep now = s := by
  subst h
  rfl

/-- The service executes a node that it has on the data of the request alone, and names the node
that follows unless the run ends. -/
theorem Service.transport_of_node? {readings : Readings} {q : StepRequest} {n : Node}
    (h : q.workflow.node? q.currentNodeId = some n) :
    Service.transport readings q =
      .reply (.ofStep (Handler.execute readings n q.context q.context).step
        (if (Handler.execute readings n q.context q.context).halt then none
          else (q.workflow.successor? n.id
            (Handler.execute readings n q.context q.context).branch?).map (·.id))) := by
  simp only [Service.transport, Service.handle, h]

namespace RemoteRunner

variable {w : Workflow} {l : LocalRunner} {r : RemoteRunner} {n : Node} {op : Operation}

/-! ## Requests to the service -/

/-- A runner that delegates a node of its workflow to the service logs the step of that node,
executed at the data of the run, and knows the node that follows unless the run ends. -/
theorem delegate_service (hn : r.workflow.node? n.id = some n) (readings : Readings) :
    r.delegate readings.now (Service.transport readings) n.id =
      { r with
        run := r.run.commit (Handler.execute readings n r.run.context r.run.context).step
          (Handler.execute readings n r.run.context r.run.context).halt
        nextNodeId? :=
          if (Handler.execute readings n r.run.context r.run.context).halt then none
          else (r.workflow.successor? n.id
            (Handler.execute readings n r.run.context r.run.context).branch?).map (·.id) } := by
  have hfound : (r.request n.id).workflow.node? (r.request n.id).currentNodeId = some n := hn
  rw [delegate, Service.transport_of_node? hfound,
    receive_reply Handler.execute_nodeId Handler.execute_halt,
    StepReply.toStep_ofStep Handler.execute_timestamp]
  rfl

/-! ## Runners that mirror each other -/

/-- A local runner and a remote one are in the same run of the same workflow. -/
structure SameRun (l : LocalRunner) (r : RemoteRunner) : Prop where
  workflow_eq : r.workflow = l.workflow
  initialData_eq : r.initialData = l.initialData
  run_eq : r.run = l.run

/-- A remote runner mirrors a local one: both are in the same run, and while it goes on the
remote runner knows the node that the local one takes for the next. -/
structure Mirrors (l : LocalRunner) (r : RemoteRunner) : Prop extends SameRun l r where
  /-- The identifier that the last reply named is that of the next node. -/
  next_eq : l.run.isRunning = true → r.nextNodeId? = l.next?.map (·.id)

/-- Two runners that have been made alike mirror each other. -/
theorem mirrors_new (w : Workflow) (initialData : Context) (timeoutMs : UInt64) :
    Mirrors (.new w initialData) (new w initialData timeoutMs) where
  workflow_eq := rfl
  initialData_eq := rfl
  run_eq := rfl
  next_eq := fun h => by cases h

/-- Two runners that forget their runs mirror each other. -/
theorem SameRun.reset (h : SameRun l r) : Mirrors l.reset r.reset := by
  rw [LocalRunner.reset, RemoteRunner.reset, h.workflow_eq, h.initialData_eq]
  exact mirrors_new _ _ _

/-- Two runners that begin a new run are in the same one. -/
theorem SameRun.begun (h : SameRun l r) : SameRun l.begun r.begun where
  workflow_eq := h.workflow_eq
  initialData_eq := h.initialData_eq
  run_eq := congrArg Run.begun h.initialData_eq

/-- Runners that mirror each other still do when the state of their run changes alike, but the
log stays as it is and the run is not made to go on. -/
theorem Mirrors.withRun (h : Mirrors l r) {run : Run} (hsteps : run.steps = l.run.steps)
    (hrunning : run.isRunning = true → l.run.isRunning = true) :
    Mirrors { l with run := run } { r with run := run } where
  workflow_eq := h.workflow_eq
  initialData_eq := h.initialData_eq
  run_eq := rfl
  next_eq := fun hrun => by
    have hnext : ({ l with run := run } : LocalRunner).next? = l.next? := by
      simp only [LocalRunner.next?, Run.lastStep?, hsteps]
    rw [hnext]
    exact h.next_eq (hrunning hrun)

/-- Executing a node and having it executed by the service come to the same run and the same next
node, where the node draws nothing and, if runs can start at it, meets the initial data. -/
theorem SameRun.execute (h : SameRun l r) {clock : Readings} (draw draw' : Draw)
    (hn : l.workflow.node? n.id = some n) (hdraws : n.role.draws = false)
    (hentry : n.role.isEntry = false ∨ l.run.context = l.initialData) :
    Mirrors (l.execute (clock.drawn draw) n)
      (r.delegate clock.now (Service.transport (clock.drawn draw')) n.id) := by
  have hexecute : Handler.execute (clock.drawn draw') n l.run.context l.run.context =
      Handler.execute (clock.drawn draw) n l.run.context l.initialData := by
    rw [Handler.execute_drawn hdraws clock draw' draw]
    rcases hentry with hentry | hcontext
    · exact Handler.execute_initialData hentry _
    · rw [hcontext]
  have hfound : r.workflow.node? n.id = some n := by rw [h.workflow_eq]; exact hn
  have hdelegate := delegate_service hfound (clock.drawn draw')
  rw [h.run_eq, hexecute, h.workflow_eq] at hdelegate
  have hnow : clock.now = (clock.drawn draw').now := rfl
  rw [hnow, hdelegate]
  refine ⟨⟨rfl, h.initialData_eq, rfl⟩, fun hrunning => ?_⟩
  have hhalt := Run.halt_eq_false_of_commit hrunning
  rw [LocalRunner.next?_execute]
  simp [hhalt]

/-! ## Operations -/

/-- The node that follows in a workflow whose nodes can be executed at a distance is found under
its identifier, draws nothing, and is not one at which runs start. -/
theorem next_of_delegable (hw : l.workflow.Delegable) (h : l.next? = some n) :
    l.workflow.node? n.id = some n ∧ n.role.draws = false ∧ n.role.isEntry = false := by
  obtain ⟨e, he, hid, hnode⟩ := LocalRunner.exists_edge_of_next? h
  have hn : n ∈ l.workflow.nodes := (Workflow.mem_of_node? hnode).1
  exact ⟨hnode, hw.draws_eq n hn, hw.isEntry_eq e he n hn hid⟩

/-- Starting keeps runners mirroring each other. -/
theorem Mirrors.start (h : Mirrors l r) (hw : l.workflow.Delegable) (clock : Readings)
    (draw draw' : Draw) :
    Mirrors (l.apply (clock.drawn draw) .start)
      (r.apply clock.now (Service.transport (clock.drawn draw')) .start) := by
  cases hentry : l.workflow.entry? with
  | none =>
    have hentry' : r.workflow.entry? = none := by rw [h.workflow_eq]; exact hentry
    rw [LocalRunner.apply_start_of_no_entry hentry, apply_start_of_no_entry hentry']
    exact h
  | some n =>
    have hentry' : r.workflow.entry? = some n := by rw [h.workflow_eq]; exact hentry
    have hvalid := Workflow.validate_eq_ok_iff.1 hw.validate_eq
    have hn : n ∈ l.workflow.nodes := (Workflow.entry?_eq_some_iff.1 hentry).mem
    rw [LocalRunner.apply_start_of_entry hentry, apply_start_of_entry hentry']
    exact h.begun.execute draw draw' (hvalid.node?_id hn) (hw.draws_eq n hn) (.inr rfl)

/-- Stepping forward keeps runners mirroring each other. -/
theorem Mirrors.forward (h : Mirrors l r) (hw : l.workflow.Delegable) (clock : Readings)
    (draw draw' : Draw) :
    Mirrors (l.forward (clock.drawn draw))
      (r.forward clock.now (Service.transport (clock.drawn draw'))) := by
  cases hrunning : l.run.isRunning with
  | false =>
    have hstopped : r.run.isRunning = false := by rw [h.run_eq]; exact hrunning
    rw [LocalRunner.forward_of_stopped hrunning, forward_of_stopped hstopped]
    exact h
  | true =>
    have hrunning' : r.run.isRunning = true := by rw [h.run_eq]; exact hrunning
    cases hreview : l.run.reviewForward? with
    | some run =>
      have hreview' : r.run.reviewForward? = some run := by rw [h.run_eq]; exact hreview
      rw [LocalRunner.forward_of_review hrunning hreview, forward_of_review hrunning' hreview']
      obtain ⟨-, rfl⟩ := Run.reviewForward?_eq_some_iff.1 hreview
      exact h.withRun rfl fun _ => hrunning
    | none =>
      have hreview' : r.run.reviewForward? = none := by rw [h.run_eq]; exact hreview
      have hnextId := h.next_eq hrunning
      cases hnext : l.next? with
      | some n =>
        rw [hnext, Option.map_some] at hnextId
        rw [LocalRunner.forward_of_next hrunning hreview hnext,
          forward_of_next hrunning' hreview' hnextId]
        obtain ⟨hn, hdraws, hentry⟩ := next_of_delegable hw hnext
        have hsame : SameRun l { r with nextNodeId? := none } :=
          ⟨h.workflow_eq, h.initialData_eq, h.run_eq⟩
        exact hsame.execute draw draw' hn hdraws (.inl hentry)
      | none =>
        rw [hnext, Option.map_none] at hnextId
        rw [LocalRunner.forward_of_end hrunning hreview hnext,
          forward_of_end hrunning' hreview' hnextId, h.run_eq]
        exact h.withRun rfl fun hrun => by cases hrun

/-- An operation keeps runners mirroring each other, whatever either of them draws. -/
theorem Mirrors.apply (h : Mirrors l r) (hw : l.workflow.Delegable) (clock : Readings)
    (draw draw' : Draw) (op : Operation) :
    Mirrors (l.apply (clock.drawn draw) op)
      (r.apply clock.now (Service.transport (clock.drawn draw')) op) := by
  cases op with
  | start => exact h.start hw clock draw draw'
  | forward => exact h.forward hw clock draw draw'
  | back =>
    change Mirrors { l with run := l.run.stepBack } { r with run := r.run.stepBack }
    rw [h.run_eq, Run.stepBack_eq]
    exact h.withRun rfl id
  | pause =>
    change Mirrors l.pause { r with run := { r.run with isPaused := true } }
    rw [h.run_eq]
    exact h.withRun rfl id
  | resume =>
    change Mirrors l.resume { r with run := { r.run with isPaused := false } }
    rw [h.run_eq]
    exact h.withRun rfl id
  | reset => exact h.reset

/-- Runners that mirror each other return the same of any operations. -/
theorem Mirrors.trace_eq (h : Mirrors l r) (hw : l.workflow.Delegable) (clock : Readings)
    (ops : List (Operation × Draw × Draw)) :
    r.trace (ops.map fun (op, _, draw) =>
        (op, clock.now, Service.transport (clock.drawn draw))) =
      l.trace (ops.map fun (op, draw, _) => (op, clock.drawn draw)) := by
  induction ops generalizing l r with
  | nil => rfl
  | cons entry rest ih =>
    obtain ⟨op, draw, draw'⟩ := entry
    have hstep := h.apply hw clock draw draw' op
    have hkeeps := (LocalRunner.apply_change (clock.drawn draw) l op).keeps
    have hrest := ih hstep (by rw [hkeeps.1]; exact hw)
    simp only [List.map_cons, trace, LocalRunner.trace]
    rw [returned_eq, LocalRunner.returned_eq, hstep.run_eq, h.workflow_eq, hrest]

end RemoteRunner

/-! ## The same runs -/

/-- No step of a local runner has the text of a fault on the way. -/
theorem LocalRunner.Reachable.error?_ne {w : Workflow} {initialData : Context} {r : LocalRunner}
    (h : LocalRunner.Reachable w initialData r) {s : Step} (hs : s ∈ r.run.steps)
    (fault : TransportFault) : s.error? ≠ some fault.message := by
  intro herror
  obtain ⟨i, hi, rfl⟩ := List.getElem_of_mem hs
  obtain ⟨readings, n, hstep⟩ := h.run.logs i hi
  rw [hstep] at herror
  obtain ⟨cause, hcause⟩ := Handler.execute_error? herror
  exact fault.message_ne cause hcause

/-- On a valid workflow where no node draws its result at random and no edge leads to a node at
which runs start, a remote runner that delegates its steps to the service returns after every
operation exactly what a local runner returns, if both look at a clock that stands still.  The
log of the remote runner never holds a step that failed on the way. -/
theorem trace_delegated_eq_trace {w : Workflow} (hw : w.Delegable) (initialData : Context)
    (timeoutMs : UInt64) (clock : Readings) (ops : List (Operation × Draw × Draw)) :
    (RemoteRunner.new w initialData timeoutMs).trace (ops.map fun (op, _, draw) =>
        (op, clock.now, Service.transport (clock.drawn draw))) =
      (LocalRunner.new w initialData).trace (ops.map fun (op, draw, _) =>
        (op, clock.drawn draw)) ∧
    ∀ run, .ok run ∈ (RemoteRunner.new w initialData timeoutMs).trace
        (ops.map fun (op, _, draw) => (op, clock.now, Service.transport (clock.drawn draw))) →
      ∀ s ∈ run.steps, ∀ fault : TransportFault, s.error? ≠ some fault.message := by
  have heq := (RemoteRunner.mirrors_new w initialData timeoutMs).trace_eq hw clock ops
  refine ⟨heq, fun run hrun s hs fault => ?_⟩
  rw [heq] at hrun
  obtain ⟨r, hr, rfl⟩ := LocalRunner.Reachable.new.of_mem_trace hrun
  exact hr.error?_ne hs fault

/-- Operations on the workflow with a decision, with a look back on the way, return the same
whoever executes its nodes, and come to the end of the run. -/
theorem trace_delegated_fork :
    Workflow.fork.Delegable ∧
      ∃ ops : List (Operation × Draw × Draw),
        (RemoteRunner.new Workflow.fork (.single "hot" (.bool true)) 30000).trace
            (ops.map fun (op, _, draw) =>
              (op, Readings.still.now, Service.transport (Readings.still.drawn draw))) =
          (LocalRunner.new Workflow.fork (.single "hot" (.bool true))).trace
            (ops.map fun (op, draw, _) => (op, Readings.still.drawn draw)) ∧
        ((LocalRunner.new Workflow.fork (.single "hot" (.bool true))).trace
            (ops.map fun (op, draw, _) => (op, Readings.still.drawn draw))).map
            (Except.map Run.phase) =
          [.ok .running, .ok .running, .ok .running, .ok .running, .ok .running,
            .ok .completed] := by
  have hw : Workflow.fork.Delegable := ⟨by decide, by decide, by decide⟩
  refine ⟨hw, [.start, .forward, .back, .forward, .forward, .forward].map
    (·, ⟨.pass, .zero false⟩, ⟨.fail, .zero false⟩), ?_, ?_⟩
  · exact (trace_delegated_eq_trace hw _ 30000 .still _).1
  · decide +kernel

end StepFlow
