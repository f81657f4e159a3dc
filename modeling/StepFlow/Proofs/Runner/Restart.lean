import StepFlow.Proofs.Runner.Browsing

/-!
# A new start erases the past

What a runner has done leaves traces besides the log that it shows: the decision of its last step,
the node that the last reply named, the mark of a pause, the cursor.  `restart_erases_past` says
that none of them outlives a start that succeeds or a reset: two runners made alike return the same
of all operations that follow a start, whatever was done to them before, and a reset runner is a new
one.

A workflow without an entry has no start that succeeds.  There a start is refused and leaves the
runner as it is, with its mark (`refused_start_keeps_past`), so that the first part is about
workflows with an entry only.

Remote runners may differ in how long they wait for an answer.  This shows in the text of a step
that was not answered in time and nowhere else (`RemoteRunner.apply_withTimeout`).
-/

namespace StepFlow

variable {w : Workflow} {initialData : Context} {op : Operation}

/-! ## The local runner -/

namespace LocalRunner

variable {clock readings : Readings} {r r' : LocalRunner}

/-- A runner that begins anew is one that was made just now and begins. -/
theorem Reachable.begun_eq (h : Reachable w initialData r) :
    r.begun = (LocalRunner.new w initialData).begun := by
  obtain ⟨hworkflow, hinitial⟩ := h.made_with
  rw [begun, begun, reset, hworkflow, hinitial]
  rfl

/-- Where no node draws its result at random, operations return the same whatever is drawn between
them. -/
theorem trace_drawn (hdraws : ∀ n ∈ r.workflow.nodes, n.role.draws = false)
    (ops : List (Operation × Readings × Draw × Draw)) :
    r.trace (ops.map fun (op, clock, draw, _) => (op, clock.drawn draw)) =
      r.trace (ops.map fun (op, clock, _, draw) => (op, clock.drawn draw)) := by
  induction ops generalizing r with
  | nil => rfl
  | cons o rest ih =>
    obtain ⟨op, clock, draw, draw'⟩ := o
    have hstep : r.apply (clock.drawn draw) op = r.apply (clock.drawn draw') op :=
      apply_drawn hdraws draw draw'
    have hkeeps := (apply_change (clock.drawn draw') r op).keeps
    have hrest := ih (r := r.apply (clock.drawn draw') op) (by rw [hkeeps.1]; exact hdraws)
    simp only [List.map_cons, trace, returned_eq, hstep]
    rw [hrest]

/-- All runners that were made alike return the same of operations that begin with a start. -/
theorem Reachable.trace_start (h : Reachable w initialData r) {n : Node}
    (hentry : w.entry? = some n) (ops : List (Operation × Readings)) :
    r.trace ((.start, readings) :: ops) =
      (LocalRunner.new w initialData).trace ((.start, readings) :: ops) := by
  have hmade : r.workflow.entry? = some n := by rw [h.made_with.1]; exact hentry
  have hnew : (LocalRunner.new w initialData).workflow.entry? = some n := hentry
  simp only [trace, returned_eq, apply_start_of_entry hmade, apply_start_of_entry hnew,
    h.begun_eq, hmade, hnew]

/-- A reset runner is a new one. -/
theorem Reachable.apply_reset (h : Reachable w initialData r) (readings : Readings) :
    r.returned readings .reset = .ok (.new initialData) ∧
      r.apply readings .reset = .new w initialData := by
  obtain ⟨hworkflow, hinitial⟩ := h.made_with
  have hreset : r.apply readings .reset = .new w initialData := by
    rw [← hworkflow, ← hinitial]
    rfl
  refine ⟨?_, hreset⟩
  rw [returned_eq, hreset]
  rfl

/-- A start that is refused changes nothing. -/
theorem Reachable.start_refused (h : Reachable w initialData r) (hentry : w.entry? = none)
    (readings : Readings) :
    r.returned readings .start = .error .noInputNode ∧ r.apply readings .start = r := by
  have hmade : r.workflow.entry? = none := by rw [h.made_with.1]; exact hentry
  exact ⟨by simp [returned_eq, hmade], apply_start_of_no_entry hmade⟩

end LocalRunner

/-! ## The remote runner -/

namespace RemoteRunner

variable {timeoutMs : UInt64} {now : Instant} {transport : Transport} {r r' : RemoteRunner}

/-- A runner goes on waiting for as long as it was made to. -/
theorem apply_timeoutMs (now : Instant) (transport : Transport) (r : RemoteRunner)
    (op : Operation) : (r.apply now transport op).timeoutMs = r.timeoutMs := by
  have hdelegate (q : RemoteRunner) (nodeId : String) :
      (q.delegate now transport nodeId).timeoutMs = q.timeoutMs := by
    obtain ⟨s, halt, next?, heq⟩ := receive_eq now q nodeId (transport (q.request nodeId))
    rw [delegate, heq]
  generalize happly : r.apply now transport op = r'
  have hchange := apply_change now transport r op
  rw [happly] at hchange
  cases hchange with
  | start => exact hdelegate r.begun _
  | extend => exact hdelegate { r with nextNodeId? := none } _
  | _ => rfl

theorem Reachable.timeoutMs_eq (h : Reachable w initialData timeoutMs r) :
    r.timeoutMs = timeoutMs := by
  induction h with
  | new => rfl
  | @apply r now transport op _ ih => rw [apply_timeoutMs, ih]

/-- A runner that begins anew is one that was made just now and begins. -/
theorem Reachable.begun_eq (h : Reachable w initialData timeoutMs r) :
    r.begun = (RemoteRunner.new w initialData timeoutMs).begun := by
  obtain ⟨hworkflow, hinitial⟩ := h.made_with
  rw [begun, begun, reset, hworkflow, hinitial, h.timeoutMs_eq]
  rfl

/-- All runners that were made alike return the same of operations that begin with a start. -/
theorem Reachable.trace_start (h : Reachable w initialData timeoutMs r) {n : Node}
    (hentry : w.entry? = some n) (ops : List (Operation × Instant × Transport)) :
    r.trace ((.start, now, transport) :: ops) =
      (RemoteRunner.new w initialData timeoutMs).trace ((.start, now, transport) :: ops) := by
  have hmade : r.workflow.entry? = some n := by rw [h.made_with.1]; exact hentry
  have hnew : (RemoteRunner.new w initialData timeoutMs).workflow.entry? = some n := hentry
  simp only [trace, returned_eq, apply_start_of_entry hmade, apply_start_of_entry hnew,
    h.begun_eq, hmade, hnew]

/-! ### Runners that wait for different times -/

/-- The runner, made to wait for another time. -/
def withTimeout (r : RemoteRunner) (timeoutMs : UInt64) : RemoteRunner :=
  { r with timeoutMs := timeoutMs }

/-- How long a runner would wait has no influence on what it asks for. -/
theorem begin_withTimeout (r : RemoteRunner) (timeoutMs : UInt64) (op : Operation) :
    (r.withTimeout timeoutMs).begin op =
      ⟨(r.begin op).runner.withTimeout timeoutMs, (r.begin op).nodeId?⟩ := by
  cases op with
  | start =>
    have hworkflow : (r.withTimeout timeoutMs).workflow = r.workflow := rfl
    unfold begin beginStart
    rw [hworkflow]
    cases r.workflow.entry? with
    | none => rfl
    | some n => rfl
  | forward =>
    have hrun : (r.withTimeout timeoutMs).run = r.run := rfl
    have hnext : (r.withTimeout timeoutMs).nextNodeId? = r.nextNodeId? := rfl
    simp only [begin, beginForward, hrun, hnext]
    cases r.run.isRunning with
    | false => rfl
    | true =>
      cases r.run.reviewForward? with
      | some run => rfl
      | none => cases r.nextNodeId? <;> rfl
  | _ => rfl

/-- Where every request is answered, it makes no difference how long a runner would wait. -/
theorem apply_withTimeout (hanswers : ∀ q, transport q ≠ .silence) :
    (r.withTimeout timeoutMs).apply now transport op =
      (r.apply now transport op).withTimeout timeoutMs := by
  simp only [apply, begin_withTimeout, Pending.finish]
  obtain ⟨runner, nodeId?⟩ := r.begin op
  cases nodeId? with
  | none => rfl
  | some nodeId =>
    change (runner.withTimeout timeoutMs).receive now nodeId (transport (runner.request nodeId)) =
      (runner.receive now nodeId (transport (runner.request nodeId))).withTimeout timeoutMs
    have hanswer := hanswers (runner.request nodeId)
    cases hback : transport (runner.request nodeId) with
    | silence => exact absurd hback hanswer
    | fault fault => rfl
    | reply p =>
      unfold receive
      simp only [Answer.within, Except.bind]
      cases checkReply nodeId p <;> rfl

/-- Where every request is answered, runners return the same however long they would wait. -/
theorem trace_withTimeout (hanswers : ∀ q, transport q ≠ .silence)
    (ops : List (Operation × Instant)) :
    (r.withTimeout timeoutMs).trace (ops.map fun o => (o.1, o.2, transport)) =
      r.trace (ops.map fun o => (o.1, o.2, transport)) := by
  induction ops generalizing r with
  | nil => rfl
  | cons o rest ih =>
    obtain ⟨op, now⟩ := o
    simp only [List.map_cons, trace, returned_eq, apply_withTimeout hanswers, ih]
    rfl

/-- Runners that were made alike, up to how long they wait for an answer that comes, return the same
of operations that begin with a start. -/
theorem Reachable.trace_start_eq {timeoutMs' : UInt64} (h : Reachable w initialData timeoutMs r)
    (h' : Reachable w initialData timeoutMs' r')
    (hwaits : timeoutMs = timeoutMs' ∨ ∀ q, transport q ≠ .silence) {n : Node}
    (hentry : w.entry? = some n) (now : Instant) (ops : List (Operation × Instant)) :
    r.trace (((.start, now) :: ops).map fun o => (o.1, o.2, transport)) =
      r'.trace (((.start, now) :: ops).map fun o => (o.1, o.2, transport)) := by
  rw [List.map_cons, h.trace_start hentry, h'.trace_start hentry]
  rcases hwaits with rfl | hanswers
  · rfl
  · exact (trace_withTimeout (r := .new w initialData timeoutMs) hanswers
      ((.start, now) :: ops)).symm

/-- A reset runner is a new one. -/
theorem Reachable.apply_reset (h : Reachable w initialData timeoutMs r) (now : Instant)
    (transport : Transport) :
    r.returned now transport .reset = .ok (.new initialData) ∧
      r.apply now transport .reset = .new w initialData timeoutMs := by
  obtain ⟨hworkflow, hinitial⟩ := h.made_with
  have hreset : r.apply now transport .reset = .new w initialData timeoutMs := by
    rw [← hworkflow, ← hinitial, ← h.timeoutMs_eq]
    rfl
  refine ⟨?_, hreset⟩
  rw [returned_eq, hreset]
  rfl

/-- A start that is refused sends nothing and changes nothing. -/
theorem Reachable.start_refused (h : Reachable w initialData timeoutMs r)
    (hentry : w.entry? = none) (now : Instant) (transport : Transport) :
    r.returned now transport .start = .error .noInputNode ∧
      r.exchange? transport .start = none ∧ r.apply now transport .start = r := by
  have hmade : r.workflow.entry? = none := by rw [h.made_with.1]; exact hentry
  refine ⟨by simp [returned_eq, hmade], ?_, apply_start_of_no_entry hmade⟩
  exact exchange?_start_of_no_entry hmade

end RemoteRunner

/-! ## Both runners -/

/-- A workflow that no run can start in. -/
def Workflow.closed : Workflow where
  id := "closed"
  name := ""
  nodes := [⟨"done", none, .output⟩]
  edges := []

/-- Where no run can start, a start does not take away the mark of a pause: what is returned after
it tells a runner that was paused before from a new one. -/
theorem refused_start_keeps_past :
    (∀ n ∈ Workflow.closed.nodes, n.role.draws = false) ∧
      ∃ r r', LocalRunner.Reachable Workflow.closed .empty r ∧
        LocalRunner.Reachable Workflow.closed .empty r' ∧
        (r.apply .still .start).trace [(.forward, .still)] ≠
          (r'.apply .still .start).trace [(.forward, .still)] :=
  ⟨by decide, _, _, .apply .still .pause .new, .new, by decide⟩

/-- Two runners that were made alike return the same of a start and of all operations that follow it,
whatever was done to them before, if the workflow has an entry: two local ones where no node draws
its result at random, and two remote ones, which may wait for different times where every request is
answered.  A reset makes a runner a new one again.  Without an entry a start is refused, sends
nothing, and changes nothing. -/
theorem restart_erases_past (w : Workflow) (initialData : Context) :
    ((∀ n ∈ w.nodes, n.role.draws = false) →
      ∀ r r', LocalRunner.Reachable w initialData r → LocalRunner.Reachable w initialData r' →
        ((∃ n, w.entry? = some n) →
          ∀ (clock : Readings) (draw draw' : Draw)
            (ops : List (Operation × Readings × Draw × Draw)),
            r.trace (((.start, clock, draw, draw') :: ops).map fun (op, clock, draw, _) =>
                (op, clock.drawn draw)) =
              r'.trace (((.start, clock, draw, draw') :: ops).map fun (op, clock, _, draw) =>
                (op, clock.drawn draw))) ∧
        ∀ readings,
          (r.returned readings .reset = .ok (.new initialData) ∧
            r.apply readings .reset = .new w initialData) ∧
          (w.entry? = none →
            r.returned readings .start = .error .noInputNode ∧ r.apply readings .start = r)) ∧
    (∀ timeoutMs timeoutMs' r r', RemoteRunner.Reachable w initialData timeoutMs r →
      RemoteRunner.Reachable w initialData timeoutMs' r' →
        ∀ transport : Transport,
          ((∃ n, w.entry? = some n) →
            (timeoutMs = timeoutMs' ∨ ∀ q, transport q ≠ .silence) →
            ∀ (now : Instant) (ops : List (Operation × Instant)),
              r.trace (((.start, now) :: ops).map fun o => (o.1, o.2, transport)) =
                r'.trace (((.start, now) :: ops).map fun o => (o.1, o.2, transport))) ∧
          ∀ now,
            (r.returned now transport .reset = .ok (.new initialData) ∧
              r.apply now transport .reset = .new w initialData timeoutMs) ∧
            (w.entry? = none →
              r.returned now transport .start = .error .noInputNode ∧
              r.exchange? transport .start = none ∧ r.apply now transport .start = r)) := by
  constructor
  · intro hdraws r r' hr hr'
    refine ⟨?_, fun readings => ⟨?_, ?_⟩⟩
    · rintro ⟨n, hentry⟩ clock draw draw' ops
      have hdraws' : ∀ n ∈ (LocalRunner.new w initialData).workflow.nodes, n.role.draws = false :=
        hdraws
      rw [List.map_cons, List.map_cons, hr.trace_start hentry, hr'.trace_start hentry]
      exact LocalRunner.trace_drawn hdraws' ((.start, clock, draw, draw') :: ops)
    · exact hr.apply_reset readings
    · exact fun hentry => hr.start_refused hentry readings
  · intro timeoutMs timeoutMs' r r' hr hr' transport
    refine ⟨?_, fun now => ⟨?_, ?_⟩⟩
    · rintro ⟨n, hentry⟩ hwaits now ops
      exact hr.trace_start_eq hr' hwaits hentry now ops
    · exact hr.apply_reset now transport
    · exact fun hentry => hr.start_refused hentry now transport

/-- A run that was left at the decision, looked back at and paused does not show in the next one,
nor does a remote run that was left while another node was to follow.  Where no run can start, a
paused runner stays as it is. -/
theorem restart_erases_past_fork :
    (∃ r, LocalRunner.Reachable Workflow.fork (.single "hot" (.bool true)) r ∧
      r.lastBranch? = some true ∧ r.run.isPaused = true ∧ r.run.cursor = 0 ∧
      r.trace ([.start, .forward, .forward].map (·, .still)) =
        (LocalRunner.new Workflow.fork (.single "hot" (.bool true))).trace
          ([.start, .forward, .forward].map (·, .still))) ∧
    (∃ r, RemoteRunner.Reachable Workflow.fork (.single "hot" (.bool true)) 10 r ∧
      r.nextNodeId? = some "cool" ∧
      r.trace ([.start, .forward, .forward].map
          (·, Readings.still.now, Service.transport .still)) =
        (RemoteRunner.new Workflow.fork (.single "hot" (.bool true)) 30000).trace
          ([.start, .forward, .forward].map
            (·, Readings.still.now, Service.transport .still))) ∧
    ∃ r, LocalRunner.Reachable Workflow.closed .empty r ∧ r.run.isPaused = true ∧
      r.apply .still .start = r := by
  obtain ⟨hlocal, hremote⟩ := restart_erases_past Workflow.fork (.single "hot" (.bool true))
  refine ⟨?_, ?_, ?_⟩
  · have hnew : LocalRunner.Reachable Workflow.fork (.single "hot" (.bool true)) _ := .new
    have hr := hnew.after ([.start, .forward, .back, .pause].map (·, .still))
    have htrace := (hlocal (by decide) _ _ hr .new).1 ⟨⟨"in", none, .input⟩, rfl⟩ .still
      ⟨.pass, .zero false⟩ ⟨.pass, .zero false⟩
      ([.forward, .forward].map (·, .still, ⟨.pass, .zero false⟩, ⟨.pass, .zero false⟩))
    exact ⟨_, hr, by decide +kernel, by decide +kernel, by decide +kernel, htrace⟩
  · have hnew : RemoteRunner.Reachable Workflow.fork (.single "hot" (.bool true)) 10 _ := .new
    have hr := hnew.after ([.start, .forward].map
      (·, Readings.still.now, Service.transport .still))
    have hanswers (q : StepRequest) : Service.transport .still q ≠ .silence := by
      unfold Service.transport
      split <;> exact nofun
    have htrace := (hremote 10 30000 _ _ hr .new (Service.transport .still)).1
      ⟨⟨"in", none, .input⟩, rfl⟩ (.inr hanswers) Readings.still.now
      ([.forward, .forward].map (·, Readings.still.now))
    exact ⟨_, hr, by decide +kernel, htrace⟩
  · have hr : LocalRunner.Reachable Workflow.closed .empty _ := .apply .still .pause .new
    have hclosed := (restart_erases_past Workflow.closed .empty).1 (by decide) _ _ hr .new
    exact ⟨_, hr, rfl, ((hclosed.2 .still).2 rfl).2⟩

end StepFlow
