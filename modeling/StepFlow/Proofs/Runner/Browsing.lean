import Mathlib.Logic.Function.Iterate
import Mathlib.Tactic.Common
import StepFlow.Proofs.Graph
import StepFlow.Proofs.Handler
import StepFlow.Proofs.Runner.Operable
import StepFlow.Runner.Service

/-!
# Browsing a run

The cursor can be moved over the log and the run can be marked as paused at any time, also between
two steps.  `browsing_leaves_execution` says that none of this has any influence on the steps that
come later: two runs with the same start differ only in how far they have come, whatever was looked
at on the way.  It also says that looking back and catching up again leaves a runner exactly as it
was, without a node executed or a request sent.

Both parts are proved for operable runners.  For the first, `Operable.Ignores` relates a runner to
its view with the cursor on the last step and without the mark: every operation either leaves the
view as it is or steps it forward, so that the views of all runs with one start lie on a single
orbit (`Operable.Ignores.exists_iterate`).  What a runner keeps in mind for the next step is part of
the view, which is why looking back must not touch it.  For the second, `Operable.Retraces` says
that a step forward undoes a step back.
-/

namespace StepFlow

namespace Run

variable {Logs : Context → Step → Prop} {initialData : Context} {r r' : Run}

/-- The run as if nobody had looked back or marked it. -/
def caughtUp (r : Run) : Run := { r with cursor := r.lastIndex, isPaused := false }

/-- Logging a step catches up with the log. -/
theorem caughtUp_commit (r : Run) (s : Step) (halt : Bool) :
    (r.commit s halt).caughtUp = r.caughtUp.commit s halt := by
  simp [caughtUp, commit, lastIndex]

theorem reviewForward?_caughtUp : r.caughtUp.reviewForward? = none := by
  simp [caughtUp, reviewForward?, isReviewing, lastIndex]

/-- After a step back the run can catch up by one step, and is then as it was. -/
theorem reviewForward?_stepBack (hpos : 0 < r.cursor) (hlast : r.cursor ≤ r.lastIndex) :
    r.stepBack.reviewForward? = some r := by
  refine reviewForward?_eq_some_iff.2 ⟨?_, ?_⟩
  · rw [stepBack, if_pos hpos]
    exact Int.sub_one_lt_of_le hlast
  · rw [stepBack, if_pos hpos]
    simp

/-- While a run goes on, its cursor is not beyond the last step. -/
theorem Coherent.cursor_le_lastIndex (h : r.Coherent) (hrunning : r.isRunning = true) :
    r.cursor ≤ r.lastIndex := by
  have hlogged := (h.running hrunning).1
  exact (h.cursor_mem hlogged).2

/-- Two runs differ only in how far they have come. -/
structure Aligned (r r' : Run) : Prop where
  /-- The log of one of them continues the log of the other. -/
  log : r.steps <+: r'.steps ∨ r'.steps <+: r.steps
  /-- Where both have come equally far, the data are the same. -/
  data : r.steps.length = r'.steps.length → r.context = r'.context

/-- Runs whose logs continue each other are aligned, since the data follow from the log. -/
theorem Reachable.aligned (h : Reachable Logs initialData r) (h' : Reachable Logs initialData r')
    (hlog : r.steps <+: r'.steps ∨ r'.steps <+: r.steps) : r.Aligned r' where
  log := hlog
  data := by
    intro hlength
    have hsteps : r.steps = r'.steps := by
      rcases hlog with hbefore | hafter
      · exact hbefore.eq_of_length hlength
      · exact (hafter.eq_of_length hlength.symm).symm
    rw [h.context_eq, h'.context_eq, hsteps]

end Run

/-! ## Operable runners -/

namespace Operable

variable {σ ι ε : Type} {m : Operable σ ι ε} {i : ι} {view : σ → σ}

/-- A view of a runner that has the same log, and that every operation that goes on with the run
either leaves as it is or steps forward. -/
structure Ignores (m : Operable σ ι ε) (i : ι) (view : σ → σ) : Prop where
  steps_eq : ∀ s, (m.run (view s)).steps = (m.run s).steps
  apply_eq : ∀ s op, op.navigates = true →
    view (m.apply i s op) = view s ∨ view (m.apply i s op) = m.apply i (view s) .forward

/-- Operations step the view forward some number of times. -/
theorem Ignores.exists_iterate (h : m.Ignores i view) (s : σ) {ops : List Operation}
    (hops : ∀ op ∈ ops, op.navigates = true) :
    ∃ k, view (m.after s (ops.map (·, i))) = (fun s => m.apply i s .forward)^[k] (view s) := by
  induction ops generalizing s with
  | nil => exact ⟨0, rfl⟩
  | cons op rest ih =>
    have hop := hops op List.mem_cons_self
    obtain ⟨k, hk⟩ := ih (m.apply i s op) fun op hop => hops op (List.mem_cons_of_mem _ hop)
    rcases h.apply_eq s op hop with hsame | hforward
    · exact ⟨k, by rw [← hsame]; exact hk⟩
    · refine ⟨k + 1, ?_⟩
      rw [Function.iterate_succ_apply, ← hforward]
      exact hk

/-- Stepping forward continues the log. -/
theorem steps_iterate_of_le {a b : Nat} (hab : a ≤ b) (s : σ) :
    (m.run ((fun s => m.apply i s .forward)^[a] s)).steps <+:
      (m.run ((fun s => m.apply i s .forward)^[b] s)).steps := by
  obtain ⟨d, rfl⟩ := Nat.exists_eq_add_of_le hab
  induction d with
  | zero => exact List.prefix_rfl
  | succ d ih =>
    rw [← Nat.add_assoc, Function.iterate_succ_apply']
    obtain ⟨logged, hlogged, -⟩ :=
      m.logs i ((fun s => m.apply i s .forward)^[a + d] s) .forward rfl
    exact (ih (Nat.le_add_right a d)).trans ⟨logged, hlogged.symm⟩

/-- Of two runs with one beginning, the log of one continues the log of the other. -/
theorem Ignores.comparable (h : m.Ignores i view) (s : σ) {u v : List Operation}
    (hu : ∀ op ∈ u, op.navigates = true) (hv : ∀ op ∈ v, op.navigates = true) :
    (m.run (m.after s (u.map (·, i)))).steps <+: (m.run (m.after s (v.map (·, i)))).steps ∨
      (m.run (m.after s (v.map (·, i)))).steps <+: (m.run (m.after s (u.map (·, i)))).steps := by
  obtain ⟨a, ha⟩ := h.exists_iterate s hu
  obtain ⟨b, hb⟩ := h.exists_iterate s hv
  rw [← h.steps_eq (m.after s (u.map (·, i))), ← h.steps_eq (m.after s (v.map (·, i))), ha, hb]
  rcases Nat.le_total a b with hab | hba
  · exact .inl (steps_iterate_of_le hab (view s))
  · exact .inr (steps_iterate_of_le hba (view s))

/-- A runner whose steps back are undone by steps forward, without any act outside. -/
structure Retraces (m : Operable σ ι ε) : Prop where
  run_back : ∀ i s, m.run (m.apply i s .back) = (m.run s).stepBack
  act_back : ∀ i s, m.act? i s .back = none
  forward_back : ∀ i j s, (m.run s).isRunning = true → 0 < (m.run s).cursor →
    (m.run s).cursor ≤ (m.run s).lastIndex →
    m.apply j (m.apply i s .back) .forward = s ∧ m.act? j (m.apply i s .back) .forward = none

/-- As many steps forward as there were steps back, none of them from the first step, leave a runner
as it was. -/
theorem Retraces.after_eq (h : m.Retraces) {k : Nat} {s : σ} {ops : List (Operation × ι)}
    (hops : ops.map Prod.fst = List.replicate k .back ++ List.replicate k .forward)
    (hrunning : (m.run s).isRunning = true) (hk : (k : Int) ≤ (m.run s).cursor)
    (hlast : (m.run s).cursor ≤ (m.run s).lastIndex) :
    m.after s ops = s ∧ m.acts s ops = [] := by
  -- The first step back and the last step forward belong together.
  induction k generalizing s ops with
  | zero =>
    have hnil : ops = [] := by simpa using hops
    subst hnil
    exact ⟨rfl, rfl⟩
  | succ k ih =>
    rw [List.replicate_succ, List.replicate_succ', List.cons_append, ← List.append_assoc,
      List.map_eq_cons_iff] at hops
    obtain ⟨⟨op, i⟩, rest, rfl, rfl, hrest⟩ := hops
    obtain ⟨inner, final, rfl, hinner, hfinal⟩ := List.map_eq_append_iff.1 hrest
    obtain ⟨⟨op, j⟩, rfl, rfl⟩ := List.map_eq_singleton_iff.1 hfinal
    have hpos : 0 < (m.run s).cursor := by omega
    have hback : m.run (m.apply i s .back) = { m.run s with cursor := (m.run s).cursor - 1 } := by
      rw [h.run_back, Run.stepBack, if_pos hpos]
    have hlast' : (m.run s).cursor - 1 ≤ (m.run s).lastIndex := by omega
    obtain ⟨hafter, hacts⟩ := ih hinner (by rw [hback]; exact hrunning)
      (by rw [hback]; push_cast at hk; exact Int.le_sub_one_of_lt hk) (by rw [hback]; exact hlast')
    obtain ⟨hforward, hsilent⟩ := h.forward_back i j s hrunning hpos hlast
    simp only [after_cons, after_append, acts_cons, acts_append, h.act_back]
    rw [hafter, hacts]
    exact ⟨hforward, by simp [hsilent]⟩

end Operable

/-! ## The local runner -/

namespace LocalRunner

variable {initialData : Context} {w : Workflow} {clock readings : Readings} {op : Operation}
  {r : LocalRunner} {n : Node}

/-- Where no node draws its result at random, it makes no difference what is drawn. -/
theorem apply_drawn (hdraws : ∀ n ∈ r.workflow.nodes, n.role.draws = false) (draw draw' : Draw) :
    r.apply (clock.drawn draw) op = r.apply (clock.drawn draw') op := by
  have hexecute : ∀ (q : LocalRunner) (n : Node), n ∈ r.workflow.nodes →
      execute (clock.drawn draw) q n = execute (clock.drawn draw') q n := by
    intro q n hn
    simp only [execute, Handler.execute_drawn (hdraws n hn) clock draw draw']
  cases op with
  | start =>
    cases hentry : r.workflow.entry? with
    | none => rw [apply_start_of_no_entry hentry, apply_start_of_no_entry hentry]
    | some n =>
      rw [apply_start_of_entry hentry, apply_start_of_entry hentry]
      exact hexecute r.begun n (Workflow.entry?_eq_some_iff.1 hentry).mem
  | forward =>
    change r.forward (clock.drawn draw) = r.forward (clock.drawn draw')
    unfold forward
    split
    · rfl
    · split
      · rfl
      · split
        · rename_i n hnext
          exact hexecute r n (mem_of_next? hnext)
        · rfl
  | _ => rfl

/-- Where no node draws its result at random, operations come to the same as if nothing were drawn
between them. -/
theorem after_drawn (hdraws : ∀ n ∈ r.workflow.nodes, n.role.draws = false)
    (ops : List (Operation × Draw)) :
    operable.after r (ops.map fun o => (o.1, clock.drawn o.2)) =
      operable.after r ((ops.map (·.1)).map (·, clock)) := by
  induction ops generalizing r with
  | nil => rfl
  | cons o rest ih =>
    obtain ⟨op, draw⟩ := o
    have hstep : r.apply (clock.drawn draw) op = r.apply clock op :=
      apply_drawn hdraws draw ⟨clock.verdict, clock.confidence⟩
    have hkeeps := (apply_change clock r op).keeps
    have hrest := ih (r := r.apply clock op) (by rw [hkeeps.1]; exact hdraws)
    simp only [List.map_cons, Operable.after_cons]
    change operable.after (r.apply (clock.drawn draw) op) _ = _
    rw [hstep]
    exact hrest

/-- The runner as if nobody had looked back or marked its run. -/
def caughtUp (r : LocalRunner) : LocalRunner := { r with run := r.run.caughtUp }

/-- An operation that goes on with the run leaves it as it is, or steps it forward. -/
theorem ignores_caughtUp (clock : Readings) : operable.Ignores clock caughtUp where
  steps_eq := fun _ => rfl
  apply_eq := by
    intro r op hop
    change (r.apply clock op).caughtUp = r.caughtUp ∨
      (r.apply clock op).caughtUp = r.caughtUp.forward clock
    generalize happly : r.apply clock op = r'
    have hchange := apply_change clock r op
    rw [happly] at hchange
    cases hchange with
    | refuse => cases hop
    | start => cases hop
    | rest => exact .inl rfl
    | review _ hreview =>
      obtain ⟨-, rfl⟩ := Run.reviewForward?_eq_some_iff.1 hreview
      exact .inl rfl
    | @extend n hrunning _ hnext =>
      have hnext' : r.caughtUp.next? = some n := hnext
      have hrunning' : r.caughtUp.run.isRunning = true := hrunning
      rw [forward_of_next hrunning' Run.reviewForward?_caughtUp hnext']
      refine .inr ?_
      simp only [caughtUp, execute, Run.caughtUp_commit]
      rfl
    | finish hrunning _ hnext =>
      have hnext' : r.caughtUp.next? = none := hnext
      have hrunning' : r.caughtUp.run.isRunning = true := hrunning
      rw [forward_of_end hrunning' Run.reviewForward?_caughtUp hnext']
      exact .inr rfl
    | back =>
      refine .inl ?_
      rw [LocalRunner.back, Run.stepBack_eq]
      rfl
    | pause => exact .inl rfl
    | resume => exact .inl rfl
    | reset => cases hop

/-- A step forward undoes a step back, and executes nothing. -/
theorem retraces : operable.Retraces where
  run_back := fun _ _ => rfl
  act_back := fun _ _ => rfl
  forward_back := by
    intro _ readings r hrunning hpos hlast
    have hreview : r.back.run.reviewForward? = some r.run :=
      Run.reviewForward?_stepBack hpos hlast
    have hrunning' : r.back.run.isRunning = true := by
      rw [LocalRunner.back, Run.stepBack_eq]
      exact hrunning
    have hreviewing : r.back.run.isReviewing = true := by
      have hcursor := (Run.reviewForward?_eq_some_iff.1 hreview).1
      simpa [Run.isReviewing] using hcursor
    refine ⟨forward_of_review hrunning' hreview, ?_⟩
    change r.back.executes? .forward = none
    simp [executes?, hreviewing]

end LocalRunner

/-! ## The remote runner -/

namespace RemoteRunner

variable {now : Instant} {transport : Transport} {r : RemoteRunner} {nodeId : String}

/-- The runner as if nobody had looked back or marked its run. -/
def caughtUp (r : RemoteRunner) : RemoteRunner := { r with run := r.run.caughtUp }

/-- What comes back for a request is logged alike whether or not the log had been looked at. -/
theorem caughtUp_delegate (now : Instant) (transport : Transport) (r : RemoteRunner)
    (nodeId : String) :
    (r.delegate now transport nodeId).caughtUp = r.caughtUp.delegate now transport nodeId := by
  have hrequest : r.caughtUp.request nodeId = r.request nodeId := rfl
  have htimeout : r.caughtUp.timeoutMs = r.timeoutMs := rfl
  unfold delegate receive
  rw [hrequest, htimeout]
  split
  · simp only [caughtUp, Run.caughtUp_commit]
  · simp only [caughtUp, Run.caughtUp_commit]
    rfl

/-- An operation that goes on with the run leaves it as it is, or steps it forward. -/
theorem ignores_caughtUp (now : Instant) (transport : Transport) :
    operable.Ignores (now, transport) caughtUp where
  steps_eq := fun _ => rfl
  apply_eq := by
    intro r op hop
    change (r.apply now transport op).caughtUp = r.caughtUp ∨
      (r.apply now transport op).caughtUp = r.caughtUp.forward now transport
    generalize happly : r.apply now transport op = r'
    have hchange := apply_change now transport r op
    rw [happly] at hchange
    cases hchange with
    | refuse => cases hop
    | start => cases hop
    | rest => exact .inl rfl
    | review _ hreview =>
      obtain ⟨-, heq⟩ := Run.reviewForward?_eq_some_iff.1 hreview
      rw [heq]
      exact .inl rfl
    | @extend nodeId hrunning _ hnext =>
      have hnext' : r.caughtUp.nextNodeId? = some nodeId := hnext
      have hrunning' : r.caughtUp.run.isRunning = true := hrunning
      rw [forward_of_next hrunning' Run.reviewForward?_caughtUp hnext', caughtUp_delegate]
      exact .inr rfl
    | finish hrunning _ hnext =>
      have hnext' : r.caughtUp.nextNodeId? = none := hnext
      have hrunning' : r.caughtUp.run.isRunning = true := hrunning
      rw [forward_of_end hrunning' Run.reviewForward?_caughtUp hnext']
      exact .inr rfl
    | back =>
      refine .inl ?_
      rw [RemoteRunner.back, Run.stepBack_eq]
      rfl
    | pause => exact .inl rfl
    | resume => exact .inl rfl
    | reset => cases hop

/-- A step forward undoes a step back, and sends nothing. -/
theorem retraces : operable.Retraces where
  run_back := fun _ _ => rfl
  act_back := fun _ _ => rfl
  forward_back := by
    intro _ i r hrunning hpos hlast
    have hreview : r.back.run.reviewForward? = some r.run :=
      Run.reviewForward?_stepBack hpos hlast
    have hrunning' : r.back.run.isRunning = true := by
      rw [RemoteRunner.back, Run.stepBack_eq]
      exact hrunning
    exact ⟨forward_of_review hrunning' hreview, exchange?_forward_of_review hrunning' hreview⟩

end RemoteRunner

/-! ## Browsing and execution -/

/-- Looking back, catching up, pausing and resuming have no influence on execution.  Of two runs
with the same start the log of one continues the log of the other, whatever operations follow the
start other than another start or a reset, and where both logs are equally long the data are the
same: for the local runner where no node draws its result at random, and for the remote runner where
the answers depend on nothing but the requests.  While a run goes on, as many steps forward as there
were steps back leave the runner exactly as it was, and neither execute a node nor send a
request. -/
theorem browsing_leaves_execution (w : Workflow) (initialData : Context) :
    ((∀ n ∈ w.nodes, n.role.draws = false) →
      ∀ r, LocalRunner.Reachable w initialData r →
      ∀ (clock : Readings) (draw : Draw) (u v : List (Operation × Draw)),
        (∀ o ∈ u, o.1.navigates = true) → (∀ o ∈ v, o.1.navigates = true) →
        (LocalRunner.operable.after r
            (((.start, draw) :: u).map fun o => (o.1, clock.drawn o.2))).run.Aligned
          (LocalRunner.operable.after r
            (((.start, draw) :: v).map fun o => (o.1, clock.drawn o.2))).run) ∧
    (∀ r, LocalRunner.Reachable w initialData r → r.run.isRunning = true →
      ∀ (k : Nat) (ops : List (Operation × Readings)), (k : Int) ≤ r.run.cursor →
        ops.map Prod.fst = List.replicate k .back ++ List.replicate k .forward →
        LocalRunner.operable.after r ops = r ∧ LocalRunner.operable.acts r ops = []) ∧
    (∀ timeoutMs r, RemoteRunner.Reachable w initialData timeoutMs r →
      ∀ (now : Instant) (transport : Transport) (u v : List Operation),
        (∀ op ∈ u, op.navigates = true) → (∀ op ∈ v, op.navigates = true) →
        (RemoteRunner.operable.after r ((.start :: u).map (·, now, transport))).run.Aligned
          (RemoteRunner.operable.after r ((.start :: v).map (·, now, transport))).run) ∧
    (∀ timeoutMs r, RemoteRunner.Reachable w initialData timeoutMs r → r.run.isRunning = true →
      ∀ (k : Nat) (ops : List (Operation × Instant × Transport)), (k : Int) ≤ r.run.cursor →
        ops.map Prod.fst = List.replicate k .back ++ List.replicate k .forward →
        RemoteRunner.operable.after r ops = r ∧ RemoteRunner.operable.acts r ops = []) := by
  refine ⟨?_, ?_, ?_, ?_⟩
  · intro hdraws r hr clock draw u v hu hv
    have hdraws' : ∀ n ∈ r.workflow.nodes, n.role.draws = false := by
      rw [hr.made_with.1]
      exact hdraws
    refine (hr.after _).run.aligned (hr.after _).run ?_
    rw [LocalRunner.after_drawn hdraws', LocalRunner.after_drawn hdraws']
    exact (LocalRunner.ignores_caughtUp clock).comparable (r.apply clock .start)
      (List.forall_mem_map.2 hu) (List.forall_mem_map.2 hv)
  · intro r hr hrunning k ops hk hops
    have hlast := hr.run.coherent.cursor_le_lastIndex hrunning
    exact LocalRunner.retraces.after_eq hops hrunning hk hlast
  · intro timeoutMs r hr now transport u v hu hv
    refine (hr.after _).run.aligned (hr.after _).run ?_
    exact (RemoteRunner.ignores_caughtUp now transport).comparable (r.apply now transport .start)
      hu hv
  · intro timeoutMs r hr hrunning k ops hk hops
    have hlast := hr.run.coherent.cursor_le_lastIndex hrunning
    exact RemoteRunner.retraces.after_eq hops hrunning hk hlast

/-- A run that is looked back at on the way is one step behind a run that is not, and a remote run
whose cursor is moved over three steps and back is as it was. -/
theorem browsing_leaves_execution_fork :
    (∃ a b : LocalRunner,
      a = LocalRunner.operable.after (.new Workflow.fork (.single "hot" (.bool true)))
        ([.start, .forward, .back, .pause, .forward, .forward].map (·, .still)) ∧
      b = LocalRunner.operable.after (.new Workflow.fork (.single "hot" (.bool true)))
        ([.start, .forward, .resume, .forward, .forward].map (·, .still)) ∧
      a.run.steps.map (·.nodeId) = ["in", "check", "cool"] ∧
      b.run.steps.map (·.nodeId) = ["in", "check", "cool", "done"] ∧ a.run.Aligned b.run) ∧
    ∃ r, RemoteRunner.Reachable Workflow.fork (.single "hot" (.bool true)) 30000 r ∧
      r.run.isRunning = true ∧ r.run.cursor = 2 ∧
      RemoteRunner.operable.after r ([.back, .back, .forward, .forward].map
        (·, Readings.still.now, Service.transport .still)) = r := by
  obtain ⟨hlocal, -, -, hremote⟩ :=
    browsing_leaves_execution Workflow.fork (.single "hot" (.bool true))
  constructor
  · have haligned := hlocal (by decide) _ .new .still ⟨.pass, .zero false⟩
      ([.forward, .back, .pause, .forward, .forward].map (·, ⟨.pass, .zero false⟩))
      ([.forward, .resume, .forward, .forward].map (·, ⟨.pass, .zero false⟩))
      (by decide) (by decide)
    exact ⟨_, _, rfl, rfl, by decide +kernel, by decide +kernel, haligned⟩
  · obtain ⟨r, hr, hrunning, hcursor⟩ : ∃ r,
        RemoteRunner.Reachable Workflow.fork (.single "hot" (.bool true)) 30000 r ∧
          r.run.isRunning = true ∧ r.run.cursor = 2 :=
      ⟨_, ((RemoteRunner.Reachable.new.apply Readings.still.now (Service.transport .still)
        .start).apply Readings.still.now (Service.transport .still) .forward).apply
        Readings.still.now (Service.transport .still) .forward,
        by decide +kernel, by decide +kernel⟩
    exact ⟨r, hr, hrunning, hcursor,
      (hremote 30000 r hr hrunning 2 _ (by rw [hcursor]; decide) rfl).1⟩

end StepFlow
