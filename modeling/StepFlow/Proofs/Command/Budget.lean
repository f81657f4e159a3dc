import StepFlow.Proofs.Command.Readable
import StepFlow.Proofs.Runner.Budget
import StepFlow.Proofs.Runner.Seeding

/-!
# What a budget buys

`Command.drive_within_budget` says what becomes of a drive with one budget or another, in a world
whose clock stands still: all drives follow the same steps and differ only in where they end, and a
budget that sufficed once suffices for good.  That a run may lead in circles makes no difference,
since each step forward of a drive executes a node or ends the run.  The record that is made of the
run tells whether it failed, or was cut off by the budget, or came to its end.
-/

namespace StepFlow

variable {σ : Type}

namespace History

/-- A record that tells how its run ended. -/
structure Record.TellsEnd (r : Record) : Prop where
  steps_eq : r.steps = r.finalState.steps
  error_iff : r.status = .error ↔ ∃ s, r.steps.getLast? = some s ∧ s.status = .error
  unfinished_iff : r.status = .unfinished ↔ r.finalState.isRunning = true
  success_iff : r.status = .success ↔
    r.finalState.isRunning = false ∧ ∀ s, r.steps.getLast? = some s → s.status ≠ .error

theorem Status.ofRun_eq_error_iff {r : Run} : ofRun r = .error ↔ r.phase = .errored := by
  unfold ofRun
  cases r.phase <;> simp

/-- A run that has a step is recorded as unfinished exactly if it goes on. -/
theorem Status.ofRun_eq_unfinished_iff {r : Run} (hsteps : r.steps ≠ []) :
    ofRun r = .unfinished ↔ r.isRunning = true := by
  have hempty : r.steps.isEmpty = false := List.isEmpty_eq_false_iff.2 hsteps
  unfold ofRun Run.phase
  rw [hempty]
  cases r.isRunning <;> cases r.isPaused <;> cases r.hasFailed <;> simp

/-- The record of a coherent run that has a step tells how it ended. -/
theorem Record.tellsEnd_ofRun {run : Run} (h : run.Coherent) (hsteps : run.steps ≠ [])
    (id : String) (w : Workflow) (initialData : Context) (startedAt : Instant)
    (durationMs : UInt64) : (ofRun id w initialData startedAt run durationMs).TellsEnd := by
  have herror : Status.ofRun run = .error ↔ ∃ s, run.steps.getLast? = some s ∧ s.status = .error :=
    Status.ofRun_eq_error_iff.trans h.errored_iff_last
  have hunfinished := Status.ofRun_eq_unfinished_iff hsteps
  refine ⟨rfl, herror, hunfinished, ?_⟩
  -- The third status is what remains.
  have hsuccess : Status.ofRun run = .success ↔
      ¬ Status.ofRun run = .unfinished ∧ ¬ Status.ofRun run = .error := by
    cases Status.ofRun run <;> simp
  change Status.ofRun run = .success ↔ run.isRunning = false ∧
    ∀ s, run.steps.getLast? = some s → s.status ≠ .error
  rw [hsuccess, hunfinished, herror]
  simp

end History

namespace Command

open History (Record)
open LocalRunner (drivable StandsAt Budgeted)

variable {world : World (StateM σ)} {w : Workflow} {initialData : Context}

/-- What a drive comes to is recorded. -/
theorem execute_of_drive {settings : Settings} {t : σ} {final : LocalRunner}
    (h : ∀ t, (((drivable world.readings).drive settings.maxSteps
      (.new w initialData)).run t).1 = .ok final) :
    ∃ id startedAt durationMs,
      ((execute world settings w initialData none).run.run t).1 =
        .ok (.ofRun id w initialData startedAt final.run durationMs) := by
  have hfinal (t : σ) : ((finalState (drivable world.readings) settings.maxSteps
      (.new w initialData)).run.run t).1 = .ok final.run := by
    rw [finalState, run_lift_bind, h t]
    rfl
  simp only [execute, run_lift_bind]
  rw [ExceptT.run_bind, StateT.run_bind]
  simp only [bind, hfinal]
  exact ⟨_, _, _, rfl⟩

/-- In a world whose clock stands still, all drives of the local runner of a workflow that has an
entry and draws nothing at random follow the same steps, whatever state the drive begins in: a drive
is a start with the steps forward that it takes to stop or that its budget allows.  The record of a
drive from a new runner tells how the run ended. -/
theorem drive_within_budget {entry : Node} (hentry : w.entry? = some entry)
    (hdraws : ∀ n ∈ w.nodes, n.role.draws = false) {clock : Readings}
    (hclock : StandsAt world.readings clock) {r : LocalRunner}
    (hr : LocalRunner.Reachable w initialData r) :
    ∃ (started : LocalRunner) (final : Nat → LocalRunner),
      r.start clock = .ok started ∧
      (∀ n t, ((drivable world.readings).drive n r).run t =
        ((drivable world.readings).startForwards (min (n : ℕ∞)
          ((drivable world.readings).stepsToStop (·.forward clock) started)).toNat r).run t) ∧
      (∀ n t, (((drivable world.readings).drive n r).run t).1 = .ok (final n)) ∧
      Budgeted final ∧
      ∀ settings t, ∃ record : Record,
        ((execute world settings w initialData none).run.run t).1 = .ok record ∧
          record.finalState = (final settings.maxSteps).run ∧ record.TellsEnd := by
  obtain ⟨started, hstart⟩ : ∃ started,
      (LocalRunner.new w initialData).start clock = .ok started :=
    ⟨_, LocalRunner.start_of_entry hentry⟩
  have hdrive := hr.drive_eq hclock hdraws hstart
  have hfresh := LocalRunner.Reachable.new.drive_eq hclock hdraws hstart
  have hbudgeted := (LocalRunner.onTrack_of_start hstart).budgeted world.readings clock
  refine ⟨started, _, (hr.start_eq clock).trans hstart, fun n t => (hdrive n t).1,
    fun n t => (hdrive n t).2, hbudgeted, fun settings t => ?_⟩
  obtain ⟨id, startedAt, durationMs, hexecute⟩ :=
    execute_of_drive (t := t) fun t => (hfresh settings.maxSteps t).2
  have hend := (LocalRunner.onTrack_of_start hstart).iterate clock (min (settings.maxSteps : ℕ∞)
    ((drivable world.readings).stepsToStop (·.forward clock) started)).toNat
  exact ⟨_, hexecute, rfl,
    Record.tellsEnd_ofRun hend.reachable.run.coherent hend.steps_ne_nil id w initialData startedAt
      durationMs⟩

/-- A run of the loop is cut off by a budget of three steps forward after four steps of the log, also
where the runner was looked back at and paused before, and is recorded as unfinished. -/
theorem drive_within_budget_loop :
    Workflow.loop.entry? = some ⟨"in", none, .input⟩ ∧
    (∀ n ∈ Workflow.loop.nodes, n.role.draws = false) ∧ StandsAt idleWorld.readings .still ∧
    ∃ r, LocalRunner.Reachable Workflow.loop .empty r ∧ r.run.cursor = 0 ∧ r.run.isPaused = true ∧
      ∃ final, (((drivable idleWorld.readings).drive 3 r).run ()).1 = .ok final ∧
        final.run.isRunning = true ∧ final.run.steps.length = 4 ∧
        ∃ record, ((execute idleWorld { Settings.default with maxSteps := 3 } Workflow.loop .empty
            none).run.run ()).1 = .ok record ∧
          record.finalState = final.run ∧ record.status = .unfinished := by
  have hentry : Workflow.loop.entry? = some ⟨"in", none, .input⟩ := by decide
  have hdraws : ∀ n ∈ Workflow.loop.nodes, n.role.draws = false := by decide
  have hclock : StandsAt idleWorld.readings .still := fun _ => ⟨⟨.pass, .zero false⟩, rfl⟩
  obtain ⟨r, hr, hcursor, hpaused⟩ : ∃ r, LocalRunner.Reachable Workflow.loop .empty r ∧
      r.run.cursor = 0 ∧ r.run.isPaused = true :=
    ⟨_, (((LocalRunner.Reachable.new.apply .still .start).apply .still .forward).apply .still
      .back).apply .still .pause, by decide +kernel, by decide +kernel⟩
  obtain ⟨-, final, -, -, hdrive, hbudgeted, hrecord⟩ :=
    drive_within_budget hentry hdraws hclock hr
  obtain ⟨record, hexecute, hfinal, htells⟩ := hrecord { Settings.default with maxSteps := 3 } ()
  have hgoes : ∃ record : Record, ((execute idleWorld { Settings.default with maxSteps := 3 }
      Workflow.loop .empty none).run.run ()).1 = .ok record ∧
        record.finalState.isRunning = true := ⟨_, rfl, by decide +kernel⟩
  have hrunning : record.finalState.isRunning = true := by
    obtain ⟨record', hexecute', hrunning'⟩ := hgoes
    rw [hexecute] at hexecute'
    rwa [Except.ok.inj hexecute']
  have hspent := hbudgeted.spent 3 (hfinal ▸ hrunning)
  exact ⟨hentry, hdraws, hclock, r, hr, hcursor, hpaused, final 3, hdrive 3 (), hfinal ▸ hrunning,
    hspent, record, hexecute, hfinal, htells.unfinished_iff.2 hrunning⟩

end Command

end StepFlow
