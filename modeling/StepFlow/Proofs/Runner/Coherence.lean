import StepFlow.Proofs.Graph
import StepFlow.Proofs.Runner.Local
import StepFlow.Proofs.Runner.Remote

/-!
# What a run shows of itself

The cursor, the mark that the run goes on, the phase and the log of a run are kept apart from
each other.  `run_coherent_of_reachable` says that they agree in every state of the local runner,
and in every state of the remote runner whatever answers its requests: replies with any status,
replies for other nodes, faults, or nothing at all.  It also says how little happens to a run
that has stopped.

Nothing here looks at a runner: the invariant is one of moves of a run (`Run.Move.coherent`,
`Run.Move.stillAt`), and every operation of either runner makes such a move.
-/

namespace StepFlow

variable {w : Workflow} {initialData : Context}

/-- A reset gives the run of a local runner back as it was made. -/
theorem LocalRunner.Reachable.run_reset {r : LocalRunner} (h : Reachable w initialData r)
    (readings : Readings) : (r.apply readings .reset).run = .new initialData := by
  change Run.new r.initialData = .new initialData
  rw [h.made_with.2]

/-- A reset gives the run of a remote runner back as it was made. -/
theorem RemoteRunner.Reachable.run_reset {timeoutMs : UInt64} {r : RemoteRunner}
    (h : Reachable w initialData timeoutMs r) (now : Instant) (transport : Transport) :
    (r.apply now transport .reset).run = .new initialData := by
  change Run.new r.initialData = .new initialData
  rw [h.made_with.2]

/-- In every state that operations lead a runner to, local or remote, on any workflow and
whatever answers the requests, the run is coherent and its phase is that of a failure exactly if
its last step failed.  A reset gives the run back as it was made, and once the run has stopped no
other operation but a start that succeeds changes its log or its data or makes it go on. -/
theorem run_coherent_of_reachable (w : Workflow) (initialData : Context) :
    (∀ r, LocalRunner.Reachable w initialData r →
      r.run.Coherent ∧
      (r.run.phase = .errored ↔ ∃ s, r.run.lastStep? = some s ∧ s.status = .error) ∧
      ∀ readings op,
        (op = .reset → (r.apply readings op).run = .new initialData) ∧
        (op ≠ .reset → (op = .start → ∃ fault, r.start readings = .error fault) →
          r.run.isRunning = false → r.run.StillAt (r.apply readings op).run)) ∧
    (∀ timeoutMs r, RemoteRunner.Reachable w initialData timeoutMs r →
      r.run.Coherent ∧
      (r.run.phase = .errored ↔ ∃ s, r.run.lastStep? = some s ∧ s.status = .error) ∧
      ∀ now transport op,
        (op = .reset → (r.apply now transport op).run = .new initialData) ∧
        (op ≠ .reset → (op = .start → ∃ fault, r.start now transport = .error fault) →
          r.run.isRunning = false → r.run.StillAt (r.apply now transport op).run)) := by
  constructor
  · intro r hr
    refine ⟨hr.run.coherent, hr.run.coherent.errored_iff_last, fun readings op => ⟨?_, ?_⟩⟩
    · rintro rfl
      exact hr.run_reset readings
    · intro hreset hstart hstopped
      exact (LocalRunner.apply_change readings r op).stillAt hstopped hreset hstart
  · intro timeoutMs r hr
    refine ⟨hr.run.coherent, hr.run.coherent.errored_iff_last, fun now transport op => ⟨?_, ?_⟩⟩
    · rintro rfl
      exact hr.run_reset now transport
    · intro hreset hstart hstopped
      exact (RemoteRunner.apply_change now transport r op).stillAt hstopped hreset hstart

/-- A local runner that has come to the end of its workflow has stopped without a failure, and a
remote runner whose first request is never answered has failed; neither is stepped forward. -/
theorem run_coherent_of_end_of_silence :
    (∃ r, LocalRunner.Reachable Workflow.fork (.single "hot" (.bool false)) r ∧
      r.run.isRunning = false ∧ r.run.phase ≠ .errored ∧
      r.run.StillAt (r.apply .still .forward).run) ∧
    ∃ r, RemoteRunner.Reachable Workflow.fork .empty 30000 r ∧
      r.run.isRunning = false ∧ r.run.phase = .errored ∧
      r.run.StillAt (r.apply Readings.still.now (fun _ => .silence) .forward).run ∧
      (r.apply Readings.still.now (fun _ => .silence) .reset).run = .new .empty := by
  constructor
  · obtain ⟨r, hr, hstopped, hlast⟩ : ∃ r,
        LocalRunner.Reachable Workflow.fork (.single "hot" (.bool false)) r ∧
          r.run.isRunning = false ∧ r.run.lastStep?.map (·.status) = some .success :=
      ⟨_, ((LocalRunner.Reachable.new.apply .still .start).apply .still .forward).apply .still
        .forward, by decide +kernel, by decide +kernel⟩
    obtain ⟨-, hphase, hrest⟩ := (run_coherent_of_reachable Workflow.fork _).1 r hr
    refine ⟨r, hr, hstopped, fun herrored => ?_, ?_⟩
    · obtain ⟨s, hs, hstatus⟩ := hphase.1 herrored
      rw [hs, Option.map_some, hstatus] at hlast
      cases hlast
    · exact (hrest .still .forward).2 (by decide) (fun h => by cases h) hstopped
  · obtain ⟨r, hr, hstopped, s, hlast, hstatus⟩ : ∃ r,
        RemoteRunner.Reachable Workflow.fork .empty 30000 r ∧ r.run.isRunning = false ∧
          ∃ s, r.run.lastStep? = some s ∧ s.status = .error :=
      ⟨_, RemoteRunner.Reachable.new.apply Readings.still.now (fun _ => .silence) .start,
        by decide, _, rfl, by decide⟩
    obtain ⟨-, hphase, hrest⟩ := (run_coherent_of_reachable Workflow.fork .empty).2 30000 r hr
    refine ⟨r, hr, hstopped, hphase.2 ⟨s, hlast, hstatus⟩, ?_, ?_⟩
    · exact (hrest _ _ .forward).2 (by decide) (fun h => by cases h) hstopped
    · exact (hrest _ _ .reset).1 rfl

end StepFlow
