import StepFlow.Command.Run
import StepFlow.Proofs.Runner.Local
import StepFlow.Proofs.Time.Instant

/-!
# Runs that are driven to their end

A drive of the local runner leads to a state that operations lead to, at times that the world gave
(`LocalRunner.driven_of_drive`), and the record that is made of a run tells of such a state
(`Command.exists_of_execute`).  The world is any that keeps a state of its own, so that all that
comes from outside can differ from step to step.
-/

namespace StepFlow

variable {σ τ : Type}

namespace Drivable

variable {d : Drivable (StateM σ) τ} {P : τ → Prop}

/-- What every step forward keeps is kept by stepping forward to the end. -/
theorem proceed_invariant (hforward : ∀ s t, P s → P ((d.forward s).run t).1) (budget : Nat) {s : τ}
    (t : σ) (hs : P s) : P ((d.proceed budget s).run t).1 := by
  induction budget generalizing s t with
  | zero => exact hs
  | succ budget ih =>
    rw [proceed]
    split
    · exact ih _ (hforward s t hs)
    · exact hs

/-- What holds after a start, and what every step forward keeps, holds at the end. -/
theorem drive_invariant {s s' : τ} {t : σ} {budget : Nat}
    (hstart : ∀ begun, ((d.start s).run t).1 = .ok begun → P begun)
    (hforward : ∀ s t, P s → P ((d.forward s).run t).1)
    (h : ((d.drive budget s).run t).1 = .ok s') : P s' := by
  rw [drive, StateT.run_bind] at h
  simp only [bind] at h
  split at h
  · cases h
  · rename_i begun hbegun
    cases h
    exact proceed_invariant hforward budget _ (hstart begun hbegun)

end Drivable

namespace LocalRunner

variable {w : Workflow} {initialData : Context} {readings : Readings} {op : Operation}
  {r r' : LocalRunner} {P : Instant → Prop}

/-- The steps of a run are logged at the times of the operations. -/
theorem Change.timestamps (h : Change readings r op r') (hnow : P readings.now)
    (hr : ∀ s ∈ r.run.steps, P s.timestamp) : ∀ s ∈ r'.run.steps, P s.timestamp := by
  have hexecute (before : LocalRunner) (n : Node) (hbefore : ∀ s ∈ before.run.steps, P s.timestamp) :
      ∀ s ∈ (execute readings before n).run.steps, P s.timestamp := by
    intro s hs
    rcases List.mem_append.1 hs with hs | hs
    · exact hbefore s hs
    · rw [List.mem_singleton.1 hs, Handler.execute_timestamp]
      exact hnow
  cases h with
  | refuse => exact hr
  | @start n _ => exact hexecute r.begun n fun s hs => by cases hs
  | rest => exact hr
  | review _ hreview =>
    obtain ⟨-, rfl⟩ := Run.reviewForward?_eq_some_iff.1 hreview
    exact hr
  | @extend n _ _ _ => exact hexecute r n hr
  | finish => exact hr
  | back => rw [LocalRunner.back, Run.stepBack_eq]; exact hr
  | pause => exact hr
  | resume => exact hr
  | reset => exact fun s hs => by cases hs

/-- What a drive comes to: a state that operations lead to, with a first step, and with all steps
logged at times of some kind. -/
structure Driven (w : Workflow) (initialData : Context) (P : Instant → Prop) (r : LocalRunner) :
    Prop where
  reachable : Reachable w initialData r
  steps_ne_nil : r.run.steps ≠ []
  timestamps : ∀ s ∈ r.run.steps, P s.timestamp

theorem Driven.start (hnow : P readings.now)
    (h : (new w initialData).start readings = .ok r) : Driven w initialData P r := by
  have hr : (new w initialData).apply readings .start = r := by rw [apply, h]
  have hchange := apply_change readings (new w initialData) .start
  rw [hr] at hchange
  have hnone : ∀ s ∈ (new w initialData).run.steps, P s.timestamp := fun s hs => by cases hs
  refine ⟨hr ▸ Reachable.new.apply readings .start, ?_, hchange.timestamps hnow hnone⟩
  cases hchange with
  | refuse hentry => rw [start_of_no_entry hentry] at h; cases h
  | start => exact List.concat_ne_nil _ _

theorem Driven.forward (h : Driven w initialData P r) (hnow : P readings.now) :
    Driven w initialData P (r.forward readings) := by
  have hchange : Change readings r .forward (r.forward readings) := apply_change readings r .forward
  refine ⟨h.reachable.apply readings .forward, ?_, hchange.timestamps hnow h.timestamps⟩
  generalize r.forward readings = r' at hchange
  cases hchange with
  | rest => exact h.steps_ne_nil
  | review _ hreview =>
    obtain ⟨-, rfl⟩ := Run.reviewForward?_eq_some_iff.1 hreview
    exact h.steps_ne_nil
  | extend => exact List.concat_ne_nil _ _
  | finish => exact h.steps_ne_nil

/-- A drive comes to such a state, with the times of the clock that it read. -/
theorem driven_of_drive {clock : StateM σ Readings} (hclock : ∀ t, P (clock.run t).1.now)
    {budget : Nat} {t : σ}
    (h : (((drivable clock).drive budget (new w initialData)).run t).1 = .ok r) :
    Driven w initialData P r := by
  have hstart (begun : LocalRunner)
      (hbegun : (((drivable clock).start (new w initialData)).run t).1 = .ok begun) :
      Driven w initialData P begun := .start (hclock t) hbegun
  have hforward (s : LocalRunner) (t : σ) (hs : Driven w initialData P s) :
      Driven w initialData P (((drivable clock).forward s).run t).1 := hs.forward (hclock t)
  exact Drivable.drive_invariant hstart hforward h

end LocalRunner

namespace Command

open History (Record)

/-! ## Commands in a world -/

section Effects

variable {ε α β : Type} {t : σ}

/-- An effect of the world succeeds and passes its result on. -/
theorem run_lift_bind (m : StateM σ α) (f : α → ExceptT ε (StateM σ) β) :
    ((liftM m >>= f).run.run t) = (f (m.run t).1).run.run (m.run t).2 := rfl

/-- A command of two parts succeeds only if both do. -/
theorem exists_of_run_bind {x : ExceptT ε (StateM σ) α} {f : α → ExceptT ε (StateM σ) β} {b : β}
    (h : ((x >>= f).run.run t).1 = .ok b) :
    ∃ a, (x.run.run t).1 = .ok a ∧ ((f a).run.run (x.run.run t).2).1 = .ok b := by
  rw [ExceptT.run_bind, StateT.run_bind] at h
  simp only [bind] at h
  split at h
  · rename_i a ha
    exact ⟨a, ha, h⟩
  · cases h

/-- The final state of a run is that of the runner at the end of its drive. -/
theorem exists_of_finalState {d : Drivable (StateM σ) τ} {maxSteps : Nat} {s : τ} {run : Run}
    (h : ((finalState d maxSteps s).run.run t).1 = .ok run) :
    ∃ s', ((d.drive maxSteps s).run t).1 = .ok s' ∧ d.run s' = run := by
  rw [finalState, run_lift_bind] at h
  split at h
  · cases h
  · rename_i s' hs'
    exact ⟨s', hs', Except.ok.inj h⟩

end Effects

/-- The clocks of a world are in order: its times lie in the years 0 to 9999, and its milliseconds
are signed integers. -/
structure InOrder (world : World (StateM σ)) : Prop where
  now_plain : ∀ t, (world.readings.run t).1.now.HasPlainYear
  milliseconds_le : ∀ t, (world.milliseconds.run t).1 ≤ History.longestDuration

variable {world : World (StateM σ)} {settings : Settings} {w : Workflow} {initialData : Context}
  {t : σ} {r : Record}

/-- The record of a local run tells of a state that operations lead to. -/
theorem exists_of_execute (hworld : InOrder world)
    (h : ((execute world settings w initialData none).run.run t).1 = .ok r) :
    ∃ id startedAt final durationMs, r = .ofRun id w initialData startedAt final.run durationMs ∧
      LocalRunner.Driven w initialData Instant.HasPlainYear final ∧
      startedAt.HasPlainYear ∧ durationMs.toNat ≤ History.longestDuration := by
  simp only [execute, run_lift_bind] at h
  obtain ⟨run, hrun, h⟩ := exists_of_run_bind h
  rw [run_lift_bind, run_lift_bind] at h
  obtain ⟨final, hdrive, rfl⟩ := exists_of_finalState hrun
  have hdriven := LocalRunner.driven_of_drive hworld.now_plain hdrive
  refine ⟨_, _, final, _, (Except.ok.inj h).symm, hdriven, hworld.now_plain _, ?_⟩
  rw [toNat_millisecondsBetween]
  exact (Nat.min_le_left _ _).trans ((Nat.sub_le _ _).trans (hworld.milliseconds_le _))

end Command

end StepFlow
