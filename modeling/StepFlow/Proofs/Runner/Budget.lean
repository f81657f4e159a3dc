import Mathlib.Data.ENat.Lattice
import Mathlib.Logic.Function.Iterate
import StepFlow.Proofs.Runner.Browsing
import StepFlow.Runner.Drive

/-!
# Steps forward within a budget

A workflow may lead in circles, so that a run of it need not end, and a drive has only its budget to
end it.  `Drivable.stepsToStop` is the number of steps forward after which a run first stops, which
may be infinite.  Where steps forward only depend on the runner and no run is paused, a drive makes
that many steps forward or uses up its budget (`Drivable.Settled.proceed_eq`), with all that the
steps do outside of the runner.

For the local runner `LocalRunner.OnTrack` is what the steps forward keep: the cursor stays on the
last step, so that none of them merely catches up with the log, and a run that goes on has one step
more than there were steps forward.
-/

namespace StepFlow

variable {σ τ : Type}

namespace Drivable

/-- Steps forward a number of times, whether or not the run goes on. -/
def forwards {m : Type → Type} [Monad m] (d : Drivable m τ) : Nat → τ → m τ
  | 0, s => pure s
  | k + 1, s => do d.forwards k (← d.forward s)

/-- Starts a run and steps forward a number of times, whether or not the run goes on. -/
def startForwards {m : Type → Type} [Monad m] (d : Drivable m τ) (k : Nat) (s : τ) :
    m (Except StartFault τ) := do
  match ← d.start s with
  | .error fault => pure (.error fault)
  | .ok started => pure (.ok (← d.forwards k started))

open Classical in
/-- After how many steps forward, each of which makes of a runner what `f` does, the run first stops;
infinite if it never does. -/
noncomputable def stepsToStop {m : Type → Type} (d : Drivable m τ) (f : τ → τ) (s : τ) : ℕ∞ :=
  if h : ∃ k, (d.run (f^[k] s)).isRunning = false then Nat.find h else ⊤

variable {d : Drivable (StateM σ) τ} {f : τ → τ} {P : τ → Prop} {s : τ} {t : σ}

/-- A run that has stopped takes no steps to stop. -/
theorem stepsToStop_of_stopped (hstopped : (d.run s).isRunning = false) :
    d.stepsToStop f s = 0 := by
  have hstops : ∃ k, (d.run (f^[k] s)).isRunning = false := ⟨0, hstopped⟩
  rw [stepsToStop, dif_pos hstops, (Nat.find_eq_zero hstops).2 hstopped]
  rfl

/-- A run that goes on takes one step more to stop than it does after a step. -/
theorem stepsToStop_of_running (hrunning : (d.run s).isRunning = true) :
    d.stepsToStop f s = d.stepsToStop f (f s) + 1 := by
  have hzero : ¬ (d.run (f^[0] s)).isRunning = false := by simp [hrunning]
  by_cases hlater : ∃ k, (d.run (f^[k] (f s))).isRunning = false
  · have hstops : ∃ k, (d.run (f^[k] s)).isRunning = false := by
      obtain ⟨k, hk⟩ := hlater
      exact ⟨k + 1, hk⟩
    rw [stepsToStop, stepsToStop, dif_pos hstops, dif_pos hlater,
      Nat.find_comp_succ hstops hlater hzero]
    rfl
  · have hnever : ¬ ∃ k, (d.run (f^[k] s)).isRunning = false := by
      rintro ⟨k, hk⟩
      cases k with
      | zero => exact hzero hk
      | succ k => exact hlater ⟨k, hk⟩
    rw [stepsToStop, stepsToStop, dif_neg hnever, dif_neg hlater]
    rfl

/-- After that many steps the run has stopped. -/
theorem isRunning_of_stepsToStop {k : Nat} (h : d.stepsToStop f s = k) :
    (d.run (f^[k] s)).isRunning = false := by
  unfold stepsToStop at h
  split at h
  · rename_i hstops
    rw [← Nat.cast_inj.1 h]
    exact Nat.find_spec hstops
  · exact absurd h.symm (ENat.natCast_ne_top k)

/-- A run that goes on after as many steps as its budget allows has used it up. -/
theorem spent_of_isRunning {budget : Nat}
    (hrunning : (d.run (f^[(min (budget : ℕ∞) (d.stepsToStop f s)).toNat] s)).isRunning = true) :
    (min (budget : ℕ∞) (d.stepsToStop f s)).toNat = budget := by
  rcases le_total (budget : ℕ∞) (d.stepsToStop f s) with hle | hle
  · rw [min_eq_left hle, ENat.toNat_natCast]
  · rw [min_eq_right hle] at hrunning
    have hfinite : d.stepsToStop f s ≠ ⊤ := ne_top_of_le_ne_top (ENat.natCast_ne_top budget) hle
    have hstopped := isRunning_of_stepsToStop (ENat.natCast_toNat hfinite).symm
    rw [hstopped] at hrunning
    cases hrunning

/-- Wherever `P` holds, a step forward makes of a runner what `f` does, whatever else it does, the
run is not paused, and `P` still holds after the step. -/
structure Settled (d : Drivable (StateM σ) τ) (f : τ → τ) (P : τ → Prop) : Prop where
  forward_eq : ∀ s t, P s → ((d.forward s).run t).1 = f s
  isPaused_eq : ∀ s, P s → (d.run s).isPaused = false
  keeps : ∀ s, P s → P (f s)

/-- Some steps forward make of a runner what as many applications of `f` do. -/
theorem Settled.forwards_eq (h : d.Settled f P) (k : Nat) (t : σ) (hs : P s) :
    ((d.forwards k s).run t).1 = f^[k] s := by
  induction k generalizing s t with
  | zero => rfl
  | succ k ih =>
    have hforward := h.forward_eq s t hs
    have hrest := ih ((d.forward s).run t).2 (h.keeps s hs)
    rw [← hforward] at hrest
    rw [Function.iterate_succ_apply, ← hforward]
    exact hrest

/-- Stepping forward within a budget makes the steps that it takes to stop, or uses up the
budget. -/
theorem Settled.proceed_eq (h : d.Settled f P) (budget : Nat) (t : σ) (hs : P s) :
    (d.proceed budget s).run t =
      (d.forwards (min (budget : ℕ∞) (d.stepsToStop f s)).toNat s).run t := by
  induction budget generalizing s t with
  | zero => simp [proceed, forwards]
  | succ budget ih =>
    cases hrunning : (d.run s).isRunning with
    | false =>
      rw [stepsToStop_of_stopped hrunning]
      simp [proceed, hrunning, forwards]
    | true =>
      have hspent : (min ((budget + 1 : Nat) : ℕ∞) (d.stepsToStop f s)).toNat =
          (min (budget : ℕ∞) (d.stepsToStop f (f s))).toNat + 1 := by
        rw [stepsToStop_of_running hrunning, Nat.cast_add, Nat.cast_one, min_add_add_right,
          ENat.toNat_add (ne_top_of_le_ne_top (ENat.natCast_ne_top budget) (min_le_left _ _))
            ENat.one_ne_top, ENat.toNat_one]
      have hforward := h.forward_eq s t hs
      have hrest := ih ((d.forward s).run t).2 (h.keeps s hs)
      rw [hspent, proceed, hrunning, h.isPaused_eq s hs]
      rw [← hforward] at hrest
      rw [← hforward]
      exact hrest

/-- After a start that succeeds, a drive steps forward within its budget. -/
theorem drive_of_start {started : τ} (hstart : ((d.start s).run t).1 = .ok started)
    (budget : Nat) : (d.drive budget s).run t =
      ((d.proceed budget started).run ((d.start s).run t).2).map .ok id := by
  rw [drive, StateT.run_bind]
  simp only [bind, hstart]
  rfl

theorem startForwards_of_start {started : τ} (hstart : ((d.start s).run t).1 = .ok started)
    (k : Nat) : (d.startForwards k s).run t =
      ((d.forwards k started).run ((d.start s).run t).2).map .ok id := by
  rw [startForwards, StateT.run_bind]
  simp only [bind, hstart]
  rfl

/-- A drive is a start with the steps forward that it takes to stop, or that the budget allows. -/
theorem Settled.drive_eq (h : d.Settled f P) {started : τ}
    (hstart : ((d.start s).run t).1 = .ok started) (hs : P started) (budget : Nat) :
    (d.drive budget s).run t =
        (d.startForwards (min (budget : ℕ∞) (d.stepsToStop f started)).toNat s).run t ∧
      ((d.drive budget s).run t).1 =
        .ok (f^[(min (budget : ℕ∞) (d.stepsToStop f started)).toNat] started) := by
  rw [drive_of_start hstart, startForwards_of_start hstart, h.proceed_eq budget _ hs]
  exact ⟨rfl, congrArg Except.ok (h.forwards_eq _ _ hs)⟩

end Drivable

namespace LocalRunner

variable {w : Workflow} {initialData : Context} {clock readings : Readings}
  {r started : LocalRunner} {j k : Nat}

/-! ## Readings that stay the same -/

/-- The readings that a world gives are those of a clock that stands still, together with whatever is
drawn at random. -/
def StandsAt (source : StateM σ Readings) (clock : Readings) : Prop :=
  ∀ t, ∃ draw, (source.run t).1 = clock.drawn draw

/-- Where no node draws its result at random, operations depend on the clock only. -/
theorem apply_of_standsAt {source : StateM σ Readings} (h : StandsAt source clock)
    (hdraws : ∀ n ∈ r.workflow.nodes, n.role.draws = false) (t : σ) (op : Operation) :
    r.apply (source.run t).1 op = r.apply clock op := by
  obtain ⟨draw, hdraw⟩ := h t
  rw [hdraw]
  exact apply_drawn hdraws draw ⟨clock.verdict, clock.confidence⟩

theorem start_of_standsAt {source : StateM σ Readings} (h : StandsAt source clock)
    (hdraws : ∀ n ∈ r.workflow.nodes, n.role.draws = false) (t : σ) :
    r.start (source.run t).1 = r.start clock := by
  cases hentry : r.workflow.entry? with
  | none => rw [start_of_no_entry hentry, start_of_no_entry hentry]
  | some entry =>
    have happly := apply_of_standsAt h hdraws t .start
    rw [apply_start_of_entry hentry, apply_start_of_entry hentry] at happly
    rw [start_of_entry hentry, start_of_entry hentry, happly]

/-! ## Steps forward after a start -/

/-- What holds of a runner after a start and some steps forward. -/
structure OnTrack (w : Workflow) (initialData : Context) (forwards : Nat) (r : LocalRunner) :
    Prop where
  reachable : Reachable w initialData r
  isPaused_eq : r.run.isPaused = false
  steps_ne_nil : r.run.steps ≠ []
  cursor_eq : r.run.cursor = r.run.lastIndex
  length_le : r.run.steps.length ≤ forwards + 1
  length_eq : r.run.isRunning = true → r.run.steps.length = forwards + 1

/-- What a start comes to does not depend on what the runner did before. -/
theorem Reachable.start_eq (h : Reachable w initialData r) (readings : Readings) :
    r.start readings = (LocalRunner.new w initialData).start readings := by
  obtain ⟨hworkflow, hinitial⟩ := h.made_with
  rw [LocalRunner.start, LocalRunner.start, reset, hworkflow, hinitial]
  rfl

/-- A start that succeeds logs one step. -/
theorem onTrack_of_start (hstart : (new w initialData).start readings = .ok started) :
    OnTrack w initialData 0 started := by
  have hreachable : Reachable w initialData ((new w initialData).apply readings .start) :=
    Reachable.new.apply readings .start
  rw [apply, hstart] at hreachable
  cases hentry : w.entry? with
  | none =>
    rw [start_of_no_entry hentry] at hstart
    cases hstart
  | some entry =>
    rw [start_of_entry hentry] at hstart
    cases hstart
    exact
      { reachable := hreachable
        isPaused_eq := rfl
        steps_ne_nil := List.concat_ne_nil _ _
        cursor_eq := rfl
        length_le := Nat.le_refl 1
        length_eq := fun _ => rfl }

/-- A step forward logs one step or ends the run; it never merely catches up with the log. -/
theorem OnTrack.forward (h : OnTrack w initialData j r) (readings : Readings) :
    OnTrack w initialData (j + 1) (r.forward readings) := by
  have hreachable : Reachable w initialData (r.forward readings) :=
    h.reachable.apply readings .forward
  have hchange : Change readings r .forward (r.forward readings) := apply_change readings r .forward
  generalize r.forward readings = r' at hreachable hchange
  cases hchange with
  | rest hstopped =>
    refine ⟨hreachable, h.isPaused_eq, h.steps_ne_nil, h.cursor_eq, ?_, ?_⟩
    · exact h.length_le.trans (Nat.le_succ _)
    · intro hrunning
      rw [hstopped] at hrunning
      cases hrunning
  | review _ hreview =>
    obtain ⟨hcursor, -⟩ := Run.reviewForward?_eq_some_iff.1 hreview
    exact absurd hcursor (h.cursor_eq ▸ lt_irrefl _)
  | @extend n hrunning _ _ =>
    have hlength : (execute readings r n).run.steps.length = j + 1 + 1 := by
      rw [← h.length_eq hrunning]
      exact List.length_append
    refine ⟨hreachable, h.isPaused_eq, List.concat_ne_nil _ _, ?_, hlength.le, fun _ => hlength⟩
    simp [execute, Run.commit, Run.lastIndex]
  | finish =>
    refine ⟨hreachable, h.isPaused_eq, h.steps_ne_nil, h.cursor_eq, ?_, ?_⟩
    · exact h.length_le.trans (Nat.le_succ _)
    · intro hrunning
      cases hrunning

/-- A runner that has just started stays on track however often it is stepped forward. -/
theorem OnTrack.iterate (h : OnTrack w initialData 0 r) (clock : Readings) (j : Nat) :
    OnTrack w initialData j ((·.forward clock)^[j] r) := by
  induction j with
  | zero => exact h
  | succ j ih =>
    rw [Function.iterate_succ_apply']
    exact ih.forward clock

/-- Steps forward from a stopped run leave it as it is. -/
theorem iterate_of_stopped (hjk : j ≤ k)
    (hstopped : ((·.forward clock)^[j] r).run.isRunning = false) :
    (·.forward clock)^[k] r = (·.forward clock)^[j] r := by
  obtain ⟨more, rfl⟩ := Nat.exists_eq_add_of_le' hjk
  rw [Function.iterate_add_apply]
  exact Function.iterate_fixed (forward_of_stopped hstopped) more

section Drives

variable {source : StateM σ Readings} (hclock : StandsAt source clock)
  (hdraws : ∀ n ∈ w.nodes, n.role.draws = false)
include hclock hdraws

/-- After a start, steps forward depend on the clock only, and no run is paused. -/
theorem settled_drivable : (drivable source).Settled (·.forward clock)
    fun r => ∃ j, OnTrack w initialData j r where
  forward_eq := by
    rintro r t ⟨j, hr⟩
    exact apply_of_standsAt hclock (by rwa [hr.reachable.made_with.1]) t .forward
  isPaused_eq := fun r ⟨_, hr⟩ => hr.isPaused_eq
  keeps := fun r ⟨j, hr⟩ => ⟨j + 1, hr.forward clock⟩

/-- A drive from any state that operations lead to is a start with the steps forward that it takes
to stop, or that the budget allows, and comes to what these make of a new runner. -/
theorem Reachable.drive_eq (h : Reachable w initialData r)
    (hstart : (LocalRunner.new w initialData).start clock = .ok started) (budget : Nat) (t : σ) :
    ((drivable source).drive budget r).run t =
        ((drivable source).startForwards (min (budget : ℕ∞)
          ((drivable source).stepsToStop (·.forward clock) started)).toNat r).run t ∧
      (((drivable source).drive budget r).run t).1 =
        .ok ((·.forward clock)^[(min (budget : ℕ∞)
          ((drivable source).stepsToStop (·.forward clock) started)).toNat] started) := by
  have hstarts : (((drivable source).start r).run t).1 = .ok started := by
    rw [← hstart, ← h.start_eq clock]
    exact start_of_standsAt hclock (by rwa [h.made_with.1]) t
  exact (settled_drivable hclock hdraws).drive_eq hstarts ⟨0, onTrack_of_start hstart⟩ budget

end Drives

/-! ## One budget and another -/

/-- Runners to which drives with budgets of `0, 1, 2, ..` steps forward lead. -/
structure Budgeted (final : Nat → LocalRunner) : Prop where
  /-- Besides the step of the start there is at most one step for each step forward. -/
  length_le : ∀ n, (final n).run.steps.length ≤ n + 1
  /-- The cursor stands on the last step. -/
  on_last : ∀ n, (final n).run.steps ≠ [] ∧ (final n).run.cursor = (final n).run.lastIndex
  /-- A run that goes on has used up its budget. -/
  spent : ∀ n, (final n).run.isRunning = true → (final n).run.steps.length = n + 1
  /-- A larger budget continues the log. -/
  continues : ∀ n m, n ≤ m → (final n).run.steps <+: (final m).run.steps
  /-- What a budget sufficed for, a larger one does not change. -/
  suffices_for : ∀ n m, n ≤ m → (final n).run.isRunning = false → final m = final n

/-- Steps forward after a start, as many as it takes to stop or as the budget allows, lead to such
runners. -/
theorem OnTrack.budgeted (h : OnTrack w initialData 0 started) (source : StateM σ Readings)
    (clock : Readings) :
    Budgeted fun n => (·.forward clock)^[(min (n : ℕ∞)
      ((drivable source).stepsToStop (·.forward clock) started)).toNat] started := by
  generalize hk : (drivable source).stepsToStop (·.forward clock) started = k
  have hfinal (n : Nat) := h.iterate clock (min (n : ℕ∞) k).toNat
  have hle (n : Nat) : (min (n : ℕ∞) k).toNat ≤ n := by
    rw [← ENat.toNat_natCast n]
    exact ENat.toNat_le_toNat (min_le_left _ _) (ENat.natCast_ne_top n)
  have hmono {n m : Nat} (hnm : n ≤ m) : (min (n : ℕ∞) k).toNat ≤ (min (m : ℕ∞) k).toNat :=
    ENat.toNat_le_toNat (min_le_min_right k (Nat.cast_le.2 hnm))
      (ne_top_of_le_ne_top (ENat.natCast_ne_top m) (min_le_left _ _))
  refine
    { length_le := fun n => (hfinal n).length_le.trans (Nat.succ_le_succ (hle n))
      on_last := fun n => ⟨(hfinal n).steps_ne_nil, (hfinal n).cursor_eq⟩
      spent := fun n hrunning => ?_
      continues := fun n m hnm => operable.steps_iterate_of_le (hmono hnm) started
      suffices_for := fun n m hnm hstopped => iterate_of_stopped (hmono hnm) hstopped }
  have hspent : (min (n : ℕ∞) k).toNat = n := by
    subst hk
    exact Drivable.spent_of_isRunning hrunning
  rw [(hfinal n).length_eq hrunning, hspent]

end LocalRunner

end StepFlow
