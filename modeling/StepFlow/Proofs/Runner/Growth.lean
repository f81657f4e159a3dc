import StepFlow.Proofs.Handler.Growth
import StepFlow.Proofs.Run.Nesting
import StepFlow.Proofs.Runner.Local

/-!
# How deep the data of a run nest

The data that a local runner has at any time, and those that its steps met and gave, nest at most
two levels deeper than the data with which the run began (`LocalRunner.Reachable.grown`).  Hence a
run can be written within a limit for nesting if its initial data leave five levels
(`LocalRunner.Reachable.nesting_toJson_le`).
-/

namespace StepFlow

open Handler

variable {w : Workflow} {initialData context : Context} {s : Step} {r : Run}

/-- All data of a run have grown from the initial data by no more than two levels. -/
structure Run.Grown (initialData : Context) (r : Run) : Prop where
  context : Handler.Grown initialData r.context
  steps : ∀ s ∈ r.steps, ∀ c ∈ s.contexts, c.toJson.nesting ≤ initialData.toJson.nesting + 2

theorem Run.grown_of_no_steps (hcontext : r.context = initialData) (hsteps : r.steps = []) :
    r.Grown initialData where
  context := hcontext ▸ grown_self initialData
  steps := fun s hs => by rw [hsteps] at hs; cases hs

namespace LocalRunner

/-- A step that is logged leaves data that have grown if it met such data. -/
theorem Logged.grown (hlogged : Logged initialData context s)
    (hcontext : Handler.Grown initialData context) :
    Handler.Grown initialData (Run.patched context s) ∧
      ∀ c ∈ s.contexts, c.toJson.nesting ≤ initialData.toJson.nesting + 2 := by
  obtain ⟨readings, n, rfl⟩ := hlogged
  unfold Handler.execute
  cases hperform : perform readings n context initialData with
  | error fault =>
    refine ⟨hcontext, fun c hc => ?_⟩
    rw [List.mem_singleton.1 hc]
    exact hcontext.nesting_le
  | ok outcome =>
    have hpatch := perform_grown hcontext hperform
    refine ⟨hcontext.override hpatch, fun c hc => ?_⟩
    rcases List.mem_cons.1 hc with rfl | hc
    · exact hcontext.nesting_le
    · rw [List.mem_singleton.1 hc]
      exact hpatch.nesting_le

/-- The data of a run of a local runner nest at most two levels deeper than the initial data. -/
theorem Reachable.grown {r : LocalRunner} (h : Reachable w initialData r) :
    r.run.Grown initialData := by
  induction h with
  | new => exact Run.grown_of_no_steps rfl rfl
  | @apply r readings op hr ih =>
    have hmove := (apply_change readings r op).move
    rw [hr.made_with.2] at hmove
    rcases hmove.log_cases with ⟨hsteps, hcontext⟩ | ⟨hsteps, hcontext⟩ |
      ⟨before, s, hbefore, hlogged, hsteps, hcontext⟩
    · exact ⟨hcontext ▸ ih.context, hsteps ▸ ih.steps⟩
    · exact Run.grown_of_no_steps hcontext hsteps
    · have hgrown : before.Grown initialData := by
        rcases hbefore with rfl | rfl
        · exact ih
        · exact Run.grown_of_no_steps rfl rfl
      obtain ⟨hpatched, hcontexts⟩ := hlogged.grown hgrown.context
      refine ⟨hcontext ▸ hpatched, fun s' hs' => ?_⟩
      rw [hsteps, List.mem_append, List.mem_singleton] at hs'
      rcases hs' with hs' | rfl
      · exact hgrown.steps s' hs'
      · exact hcontexts

/-- A written run of a local runner nests at most five levels deeper than the initial data. -/
theorem Reachable.nesting_toJson_le {r : LocalRunner} (h : Reachable w initialData r) :
    r.run.toJson.nesting ≤ initialData.toJson.nesting + 5 := by
  have hgrown := h.grown
  exact Run.nesting_toJson_le_iff.2
    ⟨hgrown.context.nesting_le.trans (Nat.le_add_right _ 2), hgrown.steps⟩

end LocalRunner

end StepFlow
