import StepFlow.Proofs.Json.Nesting
import StepFlow.Run.State

/-!
# Nesting of written runs

Steps and runs are written with their data some levels further inside: those of a step one level,
those of the steps in a list two levels, and those of the steps of a run three levels.
-/

namespace StepFlow

variable {n : Nat}

/-- The data that a step carries. -/
def Step.contexts (s : Step) : List Context := s.input :: s.output?.toList

/-- The data that a run carries. -/
def Run.contexts (r : Run) : List Context := r.context :: r.steps.flatMap Step.contexts

theorem Step.nesting_toJson_le_iff {s : Step} :
    s.toJson.nesting ≤ n + 1 ↔ ∀ c ∈ s.contexts, c.toJson.nesting ≤ n := by
  obtain ⟨nodeId, nodeName, nodeType, status, input, output?, error?, elapsedMs, timestamp⟩ := s
  have herror : (Json.ofString? error?).nesting = 0 := by cases error? <;> rfl
  cases output? with
  | none =>
    simp only [toJson, Json.nesting, Json.nestingMembers, Json.ofUInt64, herror, optionalContext,
      contexts, Option.toList_none, List.mem_singleton, forall_eq]
    omega
  | some output =>
    simp only [toJson, Json.nesting, Json.nestingMembers, Json.ofUInt64, herror, optionalContext,
      contexts, Option.toList_some, List.mem_cons, List.not_mem_nil, or_false, forall_eq_or_imp,
      forall_eq]
    omega

/-- Written steps nest two levels deeper than their data. -/
theorem nesting_steps_le_iff {steps : List Step} :
    (Json.array (steps.map Step.toJson)).nesting ≤ n + 2 ↔
      ∀ s ∈ steps, ∀ c ∈ s.contexts, c.toJson.nesting ≤ n := by
  rw [Json.nesting, Nat.add_le_add_iff_right, Json.nestingItems_le_iff, List.forall_mem_map]
  simp only [Step.nesting_toJson_le_iff]

/-- The written steps are part of the written run. -/
theorem Run.nesting_steps_le (r : Run) :
    (Json.array (r.steps.map Step.toJson)).nesting ≤ r.toJson.nesting := by
  generalize hsteps : Json.array (r.steps.map Step.toJson) = steps
  simp only [toJson, Json.nesting, Json.nestingMembers, hsteps]
  omega

/-- In a written run the data of the steps stand three levels deep, and the last data one. -/
theorem Run.nesting_toJson_le_iff {r : Run} :
    r.toJson.nesting ≤ n + 3 ↔ r.context.toJson.nesting ≤ n + 2 ∧
      ∀ s ∈ r.steps, ∀ c ∈ s.contexts, c.toJson.nesting ≤ n := by
  rw [← nesting_steps_le_iff]
  generalize hsteps : Json.array (r.steps.map Step.toJson) = steps
  simp only [toJson, Json.nesting, Json.nestingMembers, Json.nesting_ofInt, hsteps]
  omega

end StepFlow
