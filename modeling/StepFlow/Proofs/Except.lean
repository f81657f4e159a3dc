import Mathlib.Tactic.Common

/-!
# Computations that can fail

What the success of a computation tells about its parts.
-/

namespace StepFlow

variable {ε ε' α β : Type} {x : Except ε α}

/-- A computation of two parts succeeds only if both do. -/
theorem exists_of_bind_eq_ok {f : α → Except ε β} {b : β} (h : (x >>= f) = .ok b) :
    ∃ a, x = .ok a ∧ f a = .ok b := by
  cases x with
  | error e => cases h
  | ok a => exact ⟨a, rfl, h⟩

/-- A result that was turned into another one was there. -/
theorem exists_of_map_eq_ok {f : α → β} {b : β} (h : x.map f = .ok b) :
    ∃ a, x = .ok a ∧ f a = b := by
  cases x with
  | error e => cases h
  | ok a => exact ⟨a, rfl, Except.ok.inj h⟩

/-- What becomes of a result makes no difference to a fault. -/
theorem map_eq_error_iff {f : α → β} {e : ε} : x.map f = .error e ↔ x = .error e := by
  cases x with
  | error e => simp [Except.map]
  | ok a => exact iff_of_false nofun nofun

/-- Another wording of errors changes no result. -/
theorem mapError_eq_ok_iff {f : ε → ε'} {a : α} : x.mapError f = .ok a ↔ x = .ok a := by
  cases x with
  | error e => exact iff_of_false nofun nofun
  | ok b => simp [Except.mapError]

/-- A list is computed item by item if the computation succeeds on each item. -/
theorem mapM_eq_ok {g : α → Except ε β} {f : α → β} {as : List α} (h : ∀ a ∈ as, g a = .ok (f a)) :
    as.mapM g = .ok (as.map f) := by
  induction as with
  | nil => rfl
  | cons a as ih =>
    have hrest := ih fun b hb => h b (List.mem_cons_of_mem _ hb)
    simp [List.mapM_cons, h a List.mem_cons_self, hrest, bind, Except.bind, pure, Except.pure]

/-- Computations that succeed have results. -/
theorem exists_forall_eq_ok [Inhabited β] {g : α → Except ε β} {as : List α}
    (h : ∀ a ∈ as, ∃ b, g a = .ok b) : ∃ f : α → β, ∀ a ∈ as, g a = .ok (f a) := by
  refine ⟨fun a => (g a).toOption.getD default, fun a ha => ?_⟩
  obtain ⟨b, hb⟩ := h a ha
  simp [hb, Except.toOption]

end StepFlow
