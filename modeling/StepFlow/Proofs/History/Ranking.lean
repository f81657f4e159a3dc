import Mathlib.Data.List.Sort
import Mathlib.Order.Lattice
import Mathlib.Tactic.Common

/-!
# Ranking by a key

Lists in the falling order of a key that tells their members apart.  Sorting after something was
added is inserting it (`greatestFirst_append_singleton`), and the greatest few of an insertion
depend on the greatest few only (`take_orderedInsert`).
-/

namespace StepFlow.History

variable {α β κ : Type} [LinearOrder κ]

/-! ## Insertion -/

/-- What is inserted beyond the first `k` does not change them. -/
theorem take_orderedInsert (r : α → α → Prop) [DecidableRel r] (a : α) (l : List α) (k : ℕ) :
    ((l.take k).orderedInsert r a).take k = (l.orderedInsert r a).take k := by
  induction l generalizing k with
  | nil => simp
  | cons b l ih =>
    cases k with
    | zero => rfl
    | succ k =>
      by_cases hab : r a b
      · cases k <;> simp [hab, List.take_take]
      · simp [hab, ih]

/-- Insertion keeps lists in step whose comparisons with the new members agree. -/
theorem forall₂_orderedInsert {R : α → β → Prop} (r : α → α → Prop) [DecidableRel r]
    (r' : β → β → Prop) [DecidableRel r'] {a : α} {a' : β} {l : List α} {l' : List β}
    (ha : R a a') (hl : List.Forall₂ R l l')
    (hagree : ∀ b ∈ l, ∀ b' ∈ l', R b b' → (r a b ↔ r' a' b')) :
    List.Forall₂ R (l.orderedInsert r a) (l'.orderedInsert r' a') := by
  induction hl with
  | nil => exact .cons ha .nil
  | @cons b b' l l' hb hl ih =>
    have hiff := hagree b List.mem_cons_self b' List.mem_cons_self hb
    have hih := ih fun c hc c' hc' =>
      hagree c (List.mem_cons_of_mem _ hc) c' (List.mem_cons_of_mem _ hc')
    by_cases hab : r a b
    · simpa [List.orderedInsert, hab, hiff.1 hab] using ⟨ha, hb, hl⟩
    · simpa [List.orderedInsert, hab, mt hiff.2 hab] using ⟨hb, hih⟩

/-- What is inserted can be left out again. -/
theorem filter_orderedInsert {α : Type} (le : α → α → Prop) [DecidableRel le] {p : α → Bool} {a : α}
    (ha : p a = false) (l : List α) : (l.orderedInsert le a).filter p = l.filter p := by
  rw [List.orderedInsert_eq_take_drop, List.filter_append, List.filter_cons_of_neg (by simp [ha]),
    ← List.filter_append, List.takeWhile_append_dropWhile]

/-! ## Sorting -/

/-- The members in the falling order of a key. -/
def greatestFirst (key : α → κ) (xs : List α) : List α :=
  xs.mergeSort fun a b => decide (key b ≤ key a)

variable {key : α → κ} {xs ys : List α}

theorem greatestFirst_perm (key : α → κ) (xs : List α) : (greatestFirst key xs).Perm xs :=
  List.mergeSort_perm xs _

theorem pairwise_greatestFirst (key : α → κ) (xs : List α) :
    (greatestFirst key xs).Pairwise fun a b => key b ≤ key a := by
  have hsorted : (greatestFirst key xs).Pairwise fun a b => decide (key b ≤ key a) = true :=
    List.pairwise_mergeSort
      (fun a b c hab hbc => by
        simp only [decide_eq_true_eq] at hab hbc ⊢
        exact hbc.trans hab)
      (fun a b => by
        simp only [Bool.or_eq_true, decide_eq_true_eq]
        exact le_total _ _) xs
  simpa only [decide_eq_true_eq] using hsorted

/-- Only one list of the same members has the falling order. -/
theorem eq_greatestFirst (hkeys : (xs.map key).Nodup) (hperm : ys.Perm xs)
    (hsorted : ys.Pairwise fun a b => key b ≤ key a) : ys = greatestFirst key xs := by
  refine List.Perm.eq_of_pairwise (fun a b ha hb hab hba => ?_) hsorted
    (pairwise_greatestFirst key xs) (hperm.trans (greatestFirst_perm key xs).symm)
  have hb : b ∈ xs := (greatestFirst_perm key xs).mem_iff.1 hb
  exact List.inj_on_of_nodup_map hkeys (hperm.mem_iff.1 ha) hb (le_antisymm hba hab)

/-- Taking some members out keeps the others in their order. -/
theorem filter_greatestFirst (hkeys : (xs.map key).Nodup) (p : α → Bool) :
    (greatestFirst key xs).filter p = greatestFirst key (xs.filter p) :=
  eq_greatestFirst (hkeys.sublist (List.filter_sublist.map key))
    ((greatestFirst_perm key xs).filter p) ((pairwise_greatestFirst key xs).filter p)

/-- A new member is inserted where the order wants it. -/
theorem greatestFirst_append_singleton {a : α} (hkeys : ((xs ++ [a]).map key).Nodup) :
    greatestFirst key (xs ++ [a]) =
      (greatestFirst key xs).orderedInsert (fun a b => key b ≤ key a) a := by
  symm
  refine eq_greatestFirst hkeys ?_ ?_
  · exact (List.perm_orderedInsert _ a _).trans
      (((greatestFirst_perm key xs).cons a).trans (List.perm_append_singleton a xs).symm)
  · have : Std.Total fun a b : α => key b ≤ key a := ⟨fun a b => le_total _ _⟩
    have : IsTrans α fun a b => key b ≤ key a := ⟨fun a b c hab hbc => hbc.trans hab⟩
    exact (pairwise_greatestFirst key xs).orderedInsert a _

end StepFlow.History
