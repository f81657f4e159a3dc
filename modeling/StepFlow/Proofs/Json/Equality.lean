import Mathlib.Tactic.Common
import StepFlow.Json.Basic

/-!
# Equality of data

Data is compared part by part, numbers by value within their kind.  This is an equivalence relation
(`equals_refl`, `equals_symm`, `equals_trans`), although not identity: the two floating-point zeros
are equal.

Symmetry and transitivity come from one induction, which says that two values equal to a third one
are equal (`equals_of_equals`).
-/

namespace StepFlow

namespace Binary64

variable {x y : Binary64}

/-- Numbers are equal if they stand at the same place of the order. -/
theorem equals_iff : x.equals y = true ↔ x.orderKey = y.orderKey := by
  rw [equals, beq_iff_eq]

/-- A number is less than another if it stands before it in the order. -/
theorem less_iff : x.less y = true ↔ x.orderKey < y.orderKey := by
  rw [less, decide_eq_true_eq]

end Binary64

namespace Number

variable {k m n : Number}

theorem equals_refl (n : Number) : n.equals n = true := by
  cases n with
  | integer value _ => exact beq_self_eq_true value
  | real x _ => exact Binary64.equals_iff.2 rfl

/-- Two numbers equal to a third one are equal. -/
theorem equals_of_equals (hm : k.equals m = true) (hn : k.equals n = true) :
    m.equals n = true := by
  cases k with
  | integer value _ =>
    cases m with
    | real => cases hm
    | integer =>
      cases n with
      | real => cases hn
      | integer =>
        simp only [equals, beq_iff_eq] at hm hn ⊢
        exact hm.symm.trans hn
  | real x _ =>
    cases m with
    | integer => cases hm
    | real =>
      cases n with
      | integer => cases hn
      | real =>
        simp only [equals, Binary64.equals_iff] at hm hn ⊢
        exact hm.symm.trans hn

/-- Equal numbers stay equal as floating-point numbers. -/
theorem equals_toBinary64 (h : m.equals n = true) : m.toBinary64.equals n.toBinary64 = true := by
  cases m with
  | integer value _ =>
    cases n with
    | real => cases h
    | integer =>
      simp only [equals, beq_iff_eq] at h
      simp only [toBinary64, h, Binary64.equals_iff]
  | real x _ =>
    cases n with
    | integer => cases h
    | real => exact h

end Number

namespace Json

variable {same : Number → Number → Bool}

mutual

theorem agrees_refl (h : ∀ n, same n n = true) (value : Json) : agrees same value value = true := by
  cases value with
  | null => rfl
  | bool b => exact beq_self_eq_true b
  | number n => exact h n
  | string s => exact beq_self_eq_true s
  | array items => exact agreesItems_refl h items
  | object members => exact agreesMembers_refl h members

theorem agreesItems_refl (h : ∀ n, same n n = true) (items : List Json) :
    agreesItems same items items = true := by
  cases items with
  | nil => rfl
  | cons item rest =>
    simp only [agreesItems, agrees_refl h item, agreesItems_refl h rest, Bool.and_self]

theorem agreesMembers_refl (h : ∀ n, same n n = true) (members : List (String × Json)) :
    agreesMembers same members members = true := by
  cases members with
  | nil => rfl
  | cons m rest =>
    obtain ⟨key, value⟩ := m
    simp only [agreesMembers, beq_self_eq_true, agrees_refl h value, agreesMembers_refl h rest,
      Bool.and_self]

end

mutual

/-- Two values that agree with a third one agree, if numbers do so. -/
theorem agrees_of_agrees (h : ∀ k m n, same k m = true → same k n = true → same m n = true)
    (x y z : Json) (hy : agrees same x y = true) (hz : agrees same x z = true) :
    agrees same y z = true := by
  cases x with
  | null =>
    cases y with
    | null => exact hz
    | _ => cases hy
  | bool a =>
    cases y with
    | bool b => exact eq_of_beq hy ▸ hz
    | _ => cases hy
  | string a =>
    cases y with
    | string b => exact eq_of_beq hy ▸ hz
    | _ => cases hy
  | number k =>
    cases y with
    | number m =>
      cases z with
      | number n => exact h k m n hy hz
      | _ => cases hz
    | _ => cases hy
  | array items =>
    cases y with
    | array ys =>
      cases z with
      | array zs => exact agreesItems_of_agrees h items ys zs hy hz
      | _ => cases hz
    | _ => cases hy
  | object members =>
    cases y with
    | object ys =>
      cases z with
      | object zs => exact agreesMembers_of_agrees h members ys zs hy hz
      | _ => cases hz
    | _ => cases hy
termination_by structural x

theorem agreesItems_of_agrees (h : ∀ k m n, same k m = true → same k n = true → same m n = true)
    (xs ys zs : List Json) (hy : agreesItems same xs ys = true)
    (hz : agreesItems same xs zs = true) : agreesItems same ys zs = true := by
  cases xs with
  | nil =>
    cases ys with
    | nil => exact hz
    | cons => cases hy
  | cons x xs =>
    cases ys with
    | nil => cases hy
    | cons y ys =>
      cases zs with
      | nil => cases hz
      | cons z zs =>
        simp only [agreesItems, Bool.and_eq_true] at hy hz ⊢
        exact ⟨agrees_of_agrees h x y z hy.1 hz.1, agreesItems_of_agrees h xs ys zs hy.2 hz.2⟩
termination_by structural xs

theorem agreesMembers_of_agrees (h : ∀ k m n, same k m = true → same k n = true → same m n = true)
    (xs ys zs : List (String × Json)) (hy : agreesMembers same xs ys = true)
    (hz : agreesMembers same xs zs = true) : agreesMembers same ys zs = true := by
  cases xs with
  | nil =>
    cases ys with
    | nil => exact hz
    | cons => cases hy
  | cons p xs =>
    obtain ⟨key, x⟩ := p
    cases ys with
    | nil => cases hy
    | cons q ys =>
      cases zs with
      | nil => cases hz
      | cons r zs =>
        simp only [agreesMembers, Bool.and_eq_true, beq_iff_eq] at hy hz ⊢
        exact ⟨⟨hy.1.1.symm.trans hz.1.1, agrees_of_agrees h x q.2 r.2 hy.1.2 hz.1.2⟩,
          agreesMembers_of_agrees h xs ys zs hy.2 hz.2⟩
termination_by structural xs

end

variable {x y z : Json}

@[simp] theorem equals_refl (x : Json) : x.equals x = true := agrees_refl Number.equals_refl x

/-- Two values equal to a third one are equal. -/
theorem equals_of_equals (hy : x.equals y = true) (hz : x.equals z = true) : y.equals z = true :=
  @agrees_of_agrees Number.equals (fun _ _ _ => Number.equals_of_equals) x y z hy hz

theorem equals_symm (h : x.equals y = true) : y.equals x = true :=
  equals_of_equals h (equals_refl x)

theorem equals_trans (hxy : x.equals y = true) (hyz : y.equals z = true) : x.equals z = true :=
  equals_of_equals (equals_symm hxy) hyz

/-- Equal lists with one item each hold equal items. -/
theorem equals_array_singleton (x y : Json) : (array [x]).equals (array [y]) = x.equals y := by
  simp only [equals, agrees, agreesItems, Bool.and_true]

/-- Equal objects with one member each, under the same key, hold equal values. -/
theorem equals_object_singleton (key : String) (x y : Json) :
    (object [(key, x)]).equals (object [(key, y)]) = x.equals y := by
  simp only [equals, agrees, agreesMembers, beq_self_eq_true, Bool.true_and, Bool.and_true]

end Json

end StepFlow
