import StepFlow.Proofs.Context
import StepFlow.Proofs.Rule.Comparison

/-!
# Equality inside arrays and objects

Two values are compared in two ways: bare ones after their numbers have become floating-point
numbers, and those inside of arrays and objects as data, where numbers of different kinds differ.
Whatever stands around two values, `==` answers the same (`equals_wrapped`).  Against the bare values
it answers differently for just those pairs of numbers that are one as floating-point numbers and
two as data (`wrapped_equality_iff`), such as `1` and `1.0`.
-/

namespace StepFlow

namespace Json

/-- What can stand around a value: an array of it alone, or an object with it under a key. -/
inductive Layer where
  | array
  | object (key : String)
deriving DecidableEq, Repr

/-- A value with a layer around it. -/
def Layer.around (value : Json) : Layer → Json
  | array => .array [value]
  | object key => .object [(key, value)]

/-- A value with layers around it, the first of them outermost. -/
def wrapped (value : Json) : List Layer → Json
  | [] => value
  | layer :: layers => layer.around (wrapped value layers)

/-- Values with the same layers around them are equal if the values are. -/
theorem equals_wrapped (x y : Json) (layers : List Layer) :
    (x.wrapped layers).equals (y.wrapped layers) = x.equals y := by
  induction layers with
  | nil => rfl
  | cons layer layers ih =>
    rw [← ih]
    cases layer with
    | array => exact equals_array_singleton _ _
    | object key => exact equals_object_singleton key _ _

theorem canonical_wrapped (value : Json) (layers : List Layer) :
    (value.wrapped layers).canonical = value.canonical.wrapped layers := by
  induction layers with
  | nil => rfl
  | cons layer layers ih =>
    rw [wrapped, wrapped, ← ih]
    cases layer <;> rfl

theorem canonical_eq_number_iff {value : Json} {n : Number} :
    value.canonical = .number n ↔ value = .number n := by
  cases value <;> simp [canonical]

end Json

namespace Rule

open Operand

/-- Two numbers that are one as floating-point numbers but not in data: an integer and a
floating-point number of the same value, or two integers with the same nearest number. -/
def Conflated (x y : Json) : Prop :=
  ∃ m n, x = .number m ∧ y = .number n ∧ m.toBinary64.equals n.toBinary64 = true ∧
    m.equals n = false

theorem conflated_canonical_iff {x y : Json} :
    Conflated x.canonical y.canonical ↔ Conflated x y := by
  simp only [Conflated, Json.canonical_eq_number_iff]

variable {x y : Json}

/-- Bare operands are compared as data unless they are conflated. -/
theorem equals_ofJson_eq_iff : (ofJson x).equals (ofJson y) = x.equals y ↔ ¬Conflated x y := by
  constructor
  · rintro h ⟨m, n, rfl, rfl, hone, htwo⟩
    have hfalse : true = false := hone.symm.trans (h.trans htwo)
    cases hfalse
  · intro h
    refine Bool.eq_iff_iff.2 ⟨fun hbare => ?_, equals_ofJson⟩
    by_cases hkind : (ofJson x).kind = .number
    · have hkinds := kind_eq_of_equals hbare
      cases x <;> cases hkind
      cases y <;> cases hkinds
      by_contra hdiffer
      exact h ⟨_, _, rfl, rfl, hbare, Bool.eq_false_iff.2 hdiffer⟩
    · rwa [equals_ofJson_of_kind_ne hkind] at hbare

/-! ## Rules -/

/-- A rule that compares two names finds their values equal or not. -/
theorem evaluate_equal_names {rule a b : String} {c : Context}
    (hparse : parse rule = .ok (.compare .equal (.path [a]) (.path [b])))
    (ha : c.get? a = some x) (hb : c.get? b = some y) :
    evaluate rule c = .ok ((ofJson x).equals (ofJson y)) := by
  simp [evaluate, hparse, Expr.eval, resolve?, ha, hb, compare, bind, Except.bind]

/-- Two values under the names `a` and `b`. -/
def pair (x y : Json) : Context := .ofMembers [("a", x), ("b", y)]

/-- Two values bare, in arrays and in objects. -/
def pairs (x y : Json) : Context :=
  .ofMembers [("a", x), ("b", y), ("c", .array [x]), ("d", .array [y]),
    ("e", .object [("k", x)]), ("f", .object [("k", y)])]

theorem get?_pair (x y : Json) :
    (pair x y).get? "a" = some x.canonical ∧ (pair x y).get? "b" = some y.canonical := by
  simp [pair, Context.get?_ofMembers_cons]

theorem get?_pairs (x y : Json) :
    ((pairs x y).get? "a" = some x.canonical ∧ (pairs x y).get? "b" = some y.canonical) ∧
    ((pairs x y).get? "c" = some (x.wrapped [.array]).canonical ∧
      (pairs x y).get? "d" = some (y.wrapped [.array]).canonical) ∧
    (pairs x y).get? "e" = some (x.wrapped [.object "k"]).canonical ∧
      (pairs x y).get? "f" = some (y.wrapped [.object "k"]).canonical := by
  simp [pairs, Context.get?_ofMembers_cons, Json.wrapped, Json.Layer.around]

/-- A value with something around it is no number. -/
theorem kind_wrapped_ne (x : Json) (layer : Json.Layer) (layers : List Json.Layer) :
    (ofJson (x.wrapped (layer :: layers))).kind ≠ .number := by
  cases layer <;> simp [Json.wrapped, Json.Layer.around, ofJson, kind]

/-- Inside of arrays and objects values are compared as data. -/
theorem equals_ofJson_wrapped (x y : Json) (layer : Json.Layer) (layers : List Json.Layer) :
    (ofJson (x.wrapped (layer :: layers)).canonical).equals
      (ofJson (y.wrapped (layer :: layers)).canonical) = x.canonical.equals y.canonical := by
  rw [Json.canonical_wrapped, Json.canonical_wrapped,
    equals_ofJson_of_kind_ne (kind_wrapped_ne _ _ _), Json.equals_wrapped]

/-- Equality means the same in an array, in an object and under any number of these: two values are
equal there if they are as data.  Whether it means the same of the bare values is a question of their
being two numbers that are one only as floating-point numbers. -/
theorem wrapped_equality_iff (x y : Json) :
    ∃ bare inside, evaluate "a == b" (pairs x y) = .ok bare ∧
      evaluate "c == d" (pairs x y) = .ok inside ∧ evaluate "e == f" (pairs x y) = .ok inside ∧
      (∀ layer layers, evaluate "a == b" (pair (x.wrapped (layer :: layers))
        (y.wrapped (layer :: layers))) = .ok inside) ∧
      (bare = inside ↔ ¬Conflated x y) := by
  have hab : parse "a == b" = .ok (.compare .equal (.path ["a"]) (.path ["b"])) := by decide +kernel
  have hcd : parse "c == d" = .ok (.compare .equal (.path ["c"]) (.path ["d"])) := by decide +kernel
  have hef : parse "e == f" = .ok (.compare .equal (.path ["e"]) (.path ["f"])) := by decide +kernel
  obtain ⟨⟨ha, hb⟩, ⟨hc, hd⟩, he, hf⟩ := get?_pairs x y
  refine ⟨(ofJson x.canonical).equals (ofJson y.canonical), x.canonical.equals y.canonical,
    evaluate_equal_names hab ha hb, ?_, ?_, fun layer layers => ?_, ?_⟩
  · rw [← equals_ofJson_wrapped x y .array []]
    exact evaluate_equal_names hcd hc hd
  · rw [← equals_ofJson_wrapped x y (.object "k") []]
    exact evaluate_equal_names hef he hf
  · rw [← equals_ofJson_wrapped x y layer layers]
    exact evaluate_equal_names hab (get?_pair _ _).1 (get?_pair _ _).2
  · rw [equals_ofJson_eq_iff, conflated_canonical_iff]

/-- The integer `1` equals the floating-point number `1.0` bare, and neither in an array nor in an
object. -/
theorem integer_equals_float_only_bare :
    evaluate "a == b" (pairs (Json.ofInt 1) (Json.ofBinary64 (.ofInt 1))) = .ok true ∧
      evaluate "c == d" (pairs (Json.ofInt 1) (Json.ofBinary64 (.ofInt 1))) = .ok false ∧
      evaluate "e == f" (pairs (Json.ofInt 1) (Json.ofBinary64 (.ofInt 1))) = .ok false := by
  decide +kernel

end Rule

end StepFlow
