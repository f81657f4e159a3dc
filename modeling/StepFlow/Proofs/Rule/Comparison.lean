import Mathlib.Data.String.Basic
import StepFlow.Proofs.Binary64.Nearest
import StepFlow.Proofs.Json.Equality
import StepFlow.Proofs.Text.Characters
import StepFlow.Rule.Eval

/-!
# Comparing operands

The six comparisons of a rule agree with each other on every value that a rule can meet
(`comparisons_coherent`).  Equality is an equivalence relation and never fails.  Two numbers, and
two texts, stand in exactly one of three orders, which settles all six comparisons at once
(`compare_of_order?`); no other two operands are ordered.

That there are no numbers outside the order is where the values come from: a literal is the number
nearest to a decimal, at worst an infinity, and the numbers of data are finite
(`isFinite_toBinary64`).
-/

namespace StepFlow

/-- The bits are those of a NaN: all bits of the exponent are set, and one of the fraction is. -/
def Binary64.IsNaN (bits : Nat) : Prop :=
  bits / 0x10000000000000 % 0x800 = 0x7FF ∧ bits % 0x10000000000000 ≠ 0

theorem Binary64.not_isNaN_toBits (x : Binary64) : ¬IsNaN x.toBits := by
  have hle := x.magnitude_le
  unfold IsNaN toBits
  split <;> omega

/-- The numbers of data are finite as floating-point numbers. -/
theorem Number.isFinite_toBinary64 (n : Number) : n.toBinary64.isFinite = true := by
  cases n with
  | integer value inRange => exact Binary64.isFinite_ofInt inRange
  | real x finite => exact finite

namespace Rule

namespace Operand

variable {x y z : Operand} {o : Ordering}

/-! ## Equality -/

theorem equals_refl (x : Operand) : x.equals x = true := by
  cases x with
  | number n => exact Binary64.equals_iff.2 rfl
  | text s => exact beq_self_eq_true s
  | bool b => exact beq_self_eq_true b
  | null => rfl
  | array items => exact Json.equals_refl (.array items)
  | object members => exact Json.equals_refl (.object members)

/-- Only operands of one kind are equal. -/
theorem kind_eq_of_equals (h : x.equals y = true) : x.kind = y.kind := by
  cases x <;> cases y <;> first | rfl | cases h

/-- Two operands equal to a third one are equal. -/
theorem equals_of_equals (hy : x.equals y = true) (hz : x.equals z = true) :
    y.equals z = true := by
  have hky := kind_eq_of_equals hy
  have hkz := kind_eq_of_equals hz
  cases x <;> cases y <;> cases hky <;> cases z <;> cases hkz
  case number =>
    simp only [equals, Binary64.equals_iff] at hy hz ⊢
    exact hy.symm.trans hz
  case text | bool =>
    simp only [equals, beq_iff_eq] at hy hz ⊢
    exact hy.symm.trans hz
  case null => rfl
  case array | object => exact Json.equals_of_equals hy hz

theorem equals_symm (h : x.equals y = true) : y.equals x = true :=
  equals_of_equals h (equals_refl x)

theorem equals_comm (x y : Operand) : y.equals x = x.equals y :=
  Bool.eq_iff_iff.2 ⟨equals_symm, equals_symm⟩

theorem equals_trans (hxy : x.equals y = true) (hyz : y.equals z = true) : x.equals z = true :=
  equals_of_equals (equals_symm hxy) hyz

/-! ### Operands from data -/

variable {v w : Json}

/-- Operands other than two numbers are compared as data. -/
theorem equals_ofJson_of_kind_ne (h : (ofJson v).kind ≠ .number) :
    (ofJson v).equals (ofJson w) = v.equals w := by
  cases v <;> cases w <;> first | rfl | exact absurd rfl h

/-- Equal data are equal operands. -/
theorem equals_ofJson (h : v.equals w = true) : (ofJson v).equals (ofJson w) = true := by
  by_cases hkind : (ofJson v).kind = .number
  · cases v <;> cases hkind
    cases w with
    | number n => exact Number.equals_toBinary64 h
    | _ => cases h
  · rw [equals_ofJson_of_kind_ne hkind, h]

/-! ## Order -/

/-- Two operands have an order: they are two numbers or two texts. -/
def Orderable (x y : Operand) : Prop := x.kind = y.kind ∧ (x.kind = .number ∨ x.kind = .string)

theorem order?_number (m n : Binary64) :
    (number m).order? (number n) = some (cmp m.orderKey n.orderKey) := by
  rw [cmp, cmpUsing]
  simp only [order?, Binary64.less_iff]

theorem order?_text (s t : String) : (text s).order? (text t) = some (cmp s t) := by
  rw [order?, cmp, cmpUsing]

/-- Two orderable operands are in one of three orders, and equal in just one of them. -/
theorem exists_order? (h : Orderable x y) :
    ∃ o, x.order? y = some o ∧ x.equals y = (o == .eq) := by
  obtain ⟨hkind, hordered⟩ := h
  cases x <;> cases y <;> cases hkind
  case number m n =>
    refine ⟨_, order?_number m n, ?_⟩
    rw [Bool.eq_iff_iff, beq_iff_eq, cmp_eq_eq_iff]
    exact Binary64.equals_iff
  case text s t =>
    refine ⟨_, order?_text s t, ?_⟩
    rw [Bool.eq_iff_iff, beq_iff_eq, cmp_eq_eq_iff]
    exact beq_iff_eq
  all_goals simp [kind] at hordered

/-- Operands of all other pairings have no order. -/
theorem order?_eq_none (h : ¬Orderable x y) : x.order? y = none := by
  cases x <;> cases y <;> first | rfl | exact absurd ⟨rfl, by simp [kind]⟩ h

theorem order?_eq_lt_iff : x.order? y = some .lt ↔
    (∃ m n, x = .number m ∧ y = .number n ∧ m.orderKey < n.orderKey) ∨
      ∃ s t, x = .text s ∧ y = .text t ∧ s < t := by
  cases x <;> cases y
  case number.number =>
    rw [order?_number, Option.some_inj, cmp_eq_lt_iff]
    simp
  case text.text =>
    rw [order?_text, Option.some_inj, cmp_eq_lt_iff]
    simp
  all_goals simp [order?]

/-- What stands before something stands before all that comes behind that. -/
theorem order?_lt_trans (hxy : x.order? y = some .lt) (hyz : y.order? z = some .lt) :
    x.order? z = some .lt := by
  rw [order?_eq_lt_iff] at hxy hyz ⊢
  rcases hxy with ⟨m, n, rfl, rfl, hmn⟩ | ⟨s, t, rfl, rfl, hst⟩
  · obtain ⟨_, k, heq, rfl, hnk⟩ | ⟨_, _, heq, _⟩ := hyz
    · cases heq
      exact .inl ⟨m, k, rfl, rfl, hmn.trans hnk⟩
    · cases heq
  · obtain ⟨_, _, heq, _⟩ | ⟨_, u, heq, rfl, htu⟩ := hyz
    · cases heq
    · cases heq
      exact .inr ⟨s, u, rfl, rfl, hst.trans htu⟩

end Operand

/-! ## Numbers -/

/-- The value of a run of digits and points: its digits as one natural number, over a power of ten
for the digits behind the point. -/
def runValue (run : List Char) : ℚ :=
  Nat.ofDigitChars 10 (run.filter Char.isDigit) 0 / 10 ^ (run.dropWhile Char.isDigit).tail.length

/-- A run denotes the floating-point number nearest to its value. -/
theorem numberOf?_eq_nearest {negative : Bool} {run : List Char} {n : Binary64}
    (h : numberOf? negative run = some n) : n = .nearest negative (runValue run) := by
  obtain ⟨whole, behind, rfl, hwhole, hstop⟩ := Text.exists_run Char.isDigit run
  have hfilter : whole.filter Char.isDigit = whole := List.filter_eq_self.2 hwhole
  simp only [numberOf?, Text.takeWhile_append_of_stop hwhole hstop,
    Text.dropWhile_append_of_stop hwhole hstop] at h
  simp only [runValue, Text.dropWhile_append_of_stop hwhole hstop, List.filter_append, hfilter]
  cases behind with
  | nil =>
    cases h
    simp [Binary64.ofDecimal_eq_nearest]
  | cons point fraction =>
    have hpoint : point.isDigit = false := by simpa using hstop
    dsimp only at h
    split at h
    · rename_i hfraction
      cases h
      have hdigits := List.filter_eq_self.2 (List.all_eq_true.1 hfraction)
      simp [Binary64.ofDecimal_eq_nearest, hpoint, hdigits, div_eq_mul_inv]
    · cases h

/-- The number of a literal is the one nearest to what is written, its sign aside. -/
theorem lexNumber_eq_nearest {first : Char} {rest : List Char} {n : Binary64}
    (h : lexNumber first rest = .ok (.number n)) :
    n = .nearest (first = '-') (runValue (if first = '-' then rest.takeWhile isNumberPart
      else first :: rest.takeWhile isNumberPart)) := by
  have hparts : (if first = '-' then numberOf? true (rest.takeWhile isNumberPart)
      else numberOf? false (first :: rest.takeWhile isNumberPart)) =
        numberOf? (first = '-') (if first = '-' then rest.takeWhile isNumberPart
          else first :: rest.takeWhile isNumberPart) := by
    by_cases hfirst : first = '-' <;> simp [hfirst]
  simp only [lexNumber, hparts] at h
  split at h
  · rename_i hnumber
    cases h
    exact numberOf?_eq_nearest hnumber
  · cases h

/-! ## Comparisons -/

open Operand

variable {x y z : Operand} {o : Ordering}

/-- The order of two operands settles all six comparisons. -/
theorem compare_of_order? (horder : x.order? y = some o) (hequals : x.equals y = (o == .eq))
    (op : Comparison) : compare op x y = .ok (op.holds o) := by
  cases op with
  | equal => exact congrArg Except.ok hequals
  | unequal => exact congrArg (fun b => Except.ok !b) hequals
  | _ => simp only [compare, horder]

/-- Without an order there are only `==` and `!=`. -/
theorem compare_of_order?_eq_none (h : x.order? y = none) {op : Comparison}
    (hop : op ∈ [.less, .greater, .atLeast, .atMost]) :
    compare op x y = .error (.invalid (.cannotOrder x.kind y.kind)) := by
  cases op with
  | equal | unequal => simp at hop
  | _ => simp only [compare, h]

theorem compare_less_eq_true_iff : compare .less x y = .ok true ↔ x.order? y = some .lt := by
  cases horder : x.order? y with
  | none => simp [compare, horder]
  | some o => cases o <;> simp [compare, horder, Comparison.holds]

/-- The laws that comparisons of three operands obey. -/
structure ComparisonLaws (x y z : Operand) : Prop where
  /-- `==` has an answer, and `!=` has the opposite one. -/
  answered : ∃ b, compare .equal x y = .ok b ∧ compare .unequal x y = .ok !b
  equal_refl : compare .equal x x = .ok true
  equal_symm : compare .equal y x = compare .equal x y
  equal_trans : compare .equal x y = .ok true → compare .equal y z = .ok true →
    compare .equal x z = .ok true
  /-- Of two numbers or two texts just one of `<`, `==` and `>` holds, `>=` is the opposite of `<`
  and `<=` the opposite of `>`. -/
  ordered : Orderable x y → ∃ o : Ordering, compare .less x y = .ok (o == .lt) ∧
    compare .equal x y = .ok (o == .eq) ∧ compare .greater x y = .ok (o == .gt) ∧
    compare .atLeast x y = .ok (!(o == .lt)) ∧ compare .atMost x y = .ok (!(o == .gt))
  less_trans : compare .less x y = .ok true → compare .less y z = .ok true →
    compare .less x z = .ok true
  /-- Any other two operands cannot be ordered. -/
  unordered : ¬Orderable x y → ∀ op ∈ [Comparison.less, .greater, .atLeast, .atMost],
    compare op x y = .error (.invalid (.cannotOrder x.kind y.kind))

theorem comparisonLaws (x y z : Operand) : ComparisonLaws x y z where
  answered := ⟨x.equals y, rfl, rfl⟩
  equal_refl := congrArg Except.ok x.equals_refl
  equal_symm := congrArg Except.ok (x.equals_comm y)
  equal_trans hxy hyz := congrArg Except.ok (equals_trans (Except.ok.inj hxy) (Except.ok.inj hyz))
  ordered h := by
    obtain ⟨o, horder, hequals⟩ := exists_order? h
    have hcompare := compare_of_order? horder hequals
    exact ⟨o, hcompare .less, hcompare .equal, hcompare .greater, hcompare .atLeast,
      hcompare .atMost⟩
  less_trans hxy hyz := by
    rw [compare_less_eq_true_iff] at hxy hyz ⊢
    exact order?_lt_trans hxy hyz
  unordered h _ hop := compare_of_order?_eq_none (order?_eq_none h) hop

/-- Comparisons are coherent on every value that a rule can meet.  A number that a path leads to is
finite, and one that is written in a rule is the nearest to its decimal; neither is a NaN.  And
whatever the operands are, their comparisons obey the laws of an equivalence relation and of a
linear order on numbers and on texts. -/
theorem comparisons_coherent :
    (∀ c p value n, resolve? c p = some value → Operand.ofJson value = .number n →
      ¬Binary64.IsNaN n.toBits ∧ n.isFinite = true) ∧
    (∀ first rest n, lexNumber first rest = .ok (.number n) →
      ¬Binary64.IsNaN n.toBits ∧
        n = .nearest (first = '-') (runValue (if first = '-' then rest.takeWhile isNumberPart
          else first :: rest.takeWhile isNumberPart))) ∧
    ∀ x y z : Operand, ComparisonLaws x y z := by
  refine ⟨fun c p value n _ hnumber => ⟨n.not_isNaN_toBits, ?_⟩,
    fun first rest n h => ⟨n.not_isNaN_toBits, lexNumber_eq_nearest h⟩, comparisonLaws⟩
  cases value <;> cases hnumber
  exact Number.isFinite_toBinary64 _

/-- An integer of data is less than a literal with a point, and that is less than one beyond all
finite numbers; with a text the integer has no order. -/
theorem comparisons_coherent_mixed :
    (Binary64.ofInt 1).isFinite = true ∧
      Binary64.ofDecimal false 15 (-1) = .nearest false (runValue "1.5".toList) ∧
      compare .less (.ofJson (Json.ofInt 1)) (.number (.infinity false)) = .ok true ∧
      compare .less (.ofJson (Json.ofInt 1)) (.text "1") =
        .error (.invalid (.cannotOrder .number .string)) := by
  obtain ⟨hdata, hliteral, hlaws⟩ := comparisons_coherent
  have hbelow : compare .less (.ofJson (Json.ofInt 1)) (.number (.ofDecimal false 15 (-1))) =
      .ok true := by decide +kernel
  have habove : compare .less (.number (.ofDecimal false 15 (-1))) (.number (.infinity false)) =
      .ok true := by decide +kernel
  refine ⟨(hdata (.single "t" (Json.ofInt 1)) ["t"] (Json.ofInt 1) _ ?_ rfl).2, ?_,
    (hlaws _ _ _).less_trans hbelow habove, ?_⟩
  · decide +kernel
  · exact (hliteral '1' ".5".toList _ (by decide +kernel)).2
  · exact (hlaws _ (.text "1") .null).unordered (by simp [Orderable, kind, ofJson, Json.ofInt])
      .less (by simp)

end Rule

end StepFlow
