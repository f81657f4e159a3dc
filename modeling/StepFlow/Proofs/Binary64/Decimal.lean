import Mathlib.Tactic.LinearCombination
import StepFlow.Binary64.Decimal
import StepFlow.Proofs.Binary64.Nearest

/-!
# Decimals that read back

The decimal that is written for a number rounds to that number again (`nearest_toDecimal`),
whichever way a tie is broken.
-/

namespace StepFlow

/-- The value of a decimal. -/
def Decimal.value (d : Decimal) : ℚ := d.digits * 10 ^ d.exponent

/-- Taking zeros off the end of the digits keeps the value. -/
theorem Decimal.value_trimZeros (fuel : ℕ) (d : Decimal) :
    (d.trimZeros fuel).value = d.value := by
  induction fuel generalizing d with
  | zero => rfl
  | succ fuel ih =>
    unfold trimZeros
    split
    · rename_i h
      have hdigits : d.digits = 10 * (d.digits / 10) := by omega
      rw [ih, value, value, hdigits, Nat.mul_div_cancel_left _ (by decide),
        zpow_add₀ (by norm_num)]
      push_cast
      ring
    · rfl

namespace Binary64

variable {x : Binary64} {tie : Tie}

/-- The exact decimal has the value of its number. -/
theorem value_exactDecimal (x : Binary64) : x.exactDecimal.value = x.value := by
  unfold exactDecimal
  split
  · rename_i h
    have hpower : (2 : ℚ) ^ x.exponent = 2 ^ x.exponent.toNat := by
      rw [← zpow_natCast, Int.toNat_of_nonneg h]
    rw [Decimal.value, value, hpower]
    push_cast
    simp
  · rename_i h
    have hpower : (5 : ℚ) ^ (-x.exponent).toNat = 5 ^ (-x.exponent) := by
      rw [← zpow_natCast, Int.toNat_of_nonneg (by omega)]
    have hten : (10 : ℚ) ^ x.exponent = 2 ^ x.exponent * 5 ^ x.exponent := by
      rw [← mul_zpow]
      norm_num
    have hcancel : (5 : ℚ) ^ (-x.exponent) * 5 ^ x.exponent = 1 := by
      rw [← zpow_add₀ (by norm_num), Int.add_left_neg, zpow_zero]
    rw [Decimal.value, value, Nat.pow_eq, Nat.cast_mul, Nat.cast_pow, Nat.cast_ofNat, hpower, hten]
    linear_combination (x.significand : ℚ) * 2 ^ x.exponent * hcancel

/-- Whether a decimal reads back is a matter of its value. -/
theorem readsBackAs_iff {d : Decimal} :
    x.readsBackAs d = true ↔ nearest x.negative d.value = x := by
  rw [readsBackAs, beq_iff_eq, ofDecimal_eq_nearest, Decimal.value]

/-- The search for the shortest decimal ends at one that reads back. -/
theorem nearest_shortestFrom (num den : ℕ) (leading : ℤ) (fuel count : ℕ) :
    nearest x.negative (shortestFrom tie x num den leading fuel count).value = x := by
  induction fuel generalizing count with
  | zero => rw [shortestFrom, value_exactDecimal, nearest_value]
  | succ fuel ih =>
    unfold shortestFrom
    split
    · rename_i d hfound
      exact readsBackAs_iff.1 (List.find?_some hfound)
    · exact ih _

/-- The decimal that is written for a number rounds to the number. -/
theorem nearest_toDecimal (tie : Tie) (x : Binary64) :
    nearest x.negative (x.toDecimal tie).value = x := by
  rw [toDecimal, Decimal.value_trimZeros]
  exact nearest_shortestFrom _ _ _ _ _

/-- Only for a zero there are no digits to write. -/
theorem digits_toDecimal_pos (tie : Tie) (hx : x.magnitude ≠ 0) :
    0 < (x.toDecimal tie).digits := by
  refine Nat.pos_of_ne_zero fun hzero => hx ?_
  have hback := nearest_toDecimal tie x
  rw [Decimal.value, hzero, Nat.cast_zero, zero_mul, nearest, if_pos rfl] at hback
  rw [← hback]
  rfl

end Binary64

end StepFlow
