import Mathlib.Algebra.Order.Field.Power
import Mathlib.Algebra.Order.Floor.Semifield
import Mathlib.Data.Int.Log
import Mathlib.Data.Rat.Floor
import Mathlib.Tactic.FieldSimp
import Mathlib.Tactic.Linarith
import Mathlib.Tactic.Positivity
import Mathlib.Tactic.Ring
import StepFlow.Binary64.Basic

/-!
# Rounding as a function of the value

Rounding a quotient of naturals, or a decimal with its cut-offs for exponents far out, is the
same as rounding the rational number that it denotes (`ofRatio_eq_nearest` and
`ofDecimal_eq_nearest`), so that two ways of writing one number round alike.  A finite number is
the nearest one to its own value (`nearest_value`).
-/

namespace StepFlow.Binary64

/-! ## The number nearest to a rational -/

/-- The natural number nearest to a rational, the even one where two are equally near. -/
def roundEven (v : ℚ) : ℕ :=
  if 1 / 2 < v - ⌊v⌋₊ ∨ v - ⌊v⌋₊ = 1 / 2 ∧ ⌊v⌋₊ % 2 = 1 then ⌊v⌋₊ + 1 else ⌊v⌋₊

/-- The exponent of the last place that is kept of a positive rational. -/
def placeOf (v : ℚ) : ℤ := max (-1074) (Int.log 2 v - 52)

/-- The number nearest to a rational that is not negative, under a given sign. -/
def nearest (negative : Bool) (v : ℚ) : Binary64 :=
  if v = 0 then zero negative
  else
    ofMagnitude negative
      ((placeOf v + 1074).toNat * 0x10000000000000 + roundEven (v / 2 ^ placeOf v))

/-- The value of a finite number, sign aside. -/
def value (x : Binary64) : ℚ := x.significand * 2 ^ x.exponent

variable {num den : ℕ} {v : ℚ} {k : ℤ} {negative : Bool} {x : Binary64}

/-! ## Quotients -/

/-- A power given as a numerator over a denominator. -/
theorem powerRatio_eq (base : ℕ) (hbase : 0 < base) (e : ℤ) :
    ((powerRatio base e).1 : ℚ) / (powerRatio base e).2 = (base : ℚ) ^ e ∧
      0 < (powerRatio base e).1 ∧ 0 < (powerRatio base e).2 := by
  have hne : (base : ℚ) ≠ 0 := Nat.cast_ne_zero.2 hbase.ne'
  refine ⟨?_, Nat.pow_pos hbase, Nat.pow_pos hbase⟩
  simp only [powerRatio, Nat.pow_eq, Nat.cast_pow, ← zpow_natCast, ← zpow_sub₀ hne]
  congr 1
  omega

/-- A quotient is rounded as the rational number that it is. -/
theorem roundQuotient_eq (hden : 0 < den) :
    roundQuotient .toEven num den = roundEven ((num : ℚ) / den) := by
  have hfloor : ⌊(num : ℚ) / den⌋₊ = num / den := Nat.floor_div_eq_div num den
  have hpos : (0 : ℚ) < den := Nat.cast_pos.2 hden
  have hrest : (num : ℚ) / den - (num / den : ℕ) = (num % den : ℕ) / den := by
    have hsplit : (num : ℚ) = den * (num / den : ℕ) + (num % den : ℕ) := by
      exact_mod_cast (Nat.div_add_mod num den).symm
    rw [eq_div_iff hpos.ne', sub_mul, div_mul_cancel₀ _ hpos.ne']
    linarith
  have hless : (1 : ℚ) / 2 < (num % den : ℕ) / den ↔ den < 2 * (num % den) := by
    rw [div_lt_div_iff₀ (by norm_num) hpos, one_mul, mul_comm]
    exact_mod_cast Iff.rfl
  have hhalf : ((num % den : ℕ) : ℚ) / den = 1 / 2 ↔ 2 * (num % den) = den := by
    rw [div_eq_div_iff hpos.ne' (by norm_num), one_mul, mul_comm]
    exact_mod_cast Iff.rfl
  unfold roundQuotient roundEven
  simp only [hfloor, hrest, hless, hhalf]
  simp [Tie.goesUp]

/-- The logarithm is the exponent of the power of two at or below a number. -/
theorem log_eq_iff (hv : 0 < v) : Int.log 2 v = k ↔ (2 : ℚ) ^ k ≤ v ∧ v < 2 ^ (k + 1) := by
  have hlow := Int.zpow_le_iff_le_log (b := 2) (by decide) (x := k) hv
  have hhigh := Int.lt_zpow_iff_log_lt (b := 2) (by decide) (x := k + 1) hv
  rw [Nat.cast_ofNat] at hlow hhigh
  rw [hlow, hhigh]
  omega

/-- The lengths of its numerator and denominator leave two binades for a quotient. -/
theorem div_mem_binades (hnum : num ≠ 0) (hden : den ≠ 0) {e : ℤ}
    (he : e = (num.log2 : ℤ) - den.log2) :
    (2 : ℚ) ^ (e - 1) ≤ num / den ∧ (num : ℚ) / den < 2 ^ (e + 1) := by
  have hdenPos : (0 : ℚ) < den := Nat.cast_pos.2 (Nat.pos_of_ne_zero hden)
  have hnumLow : (2 : ℚ) ^ (num.log2 : ℤ) ≤ num := by exact_mod_cast Nat.log2_self_le hnum
  have hnumHigh : (num : ℚ) < 2 ^ ((num.log2 : ℤ) + 1) := by exact_mod_cast Nat.lt_log2_self
  have hdenLow : (2 : ℚ) ^ (den.log2 : ℤ) ≤ den := by exact_mod_cast Nat.log2_self_le hden
  have hdenHigh : (den : ℚ) < 2 ^ ((den.log2 : ℤ) + 1) := by exact_mod_cast Nat.lt_log2_self
  constructor
  · rw [le_div_iff₀ hdenPos]
    calc (2 : ℚ) ^ (e - 1) * den
        ≤ 2 ^ (e - 1) * 2 ^ ((den.log2 : ℤ) + 1) := by gcongr
      _ = 2 ^ (num.log2 : ℤ) := by rw [← zpow_add₀ two_ne_zero]; congr 1; omega
      _ ≤ num := hnumLow
  · rw [div_lt_iff₀ hdenPos]
    calc (num : ℚ)
        < 2 ^ ((num.log2 : ℤ) + 1) := hnumHigh
      _ = 2 ^ (e + 1) * 2 ^ (den.log2 : ℤ) := by rw [← zpow_add₀ two_ne_zero]; congr 1; omega
      _ ≤ 2 ^ (e + 1) * den := by gcongr

/-- Counting the whole parts of a quotient over a last place compares it with a power of two. -/
theorem scaled_div_lt_iff (hden : den ≠ 0) (bits : ℕ) (place : ℤ) :
    num * (powerRatio 2 place).2 / (den * (powerRatio 2 place).1) < 2 ^ bits ↔
      (num : ℚ) / den < 2 ^ (place + bits) := by
  obtain ⟨hratio, hup, hdown⟩ := powerRatio_eq 2 (by decide) place
  have hdenPos : (0 : ℚ) < den := Nat.cast_pos.2 (Nat.pos_of_ne_zero hden)
  have hdownPos : (0 : ℚ) < (powerRatio 2 place).2 := Nat.cast_pos.2 hdown
  have hsplit : (2 : ℚ) ^ (place + bits) =
      2 ^ bits * ((powerRatio 2 place).1 / (powerRatio 2 place).2) := by
    rw [hratio, Nat.cast_ofNat, zpow_add₀ two_ne_zero, zpow_natCast, mul_comm]
  rw [Nat.div_lt_iff_lt_mul (Nat.mul_pos (Nat.pos_of_ne_zero hden) hup), hsplit,
    div_lt_iff₀ hdenPos, mul_div_assoc', div_mul_eq_mul_div, lt_div_iff₀ hdownPos,
    mul_assoc ((2 : ℚ) ^ bits), mul_comm _ (den : ℚ)]
  exact_mod_cast Iff.rfl

/-- The last place of a quotient is settled by the power of two below it. -/
theorem lastPlace_eq (bits : ℕ) (hnum : num ≠ 0) (hden : den ≠ 0) :
    lastPlace bits num den = Int.log 2 ((num : ℚ) / den) + 1 - bits := by
  have hv : (0 : ℚ) < num / den :=
    div_pos (Nat.cast_pos.2 (Nat.pos_of_ne_zero hnum)) (Nat.cast_pos.2 (Nat.pos_of_ne_zero hden))
  obtain ⟨e, he⟩ : ∃ e : ℤ, e = (num.log2 : ℤ) - den.log2 := ⟨_, rfl⟩
  obtain ⟨hlow, hhigh⟩ := div_mem_binades hnum hden he
  -- The test compares the quotient with the power of two between the two bounds.
  have htest := @scaled_div_lt_iff num den hden bits (e - bits)
  rw [Int.sub_add_cancel] at htest
  have hunfold : lastPlace bits num den =
      if num * (powerRatio 2 (e - bits)).2 / (den * (powerRatio 2 (e - bits)).1) < 2 ^ bits
      then e - bits else e - bits + 1 := by
    rw [he]
    rfl
  rw [hunfold]
  split
  · rename_i h
    rw [(log_eq_iff hv).2 ⟨hlow, by rwa [Int.sub_add_cancel, ← htest]⟩]
    omega
  · rename_i h
    rw [(log_eq_iff hv).2 ⟨not_lt.1 (htest.not.1 h), hhigh⟩]
    omega

/-- Rounding a quotient is rounding the rational number that it is. -/
theorem ofRatio_eq_nearest (hden : 0 < den) :
    ofRatio negative num den = nearest negative ((num : ℚ) / den) := by
  have hdenPos : (0 : ℚ) < den := Nat.cast_pos.2 hden
  by_cases hnum : num = 0
  · subst hnum
    simp [ofRatio, nearest]
  have hne : (num : ℚ) / den ≠ 0 := div_ne_zero (Nat.cast_ne_zero.2 hnum) hdenPos.ne'
  have hplace : max (-1074) (lastPlace 53 num den) = placeOf ((num : ℚ) / den) := by
    rw [lastPlace_eq 53 hnum hden.ne', placeOf]
    congr 1
    omega
  obtain ⟨hratio, hup, hdown⟩ := powerRatio_eq 2 (by decide) (placeOf ((num : ℚ) / den))
  have hscaled : ((num * (powerRatio 2 (placeOf ((num : ℚ) / den))).2 : ℕ) : ℚ) /
      (den * (powerRatio 2 (placeOf ((num : ℚ) / den))).1 : ℕ) =
        (num : ℚ) / den / 2 ^ placeOf ((num : ℚ) / den) := by
    have hupPos : ((powerRatio 2 (placeOf ((num : ℚ) / den))).1 : ℚ) ≠ 0 :=
      Nat.cast_ne_zero.2 hup.ne'
    have hdownPos : ((powerRatio 2 (placeOf ((num : ℚ) / den))).2 : ℚ) ≠ 0 :=
      Nat.cast_ne_zero.2 hdown.ne'
    rw [Nat.cast_ofNat] at hratio
    rw [← hratio, Nat.cast_mul, Nat.cast_mul]
    field_simp
  rw [nearest, if_neg hne, ofRatio, if_neg hnum]
  simp only [hplace]
  rw [roundQuotient_eq (Nat.mul_pos hden hup), hscaled]

/-! ## Numbers far out -/

/-- A rational within integers is rounded within them. -/
theorem roundEven_bounds (low high : ℕ) (hlow : (low : ℚ) ≤ v) (hhigh : v < high) :
    low ≤ roundEven v ∧ roundEven v ≤ high := by
  have hfloor : low ≤ ⌊v⌋₊ := Nat.le_floor hlow
  have hbelow : ⌊v⌋₊ < high := (Nat.floor_lt ((Nat.cast_nonneg low).trans hlow)).2 hhigh
  unfold roundEven
  split <;> omega

/-- An integer is rounded to itself. -/
theorem roundEven_natCast (n : ℕ) : roundEven (n : ℚ) = n := by
  unfold roundEven
  rw [Nat.floor_natCast, sub_self, if_neg (by norm_num)]

/-- Fifty-three binary digits of a positive rational lie in front of the last place. -/
theorem scaled_bounds (hv : 0 < v) :
    (2 : ℚ) ^ 52 ≤ v / 2 ^ (Int.log 2 v - 52) ∧ v / 2 ^ (Int.log 2 v - 52) < (2 : ℚ) ^ 53 := by
  obtain ⟨hlow, hhigh⟩ := (log_eq_iff hv).1 rfl
  have hplace : (0 : ℚ) < 2 ^ (Int.log 2 v - 52) := by positivity
  have hscale (n : ℕ) : (2 : ℚ) ^ n * 2 ^ (Int.log 2 v - 52) = 2 ^ (Int.log 2 v + (n - 52)) := by
    rw [← zpow_natCast, ← zpow_add₀ two_ne_zero]
    congr 1
    ring
  rw [le_div_iff₀ hplace, div_lt_iff₀ hplace, hscale, hscale]
  norm_num
  exact ⟨hlow, hhigh⟩

/-- What has reached `2 ^ 1024` rounds to infinity. -/
theorem nearest_of_le (h : (2 : ℚ) ^ (1024 : ℤ) ≤ v) : nearest negative v = infinity negative := by
  have hv : 0 < v := lt_of_lt_of_le (by positivity) h
  have hlog : 1024 ≤ Int.log 2 v :=
    (Int.zpow_le_iff_le_log (b := 2) (by decide) hv).1 (by exact_mod_cast h)
  have hplace : placeOf v = Int.log 2 v - 52 := max_eq_right (by omega)
  obtain ⟨hlow, hhigh⟩ := scaled_bounds hv
  have hround : 2 ^ 52 ≤ roundEven (v / 2 ^ placeOf v) :=
    (roundEven_bounds (2 ^ 52) (2 ^ 53) (by exact_mod_cast hplace ▸ hlow)
      (by exact_mod_cast hplace ▸ hhigh)).1
  rw [nearest, if_neg hv.ne']
  simp only [ofMagnitude, infinity, infinityMagnitude, Binary64.mk.injEq, true_and]
  rw [min_eq_right, min_self]
  omega

/-- What lies below half of the least number rounds to zero. -/
theorem nearest_of_lt (hv : 0 ≤ v) (h : v < (2 : ℚ) ^ (-1075 : ℤ)) :
    nearest negative v = zero negative := by
  rcases hv.eq_or_lt with rfl | hv
  · simp [nearest]
  have hlog : Int.log 2 v < -1075 :=
    (Int.lt_zpow_iff_log_lt (b := 2) (by decide) hv).1 (by exact_mod_cast h)
  have hplace : placeOf v = -1074 := max_eq_left (by omega)
  have hscaled : v / 2 ^ (-1074 : ℤ) < 1 / 2 := by
    rw [div_lt_iff₀ (by positivity)]
    calc v < (2 : ℚ) ^ (-1075 : ℤ) := h
      _ = 1 / 2 * (2 : ℚ) ^ (-1074 : ℤ) := by
        rw [show (-1075 : ℤ) = -1 + -1074 by norm_num, zpow_add₀ two_ne_zero]
        norm_num
  have hfloor : ⌊v / 2 ^ (-1074 : ℤ)⌋₊ = 0 := Nat.floor_eq_zero.2 (hscaled.trans (by norm_num))
  have hround : roundEven (v / 2 ^ (-1074 : ℤ)) = 0 := by
    unfold roundEven
    rw [hfloor, Nat.cast_zero, sub_zero, if_neg]
    rintro (hmore | ⟨hhalf, -⟩)
    · exact absurd hscaled hmore.not_gt
    · exact absurd hscaled hhalf.not_lt
  rw [nearest, if_neg hv.ne', hplace, hround]
  rfl

/-- What stays below `2 ^ 1023` does not round to infinity. -/
theorem isFinite_nearest (hv : 0 ≤ v) (h : v < (2 : ℚ) ^ (1023 : ℤ)) :
    (nearest negative v).isFinite = true := by
  rcases hv.eq_or_lt with rfl | hv
  · rw [nearest, if_pos rfl]
    rfl
  have hlog : Int.log 2 v < 1023 :=
    (Int.lt_zpow_iff_log_lt (b := 2) (by decide) hv).1 (by exact_mod_cast h)
  obtain ⟨hplace, hbelow⟩ : placeOf v ≤ 970 ∧ Int.log 2 v + 1 ≤ 53 + placeOf v := by
    unfold placeOf
    omega
  have hscaled : v / 2 ^ placeOf v < (2 ^ 53 : ℕ) := by
    rw [div_lt_iff₀ (by positivity)]
    calc v < (2 : ℚ) ^ (Int.log 2 v + 1) := ((log_eq_iff hv).1 rfl).2
      _ ≤ 2 ^ (53 + placeOf v) := zpow_le_zpow_right₀ (by norm_num) hbelow
      _ = (2 ^ 53 : ℕ) * 2 ^ placeOf v := by
        rw [zpow_add₀ two_ne_zero]
        norm_num
  have hround : roundEven (v / 2 ^ placeOf v) ≤ 2 ^ 53 :=
    (roundEven_bounds 0 (2 ^ 53) (by positivity) hscaled).2
  rw [nearest, if_neg hv.ne']
  refine decide_eq_true ((min_le_left _ _).trans_lt ?_)
  unfold infinityMagnitude
  omega

/-- The integers of the 64-bit ranges are no infinities as floating-point numbers. -/
theorem isFinite_ofInt {n : ℤ} (h : -0x8000000000000000 ≤ n ∧ n < 0x10000000000000000) :
    (ofInt n).isFinite = true := by
  have hsize : n.natAbs < 2 ^ 64 := by omega
  have hvalue : (n.natAbs : ℚ) < 2 ^ (1023 : ℤ) := by
    calc (n.natAbs : ℚ) < (2 ^ 64 : ℕ) := Nat.cast_lt.2 hsize
      _ = 2 ^ (64 : ℤ) := by norm_num
      _ ≤ 2 ^ (1023 : ℤ) := zpow_le_zpow_right₀ (by norm_num) (by norm_num)
  rw [ofInt, ofRatio_eq_nearest Nat.one_pos, Nat.cast_one, div_one]
  exact isFinite_nearest (Nat.cast_nonneg _) hvalue

/-! ## Decimals -/

/-- Rounding a decimal is rounding the rational number that it is; the exponents that are
settled at once are those at which nothing else could come out. -/
theorem ofDecimal_eq_nearest (negative : Bool) (digits : ℕ) (e : ℤ) :
    ofDecimal negative digits e = nearest negative (digits * 10 ^ e) := by
  by_cases hdigits : digits = 0
  · subst hdigits
    simp [ofDecimal, nearest]
  have hpos : (0 : ℚ) < digits := Nat.cast_pos.2 (Nat.pos_of_ne_zero hdigits)
  have hone : (1 : ℚ) ≤ digits := Nat.one_le_cast.2 (Nat.pos_of_ne_zero hdigits)
  unfold ofDecimal
  rw [if_neg hdigits]
  split
  · rename_i hhigh
    refine (nearest_of_le ?_).symm
    calc (2 : ℚ) ^ (1024 : ℤ) ≤ (2 ^ (3 : ℤ)) ^ (400 : ℤ) := by
          rw [← zpow_mul]
          exact zpow_le_zpow_right₀ (by norm_num) (by norm_num)
      _ ≤ 10 ^ (400 : ℤ) := zpow_le_zpow_left₀ (by norm_num) (by norm_num) (by norm_num)
      _ ≤ 10 ^ e := zpow_le_zpow_right₀ (by norm_num) (by omega)
      _ ≤ digits * 10 ^ e := le_mul_of_one_le_left (by positivity) hone
  · split
    · rename_i hlow
      refine (nearest_of_lt (by positivity) ?_).symm
      have hlog : (digits : ℚ) < 2 ^ ((digits.log2 : ℤ) + 1) := by
        exact_mod_cast Nat.lt_log2_self
      have hten : (10 : ℚ) ^ e ≤ 2 ^ (3 * e) := by
        rw [zpow_mul, ← inv_le_inv₀ (by positivity) (by positivity), ← zpow_neg, ← zpow_neg]
        exact zpow_le_zpow_left₀ (by omega) (by norm_num) (by norm_num)
      calc (digits : ℚ) * 10 ^ e < 2 ^ ((digits.log2 : ℤ) + 1) * 2 ^ (3 * e) :=
            mul_lt_mul hlog hten (by positivity) (by positivity)
        _ = 2 ^ ((digits.log2 : ℤ) + 1 + 3 * e) := (zpow_add₀ two_ne_zero _ _).symm
        _ ≤ 2 ^ (-1075 : ℤ) := zpow_le_zpow_right₀ (by norm_num) (by omega)
    · obtain ⟨hratio, -, hden⟩ := powerRatio_eq 10 (by decide) e
      rw [← Nat.cast_ofNat (R := ℚ), ← hratio]
      simp only [ofRatio_eq_nearest hden, Nat.cast_mul, mul_div_assoc]

/-! ## The value of a number -/

/-- The significand of a number has fifty-three binary digits, or the number is tiny. -/
theorem significand_exponent (x : Binary64) :
    x.exponent = -1074 ∧ x.significand < 2 ^ 52 ∧ x.significand = x.magnitude ∨
      -1074 ≤ x.exponent ∧ 2 ^ 52 ≤ x.significand ∧ x.significand < 2 ^ 53 ∧
        (x.exponent + 1074).toNat * 0x10000000000000 + x.significand = x.magnitude := by
  unfold significand exponent
  split <;> omega

/-- The value of a number is zero only for the zeros. -/
theorem value_eq_zero_iff : x.value = 0 ↔ x.magnitude = 0 := by
  have hpower : (2 : ℚ) ^ x.exponent ≠ 0 := by positivity
  rw [value, mul_eq_zero, or_iff_left hpower, Nat.cast_eq_zero]
  rcases x.significand_exponent with ⟨-, -, h⟩ | ⟨-, h, -, h'⟩
  · rw [h]
  · omega

/-- A number is the nearest one to its value, where infinity counts as `2 ^ 1024`. -/
theorem nearest_value (x : Binary64) : nearest x.negative x.value = x := by
  have hmagnitude : ofMagnitude x.negative x.magnitude = x := by
    simp only [ofMagnitude, infinityMagnitude, Nat.min_eq_left x.magnitude_le]
  by_cases hzero : x.value = 0
  · rw [nearest, if_pos hzero, zero, ← value_eq_zero_iff.1 hzero, hmagnitude]
  have hsignificand : (0 : ℚ) < x.significand := by
    refine Nat.cast_pos.2 (Nat.pos_of_ne_zero fun h => hzero ?_)
    rw [value, h, Nat.cast_zero, zero_mul]
  have hvalue : 0 < x.value := mul_pos hsignificand (by positivity)
  have hscaled : x.value / 2 ^ x.exponent = x.significand := by
    rw [value, mul_div_assoc, div_self (by positivity), mul_one]
  have hplace : placeOf x.value = x.exponent := by
    rcases x.significand_exponent with ⟨he, hsmall, -⟩ | ⟨he, hlow, hhigh, -⟩
    · have hlog : Int.log 2 x.value < -1022 := by
        refine (Int.lt_zpow_iff_log_lt (b := 2) (by decide) hvalue).1 ?_
        rw [value, he, Nat.cast_ofNat, show (-1022 : ℤ) = 52 + -1074 by norm_num,
          zpow_add₀ two_ne_zero]
        exact mul_lt_mul_of_pos_right (by exact_mod_cast hsmall) (by positivity)
      rw [placeOf, he]
      exact max_eq_left (by omega)
    · have hlog : Int.log 2 x.value = 52 + x.exponent := by
        rw [log_eq_iff hvalue, value, show 52 + x.exponent + 1 = 53 + x.exponent by ring,
          zpow_add₀ two_ne_zero, zpow_add₀ two_ne_zero]
        exact ⟨mul_le_mul_of_nonneg_right (by exact_mod_cast hlow) (by positivity),
          mul_lt_mul_of_pos_right (by exact_mod_cast hhigh) (by positivity)⟩
      rw [placeOf, hlog]
      omega
  have hrounded : (x.exponent + 1074).toNat * 0x10000000000000 + x.significand = x.magnitude := by
    rcases x.significand_exponent with ⟨he, -, heq⟩ | ⟨-, -, -, heq⟩
    · rw [he, heq]
      simp
    · exact heq
  rw [nearest, if_neg hzero, hplace, hscaled, roundEven_natCast, hrounded, hmagnitude]

end StepFlow.Binary64
