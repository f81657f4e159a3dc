/-!
# Binary floating-point numbers

The numbers that rules compare and that data carry: 64-bit binary floating point without
NaN. A number is a sign and a magnitude, where the magnitude is the exponent and fraction
bits read as one natural number. That reading is monotone, so magnitudes are compared as
naturals, and rounding an exact quotient is one division.
-/

namespace StepFlow

/-- A 64-bit binary floating-point number that is not a NaN. The magnitude holds the
exponent and fraction bits; the greatest magnitude is infinity. -/
structure Binary64 where
  negative : Bool
  magnitude : Nat
  magnitude_le : magnitude ≤ 0x7FF0000000000000
deriving DecidableEq

namespace Binary64

/-- The magnitude of infinity. -/
def infinityMagnitude : Nat := 0x7FF0000000000000

/-- The number with a given sign whose magnitude is the given one, or infinity where that
would lie beyond it. -/
def ofMagnitude (negative : Bool) (magnitude : Nat) : Binary64 where
  negative := negative
  magnitude := min magnitude infinityMagnitude
  magnitude_le := Nat.min_le_right _ _

/-- The zero of a given sign. -/
def zero (negative : Bool) : Binary64 := ofMagnitude negative 0

/-- The infinity of a given sign. -/
def infinity (negative : Bool) : Binary64 := ofMagnitude negative infinityMagnitude

instance : Inhabited Binary64 := ⟨zero false⟩

/-- Whether the number is not an infinity. -/
def isFinite (x : Binary64) : Bool := x.magnitude < infinityMagnitude

/-- The sixty-four bits of the number, the sign first. -/
def toBits (x : Binary64) : Nat :=
  (if x.negative then 0x8000000000000000 else 0) + x.magnitude

/-! ### Order -/

/-- A key that sorts as the numbers do; the two zeros share theirs. -/
def orderKey (x : Binary64) : Int :=
  if x.negative then -(x.magnitude : Int) else x.magnitude

/-- Equality of the numbers, for which the two zeros are one. -/
def equals (x y : Binary64) : Bool := x.orderKey == y.orderKey

/-- The order of the numbers. -/
def less (x y : Binary64) : Bool := x.orderKey < y.orderKey

/-! ### The exact value -/

/-- The integer `m` in the value `m * 2 ^ q` of a finite number, sign aside: its lower fifty-two
bits, with a leading one unless the number is tiny. -/
def significand (x : Binary64) : Nat :=
  if x.magnitude < 0x10000000000000 then x.magnitude
  else x.magnitude % 0x10000000000000 + 0x10000000000000

/-- The exponent `q` in the value `m * 2 ^ q` of a finite number. -/
def exponent (x : Binary64) : Int :=
  if x.magnitude < 0x10000000000000 then -1074 else (x.magnitude / 0x10000000000000 : Nat) - 1075

/-- A power of two or of ten as a numerator over a denominator. -/
def powerRatio (base : Nat) (exponent : Int) : Nat × Nat :=
  (base.pow exponent.toNat, base.pow (-exponent).toNat)

/-- The value of a finite number as a numerator over a denominator, sign aside. -/
def toRatio (x : Binary64) : Nat × Nat :=
  let (num, den) := powerRatio 2 x.exponent
  (x.significand * num, den)

/-- The integer of the same value, if there is one. -/
def toInt? (x : Binary64) : Option Int :=
  let (num, den) := x.toRatio
  if x.isFinite && num % den == 0 then
    let n : Int := num / den
    some (if x.negative then -n else n)
  else none

/-! ### Rounding -/

/-- Which neighbour is taken of a number that lies halfway between two: the even one, or the
one above. -/
inductive Tie where
  | toEven
  | upward
deriving DecidableEq, Repr

/-- Whether the number halfway between `below` and its successor goes to the successor. -/
def Tie.goesUp : Tie → Nat → Bool
  | toEven, below => below % 2 == 1
  | upward, _ => true

/-- The integer nearest to a quotient; a half goes as the tie says. -/
def roundQuotient (tie : Tie) (num den : Nat) : Nat :=
  let quotient := num / den
  let twice := 2 * (num % den)
  if den < twice || (twice == den && tie.goesUp quotient) then quotient + 1 else quotient

/-- The exponent of the last place that leaves a positive quotient with a given count of
binary digits. -/
def lastPlace (bits num den : Nat) : Int :=
  let q := (num.log2 : Int) - den.log2 - bits
  let (up, down) := powerRatio 2 q
  if num * down / (den * up) < Nat.pow 2 bits then q else q + 1

/-- The number nearest to a quotient of naturals, ties to even: fifty-three binary digits
are kept, but none below the last place of the least numbers. -/
def ofRatio (negative : Bool) (num den : Nat) : Binary64 :=
  if num = 0 then zero negative
  else
    let q := max (-1074) (lastPlace 53 num den)
    let (up, down) := powerRatio 2 q
    let significand := roundQuotient .toEven (num * down) (den * up)
    ofMagnitude negative ((q + 1074).toNat * 0x10000000000000 + significand)

/-- The number nearest to an integer. -/
def ofInt (n : Int) : Binary64 := ofRatio (n < 0) n.natAbs 1

/-- The number nearest to `digits * 10 ^ exponent`. Exponents so far out that the answer is
zero or infinity whatever the digits are settled without computing the power. -/
def ofDecimal (negative : Bool) (digits : Nat) (exponent : Int) : Binary64 :=
  if digits = 0 then zero negative
  else if 400 < exponent then infinity negative
  else if exponent + (digits.log2 : Int) + 1 < -400 then zero negative
  else
    let (num, den) := powerRatio 10 exponent
    ofRatio negative (digits * num) den

/-! ### Addition -/

/-- A finite number over a fixed last place that is not above its own. -/
def scaledTo (place : Int) (x : Binary64) : Int :=
  let size : Int := x.significand * Nat.pow 2 (x.exponent - place).toNat
  if x.negative then -size else size

/-- The sum of two numbers, rounded once. An infinity absorbs what is added to it, and two
negative zeros make a negative zero. -/
def add (x y : Binary64) : Binary64 :=
  if !x.isFinite then x
  else if !y.isFinite then y
  else
    let place := min x.exponent y.exponent
    let total := scaledTo place x + scaledTo place y
    if total = 0 then zero (x.negative && y.negative)
    else
      let (num, den) := powerRatio 2 place
      ofRatio (total < 0) (total.natAbs * num) den

end Binary64

end StepFlow
