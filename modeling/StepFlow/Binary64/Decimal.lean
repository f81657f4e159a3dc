import StepFlow.Binary64.Basic

/-!
# The shortest decimal that reads back

A finite number is written with the fewest significant decimal digits that read back as the
same number. For each count of digits only the two neighbours of the exact value on that
decimal grid can do, and of two that do the nearer is taken. Where both are at the same
distance, the choice is left to the one who writes.
-/

namespace StepFlow

/-- A positive decimal number `digits * 10 ^ exponent`. -/
structure Decimal where
  digits : Nat
  exponent : Int
deriving DecidableEq, Repr

namespace Decimal

/-- The same number without zeros at the end of its digits; the fuel bounds their count. -/
def trimZeros : Nat → Decimal → Decimal
  | 0, d => d
  | fuel + 1, d =>
    if d.digits ≠ 0 ∧ d.digits % 10 = 0 then trimZeros fuel ⟨d.digits / 10, d.exponent + 1⟩ else d

/-- The decimal digits as characters. -/
def chars (d : Decimal) : List Char := Nat.toDigits 10 d.digits

/-- The exponent of the leading digit. -/
def leadingExponent (d : Decimal) : Int := d.exponent + (d.chars.length : Int) - 1

end Decimal

namespace Binary64

/-- The number of decimal digits of a natural number. -/
def digitCount (n : Nat) : Nat := (Nat.toDigits 10 n).length

/-- The exponent of the leading decimal digit of a positive quotient. -/
def decimalExponent (num den : Nat) : Int :=
  if den ≤ num then digitCount (num / den) - 1
  else -(digitCount ((den + num - 1) / num - 1) : Int)

/-- The two neighbours of a quotient on the grid of multiples of `10 ^ place`, the nearer
first; of two at the same distance the one that the tie says comes first. -/
def gridNeighbours (tie : Tie) (num den : Nat) (place : Int) : List Decimal :=
  let (up, down) := powerRatio 10 place
  let scaledNum := num * down
  let scaledDen := den * up
  let below := scaledNum / scaledDen
  let nearest := roundQuotient tie scaledNum scaledDen
  if nearest = below then [⟨below, place⟩, ⟨below + 1, place⟩]
  else [⟨below + 1, place⟩, ⟨below, place⟩]

/-- Whether a decimal reads back as the magnitude of `x`. -/
def readsBackAs (x : Binary64) (d : Decimal) : Bool :=
  (ofDecimal x.negative d.digits d.exponent) == x

/-- The exact decimal value of a finite number, with as many digits as that takes. -/
def exactDecimal (x : Binary64) : Decimal :=
  if 0 ≤ x.exponent then ⟨x.significand * Nat.pow 2 x.exponent.toNat, 0⟩
  else ⟨x.significand * Nat.pow 5 (-x.exponent).toNat, x.exponent⟩

/-- The first decimal that reads back as `x` among those with `count` digits, `count + 1`
digits and so on, for `fuel` counts; the exact value after that. -/
def shortestFrom (tie : Tie) (x : Binary64) (num den : Nat) (leading : Int) :
    Nat → Nat → Decimal
  | 0, _ => x.exactDecimal
  | fuel + 1, count =>
    match (gridNeighbours tie num den (leading - (count - 1 : Nat))).find? x.readsBackAs with
    | some d => d
    | none => shortestFrom tie x num den leading fuel (count + 1)

/-- The shortest decimal that reads back as a finite number other than zero, sign aside;
seventeen digits are always enough. -/
def toDecimal (tie : Tie) (x : Binary64) : Decimal :=
  let (num, den) := x.toRatio
  let d := shortestFrom tie x num den (decimalExponent num den) 17 1
  d.trimZeros (digitCount d.digits)

end Binary64

end StepFlow
