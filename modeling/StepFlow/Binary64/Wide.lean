import StepFlow.Binary64.Decimal

/-!
# Decimals read by scaling

A way to read decimals that rounds more than once. The digits are multiplied by powers of ten
until the exponent is used up, with sixty-four significant bits kept of each product, and the
last product is rounded to a 64-bit number. Where every product fits, the result is the
nearest number; elsewhere it may be a neighbour of it.
-/

namespace StepFlow.Binary64

/-- A number `significand * 2 ^ exponent` with sixty-four significant bits at most. -/
structure Wide where
  significand : Nat
  exponent : Int
deriving DecidableEq, Repr

namespace Wide

/-- The wide number nearest to a quotient of naturals, ties to even. -/
def ofRatio (num den : Nat) : Wide :=
  let q := lastPlace 64 num den
  let (up, down) := powerRatio 2 q
  ⟨roundQuotient .toEven (num * down) (den * up), q⟩

/-- The wide number nearest to a power of ten. -/
def ofTenPower (exponent : Int) : Wide :=
  let (num, den) := powerRatio 10 exponent
  ofRatio num den

/-- The product of two numbers, rounded once. -/
def mul (x y : Wide) : Wide :=
  let product := ofRatio (x.significand * y.significand) 1
  { product with exponent := product.exponent + x.exponent + y.exponent }

/-- A number after a count of multiplications by the same factor. -/
def mulTimes (factor : Wide) : Nat → Wide → Wide
  | 0, x => x
  | count + 1, x => mulTimes factor count (x.mul factor)

/-- A number times `10 ^ exponent`, in steps of a hundred, of ten and of one power. -/
def scale (x : Wide) (exponent : Int) : Wide :=
  let step (size : Nat) : Wide := ofTenPower (if exponent < 0 then -size else size)
  let n := exponent.natAbs
  mulTimes (step 1) (n % 10) (mulTimes (step 10) (n % 100 / 10) (mulTimes (step 100) (n / 100) x))

/-- The 64-bit number nearest to a wide one. -/
def toBinary64 (negative : Bool) (x : Wide) : Binary64 :=
  let (num, den) := powerRatio 2 x.exponent
  Binary64.ofRatio negative (x.significand * num) den

end Wide

/-- The number that a decimal comes to by scaling. Zeros at the end of its digits are taken
off first, so that whole numbers below `2 ^ 64` are never rounded on the way. Exponents so far
out that the answer is zero or infinity whatever the digits are settled at once. -/
def ofScaled (negative : Bool) (d : Decimal) : Binary64 :=
  let d := d.trimZeros (digitCount d.digits)
  if d.digits = 0 then zero negative
  else if 400 < d.exponent then infinity negative
  else if d.exponent + (d.digits.log2 : Int) + 1 < -400 then zero negative
  else ((Wide.ofRatio d.digits 1).scale d.exponent).toBinary64 negative

end StepFlow.Binary64
