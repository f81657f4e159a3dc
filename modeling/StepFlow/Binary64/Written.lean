import StepFlow.Binary64.Decimal

/-!
# Written numbers

How a number is set out in text. A form says which digits are taken where two choices are
equally near, from which power of ten on digits are written out in full, and how an exponent
is marked when they are not. Two forms are in use: one for data and one for messages about a
rule.
-/

namespace StepFlow.Binary64

/-- What is free in writing a number: which of two equally near decimals is taken, the leading
exponents that are written out in full, and whether an exponent that is not negative carries
a plus sign. -/
structure Form where
  tie : Tie
  leastPlain : Int
  greatestPlain : Int
  plusSign : Bool

/-- In data, numbers from `0.00001` up to below `10 ^ 16` are written out in full, and
larger ones as in `1e+16`. Of two equally near decimals the even one is taken. -/
def Form.data : Form := ⟨.toEven, -5, 15, true⟩

/-- In messages, numbers from `0.0001` up to below `10 ^ 16` are written out in full, and
larger ones as in `1e16`. Of two equally near decimals the one further from zero is taken. -/
def Form.message : Form := ⟨.upward, -4, 15, false⟩

/-- An exponent in decimal, with a sign where the form wants one. -/
def exponentText (form : Form) (e : Int) : List Char :=
  (if e < 0 then ['-'] else if form.plusSign then ['+'] else []) ++ Nat.toDigits 10 e.natAbs

/-- Digits written out in full around the decimal point, with at least one on each side. -/
def plainText (d : Decimal) : List Char :=
  let cs := d.chars
  if 0 ≤ d.exponent then cs ++ List.replicate d.exponent.toNat '0' ++ ".0".toList
  else
    let places := (-d.exponent).toNat
    if places < cs.length then
      cs.take (cs.length - places) ++ '.' :: cs.drop (cs.length - places)
    else "0.".toList ++ List.replicate (places - cs.length) '0' ++ cs

/-- Digits with the point after the first of them, followed by the exponent. -/
def scientificText (form : Form) (d : Decimal) : List Char :=
  let mantissa := match d.chars with
    | first :: second :: rest => first :: '.' :: second :: rest
    | cs => cs
  mantissa ++ 'e' :: exponentText form d.leadingExponent

/-- The text of a number, sign aside. -/
def unsignedText (form : Form) (x : Binary64) : List Char :=
  if x.magnitude = 0 then "0.0".toList
  else if !x.isFinite then "inf".toList
  else
    let d := x.toDecimal form.tie
    if form.leastPlain ≤ d.leadingExponent ∧ d.leadingExponent ≤ form.greatestPlain then
      plainText d
    else scientificText form d

/-- The text of a number in a given form. -/
def text (form : Form) (x : Binary64) : List Char :=
  if x.negative then '-' :: unsignedText form x else unsignedText form x

end StepFlow.Binary64
