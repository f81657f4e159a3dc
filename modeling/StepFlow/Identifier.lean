/-!
# Identifiers

Random identifiers in their usual written form: thirty-two hexadecimal digits in five
groups, of which one digit tells the version and one the variant.
-/

namespace StepFlow.Identifier

/-- Hexadecimal digits of a number, exactly as many as wanted. -/
def hexDigits : Nat → Nat → List Char
  | 0, _ => []
  | count + 1, n => hexDigits count (n / 16) ++ [(n % 16).digitChar]

/-- The identifier made of the low bits of a number. -/
def ofNat (n : Nat) : String :=
  let tail := n / 0x100000000000000000000
  String.ofList <|
    hexDigits 8 n ++ '-' :: hexDigits 4 (n / 0x100000000) ++
      '-' :: '4' :: hexDigits 3 (n / 0x1000000000000) ++
      '-' :: (8 + n / 0x1000000000000000 % 4).digitChar :: hexDigits 3 (n / 0x10000000000000000) ++
      '-' :: hexDigits 12 tail

/-- A sequence of identifiers that begins anywhere. -/
def sequence (seed n : Nat) : String := ofNat (seed + n * 0x9E3779B97F4A7C15F39CC0605CEDC835)

end StepFlow.Identifier
