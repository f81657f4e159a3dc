import StepFlow.Binary64.Written
import StepFlow.Json.Basic

/-!
# Written JSON

The text of a value, either on one line without blanks or laid out with one member or item
to a line. Members are written in the order in which they stand.
-/

namespace StepFlow.Json

/-- A control character by its number, as in `\u001f`. -/
def unicodeEscape (c : Char) : List Char :=
  "\\u00".toList ++ [(c.toNat / 16).digitChar, (c.toNat % 16).digitChar]

/-- How one character is written inside a string. -/
def escapeChar (c : Char) : List Char :=
  if c == '"' then ['\\', '"']
  else if c == '\\' then ['\\', '\\']
  else if c == '\n' then ['\\', 'n']
  else if c == '\r' then ['\\', 'r']
  else if c == '\t' then ['\\', 't']
  else if c == '\x08' then ['\\', 'b']
  else if c == '\x0c' then ['\\', 'f']
  else if c.toNat < 0x20 then unicodeEscape c
  else [c]

/-- A string between double quotes. -/
def stringChars (s : String) : List Char :=
  '"' :: s.toList.flatMap escapeChar ++ ['"']

/-- An integer in decimal. -/
def integerChars (n : Int) : List Char :=
  if n < 0 then '-' :: Nat.toDigits 10 n.natAbs else Nat.toDigits 10 n.natAbs

/-- A number as it is written in data. -/
def numberChars : Number → List Char
  | .integer n _ => integerChars n
  | .real x _ => x.text .data

/-! ### On one line -/

mutual

/-- The text of a value without blanks. -/
def chars : Json → List Char
  | null => "null".toList
  | bool true => "true".toList
  | bool false => "false".toList
  | number n => numberChars n
  | string s => stringChars s
  | array items => '[' :: itemChars items ++ [']']
  | object members => '\x7b' :: memberChars members ++ ['\x7d']

/-- Items with commas between them. -/
def itemChars : List Json → List Char
  | [] => []
  | [item] => item.chars
  | item :: rest => item.chars ++ ',' :: itemChars rest

/-- Members with commas between them. -/
def memberChars : List (String × Json) → List Char
  | [] => []
  | [(key, value)] => stringChars key ++ ':' :: value.chars
  | (key, value) :: rest => stringChars key ++ ':' :: value.chars ++ ',' :: memberChars rest

end

/-- The text of a value on one line. -/
def compact (value : Json) : String := String.ofList value.chars

/-! ### One part to a line -/

/-- A line break and the blanks before a part at a given depth. -/
def newLine (depth : Nat) : List Char := '\n' :: List.replicate (2 * depth) ' '

mutual

/-- The text of a value whose parts stand on lines of their own, at a given depth. -/
def laidOut (depth : Nat) : Json → List Char
  | array [] => "[]".toList
  | array items => '[' :: laidOutItems (depth + 1) items ++ newLine depth ++ [']']
  | object [] => ['\x7b', '\x7d']
  | object members =>
    '\x7b' :: laidOutMembers (depth + 1) members ++ newLine depth ++ ['\x7d']
  | value => value.chars

/-- Items on lines of their own. -/
def laidOutItems (depth : Nat) : List Json → List Char
  | [] => []
  | [item] => newLine depth ++ laidOut depth item
  | item :: rest => newLine depth ++ laidOut depth item ++ ',' :: laidOutItems depth rest

/-- Members on lines of their own. -/
def laidOutMembers (depth : Nat) : List (String × Json) → List Char
  | [] => []
  | [(key, value)] => newLine depth ++ stringChars key ++ ": ".toList ++ laidOut depth value
  | (key, value) :: rest =>
    newLine depth ++ stringChars key ++ ": ".toList ++ laidOut depth value ++
      ',' :: laidOutMembers depth rest

end

/-- The text of a value with one member or item to a line. -/
def pretty (value : Json) : String := String.ofList (value.laidOut 0)

end StepFlow.Json
