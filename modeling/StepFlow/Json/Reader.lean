import StepFlow.Binary64.Decimal
import StepFlow.Json.Document

/-!
# Reading JSON

The pass over a JSON text that makes a document of it. Blanks are the space, the tab, the
line feed and the carriage return. Arrays and objects may nest `Document.depthLimit` deep; a
deeper one can be skipped but not read.
-/

namespace StepFlow.Document

/-- The number of arrays and objects that may stand around a part, itself included. -/
def depthLimit : Nat := 127

/-- The blanks that may stand between the parts of a JSON text. -/
def isGap (c : Char) : Bool := c == ' ' || c == '\n' || c == '\t' || c == '\r'

/-- The text without the blanks at its front. -/
def skipGap (cs : List Char) : List Char := cs.dropWhile isGap

/-! ### Numbers -/

/-- The parts of a written number. -/
structure Literal where
  negative : Bool
  whole : List Char
  fraction : List Char
  /-- The written exponent; absent where there is none. -/
  exponent? : Option Int

/-- The digits at the front of a text and what follows them. -/
def digits (cs : List Char) : List Char × List Char :=
  (cs.takeWhile Char.isDigit, cs.dropWhile Char.isDigit)

/-- The natural number that digits denote. -/
def digitsValue (cs : List Char) : Nat := Nat.ofDigitChars 10 cs 0

/-- The digits before the point: no zero may stand in front of others. -/
def readWhole (cs : List Char) : Option (List Char × List Char) :=
  match digits cs with
  | ([], _) => none
  | ('0' :: _ :: _, _) => none
  | found => some found

/-- The digits after the point, if there is a point; then at least one must follow. -/
def readFraction : List Char → Option (List Char × List Char)
  | '.' :: cs =>
    match digits cs with
    | ([], _) => none
    | found => some found
  | cs => some ([], cs)

/-- The exponent's digits after its sign. -/
def readExponentDigits (negative : Bool) (cs : List Char) : Option (Int × List Char) :=
  match digits cs with
  | ([], _) => none
  | (ds, rest) =>
    let size : Int := digitsValue ds
    some (if negative then -size else size, rest)

/-- The exponent, if there is one. -/
def readExponent : List Char → Option (Option Int × List Char)
  | c :: cs =>
    if c == 'e' || c == 'E' then
      let found := match cs with
        | '-' :: rest => readExponentDigits true rest
        | '+' :: rest => readExponentDigits false rest
        | rest => readExponentDigits false rest
      found.map fun (e, rest) => (some e, rest)
    else some (none, c :: cs)
  | [] => some (none, [])

/-- A written number and what follows it. -/
def readLiteral (cs : List Char) : Option (Literal × List Char) := do
  let (negative, cs) := match cs with
    | '-' :: rest => (true, rest)
    | rest => (false, rest)
  let (whole, cs) ← readWhole cs
  let (fraction, cs) ← readFraction cs
  let (exponent?, cs) ← readExponent cs
  some (⟨negative, whole, fraction, exponent?⟩, cs)

/-- The floating-point number nearest to a written one, unless it is infinite. -/
def Literal.toReal? (l : Literal) : Option Number :=
  let x := Binary64.ofDecimal l.negative (digitsValue (l.whole ++ l.fraction))
    (l.exponent?.getD 0 - l.fraction.length)
  if h : x.isFinite = true then some (.real x h) else none

/-- The number that is written. Without point and exponent it is an integer where the
integer ranges allow; a negative zero is a floating-point number. -/
def Literal.toNumber? (l : Literal) : Option Number :=
  if l.fraction.isEmpty && l.exponent?.isNone then
    let size : Int := digitsValue l.whole
    let n := if l.negative then -size else size
    if h : -0x8000000000000000 ≤ n ∧ n < 0x10000000000000000 then
      if l.negative && n == 0 then l.toReal? else some (.integer n h)
    else l.toReal?
  else l.toReal?

/-! ### Strings -/

/-- A piece of a written string: a character, or one 16-bit unit given by its number. -/
inductive Piece where
  | char (c : Char)
  | unit (n : Nat)

/-- The value of a hexadecimal digit. -/
def hexValue? (c : Char) : Option Nat :=
  if c.isDigit then some (c.toNat - 48)
  else if 'a' ≤ c ∧ c ≤ 'f' then some (c.toNat - 87)
  else if 'A' ≤ c ∧ c ≤ 'F' then some (c.toNat - 55)
  else none

/-- The 16-bit unit that four hexadecimal digits denote. -/
def hexUnit? (a b c d : Char) : Option Nat := do
  let a ← hexValue? a
  let b ← hexValue? b
  let c ← hexValue? c
  let d ← hexValue? d
  some (((a * 16 + b) * 16 + c) * 16 + d)

/-- The character that a letter after a backslash stands for. -/
def escapedChar? : Char → Option Char
  | '"' => some '"'
  | '\\' => some '\\'
  | '/' => some '/'
  | 'b' => some '\x08'
  | 'f' => some '\x0c'
  | 'n' => some '\n'
  | 'r' => some '\r'
  | 't' => some '\t'
  | _ => none

/-- The pieces up to the closing quote, and what follows it. Control characters may not
stand in a string. -/
def readPieces : List Char → Option (List Piece × List Char)
  | [] => none
  | '"' :: rest => some ([], rest)
  | '\\' :: 'u' :: a :: b :: c :: d :: rest => do
    let n ← hexUnit? a b c d
    let (pieces, rest) ← readPieces rest
    some (.unit n :: pieces, rest)
  | '\\' :: e :: rest => do
    let c ← escapedChar? e
    let (pieces, rest) ← readPieces rest
    some (.char c :: pieces, rest)
  | c :: rest =>
    if c.toNat < 0x20 then none
    else do
      let (pieces, rest) ← readPieces rest
      some (.char c :: pieces, rest)

/-- Whether a 16-bit unit is the first half of a surrogate pair. -/
def isHighSurrogate (n : Nat) : Bool := 0xD800 ≤ n && n ≤ 0xDBFF

/-- Whether a 16-bit unit is the second half of a surrogate pair. -/
def isLowSurrogate (n : Nat) : Bool := 0xDC00 ≤ n && n ≤ 0xDFFF

/-- The characters that the pieces spell, unless half of a surrogate pair stands alone. -/
def joinPieces : List Piece → Option (List Char)
  | [] => some []
  | .char c :: rest => (joinPieces rest).map (c :: ·)
  | .unit n :: .unit m :: rest =>
    if isHighSurrogate n then
      if isLowSurrogate m then
        (joinPieces rest).map (Char.ofNat (0x10000 + (n - 0xD800) * 0x400 + (m - 0xDC00)) :: ·)
      else none
    else if isLowSurrogate n then none
    else (joinPieces (.unit m :: rest)).map (Char.ofNat n :: ·)
  | .unit n :: rest =>
    if isHighSurrogate n || isLowSurrogate n then none
    else (joinPieces rest).map (Char.ofNat n :: ·)

/-- The string after an opening quote, absent if it cannot be read, and what follows it. -/
def readString (cs : List Char) : Option (Option String × List Char) := do
  let (pieces, rest) ← readPieces cs
  some ((joinPieces pieces).map String.ofList, rest)

/-! ### Values -/

/-- The rest of the text after a word, if it begins with it. -/
def afterWord? : List Char → List Char → Option (List Char)
  | [], cs => some cs
  | w :: word, c :: cs => if w == c then afterWord? word cs else none
  | _ :: _, [] => none

/-- A word that stands for a value, and what follows it. -/
def readWord (word : String) (value : Document) (cs : List Char) : Document × List Char :=
  match afterWord? word.toList cs with
  | some rest => (value, rest)
  | none => (broken, [])

/-- A part that is nested too deep can at best be skipped. -/
def limitDepth (depth : Nat) (part : Document) : Document :=
  if depth < depthLimit then part
  else if part.isWellFormed then unreadable
  else broken

mutual

/-- The value at the front of a text, and what follows it. Nothing follows a broken place.
The fuel bounds the number of nested calls; `depth` counts the arrays and objects around. -/
def readValue : Nat → Nat → List Char → Document × List Char
  | 0, _, _ => (broken, [])
  | fuel + 1, depth, cs =>
    match skipGap cs with
    | 'n' :: rest => readWord "ull" null rest
    | 't' :: rest => readWord "rue" (bool true) rest
    | 'f' :: rest => readWord "alse" (bool false) rest
    | '"' :: rest =>
      match readString rest with
      | some (some s, rest) => (string s, rest)
      | some (none, rest) => (unreadable, rest)
      | none => (broken, [])
    | '[' :: rest =>
      let (items, rest) := match skipGap rest with
        | ']' :: rest => ([], rest)
        | rest => readItems fuel (depth + 1) rest
      (limitDepth depth (array items), rest)
    | '\x7b' :: rest =>
      let (members, rest) := match skipGap rest with
        | '\x7d' :: rest => ([], rest)
        | rest => readMembers fuel (depth + 1) rest
      (limitDepth depth (object members), rest)
    | c :: rest =>
      if c == '-' || c.isDigit then
        match readLiteral (c :: rest) with
        | some (l, rest) =>
          match l.toNumber? with
          | some n => (number n, rest)
          | none => (unreadable, rest)
        | none => (broken, [])
      else (broken, [])
    | [] => (broken, [])

/-- The items up to the closing bracket, and what follows it. -/
def readItems : Nat → Nat → List Char → List Document × List Char
  | 0, _, _ => ([broken], [])
  | fuel + 1, depth, cs =>
    let (item, rest) := readValue fuel depth cs
    match skipGap rest with
    | ']' :: rest => ([item], rest)
    | ',' :: rest =>
      let (items, rest) := readItems fuel depth rest
      (item :: items, rest)
    | _ => ([item, broken], [])

/-- The members up to the closing brace, and what follows it. -/
def readMembers : Nat → Nat → List Char → List (Option String × Document) × List Char
  | 0, _, _ => ([(none, broken)], [])
  | fuel + 1, depth, cs =>
    match skipGap cs with
    | '"' :: rest =>
      match readString rest with
      | none => ([(none, broken)], [])
      | some (key?, rest) =>
        match skipGap rest with
        | ':' :: rest =>
          let (value, rest) := readValue fuel depth rest
          match skipGap rest with
          | '\x7d' :: rest => ([(key?, value)], rest)
          | ',' :: rest =>
            let (members, rest) := readMembers fuel depth rest
            ((key?, value) :: members, rest)
          | _ => ([(key?, value), (none, broken)], [])
        | _ => ([(key?, broken)], [])
    | _ => ([(none, broken)], [])

end

/-- The document at the front of a text, and whether nothing but blanks follows it. -/
def ofText (text : String) : Document × Bool :=
  let cs := text.toList
  let (document, rest) := readValue (2 * cs.length + 2) 0 cs
  (document, (skipGap rest).isEmpty)

end StepFlow.Document

namespace StepFlow.Json

/-- The value that a JSON text denotes, in canonical form. -/
def read? (text : String) : Option Json :=
  match Document.ofText text with
  | (document, true) => document.toJson?.map canonical
  | (_, false) => none

end StepFlow.Json
