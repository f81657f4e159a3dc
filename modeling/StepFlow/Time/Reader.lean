import StepFlow.Text.Blank
import StepFlow.Time.Instant

/-!
# Reading instants

Two readers of written instants. The strict one takes the fixed shape
`2026-03-01T08:00:00.5Z`, with any number of digits after the point and an offset in place
of `Z`. The lenient one also takes blanks between the parts, shorter numbers and signed
years.
-/

namespace StepFlow

/-- Why a text is not an instant. -/
inductive InstantError where
  | outOfRange
  | impossible
  | invalid
  | tooShort
  | tooLong
deriving DecidableEq, Repr

/-- The wording of a fault. -/
def InstantError.message : InstantError → String
  | outOfRange => "input is out of range"
  | impossible => "no possible date and time matching input"
  | invalid => "input contains invalid characters"
  | tooShort => "premature end of input"
  | tooLong => "trailing input"

namespace Instant

/-- A reader takes what it wants from the front of a text, or says why it cannot. -/
abbrev Reader (α : Type) := List Char → Except InstantError (α × List Char)

/-! ### Parts -/

/-- At least `least` and at most `most` digits. -/
def readNumber (least most : Nat) : Reader Nat := fun cs =>
  if (String.ofList cs).utf8ByteSize < least then .error .tooShort
  else
    let ds := (cs.take most).takeWhile Char.isDigit
    if ds.length < least then .error .invalid
    else
      let n := Nat.ofDigitChars 10 ds 0
      if n < 0x8000000000000000 then .ok (n, cs.drop ds.length) else .error .outOfRange

/-- One given character. -/
def readMark (mark : Char) : Reader Unit
  | [] => .error .tooShort
  | c :: rest => if c = mark then .ok ((), rest) else .error .invalid

/-- The mark between date and time: a blank or the letter T. -/
def readSeparator : Reader Unit
  | [] => .error .tooShort
  | c :: rest => if c = 't' ∨ c = 'T' ∨ c = ' ' then .ok ((), rest) else .error .invalid

/-- A fraction of a second, if there is a point. Digits after the ninth are dropped. -/
def readFraction : Reader Nat
  | '.' :: cs => do
    let (n, rest) ← readNumber 1 9 cs
    let used := cs.length - rest.length
    .ok (n * Nat.pow 10 (9 - used), rest.dropWhile Char.isDigit)
  | cs => .ok (0, cs)

/-- The number that two characters denote, or `none` if they are not both digits. -/
def twoDigits? (a b : Char) : Option Nat :=
  if a.isDigit && b.isDigit then some (Nat.ofDigitChars 10 [a, b] 0) else none

/-- Whether fewer than two bytes are left. -/
def lacksTwo (cs : List Char) : Bool := (String.ofList cs).utf8ByteSize < 2

/-- An offset from universal time in seconds: `Z`, or a sign, hours and minutes with
whatever `readColon` takes between them. -/
def readOffset (readColon : Reader Unit) : Reader Int
  | [] => .error .tooShort
  | c :: cs =>
    if c = 'Z' ∨ c = 'z' then .ok (0, cs)
    else if c ≠ '+' ∧ c ≠ '-' ∧ c ≠ '−' then .error .invalid
    else if lacksTwo cs then .error .tooShort
    else
      match cs with
      | h₁ :: h₂ :: cs =>
        match twoDigits? h₁ h₂ with
        | none => .error .invalid
        | some hours => do
          let ((), cs) ← readColon cs
          if lacksTwo cs then .error .tooShort
          else
            match cs with
            | m₁ :: m₂ :: rest =>
              match twoDigits? m₁ m₂ with
              | none => .error .invalid
              | some minutes =>
                if 60 ≤ minutes then .error .outOfRange
                else
                  let size : Int := hours * 3600 + minutes * 60
                  .ok (if c = '+' then size else -size, rest)
            | _ => .error .invalid
      | _ => .error .invalid

/-! ### Putting the parts together -/

/-- A part whose value must lie within bounds. -/
def within (least most : Nat) (read : Reader Nat) : Reader Nat := fun cs => do
  let (n, rest) ← read cs
  if least ≤ n ∧ n ≤ most then .ok (n, rest) else .error .outOfRange

/-- The years that instants may have. -/
def yearIsKnown (year : Int) : Bool := -262143 ≤ year && year ≤ 262142

/-- The instant at which a clock that is `offset` seconds ahead of universal time shows a
reading. Offsets are whole minutes, so that a second sixty is a leap second in universal time
as well. -/
def ofReading (r : ClockReading) (offset : Int) : Except InstantError Instant :=
  if !(r.date.isValid && yearIsKnown r.date.year) || offset.natAbs ≥ 86400 then
    .error .outOfRange
  else
    let leap : Nat := if r.second = 60 then 1 else 0
    let ofDay : Int := r.hour * 3600 + r.minute * 60 + r.second - leap
    let second := r.date.toDays * 86400 + ofDay - offset
    let nanosecond := r.nanosecond + leap * 1000000000
    if yearIsKnown (Date.ofDays (second.fdiv 86400)).year then
      if h : nanosecond < 2000000000 ∧ (1000000000 ≤ nanosecond → second % 60 = 59) then
        .ok ⟨second, nanosecond, h.1, h.2⟩
      else .error .outOfRange
    else .error .impossible

/-! ### The strict reader -/

/-- A date in ten characters. Whether it exists is asked once all of them are read. -/
def readStrictDate : Reader Date := fun cs => do
  let (year, cs) ← readNumber 4 4 cs
  let ((), cs) ← readMark '-' cs
  let (month, cs) ← readNumber 2 2 cs
  let ((), cs) ← readMark '-' cs
  let (day, cs) ← readNumber 2 2 cs
  let date : Date := ⟨year, month, day⟩
  if date.isValid then .ok (date, cs) else .error .outOfRange

/-- A time of a given date in eight characters and an optional fraction. Whether it exists is
asked once the fraction is read. -/
def readStrictTime (date : Date) : Reader ClockReading := fun cs => do
  let (hour, cs) ← readNumber 2 2 cs
  let ((), cs) ← readMark ':' cs
  let (minute, cs) ← readNumber 2 2 cs
  let ((), cs) ← readMark ':' cs
  let (second, cs) ← readNumber 2 2 cs
  let (nanosecond, cs) ← readFraction cs
  if hour ≤ 23 ∧ minute ≤ 59 ∧ second ≤ 60 then
    .ok (⟨date, hour, minute, second, nanosecond⟩, cs)
  else .error .outOfRange

/-- A date and a time in the fixed shape, with an offset. -/
def readStrictParts : Reader (ClockReading × Int) := fun cs => do
  let (date, cs) ← readStrictDate cs
  let ((), cs) ← readSeparator cs
  let (reading, cs) ← readStrictTime date cs
  let (offset, cs) ← readOffset (readMark ':') cs
  .ok ((reading, offset), cs)

/-- The number of bytes of a date and a time without fraction and offset. -/
def shortestStrict : Nat := 19

/-- The instant that a text of the fixed shape denotes. A text that has no room for a date and
a time is too short, whatever it holds. -/
def readStrict (text : String) : Except InstantError Instant :=
  if text.utf8ByteSize < shortestStrict then .error .tooShort
  else do
    let ((reading, offset), rest) ← readStrictParts text.toList
    if rest.isEmpty then ofReading reading offset else .error .tooLong

/-! ### The lenient reader -/

/-- A reader that first drops blanks. -/
def afterBlanks {α : Type} (read : Reader α) : Reader α := fun cs => read (Text.trimFront cs)

/-- A year with any number of digits after a sign, or with up to four without. -/
def readYear : Reader Int
  | '-' :: cs => do
    let (n, rest) ← readNumber 1 cs.length cs
    if n ≤ 0x80000000 then .ok (-n, rest) else .error .outOfRange
  | '+' :: cs => do
    let (n, rest) ← readNumber 1 cs.length cs
    if n < 0x80000000 then .ok (n, rest) else .error .outOfRange
  | cs => do
    let (n, rest) ← readNumber 1 4 cs
    .ok (n, rest)

/-- Any colons and blanks. -/
def readLooseColon : Reader Unit := fun cs =>
  .ok ((), cs.dropWhile fun c => c = ':' || Text.isBlank c)

/-- The offset after a time, which may be the name of universal time. -/
def readLooseOffset : Reader Int := fun cs =>
  match cs with
  | a :: b :: c :: rest =>
    if (a = 'u' ∨ a = 'U') ∧ (b = 't' ∨ b = 'T') ∧ (c = 'c' ∨ c = 'C') then .ok (0, rest)
    else readOffset readLooseColon cs
  | _ => readOffset readLooseColon cs

/-- A date and a time in the lenient shape. -/
def readLooseParts : Reader (ClockReading × Int) := fun cs => do
  let (year, cs) ← afterBlanks readYear cs
  let ((), cs) ← afterBlanks (readMark '-') cs
  let (month, cs) ← afterBlanks (within 1 12 (readNumber 1 2)) cs
  let ((), cs) ← afterBlanks (readMark '-') cs
  let (day, cs) ← afterBlanks (within 1 31 (readNumber 1 2)) cs
  let ((), cs) ← readSeparator cs
  let (hour, cs) ← afterBlanks (within 0 23 (readNumber 1 2)) cs
  let ((), cs) ← afterBlanks (readMark ':') cs
  let (minute, cs) ← afterBlanks (within 0 59 (readNumber 1 2)) cs
  let ((), cs) ← afterBlanks (readMark ':') cs
  let (second, cs) ← afterBlanks (within 0 60 (readNumber 1 2)) cs
  let (nanosecond, cs) ← readFraction cs
  let (offset, cs) ← afterBlanks readLooseOffset cs
  .ok ((⟨⟨year, month, day⟩, hour, minute, second, nanosecond⟩, offset), cs)

/-- The instant that a text of the lenient shape denotes. -/
def readLenient (text : String) : Except InstantError Instant := do
  let ((reading, offset), rest) ← readLooseParts text.toList
  if (Text.trimFront rest).isEmpty then ofReading reading offset else .error .tooLong

end Instant

end StepFlow
