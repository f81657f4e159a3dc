import StepFlow.Binary64.Wide
import StepFlow.History.Store

/-!
# Columns changed by other hands

The rows of a store can be changed without the store, one column at a time; the name of a
column may be in letters of either case. A column of texts keeps an integer as the text of
its digits. The column of durations keeps a text that spells a number as that number: as an
integer where the number is whole and of the 64-bit range, and as a floating-point number
otherwise. Any other text stays a text.
-/

namespace StepFlow.History

/-! ### Numbers spelled by texts -/

/-- Characters that may surround a number. -/
def isSpace (c : Char) : Bool := c == ' ' || ('\t' ≤ c && c ≤ '\r')

/-- A number as it is spelled: a sign, digits before and after the point, and an exponent. -/
structure Spelling where
  negative : Bool
  whole : List Char
  fraction : List Char
  exponent : Int
  /-- Whether there is neither a point nor an exponent. -/
  isPlain : Bool

namespace Spelling

/-- A sign, if there is one, and what follows it. -/
def splitSign : List Char → Bool × List Char
  | '-' :: cs => (true, cs)
  | '+' :: cs => (false, cs)
  | cs => (false, cs)

/-- The size of an exponent. One that has reached ten thousand before its last digit is far
beyond all numbers, and counts as ten thousand. -/
def exponentSize (ds : List Char) : Nat :=
  ds.foldl (fun n d => if n < 10000 then 10 * n + (d.toNat - '0'.toNat) else 10000) 0

/-- An exponent, if there is one; nothing may follow it. -/
def exponentOf? : List Char → Option Int
  | [] => some 0
  | c :: cs =>
    if c = 'e' ∨ c = 'E' then
      let (negative, ds) := splitSign cs
      if ds.isEmpty || !ds.all Char.isDigit then none
      else
        let n : Int := exponentSize ds
        some (if negative then -n else n)
    else none

/-- The number that a text spells. -/
def ofText? (text : String) : Option Spelling := do
  let cs := text.toList.dropWhile isSpace
  let cs := (cs.reverse.dropWhile isSpace).reverse
  let (negative, cs) := splitSign cs
  let whole := cs.takeWhile Char.isDigit
  let afterWhole := cs.dropWhile Char.isDigit
  let (fraction, tail) := match afterWhole with
    | '.' :: cs => (cs.takeWhile Char.isDigit, cs.dropWhile Char.isDigit)
    | _ => ([], afterWhole)
  if whole.isEmpty && fraction.isEmpty then none
  else
    let exponent ← exponentOf? tail
    some ⟨negative, whole, fraction, exponent, afterWhole.isEmpty⟩

/-- Whether a digit is still taken after a number; what it makes is then below `2 ^ 64`. -/
def hasRoom (n : Nat) : Bool := n < (0x10000000000000000 - 10) / 10

/-- The number that digits make together with those before them, as long as there is room
for the next one, and how many digits are left over. -/
def takeDigits : Nat → List Char → Nat × Nat
  | n, [] => (n, 0)
  | n, d :: ds =>
    if hasRoom n then takeDigits (10 * n + (d.toNat - '0'.toNat)) ds else (n, ds.length + 1)

/-- The decimal that counts: the first nineteen or twenty significant digits, with zeros for
the digits after them. -/
def toDecimal (s : Spelling) : Decimal :=
  let (digits, left) := takeDigits 0 (s.whole ++ s.fraction)
  ⟨digits, s.exponent + left - s.fraction.length⟩

/-- The floating-point number that the decimal comes to. -/
def toBinary64 (s : Spelling) : Binary64 := .ofScaled s.negative s.toDecimal

/-- The integer that the spelling without point and exponent stands for. -/
def toInt (s : Spelling) : Int :=
  let n : Int := Nat.ofDigitChars 10 s.whole 0
  if s.negative then -n else n

end Spelling

/-! ### Changing a column -/

namespace Cell

/-- Whether an integer fits into a cell, which has sixty-four bits and a sign. -/
def holds (n : Int) : Bool := -0x8000000000000000 ≤ n && n < 0x8000000000000000

/-- What a cell keeps of a floating-point number: an integer, if it has the same value and is
not the least or the greatest of its range. -/
def ofBinary64 (x : Binary64) : Cell :=
  match x.toInt? with
  | some n => if -0x8000000000000000 < n ∧ n < 0x7FFFFFFFFFFFFFFF then integer n else real x
  | none => real x

/-- What a cell keeps of a text. -/
def ofText (text : String) : Cell :=
  match Spelling.ofText? text with
  | none => .text text
  | some s => if s.isPlain && holds s.toInt then integer s.toInt else ofBinary64 s.toBinary64

end Cell

/-- A value that is put into a column. -/
inductive ColumnValue where
  | integer (value : Int)
  | text (value : String)
deriving DecidableEq

namespace ColumnValue

/-- What a column of texts keeps of a value. -/
def toText : ColumnValue → String
  | integer n => String.ofList (Json.integerChars n)
  | text s => s

/-- What the column of durations keeps of a value. -/
def toCell : ColumnValue → Cell
  | integer n => .integer n
  | text s => .ofText s

end ColumnValue

/-- The columns of a row. -/
inductive Column where
  | id
  | workflowId
  | workflowName
  | startedAt
  | initialData
  | steps
  | finalState
  | duration
  | status
deriving DecidableEq, Repr

/-- The column of a name; the case of ASCII letters does not matter. -/
def Column.ofName? (name : String) : Option Column :=
  match name.map Char.toLower with
  | "id" => some id
  | "workflow_id" => some workflowId
  | "workflow_name" => some workflowName
  | "started_at" => some startedAt
  | "initial_data_json" => some initialData
  | "steps_json" => some steps
  | "final_state_json" => some finalState
  | "duration_ms" => some duration
  | "status" => some status
  | _ => none

/-- Why a column cannot be changed. -/
inductive ColumnError where
  | unknown (column : String)
  /-- Another row has the identifier already. -/
  | taken
deriving DecidableEq

/-- The wording of an error. -/
def ColumnError.message : ColumnError → String
  | unknown column => "no such column: " ++ column
  | taken => "UNIQUE constraint failed: histories.id"

/-- The row with a value in a column. -/
def Row.overwrite (row : Row) (column : Column) (value : ColumnValue) : Row :=
  match column with
  | .id => { row with id := value.toText }
  | .workflowId => { row with workflowId := value.toText }
  | .workflowName => { row with workflowName := value.toText }
  | .startedAt => { row with startedAt := value.toText }
  | .initialData => { row with initialData := value.toText }
  | .steps => { row with steps := value.toText }
  | .finalState => { row with finalState := value.toText }
  | .duration => { row with duration := value.toCell }
  | .status => { row with status := value.toText }

/-- The store with a value in the column of a name, in the row with an identifier, and the
number of rows that were changed. -/
def Store.overwrite (s : Store) (id name : String) (value : ColumnValue) :
    Except ColumnError (Store × Nat) :=
  match Column.ofName? name with
  | none => .error (.unknown name)
  | some column =>
    let rows := s.rows.map fun row => if row.id = id then row.overwrite column value else row
    if (rows.map (·.id)).eraseDups.length < rows.length then .error .taken
    else .ok ({ s with rows := rows }, (s.rows.filter (·.id == id)).length)

end StepFlow.History
