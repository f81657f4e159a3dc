import StepFlow.Context
import StepFlow.Decode.Error
import StepFlow.Json.Reader

/-!
# Decoders

A decoder reads one document as a value of a domain type. This module has the decoders of
the basic types. Decoders go through a document in the order in which it was written and
stop at the first fault.
-/

namespace StepFlow

/-- Where a document comes from. A text is read only as far as its reader asks, so some
faults that a finished value would show are met as faults of the text. -/
inductive Origin where
  | text
  | value
deriving DecidableEq

/-- A reader of documents. -/
abbrev Decoder (α : Type) := Origin → Document → Except DecodeError α

namespace Decoder

/-- The fault of a document that is not of the expected kind. -/
def mismatch (expected : String) : Document → DecodeError
  | .null => .wrongKind .null expected
  | .bool b => .wrongKind (.bool b) expected
  | .number n => .wrongKind (.number n) expected
  | .string s => .wrongKind (.string s) expected
  | .array _ => .wrongKind .sequence expected
  | .object _ => .wrongKind .map expected
  | .unreadable => .malformed
  | .broken => .malformed

/-- Passes over a part that nobody asked for. -/
def skip (d : Document) : Except DecodeError Unit :=
  if d.isWellFormed then .ok () else .error .malformed

/-- A text. -/
def string : Decoder String
  | _, .string s => .ok s
  | _, d => .error (mismatch "a string" d)

/-- A path of a file, which is a text. -/
def path : Decoder String
  | _, .string s => .ok s
  | _, d => .error (mismatch "path string" d)

/-- A truth value. -/
def bool : Decoder Bool
  | _, .bool b => .ok b
  | _, d => .error (mismatch "a boolean" d)

/-- An integer from `least` to below `bound`, whose type has the given name. -/
def integerWithin (least bound : Int) (name : String) : Decoder Int
  | _, .number (.integer n h) =>
    if least ≤ n ∧ n < bound then .ok n
    else .error (.wrongValue (.number (.integer n h)) name)
  | _, d => .error (mismatch name d)

/-- A signed integer of sixty-four bits. -/
def int64 : Decoder Int := integerWithin (-0x8000000000000000) 0x8000000000000000 "i64"

/-- A word of sixty-four bits. -/
def uint64 : Decoder UInt64 := fun o d =>
  (integerWithin 0 0x10000000000000000 "u64" o d).map fun n => UInt64.ofNat n.toNat

/-- A count, which fits into sixty-four bits. -/
def count : Decoder Nat := fun o d =>
  (integerWithin 0 0x10000000000000000 "usize" o d).map Int.toNat

/-- Any value, as it is written. -/
def json : Decoder Json := fun _ d =>
  match d.toJson? with
  | some value => .ok value
  | none => .error .malformed

/-- A map from names to values. -/
def context : Decoder Context
  | _, .object members =>
    match Document.toMembers? members with
    | some members => .ok (.ofMembers members)
    | none => .error .malformed
  | _, d => .error (mismatch "a map" d)

/-- An instant in the lenient shape. -/
def instant : Decoder Instant
  | _, .string s => (Instant.readLenient s).mapError .badInstant
  | _, d => .error (mismatch "an RFC 3339 formatted date and time string" d)

/-- A value that may be `null`. -/
def optional {α : Type} (decode : Decoder α) : Decoder (Option α)
  | _, .null => .ok none
  | o, d => (decode o d).map some

/-- The items of an array, in order. -/
def items {α : Type} (decode : Decoder α) (o : Origin) : List Document → Except DecodeError (List α)
  | [] => .ok []
  | d :: rest => do
    let x ← decode o d
    let xs ← items decode o rest
    .ok (x :: xs)

/-- An array of values. -/
def list {α : Type} (decode : Decoder α) : Decoder (List α)
  | o, .array ds => items decode o ds
  | _, d => .error (mismatch "a sequence" d)

/-- The value of one of several names. -/
def variantOf {α : Type} (known : List (String × α)) (name : String) : Except DecodeError α :=
  match known.lookup name with
  | some x => .ok x
  | none => .error (.unknownVariant name (known.map (·.1)))

/-- One of several names, given as a text or as the only key of an object whose value is
`null`. -/
def variant {α : Type} (known : List (String × α)) : Decoder α
  | _, .string name => variantOf known name
  | .value, .object [(some name, content)] => do
    let x ← variantOf known name
    match content with
    | .null => .ok x
    | d => .error (mismatch "unit" d)
  | .value, .object _ => .error (.wrongValue .map "map with a single key")
  | .value, d => .error (mismatch "string or map" d)
  | .text, .object ((some name, content) :: rest) => do
    let x ← variantOf known name
    match content with
    | .null => if rest.isEmpty then .ok x else .error .malformed
    | d => .error (mismatch "unit" d)
  | .text, _ => .error .malformed

/-- The value that a JSON text describes. Faults of its parts come first, then what follows
the text. -/
def ofText {α : Type} (decode : Decoder α) (text : String) : Except DecodeError α := do
  let (document, atEnd) := Document.ofText text
  let x ← decode .text document
  if atEnd then .ok x else .error .malformed

/-- The value that a JSON value describes. -/
def ofJson {α : Type} (decode : Decoder α) (value : Json) : Except DecodeError α :=
  decode .value (.ofJson value)

end Decoder

end StepFlow
