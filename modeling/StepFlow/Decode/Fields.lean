import StepFlow.Decode.Basic

/-!
# Decoders of records

A record is read from an object or from an array of its fields in their order. `Fields`
says how the parts are collected: each known name has a slot, a name that comes twice is a
fault, and so is a missing name whose field has no value of its own. Names that are not
known are passed over.
-/

namespace StepFlow

/-- How the fields of a record are collected. -/
structure Fields (α : Type) where
  /-- What has been read so far. -/
  Slots : Type
  /-- Nothing has been read. -/
  blank : Slots
  /-- The names of the fields, in their order. -/
  names : List String
  /-- Reads the field of a known name. -/
  accept : Origin → String → Document → Slots → Except DecodeError Slots
  /-- What an object gives after its last member. -/
  finishNamed : Slots → Except DecodeError α
  /-- What an array gives after its last item. The arguments are the number of fields in
  front and the fault of an absent field, given how many stand before it. -/
  finishListed : Nat → (Nat → DecodeError) → Slots → Except DecodeError α

namespace Fields

/-- Reads a field into its slot, unless the slot is taken. -/
def fillSlot {α : Type} (decode : Decoder α) (o : Origin) (name : String) (d : Document) :
    Option α → Except DecodeError (Option α)
  | some _ => .error (.duplicateField name)
  | none => (decode o d).map some

/-- A field that must be present. -/
def required {α : Type} (name : String) (decode : Decoder α) : Fields α where
  Slots := Option α
  blank := none
  names := [name]
  accept := fillSlot decode
  finishNamed
    | some x => .ok x
    | none => .error (.missingField name)
  finishListed before fault
    | some x => .ok x
    | none => .error (fault before)

/-- A field with a value of its own for when it is absent. -/
def defaulted {α : Type} (name : String) (decode : Decoder α) (value : α) : Fields α where
  Slots := Option α
  blank := none
  names := [name]
  accept := fillSlot decode
  finishNamed slot := .ok (slot.getD value)
  finishListed _ _ slot := .ok (slot.getD value)

/-- The fields of two records, one after the other. -/
def both {α β : Type} (a : Fields α) (b : Fields β) : Fields (α × β) where
  Slots := a.Slots × b.Slots
  blank := (a.blank, b.blank)
  names := a.names ++ b.names
  accept o name d slots :=
    if name ∈ a.names then (a.accept o name d slots.1).map fun s => (s, slots.2)
    else (b.accept o name d slots.2).map fun s => (slots.1, s)
  finishNamed slots := do
    let x ← a.finishNamed slots.1
    let y ← b.finishNamed slots.2
    .ok (x, y)
  finishListed before fault slots := do
    let x ← a.finishListed before fault slots.1
    let y ← b.finishListed (before + a.names.length) fault slots.2
    .ok (x, y)

/-- The fields with what they give turned into something else. -/
def map {α β : Type} (f : α → β) (a : Fields α) : Fields β where
  Slots := a.Slots
  blank := a.blank
  names := a.names
  accept := a.accept
  finishNamed slots := (a.finishNamed slots).map f
  finishListed before fault slots := (a.finishListed before fault slots).map f

/-- Goes through the members of an object. -/
def visitMembers {α : Type} (fields : Fields α) (o : Origin) :
    List (Option String × Document) → fields.Slots → Except DecodeError fields.Slots
  | [], slots => .ok slots
  | (none, _) :: _, _ => .error .malformed
  | (some name, d) :: rest, slots => do
    if name ∈ fields.names then
      let slots ← fields.accept o name d slots
      visitMembers fields o rest slots
    else
      Decoder.skip d
      visitMembers fields o rest slots

/-- Goes through the items of an array, one to a name, and gives the items left over. -/
def visitItems {α : Type} (fields : Fields α) (o : Origin) :
    List String → List Document → fields.Slots →
      Except DecodeError (fields.Slots × List Document)
  | name :: names, d :: rest, slots => do
    let slots ← fields.accept o name d slots
    visitItems fields o names rest slots
  | _, rest, slots => .ok (slots, rest)

/-- The wording for a record that is wanted. -/
def recordText (title : String) : String := "struct " ++ title

/-- The wording for a record that is wanted as an array. -/
def listedText (title : String) (size : Nat) : String :=
  recordText title ++ " with " ++ toString size ++
    (if size = 1 then " element" else " elements")

/-- The decoder of the record with these fields, under the name that faults show. -/
def decoder {α : Type} (title : String) (fields : Fields α) : Decoder α
  | o, .object members => do
    let slots ← visitMembers fields o members fields.blank
    fields.finishNamed slots
  | o, .array ds => do
    let (slots, rest) ← visitItems fields o fields.names ds fields.blank
    let fault := fun length => DecodeError.wrongLength length
      (listedText title fields.names.length)
    let x ← fields.finishListed 0 fault slots
    match rest, o with
    | [], _ => .ok x
    | _, .text => .error .malformed
    | _, .value => .error (.wrongLength ds.length "fewer elements in array")
  | _, d => .error (Decoder.mismatch (recordText title) d)

end Fields

end StepFlow
