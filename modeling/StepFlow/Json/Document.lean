import StepFlow.Json.Basic

/-!
# JSON documents

What is known of a JSON text after one pass over it. A document has the shape of a value,
with members in the order and with the repetitions of the text, but it also marks the places
where the text goes wrong. A reader of a document meets these marks in the order of the
text, so a part of the wrong kind that stands before a broken place is reported first, and a
part that the reader only skips may hold what could not be read.
-/

namespace StepFlow

/-- The outcome of one pass over a JSON text. -/
inductive Document where
  | null
  | bool (value : Bool)
  | number (value : Number)
  | string (value : String)
  | array (items : List Document)
  /-- A key is absent where the text has no key that can be read. -/
  | object (members : List (Option String × Document))
  /-- A part that is well formed but cannot be read: a number beyond all bounds, a string
  with half of a surrogate pair, or an array or object that is nested too deep. -/
  | unreadable
  /-- The place where the text stops being JSON. -/
  | broken
deriving Inhabited

namespace Document

/-! ### Skipping a part -/

mutual

/-- Whether a part can be skipped, which asks only that it is well formed. -/
def isWellFormed : Document → Bool
  | array items => wellFormedItems items
  | object members => wellFormedMembers members
  | broken => false
  | _ => true

/-- Whether every item can be skipped. -/
def wellFormedItems : List Document → Bool
  | [] => true
  | item :: rest => item.isWellFormed && wellFormedItems rest

/-- Whether every member can be skipped. -/
def wellFormedMembers : List (Option String × Document) → Bool
  | [] => true
  | (_, value) :: rest => value.isWellFormed && wellFormedMembers rest

end

/-! ### Other names of members -/

/-- The document with another name for the members of one name. -/
def renameKey (old new : String) : Document → Document
  | object members =>
    object (members.map fun (key?, value) => (if key? = some old then some new else key?, value))
  | d => d

/-! ### Values and documents -/

mutual

/-- The document of a value that does not come from a text. -/
def ofJson : Json → Document
  | .null => null
  | .bool b => bool b
  | .number n => number n
  | .string s => string s
  | .array items => array (ofItems items)
  | .object members => object (ofMembers members)

/-- The documents of the items. -/
def ofItems : List Json → List Document
  | [] => []
  | item :: rest => ofJson item :: ofItems rest

/-- The documents of the members. -/
def ofMembers : List (String × Json) → List (Option String × Document)
  | [] => []
  | (key, value) :: rest => (some key, ofJson value) :: ofMembers rest

end

mutual

/-- The value that the document describes, if every part of it can be read. -/
def toJson? : Document → Option Json
  | null => some .null
  | bool b => some (.bool b)
  | number n => some (.number n)
  | string s => some (.string s)
  | array items => (toItems? items).map .array
  | object members => (toMembers? members).map .object
  | unreadable => none
  | broken => none

/-- The values of the items. -/
def toItems? : List Document → Option (List Json)
  | [] => some []
  | item :: rest => do
    let value ← item.toJson?
    let values ← toItems? rest
    some (value :: values)

/-- The members with their values. -/
def toMembers? : List (Option String × Document) → Option (List (String × Json))
  | [] => some []
  | (none, _) :: _ => none
  | (some key, part) :: rest => do
    let value ← part.toJson?
    let values ← toMembers? rest
    some ((key, value) :: values)

end

mutual

@[simp] theorem toJson?_ofJson (value : Json) : (ofJson value).toJson? = some value := by
  cases value <;> simp [ofJson, toJson?, toItems?_ofItems, toMembers?_ofMembers]

@[simp] theorem toItems?_ofItems (items : List Json) : toItems? (ofItems items) = some items := by
  cases items with
  | nil => rfl
  | cons item rest => simp [ofItems, toItems?, toJson?_ofJson item, toItems?_ofItems rest]

@[simp] theorem toMembers?_ofMembers (members : List (String × Json)) :
    toMembers? (ofMembers members) = some members := by
  cases members with
  | nil => rfl
  | cons m rest =>
    obtain ⟨k, v⟩ := m
    simp [ofMembers, toMembers?, toJson?_ofJson v, toMembers?_ofMembers rest]

end

end Document

end StepFlow
