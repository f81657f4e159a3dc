import StepFlow.Handler.Outcome

/-!
# Transforms of records

A transform takes the records among the data of a run and marks them, picks some of them, or
adds them up. What it does not know it passes on unchanged.
-/

namespace StepFlow.Transform

/-- The records that a value holds: its items if it is an array, none if it is `null`, and
the value itself otherwise. -/
def records : Json → List Json
  | .array items => items
  | .null => []
  | value => [value]

/-- A record marked as transformed; one that is not an object is wrapped into one. -/
def mark : Json → Json
  | .object members => .object (Members.put "transformed" (.bool true) members)
  | value => .object [("transformed", .bool true), ("value", value)]

/-- Whether a record has a field that is neither `null` nor `false`. -/
def keeps (field : String) (record : Json) : Bool :=
  match record.field? field with
  | none => false
  | some .null => false
  | some (.bool b) => b
  | some _ => true

/-- The sum of the numbers in a field, added up from the first record to the last. -/
def total (field : String) (items : List Json) : Binary64 :=
  (items.filterMap fun record => (record.field? field).bind Json.toBinary64?).foldl
    Binary64.add (.zero true)

/-- The number of records and the sum of their fields. -/
def aggregate (field : String) (items : List Json) : Json :=
  .object [("count", .ofInt items.length), ("sum", .ofBinary64 (total field items))]

/-- What a transform makes of its input. -/
def apply (transform field : String) (input : Json) : Json :=
  match transform with
  | "map" => .array ((records input).map mark)
  | "filter" => .array ((records input).filter (keeps field))
  | "aggregate" => aggregate field (records input)
  | _ => input

end StepFlow.Transform
