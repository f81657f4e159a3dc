import StepFlow.History.Table

/-!
# The file of a store

The rows of a store as a JSON text, one row after the other in the order in which they came.
An empty file holds no rows.
-/

namespace StepFlow.History

namespace Cell

/-- The cell as it is written. -/
def toJson : Cell → Json
  | integer n => .ofInt n
  | real x => .ofBinary64 x
  | text s => .string s

/-- Reads a cell. -/
def decoder : Decoder Cell
  | _, .number (.integer n _) => .ok (integer n)
  | _, .number (.real x _) => .ok (real x)
  | _, .string s => .ok (text s)
  | _, d => .error (Decoder.mismatch "a cell" d)

end Cell

namespace Row

/-- The row as it is written. -/
def toJson (row : Row) : Json :=
  .object
    [("number", .ofInt row.number), ("id", .string row.id),
      ("workflow_id", .string row.workflowId),
      ("workflow_name", .string row.workflowName), ("started_at", .string row.startedAt),
      ("initial_data", .string row.initialData), ("steps", .string row.steps),
      ("final_state", .string row.finalState), ("duration_ms", row.duration.toJson),
      ("status", .string row.status)]

/-- The fields of a written row. -/
def fields : Fields Row :=
  ((Fields.required "number" Decoder.count).both <|
    (Fields.required "id" Decoder.string).both <|
      (Fields.required "workflow_id" Decoder.string).both <|
        (Fields.required "workflow_name" Decoder.string).both <|
          (Fields.required "started_at" Decoder.string).both <|
            (Fields.required "initial_data" Decoder.string).both <|
              (Fields.required "steps" Decoder.string).both <|
                (Fields.required "final_state" Decoder.string).both <|
                  (Fields.required "duration_ms" Cell.decoder).both <|
                    Fields.required "status" Decoder.string).map
    fun (number, id, workflowId, workflowName, startedAt, initialData, steps, finalState,
        duration, status) =>
      ⟨number, id, workflowId, workflowName, startedAt, initialData, steps, finalState, duration,
        status⟩

/-- The text of a file with the given rows. -/
def fileText (rows : List Row) : String := (Json.array (rows.map toJson)).compact

/-- The rows in a file with the given text. -/
def ofFileText? (text : String) : Option (List Row) :=
  if text.isEmpty then some []
  else ((Decoder.list (fields.decoder "Row")).ofText text).toOption

end Row

end StepFlow.History
