import StepFlow.History.Record

/-!
# Stored rows

A record is stored as a row of texts, with the start of the run as a text that sorts as time
does and the data as JSON on one line. Reading a row back can fail, since the columns may
have been changed by other hands.
-/

namespace StepFlow.History

/-- A value in the column of durations. It should be an integer, but a text or another
number can have been put there. -/
inductive Cell where
  | integer (value : Int)
  | real (value : Binary64)
  | text (value : String)
deriving DecidableEq

/-- A stored row. Its number tells when it came: later rows have greater numbers. -/
structure Row where
  number : Nat
  id : String
  workflowId : String
  workflowName : String
  startedAt : String
  initialData : String
  steps : String
  finalState : String
  duration : Cell
  status : String
deriving DecidableEq

/-- Why an operation on stored rows failed. -/
inductive StoreError where
  | conflict (id : String)
  /-- The column of durations holds no integer but a value of the named kind. -/
  | wrongCell (kind : String)
  | badInstant (cause : InstantError)
  | badColumn (column : String) (cause : DecodeError)
  | badStatus (name : String)
  /-- A status that cannot be counted. -/
  | uncountedStatus (name : String)
deriving DecidableEq

/-- The wording of an error. -/
def StoreError.message : StoreError → String
  | conflict id => "history record already exists: " ++ id
  | wrongCell kind =>
    "database error: Invalid column type " ++ kind ++ " at index: 8, name: duration_ms"
  | badInstant cause => "serialization error: started_at: " ++ cause.message
  | badColumn column cause => "serialization error: " ++ column ++ ": " ++ cause.message
  | badStatus name => "serialization error: status: " ++ Status.unknownMessage name
  | uncountedStatus name => "serialization error: " ++ Status.unknownMessage name

/-! ### Writing -/

/-- The greatest duration that can be stored. -/
def longestDuration : Nat := 0x7FFFFFFFFFFFFFFF

namespace Row

/-- The row of a record, under a given number. -/
def ofRecord (number : Nat) (r : Record) : Row where
  number := number
  id := r.id
  workflowId := r.workflowId
  workflowName := r.workflowName
  startedAt := r.startedAt.sortableText
  initialData := r.initialData.toJson.compact
  steps := (Json.array (r.steps.map Step.toJson)).compact
  finalState := r.finalState.toJson.compact
  duration := .integer (min r.durationMs.toNat longestDuration)
  status := r.status.name

/-! ### Reading -/

/-- The duration in a cell. -/
def durationOf : Cell → Except StoreError Int
  | .integer n => .ok n
  | .real _ => .error (.wrongCell "Real")
  | .text _ => .error (.wrongCell "Text")

/-- Reads the parts of a row that are kept as texts. A negative duration counts as none. -/
def toRecordWith (row : Row) (duration : Int) : Except StoreError Record := do
  let startedAt ← (Instant.readStrict row.startedAt).mapError .badInstant
  let initialData ← (Decoder.context.ofText row.initialData).mapError (.badColumn "initial_data")
  let steps ← ((Decoder.list Step.decoder).ofText row.steps).mapError (.badColumn "steps")
  let finalState ← (Run.decoder.ofText row.finalState).mapError (.badColumn "final_state")
  match Status.ofName? row.status with
  | none => .error (.badStatus row.status)
  | some status =>
    .ok
      { id := row.id
        workflowId := row.workflowId
        workflowName := row.workflowName
        startedAt := startedAt
        initialData := initialData
        steps := steps
        finalState := finalState
        durationMs := .ofNat duration.toNat
        status := status }

/-- The record that a row holds. -/
def toRecord (row : Row) : Except StoreError Record := do
  let duration ← durationOf row.duration
  toRecordWith row duration

end Row

end StepFlow.History
