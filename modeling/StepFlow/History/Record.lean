import StepFlow.Graph.Basic
import StepFlow.Run.State

/-!
# Records of runs

What is kept of a run once it is over: its log, its final state, and how it ended. The
statistics of a collection count its records by status.
-/

namespace StepFlow.History

/-! ### Status -/

/-- How a recorded run ended. -/
inductive Status where
  | success
  | error
  | unfinished
deriving DecidableEq, Repr

namespace Status

/-- The name of a status. -/
def name : Status → String
  | success => "success"
  | error => "error"
  | unfinished => "partial"

/-- All statuses under their names. -/
def table : List (String × Status) := [success, error, unfinished].map fun s => (s.name, s)

/-- The status with a name. -/
def ofName? (name : String) : Option Status := table.lookup name

/-- The wording for a name that is not a status. -/
def unknownMessage (name : String) : String := "unknown history status: " ++ name

/-- The status of a run: an error if a step failed, a success if it completed, and partial
while it is not over. -/
def ofRun (r : Run) : Status :=
  match r.phase with
  | .errored => error
  | .completed => success
  | .idle => unfinished
  | .running => unfinished
  | .paused => unfinished

/-- Reads a status. -/
def decoder : Decoder Status := Decoder.variant table

end Status

/-! ### Records -/

/-- The record of a run. -/
structure Record where
  id : String
  workflowId : String
  workflowName : String
  startedAt : Instant
  initialData : Context
  steps : List Step
  finalState : Run
  durationMs : UInt64
  status : Status
deriving DecidableEq

namespace Record

/-- The record of a run of a workflow, under a given identifier. -/
def ofRun (id : String) (w : Workflow) (initialData : Context) (startedAt : Instant)
    (finalState : Run) (durationMs : UInt64) : Record where
  id := id
  workflowId := w.id
  workflowName := w.name
  startedAt := startedAt
  initialData := initialData
  steps := finalState.steps
  finalState := finalState
  durationMs := durationMs
  status := .ofRun finalState

/-- The record as it is written. -/
def toJson (r : Record) : Json :=
  .object
    [("id", .string r.id), ("workflow_id", .string r.workflowId),
      ("workflow_name", .string r.workflowName), ("started_at", .string r.startedAt.text),
      ("initial_data", r.initialData.toJson), ("steps", .array (r.steps.map Step.toJson)),
      ("final_state", r.finalState.toJson), ("duration_ms", .ofUInt64 r.durationMs),
      ("status", .string r.status.name)]

/-- The fields of a written record. -/
def fields : Fields Record :=
  ((Fields.required "id" Decoder.string).both <|
    (Fields.required "workflow_id" Decoder.string).both <|
      (Fields.required "workflow_name" Decoder.string).both <|
        (Fields.required "started_at" Decoder.instant).both <|
          (Fields.required "initial_data" Decoder.context).both <|
            (Fields.required "steps" (Decoder.list Step.decoder)).both <|
              (Fields.required "final_state" Run.decoder).both <|
                (Fields.required "duration_ms" Decoder.uint64).both <|
                  Fields.required "status" Status.decoder).map
    fun (id, workflowId, workflowName, startedAt, initialData, steps, finalState, durationMs,
        status) =>
      ⟨id, workflowId, workflowName, startedAt, initialData, steps, finalState, durationMs,
        status⟩

/-- Reads a record. -/
def decoder : Decoder Record := fields.decoder "HistoryRecord"

end Record

/-- Records as a JSON text with one part to a line. -/
def exportText (records : List Record) : String :=
  (Json.array (records.map Record.toJson)).pretty

/-! ### Statistics -/

/-- The numbers of records by status; the total is the sum of the other three. -/
structure Statistics where
  total : UInt64
  success : UInt64
  error : UInt64
  unfinished : UInt64
deriving DecidableEq

namespace Statistics

/-- The statistics of no records. -/
def empty : Statistics := ⟨0, 0, 0, 0⟩

/-- The statistics with a number of further records of one status. -/
def add (s : Statistics) (status : Status) (count : UInt64) : Statistics :=
  let s := { s with total := s.total + count }
  match status with
  | .success => { s with success := s.success + count }
  | .error => { s with error := s.error + count }
  | .unfinished => { s with unfinished := s.unfinished + count }

/-- The statistics as they are written. -/
def toJson (s : Statistics) : Json :=
  .object
    [("total", .ofUInt64 s.total), ("success", .ofUInt64 s.success),
      ("error", .ofUInt64 s.error), ("partial", .ofUInt64 s.unfinished)]

/-- The fields of written statistics. -/
def fields : Fields Statistics :=
  ((Fields.required "total" Decoder.uint64).both <|
    (Fields.required "success" Decoder.uint64).both <|
      (Fields.required "error" Decoder.uint64).both <|
        Fields.required "partial" Decoder.uint64).map
    fun (total, success, error, unfinished) => ⟨total, success, error, unfinished⟩

/-- Reads statistics. -/
def decoder : Decoder Statistics := fields.decoder "HistoryStatistics"

end Statistics

end StepFlow.History
