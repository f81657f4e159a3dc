import StepFlow.Decode.Fields

/-!
# Steps

The log entry that a run keeps for every node it has executed: which node it was, what data
it met, and what came of it.
-/

namespace StepFlow

/-- How a step ended, or how far it got. -/
inductive StepStatus where
  | pending
  | running
  | success
  | error
  | skipped
deriving DecidableEq, Repr

namespace StepStatus

/-- The name of a status. -/
def name : StepStatus → String
  | pending => "pending"
  | running => "running"
  | success => "success"
  | error => "error"
  | skipped => "skipped"

/-- All statuses under their names. -/
def table : List (String × StepStatus) :=
  [pending, running, success, error, skipped].map fun s => (s.name, s)

/-- Reads a status. -/
def decoder : Decoder StepStatus := Decoder.variant table

end StepStatus

/-- An entry of the log of a run. -/
structure Step where
  nodeId : String
  nodeName : String
  nodeType : String
  status : StepStatus
  /-- The data when the step started. -/
  input : Context
  /-- What the step added to the data; absent if it failed. -/
  output? : Option Context
  error? : Option String
  elapsedMs : UInt64
  timestamp : Instant
deriving DecidableEq

namespace Step

/-- Whether the step failed. -/
def hasFailed (s : Step) : Bool := s.status == .error

/-- Data that may be absent. -/
def optionalContext : Option Context → Json
  | some c => c.toJson
  | none => .null

/-- The step as it is written. -/
def toJson (s : Step) : Json :=
  .object
    [("node_id", .string s.nodeId), ("node_name", .string s.nodeName),
      ("node_type", .string s.nodeType), ("status", .string s.status.name),
      ("input", s.input.toJson), ("output", optionalContext s.output?),
      ("error", .ofString? s.error?), ("execution_time_ms", .ofUInt64 s.elapsedMs),
      ("timestamp", .string s.timestamp.text)]

/-- The fields of a written step. -/
def fields : Fields Step :=
  ((Fields.required "node_id" Decoder.string).both <|
    (Fields.required "node_name" Decoder.string).both <|
      (Fields.required "node_type" Decoder.string).both <|
        (Fields.required "status" StepStatus.decoder).both <|
          (Fields.required "input" Decoder.context).both <|
            (Fields.defaulted "output" (Decoder.optional Decoder.context) none).both <|
              (Fields.defaulted "error" (Decoder.optional Decoder.string) none).both <|
                (Fields.required "execution_time_ms" Decoder.uint64).both <|
                  Fields.required "timestamp" Decoder.instant).map
    fun (nodeId, nodeName, nodeType, status, input, output?, error?, elapsedMs, timestamp) =>
      ⟨nodeId, nodeName, nodeType, status, input, output?, error?, elapsedMs, timestamp⟩

/-- Reads a step. -/
def decoder : Decoder Step := fields.decoder "StepRecord"

end Step

end StepFlow
