import StepFlow.Handler.Transform
import StepFlow.Rule.Eval

/-!
# Executing nodes

The handler of each role, and the log entry that a run makes of what the handler gives. A
handler sees the data as the step before it left them and the data with which the run began;
it never changes them itself. A failed handler makes an error step at which the run ends.
-/

namespace StepFlow.Handler

/-- The name under which records to be processed are found. -/
def inputDataKey : String := "inputData"

/-- The data with which a run begins, with a list of records: the one given, or a single
record made of the data themselves. That record gets an identifier of its own, which one
among the data does not replace. -/
def dataInput (nodeId : String) (initialData : Context) : Context :=
  let records := match initialData.get? inputDataKey with
    | some (.array items) => .array items
    | _ =>
      let record := Context.single "id" (.string (nodeId ++ "-record-1"))
      .array [(record.fill initialData).toJson]
  initialData.insert inputDataKey records

/-- The decision of a rule, under a name of its role and as the last decision of the run. -/
def decide (key rule : String) (context : Context) : Except StepFault Outcome := do
  let rule ← requireSetting "rule" rule
  let result ← (Rule.evaluate rule context).mapError .rule
  .ok
    { patch := .ofMembers [(key, .bool result), ("lastDecision", .bool result)]
      halt := false
      branch? := some result }

/-- The report of an action. -/
def act (nodeId action : String) : Except StepFault Context := do
  let action ← requireSetting "action" action
  .ok <| .single "actionResult" <| .object
    [("action", .string action), ("nodeId", .string nodeId), ("status", .string "executed")]

/-- An ASCII letter in upper case; other characters stay as they are. -/
def upperCase (s : String) : String := String.ofList (s.toList.map Char.toUpper)

/-- The response of an endpoint, which is always a good one. -/
def callApi (endpoint : String) (method? : Option String) : Except StepFault Context := do
  let endpoint ← requireSetting "endpoint" endpoint
  let method := (method?.map upperCase).getD "GET"
  .ok <| .single "apiResponse" <| .object
    [("body", .object [("ok", .bool true)]), ("endpoint", .string endpoint),
      ("method", .string method), ("status", .ofInt 200)]

/-- The transformed records. -/
def transform (transform : String) (field? : Option String) (context : Context) :
    Except StepFault Context := do
  let transform ← requireSetting "transformType" transform
  let input := (context.get? inputDataKey).getD (.array [])
  .ok <| .ofMembers
    [("transformedData", Transform.apply transform (field?.getD "value") input),
      ("transformType", .string transform)]

/-- The judgment of a model. -/
def judge (readings : Readings) : Context :=
  .ofMembers
    [("judgment", .string readings.verdict.name), ("confidence", .ofBinary64 readings.confidence)]

/-- The receipt of a notification. -/
def notify (readings : Readings) (channel message : String) : Except StepFault Context := do
  let _ ← requireSetting "channel" channel
  let _ ← requireSetting "message" message
  .ok <| .single "notification" <| .object
    [("channel", .string channel), ("message", .string message),
      ("sentAt", .string readings.now.offsetText), ("status", .string "sent")]

/-- The data of a run that is over. -/
def complete (context : Context) : Outcome :=
  ⟨context.insert "completed" (.bool true), true, none⟩

/-- What the handler of a node gives for the present data and those at the beginning. -/
def perform (readings : Readings) (n : Node) (context initialData : Context) :
    Except StepFault Outcome :=
  match n.role with
  | .input => .ok (.ofPatch initialData)
  | .dataInput => .ok (.ofPatch (dataInput n.id initialData))
  | .decision rule => decide "decision" rule context
  | .ruleEngine rule => decide "ruleResult" rule context
  | .action what => (act n.id what).map .ofPatch
  | .apiCall endpoint method? => (callApi endpoint method?).map .ofPatch
  | .dataTransform kind field? => (transform kind field? context).map .ofPatch
  | .judgment _ => .ok (.ofPatch (judge readings))
  | .notification channel message => (notify readings channel message).map .ofPatch
  | .output => .ok (complete context)
  | .resultOutput => .ok (complete context)
  | .unsupported typeName _ => .error (.unsupportedRole typeName)

/-- The log entry of an executed node, and what the run does after it. -/
structure Executed where
  step : Step
  halt : Bool
  branch? : Option Bool
deriving DecidableEq

/-- Executes a node. -/
def execute (readings : Readings) (n : Node) (context initialData : Context) : Executed :=
  let step : Step :=
    { nodeId := n.id
      nodeName := n.displayName
      nodeType := n.role.typeName
      status := .success
      input := context
      output? := none
      error? := none
      elapsedMs := readings.elapsedMs
      timestamp := readings.now }
  match perform readings n context initialData with
  | .ok outcome =>
    ⟨{ step with output? := some outcome.patch }, outcome.halt, outcome.branch?⟩
  | .error fault =>
    ⟨{ step with status := .error, error? := some fault.message }, true, none⟩

end StepFlow.Handler
