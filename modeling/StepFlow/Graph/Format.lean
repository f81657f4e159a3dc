import StepFlow.Decode.Fields
import StepFlow.Graph.Validation

/-!
# Workflows as JSON

The written form of workflows, as an editor makes it. A node has an identifier, a type and
data; the data hold the label and the configuration of its role, the latter either in an
object of its own under `config` or flat beside the label, where an entry of the object wins
over a flat one. A workflow or an edge without an identifier gets a fresh one.
-/

namespace StepFlow

namespace Role

/-- Texts that default to the empty text. -/
def textField (name : String) : Fields String := .defaulted name Decoder.string ""

/-- Texts that may be absent. -/
def textField? (name : String) : Fields (Option String) :=
  .defaulted name (Decoder.optional Decoder.string) none

/-- Reads a configuration with the given fields. -/
def ofConfig (fields : Fields Role) (config : Context) : Except DecodeError Role :=
  (fields.decoder "configuration").ofJson config.toJson

/-- The role of a type name with a configuration. -/
def ofParts (typeName : String) (config : Context) : Except DecodeError Role :=
  match typeName with
  | "input" => .ok input
  | "data-input" => .ok dataInput
  | "decision" => ofConfig ((textField "rule").map decision) config
  | "condition" => ofConfig ((textField "rule").map decision) config
  | "rule-engine" => ofConfig ((textField "rule").map ruleEngine) config
  | "action" => ofConfig ((textField "action").map action) config
  | "api-call" =>
    ofConfig (((textField "endpoint").both (textField? "method")).map fun (endpoint, method?) =>
      apiCall endpoint method?) config
  | "data-transform" =>
    ofConfig (((textField "transformType").both (textField? "field")).map
      fun (transform, field?) => dataTransform transform field?) config
  | "llm-judgment" => ofConfig ((textField? "prompt").map judgment) config
  | "notification" =>
    ofConfig (((textField "channel").both (textField "message")).map fun (channel, message) =>
      notification channel message) config
  | "output" => .ok output
  | "data-output" => .ok output
  | "result-output" => .ok resultOutput
  | other => .ok (unsupported other config)

/-- A member for a text that may be absent. -/
def optionalText (name : String) : Option String → List (String × Json)
  | some value => [(name, .string value)]
  | none => []

/-- The configuration of a role. -/
def config : Role → Context
  | decision rule => .ofMembers [("rule", .string rule)]
  | ruleEngine rule => .ofMembers [("rule", .string rule)]
  | action what => .ofMembers [("action", .string what)]
  | apiCall endpoint method? =>
    .ofMembers (("endpoint", .string endpoint) :: optionalText "method" method?)
  | dataTransform transform field? =>
    .ofMembers (("transformType", .string transform) :: optionalText "field" field?)
  | judgment prompt? => .ofMembers (optionalText "prompt" prompt?)
  | notification channel message =>
    .ofMembers [("channel", .string channel), ("message", .string message)]
  | unsupported _ config => config
  | input => .empty
  | dataInput => .empty
  | output => .empty
  | resultOutput => .empty

end Role

namespace Node

/-- The label among the data of a node, if it is a text. -/
def labelOf (data : Context) : Option String :=
  match data.get? "label" with
  | some (.string label) => some label
  | _ => none

/-- The configuration among the data of a node: the entries of `config`, if that is an
object, and the flat entries that they lack. -/
def configOf (data : Context) : Context :=
  let nested := match data.get? "config" with
    | some (.object members) => Context.ofMembers members
    | _ => .empty
  nested.fill ((data.erase "label").erase "config")

/-- The node with an identifier, a type name and data. -/
def ofParts (id typeName : String) (data : Context) : Except DecodeError Node :=
  match Role.ofParts typeName (configOf data) with
  | .ok role => .ok ⟨id, labelOf data, role⟩
  | .error cause => .error (.badConfig id cause)

/-- The data of a node. -/
def data (n : Node) : Context :=
  match n.label? with
  | some label => n.role.config.insert "label" (.string label)
  | none => n.role.config

/-- The fields of a written node. -/
def fields : Fields (String × String × Context) :=
  (Fields.required "id" Decoder.string).both <|
    (Fields.required "type" Decoder.string).both <|
      Fields.defaulted "data" Decoder.context .empty

/-- Reads a node. -/
def decoder : Decoder Node := fun o d => do
  let (id, typeName, data) ← fields.decoder "RawNode" o d
  ofParts id typeName data

/-- The node as it is written. -/
def toJson (n : Node) : Json :=
  .object [("id", .string n.id), ("type", .string n.role.typeName), ("data", n.data.toJson)]

end Node

namespace Edge

/-- The fields of a written edge, whose identifier may be absent. -/
def fields : Fields (Option String × String × String × Option Bool × Option String) :=
  (Fields.defaulted "id" (fun o d => (Decoder.string o d).map some) none).both <|
    (Fields.required "source" Decoder.string).both <|
      (Fields.required "target" Decoder.string).both <|
        (Fields.defaulted "branch" (Decoder.optional Decoder.bool) none).both <|
          Fields.defaulted "sourceHandle" (Decoder.optional Decoder.string) none

/-- An edge that still needs an identifier. -/
abbrev Draft := String → Edge

/-- Reads an edge up to the identifier that it gets where it has none. -/
def draftDecoder : Decoder Draft :=
  (fields.map fun (id?, source, target, branch?, handle?) => fun fresh =>
    (⟨id?.getD fresh, source, target, branch?, handle?⟩ : Edge)).decoder "EdgeSpec"

/-- Reads an edge. -/
def decoder (fresh : String) : Decoder Edge := fun o d =>
  (draftDecoder o d).map fun draft => draft fresh

/-- Reads a list of edges; the edge at an index gets the fresh identifier of that index. -/
def listDecoder (fresh : Nat → String) : Decoder (List Edge) := fun o d =>
  (Decoder.list draftDecoder o d).map fun drafts =>
    drafts.zipIdx.map fun (draft, i) => draft (fresh i)

/-- The edge as it is written. -/
def toJson (e : Edge) : Json :=
  .object <|
    [("id", .string e.id), ("source", .string e.source), ("target", .string e.target)] ++
      (match e.branch? with
        | some branch => [("branch", .bool branch)]
        | none => []) ++
      Role.optionalText "sourceHandle" e.handle?

end Edge

namespace Workflow

/-- The fields of a written workflow. The fresh identifier at zero is for the workflow and
those after it are for its edges. -/
def fields (fresh : Nat → String) : Fields Workflow :=
  ((Fields.defaulted "id" Decoder.string ("wf-" ++ fresh 0)).both <|
    (Fields.defaulted "name" Decoder.string "").both <|
      (Fields.required "nodes" (Decoder.list Node.decoder)).both <|
        Fields.defaulted "edges" (Edge.listDecoder fun i => fresh (i + 1)) []).map
    fun (id, name, nodes, edges) => ⟨id, name, nodes, edges⟩

/-- Reads a workflow. -/
def decoder (fresh : Nat → String) : Decoder Workflow := (fields fresh).decoder "WorkflowGraph"

/-- The workflow that a text describes. -/
def ofText (fresh : Nat → String) (text : String) : Except WorkflowError Workflow :=
  ((decoder fresh).ofText text).mapError .malformed

/-- The workflow as it is written. -/
def toJson (w : Workflow) : Json :=
  .object
    [("id", .string w.id), ("name", .string w.name), ("nodes", .array (w.nodes.map Node.toJson)),
      ("edges", .array (w.edges.map Edge.toJson))]

end Workflow

end StepFlow
