import StepFlow.Decode.Error
import StepFlow.Graph.Basic

/-!
# Valid workflows

A workflow is valid if no two nodes share an identifier and every edge joins two of its
nodes. The check names the first offender: a repeated node before a dangling edge, and of an
edge its source before its target.
-/

namespace StepFlow

/-- Why a workflow cannot be used. -/
inductive WorkflowError where
  | duplicateNode (id : String)
  | danglingEdge (edge node : String)
  | malformed (cause : DecodeError)
deriving DecidableEq

/-- The wording of an error. -/
def WorkflowError.message : WorkflowError → String
  | duplicateNode id => "duplicate node id: " ++ id
  | danglingEdge edge node => "edge " ++ edge ++ " references unknown node " ++ node
  | malformed cause => "malformed workflow json: " ++ cause.message

namespace Workflow

/-- The first text of a list that occurred before it or among those already seen. -/
def firstRepeated? (seen : List String) : List String → Option String
  | [] => none
  | id :: rest => if id ∈ seen then some id else firstRepeated? (id :: seen) rest

/-- The end of an edge that is not among the known identifiers, the source first. -/
def unknownEnd? (known : List String) (e : Edge) : Option String :=
  [e.source, e.target].find? (· ∉ known)

/-- The first edge with an unknown end, and that end. -/
def firstDangling? (known : List String) : List Edge → Option (String × String)
  | [] => none
  | e :: rest =>
    match unknownEnd? known e with
    | some id => some (e.id, id)
    | none => firstDangling? known rest

/-- Checks that the workflow is valid. -/
def validate (w : Workflow) : Except WorkflowError Unit :=
  let ids := w.nodes.map (·.id)
  match firstRepeated? [] ids with
  | some id => .error (.duplicateNode id)
  | none =>
    match firstDangling? ids w.edges with
    | some (edge, node) => .error (.danglingEdge edge node)
    | none => .ok ()

end Workflow

end StepFlow
