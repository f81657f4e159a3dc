import StepFlow.Context

/-!
# Workflow graphs

A workflow is a list of nodes and a list of edges between them. A node has a role, which
says what happens when a run reaches it, and an edge may be labelled with the truth value of
the decision after which it is taken. This module has these types and the lookups by which a
run finds its way.
-/

namespace StepFlow

/-! ### Nodes -/

/-- What a node does. A type outside of the known ones is kept with its configuration, so
that the run that reaches it can report it. -/
inductive Role where
  | input
  | dataInput
  | decision (rule : String)
  | ruleEngine (rule : String)
  | action (what : String)
  | apiCall (endpoint : String) (method? : Option String)
  | dataTransform (transform : String) (field? : Option String)
  | judgment (prompt? : Option String)
  | notification (channel message : String)
  | output
  | resultOutput
  | unsupported (typeName : String) (config : Context)
deriving DecidableEq

namespace Role

/-- The type name of a role. -/
def typeName : Role → String
  | input => "input"
  | dataInput => "data-input"
  | decision _ => "decision"
  | ruleEngine _ => "rule-engine"
  | action _ => "action"
  | apiCall _ _ => "api-call"
  | dataTransform _ _ => "data-transform"
  | judgment _ => "llm-judgment"
  | notification _ _ => "notification"
  | output => "output"
  | resultOutput => "result-output"
  | unsupported typeName _ => typeName

/-- Whether a run can start at a node of this role. -/
def isEntry : Role → Bool
  | input => true
  | dataInput => true
  | _ => false

/-- Whether a run ends at a node of this role. -/
def isTerminal : Role → Bool
  | output => true
  | resultOutput => true
  | _ => false

/-- Whether the role is one of the known ones. -/
def isSupported : Role → Bool
  | unsupported _ _ => false
  | _ => true

/-- Whether a type name, in any of its spellings, is that of a role at which runs end. -/
def isTerminalType (typeName : String) : Bool :=
  typeName == "output" || typeName == "result-output" || typeName == "data-output"

end Role

/-- A node of a workflow. -/
structure Node where
  id : String
  label? : Option String
  role : Role
deriving DecidableEq

namespace Node

/-- The label of the node, or its identifier where it has none. -/
def displayName (n : Node) : String := n.label?.getD n.id

/-- The node under another label. -/
def withLabel (n : Node) (label : String) : Node := { n with label? := some label }

end Node

/-! ### Edges -/

/-- A directed edge between two nodes. The branch is the decision after which it is taken;
the name of the handle it leaves from can say the same. -/
structure Edge where
  id : String
  source : String
  target : String
  branch? : Option Bool
  handle? : Option String
deriving DecidableEq

namespace Edge

/-- An edge without a label, named for its ends. -/
def between (source target : String) : Edge :=
  ⟨source ++ "->" ++ target, source, target, none, none⟩

/-- The edge labelled with a decision. -/
def onBranch (e : Edge) (branch : Bool) : Edge := { e with branch? := some branch }

/-- The decision that the name of a handle stands for. -/
def handleLabel? : String → Option Bool
  | "true" => some true
  | "false" => some false
  | _ => none

/-- The decision that labels the edge: its branch, or what its handle stands for. -/
def label? (e : Edge) : Option Bool := e.branch? <|> e.handle?.bind handleLabel?

end Edge

/-! ### Workflows -/

/-- A workflow: nodes and edges in the order of their declaration. -/
structure Workflow where
  id : String
  name : String
  nodes : List Node
  edges : List Edge
deriving DecidableEq

namespace Workflow

/-- The first node with an identifier. -/
def node? (w : Workflow) (id : String) : Option Node := w.nodes.find? (·.id == id)

/-- The first node at which a run can start. -/
def entry? (w : Workflow) : Option Node := w.nodes.find? (·.role.isEntry)

/-- The edges that leave a node, in their order. -/
def outgoing (w : Workflow) (id : String) : List Edge := w.edges.filter (·.source == id)

/-- The edge by which a run leaves a node. After a decision it is the first edge with that
label, or else the first without a label; otherwise it is the first edge. -/
def exit? (w : Workflow) (id : String) : Option Bool → Option Edge
  | none => (w.outgoing id).head?
  | some branch =>
    (w.outgoing id).find? (·.label? == some branch) <|>
      (w.outgoing id).find? (·.label?.isNone)

/-- The node that follows a node. -/
def successor? (w : Workflow) (id : String) (branch? : Option Bool) : Option Node :=
  (w.exit? id branch?).bind fun e => w.node? e.target

end Workflow

end StepFlow
