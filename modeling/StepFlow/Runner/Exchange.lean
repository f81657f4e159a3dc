import StepFlow.Graph.Format
import StepFlow.Run.Step

/-!
# Requests and replies

A step can be executed elsewhere. The request carries the whole workflow, the node to be
executed and the data at that moment; the reply carries what the step came to and the node
that follows. This module has both messages, their written form, and what can go wrong
between them.
-/

namespace StepFlow

/-! ### Requests -/

/-- The request to execute one step. -/
structure StepRequest where
  workflowId : String
  nodes : List Node
  edges : List Edge
  currentNodeId : String
  context : Context
deriving DecidableEq

namespace StepRequest

/-- The workflow that a request carries; it has no name. -/
def workflow (q : StepRequest) : Workflow := ⟨q.workflowId, "", q.nodes, q.edges⟩

/-- The request as it is written. -/
def toJson (q : StepRequest) : Json :=
  .object
    [("workflow_id", .string q.workflowId), ("nodes", .array (q.nodes.map Node.toJson)),
      ("edges", .array (q.edges.map Edge.toJson)), ("current_node_id", .string q.currentNodeId),
      ("context_snapshot", q.context.toJson)]

/-- The fields of a written request. -/
def fields (fresh : Nat → String) : Fields StepRequest :=
  ((Fields.required "workflow_id" Decoder.string).both <|
    (Fields.required "nodes" (Decoder.list Node.decoder)).both <|
      (Fields.required "edges" (Edge.listDecoder fresh)).both <|
        (Fields.required "current_node_id" Decoder.string).both <|
          Fields.required "context_snapshot" Decoder.context).map
    fun (workflowId, nodes, edges, currentNodeId, context) =>
      ⟨workflowId, nodes, edges, currentNodeId, context⟩

/-- Reads a request, in which the data may also go by the name `global_data`. -/
def decoder (fresh : Nat → String) : Decoder StepRequest := fun o d =>
  (fields fresh).decoder "StepRequest" o (d.renameKey "global_data" "context_snapshot")

end StepRequest

/-! ### Replies -/

/-- The reply to a request. -/
structure StepReply where
  nodeId : String
  nodeName : String
  nodeType : String
  status : StepStatus
  input : Context
  output? : Option Context
  error? : Option String
  elapsedMs : UInt64
  nextNodeId? : Option String
deriving DecidableEq

namespace StepReply

/-- The reply that reports a step and the node that follows it. -/
def ofStep (s : Step) (nextNodeId? : Option String) : StepReply where
  nodeId := s.nodeId
  nodeName := s.nodeName
  nodeType := s.nodeType
  status := s.status
  input := s.input
  output? := s.output?
  error? := s.error?
  elapsedMs := s.elapsedMs
  nextNodeId? := nextNodeId?

/-- The log entry that a reply makes at a given time. -/
def toStep (p : StepReply) (timestamp : Instant) : Step where
  nodeId := p.nodeId
  nodeName := p.nodeName
  nodeType := p.nodeType
  status := p.status
  input := p.input
  output? := p.output?
  error? := p.error?
  elapsedMs := p.elapsedMs
  timestamp := timestamp

/-- The reply as it is written. -/
def toJson (p : StepReply) : Json :=
  .object
    [("node_id", .string p.nodeId), ("node_name", .string p.nodeName),
      ("node_type", .string p.nodeType), ("status", .string p.status.name),
      ("input", p.input.toJson), ("output", Step.optionalContext p.output?),
      ("error", .ofString? p.error?), ("execution_time_ms", .ofUInt64 p.elapsedMs),
      ("next_node_id", .ofString? p.nextNodeId?)]

/-- The fields of a written reply. -/
def fields : Fields StepReply :=
  ((Fields.required "node_id" Decoder.string).both <|
    (Fields.required "node_name" Decoder.string).both <|
      (Fields.required "node_type" Decoder.string).both <|
        (Fields.required "status" StepStatus.decoder).both <|
          (Fields.defaulted "input" Decoder.context .empty).both <|
            (Fields.defaulted "output" (Decoder.optional Decoder.context) none).both <|
              (Fields.defaulted "error" (Decoder.optional Decoder.string) none).both <|
                (Fields.defaulted "execution_time_ms" Decoder.uint64 0).both <|
                  Fields.defaulted "next_node_id" (Decoder.optional Decoder.string) none).map
    fun (nodeId, nodeName, nodeType, status, input, output?, error?, elapsedMs, nextNodeId?) =>
      ⟨nodeId, nodeName, nodeType, status, input, output?, error?, elapsedMs, nextNodeId?⟩

/-- Reads a reply. -/
def decoder : Decoder StepReply := fields.decoder "StepResponse"

end StepReply

/-! ### Faults on the way -/

/-- Why a request has no reply that can be used. -/
inductive TransportFault where
  | timeout (ms : UInt64)
  | failure (message : String)
  | malformed (message : String)
deriving DecidableEq

/-- The wording of a fault. -/
def TransportFault.message : TransportFault → String
  | timeout ms => "step request timed out after " ++ toString ms.toNat ++ "ms"
  | failure message => "transport failure: " ++ message
  | malformed message => "malformed step reply: " ++ message

/-- What comes back for a request; it may be nothing at all. -/
inductive Answer where
  | reply (reply : StepReply)
  | fault (fault : TransportFault)
  | silence
deriving DecidableEq

/-- Whatever answers requests. -/
abbrev Transport := StepRequest → Answer

/-- The answer as a runner sees it that waits no longer than the given time. -/
def Answer.within (timeoutMs : UInt64) : Answer → Except TransportFault StepReply
  | reply p => .ok p
  | fault f => .error f
  | silence => .error (.timeout timeoutMs)

end StepFlow
