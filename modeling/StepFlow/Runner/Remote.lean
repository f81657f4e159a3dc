import StepFlow.Run.State
import StepFlow.Runner.Exchange
import StepFlow.Runner.Local

/-!
# The remote runner

A runner that has every step executed elsewhere. Each reply names the node that follows, and
the runner keeps that name until it is asked to step forward. A request without a usable
reply makes an error step, at which the run ends.
-/

namespace StepFlow

/-- A runner that delegates its steps. -/
structure RemoteRunner where
  workflow : Workflow
  initialData : Context
  run : Run
  nextNodeId? : Option String
  timeoutMs : UInt64
deriving DecidableEq

namespace RemoteRunner

/-- How long a runner waits for a reply unless it is told otherwise. -/
def defaultTimeoutMs : UInt64 := 30000

/-- A runner that has not started. -/
def new (workflow : Workflow) (initialData : Context) (timeoutMs : UInt64) : RemoteRunner :=
  ⟨workflow, initialData, .new initialData, none, timeoutMs⟩

/-- The request for a node at the present data. -/
def request (r : RemoteRunner) (nodeId : String) : StepRequest :=
  ⟨r.workflow.id, r.workflow.nodes, r.workflow.edges, nodeId, r.run.context⟩

/-- The reply, if it is for the node that was asked for. -/
def checkReply (requested : String) (p : StepReply) : Except TransportFault StepReply :=
  if p.nodeId = requested then .ok p
  else
    .error <| .malformed <|
      "reply for node " ++ p.nodeId ++ " while " ++ requested ++ " was requested"

/-- The error step of a node whose request had no usable reply. -/
def failedStep (now : Instant) (r : RemoteRunner) (nodeId : String) (fault : TransportFault) :
    Step where
  nodeId := nodeId
  nodeName := ((r.workflow.node? nodeId).map Node.displayName).getD nodeId
  nodeType := ((r.workflow.node? nodeId).map (·.role.typeName)).getD "unknown"
  status := .error
  input := r.run.context
  output? := none
  error? := some fault.message
  elapsedMs := 0
  timestamp := now

/-- Logs what came back for a request. -/
def receive (now : Instant) (r : RemoteRunner) (nodeId : String) (answer : Answer) :
    RemoteRunner :=
  match (answer.within r.timeoutMs).bind (checkReply nodeId) with
  | .ok reply =>
    let halt := reply.status == .error || Role.isTerminalType reply.nodeType
    { r with run := r.run.commit (reply.toStep now) halt, nextNodeId? := reply.nextNodeId? }
  | .error fault =>
    { r with run := r.run.commit (r.failedStep now nodeId fault) true, nextNodeId? := none }

/-- Forgets the run. -/
def reset (r : RemoteRunner) : RemoteRunner := new r.workflow r.initialData r.timeoutMs

/-! ### Operations in two halves

An operation may send one request. Its first half gives the runner that waits for the answer
and the node that is asked for; `receive` is its second half. -/

/-- A runner in the middle of an operation, with the node that it waits for, if any. -/
structure Pending where
  runner : RemoteRunner
  nodeId? : Option String

/-- The first half of a start. -/
def beginStart (r : RemoteRunner) : Except StartFault Pending :=
  match r.workflow.entry? with
  | none => .error .noInputNode
  | some entry =>
    let fresh := r.reset
    .ok ⟨{ fresh with run := { fresh.run with isRunning := true } }, some entry.id⟩

/-- The first half of a step forward. -/
def beginForward (r : RemoteRunner) : Pending :=
  if !r.run.isRunning then ⟨r, none⟩
  else
    match r.run.reviewForward? with
    | some run => ⟨{ r with run := run }, none⟩
    | none =>
      match r.nextNodeId? with
      | some nodeId => ⟨{ r with nextNodeId? := none }, some nodeId⟩
      | none => ⟨{ r with run := { r.run with isRunning := false } }, none⟩

/-- Moves the cursor back. -/
def back (r : RemoteRunner) : RemoteRunner := { r with run := r.run.stepBack }

/-- Marks the run as paused. -/
def pause (r : RemoteRunner) : RemoteRunner := { r with run := { r.run with isPaused := true } }

/-- Takes the mark off. -/
def resume (r : RemoteRunner) : RemoteRunner := { r with run := { r.run with isPaused := false } }

/-- The first half of an operation; a start that fails changes nothing. -/
def begin (r : RemoteRunner) : Operation → Pending
  | .start =>
    match r.beginStart with
    | .ok pending => pending
    | .error _ => ⟨r, none⟩
  | .forward => r.beginForward
  | .back => ⟨r.back, none⟩
  | .pause => ⟨r.pause, none⟩
  | .resume => ⟨r.resume, none⟩
  | .reset => ⟨r.reset, none⟩

namespace Pending

/-- The request that is sent, if any. -/
def request? (p : Pending) : Option StepRequest := p.nodeId?.map p.runner.request

/-- The second half of an operation, with an answer for the request that was sent. -/
def finish (now : Instant) (p : Pending) (transport : Transport) : RemoteRunner :=
  match p.nodeId? with
  | some nodeId => p.runner.receive now nodeId (transport (p.runner.request nodeId))
  | none => p.runner

end Pending

/-- Begins a new run at the first node that can start one. -/
def start (now : Instant) (transport : Transport) (r : RemoteRunner) :
    Except StartFault RemoteRunner :=
  r.beginStart.map fun pending => pending.finish now transport

/-- Catches up with the log by one step, or has the next node executed, or ends the run where
there is none. -/
def forward (now : Instant) (transport : Transport) (r : RemoteRunner) : RemoteRunner :=
  r.beginForward.finish now transport

/-- The runner after an operation. -/
def apply (now : Instant) (transport : Transport) (r : RemoteRunner) (op : Operation) :
    RemoteRunner :=
  (r.begin op).finish now transport

end RemoteRunner

end StepFlow
