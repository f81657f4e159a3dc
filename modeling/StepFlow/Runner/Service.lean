import StepFlow.Handler.Dispatch
import StepFlow.Runner.Exchange

/-!
# The step service

The other end of a request: it executes the requested node on the data that the request
carries and names the node that follows. Input nodes take their data from the request, too.
-/

namespace StepFlow.Service

/-- The reply to a request, or the fault of a request for a node that it does not have. -/
def handle (readings : Readings) (q : StepRequest) : Except TransportFault StepReply :=
  let w := q.workflow
  match w.node? q.currentNodeId with
  | none => .error (.malformed ("unknown node " ++ q.currentNodeId))
  | some n =>
    let done := Handler.execute readings n q.context q.context
    let next? := if done.halt then none else (w.successor? n.id done.branch?).map (·.id)
    .ok (.ofStep done.step next?)

/-- The service as a transport that needs no network. -/
def transport (readings : Readings) : Transport := fun q =>
  match handle readings q with
  | .ok reply => .reply reply
  | .error fault => .fault fault

end StepFlow.Service
