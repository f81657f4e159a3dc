import StepFlow.Handler.Dispatch
import StepFlow.Run.State

/-!
# The local runner

A runner executes a workflow one node at a time, each when it is asked to step forward. The
local runner executes the nodes itself. Stepping back only moves the cursor over the log,
and stepping forward again catches up with the log before anything new is executed.
-/

namespace StepFlow

/-- What a runner can be asked to do. -/
inductive Operation where
  | start
  | forward
  | back
  | pause
  | resume
  | reset
deriving DecidableEq, Repr

/-- Why a run cannot start. -/
inductive StartFault where
  | noInputNode
deriving DecidableEq, Repr

/-- The wording of a fault. -/
def StartFault.message : StartFault → String
  | noInputNode => "workflow has no input node"

/-- A runner that executes nodes itself. It remembers the decision of the last step. -/
structure LocalRunner where
  workflow : Workflow
  initialData : Context
  run : Run
  lastBranch? : Option Bool
deriving DecidableEq

namespace LocalRunner

/-- A runner that has not started. -/
def new (workflow : Workflow) (initialData : Context) : LocalRunner :=
  ⟨workflow, initialData, .new initialData, none⟩

/-- Executes a node and logs it. -/
def execute (readings : Readings) (r : LocalRunner) (n : Node) : LocalRunner :=
  let done := Handler.execute readings n r.run.context r.initialData
  { r with run := r.run.commit done.step done.halt, lastBranch? := done.branch? }

/-- Forgets the run. -/
def reset (r : LocalRunner) : LocalRunner := new r.workflow r.initialData

/-- Begins a new run at the first node that can start one. -/
def start (readings : Readings) (r : LocalRunner) : Except StartFault LocalRunner :=
  match r.workflow.entry? with
  | none => .error .noInputNode
  | some entry =>
    let fresh := r.reset
    .ok (execute readings { fresh with run := { fresh.run with isRunning := true } } entry)

/-- The node that follows the last step. -/
def next? (r : LocalRunner) : Option Node :=
  r.run.lastStep?.bind fun last => r.workflow.successor? last.nodeId r.lastBranch?

/-- Catches up with the log by one step, or executes the next node, or ends the run where
there is none. -/
def forward (readings : Readings) (r : LocalRunner) : LocalRunner :=
  if !r.run.isRunning then r
  else
    match r.run.reviewForward? with
    | some run => { r with run := run }
    | none =>
      match r.next? with
      | some n => execute readings r n
      | none => { r with run := { r.run with isRunning := false } }

/-- Moves the cursor back. -/
def back (r : LocalRunner) : LocalRunner := { r with run := r.run.stepBack }

/-- Marks the run as paused. -/
def pause (r : LocalRunner) : LocalRunner := { r with run := { r.run with isPaused := true } }

/-- Takes the mark off. -/
def resume (r : LocalRunner) : LocalRunner := { r with run := { r.run with isPaused := false } }

/-- The runner after an operation; a start that fails changes nothing. -/
def apply (readings : Readings) (r : LocalRunner) : Operation → LocalRunner
  | .start =>
    match r.start readings with
    | .ok started => started
    | .error _ => r
  | .forward => r.forward readings
  | .back => r.back
  | .pause => r.pause
  | .resume => r.resume
  | .reset => r.reset

end LocalRunner

end StepFlow
