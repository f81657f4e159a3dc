import StepFlow.Run.Step

/-!
# The state of a run

A run owns the log of its steps and the data that the steps have built up. A cursor points
at the step that is being looked at: it can be moved back and forth over the log without any
effect on the run itself.
-/

namespace StepFlow

/-- Where a run stands. -/
inductive Phase where
  | idle
  | running
  | paused
  | completed
  | errored
deriving DecidableEq, Repr

/-- The name of a phase. -/
def Phase.name : Phase → String
  | idle => "idle"
  | running => "running"
  | paused => "paused"
  | completed => "completed"
  | errored => "errored"

/-- The observable state of a run. The cursor is the index of the step that is looked at,
or `-1` before the first one. -/
structure Run where
  steps : List Step
  cursor : Int
  isRunning : Bool
  isPaused : Bool
  context : Context
deriving DecidableEq

namespace Run

/-- A run that has not started. -/
def new (initialData : Context) : Run := ⟨[], -1, false, false, initialData⟩

/-! ### Views -/

/-- Whether a step of the run failed. -/
def hasFailed (r : Run) : Bool := r.steps.any Step.hasFailed

/-- The phase of the run. -/
def phase (r : Run) : Phase :=
  if r.isRunning then if r.isPaused then .paused else .running
  else if r.steps.isEmpty then .idle
  else if r.hasFailed then .errored
  else .completed

/-- The index of the last step, or `-1` if there is none. -/
def lastIndex (r : Run) : Int := r.steps.length - 1

/-- Whether the cursor points at a step before the last one. -/
def isReviewing (r : Run) : Bool := r.cursor < r.lastIndex

/-- The step under the cursor. -/
def currentStep? (r : Run) : Option Step :=
  if 0 ≤ r.cursor then r.steps[r.cursor.toNat]? else none

/-- The last step. -/
def lastStep? (r : Run) : Option Step := r.steps.getLast?

/-! ### Operations -/

/-- What a step adds to the data: its output, unless it failed. -/
def patched (context : Context) (s : Step) : Context :=
  if s.hasFailed then context
  else
    match s.output? with
    | some patch => context.override patch
    | none => context

/-- Appends a step, merges its output into the data and moves the cursor onto it. A failed
step stops the run, and so does a step that asks for a halt. -/
def commit (r : Run) (s : Step) (halt : Bool) : Run where
  steps := r.steps ++ [s]
  cursor := r.steps.length
  isRunning := if s.hasFailed || halt then false else r.isRunning
  isPaused := r.isPaused
  context := patched r.context s

/-- Moves the cursor back by one step, but not off the first one. -/
def stepBack (r : Run) : Run :=
  if 0 < r.cursor then { r with cursor := r.cursor - 1 } else r

/-- Moves the cursor forward by one step that has been executed already, if there is one. -/
def reviewForward? (r : Run) : Option Run :=
  if r.isReviewing then some { r with cursor := r.cursor + 1 } else none

/-- The run as it is written. -/
def toJson (r : Run) : Json :=
  .object
    [("steps", .array (r.steps.map Step.toJson)), ("cursor", .ofInt r.cursor),
      ("is_running", .bool r.isRunning), ("is_paused", .bool r.isPaused),
      ("context", r.context.toJson)]

/-- The fields of a written run. -/
def fields : Fields Run :=
  ((Fields.required "steps" (Decoder.list Step.decoder)).both <|
    (Fields.required "cursor" Decoder.int64).both <|
      (Fields.required "is_running" Decoder.bool).both <|
        (Fields.required "is_paused" Decoder.bool).both <|
          Fields.required "context" Decoder.context).map
    fun (steps, cursor, isRunning, isPaused, context) =>
      ⟨steps, cursor, isRunning, isPaused, context⟩

/-- Reads a run. -/
def decoder : Decoder Run := fields.decoder "RunState"

end Run

end StepFlow
