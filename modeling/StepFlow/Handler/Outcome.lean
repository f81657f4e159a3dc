import StepFlow.Graph.Basic
import StepFlow.Rule.Error
import StepFlow.Run.Step

/-!
# Outcomes of handlers

What a node gives when a run reaches it: a patch of the data, or a fault. What a handler
takes from outside the workflow, the time of day and a drawn judgment, is handed to it.
-/

namespace StepFlow

/-- The judgments that a model can pass. -/
inductive Verdict where
  | pass
  | fail
  | review
deriving DecidableEq, Repr

/-- The name of a judgment. -/
def Verdict.name : Verdict → String
  | pass => "pass"
  | fail => "fail"
  | review => "review"

/-- What a step takes from outside: the time, how long it took, and a drawn judgment. -/
structure Readings where
  now : Instant
  elapsedMs : UInt64
  verdict : Verdict
  confidence : Binary64

/-- The readings of a clock that stands still. -/
def Readings.still : Readings := ⟨.epoch, 0, .pass, .zero false⟩

/-- What a handler gives: a patch of the data, whether the run ends here, and the decision
that picks the edge to leave by. -/
structure Outcome where
  patch : Context
  halt : Bool
  branch? : Option Bool
deriving DecidableEq

/-- An outcome that only patches the data. -/
def Outcome.ofPatch (patch : Context) : Outcome := ⟨patch, false, none⟩

/-- Why a step failed. -/
inductive StepFault where
  | unsupportedRole (typeName : String)
  /-- A setting of the node is blank. -/
  | missing (setting : String)
  | rule (cause : RuleError)
deriving DecidableEq

/-- The wording of a fault. -/
def StepFault.message : StepFault → String
  | unsupportedRole typeName => "unsupported node type: " ++ typeName
  | missing setting => "handler error: missing " ++ setting
  | rule cause => cause.message

/-- A setting without the blanks around it, unless nothing else is there. -/
def requireSetting (setting value : String) : Except StepFault String :=
  let trimmed := Text.trim value
  if trimmed.isEmpty then .error (.missing setting) else .ok trimmed

end StepFlow
