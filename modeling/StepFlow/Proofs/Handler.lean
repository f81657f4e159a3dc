import Mathlib.Tactic.Common
import StepFlow.Handler.Dispatch
import StepFlow.Proofs.Context
import StepFlow.Runner.Exchange

/-!
# Executed nodes

What the log entry of an executed node tells about the node, whatever its configuration and
the data are.  `Outcome.Fits` collects what the role of a node fixes about the outcome of its
handler: whether the run ends, and the decision by which it goes on, which the handler also
writes into the data.  `Handler.perform_fits` proves it role by role, and everything about
executed nodes is read off from there.

Two frame properties follow.  Only nodes at which a run can start look at the initial data
(`Handler.execute_initialData`), and only a judgment depends on what is drawn at random
(`Handler.execute_drawn`).
-/

namespace StepFlow

/-! ## What a role fixes -/

namespace Role

/-- Whether a node of this role decides by which edge the run goes on. -/
def decides : Role → Bool
  | decision _ => true
  | ruleEngine _ => true
  | _ => false

/-- Whether a node of this role draws its result at random. -/
def draws : Role → Bool
  | judgment _ => true
  | _ => false

end Role

/-- The name under which a decision stands among the data. -/
def lastDecisionKey : String := "lastDecision"

/-- The decision that a step of a node came to: the last decision among its output where the
node is one that decides, and none otherwise. -/
inductive Decided (n : Node) (s : Step) : Option Bool → Prop
  | result {output : Context} {b : Bool} : n.role.decides = true → s.output? = some output →
      output.get? lastDecisionKey = some (.bool b) → Decided n s (some b)
  | undecided : n.role.decides = false → Decided n s none

/-- What the role of a node fixes about the outcome of its handler. -/
structure Outcome.Fits (role : Role) (o : Outcome) : Prop where
  /-- The run ends exactly at the roles at which runs end. -/
  halt_eq : o.halt = role.isTerminal
  /-- There is no decision where the role does not decide. -/
  branch_eq_none : role.decides = false → o.branch? = none
  /-- A decision also stands among the data. -/
  branch_eq_some : role.decides = true →
    ∃ b, o.branch? = some b ∧ o.patch.get? lastDecisionKey = some (.bool b)

/-- What is drawn at random for a step. -/
structure Draw where
  verdict : Verdict
  confidence : Binary64

/-- The readings of a clock, together with what is drawn at random. -/
def Readings.drawn (clock : Readings) (draw : Draw) : Readings :=
  { clock with verdict := draw.verdict, confidence := draw.confidence }

namespace Handler

variable {readings : Readings} {n : Node} {context initialData : Context}

/-- A rule that has a truth value writes it under the name of its role and as the last
decision, and hands it on. -/
theorem decide_eq_ok {key rule : String} {o : Outcome} (h : decide key rule context = .ok o) :
    ∃ b, o = ⟨.ofMembers [(key, .bool b), (lastDecisionKey, .bool b)], false, some b⟩ := by
  unfold decide at h
  cases hrule : requireSetting "rule" rule with
  | error fault => simp [hrule, bind, Except.bind] at h
  | ok trimmed =>
    cases hresult : (Rule.evaluate trimmed context).mapError StepFault.rule with
    | error fault => simp [hrule, hresult, bind, Except.bind] at h
    | ok b =>
      simp only [hrule, hresult, bind, Except.bind, Except.ok.injEq] at h
      exact ⟨b, h.symm⟩

/-- The outcome of a rule fits a role that decides and at which no run ends. -/
theorem fits_of_decide {key rule : String} {o : Outcome} {role : Role}
    (hdecides : role.decides = true) (hterminal : role.isTerminal = false)
    (h : decide key rule context = .ok o) : o.Fits role := by
  obtain ⟨b, rfl⟩ := decide_eq_ok h
  refine ⟨hterminal.symm, fun hnot => ?_, fun _ => ⟨b, rfl, ?_⟩⟩
  · rw [hdecides] at hnot
    cases hnot
  · simp only [Context.get?_ofMembers_cons, Context.get?_ofMembers_nil]
    simp [Json.canonical]

/-- An outcome that only patches the data fits a role that neither decides nor ends runs. -/
theorem fits_ofPatch {role : Role} (hdecides : role.decides = false)
    (hterminal : role.isTerminal = false) (patch : Context) :
    (Outcome.ofPatch patch).Fits role := by
  refine ⟨hterminal.symm, fun _ => rfl, fun hnot => ?_⟩
  rw [hdecides] at hnot
  cases hnot

/-- A handler that can fail and only patches the data fits such a role, too. -/
theorem fits_of_map_ofPatch {role : Role} {patch : Except StepFault Context} {o : Outcome}
    (hdecides : role.decides = false) (hterminal : role.isTerminal = false)
    (h : patch.map Outcome.ofPatch = .ok o) : o.Fits role := by
  cases patch with
  | error fault => cases h
  | ok patch =>
    cases h
    exact fits_ofPatch hdecides hterminal patch

/-- The outcome of a handler fits the role of its node. -/
theorem perform_fits {o : Outcome} (h : perform readings n context initialData = .ok o) :
    o.Fits n.role := by
  obtain ⟨id, label?, role⟩ := n
  unfold perform at h
  cases role with
  | input => cases h; exact fits_ofPatch rfl rfl _
  | dataInput => cases h; exact fits_ofPatch rfl rfl _
  | decision rule => exact fits_of_decide rfl rfl h
  | ruleEngine rule => exact fits_of_decide rfl rfl h
  | action what => exact fits_of_map_ofPatch rfl rfl h
  | apiCall endpoint method? => exact fits_of_map_ofPatch rfl rfl h
  | dataTransform transform field? => exact fits_of_map_ofPatch rfl rfl h
  | judgment prompt? => cases h; exact fits_ofPatch rfl rfl _
  | notification channel message => exact fits_of_map_ofPatch rfl rfl h
  | output => cases h; exact ⟨rfl, fun _ => rfl, fun hnot => by cases hnot⟩
  | resultOutput => cases h; exact ⟨rfl, fun _ => rfl, fun hnot => by cases hnot⟩
  | unsupported typeName config => cases h

/-! ## The log entry -/

@[simp] theorem execute_nodeId : (execute readings n context initialData).step.nodeId = n.id := by
  unfold execute
  split <;> rfl

@[simp] theorem execute_nodeType :
    (execute readings n context initialData).step.nodeType = n.role.typeName := by
  unfold execute
  split <;> rfl

@[simp] theorem execute_input :
    (execute readings n context initialData).step.input = context := by
  unfold execute
  split <;> rfl

@[simp] theorem execute_timestamp :
    (execute readings n context initialData).step.timestamp = readings.now := by
  unfold execute
  split <;> rfl

/-- A step that failed ends the run and leaves nothing behind but the text of its fault. -/
theorem execute_of_error (h : (execute readings n context initialData).step.status = .error) :
    (execute readings n context initialData).halt = true ∧
      (execute readings n context initialData).step.output? = none := by
  unfold execute at h ⊢
  split
  · rename_i hok
    simp [hok] at h
  · exact ⟨rfl, rfl⟩

/-- A step that did not fail succeeded; it ends the run where its role says so, and the
decision by which the run goes on is the one among its output. -/
theorem execute_of_ne_error (h : (execute readings n context initialData).step.status ≠ .error) :
    (execute readings n context initialData).step.status = .success ∧
      (execute readings n context initialData).halt = n.role.isTerminal ∧
      Decided n (execute readings n context initialData).step
        (execute readings n context initialData).branch? := by
  unfold execute at h ⊢
  split
  · rename_i o hok
    have hfits := perform_fits hok
    refine ⟨rfl, hfits.halt_eq, ?_⟩
    cases hdecides : n.role.decides with
    | false =>
      rw [hfits.branch_eq_none hdecides]
      exact .undecided hdecides
    | true =>
      obtain ⟨b, hbranch, hpatch⟩ := hfits.branch_eq_some hdecides
      rw [hbranch]
      exact .result hdecides rfl hpatch
  · rename_i hfault
    simp [hfault] at h

/-- The text of a failed step is that of a fault of its handler. -/
theorem execute_error? {text : String}
    (h : (execute readings n context initialData).step.error? = some text) :
    ∃ fault : StepFault, text = fault.message := by
  unfold execute at h
  split at h
  · cases h
  · rename_i fault _
    cases h
    exact ⟨fault, rfl⟩

/-- The type names of roles at which runs end are those of no other known role. -/
theorem isTerminalType_typeName {role : Role} (h : role.isSupported = true) :
    Role.isTerminalType role.typeName = role.isTerminal := by
  cases role with
  | unsupported typeName config => cases h
  | _ => simp [Role.isTerminalType, Role.typeName, Role.isTerminal]

/-- The run ends at a step exactly if the step failed or has the type name of a role at which
runs end, so that the step alone tells whether the run goes on. -/
theorem execute_halt :
    (execute readings n context initialData).halt =
      ((execute readings n context initialData).step.status == .error ||
        Role.isTerminalType (execute readings n context initialData).step.nodeType) := by
  by_cases hstatus : (execute readings n context initialData).step.status = .error
  · simp [hstatus, (execute_of_error hstatus).1]
  · have hne : ((execute readings n context initialData).step.status == .error) = false :=
      beq_false_of_ne hstatus
    have hsupported : n.role.isSupported = true := by
      cases hrole : n.role with
      | unsupported typeName config => simp [execute, perform, hrole] at hstatus
      | _ => rfl
    rw [(execute_of_ne_error hstatus).2.1, hne, Bool.false_or, execute_nodeType,
      isTerminalType_typeName hsupported]

/-! ## What an execution does not depend on -/

/-- Only nodes at which a run can start look at the data with which the run began. -/
theorem execute_initialData (h : n.role.isEntry = false) (initialData' : Context) :
    execute readings n context initialData = execute readings n context initialData' := by
  have hperform :
      perform readings n context initialData = perform readings n context initialData' := by
    unfold perform
    cases hrole : n.role with
    | input => simp [hrole, Role.isEntry] at h
    | dataInput => simp [hrole, Role.isEntry] at h
    | _ => rfl
  unfold execute
  rw [hperform]

/-- Beside the clock, only a judgment depends on what is read from outside. -/
theorem execute_drawn (h : n.role.draws = false) (clock : Readings) (draw draw' : Draw) :
    execute (clock.drawn draw) n context initialData =
      execute (clock.drawn draw') n context initialData := by
  have hperform : perform (clock.drawn draw) n context initialData =
      perform (clock.drawn draw') n context initialData := by
    unfold perform
    cases hrole : n.role with
    | judgment prompt? => simp [hrole, Role.draws] at h
    | _ => rfl
  unfold execute
  rw [hperform]
  rfl

end Handler

end StepFlow
