import Mathlib.Tactic.Common
import StepFlow.Proofs.Graph
import StepFlow.Proofs.Runner.Remote
import StepFlow.Proofs.Runner.Threading

/-!
# Which steps count for the data

A step has one of five statuses.  The local runner logs only steps that succeeded or failed, but a
reply can report any status, and with any of them an output.  `Run.context_overwrittenBy_unfailed`
says which outputs get into the data: those of all steps that did not fail, so also of steps that
are pending, running or were skipped.  Only where such steps come without output are the data those
that the successful steps alone would give; `Run.skipped_output_counts` is a run in which they are
not.
-/

namespace StepFlow.Run

variable {w : Workflow} {initialData : Context}

/-- A run after steps have been logged one after the other, each with its demand for a halt. -/
def commitAll (r : Run) (entries : List (Step × Bool)) : Run :=
  entries.foldl (fun r e => r.commit e.1 e.2) r

/-- Logged steps patch the data in their order, whatever they demand. -/
theorem context_commitAll (r : Run) (entries : List (Step × Bool)) :
    (r.commitAll entries).context = (entries.map (·.1)).foldl patched r.context := by
  induction entries generalizing r with
  | nil => rfl
  | cons e rest ih => exact ih (r.commit e.1 e.2)

/-- Patching by steps is overwriting by the outputs of those that did not fail. -/
theorem foldl_patched_eq_unfailed (steps : List Step) (c : Context) :
    steps.foldl patched c = c.overwrittenBy (steps.filter (·.status ≠ .error)) := by
  have hskipped : ∀ s ∈ steps, decide (s.status ≠ .error) = false → s.status = .error := by
    intro s _ hs
    simpa using hs
  have hkept : ∀ s ∈ steps.filter (·.status ≠ .error), s.status = .error → s.output? = none := by
    intro s hs hstatus
    have hne : s.status ≠ .error := by simpa using (List.mem_filter.1 hs).2
    exact absurd hstatus hne
  rw [← foldl_patched_filter hskipped]
  exact foldl_patched_eq_overwrittenBy hkept c

/-- Steps without output do not count, so that it makes no difference whether they are left out. -/
theorem overwrittenBy_success {steps : List Step} (c : Context)
    (h : ∀ s ∈ steps, s.status = .success ∨ s.status = .error ∨ s.output? = none) :
    c.overwrittenBy (steps.filter (·.status ≠ .error)) =
      c.overwrittenBy (steps.filter (·.status = .success)) := by
  unfold Context.overwrittenBy
  congr 1
  induction steps with
  | nil => rfl
  | cons s rest ih =>
    have hrest := ih fun t ht => h t (List.mem_cons_of_mem _ ht)
    rcases h s List.mem_cons_self with hstatus | hstatus | houtput
    · cases houtput : s.output? <;> simpa [hstatus, houtput] using hrest
    · simpa [hstatus] using hrest
    · by_cases herror : s.status = .error <;> by_cases hsuccess : s.status = .success <;>
        simpa [herror, hsuccess, houtput] using hrest

/-- The data of a run are the initial data overwritten in order by the outputs of the steps that did
not fail: after any steps, of any status and with or without output, have been logged, and so in
every state of the remote runner, whatever answers its requests.  Where only steps that succeeded or
failed have an output, these are the outputs of the steps that succeeded. -/
theorem context_overwrittenBy_unfailed (w : Workflow) (initialData : Context) :
    (∀ entries : List (Step × Bool),
      ((new initialData).commitAll entries).context =
        initialData.overwrittenBy ((entries.map (·.1)).filter (·.status ≠ .error))) ∧
    ∀ timeoutMs r, RemoteRunner.Reachable w initialData timeoutMs r →
      r.run.context = initialData.overwrittenBy (r.run.steps.filter (·.status ≠ .error)) ∧
      ((∀ s ∈ r.run.steps, s.status = .success ∨ s.status = .error ∨ s.output? = none) →
        r.run.context = initialData.overwrittenBy (r.run.steps.filter (·.status = .success))) := by
  constructor
  · intro entries
    rw [context_commitAll]
    exact foldl_patched_eq_unfailed _ initialData
  · intro timeoutMs r hr
    have hcontext : r.run.context =
        initialData.overwrittenBy (r.run.steps.filter (·.status ≠ .error)) := by
      rw [hr.run.context_eq]
      exact foldl_patched_eq_unfailed _ initialData
    exact ⟨hcontext, fun hsteps => hcontext.trans (overwrittenBy_success initialData hsteps)⟩

/-- A reply for the node `in` that reports a skipped step, and yet has an output. -/
def skippedReply : StepReply where
  nodeId := "in"
  nodeName := "in"
  nodeType := "input"
  status := .skipped
  input := .single "hot" (.bool true)
  output? := some (.single "hot" (.bool false))
  error? := none
  elapsedMs := 0
  nextNodeId? := none

/-- A remote run whose only step was skipped has the output of that step among its data. -/
theorem context_overwrittenBy_unfailed_skipped :
    ∃ r, RemoteRunner.Reachable Workflow.fork (.single "hot" (.bool true)) 30000 r ∧
      r.run.steps.map (·.status) = [.skipped] ∧
      r.run.context.get? "hot" = some (.bool false) ∧
      r.run.context = (Context.single "hot" (.bool true)).overwrittenBy
        (r.run.steps.filter (·.status ≠ .error)) := by
  obtain ⟨r, hr, hsteps, hdata⟩ : ∃ r,
      RemoteRunner.Reachable Workflow.fork (.single "hot" (.bool true)) 30000 r ∧
        r.run.steps.map (·.status) = [.skipped] ∧
        r.run.context.get? "hot" = some (.bool false) :=
    ⟨_, RemoteRunner.Reachable.new.apply Readings.still.now (fun _ => .reply skippedReply) .start,
      by decide +kernel, by decide +kernel⟩
  have hcontext := ((context_overwrittenBy_unfailed _ _).2 30000 r hr).1
  exact ⟨r, hr, hsteps, hdata, hcontext⟩

/-- The data of a remote run are not always the initial data overwritten by the outputs of the steps
that succeeded: the output of a skipped step counts, too, also where it is logged by itself. -/
theorem skipped_output_counts :
    (∃ s : Step, s.status = .skipped ∧
      ((new (.single "hot" (.bool true))).commitAll [(s, false)]).context ≠
        (Context.single "hot" (.bool true)).overwrittenBy ([s].filter (·.status = .success))) ∧
    ∃ r, RemoteRunner.Reachable Workflow.fork (.single "hot" (.bool true)) 30000 r ∧
      r.run.context ≠ (Context.single "hot" (.bool true)).overwrittenBy
        (r.run.steps.filter (·.status = .success)) := by
  constructor
  · exact ⟨skippedReply.toStep Readings.still.now, rfl, by decide +kernel⟩
  · exact ⟨_, RemoteRunner.Reachable.new.apply Readings.still.now
      (fun _ => .reply skippedReply) .start, by decide +kernel⟩

end StepFlow.Run
