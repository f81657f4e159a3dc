import Mathlib.Data.List.Chain
import StepFlow.Proofs.Graph
import StepFlow.Proofs.Handler
import StepFlow.Proofs.Runner.Local

/-!
# The log as a walk

The log of the local runner is a walk of the workflow: it begins at the entry, and each step is
followed by the target of the edge that its own result chooses.  The runner does not look the
result up in the log, it remembers the decision of the last step beside it.  The invariant
`LocalRunner.Walking` therefore says of the last step that the remembered decision is the one
among its output, and that the mark that the run goes on agrees with the role of its node.

The main result is `log_isWalk_of_reachable`, for all valid workflows, with cycles and any
labels on their edges.
-/

namespace StepFlow

/-! ## Steps that follow each other -/

namespace Workflow

/-- A run goes on from one step to another: the first succeeded at a node where runs do not end,
and the second is at the target of the edge by which the first leaves, which is never labelled
with the opposite of its decision. -/
def Continues (w : Workflow) (s t : Step) : Prop :=
  s.status = .success ∧
    ∃ n branch? e, w.node? s.nodeId = some n ∧ n.role.isTerminal = false ∧
      Decided n s branch? ∧ w.Exit n.id branch? e ∧ t.nodeId = e.target ∧
      ∀ b, branch? = some b → e.label? ≠ some (!b)

/-- A run ends at a step: its node is one where runs end, or there is no edge by which the run
can leave after its decision. -/
def Ends (w : Workflow) (s : Step) : Prop :=
  ∃ n, w.node? s.nodeId = some n ∧
    (n.role.isTerminal = true ∨ ∃ branch?, Decided n s branch? ∧ ∀ e, ¬w.Exit n.id branch? e)

end Workflow

namespace LocalRunner

variable {w : Workflow} {initialData : Context} {readings : Readings} {op : Operation}
  {r r' : LocalRunner} {s : Step} {n : Node}

/-! ## The remembered decision -/

/-- The runner agrees with its last step: it remembers the decision of that step, and the run
goes on unless it has nowhere to go from there. -/
structure Settled (w : Workflow) (r : LocalRunner) (s : Step) (n : Node) : Prop where
  /-- The step succeeded. -/
  status_eq : s.status = .success
  /-- Its node is one of the workflow. -/
  node?_eq : w.node? s.nodeId = some n
  /-- The remembered decision is that of the step. -/
  decided : Decided n s r.lastBranch?
  /-- A run that goes on has not come to its end. -/
  running : r.run.isRunning = true → n.role.isTerminal = false
  /-- A run that has stopped has nowhere to go. -/
  stopped : r.run.isRunning = false →
    n.role.isTerminal = true ∨ ∀ e, ¬w.Exit n.id r.lastBranch? e

/-- The log is a walk, and the runner agrees with its last step. -/
structure Walking (w : Workflow) (r : LocalRunner) : Prop where
  /-- The first step is at the entry. -/
  head : ∀ s, r.run.steps.head? = some s → ∃ n, w.entry? = some n ∧ s.nodeId = n.id
  /-- Every step goes on to the next one. -/
  chain : r.run.steps.IsChain w.Continues
  /-- The last step is settled unless it failed. -/
  last : ∀ s, r.run.lastStep? = some s → s.status ≠ .error → ∃ n, r.Settled w s n

/-- The invariant looks at the log, the remembered decision and the mark that the run goes on. -/
theorem Walking.congr (h : r.Walking w) (hsteps : r'.run.steps = r.run.steps)
    (hbranch : r'.lastBranch? = r.lastBranch?) (hrunning : r'.run.isRunning = r.run.isRunning) :
    r'.Walking w where
  head := by rw [hsteps]; exact h.head
  chain := by rw [hsteps]; exact h.chain
  last := fun s hlast hstatus => by
    rw [Run.lastStep?, hsteps] at hlast
    obtain ⟨n, hn⟩ := h.last s hlast hstatus
    refine ⟨n, hn.status_eq, hn.node?_eq, ?_, ?_, ?_⟩
    · rw [hbranch]; exact hn.decided
    · rw [hrunning]; exact hn.running
    · rw [hrunning, hbranch]; exact hn.stopped

/-- A runner without a log is walking. -/
theorem walking_of_no_steps (h : r.run.steps = []) : r.Walking w where
  head := fun s hs => by rw [h] at hs; cases hs
  chain := by rw [h]; exact List.isChain_nil
  last := fun s hs => by rw [Run.lastStep?, h] at hs; cases hs

/-! ## Executed nodes -/

/-- A node of a valid workflow that is executed by a run that goes on is settled unless it
failed. -/
theorem settled_execute (hvalid : w.IsValid) (hn : n ∈ w.nodes) (hrunning : r.run.isRunning = true)
    (hstatus : (Handler.execute readings n r.run.context r.initialData).step.status ≠ .error) :
    (execute readings r n).Settled w
      (Handler.execute readings n r.run.context r.initialData).step n := by
  obtain ⟨hsuccess, hhalt, hdecided⟩ := Handler.execute_of_ne_error hstatus
  have hgoesOn : (execute readings r n).run.isRunning = !n.role.isTerminal := by
    simp [execute, Run.commit, Step.hasFailed, hsuccess, hhalt, hrunning]
  refine ⟨hsuccess, ?_, hdecided, fun hrun => ?_, fun hstop => .inl ?_⟩
  · rw [Handler.execute_nodeId]
    exact hvalid.node?_id hn
  · simpa [hgoesOn] using hrun
  · simpa [hgoesOn] using hstop

/-- The walk goes on by an executed node if the last step leads there, or at the entry if there
is no step yet. -/
theorem Walking.execute (h : r.Walking w) (hvalid : w.IsValid) (hn : n ∈ w.nodes)
    (hrunning : r.run.isRunning = true) (hhead : r.run.steps = [] → w.entry? = some n)
    (hlink : ∀ s t, r.run.lastStep? = some s → t.nodeId = n.id → w.Continues s t) :
    (execute readings r n).Walking w where
  head := fun s hs => by
    cases hsteps : r.run.steps with
    | nil =>
      simp only [LocalRunner.execute, Run.commit, hsteps, List.nil_append, List.head?_cons,
        Option.some.injEq] at hs
      exact ⟨n, hhead hsteps, by rw [← hs, Handler.execute_nodeId]⟩
    | cons first rest =>
      simp only [LocalRunner.execute, Run.commit, hsteps, List.cons_append, List.head?_cons,
        Option.some.injEq] at hs
      exact h.head s (by rw [hsteps, List.head?_cons, hs])
  chain := by
    refine List.isChain_append.2 ⟨h.chain, List.isChain_singleton _, fun s hs t ht => ?_⟩
    have ht : (Handler.execute readings n r.run.context r.initialData).step = t := by
      simpa using ht
    exact hlink s t hs (by rw [← ht, Handler.execute_nodeId])
  last := fun s hs hstatus => by
    have hs : (Handler.execute readings n r.run.context r.initialData).step = s := by
      simpa [LocalRunner.execute, Run.commit, Run.lastStep?] using hs
    subst hs
    exact ⟨n, settled_execute hvalid hn hrunning hstatus⟩

/-! ## Operations -/

/-- While the run goes on, the last step leads to the node that the runner takes for the next. -/
theorem Walking.continues (h : r.Walking w) (hworkflow : r.workflow = w)
    (hcoherent : r.run.Coherent) (hrunning : r.run.isRunning = true) (hnext : r.next? = some n)
    {t : Step} (hlast : r.run.lastStep? = some s) (ht : t.nodeId = n.id) : w.Continues s t := by
  have hstatus : s.status ≠ .error :=
    (hcoherent.running hrunning).2 s (List.mem_of_getLast? hlast)
  obtain ⟨m, hm⟩ := h.last s hlast hstatus
  have hid : m.id = s.nodeId := (Workflow.mem_of_node? hm.node?_eq).2
  rw [next?, hlast, Option.bind_some, hworkflow, Workflow.successor?_eq_some_iff] at hnext
  obtain ⟨e, he, htarget⟩ := hnext
  refine ⟨hm.status_eq, m, r.lastBranch?, e, hm.node?_eq, hm.running hrunning, hm.decided,
    ?_, ?_, ?_⟩
  · rw [hid]; exact he
  · rw [ht]; exact (Workflow.mem_of_node? htarget).2
  · rintro b hb
    rw [hb] at he
    exact he.label_ne

/-- Where the runner finds no next node, the last step has no edge to leave by. -/
theorem Settled.not_exit (hn : r.Settled w s n) (hvalid : w.IsValid) (hworkflow : r.workflow = w)
    (hlast : r.run.lastStep? = some s) (hnext : r.next? = none) :
    ∀ e, ¬w.Exit n.id r.lastBranch? e := by
  rw [next?, hlast, Option.bind_some, hworkflow, hvalid.successor?_eq_none_iff] at hnext
  rw [(Workflow.mem_of_node? hn.node?_eq).2]
  exact hnext

/-- An operation keeps the log a walk. -/
theorem Change.walking (h : Change readings r op r') (hvalid : w.IsValid)
    (hworkflow : r.workflow = w) (hcoherent : r.run.Coherent) (hwalk : r.Walking w) :
    r'.Walking w := by
  cases h with
  | refuse => exact hwalk
  | @start n hentry =>
    rw [hworkflow] at hentry
    have hfirst := Workflow.entry?_eq_some_iff.1 hentry
    exact (walking_of_no_steps rfl).execute hvalid hfirst.mem rfl (fun _ => hentry)
      fun s t hs => by cases hs
  | rest => exact hwalk
  | review _ hreview =>
    obtain ⟨-, rfl⟩ := Run.reviewForward?_eq_some_iff.1 hreview
    exact hwalk.congr rfl rfl rfl
  | @extend n hrunning _ hnext =>
    have hmem : n ∈ w.nodes := hworkflow ▸ mem_of_next? hnext
    exact hwalk.execute hvalid hmem hrunning
      (fun hnil => absurd hnil (hcoherent.running hrunning).1)
      fun s t hs ht => hwalk.continues hworkflow hcoherent hrunning hnext hs ht
  | finish _ _ hnext =>
    refine ⟨hwalk.head, hwalk.chain, fun s hs hstatus => ?_⟩
    obtain ⟨n, hn⟩ := hwalk.last s hs hstatus
    refine ⟨n, hn.status_eq, hn.node?_eq, hn.decided, fun hrun => ?_, fun _ => .inr ?_⟩
    · cases hrun
    · exact hn.not_exit hvalid hworkflow hs hnext
  | back =>
    have hsame : r.back.run.steps = r.run.steps ∧ r.back.run.isRunning = r.run.isRunning := by
      simp [LocalRunner.back, Run.stepBack_eq]
    exact hwalk.congr hsame.1 rfl hsame.2
  | pause => exact hwalk.congr rfl rfl rfl
  | resume => exact hwalk.congr rfl rfl rfl
  | reset => exact walking_of_no_steps rfl

/-- In a valid workflow the log of every runner that operations lead to is a walk. -/
theorem Reachable.walking (hvalid : w.IsValid) (h : Reachable w initialData r) : r.Walking w := by
  induction h with
  | new => exact walking_of_no_steps rfl
  | @apply r readings op hr ih =>
    exact (apply_change readings r op).walking hvalid hr.made_with.1 hr.run.coherent ih

/-- A run that has completed ends at its last step. -/
theorem Walking.ends_of_completed (h : r.Walking w) (hphase : r.run.phase = .completed) :
    ∃ s, r.run.lastStep? = some s ∧ w.Ends s := by
  obtain ⟨hstopped, hnonempty, hclean⟩ := Run.phase_eq_completed_iff.1 hphase
  have hlast : r.run.lastStep? = some (r.run.steps.getLast hnonempty) :=
    List.getLast?_eq_some_getLast hnonempty
  obtain ⟨n, hn⟩ := h.last _ hlast (hclean _ (List.getLast_mem hnonempty))
  refine ⟨_, hlast, n, hn.node?_eq, ?_⟩
  rcases hn.stopped hstopped with hterminal | hno
  · exact .inl hterminal
  · exact .inr ⟨r.lastBranch?, hn.decided, hno⟩

end LocalRunner

/-- In every state that operations lead the local runner of a valid workflow to, the first step
of the log is at the first node where a run can start, every step goes on to the next one by its
own result, and a run that has completed ends at its last step. -/
theorem log_isWalk_of_reachable {w : Workflow} {initialData : Context} {r : LocalRunner}
    (hvalid : w.validate = .ok ()) (h : LocalRunner.Reachable w initialData r) :
    (∀ h0 : 0 < r.run.steps.length, ∃ n, FirstWith (fun m => m.role.isEntry = true) w.nodes n ∧
      r.run.steps[0].nodeId = n.id) ∧
    (∀ (i : Nat) (hi : i + 1 < r.run.steps.length),
      w.Continues r.run.steps[i] r.run.steps[i + 1]) ∧
    (r.run.phase = .completed → ∃ s, r.run.lastStep? = some s ∧ w.Ends s) := by
  have hwalk := h.walking (Workflow.validate_eq_ok_iff.1 hvalid)
  refine ⟨fun h0 => ?_, List.isChain_iff_getElem.1 hwalk.chain, hwalk.ends_of_completed⟩
  obtain ⟨n, hn, hid⟩ := hwalk.head r.run.steps[0] (by rw [List.head?_eq_getElem?]; simp)
  exact ⟨n, Workflow.entry?_eq_some_iff.1 hn, hid⟩

/-- A run that takes the branch of its decision walks over all four nodes and ends at the
output. -/
theorem log_isWalk_fork :
    Workflow.fork.validate = .ok () ∧
      ∃ r, LocalRunner.Reachable Workflow.fork (.single "hot" (.bool true)) r ∧
        r.run.steps.map (·.nodeId) = ["in", "check", "cool", "done"] ∧
        (∀ (i : Nat) (hi : i + 1 < r.run.steps.length),
          Workflow.fork.Continues r.run.steps[i] r.run.steps[i + 1]) ∧
        ∃ s, r.run.lastStep? = some s ∧ Workflow.fork.Ends s := by
  have hvalid : Workflow.fork.validate = .ok () := by decide
  obtain ⟨r, hr, hids, hphase⟩ : ∃ r,
      LocalRunner.Reachable Workflow.fork (.single "hot" (.bool true)) r ∧
        r.run.steps.map (·.nodeId) = ["in", "check", "cool", "done"] ∧ r.run.phase = .completed :=
    ⟨_, (((LocalRunner.Reachable.new.apply .still .start).apply .still .forward).apply .still
      .forward).apply .still .forward, by decide +kernel, by decide +kernel⟩
  obtain ⟨-, hchain, hends⟩ := log_isWalk_of_reachable hvalid hr
  exact ⟨hvalid, r, hr, hids, hchain, hends hphase⟩

end StepFlow
