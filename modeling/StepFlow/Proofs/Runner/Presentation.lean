import Mathlib.Data.List.Find
import StepFlow.Proofs.Runner.Restart

/-!
# Runs do not depend on how a workflow is written down

Nodes and edges stand in some order, edges have identifiers, nodes have labels, and a workflow has a
name.  `Workflow.Restates` relates two workflows that differ in nothing else: the same nodes up to
their labels, in any order that leaves the entry the first of its kind, and at every node the same
edges up to their identifiers, in the same order.  The order at each node has to stay, because the
first fitting edge is taken; how the edges of different nodes are interleaved does not matter.

`trace_restated` says that runs of the two are the same but for the names in their logs.  Lookups by
an identifier do not depend on the order of the nodes because no identifier occurs twice
(`Workflow.Restates.node?_eq`), and no handler looks at a label (`Handler.execute_withLabel?`), so
that a label shows in the log entry of its node and nowhere else.
-/

namespace StepFlow

/-! ## Workflows that differ in their presentation -/

/-- The node without its label. -/
def Node.unlabelled (n : Node) : Node := { n with label? := none }

/-- The edge without its identifier. -/
def Edge.unnamed (e : Edge) : Edge := { e with id := "" }

namespace Workflow

/-- The second workflow restates the first one: it has the same nodes and the same edges, but its
nodes may be labelled otherwise and stand in another order, as long as the entry stays the same, and
its edges may have other identifiers and stand in another order, as long as those that leave a node
keep theirs.  Its identifier and its name do not matter. -/
structure Restates (w w' : Workflow) : Prop where
  nodes_perm : (w.nodes.map Node.unlabelled).Perm (w'.nodes.map Node.unlabelled)
  entry_eq : w'.entry?.map Node.unlabelled = w.entry?.map Node.unlabelled
  outgoing_eq : ∀ id, (w'.outgoing id).map Edge.unnamed = (w.outgoing id).map Edge.unnamed

variable {w w' : Workflow}

/-- It is enough to compare the edges at the sources of edges. -/
theorem Restates.of_sources
    (hnodes : (w.nodes.map Node.unlabelled).Perm (w'.nodes.map Node.unlabelled))
    (hentry : w'.entry?.map Node.unlabelled = w.entry?.map Node.unlabelled)
    (hedges : ∀ e ∈ w.edges ++ w'.edges,
      (w'.outgoing e.source).map Edge.unnamed = (w.outgoing e.source).map Edge.unnamed) :
    w.Restates w' where
  nodes_perm := hnodes
  entry_eq := hentry
  outgoing_eq := by
    intro id
    by_cases hsource : ∃ e ∈ w.edges ++ w'.edges, e.source = id
    · obtain ⟨e, he, rfl⟩ := hsource
      exact hedges e he
    · push Not at hsource
      have hnone (v : Workflow) (hv : ∀ e ∈ v.edges, e.source ≠ id) : v.outgoing id = [] :=
        List.filter_eq_nil_iff.2 fun e he => by simpa using hv e he
      rw [hnone w fun e he => hsource e (List.mem_append_left _ he),
        hnone w' fun e he => hsource e (List.mem_append_right _ he)]

/-- A node is found up to its label wherever it stands, since no identifier occurs twice. -/
theorem Restates.node?_eq (h : w.Restates w') (hvalid : w.IsValid) (id : String) :
    (w'.node? id).map Node.unlabelled = (w.node? id).map Node.unlabelled := by
  have hfind (v : Workflow) : (v.node? id).map Node.unlabelled =
      (v.nodes.map Node.unlabelled).find? (·.id == id) := by
    rw [List.find?_map]
    rfl
  have hnodup : ((w.nodes.map Node.unlabelled).map (·.id)).Nodup := by
    rw [List.map_map]
    exact hvalid.nodup
  rw [hfind, hfind]
  refine (List.find?_eq_find?_of_perm h.nodes_perm ?_).symm
  rintro n ⟨hn, hid⟩ m ⟨hm, hid'⟩
  exact List.inj_on_of_nodup_map hnodup hn hm
    ((beq_iff_eq.1 hid).trans (beq_iff_eq.1 hid').symm)

/-- A run leaves a node by the same edge up to its identifier. -/
theorem Restates.exit?_eq (h : w.Restates w') (id : String) (branch? : Option Bool) :
    (w'.exit? id branch?).map Edge.unnamed = (w.exit? id branch?).map Edge.unnamed := by
  cases branch? with
  | none =>
    have hexit (v : Workflow) : (v.exit? id none).map Edge.unnamed =
        ((v.outgoing id).map Edge.unnamed).head? := List.head?_map.symm
    rw [hexit, hexit, h.outgoing_eq]
  | some branch =>
    have hexit (v : Workflow) : (v.exit? id (some branch)).map Edge.unnamed =
        (((v.outgoing id).map Edge.unnamed).find? (·.label? == some branch) <|>
          ((v.outgoing id).map Edge.unnamed).find? (·.label?.isNone)) := by
      have hlabel : (fun e : Edge => e.label? == some branch) ∘ Edge.unnamed =
          fun e => e.label? == some branch := rfl
      have hnone : (fun e : Edge => e.label?.isNone) ∘ Edge.unnamed = fun e => e.label?.isNone := rfl
      simp only [exit?, List.find?_map, hlabel, hnone, Option.orElse_eq_orElse,
        Option.orElse_eq_or, Option.map_or]
    rw [hexit, hexit, h.outgoing_eq]

/-- The same node follows, up to its label. -/
theorem Restates.successor?_eq (h : w.Restates w') (hvalid : w.IsValid) (id : String)
    (branch? : Option Bool) :
    (w'.successor? id branch?).map Node.unlabelled =
      (w.successor? id branch?).map Node.unlabelled := by
  have hexit := h.exit?_eq id branch?
  unfold successor?
  cases he : w.exit? id branch? with
  | none =>
    rw [he, Option.map_none, Option.map_eq_none_iff] at hexit
    rw [hexit]
    rfl
  | some e =>
    rw [he, Option.map_some, Option.map_eq_some_iff] at hexit
    obtain ⟨e', he', hsame⟩ := hexit
    have htarget : e'.unnamed.target = e.unnamed.target := by rw [hsame]
    rw [he', Option.bind_some, Option.bind_some]
    exact (congrArg (fun id => (w'.node? id).map Node.unlabelled) htarget).trans
      (h.node?_eq hvalid e.target)

end Workflow

/-! ## Names in the log -/

/-- The log entry without the name of its node. -/
def Step.unnamed (s : Step) : Step := { s with nodeName := "" }

/-- A node under another label, or without one, is executed with the same outcome; only the name in
the log entry changes. -/
theorem Handler.execute_withLabel? (readings : Readings) (n : Node) (label? : Option String)
    (context initialData : Context) :
    Handler.execute readings { n with label? := label? } context initialData =
      { Handler.execute readings n context initialData with
        step := { (Handler.execute readings n context initialData).step with
          nodeName := ({ n with label? := label? } : Node).displayName } } := by
  have hperform : Handler.perform readings { n with label? := label? } context initialData =
      Handler.perform readings n context initialData := rfl
  unfold Handler.execute
  rw [hperform]
  cases Handler.perform readings n context initialData <;> rfl

/-- Nodes that are the same up to their labels are executed with the same outcome. -/
theorem Handler.execute_of_unlabelled_eq {n n' : Node} (h : n'.unlabelled = n.unlabelled)
    (readings : Readings) (context initialData : Context) :
    (Handler.execute readings n' context initialData).step.unnamed =
        (Handler.execute readings n context initialData).step.unnamed ∧
      (Handler.execute readings n' context initialData).halt =
        (Handler.execute readings n context initialData).halt ∧
      (Handler.execute readings n' context initialData).branch? =
        (Handler.execute readings n context initialData).branch? := by
  have hn : n' = { n with label? := n'.label? } := by
    obtain ⟨id, label?, role⟩ := n
    obtain ⟨id', label?', role'⟩ := n'
    cases h
    rfl
  rw [hn, Handler.execute_withLabel?]
  exact ⟨rfl, rfl, rfl⟩

namespace Run

variable {r : Run}

/-- The run without the names in its log. -/
def unnamed (r : Run) : Run := { r with steps := r.steps.map Step.unnamed }

/-- A step is logged alike with and without names. -/
theorem unnamed_commit (r : Run) (s : Step) (halt : Bool) :
    (r.commit s halt).unnamed = r.unnamed.commit s.unnamed halt := by
  simp only [unnamed, commit, List.map_append, List.map_singleton, List.length_map]
  rfl

theorem lastStep?_unnamed (r : Run) : r.unnamed.lastStep? = r.lastStep?.map Step.unnamed :=
  List.getLast?_map

/-- Catching up with the log does not look at names. -/
theorem reviewForward?_unnamed (r : Run) :
    r.unnamed.reviewForward? = r.reviewForward?.map unnamed := by
  have hlast : r.unnamed.lastIndex = r.lastIndex := by simp [lastIndex, unnamed]
  unfold reviewForward? isReviewing
  rw [hlast]
  change (if (decide (r.cursor < r.lastIndex)) = true then _ else _) = _
  split <;> rfl

theorem unnamed_stepBack (r : Run) : r.stepBack.unnamed = r.unnamed.stepBack := by
  rw [stepBack_eq, stepBack_eq]
  rfl

end Run

/-! ## Runners of restated workflows -/

namespace LocalRunner

variable {readings : Readings} {r r' : LocalRunner} {n n' : Node}

/-- The second runner tracks the first one: they are in the same run, up to the names in its log, of
a workflow and of one that restates it. -/
structure Tracks (r r' : LocalRunner) : Prop where
  restates : r.workflow.Restates r'.workflow
  initialData_eq : r'.initialData = r.initialData
  lastBranch_eq : r'.lastBranch? = r.lastBranch?
  run_eq : r'.run.unnamed = r.run.unnamed

/-- Two runners that have been made alike track each other. -/
theorem tracks_new {w w' : Workflow} (h : w.Restates w') (initialData : Context) :
    Tracks (.new w initialData) (.new w' initialData) := ⟨h, rfl, rfl, rfl⟩

/-- Another run for both, the same up to names, keeps them tracking each other. -/
theorem Tracks.withRun (h : r.Tracks r') {run run' : Run} (hrun : run'.unnamed = run.unnamed) :
    Tracks { r with run := run } { r' with run := run' } :=
  ⟨h.restates, h.initialData_eq, h.lastBranch_eq, hrun⟩

theorem Tracks.reset (h : r.Tracks r') : r.reset.Tracks r'.reset := by
  unfold LocalRunner.reset
  rw [h.initialData_eq]
  exact tracks_new h.restates r.initialData

theorem Tracks.begun (h : r.Tracks r') : r.begun.Tracks r'.begun := by
  unfold LocalRunner.begun
  rw [h.initialData_eq]
  exact h.reset.withRun rfl

/-- Executing nodes that are the same up to their labels keeps runners tracking each other. -/
theorem Tracks.execute (h : r.Tracks r') (hn : n'.unlabelled = n.unlabelled)
    (readings : Readings) : (r.execute readings n).Tracks (r'.execute readings n') := by
  have hcontext : r'.run.unnamed.context = r.run.unnamed.context := by rw [h.run_eq]
  have hdone : Handler.execute readings n' r'.run.context r'.initialData =
      Handler.execute readings n' r.run.context r.initialData :=
    congrArg₂ (Handler.execute readings n') hcontext h.initialData_eq
  obtain ⟨hstep, hhalt, hbranch⟩ :=
    Handler.execute_of_unlabelled_eq hn readings r.run.context r.initialData
  unfold LocalRunner.execute
  rw [hdone]
  refine ⟨h.restates, h.initialData_eq, hbranch, ?_⟩
  change (r'.run.commit _ _).unnamed = (r.run.commit _ _).unnamed
  rw [Run.unnamed_commit, Run.unnamed_commit, h.run_eq, hhalt, hstep]

/-- The same node follows, up to its label. -/
theorem Tracks.next?_eq (h : r.Tracks r') (hvalid : r.workflow.IsValid) :
    r'.next?.map Node.unlabelled = r.next?.map Node.unlabelled := by
  have hlast : r'.run.lastStep?.map Step.unnamed = r.run.lastStep?.map Step.unnamed := by
    rw [← Run.lastStep?_unnamed, ← Run.lastStep?_unnamed, h.run_eq]
  unfold next?
  cases hs : r.run.lastStep? with
  | none =>
    rw [hs, Option.map_none, Option.map_eq_none_iff] at hlast
    rw [hlast]
    rfl
  | some s =>
    rw [hs, Option.map_some, Option.map_eq_some_iff] at hlast
    obtain ⟨s', hs', hsame⟩ := hlast
    have hnode : s'.unnamed.nodeId = s.unnamed.nodeId := by rw [hsame]
    rw [hs', Option.bind_some, Option.bind_some, h.lastBranch_eq]
    exact (congrArg (fun id => (r'.workflow.successor? id r.lastBranch?).map Node.unlabelled)
      hnode).trans (h.restates.successor?_eq hvalid s.nodeId r.lastBranch?)

/-- Starting keeps runners tracking each other. -/
theorem Tracks.start (h : r.Tracks r') (readings : Readings) :
    (r.apply readings .start).Tracks (r'.apply readings .start) := by
  have hentry := h.restates.entry_eq
  cases hn : r.workflow.entry? with
  | none =>
    rw [hn, Option.map_none, Option.map_eq_none_iff] at hentry
    rw [apply_start_of_no_entry hn, apply_start_of_no_entry hentry]
    exact h
  | some n =>
    rw [hn, Option.map_some, Option.map_eq_some_iff] at hentry
    obtain ⟨n', hn', hsame⟩ := hentry
    rw [apply_start_of_entry hn, apply_start_of_entry hn']
    exact h.begun.execute hsame readings

/-- Stepping forward keeps runners tracking each other. -/
theorem Tracks.forward (h : r.Tracks r') (hvalid : r.workflow.IsValid) (readings : Readings) :
    (r.forward readings).Tracks (r'.forward readings) := by
  have hrunningEq : r'.run.unnamed.isRunning = r.run.unnamed.isRunning := by rw [h.run_eq]
  have hreviewEq : r'.run.reviewForward?.map Run.unnamed = r.run.reviewForward?.map Run.unnamed := by
    rw [← Run.reviewForward?_unnamed, ← Run.reviewForward?_unnamed, h.run_eq]
  have hnextEq := h.next?_eq hvalid
  cases hrunning : r.run.isRunning with
  | false =>
    rw [forward_of_stopped hrunning, forward_of_stopped (hrunningEq.trans hrunning)]
    exact h
  | true =>
    have hrunning' : r'.run.isRunning = true := hrunningEq.trans hrunning
    cases hreview : r.run.reviewForward? with
    | some run =>
      rw [hreview, Option.map_some, Option.map_eq_some_iff] at hreviewEq
      obtain ⟨run', hreview', hsame⟩ := hreviewEq
      rw [forward_of_review hrunning hreview, forward_of_review hrunning' hreview']
      exact h.withRun hsame
    | none =>
      rw [hreview, Option.map_none, Option.map_eq_none_iff] at hreviewEq
      cases hnext : r.next? with
      | some n =>
        rw [hnext, Option.map_some, Option.map_eq_some_iff] at hnextEq
        obtain ⟨n', hnext', hsame⟩ := hnextEq
        rw [forward_of_next hrunning hreview hnext, forward_of_next hrunning' hreviewEq hnext']
        exact h.execute hsame readings
      | none =>
        rw [hnext, Option.map_none, Option.map_eq_none_iff] at hnextEq
        rw [forward_of_end hrunning hreview hnext, forward_of_end hrunning' hreviewEq hnextEq]
        exact h.withRun (congrArg (fun run : Run => { run with isRunning := false }) h.run_eq)

/-- An operation keeps runners tracking each other. -/
theorem Tracks.apply (h : r.Tracks r') (hvalid : r.workflow.IsValid) (readings : Readings)
    (op : Operation) : (r.apply readings op).Tracks (r'.apply readings op) := by
  cases op with
  | start => exact h.start readings
  | forward => exact h.forward hvalid readings
  | back =>
    refine h.withRun ?_
    rw [Run.unnamed_stepBack, Run.unnamed_stepBack, h.run_eq]
  | pause => exact h.withRun (congrArg (fun run : Run => { run with isPaused := true }) h.run_eq)
  | resume => exact h.withRun (congrArg (fun run : Run => { run with isPaused := false }) h.run_eq)
  | reset => exact h.reset

/-- Runners that track each other return the same of any operations, up to the names in the log. -/
theorem Tracks.trace_eq (h : r.Tracks r') (hvalid : r.workflow.IsValid)
    (ops : List (Operation × Readings)) :
    (r'.trace ops).map (Except.map Run.unnamed) = (r.trace ops).map (Except.map Run.unnamed) := by
  induction ops generalizing r r' with
  | nil => rfl
  | cons entry rest ih =>
    obtain ⟨op, readings⟩ := entry
    have hstep := h.apply hvalid readings op
    have hkeeps := (apply_change readings r op).keeps
    have hrest := ih hstep (by rw [hkeeps.1]; exact hvalid)
    have hentry : r'.workflow.entry? = none ↔ r.workflow.entry? = none := by
      rw [← Option.map_eq_none_iff, h.restates.entry_eq, Option.map_eq_none_iff]
    simp only [trace, List.map_cons, hrest, returned_eq, hentry]
    congr 1
    split
    · rfl
    · exact congrArg Except.ok hstep.run_eq

end LocalRunner

/-- On a valid workflow where no node draws its result at random, and on every workflow that restates
it, a local runner returns the same after every operation, up to the names in the log, if both look
at the same clock. -/
theorem trace_restated {w w' : Workflow} (hvalid : w.validate = .ok ())
    (hdraws : ∀ n ∈ w.nodes, n.role.draws = false) (h : w.Restates w') (initialData : Context)
    (ops : List (Operation × Readings × Draw × Draw)) :
    ((LocalRunner.new w' initialData).trace
        (ops.map fun (op, clock, _, draw) => (op, clock.drawn draw))).map (Except.map Run.unnamed) =
      ((LocalRunner.new w initialData).trace
        (ops.map fun (op, clock, draw, _) => (op, clock.drawn draw))).map
          (Except.map Run.unnamed) := by
  have hdraws' : ∀ n ∈ (LocalRunner.new w initialData).workflow.nodes, n.role.draws = false := hdraws
  rw [LocalRunner.trace_drawn hdraws']
  exact (LocalRunner.tracks_new h initialData).trace_eq (Workflow.validate_eq_ok_iff.1 hvalid) _

/-- The workflow with a decision, written from its end to its beginning and with other names. -/
def Workflow.forkRestated : Workflow where
  id := "fork-2"
  name := "Cooling"
  nodes := [⟨"done", some "Done", .output⟩, ⟨"cool", some "Cool", .action "cool"⟩,
    ⟨"check", some "Hot?", .decision "hot"⟩, ⟨"in", some "Reading", .input⟩]
  edges := [⟨"e4", "cool", "done", none, none⟩, ⟨"e2", "check", "done", some false, none⟩,
    ⟨"e3", "check", "cool", some true, none⟩, ⟨"e1", "in", "check", none, none⟩]

/-- A run through the decision is logged under the other names, and is otherwise the same. -/
theorem trace_restated_fork :
    ∃ ops : List (Operation × Readings × Draw × Draw),
      ((LocalRunner.new Workflow.forkRestated (.single "hot" (.bool true))).trace
          (ops.map fun (op, clock, _, draw) => (op, clock.drawn draw))).map
            (Except.map Run.unnamed) =
        ((LocalRunner.new Workflow.fork (.single "hot" (.bool true))).trace
          (ops.map fun (op, clock, draw, _) => (op, clock.drawn draw))).map
            (Except.map Run.unnamed) ∧
      ((LocalRunner.new Workflow.forkRestated (.single "hot" (.bool true))).trace
          (ops.map fun (op, clock, _, draw) => (op, clock.drawn draw))).map
            (Except.map fun run => run.steps.map (·.nodeName)) =
        [.ok ["Reading"], .ok ["Reading", "Hot?"], .ok ["Reading", "Hot?", "Cool"],
          .ok ["Reading", "Hot?", "Cool", "Done"]] := by
  have hrestates : Workflow.fork.Restates Workflow.forkRestated :=
    .of_sources (by decide) (by decide) (by decide)
  refine ⟨[.start, .forward, .forward, .forward].map
    (·, .still, ⟨.pass, .zero false⟩, ⟨.fail, .zero false⟩), ?_, ?_⟩
  · exact trace_restated (by decide) (by decide) hrestates _ _
  · decide +kernel

end StepFlow
