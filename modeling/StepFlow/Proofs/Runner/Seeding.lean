import Mathlib.Tactic.Common
import StepFlow.Proofs.Graph
import StepFlow.Proofs.Runner.Remote
import StepFlow.Proofs.Runner.Threading
import StepFlow.Runner.Service

/-!
# Where entry nodes take their data from

A node at which runs can start puts data into the run: an input node a copy of them, and a data node
a copy with a list of records.  Such a node can be met again later, by an edge that leads back to it
or because there are several of them, and then it matters which data these are.  The local runner
remembers the data with which the run began; a request carries only the present data, and the service
takes those.  `entry_output_seeded` says for both what the log then holds, and
`entry_seeded_with_later_data` is a run in which they differ.

Both runners execute nodes in the same way up to the data that entry nodes take.  `Run.Executes` has
them as a parameter, a function of the present data, so that what a step puts out is read off once
(`Run.Executes.seeded`).
-/

namespace StepFlow

/-! ## The output of entry nodes -/

/-- What a data node puts out: the given data with a list of records.  If the data have such a list,
it is that one; otherwise it holds a single record, which is made of the data and has an identifier
of its own. -/
structure SeedsRecords (nodeId : String) (data output : Context) : Prop where
  /-- Under other names the data are copied. -/
  copied : ∀ name, name ≠ Handler.inputDataKey → output.get? name = data.get? name
  /-- A list of records is kept. -/
  given : ∀ items, data.get? Handler.inputDataKey = some (.array items) →
    output.get? Handler.inputDataKey = some (.array items)
  /-- Where there is none, one is made. -/
  made : (∀ items, data.get? Handler.inputDataKey ≠ some (.array items)) →
    ∃ record : Context, output.get? Handler.inputDataKey = some (.array [record.toJson]) ∧
      record.get? "id" = some (.string (nodeId ++ "-record-1")) ∧
      ∀ name, name ≠ "id" → record.get? name = data.get? name

/-- What a step puts out is made of the given data, if its node is one at which runs can start. -/
structure Seeded (n : Node) (data : Context) (output? : Option Context) : Prop where
  /-- An input node puts out a copy. -/
  input : n.role = .input → output? = some data
  /-- A data node adds a list of records. -/
  dataInput : n.role = .dataInput → ∃ output, output? = some output ∧ SeedsRecords n.id data output

namespace Handler

/-- The handler of data nodes makes the list of records from the data that it is given. -/
theorem seedsRecords_dataInput (nodeId : String) (data : Context) :
    SeedsRecords nodeId data (dataInput nodeId data) where
  copied := by
    intro name hname
    unfold dataInput
    rw [Context.get?_insert, if_neg (Ne.symm hname)]
  given := by
    intro items hitems
    have hcanonical : (Json.array items).canonical = .array items :=
      Json.canonical_eq_self _ (Context.isCanonical_of_get? hitems)
    simp only [dataInput, hitems]
    rw [Context.get?_insert, if_pos rfl, hcanonical]
  made := by
    intro hnone
    have hrecord : ∀ c : Context, (Json.array [c.toJson]).canonical = .array [c.toJson] := by
      intro c
      exact Json.canonical_eq_self _ ⟨c.isCanonical, trivial⟩
    refine ⟨(Context.single "id" (.string (nodeId ++ "-record-1"))).fill data, ?_, ?_, ?_⟩
    · unfold dataInput
      split
      · rename_i items hitems
        exact absurd hitems (hnone items)
      · rw [Context.get?_insert, if_pos rfl, hrecord]
    · rw [Context.get?_fill, Context.get?_single, if_pos rfl, Option.some_or]
      rfl
    · intro name hname
      rw [Context.get?_fill, Context.get?_single, if_neg (Ne.symm hname), Option.none_or]

/-- An executed node puts out what it makes of the data with which the run began. -/
theorem seeded_execute (readings : Readings) (n : Node) (context initialData : Context) :
    Seeded n initialData (execute readings n context initialData).step.output? where
  input := by
    intro hrole
    simp [execute, perform, hrole, Outcome.ofPatch]
  dataInput := by
    intro hrole
    refine ⟨dataInput n.id initialData, ?_, seedsRecords_dataInput n.id initialData⟩
    simp [execute, perform, hrole, Outcome.ofPatch]

end Handler

namespace Run

variable {w : Workflow} {seed : Context → Context} {initialData context : Context} {s : Step}
  {r : Run}

/-- A step is that of its node, executed at the present data, where entry nodes take what the seed
makes of these. -/
def Executes (w : Workflow) (seed : Context → Context) (context : Context) (s : Step) : Prop :=
  ∀ n, w.node? s.nodeId = some n → ∃ readings now,
    s = { (Handler.execute readings n context (seed context)).step with timestamp := now }

/-- The output of such a step is made of the seed. -/
theorem Executes.seeded (h : Executes w seed context s) {n : Node}
    (hn : w.node? s.nodeId = some n) : Seeded n (seed context) s.output? := by
  obtain ⟨readings, now, hstep⟩ := h n hn
  rw [hstep]
  exact Handler.seeded_execute readings n context (seed context)

/-- In a run that logs executed nodes the output of each step is made of the seed, taken at the
initial data overwritten by the outputs of the steps before it. -/
theorem Reachable.seeded (h : Reachable (Executes w seed) initialData r) {k : Nat}
    (hk : k < r.steps.length) {n : Node} (hn : w.node? r.steps[k].nodeId = some n) :
    Seeded n (seed (initialData.overwrittenBy (r.steps.take k))) r.steps[k].output? := by
  have hlogs := h.logs k hk
  rw [h.foldl_patched_take hk] at hlogs
  exact hlogs.seeded hn

end Run

/-! ## The local runner -/

namespace LocalRunner

variable {w : Workflow} {initialData : Context} {r : LocalRunner}

/-- A node of a valid workflow that the runner executes is found under its identifier. -/
theorem node?_of_executed (hvalid : r.workflow.IsValid) {n : Node}
    (h : r.workflow.entry? = some n ∨ r.next? = some n) : r.workflow.node? n.id = some n := by
  rcases h with hentry | hnext
  · exact hvalid.node?_id (Workflow.entry?_eq_some_iff.1 hentry).mem
  · obtain ⟨e, -, -, hnode⟩ := exists_edge_of_next? hnext
    exact hnode

/-- The local runner executes nodes at the present data, and entry nodes at the initial ones. -/
theorem Reachable.executes (hvalid : w.IsValid) (h : Reachable w initialData r) :
    Run.Reachable (Run.Executes w fun _ => initialData) initialData r.run := by
  induction h with
  | new => exact .new
  | @apply r readings op hr ih =>
    obtain ⟨rfl, rfl⟩ := hr.made_with
    refine ih.move ((apply_change readings r op).moves ?_)
    intro context n hn m hm
    rw [Handler.execute_nodeId, node?_of_executed hvalid hn] at hm
    cases hm
    exact ⟨readings, readings.now, by rw [← Handler.execute_timestamp]⟩

end LocalRunner

/-! ## The remote runner and the service -/

namespace RemoteRunner

variable {w : Workflow} {initialData : Context} {timeoutMs : UInt64} {r : RemoteRunner}

/-- The states of a remote runner that operations lead to when the service answers its requests. -/
inductive Served (w : Workflow) (initialData : Context) (timeoutMs : UInt64) :
    RemoteRunner → Prop
  | new : Served w initialData timeoutMs (new w initialData timeoutMs)
  | apply {r : RemoteRunner} (now : Instant) (readings : Readings) (op : Operation) :
      Served w initialData timeoutMs r →
      Served w initialData timeoutMs (r.apply now (Service.transport readings) op)

/-- These are among the states that operations lead to. -/
theorem Served.reachable (h : Served w initialData timeoutMs r) :
    Reachable w initialData timeoutMs r := by
  induction h with
  | new => exact .new
  | apply now readings op _ ih => exact ih.apply now _ op

/-- What comes back from the service is the step of the node that was asked for, executed at the
present data alone. -/
theorem executes_delegate (now : Instant) (readings : Readings) (r : RemoteRunner)
    (nodeId : String) :
    ∃ s halt, (r.delegate now (Service.transport readings) nodeId).run = r.run.commit s halt ∧
      Run.Executes r.workflow id r.run.context s := by
  have hnode : (r.request nodeId).workflow.node? (r.request nodeId).currentNodeId =
      r.workflow.node? nodeId := rfl
  cases hfound : r.workflow.node? nodeId with
  | none =>
    have hfault : ∃ fault, Service.transport readings (r.request nodeId) = .fault fault := by
      rw [hfound] at hnode
      simp [Service.transport, Service.handle, hnode]
    obtain ⟨fault, hfault⟩ := hfault
    refine ⟨r.failedStep now nodeId fault, true, by rw [delegate, hfault]; rfl, ?_⟩
    intro n hn
    have hsome : r.workflow.node? nodeId = some n := hn
    rw [hfound] at hsome
    cases hsome
  | some m =>
    have hid : m.id = nodeId := (Workflow.mem_of_node? hfound).2
    have hreply : ∃ next?, Service.transport readings (r.request nodeId) =
        .reply (.ofStep (Handler.execute readings m r.run.context r.run.context).step next?) := by
      rw [hfound] at hnode
      simp only [Service.transport, Service.handle, hnode]
      exact ⟨_, rfl⟩
    obtain ⟨next?, hreply⟩ := hreply
    have hasked : (Handler.execute readings m r.run.context r.run.context).step.nodeId = nodeId :=
      Handler.execute_nodeId.trans hid
    refine ⟨_, _, by rw [delegate, hreply, receive_reply hasked rfl], ?_⟩
    intro n hn
    have hsame : r.workflow.node?
        (Handler.execute readings m r.run.context r.run.context).step.nodeId = some n := hn
    rw [hasked, hfound] at hsame
    cases hsame
    exact ⟨readings, now, rfl⟩

/-- A remote runner whose requests the service answers executes nodes, also entry nodes, at the
present data. -/
theorem Served.executes (h : Served w initialData timeoutMs r) :
    Run.Reachable (Run.Executes w id) initialData r.run := by
  induction h with
  | new => exact .new
  | @apply r now readings op hr ih =>
    obtain ⟨rfl, rfl⟩ := hr.reachable.made_with
    refine ih.move ((apply_change now (Service.transport readings) r op).moves ?_)
    intro q nodeId hworkflow
    rw [← hworkflow]
    exact executes_delegate now readings q nodeId

end RemoteRunner

/-- In every state that operations lead the local runner of a valid workflow to, each step of a node
at which runs can start puts out what the node makes of the initial data, wherever it stands in the
log: an input node a copy of them, a data node a copy with a list of records.  A remote runner whose
requests the service answers has the data at which the request was sent in their place, the initial
data overwritten by the outputs of the steps before it; at the first step these are the initial
data. -/
theorem entry_output_seeded {w : Workflow} (hvalid : w.validate = .ok ()) (initialData : Context) :
    (∀ r, LocalRunner.Reachable w initialData r →
      ∀ (k : Nat) (hk : k < r.run.steps.length) (n : Node),
        w.node? r.run.steps[k].nodeId = some n → Seeded n initialData r.run.steps[k].output?) ∧
    ∀ timeoutMs r, RemoteRunner.Served w initialData timeoutMs r →
      ∀ (k : Nat) (hk : k < r.run.steps.length) (n : Node),
        w.node? r.run.steps[k].nodeId = some n →
          Seeded n (initialData.overwrittenBy (r.run.steps.take k)) r.run.steps[k].output? ∧
          (k = 0 → Seeded n initialData r.run.steps[k].output?) := by
  constructor
  · intro r hr k hk n hn
    exact (hr.executes (Workflow.validate_eq_ok_iff.1 hvalid)).seeded hk hn
  · intro timeoutMs r hr k hk n hn
    have hseeded : Seeded n (initialData.overwrittenBy (r.run.steps.take k))
        r.run.steps[k].output? := hr.executes.seeded hk hn
    refine ⟨hseeded, ?_⟩
    rintro rfl
    exact hseeded

/-- A workflow that leads back to its entry. -/
def Workflow.loop : Workflow where
  id := "loop"
  name := ""
  nodes := [⟨"in", none, .input⟩, ⟨"cool", none, .action "cool"⟩]
  edges := [.between "in" "cool", .between "cool" "in"]

/-- When the loop comes back to its entry, the local runner puts out the initial data, and the
service the data that it was sent, with the report of the action among them. -/
theorem entry_output_seeded_loop :
    Workflow.loop.validate = .ok () ∧
    (∃ r, LocalRunner.Reachable Workflow.loop (.single "hot" (.bool true)) r ∧
      ∃ h : 2 < r.run.steps.length, r.run.steps[2].nodeId = "in" ∧
        r.run.steps[2].output? = some (.single "hot" (.bool true))) ∧
    ∃ r, RemoteRunner.Served Workflow.loop (.single "hot" (.bool true)) 30000 r ∧
      ∃ h : 2 < r.run.steps.length, r.run.steps[2].nodeId = "in" ∧
        r.run.steps[2].output? =
          some ((Context.single "hot" (.bool true)).overwrittenBy (r.run.steps.take 2)) := by
  have hvalid : Workflow.loop.validate = .ok () := by decide
  have hin : Workflow.loop.node? "in" = some ⟨"in", none, .input⟩ := by decide
  obtain ⟨hlocal, hserved⟩ := entry_output_seeded hvalid (.single "hot" (.bool true))
  refine ⟨hvalid, ?_, ?_⟩
  · obtain ⟨r, hr, hk, hid⟩ : ∃ r,
        LocalRunner.Reachable Workflow.loop (.single "hot" (.bool true)) r ∧
          ∃ h : 2 < r.run.steps.length, r.run.steps[2].nodeId = "in" :=
      ⟨_, ((LocalRunner.Reachable.new.apply .still .start).apply .still .forward).apply .still
        .forward, by decide +kernel, by decide +kernel⟩
    exact ⟨r, hr, hk, hid, (hlocal r hr 2 hk _ (by rw [hid]; exact hin)).input rfl⟩
  · obtain ⟨r, hr, hk, hid⟩ : ∃ r,
        RemoteRunner.Served Workflow.loop (.single "hot" (.bool true)) 30000 r ∧
          ∃ h : 2 < r.run.steps.length, r.run.steps[2].nodeId = "in" :=
      ⟨_, ((RemoteRunner.Served.new.apply Readings.still.now .still .start).apply
        Readings.still.now .still .forward).apply Readings.still.now .still .forward,
        by decide +kernel, by decide +kernel⟩
    exact ⟨r, hr, hk, hid, (hserved 30000 r hr 2 hk _ (by rw [hid]; exact hin)).1.input rfl⟩

/-- An entry node does not always put out the initial data: in the run of the loop that the service
serves, the third step is at the input node, and it puts out the report of the action, too. -/
theorem entry_seeded_with_later_data :
    Workflow.loop.validate = .ok () ∧
    ∃ r, RemoteRunner.Served Workflow.loop (.single "hot" (.bool true)) 30000 r ∧
      ∃ (h : 2 < r.run.steps.length) (n : Node),
        Workflow.loop.node? r.run.steps[2].nodeId = some n ∧ n.role = .input ∧
        r.run.steps[2].output? ≠ some (.single "hot" (.bool true)) := by
  refine ⟨by decide, _, ((RemoteRunner.Served.new.apply Readings.still.now .still .start).apply
    Readings.still.now .still .forward).apply Readings.still.now .still .forward,
    by decide +kernel, ⟨"in", none, .input⟩, ?_, rfl, ?_⟩
  · decide +kernel
  · decide +kernel

end StepFlow
