import StepFlow.Proofs.Graph
import StepFlow.Proofs.History.Changes
import StepFlow.Proofs.Runner.Messages
import StepFlow.Proofs.Runner.Remote
import StepFlow.Runner.Service

/-!
# Messages and records passed on

A request goes to a service as JSON and its reply comes back as JSON; the records of runs leave as
the text of an export and may be read again.  `interchange_read_back` says that nothing is lost on
the way: each decoder inverts the function that writes its values.  So it makes no difference to a
remote runner whether it calls the service itself or sends it written requests and reads written
replies (`Service.relay_eq_ok`), and an export is read as the records of which it was made.

A request carries nodes, and a node of an unknown type may change when it is written and read; so the
statements about requests are about workflows whose types are all known.
-/

namespace StepFlow

open Decoder Fields

/-! ## Messages -/

/-- A reply is read back, whatever it says. -/
theorem StepReply.decoder_inverts (p : StepReply) :
    StepReply.decoder.Inverts StepReply.toJson p := by
  intro φ hφ
  obtain ⟨nodeId, nodeName, nodeType, status, input, output?, error?, elapsedMs, nextNodeId?⟩ := p
  have hkeys : (["node_id", "node_name", "node_type", "status", "input", "output", "error",
      "execution_time_ms", "next_node_id"] : List String).Nodup := by decide
  refine hφ.reads_record "StepResponse" hkeys fun arranged hmembers => ?_
  refine Reads.map (x := (nodeId, nodeName, nodeType, status, input, output?, error?, elapsedMs,
    nextNodeId?)) ?_ _
  refine Reads.both (hmembers.reads_required rfl (hφ.reads_string nodeId)) ?_ (by decide)
  refine Reads.both (hmembers.reads_required rfl (hφ.reads_string nodeName)) ?_ (by decide)
  refine Reads.both (hmembers.reads_required rfl (hφ.reads_string nodeType)) ?_ (by decide)
  refine Reads.both (hmembers.reads_required rfl (hφ.reads_variant status.lookup_name)) ?_
    (by decide)
  refine Reads.both (hmembers.reads_defaulted rfl (hφ.reads_context input)) ?_ (by decide)
  refine Reads.both (hmembers.reads_defaulted rfl (hφ.reads_context? output?)) ?_ (by decide)
  refine Reads.both (hmembers.reads_defaulted rfl (hφ.reads_string? error?)) ?_ (by decide)
  refine Reads.both (hmembers.reads_defaulted rfl (hφ.reads_uint64 elapsedMs)) ?_ (by decide)
  exact hmembers.reads_defaulted rfl (hφ.reads_string? nextNodeId?)

/-- A request is read back if the types of its nodes are all known. -/
theorem StepRequest.decoder_inverts {q : StepRequest}
    (h : ∀ n ∈ q.nodes, n.role.isSupported = true) (fresh : Nat → String) :
    (StepRequest.decoder fresh).Inverts StepRequest.toJson q := by
  intro φ hφ
  have hproper : ∀ n ∈ q.nodes, n.role.IsProper :=
    fun n hn => Role.isProper_of_isSupported (h n hn)
  have hreads := StepRequest.reads_reread hφ hproper fresh
  rwa [Node.map_reread_of_isSupported h] at hreads

/-! ## The service at the end of a way -/

namespace Service

/-- What the service answers to a request that it reads from its written form, with a reply that is
read from its written form; `φ` and `ψ` are what becomes of the two forms on the way. -/
def relay (readings : Readings) (fresh : Nat → String) (φ ψ : Json → Json) (q : StepRequest) :
    Except DecodeError Answer := do
  let received ← (StepRequest.decoder fresh).ofJson (φ q.toJson)
  match handle readings received with
  | .error fault => .ok (.fault fault)
  | .ok reply =>
    let returned ← StepReply.decoder.ofJson (ψ reply.toJson)
    .ok (.reply returned)

/-- The transport answers as the service does at the end of some way, at least where all that is
written is also read. -/
def IsBehind (readings : Readings) (transport : Transport) : Prop :=
  ∃ fresh φ ψ, Json.Rearranges φ ∧ Json.Rearranges ψ ∧
    ∀ q answer, relay readings fresh φ ψ q = .ok answer → transport q = answer

variable {φ ψ : Json → Json} {q : StepRequest} {readings : Readings} {transport' : Transport}

/-- The way makes no difference to the answer. -/
theorem relay_eq_ok (hφ : Json.Rearranges φ) (hψ : Json.Rearranges ψ)
    (h : ∀ n ∈ q.nodes, n.role.isSupported = true) (readings : Readings) (fresh : Nat → String) :
    relay readings fresh φ ψ q = .ok (transport readings q) := by
  have hreceived : (StepRequest.decoder fresh).ofJson (φ q.toJson) = .ok q :=
    StepRequest.decoder_inverts h fresh φ hφ .value
  have hreturned (p : StepReply) : StepReply.decoder.ofJson (ψ p.toJson) = .ok p :=
    p.decoder_inverts ψ hψ .value
  unfold relay transport
  simp only [hreceived, bind, Except.bind]
  cases handle readings q with
  | error fault => rfl
  | ok p => simp only [hreturned]

/-- A transport behind which the service stands answers as the service. -/
theorem IsBehind.eq_transport (hbehind : IsBehind readings transport')
    (h : ∀ n ∈ q.nodes, n.role.isSupported = true) : transport' q = transport readings q := by
  obtain ⟨fresh, φ, ψ, hφ, hψ, hanswers⟩ := hbehind
  exact hanswers q _ (relay_eq_ok hφ hψ h readings fresh)

end Service

namespace RemoteRunner

variable {r : RemoteRunner}

/-- A runner whose requests and replies are written on the way returns what a runner returns that
calls the service itself. -/
theorem trace_isBehind (h : ∀ n ∈ r.workflow.nodes, n.role.isSupported = true)
    (ops : List (Operation × Readings × Transport))
    (hbehind : ∀ o ∈ ops, Service.IsBehind o.2.1 o.2.2) :
    r.trace (ops.map fun (op, readings, t) => (op, readings.now, t)) =
      r.trace (ops.map fun (op, readings, _) =>
        (op, readings.now, Service.transport readings)) := by
  induction ops generalizing r with
  | nil => rfl
  | cons o rest ih =>
    obtain ⟨op, readings, t⟩ := o
    have happly : r.apply readings.now t op =
        r.apply readings.now (Service.transport readings) op := by
      refine apply_congr ?_ readings.now op
      intro q hq
      exact (hbehind _ List.mem_cons_self).eq_transport (hq ▸ h)
    have hkeeps := (apply_change readings.now (Service.transport readings) r op).keeps
    have hrest := ih (r := r.apply readings.now (Service.transport readings) op)
      (by rw [hkeeps.1]; exact h) fun o ho => hbehind o (List.mem_cons_of_mem _ ho)
    simp only [List.map_cons, trace, returned_eq, happly, hrest]

end RemoteRunner

/-! ## Exports -/

namespace History

/-- The records of an export are read back from its text, within the limit for nesting. -/
theorem ofText_exportText {records : List Record} (h : ∀ r ∈ records, r.Written)
    (hnesting : (Json.array (records.map Record.toJson)).nesting ≤ Document.depthLimit) :
    (list Record.decoder).ofText (exportText records) = .ok records := by
  have hrecords := inverts_list fun r hr => Record.decoder_inverts (h r hr)
  exact hrecords.reads.ofText_pretty hnesting

end History

/-! ## What is passed on comes back -/

open History (Record exportText)

/-- Whatever order the members come in, replies are read back, and so are steps, runs and records
with instants in the years 0 to 9999 and requests with nodes of known types.  A request is answered
alike by the service itself and by the service at the end of a way on which request and reply are
written and read; so a remote runner returns the same after every operation if there is such a way
to the service or none.  An export is read as its records. -/
theorem interchange_read_back :
    (∀ p : StepReply, StepReply.decoder.Inverts StepReply.toJson p) ∧
    (∀ s : Step, s.timestamp.HasPlainYear → Step.decoder.Inverts Step.toJson s) ∧
    (∀ r : Run, r.Written → Run.decoder.Inverts Run.toJson r) ∧
    (∀ r : Record, r.Written → Record.decoder.Inverts Record.toJson r) ∧
    (∀ q : StepRequest, (∀ n ∈ q.nodes, n.role.isSupported = true) → ∀ fresh,
      (StepRequest.decoder fresh).Inverts StepRequest.toJson q ∧
        ∀ readings φ ψ, Json.Rearranges φ → Json.Rearranges ψ →
          Service.relay readings fresh φ ψ q = .ok (Service.transport readings q)) ∧
    (∀ w : Workflow, (∀ n ∈ w.nodes, n.role.isSupported = true) →
      ∀ initialData timeoutMs (ops : List (Operation × Readings × Transport)),
        (∀ o ∈ ops, Service.IsBehind o.2.1 o.2.2) →
          (RemoteRunner.new w initialData timeoutMs).trace
              (ops.map fun (op, readings, t) => (op, readings.now, t)) =
            (RemoteRunner.new w initialData timeoutMs).trace
              (ops.map fun (op, readings, _) =>
                (op, readings.now, Service.transport readings))) ∧
    (∀ records : List Record, (∀ r ∈ records, r.Written) →
      (list Record.decoder).Inverts (fun records => .array (records.map Record.toJson)) records ∧
        ((Json.array (records.map Record.toJson)).nesting ≤ Document.depthLimit →
          (list Record.decoder).ofText (exportText records) = .ok records)) := by
  refine ⟨StepReply.decoder_inverts, fun _ => Step.decoder_inverts, fun _ => Run.decoder_inverts,
    fun _ => Record.decoder_inverts, ?_, ?_, ?_⟩
  · intro q hq fresh
    refine ⟨StepRequest.decoder_inverts hq fresh, ?_⟩
    intro readings φ ψ hφ hψ
    exact Service.relay_eq_ok hφ hψ hq readings fresh
  · intro w hw initialData timeoutMs ops hbehind
    exact RemoteRunner.trace_isBehind (r := .new w initialData timeoutMs) hw ops hbehind
  · intro records hrecords
    exact ⟨inverts_list fun r hr => Record.decoder_inverts (hrecords r hr),
      History.ofText_exportText hrecords⟩

/-- An export of two records is read as the two records.  The decision of a workflow is made at the
end of a way on which members are sorted, and a run whose requests all go that way comes to its end
as if the service were called directly. -/
theorem interchange_read_back_sample :
    (∀ r ∈ [History.sampleRecord "a", History.sampleRecord "b"], r.Written) ∧
    (list Record.decoder).ofText
        (exportText [History.sampleRecord "a", History.sampleRecord "b"]) =
      .ok [History.sampleRecord "a", History.sampleRecord "b"] ∧
    (∀ n ∈ Workflow.fork.nodes, n.role.isSupported = true) ∧
    (∃ p : StepReply, p.nextNodeId? = some "cool" ∧
      Service.relay .still (fun _ => "fresh") Json.canonical Json.canonical
          ⟨"fork", Workflow.fork.nodes, Workflow.fork.edges, "check", .single "hot" (.bool true)⟩ =
        .ok (.reply p)) ∧
    ∃ t : Transport, Service.IsBehind .still t ∧
      ((RemoteRunner.new Workflow.fork (.single "hot" (.bool true)) 30000).trace
          ([.start, .forward, .forward, .forward].map (·, Readings.still.now, t))).map
            (Except.map Run.phase) =
        [.ok .running, .ok .running, .ok .running, .ok .completed] := by
  obtain ⟨-, -, -, -, hrequest, htrace, hexport⟩ := interchange_read_back
  have hwritten : ∀ r ∈ [History.sampleRecord "a", History.sampleRecord "b"], r.Written := by
    simp only [List.mem_cons, List.not_mem_nil, or_false]
    rintro r (rfl | rfl)
    · exact (History.sampleRecord_storable "a").toPlain.written
    · exact (History.sampleRecord_storable "b").toPlain.written
  have hsupported : ∀ n ∈ Workflow.fork.nodes, n.role.isSupported = true := by decide
  refine ⟨hwritten, (hexport _ hwritten).2 (by decide), hsupported, ?_, ?_⟩
  · obtain ⟨-, hrelay⟩ := hrequest ⟨"fork", Workflow.fork.nodes, Workflow.fork.edges, "check",
      .single "hot" (.bool true)⟩ hsupported fun _ => "fresh"
    rw [hrelay .still _ _ Json.rearranges_canonical Json.rearranges_canonical]
    refine ⟨_, ?_, rfl⟩
    decide +kernel
  · have hbehind : Service.IsBehind .still fun q =>
        match Service.relay .still (fun _ => "fresh") Json.canonical Json.canonical q with
        | .ok answer => answer
        | .error _ => .silence := by
      refine ⟨fun _ => "fresh", _, _, Json.rearranges_canonical, Json.rearranges_canonical, ?_⟩
      intro q answer hanswer
      simp only [hanswer]
    refine ⟨_, hbehind, ?_⟩
    have hsame := htrace Workflow.fork hsupported (.single "hot" (.bool true)) 30000
      ([.start, .forward, .forward, .forward].map (·, .still, _)) fun o ho => by
        obtain ⟨op, -, rfl⟩ := List.mem_map.1 ho
        exact hbehind
    simp only [List.map_map, Function.comp_def] at hsame
    rw [hsame]
    decide +kernel

end StepFlow
