import StepFlow.Proofs.Graph.Workflow
import StepFlow.Runner.Exchange

/-!
# What a request shows of the workflow

A request carries the nodes of the workflow in their written form, so the service at the other end
sees each node as it is read again (`StepRequest.reads_reread`).  Nodes of known types are the same
there.  A node of an unknown type is the same exactly if the object of its configuration, in the data
from which the node was first read, had no entry under a reserved name: such an entry stands among the
data once the node is written, and there it means something else (`Node.unknown_survives_iff`).
-/

namespace StepFlow

open Decoder Fields Members

variable {φ : Json → Json}

namespace StepRequest

/-- A written request is read with its nodes as they are read. -/
theorem reads_reread (hφ : Json.Rearranges φ) {q : StepRequest}
    (h : ∀ n ∈ q.nodes, n.role.IsProper) (fresh : Nat → String) :
    (decoder fresh).Reads (φ q.toJson) { q with nodes := q.nodes.map Node.reread } := by
  have hnames : (["workflow_id", "nodes", "edges", "current_node_id", "context_snapshot"] :
      List String).Nodup := by decide
  have hfields : ((fields fresh).decoder "StepRequest").Reads (φ q.toJson)
      { q with nodes := q.nodes.map Node.reread } := by
    have hnodes : (list Node.decoder).Reads (φ (.array (q.nodes.map Node.toJson)))
        (q.nodes.map Node.reread) := hφ.reads_list fun n hn => Node.reads_reread hφ (h n hn)
    have hedges := Edge.reads_list hφ fresh q.edges
    refine hφ.reads_record "StepRequest" hnames fun arranged harranged => ?_
    refine Reads.map (x := (q.workflowId, q.nodes.map Node.reread, q.edges, q.currentNodeId,
      q.context)) ?_ _
    refine Reads.both (harranged.reads_required rfl (hφ.reads_string q.workflowId)) ?_
      (by simp [required, both])
    refine Reads.both (harranged.reads_required rfl hnodes) ?_ (by simp [required, both])
    refine Reads.both (harranged.reads_required rfl hedges) ?_ (by simp [required, both])
    refine Reads.both (harranged.reads_required rfl (hφ.reads_string q.currentNodeId)) ?_
      (by simp [required])
    exact harranged.reads_required rfl (hφ.reads_context q.context)
  intro o
  have hold : "global_data" ∉ ["workflow_id", "nodes", "edges", "current_node_id",
      "context_snapshot"] := by decide
  have hrename : (Document.ofJson (φ q.toJson)).renameKey "global_data" "context_snapshot" =
      Document.ofJson (φ q.toJson) := hφ.renameKey_ofJson (by exact hnames) (by exact hold) _
  rw [decoder, hrename]
  exact hfields o

/-- A node of a written request is found where it was, as it is read. -/
theorem node?_reread (q : StepRequest) (id : String) :
    { q with nodes := q.nodes.map Node.reread }.workflow.node? id =
      (q.workflow.node? id).map Node.reread := by
  simp only [workflow, Workflow.node?, List.find?_map, Function.comp_def, Node.reread_id]

end StepRequest

namespace Node

/-- A node of an unknown type is written and read with its identifier and its type, and it is the same
node exactly if no entry of the object of its configuration, in the data from which it was read, has a
reserved name.  The service that receives a request with the node sees the same node in just this
case. -/
theorem unknown_survives_iff {o : Origin} {d : Document} {n : Node} (hread : decoder o d = .ok n)
    (hunknown : n.role.isSupported = false) :
    ∃ data, Node.fields.decoder "RawNode" o d = .ok (n.id, n.role.typeName, data) ∧
      (∀ φ, Json.Rearranges φ → ∃ back, decoder.Reads (φ n.toJson) back ∧ back.id = n.id ∧
        back.role.typeName = n.role.typeName ∧
        (back = n ↔ SparesReserved (nestedConfig data))) ∧
      ∀ φ, Json.Rearranges φ → ∀ (q : StepRequest) (fresh : Nat → String) (id : String),
        (∀ m ∈ q.nodes, m.role.IsProper) → q.workflow.node? id = some n →
          ∃ shown, (StepRequest.decoder fresh).Reads (φ q.toJson) shown ∧
            (shown.workflow.node? id = some n ↔ SparesReserved (nestedConfig data)) := by
  obtain ⟨typeName, data, role, hraw, hrole, hn⟩ := exists_of_decoder hread
  have hsame : n.reread = n ↔ SparesReserved (nestedConfig data) := by
    rw [reread_eq_self_iff hunknown, ← sparesReserved_configOf_iff, hn]
    rw [hn] at hunknown
    obtain ⟨-, rfl⟩ := Role.eq_unsupported_of_ofParts hrole hunknown
    rfl
  refine ⟨data, ?_, ?_, ?_⟩
  · rw [hraw]
    rw [hn] at hunknown ⊢
    obtain ⟨-, rfl⟩ := Role.eq_unsupported_of_ofParts hrole hunknown
    rfl
  · intro φ hφ
    exact ⟨n.reread, reads_reread hφ (isProper_of_decoder hread), n.reread_id, n.reread_typeName,
      hsame⟩
  · intro φ hφ q fresh id hproper hfound
    refine ⟨_, StepRequest.reads_reread hφ hproper fresh, ?_⟩
    rw [q.node?_reread, hfound, Option.map_some, Option.some_inj]
    exact hsame

/-- A node of an unknown type with one flat entry and the given object of its configuration. -/
def bogusJson (config : List (String × Json)) : Json :=
  .object
    [("id", .string "x"), ("type", .string "bogus"),
      ("data", .object [("size", .ofInt 1), ("config", .object config)])]

/-- The node that is read there where the object has an entry for the unit. -/
def bogusNode : Node where
  id := "x"
  label? := none
  role := .unsupported "bogus" (.ofMembers [("size", .ofInt 1), ("unit", .string "cm")])

theorem unknown_survives_bogus :
    decoder.ofJson (bogusJson [("unit", .string "cm")]) = .ok bogusNode ∧
      bogusNode.role.isSupported = false ∧ decoder.Reads bogusNode.toJson bogusNode ∧
      ∃ shown, (StepRequest.decoder fun _ => "fresh").Reads
          (StepRequest.mk "w" [bogusNode] [] "x" .empty).toJson shown ∧
        shown.workflow.node? "x" = some bogusNode := by
  have hread : decoder .value (.ofJson (bogusJson [("unit", .string "cm")])) = .ok bogusNode := rfl
  obtain ⟨data, hraw, hback, hshown⟩ := unknown_survives_iff hread rfl
  have hdata : fields.decoder "RawNode" .value (.ofJson (bogusJson [("unit", .string "cm")])) =
      .ok ("x", "bogus", .ofMembers [("size", .ofInt 1),
        ("config", .object [("unit", .string "cm")])]) := rfl
  have hspares : SparesReserved (nestedConfig data) := by
    cases hraw.symm.trans hdata
    decide
  have hproper : ∀ m ∈ [bogusNode], m.role.IsProper := by
    intro m hm
    cases List.mem_singleton.1 hm
    exact isProper_of_decoder hread
  obtain ⟨back, hreads, -, -, hsame⟩ := hback _ Json.rearranges_id
  obtain ⟨shown, hrequest, hfound⟩ := hshown _ Json.rearranges_id
    (StepRequest.mk "w" [bogusNode] [] "x" .empty) (fun _ => "fresh") "x" hproper rfl
  exact ⟨rfl, rfl, hsame.2 hspares ▸ hreads, shown, hrequest, hfound.2 hspares⟩

/-- An entry for a label in the object of the configuration is taken for the label of the node when
the node is read again. -/
theorem unknown_loses_nested_label :
    ∃ n back, decoder.ofJson (bogusJson [("label", .string "inner")]) = .ok n ∧
      n.role.isSupported = false ∧ decoder.ofJson n.toJson = .ok back ∧ back ≠ n := by
  refine ⟨_, _, rfl, rfl, rfl, ?_⟩
  decide

end Node

end StepFlow
