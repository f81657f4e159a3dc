import StepFlow.Proofs.Context.Nesting
import StepFlow.Proofs.Graph.Node

/-!
# Workflows that are written and read again

A workflow is read in many spellings: with or without identifiers of its edges, with other names of
types, with configurations in objects of their own, among members that nobody asks for.  It is
written in one.  `Workflow.round_trip_of_supported` says that this one is read as the same workflow,
if the types of all nodes are known; so what is written after it was read is what was written
before.
-/

namespace StepFlow

open Decoder Fields Members

variable {φ : Json → Json}

/-! ## Nesting -/

/-- The configuration of a role of a known type holds only texts. -/
theorem Role.nesting_config_le {role : Role} (h : role.isSupported = true) :
    role.config.toJson.nesting ≤ 1 := by
  have hoptional : ∀ name s?, Json.nestingMembers (optionalText name s?) = 0 := by
    intro name s?
    cases s? <;> rfl
  cases role with
  | unsupported typeName config => cases h
  | input => exact Nat.le_refl _
  | dataInput => exact Nat.le_refl _
  | output => exact Nat.le_refl _
  | resultOutput => exact Nat.le_refl _
  | _ =>
    refine Context.nesting_ofMembers_le ?_
    simp [Json.nestingMembers, Json.nesting, hoptional]

theorem Node.nesting_toJson_le {n : Node} (h : n.role.isSupported = true) :
    n.toJson.nesting ≤ 2 := by
  have hdata : n.data.toJson.nesting ≤ 1 := by
    unfold data
    split
    · exact Context.nesting_insert_le (Role.nesting_config_le h) (Nat.le_refl _)
    · exact Role.nesting_config_le h
  simp only [toJson, Json.nesting, Json.nestingMembers]
  omega

theorem Edge.nesting_toJson_le (e : Edge) : e.toJson.nesting ≤ 2 := by
  obtain ⟨id, source, target, branch?, handle?⟩ := e
  cases branch? <;> cases handle? <;>
    simp [toJson, Role.optionalText, Json.nesting, Json.nestingMembers]

namespace Edge

/-! ## Edges -/

/-- A written edge is read back, whatever identifier it would get without its own. -/
theorem reads_draft (hφ : Json.Rearranges φ) (e : Edge) :
    draftDecoder.Reads (φ e.toJson) fun _ => e := by
  obtain ⟨id, source, target, branch?, handle?⟩ := e
  have hid : Decoder.Reads (fun o d => (Decoder.string o d).map some) (φ (.string id)) (some id) := by
    rw [hφ.string]
    exact fun _ => rfl
  refine hφ.reads_record "EdgeSpec" ?_ fun arranged h => ?_
  · cases branch? <;> cases handle? <;> simp [Role.optionalText]
  refine Reads.map (x := (some id, source, target, branch?, handle?)) ?_ _
  refine Reads.both (h.reads_defaulted rfl hid) ?_ (by decide)
  refine Reads.both (h.reads_required rfl (hφ.reads_string source)) ?_ (by decide)
  refine Reads.both (h.reads_required rfl (hφ.reads_string target)) ?_ (by decide)
  -- Whether a member is there or not depends on the edge.
  refine Reads.both (h.reads_optional ?_ hφ.reads_bool (by simp [hφ.bool])) ?_ (by decide)
  · cases branch? <;> cases handle? <;> rfl
  · refine h.reads_optional ?_ hφ.reads_string (by simp [hφ.string])
    cases branch? <;> cases handle? <;> rfl

/-- Written edges are read back as a list, and the fresh identifiers are not used. -/
theorem reads_list (hφ : Json.Rearranges φ) (fresh : Nat → String) (edges : List Edge) :
    (listDecoder fresh).Reads (φ (.array (edges.map toJson))) edges := by
  have hdrafts : (Decoder.list draftDecoder).Reads (φ (.array (edges.map toJson)))
      (edges.map fun e _ => e) := hφ.reads_list fun e _ => reads_draft hφ e
  intro o
  rw [listDecoder, hdrafts o]
  simp [Except.map, List.zipIdx_map, Function.comp_def]

end Edge

namespace Workflow

/-! ## Workflows -/

/-- A written workflow is read with its nodes as they are read. -/
theorem reads_reread (hφ : Json.Rearranges φ) {w : Workflow} (h : ∀ n ∈ w.nodes, n.role.IsProper)
    (fresh : Nat → String) :
    (decoder fresh).Reads (φ w.toJson) { w with nodes := w.nodes.map Node.reread } := by
  have hnames : (["id", "name", "nodes", "edges"] : List String).Nodup := by decide
  have hnodes : (list Node.decoder).Reads (φ (.array (w.nodes.map Node.toJson)))
      (w.nodes.map Node.reread) := hφ.reads_list fun n hn => Node.reads_reread hφ (h n hn)
  have hedges := Edge.reads_list hφ (fun i => fresh (i + 1)) w.edges
  refine hφ.reads_record "WorkflowGraph" hnames fun arranged harranged => ?_
  refine Reads.map (x := (w.id, w.name, w.nodes.map Node.reread, w.edges)) ?_ _
  refine Reads.both (harranged.reads_defaulted rfl (hφ.reads_string w.id)) ?_
    (by simp [required, defaulted, both])
  refine Reads.both (harranged.reads_defaulted rfl (hφ.reads_string w.name)) ?_
    (by simp [required, defaulted, both])
  refine Reads.both (harranged.reads_required rfl hnodes) ?_ (by simp [required, defaulted])
  exact harranged.reads_defaulted rfl hedges

/-- A written workflow with roles of known types nests four levels deep. -/
theorem nesting_toJson_le {w : Workflow} (h : ∀ n ∈ w.nodes, n.role.isSupported = true) :
    w.toJson.nesting ≤ 4 := by
  have hnodes : Json.nestingItems (w.nodes.map Node.toJson) ≤ 2 := by
    refine Json.nestingItems_le_iff.2 fun item hitem => ?_
    obtain ⟨n, hn, rfl⟩ := List.mem_map.1 hitem
    exact Node.nesting_toJson_le (h n hn)
  have hedges : Json.nestingItems (w.edges.map Edge.toJson) ≤ 2 := by
    refine Json.nestingItems_le_iff.2 fun item hitem => ?_
    obtain ⟨e, -, rfl⟩ := List.mem_map.1 hitem
    exact e.nesting_toJson_le
  simp only [toJson, Json.nesting, Json.nestingMembers]
  omega

/-- However a workflow was spelled when it was read, if the types of its nodes are all known, what is
written of it is read as the same workflow, in any order of the members and also from the text; so it
is written as before. -/
theorem round_trip_of_supported {w : Workflow} (h : ∀ n ∈ w.nodes, n.role.isSupported = true)
    (fresh : Nat → String) :
    (∀ φ, Json.Rearranges φ →
      (decoder fresh).Reads (φ w.toJson) w ∧
        ((decoder fresh).ofJson (φ w.toJson)).map (fun back => φ back.toJson) = .ok (φ w.toJson)) ∧
      ofText fresh w.toJson.compact = .ok w := by
  have hproper : ∀ n ∈ w.nodes, n.role.IsProper :=
    fun n hn => Role.isProper_of_isSupported (h n hn)
  have hreads : ∀ φ, Json.Rearranges φ → (decoder fresh).Reads (φ w.toJson) w := by
    intro φ hφ
    have hreread := reads_reread hφ hproper fresh
    rwa [Node.map_reread_of_isSupported h] at hreread
  refine ⟨fun φ hφ => ⟨hreads φ hφ, ?_⟩, ?_⟩
  · rw [Decoder.ofJson, hreads φ hφ .value]
    rfl
  · have hnesting : w.toJson.nesting ≤ Document.depthLimit :=
      (nesting_toJson_le h).trans (by decide)
    exact mapError_eq_ok_iff.2 ((hreads _ Json.rearranges_id).ofText hnesting)

/-- A workflow as an editor may write it: another spelling of a type, a label that is no text, a
configuration in an object of its own and flat entries beside it, names that nobody asks for, and
identifiers left out. -/
def editorJson : Json :=
  .object
    [("name", .string "check"), ("zoom", .ofInt 2),
      ("nodes", .array
        [.object [("type", .string "input"), ("id", .string "in"),
            ("data", .object [("label", .ofInt 7)])],
          .object [("id", .string "check"), ("type", .string "condition"),
            ("data", .object [("label", .string "hot?"), ("rule", .string "hot"),
              ("colour", .string "red")])],
          .object [("id", .string "warn"), ("type", .string "notification"),
            ("data", .object [("channel", .string "mail"),
              ("config", .object [("channel", .string "chat"), ("message", .string "hot")])])],
          .object [("id", .string "done"), ("type", .string "data-output")]]),
      ("edges", .array
        [.object [("source", .string "in"), ("target", .string "check")],
          .object [("id", .string "hot"), ("source", .string "check"), ("target", .string "warn"),
            ("sourceHandle", .string "true")],
          .object [("id", .string "cold"), ("source", .string "check"),
            ("target", .string "done"), ("branch", .bool false)]])]

/-- The workflow that the editor means, where all fresh identifiers are `fresh`. -/
def editorWorkflow : Workflow where
  id := "wf-fresh"
  name := "check"
  nodes := [⟨"in", none, .input⟩, ⟨"check", some "hot?", .decision "hot"⟩,
    ⟨"warn", none, .notification "chat" "hot"⟩, ⟨"done", none, .output⟩]
  edges := [⟨"fresh", "in", "check", none, none⟩, ⟨"hot", "check", "warn", none, some "true"⟩,
    ⟨"cold", "check", "done", some false, none⟩]

theorem round_trip_of_editor :
    (decoder fun _ => "fresh").ofJson editorJson = .ok editorWorkflow ∧
      (∀ n ∈ editorWorkflow.nodes, n.role.isSupported = true) ∧
      (decoder fun _ => "other").Reads editorWorkflow.toJson.canonical editorWorkflow ∧
      ofText (fun _ => "other") editorWorkflow.toJson.compact = .ok editorWorkflow := by
  have hsupported : ∀ n ∈ editorWorkflow.nodes, n.role.isSupported = true := by decide
  obtain ⟨hreads, htext⟩ := round_trip_of_supported hsupported fun _ => "other"
  exact ⟨rfl, hsupported, (hreads _ Json.rearranges_canonical).1, htext⟩

end Workflow

end StepFlow
