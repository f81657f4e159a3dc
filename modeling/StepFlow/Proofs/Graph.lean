import Mathlib.Data.List.Nodup
import StepFlow.Graph.Validation

/-!
# Valid workflows and the edges by which a run leaves

Two readings of the lookups of a workflow.  `Workflow.validate_eq_ok_iff` says what the check
accepts: no identifier occurs twice and both ends of every edge are nodes.  In a valid workflow
a node is found under its own identifier and the target of an edge is always found.

`Workflow.Exit` is the choice of the edge by which a run leaves a node, stated by the position
of the edge among all edges and without a search; `Workflow.exit?_eq_some_iff` and
`Workflow.exit?_eq_none_iff` say that the search of the library makes exactly this choice.
-/

namespace StepFlow

/-- An entry is the first of a list with a property. -/
def FirstWith {α : Type} (p : α → Prop) (l : List α) (a : α) : Prop :=
  p a ∧ ∃ before after, l = before ++ a :: after ∧ ∀ x ∈ before, ¬p x

/-- A search finds the first entry with its property. -/
theorem firstWith_iff_find? {α : Type} {p : α → Prop} {q : α → Bool} (h : ∀ x, q x = true ↔ p x)
    {l : List α} {a : α} : FirstWith p l a ↔ l.find? q = some a := by
  rw [List.find?_eq_some_iff_append]
  simp [FirstWith, ← h]

theorem FirstWith.mem {α : Type} {p : α → Prop} {l : List α} {a : α} (h : FirstWith p l a) :
    a ∈ l := by
  obtain ⟨-, before, after, rfl, -⟩ := h
  simp

namespace Workflow

variable {w : Workflow}

/-! ## Valid workflows -/

/-- No two nodes share an identifier, and every edge joins two nodes. -/
structure IsValid (w : Workflow) : Prop where
  nodup : (w.nodes.map (·.id)).Nodup
  source_mem : ∀ e ∈ w.edges, e.source ∈ w.nodes.map (·.id)
  target_mem : ∀ e ∈ w.edges, e.target ∈ w.nodes.map (·.id)

/-- No text is repeated exactly if the list has no duplicates, not even of those seen before. -/
theorem firstRepeated?_eq_none_iff {seen ids : List String} :
    firstRepeated? seen ids = none ↔ ids.Nodup ∧ ∀ id ∈ ids, id ∉ seen := by
  induction ids generalizing seen with
  | nil => simp [firstRepeated?]
  | cons id rest ih =>
    by_cases hseen : id ∈ seen
    · simp [firstRepeated?, hseen]
    · simp only [firstRepeated?, hseen, if_false, ih, List.nodup_cons, List.mem_cons, not_or,
        forall_eq_or_imp, not_false_eq_true, true_and]
      constructor
      · rintro ⟨hnodup, hrest⟩
        exact ⟨⟨fun hmem => (hrest id hmem).1 rfl, hnodup⟩, fun x hx => (hrest x hx).2⟩
      · rintro ⟨⟨hid, hnodup⟩, hrest⟩
        exact ⟨hnodup, fun x hx => ⟨fun heq => hid (heq ▸ hx), hrest x hx⟩⟩

/-- No edge dangles exactly if both ends of all edges are known. -/
theorem firstDangling?_eq_none_iff {known : List String} {edges : List Edge} :
    firstDangling? known edges = none ↔ ∀ e ∈ edges, e.source ∈ known ∧ e.target ∈ known := by
  induction edges with
  | nil => simp [firstDangling?]
  | cons e rest ih =>
    have hends : unknownEnd? known e = none ↔ e.source ∈ known ∧ e.target ∈ known := by
      simp [unknownEnd?, List.find?_eq_none]
    simp only [firstDangling?, List.mem_cons, forall_eq_or_imp, ← hends]
    cases hend : unknownEnd? known e with
    | none => simpa using ih
    | some id => simp

/-- The check accepts exactly the valid workflows. -/
theorem validate_eq_ok_iff : w.validate = .ok () ↔ w.IsValid := by
  have hrepeated : firstRepeated? [] (w.nodes.map (·.id)) = none ↔
      (w.nodes.map (·.id)).Nodup ∧ ∀ id ∈ w.nodes.map (·.id), id ∉ [] :=
    firstRepeated?_eq_none_iff
  have hdangling : firstDangling? (w.nodes.map (·.id)) w.edges = none ↔
      ∀ e ∈ w.edges, e.source ∈ w.nodes.map (·.id) ∧ e.target ∈ w.nodes.map (·.id) :=
    firstDangling?_eq_none_iff
  unfold validate
  constructor
  · intro h
    cases hr : firstRepeated? [] (w.nodes.map (·.id)) with
    | some id => simp [hr] at h
    | none =>
      cases hd : firstDangling? (w.nodes.map (·.id)) w.edges with
      | some found => simp [hr, hd] at h
      | none =>
        exact ⟨(hrepeated.1 hr).1, fun e he => (hdangling.1 hd e he).1,
          fun e he => (hdangling.1 hd e he).2⟩
  · intro h
    have hr := hrepeated.2 ⟨h.nodup, fun _ _ => List.not_mem_nil⟩
    have hd := hdangling.2 fun e he => ⟨h.source_mem e he, h.target_mem e he⟩
    simp [hr, hd]

/-- A workflow whose decision `check` skips the node `cool` unless the data say that it is hot. -/
def fork : Workflow where
  id := "fork"
  name := ""
  nodes := [⟨"in", none, .input⟩, ⟨"check", none, .decision "hot"⟩, ⟨"cool", none, .action "cool"⟩,
    ⟨"done", none, .output⟩]
  edges := [.between "in" "check", (Edge.between "check" "done").onBranch false,
    (Edge.between "check" "cool").onBranch true, .between "cool" "done"]

example : fork.validate = .ok () := by decide

/-- A node that is found is one of the workflow and has the identifier that was asked for. -/
theorem mem_of_node? {id : String} {n : Node} (h : w.node? id = some n) :
    n ∈ w.nodes ∧ n.id = id :=
  ⟨List.mem_of_find?_eq_some h, by simpa using List.find?_some h⟩

/-- In a valid workflow a node is found under its own identifier. -/
theorem IsValid.node?_id (h : w.IsValid) {n : Node} (hn : n ∈ w.nodes) : w.node? n.id = some n := by
  cases hfound : w.node? n.id with
  | none => simp [node?, List.find?_eq_none] at hfound; exact absurd rfl (hfound n hn)
  | some m =>
    obtain ⟨hm, hid⟩ := mem_of_node? hfound
    rw [List.inj_on_of_nodup_map h.nodup hm hn hid]

/-- In a valid workflow the target of every edge is found. -/
theorem IsValid.exists_node?_target (h : w.IsValid) {e : Edge} (he : e ∈ w.edges) :
    ∃ n, w.node? e.target = some n := by
  obtain ⟨n, hn, hid⟩ := List.mem_map.1 (h.target_mem e he)
  exact ⟨n, hid ▸ h.node?_id hn⟩

/-- The entry of a workflow is its first node at which a run can start. -/
theorem entry?_eq_some_iff {n : Node} :
    w.entry? = some n ↔ FirstWith (fun m => m.role.isEntry = true) w.nodes n :=
  (firstWith_iff_find? fun _ => Iff.rfl).symm

/-! ## The edge by which a run leaves -/

/-- The edge by which a run leaves the node with an identifier.  Without a decision it is the
first edge from there; after a decision it is the first one with that label, and if no edge has
it, the first without any label. -/
inductive Exit (w : Workflow) (id : String) : Option Bool → Edge → Prop
  | undecided {e : Edge} : FirstWith (fun e => e.source = id) w.edges e → Exit w id none e
  | labelled {b : Bool} {e : Edge} :
      FirstWith (fun e => e.source = id ∧ e.label? = some b) w.edges e → Exit w id (some b) e
  | unlabelled {b : Bool} {e : Edge} :
      (∀ e ∈ w.edges, e.source = id → e.label? ≠ some b) →
      FirstWith (fun e => e.source = id ∧ e.label? = none) w.edges e → Exit w id (some b) e

variable {id : String} {e : Edge}

/-- A run leaves by an edge of the workflow. -/
theorem Exit.mem {branch? : Option Bool} (h : w.Exit id branch? e) : e ∈ w.edges := by
  cases h with
  | undecided h => exact h.mem
  | labelled h => exact h.mem
  | unlabelled _ h => exact h.mem

/-- After a decision a run never leaves by an edge labelled with its opposite. -/
theorem Exit.label_ne {b : Bool} (h : w.Exit id (some b) e) : e.label? ≠ some (!b) := by
  cases h with
  | labelled h => simp [h.1.2]
  | unlabelled _ h => simp [h.1.2]

/-- The search for the edge by which a run leaves makes the choice of `Exit`. -/
theorem exit?_eq_some_iff {branch? : Option Bool} :
    w.exit? id branch? = some e ↔ w.Exit id branch? e := by
  have hfirst : ∀ {b? : Option Bool} {e : Edge},
      FirstWith (fun e => e.source = id ∧ e.label? = b?) w.edges e ↔
        (w.outgoing id).find? (·.label? == b?) = some e := by
    intro b? e
    rw [outgoing, List.find?_filter]
    exact firstWith_iff_find? fun e => by simp
  cases branch? with
  | none =>
    have hhead : w.exit? id none = w.edges.find? (·.source == id) := List.head?_filter ..
    rw [hhead, ← firstWith_iff_find? (p := fun e => e.source = id) fun e => by simp]
    exact ⟨.undecided, fun | .undecided h => h⟩
  | some b =>
    have hnone : (w.outgoing id).find? (·.label? == some b) = none ↔
        ∀ e ∈ w.edges, e.source = id → e.label? ≠ some b := by
      simp [outgoing, List.find?_eq_none]
    have hunlabelled : (w.outgoing id).find? (·.label?.isNone) =
        (w.outgoing id).find? (·.label? == none) := by
      congr 1
      funext e
      cases e.label? <;> rfl
    simp only [exit?, hunlabelled]
    constructor
    · intro h
      cases hlabelled : (w.outgoing id).find? (·.label? == some b) with
      | some found =>
        rw [hlabelled] at h
        cases h
        exact .labelled (hfirst.2 hlabelled)
      | none =>
        rw [hlabelled] at h
        exact .unlabelled (hnone.1 hlabelled) (hfirst.2 h)
    · intro h
      cases h with
      | labelled h => rw [hfirst.1 h]; rfl
      | unlabelled hno h => rw [hnone.2 hno, hfirst.1 h]; rfl

/-- There is no edge to leave by exactly if the choice of `Exit` is empty. -/
theorem exit?_eq_none_iff {branch? : Option Bool} :
    w.exit? id branch? = none ↔ ∀ e, ¬w.Exit id branch? e := by
  simp only [← exit?_eq_some_iff, Option.eq_none_iff_forall_ne_some]

/-- The node that follows is the target of the edge by which the run leaves. -/
theorem successor?_eq_some_iff {branch? : Option Bool} {n : Node} :
    w.successor? id branch? = some n ↔ ∃ e, w.Exit id branch? e ∧ w.node? e.target = some n := by
  simp only [successor?, Option.bind_eq_some_iff, exit?_eq_some_iff]

/-- In a valid workflow a node without a successor has no edge to leave by. -/
theorem IsValid.successor?_eq_none_iff (h : w.IsValid) {branch? : Option Bool} :
    w.successor? id branch? = none ↔ ∀ e, ¬w.Exit id branch? e := by
  constructor
  · intro hnone e he
    obtain ⟨n, hn⟩ := h.exists_node?_target he.mem
    rw [successor?_eq_some_iff.2 ⟨e, he, hn⟩] at hnone
    cases hnone
  · intro hno
    rw [successor?, exit?_eq_none_iff.2 hno, Option.bind_none]

end Workflow

end StepFlow
