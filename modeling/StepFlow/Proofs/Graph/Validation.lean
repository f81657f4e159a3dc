import StepFlow.Proofs.Graph

/-!
# What the check of a workflow finds

`Workflow.Offence` says what is wrong with a workflow by the place of the first offender: the
earliest node whose identifier another node before it has, or, where no identifier is repeated, the
earliest edge with an end that is no node.  `Workflow.validate_eq_error_iff` says that the check
reports this and nothing else, so that it accepts a workflow exactly if nothing is wrong with it.

A run relies on the check when it leaves a node: in a workflow that was accepted it ends only where
no edge can be taken, and the node that it goes on to is the only one with its identifier
(`Workflow.IsValid.successor?_eq_none_iff_not_eligible`, `Workflow.IsValid.filter_id`).
-/

namespace StepFlow

/-- The edge can be taken after a decision, or where there was none: it has the label of the
decision or no label at all. -/
def Edge.IsEligible (e : Edge) (branch? : Option Bool) : Prop :=
  ∀ b, branch? = some b → e.label? = some b ∨ e.label? = none

namespace Workflow

variable {w : Workflow}

/-! ## The first offender -/

/-- An end of an edge that is not among the known identifiers.  Of two unknown ends it is the
source. -/
inductive UnknownEnd (known : List String) (e : Edge) : String → Prop
  | source : e.source ∉ known → UnknownEnd known e e.source
  | target : e.source ∈ known → e.target ∉ known → UnknownEnd known e e.target

/-- What is wrong with a workflow, told by its first offender.  Edges are looked at only where no
identifier is repeated. -/
inductive Offence (w : Workflow) : WorkflowError → Prop
  /-- The identifier of a node is among those before it, which are all different. -/
  | repeated {before after : List Node} {n : Node} :
      w.nodes = before ++ n :: after → (before.map (·.id)).Nodup → n.id ∈ before.map (·.id) →
      Offence w (.duplicateNode n.id)
  /-- An end of an edge is no node, and both ends of every edge before it are. -/
  | dangling {before after : List Edge} {e : Edge} {id : String} :
      (w.nodes.map (·.id)).Nodup → w.edges = before ++ e :: after →
      (∀ e ∈ before, e.source ∈ w.nodes.map (·.id) ∧ e.target ∈ w.nodes.map (·.id)) →
      UnknownEnd (w.nodes.map (·.id)) e id → Offence w (.danglingEdge e.id id)

variable {known seen ids : List String} {edges : List Edge} {e : Edge} {id edge : String}

/-- The text that is found to be repeated is among those before it, which are new and all
different. -/
theorem firstRepeated?_eq_some_iff :
    firstRepeated? seen ids = some id ↔
      ∃ before after, ids = before ++ id :: after ∧ before.Nodup ∧ (∀ x ∈ before, x ∉ seen) ∧
        (id ∈ seen ∨ id ∈ before) := by
  induction ids generalizing seen with
  | nil => simp [firstRepeated?]
  | cons x rest ih =>
    by_cases hseen : x ∈ seen
    · simp only [firstRepeated?, if_pos hseen, Option.some.injEq]
      constructor
      · intro hx
        exact ⟨[], rest, by rw [hx, List.nil_append], List.nodup_nil, by simp, .inl (hx ▸ hseen)⟩
      · rintro ⟨before, after, hsplit, -, hnew, -⟩
        rcases List.append_eq_cons_iff.1 hsplit.symm with ⟨-, hid⟩ | ⟨more, rfl, -⟩
        · exact (List.cons.inj hid).1.symm
        · exact absurd hseen (hnew x List.mem_cons_self)
    · -- The text is new, so it is one of those before the repeated one.
      simp only [firstRepeated?, if_neg hseen, ih, List.mem_cons, not_or]
      constructor
      · rintro ⟨before, after, rfl, hnodup, hnew, hid⟩
        refine ⟨x :: before, after, rfl, List.nodup_cons.2 ⟨fun hx => (hnew x hx).1 rfl, hnodup⟩,
          ?_, ?_⟩
        · intro y hy
          rcases List.mem_cons.1 hy with rfl | hy
          · exact hseen
          · exact (hnew y hy).2
        · rcases hid with (rfl | hid) | hid
          · exact .inr List.mem_cons_self
          · exact .inl hid
          · exact .inr (List.mem_cons_of_mem _ hid)
      · rintro ⟨before, after, hsplit, hnodup, hnew, hid⟩
        rcases List.append_eq_cons_iff.1 hsplit.symm with ⟨rfl, hcons⟩ | ⟨more, rfl, hrest⟩
        · obtain ⟨rfl, -⟩ := List.cons.inj hcons
          exact absurd hid (by simp [hseen])
        · obtain ⟨hx, hmore⟩ := List.nodup_cons.1 hnodup
          refine ⟨more, after, hrest, hmore, fun y hy => ⟨?_, hnew y (List.mem_cons_of_mem _ hy)⟩, ?_⟩
          · rintro rfl
            exact hx hy
          · rcases hid with hid | hid
            · exact .inl (.inr hid)
            · exact (List.mem_cons.1 hid).imp_left .inl

/-- Of the ends of an edge the source is looked at first. -/
theorem unknownEnd?_eq_some_iff : unknownEnd? known e = some id ↔ UnknownEnd known e id := by
  unfold unknownEnd?
  constructor
  · intro h
    by_cases hsource : e.source ∈ known
    · by_cases htarget : e.target ∈ known
      · simp [hsource, htarget] at h
      · obtain rfl : e.target = id := by simpa [hsource, htarget] using h
        exact .target hsource htarget
    · obtain rfl : e.source = id := by simpa [hsource] using h
      exact .source hsource
  · rintro (hsource | ⟨hsource, htarget⟩)
    · simp [hsource]
    · simp [hsource, htarget]

theorem unknownEnd?_eq_none_iff :
    unknownEnd? known e = none ↔ e.source ∈ known ∧ e.target ∈ known := by
  simp [unknownEnd?, List.find?_eq_none]

theorem firstDangling?_eq_findSome? :
    firstDangling? known edges =
      edges.findSome? fun e => (unknownEnd? known e).map fun id => (e.id, id) := by
  induction edges with
  | nil => rfl
  | cons e rest ih =>
    rw [firstDangling?, List.findSome?_cons, ← ih]
    cases unknownEnd? known e <;> rfl

/-- The edge that is found to dangle is the first one with an unknown end. -/
theorem firstDangling?_eq_some_iff :
    firstDangling? known edges = some (edge, id) ↔
      ∃ before e after, edges = before ++ e :: after ∧ e.id = edge ∧ UnknownEnd known e id ∧
        ∀ e ∈ before, e.source ∈ known ∧ e.target ∈ known := by
  simp only [firstDangling?_eq_findSome?, List.findSome?_eq_some_iff, Option.map_eq_some_iff,
    Option.map_eq_none_iff, Prod.mk.injEq, unknownEnd?_eq_some_iff, unknownEnd?_eq_none_iff]
  constructor
  · rintro ⟨before, e, after, hsplit, ⟨_, hend, rfl, rfl⟩, hbefore⟩
    exact ⟨before, e, after, hsplit, rfl, hend, hbefore⟩
  · rintro ⟨before, e, after, hsplit, rfl, hend, hbefore⟩
    exact ⟨before, e, after, hsplit, ⟨id, hend, rfl, rfl⟩, hbefore⟩

/-- The check reports what is wrong with the workflow. -/
theorem validate_eq_error_iff {error : WorkflowError} :
    w.validate = .error error ↔ w.Offence error := by
  have hnodup : firstRepeated? [] (w.nodes.map (·.id)) = none ↔ (w.nodes.map (·.id)).Nodup := by
    simp [firstRepeated?_eq_none_iff]
  constructor
  · intro h
    unfold validate at h
    cases hrepeated : firstRepeated? [] (w.nodes.map (·.id)) with
    | some id =>
      simp only [hrepeated, Except.error.injEq] at h
      subst h
      obtain ⟨before, after, hsplit, hbefore, -, hid⟩ := firstRepeated?_eq_some_iff.1 hrepeated
      obtain ⟨front, behind, hnodes, rfl, hbehind⟩ := List.map_eq_append_iff.1 hsplit
      obtain ⟨n, back, rfl, rfl, -⟩ := List.map_eq_cons_iff.1 hbehind
      exact .repeated hnodes hbefore (hid.resolve_left List.not_mem_nil)
    | none =>
      cases hdangling : firstDangling? (w.nodes.map (·.id)) w.edges with
      | none => simp [hrepeated, hdangling] at h
      | some found =>
        obtain ⟨edge, id⟩ := found
        simp only [hrepeated, hdangling, Except.error.injEq] at h
        subst h
        obtain ⟨before, e, after, hsplit, rfl, hend, hbefore⟩ :=
          firstDangling?_eq_some_iff.1 hdangling
        exact .dangling (hnodup.1 hrepeated) hsplit hbefore hend
  · intro h
    cases h with
    | @repeated before after n hnodes hbefore hid =>
      have hrepeated : firstRepeated? [] (w.nodes.map (·.id)) = some n.id :=
        firstRepeated?_eq_some_iff.2 ⟨before.map (·.id), after.map (·.id), by simp [hnodes], hbefore,
          fun _ _ => List.not_mem_nil, .inr hid⟩
      simp [validate, hrepeated]
    | @dangling before after e id hids hedges hbefore hend =>
      have hdangling : firstDangling? (w.nodes.map (·.id)) w.edges = some (e.id, id) :=
        firstDangling?_eq_some_iff.2 ⟨before, e, after, hedges, rfl, hend, hbefore⟩
      simp [validate, hnodup.2 hids, hdangling]

/-! ## Leaving a node of a valid workflow -/

/-- There is an edge by which a run leaves exactly if one can be taken. -/
theorem exists_exit_iff {branch? : Option Bool} :
    (∃ e, w.Exit id branch? e) ↔ ∃ e ∈ w.edges, e.source = id ∧ e.IsEligible branch? := by
  constructor
  · rintro ⟨e, hexit⟩
    refine ⟨e, hexit.mem, ?_⟩
    cases hexit with
    | undecided h => exact ⟨h.1, nofun⟩
    | labelled h => exact ⟨h.1.1, fun b hb => .inl (Option.some.inj hb ▸ h.1.2)⟩
    | unlabelled _ h => exact ⟨h.1.1, fun _ _ => .inr h.1.2⟩
  · rintro ⟨e, hmem, hsource, heligible⟩
    by_contra hnone
    have hexit := exit?_eq_none_iff.2 (not_exists.1 hnone)
    have houtgoing : e ∈ w.outgoing id := by simp [outgoing, hmem, hsource]
    cases branch? with
    | none =>
      rw [exit?, List.head?_eq_none_iff] at hexit
      rw [hexit] at houtgoing
      cases houtgoing
    | some b =>
      simp only [exit?, Option.or_eq_none_iff, Option.orElse_eq_orElse, Option.orElse_eq_or,
        List.find?_eq_none] at hexit
      rcases heligible b rfl with hlabel | hlabel
      · exact hexit.1 e houtgoing (by simp [hlabel])
      · exact hexit.2 e houtgoing (by simp [hlabel])

/-- In a valid workflow a node has no successor exactly if no edge from it can be taken. -/
theorem IsValid.successor?_eq_none_iff_not_eligible (h : w.IsValid) {branch? : Option Bool} :
    w.successor? id branch? = none ↔
      ∀ e ∈ w.edges, e.source = id → ¬e.IsEligible branch? := by
  rw [h.successor?_eq_none_iff, ← not_exists, exists_exit_iff]
  simp

/-- In a valid workflow a node is the only one with its identifier. -/
theorem IsValid.filter_id (h : w.IsValid) {n : Node} (hn : n ∈ w.nodes) :
    w.nodes.filter (·.id = n.id) = [n] := by
  obtain ⟨before, after, hnodes⟩ := List.append_of_mem hn
  have hnodup := h.nodup
  rw [hnodes, List.map_append, List.map_cons, List.nodup_middle, List.nodup_cons,
    ← List.map_append] at hnodup
  have hothers : ∀ m ∈ before ++ after, m.id ≠ n.id := by
    intro m hm heq
    exact hnodup.1 (heq ▸ List.mem_map_of_mem hm)
  have hbefore : before.filter (·.id = n.id) = [] := by
    simpa [List.filter_eq_nil_iff] using fun m hm => hothers m (List.mem_append_left _ hm)
  have hafter : after.filter (·.id = n.id) = [] := by
    simpa [List.filter_eq_nil_iff] using fun m hm => hothers m (List.mem_append_right _ hm)
  simp [hnodes, hbefore, hafter]

/-- The check accepts exactly the valid workflows, and otherwise it names the first offender: a
repeated identifier, whatever the edges are, or else an edge that dangles.  In a workflow that it
accepts a node has no successor only if no edge from it can be taken, and a successor is the only
node with its identifier. -/
theorem validate_names_first_offender (w : Workflow) :
    (w.validate = .ok () ↔ w.IsValid) ∧
    (∀ error, w.validate = .error error ↔ w.Offence error) ∧
    (¬(w.nodes.map (·.id)).Nodup → ∃ id, w.validate = .error (.duplicateNode id)) ∧
    ((w.nodes.map (·.id)).Nodup → ¬w.IsValid →
      ∃ edge id, w.validate = .error (.danglingEdge edge id)) ∧
    (w.validate = .ok () → ∀ id branch?,
      (w.successor? id branch? = none ↔ ∀ e ∈ w.edges, e.source = id → ¬e.IsEligible branch?) ∧
      ∀ n, w.successor? id branch? = some n → w.nodes.filter (·.id = n.id) = [n]) := by
  -- A workflow that is not accepted has an offence, whose kind depends on the identifiers.
  have hoffence : ¬w.IsValid → ∃ error, w.validate = .error error ∧ w.Offence error := by
    intro hvalid
    cases hcheck : w.validate with
    | ok => exact absurd (validate_eq_ok_iff.1 hcheck) hvalid
    | error error => exact ⟨error, rfl, validate_eq_error_iff.1 hcheck⟩
  refine ⟨validate_eq_ok_iff, fun _ => validate_eq_error_iff, ?_, ?_, ?_⟩
  · intro hids
    obtain ⟨error, hcheck, herror⟩ := hoffence fun hvalid => hids hvalid.nodup
    cases herror with
    | repeated => exact ⟨_, hcheck⟩
    | dangling hnodup => exact absurd hnodup hids
  · intro hids hvalid
    obtain ⟨error, hcheck, herror⟩ := hoffence hvalid
    cases herror with
    | repeated hnodes _ hid =>
      rw [hnodes, List.map_append, List.map_cons, List.nodup_middle, List.nodup_cons] at hids
      exact absurd (List.mem_append_left _ hid) hids.1
    | dangling => exact ⟨_, _, hcheck⟩
  · intro hcheck id branch?
    have hvalid := validate_eq_ok_iff.1 hcheck
    refine ⟨hvalid.successor?_eq_none_iff_not_eligible, ?_⟩
    intro n hn
    obtain ⟨e, -, hfound⟩ := successor?_eq_some_iff.1 hn
    exact hvalid.filter_id (mem_of_node? hfound).1

/-- A workflow in which a decision has an edge for one of its results only. -/
def oneSided : Workflow where
  id := "one-sided"
  name := ""
  nodes := [⟨"in", none, .input⟩, ⟨"check", none, .decision "hot"⟩, ⟨"done", none, .output⟩]
  edges := [.between "in" "check", (Edge.between "check" "done").onBranch true]

/-- The workflow with its nodes once more, in the opposite order, and with an edge that dangles. -/
def oneSidedTwice : Workflow :=
  { oneSided with
    nodes := oneSided.nodes ++ oneSided.nodes.reverse
    edges := [.between "ghost" "spirit"] }

/-- The workflow with an edge that dangles behind one that does not. -/
def oneSidedDangling : Workflow :=
  { oneSided with edges := [.between "in" "done", .between "ghost" "spirit"] }

/-- Of three repeated identifiers the one is named whose second node comes first, and the edge that
dangles is not; where no identifier is repeated this edge is named, by its source.  After the result
for which it has no edge a decision has no successor, and after the other one it has the only node
of that identifier. -/
theorem validate_names_first_offender_one_sided :
    ¬(oneSidedTwice.nodes.map (·.id)).Nodup ∧
      oneSidedTwice.validate = .error (.duplicateNode "done") ∧
      (oneSidedDangling.nodes.map (·.id)).Nodup ∧
      oneSidedDangling.validate = .error (.danglingEdge "ghost->spirit" "ghost") ∧
      oneSided.validate = .ok () ∧
      (∀ e ∈ oneSided.edges, e.source = "check" → ¬e.IsEligible (some false)) ∧
      oneSided.nodes.filter (·.id = "done") = [⟨"done", none, .output⟩] := by
  obtain ⟨-, htwice, -⟩ := validate_names_first_offender oneSidedTwice
  obtain ⟨-, hdangling, -⟩ := validate_names_first_offender oneSidedDangling
  obtain ⟨-, -, -, -, hleaving⟩ := validate_names_first_offender oneSided
  have hvalid : oneSided.validate = .ok () := by decide
  have hids : (oneSidedDangling.nodes.map (·.id)).Nodup := by decide
  have hghost : "ghost" ∉ oneSidedDangling.nodes.map (·.id) := by decide
  refine ⟨by decide, (htwice _).2 ?_, hids, (hdangling _).2 ?_, hvalid, ?_, ?_⟩
  · have hnodes : oneSidedTwice.nodes =
        oneSided.nodes ++ ⟨"done", none, .output⟩ :: oneSided.nodes.reverse.tail := rfl
    exact .repeated hnodes (by decide) (by decide)
  · have hedges : oneSidedDangling.edges =
        [.between "in" "done"] ++ .between "ghost" "spirit" :: [] := rfl
    exact .dangling hids hedges (by decide) (.source hghost)
  · exact (hleaving hvalid "check" (some false)).1.1 (by decide)
  · exact (hleaving hvalid "check" (some true)).2 ⟨"done", none, .output⟩ (by decide)

end Workflow

end StepFlow
