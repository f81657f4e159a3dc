import StepFlow.Proofs.Graph.Node

/-!
# Nested and flat configurations

The configuration of a node stands in an object of its own under `config`, or flat among the other
data of the node, or in both places.  `Node.flattened` puts the entries of the object flat in their
place, and `Node.nested_flat_interchangeable` says that a node with either form of the data is read
alike, whatever else is written of it and whatever its type is: as the same node, or with the same
fault.

The data enter a node only through its label and its configuration (`Node.ofParts_congr`), and both
are the same for the two forms.  Up to there the data are read as a whole: other data in their place
change nothing else of what is found (`Node.HasGap`).
-/

namespace StepFlow

open Fields

theorem Document.ofMembers_append (front back : List (String × Json)) :
    ofMembers (front ++ back) = ofMembers front ++ ofMembers back := by
  induction front with
  | nil => rfl
  | cons m rest ih => simp [ofMembers, ih]

namespace Node

variable {data nested data' : Context} {o : Origin} {d d' : Document}

/-! ## The data in flat form -/

/-- The data with the entries of an object of the configuration in its place.  These win over
entries that stand flat under the same names. -/
def flattened (data nested : Context) : Context := nested.fill (data.erase "config")

theorem get?_flattened (data nested : Context) (name : String) :
    (flattened data nested).get? name =
      (nested.get? name).or (if name = "config" then none else data.get? name) := by
  simp only [flattened, Context.get?_fill, Context.get?_erase, eq_comm (a := name)]

theorem nestedConfig_eq (h : data.get? "config" = some nested.toJson) :
    nestedConfig data = nested := by
  rw [nestedConfig, h, Context.toJson]
  exact nested.ofMembers_members

/-- Data without an entry `config` are not nested. -/
theorem nestedConfig_eq_empty (h : data.get? "config" = none) : nestedConfig data = .empty := by
  rw [nestedConfig, h]

/-- The configuration is the same in both forms of the data. -/
theorem configOf_flattened (h : data.get? "config" = some nested.toJson)
    (hspares : SparesReserved nested) : configOf (flattened data nested) = configOf data := by
  have hflat : (flattened data nested).get? "config" = none := by
    rw [get?_flattened, hspares "config" (by decide)]
    rfl
  refine Context.ext_get? fun name => ?_
  rw [get?_configOf, get?_configOf, nestedConfig_eq h, nestedConfig_eq_empty hflat,
    Context.get?_empty, Option.none_or]
  by_cases hname : name ∈ reservedNames
  · rw [if_pos hname, hspares name hname, if_pos hname]
    rfl
  · have hne : name ≠ "config" := by
      rintro rfl
      exact hname (by decide)
    rw [if_neg hname, if_neg hname, get?_flattened, if_neg hne]

/-- The label is the same in both forms of the data. -/
theorem labelOf_flattened (hspares : SparesReserved nested) :
    labelOf (flattened data nested) = labelOf data := by
  rw [labelOf, labelOf, get?_flattened, hspares "label" (by decide), Option.none_or,
    if_neg (by decide)]

/-- The data enter a node only through its label and its configuration. -/
theorem ofParts_congr (hlabel : labelOf data = labelOf data')
    (hconfig : configOf data = configOf data') (id typeName : String) :
    ofParts id typeName data = ofParts id typeName data' := by
  rw [ofParts, ofParts, hlabel, hconfig]

/-! ## Reading a node around its data -/

/-- What has been read of a node, with other data. -/
def withData (data : Context) (slots : fields.Slots) : fields.Slots :=
  (slots.1, slots.2.1, some data)

/-- The members behind the data are read alike whatever the data are. -/
theorem visitMembers_withData (ds : List (Option String × Document)) (id? typeName? : Option String)
    (data data' : Context) :
    visitMembers fields o ds (id?, typeName?, some data') =
      (visitMembers fields o ds (id?, typeName?, some data)).map (withData data') := by
  induction ds generalizing id? typeName? with
  | nil => rfl
  | cons m rest ih =>
    obtain ⟨key?, d⟩ := m
    cases key? with
    | none => rfl
    | some key =>
      by_cases hkey : key ∈ fields.names
      · simp only [visitMembers, if_pos hkey]
        -- The identifier and the type fill their own slots, and more data are a fault.
        have hcases : key = "id" ∨ key = "type" ∨ key = "data" := by
          simpa [fields, both, required, defaulted] using hkey
        rcases hcases with rfl | rfl | rfl
        · have haccept (c : Context) : fields.accept o "id" d (id?, typeName?, some c) =
              (fillSlot Decoder.string o "id" d id?).map fun x? => (x?, typeName?, some c) := rfl
          rw [haccept, haccept]
          cases fillSlot Decoder.string o "id" d id? with
          | error fault => rfl
          | ok x? => exact ih x? typeName?
        · have haccept (c : Context) : fields.accept o "type" d (id?, typeName?, some c) =
              ((fillSlot Decoder.string o "type" d typeName?).map fun x? => (x?, some c)).map
                fun slots => (id?, slots) := rfl
          rw [haccept, haccept]
          cases fillSlot Decoder.string o "type" d typeName? with
          | error fault => rfl
          | ok x? => exact ih id? x?
        · rfl
      · simp only [visitMembers, if_neg hkey]
        cases Decoder.skip d with
        | error fault => rfl
        | ok => exact ih id? typeName?

/-- Other data in the place of those of a node change nothing else of what is read. -/
theorem visitMembers_around_data (hd : Decoder.context o d = .ok data)
    (hd' : Decoder.context o d' = .ok data') (before after : List (Option String × Document))
    (slots : fields.Slots) :
    visitMembers fields o (before ++ (some "data", d') :: after) slots =
      (visitMembers fields o (before ++ (some "data", d) :: after) slots).map (withData data') := by
  induction before generalizing slots with
  | nil =>
    obtain ⟨id?, typeName?, data?⟩ := slots
    cases data? with
    | some c => rfl
    | none =>
      have haccept {d : Document} {data : Context} (h : Decoder.context o d = .ok data) :
          fields.accept o "data" d (id?, typeName?, none) = .ok (id?, typeName?, some data) := by
        simp [fields, both, required, defaulted, fillSlot, h, Except.map]
      have hkey : "data" ∈ fields.names := by decide
      simp only [List.nil_append, visitMembers, if_pos hkey, haccept hd, haccept hd']
      exact visitMembers_withData after id? typeName? data data'
  | cons m rest ih =>
    obtain ⟨key?, part⟩ := m
    cases key? with
    | none => rfl
    | some key =>
      simp only [List.cons_append, visitMembers]
      split
      · cases fields.accept o key part slots with
        | error fault => rfl
        | ok next => exact ih next
      · cases Decoder.skip part with
        | error fault => rfl
        | ok => exact ih slots

/-- The parts of a node in an array are read in their order. -/
theorem visitItems_eq (o : Origin) (id typeName d : Document) (after : List Document) :
    visitItems fields o fields.names (id :: typeName :: d :: after) fields.blank = (do
      let id ← Decoder.string o id
      let typeName ← Decoder.string o typeName
      let data ← Decoder.context o d
      .ok ((some id, some typeName, some data), after)) := by
  show (do
    let slots ← fields.accept o "id" id (none, none, none)
    let slots ← fields.accept o "type" typeName slots
    let slots ← fields.accept o "data" d slots
    .ok (slots, after)) = _
  simp only [fields, both, required, defaulted, fillSlot]
  cases Decoder.string o id with
  | error fault => rfl
  | ok id =>
    cases Decoder.string o typeName with
    | error fault => rfl
    | ok typeName => cases Decoder.context o d <;> rfl

/-- A document of a node has a gap for its data: with other data there, nothing else of what is
read of the node changes. -/
def HasGap (o : Origin) (around : Document → Document) : Prop :=
  ∀ d d' data data', Decoder.context o d = .ok data → Decoder.context o d' = .ok data' →
    fields.decoder "RawNode" o (around d') =
      (fields.decoder "RawNode" o (around d)).map fun parts => (parts.1, parts.2.1, data')

theorem hasGap_object (o : Origin) (before after : List (Option String × Document)) :
    HasGap o fun d => .object (before ++ (some "data", d) :: after) := by
  intro d d' data data' hd hd'
  simp only [Fields.decoder, visitMembers_around_data hd hd']
  cases visitMembers fields o (before ++ (some "data", d) :: after) fields.blank with
  | error fault => rfl
  | ok slots =>
    obtain ⟨id?, typeName?, data?⟩ := slots
    cases id? with
    | none => rfl
    | some id => cases typeName? <;> rfl

theorem hasGap_array (o : Origin) (id typeName : Document) (after : List Document) :
    HasGap o fun d => .array (id :: typeName :: d :: after) := by
  intro d d' data data' hd hd'
  simp only [Fields.decoder, visitItems_eq, hd, hd', List.length_cons]
  cases Decoder.string o id with
  | error fault => rfl
  | ok id =>
    cases Decoder.string o typeName with
    | error fault => rfl
    | ok typeName =>
      cases after with
      | nil => rfl
      | cons part rest => cases o <;> rfl

/-- A node is read alike with any data in the gap that give it the same label and the same
configuration. -/
theorem HasGap.decoder_congr {around : Document → Document} (h : HasGap o around)
    (hd : Decoder.context o d = .ok data) (hd' : Decoder.context o d' = .ok data')
    (hlabel : labelOf data = labelOf data') (hconfig : configOf data = configOf data') :
    decoder o (around d) = decoder o (around d') := by
  unfold decoder
  rw [h d d' data data' hd hd', h d d data data hd hd]
  cases fields.decoder "RawNode" o (around d) with
  | error fault => rfl
  | ok parts => exact ofParts_congr hlabel hconfig parts.1 parts.2.1

/-! ## The two forms are interchangeable -/

/-- A node is read alike in both forms of its data, with the members of the node in any order and
among others, or in an array, and from a value as well as from a text.  In the flat form an entry
stands as in the object of the configuration, or else as among the other data, the label included.
So the entries of the object win, an entry that is only in one place is found, and the label is
never taken from the object. -/
theorem nested_flat_interchangeable (hconfig : data.get? "config" = some nested.toJson)
    (hspares : SparesReserved nested) :
    (∀ o d d', Decoder.context o d = .ok data →
      Decoder.context o d' = .ok (flattened data nested) →
        (∀ before after, decoder o (.object (before ++ (some "data", d) :: after)) =
          decoder o (.object (before ++ (some "data", d') :: after))) ∧
        ∀ id typeName after, decoder o (.array (id :: typeName :: d :: after)) =
          decoder o (.array (id :: typeName :: d' :: after))) ∧
    (∀ before after, decoder.ofJson (.object (before ++ ("data", data.toJson) :: after)) =
      decoder.ofJson (.object (before ++ ("data", (flattened data nested).toJson) :: after))) ∧
    (∀ name, (flattened data nested).get? name =
      (nested.get? name).or (if name = "config" then none else data.get? name)) ∧
    (∀ name, name ∉ reservedNames →
      (configOf data).get? name = (nested.get? name).or (data.get? name)) ∧
    ∀ id typeName n, ofParts id typeName data = .ok n → n.label? = labelOf data := by
  have hsame {around : Document → Document} {o : Origin} {d d' : Document} (h : HasGap o around)
      (hd : Decoder.context o d = .ok data)
      (hd' : Decoder.context o d' = .ok (flattened data nested)) :
      decoder o (around d) = decoder o (around d') :=
    h.decoder_congr hd hd' (labelOf_flattened hspares).symm
      (configOf_flattened hconfig hspares).symm
  refine ⟨?_, ?_, get?_flattened data nested, ?_, ?_⟩
  · intro o d d' hd hd'
    exact ⟨fun before after => hsame (hasGap_object o before after) hd hd',
      fun id typeName after => hsame (hasGap_array o id typeName after) hd hd'⟩
  · intro before after
    have hvalue := hsame
      (hasGap_object .value (Document.ofMembers before) (Document.ofMembers after))
      (Decoder.reads_context data .value) (Decoder.reads_context (flattened data nested) .value)
    simpa [Decoder.ofJson, Document.ofJson, Document.ofMembers_append, Document.ofMembers]
      using hvalue
  · intro name hname
    rw [get?_configOf, nestedConfig_eq hconfig, if_neg hname]
  · intro id typeName n hn
    unfold ofParts at hn
    split at hn
    · cases hn
      rfl
    · cases hn

/-- The data of a decision with a rule in both places. -/
def twoRules (rule : Json) : Context :=
  .ofMembers [("label", .string "Too hot?"), ("rule", .string "cold"), ("size", .ofInt 3),
    ("config", .object [("rule", rule)])]

/-- A decision with a rule in both places has the nested one, and the label outside, in whatever
order the data are written; and a nested rule that is no text is the same fault in both forms. -/
theorem nested_flat_interchangeable_rules :
    (∀ rule ∈ [Json.string "hot", Json.bool true],
      (twoRules rule).get? "config" = some (Context.single "rule" rule).toJson ∧
        SparesReserved (.single "rule" rule)) ∧
    decoder .text (.object [(some "data", .object
        [(some "config", .object [(some "rule", .string "hot")]), (some "size", .ofJson (.ofInt 3)),
          (some "label", .string "Too hot?"), (some "rule", .string "cold")]),
        (some "type", .string "decision"), (some "id", .string "check")]) =
      .ok ⟨"check", some "Too hot?", .decision "hot"⟩ ∧
    decoder.ofJson (.object [("id", .string "check"), ("type", .string "decision"),
        ("data", (twoRules (.bool true)).toJson)]) =
      .error (.badConfig "check" (.wrongKind (.bool true) "a string")) := by
  have hrules : ∀ rule ∈ [Json.string "hot", Json.bool true],
      (twoRules rule).get? "config" = some (Context.single "rule" rule).toJson ∧
        SparesReserved (.single "rule" rule) := by decide +kernel
  refine ⟨hrules, ?_, ?_⟩
  · obtain ⟨hconfig, hspares⟩ := hrules (.string "hot") (by decide)
    obtain ⟨hread, -⟩ := nested_flat_interchangeable hconfig hspares
    have hflat : flattened (twoRules (.string "hot")) (.single "rule" (.string "hot")) =
        .ofMembers [("label", .string "Too hot?"), ("rule", .string "hot"), ("size", .ofInt 3)] := by
      decide +kernel
    rw [hflat] at hread
    obtain ⟨hobject, -⟩ := hread .text
      (.object [(some "config", .object [(some "rule", .string "hot")]),
        (some "size", .ofJson (.ofInt 3)), (some "label", .string "Too hot?"),
        (some "rule", .string "cold")])
      (.object [(some "rule", .string "hot"), (some "label", .string "Too hot?"),
        (some "size", .ofJson (.ofInt 3))])
      (by decide +kernel) (by decide +kernel)
    refine (hobject [] [(some "type", .string "decision"), (some "id", .string "check")]).trans ?_
    decide +kernel
  · obtain ⟨hconfig, hspares⟩ := hrules (.bool true) (by decide)
    obtain ⟨-, hvalue, -⟩ := nested_flat_interchangeable hconfig hspares
    refine (hvalue [("id", .string "check"), ("type", .string "decision")] []).trans ?_
    decide +kernel

end Node

end StepFlow
