import StepFlow.Graph.Format
import StepFlow.Proofs.Decode.Arrangement

/-!
# Nodes that are written and read again

The written form of a node is not quite the form from which it was read.  What is read may hold the
configuration of the role in an object of its own, and the label may be no text at all; what is
written has the configuration flat among the data, and the label beside it if there is one.

A role of a known type reads its configuration by name, so it finds in the flat form what it had
(`Role.ofParts_config`).  A role of an unknown type keeps all entries it is given, and two names have
a meaning among the data of a node: an entry of the configuration under one of them is taken for the
label, or for the object of the configuration.  `Node.reread` is what becomes of a node in this way
(`Node.reads_reread`), and `Node.reread_eq_self_iff` says when it stays what it is.
-/

namespace StepFlow

namespace Role

variable {config : Context} {role : Role} {typeName : String}

/-! ## Type names -/

/-- The type names that are known, with those that are other spellings. -/
def typeNames : List String :=
  ["input", "data-input", "decision", "condition", "rule-engine", "action", "api-call",
    "data-transform", "llm-judgment", "notification", "output", "data-output", "result-output"]

/-- A type name that is not known makes a role that keeps its configuration. -/
theorem ofParts_of_notMem (h : typeName ∉ typeNames) (config : Context) :
    ofParts typeName config = .ok (.unsupported typeName config) := by
  unfold ofParts
  split <;> simp_all [typeNames]

/-- A role that is made of fields comes from what they give. -/
theorem exists_of_ofConfig_map {α : Type} {fields : Fields α} {f : α → Role}
    (h : ofConfig (fields.map f) config = .ok role) : ∃ x, role = f x := by
  obtain ⟨slots, -, hfinish⟩ := exists_of_bind_eq_ok h
  obtain ⟨x, -, hx⟩ := exists_of_map_eq_ok hfinish
  exact ⟨x, hx.symm⟩

/-- A type name that is known makes a role that is supported. -/
theorem isSupported_of_mem (htype : typeName ∈ typeNames)
    (h : ofParts typeName config = .ok role) : role.isSupported = true := by
  unfold ofParts at h
  split at h
  case h_14 => simp_all [typeNames]
  -- A role without a configuration is given outright; any other one comes from its fields.
  all_goals first
    | cases h; rfl
    | obtain ⟨x, rfl⟩ := exists_of_ofConfig_map h; rfl

/-- A role that is not supported comes from a type name that is not known. -/
theorem eq_unsupported_of_ofParts (h : ofParts typeName config = .ok role)
    (hunsupported : role.isSupported = false) :
    typeName ∉ typeNames ∧ role = .unsupported typeName config := by
  by_cases htype : typeName ∈ typeNames
  · rw [isSupported_of_mem htype h] at hunsupported
    cases hunsupported
  · rw [ofParts_of_notMem htype] at h
    cases h
    exact ⟨htype, rfl⟩

/-- A role that is not supported does not go by a name that is known. -/
def IsProper (role : Role) : Prop := role.isSupported = false → role.typeName ∉ typeNames

theorem isProper_of_isSupported {role : Role} (h : role.isSupported = true) : role.IsProper := by
  intro hunsupported
  rw [h] at hunsupported
  cases hunsupported

/-! ## Roles that read their own configuration -/

/-- What the fields find in a configuration is the role that is made of it. -/
theorem ofConfig_eq_ok {fields : Fields Role} (h : fields.Reads config.members role) :
    ofConfig fields config = .ok role :=
  h.decoder "configuration" .value

/-- A text is found under the name of its field. -/
theorem reads_textField {name s : String} (h : config.get? name = some (.string s)) :
    (textField name).Reads config.members s :=
  Fields.reads_defaulted config.ordered.nodup (Members.mem_of_find? h) (Decoder.reads_string s)

/-- A text that may be absent is found if it is there. -/
theorem reads_textField? {name : String} {s? : Option String}
    (h : config.get? name = s?.map .string) : (textField? name).Reads config.members s? :=
  Fields.reads_optional config.ordered.nodup h Decoder.reads_string (by simp)

theorem get?_optionalText (name other : String) (s? : Option String) :
    (Context.ofMembers (optionalText name s?)).get? other =
      if name = other then s?.map .string else none := by
  cases s? with
  | none => simp [optionalText]
  | some s => simp [optionalText, Context.get?_ofMembers_cons, Json.canonical]

/-- A role of a known type reads its own configuration. -/
theorem ofParts_config (h : role.isSupported = true) :
    ofParts role.typeName role.config = .ok role := by
  cases role with
  | input => rfl
  | dataInput => rfl
  | decision rule =>
    have hrule : (decision rule).config.get? "rule" = some (.string rule) := by
      simp [Role.config, Context.get?_ofMembers_cons, Json.canonical]
    exact ofConfig_eq_ok ((reads_textField hrule).map decision)
  | ruleEngine rule =>
    have hrule : (ruleEngine rule).config.get? "rule" = some (.string rule) := by
      simp [Role.config, Context.get?_ofMembers_cons, Json.canonical]
    exact ofConfig_eq_ok ((reads_textField hrule).map ruleEngine)
  | action what =>
    have hwhat : (action what).config.get? "action" = some (.string what) := by
      simp [Role.config, Context.get?_ofMembers_cons, Json.canonical]
    exact ofConfig_eq_ok ((reads_textField hwhat).map action)
  | apiCall endpoint method? =>
    have hendpoint : (apiCall endpoint method?).config.get? "endpoint" = some (.string endpoint) := by
      simp [Role.config, Context.get?_ofMembers_cons, get?_optionalText, Json.canonical]
    have hmethod : (apiCall endpoint method?).config.get? "method" = method?.map .string := by
      simp [Role.config, Context.get?_ofMembers_cons, get?_optionalText]
    have hboth := (reads_textField hendpoint).both (reads_textField? hmethod) (by decide)
    exact ofConfig_eq_ok (hboth.map _)
  | dataTransform transform field? =>
    have htransform : (dataTransform transform field?).config.get? "transformType" =
        some (.string transform) := by
      simp [Role.config, Context.get?_ofMembers_cons, get?_optionalText, Json.canonical]
    have hfield : (dataTransform transform field?).config.get? "field" = field?.map .string := by
      simp [Role.config, Context.get?_ofMembers_cons, get?_optionalText]
    have hboth := (reads_textField htransform).both (reads_textField? hfield) (by decide)
    exact ofConfig_eq_ok (hboth.map _)
  | judgment prompt? =>
    have hprompt : (judgment prompt?).config.get? "prompt" = prompt?.map .string := by
      simp [Role.config, get?_optionalText]
    exact ofConfig_eq_ok ((reads_textField? hprompt).map judgment)
  | notification channel message =>
    have hchannel : (notification channel message).config.get? "channel" =
        some (.string channel) := by
      simp [Role.config, Context.get?_ofMembers_cons, Json.canonical]
    have hmessage : (notification channel message).config.get? "message" =
        some (.string message) := by
      simp [Role.config, Context.get?_ofMembers_cons, Json.canonical]
    have hboth := (reads_textField hchannel).both (reads_textField hmessage) (by decide)
    exact ofConfig_eq_ok (hboth.map _)
  | output => rfl
  | resultOutput => rfl
  | unsupported typeName config => cases h

end Role

namespace Node

/-! ## The data of nodes -/

/-- The names that have a meaning of their own among the data of a node. -/
def reservedNames : List String := ["label", "config"]

/-- Data without an entry under a reserved name. -/
def SparesReserved (c : Context) : Prop := ∀ name ∈ reservedNames, c.get? name = none

instance (c : Context) : Decidable (SparesReserved c) :=
  inferInstanceAs (Decidable (∀ name ∈ reservedNames, c.get? name = none))

/-- The entries of the object of the configuration among the data of a node. -/
def nestedConfig (data : Context) : Context :=
  match data.get? "config" with
  | some (.object members) => .ofMembers members
  | _ => .empty

/-- An entry of the configuration is one of its object, or else a flat one. -/
theorem get?_configOf (data : Context) (name : String) :
    (configOf data).get? name = ((nestedConfig data).get? name).or
      (if name ∈ reservedNames then none else data.get? name) := by
  have hconfig : configOf data =
      (nestedConfig data).fill ((data.erase "label").erase "config") := rfl
  rw [hconfig, Context.get?_fill, Context.get?_erase, Context.get?_erase]
  simp only [reservedNames, List.mem_cons, List.not_mem_nil, or_false, eq_comm (a := name)]
  congr 1
  split <;> split <;> simp_all

/-- The entries of the configuration under reserved names come from its object. -/
theorem sparesReserved_configOf_iff {data : Context} :
    SparesReserved (configOf data) ↔ SparesReserved (nestedConfig data) := by
  refine forall₂_congr fun name hname => ?_
  rw [get?_configOf, if_pos hname, Option.or_none]

/-- Data without entries under reserved names are all configuration, and no other data are: an
object of the configuration that held these data would hold itself. -/
theorem configOf_eq_self_iff {data : Context} : configOf data = data ↔ SparesReserved data := by
  constructor
  · intro h
    have hget : ∀ name ∈ reservedNames, data.get? name = (nestedConfig data).get? name := by
      intro name hname
      conv_lhs => rw [← h, get?_configOf, if_pos hname, Option.or_none]
    have hconfig := hget "config" (by decide)
    have hnested : nestedConfig data = .empty := by
      unfold nestedConfig at hconfig ⊢
      split at hconfig
      · rename_i members hmembers
        have hcanonical : Json.CanonicalMembers members := Context.isCanonical_of_get? hmembers
        rw [hmembers, Context.get?_ofMembers_of_isCanonical hcanonical] at hconfig
        exact absurd hconfig.symm (Json.find?_ne_some_object "config" members)
      · rfl
    intro name hname
    rw [hget name hname, hnested]
    rfl
  · intro h
    have hnested : nestedConfig data = .empty := by
      rw [nestedConfig, h "config" (by decide)]
    refine Context.ext_get? fun name => ?_
    rw [get?_configOf, hnested]
    split
    · rename_i hname
      rw [h name hname]
      rfl
    · rfl

variable {n : Node}

theorem get?_data_of_ne {name : String} (h : name ≠ "label") :
    n.data.get? name = n.role.config.get? name := by
  unfold data
  split
  · rw [Context.get?_insert, if_neg (Ne.symm h)]
  · rfl

/-- The label of a node is not taken for configuration. -/
theorem configOf_data (n : Node) : configOf n.data = configOf n.role.config := by
  have hnested : nestedConfig n.data = nestedConfig n.role.config := by
    unfold nestedConfig
    rw [get?_data_of_ne (by decide)]
  refine Context.ext_get? fun name => ?_
  rw [get?_configOf, get?_configOf, hnested]
  split
  · rfl
  · rename_i hname
    have hlabel : name ≠ "label" := by
      rintro rfl
      exact hname (by decide)
    rw [get?_data_of_ne hlabel]

/-- The label is found unless the configuration has an entry of this name. -/
theorem labelOf_data (h : n.role.config.get? "label" = none) : labelOf n.data = n.label? := by
  unfold labelOf data
  cases n.label? with
  | none => rw [h]
  | some label =>
    rw [Context.get?_insert, if_pos rfl]
    rfl

/-- A node that has been read is made of its data. -/
theorem exists_of_decoder {o : Origin} {d : Document} (h : decoder o d = .ok n) :
    ∃ typeName data role, fields.decoder "RawNode" o d = .ok (n.id, typeName, data) ∧
      Role.ofParts typeName (configOf data) = .ok role ∧ n = ⟨n.id, labelOf data, role⟩ := by
  obtain ⟨⟨id, typeName, data⟩, hraw, hrest⟩ := exists_of_bind_eq_ok h
  have hparts : ofParts id typeName data = .ok n := hrest
  unfold ofParts at hparts
  split at hparts
  · rename_i role hrole
    cases hparts
    exact ⟨typeName, data, role, hraw, hrole, rfl⟩
  · cases hparts

/-- The type of a node that has been read is one of the known ones, or it is kept as it was. -/
theorem isProper_of_decoder {o : Origin} {d : Document} (h : decoder o d = .ok n) :
    n.role.IsProper := by
  obtain ⟨typeName, data, role, -, hrole, hn⟩ := exists_of_decoder h
  intro hunsupported
  rw [hn] at hunsupported ⊢
  obtain ⟨htype, rfl⟩ := Role.eq_unsupported_of_ofParts hrole hunsupported
  exact htype

/-! ## Reading a written node -/

/-- What a node is read as when it has been written. -/
def reread (n : Node) : Node :=
  if n.role.isSupported then n
  else ⟨n.id, labelOf n.data, .unsupported n.role.typeName (configOf n.role.config)⟩

theorem reread_of_isSupported (h : n.role.isSupported = true) : n.reread = n := if_pos h

theorem map_reread_of_isSupported {nodes : List Node} (h : ∀ n ∈ nodes, n.role.isSupported = true) :
    nodes.map reread = nodes := by
  have hself : nodes.map reread = nodes.map fun n => n :=
    List.map_congr_left fun n hn => reread_of_isSupported (h n hn)
  rw [hself, List.map_id']

theorem reread_id (n : Node) : n.reread.id = n.id := by
  unfold reread
  split <;> rfl

theorem reread_typeName (n : Node) : n.reread.role.typeName = n.role.typeName := by
  unfold reread
  split <;> rfl

/-- A node of an unknown type stays what it is exactly if its configuration has no entry under a
reserved name. -/
theorem reread_eq_self_iff (h : n.role.isSupported = false) :
    n.reread = n ↔ SparesReserved n.role.config := by
  rw [← configOf_eq_self_iff]
  obtain ⟨id, label?, role⟩ := n
  cases role with
  | unsupported typeName config =>
    simp only [reread, Role.isSupported, Bool.false_eq_true, if_false, Node.mk.injEq,
      Role.unsupported.injEq, true_and]
    constructor
    · intro hnode
      exact hnode.2.2
    · intro hconfig
      exact ⟨labelOf_data (configOf_eq_self_iff.1 hconfig "label" (by decide)), rfl, hconfig⟩
  | _ => cases h

/-- The configuration of a role of a known type has no entry under a reserved name. -/
theorem sparesReserved_config {role : Role} (h : role.isSupported = true) :
    SparesReserved role.config := by
  intro name hname
  rw [reservedNames, List.mem_pair] at hname
  cases role with
  | unsupported typeName config => cases h
  | _ =>
    rcases hname with rfl | rfl <;>
      simp [Role.config, Context.get?_ofMembers_cons, Role.get?_optionalText, Context.get?_empty]

/-- A written node is made of its data again, up to what the reserved names do. -/
theorem ofParts_data (h : n.role.IsProper) :
    ofParts n.id n.role.typeName n.data = .ok n.reread := by
  unfold ofParts
  rw [configOf_data]
  by_cases hsupported : n.role.isSupported = true
  · have hspares := sparesReserved_config hsupported
    rw [configOf_eq_self_iff.2 hspares, Role.ofParts_config hsupported,
      reread_of_isSupported hsupported, labelOf_data (hspares "label" (by decide))]
  · rw [Role.ofParts_of_notMem (h (by simpa using hsupported)), reread, if_neg hsupported]

/-- In whatever order a node is written, it is read as what is made of its data. -/
theorem reads_reread {φ : Json → Json} (hφ : Json.Rearranges φ) (h : n.role.IsProper) :
    decoder.Reads (φ n.toJson) n.reread := by
  have hraw : (fields.decoder "RawNode").Reads (φ n.toJson) (n.id, n.role.typeName, n.data) := by
    have hnames : (["id", "type", "data"] : List String).Nodup := by decide
    refine hφ.reads_record "RawNode" hnames fun arranged h => ?_
    refine Fields.Reads.both (h.reads_required rfl (hφ.reads_string n.id)) ?_ (by decide)
    refine Fields.Reads.both (h.reads_required rfl (hφ.reads_string n.role.typeName)) ?_ (by decide)
    exact h.reads_defaulted rfl (hφ.reads_context n.data)
  intro o
  unfold decoder
  rw [hraw o]
  exact ofParts_data h

end Node

end StepFlow
