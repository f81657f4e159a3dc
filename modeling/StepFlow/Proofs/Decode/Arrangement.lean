import StepFlow.Proofs.Decode
import StepFlow.Run.Step

/-!
# Members in another order

The members of an object have an order in which they are written, but whoever passes the object on
may sort them.  `Json.Rearranges` is a function that does nothing else, at any depth: writing a value
as it is and sorting it are two of them.  A record is read from an object by looking up its names, so
what is read does not depend on the order (`Json.Rearranges.reads_record`).  A decoder inverts a
function that writes values where it reads them back however they have been rearranged
(`Decoder.Inverts`).
-/

namespace StepFlow

/-- Members of other names keep theirs. -/
theorem Document.renameKey_object_ofMembers {members : List (String × Json)} {old : String}
    (h : ∀ m ∈ members, m.1 ≠ old) (new : String) :
    (object (ofMembers members)).renameKey old new = object (ofMembers members) := by
  rw [renameKey]
  congr 1
  induction members with
  | nil => rfl
  | cons m rest ih =>
    obtain ⟨key, value⟩ := m
    have hkey : key ≠ old := h (key, value) List.mem_cons_self
    have hrest := ih fun m hm => h m (List.mem_cons_of_mem _ hm)
    rw [ofMembers, List.map_cons, hrest]
    simp [hkey]

namespace Json

variable {α β : Type} {φ : Json → Json} {members arranged : List (String × Json)}

/-! ## Rearranged values -/

/-- Members in some order, with the values of others under the same names, rearranged. -/
structure Arranged (φ : Json → Json) (members arranged : List (String × Json)) : Prop where
  nodup : (arranged.map Prod.fst).Nodup
  find?_eq : ∀ name, Members.find? name arranged = (Members.find? name members).map φ

/-- A function that changes no more of a value than the order of the members of objects. -/
structure Rearranges (φ : Json → Json) : Prop where
  /-- The sorted value is the same. -/
  canonical (value : Json) : (φ value).canonical = value.canonical
  /-- The items of an array stay in their order. -/
  array (items : List Json) : φ (.array items) = .array (items.map φ)
  /-- The members of an object stand in some order. -/
  object {members : List (String × Json)} (hkeys : (members.map Prod.fst).Nodup) :
    ∃ arranged, φ (.object members) = .object arranged ∧ Arranged φ members arranged

theorem rearranges_id : Rearranges id where
  canonical _ := rfl
  array items := by rw [List.map_id, id]
  object {members} hkeys := ⟨members, rfl, hkeys, fun name => by rw [Option.map_id, id]⟩

theorem rearranges_canonical : Rearranges canonical where
  canonical value := canonical_eq_self _ value.isCanonical_canonical
  array items := by rw [canonical, canonicalItems_eq_map]
  object {members} hkeys :=
    ⟨canonicalMembers members, rfl, nodup_canonicalMembers members, find?_canonicalMembers hkeys⟩

namespace Rearranges

theorem null (hφ : Rearranges φ) : φ .null = .null := by
  have hcanonical := hφ.canonical .null
  cases hvalue : φ .null with
  | _ => simp_all [Json.canonical]

theorem string (hφ : Rearranges φ) (s : String) : φ (.string s) = .string s := by
  have hcanonical := hφ.canonical (.string s)
  cases hvalue : φ (.string s) with
  | _ => simp_all [Json.canonical]

theorem bool (hφ : Rearranges φ) (b : Bool) : φ (.bool b) = .bool b := by
  have hcanonical := hφ.canonical (.bool b)
  cases hvalue : φ (.bool b) with
  | _ => simp_all [Json.canonical]

theorem number (hφ : Rearranges φ) (n : Number) : φ (.number n) = .number n := by
  have hcanonical := hφ.canonical (.number n)
  cases hvalue : φ (.number n) with
  | _ => simp_all [Json.canonical]

/-- Data are still there. -/
theorem context_ne_null (hφ : Rearranges φ) (c : Context) : φ c.toJson ≠ .null := by
  obtain ⟨arranged, harranged, -⟩ := hφ.object c.ordered.nodup
  rw [Context.toJson, harranged]
  exact Json.noConfusion

/-! ## Reading rearranged values -/

theorem reads_string (hφ : Rearranges φ) (s : String) : Decoder.string.Reads (φ (.string s)) s := by
  rw [hφ.string]
  exact Decoder.reads_string s

theorem reads_bool (hφ : Rearranges φ) (b : Bool) : Decoder.bool.Reads (φ (.bool b)) b := by
  rw [hφ.bool]
  exact Decoder.reads_bool b

theorem reads_int64 (hφ : Rearranges φ) {n : Int}
    (h : -0x8000000000000000 ≤ n ∧ n < 0x8000000000000000) :
    Decoder.int64.Reads (φ (.ofInt n)) n := by
  have hrange : -0x8000000000000000 ≤ n ∧ n < 0x10000000000000000 := by omega
  have hsame : φ (.ofInt n) = .ofInt n := by rw [Json.ofInt, dif_pos hrange, hφ.number]
  rw [hsame]
  exact Decoder.reads_int64 h

theorem reads_uint64 (hφ : Rearranges φ) (n : UInt64) :
    Decoder.uint64.Reads (φ (.ofUInt64 n)) n := by
  have hsame : φ (.ofUInt64 n) = .ofUInt64 n := hφ.number _
  rw [hsame]
  exact Decoder.reads_uint64 n

theorem reads_instant (hφ : Rearranges φ) {t : Instant} (h : t.HasPlainYear) :
    Decoder.instant.Reads (φ (.string t.text)) t := by
  rw [hφ.string]
  exact Decoder.reads_instant h

theorem reads_variant (hφ : Rearranges φ) {known : List (String × α)} {name : String} {x : α}
    (h : known.lookup name = some x) : (Decoder.variant known).Reads (φ (.string name)) x := by
  rw [hφ.string]
  exact Decoder.reads_variant h

/-- A text that may be absent. -/
theorem reads_string? (hφ : Rearranges φ) (s? : Option String) :
    (Decoder.optional Decoder.string).Reads (φ (.ofString? s?)) s? := by
  cases s? with
  | none =>
    rw [Json.ofString?, hφ.null]
    exact Decoder.reads_optional_null _
  | some s =>
    rw [Json.ofString?, hφ.string]
    exact (Decoder.reads_string s).optional Json.noConfusion

/-- Data do not depend on the order. -/
theorem reads_context (hφ : Rearranges φ) (c : Context) :
    Decoder.context.Reads (φ c.toJson) c := by
  obtain ⟨arranged, harranged, -⟩ := hφ.object c.ordered.nodup
  have hcanonical : Json.canonicalMembers arranged = c.members := by
    have hobject := hφ.canonical c.toJson
    rw [Context.toJson, harranged, Json.canonical, Json.canonical,
      canonicalMembers_eq_self _ c.isCanonical] at hobject
    injection hobject
  intro o
  rw [Context.toJson, harranged]
  simp [Decoder.context, Document.ofJson, Context.ofMembers, hcanonical]

/-- Data that may be absent. -/
theorem reads_context? (hφ : Rearranges φ) (c? : Option Context) :
    (Decoder.optional Decoder.context).Reads (φ (Step.optionalContext c?)) c? := by
  cases c? with
  | none =>
    rw [Step.optionalContext, hφ.null]
    exact Decoder.reads_optional_null _
  | some c => exact (hφ.reads_context c).optional (hφ.context_ne_null c)

/-- A list of values that are read in any order is read so. -/
theorem reads_list (hφ : Rearranges φ) {decode : Decoder α} {write : β → Json} {f : β → α}
    {ys : List β} (h : ∀ y ∈ ys, decode.Reads (φ (write y)) (f y)) :
    (Decoder.list decode).Reads (φ (.array (ys.map write))) (ys.map f) := by
  rw [hφ.array, List.map_map]
  exact Decoder.reads_list_map h

/-- A record is read by the names of its members. -/
theorem reads_record (hφ : Rearranges φ) {fields : Fields α} {x : α} (title : String)
    (hkeys : (members.map Prod.fst).Nodup)
    (h : ∀ arranged, Arranged φ members arranged → fields.Reads arranged x) :
    (fields.decoder title).Reads (φ (.object members)) x := by
  obtain ⟨arranged, heq, harranged⟩ := hφ.object hkeys
  rw [heq]
  exact (h arranged harranged).decoder title

/-- A name that is not there is not given another one. -/
theorem renameKey_ofJson (hφ : Rearranges φ) {old : String}
    (hkeys : (members.map Prod.fst).Nodup) (hold : old ∉ members.map Prod.fst) (new : String) :
    (Document.ofJson (φ (.object members))).renameKey old new =
      Document.ofJson (φ (.object members)) := by
  obtain ⟨arranged, heq, harranged⟩ := hφ.object hkeys
  have hnone : Members.find? old arranged = none := by
    rw [harranged.find?_eq, Members.find?_eq_none_of_notMem hold, Option.map_none]
  have hne : ∀ m ∈ arranged, m.1 ≠ old := by
    rintro m hm rfl
    exact Members.find?_ne_none_of_mem hm hnone
  rw [heq, Document.ofJson, Document.renameKey_object_ofMembers hne]

end Rearranges

namespace Arranged

variable {decode : Decoder α} {name : String} {value : Json} {x : α}

theorem mem (h : Arranged φ members arranged) (hfound : Members.find? name members = some value) :
    (name, φ value) ∈ arranged := by
  refine Members.mem_of_find? ?_
  rw [h.find?_eq, hfound, Option.map_some]

/-- A field that is there is found in any order. -/
theorem reads_required (h : Arranged φ members arranged)
    (hfound : Members.find? name members = some value) (hread : decode.Reads (φ value) x) :
    (Fields.required name decode).Reads arranged x :=
  Fields.reads_required h.nodup (h.mem hfound) hread

theorem reads_defaulted {default : α} (h : Arranged φ members arranged)
    (hfound : Members.find? name members = some value) (hread : decode.Reads (φ value) x) :
    (Fields.defaulted name decode default).Reads arranged x :=
  Fields.reads_defaulted h.nodup (h.mem hfound) hread

/-- A value that is written only where there is one is read so in any order. -/
theorem reads_optional {write : α → Json} {x? : Option α} (h : Arranged φ members arranged)
    (hfound : Members.find? name members = x?.map write)
    (hread : ∀ x, decode.Reads (φ (write x)) x) (hwrite : ∀ x, φ (write x) ≠ .null) :
    (Fields.defaulted name (Decoder.optional decode) none).Reads arranged x? := by
  refine Fields.reads_optional h.nodup ?_ hread hwrite
  rw [h.find?_eq, hfound, Option.map_map]
  rfl

end Arranged

end Json

/-! ## Values read back -/

/-- The decoder reads back what is written of `x`, whatever order the members come in. -/
def Decoder.Inverts {α : Type} (decode : Decoder α) (write : α → Json) (x : α) : Prop :=
  ∀ φ, Json.Rearranges φ → decode.Reads (φ (write x)) x

namespace Decoder

variable {α : Type} {decode : Decoder α} {write : α → Json} {x : α} {xs : List α}

/-- What is written is read back as it is. -/
theorem Inverts.reads (h : decode.Inverts write x) : decode.Reads (write x) x :=
  h id Json.rearranges_id

/-- A list of values that are read back is read back. -/
theorem inverts_list (h : ∀ x ∈ xs, decode.Inverts write x) :
    (list decode).Inverts (fun xs => .array (xs.map write)) xs := by
  intro φ hφ
  have hlist := hφ.reads_list fun x hx => h x hx φ hφ
  rwa [List.map_id'] at hlist

end Decoder

end StepFlow
