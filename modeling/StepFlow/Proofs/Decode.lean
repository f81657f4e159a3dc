import Mathlib.Tactic.Common
import StepFlow.Decode.Fields
import StepFlow.Proofs.Context
import StepFlow.Proofs.Except
import StepFlow.Proofs.Json.Printer
import StepFlow.Proofs.Time.Instant

/-!
# Decoders of written values

A decoder reads a value back when it finds in the written form what was put there, whether the
form comes from a text or not (`Decoder.Reads`).  The laws follow the ways in which decoders are
built: the basic ones, lists, options, names of variants, and the fields of a record, which may
stand in any order and among others (`Fields.Reads.decoder`).  What is read back from a value is
read back from its text, within the limit for nesting (`Decoder.Reads.ofText`).
-/

namespace StepFlow

/-- The decoder finds `x` in a value, wherever the value comes from. -/
def Decoder.Reads {α : Type} (decode : Decoder α) (value : Json) (x : α) : Prop :=
  ∀ o, decode o (.ofJson value) = .ok x

namespace Document

/-! ## Documents of values -/

mutual

theorem isWellFormed_ofJson (value : Json) : (ofJson value).isWellFormed = true := by
  cases value with
  | array items => exact wellFormedItems_ofItems items
  | object members => exact wellFormedMembers_ofMembers members
  | _ => rfl

theorem wellFormedItems_ofItems (items : List Json) : wellFormedItems (ofItems items) = true := by
  cases items with
  | nil => rfl
  | cons item rest =>
    simp [ofItems, wellFormedItems, isWellFormed_ofJson item, wellFormedItems_ofItems rest]

theorem wellFormedMembers_ofMembers (members : List (String × Json)) :
    wellFormedMembers (ofMembers members) = true := by
  cases members with
  | nil => rfl
  | cons m rest =>
    simp [ofMembers, wellFormedMembers, isWellFormed_ofJson m.2, wellFormedMembers_ofMembers rest]

end

end Document

namespace Decoder

variable {α : Type} {decode : Decoder α} {value : Json} {x : α}

/-! ## Basic decoders -/

/-- A value that is there as a whole can be passed over. -/
theorem skip_ofJson (value : Json) : skip (.ofJson value) = .ok () :=
  if_pos (Document.isWellFormed_ofJson value)

theorem reads_string (s : String) : string.Reads (.string s) s := fun _ => rfl

theorem reads_bool (b : Bool) : bool.Reads (.bool b) b := fun _ => rfl

/-- An integer within the bounds is read. -/
theorem integerWithin_integer {least bound n : Int} (h : least ≤ n ∧ n < bound) (name : String)
    (o : Origin) (hrange : -0x8000000000000000 ≤ n ∧ n < 0x10000000000000000) :
    integerWithin least bound name o (.number (.integer n hrange)) = .ok n := by
  rw [integerWithin, if_pos h]

theorem reads_int64 {n : Int} (h : -0x8000000000000000 ≤ n ∧ n < 0x8000000000000000) :
    int64.Reads (.ofInt n) n := by
  intro o
  have hrange : -0x8000000000000000 ≤ n ∧ n < 0x10000000000000000 := by omega
  rw [Json.ofInt, dif_pos hrange, Document.ofJson]
  exact integerWithin_integer h "i64" o hrange

theorem reads_uint64 (n : UInt64) : uint64.Reads (.ofUInt64 n) n := by
  intro o
  have hlt := n.toNat_lt
  have hrange : (0 : Int) ≤ n.toNat ∧ (n.toNat : Int) < 0x10000000000000000 := by omega
  rw [Json.ofUInt64, Document.ofJson, uint64, integerWithin_integer hrange]
  simp only [Except.map, Int.toNat_natCast, UInt64.ofNat_toNat]

theorem reads_context (c : Context) : context.Reads c.toJson c := by
  intro o
  simp [context, Context.toJson, Document.ofJson, Context.ofMembers_members]

theorem reads_instant {t : Instant} (h : t.HasPlainYear) : instant.Reads (.string t.text) t := by
  intro o
  simp [instant, Document.ofJson, Instant.readLenient_text h, Except.mapError]

/-- What is read back and is not `null` is read back where it may be absent. -/
theorem Reads.optional (h : decode.Reads value x) (hvalue : value ≠ .null) :
    (Decoder.optional decode).Reads value (some x) := by
  intro o
  have hread := h o
  cases value with
  | null => exact absurd rfl hvalue
  | _ => simp_all [Decoder.optional, Document.ofJson, Except.map]

theorem reads_optional_null (decode : Decoder α) : (optional decode).Reads .null none := fun _ => rfl

/-- Items that are read are read as a list. -/
theorem reads_list_map {β : Type} {write : β → Json} {f : β → α} {ys : List β}
    (h : ∀ y ∈ ys, decode.Reads (write y) (f y)) :
    (list decode).Reads (.array (ys.map write)) (ys.map f) := by
  intro o
  show items decode o (Document.ofItems (ys.map write)) = .ok (ys.map f)
  induction ys with
  | nil => rfl
  | cons y ys ih =>
    have hy := h y List.mem_cons_self o
    have hys := ih fun z hz => h z (List.mem_cons_of_mem _ hz)
    simp only [List.map_cons, Document.ofItems, items, hy, hys, bind, Except.bind]

/-- A name that is known is read as what it names. -/
theorem reads_variant {known : List (String × α)} {name : String} (h : known.lookup name = some x) :
    (variant known).Reads (.string name) x := by
  intro o
  simp [variant, Document.ofJson, variantOf, h]

/-! ## Texts -/

/-- What is read back from a value is read from every text that shows the value. -/
theorem Reads.ofText_of_shown (h : decode.Reads value x)
    (hnesting : value.nesting ≤ Document.depthLimit) {text : String}
    (hshown : Document.ofText text = (.shown 0 value, true)) : decode.ofText text = .ok x := by
  have hdocument : Document.ofText text = (.ofJson value, true) := by
    rw [hshown, Document.shown_eq_ofJson 0 value (by omega)]
  simp [Decoder.ofText, hdocument, h .text, bind, Except.bind]

/-- What is read back from a value is read back from its text. -/
theorem Reads.ofText (h : decode.Reads value x) (hnesting : value.nesting ≤ Document.depthLimit) :
    decode.ofText value.compact = .ok x :=
  h.ofText_of_shown hnesting (Document.ofText_compact value)

/-- Line breaks and indentation do not matter. -/
theorem Reads.ofText_pretty (h : decode.Reads value x)
    (hnesting : value.nesting ≤ Document.depthLimit) : decode.ofText value.pretty = .ok x :=
  h.ofText_of_shown hnesting (Document.ofText_pretty value)

end Decoder

namespace Fields

variable {α β : Type}

/-! ## Records -/

/-- The fields find `x` among the members of an object. -/
def Reads (fields : Fields α) (members : List (String × Json)) (x : α) : Prop :=
  ∀ o, ∃ slots, visitMembers fields o (Document.ofMembers members) fields.blank = .ok slots ∧
    fields.finishNamed slots = .ok x

section Visit

variable {fields : Fields α} {o : Origin} {key : String} {d : Document}
  {rest : List (Option String × Document)} {slots slots' : fields.Slots}

/-- A member under the name of a field has to be accepted by it. -/
theorem visitMembers_cons_of_mem (hkey : key ∈ fields.names) :
    visitMembers fields o ((some key, d) :: rest) slots = .ok slots' ↔
      ∃ next, fields.accept o key d slots = .ok next ∧
        visitMembers fields o rest next = .ok slots' := by
  simp only [visitMembers, if_pos hkey]
  constructor
  · exact exists_of_bind_eq_ok
  · rintro ⟨next, haccept, hrest⟩
    rw [haccept]
    exact hrest

/-- A member of another name only has to be well formed. -/
theorem visitMembers_cons_of_notMem (hkey : key ∉ fields.names) :
    visitMembers fields o ((some key, d) :: rest) slots = .ok slots' ↔
      Decoder.skip d = .ok () ∧ visitMembers fields o rest slots = .ok slots' := by
  simp only [visitMembers, if_neg hkey]
  constructor
  · intro h
    obtain ⟨⟨⟩, hskip, hrest⟩ := exists_of_bind_eq_ok h
    exact ⟨hskip, hrest⟩
  · rintro ⟨hskip, hrest⟩
    rw [hskip]
    exact hrest

end Visit

/-- Members of other names are passed over. -/
theorem visitMembers_of_notMem {fields : Fields α} {members : List (String × Json)} (o : Origin)
    (slots : fields.Slots) (h : ∀ m ∈ members, m.1 ∉ fields.names) :
    visitMembers fields o (Document.ofMembers members) slots = .ok slots := by
  induction members with
  | nil => rfl
  | cons m rest ih =>
    obtain ⟨key, value⟩ := m
    have hkey : key ∉ fields.names := h (key, value) List.mem_cons_self
    have hrest := ih fun m hm => h m (List.mem_cons_of_mem _ hm)
    exact (visitMembers_cons_of_notMem hkey).2 ⟨Decoder.skip_ofJson value, hrest⟩

/-- A member under the only name of a record of one field fills its slot. -/
theorem visitMembers_of_mem {fields : Fields α} {members : List (String × Json)} {name : String}
    {value : Json} {o : Origin} {slots : fields.Slots} (hnames : fields.names = [name])
    (hkeys : (members.map Prod.fst).Nodup) (hmem : (name, value) ∈ members)
    (haccept : fields.accept o name (.ofJson value) fields.blank = .ok slots) :
    visitMembers fields o (Document.ofMembers members) fields.blank = .ok slots := by
  induction members with
  | nil => cases hmem
  | cons m rest ih =>
    obtain ⟨key, other⟩ := m
    obtain ⟨hkey, hrest⟩ := List.nodup_cons.1 hkeys
    rcases List.mem_cons.1 hmem with heq | hmem
    · cases heq
      have hname : name ∈ fields.names := hnames ▸ List.mem_singleton_self name
      refine (visitMembers_cons_of_mem hname).2 ⟨slots, haccept, ?_⟩
      refine visitMembers_of_notMem o slots fun m hm hname => ?_
      rw [hnames, List.mem_singleton] at hname
      exact hkey (List.mem_map.2 ⟨m, hm, hname⟩)
    · have hne : key ∉ fields.names := by
        rw [hnames, List.mem_singleton]
        rintro rfl
        exact hkey (List.mem_map.2 ⟨_, hmem, rfl⟩)
      exact (visitMembers_cons_of_notMem hne).2 ⟨Decoder.skip_ofJson other, ih hrest hmem⟩

variable {members : List (String × Json)} {name : String} {value : Json} {x : α} {y : β}

/-- A field that is there is found. -/
theorem reads_required {decode : Decoder α} (hkeys : (members.map Prod.fst).Nodup)
    (hmem : (name, value) ∈ members) (h : decode.Reads value x) :
    (required name decode).Reads members x := by
  intro o
  refine ⟨some x, visitMembers_of_mem rfl hkeys hmem ?_, rfl⟩
  simp [required, fillSlot, h o, Except.map]

/-- A field that could be absent is found where it is there. -/
theorem reads_defaulted {decode : Decoder α} {default : α} (hkeys : (members.map Prod.fst).Nodup)
    (hmem : (name, value) ∈ members) (h : decode.Reads value x) :
    (defaulted name decode default).Reads members x := by
  intro o
  refine ⟨some x, visitMembers_of_mem rfl hkeys hmem ?_, rfl⟩
  simp [defaulted, fillSlot, h o, Except.map]

/-- A field that could be absent has its own value where it is absent, and is read where it is
there. -/
theorem reads_defaulted_of_find? {decode : Decoder α} {default : α}
    (hkeys : (members.map Prod.fst).Nodup)
    (hsome : ∀ value, Members.find? name members = some value → decode.Reads value x)
    (hnone : Members.find? name members = none → x = default) :
    (defaulted name decode default).Reads members x := by
  cases hfound : Members.find? name members with
  | some value => exact reads_defaulted hkeys (Members.mem_of_find? hfound) (hsome value hfound)
  | none =>
    have habsent : ∀ m ∈ members, m.1 ∉ (defaulted name decode default).names := by
      intro m hm hname
      exact Members.find?_ne_none_of_mem hm (List.mem_singleton.1 hname ▸ hfound)
    intro o
    refine ⟨none, visitMembers_of_notMem o _ habsent, ?_⟩
    rw [hnone hfound]
    rfl

/-- A value that is written only where there is one is read so. -/
theorem reads_optional {decode : Decoder α} {write : α → Json} {x? : Option α}
    (hkeys : (members.map Prod.fst).Nodup)
    (hfound : Members.find? name members = x?.map write) (h : ∀ x, decode.Reads (write x) x)
    (hwrite : ∀ x, write x ≠ .null) :
    (defaulted name (Decoder.optional decode) none).Reads members x? := by
  cases x? with
  | none =>
    refine reads_defaulted_of_find? hkeys ?_ fun _ => rfl
    intro value hvalue
    cases hfound.symm.trans hvalue
  | some x =>
    exact reads_defaulted hkeys (Members.mem_of_find? hfound) ((h x).optional (hwrite x))

/-- Fields of different names do not get into each other's way. -/
theorem visitMembers_both {a : Fields α} {b : Fields β} {o : Origin}
    (hnames : ∀ name ∈ a.names, name ∉ b.names) {ds : List (Option String × Document)}
    {sa sa' : a.Slots} {sb sb' : b.Slots} (ha : visitMembers a o ds sa = .ok sa')
    (hb : visitMembers b o ds sb = .ok sb') :
    visitMembers (a.both b) o ds (sa, sb) = .ok (sa', sb') := by
  induction ds generalizing sa sb with
  | nil =>
    cases ha
    cases hb
    rfl
  | cons m rest ih =>
    obtain ⟨key?, d⟩ := m
    cases key? with
    | none => cases ha
    | some key =>
      have hmem : key ∈ (a.both b).names ↔ key ∈ a.names ∨ key ∈ b.names := List.mem_append
      by_cases hka : key ∈ a.names
      · -- The second record passes over the member, which is well formed then.
        obtain ⟨-, hrestB⟩ := (visitMembers_cons_of_notMem (hnames key hka)).1 hb
        obtain ⟨next, haccept, hrestA⟩ := (visitMembers_cons_of_mem hka).1 ha
        refine (visitMembers_cons_of_mem (hmem.2 (.inl hka))).2 ⟨(next, sb), ?_, ih hrestA hrestB⟩
        simp [Fields.both, hka, haccept, Except.map]
      · obtain ⟨hskip, hrestA⟩ := (visitMembers_cons_of_notMem hka).1 ha
        by_cases hkb : key ∈ b.names
        · obtain ⟨next, haccept, hrestB⟩ := (visitMembers_cons_of_mem hkb).1 hb
          refine (visitMembers_cons_of_mem (hmem.2 (.inr hkb))).2 ⟨(sa, next), ?_, ih hrestA hrestB⟩
          simp [Fields.both, hka, haccept, Except.map]
        · obtain ⟨-, hrestB⟩ := (visitMembers_cons_of_notMem hkb).1 hb
          have hkey : key ∉ (a.both b).names := fun h => (hmem.1 h).elim hka hkb
          exact (visitMembers_cons_of_notMem hkey).2 ⟨hskip, ih hrestA hrestB⟩

theorem Reads.both {a : Fields α} {b : Fields β} (ha : a.Reads members x) (hb : b.Reads members y)
    (hnames : ∀ name ∈ a.names, name ∉ b.names) : (a.both b).Reads members (x, y) := by
  intro o
  obtain ⟨sa, hvisitA, hfinishA⟩ := ha o
  obtain ⟨sb, hvisitB, hfinishB⟩ := hb o
  refine ⟨(sa, sb), visitMembers_both hnames hvisitA hvisitB, ?_⟩
  simp [Fields.both, hfinishA, hfinishB, bind, Except.bind]

theorem visitMembers_map (a : Fields α) (f : α → β) (o : Origin)
    (ds : List (Option String × Document)) (slots : a.Slots) :
    visitMembers (a.map f) o ds slots = visitMembers a o ds slots := by
  induction ds generalizing slots with
  | nil => rfl
  | cons m rest ih =>
    obtain ⟨key?, d⟩ := m
    cases key? with
    | none => rfl
    | some key =>
      have hih : visitMembers (a.map f) o rest = visitMembers a o rest := funext ih
      simp only [visitMembers, hih]
      rfl

theorem Reads.map {a : Fields α} (h : a.Reads members x) (f : α → β) :
    (a.map f).Reads members (f x) := by
  intro o
  obtain ⟨slots, hvisit, hfinish⟩ := h o
  refine ⟨slots, (visitMembers_map a f o _ _).trans hvisit, ?_⟩
  simp [Fields.map, hfinish, Except.map]

/-- What the fields find is what the record is read as. -/
theorem Reads.decoder {a : Fields α} (h : a.Reads members x) (title : String) :
    (a.decoder title).Reads (.object members) x := by
  intro o
  obtain ⟨slots, hvisit, hfinish⟩ := h o
  simp [Fields.decoder, Document.ofJson, hvisit, hfinish, bind, Except.bind]

end Fields

end StepFlow
