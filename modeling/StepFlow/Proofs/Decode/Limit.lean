import StepFlow.Proofs.Decode
import StepFlow.Proofs.Except

/-!
# What decoders can read of texts

A text is read only down to a limit for nesting.  A decoder that looks at every part of a value,
such as that of data, accepts the text of the value only if all of it lies within the limit
(`Decoder.Limited.ofText`); a part that nobody asks for may lie beyond.  The laws follow the ways in
which decoders are built.
-/

namespace StepFlow

open Document (depthLimit)

theorem Document.eq_null_of_shown {depth : Nat} {value : Json}
    (h : Document.shown depth value = .null) : value = .null := by
  cases value with
  | null => rfl
  | array items =>
    rw [shown, limitDepth] at h
    split at h
    · cases h
    · split at h <;> cases h
  | object members =>
    rw [shown, limitDepth] at h
    split at h
    · cases h
    · split at h <;> cases h
  | _ => cases h

/-- The decoder accepts what is seen of a value below some arrays and objects only if the whole
value is seen. -/
def Decoder.Limited {α : Type} (decode : Decoder α) (value : Json) : Prop :=
  ∀ o depth x, depth ≤ depthLimit → decode o (.shown depth value) = .ok x →
    depth + value.nesting ≤ depthLimit

namespace Decoder

variable {α : Type} {decode : Decoder α} {value : Json} {x : α}

theorem limited_of_nesting_eq_zero (decode : Decoder α) (h : value.nesting = 0) :
    decode.Limited value := by
  intro o depth x hdepth _
  omega

theorem limited_context (c : Context) : context.Limited c.toJson := by
  intro o depth x hdepth hread
  by_contra hbeyond
  rw [Context.toJson, Json.nesting] at hbeyond
  rw [Context.toJson, Document.shown, Document.limitDepth] at hread
  split at hread
  · rw [context, Document.toMembers?_shownMembers_eq_none _ _ (by omega) (by omega)] at hread
    cases hread
  · split at hread <;> cases hread

/-- A value that may be absent is looked at if it is there. -/
theorem Limited.optional (h : decode.Limited value) : (Decoder.optional decode).Limited value := by
  intro o depth x hdepth hread
  unfold Decoder.optional at hread
  split at hread
  · rename_i hnull
    rw [Document.eq_null_of_shown hnull]
    exact hdepth
  · obtain ⟨y, hy, -⟩ := exists_of_map_eq_ok hread
    exact h _ depth y hdepth hy

/-- All items of a list are looked at. -/
theorem limited_list {write : α → Json} {xs : List α} (h : ∀ x ∈ xs, decode.Limited (write x)) :
    (list decode).Limited (.array (xs.map write)) := by
  intro o depth ys hdepth hread
  rw [Document.shown, Document.limitDepth] at hread
  split at hread
  · rename_i hlt
    have hitems : depth + 1 + Json.nestingItems (xs.map write) ≤ depthLimit := by
      replace hread : items decode o (Document.shownItems (depth + 1) (xs.map write)) = .ok ys := hread
      induction xs generalizing ys with
      | nil => exact hlt
      | cons x xs ih =>
        obtain ⟨y, hy, hrest⟩ := exists_of_bind_eq_ok hread
        obtain ⟨ys, hys, -⟩ := exists_of_bind_eq_ok hrest
        have hx := h x List.mem_cons_self o (depth + 1) y hlt hy
        have hxs := ih (fun x' hx' => h x' (List.mem_cons_of_mem _ hx')) ys hys
        simp only [List.map_cons, Json.nestingItems]
        omega
    rw [Json.nesting]
    omega
  · split at hread <;> cases hread

/-- Of the text of a value only what lies within the limit is accepted. -/
theorem Limited.ofText (h : decode.Limited value) (hread : decode.ofText value.compact = .ok x) :
    value.nesting ≤ depthLimit := by
  rw [Decoder.ofText, Document.ofText_compact] at hread
  obtain ⟨y, hy, -⟩ := exists_of_bind_eq_ok hread
  have hwithin := h .text 0 y (Nat.zero_le _) hy
  rwa [Nat.zero_add] at hwithin

/-- What is read back from a value is read back from its text exactly within the limit. -/
theorem Limited.ofText_eq_ok_iff (h : decode.Limited value) (hreads : decode.Reads value x) :
    decode.ofText value.compact = .ok x ↔ value.nesting ≤ depthLimit :=
  ⟨h.ofText, hreads.ofText⟩

end Decoder

namespace Fields

open Decoder (Limited)

variable {α β : Type} {name : String} {value : Json}

/-- The field of a name is accepted only if the whole value is seen. -/
def LimitedAt (fields : Fields α) (name : String) (value : Json) : Prop :=
  ∀ o depth slots slots', depth ≤ depthLimit →
    fields.accept o name (.shown depth value) slots = .ok slots' →
    depth + value.nesting ≤ depthLimit

theorem limitedAt_of_nesting_eq_zero (fields : Fields α) (h : value.nesting = 0) :
    fields.LimitedAt name value := by
  intro o depth slots slots' hdepth _
  omega

theorem exists_of_fillSlot {decode : Decoder α} {o : Origin} {d : Document} {slot slot' : Option α}
    (h : fillSlot decode o name d slot = .ok slot') : ∃ x, decode o d = .ok x := by
  cases slot with
  | some y => cases h
  | none =>
    obtain ⟨x, hx, -⟩ := exists_of_map_eq_ok h
    exact ⟨x, hx⟩

theorem limitedAt_required {decode : Decoder α} (h : decode.Limited value) (key : String) :
    (required key decode).LimitedAt name value := by
  intro o depth slots slots' hdepth haccept
  obtain ⟨x, hx⟩ := exists_of_fillSlot haccept
  exact h o depth x hdepth hx

theorem limitedAt_defaulted {decode : Decoder α} (h : decode.Limited value) (key : String)
    (default : α) : (defaulted key decode default).LimitedAt name value := by
  intro o depth slots slots' hdepth haccept
  obtain ⟨x, hx⟩ := exists_of_fillSlot haccept
  exact h o depth x hdepth hx

/-- A field of the first record. -/
theorem LimitedAt.left {a : Fields α} {b : Fields β} (hname : name ∈ a.names)
    (h : a.LimitedAt name value) : (a.both b).LimitedAt name value := by
  intro o depth slots slots' hdepth haccept
  simp only [both, if_pos hname] at haccept
  obtain ⟨next, hnext, -⟩ := exists_of_map_eq_ok haccept
  exact h o depth _ next hdepth hnext

/-- A field of the second record. -/
theorem LimitedAt.right {a : Fields α} {b : Fields β} (hname : name ∉ a.names)
    (h : b.LimitedAt name value) : (a.both b).LimitedAt name value := by
  intro o depth slots slots' hdepth haccept
  simp only [both, if_neg hname] at haccept
  obtain ⟨next, hnext, -⟩ := exists_of_map_eq_ok haccept
  exact h o depth _ next hdepth hnext

theorem LimitedAt.map {a : Fields α} (f : α → β) (h : a.LimitedAt name value) :
    (a.map f).LimitedAt name value := h

/-- Members that are all accepted as fields are seen as a whole. -/
theorem nestingMembers_le_of_visitMembers {fields : Fields α} {members : List (String × Json)}
    {o : Origin} {depth : ℕ} (hdepth : depth ≤ depthLimit)
    (hnames : ∀ m ∈ members, m.1 ∈ fields.names) (h : ∀ m ∈ members, fields.LimitedAt m.1 m.2)
    (slots slots' : fields.Slots)
    (hvisit : visitMembers fields o (Document.shownMembers depth members) slots = .ok slots') :
    depth + Json.nestingMembers members ≤ depthLimit := by
  induction members generalizing slots with
  | nil => exact hdepth
  | cons m rest ih =>
    obtain ⟨key, value⟩ := m
    have hkey : key ∈ fields.names := hnames (key, value) List.mem_cons_self
    obtain ⟨next, haccept, hvisit⟩ := (visitMembers_cons_of_mem hkey).1 hvisit
    have hvalue : depth + value.nesting ≤ depthLimit :=
      h (key, value) List.mem_cons_self o depth slots next hdepth haccept
    have hrest := ih (fun m hm => hnames m (List.mem_cons_of_mem _ hm))
      (fun m hm => h m (List.mem_cons_of_mem _ hm)) next hvisit
    simp only [Json.nestingMembers]
    omega

/-- A record all of whose members are fields is looked at as a whole. -/
theorem limited_decoder {fields : Fields α} {members : List (String × Json)} (title : String)
    (hnames : ∀ m ∈ members, m.1 ∈ fields.names)
    (h : ∀ m ∈ members, fields.LimitedAt m.1 m.2) :
    (fields.decoder title).Limited (.object members) := by
  intro o depth x hdepth hread
  rw [Document.shown, Document.limitDepth] at hread
  split at hread
  · rename_i hlt
    obtain ⟨slots', hslots', -⟩ := exists_of_bind_eq_ok hread
    have hmembers := nestingMembers_le_of_visitMembers hlt hnames h _ _ hslots'
    rw [Json.nesting]
    omega
  · split at hread <;> cases hread

end Fields

end StepFlow
