import Mathlib.Order.Nat
import StepFlow.Proofs.Context
import StepFlow.Proofs.Json.Nesting

/-!
# How deep data nest

Data nest one level deeper than the values in them (`Context.nesting_le_succ_iff`).  Putting data
together therefore nests no deeper than its parts do: the operations on data have one lemma each.
-/

namespace StepFlow

namespace Members

variable {α : Type} {base newer : List (String × α)} {p : String × α}

theorem mem_override (h : p ∈ override base newer) : p ∈ base ∨ p ∈ newer := by
  induction newer generalizing base with
  | nil => exact .inl h
  | cons m rest ih =>
    rcases ih h with h | h
    · rcases mem_put h with rfl | h
      · exact .inr List.mem_cons_self
      · exact .inl h
    · exact .inr (List.mem_cons_of_mem _ h)

theorem mem_fill (h : p ∈ fill base newer) : p ∈ base ∨ p ∈ newer := by
  induction newer generalizing base with
  | nil => exact .inl h
  | cons m rest ih =>
    rcases ih h with h | h
    · rcases mem_putAbsent h with rfl | h
      · exact .inr List.mem_cons_self
      · exact .inl h
    · exact .inr (List.mem_cons_of_mem _ h)

end Members

namespace Json

mutual

/-- The canonical form of a value nests no deeper; members may be gone. -/
theorem nesting_canonical_le (value : Json) : value.canonical.nesting ≤ value.nesting := by
  cases value with
  | array items => exact Nat.succ_le_succ (nestingItems_canonicalItems_le items)
  | object members => exact Nat.succ_le_succ (nestingMembers_canonicalMembers_le members)
  | _ => exact Nat.le_refl _

theorem nestingItems_canonicalItems_le (items : List Json) :
    nestingItems (canonicalItems items) ≤ nestingItems items := by
  cases items with
  | nil => exact Nat.le_refl _
  | cons item rest =>
    have hitem := nesting_canonical_le item
    have hrest := nestingItems_canonicalItems_le rest
    simp only [canonicalItems, nestingItems]
    omega

theorem nestingMembers_canonicalMembers_le (members : List (String × Json)) :
    nestingMembers (canonicalMembers members) ≤ nestingMembers members := by
  cases members with
  | nil => exact Nat.le_refl _
  | cons m rest =>
    obtain ⟨key, value⟩ := m
    have hvalue := nesting_canonical_le value
    have hrest := nestingMembers_canonicalMembers_le rest
    refine nestingMembers_le_iff.2 fun p hp => ?_
    simp only [nestingMembers]
    rcases Members.mem_putAbsent hp with rfl | hp
    · exact hvalue.trans (Nat.le_max_left _ _)
    · exact (nestingMembers_le_iff.1 hrest p hp).trans (Nat.le_max_right _ _)

end

end Json

namespace Context

variable {c d : Context} {n : Nat}

/-- Data nest one level deeper than their values. -/
theorem nesting_le_succ_iff :
    c.toJson.nesting ≤ n + 1 ↔ ∀ m ∈ c.members, m.2.nesting ≤ n := by
  rw [toJson, Json.nesting, Nat.add_le_add_iff_right, Json.nestingMembers_le_iff]

theorem nesting_pos (c : Context) : 1 ≤ c.toJson.nesting := Nat.succ_le_succ (Nat.zero_le _)

/-- A value that is found nests less deep than the data. -/
theorem nesting_lt_of_get? {name : String} {value : Json} (h : c.get? name = some value) :
    value.nesting < c.toJson.nesting :=
  Nat.lt_succ_of_le (Json.nestingMembers_le_iff.1 (Nat.le_refl _) _ (Members.mem_of_find? h))

theorem nesting_override_le (hc : c.toJson.nesting ≤ n + 1) (hd : d.toJson.nesting ≤ n + 1) :
    (c.override d).toJson.nesting ≤ n + 1 := by
  refine nesting_le_succ_iff.2 fun m hm => ?_
  rcases Members.mem_override hm with hm | hm
  · exact nesting_le_succ_iff.1 hc m hm
  · exact nesting_le_succ_iff.1 hd m hm

theorem nesting_fill_le (hc : c.toJson.nesting ≤ n + 1) (hd : d.toJson.nesting ≤ n + 1) :
    (c.fill d).toJson.nesting ≤ n + 1 := by
  refine nesting_le_succ_iff.2 fun m hm => ?_
  rcases Members.mem_fill hm with hm | hm
  · exact nesting_le_succ_iff.1 hc m hm
  · exact nesting_le_succ_iff.1 hd m hm

theorem nesting_insert_le {name : String} {value : Json} (hc : c.toJson.nesting ≤ n + 1)
    (hvalue : value.nesting ≤ n) : (c.insert name value).toJson.nesting ≤ n + 1 := by
  refine nesting_le_succ_iff.2 fun m hm => ?_
  rcases Members.mem_put hm with rfl | hm
  · exact value.nesting_canonical_le.trans hvalue
  · exact nesting_le_succ_iff.1 hc m hm

theorem nesting_ofMembers_le {members : List (String × Json)}
    (h : Json.nestingMembers members ≤ n) : (ofMembers members).toJson.nesting ≤ n + 1 :=
  Nat.succ_le_succ ((Json.nestingMembers_canonicalMembers_le members).trans h)

end Context

end StepFlow
