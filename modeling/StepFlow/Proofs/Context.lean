import Mathlib.Tactic.Common
import StepFlow.Context

/-!
# Lookups in contexts

What a lookup finds in a context that is built of others.  The lookups after an insertion are
proved with the members themselves; this file adds those after the other operations:
`get?_override` says that overwriting gives the newer entries precedence, `get?_fill` that filling
gives it to the older ones, and `get?_ofMembers` that of several members under a name the last one
counts.  A context that overwrites another loses none of its names (`isSome_get?_override`), which
is why the data of a run only grow.

Whatever is found in a context is in canonical form (`isCanonical_of_get?`), so that it enters
another context unchanged.
-/

namespace StepFlow

namespace Members

variable {α : Type}

theorem mem_of_find? {key : String} {value : α} {ms : List (String × α)}
    (h : find? key ms = some value) : (key, value) ∈ ms := by
  induction ms with
  | nil => cases h
  | cons m rest ih =>
    obtain ⟨k, v⟩ := m
    rw [find?] at h
    split at h
    · rename_i heq
      cases h
      exact heq ▸ List.mem_cons_self
    · exact List.mem_cons_of_mem _ (ih h)

/-- Adding a member only where there is none leaves the lookups that succeeded as they were. -/
theorem find?_putAbsent {key : String} {value : α} {ms : List (String × α)} (h : Ordered ms)
    (other : String) :
    find? other (putAbsent key value ms) =
      (find? other ms).or (if key = other then some value else none) := by
  induction ms with
  | nil => simp [putAbsent, find?]
  | cons m rest ih =>
    obtain ⟨k, v⟩ := m
    have hk := List.pairwise_cons.1 h
    simp only [putAbsent]
    split
    · rename_i hlt
      -- The key comes before all others, so nothing was found under it.
      by_cases ho : key = other
      · subst ho
        have hnone : find? key ((k, v) :: rest) = none :=
          find?_eq_none_of_lt fun p hp => by
            rcases List.mem_cons.1 hp with rfl | hp
            · exact hlt
            · exact String.lt_trans hlt (hk.1 p hp)
        rw [hnone]
        simp [find?]
      · simp [find?, ho]
    · split
      · rename_i heq
        subst heq
        by_cases ho : key = other <;> simp [find?, ho]
      · by_cases ho : k = other
        · simp [find?, ho]
        · simpa [find?, ho] using ih hk.2

/-- No key of ordered members occurs twice. -/
theorem Ordered.nodup {ms : List (String × α)} (h : Ordered ms) : (ms.map Prod.fst).Nodup := by
  refine List.pairwise_map.2 (h.imp fun {a b} hlt heq => ?_)
  exact String.lt_irrefl b.1 (heq ▸ hlt)

theorem find?_ne_none_of_mem {m : String × α} {ms : List (String × α)} (h : m ∈ ms) :
    find? m.1 ms ≠ none := by
  induction ms with
  | nil => cases h
  | cons m' rest ih =>
    obtain ⟨k, v⟩ := m'
    rw [find?]
    split
    · exact Option.some_ne_none v
    · rename_i hne
      rcases List.mem_cons.1 h with rfl | h
      · exact absurd rfl hne
      · exact ih h

theorem find?_eq_none_of_notMem {key : String} {ms : List (String × α)}
    (h : key ∉ ms.map Prod.fst) : find? key ms = none := by
  refine Option.eq_none_iff_forall_ne_some.2 fun value hvalue => h ?_
  exact List.mem_map_of_mem (mem_of_find? hvalue)

/-- An entry of the overwriting members is found before any other. -/
theorem find?_override {newer : List (String × α)} (h : Ordered newer) (base : List (String × α))
    (name : String) :
    find? name (override base newer) = (find? name newer).or (find? name base) := by
  induction newer generalizing base with
  | nil => simp [override, find?]
  | cons m rest ih =>
    obtain ⟨k, v⟩ := m
    have hk := List.pairwise_cons.1 h
    have hstep : find? name (override base ((k, v) :: rest)) =
        (find? name rest).or (find? name (put k v base)) := ih hk.2 (put k v base)
    rw [hstep, find?_put]
    by_cases ho : k = name
    · subst ho
      have hnone : find? k rest = none := find?_eq_none_of_lt hk.1
      simp [find?, hnone]
    · simp [find?, ho]

/-- Members that fill up others are found where nothing else was. -/
theorem find?_fill {base : List (String × α)} (h : Ordered base) (extra : List (String × α))
    (name : String) :
    find? name (fill base extra) = (find? name base).or (find? name extra) := by
  induction extra generalizing base with
  | nil => simp [fill, find?]
  | cons m rest ih =>
    obtain ⟨k, v⟩ := m
    have hstep : find? name (fill base ((k, v) :: rest)) =
        (find? name (putAbsent k v base)).or (find? name rest) := ih h.putAbsent
    rw [hstep, find?_putAbsent h, Option.or_assoc]
    by_cases ho : k = name <;> simp [find?, ho]

/-- Only the member under the erased key is gone. -/
theorem find?_erase {ms : List (String × α)} (h : Ordered ms) (key name : String) :
    find? name (erase key ms) = if key = name then none else find? name ms := by
  induction ms with
  | nil => simp [erase, find?]
  | cons m rest ih =>
    obtain ⟨k, v⟩ := m
    have hk := List.pairwise_cons.1 h
    rw [erase]
    split
    · rename_i heq
      subst heq
      by_cases ho : k = name
      · subst ho
        rw [if_pos rfl, find?_eq_none_of_lt hk.1]
      · simp [find?, ho]
    · rename_i hne
      rw [find?, ih hk.2]
      by_cases ho : k = name
      · subst ho
        simp [find?, Ne.symm hne]
      · simp [find?, ho]

end Members

namespace Json

/-! ## Canonical values -/

mutual

/-- A value in canonical form is its own canonical form. -/
theorem canonical_eq_self (value : Json) (h : value.IsCanonical) : value.canonical = value := by
  cases value with
  | array items => rw [canonical, canonicalItems_eq_self items h]
  | object members => rw [canonical, canonicalMembers_eq_self members h]
  | _ => rfl

theorem canonicalItems_eq_self (items : List Json) (h : CanonicalItems items) :
    canonicalItems items = items := by
  cases items with
  | nil => rfl
  | cons item rest =>
    rw [canonicalItems, canonical_eq_self item h.1, canonicalItems_eq_self rest h.2]

theorem canonicalMembers_eq_self (members : List (String × Json)) (h : CanonicalMembers members) :
    canonicalMembers members = members := by
  cases members with
  | nil => rfl
  | cons m rest =>
    obtain ⟨key, value⟩ := m
    obtain ⟨hkey, hvalue, hrest⟩ := h
    rw [canonicalMembers, canonical_eq_self value hvalue, canonicalMembers_eq_self rest hrest]
    cases rest with
    | nil => rfl
    | cons m' rest =>
      have hlt : key < m'.1 := hkey m' List.mem_cons_self
      rw [Members.putAbsent, if_pos hlt]

end

/-- The canonical form of members with different keys has the canonical values under the same
keys. -/
theorem find?_canonicalMembers {members : List (String × Json)}
    (hkeys : (members.map Prod.fst).Nodup) (name : String) :
    Members.find? name (canonicalMembers members) =
      (Members.find? name members).map canonical := by
  induction members with
  | nil => rfl
  | cons m rest ih =>
    obtain ⟨key, value⟩ := m
    obtain ⟨hkey, hrest⟩ := List.nodup_cons.1 hkeys
    have hordered : Members.Ordered (canonicalMembers rest) :=
      (canonicalMembers_iff.1 (canonicalMembers_canonicalMembers rest)).1
    rw [canonicalMembers, Members.find?_putAbsent hordered, ih hrest]
    by_cases hname : key = name
    · subst hname
      rw [Members.find?_eq_none_of_notMem hkey]
      simp [Members.find?]
    · simp [Members.find?, hname]

/-- The keys of a canonical form are all different. -/
theorem nodup_canonicalMembers (members : List (String × Json)) :
    ((canonicalMembers members).map Prod.fst).Nodup :=
  (canonicalMembers_iff.1 (canonicalMembers_canonicalMembers members)).1.nodup

/-- No object is one of its own values. -/
theorem find?_ne_some_object (name : String) (members : List (String × Json)) :
    Members.find? name members ≠ some (.object members) := by
  intro h
  have hlt := List.sizeOf_lt_of_mem (Members.mem_of_find? h)
  simp only [Prod.mk.sizeOf_spec, object.sizeOf_spec] at hlt
  omega

theorem canonicalItems_eq_map (items : List Json) : canonicalItems items = items.map canonical := by
  induction items with
  | nil => rfl
  | cons item rest ih => rw [canonicalItems, ih, List.map_cons]

end Json

namespace Context

/-- The members of a context increase strictly by name. -/
theorem ordered (c : Context) : Members.Ordered c.members :=
  (Json.canonicalMembers_iff.1 c.isCanonical).1

/-- The members of a context describe the context. -/
theorem ofMembers_members (c : Context) : ofMembers c.members = c := by
  obtain ⟨members, h⟩ := c
  exact Context.mk.injEq .. ▸ Json.canonicalMembers_eq_self members h

/-- Members in canonical form are found as they are. -/
theorem get?_ofMembers_of_isCanonical {members : List (String × Json)}
    (h : Json.CanonicalMembers members) (name : String) :
    (ofMembers members).get? name = Members.find? name members :=
  congrArg (Members.find? name) (Json.canonicalMembers_eq_self members h)

/-- What is found in a context is in canonical form. -/
theorem isCanonical_of_get? {c : Context} {name : String} {value : Json}
    (h : c.get? name = some value) : value.IsCanonical :=
  (Json.canonicalMembers_iff.1 c.isCanonical).2 (name, value) (Members.mem_of_find? h)

@[simp] theorem get?_empty (name : String) : empty.get? name = none := rfl

/-- A value is found under the name under which it was put. -/
theorem get?_insert (c : Context) (key name : String) (value : Json) :
    (c.insert key value).get? name = if key = name then some value.canonical else c.get? name :=
  Members.find?_put key name value.canonical c.members

theorem get?_single (key name : String) (value : Json) :
    (single key value).get? name = if key = name then some value.canonical else none :=
  get?_insert empty key name value

/-- Filling a context leaves its own entries as they are. -/
theorem get?_fill (base extra : Context) (name : String) :
    (base.fill extra).get? name = (base.get? name).or (extra.get? name) :=
  Members.find?_fill base.ordered extra.members name

/-- Erasing a name takes only that name away. -/
theorem get?_erase (c : Context) (key name : String) :
    (c.erase key).get? name = if key = name then none else c.get? name :=
  Members.find?_erase c.ordered key name

/-- Overwriting gives the newer entries precedence. -/
theorem get?_override (base newer : Context) (name : String) :
    (base.override newer).get? name = (newer.get? name).or (base.get? name) :=
  Members.find?_override newer.ordered base.members name

/-- Of several members under one name the last one counts. -/
theorem get?_ofMembers_cons (key : String) (value : Json) (rest : List (String × Json))
    (name : String) :
    (ofMembers ((key, value) :: rest)).get? name =
      ((ofMembers rest).get? name).or (if key = name then some value.canonical else none) :=
  Members.find?_putAbsent (ofMembers rest).ordered name

@[simp] theorem get?_ofMembers_nil (name : String) : (ofMembers []).get? name = none := rfl

/-- A name under which there is no member is not found. -/
theorem get?_ofMembers_eq_none {members : List (String × Json)} {name : String}
    (h : name ∉ members.map Prod.fst) : (ofMembers members).get? name = none := by
  induction members with
  | nil => rfl
  | cons m rest ih =>
    obtain ⟨key, value⟩ := m
    rw [List.map_cons, List.mem_cons, not_or] at h
    rw [get?_ofMembers_cons, ih h.2, if_neg (Ne.symm h.1), Option.none_or]

/-- A context that is overwritten loses none of its names. -/
theorem isSome_get?_override {base : Context} {name : String} (newer : Context)
    (h : (base.get? name).isSome) : ((base.override newer).get? name).isSome := by
  rw [get?_override]
  cases newer.get? name with
  | none => simpa using h
  | some value => rfl

end Context

end StepFlow
