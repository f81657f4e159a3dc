/-!
# Members in key order

A finite map from texts to values is a list of pairs whose keys increase strictly. This
module holds the operations on such lists, the predicate `Ordered`, and the facts that they
keep it and that an ordered list is determined by its lookups.
-/

namespace StepFlow.Members

variable {α : Type}

/-- The value under a key. -/
def find? (key : String) : List (String × α) → Option α
  | [] => none
  | (k, v) :: rest => if k = key then some v else find? key rest

/-- The list with a value under a key, in place of any value it had. -/
def put (key : String) (value : α) : List (String × α) → List (String × α)
  | [] => [(key, value)]
  | (k, v) :: rest =>
    if key < k then (key, value) :: (k, v) :: rest
    else if key = k then (key, value) :: rest
    else (k, v) :: put key value rest

/-- The list with a value under a key that has none; a key that has one keeps it. -/
def putAbsent (key : String) (value : α) : List (String × α) → List (String × α)
  | [] => [(key, value)]
  | (k, v) :: rest =>
    if key < k then (key, value) :: (k, v) :: rest
    else if key = k then (k, v) :: rest
    else (k, v) :: putAbsent key value rest

/-- The list without a key. -/
def erase (key : String) : List (String × α) → List (String × α)
  | [] => []
  | (k, v) :: rest => if k = key then rest else (k, v) :: erase key rest

/-- The first list overwritten by the second. -/
def override (base newer : List (String × α)) : List (String × α) :=
  newer.foldl (fun acc (k, v) => put k v acc) base

/-- The first list with those entries of the second whose keys it lacks. -/
def fill (base extra : List (String × α)) : List (String × α) :=
  extra.foldl (fun acc (k, v) => putAbsent k v acc) base

/-- The keys increase strictly. -/
def Ordered (ms : List (String × α)) : Prop :=
  ms.Pairwise fun a b => a.1 < b.1

/-! ### Membership and order -/

theorem mem_put {key : String} {value : α} {ms : List (String × α)} {p : String × α}
    (h : p ∈ put key value ms) : p = (key, value) ∨ p ∈ ms := by
  induction ms with
  | nil => simpa [put] using h
  | cons m rest ih =>
    obtain ⟨k, v⟩ := m
    simp only [put] at h
    split at h
    · simpa using h
    · split at h
      · rcases List.mem_cons.1 h with h | h
        · exact Or.inl h
        · exact Or.inr (List.mem_cons_of_mem _ h)
      · rcases List.mem_cons.1 h with h | h
        · exact Or.inr (h ▸ List.mem_cons_self)
        · exact (ih h).imp_right (List.mem_cons_of_mem _)

theorem mem_putAbsent {key : String} {value : α} {ms : List (String × α)} {p : String × α}
    (h : p ∈ putAbsent key value ms) : p = (key, value) ∨ p ∈ ms := by
  induction ms with
  | nil => simpa [putAbsent] using h
  | cons m rest ih =>
    obtain ⟨k, v⟩ := m
    simp only [putAbsent] at h
    split at h
    · simpa using h
    · split at h
      · exact Or.inr h
      · rcases List.mem_cons.1 h with h | h
        · exact Or.inr (h ▸ List.mem_cons_self)
        · exact (ih h).imp_right (List.mem_cons_of_mem _)

theorem mem_erase {key : String} {ms : List (String × α)} {p : String × α}
    (h : p ∈ erase key ms) : p ∈ ms := by
  induction ms with
  | nil => exact h
  | cons m rest ih =>
    obtain ⟨k, v⟩ := m
    simp only [erase] at h
    split at h
    · exact List.mem_cons_of_mem _ h
    · rcases List.mem_cons.1 h with h | h
      · exact h ▸ List.mem_cons_self
      · exact List.mem_cons_of_mem _ (ih h)

private theorem lt_of_not_lt_of_ne {a b : String} (h : ¬a < b) (h' : a ≠ b) : b < a := by
  by_cases hb : b < a
  · exact hb
  · exact absurd (String.le_antisymm (String.not_lt.1 hb) (String.not_lt.1 h)) h'

theorem Ordered.put {key : String} {value : α} {ms : List (String × α)} (h : Ordered ms) :
    Ordered (put key value ms) := by
  induction ms with
  | nil => exact List.pairwise_singleton _ _
  | cons m rest ih =>
    obtain ⟨k, v⟩ := m
    have hk := List.pairwise_cons.1 h
    simp only [Members.put]
    split
    · rename_i hlt
      refine List.pairwise_cons.2 ⟨fun p hp => ?_, h⟩
      rcases List.mem_cons.1 hp with rfl | hp
      · exact hlt
      · exact String.lt_trans hlt (hk.1 p hp)
    · split
      · rename_i heq
        exact List.pairwise_cons.2 ⟨fun p hp => heq ▸ hk.1 p hp, hk.2⟩
      · rename_i hlt heq
        refine List.pairwise_cons.2 ⟨fun p hp => ?_, ih hk.2⟩
        rcases mem_put hp with rfl | hp
        · exact lt_of_not_lt_of_ne hlt heq
        · exact hk.1 p hp

theorem Ordered.putAbsent {key : String} {value : α} {ms : List (String × α)}
    (h : Ordered ms) : Ordered (putAbsent key value ms) := by
  induction ms with
  | nil => exact List.pairwise_singleton _ _
  | cons m rest ih =>
    obtain ⟨k, v⟩ := m
    have hk := List.pairwise_cons.1 h
    simp only [Members.putAbsent]
    split
    · rename_i hlt
      refine List.pairwise_cons.2 ⟨fun p hp => ?_, h⟩
      rcases List.mem_cons.1 hp with rfl | hp
      · exact hlt
      · exact String.lt_trans hlt (hk.1 p hp)
    · split
      · exact h
      · rename_i hlt heq
        refine List.pairwise_cons.2 ⟨fun p hp => ?_, ih hk.2⟩
        rcases mem_putAbsent hp with rfl | hp
        · exact lt_of_not_lt_of_ne hlt heq
        · exact hk.1 p hp

theorem Ordered.erase {key : String} {ms : List (String × α)} (h : Ordered ms) :
    Ordered (erase key ms) := by
  induction ms with
  | nil => exact h
  | cons m rest ih =>
    obtain ⟨k, v⟩ := m
    have hk := List.pairwise_cons.1 h
    simp only [Members.erase]
    split
    · exact hk.2
    · exact List.pairwise_cons.2 ⟨fun p hp => hk.1 p (mem_erase hp), ih hk.2⟩

/-! ### Lookups -/

@[simp] theorem find?_put (key other : String) (value : α) (ms : List (String × α)) :
    find? other (put key value ms) = if key = other then some value else find? other ms := by
  induction ms with
  | nil => simp [put, find?]
  | cons m rest ih =>
    obtain ⟨k, v⟩ := m
    simp only [put]
    split
    · simp [find?]
    · split
      · rename_i heq
        subst heq
        by_cases ho : key = other <;> simp [find?, ho]
      · rename_i hne
        by_cases ho : k = other
        · subst ho
          simp [find?, hne]
        · simp [find?, ho, ih]

theorem find?_eq_none_of_lt {key : String} {ms : List (String × α)}
    (h : ∀ p ∈ ms, key < p.1) : find? key ms = none := by
  induction ms with
  | nil => rfl
  | cons m rest ih =>
    obtain ⟨k, v⟩ := m
    have hk : key < k := h (k, v) List.mem_cons_self
    have hne : k ≠ key := fun e => String.lt_irrefl key (e ▸ hk)
    simp only [find?, if_neg hne]
    exact ih fun p hp => h p (List.mem_cons_of_mem _ hp)

/-- Ordered lists with the same lookups are the same list. -/
theorem Ordered.ext {xs ys : List (String × α)} (hx : Ordered xs) (hy : Ordered ys)
    (h : ∀ key, find? key xs = find? key ys) : xs = ys := by
  induction xs generalizing ys with
  | nil =>
    cases ys with
    | nil => rfl
    | cons y ys =>
      have := h y.1
      simp [find?] at this
  | cons x xs ih =>
    cases ys with
    | nil =>
      have := h x.1
      simp [find?] at this
    | cons y ys =>
      obtain ⟨k, v⟩ := x
      obtain ⟨l, w⟩ := y
      have hx' := List.pairwise_cons.1 hx
      have hy' := List.pairwise_cons.1 hy
      have hkl : k = l := by
        by_cases hkl : k = l
        · exact hkl
        by_cases hlt : k < l
        · have hnone : find? k ((l, w) :: ys) = none :=
            find?_eq_none_of_lt fun p hp => by
              rcases List.mem_cons.1 hp with rfl | hp
              · exact hlt
              · exact String.lt_trans hlt (hy'.1 p hp)
          have := h k
          rw [hnone] at this
          simp [find?] at this
        · have hlt := lt_of_not_lt_of_ne hlt hkl
          have hnone : find? l ((k, v) :: xs) = none :=
            find?_eq_none_of_lt fun p hp => by
              rcases List.mem_cons.1 hp with rfl | hp
              · exact hlt
              · exact String.lt_trans hlt (hx'.1 p hp)
          have := h l
          rw [hnone] at this
          simp [find?] at this
      subst hkl
      have hv : v = w := by simpa [find?] using h k
      subst hv
      congr 1
      refine ih hx'.2 hy'.2 fun key => ?_
      by_cases hkey : k = key
      · subst hkey
        rw [find?_eq_none_of_lt hx'.1, find?_eq_none_of_lt hy'.1]
      · have := h key
        simpa [find?, hkey] using this

end StepFlow.Members
