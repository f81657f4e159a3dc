import StepFlow.Proofs.History.Listing

/-!
# Identifiers and conflicts

An identifier names at most one row.  A record under an identifier that is stored is refused and
leaves the store as it is, also where the store is opened with a capacity that its rows exceed; a
record under any other identifier is accepted, even if the identifier was in use before.  Accepting
a record takes two changes, the new row and the eviction of what is then too much, and both of them
leave the other rows as they are and in their order.  `Store.keepsApart_of_reachable` says so of
every store that changes lead to.
-/

namespace StepFlow.History.Store

variable {s s' : Store} {r : Record} {M : ℕ}

/-! ## Refused records -/

/-- Saving fails only with a conflict, exactly where the identifier is stored. -/
theorem save_eq_error_iff {e : StoreError} :
    s.save r = .error e ↔ s.Has r.id ∧ e = .conflict r.id := by
  have hany : s.rows.any (·.id == r.id) = true ↔ s.Has r.id := by simp [Has]
  unfold save
  split
  · rename_i hstored
    rw [hany] at hstored
    simp [hstored, eq_comm]
  · rename_i hfree
    rw [hany] at hfree
    simp [hfree]

/-- A record that is refused changes nothing. -/
theorem apply_save_of_has (h : s.Has r.id) : s.apply (.save r) = s := by
  rw [apply, save_eq_error_iff.2 ⟨h, rfl⟩]

/-! ## Accepted records -/

/-- What the store is like that has accepted a record. -/
structure Admits (s : Store) (r : Record) (s' : Store) : Prop where
  capacity_eq : s'.capacity = s.capacity
  /-- No more rows go than are too many. -/
  length_eq : s'.rows.length = min s.capacity (s.rows.length + 1)
  /-- What stands under the identifier is the row of the record, unless it went at once. -/
  written : ∀ row ∈ s'.rows, row.id = r.id → row = Row.ofRecord (nextNumber s.rows) r
  /-- The other rows are unchanged in every column and stand in the order in which they came. -/
  others : (s'.rows.filter (·.id != r.id)).Sublist s.rows
  /-- They are listed in the same order as before. -/
  others_listed : ((newestFirst s'.rows).filter (·.id != r.id)).Sublist (newestFirst s.rows)

/-- The rows of a store that has accepted a record were there before or come behind all others. -/
theorem sublist_of_save (hsave : s.save r = .ok s') :
    s'.rows.Sublist (s.rows ++ [Row.ofRecord (nextNumber s.rows) r]) := by
  have happly : s.apply (.save r) = s' := by rw [apply, hsave]
  rcases apply_sublist s (.save r) with hless | ⟨_, hr, -, hmore⟩
  · rw [happly] at hless
    exact hless.trans (List.sublist_append_left _ _)
  · cases hr
    rwa [happly] at hmore

/-- A record under an identifier that is not stored is accepted. -/
theorem Coherent.exists_admits (h : s.Coherent) (hnew : ¬s.Has r.id) :
    ∃ s', s.save r = .ok s' ∧ s.Admits r s' := by
  obtain ⟨s', hsave, hcapacity, -, hlisting⟩ :=
    newestFirst_save h.numbers_nodup fun row hrow hid => hnew ⟨row, hrow, hid⟩
  have hid : (Row.ofRecord (nextNumber s.rows) r).id = r.id := rfl
  refine ⟨s', hsave, ?_⟩
  exact
    { capacity_eq := hcapacity
      length_eq := by
        rw [← (newestFirst_perm s'.rows).length_eq, hlisting, List.length_take,
          List.orderedInsert_length, (newestFirst_perm s.rows).length_eq]
      written := fun row hrow hrowId =>
        (mem_of_mem_save hsave hrow).resolve_right fun hold => hnew ⟨row, hold, hrowId⟩
      others := by
        refine ((sublist_of_save hsave).filter _).trans ?_
        rw [List.filter_append, List.filter_singleton, hid, bne_self_eq_false]
        simp
      others_listed := by
        rw [hlisting]
        refine ((List.take_sublist _ _).filter _).trans ?_
        rw [filter_orderedInsert _ (by rw [hid, bne_self_eq_false])]
        exact List.filter_sublist }

/-! ## The latest record that was accepted -/

/-- The stores that changes lead to in such a way that the last record to be accepted met the
capacity `M`. -/
inductive SavedUnder (M : ℕ) : Store → Prop
  | save {s s' : Store} {r : Record} : s.Reachable → s.capacity = M → s.save r = .ok s' →
      SavedUnder M s'
  | apply {s : Store} (c : Change) : SavedUnder M s →
      (∀ r s', c = .save r → s.save r ≠ .ok s') → SavedUnder M (s.apply c)

/-- Nothing but a record that is accepted brings more rows than the capacity allowed for when the
last one was. -/
theorem SavedUnder.length_le (h : SavedUnder M s) : s.rows.length ≤ M := by
  induction h with
  | @save s s' r hs hcapacity hsave =>
    obtain ⟨_, hsave', hadmits⟩ := hs.coherent.exists_admits (not_has_of_save hsave)
    cases hsave.symm.trans hsave'
    rw [hadmits.length_eq, hcapacity]
    exact Nat.min_le_left _ _
  | @apply s c _ hrefused ih =>
    rcases apply_sublist s c with hless | ⟨r, rfl, hnew, -⟩
    · exact hless.length_le.trans ih
    · cases hsave : s.save r with
      | error e => exact absurd (save_eq_error_iff.1 hsave).1 hnew
      | ok s' => exact absurd hsave (hrefused r s' rfl)

/-! ## Identifiers -/

/-- What a store does with identifiers. -/
structure KeepsApart (s : Store) : Prop where
  ids_nodup : (s.rows.map (·.id)).Nodup
  length_le : ∀ M, SavedUnder M s → s.rows.length ≤ M
  /-- A record is refused exactly where its identifier is stored, whatever the capacity is. -/
  conflict_iff : ∀ r capacity,
    (s.apply (.reopen capacity)).save r = .error (.conflict r.id) ↔ s.Has r.id
  /-- Then no row is added, changed or evicted. -/
  refused : ∀ r capacity, s.Has r.id →
    (s.apply (.reopen capacity)).apply (.save r) = s.apply (.reopen capacity)
  accepted : ∀ r, ¬s.Has r.id → ∃ s', s.save r = .ok s' ∧ s.Admits r s'
  /-- An identifier that a change has freed is free. -/
  readmitted : ∀ c r, ¬(s.apply c).Has r.id → ∃ s', (s.apply c).save r = .ok s'
  /-- Removing the record under an identifier removes one row, and none where there is none. -/
  delete_stored : ∀ row ∈ s.rows, s.delete row.id = { s with rows := s.rows.erase row }
  delete_unknown : ∀ id, ¬s.Has id → s.delete id = s
  delete_delete : ∀ id, (s.delete id).delete id = s.delete id

/-- Removing what stands under an identifier erases the one row that it names. -/
theorem Coherent.delete_eq_erase (h : s.Coherent) {row : Row} (hrow : row ∈ s.rows) :
    s.delete row.id = { s with rows := s.rows.erase row } := by
  rw [delete, (List.Nodup.of_map _ h.ids_nodup).erase_eq_filter]
  congr 1
  refine List.filter_congr fun other hother => ?_
  have hsame : other.id = row.id ↔ other = row :=
    ⟨fun hid => List.inj_on_of_nodup_map h.ids_nodup hother hrow hid, fun heq => heq ▸ rfl⟩
  rw [Bool.eq_iff_iff, bne_iff_ne, bne_iff_ne, Ne, Ne, hsame]

/-- Whatever has been saved and removed before, and with whatever capacities the store was opened, it
keeps the records apart by their identifiers. -/
theorem keepsApart_of_reachable (h : s.Reachable) : s.KeepsApart where
  ids_nodup := h.coherent.ids_nodup
  length_le := fun _ hsaved => hsaved.length_le
  conflict_iff := fun r capacity => by
    rw [save_eq_error_iff, and_iff_left rfl]
    exact Iff.rfl
  refused := fun r capacity hstored => apply_save_of_has hstored
  accepted := fun r hnew => h.coherent.exists_admits hnew
  readmitted := fun c r hnew => by
    obtain ⟨s', hsave, -⟩ := (h.apply c).coherent.exists_admits hnew
    exact ⟨s', hsave⟩
  delete_stored := fun row hrow => h.coherent.delete_eq_erase hrow
  delete_unknown := fun id hunknown => by
    have hother : ∀ row ∈ s.rows, (row.id != id) = true := fun row hrow =>
      bne_iff_ne.2 fun hid => hunknown ⟨row, hrow, hid⟩
    rw [delete, List.filter_eq_self.2 hother]
  delete_delete := fun id => by
    simp [delete, List.filter_filter]

/-- A store that was opened with a capacity that its rows exceed refuses a record and keeps them all,
and accepts another one whose identifier was in use before. -/
theorem keepsApart_of_reachable_over :
    ∃ s, s = [Change.save (blankRecord "a" 5), .save (blankRecord "b" 5), .save (blankRecord "c" 5),
        .delete "a", .reopen 1].foldl apply (empty 3) ∧
      s.Reachable ∧ s.capacity = 1 ∧ s.rows.map (·.id) = ["b", "c"] ∧ s.KeepsApart ∧
      s.save (blankRecord "b" 9) = .error (.conflict "b") ∧ s.apply (.save (blankRecord "b" 9)) = s ∧
      ∃ s', s.save (blankRecord "a" 9) = .ok s' ∧ s.Admits (blankRecord "a" 9) s' := by
  obtain ⟨s, hs⟩ : ∃ s, s = [Change.save (blankRecord "a" 5), .save (blankRecord "b" 5),
      .save (blankRecord "c" 5), .delete "a", .reopen 1].foldl apply (empty 3) := ⟨_, rfl⟩
  have hreachable : s.Reachable := by
    simp only [hs, List.foldl]
    exact .apply _ (.apply _ (.apply _ (.apply _ (.apply _ (.empty 3)))))
  have hids : s.rows.map (·.id) = ["b", "c"] := by
    rw [hs]
    rfl
  have hcapacity : s.capacity = 1 := by
    rw [hs]
    rfl
  have hhas (id : String) : s.Has id ↔ id ∈ ["b", "c"] := by
    rw [← hids, List.mem_map]
    rfl
  have happart := keepsApart_of_reachable hreachable
  have hstored : s.Has (blankRecord "b" 9).id := (hhas "b").2 (by decide)
  have hfree : ¬s.Has (blankRecord "a" 9).id := fun h => absurd ((hhas "a").1 h) (by decide)
  exact ⟨s, hs, hreachable, hcapacity, hids, happart, (happart.conflict_iff _ s.capacity).2 hstored,
    happart.refused _ s.capacity hstored, happart.accepted _ hfree⟩

end StepFlow.History.Store
