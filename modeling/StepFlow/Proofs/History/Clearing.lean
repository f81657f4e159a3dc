import StepFlow.Proofs.History.Listing

/-!
# Clearing keeps exactly the newest

Rows are removed from the end at which the oldest stand, while listings begin at the other end.
`Store.clearOld_keeps_newest` says that the two meet: clearing a store down to a number of rows
leaves those that a listing up to that number shows, in the same order and unchanged, and the rows
that go are older than all of them.  Clearing twice is therefore clearing once, down to the smaller
number.

The rows that stay are the ones among the first of the listing (`Store.clearOld_eq`), which is where
it matters that no two rows of a store share a number.
-/

namespace StepFlow.History.Store

variable {s : Store}

/-! ## The rows that stay -/

/-- Clearing picks rows by a property. -/
theorem exists_clearOld_filter (s : Store) (keep : ℕ) :
    ∃ p : Row → Bool, (s.clearOld keep).1 = { s with rows := s.rows.filter p } := by
  unfold clearOld
  split
  · exact ⟨fun _ => true, by simp⟩
  · exact ⟨_, rfl⟩

/-- Clearing leaves the rows that are among the first of the listing. -/
theorem clearOld_eq (h : (s.rows.map (·.number)).Nodup) (keep : ℕ) :
    (s.clearOld keep).1 =
      { s with rows := s.rows.filter (· ∈ (newestFirst s.rows).take keep) } := by
  obtain ⟨p, hp⟩ := exists_clearOld_filter s keep
  have hlisted := newestFirst_clearOld h keep
  rw [hp] at hlisted ⊢
  congr 1
  refine List.filter_congr fun row hrow => ?_
  rw [← hlisted, Bool.eq_iff_iff, decide_eq_true_eq, (newestFirst_perm _).mem_iff, List.mem_filter]
  simp [hrow]

/-- As many rows stay as the number allows. -/
theorem length_clearOld (h : (s.rows.map (·.number)).Nodup) (keep : ℕ) :
    (s.clearOld keep).1.rows.length = min keep s.rows.length := by
  rw [← (newestFirst_perm _).length_eq, newestFirst_clearOld h, List.length_take,
    (newestFirst_perm _).length_eq]

/-- The others are counted. -/
theorem clearOld_snd (h : (s.rows.map (·.number)).Nodup) (keep : ℕ) :
    (s.clearOld keep).2 = s.rows.length - keep := by
  have hlength := length_clearOld h keep
  unfold clearOld at hlength ⊢
  split
  · simp only
    omega
  · rename_i hmany
    rw [if_neg hmany] at hlength
    simp only at hlength ⊢
    omega

/-- Clearing a store again clears it down to the smaller number. -/
theorem clearOld_clearOld (h : (s.rows.map (·.number)).Nodup) (a b : ℕ) :
    ((s.clearOld a).1.clearOld b).1 = (s.clearOld (min a b)).1 := by
  have hleft : ((s.clearOld a).1.rows.map (·.number)).Nodup :=
    h.sublist ((clearOld_sublist s a).map _)
  rw [clearOld_eq hleft, newestFirst_clearOld h, clearOld_eq h, clearOld_eq h, List.take_take,
    List.filter_filter, Nat.min_comm b a]
  congr 1
  refine List.filter_congr fun row _ => ?_
  rw [Bool.and_eq_left_iff_imp]
  intro hfirst
  simp only [decide_eq_true_eq] at hfirst ⊢
  exact List.take_subset_take_left _ (Nat.min_le_left a b) hfirst

/-! ## The newest rows -/

/-- What is left of a store when it is cleared down to a number of rows, and how many rows went. -/
structure Clears (s : Store) (keep : ℕ) (left : Store) (gone : ℕ) : Prop where
  gone_eq : gone = s.rows.length - keep
  length_eq : left.rows.length = min keep s.rows.length
  capacity_eq : left.capacity = s.capacity
  /-- The rows that stay are unchanged in every column and stand in the order in which they came. -/
  unchanged : left.rows.Sublist s.rows
  /-- The record of a row that stays is newer than those of all rows that go. -/
  newer : ∃ arrived, s.rows.mapM Row.toRecord = .ok arrived ∧
    ∀ a ∈ left.rows, ∀ b ∈ s.rows, b ∉ left.rows →
      ∃ x y, a.toRecord = .ok x ∧ b.toRecord = .ok y ∧ Newer arrived x y
  /-- The whole listing is what a listing up to the number has shown before, also where limits are cut
  down to a greatest one that allows for all rows. -/
  listing : ∃ L, s.list keep = .ok L ∧
    (∀ greatest, s.rows.length ≤ greatest → s.list (min keep greatest) = .ok L) ∧
    ∀ limit, left.rows.length ≤ limit → left.list limit = .ok L

/-- A row among the first of a listing started later than a row behind them, or came later where
both started at the same time. -/
theorem Coherent.newer_of_mem_take (h : s.Coherent) {keep : ℕ} {a b : Row}
    (ha : a ∈ (newestFirst s.rows).take keep) (hb : b ∈ s.rows)
    (hgone : b ∉ (newestFirst s.rows).take keep) :
    b.startedAt < a.startedAt ∨ b.startedAt = a.startedAt ∧ [b, a].Sublist s.rows := by
  have hsorted := h.pairwise_newestFirst
  have hlisted : b ∈ newestFirst s.rows := (newestFirst_perm s.rows).mem_iff.2 hb
  rw [← List.take_append_drop keep (newestFirst s.rows)] at hsorted hlisted
  have hbehind := (List.mem_append.1 hlisted).resolve_left hgone
  exact (List.pairwise_append.1 hsorted).2.2 a ha b hbehind

/-- Whatever has been saved and removed before, clearing a store keeps exactly the newest rows, the
ones that a listing up to their number shows, and clearing it again is clearing it down to the
smaller number. -/
theorem clearOld_keeps_newest (hs : s.Reachable) (hsound : ∀ row ∈ s.rows, row.Sound) :
    (∀ keep, s.Clears keep (s.clearOld keep).1 (s.clearOld keep).2) ∧
      ∀ a b, ((s.clearOld a).1.clearOld b).1 = (s.clearOld (min a b)).1 := by
  have hcoherent := hs.coherent
  have hnumbers := hcoherent.numbers_nodup
  have hperm := newestFirst_perm s.rows
  have hcount := hperm.length_eq
  refine ⟨fun keep => ?_, clearOld_clearOld hnumbers⟩
  obtain ⟨f, hf⟩ := exists_reading hsound
  have hfirst (n : ℕ) : s.list n = .ok (((newestFirst s.rows).take n).map f) := by
    rw [list, mapM_eq_ok fun row hrow => hf row (hperm.mem_iff.1 (List.mem_of_mem_take hrow))]
  have hlength := length_clearOld hnumbers keep
  exact
    { gone_eq := clearOld_snd hnumbers keep
      length_eq := hlength
      capacity_eq := clearOld_capacity s keep
      unchanged := clearOld_sublist s keep
      newer := by
        refine ⟨s.rows.map f, mapM_eq_ok hf, fun a ha b hb hgone => ?_⟩
        rw [clearOld_eq hnumbers] at ha hgone
        simp only [List.mem_filter, decide_eq_true_eq] at ha hgone
        obtain ⟨hrow, ha⟩ := ha
        have hbehind : b ∉ (newestFirst s.rows).take keep := fun hmem => hgone ⟨hb, hmem⟩
        exact ⟨f a, f b, hf a hrow, hf b hb, newer_of_rows (hsound a hrow) (hsound b hb) (hf a hrow)
          (hf b hb) (hcoherent.newer_of_mem_take ha hb hbehind)⟩
      listing := by
        refine ⟨_, hfirst keep, fun greatest hgreatest => ?_, fun limit hlimit => ?_⟩
        · rw [hfirst]
          refine congrArg (fun rows => Except.ok (rows.map f)) (List.take_eq_take_iff.2 ?_)
          omega
        · -- The whole listing of what is left is the first part of the listing before.
          have hwhole : (newestFirst s.rows).take (min limit keep) =
              (newestFirst s.rows).take keep := List.take_eq_take_iff.2 (by omega)
          rw [list, newestFirst_clearOld hnumbers, List.take_take, hwhole]
          exact hfirst keep }

/-- Of three records that started together the two that came last stay, one of them under a number
that another record had before it. -/
theorem clearOld_keeps_newest_together :
    ∃ s left, s = [Change.save (blankRecord "a" 5), .save (blankRecord "b" 5),
        .save (blankRecord "c" 5), .delete "c", .save (blankRecord "d" 5)].foldl apply (empty 4) ∧
      s.rows.map (·.number) = [1, 2, 3] ∧ s.Clears 2 left 1 ∧
      left.list 2 = .ok [blankRecord "d" 5, blankRecord "b" 5] ∧
      (left.clearOld 1).1 = (s.clearOld 1).1 := by
  obtain ⟨s, hs⟩ : ∃ s, s = [Change.save (blankRecord "a" 5), .save (blankRecord "b" 5),
      .save (blankRecord "c" 5), .delete "c", .save (blankRecord "d" 5)].foldl apply (empty 4) :=
    ⟨_, rfl⟩
  have hreachable : s.Reachable := by
    simp only [hs, List.foldl]
    exact .apply _ (.apply _ (.apply _ (.apply _ (.apply _ (.empty 4)))))
  have hrows : s.rows = [Row.ofRecord 1 (blankRecord "a" 5), Row.ofRecord 2 (blankRecord "b" 5),
      Row.ofRecord 3 (blankRecord "d" 5)] := by
    rw [hs]
    rfl
  have hplain : (blankRecord "" 5).startedAt.HasPlainYear := ⟨by decide, by decide⟩
  have hstorable (id : String) : (blankRecord id 5).Storable := blankRecord_storable hplain
  have hsound : ∀ row ∈ s.rows, row.Sound := by
    rw [hrows]
    simp only [List.mem_cons, List.not_mem_nil, or_false]
    rintro row (rfl | rfl | rfl)
    · exact Row.sound_ofRecord (hstorable "a") 1
    · exact Row.sound_ofRecord (hstorable "b") 2
    · exact Row.sound_ofRecord (hstorable "d") 3
  obtain ⟨hclears, htwice⟩ := clearOld_keeps_newest hreachable hsound
  have hclears := hclears 2
  have hgone : (s.clearOld 2).2 = 1 := by rw [hclears.gone_eq, hrows]; rfl
  refine ⟨s, (s.clearOld 2).1, hs, by rw [hrows]; rfl, hgone ▸ hclears, ?_, htwice 2 1⟩
  have hnewest : newestFirst s.rows = s.rows.reverse := by
    have hsame (id id' : String) (n n' : ℕ) : (Row.ofRecord n (blankRecord id 5)).key ≤
        (Row.ofRecord n' (blankRecord id' 5)).key ↔ n ≤ n' := by
      simp [Row.key, Prod.Lex.toLex_le_toLex, Row.ofRecord, blankRecord]
    rw [newestFirst_eq]
    refine (eq_greatestFirst (nodup_keys hreachable.coherent.numbers_nodup) (List.reverse_perm _)
      ?_).symm
    rw [hrows]
    simp [hsame]
  obtain ⟨L, hbefore, -, hafter⟩ := hclears.listing
  rw [hafter 2 (by rw [hclears.length_eq]; exact Nat.min_le_left _ _), ← hbefore, list, hnewest,
    hrows]
  simp [List.mapM_cons, Row.toRecord_ofRecord (hstorable _), bind, Except.bind, pure, Except.pure]

end StepFlow.History.Store
