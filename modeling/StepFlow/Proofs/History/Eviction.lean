import Mathlib.Data.List.Sigma
import Mathlib.Data.Prod.Lex
import Mathlib.Data.String.Basic
import StepFlow.Proofs.History.Changes
import StepFlow.Proofs.History.Ranking

/-!
# Eviction keeps the newest

Clearing a store down to a number of rows leaves the first so many of its listing
(`newestFirst_clearOld`), and storing a record inserts its row into the listing before that
(`newestFirst_save`).  Hence a store to which records are saved one after the other holds, at the
end, the newest of all that were ever saved, whatever their order (`foldlM_save_newest`).
-/

namespace StepFlow.History

/-! ## The order of a listing -/

namespace Row

/-- What rows are listed by: the start of the run as a text, then the number. -/
def key (row : Row) : String ×ₗ ℕ := toLex (row.startedAt, row.number)

end Row

namespace Store

variable {s s' : Store} {rows : List Row} {row : Row}

theorem noOlder_iff {a b : Row} : noOlder a b = true ↔ b.key ≤ a.key := by
  simp only [noOlder, Row.key, Prod.Lex.toLex_le_toLex, Bool.or_eq_true, Bool.and_eq_true,
    decide_eq_true_eq, beq_iff_eq]

theorem newestFirst_eq (rows : List Row) : newestFirst rows = greatestFirst Row.key rows := by
  have hle : noOlder = fun a b => decide (b.key ≤ a.key) := by
    funext a b
    rw [Bool.eq_iff_iff, noOlder_iff, decide_eq_true_eq]
  rw [newestFirst, hle, greatestFirst]

/-- Rows of different numbers have different keys. -/
theorem nodup_keys (h : (rows.map (·.number)).Nodup) : (rows.map Row.key).Nodup := by
  refine List.Nodup.of_map (fun k => (ofLex k).2) ?_
  rwa [List.map_map]

/-- The oldest first is the listing from its end. -/
theorem oldestFirst_eq (h : (rows.map (·.number)).Nodup) :
    oldestFirst rows = (newestFirst rows).reverse := by
  let falling (row : Row) : (String ×ₗ ℕ)ᵒᵈ := OrderDual.toDual row.key
  have hle : (fun a b => noOlder b a) = fun a b => decide (falling b ≤ falling a) := by
    funext a b
    rw [Bool.eq_iff_iff, noOlder_iff, decide_eq_true_eq]
    exact Iff.rfl
  have hkeys : (rows.map falling).Nodup := nodup_keys h
  rw [oldestFirst, hle, newestFirst_eq]
  refine (eq_greatestFirst hkeys ?_ ?_).symm
  · exact (List.reverse_perm _).trans (greatestFirst_perm Row.key rows)
  · exact List.pairwise_reverse.2 (pairwise_greatestFirst Row.key rows)

/-! ## Numbers -/

/-- A new row gets a greater number than all others. -/
theorem lt_nextNumber (h : row ∈ rows) : row.number < nextNumber rows := by
  have hfold (ns : List ℕ) (start n : ℕ) (hn : n ≤ start ∨ n ∈ ns) : n ≤ ns.foldl max start := by
    induction ns generalizing start with
    | nil => simpa using hn
    | cons m ns ih =>
      refine ih (max start m) ?_
      rcases hn with hn | hn
      · exact .inl (hn.trans (Nat.le_max_left _ _))
      · rcases List.mem_cons.1 hn with rfl | hn
        · exact .inl (Nat.le_max_right _ _)
        · exact .inr hn
  exact Nat.lt_succ_of_le (hfold _ 0 _ (.inr (List.mem_map_of_mem h)))

/-! ## Clearing -/

theorem newestFirst_perm (rows : List Row) : (newestFirst rows).Perm rows := by
  rw [newestFirst_eq]
  exact greatestFirst_perm _ _

/-- Clearing leaves the first rows of the listing. -/
theorem newestFirst_clearOld (h : (s.rows.map (·.number)).Nodup) (keep : ℕ) :
    newestFirst (s.clearOld keep).1.rows = (newestFirst s.rows).take keep := by
  have hlength : (newestFirst s.rows).length = s.rows.length := (newestFirst_perm s.rows).length_eq
  unfold clearOld
  split
  · rename_i hfits
    rw [List.take_of_length_le (by omega)]
  · rename_i hmany
    have hoverdue : (oldestFirst s.rows).take (s.rows.length - keep) =
        ((newestFirst s.rows).drop keep).reverse := by
      rw [oldestFirst_eq h, List.take_reverse]
      congr 2
      omega
    have hnumbers : ((newestFirst s.rows).map (·.number)).Nodup :=
      ((newestFirst_perm s.rows).map _).nodup_iff.2 h
    simp only [hoverdue, List.map_reverse, List.mem_reverse]
    rw [newestFirst_eq, ← filter_greatestFirst (nodup_keys h), ← newestFirst_eq]
    obtain ⟨front, hfront⟩ : ∃ l, l = (newestFirst s.rows).take keep := ⟨_, rfl⟩
    obtain ⟨back, hback⟩ : ∃ l, l = (newestFirst s.rows).drop keep := ⟨_, rfl⟩
    have hsplit : newestFirst s.rows = front ++ back := by
      rw [hfront, hback, List.take_append_drop]
    rw [← hback, ← hfront, hsplit, List.filter_append]
    rw [hsplit, List.map_append, List.nodup_append] at hnumbers
    obtain ⟨-, -, hapart⟩ := hnumbers
    have hkept : front.filter (fun row => row.number ∉ back.map (·.number)) = front := by
      refine List.filter_eq_self.2 fun row hrow => decide_eq_true fun hmem => ?_
      exact hapart _ (List.mem_map_of_mem hrow) _ hmem rfl
    have hgone : back.filter (fun row => row.number ∉ back.map (·.number)) = [] := by
      refine List.filter_eq_nil_iff.2 fun row hrow => ?_
      simpa using ⟨row, hrow, rfl⟩
    rw [hkept, hgone, List.append_nil]

theorem clearOld_capacity (s : Store) (keep : ℕ) : (s.clearOld keep).1.capacity = s.capacity := by
  unfold clearOld
  split <;> rfl

/-! ## Saving -/

/-- A new row has a number of its own. -/
theorem nodup_numbers_append (h : (rows.map (·.number)).Nodup) (r : Record) :
    ((rows ++ [Row.ofRecord (nextNumber rows) r]).map (·.number)).Nodup := by
  rw [List.map_append, List.nodup_append]
  refine ⟨h, List.nodup_singleton _, fun n hn m hm hnm => ?_⟩
  obtain ⟨row, hrow, rfl⟩ := List.mem_map.1 hn
  have hlt := lt_nextNumber hrow
  have : m = nextNumber rows := by simpa [Row.ofRecord] using hm
  omega

/-- Saving under a new identifier inserts a row into the listing and evicts what is beyond the
capacity. -/
theorem newestFirst_save {r : Record} (h : (s.rows.map (·.number)).Nodup)
    (hnew : ∀ row ∈ s.rows, row.id ≠ r.id) :
    ∃ s', s.save r = .ok s' ∧ s'.capacity = s.capacity ∧ (s'.rows.map (·.number)).Nodup ∧
      newestFirst s'.rows =
        ((newestFirst s.rows).orderedInsert (fun a b => b.key ≤ a.key)
          (Row.ofRecord (nextNumber s.rows) r)).take s.capacity := by
  have hfree : s.rows.any (·.id == r.id) = false := by
    rw [List.any_eq_false]
    exact fun row hrow => by simpa using hnew row hrow
  have hnumbers := nodup_numbers_append h r
  refine ⟨({ s with rows := s.rows ++ [Row.ofRecord (nextNumber s.rows) r] } : Store).clearOld
    s.capacity |>.1, ?_, clearOld_capacity _ _, ?_, ?_⟩
  · simp [save, hfree]
  · exact hnumbers.sublist ((clearOld_sublist _ _).map _)
  · rw [newestFirst_clearOld hnumbers, newestFirst_eq,
      greatestFirst_append_singleton (nodup_keys hnumbers), ← newestFirst_eq]

end Store

/-! ## Saving one record after the other -/

/-- What records are ranked by: the start of the run, then the position in a sequence. -/
def rankKey (p : Record × ℕ) : (ℤ ×ₗ ℕ) ×ₗ ℕ :=
  toLex (toLex (p.1.startedAt.second, p.1.startedAt.nanosecond), p.2)

/-- The records of a sequence with their positions, the one that started last in front, and of
those that started at the same time the one that comes last. -/
def ranked (rs : List Record) : List (Record × ℕ) := greatestFirst rankKey rs.zipIdx

variable {M : ℕ} {rs : List Record} {r : Record}

theorem nodup_rankKeys (rs : List Record) : (rs.zipIdx.map rankKey).Nodup := by
  refine List.Nodup.of_map (fun k => (ofLex k).2) ?_
  rw [List.map_map]
  exact List.nodup_zipIdx_map_snd rs

theorem mem_of_mem_ranked {p : Record × ℕ} (h : p ∈ ranked rs) : p.1 ∈ rs ∧ p.2 < rs.length := by
  have hmem : p ∈ rs.zipIdx := (greatestFirst_perm rankKey _).mem_iff.1 h
  obtain ⟨-, hlt, -⟩ := List.mem_zipIdx hmem
  exact ⟨List.fst_mem_of_mem_zipIdx hmem, by omega⟩

/-- The record at the end is ranked among those in front of it. -/
theorem ranked_append_singleton (rs : List Record) (r : Record) :
    ranked (rs ++ [r]) =
      (ranked rs).orderedInsert (fun p q => rankKey q ≤ rankKey p) (r, rs.length) := by
  have hzip : (rs ++ [r]).zipIdx = rs.zipIdx ++ [(r, rs.length)] := by
    rw [List.zipIdx_append, Nat.zero_add]
    rfl
  have hkeys := nodup_rankKeys (rs ++ [r])
  rw [hzip] at hkeys
  rw [ranked, hzip, greatestFirst_append_singleton hkeys]
  rfl

/-- The row was written for a record. -/
def Row.Shows (row : Row) (p : Record × ℕ) : Prop := row = Row.ofRecord row.number p.1

/-- Start times as texts order rows as the instants order records, and later rows have greater
numbers as later records have greater positions. -/
theorem key_le_iff_rankKey_le {row : Row} {p : Record × ℕ} {number n : ℕ} (hshows : row.Shows p)
    (hp : p.1.startedAt.HasPlainYear) (hr : r.startedAt.HasPlainYear) (hnumber : row.number < number)
    (hposition : p.2 < n) :
    row.key ≤ (Row.ofRecord number r).key ↔ rankKey p ≤ rankKey (r, n) := by
  have hrow : row.startedAt = p.1.startedAt.sortableText := by rw [hshows]; rfl
  have hless := Instant.sortableText_lt_iff hp hr
  have hmore := Instant.sortableText_lt_iff hr hp
  have htext : p.1.startedAt.sortableText ≤ r.startedAt.sortableText ↔
      ¬r.startedAt.Earlier p.1.startedAt := by rw [← hmore, not_lt]
  simp only [Row.key, rankKey, Prod.Lex.toLex_le_toLex, Prod.Lex.toLex_lt_toLex, hrow,
    Row.ofRecord, hnumber.le, hposition.le, and_true]
  rw [← le_iff_lt_or_eq, htext]
  simp only [Instant.Earlier, toLex_inj, Prod.mk.injEq]
  omega

/-- A store in which the newest records of a sequence are listed. -/
structure Store.Lists (s : Store) (M : ℕ) (rs : List Record) : Prop where
  capacity_eq : s.capacity = M
  numbers_nodup : (s.rows.map (·.number)).Nodup
  listing : List.Forall₂ Row.Shows (Store.newestFirst s.rows) ((ranked rs).take M)

namespace Store

variable {s : Store}

/-- A row was written for one of the records. -/
theorem Lists.exists_of_mem (h : s.Lists M rs) {row : Row} (hrow : row ∈ s.rows) :
    ∃ p ∈ ranked rs, row.Shows p := by
  have hlisted := (newestFirst_perm s.rows).mem_iff.2 hrow
  obtain ⟨i, hi, rfl⟩ := List.getElem_of_mem hlisted
  have hi' : i < ((ranked rs).take M).length := by
    rw [← h.listing.length_eq]
    exact hi
  exact ⟨((ranked rs).take M)[i], List.mem_of_mem_take (List.getElem_mem _),
    (List.forall₂_iff_get.1 h.listing).2 i hi hi'⟩

/-- Saving one more record goes well, and the newest of all are listed again. -/
theorem Lists.save (h : s.Lists M rs) (hids : ((rs ++ [r]).map (·.id)).Nodup)
    (hplain : ∀ r' ∈ rs ++ [r], r'.startedAt.HasPlainYear) :
    ∃ s', s.save r = .ok s' ∧ s'.Lists M (rs ++ [r]) := by
  have hr : r.startedAt.HasPlainYear := hplain r (by simp)
  have hnew : ∀ row ∈ s.rows, row.id ≠ r.id := by
    intro row hrow heq
    obtain ⟨p, hp, hshows⟩ := h.exists_of_mem hrow
    have hid : row.id = p.1.id := by rw [hshows]; rfl
    rw [List.map_append, List.nodup_append] at hids
    exact hids.2.2 _ (List.mem_map_of_mem (mem_of_mem_ranked hp).1) _ (List.mem_singleton_self _)
      (hid.symm.trans heq)
  obtain ⟨s', hsave, hcapacity, hnumbers, hlisting⟩ := newestFirst_save h.numbers_nodup hnew
  refine ⟨s', hsave, hcapacity.trans h.capacity_eq, hnumbers, ?_⟩
  rw [hlisting, h.capacity_eq, ranked_append_singleton, ← take_orderedInsert _ _ (ranked rs)]
  refine List.forall₂_take M (forall₂_orderedInsert _ _ rfl h.listing fun row hrow p hp hshows => ?_)
  obtain ⟨hmem, hposition⟩ := mem_of_mem_ranked (List.mem_of_mem_take hp)
  exact key_le_iff_rankKey_le hshows (hplain p.1 (List.mem_append_left _ hmem)) hr
    (lt_nextNumber ((newestFirst_perm s.rows).mem_iff.1 hrow)) hposition

/-- Records saved one after the other to an empty store all get in, and the newest of all of them
are listed at the end. -/
theorem exists_foldlM_save (M : ℕ) (rs : List Record) (hids : (rs.map (·.id)).Nodup)
    (hplain : ∀ r ∈ rs, r.startedAt.HasPlainYear) :
    ∃ s, rs.foldlM save (empty M) = .ok s ∧ s.Lists M rs := by
  induction rs using List.reverseRecOn with
  | nil =>
    refine ⟨empty M, rfl, rfl, List.nodup_nil, ?_⟩
    simp [ranked, greatestFirst, empty, newestFirst]
  | append_singleton rs r ih =>
    have hfront : (rs.map (·.id)).Nodup := by
      rw [List.map_append, List.nodup_append] at hids
      exact hids.1
    obtain ⟨s, hsaves, hlists⟩ := ih hfront fun r' hr' => hplain r' (List.mem_append_left _ hr')
    obtain ⟨s', hsave, hlists'⟩ := hlists.save hids hplain
    refine ⟨s', ?_, hlists'⟩
    rw [List.foldlM_append, hsaves]
    simp [hsave, bind, Except.bind, pure, Except.pure]

end Store

/-! ## What is left after all -/

/-- The row of a record can be read back, if not always as the same record. -/
def Record.Decodes (r : Record) : Prop := ∃ r', (Row.ofRecord 0 r).toRecord = .ok r'

/-- What is read from rows, one after the other. -/
theorem mapM_toRecord {rows : List Row} {ps : List (Record × ℕ)}
    (h : List.Forall₂ Row.Shows rows ps) (hdecodes : ∀ p ∈ ps, p.1.Decodes) :
    ∃ records, rows.mapM Row.toRecord = .ok records ∧ records.map (·.id) = ps.map (·.1.id) := by
  induction h with
  | nil => exact ⟨[], rfl, rfl⟩
  | @cons row p rows ps hshows _ ih =>
    obtain ⟨records, hread, hids⟩ := ih fun q hq => hdecodes q (List.mem_cons_of_mem _ hq)
    obtain ⟨r', hr'⟩ := hdecodes p List.mem_cons_self
    -- The number of a row plays no part in reading it.
    have hrow : row.toRecord = .ok r' := by rw [hshows]; exact hr'
    refine ⟨r' :: records, ?_, ?_⟩
    · simp [List.mapM_cons, hrow, hread, bind, Except.bind, pure, Except.pure]
    · rw [List.map_cons, List.map_cons, hids, (Row.parts_of_toRecord hr').1]
      rfl

/-- Records of different identifiers that are saved one after the other to an empty store all get
in.  At the end the store holds the newest of all records that were ever saved, as many as its
capacity allows, and it lists them with the newest in front. -/
theorem foldlM_save_newest (M : ℕ) (rs : List Record) (hids : (rs.map (·.id)).Nodup)
    (hplain : ∀ r ∈ rs, r.startedAt.HasPlainYear) (hdecodes : ∀ r ∈ rs, r.Decodes) :
    ∃ s, rs.foldlM Store.save (Store.empty M) = .ok s ∧
      (s.rows.map (·.id)).Perm (((ranked rs).take M).map (·.1.id)) ∧
      ∀ limit, ∃ records, s.list limit = .ok records ∧
        records.map (·.id) = (((ranked rs).take M).take limit).map (·.1.id) := by
  obtain ⟨s, hsaves, hlists⟩ := Store.exists_foldlM_save M rs hids hplain
  refine ⟨s, hsaves, ?_, fun limit => ?_⟩
  · have hlisted : (Store.newestFirst s.rows).map (·.id) = ((ranked rs).take M).map (·.1.id) := by
      rw [← List.forall₂_eq_eq_eq, List.forall₂_map_left_iff, List.forall₂_map_right_iff]
      exact hlists.listing.imp fun row p hshows => by rw [hshows]; rfl
    rw [← hlisted]
    exact (Store.newestFirst_perm s.rows).symm.map _
  · refine mapM_toRecord (List.forall₂_take limit hlists.listing) fun p hp => hdecodes p.1 ?_
    exact (mem_of_mem_ranked (List.mem_of_mem_take (List.mem_of_mem_take hp))).1

/-- The record of a run without steps that started some seconds after the start of 1970. -/
def blankRecord (id : String) (second : Int) : Record where
  id := id
  workflowId := "w"
  workflowName := "w"
  startedAt :=
    { Instant.epoch with
      second := second
      leap_at_minute := fun h => absurd h (Nat.not_succ_le_zero _) }
  initialData := .empty
  steps := []
  finalState := .new .empty
  durationMs := 0
  status := .unfinished

theorem blankRecord_storable {id : String} {second : Int}
    (h : (blankRecord id second).startedAt.HasPlainYear) : (blankRecord id second).Storable where
  started_plain := h
  steps_plain := fun s hs => by cases hs
  finalState_written :=
    { steps_plain := fun s hs => by cases hs
      cursor_bounds := by
        show (-0x8000000000000000 : Int) ≤ -1 ∧ (-1 : Int) < 0x8000000000000000
        decide }
  duration_le := Nat.zero_le _
  nesting_le := fun c hc => by
    have hempty : c = .empty := by
      simpa [Record.contexts, Run.contexts, blankRecord, Run.new] using hc
    rw [hempty]
    decide

theorem blankRecord_decodes {id : String} {second : Int}
    (h : (blankRecord id second).startedAt.HasPlainYear) : (blankRecord id second).Decodes :=
  ⟨_, Row.toRecord_ofRecord (blankRecord_storable h) 0⟩

/-- Of two records that started together the later one stays, and one that started before all
others goes at once. -/
theorem foldlM_save_newest_out_of_order :
    ∃ s, [blankRecord "a" 5, blankRecord "b" 9, blankRecord "c" 5, blankRecord "d" 1].foldlM
        Store.save (Store.empty 2) = .ok s ∧ (s.rows.map (·.id)).Perm ["b", "c"] ∧
      ∀ limit, ∃ records, s.list limit = .ok records ∧
        records.map (·.id) = ["b", "c"].take limit := by
  have hranked : ranked [blankRecord "a" 5, blankRecord "b" 9, blankRecord "c" 5,
      blankRecord "d" 1] = [(blankRecord "b" 9, 1), (blankRecord "c" 5, 2),
        (blankRecord "a" 5, 0), (blankRecord "d" 1, 3)] :=
    (eq_greatestFirst (nodup_rankKeys _) (by decide) (by decide)).symm
  have hplain : ∀ r ∈ [blankRecord "a" 5, blankRecord "b" 9, blankRecord "c" 5,
      blankRecord "d" 1], r.startedAt.HasPlainYear := by
    simp only [List.mem_cons, List.not_mem_nil, or_false]
    rintro r (rfl | rfl | rfl | rfl) <;> exact ⟨by decide, by decide⟩
  have hdecodes : ∀ r ∈ [blankRecord "a" 5, blankRecord "b" 9, blankRecord "c" 5,
      blankRecord "d" 1], r.Decodes := by
    intro r hr
    have hr' := hplain r hr
    simp only [List.mem_cons, List.not_mem_nil, or_false] at hr
    rcases hr with rfl | rfl | rfl | rfl <;> exact blankRecord_decodes hr'
  have hkept := foldlM_save_newest 2 _ (by decide) hplain hdecodes
  rw [hranked] at hkept
  simpa [blankRecord] using hkept

end StepFlow.History
