import Mathlib.Data.List.Find
import StepFlow.Proofs.History.Eviction

/-!
# The queries of a store agree

A store is asked in four ways: for its newest records, for the newest records of a workflow, for the
record under an identifier, and for the numbers of its records by status.  Rows are sorted before
those of a workflow are picked, or after; they are counted in yet another order; and what has been
removed leaves holes in their numbers.  `Store.queries_agree` says that in every store that changes
lead to all four tell of one list of records.

The store keeps its rows in the order in which they came, so that later rows have greater numbers,
and no two of them under one identifier (`Store.Reachable.coherent`).  Sorting by the start and the
number therefore leaves no choice, and what is left of the sorted rows of a store is the sorted list
of what is left (`filter_greatestFirst`).
-/

namespace StepFlow.History

namespace Store

variable {s s' : Store}

/-! ## Stores that changes lead to -/

/-- The stores that changes lead to from one without rows. -/
inductive Reachable : Store → Prop
  | empty (capacity : ℕ) : Reachable (empty capacity)
  | apply {s : Store} (c : Change) : Reachable s → Reachable (s.apply c)

/-- Later rows have greater numbers, and no two rows share an identifier. -/
structure Coherent (s : Store) : Prop where
  numbers_lt : s.rows.Pairwise fun a b => a.number < b.number
  ids_nodup : (s.rows.map (·.id)).Nodup

/-- Removing rows keeps a store coherent. -/
theorem Coherent.sublist (h : s.Coherent) (hrows : s'.rows.Sublist s.rows) : s'.Coherent where
  numbers_lt := h.numbers_lt.sublist hrows
  ids_nodup := h.ids_nodup.sublist (hrows.map _)

/-- A row that comes under an identifier of its own keeps a store coherent. -/
theorem Coherent.append (h : s.Coherent) {r : Record} (hnew : ¬s.Has r.id) (capacity : ℕ) :
    Coherent ⟨s.rows ++ [Row.ofRecord (nextNumber s.rows) r], capacity⟩ where
  numbers_lt := by
    refine List.pairwise_append.2 ⟨h.numbers_lt, List.pairwise_singleton _ _, ?_⟩
    intro row hrow added hadded
    rw [List.mem_singleton.1 hadded]
    exact lt_nextNumber hrow
  ids_nodup := by
    rw [List.map_append, List.nodup_append]
    refine ⟨h.ids_nodup, List.nodup_singleton _, ?_⟩
    rintro _ hid _ hadded rfl
    obtain ⟨row, hrow, hrowId⟩ := List.mem_map.1 hid
    exact hnew ⟨row, hrow, hrowId.trans (List.mem_singleton.1 hadded)⟩

/-- A change takes rows out of a store, and what it adds comes behind all others: the row of a record
whose identifier is new. -/
theorem apply_sublist (s : Store) (c : Change) :
    (s.apply c).rows.Sublist s.rows ∨
      ∃ r, c = .save r ∧ ¬s.Has r.id ∧
        (s.apply c).rows.Sublist (s.rows ++ [Row.ofRecord (nextNumber s.rows) r]) := by
  cases c with
  | save r =>
    cases hsave : s.save r with
    | error e =>
      refine .inl ?_
      rw [apply, hsave]
    | ok s' =>
      refine .inr ⟨r, rfl, not_has_of_save hsave, ?_⟩
      rw [apply, hsave]
      unfold save at hsave
      split at hsave
      · cases hsave
      · cases hsave
        exact clearOld_sublist _ _
  | delete id => exact .inl List.filter_sublist
  | clearOld keep => exact .inl (clearOld_sublist s keep)
  | clear => exact .inl (List.nil_sublist _)
  | reopen capacity => exact .inl (List.Sublist.refl _)

/-- Every store that changes lead to is coherent. -/
theorem Reachable.coherent (h : s.Reachable) : s.Coherent := by
  induction h with
  | empty capacity => exact ⟨List.Pairwise.nil, List.nodup_nil⟩
  | @apply s c _ ih =>
    rcases apply_sublist s c with hless | ⟨r, -, hnew, hmore⟩
    · exact ih.sublist hless
    · exact (ih.append hnew 0).sublist hmore

theorem Coherent.numbers_nodup (h : s.Coherent) : (s.rows.map (·.number)).Nodup :=
  List.pairwise_map.2 (h.numbers_lt.imp Nat.ne_of_lt)

/-! ## The order of the rows -/

/-- Of two rows the one with the smaller number came first. -/
theorem Coherent.sublist_of_lt (h : s.Coherent) {a b : Row} (ha : a ∈ s.rows) (hb : b ∈ s.rows)
    (hlt : a.number < b.number) : [a, b].Sublist s.rows := by
  obtain ⟨before, after, hrows⟩ := List.append_of_mem ha
  have hnumbers := h.numbers_lt
  rw [hrows] at hb hnumbers ⊢
  obtain ⟨-, -, hbefore⟩ := List.pairwise_append.1 hnumbers
  rcases List.mem_append.1 hb with hb | hb
  · have hgt := hbefore b hb a List.mem_cons_self
    omega
  · rcases List.mem_cons.1 hb with rfl | hb
    · omega
    · exact ((List.singleton_sublist.2 hb).cons_cons a).trans (List.sublist_append_right before _)

/-- Of two rows in a listing the first one started later, as the texts have it, or it started at the
same time and came later. -/
theorem Coherent.pairwise_newestFirst (h : s.Coherent) :
    (newestFirst s.rows).Pairwise fun a b =>
      b.startedAt < a.startedAt ∨ b.startedAt = a.startedAt ∧ [b, a].Sublist s.rows := by
  have hsorted : (newestFirst s.rows).Pairwise fun a b => b.key ≤ a.key := by
    rw [newestFirst_eq]
    exact pairwise_greatestFirst Row.key s.rows
  have hapart : (newestFirst s.rows).Pairwise fun a b => a.number ≠ b.number :=
    List.pairwise_map.1 (((newestFirst_perm s.rows).map _).nodup_iff.2 h.numbers_nodup)
  refine (hsorted.and hapart).imp_of_mem fun {a b} ha hb hab => ?_
  obtain ⟨hkey, hne⟩ := hab
  simp only [Row.key, Prod.Lex.toLex_le_toLex] at hkey
  rcases hkey with hlater | ⟨hsame, hnumber⟩
  · exact .inl hlater
  · have ha : a ∈ s.rows := (newestFirst_perm s.rows).mem_iff.1 ha
    have hb : b ∈ s.rows := (newestFirst_perm s.rows).mem_iff.1 hb
    exact .inr ⟨hsame, h.sublist_of_lt hb ha (Nat.lt_of_le_of_ne hnumber hne.symm)⟩

/-- The rows of a listing that have a property are the listing of the rows that have it. -/
theorem Coherent.filter_newestFirst (h : s.Coherent) (p : Row → Bool) :
    (newestFirst s.rows).filter p = newestFirst (s.rows.filter p) := by
  rw [newestFirst_eq, newestFirst_eq, filter_greatestFirst (nodup_keys h.numbers_nodup)]

end Store

/-! ## What rows are read as -/

/-- The row can be read, and the run of its record started in one of the years 0 to 9999. -/
def Row.Sound (row : Row) : Prop :=
  (∃ r, row.toRecord = .ok r) ∧ ∃ t : Instant, t.HasPlainYear ∧ row.startedAt = t.sortableText

/-- A sound row shows the start of the record that it is read as. -/
theorem Row.Sound.startedAt_eq {row : Row} {r : Record} (h : row.Sound)
    (hread : row.toRecord = .ok r) :
    r.startedAt.HasPlainYear ∧ row.startedAt = r.startedAt.sortableText := by
  obtain ⟨-, t, hplain, htext⟩ := h
  have hstrict := (Row.columns_of_toRecord hread).2.1
  rw [htext, Instant.readStrict_sortableText hplain] at hstrict
  cases hstrict
  exact ⟨hplain, htext⟩

/-- The row of a record that can be stored is sound. -/
theorem Row.sound_ofRecord {r : Record} (h : r.Storable) (number : ℕ) :
    (Row.ofRecord number r).Sound :=
  ⟨⟨r, Row.toRecord_ofRecord h number⟩, r.startedAt, h.started_plain, rfl⟩

/-- Rows that can be read are read as records, one for each. -/
theorem exists_reading {rows : List Row} (h : ∀ row ∈ rows, row.Sound) :
    ∃ f : Row → Record, ∀ row ∈ rows, row.toRecord = .ok (f row) := by
  have : Inhabited Record := ⟨blankRecord "" 0⟩
  exact exists_forall_eq_ok fun row hrow => (h row hrow).1

/-! ## Counting -/

/-- The statistics count the records by status, in words of sixty-four bits. -/
structure Statistics.Counts (t : Statistics) (rs : List Record) : Prop where
  total_eq : t.total = .ofNat rs.length
  success_eq : t.success = .ofNat (rs.countP (·.status == .success))
  error_eq : t.error = .ofNat (rs.countP (·.status == .error))
  unfinished_eq : t.unfinished = .ofNat (rs.countP (·.status == .unfinished))
  sum_eq : t.total = t.success + t.error + t.unfinished

namespace Statistics

/-- No records are counted. -/
theorem counts_empty : Statistics.empty.Counts [] := ⟨rfl, rfl, rfl, rfl, rfl⟩

/-- One more record is counted under its status. -/
theorem Counts.add {t : Statistics} {rs : List Record} (h : t.Counts rs) (r : Record) :
    (t.add r.status 1).Counts (rs ++ [r]) := by
  obtain ⟨htotal, hsuccess, herror, hunfinished, hsum⟩ := h
  refine ⟨?_, ?_, ?_, ?_, ?_⟩
  · cases r.status <;> simp [Statistics.add, htotal]
  · cases hstatus : r.status <;> simp [Statistics.add, hsuccess, hstatus]
  · cases hstatus : r.status <;> simp [Statistics.add, herror, hstatus]
  · cases hstatus : r.status <;> simp [Statistics.add, hunfinished, hstatus]
  · cases r.status <;> simp only [Statistics.add, hsum] <;> ac_rfl

/-- The order of the records plays no part. -/
theorem Counts.perm {t : Statistics} {rs rs' : List Record} (h : t.Counts rs) (hperm : rs.Perm rs') :
    t.Counts rs' where
  total_eq := h.total_eq.trans (congrArg _ hperm.length_eq)
  success_eq := h.success_eq.trans (congrArg _ (hperm.countP_eq _))
  error_eq := h.error_eq.trans (congrArg _ (hperm.countP_eq _))
  unfinished_eq := h.unfinished_eq.trans (congrArg _ (hperm.countP_eq _))
  sum_eq := h.sum_eq

end Statistics

/-- Rows that can be read are counted as their records. -/
theorem exists_foldlM_count {rows : List Row} {f : Row → Record} {t : Statistics} {rs : List Record}
    (h : ∀ row ∈ rows, row.toRecord = .ok (f row)) (ht : t.Counts rs) :
    ∃ t', rows.foldlM Store.count t = .ok t' ∧ t'.Counts (rs ++ rows.map f) := by
  induction rows generalizing t rs with
  | nil => exact ⟨t, rfl, by simpa using ht⟩
  | cons row rows ih =>
    have hread := h row List.mem_cons_self
    have hstatus := (Row.columns_of_toRecord hread).2.2.1
    obtain ⟨t', hfold, ht'⟩ := ih (fun row hrow => h row (List.mem_cons_of_mem _ hrow))
      (ht.add (f row))
    refine ⟨t', ?_, by simpa using ht'⟩
    simp [Store.count, hstatus, hfold, bind, Except.bind]

namespace Store

variable {s : Store}

/-! ## The four queries -/

/-- Of two records the first one may stand in front of the second in a listing: it started later, or
at the same time and arrived later. -/
def Newer (arrived : List Record) (a b : Record) : Prop :=
  b.startedAt.Earlier a.startedAt ∨ b.startedAt = a.startedAt ∧ [b, a].Sublist arrived

/-- Every query of a store tells of the records `L`, where `arrived` are the records in the order in
which they came. -/
structure Tells (s : Store) (arrived L : List Record) : Prop where
  /-- The rows are read as the records that arrived. -/
  read_eq : s.rows.mapM Row.toRecord = .ok arrived
  /-- All of them are listed where the limit is no smaller than their number. -/
  list_all : ∀ n, s.rows.length ≤ n → s.list n = .ok L
  perm : L.Perm arrived
  ids_nodup : (L.map (·.id)).Nodup
  newest_first : L.Pairwise (Newer arrived)
  /-- A listing up to a limit is the first part of the whole one. -/
  list_eq : ∀ limit, s.list limit = .ok (L.take limit)
  /-- Another limit for all limits makes no difference as long as it allows for all rows. -/
  list_min : ∀ limit greatest, s.rows.length ≤ greatest → s.list (min limit greatest) = s.list limit
  /-- The records of a workflow stand in the same order, and only they count towards the limit. -/
  listWorkflow_eq : ∀ w limit,
    s.listWorkflow w limit = .ok ((L.filter (·.workflowId == w)).take limit)
  get?_eq : ∀ id, s.get? id = .ok (L.find? (·.id == id))
  statistics_eq : ∃ t, s.statistics = .ok t ∧ t.Counts L

/-- Rows that are apart in a listing are read as records that are. -/
theorem newer_of_rows {rows : List Row} {f : Row → Record} {a b : Row} (ha : a.Sound) (hb : b.Sound)
    (hfa : a.toRecord = .ok (f a)) (hfb : b.toRecord = .ok (f b))
    (h : b.startedAt < a.startedAt ∨ b.startedAt = a.startedAt ∧ [b, a].Sublist rows) :
    Newer (rows.map f) (f a) (f b) := by
  obtain ⟨hplainA, htextA⟩ := ha.startedAt_eq hfa
  obtain ⟨hplainB, htextB⟩ := hb.startedAt_eq hfb
  rw [htextA, htextB] at h
  rcases h with hlater | ⟨hsame, hsub⟩
  · exact .inl ((Instant.sortableText_lt_iff hplainB hplainA).1 hlater)
  · refine .inr ⟨?_, hsub.map f⟩
    have hread := Instant.readStrict_sortableText hplainB
    rw [hsame, Instant.readStrict_sortableText hplainA] at hread
    exact (Except.ok.inj hread).symm

/-- The row under an identifier is found wherever it stands. -/
theorem Coherent.find?_newestFirst (h : s.Coherent) (id : String) :
    (newestFirst s.rows).find? (·.id == id) = s.rows.find? (·.id == id) := by
  refine (List.find?_eq_find?_of_perm (newestFirst_perm s.rows).symm ?_).symm
  rintro a ⟨ha, hida⟩ b ⟨hb, hidb⟩
  exact List.inj_on_of_nodup_map h.ids_nodup ha hb
    ((beq_iff_eq.1 hida).trans (beq_iff_eq.1 hidb).symm)

variable {f : Row → Record}

/-- Records of one workflow come from the rows of that workflow. -/
theorem listWorkflow_eq (h : s.Coherent) (hf : ∀ row ∈ s.rows, row.toRecord = .ok (f row))
    (w : String) (limit : ℕ) :
    s.listWorkflow w limit =
      .ok ((((newestFirst s.rows).map f).filter (·.workflowId == w)).take limit) := by
  have hperm := newestFirst_perm s.rows
  have hdurations : ∃ ns, (s.rows.filter (·.workflowId == w)).mapM
      (fun row => Row.durationOf row.duration) = .ok ns := by
    obtain ⟨g, hg⟩ := exists_forall_eq_ok fun row (hrow : row ∈ s.rows.filter (·.workflowId == w)) =>
      (Row.columns_of_toRecord (hf row (List.mem_of_mem_filter hrow))).2.2.2
    exact ⟨_, mapM_eq_ok hg⟩
  have hworkflow : ((newestFirst s.rows).map f).filter (·.workflowId == w) =
      (newestFirst (s.rows.filter (·.workflowId == w))).map f := by
    rw [List.filter_map, ← h.filter_newestFirst]
    congr 1
    refine List.filter_congr fun row hrow => ?_
    have hsame := (Row.columns_of_toRecord (hf row (hperm.mem_iff.1 hrow))).1
    simp [hsame]
  obtain ⟨ns, hns⟩ := hdurations
  simp only [listWorkflow, hns, bind, Except.bind]
  rw [mapM_eq_ok, hworkflow, List.map_take]
  intro row hrow
  exact hf row (List.mem_of_mem_filter ((newestFirst_perm _).mem_iff.1 (List.mem_of_mem_take hrow)))

/-- A lookup finds the record that is listed under the identifier. -/
theorem get?_eq (h : s.Coherent) (hf : ∀ row ∈ s.rows, row.toRecord = .ok (f row)) (id : String) :
    s.get? id = .ok (((newestFirst s.rows).map f).find? (·.id == id)) := by
  have hids : (newestFirst s.rows).find? ((·.id == id) ∘ f) =
      (newestFirst s.rows).find? (·.id == id) := by
    refine List.find?_congr fun row hrow => ?_
    have hsame := (Row.parts_of_toRecord (hf row ((newestFirst_perm _).mem_iff.1 hrow))).1
    simp [hsame]
  rw [List.find?_map, hids, h.find?_newestFirst, get?]
  cases hfound : s.rows.find? (·.id == id) with
  | none => rfl
  | some row =>
    show row.toRecord.map some = _
    rw [hf row (List.mem_of_find?_eq_some hfound)]
    rfl

/-- The statistics count the listed records. -/
theorem exists_statistics (hf : ∀ row ∈ s.rows, row.toRecord = .ok (f row)) :
    ∃ t, s.statistics = .ok t ∧ t.Counts ((newestFirst s.rows).map f) := by
  have hgrouped := List.mergeSort_perm s.rows fun a b => a.status ≤ b.status
  obtain ⟨t, ht, hcounts⟩ := exists_foldlM_count
    (fun row hrow => hf row (hgrouped.mem_iff.1 hrow)) Statistics.counts_empty
  exact ⟨t, ht, hcounts.perm ((hgrouped.trans (newestFirst_perm s.rows).symm).map f)⟩

/-- Whatever has been saved and removed before, the listings, the lookups and the statistics of a
store tell of the same records. -/
theorem queries_agree (hs : s.Reachable) (hsound : ∀ row ∈ s.rows, row.Sound) :
    ∃ arrived L, s.Tells arrived L := by
  have hcoherent := hs.coherent
  have hperm := newestFirst_perm s.rows
  obtain ⟨f, hf⟩ := exists_reading hsound
  have hlisted : ∀ row ∈ newestFirst s.rows, row.toRecord = .ok (f row) :=
    fun row hrow => hf row (hperm.mem_iff.1 hrow)
  have hlist (limit : ℕ) : s.list limit = .ok (((newestFirst s.rows).map f).take limit) := by
    rw [list, mapM_eq_ok fun row hrow => hlisted row (List.mem_of_mem_take hrow),
      List.map_take]
  have hlength : ((newestFirst s.rows).map f).length = s.rows.length := by
    rw [List.length_map, hperm.length_eq]
  refine ⟨s.rows.map f, (newestFirst s.rows).map f, ?_⟩
  exact
    { read_eq := mapM_eq_ok hf
      list_all := fun n hn => by rw [hlist, List.take_of_length_le (hlength.le.trans hn)]
      perm := hperm.map f
      ids_nodup := by
        have hids : ((newestFirst s.rows).map f).map (·.id) = (newestFirst s.rows).map (·.id) := by
          rw [List.map_map]
          exact List.map_congr_left fun row hrow => (Row.parts_of_toRecord (hlisted row hrow)).1
        rw [hids]
        exact (hperm.map _).nodup_iff.2 hcoherent.ids_nodup
      newest_first := by
        refine List.pairwise_map.2 (hcoherent.pairwise_newestFirst.imp_of_mem ?_)
        intro a b ha hb hab
        exact newer_of_rows (hsound a (hperm.mem_iff.1 ha)) (hsound b (hperm.mem_iff.1 hb))
          (hlisted a ha) (hlisted b hb) hab
      list_eq := hlist
      list_min := fun limit greatest hgreatest => by
        rw [hlist, hlist]
        refine congrArg Except.ok (List.take_eq_take_iff.2 ?_)
        omega
      listWorkflow_eq := listWorkflow_eq hcoherent hf
      get?_eq := get?_eq hcoherent hf
      statistics_eq := exists_statistics hf }

/-- Of two records that started together the later one is listed first, also where a record between
them was removed. -/
theorem queries_agree_after_removal :
    ∃ s arrived, s = [Change.save (blankRecord "a" 5), .save (blankRecord "b" 9),
        .save (blankRecord "c" 5), .delete "b"].foldl apply (empty 3) ∧
      s.Tells arrived [blankRecord "c" 5, blankRecord "a" 5] := by
  obtain ⟨s, hs⟩ : ∃ s, s = [Change.save (blankRecord "a" 5), .save (blankRecord "b" 9),
      .save (blankRecord "c" 5), .delete "b"].foldl apply (empty 3) := ⟨_, rfl⟩
  have hreachable : s.Reachable := by
    simp only [hs, List.foldl]
    exact .apply _ (.apply _ (.apply _ (.apply _ (.empty 3))))
  obtain ⟨a, ha⟩ : ∃ row, row = Row.ofRecord 1 (blankRecord "a" 5) := ⟨_, rfl⟩
  obtain ⟨c, hc⟩ : ∃ row, row = Row.ofRecord 3 (blankRecord "c" 5) := ⟨_, rfl⟩
  have hstore : s = ⟨[a, c], 3⟩ := by
    rw [hs, ha, hc]
    rfl
  have hrows : s.rows = [a, c] := congrArg Store.rows hstore
  have hplain : (blankRecord "" 5).startedAt.HasPlainYear := ⟨by decide, by decide⟩
  have hstorable (id : String) : (blankRecord id 5).Storable := blankRecord_storable hplain
  have hsound : ∀ row ∈ s.rows, row.Sound := by
    rw [hrows, ha, hc]
    simp only [List.mem_cons, List.not_mem_nil, or_false]
    rintro row (rfl | rfl)
    · exact Row.sound_ofRecord (hstorable "a") 1
    · exact Row.sound_ofRecord (hstorable "c") 3
  have hnewest : newestFirst [a, c] = [c, a] := by
    have hnumbers : a.number = 1 ∧ c.number = 3 := by rw [ha, hc]; exact ⟨rfl, rfl⟩
    have hsame : c.startedAt = a.startedAt := by rw [ha, hc]; rfl
    rw [newestFirst_eq]
    refine (eq_greatestFirst (nodup_keys ?_) (List.Perm.swap a c []) ?_).symm
    · simp [hnumbers]
    · simp [Row.key, Prod.Lex.toLex_le_toLex, hsame, hnumbers]
  obtain ⟨arrived, L, htells⟩ := queries_agree hreachable hsound
  have hlist : s.list 2 = .ok [blankRecord "c" 5, blankRecord "a" 5] := by
    have hreada : a.toRecord = .ok (blankRecord "a" 5) := by
      rw [ha, Row.toRecord_ofRecord (hstorable "a")]
    have hreadc : c.toRecord = .ok (blankRecord "c" 5) := by
      rw [hc, Row.toRecord_ofRecord (hstorable "c")]
    simp [list, hrows, hnewest, List.mapM_cons, hreada, hreadc, bind, Except.bind, pure, Except.pure]
  have hall := htells.list_all 2 (by rw [hrows]; rfl)
  have hL := Except.ok.inj (hlist.symm.trans hall)
  exact ⟨s, arrived, hs, hL ▸ htells⟩

end Store

end StepFlow.History
