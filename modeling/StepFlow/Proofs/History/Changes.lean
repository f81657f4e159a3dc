import StepFlow.History.Store
import StepFlow.Proofs.History.Row

/-!
# Changes of a store

A store changes when records are saved, removed and cleared, and when it is opened again with
another capacity.  No change touches a row that it leaves in place, and none writes a second row
under an identifier that is there, so a record is found again, field by field, for as long as its
row is not removed (`found_of_keeps`).
-/

namespace StepFlow.History

/-- The ways in which a store changes. -/
inductive Change where
  | save (r : Record)
  | delete (id : String)
  | clearOld (keep : Nat)
  | clear
  | reopen (capacity : Nat)

namespace Store

variable {s s' s'' : Store} {id : String} {r : Record}

/-- The store after a change; a record that is refused changes nothing. -/
def apply (s : Store) : Change → Store
  | .save r =>
    match s.save r with
    | .ok s' => s'
    | .error _ => s
  | .delete id => s.delete id
  | .clearOld keep => (s.clearOld keep).1
  | .clear => s.clear
  | .reopen capacity => { s with capacity := capacity }

/-- The store has a row with an identifier. -/
def Has (s : Store) (id : String) : Prop := ∃ row ∈ s.rows, row.id = id

/-- The second store comes of the first one by changes none of which removes all rows with an
identifier. -/
inductive Keeps (id : String) : Store → Store → Prop
  | refl (s : Store) : s.Has id → Keeps id s s
  | step {s s' : Store} (c : Change) : Keeps id s s' → (s'.apply c).Has id → Keeps id s (s'.apply c)

/-! ## One change -/

/-- What is left after clearing was there before, in the same order. -/
theorem clearOld_sublist (s : Store) (keep : Nat) : (s.clearOld keep).1.rows.Sublist s.rows := by
  unfold clearOld
  split
  · exact List.Sublist.refl _
  · exact List.filter_sublist

/-- A row of a store to which a record was saved is the row of that record or was there before. -/
theorem mem_of_mem_save (hsave : s.save r = .ok s') {row : Row} (h : row ∈ s'.rows) :
    row = Row.ofRecord (nextNumber s.rows) r ∨ row ∈ s.rows := by
  unfold save at hsave
  split at hsave
  · cases hsave
  · cases hsave
    rcases List.mem_append.1 ((clearOld_sublist _ _).mem h) with h | h
    · exact .inr h
    · exact .inl (List.mem_singleton.1 h)

/-- A record gets in only where no row has its identifier. -/
theorem not_has_of_save (hsave : s.save r = .ok s') : ¬s.Has r.id := by
  rintro ⟨row, hrow, hid⟩
  have hany : s.rows.any (·.id == r.id) = true :=
    List.any_eq_true.2 ⟨row, hrow, beq_iff_eq.2 hid⟩
  rw [save, if_pos hany] at hsave
  cases hsave

/-- A change brings no new rows under an identifier that is there. -/
theorem mem_of_mem_apply (c : Change) (hhas : s.Has id) {row : Row} (h : row ∈ (s.apply c).rows)
    (hid : row.id = id) : row ∈ s.rows := by
  cases c with
  | save r =>
    simp only [apply] at h
    split at h
    · rename_i s' hsave
      rcases mem_of_mem_save hsave h with rfl | h
      · have hsame : r.id = id := hid
        exact absurd (hsame ▸ hhas) (not_has_of_save hsave)
      · exact h
    · exact h
  | delete other => exact List.mem_of_mem_filter h
  | clearOld keep => exact (clearOld_sublist _ _).mem h
  | clear => cases h
  | reopen capacity => exact h

/-! ## Many changes -/

theorem Keeps.has (h : Keeps id s s') : s'.Has id := by
  cases h with
  | refl hhas => exact hhas
  | step c hkeeps hhas => exact hhas

/-- As long as rows with an identifier are there, they are the ones that were there at first. -/
theorem Keeps.mem (h : Keeps id s s') {row : Row} (hrow : row ∈ s'.rows) (hid : row.id = id) :
    row ∈ s.rows := by
  induction h with
  | refl hhas => exact hrow
  | step c hkeeps hhas ih => exact ih (mem_of_mem_apply c hkeeps.has hrow hid)

/-- A record that got into a store is found again, the same in every field, after any changes that
leave its row in place. -/
theorem found_of_keeps (h : r.Storable) (hsave : s.save r = .ok s') (hkeeps : Keeps r.id s' s'') :
    s''.get? r.id = .ok (some r) := by
  obtain ⟨row, hrow, hid⟩ := hkeeps.has
  obtain ⟨found, hfound⟩ : ∃ found, s''.rows.find? (·.id == r.id) = some found := by
    rw [← Option.isSome_iff_exists, List.find?_isSome]
    exact ⟨row, hrow, beq_iff_eq.2 hid⟩
  have hfoundId : found.id = r.id := by simpa using List.find?_some hfound
  have hfirst := hkeeps.mem (List.mem_of_find?_eq_some hfound) hfoundId
  -- The row was no row of the store before, since the record would not have got in.
  have hwritten : found = Row.ofRecord (nextNumber s.rows) r := by
    rcases mem_of_mem_save hsave hfirst with heq | hold
    · exact heq
    · exact absurd ⟨found, hold, hfoundId⟩ (not_has_of_save hsave)
  simp [get?, hfound, hwritten, Row.toRecord_ofRecord h, Except.map]

end Store

/-! ## A record among others -/

/-- The data of a reading. -/
def sampleData : Context := .single "temp" (.ofBinary64 (.ofDecimal false 215 (-1)))

/-- The moment of the reading. -/
def sampleInstant : Instant := ⟨1772352000, 123456789, by decide, by decide⟩

/-- The log entry of a node that passed a reading on. -/
def sampleStep : Step where
  nodeId := "in"
  nodeName := "Reading"
  nodeType := "input"
  status := .success
  input := sampleData
  output? := some sampleData
  error? := none
  elapsedMs := 3
  timestamp := sampleInstant

/-- The record of a run of one step, under a given identifier. -/
def sampleRecord (id : String) : Record where
  id := id
  workflowId := "w"
  workflowName := "Cooling"
  startedAt := sampleInstant
  initialData := sampleData
  steps := [sampleStep]
  finalState := (Run.new sampleData).commit sampleStep true
  durationMs := 12
  status := .success

theorem sampleRecord_storable (id : String) : (sampleRecord id).Storable := by
  have hplain : sampleInstant.HasPlainYear := ⟨by decide, by decide⟩
  have hsteps : ∀ s ∈ [sampleStep], s.timestamp.HasPlainYear := by
    intro s hs
    rw [List.mem_singleton.1 hs]
    exact hplain
  have hcontexts : (sampleRecord id).contexts = (sampleRecord "").contexts := rfl
  exact
    { started_plain := hplain
      steps_plain := hsteps
      finalState_written := ⟨hsteps, by
        show (-0x8000000000000000 : Int) ≤ 0 ∧ (0 : Int) < 0x8000000000000000
        decide⟩
      duration_le := (by decide : (12 : UInt64).toNat ≤ longestDuration)
      nesting_le := by rw [hcontexts]; decide }

namespace Store

/-- A record is found again after another one was saved and removed, the rows were cleared down to
one and the store was opened with another capacity. -/
theorem found_of_keeps_sample :
    ∃ s s', (empty 3).save (sampleRecord "a") = .ok s ∧ Keeps "a" s s' ∧ s'.capacity = 1 ∧
      s'.get? "a" = .ok (some (sampleRecord "a")) := by
  obtain ⟨a, ha⟩ : ∃ row, row = Row.ofRecord 1 (sampleRecord "a") := ⟨_, rfl⟩
  obtain ⟨b, hb⟩ : ∃ row, row = Row.ofRecord 2 (sampleRecord "b") := ⟨_, rfl⟩
  have hida : a.id = "a" := by rw [ha]; rfl
  have hidb : b.id = "b" := by rw [hb]; rfl
  have hsave : (empty 3).save (sampleRecord "a") = .ok ⟨[a], 3⟩ := by rw [ha]; rfl
  have hsecond : apply ⟨[a], 3⟩ (.save (sampleRecord "b")) = ⟨[a, b], 3⟩ := by
    have hnumber : nextNumber [a] = 2 := by rw [ha]; rfl
    have hfree : ("a" == (sampleRecord "b").id) = false := rfl
    simp [apply, save, hida, hfree, hnumber, hb, clearOld]
  have hdelete : apply ⟨[a, b], 3⟩ (.delete "b") = ⟨[a], 3⟩ := by
    simp [apply, delete, hida, hidb]
  have hclear : apply ⟨[a], 3⟩ (.clearOld 1) = ⟨[a], 3⟩ := by simp [apply, clearOld]
  have hreopen : apply ⟨[a], 3⟩ (.reopen 1) = ⟨[a], 1⟩ := rfl
  have hhas (capacity : Nat) (rows : List Row) : Has ⟨a :: rows, capacity⟩ "a" :=
    ⟨a, List.mem_cons_self, hida⟩
  have hkeeps : Keeps "a" ⟨[a], 3⟩ ⟨[a], 1⟩ := by
    have h : Keeps "a" ⟨[a], 3⟩ ⟨[a], 3⟩ := .refl _ (hhas 3 [])
    replace h := h.step (.save (sampleRecord "b")) (hsecond ▸ hhas _ _)
    rw [hsecond] at h
    replace h := h.step (.delete "b") (hdelete ▸ hhas _ _)
    rw [hdelete] at h
    replace h := h.step (.clearOld 1) (hclear ▸ hhas _ _)
    rw [hclear] at h
    exact hreopen ▸ h.step (.reopen 1) (hreopen ▸ hhas _ _)
  exact ⟨_, _, hsave, hkeeps, rfl, found_of_keeps (sampleRecord_storable "a") hsave hkeeps⟩

end Store

end StepFlow.History
