import StepFlow.History.Table
import StepFlow.Proofs.History.Record
import StepFlow.Proofs.Run.Nesting

/-!
# Rows hold their records

A record whose instants lie in the years 0 to 9999 and whose duration is a signed integer can be
read back from its row, field by field, exactly if none of its documents is nested beyond the limit
of the reader (`toRecord_ofRecord_iff`).
-/

namespace StepFlow.History

/-! ## Records that can be stored -/

/-- The data that a record carries. -/
def Record.contexts (r : Record) : List Context :=
  r.initialData :: (r.steps.flatMap Step.contexts ++ r.finalState.contexts)

/-- What a record must satisfy, apart from how deep its data nest, so that it can be read back from
a row. -/
structure Record.Plain (r : Record) : Prop where
  started_plain : r.startedAt.HasPlainYear
  steps_plain : ∀ s ∈ r.steps, s.timestamp.HasPlainYear
  finalState_written : r.finalState.Written
  duration_le : r.durationMs.toNat ≤ longestDuration

theorem Record.Plain.written {r : Record} (h : r.Plain) : r.Written :=
  ⟨h.started_plain, h.steps_plain, h.finalState_written⟩

/-- What a record must satisfy so that it can be read back from a row. -/
structure Record.Storable (r : Record) : Prop extends r.Plain where
  /-- Three levels of the reader's limit go to the written run and its list of steps. -/
  nesting_le : ∀ c ∈ r.contexts, c.toJson.nesting + 3 ≤ Document.depthLimit

namespace Row

open Decoder

/-- What is read from a row has its identifier and the data of its three documents. -/
theorem parts_of_toRecord {row : Row} {r : Record} (h : row.toRecord = .ok r) :
    r.id = row.id ∧ Decoder.context.ofText row.initialData = .ok r.initialData ∧
      (list Step.decoder).ofText row.steps = .ok r.steps ∧
      Run.decoder.ofText row.finalState = .ok r.finalState := by
  obtain ⟨duration, -, h⟩ := exists_of_bind_eq_ok h
  obtain ⟨startedAt, -, h⟩ := exists_of_bind_eq_ok h
  obtain ⟨initialData, hinitial, h⟩ := exists_of_bind_eq_ok h
  obtain ⟨steps, hsteps, h⟩ := exists_of_bind_eq_ok h
  obtain ⟨finalState, hfinal, h⟩ := exists_of_bind_eq_ok h
  rw [mapError_eq_ok_iff] at hinitial hsteps hfinal
  split at h
  · cases h
  · cases h
    exact ⟨rfl, hinitial, hsteps, hfinal⟩

/-- What is read from a row has its workflow, its start and its status, and the duration of the row
is sound. -/
theorem columns_of_toRecord {row : Row} {r : Record} (h : row.toRecord = .ok r) :
    r.workflowId = row.workflowId ∧ Instant.readStrict row.startedAt = .ok r.startedAt ∧
      Status.ofName? row.status = some r.status ∧ ∃ n, durationOf row.duration = .ok n := by
  obtain ⟨duration, hduration, h⟩ := exists_of_bind_eq_ok h
  obtain ⟨startedAt, hstarted, h⟩ := exists_of_bind_eq_ok h
  obtain ⟨initialData, -, h⟩ := exists_of_bind_eq_ok h
  obtain ⟨steps, -, h⟩ := exists_of_bind_eq_ok h
  obtain ⟨finalState, -, h⟩ := exists_of_bind_eq_ok h
  rw [mapError_eq_ok_iff] at hstarted
  split at h
  · cases h
  · rename_i status hstatus
    cases h
    exact ⟨rfl, hstarted, hstatus, duration, hduration⟩

/-- A record is read back from its row exactly if each of its three documents lies within the
limit for nesting. -/
theorem toRecord_ofRecord_iff {r : Record} (h : r.Plain) (number : Nat) :
    (ofRecord number r).toRecord = .ok r ↔
      r.initialData.toJson.nesting ≤ Document.depthLimit ∧
      (Json.array (r.steps.map Step.toJson)).nesting ≤ Document.depthLimit ∧
      r.finalState.toJson.nesting ≤ Document.depthLimit := by
  have hinitial := (limited_context r.initialData).ofText_eq_ok_iff (reads_context r.initialData)
  have hsteps := (limited_list fun s (_ : s ∈ r.steps) => s.limited).ofText_eq_ok_iff
    (inverts_list fun s hs => Step.decoder_inverts (h.steps_plain s hs)).reads
  have hfinal := r.finalState.limited.ofText_eq_ok_iff
    (Run.decoder_inverts h.finalState_written).reads
  have hduration : (min (r.durationMs.toNat : Int) longestDuration).toNat = r.durationMs.toNat := by
    have := h.duration_le
    omega
  rw [← hinitial, ← hsteps, ← hfinal]
  constructor
  · exact fun hread => (parts_of_toRecord hread).2
  · rintro ⟨hinitial, hsteps, hfinal⟩
    simp only [toRecord, ofRecord, durationOf, toRecordWith, Instant.readStrict_sortableText
      h.started_plain, hinitial, hsteps, hfinal, hduration, Except.mapError, bind, Except.bind,
      Status.ofName?_name, UInt64.ofNat_toNat]

/-- A record whose data leave three levels of the limit is read back from its row. -/
theorem toRecord_ofRecord {r : Record} (h : r.Storable) (number : Nat) :
    (ofRecord number r).toRecord = .ok r := by
  have hdepth (n : Nat) : n + 3 ≤ Document.depthLimit ↔ n ≤ 124 := Nat.add_le_add_iff_right
  have hnesting (c : Context) (hc : c ∈ r.contexts) : c.toJson.nesting ≤ 124 :=
    (hdepth _).1 (h.nesting_le c hc)
  have hsteps : (Json.array (r.steps.map Step.toJson)).nesting ≤ 124 + 2 :=
    nesting_steps_le_iff.2 fun s hs c hc => hnesting c <|
      List.mem_cons_of_mem _ (List.mem_append_left _ (List.mem_flatMap.2 ⟨s, hs, hc⟩))
  have hlast : r.finalState.context.toJson.nesting ≤ 124 := hnesting _ <|
    List.mem_cons_of_mem _ (List.mem_append_right _ List.mem_cons_self)
  have hfinal : r.finalState.toJson.nesting ≤ 124 + 3 :=
    Run.nesting_toJson_le_iff.2 ⟨by omega, fun s hs c hc => hnesting c <|
      List.mem_cons_of_mem _ (List.mem_append_right _ (List.mem_cons_of_mem _
        (List.mem_flatMap.2 ⟨s, hs, hc⟩)))⟩
  refine (toRecord_ofRecord_iff h.toPlain number).2 ⟨?_, ?_, hfinal⟩
  · exact (hnesting _ List.mem_cons_self).trans (by decide)
  · exact hsteps.trans (by decide)

end Row

end StepFlow.History
