import StepFlow.Proofs.Command.Execute
import StepFlow.Proofs.History.Row
import StepFlow.Proofs.Runner.Growth

/-!
# Recorded runs that can be read again

The record of a local run can be saved whatever its data are, but it is read again exactly if the
written final state is not nested beyond the limit of the reader (`Command.shows_iff_of_execute`).
Data that leave five levels of the limit are always safe: two levels are what nodes add to the data,
and three go to the documents of the row.  Data that are accepted when the run begins need not leave
that many, so a run can end as a record that no listing gets past (`Command.lost_of_deep_data`).
-/

namespace StepFlow

open Document (depthLimit)

/-! ## Stores with one record -/

namespace History.Store

/-- A record is found under its identifier and in every listing. -/
structure Shows (s : Store) (r : Record) : Prop where
  found : s.get? r.id = .ok (some r)
  listed : ∀ limit, 1 ≤ limit → s.list limit = .ok [r]
  listedOfWorkflow : ∀ limit, 1 ≤ limit → s.listWorkflow r.workflowId limit = .ok [r]

/-- The query for a record fails, and with it every listing. -/
structure Loses (s : Store) (r : Record) : Prop where
  not_found : ∃ e, s.get? r.id = .error e
  not_listed : ∀ limit, 1 ≤ limit → ∃ e, s.list limit = .error e
  not_listedOfWorkflow : ∀ limit, 1 ≤ limit → ∃ e, s.listWorkflow r.workflowId limit = .error e

variable {s : Store} {r : Record} {M number : Nat}

/-- A record that is saved to an empty store has the only row. -/
theorem rows_of_save_empty (hM : 1 ≤ M) (h : (empty M).save r = .ok s) :
    s.rows = [Row.ofRecord 1 r] := by
  have hnumber : nextNumber [] = 1 := rfl
  simp [save, empty, clearOld, hnumber, hM] at h
  rw [← h]

/-- All queries for a record that has the only row read this row. -/
theorem queries_of_rows (h : s.rows = [Row.ofRecord number r]) {limit : Nat} (hlimit : 1 ≤ limit) :
    s.get? r.id = (Row.ofRecord number r).toRecord.map some ∧
      s.list limit = (Row.ofRecord number r).toRecord.map (fun r => [r]) ∧
      s.listWorkflow r.workflowId limit = (Row.ofRecord number r).toRecord.map (fun r => [r]) := by
  obtain ⟨row, hrow⟩ : ∃ row, row = Row.ofRecord number r := ⟨_, rfl⟩
  have hid : row.id = r.id := by rw [hrow]; rfl
  have hworkflow : row.workflowId = r.workflowId := by rw [hrow]; rfl
  have hduration : Row.durationOf row.duration =
      .ok (min (r.durationMs.toNat : Int) longestDuration) := by rw [hrow]; rfl
  have hsorted : newestFirst [row] = [row] := List.mergeSort_singleton _
  have htake : [row].take limit = [row] := List.take_of_length_le hlimit
  rw [← hrow] at h ⊢
  refine ⟨?_, ?_, ?_⟩
  · simp [get?, h, hid]
  · rw [list, h, hsorted, htake, List.mapM_cons]
    cases row.toRecord <;> rfl
  · simp only [listWorkflow, h, hworkflow, List.filter_cons, beq_self_eq_true, if_true,
      List.filter_nil, hsorted, htake, List.mapM_cons, hduration]
    cases row.toRecord <;> rfl

theorem shows_iff (h : s.rows = [Row.ofRecord number r]) :
    s.Shows r ↔ (Row.ofRecord number r).toRecord = .ok r := by
  constructor
  · intro hshows
    have hfound := hshows.found
    rw [(queries_of_rows h (Nat.le_refl 1)).1] at hfound
    obtain ⟨r', hread, hr'⟩ := exists_of_map_eq_ok hfound
    rw [hread, Option.some.inj hr']
  · intro hread
    refine ⟨?_, fun limit hlimit => ?_, fun limit hlimit => ?_⟩
    · rw [(queries_of_rows h (Nat.le_refl 1)).1, hread]
      rfl
    · rw [(queries_of_rows h hlimit).2.1, hread]
      rfl
    · rw [(queries_of_rows h hlimit).2.2, hread]
      rfl

theorem loses_of_error (h : s.rows = [Row.ofRecord number r]) {e : StoreError}
    (hread : (Row.ofRecord number r).toRecord = .error e) : s.Loses r := by
  refine ⟨⟨e, ?_⟩, fun limit hlimit => ⟨e, ?_⟩, fun limit hlimit => ⟨e, ?_⟩⟩
  · rw [(queries_of_rows h (Nat.le_refl 1)).1, hread]
    rfl
  · rw [(queries_of_rows h hlimit).2.1, hread]
    rfl
  · rw [(queries_of_rows h hlimit).2.2, hread]
    rfl

end History.Store

namespace Command

open History (Record Row Store)

variable {σ : Type} {world : World (StateM σ)} {settings : Settings} {w : Workflow}
  {initialData : Context} {t : σ} {final : LocalRunner} {id : String} {startedAt : Instant}
  {durationMs : UInt64} {r : Record} {s : Store} {M : Nat}

/-! ## Records of driven runs -/

/-- The first step of a run met the initial data, which therefore stand three levels deep in the
written run. -/
theorem nesting_initialData_le (h : LocalRunner.Driven w initialData Instant.HasPlainYear final) :
    initialData.toJson.nesting + 3 ≤ final.run.toJson.nesting := by
  have hlength := List.length_pos_iff.2 h.steps_ne_nil
  obtain ⟨readings, n, hfirst⟩ := h.reachable.run.logs 0 hlength
  have hinput : final.run.steps[0].input = initialData := by
    rw [hfirst, Handler.execute_input]
    rfl
  obtain ⟨k, hk⟩ := Nat.exists_eq_add_one.2 initialData.nesting_pos
  by_contra hlt
  have hle : final.run.toJson.nesting ≤ k + 3 := by omega
  have hsteps := (Run.nesting_toJson_le_iff.1 hle).2 _ (List.getElem_mem hlength)
    final.run.steps[0].input List.mem_cons_self
  rw [hinput] at hsteps
  omega

/-- Apart from how deep its data nest, nothing is in the way of the record of a driven run. -/
theorem plain_ofRun (h : LocalRunner.Driven w initialData Instant.HasPlainYear final)
    (hstarted : startedAt.HasPlainYear) (hduration : durationMs.toNat ≤ History.longestDuration)
    (hlog : final.run.steps.length ≤ 2 ^ 63) :
    (Record.ofRun id w initialData startedAt final.run durationMs).Plain where
  started_plain := hstarted
  steps_plain := h.timestamps
  finalState_written :=
    { steps_plain := h.timestamps
      cursor_bounds := by
        have hcursor := h.reachable.run.coherent.cursor_mem h.steps_ne_nil
        show (-0x8000000000000000 : Int) ≤ final.run.cursor ∧
          final.run.cursor < (0x8000000000000000 : Int)
        omega }
  duration_le := hduration

/-- The record of a local run is read back from its row exactly if the written final state lies
within the limit for nesting. -/
theorem toRecord_iff_of_execute (hworld : InOrder world)
    (h : ((execute world settings w initialData none).run.run t).1 = .ok r)
    (hlog : r.steps.length ≤ 2 ^ 63) (number : Nat) :
    (Row.ofRecord number r).toRecord = .ok r ↔ r.finalState.toJson.nesting ≤ depthLimit := by
  obtain ⟨id, startedAt, final, durationMs, rfl, hdriven, hstarted, hduration⟩ :=
    exists_of_execute hworld h
  rw [Row.toRecord_ofRecord_iff (plain_ofRun hdriven hstarted hduration hlog)]
  refine ⟨fun hread => hread.2.2, fun hfinal => ⟨?_, ?_, hfinal⟩⟩
  · have hinitial := nesting_initialData_le hdriven
    exact (Nat.le_of_add_right_le hinitial).trans hfinal
  · exact final.run.nesting_steps_le.trans hfinal

/-- Data that leave five levels of the limit lead to a final state within the limit. -/
theorem nesting_finalState_le_of_execute (hworld : InOrder world)
    (h : ((execute world settings w initialData none).run.run t).1 = .ok r) :
    r.finalState.toJson.nesting ≤ initialData.toJson.nesting + 5 := by
  obtain ⟨id, startedAt, final, durationMs, rfl, hdriven, -, -⟩ := exists_of_execute hworld h
  exact hdriven.reachable.nesting_toJson_le

/-- Data that do not leave three levels of the limit make the row of the record unreadable. -/
theorem loses_of_execute (hworld : InOrder world)
    (h : ((execute world settings w initialData none).run.run t).1 = .ok r) (hM : 1 ≤ M)
    (hsave : (Store.empty M).save r = .ok s)
    (hdeep : depthLimit < initialData.toJson.nesting + 3) : s.Loses r := by
  obtain ⟨id, startedAt, final, durationMs, rfl, hdriven, -, -⟩ := exists_of_execute hworld h
  have hinitial := nesting_initialData_le hdriven
  cases hread : (Row.ofRecord 1 (.ofRun id w initialData startedAt final.run durationMs)).toRecord with
  | error e => exact Store.loses_of_error (Store.rows_of_save_empty hM hsave) hread
  | ok read =>
    obtain ⟨-, -, -, hfinal⟩ := Row.parts_of_toRecord hread
    have hwithin : final.run.toJson.nesting ≤ depthLimit := final.run.limited.ofText hfinal
    omega

/-! ## Data that nest deep -/

/-- Objects within each other. -/
def deepJson : Nat → Json
  | 0 => .null
  | n + 1 => .object [("a", deepJson n)]

theorem nesting_deepJson (n : Nat) : (deepJson n).nesting = n := by
  induction n with
  | zero => rfl
  | succ n ih => simp [deepJson, Json.nesting, Json.nestingMembers, ih]

theorem isCanonical_deepJson (n : Nat) : (deepJson n).IsCanonical := by
  induction n with
  | zero => trivial
  | succ n ih => exact ⟨nofun, ih, trivial⟩

/-- Data of a number of levels, one more than those of their only value. -/
def deepData (n : Nat) : Context := ⟨[("a", deepJson n)], nofun, isCanonical_deepJson n, trivial⟩

theorem nesting_deepData (n : Nat) : (deepData n).toJson.nesting = n + 1 := nesting_deepJson (n + 1)

/-- Data are read back from their text within the limit. -/
theorem dataOfText_compact (c : Context) (h : c.toJson.nesting ≤ depthLimit) :
    dataOfText c.toJson.compact = .ok c := by
  have hreads : Decoder.json.Reads c.toJson c.toJson := fun o => by simp [Decoder.json]
  rw [dataOfText, hreads.ofText h, Context.toJson]
  simp only [Context.ofMembers_members]

/-- A workflow that passes the data on from a node of the given role to its output. -/
def passing (role : Role) : Workflow where
  id := "w"
  name := "Deep"
  nodes := [⟨"in", some "In", role⟩, ⟨"out", some "Out", .output⟩]
  edges := [⟨"e", "in", "out", none, none⟩]

/-- A world in which nothing happens. -/
def idleWorld : World (StateM Unit) where
  read _ := pure (.error .missing)
  write _ _ := pure (.ok ())
  createDirectory _ := pure (.ok ())
  readings := pure .still
  milliseconds := pure 0
  fresh := pure fun n => toString n
  ask _ _ _ := pure .silence
  environmentDir? := none
  platformDir := ""

theorem inOrder_idleWorld : InOrder idleWorld where
  now_plain := fun _ => (⟨by decide, by decide⟩ : Readings.still.now.HasPlainYear)
  milliseconds_le := fun _ => Nat.zero_le _

/-- Such a workflow is run in two steps. -/
theorem exists_execute_passing {role : Role} (hrole : role = .input ∨ role = .dataInput)
    (c : Context) :
    ∃ r, ((execute idleWorld .default (passing role) c none).run.run ()).1 = .ok r ∧
      r.steps.length = 2 := by
  rcases hrole with rfl | rfl
  · exact ⟨_, rfl, rfl⟩
  · exact ⟨_, rfl, rfl⟩

/-! ## What becomes of a record -/

/-- The record of a local run that was saved to an empty store can be queried and listed exactly if
its written final state lies within the limit of the reader for nesting.  It always does where the
data at the beginning leave five levels of the limit, and never where they do not leave three.  The
log must be one over which a cursor of sixty-four bits can move. -/
theorem shows_iff_of_execute (hworld : InOrder world)
    (h : ((execute world settings w initialData none).run.run t).1 = .ok r)
    (hlog : r.steps.length ≤ 2 ^ 63) (hM : 1 ≤ M) (hsave : (Store.empty M).save r = .ok s) :
    (s.Shows r ↔ r.finalState.toJson.nesting ≤ depthLimit) ∧
      (initialData.toJson.nesting + 5 ≤ depthLimit → s.Shows r) ∧
      (depthLimit < initialData.toJson.nesting + 3 → s.Loses r) := by
  have hiff : s.Shows r ↔ r.finalState.toJson.nesting ≤ depthLimit :=
    (Store.shows_iff (Store.rows_of_save_empty hM hsave)).trans
      (toRecord_iff_of_execute hworld h hlog 1)
  refine ⟨hiff, fun hshallow => hiff.2 ?_, loses_of_execute hworld h hM hsave⟩
  exact (nesting_finalState_le_of_execute hworld h).trans hshallow

/-- Data of 122 levels are safe, also where a data node makes a record of them. -/
theorem shows_iff_of_execute_data_node :
    ∃ r s, ((execute idleWorld .default (passing .dataInput) (deepData 121) none).run.run ()).1 =
        .ok r ∧ (Store.empty 50).save r = .ok s ∧ (deepData 121).toJson.nesting = 122 ∧ s.Shows r := by
  obtain ⟨r, hrun, hlength⟩ := exists_execute_passing (.inr rfl) (deepData 121)
  obtain ⟨s, hsave⟩ : ∃ s, (Store.empty 50).save r = .ok s := ⟨_, rfl⟩
  obtain ⟨-, hsafe, -⟩ := shows_iff_of_execute inOrder_idleWorld hrun (by rw [hlength]; decide)
    (by decide) hsave
  have hnesting := nesting_deepData 121
  exact ⟨r, s, hrun, hsave, hnesting, hsafe (by rw [hnesting]; decide)⟩

/-- Data of 126 levels are read from their text and passed through a valid workflow, but the record
of the run is lost: neither it nor any listing can be read. -/
theorem lost_of_deep_data :
    (passing .input).validate = .ok () ∧
      dataOfText (deepData 125).toJson.compact = .ok (deepData 125) ∧
      ∃ r s, ((execute idleWorld .default (passing .input) (deepData 125) none).run.run ()).1 =
        .ok r ∧ (Store.empty 50).save r = .ok s ∧ s.Loses r := by
  have hnesting := nesting_deepData 125
  have htext := dataOfText_compact (deepData 125) (by rw [hnesting]; decide)
  obtain ⟨r, hrun, -⟩ := exists_execute_passing (.inl rfl) (deepData 125)
  obtain ⟨s, hsave⟩ : ∃ s, (Store.empty 50).save r = .ok s := ⟨_, rfl⟩
  exact ⟨by decide, htext, r, s, hrun, hsave, loses_of_execute inOrder_idleWorld hrun (by decide)
    hsave (by rw [hnesting]; decide)⟩

end Command

end StepFlow
