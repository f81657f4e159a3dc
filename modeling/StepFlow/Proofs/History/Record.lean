import StepFlow.History.Record
import StepFlow.Proofs.Decode.Arrangement
import StepFlow.Proofs.Decode.Limit

/-!
# Records read back

Steps, runs and records are read back from the JSON that is written of them, in any order of the
members, as long as their instants lie in the years 0 to 9999.
-/

namespace StepFlow

open Decoder Fields

/-- A status is found under its name. -/
theorem StepStatus.lookup_name (s : StepStatus) : StepStatus.table.lookup s.name = some s := by
  cases s <;> rfl

/-- A step is read back. -/
theorem Step.decoder_inverts {s : Step} (h : s.timestamp.HasPlainYear) :
    Step.decoder.Inverts Step.toJson s := by
  intro φ hφ
  obtain ⟨nodeId, nodeName, nodeType, status, input, output?, error?, elapsedMs, timestamp⟩ := s
  have hkeys : (["node_id", "node_name", "node_type", "status", "input", "output", "error",
      "execution_time_ms", "timestamp"] : List String).Nodup := by decide
  refine hφ.reads_record "StepRecord" hkeys fun arranged hmembers => ?_
  refine Reads.map (x := (nodeId, nodeName, nodeType, status, input, output?, error?, elapsedMs,
    timestamp)) ?_ _
  refine Reads.both (hmembers.reads_required rfl (hφ.reads_string nodeId)) ?_ (by decide)
  refine Reads.both (hmembers.reads_required rfl (hφ.reads_string nodeName)) ?_ (by decide)
  refine Reads.both (hmembers.reads_required rfl (hφ.reads_string nodeType)) ?_ (by decide)
  refine Reads.both (hmembers.reads_required rfl (hφ.reads_variant status.lookup_name)) ?_
    (by decide)
  refine Reads.both (hmembers.reads_required rfl (hφ.reads_context input)) ?_ (by decide)
  refine Reads.both (hmembers.reads_defaulted rfl (hφ.reads_context? output?)) ?_ (by decide)
  refine Reads.both (hmembers.reads_defaulted rfl (hφ.reads_string? error?)) ?_ (by decide)
  refine Reads.both (hmembers.reads_required rfl (hφ.reads_uint64 elapsedMs)) ?_ (by decide)
  exact hmembers.reads_required rfl (hφ.reads_instant h)

/-- What a run must satisfy to be read back: its instants lie in the years 0 to 9999, and its
cursor is a signed integer of sixty-four bits. -/
structure Run.Written (r : Run) : Prop where
  steps_plain : ∀ s ∈ r.steps, s.timestamp.HasPlainYear
  cursor_bounds : -0x8000000000000000 ≤ r.cursor ∧ r.cursor < 0x8000000000000000

/-- A run is read back. -/
theorem Run.decoder_inverts {r : Run} (h : r.Written) : Run.decoder.Inverts Run.toJson r := by
  intro φ hφ
  obtain ⟨steps, cursor, isRunning, isPaused, context⟩ := r
  have hkeys : (["steps", "cursor", "is_running", "is_paused", "context"] : List String).Nodup := by
    decide
  have hsteps := inverts_list fun s hs => Step.decoder_inverts (h.steps_plain s hs)
  refine hφ.reads_record "RunState" hkeys fun arranged hmembers => ?_
  refine Reads.map (x := (steps, cursor, isRunning, isPaused, context)) ?_ _
  refine Reads.both (hmembers.reads_required rfl (hsteps φ hφ)) ?_ (by decide)
  refine Reads.both (hmembers.reads_required rfl (hφ.reads_int64 h.cursor_bounds)) ?_ (by decide)
  refine Reads.both (hmembers.reads_required rfl (hφ.reads_bool isRunning)) ?_ (by decide)
  refine Reads.both (hmembers.reads_required rfl (hφ.reads_bool isPaused)) ?_ (by decide)
  exact hmembers.reads_required rfl (hφ.reads_context context)

namespace History

/-- A status is found under its name. -/
theorem Status.ofName?_name (s : Status) : Status.ofName? s.name = some s := by cases s <;> rfl

/-- What a record must satisfy to be read back: its instants and those of its run lie in the years
0 to 9999, and the cursor of the run is a signed integer of sixty-four bits. -/
structure Record.Written (r : Record) : Prop where
  started_plain : r.startedAt.HasPlainYear
  steps_plain : ∀ s ∈ r.steps, s.timestamp.HasPlainYear
  finalState_written : r.finalState.Written

/-- A record is read back. -/
theorem Record.decoder_inverts {r : Record} (h : r.Written) :
    Record.decoder.Inverts Record.toJson r := by
  intro φ hφ
  obtain ⟨id, workflowId, workflowName, startedAt, initialData, steps, finalState, durationMs,
    status⟩ := r
  have hkeys : (["id", "workflow_id", "workflow_name", "started_at", "initial_data", "steps",
      "final_state", "duration_ms", "status"] : List String).Nodup := by decide
  have hsteps := inverts_list fun s hs => Step.decoder_inverts (h.steps_plain s hs)
  have hfinal := Run.decoder_inverts h.finalState_written
  refine hφ.reads_record "HistoryRecord" hkeys fun arranged hmembers => ?_
  refine Reads.map (x := (id, workflowId, workflowName, startedAt, initialData, steps, finalState,
    durationMs, status)) ?_ _
  refine Reads.both (hmembers.reads_required rfl (hφ.reads_string id)) ?_ (by decide)
  refine Reads.both (hmembers.reads_required rfl (hφ.reads_string workflowId)) ?_ (by decide)
  refine Reads.both (hmembers.reads_required rfl (hφ.reads_string workflowName)) ?_ (by decide)
  refine Reads.both (hmembers.reads_required rfl (hφ.reads_instant h.started_plain)) ?_
    (by decide)
  refine Reads.both (hmembers.reads_required rfl (hφ.reads_context initialData)) ?_ (by decide)
  refine Reads.both (hmembers.reads_required rfl (hsteps φ hφ)) ?_ (by decide)
  refine Reads.both (hmembers.reads_required rfl (hfinal φ hφ)) ?_ (by decide)
  refine Reads.both (hmembers.reads_required rfl (hφ.reads_uint64 durationMs)) ?_ (by decide)
  exact hmembers.reads_required rfl (hφ.reads_variant status.ofName?_name)

end History

/-! ## The limit for nesting -/

/-- Of the text of a step only what lies within the limit is read. -/
theorem Step.limited (s : Step) : Step.decoder.Limited s.toJson := by
  have hinput : Step.fields.LimitedAt "input" s.input.toJson :=
    .map _ <| .right (by decide) <| .right (by decide) <| .right (by decide) <|
      .right (by decide) <| .left (by decide) <| limitedAt_required (limited_context _) _
  have houtput : Step.fields.LimitedAt "output" (Step.optionalContext s.output?) := by
    refine .map _ <| .right (by decide) <| .right (by decide) <| .right (by decide) <|
      .right (by decide) <| .right (by decide) <| .left (by decide) <| limitedAt_defaulted ?_ _ _
    cases s.output? with
    | none => exact limited_of_nesting_eq_zero _ rfl
    | some c => exact (limited_context c).optional
  have herror : (Json.ofString? s.error?).nesting = 0 := by cases s.error? <;> rfl
  refine limited_decoder "StepRecord" (fun m hm => List.mem_map_of_mem (f := Prod.fst) hm) ?_
  simp only [List.forall_mem_cons]
  exact ⟨limitedAt_of_nesting_eq_zero _ rfl, limitedAt_of_nesting_eq_zero _ rfl,
    limitedAt_of_nesting_eq_zero _ rfl, limitedAt_of_nesting_eq_zero _ rfl, hinput, houtput,
    limitedAt_of_nesting_eq_zero _ herror, limitedAt_of_nesting_eq_zero _ rfl,
    limitedAt_of_nesting_eq_zero _ rfl, nofun⟩

/-- Of the text of a run only what lies within the limit is read. -/
theorem Run.limited (r : Run) : Run.decoder.Limited r.toJson := by
  have hsteps : Run.fields.LimitedAt "steps" (.array (r.steps.map Step.toJson)) :=
    .map _ <| .left (by decide) <| limitedAt_required (limited_list fun s _ => s.limited) _
  have hcontext : Run.fields.LimitedAt "context" r.context.toJson :=
    .map _ <| .right (by decide) <| .right (by decide) <| .right (by decide) <|
      .right (by decide) <| limitedAt_required (limited_context _) _
  refine limited_decoder "RunState" (fun m hm => List.mem_map_of_mem (f := Prod.fst) hm) ?_
  simp only [List.forall_mem_cons]
  exact ⟨hsteps, limitedAt_of_nesting_eq_zero _ (Json.nesting_ofInt _),
    limitedAt_of_nesting_eq_zero _ rfl, limitedAt_of_nesting_eq_zero _ rfl, hcontext, nofun⟩

end StepFlow
