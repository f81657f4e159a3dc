import Mathlib.Order.Nat
import StepFlow.Proofs.Context.Nesting
import StepFlow.Proofs.Except
import StepFlow.Proofs.Handler

/-!
# How deep data grow

Handlers wrap data into further arrays and objects, but not without end: whatever is executed one
after the other, the data nest at most two levels deeper than those with which the run began
(`Handler.perform_grown`).  The records of a data node take two levels, one for the list and one
for the record made of the data, and a transform of these records takes no more, since it marks
objects without wrapping them.
-/

namespace StepFlow

/-! ## Transforms -/

namespace Transform

variable {n : Nat}

/-- A mark takes a level where there is no object to be marked. -/
theorem nesting_mark_le (record : Json) : (mark record).nesting ≤ record.nesting + 1 := by
  cases record with
  | object members =>
    refine Nat.succ_le_succ (Json.nestingMembers_le_iff.2 fun m hm => ?_)
    rcases Members.mem_put hm with rfl | hm
    · exact Nat.zero_le _
    · exact (Json.nestingMembers_le_iff.1 (Nat.le_refl _) m hm).trans (Nat.le_succ _)
  | _ => simp [mark, Json.nesting, Json.nestingMembers]

/-- A mark on an object takes no level. -/
theorem nesting_mark_object_le (members : List (String × Json)) :
    (mark (.object members)).nesting ≤ (Json.object members).nesting := by
  refine Nat.succ_le_succ (Json.nestingMembers_le_iff.2 fun m hm => ?_)
  rcases Members.mem_put hm with rfl | hm
  · exact Nat.zero_le _
  · exact Json.nestingMembers_le_iff.1 (Nat.le_refl _) m hm

/-- The records that a value holds nest no deeper than the value. -/
theorem nesting_le_of_mem_records {value record : Json} (h : record ∈ records value) :
    record.nesting ≤ value.nesting := by
  cases value with
  | array items =>
    exact (Json.nestingItems_le_iff.1 (Nat.le_refl _) record h).trans (Nat.le_succ _)
  | null => cases h
  | _ => exact (congrArg Json.nesting (List.mem_singleton.1 h)).le

/-- Records that nest at most `n` levels deep, marked or not. -/
def RecordsWithin (n : Nat) (value : Json) : Prop :=
  ∀ record ∈ records value, record.nesting ≤ n ∧ (mark record).nesting ≤ n

theorem recordsWithin_of_lt {value : Json} (h : value.nesting < n) : RecordsWithin n value := by
  intro record hrecord
  have hle := nesting_le_of_mem_records hrecord
  have hmark := nesting_mark_le record
  omega

theorem nesting_aggregate (field : String) (items : List Json) :
    (aggregate field items).nesting = 1 := by
  rw [aggregate, Json.nesting, Json.nestingMembers, Json.nestingMembers, Json.nestingMembers,
    Json.nesting_ofInt, Json.nesting_ofBinary64]
  rfl

/-- What a transform makes of records takes one level for their list. -/
theorem nesting_apply_le {value : Json} (hrecords : RecordsWithin n value)
    (hvalue : value.nesting ≤ n + 1) (kind field : String) :
    (apply kind field value).nesting ≤ n + 1 := by
  unfold apply
  split
  · refine Nat.succ_le_succ (Json.nestingItems_le_iff.2 fun item hitem => ?_)
    obtain ⟨record, hrecord, rfl⟩ := List.mem_map.1 hitem
    exact (hrecords record hrecord).2
  · refine Nat.succ_le_succ (Json.nestingItems_le_iff.2 fun item hitem => ?_)
    exact (hrecords item (List.mem_filter.1 hitem).1).1
  · rw [nesting_aggregate]
    exact Nat.succ_le_succ (Nat.zero_le _)
  · exact hvalue

end Transform

/-! ## Handlers -/

namespace Handler

open Transform

/-- The data have grown from the initial data by no more than two levels, and the records that
transforms find among them by none. -/
structure Grown (initialData context : Context) : Prop where
  nesting_le : context.toJson.nesting ≤ initialData.toJson.nesting + 2
  records_le : ∀ value, context.get? inputDataKey = some value →
    RecordsWithin initialData.toJson.nesting value

variable {initialData context patch : Context} {readings : Readings} {n : Node}

theorem grown_self (initialData : Context) : Grown initialData initialData where
  nesting_le := Nat.le_add_right _ _
  records_le := fun _ hvalue => recordsWithin_of_lt (Context.nesting_lt_of_get? hvalue)

theorem Grown.override (hcontext : Grown initialData context) (hpatch : Grown initialData patch) :
    Grown initialData (context.override patch) where
  nesting_le := Context.nesting_override_le hcontext.nesting_le hpatch.nesting_le
  records_le := fun value hvalue => by
    rw [Context.get?_override] at hvalue
    cases hnew : patch.get? inputDataKey with
    | some newer =>
      rw [hnew] at hvalue
      cases hvalue
      exact hpatch.records_le _ hnew
    | none =>
      rw [hnew] at hvalue
      exact hcontext.records_le value hvalue

/-- Records of which the initial data can be made part. -/
theorem grown_insert_records {value : Json}
    (hvalue : value.nesting ≤ initialData.toJson.nesting + 1)
    (hrecords : RecordsWithin initialData.toJson.nesting value.canonical) :
    Grown initialData (initialData.insert inputDataKey value) where
  nesting_le := Context.nesting_insert_le (Nat.le_add_right _ 2) hvalue
  records_le := fun found hfound => by
    rw [Context.get?_insert, if_pos rfl] at hfound
    cases hfound
    exact hrecords

/-- The records of a data node are those of the initial data, or one that is made of them. -/
theorem grown_dataInput (nodeId : String) (initialData : Context) :
    Grown initialData (dataInput nodeId initialData) := by
  unfold dataInput
  split
  · rename_i items hitems
    have hlt := Context.nesting_lt_of_get? hitems
    have hcanonical := (Json.array items).nesting_canonical_le
    exact grown_insert_records (by omega) (recordsWithin_of_lt (by omega))
  · obtain ⟨n, hn⟩ := Nat.exists_eq_add_one.2 initialData.nesting_pos
    have hid : (Context.single "id" (.string (nodeId ++ "-record-1"))).toJson.nesting ≤ n + 1 :=
      Context.nesting_insert_le (Nat.le_add_left 1 n) (Nat.zero_le _)
    have hrecord := Context.nesting_fill_le hid hn.le
    rw [← hn] at hrecord
    refine grown_insert_records ?_ fun item hitem => ?_
    · exact Nat.succ_le_succ (Json.nestingItems_le_iff.2 fun item hitem => by
        rwa [List.mem_singleton.1 hitem])
    · have hcanonical := (Json.nesting_canonical_le _).trans hrecord
      rw [List.mem_singleton.1 hitem]
      exact ⟨hcanonical, (nesting_mark_object_le _).trans hcanonical⟩

/-- A patch under names of its own. -/
theorem grown_ofMembers {members : List (String × Json)}
    (h : Json.nestingMembers members ≤ initialData.toJson.nesting + 1)
    (hnames : inputDataKey ∉ members.map Prod.fst) : Grown initialData (.ofMembers members) where
  nesting_le := Context.nesting_ofMembers_le h
  records_le := fun value hvalue => by
    rw [Context.get?_ofMembers_eq_none hnames] at hvalue
    cases hvalue

theorem grown_single {name : String} {value : Json}
    (h : value.nesting ≤ initialData.toJson.nesting + 1) (hname : name ≠ inputDataKey) :
    Grown initialData (.single name value) where
  nesting_le := Context.nesting_insert_le (Nat.le_add_left 1 _) h
  records_le := fun value hvalue => by
    rw [Context.get?_single, if_neg hname] at hvalue
    cases hvalue

theorem grown_decide {key rule : String} {o : Outcome} (hkey : key ≠ inputDataKey)
    (h : decide key rule context = .ok o) : Grown initialData o.patch := by
  obtain ⟨b, rfl⟩ := decide_eq_ok h
  have hlast : inputDataKey ≠ lastDecisionKey := by decide
  exact grown_ofMembers (Nat.zero_le _) (by simp [hkey.symm, hlast])

theorem grown_act {nodeId action : String} (h : act nodeId action = .ok patch) :
    Grown initialData patch := by
  obtain ⟨action, -, hpatch⟩ := exists_of_bind_eq_ok h
  cases hpatch
  exact grown_single (Nat.le_add_left 1 _) (by decide)

theorem grown_callApi {endpoint : String} {method? : Option String}
    (h : callApi endpoint method? = .ok patch) : Grown initialData patch := by
  have hpos := initialData.nesting_pos
  obtain ⟨endpoint, -, hpatch⟩ := exists_of_bind_eq_ok h
  cases hpatch
  refine grown_single ?_ (by decide)
  show 2 ≤ initialData.toJson.nesting + 1
  omega

theorem grown_notify {channel message : String}
    (h : notify readings channel message = .ok patch) : Grown initialData patch := by
  obtain ⟨channel, -, h⟩ := exists_of_bind_eq_ok h
  obtain ⟨message, -, hpatch⟩ := exists_of_bind_eq_ok h
  cases hpatch
  exact grown_single (Nat.le_add_left 1 _) (by decide)

/-- Transforms take the records that are among the data. -/
theorem grown_transform {kind : String} {field? : Option String} (hcontext : Grown initialData context)
    (h : transform kind field? context = .ok patch) : Grown initialData patch := by
  obtain ⟨kind, -, hpatch⟩ := exists_of_bind_eq_ok h
  cases hpatch
  have happly : (Transform.apply kind (field?.getD "value")
      ((context.get? inputDataKey).getD (.array []))).nesting ≤ initialData.toJson.nesting + 1 := by
    cases hfound : context.get? inputDataKey with
    | none => exact nesting_apply_le (fun record hrecord => by cases hrecord) (Nat.le_add_left 1 _) _ _
    | some value =>
      have hlt := Context.nesting_lt_of_get? hfound
      have hle := hcontext.nesting_le
      exact nesting_apply_le (hcontext.records_le value hfound) (by omega) _ _
  refine grown_ofMembers ?_ (by simp [inputDataKey])
  simp only [Json.nestingMembers, Json.nesting]
  omega

theorem grown_judge (readings : Readings) : Grown initialData (judge readings) := by
  refine grown_ofMembers ?_ (by simp [inputDataKey])
  simp [Json.nestingMembers, Json.nesting_ofBinary64, Json.nesting]

theorem grown_complete (hcontext : Grown initialData context) :
    Grown initialData (complete context).patch where
  nesting_le := Context.nesting_insert_le hcontext.nesting_le (Nat.zero_le _)
  records_le := fun value hvalue => by
    have hne : "completed" ≠ inputDataKey := by decide
    rw [complete, Context.get?_insert, if_neg hne] at hvalue
    exact hcontext.records_le value hvalue

/-- Whatever a node adds to data that have grown from the initial data has grown from them, too. -/
theorem perform_grown {o : Outcome} (hcontext : Grown initialData context)
    (h : perform readings n context initialData = .ok o) : Grown initialData o.patch := by
  have hmap {patch : Except StepFault Context}
      (hpatch : ∀ c, patch = .ok c → Grown initialData c)
      (h : patch.map Outcome.ofPatch = .ok o) : Grown initialData o.patch := by
    cases patch with
    | error fault => cases h
    | ok c => cases h; exact hpatch c rfl
  obtain ⟨id, label?, role⟩ := n
  unfold perform at h
  cases role with
  | input => cases h; exact grown_self initialData
  | dataInput => cases h; exact grown_dataInput id initialData
  | decision rule => exact grown_decide (by decide) h
  | ruleEngine rule => exact grown_decide (by decide) h
  | action what => exact hmap (fun _ => grown_act) h
  | apiCall endpoint method? => exact hmap (fun _ => grown_callApi) h
  | dataTransform kind field? => exact hmap (fun _ => grown_transform hcontext) h
  | judgment prompt? => cases h; exact grown_judge readings
  | notification channel message => exact hmap (fun _ => grown_notify) h
  | output => cases h; exact grown_complete hcontext
  | resultOutput => cases h; exact grown_complete hcontext
  | unsupported typeName config => cases h

end Handler

end StepFlow
