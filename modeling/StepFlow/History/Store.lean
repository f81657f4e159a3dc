import StepFlow.History.Table

/-!
# The history store

The store keeps the rows of finished runs up to a capacity. A row gets a number when it comes,
the one after the greatest number among the rows that are there. The newest row is the one
whose run started last, and of runs that started at the same time the one with the greatest
number. When there are too many rows, the oldest go.
-/

namespace StepFlow.History

/-- The store: its rows, the first that came in front, and how many it keeps. -/
structure Store where
  rows : List Row
  capacity : Nat
deriving DecidableEq

namespace Store

/-- The capacity of a store unless it is told otherwise. -/
def defaultCapacity : Nat := 50

/-- A store without rows. -/
def empty (capacity : Nat) : Store := ⟨[], capacity⟩

/-! ### Order -/

/-- Whether the first row may stand before the second in a listing: its run started later, or
at the same time while the row came no earlier. -/
def noOlder (a b : Row) : Bool :=
  b.startedAt < a.startedAt || (b.startedAt == a.startedAt && b.number ≤ a.number)

/-- The rows, the newest first. -/
def newestFirst (rows : List Row) : List Row := rows.mergeSort noOlder

/-- The rows, the oldest first. -/
def oldestFirst (rows : List Row) : List Row := rows.mergeSort fun a b => noOlder b a

/-- The number of the next row. -/
def nextNumber (rows : List Row) : Nat := (rows.map (·.number)).foldl max 0 + 1

/-! ### Changes -/

/-- The store with no more than a number of rows, and how many had to go. -/
def clearOld (s : Store) (keep : Nat) : Store × Nat :=
  if s.rows.length ≤ keep then (s, 0)
  else
    let excess := s.rows.length - keep
    let doomed := ((oldestFirst s.rows).take excess).map (·.number)
    let kept := s.rows.filter fun row => row.number ∉ doomed
    ({ s with rows := kept }, s.rows.length - kept.length)

/-- Stores a record under an identifier that must be new, and keeps to the capacity. -/
def save (s : Store) (r : Record) : Except StoreError Store :=
  if s.rows.any (·.id == r.id) then .error (.conflict r.id)
  else
    let row := Row.ofRecord (nextNumber s.rows) r
    .ok ({ s with rows := s.rows ++ [row] }.clearOld s.capacity).1

/-- Removes a record; there need not be one. -/
def delete (s : Store) (id : String) : Store := { s with rows := s.rows.filter (·.id != id) }

/-- Removes all records. -/
def clear (s : Store) : Store := { s with rows := [] }

/-! ### Queries -/

/-- The newest records, up to a limit. -/
def list (s : Store) (limit : Nat) : Except StoreError (List Record) :=
  ((newestFirst s.rows).take limit).mapM Row.toRecord

/-- The record with an identifier. -/
def get? (s : Store) (id : String) : Except StoreError (Option Record) :=
  match s.rows.find? (·.id == id) with
  | none => .ok none
  | some row => row.toRecord.map some

/-- The newest records of a workflow, up to a limit. The durations of all its rows must be
sound, also of those beyond the limit. -/
def listWorkflow (s : Store) (workflowId : String) (limit : Nat) :
    Except StoreError (List Record) := do
  let rows := s.rows.filter (·.workflowId == workflowId)
  let _ ← rows.mapM fun row => Row.durationOf row.duration
  ((newestFirst rows).take limit).mapM Row.toRecord

/-- Counts a row by its status. -/
def count (statistics : Statistics) (row : Row) : Except StoreError Statistics :=
  match Status.ofName? row.status with
  | some status => .ok (statistics.add status 1)
  | none => .error (.uncountedStatus row.status)

/-- The statistics of all rows. Of several names that are not a status the least one is
reported. -/
def statistics (s : Store) : Except StoreError Statistics :=
  (s.rows.mergeSort fun a b => a.status ≤ b.status).foldlM count .empty

end Store

end StepFlow.History
