import StepFlow.History.Record

/-!
# Reports

The texts that the commands show: the log of a run, a table of records, one record in full,
and statistics.
-/

namespace StepFlow.Report

/-- A text with blanks behind it up to a width. -/
def padRight (width : Nat) (s : String) : String :=
  s ++ String.ofList (List.replicate (width - s.length) ' ')

/-- A text with blanks before it up to a width. -/
def padLeft (width : Nat) (s : String) : String :=
  String.ofList (List.replicate (width - s.length) ' ') ++ s

/-- The mark of a status in a log. -/
def marker : StepStatus → String
  | .success => "ok"
  | .error => "ERR"
  | .pending => ".."
  | .running => ".."
  | .skipped => "skip"

/-- The line of a step in a log. -/
def stepLine (index : Nat) (s : Step) : String :=
  "[" ++ padLeft 3 (toString index) ++ "] " ++ padRight 4 (marker s.status) ++ " " ++
    s.nodeName ++ " (" ++ s.nodeType ++ ") " ++ toString s.elapsedMs.toNat ++ "ms" ++
    match s.error? with
    | some text => ": " ++ text
    | none => ""

/-- The lines of a log from an index on. -/
def logFrom (index : Nat) : List Step → String
  | [] => ""
  | s :: rest => stepLine index s ++ "\n" ++ logFrom (index + 1) rest

/-- The log of a run, one step after the other. -/
def log (r : Run) : String := logFrom 0 r.steps

open History

/-- The row of a record in a table. -/
def recordLine (r : Record) : String :=
  r.id ++ "  " ++ r.startedAt.listingText ++ "  " ++ padRight 8 r.status.name ++ " " ++
    padLeft 3 (toString r.steps.length) ++ " steps  " ++ r.workflowName

/-- A table of records. -/
def table (records : List Record) : String :=
  if records.isEmpty then "no history\n"
  else String.join (records.map fun r => recordLine r ++ "\n")

/-- One record in full. -/
def record (r : Record) : String :=
  "id:        " ++ r.id ++ "\n" ++
    "workflow:  " ++ r.workflowName ++ " (" ++ r.workflowId ++ ")\n" ++
    "started:   " ++ r.startedAt.offsetText ++ "\n" ++
    "duration:  " ++ toString r.durationMs.toNat ++ "ms\n" ++
    "status:    " ++ r.status.name ++ "\n" ++ log r.finalState

/-- The statistics, one number to a line. -/
def statistics (s : Statistics) : String :=
  "total: " ++ toString s.total.toNat ++ "\nsuccess: " ++ toString s.success.toNat ++
    "\nerror: " ++ toString s.error.toNat ++ "\npartial: " ++ toString s.unfinished.toNat ++ "\n"

/-- The last line about a run: its identifier, how it ended, and how long it took. -/
def summary (r : Record) : String :=
  r.id ++ " `" ++ r.workflowName ++ "` finished with status " ++ r.status.name ++ " in " ++
    toString r.durationMs.toNat ++ "ms\n"

end StepFlow.Report
