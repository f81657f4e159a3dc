import StepFlow.Command.Error
import StepFlow.Command.Report
import StepFlow.History.Store

/-!
# History commands

What the program can be asked about recorded runs, and the text with which it answers.
-/

namespace StepFlow.Command

open History

/-- A request about recorded runs. -/
inductive HistoryCommand where
  | list (limit? : Option Nat)
  | detail (id : String)
  | workflow (id : String) (limit? : Option Nat)
  | delete (id : String)
  | clear
  | stats
  | exportAll (limit? : Option Nat)
deriving DecidableEq, Repr

/-- The limits of listings that are not given one: of all runs, and of those of a
workflow. -/
structure Limits where
  list : Nat
  workflow : Nat

namespace HistoryCommand

/-- A text about a store that stays as it is. -/
def unchanged (s : Store) (text : Except CommandError String) :
    Except CommandError (Store × String) :=
  text.map fun text => (s, text)

/-- The text about one record. -/
def showRecord (s : Store) (id : String) : Except CommandError String := do
  match ← (s.get? id).mapError .store with
  | some r => .ok (Report.record r)
  | none => .error (.recordNotFound id)

/-- Carries out a request: the store after it, and the text of the answer. -/
def run (limits : Limits) (s : Store) : HistoryCommand → Except CommandError (Store × String)
  | list limit? =>
    unchanged s (((s.list (limit?.getD limits.list)).mapError .store).map Report.table)
  | detail id => unchanged s (showRecord s id)
  | workflow id limit? =>
    unchanged s
      (((s.listWorkflow id (limit?.getD limits.workflow)).mapError .store).map Report.table)
  | delete id => .ok (s.delete id, "deleted " ++ id ++ "\n")
  | clear => .ok (s.clear, "history cleared\n")
  | stats => unchanged s ((s.statistics.mapError .store).map Report.statistics)
  | exportAll limit? =>
    unchanged s (((s.list (limit?.getD limits.list)).mapError .store).map exportText)

end HistoryCommand

end StepFlow.Command
