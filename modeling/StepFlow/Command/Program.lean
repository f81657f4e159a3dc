import StepFlow.Command.Arguments
import StepFlow.Command.Run
import StepFlow.History.File

/-!
# The program

From a command line to an exit code and what is printed. The settings are loaded and the
history is opened before the command itself begins, so their faults come first.
-/

namespace StepFlow.Command

variable {m : Type → Type} [Monad m]

/-! ### The history -/

/-- Whether a path stands for a file; others stand for a history that nobody keeps. -/
def isKept (path : String) : Bool := path != "" && path != ":memory:"

/-- The rows in the file of the history. A file that is not there has none. -/
def loadRows (world : World m) (path : String) : ExceptT CommandError m (List History.Row) := do
  if isKept path then
    match ← world.read path with
    | .error .missing => pure []
    | .error .isDirectory =>
      throw (.closedHistory path ("unable to open database file: " ++ path))
    | .error fault => throw (.closedHistory path fault.message)
    | .ok text =>
      match History.Row.ofFileText? text with
      | none => throw (.closedHistory path "file is not a database")
      | some rows => pure rows
  else pure []

/-- Opens the history, for which its directory is made if need be. -/
def openHistory (world : World m) (settings : Settings) :
    ExceptT CommandError m History.Store := do
  let path := settings.historyPath world.platformDir
  match Path.parent? path with
  | none => pure ()
  | some dir =>
    match ← world.createDirectory dir with
    | .error fault => throw (.noDirectory dir fault)
    | .ok () => pure ()
  let rows ← loadRows world path
  pure ⟨rows, settings.maxHistory⟩

/-- Writes the history back. -/
def keepHistory (world : World m) (settings : Settings) (s : History.Store) :
    ExceptT CommandError m Unit := do
  let path := settings.historyPath world.platformDir
  if isKept path then
    match ← world.write path (History.Row.fileText s.rows) with
    | .error fault => throw (.closedHistory path fault.message)
    | .ok () => pure ()

/-! ### Commands -/

/-- Runs a workflow and gives the report. -/
def runWorkflow (world : World m) (settings : Settings) (s : History.Store) (r : RunRequest) :
    ExceptT CommandError m String := do
  let ids ← world.fresh
  let w ← loadWorkflow world.read ids r.workflow
  let initialData ← loadData world.read r.data?
  let record ← execute world settings w initialData (r.remote? <|> settings.remote.baseUrl?)
  if r.saves then
    match s.save record with
    | .error cause => throw (.store cause)
    | .ok s => keepHistory world settings s
  pure (runReport record r.saves)

/-- Carries out a request about recorded runs. -/
def browse (world : World m) (settings : Settings) (s : History.Store) (c : HistoryCommand) :
    ExceptT CommandError m String := do
  match c.run ⟨settings.listLimit, settings.workflowListLimit⟩ s with
  | .error e => throw e
  | .ok (changed, text) =>
    unless changed = s do keepHistory world settings changed
    pure text

/-- Carries out a command line. -/
def perform (world : World m) (i : Invocation) : ExceptT CommandError m String := do
  let settings ← Settings.load world.read i.settings? world.environmentDir? world.platformDir
  let s ← openHistory world settings
  match i.request with
  | .run r => runWorkflow world settings s r
  | .history c => browse world settings s c

/-! ### Exit codes -/

/-- How a program ends: its exit code, and what it has printed. -/
structure Ending where
  exitCode : Nat
  output : String
  errors : String
deriving DecidableEq

/-- The name and the version of the program. -/
def versionText : String := "judgify-sim 0.1.0\n"

/-- How the program is used. -/
def usageText : String :=
  "Usage: judgify-sim [--config FILE] COMMAND\n\n" ++
    "  run WORKFLOW [--data FILE] [--remote URL] [--no-save]\n" ++
    "  history list [--limit N]\n" ++
    "  history show ID\n" ++
    "  history workflow WORKFLOW_ID [--limit N]\n" ++
    "  history delete ID\n" ++
    "  history clear\n" ++
    "  history stats\n" ++
    "  history export [--limit N]\n"

/-- The program: what becomes of a list of arguments. -/
def program (world : World m) (arguments : List String) : m Ending := do
  match Invocation.ofArguments arguments with
  | .error .help => pure ⟨0, usageText, ""⟩
  | .error .version => pure ⟨0, versionText, ""⟩
  | .error fault => pure ⟨2, "", "error: " ++ fault.message ++ "\n\n" ++ usageText⟩
  | .ok invocation =>
    match ← (perform world invocation).run with
    | .ok text => pure ⟨0, text, ""⟩
    | .error e => pure ⟨1, "", e.report⟩

end StepFlow.Command
