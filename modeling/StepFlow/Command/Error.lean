import StepFlow.Command.Files
import StepFlow.Graph.Validation
import StepFlow.History.Table
import StepFlow.Runner.Local

/-!
# Errors of commands

Why a command failed, as a chain of texts: what was being done, and behind it the cause.
-/

namespace StepFlow

/-- Why a command failed. -/
inductive CommandError where
  | unreadable (purpose path : String) (fault : FileFault)
  | badSettings (path : String) (cause : DecodeError)
  | workflow (cause : WorkflowError)
  | badData (cause : DecodeError)
  | dataNotObject (value : Json)
  | start (cause : StartFault)
  | store (cause : History.StoreError)
  | recordNotFound (id : String)
  | noDirectory (path : String) (fault : FileFault)
  /-- The file of the history cannot be opened. -/
  | closedHistory (path reason : String)
deriving DecidableEq

namespace CommandError

/-- The texts of an error, the last cause at the end. -/
def chain : CommandError → List String
  | unreadable purpose path fault => ["reading " ++ purpose ++ " " ++ path, fault.message]
  | badSettings path cause => ["parsing config " ++ path, cause.message]
  | workflow (.malformed cause) => [(WorkflowError.malformed cause).message, cause.message]
  | workflow cause => [cause.message]
  | badData cause => [cause.message]
  | dataNotObject value => ["initial data must be a JSON object, got " ++ value.compact]
  | start cause => [cause.message]
  | store cause => [cause.message]
  | recordNotFound id => ["history not found: " ++ id]
  | noDirectory path fault => ["creating " ++ path, fault.message]
  | closedHistory path reason => ["opening history store " ++ path, "database error: " ++ reason]

/-- The text of an error without its causes. -/
def message (e : CommandError) : String := e.chain.headD ""

/-- The text of an error with its causes behind it. -/
def fullMessage (e : CommandError) : String := ": ".intercalate e.chain

/-- A text whose lines after the first stand below its beginning. -/
def indented (width : Nat) (text : String) : String :=
  text.replace "\n" ("\n" ++ String.ofList (List.replicate width ' '))

/-- A cause with its number. -/
def numberedCause (number : Nat) (cause : String) : String :=
  let digits := toString number
  String.ofList (List.replicate (5 - digits.length) ' ') ++ digits ++ ": " ++ indented 7 cause

/-- The causes below an error, with numbers if there are several. -/
def causeLines : List String → String
  | [] => ""
  | [cause] => "\n\nCaused by:\n    " ++ indented 4 cause
  | causes =>
    "\n\nCaused by:" ++
      String.join (causes.zipIdx.map fun (cause, i) => "\n" ++ numberedCause i cause)

/-- The error as a program reports it before it ends. -/
def report (e : CommandError) : String :=
  "Error: " ++ e.message ++ causeLines e.chain.tail ++ "\n"

end CommandError

end StepFlow
