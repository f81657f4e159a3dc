import StepFlow.Command.History

/-!
# Command lines

A command line names a command, and gives it operands and options. Options start with two
dashes; the value of one follows it, or is written behind an equals sign. An argument that
is only two dashes makes everything after it an operand. The file of settings may be named
anywhere; where it is named more than once, the innermost command counts. Arguments are read
from left to right, and the first fault is reported.
-/

namespace StepFlow.Command

/-! ### Parameters -/

/-- What the value of a parameter may be. -/
inductive ValueKind where
  /-- There is no value. -/
  | flag
  | text
  /-- A path, which is not empty. -/
  | path
  /-- A number below `2 ^ 64`. -/
  | count
deriving DecidableEq

/-- An operand or an option of a command. -/
structure Parameter where
  name : String
  kind : ValueKind

/-- Why a command line cannot be carried out. The first two ask for a text. -/
inductive ArgumentFault where
  | help
  | version
  | unknown (argument : String)
  | repeated (name : String)
  | missing (name : String)
  | badValue (name value : String)
deriving DecidableEq

/-- The wording of a fault. -/
def ArgumentFault.message : ArgumentFault → String
  | help => ""
  | version => ""
  | unknown argument => "unexpected argument " ++ Text.quote argument
  | repeated name => name ++ " is given more than once"
  | missing name => name ++ " is missing"
  | badValue name value => "invalid value " ++ Text.quote value ++ " for " ++ name

/-- The number that a text spells in decimal digits, perhaps after a plus sign. -/
def countOf? (text : String) : Option Nat :=
  let ds := match text.toList with
    | '+' :: ds => ds
    | ds => ds
  if ds.isEmpty || !ds.all Char.isDigit then none
  else
    let n := Nat.ofDigitChars 10 ds 0
    if n < 0x10000000000000000 then some n else none

/-- Whether a kind admits a value. -/
def ValueKind.admits (kind : ValueKind) (value : String) : Bool :=
  match kind with
  | flag => value.isEmpty
  | text => true
  | path => !value.isEmpty
  | count => (countOf? value).isSome

/-- The values given so far, under the names of their parameters. -/
abbrev Given := List (String × String)

/-- Records the value of a parameter. -/
def Given.put (given : Given) (p : Parameter) (value : String) : Except ArgumentFault Given :=
  if (given.lookup p.name).isSome then .error (.repeated p.name)
  else if p.kind.admits value then .ok ((p.name, value) :: given)
  else .error (.badValue p.name value)

/-! ### Reading arguments -/

/-- An argument by its form. -/
inductive Argument where
  /-- Two dashes and nothing else. -/
  | separator
  /-- A name after two dashes, perhaps with a value. -/
  | long (name : String) (value? : Option String)
  /-- A letter after one dash. -/
  | short (letter : Char)
  | plain (text : String)

/-- The form of an argument. -/
def Argument.ofText (text : String) : Argument :=
  match text.toList with
  | ['-', '-'] => separator
  | '-' :: '-' :: cs =>
    let name := String.ofList (cs.takeWhile (· != '='))
    match cs.dropWhile (· != '=') with
    | _ :: value => long name (some (String.ofList value))
    | [] => long name none
  | '-' :: c :: _ => short c
  | _ => plain text

/-- The parameter of a name. -/
def parameter? (parameters : List Parameter) (name : String) : Option Parameter :=
  parameters.find? (·.name == name)

/-- What an option amounts to, given the argument after it: the values with its own, and
whether it took that argument. -/
def takeOption (options : List Parameter) (given : Given) (name : String)
    (value? next? : Option String) : Except ArgumentFault (Given × Bool) :=
  match parameter? options name with
  | none =>
    match name, value? with
    | "help", none => .error .help
    | "version", none => .error .version
    | _, _ => .error (.unknown ("--" ++ name))
  | some p =>
    if p.kind = .flag then
      match value? with
      | some _ => .error (.unknown ("--" ++ name))
      | none => (given.put p "").map fun given => (given, false)
    else
      match value? with
      | some value => (given.put p value).map fun given => (given, false)
      | none =>
        match next?.map Argument.ofText with
        | some (.plain value) => (given.put p value).map fun given => (given, true)
        | _ => .error (.missing ("the value of --" ++ name))

/-- The fault of an argument with one dash. -/
def shortFault : Char → ArgumentFault
  | 'h' => .help
  | 'V' => .version
  | c => .unknown ("-" ++ String.singleton c)

/-- Reads the options in front of a command name: the values given, the name, and what
follows it. -/
def readCommandName (options : List Parameter) :
    Given → List String → Except ArgumentFault (Given × String × List String)
  | _, [] => .error (.missing "the command")
  | given, argument :: rest =>
    match Argument.ofText argument with
    | .plain name => .ok (given, name, rest)
    | .short c => .error (shortFault c)
    | .separator => .error (.missing "the command")
    | .long name value? =>
      match takeOption options given name value? rest.head? with
      | .error fault => .error fault
      | .ok (given, false) => readCommandName options given rest
      | .ok (given, true) =>
        match rest with
        | [] => .error (.missing "the command")
        | _ :: rest => readCommandName options given rest

/-- Gives an operand its value. -/
def takeOperand (given : Given) (value : String) :
    List Parameter → Except ArgumentFault (Given × List Parameter)
  | [] => .error (.unknown value)
  | p :: operands => (given.put p value).map fun given => (given, operands)

/-- Reads operands where nothing is an option. -/
def readOperands (given : Given) : List Parameter → List String → Except ArgumentFault Given
  | [], [] => .ok given
  | p :: _, [] => .error (.missing p.name)
  | operands, value :: rest => do
    let (given, operands) ← takeOperand given value operands
    readOperands given operands rest

/-- Reads the operands and options of a command. -/
def readArguments (options : List Parameter) :
    Given → List Parameter → List String → Except ArgumentFault Given
  | given, operands, [] => readOperands given operands []
  | given, operands, argument :: rest =>
    match Argument.ofText argument with
    | .plain value =>
      match takeOperand given value operands with
      | .error fault => .error fault
      | .ok (given, operands) => readArguments options given operands rest
    | .short c => .error (shortFault c)
    | .separator => readOperands given operands rest
    | .long name value? =>
      match takeOption options given name value? rest.head? with
      | .error fault => .error fault
      | .ok (given, false) => readArguments options given operands rest
      | .ok (given, true) =>
        match rest with
        | [] => readOperands given operands []
        | _ :: rest => readArguments options given operands rest

/-! ### Commands -/

/-- What is wanted of a run: the files, where steps are executed, and whether a record is
kept. -/
structure RunRequest where
  workflow : String
  data? : Option String
  remote? : Option String
  saves : Bool
deriving DecidableEq

/-- What is wanted of the program. -/
inductive Request where
  | run (request : RunRequest)
  | history (command : HistoryCommand)
deriving DecidableEq

/-- A command line: the file of settings, if one is named, and what is wanted. -/
structure Invocation where
  settings? : Option String
  request : Request
deriving DecidableEq

namespace Invocation

/-- The option that names the file of settings. -/
def settingsOption : Parameter := ⟨"config", .path⟩

/-- The option that limits a listing. -/
def limitOption : Parameter := ⟨"limit", .count⟩

/-- The value of a parameter that a command line must give. -/
def valueOf (given : Given) (name : String) : String := (given.lookup name).getD ""

/-- The limit of a listing. -/
def limitOf? (given : Given) : Option Nat := (given.lookup limitOption.name).bind countOf?

/-- The operands and options of a command, and what the values given make of it. -/
structure Signature where
  operands : List Parameter
  options : List Parameter
  build : Given → Request

/-- The command that runs a workflow. -/
def runSignature : Signature where
  operands := [⟨"workflow", .path⟩]
  options := [⟨"data", .path⟩, ⟨"remote", .text⟩, ⟨"no-save", .flag⟩]
  build given :=
    .run
      { workflow := valueOf given "workflow"
        data? := given.lookup "data"
        remote? := given.lookup "remote"
        saves := (given.lookup "no-save").isNone }

/-- The signature of a command about recorded runs. -/
def historySignature? : String → Option Signature
  | "list" => some ⟨[], [limitOption], fun given => .history (.list (limitOf? given))⟩
  | "show" => some ⟨[⟨"id", .text⟩], [], fun given => .history (.detail (valueOf given "id"))⟩
  | "workflow" =>
    some ⟨[⟨"workflow-id", .text⟩], [limitOption], fun given =>
      .history (.workflow (valueOf given "workflow-id") (limitOf? given))⟩
  | "delete" => some ⟨[⟨"id", .text⟩], [], fun given => .history (.delete (valueOf given "id"))⟩
  | "clear" => some ⟨[], [], fun _ => .history .clear⟩
  | "stats" => some ⟨[], [], fun _ => .history .stats⟩
  | "export" => some ⟨[], [limitOption], fun given => .history (.exportAll (limitOf? given))⟩
  | _ => none

/-- Reads the arguments of a command. -/
def ofSignature (s : Signature) (arguments : List String) :
    Except ArgumentFault (Option String × Request) := do
  let given ← readArguments (settingsOption :: s.options) [] s.operands arguments
  .ok (given.lookup settingsOption.name, s.build given)

/-- What a request for help about a command comes to; the command must be known. -/
def helpFault : List String → ArgumentFault
  | [] => .help
  | ["run"] => .help
  | ["history"] => .help
  | ["help"] => .help
  | ["history", name] =>
    if name = "help" || (historySignature? name).isSome then .help else .unknown name
  | name :: _ => .unknown name

/-- Reads what follows the name of the group of commands about recorded runs. -/
def ofHistory (arguments : List String) : Except ArgumentFault (Option String × Request) := do
  let (given, name, rest) ← readCommandName [settingsOption] [] arguments
  match historySignature? name with
  | some s =>
    let (settings?, request) ← ofSignature s rest
    .ok (settings? <|> given.lookup settingsOption.name, request)
  | none =>
    .error (if name = "help" then helpFault ("history" :: rest) else .unknown name)

/-- Reads a command line. -/
def ofArguments (arguments : List String) : Except ArgumentFault Invocation := do
  let (given, name, rest) ← readCommandName [settingsOption] [] arguments
  let (settings?, request) ← match name with
    | "run" => ofSignature runSignature rest
    | "history" => ofHistory rest
    | "help" => .error (helpFault rest)
    | _ => .error (.unknown name)
  .ok ⟨settings? <|> given.lookup settingsOption.name, request⟩

end Invocation

end StepFlow.Command
