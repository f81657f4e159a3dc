import StepFlow.Command.Error
import StepFlow.Decode.Fields
import StepFlow.History.Store
import StepFlow.Runner.Remote

/-!
# Settings

What the program can be told by a file: where its data are, how much history it keeps and
shows, how many steps a run may take, and where steps are executed. Every setting has a
value of its own for when the file does not give one. The directory named by the environment
counts more than the one in the file.
-/

namespace StepFlow

/-- Where steps are executed: at an address, or in the program itself if there is none. -/
structure RemoteSettings where
  baseUrl? : Option String
  timeoutMs : UInt64
deriving DecidableEq

/-- The settings of the program. -/
structure Settings where
  dataDir? : Option String
  historyPath? : Option String
  maxHistory : Nat
  listLimit : Nat
  workflowListLimit : Nat
  maxSteps : Nat
  remote : RemoteSettings
deriving DecidableEq

/-- The settings for execution where none are given. -/
def RemoteSettings.default : RemoteSettings := ⟨none, RemoteRunner.defaultTimeoutMs⟩

namespace Settings

/-- The settings where none are given. -/
def default : Settings := ⟨none, none, History.Store.defaultCapacity, 20, 10, 1000, .default⟩

/-! ### Written settings -/

/-- The fields of written settings for execution. -/
def remoteFields : Fields RemoteSettings :=
  ((Fields.defaulted "base_url" (Decoder.optional Decoder.string)
      RemoteSettings.default.baseUrl?).both <|
    Fields.defaulted "timeout_ms" Decoder.uint64 RemoteSettings.default.timeoutMs).map
    fun (baseUrl?, timeoutMs) => ⟨baseUrl?, timeoutMs⟩

/-- The fields of written settings. -/
def fields : Fields Settings :=
  ((Fields.defaulted "data_dir" (Decoder.optional Decoder.path) default.dataDir?).both <|
    (Fields.defaulted "history_db" (Decoder.optional Decoder.path) default.historyPath?).both <|
      (Fields.defaulted "max_history" Decoder.count default.maxHistory).both <|
        (Fields.defaulted "list_limit" Decoder.count default.listLimit).both <|
          (Fields.defaulted "workflow_list_limit" Decoder.count default.workflowListLimit).both <|
            (Fields.defaulted "max_steps" Decoder.count default.maxSteps).both <|
              Fields.defaulted "remote" (remoteFields.decoder "RemoteConfig") default.remote).map
    fun (dataDir?, historyPath?, maxHistory, listLimit, workflowListLimit, maxSteps, remote) =>
      ⟨dataDir?, historyPath?, maxHistory, listLimit, workflowListLimit, maxSteps, remote⟩

/-- Reads settings. -/
def decoder : Decoder Settings := fields.decoder "AppConfig"

/-- The settings as they are written. -/
def toJson (s : Settings) : Json :=
  .object
    [("data_dir", .ofString? s.dataDir?), ("history_db", .ofString? s.historyPath?),
      ("max_history", .ofInt s.maxHistory), ("list_limit", .ofInt s.listLimit),
      ("workflow_list_limit", .ofInt s.workflowListLimit), ("max_steps", .ofInt s.maxSteps),
      ("remote", .object
        [("base_url", .ofString? s.remote.baseUrl?),
          ("timeout_ms", .ofUInt64 s.remote.timeoutMs)])]

/-! ### Paths -/

/-- The directory of the platform for the program's data, given the directories for data and
for the user that the environment names. -/
def platformDir (data? home? : Option String) : String :=
  match data?.filter (·.startsWith "/"), home?.filter fun home => !home.isEmpty with
  | some data, _ => Path.below data "judgify"
  | none, some home => Path.below (Path.below home ".local/share") "judgify"
  | none, none => "."

/-- The directory of the program's data, given the one of the platform. -/
def dataDir (platformDir : String) (s : Settings) : String := s.dataDir?.getD platformDir

/-- The file of the history. -/
def historyPath (platformDir : String) (s : Settings) : String :=
  s.historyPath?.getD (Path.below (s.dataDir platformDir) "history.db")

/-! ### Loading -/

variable {m : Type → Type} [Monad m]

/-- The settings that a file holds. -/
def ofFile (read : FileReader m) (path : String) : ExceptT CommandError m Settings := do
  match ← read path with
  | .error fault => throw (.unreadable "config" path fault)
  | .ok text =>
    match decoder.ofText text with
    | .error cause => throw (.badSettings path cause)
    | .ok settings => pure settings

/-- The file of settings in a directory. -/
def implicitPath (dir : String) : String := Path.below dir "config.json"

/-- Loads the settings from the file that is named, or else from the one in the data
directory if there is one. -/
def load (read : FileReader m) (explicit? environmentDir? : Option String)
    (platformDir : String) : ExceptT CommandError m Settings := do
  let baseDir := environmentDir?.getD platformDir
  let settings ← match explicit? with
    | some path => ofFile read path
    | none =>
      match ← read (implicitPath baseDir) with
      | .ok _ => ofFile read (implicitPath baseDir)
      | .error _ => pure default
  pure { settings with dataDir? := environmentDir? <|> settings.dataDir? <|> some baseDir }

end Settings

end StepFlow
