import StepFlow.Command.Report
import StepFlow.Command.Settings
import StepFlow.Command.World
import StepFlow.Graph.Format
import StepFlow.Http.Address
import StepFlow.Runner.Drive

/-!
# Running a workflow from files

The command that loads a workflow and the data to begin with, drives the run to its end and
makes a record of it.
-/

namespace StepFlow.Command

variable {m : Type → Type} [Monad m]

/-- The valid workflow in a file. -/
def loadWorkflow (read : FileReader m) (fresh : Nat → String) (path : String) :
    ExceptT CommandError m Workflow := do
  match ← read path with
  | .error fault => throw (.unreadable "workflow" path fault)
  | .ok text =>
    match Workflow.ofText fresh text with
    | .error cause => throw (.workflow cause)
    | .ok w =>
      match w.validate with
      | .error cause => throw (.workflow cause)
      | .ok () => pure w

/-- The data that a text describes, which must be an object. -/
def dataOfText (text : String) : Except CommandError Context :=
  match Decoder.json.ofText text with
  | .error cause => .error (.badData cause)
  | .ok (.object members) => .ok (.ofMembers members)
  | .ok value => .error (.dataNotObject value.canonical)

/-- The data in a file; without a file there are none. -/
def loadData (read : FileReader m) : Option String → ExceptT CommandError m Context
  | none => pure .empty
  | some path => do
    match ← read path with
    | .error fault => throw (.unreadable "initial data" path fault)
    | .ok text =>
      match dataOfText text with
      | .error e => throw e
      | .ok c => pure c

/-- Drives a run to its end. -/
def finalState {σ : Type} (d : Drivable m σ) (maxSteps : Nat) (s : σ) :
    ExceptT CommandError m Run := do
  match ← d.drive maxSteps s with
  | .error fault => throw (.start fault)
  | .ok s => pure (d.run s)

/-- The milliseconds between two readings of a clock; if they are more than sixty-four bits hold,
the greatest number that these hold. -/
def millisecondsBetween (begun ended : Nat) : UInt64 :=
  .ofNat (min (ended - begun) (UInt64.size - 1))

theorem toNat_millisecondsBetween (begun ended : Nat) :
    (millisecondsBetween begun ended).toNat = min (ended - begun) (UInt64.size - 1) :=
  UInt64.toNat_ofNat_of_lt' (Nat.lt_of_le_of_lt (Nat.min_le_right _ _) (by decide))

/-- Drives a run of a workflow to its end, at a remote address if one is given, and makes a
record of it. -/
def execute (world : World m) (settings : Settings) (w : Workflow) (initialData : Context)
    (remote? : Option String) : ExceptT CommandError m History.Record := do
  let now : m Instant := do
    let readings ← world.readings
    pure readings.now
  let startedAt ← now
  let begun ← world.milliseconds
  let final ← match remote? with
    | some base =>
      let timeoutMs := settings.remote.timeoutMs
      finalState (RemoteRunner.drivable now (world.ask (Http.endpoint base) timeoutMs))
        settings.maxSteps (.new w initialData timeoutMs)
    | none =>
      finalState (LocalRunner.drivable world.readings) settings.maxSteps (.new w initialData)
  let ended ← world.milliseconds
  let ids ← world.fresh
  pure (.ofRun (ids 0) w initialData startedAt final (millisecondsBetween begun ended))

/-- The report of a run: its log, its summary, and a remark if it was not saved. -/
def runReport (r : History.Record) (saved : Bool) : String :=
  Report.log r.finalState ++ Report.summary r ++ (if saved then "" else "(not saved)\n")

end StepFlow.Command
