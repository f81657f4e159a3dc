import StepFlow.Command.Program
import StepFlow.Http.Message
import StepFlow.Http.Response
import StepFlow.Identifier
import Std.Async.DNS
import Std.Async.TCP
import Std.Time.DateTime

/-!
# The program on a machine

The world of the commands as a machine gives it: its files, its clocks, its network and its
source of random bytes.
-/

namespace StepFlow.Machine

open Std.Async
open Std.Net (IPAddr SocketAddress)

/-! ### Files -/

/-- The fault that an error of the machine stands for. -/
def fileFault : IO.Error → FileFault
  | .noFileOrDirectory .. => .missing
  | .permissionDenied .. => .denied
  | .alreadyExists .. => .present
  | .inappropriateType _ code _ => if code = 20 then .notDirectory else .isDirectory
  | e => .other (toString e)

/-- Carries out an action on files. -/
def onFiles {α : Type} (action : IO α) : IO (Except FileFault α) := do
  try
    let x ← action
    return .ok x
  catch e => return .error (fileFault e)

/-- Reads the text of a file. -/
def read (path : String) : IO (Except FileFault String) := do
  match ← onFiles (IO.FS.readBinFile path) with
  | .error fault => return .error fault
  | .ok bytes =>
    match String.fromUTF8? bytes with
    | some text => return .ok text
    | none => return .error .notText

/-! ### Clocks and chances -/

/-- The present time. -/
def now : IO Instant := do
  let t ← Std.Time.Timestamp.now
  return .ofNanoseconds t.toNanosecondsSinceUnixEpoch.val

/-- A judgment drawn at random. -/
def drawVerdict : IO Verdict := do
  match ← IO.rand 0 2 with
  | 0 => return .pass
  | 1 => return .fail
  | _ => return .review

/-- The readings for a step; its handler takes no time worth measuring. -/
def readings : IO Readings := do
  let now ← now
  let verdict ← drawVerdict
  let percent ← IO.rand 0 100
  return ⟨now, 0, verdict, .ofRatio false percent 100⟩

/-- Identifiers that begin at a random place. -/
def fresh : IO (Nat → String) := do
  let bytes ← IO.getRandomBytes 16
  return Identifier.sequence (bytes.toList.foldl (fun n b => 256 * n + b.toNat) 0)

/-! ### The network -/

/-- Everything that comes over a connection until the other end closes it. -/
partial def receiveAll (client : TCP.Socket.Client) (received : ByteArray) : Async ByteArray := do
  match ← client.recv? 65536 with
  | some bytes => receiveAll client (received ++ bytes)
  | none => return received

/-- Sends a text to a service at a host and gives what comes back. -/
def exchange (host : String) (service : Nat) (text : String) : Async ByteArray := do
  let known ← DNS.getAddrInfo host (toString service)
  let some address := known[0]? | throw (IO.userError "unknown host")
  let client ← TCP.Socket.Client.mk
  match address with
  | .v4 a => client.connect (.v4 ⟨a, service.toUInt16⟩)
  | .v6 a => client.connect (.v6 ⟨a, service.toUInt16⟩)
  client.send text.toUTF8
  receiveAll client .empty

/-- Waits for a task until a moment of the clock that counts milliseconds. -/
partial def waitUntil {α : Type} (deadline : Nat) (task : Task α) : IO (Option α) := do
  if ← IO.hasFinished task then return some task.get
  if deadline ≤ (← IO.monoMsNow) then return none
  IO.sleep 2
  waitUntil deadline task

/-- Sends a request to an address. -/
def ask (address : String) (timeoutMs : UInt64) (q : StepRequest) : IO Answer := do
  let undelivered := Answer.fault (.failure (Http.undelivered address))
  let some a := Http.Address.ofText? address | return undelivered
  unless a.scheme == "http" && a.isUsable do return undelivered
  let begun ← IO.monoMsNow
  let text := Http.requestText a q.toJson
  let task ← IO.asTask (exchange (a.host?.getD "") (a.service?.getD 80) text).block
  match ← waitUntil (begun + timeoutMs.toNat) task with
  | none => return .silence
  | some (.error _) => return undelivered
  | some (.ok bytes) =>
    match Http.responseOf? bytes with
    | none => return undelivered
    | some (status, body) => return Http.answerOf status body

/-- The world of the commands, given the directories that the environment names. -/
def world (environmentDir? data? home? : Option String) : World IO where
  read := read
  write path text := onFiles (IO.FS.writeFile path text)
  createDirectory path := onFiles (if path.isEmpty then pure () else IO.FS.createDirAll path)
  readings := readings
  milliseconds := IO.monoMsNow
  fresh := fresh
  ask := ask
  environmentDir? := environmentDir?
  platformDir := Settings.platformDir data? home?

end StepFlow.Machine

/-- Carries out a command line and ends with its exit code. -/
def main (arguments : List String) : IO UInt32 := do
  let environmentDir? ← IO.getEnv "JUDGIFY_DATA_DIR"
  let data? ← IO.getEnv "XDG_DATA_HOME"
  let home? ← IO.getEnv "HOME"
  let world := StepFlow.Machine.world environmentDir? data? home?
  let ending ← StepFlow.Command.program world arguments
  IO.print ending.output
  IO.eprint ending.errors
  return ending.exitCode.toUInt32
