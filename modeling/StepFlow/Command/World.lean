import StepFlow.Command.Files
import StepFlow.Handler.Outcome
import StepFlow.Runner.Exchange

/-!
# The world of the commands

What the commands need beyond their arguments: files, clocks, identifiers, and a network.
Everything else about them is pure.
-/

namespace StepFlow

/-- The effects that the commands can have. -/
structure World (m : Type → Type) where
  read : FileReader m
  /-- Gives the file at a path a text. -/
  write : String → String → m (Except FileFault Unit)
  /-- Makes sure that a directory is there. -/
  createDirectory : String → m (Except FileFault Unit)
  /-- The readings for the next step. -/
  readings : m Readings
  /-- A clock that counts milliseconds from any start. -/
  milliseconds : m Nat
  /-- Identifiers that nothing has had before. -/
  fresh : m (Nat → String)
  /-- Sends a request to an address and waits for an answer, but no longer than the given
  number of milliseconds. -/
  ask : String → UInt64 → StepRequest → m Answer
  /-- The data directory that the environment names. -/
  environmentDir? : Option String
  /-- The data directory where none is named. -/
  platformDir : String

end StepFlow
