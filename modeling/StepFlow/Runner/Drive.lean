import StepFlow.Runner.Local
import StepFlow.Runner.Remote

/-!
# Driving a run to its end

A run is driven by a start and steps forward until it stops, is paused, or has used up its
budget of steps. The runner may need effects for a step, such as a network.
-/

namespace StepFlow

/-- What a drive needs of a runner. -/
structure Drivable (m : Type → Type) (σ : Type) where
  start : σ → m (Except StartFault σ)
  forward : σ → m σ
  run : σ → Run

namespace Drivable

variable {m : Type → Type} [Monad m] {σ : Type}

/-- Steps forward while the run goes on, up to a number of times. -/
def proceed (d : Drivable m σ) : Nat → σ → m σ
  | 0, s => pure s
  | budget + 1, s =>
    if (d.run s).isRunning && !(d.run s).isPaused then do d.proceed budget (← d.forward s)
    else pure s

/-- Starts a run and steps forward up to a number of times. -/
def drive (d : Drivable m σ) (budget : Nat) (s : σ) : m (Except StartFault σ) := do
  match ← d.start s with
  | .error fault => pure (.error fault)
  | .ok started => pure (.ok (← d.proceed budget started))

end Drivable

/-- The local runner, with readings that are taken for every step. -/
def LocalRunner.drivable {m : Type → Type} [Monad m] (readings : m Readings) :
    Drivable m LocalRunner where
  start r := do
    let readings ← readings
    pure (r.start readings)
  forward r := do
    let readings ← readings
    pure (r.forward readings)
  run r := r.run

namespace RemoteRunner

variable {m : Type → Type} [Monad m]

/-- The second half of an operation, where it takes an effect to get an answer. -/
def Pending.complete (now : m Instant) (ask : StepRequest → m Answer) (p : Pending) :
    m RemoteRunner :=
  match p.nodeId? with
  | none => pure p.runner
  | some nodeId => do
    let answer ← ask (p.runner.request nodeId)
    let now ← now
    pure (p.runner.receive now nodeId answer)

/-- The remote runner, with answers and times that are taken for every step. -/
def drivable (now : m Instant) (ask : StepRequest → m Answer) : Drivable m RemoteRunner where
  start r :=
    match r.beginStart with
    | .error fault => pure (.error fault)
    | .ok pending => do
      let started ← pending.complete now ask
      pure (.ok started)
  forward r := r.beginForward.complete now ask
  run r := r.run

end RemoteRunner

end StepFlow
