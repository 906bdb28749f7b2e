import ClockCalibration.Node.Postprocess
/-!
# Operations

Everything that can be done to a node from the outside, as data, so that whole
runs of a node can be spoken of.  An operation that fails does not end a run;
what it did before it failed is part of the world that the next one finds.
-/

namespace ClockCalibration

/-- Something that is done to a node from the outside. -/
inductive Operation
  | init (frameCount : Nat) (master : UInt64)
  | start (mode : BlinkMode)
  | stop
  | blink (mode : BlinkMode)
  | poll
  | receptionInterrupt
  | transmissionInterrupt
  /-- Calls the standard callback for receptions directly. -/
  | receptionComplete
  /-- Calls the standard callback for transmissions directly. -/
  | transmissionComplete
  | dispatch (event : Event)
  | drain
  | setCallbacks (onReception onTransmission : Callback)
  | setSink (sink : Sink)
  /-- Lets time pass until the platform has been up for so many
  microseconds. -/
  | elapse (uptime : UInt32)
  deriving DecidableEq

@[reducible]
def Operation.Answer (ε : Type) : Operation → Type
  | init _ _ => Calibration
  | blink _ => Status
  | poll => Completion
  | receptionInterrupt | transmissionInterrupt | receptionComplete | transmissionComplete => Bool
  | drain => List (Except (Error ε) Unit)
  | start _ | stop | dispatch _ | setCallbacks _ _ | setSink _ | elapse _ => Unit

variable {ρ ε : Type}

def Platform.dropOldest (platform : Platform) : Platform :=
  { platform with queue := platform.queue.tail }

def Node.elapse (uptime : UInt32) : NodeM ρ ε Unit :=
  modify fun world ↦ { world with platform := { world.platform with uptime } }

variable [Radio ρ ε]

/-- Dispatches as many events as are queued, the oldest first.  Events that are
queued meanwhile stay.  Answers what came of each. -/
def Node.drain : NodeM ρ ε (List (Except (Error ε) Unit)) := do
  (← get).platform.queue.mapM fun event ↦ do
    modify fun world ↦ { world with platform := world.platform.dropOldest }
    attempt (dispatch event)

def Operation.perform : (operation : Operation) → NodeM ρ ε (operation.Answer ε)
  | init frameCount master => Node.init frameCount master
  | start mode => Node.start mode
  | stop => Node.stop
  | blink mode => Node.blink mode
  | poll => Node.poll
  | receptionInterrupt => Node.receptionInterrupt
  | transmissionInterrupt => Node.transmissionInterrupt
  | receptionComplete => Node.receptionComplete
  | transmissionComplete => Node.transmissionComplete
  | dispatch event => Node.dispatch event
  | drain => Node.drain
  | setCallbacks onReception onTransmission => Node.setCallbacks onReception onTransmission
  | setSink sink => Node.setSink sink
  | elapse uptime => Node.elapse uptime

namespace World

/-- The world after an operation, whether it succeeds or fails. -/
def after (world : World ρ ε) (operation : Operation) : World ρ ε :=
  match operation.perform world with
  | .ok _ world => world
  | .error _ world => world

def run (world : World ρ ε) (operations : List Operation) : World ρ ε :=
  operations.foldl after world

end World

end ClockCalibration
