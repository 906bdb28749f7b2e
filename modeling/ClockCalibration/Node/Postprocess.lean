import ClockCalibration.Node.Broadcast
/-!
# Postprocessing

Events that have been queued are dispatched outside of interrupt context.  The
expiry of the timer sets off a blink; the event of a frame is turned into a
record, which is handed to the sink of the instance.
-/

namespace ClockCalibration.Node

variable {ρ ε : Type}

/-- The record of the event with a given index, as its slot is now. -/
def record? (direction : Direction) (index : UInt32) (world : World ρ ε) : Option Record :=
  world.node.calibration.map fun calibration ↦
    calibration.record direction world.platform.uptime index

/-- Hands later records to another sink, and sees to it that there are
some. -/
def setSink (sink : Sink) : NodeM ρ ε Unit := do
  discard requireCalibration
  updateCalibration (·.withSink sink)

def setCallbacks (onReception onTransmission : Callback) : NodeM ρ ε Unit :=
  update fun node ↦
    { node with onReception := some onReception, onTransmission := some onTransmission }

variable [Radio ρ ε]

/-- Hands a record to a sink.  A sink that fails keeps that to itself. -/
def deliver (record : Record) (sink : Sink) : NodeM ρ ε Unit := do
  note (.sink sink record)
  match sink with
  | .log => log (.record record)
  | .observe => return
  | .blink => note (.sinkBlink (← attempt (blink .nonBlocking)))
  | .stop => note (.sinkStop (← attempt stop))

def postprocess (direction : Direction) (index : UInt32) : NodeM ρ ε Unit := do
  let world ← get
  match world.node.calibration with
  | some calibration =>
    deliver (calibration.record direction world.platform.uptime index) calibration.sink
  | none => return

def dispatch : Event → NodeM ρ ε Unit
  | .timerExpired => timerExpired
  | .postprocess direction index => postprocess direction index

end ClockCalibration.Node
