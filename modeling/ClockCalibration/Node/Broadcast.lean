import ClockCalibration.Node.Completion
/-!
# The broadcast

The life of a calibration instance: it is created, its broadcast is started
and stopped, and in between it blinks whenever the timer expires or someone
asks for it.

The timer keeps itself going.  A blink that is accepted schedules the next
expiry from its completion; one that is rejected or fails cannot, so the
expiry that set it off schedules the next one.
-/

namespace ClockCalibration.Node

variable {ρ ε : Type} [Radio ρ ε]

/-! ## Creation, start and stop -/

/-- The ring of a new instance, provided that the node can have one. -/
def newRing (frameCount : Nat) : NodeM ρ ε FrameRing := do
  if !(← get).node.config.isValid then
    throw .invalidConfiguration
  match FrameRing.ofSize? frameCount with
  | some ring => return ring
  | none => throw (.invalidFrameCount frameCount)

/-- A node with a new instance and the standard callbacks. -/
def withCalibration (node : Node) (calibration : Calibration) (master : UInt64) : Node :=
  { node with
    clockMaster := master
    calibration := some calibration
    onReception := some .reception
    onTransmission := some .transmission }

/-- Creates the calibration instance, with a number of slots and the sender
whose frames it processes. -/
def create (frameCount : Nat) (master : UInt64) : NodeM ρ ε Calibration := do
  let ring ← newRing frameCount
  let systemTime ← ask .readSystemTime
  let config := (← get).node.config
  let calibration := Calibration.create config ring systemTime
  update (·.withCalibration calibration master)
  log (.created frameCount config.period master)
  return calibration

/-- Creates the calibration instance unless there is one.  An instance that
exists is kept, provided that it has as many slots as are asked for, and only
the sender whose frames it processes changes. -/
def init (frameCount : Nat) (master : UInt64) : NodeM ρ ε Calibration := do
  match (← get).node.calibration with
  | none => create frameCount master
  | some calibration =>
    if calibration.ring.size ≠ frameCount then
      throw (.frameCountMismatch calibration.ring.size frameCount)
    update fun node ↦ { node with clockMaster := master }
    return calibration

/-- Starts a fresh stream of blinks, which begins at the current system
time. -/
def start (mode : BlinkMode) : NodeM ρ ε Unit := do
  let calibration ← requireCalibration
  let systemTime ← ask .readSystemTime
  updateCalibration (·.restart systemTime mode)
  log (.started calibration.config.startDelay)
  schedule calibration.config.startDelay

/-- Stops the stream of blinks.  One that is already armed is not taken
back. -/
def stop : NodeM ρ ε Unit := do
  let calibration ← requireCalibration
  updateCalibration (·.halt)
  if let some handle := calibration.timer then
    note (.cancel handle)
  log .stopped

/-! ## Blinks -/

/-- Programs the radio with a payload and the instant to send it at. -/
def arm (payload : Bytes) (instant : UInt64) : NodeM ρ ε StartOutcome := do
  ask (.writeTransmitBuffer payload 0)
  ask (.configureTransmit (UInt16.ofNat payload.length) true)
  ask (.setWaitForResponse false)
  ask (.setDelayedStart instant)
  ask .startTransmission

/-- Puts the next blink into the current slot.  Answers its frame. -/
def prepare : NodeM ρ ε Frame := do
  let address := (← get).node.shortAddress.toUInt64
  updateCalibration (·.prepare address)
  return (← requireCalibration).ring.current

/-- What becomes of a blink once the radio has been asked to send it. -/
def conclude (mode : BlinkMode) (frame : Frame) : StartOutcome → NodeM ρ ε Unit
  | .rejected => do
    updateCalibration (·.reject)
    log (.blinkRejected frame.sent)
  | .started => do
    update fun node ↦
      { node with
        calibration := node.calibration.map (·.accept)
        outgoing := some .calibration }
    log (.blinkArmed frame.sent)
    if mode = .blocking then
      awaitCompletion

/-- Broadcasts one frame, after the one that may still be under way.  It is
armed for two epochs after the previous one.  If the radio rejects that
instant the schedule moves on by one epoch, and the status that is answered
tells so. -/
def blink (mode : BlinkMode) : NodeM ρ ε Status := do
  discard requireCalibration
  awaitCompletion
  let frame ← prepare
  match ← attempt (arm (Wire.encode frame) frame.sent) with
  | .ok outcome => conclude mode frame outcome
  | .error error =>
    updateCalibration (·.release)
    throw error
  return (← requireCalibration).status

/-! ## The timer -/

/-- Blinks because the timer expired, and schedules the next expiry unless the
completion of the blink will. -/
def timedBlink (mode : BlinkMode) (delay : UInt32) : NodeM ρ ε Unit := do
  match ← attempt (blink mode) with
  | .ok status =>
    if status.startError then
      schedule delay
  | .error error =>
    schedule delay
    throw error

def timerExpired : NodeM ρ ε Unit := do
  match (← get).node.calibration with
  | none => return
  | some calibration =>
    updateCalibration (·.timerFired)
    if calibration.status.timerEnabled then
      timedBlink calibration.timerMode calibration.config.timerDelay

end ClockCalibration.Node
