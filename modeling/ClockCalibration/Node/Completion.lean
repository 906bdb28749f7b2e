import ClockCalibration.Node.Basic
import ClockCalibration.Tracking
/-!
# Receptions and transmissions

The radio interrupts a node when a frame has been received and when one has
been sent.  Each interrupt is passed on to a callback, which looks at the
frame and tells whether it was meant for it.  The two standard callbacks are
`receptionComplete` and `transmissionComplete`.

A transmission can also be polled for.  The poll acknowledges the completion
at the radio, so it runs the callback in place of the interrupt, and it closes
the blink cycle if the callback has left it open.
-/

namespace ClockCalibration.Node

variable {ρ ε : Type}

/-! ## The standard callbacks -/

/-- Ends the blink that is pending: the index moves on, the record of its event
is queued and the next expiry of the timer is scheduled. -/
def finishBlink (calibration : Calibration) : NodeM ρ ε Unit := do
  updateCalibration (·.complete)
  log (.blinkSent calibration.ring.index)
  if calibration.postprocess then
    offer (.postprocess .tx calibration.ring.index)
  if calibration.status.timerEnabled then
    schedule calibration.config.timerDelay

/-- Handles a completed transmission.  Answers whether it was that of a pending
blink. -/
def transmissionComplete : NodeM ρ ε Bool := do
  let node := (← get).node
  match node.calibration with
  | none => return false
  | some calibration =>
    if node.outgoing = some .calibration ∧ calibration.phase = .pending then
      finishBlink calibration
      return true
    else
      return false

variable [Radio ρ ε]

def askHeader : NodeM ρ ε BlinkHeader := do
  let bytes ← ask (.readReceiveBuffer (Wire.Packed.size BlinkHeader) 0)
  match Wire.decode bytes.toList with
  | .ok (header, _) => return header
  | .error error => throw (.encoding error)

def askCorrection : NodeM ρ ε Binary32 := do
  let interval ← ask (.readRegister .trackingInterval 4)
  let offset ← ask (.readRegister .trackingOffset 4)
  return Tracking.correction (Tracking.interval interval) (Tracking.offset offset)

/-- Corrects the clock by a frame that is in the current slot, and queues its
record. -/
def track (calibration : Calibration) (header : BlinkHeader) (time : UInt64) :
    NodeM ρ ε Unit := do
  let correction ← askCorrection
  updateCalibration (·.correct correction)
  log (.frameReceived header.sequence time correction)
  if calibration.postprocess then
    offer (.postprocess .rx calibration.ring.index)

/-- Puts a frame of the clock master into the next slot, and tracks the clock
once enough events have been processed. -/
def accept (header : BlinkHeader) : NodeM ρ ε Unit := do
  let time ← ask .readReceptionTime
  updateCalibration (·.receive header time)
  let calibration ← requireCalibration
  if calibration.status.valid then
    track calibration header time

/-- Whether a node processes the frames of a sender. -/
def trusts (node : Node) (source : UInt64) : Bool :=
  node.clockMaster == anyMaster || source == node.clockMaster

/-- Accepts a calibration frame unless it comes from a stranger. -/
def consider (header : BlinkHeader) : NodeM ρ ε Unit := do
  let node := (← get).node
  if node.trusts header.source then
    accept header
  else
    log (.frameIgnored header.source node.clockMaster)

/-- Handles a received frame.  Answers whether it was a calibration frame,
which it may be without being accepted. -/
def receptionComplete : NodeM ρ ε Bool := do
  match (← get).node.calibration with
  | none => return false
  | some _ =>
    let header ← askHeader
    if header.kind? = some .calibration then
      consider header
      return true
    else
      return false

/-! ## Interrupts -/

def invoke (callback : Callback) : NodeM ρ ε Bool := do
  note (.callback callback)
  match callback with
  | .reception => receptionComplete
  | .transmission => transmissionComplete
  | .claim => return true
  | .fail => throw .invalidConfiguration
  | .transmissionUnclaimed =>
    discard transmissionComplete
    return false
  | .ignore => return false

/-- A frame has been received.  Answers whether it was meant for anyone. -/
def receptionInterrupt : NodeM ρ ε Bool := do
  match (← get).node.onReception with
  | some callback => invoke callback
  | none => return false

/-- A frame has been sent.  Answers whether it was anyone's. -/
def transmissionInterrupt : NodeM ρ ε Bool := do
  match (← get).node.onTransmission with
  | some callback =>
    let claimed ← invoke callback
    if claimed then
      update fun node ↦ { node with outgoing := none }
    return claimed
  | none => return false

/-! ## Polling -/

/-- A node whose blink cycle is over, whatever the callback made of it. -/
def closeCycle (node : Node) : Node :=
  if node.phase? = some .pending then
    { node with calibration := node.calibration.map (·.release), outgoing := none }
  else
    node

/-- What is done once the radio has acknowledged that the blink was sent. -/
def acknowledge : NodeM ρ ε Unit := do
  discard transmissionInterrupt
  update closeCycle

def pollPending : NodeM ρ ε Completion := do
  match ← ask .pollTransmission with
  | .wouldBlock => return .wouldBlock
  | .done =>
    acknowledge
    return .done

/-- Checks whether the blink under way has left the antenna.  Where none is
under way there is nothing to wait for. -/
def poll : NodeM ρ ε Completion := fun world ↦
  if world.node.phase? = some .pending then pollPending world else .ok .done world

/-- A poll that blocks has asked the radio, which uses up some of its
backlog. -/
theorem backlog_lt_of_poll {world after : World ρ ε}
    (h : poll world = .ok .wouldBlock after) :
    Radio.backlog after.radio < Radio.backlog world.radio := by
  have hpoll := Radio.backlog_lt_of_wouldBlock world.radio
  unfold poll at h
  split at h
  · simp only [pollPending, bind, EStateM.bind, ask] at h
    cases hanswer : (Radio.perform .pollTransmission world.radio).1.answer with
    | error failure =>
      simp only [hanswer] at h
      cases h
    | ok completion =>
      simp only [hanswer] at h
      cases completion with
      | wouldBlock =>
        cases h
        exact hpoll hanswer
      | done =>
        cases hdone : acknowledge (world.asking .pollTransmission) <;>
          simp only [EStateM.bind, hdone] at h <;> cases h
  · cases h

/-- Polls until no blink is under way. -/
def awaitCompletion (world : World ρ ε) : EStateM.Result (Error ε) (World ρ ε) Unit :=
  match _blocked : poll world with
  | .ok .wouldBlock after => awaitCompletion after
  | .ok .done after => .ok () after
  | .error error after => .error error after
termination_by Radio.backlog world.radio
decreasing_by exact backlog_lt_of_poll _blocked

end ClockCalibration.Node
