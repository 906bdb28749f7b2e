import ClockCalibration.Config
import ClockCalibration.FrameRing
import ClockCalibration.Platform
/-!
# The calibration instance

A clock master broadcasts one time-stamped blink per epoch.  The instant of
each is armed in advance, so that it is exact however late the timer fires,
and only one blink is under way at a time:

```text
idle --blink--> armed --accepted--> pending --sent--> idle
                  |
                  +-----rejected----> idle, one epoch later
```

This module holds the state of an instance and how it changes; who asks the
radio, and when, is the business of the node.  The schedule has no variable of
its own: the time of the next blink is two epochs after the time of sending in
the slot of the previous event.
-/

namespace ClockCalibration

/-- What an instance tells about itself. -/
structure Status where
  initialized : Bool := false
  /-- A frame was received since the last start that was not the first event. -/
  valid : Bool := false
  /-- The last blink was rejected by the radio. -/
  startError : Bool := false
  timerEnabled : Bool := false
  deriving DecidableEq

/-- How far the blink under way has got. -/
inductive Phase
  | idle
  /-- The radio is being programmed. -/
  | armed
  /-- The radio has accepted the blink and will report that it was sent. -/
  | pending
  deriving DecidableEq

/-- When a blink returns: once the frame has left the antenna, or as soon as the transmission is
armed. -/
inductive BlinkMode
  | blocking
  | nonBlocking
  deriving DecidableEq

/-- What becomes of records: they are logged, or taken note of.  In the last two cases each of them
also sets off a blink or stops the broadcast. -/
inductive Sink
  | log
  | observe
  | blink
  | stop
  deriving DecidableEq

/-- A calibration instance. -/
structure Calibration where
  config : Config
  ring : FrameRing
  status : Status := {}
  phase : Phase := .idle
  /-- The expiry of the timer that is to come. -/
  timer : Option TimerHandle := none
  /-- The mode of the blinks that the timer sets off. -/
  timerMode : BlinkMode := .nonBlocking
  postprocess : Bool
  sink : Sink := .log
  /-- The sequence number of the next blink. -/
  sequence : UInt8 := 0

def Frame.sentAt (frame : Frame) (instant : Instant) : Frame :=
  { frame with sent := instant.ticks }

namespace Calibration

/-- A new instance whose schedule begins at a system time. -/
def create (config : Config) (ring : FrameRing) (systemTime : UInt64) : Calibration where
  config := config
  ring := ring.modifyPrevious (·.sentAt (.truncate systemTime))
  status := { initialized := true }
  postprocess := config.postprocess

/-- The unit of the schedule, half of a broadcast interval. -/
def epoch (calibration : Calibration) : Duration := .ofPeriod calibration.config.period

/-- The instant at which the next blink is due. -/
def nextInstant (calibration : Calibration) : Instant :=
  Instant.truncate calibration.ring.previous.sent + calibration.epoch + calibration.epoch

/-! ## The broadcast -/

/-- Begins a fresh stream of blinks at a system time. -/
def restart (calibration : Calibration) (systemTime : UInt64) (mode : BlinkMode) : Calibration :=
  { calibration with
    ring := calibration.ring.resetIndex.modifyPrevious (·.sentAt (.truncate systemTime))
    status := { calibration.status with valid := false, timerEnabled := true }
    timerMode := mode
    sequence := 0 }

/-- Ends the stream of blinks.  One that is already armed is not taken back. -/
def halt (calibration : Calibration) : Calibration :=
  { calibration with
    status := { calibration.status with timerEnabled := false }
    timer := none }

/-- Keeps hold of the expiry of the timer that is to come. -/
def scheduled (calibration : Calibration) (handle : TimerHandle) : Calibration :=
  { calibration with timer := some handle }

def timerFired (calibration : Calibration) : Calibration :=
  { calibration with timer := none }

/-! ## The blink cycle -/

/-- Puts the next blink into the current slot.  Every attempt uses up a sequence
number, so that receivers see those that failed as a gap. -/
def prepare (calibration : Calibration) (address : UInt64) : Calibration :=
  { calibration with
    ring := calibration.ring.modifyCurrent fun frame ↦
      { frame with
        header := { frame.header with sequence := calibration.sequence, source := address }
        sent := calibration.nextInstant.ticks }
    phase := .armed
    sequence := calibration.sequence + 1 }

/-- Ends the cycle without an event. -/
def release (calibration : Calibration) : Calibration :=
  { calibration with phase := .idle }

/-- The radio rejected the blink: the schedule moves on by one epoch. -/
def reject (calibration : Calibration) : Calibration :=
  { calibration with
    ring := calibration.ring.modifyPrevious fun frame ↦
      frame.sentAt (Instant.truncate frame.sent + calibration.epoch)
    status := { calibration.status with startError := true }
    phase := .idle }

def accept (calibration : Calibration) : Calibration :=
  { calibration with
    status := { calibration.status with startError := false }
    phase := .pending }

/-- The blink has left the antenna. -/
def complete (calibration : Calibration) : Calibration :=
  { calibration with
    ring := calibration.ring.advance
    phase := .idle }

/-! ## Reception -/

/-- Puts a received frame into the next slot. -/
def receive (calibration : Calibration) (header : BlinkHeader) (time : UInt64) : Calibration :=
  let ring := calibration.ring.advance
  { calibration with
    ring := ring.modifyCurrent fun frame ↦
      { frame with header, received := (Instant.truncate time).ticks }
    status := { calibration.status with valid := calibration.status.valid || 1 < ring.index } }

/-- Puts a correction factor into the current slot. -/
def correct (calibration : Calibration) (correction : Binary32) : Calibration :=
  { calibration with
    ring := calibration.ring.modifyCurrent fun frame ↦ { frame with correction } }

/-! ## Postprocessing -/

def withSink (calibration : Calibration) (sink : Sink) : Calibration :=
  { calibration with postprocess := true, sink }

/-- The record of an event, as its slot is now.  It should be built before
later events overwrite the slot. -/
def record (calibration : Calibration) (direction : Direction) (uptime : UInt32)
    (index : UInt32) : Record :=
  .ofFrames direction uptime (calibration.ring.get index) (calibration.ring.getBefore index)

end Calibration

end ClockCalibration
