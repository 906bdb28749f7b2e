import ClockCalibration.Binary32.Decimal
import ClockCalibration.Frame
import ClockCalibration.Text.Hexadecimal
/-!
# Records of events

A record is what remains of a frame once it has been sent or received: the
time stamp of its direction, the time since the neighbouring frame, its number
and its correction factor.  Records are built when an event is postprocessed,
not when it happens.
-/

namespace ClockCalibration

/-- Whether a frame was received or sent. -/
inductive Direction
  | rx
  | tx
  deriving DecidableEq

namespace Direction

/-- The name of a direction in a record line. -/
def name : Direction → String
  | rx => "rx"
  | tx => "tx"

/-- The name of a direction in the text of an event. -/
def label : Direction → String
  | rx => "Rx"
  | tx => "Tx"

/-- The time stamp that a frame carries for a direction. -/
def timestamp : Direction → Frame → UInt64
  | rx, frame => frame.received
  | tx, frame => frame.sent

end Direction

/-- A snapshot of one frame that was sent or received. -/
structure Record where
  direction : Direction
  /-- The uptime at which the record was built, in microseconds. -/
  uptime : UInt32
  timestamp : UInt64
  /-- The time since the previous frame, on the wrapping device clock. -/
  delta : Duration
  sequence : UInt8
  correction : Binary32
  deriving DecidableEq

namespace Record

/-- The record of a frame relative to the one before it. -/
def ofFrames (direction : Direction) (uptime : UInt32) (frame previous : Frame) : Record where
  direction := direction
  uptime := uptime
  timestamp := direction.timestamp frame
  delta :=
    (Instant.truncate (direction.timestamp frame)).since
      (Instant.truncate (direction.timestamp previous))
  sequence := frame.header.sequence
  correction := frame.correction

/-- The line that the standard sink writes for a record. -/
def line (record : Record) : String :=
  "\x7b\"utime\": " ++ toString record.uptime.toNat ++
    ",\"ccp_" ++ record.direction.name ++
    "\":[\"" ++ Text.capitalHex record.timestamp.toNat ++
    "\",\"" ++ Text.capitalHex record.delta.ticks.toNat ++
    "\"],\"seq_num\":" ++ toString record.sequence.toNat ++
    ",\"cf\":" ++ record.correction.text ++ "\x7d"

end Record

end ClockCalibration
