import ClockCalibration.Binary32.Basic
import ClockCalibration.Time
import ClockCalibration.Wire.Layout
/-!
# Frames on the air

All frames on the channel begin with the same IEEE 802.15.4 blink header, and
the first byte of the header tells what kind of frame follows.  A node that
wants to know whether a frame is meant for it reads the header alone.

| frame | layout | bytes |
|---|---|---|
| `BlinkHeader` | control, sequence number, address of the sender | 10 |
| `Frame` | header, time sent, time received, correction factor | 30 |
| `Pan.Assignment` | header, network, short address, slot | 15 |
| `Pan.Frame` | assignment, time sent, time received, correction factor | 35 |

A `Frame` is the record that a node keeps of a broadcast as well as what it
sends: the sender fills in the time of sending, receivers the time of
reception and the correction factor.
-/

namespace ClockCalibration

/-! ## Frame control -/

/-- The kinds of blink frames that are known on the channel, all with 64-bit addresses. -/
inductive FrameControl
  | blink
  | calibration
  deriving DecidableEq

namespace FrameControl

def code : FrameControl → UInt8
  | blink => 0xC5
  | calibration => 0xC2

/-- The kind of a frame with the given first byte, if it is a known one. -/
def ofCode? (code : UInt8) : Option FrameControl :=
  if code = blink.code then some blink
  else if code = calibration.code then some calibration
  else none

theorem ofCode?_code (control : FrameControl) : ofCode? control.code = some control := by
  cases control <;> rfl

theorem ofCode?_eq_some_iff {code : UInt8} {control : FrameControl} :
    ofCode? code = some control ↔ code = control.code := by
  constructor
  · intro h
    unfold ofCode? at h
    split at h
    · cases h; assumption
    · split at h
      · cases h; assumption
      · cases h
  · rintro rfl
    exact ofCode?_code control

def name : FrameControl → String
  | blink => "Blink"
  | calibration => "BlinkCcp"

/-- What is said about a byte that belongs to no kind. -/
def unknownCodeText (code : UInt8) : String :=
  s!"No discriminant in enum `FrameControl` matches the value `{code}`"

end FrameControl

/-! ## The frames -/

/-- The header that all frames on the channel begin with. -/
structure BlinkHeader where
  /-- The code of the kind of frame. -/
  control : UInt8
  sequence : UInt8
  source : UInt64
  deriving DecidableEq

/-- The kind of the frame that a header announces, if it is a known one. -/
def BlinkHeader.kind? (header : BlinkHeader) : Option FrameControl :=
  FrameControl.ofCode? header.control

/-- A clock calibration frame. -/
structure Frame where
  header : BlinkHeader
  /-- The device time at which the frame leaves the antenna of its sender. -/
  sent : UInt64
  /-- The device time at which the frame was received. -/
  received : UInt64
  /-- The ratio of the sender's clock rate to the receiver's. -/
  correction : Binary32
  deriving DecidableEq

/-- A frame that has neither been sent nor received. -/
def Frame.template : Frame where
  header := ⟨FrameControl.calibration.code, 0, 0⟩
  sent := 0
  received := 0
  correction := .one

/-- The address assignment that answers a request to join a network. -/
structure Pan.Assignment where
  header : BlinkHeader
  network : UInt16
  shortAddress : UInt16
  slot : UInt8
  deriving DecidableEq

/-- An address assignment with the times of a calibration frame. -/
structure Pan.Frame where
  assignment : Pan.Assignment
  sent : UInt64
  received : UInt64
  correction : Binary32
  deriving DecidableEq

/-! ## Layouts -/

namespace Wire

def Reader.binary32 : Reader Binary32 := Binary32.mk <$> u32

instance : Packed Instant where
  size := 8
  fields instant := [.u64 instant.ticks]
  reader := Instant.mk <$> Reader.u64

instance : Packed Duration where
  size := 8
  fields duration := [.u64 duration.ticks]
  reader := Duration.mk <$> Reader.u64

instance : Packed BlinkHeader where
  size := 10
  fields header := [.u8 header.control, .u8 header.sequence, .u64 header.source]
  reader := do
    let control ← Reader.u8
    let sequence ← Reader.u8
    let source ← Reader.u64
    return ⟨control, sequence, source⟩

instance : Packed Frame where
  size := 30
  fields frame :=
    fields frame.header ++ [.u64 frame.sent, .u64 frame.received, .u32 frame.correction.bits]
  reader := do
    let header ← reader
    let sent ← Reader.u64
    let received ← Reader.u64
    let correction ← Reader.binary32
    return ⟨header, sent, received, correction⟩

instance : Packed Pan.Assignment where
  size := 15
  fields assignment :=
    fields assignment.header ++
      [.u16 assignment.network, .u16 assignment.shortAddress, .u8 assignment.slot]
  reader := do
    let header ← reader
    let network ← Reader.u16
    let shortAddress ← Reader.u16
    let slot ← Reader.u8
    return ⟨header, network, shortAddress, slot⟩

instance : Packed Pan.Frame where
  size := 35
  fields frame :=
    fields frame.assignment ++ [.u64 frame.sent, .u64 frame.received, .u32 frame.correction.bits]
  reader := do
    let assignment ← reader
    let sent ← Reader.u64
    let received ← Reader.u64
    let correction ← Reader.binary32
    return ⟨assignment, sent, received, correction⟩

end Wire

end ClockCalibration
