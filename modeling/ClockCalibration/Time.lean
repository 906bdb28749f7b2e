/-!
# Device time

The transceiver counts time in 40-bit ticks of roughly 15.65 ps, so that one
microsecond is close to `2 ^ 16` of them and the clock wraps about every
17 seconds.  An `Instant` is a reading of that clock and a `Duration` the
distance from one reading to a later one, around the wrap if need be.

Both types hold a 64-bit word.  `ofTicks?`, `truncate` and `ofPeriod` only
build values that fit the clock; values that come off the air are taken as
they are, so `since` and `+` are defined, by wrapping 64-bit arithmetic, for
every word.
-/

namespace ClockCalibration

/-- The largest reading of the 40-bit device clock. -/
def timeMax : UInt64 := 0xffffffffff

/-- The shift that turns microseconds into half as much device time. -/
def periodShift : UInt64 := 15

/-- A length of device time. -/
structure Duration where
  ticks : UInt64
  deriving DecidableEq

/-- A reading of the device clock. -/
structure Instant where
  ticks : UInt64
  deriving DecidableEq

namespace Duration

/-- The duration of a number of ticks, provided that it fits the clock. -/
def ofTicks? (ticks : UInt64) : Option Duration :=
  if ticks ≤ timeMax then some ⟨ticks⟩ else none

/-- Half of a period given in microseconds: the distance by which the broadcast
schedule moves.  A full broadcast interval is twice as long. -/
def ofPeriod (microseconds : UInt32) : Duration :=
  ⟨(microseconds.toUInt64 <<< periodShift) &&& timeMax⟩

end Duration

namespace Instant

def ofTicks? (ticks : UInt64) : Option Instant :=
  if ticks ≤ timeMax then some ⟨ticks⟩ else none

/-- The instant in the low 40 bits of a word, which is how the transceiver
keeps its time stamps. -/
def truncate (word : UInt64) : Instant :=
  ⟨word &&& timeMax⟩

/-- The time from `earlier` to `later`.  The clock wraps, so which of the two
readings is the larger number says nothing about their order. -/
def since (later earlier : Instant) : Duration :=
  if earlier.ticks ≤ later.ticks then
    ⟨later.ticks - earlier.ticks⟩
  else
    ⟨timeMax - earlier.ticks + later.ticks + 1⟩

/-- The instant a duration after another one, on the wrapping clock. -/
def add (instant : Instant) (duration : Duration) : Instant :=
  ⟨(instant.ticks + duration.ticks) % (timeMax + 1)⟩

instance : HAdd Instant Duration Instant := ⟨add⟩

end Instant

end ClockCalibration
