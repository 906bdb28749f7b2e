import ClockCalibration.Time
/-!
# Configuration

The settings of a deployment.  They are handed to a node once and stay the
same for its lifetime.
-/

namespace ClockCalibration

/-- The settings of clock calibration. -/
structure Config where
  /-- The time from one broadcast to the next, in microseconds. -/
  period : UInt32 := 1000000
  /-- How long before a broadcast is due the timer fires, in microseconds, so
  that the delayed start is always armed for an instant to come. -/
  latency : UInt32 := 2000
  /-- The time from the start to the first expiry of the timer, in
  microseconds. -/
  startDelay : UInt32 := 10000
  /-- Whether records of events are handed to the sink. -/
  postprocess : Bool := true
  deriving DecidableEq

namespace Config

/-- Whether the timer can fire ahead of every broadcast and a full broadcast
interval fits the device clock. -/
def isValid (config : Config) : Bool :=
  let interval := (config.period.toUInt64 <<< periodShift) * 2
  0 < config.period && config.latency < config.period && interval ≤ timeMax

/-- The time from a completed broadcast to the next expiry of the timer. -/
def timerDelay (config : Config) : UInt32 :=
  config.period - config.latency

end Config

end ClockCalibration
