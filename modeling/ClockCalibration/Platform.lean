import ClockCalibration.Record
/-!
# The platform

The engine runs in interrupt context and on an event queue.  The platform owns
both the queue, whose room is bounded, and the timer.  Work that must not be
done in an interrupt is queued as an `Event` and dispatched later.
-/

namespace ClockCalibration

/-- Work for the event queue. -/
inductive Event
  | timerExpired
  /-- The frame of an event is ready to be postprocessed. -/
  | postprocess (direction : Direction) (index : UInt32)
  deriving DecidableEq

def Event.text : Event → String
  | timerExpired => "CcpTimer"
  | postprocess direction index =>
    "CcpPostprocess \x7b direction: " ++ direction.label ++
      ", index: " ++ toString index.toNat ++ " \x7d"

/-- What identifies a scheduled expiry of the timer. -/
structure TimerHandle where
  number : Nat
  deriving DecidableEq

/-- The timer and event queue that a node runs on. -/
structure Platform where
  /-- The queued events, the oldest first. -/
  queue : List Event := []
  capacity : Nat := 64
  /-- The uptime in microseconds. -/
  uptime : UInt32 := 0
  /-- The number of expiries scheduled so far. -/
  scheduled : Nat := 0

namespace Platform

/-- Schedules an expiry of the timer, in place of any that is still to come. -/
def schedule (platform : Platform) : TimerHandle × Platform :=
  (⟨platform.scheduled + 1⟩, { platform with scheduled := platform.scheduled + 1 })

def hasRoom (platform : Platform) : Bool := platform.queue.length < platform.capacity

/-- Queues an event if there is room for it. -/
def enqueue (platform : Platform) (event : Event) : Platform :=
  if platform.hasRoom then { platform with queue := platform.queue ++ [event] } else platform

end Platform

end ClockCalibration
