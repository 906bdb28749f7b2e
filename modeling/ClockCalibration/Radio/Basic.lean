import ClockCalibration.Bus.Basic
import ClockCalibration.Register
/-!
# Radios

The calibration engine asks a radio for ten things and for nothing else.  They
are data, so that what a node asked of its radio can be recorded and compared:
a `Call` is one request, `Call.Answer` the type of its answer, and a `Reply`
the answer or failure together with what went over the bus meanwhile.

`Radio` is the interface of a radio with state `ρ` and failures `ε`.  A poll
may answer that the transmission is not over yet, and a node that waits polls
again.  `backlog` bounds how often in a row that can happen, so every wait
ends.
-/

namespace ClockCalibration

/-- The outcome of the request to start a transmission. -/
inductive StartOutcome
  | started
  /-- The instant is too close or already over. -/
  | rejected
  deriving DecidableEq

/-- Whether something that was begun is over. -/
inductive Completion
  | done
  | wouldBlock
  deriving DecidableEq

/-- A request to a radio. -/
inductive Call
  | readSystemTime
  | readReceptionTime
  | writeTransmitBuffer (payload : Bytes) (offset : UInt16)
  | readReceiveBuffer (length : Nat) (offset : UInt16)
  /-- Sets the length of the next frame, without its checksum, and its ranging
  bit. -/
  | configureTransmit (length : UInt16) (ranging : Bool)
  /-- Selects whether the receiver is on right after the next transmission. -/
  | setWaitForResponse (wait : Bool)
  | setDelayedStart (instant : UInt64)
  | startTransmission
  /-- Whether the last transmission has left the antenna.  The answer that it
  has also acknowledges it. -/
  | pollTransmission
  /-- The first bytes of a register, as a little-endian number. -/
  | readRegister (register : Register) (length : Nat)
  deriving DecidableEq

@[reducible]
def Call.Answer : Call → Type
  | readSystemTime => UInt64
  | readReceptionTime => UInt64
  | writeTransmitBuffer _ _ => Unit
  | readReceiveBuffer length _ => Vector UInt8 length
  | configureTransmit _ _ => Unit
  | setWaitForResponse _ => Unit
  | setDelayedStart _ => Unit
  | startTransmission => StartOutcome
  | pollTransmission => Completion
  | readRegister _ _ => UInt64

/-- What comes of a request. -/
structure Reply (ε : Type) (call : Call) where
  answer : Except ε call.Answer
  /-- What went over the bus, for a radio that is behind one. -/
  transfers : List Bus.Transfer

/-- A radio with state `ρ` and failures `ε`. -/
class Radio (ρ : Type) (ε : outParam Type) where
  perform : (call : Call) → ρ → Reply ε call × ρ
  /-- A bound on how often a poll can answer that the transmission is not over
  yet. -/
  backlog : ρ → Nat
  backlog_lt_of_wouldBlock : ∀ radio : ρ,
    (perform .pollTransmission radio).1.answer = .ok .wouldBlock →
      backlog (perform .pollTransmission radio).2 < backlog radio

end ClockCalibration
