import ClockCalibration.Wire.LittleEndian
/-!
# Serial buses

A serial bus carries one access at a time: a header that says what is
accessed, followed by bytes in one direction.  An access is answered or fails
as a whole.

`Bus` is the interface of a bus with state `σ` whose accesses fail with `φ`.
Beside the accesses it asks for a `backlog`, a bound on how many more reads
the bus can answer.  It never shows in an answer; it is what makes waiting for
an answer to change a terminating activity.
-/

namespace ClockCalibration

namespace Bus

/-- One access: a header is sent, then bytes go in one direction. -/
inductive Access
  | read (header : Bytes) (length : Nat)
  | write (header data : Bytes)
  deriving DecidableEq

@[reducible]
def Access.Answer : Access → Type
  | read _ length => Vector UInt8 length
  | write _ _ => Unit

/-- An access as an observer of the bus sees it. -/
structure Transfer where
  access : Access
  failed : Bool
  deriving DecidableEq

end Bus

/-- A serial bus with state `σ` and failures `φ`. -/
class Bus (σ : Type) (φ : outParam Type) where
  transact : (access : Bus.Access) → σ → Except φ access.Answer × σ
  /-- A bound on the number of reads that the bus can still answer. -/
  backlog : σ → Nat
  backlog_lt_of_read : ∀ (header : Bytes) (length : Nat) (bus : σ)
      (answer : Vector UInt8 length), (transact (.read header length) bus).1 = .ok answer →
      backlog (transact (.read header length) bus).2 < backlog bus

end ClockCalibration
