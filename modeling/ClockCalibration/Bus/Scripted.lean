import ClockCalibration.Bus.Basic
/-!
# A scripted bus

A bus that answers from a script: a queue of bytes to read, and a queue that
says which accesses fail.  A failing access takes no bytes off the queue, and
a read from an empty queue fails.
-/

namespace ClockCalibration.Bus

/-- The ways in which an access can fail. -/
inductive Fault
  | overrun
  | modeFault
  | frameFormat
  | chipSelectFault
  | other
  deriving DecidableEq

def Fault.name : Fault → String
  | overrun => "Overrun"
  | modeFault => "ModeFault"
  | frameFormat => "FrameFormat"
  | chipSelectFault => "ChipSelectFault"
  | other => "Other"

def Fault.ofName? (name : String) : Option Fault :=
  [overrun, modeFault, frameFormat, chipSelectFault, other].find? (·.name == name)

/-- A bus that answers from a script. -/
structure Scripted where
  reads : List Bytes := []
  /-- What happens to the next accesses: a fault, or nothing. -/
  faults : List (Option Fault) := []

namespace Scripted

/-- Reads the next bytes, cut or filled up with zeros to the length asked for. -/
def read (length : Nat) (bus : Scripted) : Except Fault (Vector UInt8 length) × Scripted :=
  match bus.reads with
  | [] => (.error .other, bus)
  | bytes :: reads => (.ok (Vector.ofFn fun i ↦ bytes.getD i 0), { bus with reads })

/-- Carries out an access that the script does not let fail. -/
def answer : (access : Access) → Scripted → Except Fault access.Answer × Scripted
  | .read _ length, bus => bus.read length
  | .write _ _, bus => (.ok (), bus)

def transact (access : Access) (bus : Scripted) : Except Fault access.Answer × Scripted :=
  match bus.faults with
  | [] => answer access bus
  | none :: faults => answer access { bus with faults }
  | some fault :: faults => (.error fault, { bus with faults })

/-- A read that is answered takes its bytes off the queue. -/
theorem length_reads_lt {length : Nat} {bus : Scripted} {bytes : Vector UInt8 length}
    (h : (bus.read length).1 = .ok bytes) :
    (bus.read length).2.reads.length < bus.reads.length := by
  unfold read at h ⊢
  split at h
  · cases h
  · next heq => simp [heq]

instance : Bus Scripted Fault where
  transact := transact
  backlog bus := bus.reads.length
  backlog_lt_of_read := by
    intro header length bus bytes h
    unfold transact at h ⊢
    split at h
    · exact length_reads_lt h
    · have hlt := length_reads_lt h
      exact hlt
    · cases h

end Scripted

end ClockCalibration.Bus
