import ClockCalibration.Bus.Basic
import ClockCalibration.Register
/-!
# The transceiver behind a bus

A DW1000 transceiver is controlled by reading and writing its registers over a
serial bus.  Every access begins with a header of one to three bytes:

| byte | bits |
|---|---|
| 1 | write flag, sub-index flag, 6 bits of the index |
| 2, if there is a sub-index | extension flag, low 7 bits of the sub-index |
| 3, if the sub-index exceeds 127 | high 8 bits of the sub-index |

The sub-index has 15 bits; its sixteenth bit is not sent.

What the driver does is an `Action`: it changes the driver's state, keeps a
record of the transfers in their order, and may stop at a fault.
-/

namespace ClockCalibration

/-- The driver of a transceiver behind a bus with state `σ`. -/
structure Transceiver (σ : Type) where
  bus : σ
  /-- Whether the next start asks for the receiver to be on afterwards. -/
  waitsForResponse : Bool := false

namespace Transceiver

/-- Why an access to the transceiver fails. -/
inductive Fault (φ : Type)
  | bus (failure : φ)
  /-- More than 64 bits were to be read or written as a number. -/
  | invalidLength (length : Nat)
  deriving DecidableEq

/-- The text of a fault, given that of the bus failures. -/
def Fault.text {φ : Type} (busText : φ → String) : Fault φ → String
  | bus failure => "Spi(" ++ busText failure ++ ")"
  | invalidLength length => "InvalidLength \x7b len: " ++ toString length ++ " \x7d"

/-- The driver together with the transfers that it has made. -/
structure Session (σ : Type) where
  driver : Transceiver σ
  /-- The transfers, the latest last. -/
  transfers : List Bus.Transfer

/-- What the driver does. -/
abbrev Action (σ φ α : Type) := EStateM (Fault φ) (Session σ) α

variable {σ φ : Type}

/-- Carries out an action.  Answers its outcome, the transfers that it made and
the driver afterwards. -/
def run {α : Type} (action : Action σ φ α) (driver : Transceiver σ) :
    Except (Fault φ) α × List Bus.Transfer × Transceiver σ :=
  match EStateM.run action ⟨driver, []⟩ with
  | .ok value session => (.ok value, session.transfers, session.driver)
  | .error fault session => (.error fault, session.transfers, session.driver)

def text (driver : Transceiver σ) : String :=
  "DW1000 \x7b wait4resp: " ++ toString driver.waitsForResponse ++ ", .. \x7d"

/-! ## Headers -/

def header (write : Bool) (register : Register) : Bytes :=
  let writeFlag : UInt8 := if write then 0x80 else 0
  let index := register.index &&& 0x3f
  let low := register.subIndex.toUInt8 &&& 0x7f
  let high := ((register.subIndex &&& 0x7f80) >>> 7).toUInt8
  if register.subIndex = 0 then [writeFlag ||| index]
  else if register.subIndex ≤ 127 then [writeFlag ||| 0x40 ||| index, low]
  else [writeFlag ||| 0x40 ||| index, 0x80 ||| low, high]

/-! ## Register access -/

section Access

variable [Bus σ φ]

def Session.after (session : Session σ) (access : Bus.Access) : Session σ :=
  let (answer, bus) := Bus.transact access session.driver.bus
  { driver := { session.driver with bus }
    transfers := session.transfers ++ [⟨access, !answer.isOk⟩] }

def transfer (access : Bus.Access) : Action σ φ access.Answer := fun session ↦
  match (Bus.transact access session.driver.bus).1 with
  | .ok value => .ok value (session.after access)
  | .error failure => .error (.bus failure) (session.after access)

def read (register : Register) (length : Nat) : Action σ φ (Vector UInt8 length) :=
  transfer (.read (header false register) length)

def write (register : Register) (data : Bytes) : Action σ φ Unit :=
  transfer (.write (header true register) data)

/-- Reads the first bytes of a register as a little-endian number. -/
def readValue (register : Register) (length : Nat) : Action σ φ UInt64 :=
  if 8 < length then
    throw (.invalidLength length)
  else do
    let bytes ← read register length
    return UInt64.ofNat (Wire.ofLittleEndian bytes.toList)

/-- Writes the low bytes of a number to a register. -/
def writeValue (register : Register) (value : UInt64) (length : Nat) : Action σ φ Unit :=
  if 8 < length then
    throw (.invalidLength length)
  else
    write register (Wire.littleEndian length value.toNat)

end Access

end Transceiver

end ClockCalibration
