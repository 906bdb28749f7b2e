import ClockCalibration.Radio.Basic
import ClockCalibration.Time
import ClockCalibration.Transceiver.Basic
/-!
# The transceiver as a radio

Each request to a radio is a short sequence of register accesses.  An access
that fails ends the sequence, and the request fails with it.

The flags in the status register are cleared by writing ones to them.  A start
that comes too late is flagged there at once; the driver then switches the
transmitter off and clears the flags, so that they do not reject the next
start as well.
-/

namespace ClockCalibration.Transceiver

/-! ## Bits of the registers -/

/-- The length of the time registers in bytes. -/
def timeLength : Nat := 5

/-- System control: start transmitting. -/
def controlStart : UInt8 := 0x02

/-- System control: delay the transmission. -/
def controlDelay : UInt8 := 0x04

/-- System control: switch the transceiver off. -/
def controlOff : UInt8 := 0x40

/-- System control: switch the receiver on after the transmission. -/
def controlWait : UInt8 := 0x80

/-- System status: all flags of the progress of a transmission, in its lowest
byte. -/
def statusTransmitEvents : UInt8 := 0xf0

/-- System status: the frame was sent. -/
def statusFrameSent : UInt64 := 0x80

/-- System status: the delayed start lies too far ahead, or in the past. -/
def statusHalfPeriodWarning : UInt64 := 0x8000000

/-- System status: the transmitter could not power up in time. -/
def statusPowerUpError : UInt64 := 0x400000000

/-- System status: the flags that tell of a delayed start that cannot be met. -/
def statusStartFailed : UInt64 := statusHalfPeriodWarning ||| statusPowerUpError

/-- Transmit control: the frame length. -/
def transmitLengthMask : UInt64 := 0x3ff

/-- Transmit control: the ranging bit. -/
def transmitRanging : UInt64 := 0x8000

/-- Transmit control: the offset of the frame in the transmit buffer. -/
def transmitOffsetMask : UInt64 := 0xffc00000

/-- Transmit control with another frame length, ranging bit and no buffer
offset.  The length includes the two bytes of the checksum. -/
def withFrame (control : UInt64) (length : UInt16) (ranging : Bool) : UInt64 :=
  let cleared := control &&& ~~~(transmitLengthMask ||| transmitRanging ||| transmitOffsetMask)
  let sized := cleared ||| ((length.toUInt64 + 2) &&& transmitLengthMask)
  if ranging then sized ||| transmitRanging else sized

/-! ## The requests -/

section Requests

variable {σ φ : Type} [Bus σ φ]

/-- Sets the length of the next frame and its ranging bit, and keeps all other
settings of transmission. -/
def configureTransmit (length : UInt16) (ranging : Bool) : Action σ φ Unit := do
  let control ← readValue .transmitControl timeLength
  writeValue .transmitControl (withFrame control length ranging) timeLength

/-- Selects whether the receiver is on after the next transmission.  The
transceiver learns of it together with the start. -/
def setWaitForResponse (wait : Bool) : Action σ φ Unit :=
  modify fun session ↦
    { session with driver := { session.driver with waitsForResponse := wait } }

def setDelayedStart (instant : UInt64) : Action σ φ Unit :=
  writeValue .delayedTime (instant &&& timeMax) timeLength

/-- Starts the delayed transmission, and takes the start back if its instant
cannot be met. -/
def startTransmission : Action σ φ StartOutcome := do
  let session ← get
  let start := controlStart ||| controlDelay
  write .systemControl [if session.driver.waitsForResponse then start ||| controlWait else start]
  let status ← readValue .systemStatus timeLength
  if status &&& statusStartFailed = 0 then
    return .started
  write .systemControl [controlOff]
  writeValue .systemStatus statusStartFailed timeLength
  return .rejected

/-- Asks whether the frame was sent, and if so clears the flags that say so. -/
def pollTransmission : Action σ φ Completion := do
  let status ← readValue .systemStatus timeLength
  if status &&& statusFrameSent = 0 then
    return .wouldBlock
  write .systemStatus [statusTransmitEvents]
  return .done

def request : (call : Call) → Action σ φ call.Answer
  | .readSystemTime => readValue .systemTime timeLength
  | .readReceptionTime => readValue .receptionTime timeLength
  | .writeTransmitBuffer payload offset => write (.transmitBuffer offset) payload
  | .readReceiveBuffer length offset => read (.receiveBuffer offset) length
  | .configureTransmit length ranging => configureTransmit length ranging
  | .setWaitForResponse wait => setWaitForResponse wait
  | .setDelayedStart instant => setDelayedStart instant
  | .startTransmission => startTransmission
  | .pollTransmission => pollTransmission
  | .readRegister register length => readValue register length

def perform (call : Call) (driver : Transceiver σ) : Reply (Fault φ) call × Transceiver σ :=
  let (answer, transfers, driver) := run (request call) driver
  (⟨answer, transfers⟩, driver)

/-- A poll that blocks has read the status, which uses up some of the backlog
of the bus. -/
theorem backlog_lt_of_wouldBlock (driver : Transceiver σ)
    (h : (perform .pollTransmission driver).1.answer = .ok .wouldBlock) :
    Bus.backlog (perform .pollTransmission driver).2.bus < Bus.backlog driver.bus := by
  have hread := Bus.backlog_lt_of_read (header false .systemStatus) timeLength driver.bus
  simp only [perform, run, request, pollTransmission, readValue, timeLength, Nat.reduceLT,
    ↓reduceIte, read, EStateM.run_bind, EStateM.run_pure] at h hread ⊢
  simp only [EStateM.run, transfer] at h ⊢
  cases hanswer : (Bus.transact (.read (header false .systemStatus) 5) driver.bus).1 with
  | error failure =>
    simp only [hanswer] at h
    cases h
  | ok bytes =>
    simp only [hanswer] at h ⊢
    by_cases hclear : UInt64.ofNat (Wire.ofLittleEndian bytes.toList) &&& statusFrameSent = 0
    · simp only [hclear, ↓reduceIte]
      exact hread bytes hanswer
    · simp only [hclear, ↓reduceIte, write, transfer, bind, EStateM.bind] at h
      split at h
      · next heq =>
        split at heq
        · cases heq
          cases h
        · cases heq
      · cases h

instance : Radio (Transceiver σ) (Fault φ) where
  perform := perform
  backlog driver := Bus.backlog driver.bus
  backlog_lt_of_wouldBlock := backlog_lt_of_wouldBlock

end Requests

end ClockCalibration.Transceiver
