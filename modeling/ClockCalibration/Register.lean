/-!
# Registers

The transceiver is controlled through a register file.  A register has an
index, and access may begin at an offset within it, the sub-index.
-/

namespace ClockCalibration

/-- A place in the register file. -/
structure Register where
  index : UInt8
  /-- The offset within the register. -/
  subIndex : UInt16
  deriving DecidableEq

namespace Register

def systemTime : Register := ⟨0x06, 0⟩

/-- The control of the next transmitted frame. -/
def transmitControl : Register := ⟨0x08, 0⟩

/-- The buffer of the frame to transmit, from an offset on. -/
def transmitBuffer (offset : UInt16) : Register := ⟨0x09, offset⟩

/-- The time of a delayed transmission. -/
def delayedTime : Register := ⟨0x0A, 0⟩

def systemControl : Register := ⟨0x0D, 0⟩

def systemStatus : Register := ⟨0x0F, 0⟩

/-- The buffer of the received frame, from an offset on. -/
def receiveBuffer (offset : UInt16) : Register := ⟨0x11, offset⟩

/-- The interval over which the carrier of a sender was tracked. -/
def trackingInterval : Register := ⟨0x13, 0⟩

/-- The offset by which the carrier of a sender drifted. -/
def trackingOffset : Register := ⟨0x14, 0⟩

/-- The time stamp of the received frame. -/
def receptionTime : Register := ⟨0x15, 0⟩

end Register

end ClockCalibration
