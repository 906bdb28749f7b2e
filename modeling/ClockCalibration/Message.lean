import ClockCalibration.Platform
/-!
# Messages

What the engine says about itself.  A message is data; its wording is in one
place, `Message.text`.
-/

namespace ClockCalibration

namespace Message

/-- How much a message matters. -/
inductive Level
  | debug
  | info
  | warn
  deriving DecidableEq

def Level.name : Level → String
  | debug => "DEBUG"
  | info => "INFO"
  | warn => "WARN"

end Message

/-- A message of the engine. -/
inductive Message
  | created (slots : Nat) (period : UInt32) (master : UInt64)
  | started (delay : UInt32)
  | stopped
  | blinkRejected (instant : UInt64)
  | blinkArmed (instant : UInt64)
  | blinkSent (index : UInt32)
  /-- A frame came from someone else than the clock master. -/
  | frameIgnored (source master : UInt64)
  /-- A frame of the clock master was received. -/
  | frameReceived (sequence : UInt8) (instant : UInt64) (correction : Binary32)
  | eventDropped (event : Event)
  | record (entry : Record)
  deriving DecidableEq

namespace Message

def level : Message → Level
  | blinkRejected _ | frameIgnored _ _ | eventDropped _ => .warn
  | record _ => .info
  | _ => .debug

def text : Message → String
  | created slots period master =>
    "CCP initialized: " ++ toString slots ++ " slots, period " ++ toString period.toNat ++
      " us, master " ++ Text.markedHex master.toNat
  | started delay => "CCP started, first blink in " ++ toString delay.toNat ++ " us"
  | stopped => "CCP stopped"
  | blinkRejected instant =>
    "CCP blink at " ++ Text.markedHex instant.toNat ++ " rejected, deferring to the next epoch"
  | blinkArmed instant => "CCP blink armed at " ++ Text.markedHex instant.toNat
  | blinkSent index => "CCP blink " ++ toString index.toNat ++ " sent"
  | frameIgnored source master =>
    "CCP frame from " ++ Text.markedHex source.toNat ++ " ignored, master is " ++
      Text.markedHex master.toNat
  | frameReceived sequence instant correction =>
    "CCP frame " ++ toString sequence.toNat ++ " received at " ++ Text.markedHex instant.toNat ++
      ", cf " ++ correction.text
  | eventDropped event => "Event queue full, dropping " ++ event.text
  | record entry => entry.line

end Message

end ClockCalibration
