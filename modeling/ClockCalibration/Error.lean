import ClockCalibration.FrameRing
/-!
# Errors

The causes for which an operation of a node fails, and the wording of each.
-/

namespace ClockCalibration

/-- Why an operation fails, for a radio that fails with `ε`. -/
inductive Error (ε : Type)
  | radio (failure : ε)
  | encoding (error : Wire.Error)
  | invalidFrameCount (requested : Nat)
  /-- The instance has another number of slots. -/
  | frameCountMismatch (configured requested : Nat)
  | invalidConfiguration
  | notInitialized
  deriving DecidableEq

/-- The wording of an error, given that of the radio failures. -/
def Error.message {ε : Type} (radioText : ε → String) : Error ε → String
  | radio failure => "radio transport error: " ++ radioText failure
  | encoding error => "frame encoding error: " ++ error.text
  | invalidFrameCount requested =>
    "invalid frame count " ++ toString requested ++ ", supported range is 2..=" ++
      toString FrameRing.maxSize
  | frameCountMismatch configured requested =>
    "frame count mismatch: initialized with " ++ toString configured ++ ", requested " ++
      toString requested
  | invalidConfiguration => "invalid configuration"
  | notInitialized => "clock calibration not initialized"

end ClockCalibration
