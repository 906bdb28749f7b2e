/-!
# Hexadecimal text

Numbers in base sixteen without leading zeros.  Addresses and time stamps in
log lines have small digits behind `0x`; the fields of a record have capital
digits and no mark.
-/

namespace ClockCalibration.Text

/-- A number in small hexadecimal digits behind `0x`. -/
def markedHex (n : Nat) : String :=
  "0x" ++ String.ofList (Nat.toDigits 16 n)

/-- A number in capital hexadecimal digits. -/
def capitalHex (n : Nat) : String :=
  String.ofList ((Nat.toDigits 16 n).map Char.toUpper)

end ClockCalibration.Text
