import ClockCalibration.Wire.LittleEndian
/-!
# Packed layouts

A packed layout is a sequence of unsigned fields, each little-endian, with
nothing between them.  `write` puts fields at the front of a buffer and
`Reader` takes them off the front of received bytes.

Writing is not atomic: a field is written entirely or not at all, and the
first one that does not fit ends the writing with the fields before it already
in the buffer.  Reading ignores whatever follows the last field.
-/

namespace ClockCalibration.Wire

/-- The reason why a layout cannot be written or read. -/
inductive Error
  | endOfStream
  deriving DecidableEq

def Error.text : Error → String
  | endOfStream => "EndOfStream"

/-- One field of a packed layout together with its value. -/
inductive Field
  | u8 (value : UInt8)
  | u16 (value : UInt16)
  | u32 (value : UInt32)
  | u64 (value : UInt64)
  deriving DecidableEq

namespace Field

def width : Field → Nat
  | u8 _ => 1
  | u16 _ => 2
  | u32 _ => 4
  | u64 _ => 8

def bytes : Field → Bytes
  | u8 value => littleEndian 1 value.toNat
  | u16 value => littleEndian 2 value.toNat
  | u32 value => littleEndian 4 value.toNat
  | u64 value => littleEndian 8 value.toNat

@[simp]
theorem length_bytes (field : Field) : field.bytes.length = field.width := by
  cases field <;> simp [bytes, width]

end Field

/-- Writes fields one after the other at the front of a buffer.  Answers how
many bytes they take up, and the buffer afterwards. -/
def write : List Field → Bytes → Except Error Nat × Bytes
  | [], buffer => (.ok 0, buffer)
  | field :: fields, buffer =>
    if field.width ≤ buffer.length then
      let (used, rest) := write fields (buffer.drop field.width)
      (used.map (field.width + ·), field.bytes ++ rest)
    else
      (.error .endOfStream, buffer)

/-- A computation that takes fields off the front of received bytes. -/
abbrev Reader (α : Type) := StateT Bytes (Except Error) α

namespace Reader

/-- Takes a number of the given width. -/
def number (width : Nat) : Reader Nat := fun bytes ↦
  if width ≤ bytes.length then
    .ok (ofLittleEndian (bytes.take width), bytes.drop width)
  else
    .error .endOfStream

/-- Takes one byte. -/
def u8 : Reader UInt8 := UInt8.ofNat <$> number 1

/-- Takes a 16-bit word. -/
def u16 : Reader UInt16 := UInt16.ofNat <$> number 2

/-- Takes a 32-bit word. -/
def u32 : Reader UInt32 := UInt32.ofNat <$> number 4

/-- Takes a 64-bit word. -/
def u64 : Reader UInt64 := UInt64.ofNat <$> number 8

end Reader

/-- A type with a packed layout. -/
class Packed (α : Type) where
  /-- The length of the layout in bytes. -/
  size : Nat
  /-- The fields of a value, in the order in which they are sent. -/
  fields : α → List Field
  reader : Reader α

export Packed (fields reader)

variable {α : Type} [Packed α]

/-- The packed bytes of a value. -/
def encode (value : α) : Bytes := (fields value).flatMap Field.bytes

/-- Writes a value at the front of a buffer. -/
def encodeInto (value : α) (buffer : Bytes) : Except Error Nat × Bytes :=
  write (fields value) buffer

/-- Reads a value off the front of received bytes.  Answers the value and how
many bytes it takes up. -/
def decode (bytes : Bytes) : Except Error (α × Nat) := do
  let (value, rest) ← reader.run bytes
  return (value, bytes.length - rest.length)

end ClockCalibration.Wire
