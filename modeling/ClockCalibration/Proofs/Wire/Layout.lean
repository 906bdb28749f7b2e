import ClockCalibration.Frame
import ClockCalibration.Proofs.Wire.LittleEndian

/-!
# Reading what was written

A layout is lawful if its reader takes the bytes of a value off the front of a buffer
and leaves what follows them.  That is a statement about every continuation, so the
layout of a frame inherits it from its header and its fields.
-/

namespace ClockCalibration.Wire

/-! ## Fields -/

namespace Reader

/-- A number that was written is read back up to its width. -/
theorem run_number (width n : Nat) (rest : Bytes) :
    (number width).run (littleEndian width n ++ rest) = pure (n % 256 ^ width, rest) := by
  have hle : width ≤ (littleEndian width n ++ rest).length := by simp
  have htake : (littleEndian width n ++ rest).take width = littleEndian width n :=
    List.take_left' (length_littleEndian width n)
  have hdrop : (littleEndian width n ++ rest).drop width = rest :=
    List.drop_left' (length_littleEndian width n)
  change number width _ = _
  rw [number, if_pos hle, htake, hdrop, ofLittleEndian_littleEndian]
  rfl

variable (rest : Bytes)

@[simp] theorem run_u8 (value : UInt8) :
    u8.run ((Field.u8 value).bytes ++ rest) = pure (value, rest) := by
  have hlt : value.toNat < 256 ^ 1 := value.toNat_lt
  rw [u8, Field.bytes, StateT.run_map, run_number, map_pure, Nat.mod_eq_of_lt hlt,
    UInt8.ofNat_toNat]

@[simp] theorem run_u16 (value : UInt16) :
    u16.run ((Field.u16 value).bytes ++ rest) = pure (value, rest) := by
  have hlt : value.toNat < 256 ^ 2 := value.toNat_lt
  rw [u16, Field.bytes, StateT.run_map, run_number, map_pure, Nat.mod_eq_of_lt hlt,
    UInt16.ofNat_toNat]

@[simp] theorem run_u32 (value : UInt32) :
    u32.run ((Field.u32 value).bytes ++ rest) = pure (value, rest) := by
  have hlt : value.toNat < 256 ^ 4 := value.toNat_lt
  rw [u32, Field.bytes, StateT.run_map, run_number, map_pure, Nat.mod_eq_of_lt hlt,
    UInt32.ofNat_toNat]

@[simp] theorem run_u64 (value : UInt64) :
    u64.run ((Field.u64 value).bytes ++ rest) = pure (value, rest) := by
  have hlt : value.toNat < 256 ^ 8 := value.toNat_lt
  rw [u64, Field.bytes, StateT.run_map, run_number, map_pure, Nat.mod_eq_of_lt hlt,
    UInt64.ofNat_toNat]

@[simp] theorem run_binary32 (value : Binary32) :
    binary32.run ((Field.u32 value.bits).bytes ++ rest) = pure (value, rest) := by
  rw [binary32, StateT.run_map, run_u32, map_pure]

end Reader

/-! ## Layouts -/

/-- A packed layout whose reader takes off exactly what was written. -/
class LawfulPacked (α : Type) [Packed α] : Prop where
  /-- The reader takes a value off the front of what follows it. -/
  run_reader : ∀ (value : α) (rest : Bytes),
    (reader : Reader α).run (encode value ++ rest) = pure (value, rest)

export LawfulPacked (run_reader)

/-- What was written is decoded, and what follows it is not looked at. -/
theorem decode_encode {α : Type} [Packed α] [LawfulPacked α] (value : α) (rest : Bytes) :
    decode (encode value ++ rest) = .ok (value, (encode value).length) := by
  rw [decode, run_reader, pure_bind]
  dsimp only
  rw [List.length_append, Nat.add_sub_cancel_right]
  rfl

instance : LawfulPacked BlinkHeader where
  run_reader := by
    intro header rest
    simp [reader, encode, fields]

instance : LawfulPacked Frame where
  run_reader := by
    intro frame rest
    simp [reader, encode, fields]

/-- A calibration frame begins with its header. -/
theorem encode_frame (frame : Frame) :
    encode frame = encode frame.header ++
      [.u64 frame.sent, .u64 frame.received, .u32 frame.correction.bits].flatMap Field.bytes :=
  List.flatMap_append

/-- The bytes of a frame fill its layout. -/
theorem length_encode_frame (frame : Frame) : (encode frame).length = 30 := by
  simp [encode, fields, Field.width]

/-- The time of sending follows the header.  If it fits the device clock, which has five bytes, the
three after them are zero. -/
theorem drop_encode_frame {frame : Frame} (h : frame.sent.toNat < 2 ^ 40) :
    (encode frame).drop 10 = littleEndian 5 frame.sent.toNat ++ ([0, 0, 0] ++
      [.u64 frame.received, .u32 frame.correction.bits].flatMap Field.bytes) := by
  have hlength : (encode frame.header).length = 10 := by simp [encode, fields, Field.width]
  have hhigh : frame.sent.toNat / 256 ^ 5 = 0 := Nat.div_eq_of_lt h
  have hsent : (Field.u64 frame.sent).bytes =
      littleEndian 5 frame.sent.toNat ++ [0, 0, 0] := by
    rw [Field.bytes, littleEndian_add 5 3, hhigh]
    rfl
  rw [encode_frame, List.drop_left' hlength, List.flatMap_cons, hsent, List.append_assoc]

/-- An encoded frame is decoded again, and nothing is left of its bytes. -/
theorem decode_encode_frame (frame : Frame) : decode (encode frame) = .ok (frame, 30) := by
  have hdecode := decode_encode frame []
  rwa [List.append_nil, length_encode_frame] at hdecode

/-- Different frames have different bytes. -/
theorem encode_frame_injective : Function.Injective (encode : Frame → Bytes) := by
  intro frame other h
  have hdecode := decode_encode_frame frame
  rw [h, decode_encode_frame] at hdecode
  cases hdecode
  rfl

/-- The header of an encoded frame is decoded from the bytes that a header has. -/
theorem decode_take_encode_frame (frame : Frame) :
    decode ((encode frame).take 10) = .ok (frame.header, 10) := by
  have hlength : (encode frame.header).length = 10 := by simp [encode, fields, Field.width]
  have hdecode := decode_encode frame.header []
  rwa [List.append_nil, hlength, ← List.take_left' hlength, ← encode_frame] at hdecode

end ClockCalibration.Wire
