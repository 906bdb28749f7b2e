import ClockCalibration.Proofs.Wire.Layout

/-!
# Writing what was read

The other direction of `Wire.Layout`: bytes that are as many as a layout has are the bytes of
some value, whatever they are, because every field takes all the values of its width.  Once the
bytes are known to be those of a value, that they are decoded to it is what `decode_encode` says
already, so the reader is not opened again.

`round_trip` puts the two directions together for all layouts, with the number of bytes of each.
-/

namespace ClockCalibration.Wire

/-! ## Fields -/

/-- The first bytes of many are those of a number. -/
theorem exists_littleEndian {width : Nat} {bytes : Bytes} (count : Nat)
    (h : bytes.length = width + count) :
    ∃ number rest, number < 256 ^ width ∧ bytes = littleEndian width number ++ rest ∧
      rest.length = count := by
  have hlength : (bytes.take width).length = width := by rw [List.length_take]; omega
  refine ⟨ofLittleEndian (bytes.take width), bytes.drop width, ?_, ?_, ?_⟩
  · have hlt := ofLittleEndian_lt (bytes.take width)
    rwa [hlength] at hlt
  · have hbytes := littleEndian_ofLittleEndian (bytes.take width)
    rw [hlength] at hbytes
    rw [hbytes, List.take_append_drop]
  · rw [List.length_drop]
    omega

namespace Field

variable {bytes : Bytes} (count : Nat)

/-- They are those of a field of that width. -/
theorem exists_u8 (h : bytes.length = 1 + count) :
    ∃ value rest, bytes = (u8 value).bytes ++ rest ∧ rest.length = count := by
  obtain ⟨number, rest, hlt, rfl, hrest⟩ := exists_littleEndian count h
  refine ⟨.ofNat number, rest, ?_, hrest⟩
  rw [Field.bytes, UInt8.toNat_ofNat_of_lt' hlt]

theorem exists_u16 (h : bytes.length = 2 + count) :
    ∃ value rest, bytes = (u16 value).bytes ++ rest ∧ rest.length = count := by
  obtain ⟨number, rest, hlt, rfl, hrest⟩ := exists_littleEndian count h
  refine ⟨.ofNat number, rest, ?_, hrest⟩
  rw [Field.bytes, UInt16.toNat_ofNat_of_lt' hlt]

theorem exists_u32 (h : bytes.length = 4 + count) :
    ∃ value rest, bytes = (u32 value).bytes ++ rest ∧ rest.length = count := by
  obtain ⟨number, rest, hlt, rfl, hrest⟩ := exists_littleEndian count h
  refine ⟨.ofNat number, rest, ?_, hrest⟩
  rw [Field.bytes, UInt32.toNat_ofNat_of_lt' hlt]

theorem exists_u64 (h : bytes.length = 8 + count) :
    ∃ value rest, bytes = (u64 value).bytes ++ rest ∧ rest.length = count := by
  obtain ⟨number, rest, hlt, rfl, hrest⟩ := exists_littleEndian count h
  refine ⟨.ofNat number, rest, ?_, hrest⟩
  rw [Field.bytes, UInt64.toNat_ofNat_of_lt' hlt]

end Field

/-! ## Layouts -/

/-- A lawful layout that is filled by every value, and by all bytes that are as many as it has. -/
class ExactPacked (α : Type) [Packed α] : Prop extends LawfulPacked α where
  /-- Every value fills the layout. -/
  length_encode : ∀ value : α, (encode value).length = Packed.size α
  /-- Bytes that fill the layout are those of a value. -/
  exists_encode : ∀ bytes : Bytes, bytes.length = Packed.size α → ∃ value : α, encode value = bytes

export ExactPacked (length_encode exists_encode)

/-- The first bytes of many are those of a value. -/
theorem exists_encode_append (α : Type) [Packed α] [ExactPacked α] {bytes : Bytes} (count : Nat)
    (h : bytes.length = Packed.size α + count) :
    ∃ (value : α) (rest : Bytes), bytes = encode value ++ rest ∧ rest.length = count := by
  have hlength : (bytes.take (Packed.size α)).length = Packed.size α := by
    rw [List.length_take]
    omega
  obtain ⟨value, hvalue⟩ := exists_encode (α := α) _ hlength
  refine ⟨value, bytes.drop (Packed.size α), ?_, ?_⟩
  · rw [hvalue, List.take_append_drop]
  · rw [List.length_drop]
    omega

instance : LawfulPacked Instant where
  run_reader := by
    intro instant rest
    simp [reader, encode, fields]

instance : LawfulPacked Duration where
  run_reader := by
    intro duration rest
    simp [reader, encode, fields]

instance : LawfulPacked Pan.Assignment where
  run_reader := by
    intro assignment rest
    simp [reader, encode, fields]

instance : LawfulPacked Pan.Frame where
  run_reader := by
    intro frame rest
    simp [reader, encode, fields]

instance : ExactPacked Instant where
  length_encode _ := rfl
  exists_encode := by
    intro bytes h
    obtain ⟨ticks, rest, rfl, hticks⟩ := Field.exists_u64 0 h
    obtain rfl := List.length_eq_zero_iff.mp hticks
    exact ⟨⟨ticks⟩, by simp [encode, fields]⟩

instance : ExactPacked Duration where
  length_encode _ := rfl
  exists_encode := by
    intro bytes h
    obtain ⟨ticks, rest, rfl, hticks⟩ := Field.exists_u64 0 h
    obtain rfl := List.length_eq_zero_iff.mp hticks
    exact ⟨⟨ticks⟩, by simp [encode, fields]⟩

instance : ExactPacked BlinkHeader where
  length_encode _ := rfl
  exists_encode := by
    intro bytes h
    obtain ⟨control, rest, rfl, hcontrol⟩ := Field.exists_u8 9 h
    obtain ⟨sequence, rest, rfl, hsequence⟩ := Field.exists_u8 8 hcontrol
    obtain ⟨source, rest, rfl, hsource⟩ := Field.exists_u64 0 hsequence
    obtain rfl := List.length_eq_zero_iff.mp hsource
    exact ⟨⟨control, sequence, source⟩, by simp [encode, fields]⟩

instance : ExactPacked Frame where
  length_encode _ := rfl
  exists_encode := by
    intro bytes h
    obtain ⟨header, rest, rfl, hheader⟩ := exists_encode_append BlinkHeader 20 h
    obtain ⟨sent, rest, rfl, hsent⟩ := Field.exists_u64 12 hheader
    obtain ⟨received, rest, rfl, hreceived⟩ := Field.exists_u64 4 hsent
    obtain ⟨correction, rest, rfl, hcorrection⟩ := Field.exists_u32 0 hreceived
    obtain rfl := List.length_eq_zero_iff.mp hcorrection
    exact ⟨⟨header, sent, received, ⟨correction⟩⟩, by simp [encode_frame]⟩

/-- An address assignment begins with its header. -/
theorem encode_assignment (assignment : Pan.Assignment) :
    encode assignment = encode assignment.header ++
      [.u16 assignment.network, .u16 assignment.shortAddress, .u8 assignment.slot].flatMap
        Field.bytes :=
  List.flatMap_append

instance : ExactPacked Pan.Assignment where
  length_encode _ := rfl
  exists_encode := by
    intro bytes h
    obtain ⟨header, rest, rfl, hheader⟩ := exists_encode_append BlinkHeader 5 h
    obtain ⟨network, rest, rfl, hnetwork⟩ := Field.exists_u16 3 hheader
    obtain ⟨shortAddress, rest, rfl, hshortAddress⟩ := Field.exists_u16 1 hnetwork
    obtain ⟨slot, rest, rfl, hslot⟩ := Field.exists_u8 0 hshortAddress
    obtain rfl := List.length_eq_zero_iff.mp hslot
    exact ⟨⟨header, network, shortAddress, slot⟩, by simp [encode_assignment]⟩

/-- An address assignment with times begins with the assignment. -/
theorem encode_panFrame (frame : Pan.Frame) :
    encode frame = encode frame.assignment ++
      [.u64 frame.sent, .u64 frame.received, .u32 frame.correction.bits].flatMap Field.bytes :=
  List.flatMap_append

instance : ExactPacked Pan.Frame where
  length_encode _ := rfl
  exists_encode := by
    intro bytes h
    obtain ⟨assignment, rest, rfl, hassignment⟩ := exists_encode_append Pan.Assignment 20 h
    obtain ⟨sent, rest, rfl, hsent⟩ := Field.exists_u64 12 hassignment
    obtain ⟨received, rest, rfl, hreceived⟩ := Field.exists_u64 4 hsent
    obtain ⟨correction, rest, rfl, hcorrection⟩ := Field.exists_u32 0 hreceived
    obtain rfl := List.length_eq_zero_iff.mp hcorrection
    exact ⟨⟨assignment, sent, received, ⟨correction⟩⟩, by simp [encode_panFrame]⟩

/-! ## Writing into a buffer -/

/-- Fields that fit are all written, and the buffer behind them stays. -/
theorem write_of_le {layout : List Field} {buffer : Bytes}
    (h : (layout.flatMap Field.bytes).length ≤ buffer.length) :
    write layout buffer = (.ok (layout.flatMap Field.bytes).length,
      layout.flatMap Field.bytes ++ buffer.drop (layout.flatMap Field.bytes).length) := by
  induction layout generalizing buffer with
  | nil => rfl
  | cons field layout ih =>
      rw [List.flatMap_cons, List.length_append, Field.length_bytes] at h ⊢
      have hrest : (layout.flatMap Field.bytes).length ≤ (buffer.drop field.width).length := by
        rw [List.length_drop]
        omega
      rw [write, if_pos (by omega), ih hrest, List.drop_drop, List.append_assoc]
      rfl

/-! ## Round trips -/

/-- A layout of so many bytes is read as it is written and written as it is read. -/
structure RoundTrips (α : Type) [Packed α] (length : Nat) : Prop where
  /-- A value is written at the front of any buffer that has room for it. -/
  written : ∀ (value : α) (buffer : Bytes), length ≤ buffer.length →
    encodeInto value buffer = (.ok length, encode value ++ buffer.drop length)
  /-- What was written is read, whatever follows it. -/
  read : ∀ (value : α) (rest : Bytes), decode (encode value ++ rest) = .ok (value, length)
  /-- What is read was written, except for what follows it. -/
  rewritten : ∀ bytes : Bytes, length ≤ bytes.length →
    ∃ value : α, decode bytes = .ok (value, length) ∧ encode value = bytes.take length

/-- So is every exact layout. -/
theorem roundTrips (α : Type) [Packed α] [ExactPacked α] : RoundTrips α (Packed.size α) where
  written value buffer h := by
    rw [← length_encode value] at h ⊢
    exact write_of_le h
  read value rest := by rw [decode_encode, length_encode]
  rewritten bytes h := by
    have hlength : bytes.length = Packed.size α + (bytes.length - Packed.size α) := by omega
    obtain ⟨value, rest, rfl, -⟩ := exists_encode_append α _ hlength
    refine ⟨value, ?_, (List.take_left' (length_encode value)).symm⟩
    rw [decode_encode, length_encode]

/-- As many bytes as a header has are a header, whatever they are. -/
theorem exists_header {bytes : Bytes} (h : bytes.length = 10) :
    ∃ header : BlinkHeader, decode bytes = .ok (header, 10) := by
  obtain ⟨header, hdecode, -⟩ := (roundTrips BlinkHeader).rewritten bytes (Nat.le_of_eq h.symm)
  exact ⟨header, hdecode⟩

/-- A header is decoded from all bytes that begin with those of it. -/
theorem decode_header {header : BlinkHeader} {bytes : Bytes} (h : encode header <+: bytes)
    (rest : Bytes) : decode (bytes ++ rest) = .ok (header, 10) := by
  obtain ⟨trailer, rfl⟩ := h
  rw [List.append_assoc]
  exact (roundTrips BlinkHeader).read header _

/-- **Reading and writing are inverse to each other.**  Every value of every layout is written in
full where there is room for it, and read back from its bytes whatever follows them; all bytes
that are at least as many as the layout has are read, and are the bytes of what is read.  And
the header of every frame is read from the bytes of the whole frame. -/
theorem round_trip :
    (RoundTrips BlinkHeader 10 ∧ RoundTrips Frame 30 ∧ RoundTrips Pan.Assignment 15 ∧
      RoundTrips Pan.Frame 35 ∧ RoundTrips Instant 8 ∧ RoundTrips Duration 8) ∧
    (∀ (frame : Frame) (rest : Bytes), decode (encode frame ++ rest) = .ok (frame.header, 10)) ∧
    (∀ (assignment : Pan.Assignment) (rest : Bytes),
      decode (encode assignment ++ rest) = .ok (assignment.header, 10)) ∧
    ∀ (frame : Pan.Frame) (rest : Bytes),
      decode (encode frame ++ rest) = .ok (frame.assignment.header, 10) := by
  refine ⟨⟨roundTrips BlinkHeader, roundTrips Frame, roundTrips Pan.Assignment,
    roundTrips Pan.Frame, roundTrips Instant, roundTrips Duration⟩, fun frame ↦ ?_,
    fun assignment ↦ ?_, fun frame ↦ ?_⟩
  · exact decode_header ⟨_, (encode_frame frame).symm⟩
  · exact decode_header ⟨_, (encode_assignment assignment).symm⟩
  · have hassignment : encode frame.assignment <+: encode frame :=
      ⟨_, (encode_panFrame frame).symm⟩
    exact decode_header (.trans ⟨_, (encode_assignment frame.assignment).symm⟩ hassignment)

end ClockCalibration.Wire
