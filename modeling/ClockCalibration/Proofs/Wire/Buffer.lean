import ClockCalibration.Proofs.Wire.RoundTrip
import Mathlib.Order.Bounds.Defs

/-!
# Buffers that are too short

What becomes of a buffer that need not have room for a layout, and of bytes that need not be
enough for one.

Writing and reading find out that there is too little in different ways.  Writing stops in front
of the first field that does not fit, and leaves the fields before it in the buffer: they end at
the last of the `boundaries` of the layout for which there is room.  Reading fails as a whole,
because a reader that succeeds has taken as many bytes as its fields have (`Reader.Takes`).  Both
succeed just if there are as many bytes as the layout has.
-/

namespace ClockCalibration.Wire

/-! ## Boundaries -/

/-- Where the fields of a layout begin, and where the last of them ends. -/
def boundaries : List Field → List Nat
  | [] => [0]
  | field :: layout => 0 :: (boundaries layout).map (field.width + ·)

/-- How many bytes of a layout are written if there is so much room. -/
def fitting : List Field → Nat → Nat
  | [], _ => 0
  | field :: layout, room =>
    if field.width ≤ room then field.width + fitting layout (room - field.width) else 0

/-- They reach up to the last boundary for which there is room. -/
theorem isGreatest_fitting (layout : List Field) (room : Nat) :
    IsGreatest {boundary | boundary ∈ boundaries layout ∧ boundary ≤ room}
      (fitting layout room) := by
  induction layout generalizing room with
  | nil =>
      constructor
      · exact ⟨List.mem_singleton_self 0, Nat.zero_le room⟩
      · rintro boundary ⟨hmem, -⟩
        exact Nat.le_of_eq (List.mem_singleton.mp hmem)
  | cons field layout ih =>
      unfold fitting
      split
      · next hroom =>
        obtain ⟨⟨hmem, hle⟩, hgreatest⟩ := ih (room - field.width)
        constructor
        · exact ⟨List.mem_cons_of_mem _ (List.mem_map_of_mem hmem), by omega⟩
        · rintro boundary ⟨hboundary, hfits⟩
          rcases List.mem_cons.mp hboundary with rfl | hboundary
          · exact Nat.zero_le _
          · obtain ⟨later, hlater, rfl⟩ := List.mem_map.mp hboundary
            have hle := hgreatest ⟨hlater, by omega⟩
            omega
      · next hroom =>
        constructor
        · exact ⟨List.mem_cons_self, Nat.zero_le room⟩
        · rintro boundary ⟨hboundary, hfits⟩
          rcases List.mem_cons.mp hboundary with rfl | hboundary
          · exact Nat.le_refl 0
          · obtain ⟨later, -, rfl⟩ := List.mem_map.mp hboundary
            omega

/-! ## Writing -/

/-- Fields are written as long as there is room for them, and the buffer behind them stays. -/
theorem write_eq (layout : List Field) (buffer : Bytes) :
    let bytes := layout.flatMap Field.bytes
    let room := fitting layout buffer.length
    write layout buffer =
      (if bytes.length ≤ buffer.length then .ok bytes.length else .error .endOfStream,
        bytes.take room ++ buffer.drop room) := by
  intro bytes room
  induction layout generalizing buffer with
  | nil => rfl
  | cons field layout ih =>
      have hbytes : bytes = field.bytes ++ layout.flatMap Field.bytes := List.flatMap_cons
      have hwidth := Field.length_bytes field
      by_cases hroom : field.width ≤ buffer.length
      · have hfitting : room = field.width +
            fitting layout (buffer.length - field.width) := if_pos hroom
        rw [write, if_pos hroom, ih, hfitting, hbytes, List.length_append, hwidth, List.length_drop,
          List.drop_drop, ← hwidth, List.take_length_add_append, List.append_assoc]
        by_cases hrest : field.bytes.length + (layout.flatMap Field.bytes).length ≤ buffer.length
        · rw [if_pos hrest, if_pos (by omega)]
          rfl
        · rw [if_neg hrest, if_neg (by omega)]
          rfl
      · have hfitting : room = 0 := if_neg hroom
        rw [write, if_neg hroom, hfitting, hbytes, List.length_append, hwidth, if_neg (by omega)]
        rfl

/-! ## Reading -/

namespace Reader

variable {α β : Type} {count more : Nat}

/-- A reader that takes so many bytes whenever it succeeds. -/
def Takes (reader : Reader α) (count : Nat) : Prop :=
  ∀ bytes value rest, reader.run bytes = .ok (value, rest) → bytes.length = count + rest.length

theorem Takes.pure (value : α) : (Pure.pure value : Reader α).Takes 0 := by
  intro bytes value rest h
  cases h
  exact (Nat.zero_add _).symm

theorem Takes.bind {reader : Reader α} {next : α → Reader β} (h : reader.Takes count)
    (hnext : ∀ value, (next value).Takes more) : (reader >>= next).Takes (count + more) := by
  intro bytes value rest hrun
  rw [StateT.run_bind] at hrun
  cases hfirst : reader.run bytes with
  | error error =>
      rw [hfirst] at hrun
      cases hrun
  | ok taken =>
      rw [hfirst] at hrun
      have hlength := h bytes taken.1 taken.2 hfirst
      have hlater := hnext taken.1 taken.2 value rest hrun
      omega

theorem Takes.map {reader : Reader α} (h : reader.Takes count) (f : α → β) :
    (f <$> reader).Takes count := by
  rw [← bind_pure_comp]
  exact h.bind fun value ↦ .pure (f value)

theorem takes_number (width : Nat) : (number width).Takes width := by
  intro bytes value rest h
  change number width bytes = _ at h
  unfold number at h
  split at h
  · cases h
    rw [List.length_drop]
    omega
  · cases h

theorem takes_u8 : u8.Takes 1 := (takes_number 1).map _

theorem takes_u16 : u16.Takes 2 := (takes_number 2).map _

theorem takes_u32 : u32.Takes 4 := (takes_number 4).map _

theorem takes_u64 : u64.Takes 8 := (takes_number 8).map _

theorem takes_binary32 : binary32.Takes 4 := takes_u32.map _

end Reader

open Reader

/-! ## Layouts -/

/-- What becomes of buffers of any length, for a layout with these boundaries. -/
structure Buffered (α : Type) [Packed α] (bounds : List Nat) (length : Nat) : Prop where
  /-- The boundaries are those of the fields of every value. -/
  bounded : ∀ value : α, boundaries (fields value) = bounds
  /-- They ascend from zero to the length of the layout. -/
  ascending : bounds.head? = some 0 ∧ bounds.Pairwise (· < ·) ∧ bounds.getLast? = some length
  /-- Writing is a success just if there is room for all fields.  In any case the buffer begins
  with the bytes of a value up to the last boundary for which there is room, and what is behind
  that boundary stays. -/
  written : ∀ (value : α) (buffer : Bytes), ∃ boundary,
    IsGreatest {boundary | boundary ∈ bounds ∧ boundary ≤ buffer.length} boundary ∧
    encodeInto value buffer =
      (if length ≤ buffer.length then .ok length else .error .endOfStream,
        (encode value).take boundary ++ buffer.drop boundary)
  /-- Reading is a success just if there are bytes for all fields. -/
  read : ∀ bytes : Bytes,
    (∃ (value : α) (used : Nat), decode bytes = .ok (value, used)) ↔ length ≤ bytes.length
  /-- What is read, if anything, does not depend on what follows these bytes. -/
  confined : ∀ bytes : Bytes, length ≤ bytes.length →
    (decode bytes : Except Error (α × Nat)) = decode (bytes.take length)

section

variable {α : Type} [Packed α]

/-- What is read has been there. -/
theorem length_le_of_decode (takes : (reader : Reader α).Takes (Packed.size α)) {bytes : Bytes}
    {value : α} {used : Nat} (h : decode bytes = .ok (value, used)) :
    Packed.size α ≤ bytes.length := by
  cases hrun : (reader : Reader α).run bytes with
  | error error =>
      rw [decode, hrun] at h
      cases h
  | ok taken =>
      have hlength := takes bytes taken.1 taken.2 hrun
      omega

variable [ExactPacked α]

/-- A value is read just from bytes that begin with its own. -/
theorem decode_eq_ok_iff (takes : (reader : Reader α).Takes (Packed.size α)) {bytes : Bytes}
    {value : α} {used : Nat} :
    decode bytes = .ok (value, used) ↔ encode value <+: bytes ∧ used = Packed.size α := by
  constructor
  · intro h
    obtain ⟨other, hother, hencode⟩ :=
      (roundTrips α).rewritten bytes (length_le_of_decode takes h)
    rw [h] at hother
    cases hother
    exact ⟨hencode ▸ List.take_prefix _ bytes, rfl⟩
  · rintro ⟨⟨rest, rfl⟩, rfl⟩
    exact (roundTrips α).read value rest

/-- Every exact layout is so, given its boundaries and that its reader takes as many bytes as it
has. -/
theorem buffered {bounds : List Nat} (bounded : ∀ value : α, boundaries (fields value) = bounds)
    (ascending : bounds.head? = some 0 ∧ bounds.Pairwise (· < ·) ∧
      bounds.getLast? = some (Packed.size α))
    (takes : (reader : Reader α).Takes (Packed.size α)) :
    Buffered α bounds (Packed.size α) where
  bounded := bounded
  ascending := ascending
  written value buffer := by
    refine ⟨fitting (fields value) buffer.length, ?_, ?_⟩
    · rw [← bounded value]
      exact isGreatest_fitting (fields value) buffer.length
    · rw [← length_encode value]
      exact write_eq (fields value) buffer
  read bytes := by
    constructor
    · rintro ⟨value, used, h⟩
      exact length_le_of_decode takes h
    · intro h
      obtain ⟨value, hdecode, -⟩ := (roundTrips α).rewritten bytes h
      exact ⟨value, _, hdecode⟩
  confined bytes h := by
    obtain ⟨value, hdecode, hencode⟩ := (roundTrips α).rewritten bytes h
    rw [hdecode, eq_comm, decode_eq_ok_iff takes]
    exact ⟨hencode ▸ List.prefix_refl _, rfl⟩

end

theorem takes_header : (reader : Reader BlinkHeader).Takes 10 :=
  takes_u8.bind fun _ ↦ takes_u8.bind fun _ ↦ takes_u64.bind fun _ ↦ .pure _

theorem takes_assignment : (reader : Reader Pan.Assignment).Takes 15 :=
  takes_header.bind fun _ ↦ takes_u16.bind fun _ ↦ takes_u16.bind fun _ ↦
    takes_u8.bind fun _ ↦ .pure _

/-- The times and the correction factor that frames end with. -/
theorem takes_trailer {α : Type} (make : UInt64 → UInt64 → Binary32 → α) :
    (do
      let sent ← u64
      let received ← u64
      let correction ← binary32
      return make sent received correction : Reader α).Takes 20 :=
  takes_u64.bind fun _ ↦ takes_u64.bind fun _ ↦ takes_binary32.bind fun _ ↦ .pure _

/-- **Writing and reading in buffers of any length.**  For every layout, with the boundaries of its
fields and its length: a value is written, and bytes are read, just if there are as many bytes as
the layout has; whether it fits or not, the bytes of a value are written up to the last boundary
for which there is room, and no others are touched; and what is read depends on the bytes of the
layout alone. -/
theorem buffers_of_any_length :
    Buffered BlinkHeader [0, 1, 2, 10] 10 ∧
    Buffered Frame [0, 1, 2, 10, 18, 26, 30] 30 ∧
    Buffered Pan.Assignment [0, 1, 2, 10, 12, 14, 15] 15 ∧
    Buffered Pan.Frame [0, 1, 2, 10, 12, 14, 15, 23, 31, 35] 35 ∧
    Buffered Instant [0, 8] 8 ∧ Buffered Duration [0, 8] 8 := by
  refine ⟨?_, ?_, ?_, ?_, ?_, ?_⟩
  · exact buffered (fun _ ↦ rfl) (by decide) takes_header
  · exact buffered (fun _ ↦ rfl) (by decide) (takes_header.bind fun _ ↦ takes_trailer _)
  · exact buffered (fun _ ↦ rfl) (by decide) takes_assignment
  · exact buffered (fun _ ↦ rfl) (by decide)
      (takes_assignment.bind fun _ ↦ takes_trailer _)
  · exact buffered (fun _ ↦ rfl) (by decide) (takes_u64.map _)
  · exact buffered (fun _ ↦ rfl) (by decide) (takes_u64.map _)

/-- Seventeen bytes have room for the header of a frame, and the other seven stay. -/
example : encodeInto Frame.template (List.replicate 17 0xee) =
    (.error .endOfStream, 0xc2 :: List.replicate 9 0 ++ List.replicate 7 0xee) := rfl

end ClockCalibration.Wire
