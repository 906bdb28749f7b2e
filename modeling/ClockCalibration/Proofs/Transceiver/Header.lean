import ClockCalibration.Proofs.Wire.Layout
import ClockCalibration.Transceiver.Basic
import Mathlib.Data.UInt

/-!
# Reading headers

A header has no length field.  The transceiver finds out how long it is while it reads it: the first
byte tells whether there is a sub-index, and the second whether the sub-index has a third byte.  What
it makes of the bytes in this way is a `Heading`.

Whatever follows a header, its heading is read and no byte more or less is taken.  So a header is no
prefix of another one, and two accesses are told apart by their first bytes.  What a heading does
not tell are the two high bits of an index and the highest bit of a sub-index, for which there is no
room.
-/

namespace ClockCalibration

/-- There is room for a register in a header: its index has six bits, and its sub-index fifteen. -/
structure Register.Fits (register : Register) : Prop where
  index : register.index.toNat < 2 ^ 6
  subIndex : register.subIndex.toNat < 2 ^ 15

namespace Transceiver

open Wire (Reader)

/-! ## Headings -/

/-- What a header says. -/
structure Heading where
  write : Bool
  index : Nat
  subIndex : Nat
  deriving DecidableEq

namespace Heading

/-- Takes a sub-index: seven bits, and eight more if the flag above them is set. -/
def subIndexReader : Reader Nat := do
  let low ← Reader.u8
  if low.toNat.testBit 7 then
    let high ← Reader.u8
    return low.toNat % 2 ^ 7 + 2 ^ 7 * high.toNat
  else
    return low.toNat % 2 ^ 7

/-- Takes a header: the flags of a write and of a sub-index, six bits of an index, and a sub-index if
there is one. -/
def reader : Reader Heading := do
  let first ← Reader.u8
  let subIndex ← if first.toNat.testBit 6 then subIndexReader else pure 0
  return { write := first.toNat.testBit 7, index := first.toNat % 2 ^ 6, subIndex }

/-- The heading of an access to a register, as far as there is room for it. -/
def ofAccess (write : Bool) (register : Register) : Heading where
  write
  index := register.index.toNat % 2 ^ 6
  subIndex := register.subIndex.toNat % 2 ^ 15

end Heading

/-! ## Bytes of a header -/

section

variable {flags bits : UInt8} {width : Nat}

/-- Flags above some bits are those that were set. -/
theorem testBit_flags_or (hbits : bits.toNat < 2 ^ width) {i : Nat} (hi : width ≤ i) :
    (flags ||| bits).toNat.testBit i = flags.toNat.testBit i := by
  have hlt : bits.toNat < 2 ^ i := hbits.trans_le (Nat.pow_le_pow_right Nat.two_pos hi)
  rw [UInt8.toNat_or, Nat.testBit_or, Nat.testBit_lt_two_pow hlt, Bool.or_false]

/-- The bits below the flags are those that were put there. -/
theorem mod_flags_or (hflags : 2 ^ width ∣ flags.toNat) (hbits : bits.toNat < 2 ^ width) :
    (flags ||| bits).toNat % 2 ^ width = bits.toNat := by
  obtain ⟨high, hhigh⟩ := hflags
  rw [UInt8.toNat_or, hhigh, ← Nat.two_pow_add_eq_or_of_lt hbits, Nat.mul_add_mod,
    Nat.mod_eq_of_lt hbits]

end

theorem toNat_indexBits (index : UInt8) : (index &&& 0x3f).toNat = index.toNat % 2 ^ 6 := by
  rw [UInt8.toNat_and]
  exact Nat.and_two_pow_sub_one_eq_mod _ 6

theorem indexBits_lt (index : UInt8) : (index &&& 0x3f).toNat < 2 ^ 6 := by
  rw [toNat_indexBits]
  exact Nat.mod_lt _ (by decide)

theorem toNat_lowBits (subIndex : UInt16) :
    (subIndex.toUInt8 &&& 0x7f).toNat = subIndex.toNat % 2 ^ 7 := by
  rw [UInt8.toNat_and, UInt16.toNat_toUInt8]
  exact (Nat.and_two_pow_sub_one_eq_mod _ 7).trans (Nat.mod_mod_of_dvd _ (by decide))

theorem lowBits_lt (subIndex : UInt16) : (subIndex.toUInt8 &&& 0x7f).toNat < 2 ^ 7 := by
  rw [toNat_lowBits]
  exact Nat.mod_lt _ (by decide)

theorem toNat_highBits (subIndex : UInt16) :
    ((subIndex &&& 0x7f80) >>> 7).toUInt8.toNat = subIndex.toNat / 2 ^ 7 % 2 ^ 8 := by
  have hshift : (7 : UInt16).toNat % 16 = 7 := rfl
  have hmask : (0x7f80 : UInt16).toNat >>> 7 = 2 ^ 8 - 1 := rfl
  rw [UInt16.toNat_toUInt8, UInt16.toNat_shiftRight, hshift, UInt16.toNat_and,
    Nat.shiftRight_and_distrib, hmask, Nat.and_two_pow_sub_one_eq_mod, Nat.mod_mod,
    Nat.shiftRight_eq_div_pow]

/-- The flags in the first byte of a header: whether the access is a write, and whether there is a
sub-index. -/
def flags (write extended : Bool) : UInt8 :=
  (if write then 0x80 else 0) ||| if extended then 0x40 else 0

section

variable {write : Bool} {register : Register}

/-- The flags and six bits of the index. -/
theorem header_of_eq_zero (h : register.subIndex = 0) :
    header write register = [flags write false ||| register.index &&& 0x3f] := by
  rw [header, if_pos h]
  cases write <;> rfl

theorem header_of_le (hne : register.subIndex ≠ 0) (h : register.subIndex ≤ 127) :
    header write register =
      [flags write true ||| register.index &&& 0x3f, register.subIndex.toUInt8 &&& 0x7f] := by
  rw [header, if_neg hne, if_pos h]
  rfl

theorem header_of_lt (hne : register.subIndex ≠ 0) (h : ¬ register.subIndex ≤ 127) :
    header write register =
      [flags write true ||| register.index &&& 0x3f, 0x80 ||| register.subIndex.toUInt8 &&& 0x7f,
        ((register.subIndex &&& 0x7f80) >>> 7).toUInt8] := by
  rw [header, if_neg hne, if_neg h]
  rfl

end

/-! ## Reading them -/

namespace Heading

variable (rest : Bytes)

theorem run_u8_cons (byte : UInt8) : Reader.u8.run (byte :: rest) = pure (byte, rest) := by
  have hbyte : (Wire.Field.u8 byte).bytes = [byte] := by simp [Wire.Field.bytes, Wire.littleEndian]
  have hrun := Reader.run_u8 rest byte
  rwa [hbyte, List.singleton_append] at hrun

/-- A sub-index of seven bits is read from its one byte. -/
theorem run_subIndexReader_of_lt {low : UInt8} (h : low.toNat < 2 ^ 7) :
    subIndexReader.run (low :: rest) = pure (low.toNat, rest) := by
  have hflag : low.toNat.testBit 7 = false := Nat.testBit_lt_two_pow h
  rw [subIndexReader, StateT.run_bind, run_u8_cons, pure_bind]
  simp only [hflag, Bool.false_eq_true, ↓reduceIte, Nat.mod_eq_of_lt h]
  rfl

/-- A longer one is read from both of its bytes. -/
theorem run_subIndexReader_of_flag {low : UInt8} (h : low.toNat < 2 ^ 7) (high : UInt8) :
    subIndexReader.run ((0x80 ||| low) :: high :: rest) =
      pure (low.toNat + 2 ^ 7 * high.toNat, rest) := by
  have hflag : (0x80 ||| low).toNat.testBit 7 = true := testBit_flags_or h (Nat.le_refl 7)
  have hlow : (0x80 ||| low).toNat % 2 ^ 7 = low.toNat := mod_flags_or (by decide) h
  rw [subIndexReader, StateT.run_bind, run_u8_cons, pure_bind]
  simp only [hflag, ↓reduceIte, hlow]
  rw [StateT.run_bind, run_u8_cons]
  rfl

/-- From the first byte the flags and the index are read, and the flags tell how to go on. -/
theorem run_reader_cons (write extended : Bool) (index : UInt8) :
    reader.run ((flags write extended ||| index &&& 0x3f) :: rest) =
      (do
        let subIndex ← if extended then subIndexReader else pure 0
        return ⟨write, index.toNat % 2 ^ 6, subIndex⟩ : Reader Heading).run rest := by
  have hlt := indexBits_lt index
  have hflags (write extended : Bool) : 2 ^ 6 ∣ (flags write extended).toNat ∧
      (flags write extended).toNat.testBit 6 = extended ∧
      (flags write extended).toNat.testBit 7 = write := by
    revert write extended
    decide
  obtain ⟨hhigh, hextended, hwrite⟩ := hflags write extended
  rw [reader, StateT.run_bind, run_u8_cons, pure_bind]
  simp only [testBit_flags_or hlt (Nat.le_refl 6), hextended,
    testBit_flags_or hlt (Nat.le_succ 6), hwrite, mod_flags_or hhigh hlt, toNat_indexBits]

end Heading

/-! ## Headers -/

/-- The heading of a header is read, whatever follows. -/
theorem run_reader_header (write : Bool) (register : Register) (rest : Bytes) :
    Heading.reader.run (header write register ++ rest) =
      pure (.ofAccess write register, rest) := by
  have hlow := lowBits_lt register.subIndex
  -- the three lengths, as `header` tells them apart
  by_cases hzero : register.subIndex = 0
  · have hsubIndex : register.subIndex.toNat % 2 ^ 15 = 0 := by
      rw [hzero]
      rfl
    rw [header_of_eq_zero hzero, List.singleton_append, Heading.run_reader_cons,
      Heading.ofAccess, hsubIndex]
    rfl
  · by_cases hshort : register.subIndex ≤ 127
    · have hle : register.subIndex.toNat ≤ 127 := hshort
      have hsubIndex :
          (register.subIndex.toUInt8 &&& 0x7f).toNat = register.subIndex.toNat % 2 ^ 15 := by
        rw [toNat_lowBits]
        omega
      rw [header_of_le hzero hshort, List.cons_append, Heading.run_reader_cons, if_pos rfl,
        StateT.run_bind, List.singleton_append, Heading.run_subIndexReader_of_lt rest hlow,
        hsubIndex]
      rfl
    · have hsubIndex : (register.subIndex.toUInt8 &&& 0x7f).toNat +
          2 ^ 7 * ((register.subIndex &&& 0x7f80) >>> 7).toUInt8.toNat =
            register.subIndex.toNat % 2 ^ 15 := by
        rw [toNat_lowBits, toNat_highBits]
        exact (Nat.mod_mul (a := 2 ^ 7) (b := 2 ^ 8)).symm
      rw [header_of_lt hzero hshort, List.cons_append, Heading.run_reader_cons, if_pos rfl,
        StateT.run_bind, List.cons_append, List.singleton_append,
        Heading.run_subIndexReader_of_flag rest hlow, hsubIndex]
      rfl

/-- Accesses to registers for which there is room are told apart by their headings. -/
theorem Heading.ofAccess_inj {write write' : Bool} {register register' : Register}
    (h : register.Fits) (h' : register'.Fits)
    (same : ofAccess write register = ofAccess write' register') :
    (write, register) = (write', register') := by
  obtain ⟨hwrite, hindex, hsubIndex⟩ := Heading.mk.inj same
  rw [Nat.mod_eq_of_lt h.index, Nat.mod_eq_of_lt h'.index] at hindex
  rw [Nat.mod_eq_of_lt h.subIndex, Nat.mod_eq_of_lt h'.subIndex] at hsubIndex
  cases register
  cases register'
  obtain rfl := UInt8.toNat_inj.mp hindex
  obtain rfl := UInt16.toNat_inj.mp hsubIndex
  rw [hwrite]

/-- They are told apart by their headers, even if only one of these is complete. -/
theorem eq_of_header_isPrefix {write write' : Bool} {register register' : Register}
    (h : register.Fits) (h' : register'.Fits)
    (begins : header write register <+: header write' register') :
    (write, register) = (write', register') := by
  obtain ⟨rest, hrest⟩ := begins
  have hshort := run_reader_header write register rest
  have hlong := run_reader_header write' register' []
  rw [List.append_nil, ← hrest, hshort] at hlong
  exact Heading.ofAccess_inj h h' (Prod.mk.inj (Except.ok.inj hlong)).1

theorem length_header (write : Bool) (register : Register) :
    (header write register).length =
      if register.subIndex = 0 then 1 else if register.subIndex ≤ 127 then 2 else 3 := by
  split_ifs with hzero hshort
  · rw [header_of_eq_zero hzero]
    rfl
  · rw [header_of_le hzero hshort]
    rfl
  · rw [header_of_lt hzero hshort]
    rfl

/-- **Headers are uniquely decodable.**  Whatever follows the header of an access, its bytes are
taken and no others, and they tell whether it is a write, the index modulo 64 and the sub-index
modulo `2 ^ 15`.  So if two accesses differ and there is room for their registers, the header of one
is no prefix of that of the other.  A header has one, two or three bytes just if the sub-index is
zero, from 1 to 127, or above. -/
theorem uniquely_decodable :
    (∀ (write : Bool) (register : Register) (rest : Bytes),
      Heading.reader.run (header write register ++ rest) = .ok
        (⟨write, register.index.toNat % 64, register.subIndex.toNat % 2 ^ 15⟩, rest)) ∧
    (∀ (write write' : Bool) (register register' : Register), register.Fits → register'.Fits →
      (write, register) ≠ (write', register') →
      ¬ header write register <+: header write' register') ∧
    ∀ (write : Bool) (register : Register),
      ((header write register).length = 1 ↔ register.subIndex = 0) ∧
      ((header write register).length = 2 ↔
        1 ≤ register.subIndex.toNat ∧ register.subIndex.toNat ≤ 127) ∧
      ((header write register).length = 3 ↔ 127 < register.subIndex.toNat) := by
  refine ⟨run_reader_header, ?_, fun write register ↦ ?_⟩
  · intro write write' register register' h h' differ begins
    exact differ (eq_of_header_isPrefix h h' begins)
  · have hzero : register.subIndex = 0 ↔ register.subIndex.toNat = 0 := UInt16.toNat_inj.symm
    have hshort : register.subIndex ≤ 127 ↔ register.subIndex.toNat ≤ 127 := Iff.rfl
    rw [length_header]
    simp only [hzero, hshort]
    split_ifs <;> omega

/-- The second byte of a long sub-index has the bits of a short one, and the flag besides. -/
theorem uniquely_decodable_of_long_sub_index :
    let short : Register := ⟨0x2e, 0x04⟩
    let long : Register := ⟨0x2e, 0x1804⟩
    header false short = [0x6e, 0x04] ∧ header false long = [0x6e, 0x84, 0x30] ∧
      ¬ header false short <+: header false long ∧
      Heading.reader.run [0x6e, 0x84, 0x30, 0x01] = .ok (⟨false, 0x2e, 0x1804⟩, [0x01]) ∧
      (header false short).length = 2 ∧ (header false long).length = 3 := by
  intro short long
  obtain ⟨hread, hfree, hlength⟩ := uniquely_decodable
  have hlong : header false long = [0x6e, 0x84, 0x30] := by decide
  have hheading := hread false long [0x01]
  rw [hlong] at hheading
  exact ⟨by decide, hlong, hfree false false short long ⟨by decide, by decide⟩
    ⟨by decide, by decide⟩ (by decide), hheading, (hlength false short).2.1.mpr (by decide),
    (hlength false long).2.2.mpr (by decide)⟩

/-- There is no room for the highest bit of a sub-index, so this access goes to another one. -/
example : header true ⟨0x09, 0x8001⟩ = [0xc9, 0x81, 0x00] := by decide

end Transceiver

end ClockCalibration
