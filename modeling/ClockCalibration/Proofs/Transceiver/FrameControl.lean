import ClockCalibration.Proofs.Transceiver.Exchange

/-!
# The control of the next frame

The settings of the next frame share a register with those of the channel: its length, its ranging
bit and its place in the transmit buffer are among the bit rate, the pulse repetition frequency and
the preamble.  The driver therefore reads the register and writes it back with nothing but the
settings of the frame changed.

| bits | setting | written |
|---|---|---|
| 0 to 9 | the length of the frame with its checksum | the new length |
| 15 | ranging | as told |
| 22 to 31 | the place in the buffer | zero |
| all other | settings of the channel | what was read |
-/

namespace ClockCalibration.Transceiver

/-! ## Bits of the register -/

/-- A bit of the content of a register. -/
def bit (content : Vector UInt8 5) (i : Nat) : Bool :=
  (Wire.ofLittleEndian content.toList).testBit i

/-- Contents with the same bits are the same. -/
theorem eq_of_bit_eq {first second : Vector UInt8 5}
    (h : ∀ i : Fin 40, bit first i = bit second i) : first = second := by
  have hlt (content : Vector UInt8 5) : Wire.ofLittleEndian content.toList < 2 ^ 40 := by
    have hbytes := Wire.ofLittleEndian_lt content.toList
    rwa [Vector.length_toList] at hbytes
  have hvalue : Wire.ofLittleEndian first.toList = Wire.ofLittleEndian second.toList := by
    apply Nat.eq_of_testBit_eq
    intro i
    by_cases hi : i < 40
    · exact h ⟨i, hi⟩
    · have hle : 2 ^ 40 ≤ 2 ^ i := Nat.pow_le_pow_right Nat.two_pos (Nat.le_of_not_lt hi)
      rw [Nat.testBit_lt_two_pow ((hlt first).trans_le hle),
        Nat.testBit_lt_two_pow ((hlt second).trans_le hle)]
  have hbytes (content : Vector UInt8 5) :
      Wire.littleEndian 5 (Wire.ofLittleEndian content.toList) = content.toList := by
    have hcontent := Wire.littleEndian_ofLittleEndian content.toList
    rwa [Vector.length_toList] at hcontent
  apply Vector.toList_inj.mp
  rw [← hbytes first, ← hbytes second, hvalue]

/-- The bits that the settings of the frame take up. -/
def isFrameBit (i : Nat) : Bool := i < 10 || i = 15 || 22 ≤ i && i ≤ 31

/-- All other bits are kept. -/
theorem testBit_cleared (control : UInt64) (i : Fin 64) :
    (control &&& ~~~(transmitLengthMask ||| transmitRanging ||| transmitOffsetMask)).toNat.testBit
      i = (control.toNat.testBit i && !isFrameBit i) := by
  have hmask (i : Fin 64) :
      (~~~(transmitLengthMask ||| transmitRanging ||| transmitOffsetMask)).toNat.testBit i =
        !isFrameBit i := by
    revert i
    decide
  rw [UInt64.toNat_and, Nat.testBit_and, hmask]

/-- The length field is the length with the checksum, modulo its size. -/
theorem toNat_lengthField (length : UInt16) :
    ((length.toUInt64 + 2) &&& transmitLengthMask).toNat = (length.toNat + 2) % 2 ^ 10 := by
  have hlt : length.toNat < 2 ^ 16 := length.toNat_lt
  have hsum : (length.toUInt64 + 2).toNat = length.toNat + 2 := by
    rw [UInt64.toNat_add, UInt16.toNat_toUInt64, Nat.mod_eq_of_lt]
    · rfl
    · exact Nat.lt_of_le_of_lt (Nat.add_le_add_right hlt.le 2) (by decide)
  rw [UInt64.toNat_and, hsum]
  exact Nat.and_two_pow_sub_one_eq_mod _ 10

/-- What a bit of the register is set to, given what it was. -/
def frameBit (length : UInt16) (ranging : Bool) (i : Nat) (kept : Bool) : Bool :=
  if i < 10 then ((length.toNat + 2) % 2 ^ 10).testBit i
  else if i = 15 then ranging
  else if 22 ≤ i ∧ i ≤ 31 then false
  else kept

theorem testBit_withFrame (control : UInt64) (length : UInt16) (ranging : Bool) (i : Fin 64) :
    (withFrame control length ranging).toNat.testBit i =
      frameBit length ranging i (control.toNat.testBit i) := by
  have hfields : (withFrame control length ranging).toNat.testBit i =
      ((control.toNat.testBit i && !isFrameBit i ||
        (decide (i.val < 10) && (length.toNat + 2).testBit i)) ||
        (ranging && decide (15 = i.val))) := by
    rw [← testBit_cleared, ← Nat.testBit_mod_two_pow, ← toNat_lengthField, ← Nat.testBit_or,
      ← UInt64.toNat_or]
    cases ranging with
    | false => exact (Bool.or_false _).symm
    | true =>
        have hranging : transmitRanging.toNat = 2 ^ 15 := rfl
        rw [Bool.true_and, ← Nat.testBit_two_pow, ← hranging, ← Nat.testBit_or, ← UInt64.toNat_or]
        rfl
  rw [hfields, frameBit, isFrameBit, Nat.testBit_mod_two_pow]
  generalize control.toNat.testBit i = kept
  generalize (length.toNat + 2).testBit i = wanted
  clear hfields
  revert ranging kept wanted i
  decide

/-! ## The register written back -/

/-- The content that is written back. -/
def reframed (length : UInt16) (ranging : Bool) (content : Vector UInt8 5) : Vector UInt8 5 :=
  let control := UInt64.ofNat (Wire.ofLittleEndian content.toList)
  ⟨(Wire.littleEndian 5 (withFrame control length ranging).toNat).toArray,
    Wire.length_littleEndian 5 _⟩

section

variable (length : UInt16) (ranging : Bool) (content : Vector UInt8 5)

theorem bit_reframed (i : Fin 40) :
    bit (reframed length ranging content) i = frameBit length ranging i (bit content i) := by
  let control := UInt64.ofNat (Wire.ofLittleEndian content.toList)
  have hvalue : Wire.ofLittleEndian (reframed length ranging content).toList =
      (withFrame control length ranging).toNat % 2 ^ 40 :=
    Wire.ofLittleEndian_littleEndian 5 _
  have hlt : i.val < 64 := i.isLt.trans (by decide)
  rw [bit, hvalue, Nat.testBit_mod_two_pow, decide_eq_true i.isLt, Bool.true_and, bit,
    ← toNat_status content]
  exact testBit_withFrame control length ranging ⟨i, hlt⟩

/-- Writing the settings twice is writing them once. -/
theorem reframed_reframed :
    reframed length ranging (reframed length ranging content) =
      reframed length ranging content := by
  apply eq_of_bit_eq
  intro i
  rw [bit_reframed, bit_reframed]
  unfold frameBit
  split_ifs <;> rfl

end

/-- **The settings of the channel are kept.**  Of the content of the register that is written back,
bits 0 to 9 are the length with the checksum modulo `2 ^ 10`, bit 15 tells of ranging, bits 22 to 31
are zero, and all other bits are those of the content that was read; so if that is what is read
next time it is written back as it is.  If the register cannot be read nothing is written, and the
request fails as the read did. -/
theorem settings_kept {σ φ : Type} [Bus σ φ] (length : UInt16) (ranging : Bool)
    (driver : Transceiver σ) :
    (∀ content, (∀ i : Fin 40, bit (reframed length ranging content) i =
        frameBit length ranging i (bit content i)) ∧
      reframed length ranging (reframed length ranging content) =
        reframed length ranging content) ∧
    ∃ exchanges : List (Bus.Exchange φ), Makes (.configureTransmit length ranging) driver exchanges ∧
      ((∃ content written, exchanges = [⟨.read [0x08] 5, .ok content⟩,
          ⟨.write [0x88] (reframed length ranging content).toList, written⟩] ∧
        (perform (.configureTransmit length ranging) driver).1.answer = written.mapError .bus) ∨
      ∃ failure, exchanges = [⟨.read [0x08] 5, .error failure⟩] ∧
        (perform (.configureTransmit length ranging) driver).1.answer = .error (.bus failure)) := by
  refine ⟨fun content ↦ ⟨bit_reframed length ranging content,
    reframed_reframed length ranging content⟩, ?_⟩
  obtain ⟨exchanges, outcome, hmakes, hpath, hanswer⟩ :=
    makes_of_plan (.configureTransmit length ranging) _ driver
      fun session _ ↦ congrFun (configureTransmit_eq length ranging) session
  refine ⟨exchanges, hmakes, ?_⟩
  rw [hanswer]
  cases hpath with
  | answered content others =>
      left
      cases others with
      | answered written rest =>
          cases rest
          exact ⟨content, .ok written, rfl, rfl⟩
      | failed failure => exact ⟨content, .error failure, rfl, rfl⟩
  | failed failure => exact .inr ⟨failure, rfl, rfl⟩

/-- The settings of the channel in bits 13 to 21 survive, an old length and place do not. -/
example : reframed 30 true #v[0x0c, 0x20, 0x55, 0x80, 0] = #v[0x20, 0xa0, 0x15, 0, 0] := by decide

end ClockCalibration.Transceiver
