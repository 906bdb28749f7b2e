import ClockCalibration.Bus.Scripted
import ClockCalibration.Proofs.Transceiver.Plan

/-!
# Values of registers

A register is written and read as a number by one access each, if a word has room for its bytes.
What is written are the low bytes of the number, the least significant first, and what is read has
zeros above the bytes that the bus answers.  The two know nothing of each other, but they agree on
the order: the bytes just written are read back as the number modulo what they have room for.
-/

namespace ClockCalibration.Transceiver

open Bus (Plan)

variable {σ φ α : Type} {length : Nat}

/-! ## Bytes of a word -/

/-- The low bytes of a word. -/
def lowBytes (length : Nat) (value : UInt64) : Vector UInt8 length :=
  ⟨(Wire.littleEndian length value.toNat).toArray, Wire.length_littleEndian length _⟩

/-- The word that has some low bytes. -/
def wordOf (bytes : Vector UInt8 length) : UInt64 := .ofNat (Wire.ofLittleEndian bytes.toList)

theorem toNat_get_lowBytes (value : UInt64) (i : Fin length) :
    ((lowBytes length value).get i).toNat = value.toNat / 256 ^ i.val % 256 :=
  Wire.getElem_littleEndian (by rw [Wire.length_littleEndian]; exact i.isLt)

section

variable (h : length ≤ 8)

include h

theorem toNat_wordOf (bytes : Vector UInt8 length) :
    (wordOf bytes).toNat = Wire.ofLittleEndian bytes.toList := by
  have hlt := Wire.ofLittleEndian_lt bytes.toList
  rw [Vector.length_toList] at hlt
  have hle : 256 ^ length ≤ 256 ^ 8 := Nat.pow_le_pow_right (by decide) h
  exact UInt64.toNat_ofNat_of_lt' (hlt.trans_le hle)

theorem toNat_wordOf_lowBytes (value : UInt64) :
    (wordOf (lowBytes length value)).toNat = value.toNat % 256 ^ length := by
  rw [toNat_wordOf h]
  exact Wire.ofLittleEndian_littleEndian length value.toNat

end

/-! ## Accesses -/

variable [Bus σ φ]

/-- What a driver comes to with one access, given what it makes of the answer. -/
def single (driver : Transceiver σ) (access : Bus.Access) (make : access.Answer → α) :
    Except (Fault φ) α × List Bus.Transfer × Transceiver σ :=
  match Bus.transact access driver.bus with
  | (.ok answer, bus) => (.ok (make answer), [⟨access, false⟩], { driver with bus })
  | (.error failure, bus) => (.error (.bus failure), [⟨access, true⟩], { driver with bus })

/-- The bytes that are written to a register are those that are read next. -/
def ReadsBack (bus : σ) (register : Register) (bytes : Vector UInt8 length) (later : σ) : Prop :=
  ∃ written, Bus.transact (.write (header true register) bytes.toList) bus = (.ok (), written) ∧
    Bus.transact (.read (header false register) length) written = (.ok bytes, later)

variable {driver : Transceiver σ}

theorem run_access {action : Action σ φ α} {access : Bus.Access} {make : access.Answer → α}
    (h : action = conduct (.access access fun answer ↦ .done (make answer))) :
    run action driver = driver.single access make := by
  rw [run_eq fun session _ ↦ congrFun h session, single, Plan.carryOut]
  rcases Bus.transact access driver.bus with ⟨failure | answer, bus⟩ <;> rfl

/-- The plan to read a register as a word. -/
def reading (register : Register) (length : Nat) : Plan UInt64 := do
  let bytes ← Plan.read (header false register) length
  return wordOf bytes

/-- The plan to write bytes to it and read them back. -/
def writing (register : Register) (bytes : Vector UInt8 length) : Plan UInt64 := do
  Plan.write (header true register) bytes.toList
  reading register length

theorem run_writing {action : Action σ φ UInt64} {register : Register}
    {bytes : Vector UInt8 length} {later : σ} (h : action = conduct (writing register bytes))
    (back : ReadsBack driver.bus register bytes later) :
    run action driver =
      (.ok (wordOf bytes), [⟨.write (header true register) bytes.toList, false⟩,
        ⟨.read (header false register) length, false⟩], { driver with bus := later }) := by
  obtain ⟨written, hwrite, hread⟩ := back
  have hplan : writing register bytes =
      .access (.write (header true register) bytes.toList) fun _ ↦
      .access (.read (header false register) length) fun bytes ↦ .done (wordOf bytes) := rfl
  rw [run_eq fun session _ ↦ congrFun h session, hplan,
    Plan.carryOut_access_of_ok (congrArg Prod.fst hwrite), hwrite,
    Plan.carryOut_access_of_ok (congrArg Prod.fst hread), hread]
  rfl

section

variable (h : length ≤ 8) (register : Register) (value : UInt64)

include h

theorem run_writeValue :
    run (writeValue register value length : Action σ φ Unit) driver =
      driver.single (.write (header true register) (lowBytes length value).toList) fun _ ↦ () :=
  run_access (writeValue_eq h register value)

theorem readValue_eq_reading :
    (readValue register length : Action σ φ UInt64) = conduct (reading register length) := by
  rw [readValue_eq h, reading, conduct_bind]
  rfl

theorem run_readValue :
    run (readValue register length : Action σ φ UInt64) driver =
      driver.single (.read (header false register) length) wordOf :=
  run_access (readValue_eq_reading h register)

theorem writeValue_readValue_eq :
    (do writeValue register value length; readValue register length : Action σ φ UInt64) =
      conduct (writing register (lowBytes length value)) := by
  rw [writeValue_eq h, readValue_eq_reading h, writing, conduct_bind]
  rfl

end

theorem setDelayedStart_readValue_eq (instant : UInt64) :
    (do setDelayedStart instant; readValue .delayedTime timeLength : Action σ φ UInt64) =
      conduct (writing .delayedTime (lowBytes timeLength instant)) := by
  rw [setDelayedStart_eq, readValue_eq_reading (by decide), writing, conduct_bind]
  rfl

/-! ## Round trips -/

/-- **The values of registers come back.**  If a word has no room for them, so many bytes are
neither read nor written, and the bus is not turned to.  Otherwise one access is made: it is written
the digits of the value to the base 256, the least significant first, and what is read has the bytes
that the bus answers as its digits.  So if these are the bytes just written, it is the value modulo
as many bytes; and the instant of a delayed start is kept modulo `2 ^ 40`. -/
theorem register_values (driver : Transceiver σ) (register : Register) (length : Nat)
    (value : UInt64) :
    (8 < length →
      run (readValue register length : Action σ φ UInt64) driver =
        (.error (.invalidLength length), [], driver) ∧
      run (writeValue register value length : Action σ φ Unit) driver =
        (.error (.invalidLength length), [], driver)) ∧
    (length ≤ 8 →
      run (writeValue register value length : Action σ φ Unit) driver =
        driver.single (.write (header true register) (lowBytes length value).toList)
          (fun _ ↦ ()) ∧
      (∀ i : Fin length, ((lowBytes length value).get i).toNat = value.toNat / 256 ^ i.val % 256) ∧
      run (readValue register length : Action σ φ UInt64) driver =
        driver.single (.read (header false register) length) wordOf ∧
      (∀ bytes : Vector UInt8 length,
        (wordOf bytes).toNat = ∑ i, (bytes.get i).toNat * 256 ^ i.val) ∧
      ∀ later, ReadsBack driver.bus register (lowBytes length value) later →
        ∃ word, run (do writeValue register value length; readValue register length :
            Action σ φ UInt64) driver =
          (.ok word, [⟨.write (header true register) (lowBytes length value).toList, false⟩,
            ⟨.read (header false register) length, false⟩], { driver with bus := later }) ∧
          word.toNat = value.toNat % 256 ^ length) ∧
    ∀ later, ReadsBack driver.bus .delayedTime (lowBytes timeLength value) later →
      ∃ word, run (do setDelayedStart value; readValue .delayedTime timeLength :
          Action σ φ UInt64) driver =
        (.ok word, [⟨.write [0x8a] (lowBytes timeLength value).toList, false⟩,
          ⟨.read [0x0a] timeLength, false⟩], { driver with bus := later }) ∧
        word.toNat = value.toNat % 2 ^ 40 := by
  refine ⟨fun hlong ↦ ⟨?_, ?_⟩, fun h ↦ ⟨run_writeValue h register value,
    toNat_get_lowBytes value, run_readValue h register, fun bytes ↦ ?_, fun later back ↦ ?_⟩,
    fun later back ↦ ?_⟩
  · rw [readValue, if_pos hlong]
    rfl
  · rw [writeValue, if_pos hlong]
    rfl
  · rw [toNat_wordOf h, Wire.ofLittleEndian_toList]
  · exact ⟨_, run_writing (writeValue_readValue_eq h register value) back,
      toNat_wordOf_lowBytes h value⟩
  · exact ⟨_, run_writing (setDelayedStart_readValue_eq value) back,
      toNat_wordOf_lowBytes (by decide) value⟩

/-- Nine bytes are too many; of a value of five bytes three are kept; and of an instant beyond the
device clock five. -/
theorem register_values_of_late_instant :
    let answering (bytes : Bytes) : Transceiver Bus.Scripted := { bus := { reads := [bytes] } }
    let register : Register := ⟨0x2e, 0x1804⟩
    run (readValue register 9 : Action Bus.Scripted Bus.Fault UInt64) (answering []) =
      (.error (.invalidLength 9), [], answering []) ∧
    run (do writeValue register 0x1122334455 3; readValue register 3 :
        Action Bus.Scripted Bus.Fault UInt64) (answering [0x55, 0x44, 0x33]) =
      (.ok 0x334455, [⟨.write [0xee, 0x84, 0x30] [0x55, 0x44, 0x33], false⟩,
        ⟨.read [0x6e, 0x84, 0x30] 3, false⟩], { bus := {} }) ∧
    run (do setDelayedStart 0xff000011223344; readValue .delayedTime timeLength :
        Action Bus.Scripted Bus.Fault UInt64) (answering [0x44, 0x33, 0x22, 0x11, 0x00]) =
      (.ok 0x11223344, [⟨.write [0x8a] [0x44, 0x33, 0x22, 0x11, 0x00], false⟩,
        ⟨.read [0x0a] 5, false⟩], { bus := {} }) := by
  intro answering register
  have hwrite : header true register = [0xee, 0x84, 0x30] := by decide
  have hread : header false register = [0x6e, 0x84, 0x30] := by decide
  refine ⟨((register_values (answering []) register 9 0).1 (by decide)).1, ?_, ?_⟩
  · let driver := answering [0x55, 0x44, 0x33]
    have back : ReadsBack driver.bus register (lowBytes 3 0x1122334455) {} := ⟨_, rfl, rfl⟩
    obtain ⟨-, -, -, -, hround⟩ := (register_values driver register 3 0x1122334455).2.1 (by decide)
    obtain ⟨word, hrun, hword⟩ := hround {} back
    obtain rfl : word = 0x334455 := UInt64.toNat_inj.mp hword
    rw [hrun, hwrite, hread]
    rfl
  · let driver := answering [0x44, 0x33, 0x22, 0x11, 0x00]
    have back : ReadsBack driver.bus .delayedTime (lowBytes timeLength 0xff000011223344) {} :=
      ⟨_, rfl, rfl⟩
    obtain ⟨word, hrun, hword⟩ :=
      (register_values driver register timeLength 0xff000011223344).2.2 {} back
    obtain rfl : word = 0x11223344 := UInt64.toNat_inj.mp hword
    rw [hrun]
    rfl

end ClockCalibration.Transceiver
