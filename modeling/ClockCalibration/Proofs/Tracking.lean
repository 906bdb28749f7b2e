import ClockCalibration.Proofs.Admission
import ClockCalibration.Proofs.Node.Parallel
import Mathlib.Data.Int.ModEq
import Mathlib.Data.Nat.Bitwise
import Mathlib.Tactic.NormNum

/-!
# Reserved bits of the tracking registers

The interval and the offset of a carrier are signed numbers in the low bits of their registers, and
what the bits above them are is left open by the transceiver.  Both numbers are the balanced
remainder of the register, so they are the same for words that differ in nothing but those bits.

That nothing else of the two words gets into a node is a statement about two receptions: in
parallel worlds the callback ends alike if the radios answer its requests alike, and of the tracking
registers that asks for no more than the two numbers.
-/

namespace ClockCalibration

variable {ρ ε : Type}

/-! ## Signed numbers in registers -/

namespace Tracking

theorem toNat_and_offsetMask (word : UInt64) :
    (word &&& offsetMask).toNat = word.toNat % 2 ^ 19 := by
  rw [UInt64.toNat_and]
  exact Nat.and_two_pow_sub_one_eq_mod _ 19

/-- The sign bit is set in the upper half of the words of 19 bits. -/
theorem and_offsetSign_eq_zero_iff {low : UInt64} (h : low.toNat < 2 ^ 19) :
    low &&& offsetSign = 0 ↔ low.toNat < 2 ^ 18 := by
  have hsign : (low &&& offsetSign).toNat = (low.toNat.testBit 18).toNat * 2 ^ 18 := by
    rw [UInt64.toNat_and]
    exact Nat.and_two_pow _ 18
  have hbit : low.toNat.testBit 18 = !decide (low.toNat < 2 ^ 18) := by
    rw [Nat.testBit_eq_decide_div_mod_eq, ← decide_not, decide_eq_decide]
    omega
  rw [← UInt64.toNat_inj, hsign, hbit]
  simp

/-- The offset is the balanced remainder modulo `2 ^ 19`. -/
theorem offset_eq_bmod (word : UInt64) : offset word = (word.toNat : ℤ).bmod (2 ^ 19) := by
  have hlow := toNat_and_offsetMask word
  have hlt : (word &&& offsetMask).toNat < 2 ^ 19 := hlow ▸ Nat.mod_lt _ (by decide)
  unfold offset
  simp only [and_offsetSign_eq_zero_iff hlt, hlow, Int.bmod_def]
  split_ifs <;> omega

/-- The interval is the balanced remainder modulo `2 ^ 32`. -/
theorem interval_eq_bmod (word : UInt64) : interval word = (word.toNat : ℤ).bmod (2 ^ 32) := by
  have hinterval : interval word = (word.toUInt32.toNat : ℤ).bmod (2 ^ 32) :=
    BitVec.toInt_eq_toNat_bmod _
  rw [hinterval, UInt64.toNat_toUInt32, Int.natCast_mod]
  exact Int.emod_bmod _ _

theorem eq_offset_iff (word : UInt64) (n : ℤ) :
    n = offset word ↔ -2 ^ 18 ≤ n ∧ n < 2 ^ 18 ∧ n ≡ word.toNat [ZMOD 2 ^ 19] := by
  rw [eq_comm, offset_eq_bmod, Int.bmod_eq_iff (by decide), Int.modEq_comm, Int.modEq_iff_dvd]
  norm_num

variable {word word' : UInt64}

/-- Words that agree in their low bits have the same balanced remainder. -/
theorem bmod_congr {modulus : ℕ} (h : word.toNat ≡ word'.toNat [MOD modulus]) :
    (word'.toNat : ℤ).bmod modulus = (word.toNat : ℤ).bmod modulus := by
  rw [← Int.emod_bmod, ← Int.natCast_mod, ← h, Int.natCast_mod, Int.emod_bmod]

theorem offset_congr (h : word.toNat ≡ word'.toNat [MOD 2 ^ 19]) : offset word' = offset word := by
  rw [offset_eq_bmod, offset_eq_bmod, bmod_congr h]

theorem interval_congr (h : word.toNat ≡ word'.toNat [MOD 2 ^ 32]) :
    interval word' = interval word := by
  rw [interval_eq_bmod, interval_eq_bmod, bmod_congr h]

end Tracking

/-! ## Receptions of one frame -/

namespace Radio

variable [Radio ρ ε]

/-- What a request is answered with after some others. -/
def answerAfter (before : List Call) (call : Call) (radio : ρ) : Except ε call.Answer :=
  (perform call (through before radio)).1.answer

/-- Of the words in the tracking registers of two radios, the low 32 bits of the interval agree and
the low 19 bits of the offset. -/
structure SameCarrier (radio twin : ρ) : Prop where
  interval : Agree (fun word word' : UInt64 ↦ word.toNat ≡ word'.toNat [MOD 2 ^ 32])
    (answerAfter [] (.readRegister .trackingInterval 4) radio)
    (answerAfter [] (.readRegister .trackingInterval 4) twin)
  offset : Agree (fun word word' : UInt64 ↦ word.toNat ≡ word'.toNat [MOD 2 ^ 19])
    (answerAfter [.readRegister .trackingInterval 4] (.readRegister .trackingOffset 4) radio)
    (answerAfter [.readRegister .trackingInterval 4] (.readRegister .trackingOffset 4) twin)

/-- Two radios tell of the same frame, but for reserved bits of the tracking registers. -/
structure SameFrame (radio twin : ρ) : Prop where
  header : answerAfter [] (.readReceiveBuffer 10 0) twin =
    answerAfter [] (.readReceiveBuffer 10 0) radio
  time : answerAfter [.readReceiveBuffer 10 0] .readReceptionTime twin =
    answerAfter [.readReceiveBuffer 10 0] .readReceptionTime radio
  carrier : SameCarrier (through [.readReceiveBuffer 10 0, .readReceptionTime] radio)
    (through [.readReceiveBuffer 10 0, .readReceptionTime] twin)

end Radio

namespace Node

open World

variable [Radio ρ ε] {world twin : World ρ ε} (h : world.Parallel twin)

include h

/-- The correction factor is made of the two numbers alone. -/
theorem endAlike_askCorrection (same : Radio.SameCarrier world.radio twin.radio) :
    EndAlike ((askCorrection : NodeM ρ ε Binary32) world) (askCorrection twin) := by
  refine .ask_bind (.readRegister .trackingInterval 4) h same.interval
    fun interval interval' hinterval ↦ ?_
  have hasked := h.asking (.readRegister .trackingInterval 4)
  rw [Tracking.interval_congr hinterval]
  refine .ask_bind (.readRegister .trackingOffset 4) hasked same.offset
    fun offset offset' hoffset ↦ ?_
  rw [Tracking.offset_congr hoffset]
  exact .ok _ (hasked.asking _)

/-- So is what is made of the frame in the current slot. -/
theorem endAlike_track (calibration : Calibration) (header : BlinkHeader) (time : UInt64)
    (same : Radio.SameCarrier world.radio twin.radio) :
    EndAlike ((track calibration header time : NodeM ρ ε Unit) world)
      (track calibration header time twin) := by
  refine (endAlike_askCorrection h same).bind fun correction later latest h ↦ ?_
  refine .bind (.ok () (h.recalibrating (·.correct correction))) fun _ _ _ h ↦ ?_
  refine .bind (.ok () (h.noting _)) fun _ later latest h ↦ ?_
  split
  · rw [offer_eq, offer_eq]
    exact .ok () (h.offering _)
  · exact .ok () h

/-- A frame that is accepted is put into the same slot. -/
theorem endAlike_accept {calibration : Calibration}
    (present : world.node.calibration = some calibration) (header : BlinkHeader)
    (time : (Radio.perform .readReceptionTime twin.radio).1.answer =
      (Radio.perform .readReceptionTime world.radio).1.answer)
    (same : Radio.SameCarrier (Radio.perform .readReceptionTime world.radio).2
      (Radio.perform .readReceptionTime twin.radio).2) :
    EndAlike ((accept header : NodeM ρ ε Unit) world) (accept header twin) := by
  refine .ask_bind .readReceptionTime h (.of_eq time) ?_
  rintro time - rfl
  -- with the frame in its slot the nodes are still the same: only the carrier is left to ask for
  let received (world : World ρ ε) : World ρ ε :=
    (world.asking .readReceptionTime).recalibrating (·.receive header time)
  have hreceived : (received world).Parallel (received twin) := (h.asking _).recalibrating _
  have hpresent : (received world).node.calibration = some (calibration.receive header time) :=
    congrArg (Option.map _) present
  have hpresent' : (received twin).node.calibration = some (calibration.receive header time) :=
    (congrArg _ hreceived.node).trans hpresent
  rw [bind_of_ok (updateCalibration_eq _ _), bind_of_ok (updateCalibration_eq _ _),
    bind_of_ok (requireCalibration_of_some (received world) hpresent),
    bind_of_ok (requireCalibration_of_some (received twin) hpresent')]
  split
  · exact endAlike_track hreceived _ header time same
  · exact .ok () hreceived

/-- Receptions of the same frame end alike. -/
theorem endAlike_receptionComplete (same : Radio.SameFrame world.radio twin.radio) :
    EndAlike ((receptionComplete : NodeM ρ ε Bool) world) (receptionComplete twin) := by
  have hasked := h.asking (.readReceiveBuffer 10 0)
  -- the branch depends on the node and on the header alone, so both receptions take the same
  cases present : world.node.calibration with
  | none =>
      have absent : twin.node.calibration = none := (congrArg _ h.node).trans present
      rw [receptionComplete_of_absent present, receptionComplete_of_absent absent]
      exact .ok false h
  | some calibration =>
      have hsome : world.node.calibration.isSome = true := Option.isSome_of_eq_some present
      have hsome' : twin.node.calibration.isSome = true := by rwa [h.node]
      cases heard : (Radio.perform (.readReceiveBuffer 10 0) world.radio).1.answer with
      | error failure =>
          rw [receptionComplete_of_unheard hsome heard,
            receptionComplete_of_unheard hsome' (same.header.trans heard)]
          exact .error _ hasked
      | ok bytes =>
          have heard' : (Radio.perform (.readReceiveBuffer 10 0) twin.radio).1.answer = .ok bytes :=
            same.header.trans heard
          by_cases admitted : world.node.Admits bytes
          · rw [receptionComplete_of_admitted hsome heard admitted,
              receptionComplete_of_admitted hsome' heard' (h.node ▸ admitted)]
            exact (endAlike_accept hasked present _ same.time same.carrier).bind_pure true
          · by_cases control : bytes[0] = 0xC2
            · rw [receptionComplete_of_stranger hsome heard control admitted,
                receptionComplete_of_stranger hsome' heard' control (h.node ▸ admitted), h.node]
              exact .ok true (hasked.noting _)
            · rw [receptionComplete_of_foreign hsome heard control,
                receptionComplete_of_foreign hsome' heard' control]
              exact .ok false hasked

end Node

namespace World

variable [Radio ρ ε]

/-- **Reserved bits of the tracking registers are ignored.**  The offset of a carrier is the one
number from `-2 ^ 18` up to `2 ^ 18` that is congruent to its register modulo `2 ^ 19`.  And if two
nodes are the same, and so is the frame that they receive, then the receptions end alike whatever
the reserved bits are, above the low 32 of the interval and the low 19 of the offset: with the same
value or error, with the same node and platform, and with the same events queued on the way. -/
theorem reserved_bits_ignored :
    (∀ (word : UInt64) (n : ℤ), n = Tracking.offset word ↔
      -2 ^ 18 ≤ n ∧ n < 2 ^ 18 ∧ n ≡ word.toNat [ZMOD 2 ^ 19]) ∧
    ∀ world twin : World ρ ε, world.Parallel twin → Radio.SameFrame world.radio twin.radio →
      EndAlike ((Node.receptionComplete : NodeM ρ ε Bool) world) (Node.receptionComplete twin) :=
  ⟨Tracking.eq_offset_iff, fun _ _ ↦ Node.endAlike_receptionComplete⟩

/-- All reserved bits are set for one of two nodes that receive their third frame. -/
theorem reserved_bits_ignored_of_set_bits :
    let heard := (fresh { period := 1000, latency := 100 } 66
      { systemTime := 1048576, receptionTime := 5000,
        received := [0xc2, 0, 8, 7, 6, 5, 4, 3, 2, 1] } {} :
          World Radio.Scripted Radio.Failure).run
            [.init 3 anyMaster, .receptionInterrupt, .receptionInterrupt]
    let radio : Radio.Scripted :=
      { receptionTime := 9000, received := [0xc2, 1, 8, 7, 6, 5, 4, 3, 2, 1],
        trackingInterval := 0x01000000, trackingOffset := 0x10000 }
    let world := { heard with radio }
    let twin :=
      { heard with
        radio :=
          { radio with
            trackingInterval := 0xffffffff01000000, trackingOffset := 0xfffffffffff90000 } }
    let later := twin.upon Node.receptionComplete
    world.node.calibration.map (·.status.valid) = some true ∧
      later.node = (world.upon Node.receptionComplete).node ∧
      later.node.calibration.map (·.ring.current.correction) = some ⟨0x3f808000⟩ ∧
      later.platform.queue = [.postprocess .rx 2, .postprocess .rx 3] := by
  intro heard radio world twin later
  have parallel : world.Parallel twin := ⟨rfl, rfl, rfl⟩
  have same : Radio.SameFrame world.radio twin.radio :=
    { header := rfl
      time := rfl
      carrier := ⟨.answered (by decide +kernel), .answered (by decide +kernel)⟩ }
  have h := (reserved_bits_ignored.2 world twin parallel same).parallel
  refine ⟨by decide +kernel, h.node, ?_, ?_⟩
  · rw [h.node]
    decide +kernel
  · rw [h.platform]
    decide +kernel

end World

end ClockCalibration
