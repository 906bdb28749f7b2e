import ClockCalibration.Proofs.Admission

/-!
# Receptions that the radio fails

The standard receive callback reads from the radio four times: the header, the time of reception,
and the two tracking registers.  A frame is accepted once its time is known, and that it has been
accepted is not taken back.  So what a failure leaves behind depends on which of the reads it is: up
to the time of reception nothing has been changed, and from then on the frame is in its slot, still
with the correction factor of the frame that was there before.
-/

namespace ClockCalibration

variable {ρ ε : Type} [Radio ρ ε]

/-! ## Frames in their slots -/

namespace Calibration

theorem receive_of_valid {calibration : Calibration} {header : BlinkHeader} {time : UInt64}
    (valid : (calibration.receive header time).status.valid = true) :
    calibration.receive header time =
      { calibration with
        ring := (calibration.receive header time).ring
        status := { calibration.status with valid := true } } := by
  rw [← valid]
  rfl

end Calibration

/-! ## Failures -/

namespace World

/-- A computation has ended with the failure of a request of a row, after those before it. -/
def EndsAt (world : World ρ ε) (calls before : List Call) (call : Call) (error : Error ε)
    (later : World ρ ε) : Prop :=
  ∃ failure, Radio.FailsAt calls world.radio before call failure ∧ error = .radio failure ∧
    later = world.askedAll (before ++ [call])

variable {world later : World ρ ε} {first call : Call} {calls before : List Call} {error : Error ε}

theorem endsAt_here {failure : ε}
    (failed : (Radio.perform call world.radio).1.answer = .error failure) :
    world.EndsAt (call :: calls) [] call (.radio failure) (world.asking call) :=
  ⟨failure, .here failed, rfl, rfl⟩

/-- The failure is that of one of the requests. -/
theorem EndsAt.mem (h : world.EndsAt calls before call error later) : call ∈ calls := by
  obtain ⟨failure, hfails, -⟩ := h
  exact hfails.requests.subset (List.mem_append_right _ (List.mem_singleton_self call))

theorem EndsAt.cons {answer : first.Answer}
    (answered : (Radio.perform first world.radio).1.answer = .ok answer)
    (h : (world.asking first).EndsAt calls before call error later) :
    world.EndsAt (first :: calls) (first :: before) call error later := by
  obtain ⟨failure, hfails, rfl, rfl⟩ := h
  exact ⟨failure, .cons answered hfails, rfl, (askedAll_cons world first _).symm⟩

/-- Requests do not depend on the instance, and what is noted of them only on its phase. -/
theorem askedAll_recalibrating {change : Calibration → Calibration}
    (h : ∀ calibration, (change calibration).phase = calibration.phase) (calls : List Call) :
    (world.recalibrating change).askedAll calls = (world.askedAll calls).recalibrating change := by
  rw [askedAll, phase?_recalibrating world h]
  rfl

end World

namespace Node

open World

/-- What is read of the carrier of a received frame. -/
def trackingReads : List Call :=
  [.readRegister .trackingInterval 4, .readRegister .trackingOffset 4]

/-- What is read of a received frame. -/
def reads : List Call := .readReceiveBuffer 10 0 :: .readReceptionTime :: trackingReads

variable {world later : World ρ ε} {error : Error ε}

/-- Reading the carrier fails with one of the reads. -/
theorem askCorrection_of_error
    (failed : (askCorrection : NodeM ρ ε Binary32) world = .error error later) :
    ∃ before call, world.EndsAt trackingReads before call error later := by
  cases hinterval : (Radio.perform (.readRegister .trackingInterval 4) world.radio).1.answer with
  | error failure =>
      cases (bind_of_error (ask_of_failed hinterval) _).symm.trans failed
      exact ⟨[], _, endsAt_here hinterval⟩
  | ok interval =>
      rw [askCorrection, bind_of_ok (ask_of_answered hinterval)] at failed
      let asked := world.asking (.readRegister .trackingInterval 4)
      cases hoffset : (Radio.perform (.readRegister .trackingOffset 4) asked.radio).1.answer with
      | error failure =>
          cases (bind_of_error (ask_of_failed hoffset) _).symm.trans failed
          exact ⟨[_], _, .cons hinterval (endsAt_here hoffset)⟩
      | ok offset => cases (bind_of_ok (ask_of_answered hoffset) _).symm.trans failed

/-- An accepted frame of which the carrier is not read is left at that. -/
theorem track_of_error {calibration : Calibration} {header : BlinkHeader} {time : UInt64}
    (failed : (track calibration header time : NodeM ρ ε Unit) world = .error error later) :
    (askCorrection : NodeM ρ ε Binary32) world = .error error later := by
  cases hask : (askCorrection : NodeM ρ ε Binary32) world with
  | error other latest =>
      cases (bind_of_error hask _).symm.trans failed
      rfl
  | ok correction asked =>
      rw [track, bind_of_ok hask, bind_of_ok (updateCalibration_eq _ _),
        bind_of_ok (log_eq _ _)] at failed
      split at failed
      · cases (offer_eq ..).symm.trans failed
      · cases failed

/-- Accepting a frame fails before anything is changed, or it fails with the frame in its slot. -/
theorem accept_of_error {header : BlinkHeader} {calibration : Calibration}
    (present : world.node.calibration = some calibration)
    (failed : (accept header : NodeM ρ ε Unit) world = .error error later) :
    world.EndsAt (.readReceptionTime :: trackingReads) [] .readReceptionTime error later ∨
    ∃ time before call stopped,
      (Radio.perform .readReceptionTime world.radio).1.answer = .ok time ∧
      (calibration.receive header time).status.valid = true ∧
      (world.asking .readReceptionTime).EndsAt trackingReads before call error stopped ∧
      later = stopped.recalibrating (·.receive header time) := by
  cases htime : (Radio.perform .readReceptionTime world.radio).1.answer with
  | error failure =>
      cases (bind_of_error (ask_of_failed htime) _).symm.trans failed
      exact .inl (endsAt_here htime)
  | ok time =>
      let received := (world.asking .readReceptionTime).recalibrating (·.receive header time)
      have hpresent : received.node.calibration = some (calibration.receive header time) :=
        congrArg (Option.map _) present
      rw [accept, bind_of_ok (ask_of_answered htime), bind_of_ok (updateCalibration_eq _ _),
        bind_of_ok (requireCalibration_of_some received hpresent)] at failed
      split at failed
      · next valid =>
        obtain ⟨before, call, failure, hfails, rfl, rfl⟩ :=
          askCorrection_of_error (track_of_error failed)
        exact .inr ⟨time, before, call, _, rfl, valid, ⟨failure, hfails, rfl, rfl⟩,
          askedAll_recalibrating (fun calibration ↦
            (rfl : (calibration.receive header time).phase = calibration.phase)) _⟩
      · cases failed

/-- The receive callback fails before anything is changed, or with the frame in its slot. -/
theorem receptionComplete_of_error
    (failed : (receptionComplete : NodeM ρ ε Bool) world = .error error later) :
    ∃ calibration, world.node.calibration = some calibration ∧
      ((∃ before call, (call = .readReceiveBuffer 10 0 ∨ call = .readReceptionTime) ∧
        world.EndsAt reads before call error later) ∨
      ∃ bytes header time before call stopped,
        (Radio.perform (.readReceiveBuffer 10 0) world.radio).1.answer = .ok bytes ∧
        Wire.decode bytes.toList = .ok (header, 10) ∧
        (Radio.perform .readReceptionTime
          (Radio.perform (.readReceiveBuffer 10 0) world.radio).2).1.answer = .ok time ∧
        (calibration.receive header time).status.valid = true ∧ call ∈ trackingReads ∧
        world.EndsAt reads before call error stopped ∧
        later = stopped.recalibrating (·.receive header time)) := by
  cases present : world.node.calibration with
  | none => cases (receptionComplete_of_absent present).symm.trans failed
  | some calibration =>
      have hsome : world.node.calibration.isSome = true := Option.isSome_of_eq_some present
      refine ⟨calibration, rfl, ?_⟩
      cases hbytes : (Radio.perform (.readReceiveBuffer 10 0) world.radio).1.answer with
      | error failure =>
          cases (receptionComplete_of_unheard hsome hbytes).symm.trans failed
          exact .inl ⟨[], _, .inl rfl, endsAt_here hbytes⟩
      | ok bytes =>
          let heard := world.asking (.readReceiveBuffer 10 0)
          by_cases admitted : world.node.Admits bytes
          · rw [receptionComplete_of_admitted hsome hbytes admitted] at failed
            have hpresent : heard.node.calibration = some calibration := present
            rcases accept_of_error hpresent (of_bind_pure_eq_error failed) with
              hends | ⟨time, before, call, stopped, htime, valid, hends, hlater⟩
            · exact .inl ⟨_, _, .inr rfl, .cons hbytes hends⟩
            · exact .inr ⟨bytes, .ofBytes bytes, time, _, call, stopped, rfl,
                Wire.decode_ofBytes bytes, htime, valid, hends.mem,
                .cons hbytes (.cons htime hends), hlater⟩
          · by_cases control : bytes[0] = 0xC2
            · cases (receptionComplete_of_stranger hsome hbytes control admitted).symm.trans failed
            · cases (receptionComplete_of_foreign hsome hbytes control).symm.trans failed

end Node

namespace World

/-- **Failed receptions.**  If the receive callback fails, there is an instance, and the failure is
that of one of the four reads, the last that was made of the radio.  The platform, and with it the
queue, is as it was.  If the header or the time of reception was not read, so is the node.  If the
carrier was not, the frame has been accepted: the index has moved on by one, the new current slot
has its header and the low 40 bits of its time, the instance is valid, and all else is as it was. -/
theorem failed_reception {world later : World ρ ε} {error : Error ε}
    (failed : Node.receptionComplete world = .error error later) :
    ∃ calibration before call failure, world.node.calibration = some calibration ∧
      Radio.FailsAt Node.reads world.radio before call failure ∧ error = .radio failure ∧
      later.radio = Radio.through (before ++ [call]) world.radio ∧
      later.history = world.history ++
        (Radio.exchanges (before ++ [call]) world.radio).map (⟨world.node.phase?, ·⟩) ∧
      later.platform = world.platform ∧
      ((call = .readReceiveBuffer 10 0 ∨ call = .readReceptionTime) ∧ later.node = world.node ∨
      call ∈ Node.trackingReads ∧ ∃ bytes header time ring,
        (Radio.perform (.readReceiveBuffer 10 0) world.radio).1.answer = .ok bytes ∧
        Wire.decode bytes.toList = .ok (header, 10) ∧
        (Radio.perform .readReceptionTime
          (Radio.perform (.readReceiveBuffer 10 0) world.radio).2).1.answer = .ok time ∧
        later.node = { world.node with
          calibration := some
            { calibration with ring, status := { calibration.status with valid := true } } } ∧
        calibration.ring.Writes (calibration.ring.index + 1)
          { calibration.ring.get (calibration.ring.index + 1) with
            header, received := (Instant.truncate time).ticks } ring) := by
  obtain ⟨calibration, present, hends⟩ := Node.receptionComplete_of_error failed
  rcases hends with ⟨before, call, hcall, failure, hfails, rfl, rfl⟩ |
    ⟨bytes, header, time, before, call, stopped, hbytes, hdecode, htime, valid, hcall,
      ⟨failure, hfails, rfl, rfl⟩, rfl⟩
  · exact ⟨calibration, before, call, failure, present, hfails, rfl, rfl, rfl, rfl,
      .inl ⟨hcall, rfl⟩⟩
  · refine ⟨calibration, before, call, failure, present, hfails, rfl, rfl, rfl, rfl,
      .inr ⟨hcall, bytes, header, time, _, hbytes, hdecode, htime, ?_,
        calibration.writes_receive header time⟩⟩
    rw [node_recalibrating, askedAll, present, Option.map_some,
      Calibration.receive_of_valid valid]

/-- The second frame to be received is accepted, and then the offset of the carrier is not read. -/
theorem failed_reception_of_refused_offset :
    let heard := (fresh { period := 1000, latency := 100 } 66
      { systemTime := 1048576, receptionTime := 5000,
        received := [0xc2, 0, 8, 7, 6, 5, 4, 3, 2, 1] } {} :
          World Radio.Scripted Radio.Failure).run [.init 2 anyMaster, .receptionInterrupt]
    let world : World Radio.Scripted Radio.Failure :=
      { heard with
        radio := { receptionTime := 9000, received := [0xc2, 1, 8, 7, 6, 5, 4, 3, 2, 1],
                   failing := ["read_ttcko"] } }
    ∃ later calibration ring,
      Node.receptionComplete world = .error (.radio (.refused "read_ttcko")) later ∧
      later.platform = world.platform ∧ world.node.calibration = some calibration ∧
      later.node = { world.node with
        calibration := some
          { calibration with ring, status := { calibration.status with valid := true } } } ∧
      calibration.ring.Writes 2 { calibration.ring.get 2 with
        header := ⟨0xc2, 1, 0x102030405060708⟩, received := 9000 } ring := by
  intro heard world
  have hindex : world.node.calibration.map (·.ring.index) = some 1 := by decide +kernel
  have hlater : (world.upon Node.receptionComplete).node.calibration.map (·.ring.index) =
      some 2 := by decide +kernel
  obtain ⟨later, failed⟩ : ∃ later, Node.receptionComplete world =
      .error (.radio (.refused "read_ttcko")) later := ⟨_, rfl⟩
  rw [upon_of_error failed] at hlater
  obtain ⟨calibration, before, call, failure, present, -, -, -, -, hplatform, hnode⟩ :=
    failed_reception failed
  rcases hnode with ⟨-, hsame⟩ |
    ⟨-, bytes, header, time, ring, hbytes, hdecode, htime, hnode, hring⟩
  · rw [hsame, hindex] at hlater
    cases hlater
  · refine ⟨later, calibration, ring, failed, hplatform, present, hnode, ?_⟩
    rw [present, Option.map_some, Option.some_inj] at hindex
    cases hbytes
    have hheader : Wire.decode [0xc2, 1, 8, 7, 6, 5, 4, 3, 2, 1] =
        .ok ((⟨0xc2, 1, 0x102030405060708⟩ : BlinkHeader), 10) := rfl
    cases hheader.symm.trans hdecode
    obtain rfl : 9000 = time :=
      Except.ok.inj (htime : (.ok 9000 : Except Radio.Failure UInt64) = .ok time)
    have htruncate : (Instant.truncate 9000).ticks = 9000 := by decide
    rw [hindex, htruncate] at hring
    exact hring

/-- A failed reception does not leave everything as it was.  The interval of the carrier is not
read of the second frame, and the index, its slot and the status have changed. -/
theorem state_ne_of_failed_reception :
    let heard := (fresh { period := 1000, latency := 100 } 66
      { systemTime := 1048576, receptionTime := 5000,
        received := [0xc2, 0, 8, 7, 6, 5, 4, 3, 2, 1] } {} :
          World Radio.Scripted Radio.Failure).run [.init 2 anyMaster, .receptionInterrupt]
    let world : World Radio.Scripted Radio.Failure :=
      { heard with
        radio := { receptionTime := 9000, received := [0xc2, 1, 8, 7, 6, 5, 4, 3, 2, 1],
                   failing := ["read_ttcki"] } }
    let later := world.upon Node.receptionComplete
    let shown (calibration : Calibration) : UInt32 × Bool × BlinkHeader × UInt64 :=
      (calibration.ring.index, calibration.status.valid,
        (calibration.ring.get 0).header, (calibration.ring.get 0).received)
    Node.receptionComplete world = .error (.radio (.refused "read_ttcki")) later ∧
      world.node.calibration.map shown = some (1, false, ⟨0xc2, 0, 0⟩, 0) ∧
      later.node.calibration.map shown = some (2, true, ⟨0xc2, 1, 0x102030405060708⟩, 9000) ∧
      later.platform.queue = world.platform.queue :=
  ⟨rfl, by decide +kernel, by decide +kernel, by decide +kernel⟩

end World

end ClockCalibration
