import ClockCalibration.Proofs.Node.Reception
import ClockCalibration.Proofs.Node.Request
import ClockCalibration.Proofs.Run
import ClockCalibration.Radio.Scripted
import Mathlib.Data.UInt

/-!
# Which frames are admitted

Every node on the channel hears every frame, its own protocol's or not.  The standard receive
callback decides by the first ten bytes alone: the first of them is the kind of the frame, and the
last eight are the address of its sender.  A frame that the bytes speak for is admitted, and it is
accepted once the radio has told when it was received.

The decision is about bytes here and not about headers, so `BlinkHeader.ofBytes` comes first.
What an accepted frame makes of the instance is `Calibration.takeUp`, whatever else the radio is
asked for: it is written to the next slot, which becomes the current one, and nowhere else.  And it
is what a call of the callback adds to the `receptions` of a history, of which no other frame is one.
-/

namespace ClockCalibration

variable {ρ ε : Type}

/-! ## Ten bytes -/

/-- The header that ten bytes are. -/
def BlinkHeader.ofBytes (bytes : Vector UInt8 10) : BlinkHeader where
  control := bytes[0]
  sequence := bytes[1]
  source := .ofNat (Wire.ofLittleEndian (bytes.toList.drop 2))

/-- The address in a header is the number that its last eight bytes stand for. -/
theorem BlinkHeader.toNat_source_ofBytes (bytes : Vector UInt8 10) :
    (ofBytes bytes).source.toNat = Wire.ofLittleEndian (bytes.toList.drop 2) := by
  have hlt := Wire.ofLittleEndian_lt (bytes.toList.drop 2)
  rw [List.length_drop, bytes.length_toList] at hlt
  exact UInt64.toNat_ofNat_of_lt' hlt

namespace Wire

theorem encode_header (header : BlinkHeader) :
    encode header = header.control :: header.sequence :: littleEndian 8 header.source.toNat := by
  simp [encode, fields, Field.bytes, littleEndian]

/-- Ten bytes are decoded to the header that they are. -/
theorem decode_ofBytes (bytes : Vector UInt8 10) :
    decode bytes.toList = .ok (BlinkHeader.ofBytes bytes, 10) := by
  have hlength : bytes.toList.length = 10 := bytes.length_toList
  obtain ⟨header, hdecode, hencode⟩ :=
    (roundTrips BlinkHeader).rewritten bytes.toList (Nat.le_of_eq hlength.symm)
  have hbytes : bytes.toList =
      header.control :: header.sequence :: littleEndian 8 header.source.toNat := by
    rw [← encode_header, hencode]
    exact (List.take_of_length_le (Nat.le_of_eq hlength)).symm
  have hsource : ofLittleEndian (bytes.toList.drop 2) = header.source.toNat := by
    rw [hbytes]
    exact (ofLittleEndian_littleEndian 8 _).trans (Nat.mod_eq_of_lt header.source.toNat_lt)
  obtain rfl : BlinkHeader.ofBytes bytes = header := by
    have hcontrol : bytes[0] = header.control := by
      rw [← Vector.getElem_toList (by simp)]
      simp [hbytes]
    have hsequence : bytes[1] = header.sequence := by
      rw [← Vector.getElem_toList (by simp)]
      simp [hbytes]
    rw [BlinkHeader.ofBytes, hcontrol, hsequence, hsource, UInt64.ofNat_toNat]
  exact hdecode

end Wire

/-- A node admits a frame that begins with these bytes: it is a calibration frame, and its sender
is the clock master, or any sender will do. -/
structure Node.Admits (node : Node) (bytes : Vector UInt8 10) : Prop where
  /-- The first byte is that of a calibration frame. -/
  control : bytes[0] = 0xC2
  /-- The last eight are the address of a sender whose frames are processed. -/
  sender : node.clockMaster = anyMaster ∨
    Wire.ofLittleEndian (bytes.toList.drop 2) = node.clockMaster.toNat

namespace Node

variable {node : Node} {bytes : Vector UInt8 10}

theorem kind?_ofBytes_iff :
    (BlinkHeader.ofBytes bytes).kind? = some .calibration ↔ bytes[0] = 0xC2 :=
  FrameControl.ofCode?_eq_some_iff

theorem trusts_ofBytes_iff :
    node.trusts (BlinkHeader.ofBytes bytes).source = true ↔ node.clockMaster = anyMaster ∨
      Wire.ofLittleEndian (bytes.toList.drop 2) = node.clockMaster.toNat := by
  rw [trusts, Bool.or_eq_true, beq_iff_eq, beq_iff_eq, ← UInt64.toNat_inj (b := node.clockMaster),
    BlinkHeader.toNat_source_ofBytes]

end Node

/-! ## What is made of a frame -/

/-- The correction factor that a radio's tracking registers amount to, if both are read. -/
def Radio.correction? [Radio ρ ε] (radio : ρ) : Option Binary32 := do
  let interval ← (perform (.readRegister .trackingInterval 4) radio).1.answer.toOption
  let offset ← (perform (.readRegister .trackingOffset 4)
    (perform (.readRegister .trackingInterval 4) radio).2).1.answer.toOption
  return Tracking.correction (Tracking.interval interval) (Tracking.offset offset)

namespace Calibration

variable (calibration : Calibration) (header : BlinkHeader) (time : UInt64)
  (correction? : Option Binary32)

/-- A received frame is written to the next slot, whose time of sending and correction factor
stay. -/
theorem writes_receive :
    calibration.ring.Writes (calibration.ring.index + 1)
      { calibration.ring.get (calibration.ring.index + 1) with
        header, received := (Instant.truncate time).ticks }
      (calibration.receive header time).ring :=
  calibration.ring.writes_advance rfl

/-- An instance that takes up a frame, and its correction factor if that could be had. -/
def takeUp : Calibration :=
  match correction? with
  | none => calibration.receive header time
  | some correction => (calibration.receive header time).correct correction

/-- The frame that is in the current slot then. -/
def takenUp : Frame :=
  let slot := calibration.ring.get (calibration.ring.index + 1)
  { slot with
    header
    received := (Instant.truncate time).ticks
    correction := correction?.getD slot.correction }

/-- Beside that slot it is the index that has changed, and the instance may have become valid. -/
theorem takeUp_eq : calibration.takeUp header time correction? =
    { calibration with
      ring := (calibration.takeUp header time correction?).ring
      status := { calibration.status with
        valid := calibration.status.valid || 1 < calibration.ring.index + 1 } } := by
  cases correction? <;> rfl

theorem writes_takeUp :
    calibration.ring.Writes (calibration.ring.index + 1)
      (calibration.takenUp header time correction?)
      (calibration.takeUp header time correction?).ring := by
  have hreceived := calibration.writes_receive header time
  cases correction? with
  | none => exact hreceived
  | some correction => exact hreceived.modifyCurrent fun frame ↦ { frame with correction }

end Calibration

/-! ## Acceptance -/

namespace World

/-- Between two worlds only the radio was turned to, or something was said, and no landmark was
passed. -/
structure Unmoved (world later : World ρ ε) : Prop where
  node : later.node = world.node
  platform : later.platform = world.platform
  landmarks : landmarks later.history = landmarks world.history

namespace Unmoved

theorem refl (world : World ρ ε) : Unmoved world world := ⟨rfl, rfl, rfl⟩

theorem trans {world later latest : World ρ ε} (h : Unmoved world later)
    (h' : Unmoved later latest) : Unmoved world latest :=
  ⟨h'.node.trans h.node, h'.platform.trans h.platform, h'.landmarks.trans h.landmarks⟩

theorem noting (world : World ρ ε) {happening : Happening ε} (futile : happening.landmark? = none) :
    Unmoved world (world.noting happening) := by
  refine ⟨rfl, rfl, ?_⟩
  rw [history_noting, landmarks_append, landmarks_singleton, futile]
  exact List.append_nil _

theorem asking [Radio ρ ε] (world : World ρ ε) {call : Call}
    (futile : (Happening.exchange call (Radio.perform call world.radio).1).landmark? = none) :
    Unmoved world (world.asking call) := by
  refine ⟨rfl, rfl, ?_⟩
  rw [World.asking, history_noting, landmarks_append, landmarks_singleton, futile]
  exact List.append_nil _

end Unmoved

variable [Radio ρ ε]

/-- The node has an instance, and the radio hands it a frame that it admits and the time of its
reception. -/
structure Accepts (world : World ρ ε) (bytes : Vector UInt8 10) (time : UInt64) : Prop where
  present : world.node.calibration.isSome = true
  heard : (Radio.perform (.readReceiveBuffer 10 0) world.radio).1.answer = .ok bytes
  admitted : world.node.Admits bytes
  timed : (Radio.perform .readReceptionTime
    (Radio.perform (.readReceiveBuffer 10 0) world.radio).2).1.answer = .ok time

end World

namespace Node

open World

variable [Radio ρ ε] {world : World ρ ε} {calibration : Calibration}

/-- Reading the carrier of a frame leaves everything but the radio as it is, and what is read is
heard of the latest frame. -/
theorem askCorrection_outcome (world : World ρ ε) :
    ∃ interval offset later, Unmoved world later ∧ Hears world later (·.track interval offset) ∧
      (∀ header time, (⟨header, time, interval, offset⟩ : Reception).correction? =
        Radio.correction? world.radio) ∧
      ((∃ correction, (askCorrection : NodeM ρ ε Binary32) world = .ok correction later ∧
        Radio.correction? world.radio = some correction) ∨
      (∃ error, (askCorrection : NodeM ρ ε Binary32) world = .error error later ∧
        Radio.correction? world.radio = none)) := by
  unfold askCorrection Radio.correction?
  let asked := world.asking (.readRegister .trackingInterval 4)
  let both := asked.asking (.readRegister .trackingOffset 4)
  have hasked : Hears world asked _ := hears_asking world (.readRegister .trackingInterval 4)
  have hboth : Hears world both _ := hasked.trans (hears_asking asked _)
  have hfirst : Unmoved world asked := .asking world rfl
  have hsecond : Unmoved world both := hfirst.trans (.asking asked rfl)
  cases hinterval : (Radio.perform (.readRegister .trackingInterval 4) world.radio).1.answer with
  | error failure =>
      refine ⟨none, none, asked, hfirst, hasked.congr fun hearing ↦ ?_, fun _ _ ↦ rfl,
        .inr ⟨_, bind_of_error (ask_of_failed hinterval) _, rfl⟩⟩
      rw [hearing.after_exchange hinterval, hearing.track_none]
      rfl
  | ok interval =>
      rw [bind_of_ok (ask_of_answered hinterval)]
      cases hoffset : (Radio.perform (.readRegister .trackingOffset 4)
          (Radio.perform (.readRegister .trackingInterval 4) world.radio).2).1.answer with
      | error failure =>
          have hfailed : (Radio.perform (.readRegister .trackingOffset 4) asked.radio).1.answer =
            .error failure := hoffset
          refine ⟨some interval, none, both, hsecond, hboth.congr fun hearing ↦ ?_, fun _ _ ↦ rfl,
            .inr ⟨_, bind_of_error (ask_of_failed hfailed) _, rfl⟩⟩
          rw [Function.comp_apply, hearing.after_exchange hinterval,
            Hearing.after_exchange _ hfailed]
          rfl
      | ok offset =>
          have hread : (Radio.perform (.readRegister .trackingOffset 4) asked.radio).1.answer =
            .ok offset := hoffset
          refine ⟨some interval, some offset, both, hsecond, hboth.congr fun hearing ↦ ?_,
            fun _ _ ↦ rfl, .inl ⟨_, bind_of_ok (ask_of_answered hread) _, rfl⟩⟩
          rw [Function.comp_apply, hearing.after_exchange hinterval,
            Hearing.after_exchange _ hread]
          exact hearing.track_track interval (some offset)

/-- An accepted frame is given the correction factor if that can be had, by which no landmark is
passed. -/
theorem track_outcome (world : World ρ ε) (calibration : Calibration) (header : BlinkHeader)
    (time : UInt64) :
    let later := world.upon (track calibration header time : NodeM ρ ε Unit)
    landmarks later.history = landmarks world.history ∧
      later.node = match Radio.correction? world.radio with
        | none => world.node
        | some correction =>
          { world.node with calibration := world.node.calibration.map (·.correct correction) } := by
  obtain ⟨_, _, later, hsame, -, -, ⟨correction, h, hcorrection⟩ | ⟨error, h, hcorrection⟩⟩ :=
    askCorrection_outcome world
  · rw [upon_of_ok (track_of_ok h calibration header time), hcorrection]
    refine ⟨(landmarks_recording ..).trans ?_, (node_recording ..).trans ?_⟩
    · simp [Happening.landmark?, hsame.landmarks]
    · simp [hsame.node]
  · rw [track, upon_bind_of_error h, hcorrection]
    exact ⟨hsame.landmarks, hsame.node⟩

/-- The radio passes a reception by telling its time. -/
theorem landmark?_readReceptionTime (reply : Reply ε .readReceptionTime) :
    (Happening.exchange .readReceptionTime reply).landmark? =
      match reply.answer with
      | .ok _ => some .received
      | .error _ => none := by
  obtain ⟨time | failure, transfers⟩ := reply <;> rfl

/-- A frame is accepted once its time is known, which is the one landmark passed. -/
theorem accept_outcome (header : BlinkHeader) (present : world.node.calibration = some calibration)
    {time : UInt64} (timed : (Radio.perform .readReceptionTime world.radio).1.answer = .ok time) :
    let later := world.upon (accept header : NodeM ρ ε Unit)
    landmarks later.history = landmarks world.history ++ [.received] ∧
      later.node = { world.node with
        calibration := some (calibration.takeUp header time
          (if (calibration.receive header time).status.valid then
            Radio.correction? (Radio.perform .readReceptionTime world.radio).2 else none)) } := by
  let received := (world.asking .readReceptionTime).recalibrating (·.receive header time)
  have hnode : received.node =
      { world.node with calibration := some (calibration.receive header time) } := by
    simp [received, asking, present]
  have hradio : received.radio = (Radio.perform .readReceptionTime world.radio).2 := rfl
  have hlandmarks : landmarks received.history = landmarks world.history ++ [.received] := by
    rw [history_recalibrating, asking, history_noting, landmarks_append, landmarks_singleton,
      landmark?_readReceptionTime, timed]
    rfl
  rw [accept, upon_bind_of_ok (ask_of_answered timed), upon_bind_of_ok (updateCalibration_eq _ _),
    upon_bind_of_ok (requireCalibration_of_some received (congrArg Node.calibration hnode))]
  split
  · obtain ⟨hpassed, htracked⟩ :=
      track_outcome received (calibration.receive header time) header time
    refine ⟨hpassed.trans hlandmarks, htracked.trans ?_⟩
    rw [hradio, hnode]
    cases Radio.correction? (Radio.perform .readReceptionTime world.radio).2 <;> rfl
  · exact ⟨hlandmarks, hnode⟩

/-- A frame whose time is not read is not accepted. -/
theorem accept_of_untimed (header : BlinkHeader) {failure : ε}
    (untimed : (Radio.perform .readReceptionTime world.radio).1.answer = .error failure) :
    (accept header : NodeM ρ ε Unit) world =
      .error (.radio failure) (world.asking .readReceptionTime) :=
  bind_of_error (ask_of_failed untimed) _

/-! ## The way of a frame -/

/-- Without an instance there is no one to hand a frame to. -/
theorem receptionComplete_of_absent (absent : world.node.calibration = none) :
    (receptionComplete : NodeM ρ ε Bool) world = .ok false world := by
  rw [receptionComplete, get_bind, absent]
  rfl

/-- With an instance its header is read first. -/
theorem receptionComplete_of_present (present : world.node.calibration.isSome = true) :
    (receptionComplete : NodeM ρ ε Bool) world = (do
      let header ← askHeader
      if header.kind? = some .calibration then
        consider header
        return true
      else
        return false : NodeM ρ ε Bool) world := by
  obtain ⟨calibration, hcalibration⟩ := Option.isSome_iff_exists.mp present
  rw [receptionComplete, get_bind, hcalibration]

/-- A frame whose header is not read is left at that. -/
theorem receptionComplete_of_unheard (present : world.node.calibration.isSome = true)
    {failure : ε}
    (unheard : (Radio.perform (.readReceiveBuffer 10 0) world.radio).1.answer = .error failure) :
    (receptionComplete : NodeM ρ ε Bool) world =
      .error (.radio failure) (world.asking (.readReceiveBuffer 10 0)) := by
  have hheader : (askHeader : NodeM ρ ε BlinkHeader) world =
      .error (.radio failure) (world.asking (.readReceiveBuffer 10 0)) :=
    bind_of_error (ask_of_failed unheard) _
  rw [receptionComplete_of_present present, bind_of_error hheader]

section Heard

variable {bytes : Vector UInt8 10} (present : world.node.calibration.isSome = true)
  (heard : (Radio.perform (.readReceiveBuffer 10 0) world.radio).1.answer = .ok bytes)

include heard in
theorem askHeader_of_heard :
    (askHeader : NodeM ρ ε BlinkHeader) world =
      .ok (.ofBytes bytes) (world.asking (.readReceiveBuffer 10 0)) := by
  refine (bind_of_ok (ask_of_answered heard) _).trans ?_
  rw [Wire.decode_ofBytes]
  rfl

include present heard

/-- A frame that is no calibration frame is left to others. -/
theorem receptionComplete_of_foreign (foreign : bytes[0] ≠ 0xC2) :
    (receptionComplete : NodeM ρ ε Bool) world =
      .ok false (world.asking (.readReceiveBuffer 10 0)) := by
  rw [receptionComplete_of_present present, bind_of_ok (askHeader_of_heard heard),
    if_neg (mt kind?_ofBytes_iff.mp foreign)]
  rfl

/-- A calibration frame of a stranger is ignored, which is noted. -/
theorem receptionComplete_of_stranger (control : bytes[0] = 0xC2)
    (refused : ¬ world.node.Admits bytes) :
    (receptionComplete : NodeM ρ ε Bool) world = .ok true
      ((world.asking (.readReceiveBuffer 10 0)).noting
        (.log (.frameIgnored (BlinkHeader.ofBytes bytes).source world.node.clockMaster))) := by
  have hstranger : ¬ world.node.trusts (BlinkHeader.ofBytes bytes).source = true :=
    fun htrusts ↦ refused ⟨control, trusts_ofBytes_iff.mp htrusts⟩
  have hignored : (consider (.ofBytes bytes) : NodeM ρ ε Unit)
      (world.asking (.readReceiveBuffer 10 0)) = .ok ()
        ((world.asking (.readReceiveBuffer 10 0)).noting
          (.log (.frameIgnored (BlinkHeader.ofBytes bytes).source world.node.clockMaster))) := by
    rw [consider, get_bind]
    exact congrFun (if_neg hstranger) _
  rw [receptionComplete_of_present present, bind_of_ok (askHeader_of_heard heard),
    if_pos (kind?_ofBytes_iff.mpr control), bind_of_ok hignored]
  rfl

/-- A frame that is admitted is accepted if its time can be had. -/
theorem receptionComplete_of_admitted (admitted : world.node.Admits bytes) :
    (receptionComplete : NodeM ρ ε Bool) world =
      (accept (.ofBytes bytes) >>= fun _ ↦ pure true : NodeM ρ ε Bool)
        (world.asking (.readReceiveBuffer 10 0)) := by
  rw [receptionComplete_of_present present, bind_of_ok (askHeader_of_heard heard),
    if_pos (kind?_ofBytes_iff.mpr admitted.control)]
  refine bind_congr ?_ _
  rw [consider, get_bind]
  exact congrFun (if_pos (trusts_ofBytes_iff.mpr admitted.sender)) _

end Heard

/-- A frame that is not accepted is left where its way ends: before it is read, after its header
was read or refused, or because its time is not read. -/
theorem receptionComplete_of_not_accepts (h : ∀ bytes time, ¬ world.Accepts bytes time) :
    let later := world.upon receptionComplete
    let asked := world.asking (.readReceiveBuffer 10 0)
    later = world ∨ later = asked ∨
      (∃ source master, later = asked.noting (.log (.frameIgnored source master))) ∨
      ∃ failure, (Radio.perform .readReceptionTime asked.radio).1.answer = .error failure ∧
        later = asked.asking .readReceptionTime := by
  intro later asked
  cases hcalibration : world.node.calibration with
  | none => exact .inl (upon_of_ok (receptionComplete_of_absent hcalibration))
  | some calibration =>
    have present : world.node.calibration.isSome = true := Option.isSome_of_eq_some hcalibration
    cases heard : (Radio.perform (.readReceiveBuffer 10 0) world.radio).1.answer with
    | error failure =>
      exact .inr (.inl (upon_of_error (receptionComplete_of_unheard present heard)))
    | ok bytes =>
      by_cases admitted : world.node.Admits bytes
      · cases timed : (Radio.perform .readReceptionTime asked.radio).1.answer with
        | error failure =>
          refine .inr (.inr (.inr ⟨failure, rfl, ?_⟩))
          change world.upon receptionComplete = _
          rw [upon_congr (receptionComplete_of_admitted present heard admitted), upon_bind_pure]
          exact upon_of_error (accept_of_untimed _ timed)
        | ok time => exact absurd ⟨present, heard, admitted, timed⟩ (h bytes time)
      · by_cases control : bytes[0] = 0xC2
        · exact .inr (.inr (.inl
            ⟨_, _, upon_of_ok (receptionComplete_of_stranger present heard control admitted)⟩))
        · exact .inr (.inl (upon_of_ok (receptionComplete_of_foreign present heard control)))

/-- In any case everything but the radio is as it was. -/
theorem unmoved_of_not_accepts (h : ∀ bytes time, ¬ world.Accepts bytes time) :
    Unmoved world (world.upon receptionComplete) := by
  have hasked : Unmoved world (world.asking (.readReceiveBuffer 10 0)) := .asking world rfl
  rcases receptionComplete_of_not_accepts h with
    hlater | hlater | ⟨source, master, hlater⟩ | ⟨failure, untimed, hlater⟩
  · rw [hlater]
    exact .refl world
  · rwa [hlater]
  · rw [hlater]
    exact hasked.trans (.noting _ rfl)
  · rw [hlater]
    exact hasked.trans (.asking _ (by rw [landmark?_readReceptionTime, untimed]))

/-- One that is accepted is written to the next slot of the instance, which is the one landmark
passed. -/
theorem receptionComplete_of_accepts {bytes : Vector UInt8 10} {time : UInt64}
    (present : world.node.calibration = some calibration) (accepted : world.Accepts bytes time) :
    let later := world.upon receptionComplete
    landmarks later.history = landmarks world.history ++ [.received] ∧
      later.node = { world.node with
        calibration := some (calibration.takeUp (.ofBytes bytes) time
          (if (calibration.receive (.ofBytes bytes) time).status.valid then
            Radio.correction?
              (Radio.through [.readReceiveBuffer 10 0, .readReceptionTime] world.radio)
          else none)) } := by
  obtain ⟨hpresent, heard, admitted, timed⟩ := accepted
  let asked := world.asking (.readReceiveBuffer 10 0)
  have hasked : Unmoved world asked := .asking world rfl
  rw [upon_congr (receptionComplete_of_admitted hpresent heard admitted), upon_bind_pure,
    ← hasked.landmarks]
  have hpresent : asked.node.calibration = some calibration := present
  exact accept_outcome (.ofBytes bytes) hpresent timed

/-! ## What is heard of a frame -/

/-- What else is done to correct the clock is no matter of the frames. -/
theorem heard_track (world : World ρ ε) (calibration : Calibration) (header : BlinkHeader)
    (time : UInt64) :
    ∃ interval offset change,
      Hears world (world.upon (track calibration header time : NodeM ρ ε Unit)) change ∧
      (∀ hearing, (change hearing).frames = (hearing.track interval offset).frames) ∧
      ∀ header time, (⟨header, time, interval, offset⟩ : Reception).correction? =
        Radio.correction? world.radio := by
  obtain ⟨interval, offset, later, -, hheard, hcorrection, ⟨correction, h, -⟩ | ⟨error, h, -⟩⟩ :=
    askCorrection_outcome world
  · rw [upon_of_ok (track_of_ok h calibration header time)]
    have hlogged : Hears later _ id := hears_noting (later.recalibrating (·.correct correction))
      (.log (.frameReceived header.sequence time correction))
    exact ⟨interval, offset, _,
      (hheard.trans hlogged).trans (hears_recording _ calibration .rx _), fun _ ↦ rfl, hcorrection⟩
  · rw [track, upon_bind_of_error h]
    exact ⟨interval, offset, _, hheard, fun _ ↦ rfl, hcorrection⟩

/-- A frame that is accepted is heard of with its time, and with its carrier if that is read. -/
theorem heard_accept (header : BlinkHeader) (present : world.node.calibration = some calibration)
    {time : UInt64} (timed : (Radio.perform .readReceptionTime world.radio).1.answer = .ok time) :
    ∃ interval offset change,
      Hears world (world.upon (accept header : NodeM ρ ε Unit)) change ∧
      (∀ hearing, (change hearing).frames =
        ⟨hearing.header, time, interval, offset⟩ :: hearing.frames) ∧
      ∀ header' time', (⟨header', time', interval, offset⟩ : Reception).correction? =
        if (calibration.receive header time).status.valid then
          Radio.correction? (Radio.perform .readReceptionTime world.radio).2 else none := by
  let received := (world.asking .readReceptionTime).recalibrating (·.receive header time)
  have hpresent : received.node.calibration = some (calibration.receive header time) := by
    simp [received, asking, present]
  have hreceived : Hears world received fun hearing ↦
      { hearing with frames := ⟨hearing.header, time, none, none⟩ :: hearing.frames } :=
    (hears_asking world .readReceptionTime).congr fun hearing ↦ hearing.after_exchange timed
  rw [accept, upon_bind_of_ok (ask_of_answered timed), upon_bind_of_ok (updateCalibration_eq _ _),
    upon_bind_of_ok (requireCalibration_of_some received hpresent)]
  split
  · obtain ⟨interval, offset, change, hheard, hframes, hcorrection⟩ :=
      heard_track received (calibration.receive header time) header time
    refine ⟨interval, offset, _, hreceived.trans hheard, fun hearing ↦ ?_, hcorrection⟩
    rw [Function.comp_apply, hframes]
    simp [Hearing.track]
  · exact ⟨none, none, _, hreceived, fun _ ↦ rfl, fun _ _ ↦ rfl⟩

/-- The header of a frame is heard before anything else of it. -/
theorem heard_header (world : World ρ ε) :
    ∃ change, Hears world (world.asking (.readReceiveBuffer 10 0)) change ∧
      (∀ hearing, (change hearing).frames = hearing.frames) ∧
      ∀ bytes, (Radio.perform (.readReceiveBuffer 10 0) world.radio).1.answer = .ok bytes →
        ∀ hearing, (change hearing).header = some (.ofBytes bytes) := by
  refine ⟨_, hears_asking world _, fun hearing ↦ ?_, fun bytes heard hearing ↦ ?_⟩
  · cases heard : (Radio.perform (.readReceiveBuffer 10 0) world.radio).1.answer <;>
      rw [hearing.after_exchange heard] <;> rfl
  · rw [hearing.after_exchange heard]
    change (Wire.decode bytes.toList).toOption.map Prod.fst = _
    rw [Wire.decode_ofBytes]
    rfl

/-- Of a frame that is not accepted the header is heard at most. -/
theorem heard_of_not_accepts (h : ∀ bytes time, ¬ world.Accepts bytes time) :
    ∃ change, Hears world (world.upon receptionComplete) change ∧
      ∀ hearing, (change hearing).frames = hearing.frames := by
  obtain ⟨change, hheader, hsame, -⟩ := heard_header world
  rcases receptionComplete_of_not_accepts h with
    hlater | hlater | ⟨source, master, hlater⟩ | ⟨failure, untimed, hlater⟩
  · rw [hlater]
    exact ⟨id, .of_eq rfl, fun _ ↦ rfl⟩
  · rw [hlater]
    exact ⟨change, hheader, hsame⟩
  · rw [hlater]
    exact ⟨_, hheader.trans (hears_noting _ (.log (.frameIgnored source master))), hsame⟩
  · rw [hlater]
    refine ⟨_, hheader.trans (hears_asking _ .readReceptionTime), fun hearing ↦ ?_⟩
    rw [Function.comp_apply, Hearing.after_exchange _ untimed]
    exact hsame hearing

/-- What a call of the receive callback adds to the receptions: the frame if it is accepted, with
the carrier that the radio tells after it, and otherwise nothing. -/
theorem receptions_receptionComplete (world : World ρ ε) :
    ∃ heard, (world.upon receptionComplete).history = world.history ++ heard ∧
      ((∃ bytes time frame, world.Accepts bytes time ∧
        frame.header = some (.ofBytes bytes) ∧ frame.time = time ∧
        (∀ correction, frame.correction? = some correction →
          Radio.correction?
            (Radio.through [.readReceiveBuffer 10 0, .readReceptionTime] world.radio) =
              some correction) ∧
        ∀ before, receptions (before ++ heard) = receptions before ++ [frame]) ∨
      (∀ bytes time, ¬ world.Accepts bytes time) ∧
        ∀ before, receptions (before ++ heard) = receptions before) := by
  by_cases haccepted : ∃ bytes time, world.Accepts bytes time
  · obtain ⟨bytes, time, accepted⟩ := haccepted
    obtain ⟨calibration, present⟩ := Option.isSome_iff_exists.mp accepted.present
    obtain ⟨change, hheader, hsame, hbytes⟩ := heard_header world
    let asked := world.asking (.readReceiveBuffer 10 0)
    have hpresent : asked.node.calibration = some calibration := present
    obtain ⟨interval, offset, change', haccept, hframes, hcorrection⟩ :=
      heard_accept (.ofBytes bytes) hpresent accepted.timed
    obtain ⟨added, hadded, hthrough⟩ := hheader.trans haccept
    refine ⟨added, ?_, .inl ⟨bytes, time, ⟨some (.ofBytes bytes), time, interval, offset⟩,
      accepted, rfl, rfl, fun correction h ↦ ?_, fun before ↦ ?_⟩⟩
    · rw [upon_congr (receptionComplete_of_admitted accepted.present accepted.heard
        accepted.admitted), upon_bind_pure]
      exact hadded
    · rw [hcorrection] at h
      split at h
      · exact h
      · cases h
    · unfold receptions
      rw [Hearing.through_append, hthrough, Function.comp_apply, hframes,
        hbytes bytes accepted.heard, hsame, List.reverse_cons]
  · have hrefused : ∀ bytes time, ¬ world.Accepts bytes time := by simpa using haccepted
    obtain ⟨change, ⟨added, hadded, hthrough⟩, hsame⟩ := heard_of_not_accepts hrefused
    refine ⟨added, hadded, .inr ⟨hrefused, fun before ↦ ?_⟩⟩
    unfold receptions
    rw [Hearing.through_append, hthrough, hsame]

end Node

namespace World

variable [Radio ρ ε]

/-- **The footprint of a reception.**  The receive callback makes the index move on, by one, just
if the frame is accepted: there is an instance, the radio hands over ten bytes that the node admits,
and the time of their reception.  Otherwise the node and its platform stay as they are, and a frame
that is not admitted is not read any further.  If the index moves on, the new current slot gets the
header, the low 40 bits of the time and, once the instance is valid, the correction factor that the
carrier amounts to.  No other slot changes, and beside the ring only whether the instance is
valid. -/
theorem reception_footprint (world : World ρ ε) :
    let later := world.upon Node.receptionComplete
    ((∃ calibration latest, world.node.calibration = some calibration ∧
        later.node.calibration = some latest ∧
        latest.ring.index = calibration.ring.index + 1) ↔
      ∃ bytes time, world.Accepts bytes time) ∧
    ((∀ bytes time, ¬ world.Accepts bytes time) →
      later.node = world.node ∧ later.platform = world.platform) ∧
    (∀ bytes, world.node.calibration.isSome = true →
      (Radio.perform (.readReceiveBuffer 10 0) world.radio).1.answer = .ok bytes →
      let asked := world.asking (.readReceiveBuffer 10 0)
      (bytes[0] ≠ 0xC2 → Node.receptionComplete world = .ok false asked) ∧
      (bytes[0] = 0xC2 → ¬ world.node.Admits bytes →
        ∃ message, Node.receptionComplete world = .ok true (asked.noting (.log message)))) ∧
    ∀ bytes time calibration, world.Accepts bytes time →
      world.node.calibration = some calibration →
      ∃ ring frame valid,
        valid = (calibration.status.valid || 1 < calibration.ring.index + 1) ∧
        later.node = { world.node with
          calibration := some
            { calibration with ring, status := { calibration.status with valid } } } ∧
        calibration.ring.Writes (calibration.ring.index + 1) frame ring ∧
        frame.header = .ofBytes bytes ∧
        frame.received.toNat = time.toNat % 2 ^ 40 ∧
        frame.sent = (calibration.ring.get (calibration.ring.index + 1)).sent ∧
        frame.correction = (if valid then
          Radio.correction?
            (Radio.through [.readReceiveBuffer 10 0, .readReceptionTime] world.radio)
        else none).getD (calibration.ring.get (calibration.ring.index + 1)).correction := by
  refine ⟨⟨?_, ?_⟩, fun refused ↦ ?_, ?_, ?_⟩
  · rintro ⟨calibration, latest, present, hlatest, hindex⟩
    by_contra hrefused
    have hsame := Node.unmoved_of_not_accepts fun bytes time accepted ↦
      hrefused ⟨bytes, time, accepted⟩
    rw [hsame.node, present, Option.some_inj] at hlatest
    subst hlatest
    simp at hindex
  · rintro ⟨bytes, time, accepted⟩
    obtain ⟨calibration, present⟩ := Option.isSome_iff_exists.mp accepted.present
    obtain ⟨-, hnode⟩ := Node.receptionComplete_of_accepts present accepted
    exact ⟨calibration, _, present, congrArg Node.calibration hnode,
      (calibration.writes_takeUp _ time _).index⟩
  · have hsame := Node.unmoved_of_not_accepts refused
    exact ⟨hsame.node, hsame.platform⟩
  · intro bytes present heard
    refine ⟨Node.receptionComplete_of_foreign present heard, fun control refused ↦ ?_⟩
    exact ⟨_, Node.receptionComplete_of_stranger present heard control refused⟩
  · intro bytes time calibration accepted present
    refine ⟨_, _, _, rfl, ?_, calibration.writes_takeUp (.ofBytes bytes) time _, rfl,
      Instant.toNat_truncate time, rfl, rfl⟩
    rw [(Node.receptionComplete_of_accepts present accepted).2, Calibration.takeUp_eq]
    rfl

/-- The second frame to be received from the clock master is accepted, and with it the instance
becomes valid. -/
theorem reception_footprint_of_second_frame :
    let heard := (fresh { period := 1000, latency := 100 } 66
      { systemTime := 1048576, receptionTime := 5000,
        received := [0xc2, 0, 8, 7, 6, 5, 4, 3, 2, 1] } {} :
          World Radio.Scripted Radio.Failure).run [.init 3 0x102030405060708, .receptionInterrupt]
    let world : World Radio.Scripted Radio.Failure :=
      { heard with
        radio := { receptionTime := 2 ^ 40 + 9000, trackingOffset := 0x10000,
                   received := [0xc2, 1, 8, 7, 6, 5, 4, 3, 2, 1] } }
    ∃ calibration ring frame, world.node.calibration = some calibration ∧
      calibration.status.valid = false ∧
      (world.upon Node.receptionComplete).node = { world.node with
        calibration := some
          { calibration with ring, status := { calibration.status with valid := true } } } ∧
      calibration.ring.Writes 2 frame ring ∧
      frame = ⟨⟨0xc2, 1, 0x102030405060708⟩, 1048576, 9000, ⟨0x3f808000⟩⟩ := by
  intro heard world
  let bytes : Vector UInt8 10 := #v[0xc2, 1, 8, 7, 6, 5, 4, 3, 2, 1]
  have hindex : world.node.calibration.map (fun calibration ↦
      (calibration.ring.index, calibration.status.valid, (calibration.ring.get 2).sent)) =
        some (1, false, 1048576) := by decide +kernel
  have hmaster : world.node.clockMaster = 0x102030405060708 := by decide +kernel
  have htracked : Radio.correction?
      (Radio.through [.readReceiveBuffer 10 0, .readReceptionTime] world.radio) =
        some ⟨0x3f808000⟩ := by decide +kernel
  have accepted : world.Accepts bytes (2 ^ 40 + 9000) :=
    { present := by rw [← Option.isSome_map, hindex]; rfl
      heard := rfl
      admitted := ⟨rfl, .inr (by rw [hmaster]; rfl)⟩
      timed := rfl }
  obtain ⟨calibration, present, hcalibration⟩ := Option.map_eq_some_iff.mp hindex
  obtain ⟨hindex, hfresh, hsent⟩ := by simpa only [Prod.mk.injEq] using hcalibration
  have hvalid : (calibration.status.valid || decide (1 < calibration.ring.index + 1)) = true := by
    rw [hfresh, hindex]
    rfl
  obtain ⟨ring, frame, valid, rfl, hnode, hring, hheader, hreceived, hframe, hcorrection⟩ :=
    (reception_footprint world).2.2.2 bytes _ calibration accepted present
  rw [hindex] at hring hframe
  rw [hvalid] at hnode
  rw [hvalid, if_pos rfl, htracked] at hcorrection
  refine ⟨calibration, ring, frame, present, hfresh, hnode, hring, ?_⟩
  obtain ⟨header, sent, received, correction⟩ := frame
  obtain rfl : header = _ := hheader
  obtain rfl : sent = 1048576 := hframe.trans hsent
  obtain rfl : received = 9000 := UInt64.toNat_inj.mp hreceived
  obtain rfl : correction = _ := hcorrection
  rfl

end World

end ClockCalibration
