import ClockCalibration.Proofs.Hearing
import ClockCalibration.Proofs.Node.Completion
import ClockCalibration.Proofs.Wire.RoundTrip

/-!
# What becomes of a received frame

The standard receive callback asks the radio for the header, and goes on only with a
calibration frame of a sender that the node trusts.  Then it reads the time of reception,
puts the frame into the next slot and, unless that was the first frame, reads the tracking
registers and queues an event.

Ten bytes are always a header, so the only way for the callback to fail is that the radio
does.  The outcomes are told apart here once, by `receptionComplete_cases` for the header
and by `accept_cases` for what follows, each with the world that it leaves and with what is
heard on the way.
-/

namespace ClockCalibration

variable {ρ ε : Type}

namespace World

variable {world later latest : World ρ ε}

/-! ## What is heard on the way -/

/-- What was heard on the way from one world to another, as a change of what had been. -/
def Hears (world later : World ρ ε) (change : Hearing → Hearing) : Prop :=
  ∃ added, later.history = world.history ++ added ∧
    ∀ hearing : Hearing, hearing.through added = change hearing

/-- Something failed on the way from one world to another. -/
def Fails (world later : World ρ ε) : Prop :=
  ∃ added, later.history = world.history ++ added ∧ ∃ entry ∈ added, entry.happening.Failed

/-- Nothing is heard where nothing happens. -/
theorem Hears.of_eq (h : later.history = world.history) : Hears world later id :=
  ⟨[], h.trans (List.append_nil _).symm, fun _ ↦ rfl⟩

theorem Hears.trans {change change' : Hearing → Hearing} (h : Hears world later change)
    (h' : Hears later latest change') : Hears world latest (change' ∘ change) := by
  obtain ⟨added, hadded, hchange⟩ := h
  obtain ⟨added', hadded', hchange'⟩ := h'
  refine ⟨added ++ added', by rw [hadded', hadded, List.append_assoc], ?_⟩
  intro hearing
  rw [Hearing.through_append, hchange, hchange', Function.comp_apply]

theorem Hears.congr {change change' : Hearing → Hearing} (h : Hears world later change)
    (same : ∀ hearing, change hearing = change' hearing) : Hears world later change' := by
  obtain ⟨added, hadded, hchange⟩ := h
  exact ⟨added, hadded, fun hearing ↦ (hchange hearing).trans (same hearing)⟩

/-- What is noted is heard. -/
theorem hears_noting (world : World ρ ε) (happening : Happening ε) :
    Hears world (world.noting happening) (·.after happening) :=
  ⟨[_], rfl, fun _ ↦ rfl⟩

/-- So is what the radio replies. -/
theorem hears_exchanging (world : World ρ ε) (call : Call) (reply : Reply ε call) (radio : ρ) :
    Hears world (world.exchanging call reply radio) (·.after (.exchange call reply)) :=
  ⟨[_], rfl, fun _ ↦ rfl⟩

theorem hears_asking [Radio ρ ε] (world : World ρ ε) (call : Call) :
    Hears world (world.asking call)
      (·.after (.exchange call (Radio.perform call world.radio).1)) :=
  ⟨[_], rfl, fun _ ↦ rfl⟩

/-- The event of a frame is made known if events are wanted. -/
theorem hears_recording (world : World ρ ε) (calibration : Calibration) (direction : Direction)
    (index : UInt32) :
    Hears world (world.recording calibration direction index) fun hearing ↦
      { hearing with
        offered := hearing.offered ++
          if calibration.postprocess then [.postprocess direction index] else [] } := by
  unfold recording offering
  split
  · have hoffered := hears_noting
      { world with platform := world.platform.enqueue (.postprocess direction index) }
      (.enqueue (.postprocess direction index) world.platform.hasRoom)
    split
    · exact hoffered
    · exact hoffered.trans (hears_noting _ (.log (.eventDropped _)))
  · refine ⟨[], (List.append_nil _).symm, ?_⟩
    intro hearing
    dsimp only
    rw [List.append_nil]
    rfl

/-- A request that was not answered failed. -/
theorem fails_exchanging (world : World ρ ε) {call : Call} (failure : ε)
    (transfers : List Bus.Transfer) (radio : ρ) :
    world.Fails (world.exchanging call ⟨.error failure, transfers⟩ radio) :=
  ⟨_, rfl, _, List.mem_singleton_self _, trivial⟩

/-- What fails after something was heard has failed. -/
theorem Fails.of_hears {change : Hearing → Hearing} (h : Hears world later change)
    (failed : later.Fails latest) : world.Fails latest := by
  obtain ⟨added, hadded, -⟩ := h
  obtain ⟨rest, hrest, entry, hentry, hfailed⟩ := failed
  refine ⟨added ++ rest, ?_, entry, List.mem_append_right _ hentry, hfailed⟩
  rw [hrest, hadded, List.append_assoc]

end World

namespace Node

open World

variable [Radio ρ ε] (world : World ρ ε)

/-! ## Reading -/

/-- The radio answers the request for the header with one, or it fails. -/
theorem askHeader_cases :
    (∃ header bytes transfers radio,
      Radio.perform (.readReceiveBuffer (Wire.Packed.size BlinkHeader) 0) world.radio =
        (⟨.ok bytes, transfers⟩, radio) ∧
      Wire.decode bytes.toList = .ok (header, 10) ∧
      askHeader world = .ok header (world.exchanging (.readReceiveBuffer _ 0)
        ⟨.ok bytes, transfers⟩ radio)) ∨
    (∃ error failure transfers radio,
      askHeader world = .error error (world.exchanging
        (.readReceiveBuffer (Wire.Packed.size BlinkHeader) 0) ⟨.error failure, transfers⟩
          radio)) := by
  unfold askHeader
  rcases ask_cases world (.readReceiveBuffer (Wire.Packed.size BlinkHeader) 0) with
    ⟨bytes, transfers, radio, hperform, h⟩ | ⟨failure, transfers, radio, -, h⟩
  · have hlength : bytes.toList.length = 10 := bytes.length_toList
    obtain ⟨header, hdecode⟩ := Wire.exists_header hlength
    refine .inl ⟨header, bytes, transfers, radio, hperform, hdecode, ?_⟩
    rw [bind_of_ok h, hdecode]
    rfl
  · exact .inr ⟨_, failure, transfers, radio, bind_of_error h _⟩

/-- The radio answers both requests for the correction factor, or it fails. -/
theorem askCorrection_cases :
    (∃ interval offset later,
      askCorrection world = .ok
        (Tracking.correction (Tracking.interval interval) (Tracking.offset offset)) later ∧
      later.node = world.node ∧
      Hears world later fun hearing ↦
        { hearing with
          frames := hearing.frames.modifyHead
            ({ · with interval := some interval, offset := some offset }) }) ∨
    (∃ error later, askCorrection world = .error error later ∧ world.Fails later) := by
  unfold askCorrection
  rcases ask_cases world (.readRegister .trackingInterval 4) with
    ⟨interval, transfers, radio, -, h⟩ | ⟨failure, transfers, radio, -, h⟩
  · let asked :=
      world.exchanging (.readRegister .trackingInterval 4) ⟨.ok interval, transfers⟩ radio
    have hasked : Hears world asked _ := hears_exchanging world (.readRegister .trackingInterval 4)
      ⟨.ok interval, transfers⟩ radio
    rw [bind_of_ok h]
    rcases ask_cases asked (.readRegister .trackingOffset 4) with
      ⟨offset, transfers', radio', -, h'⟩ | ⟨failure, transfers', radio', -, h'⟩
    · refine .inl ⟨interval, offset, _, bind_of_ok h' _, rfl, ?_⟩
      obtain ⟨added, hadded, hheard⟩ := hasked.trans (hears_exchanging _
        (.readRegister .trackingOffset 4) ⟨.ok offset, transfers'⟩ radio')
      refine ⟨added, hadded, ?_⟩
      intro hearing
      have hother : Register.trackingOffset ≠ Register.trackingInterval := by decide
      rw [hheard]
      cases hframes : hearing.frames <;> simp [Hearing.after, hframes, hother]
    · exact .inr ⟨_, _, bind_of_error h' _, .of_hears hasked (fails_exchanging _ failure _ radio')⟩
  · exact .inr ⟨_, _, bind_of_error h _, fails_exchanging world failure transfers radio⟩

/-! ## Accepting -/

/-- After a frame that is not the first the clock is corrected and the event queued. -/
theorem track_cases {calibration : Calibration} (header : BlinkHeader) (time : UInt64)
    (present : world.node.calibration = some calibration) :
    (∃ interval offset later, track calibration header time world = .ok () later ∧
      later.node = { world.node with
        calibration := some (calibration.correct
          (Tracking.correction (Tracking.interval interval) (Tracking.offset offset))) } ∧
      Hears world later fun hearing ↦
        { hearing with
          frames := hearing.frames.modifyHead
            ({ · with interval := some interval, offset := some offset })
          offered := hearing.offered ++
            if calibration.postprocess then [.postprocess .rx calibration.ring.index] else [] }) ∨
    (∃ error later, track calibration header time world = .error error later ∧
      world.Fails later) := by
  rcases askCorrection_cases world with
    ⟨interval, offset, asked, h, hnode, hasked⟩ | ⟨error, later, h, hfails⟩
  · generalize hfactor : Tracking.correction _ _ = correction at h
    let corrected := asked.recalibrating (·.correct correction)
    let logged := corrected.noting (.log (.frameReceived header.sequence time correction))
    have hlogged : Hears asked logged id := hears_noting corrected (.log (.frameReceived _ _ _))
    have hrecorded := (hasked.trans hlogged).trans
      (hears_recording logged calibration .rx calibration.ring.index)
    refine .inl ⟨interval, offset, _, track_of_ok h calibration header time, ?_, hrecorded⟩
    rw [node_recording, hfactor]
    simp only [node_noting, node_recalibrating, hnode, present, Option.map_some]
  · exact .inr ⟨error, later, bind_of_error h _, hfails⟩

/-- A frame that is accepted is put into the next slot.  The first is left at that. -/
theorem accept_cases {calibration : Calibration} (header : BlinkHeader)
    (present : world.node.calibration = some calibration) :
    (∃ time later, (calibration.receive header time).status.valid = false ∧
      accept header world = .ok () later ∧
      later.node = { world.node with calibration := some (calibration.receive header time) } ∧
      Hears world later fun hearing ↦
        { hearing with frames := ⟨hearing.header, time, none, none⟩ :: hearing.frames }) ∨
    (∃ time interval offset later, (calibration.receive header time).status.valid = true ∧
      accept header world = .ok () later ∧
      later.node = { world.node with
        calibration := some ((calibration.receive header time).correct
          (Tracking.correction (Tracking.interval interval) (Tracking.offset offset))) } ∧
      Hears world later fun hearing ↦
        { hearing with
          frames := ⟨hearing.header, time, some interval, some offset⟩ :: hearing.frames
          offered := hearing.offered ++
            if calibration.postprocess then
              [.postprocess .rx (calibration.receive header time).ring.index]
            else [] }) ∨
    world.Fails (world.upon (accept header)) := by
  unfold accept
  rcases ask_cases world .readReceptionTime with
    ⟨time, transfers, radio, -, h⟩ | ⟨failure, transfers, radio, -, h⟩
  · let received := (world.exchanging .readReceptionTime ⟨.ok time, transfers⟩
      radio).recalibrating (·.receive header time)
    have hpresent : received.node.calibration = some (calibration.receive header time) := by
      simp [received, present]
    have hnode : received.node =
        { world.node with calibration := some (calibration.receive header time) } := by
      simp [received, present]
    have hreceived : Hears world received _ :=
      hears_exchanging world .readReceptionTime ⟨.ok time, transfers⟩ radio
    rw [bind_of_ok h, upon_bind_of_ok h, bind_of_ok (updateCalibration_eq _ _),
      upon_bind_of_ok (updateCalibration_eq _ _),
      bind_of_ok (requireCalibration_of_some received hpresent),
      upon_bind_of_ok (requireCalibration_of_some received hpresent)]
    cases valid : (calibration.receive header time).status.valid with
    | false => exact .inl ⟨time, received, valid, rfl, hnode, hreceived⟩
    | true =>
        rcases track_cases received header time hpresent with
          ⟨interval, offset, later, htrack, hlater, hheard⟩ | ⟨error, later, htrack, hfails⟩
        · refine .inr (.inl ⟨time, interval, offset, later, valid, htrack, ?_, ?_⟩)
          · rw [hlater, hnode]
          · exact hreceived.trans hheard
        · refine .inr (.inr ?_)
          have hupon : received.upon (track (calibration.receive header time) header time) =
              later := upon_of_error htrack
          rw [if_pos rfl, hupon]
          exact .of_hears hreceived hfails
  · refine .inr (.inr ?_)
    rw [upon_bind_of_error h]
    exact fails_exchanging world failure transfers radio

/-! ## The callback -/

/-- The standard receive callback accepts the calibration frames of senders that the node
trusts, ignores those of others, and leaves other frames to other callbacks. -/
theorem receptionComplete_cases {calibration : Calibration}
    (present : world.node.calibration = some calibration) :
    (∃ header bytes transfers radio heard,
      Radio.perform (.readReceiveBuffer (Wire.Packed.size BlinkHeader) 0) world.radio =
        (⟨.ok bytes, transfers⟩, radio) ∧
      Wire.decode bytes.toList = .ok (header, 10) ∧
      heard = world.exchanging (.readReceiveBuffer (Wire.Packed.size BlinkHeader) 0)
        ⟨.ok bytes, transfers⟩ radio ∧
      ((header.kind? = some .calibration ∧ world.node.trusts header.source = true ∧
        (receptionComplete : NodeM ρ ε Bool) world =
          (accept header >>= fun _ ↦ pure true : NodeM ρ ε Bool) heard) ∨
      (header.kind? = some .calibration ∧ world.node.trusts header.source = false ∧
        (receptionComplete : NodeM ρ ε Bool) world =
          .ok true (heard.noting (.log (.frameIgnored header.source world.node.clockMaster)))) ∨
      (header.kind? ≠ some .calibration ∧
        (receptionComplete : NodeM ρ ε Bool) world = .ok false heard))) ∨
    (∃ error failure transfers radio,
      (receptionComplete : NodeM ρ ε Bool) world = .error error (world.exchanging
        (.readReceiveBuffer (Wire.Packed.size BlinkHeader) 0) ⟨.error failure, transfers⟩
          radio)) := by
  rw [receptionComplete, get_bind, present]
  dsimp only
  rcases askHeader_cases world with
    ⟨header, bytes, transfers, radio, hperform, hdecode, h⟩ | ⟨error, failure, transfers, radio, h⟩
  · let heard := world.exchanging (.readReceiveBuffer _ 0) ⟨.ok bytes, transfers⟩ radio
    refine .inl ⟨header, bytes, transfers, radio, heard, hperform, hdecode, rfl, ?_⟩
    rw [bind_of_ok h]
    by_cases kind : header.kind? = some .calibration
    · rw [if_pos kind]
      cases trusted : world.node.trusts header.source with
      | true =>
          refine .inl ⟨kind, rfl, bind_congr ?_ _⟩
          rw [consider, get_bind]
          exact congrFun (if_pos trusted) _
      | false =>
          have hignored : consider header heard = .ok () (heard.noting
              (.log (.frameIgnored header.source world.node.clockMaster))) := by
            rw [consider, get_bind]
            exact congrFun (if_neg (ne_true_of_eq_false trusted)) heard
          exact .inr (.inl ⟨kind, rfl, bind_of_ok hignored _⟩)
    · rw [if_neg kind]
      exact .inr (.inr ⟨kind, rfl⟩)
  · exact .inr ⟨error, failure, transfers, radio, bind_of_error h _⟩

end Node

end ClockCalibration
