import ClockCalibration.Proofs.Airing
import ClockCalibration.Proofs.Time
import ClockCalibration.Radio.Scripted

/-!
# What is armed is what is sent

The payload of a blink is the whole slot that the blink was put into, and the slots are shared:
receptions leave the headers of others in them and times of 64 bits come from the radio.  What
keeps the payload sound is that every writer leaves a calibration frame whose times fit the
device clock, and that the header is written anew by every attempt.

The instant that the radio is told follows its payload directly, with nothing but the two
requests for how to send it in between, and is the time of sending in it.
-/

namespace ClockCalibration

variable {ρ ε : Type}

/-! ## Times in the ring -/

/-- Both times of a frame fit the device clock. -/
def Frame.FitsClock (frame : Frame) : Prop :=
  frame.sent.toNat < 2 ^ 40 ∧ frame.received.toNat < 2 ^ 40

/-- The times in the ring always fit the device clock. -/
theorem Move.fitsClock {node : Node} {calibration later : Calibration}
    {landmark : Option Landmark} (move : Move node calibration landmark later)
    (h : calibration.ring.All Frame.FitsClock) : later.ring.All Frame.FitsClock := by
  cases move with
  | manage _ _ ring => exact ring ▸ h
  | time | release | accept | complete | close => exact h
  | restart _ time =>
      exact (h.of_slots calibration.ring.get_resetIndex).modifySlot _
        fun _ hframe ↦ ⟨Instant.truncate_lt time, hframe.2⟩
  | prepare | reject => exact h.modifySlot _ fun _ hframe ↦ ⟨Instant.add_lt _ _, hframe.2⟩
  | receive _ _ time =>
      exact (h.of_slots calibration.ring.get_advance).modifySlot _
        fun _ hframe ↦ ⟨hframe.1, Instant.truncate_lt time⟩
  | correct => exact h.modifySlot _ fun _ hframe ↦ hframe

/-! ## Requests of a blink -/

/-- What a blink asks of the radio, given what has happened before. -/
structure Faithful (address : UInt16) (before : List (Entry ε)) (entry : Entry ε) : Prop where
  /-- The payload is a calibration frame with the sequence number that is next. -/
  payload : ∀ payload offset reply,
    entry.happening = .exchange (.writeTransmitBuffer payload offset) reply →
    offset = 0 ∧ ∃ frame : Frame, payload = Wire.encode frame ∧
      frame.header =
        ⟨FrameControl.calibration.code, .ofNat (airing before).attempts, address.toUInt64⟩
  /-- The instant is the time of sending in the payload that the radio has just been given. -/
  instant : ∀ instant reply, entry.happening = .exchange (.setDelayedStart instant) reply →
    ∃ frame : Frame, World.Loaded before (Wire.encode frame) ∧ instant = frame.sent

/-- Of what does not program the radio nothing is asked. -/
theorem faithful_of_not_isArming (address : UInt16) (before : List (Entry ε)) {entry : Entry ε}
    (idle : ¬ entry.happening.IsArming) : Faithful address before entry where
  payload _ _ _ h := absurd (h ▸ trivial : entry.happening.IsArming) idle
  instant _ _ h := absurd (h ▸ trivial : entry.happening.IsArming) idle

namespace World

variable {world later : World ρ ε} {address : UInt16}

/-- Programming the radio is faithful. -/
theorem Arming.faithful (step : Arming world later) (airs : world.Airs address)
    {entry : Entry ε} (history : later.history = world.history ++ [entry]) :
    Faithful address world.history entry := by
  cases step with
  | release => exact absurd history (by simp)
  | attempt present =>
      obtain rfl := List.singleton_inj.mp (List.append_cancel_left history)
      obtain rfl := airs.addressed
      refine ⟨fun payload offset reply h ↦ ?_, nofun⟩
      cases h
      exact ⟨rfl, _, rfl, (airs.present _ present).header_prepare⟩
  | request _ _ _ minor =>
      obtain rfl := List.singleton_inj.mp (List.append_cancel_left history)
      rcases minor with rfl | rfl | rfl <;> exact ⟨nofun, nofun⟩
  | time _ _ _ _ loaded =>
      obtain rfl := List.singleton_inj.mp (List.append_cancel_left history)
      refine ⟨nofun, fun instant reply h ↦ ?_⟩
      cases h
      exact ⟨_, loaded, rfl⟩
  | reject | accept =>
      obtain rfl := List.singleton_inj.mp (List.append_cancel_left history)
      exact ⟨nofun, nofun⟩

/-- A world of a node with this address whose blinks have all been sent as they were armed. -/
structure Sends (address : UInt16) (world : World ρ ε) : Prop where
  airs : world.Airs address
  /-- The times in its ring fit the device clock. -/
  fits : ∀ calibration, world.node.calibration = some calibration →
    calibration.ring.All Frame.FitsClock
  faithful : Always (Faithful address) world.history

theorem Sends.fresh (config : Config) (address : UInt16) (radio : ρ) (platform : Platform) :
    (World.fresh config address radio platform : World ρ ε).Sends address where
  airs := ⟨rfl, .nil address, fun _ present ↦ nomatch present⟩
  fits _ present := nomatch present
  faithful := .nil

/-- Every step keeps it so. -/
theorem Sends.step {allowed : Operation → Prop} (h : world.Sends address)
    (step : Step allowed world later) : later.Sends address where
  airs := h.airs.step step
  fits := by
    intro calibration present
    cases step.moves with
    | absent before after => cases after.symm.trans present
    | created before valid sized after =>
        cases after.symm.trans present
        have hring := FrameRing.all_of_ofSize? (P := Frame.FitsClock) sized
          ⟨by decide, by decide⟩
        exact hring.modifySlot _ fun _ hframe ↦ ⟨Instant.truncate_lt _, hframe.2⟩
    | moved before after move =>
        cases after.symm.trans present
        exact move.fitsClock (h.fits _ before)
  faithful := step.always h.faithful (fun _ idle ↦ faithful_of_not_isArming address _ idle)
    fun arming _ history ↦ arming.faithful h.airs history

variable [Radio ρ ε]

/-- **What is armed is what is sent.**  However a node is run, every slot of its ring holds a
calibration frame whose times fit the device clock.  Every payload that the radio is handed is
one of 30 bytes at the beginning of the transmit buffer, and decodes to a calibration frame with
the address of the node and the sequence number that was next, which is how many blinks had been
attempted since the schedule began; if the radio is told an instant before the next payload, it
is the time of sending in this one, and directly before that the radio was told to send 30 bytes
for ranging. -/
theorem payload_as_told {config : Config} {address : UInt16} {radio : ρ} {platform : Platform}
    {world : World ρ ε}
    (reached : Reaches (fun _ ↦ True) (.fresh config address radio platform) world) :
    (∀ calibration, world.node.calibration = some calibration →
      calibration.sequence = .ofNat (airing world.history).attempts ∧
      ∀ frame ∈ calibration.ring.slots, frame.header.control = FrameControl.calibration.code ∧
        frame.sent.toNat < 2 ^ 40 ∧ frame.received.toNat < 2 ^ 40) ∧
    ∀ before phase payload offset reply after,
      world.history =
        before ++ ⟨phase, .exchange (.writeTransmitBuffer payload offset) reply⟩ :: after →
      offset = 0 ∧ payload.length = 30 ∧ ∃ frame : Frame,
        Wire.decode payload = .ok (frame, 30) ∧
        frame.header =
          ⟨FrameControl.calibration.code, .ofNat (airing before).attempts, address.toUInt64⟩ ∧
        ∀ between phase' instant reply' rest,
          after = between ++ ⟨phase', .exchange (.setDelayedStart instant) reply'⟩ :: rest →
          .attempted ∉ landmarks between →
          instant = frame.sent ∧ ∃ configured ready,
            between = [⟨some .armed, .exchange (.configureTransmit 30 true) configured⟩,
              ⟨some .armed, .exchange (.setWaitForResponse false) ready⟩] := by
  have h : world.Sends address :=
    reached.invariant (calm_fresh config address radio platform)
      (.fresh config address radio platform) Sends.step
  refine ⟨fun calibration present ↦ ?_, fun before phase payload offset reply after hsplit ↦ ?_⟩
  · have hairs := h.airs.present calibration present
    refine ⟨hairs.sequence, fun frame hmem ↦ ⟨?_, ?_⟩⟩
    · exact hairs.control.of_mem hmem
    · exact (h.fits calibration present).of_mem hmem
  · obtain ⟨rfl, frame, rfl, hheader⟩ :=
      (h.faithful before _ after hsplit).payload payload offset reply rfl
    refine ⟨rfl, Wire.length_encode_frame frame, frame, Wire.decode_encode_frame frame, hheader,
      fun between phase' instant reply' rest hafter hbetween ↦ ?_⟩
    have htold : world.history =
        (before ++ ⟨phase, .exchange (.writeTransmitBuffer _ 0) reply⟩ :: between) ++
          ⟨phase', .exchange (.setDelayedStart instant) reply'⟩ :: rest := by
      rw [hsplit, hafter, List.append_assoc, List.cons_append]
    obtain ⟨other, ⟨past, written, configured, ready, hloaded⟩, rfl⟩ :=
      (h.faithful _ _ rest htold).instant instant reply' rfl
    -- the payload is the last one before the instant, and so is the one that is loaded
    obtain ⟨-, hsame, hrequests⟩ := cut_unique
      (P := fun entry : Entry ε ↦ entry.happening.landmark? = some .attempted) hloaded rfl rfl
      (fun entry hmem hattempted ↦ hbetween (mem_landmarks.mpr ⟨entry, hmem, hattempted⟩))
      (by simp [Happening.landmark?])
    have hframe : frame = other := by
      rw [Entry.mk.injEq, Happening.exchange.injEq, Call.writeTransmitBuffer.injEq] at hsame
      exact Wire.encode_frame_injective hsame.2.1.1
    exact ⟨congrArg Frame.sent hframe.symm, configured, ready, hrequests⟩

/-- A frame of another node, whose sequence number is nine, is received between the beginning and
the first blink, at a time that does not fit the device clock.  The blink is put into its slot,
and sent with its own header, at the time that the radio is told. -/
theorem payload_as_told_of_foreign_header :
    let heard := (fresh { period := 1000, latency := 100 } 66
      { systemTime := 0xfff0000000100000, receptionTime := 0xffffffffffffffff,
        received := [0xc2, 9, 8, 7, 6, 5, 4, 3, 2, 1] } {} :
          World Radio.Scripted Radio.Failure).run [.init 2 anyMaster, .receptionInterrupt]
    let sent := heard.run [.blink .blocking]
    heard.node.calibration.map (fun calibration ↦
        (calibration.ring.current.header, calibration.ring.current.received)) =
        some (⟨0xc2, 9, 0x102030405060708⟩, 0xffffffffff) ∧
      ∃ before phase payload reply after, ∃ frame : Frame,
        sent.history =
          before ++ ⟨phase, .exchange (.writeTransmitBuffer payload 0) reply⟩ :: after ∧
        Wire.decode payload = .ok (frame, 30) ∧ frame.header = ⟨0xc2, 0, 66⟩ ∧
        instants sent.history = [frame.sent] := by
  intro heard sent
  have hreached : Reaches (fun _ ↦ True) (.fresh { period := 1000, latency := 100 } 66
      { systemTime := 0xfff0000000100000, receptionTime := 0xffffffffffffffff,
        received := [0xc2, 9, 8, 7, 6, 5, 4, 3, 2, 1] } {}) sent :=
    (Reaches.refl.run (by simp)).run (by simp)
  have hcourse : landmarks sent.history = [.began 0xfff0000000100000, .received] ++
      .attempted :: [.timed, .accepted, .acknowledged, .completed] := by decide +kernel
  obtain ⟨before, ⟨phase, _⟩, after, hsplit, hbefore, hattempted, hafter⟩ :=
    exists_entry_of_landmarks hcourse
  obtain ⟨payload, offset, reply, rfl⟩ := Happening.of_landmark?_attempted hattempted
  have hafter' : landmarks after = [] ++ .timed :: [.accepted, .acknowledged, .completed] := hafter
  obtain ⟨between, ⟨phase', _⟩, rest, rfl, hbetween, htimed, hrest⟩ :=
    exists_entry_of_landmarks hafter'
  obtain ⟨instant, reply', rfl⟩ := Happening.of_landmark?_timed htimed
  obtain ⟨rfl, -, frame, hdecode, hheader, htold⟩ :=
    (payload_as_told hreached).2 _ _ _ _ _ _ hsplit
  obtain ⟨rfl, configured, ready, rfl⟩ := htold _ _ _ _ _ rfl (by simp [hbetween])
  refine ⟨by decide +kernel, before, phase, payload, reply, _, frame, hsplit, hdecode, ?_, ?_⟩
  · have hsince : Since (landmarks before) 0xfff0000000100000 [.received] :=
      ⟨by simp, [], hbefore⟩
    rw [hheader, attempts_airing hsince]
    rfl
  · -- one instant is told in all, and that of the payload is told
    have hlength : (instants sent.history).length = 1 := by decide +kernel
    have hmem : frame.sent ∈ instants sent.history := by
      rw [hsplit, instants, List.mem_filterMap]
      exact ⟨⟨phase', .exchange (.setDelayedStart frame.sent) reply'⟩, by simp, rfl⟩
    obtain ⟨only, honly⟩ := List.length_eq_one_iff.mp hlength
    rw [honly, List.mem_singleton] at hmem
    rw [honly, hmem]

end World

end ClockCalibration
