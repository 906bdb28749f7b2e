import ClockCalibration.Proofs.Completion
import ClockCalibration.Proofs.Origin
import ClockCalibration.Radio.Scripted

/-!
# The indices of events

A reception moves the index on and writes its frame to the slot of the index it gets to.  A
completion takes the index it finds, and moves it on after.  Either way the index is moved on by
one for an event.  But a completion that comes next after a reception finds the index of that, and
the frame of a blink that was pending while others were received is as many indices back.

`Direction.index` is the index of an event by its direction and what was passed before it, and
`World.event_indices` says what that makes of the events of every run.
-/

namespace ClockCalibration

open Relation (ReflTransGen)

variable {ρ ε : Type}

/-! ## Indices -/

namespace Direction

/-- What is passed with an event. -/
def landmark : Direction → Landmark
  | rx => .received
  | tx => .completed

/-- How far the index is moved on for an event before the event is given it. -/
def lead : Direction → Nat
  | rx => 1
  | tx => 0

/-- The index of an event, by what was passed before it since the schedule began. -/
def index (direction : Direction) (since : List Landmark) : UInt32 :=
  .ofNat (events since + direction.lead)

/-- An event counts as one. -/
theorem events_event (direction : Direction) (earlier between : List Landmark) :
    events (earlier ++ direction.landmark :: between) = events earlier + (1 + events between) := by
  rw [events_append, events_cons]
  cases direction <;> rfl

/-- An event is not the beginning of the schedule. -/
theorem landmark_ne_began (direction : Direction) (time : UInt64) :
    direction.landmark ≠ .began time := by
  cases direction <;> exact Landmark.noConfusion

/-- How far the indices of two events are apart. -/
theorem index_next (first second : Direction) (earlier between : List Landmark) :
    second.index (earlier ++ first.landmark :: between) =
      first.index earlier + .ofNat (1 + events between + second.lead - first.lead) := by
  rw [index, index, ← UInt32.ofNat_add, events_event]
  congr 1
  cases first <;> simp only [lead] <;> omega

section

variable {first second : Direction} {earlier between : List Landmark}
  (few : events earlier + events between + 2 < 2 ^ 32)

include few

/-- Two events among few have the same index exactly if the completion of a blink comes next
after a reception. -/
theorem index_eq_iff :
    first.index earlier = second.index (earlier ++ first.landmark :: between) ↔
      first = .rx ∧ second = .tx ∧ events between = 0 := by
  rw [← UInt32.toNat_inj, index, index, UInt32.toNat_ofNat', UInt32.toNat_ofNat', events_event]
  cases first <;> cases second <;> simp [lead] <;> omega

/-- Two events among few of which one comes next after the other share a slot exactly if the
completion of a blink comes after a reception, or a reception after a completion in a ring of two
slots. -/
theorem slot_index_eq_iff (ring : FrameRing) (next : events between = 0) :
    ring.slot (first.index earlier) =
        ring.slot (second.index (earlier ++ first.landmark :: between)) ↔
      first = .rx ∧ second = .tx ∨ first = .tx ∧ second = .rx ∧ ring.size = 2 := by
  have hmany : 2 ≤ ring.size := ring.two_le_size
  have hone : ¬ ring.size ∣ 1 := Nat.not_dvd_of_pos_of_lt Nat.one_pos hmany
  have htwo : ring.size ∣ 2 ↔ ring.size = 2 :=
    ⟨fun h ↦ Nat.le_antisymm (Nat.le_of_dvd Nat.two_pos h) hmany, fun h ↦ h ▸ Nat.dvd_refl _⟩
  have seamless : FrameRing.Seamless ring.size (first.index earlier)
      (1 + events between + second.lead - first.lead) := by
    right
    rw [index, UInt32.toNat_ofNat']
    cases first <;> cases second <;> simp only [lead] <;> omega
  rw [index_next, eq_comm, ring.slot_add_eq_iff seamless, next]
  cases first <;> cases second <;> simp [lead, hone, htwo]

end

end Direction

/-! ## The events of a run -/

namespace World

/-- An event of this direction has this index if it comes next after this history. -/
def Indexed (history : List (Entry ε)) (direction : Direction) (index : UInt32) : Prop :=
  ∃ time since, Since (landmarks history) time since ∧ index = direction.index since

/-- The indices of two events since the same beginning of the schedule differ by what was passed
in between. -/
theorem Indexed.pair {before middle : List (Entry ε)} {entry : Entry ε}
    {first second : Direction} {index index' : UInt32} (h : Indexed before first index)
    (passed : entry.happening.landmark? = some first.landmark)
    (h' : Indexed (before ++ entry :: middle) second index')
    (steady : ∀ time, .began time ∉ landmarks middle) :
    ∃ time earlier, Since (landmarks before) time earlier ∧ index = first.index earlier ∧
      index' = second.index (earlier ++ first.landmark :: landmarks middle) := by
  obtain ⟨time, earlier, hearlier, rfl⟩ := h
  obtain ⟨time', since, hsince, rfl⟩ := h'
  have hcourse : landmarks (before ++ entry :: middle) =
      landmarks before ++ first.landmark :: landmarks middle := by
    rw [landmarks_append, landmarks_cons passed]
  have hextended : Since (landmarks before ++ first.landmark :: landmarks middle) time
      (earlier ++ first.landmark :: landmarks middle) := by
    refine hearlier.extend fun other hmem ↦ ?_
    rcases List.mem_cons.mp hmem with hbegan | hmem
    · exact first.landmark_ne_began other hbegan.symm
    · exact steady other hmem
  rw [hcourse] at hsince
  exact ⟨time, earlier, hearlier, rfl, by rw [(hsince.unique hextended).2]⟩

variable {allowed : Operation → Prop} {prior later world : World ρ ε}

/-- The index counts the events since the schedule began. -/
theorem Counted.index_eq (h : world.Counted) {calibration : Calibration}
    (present : world.node.calibration = some calibration) :
    ∃ time since, Since (landmarks world.history) time since ∧
      calibration.ring.index = .ofNat (events since) := by
  obtain ⟨time, since, hsince, hindex⟩ := h.index _ present
  refine ⟨time, since, hsince, UInt32.toNat_inj.mp ?_⟩
  rw [hindex, UInt32.toNat_ofNat', events]

/-- A blink that was sent is noted under the index of its event. -/
theorem Counted.indexed_sent (counted : prior.Counted) (step : Step allowed prior later)
    {phase : Option Phase} {index : UInt32}
    (sent : later.history = prior.history ++ [⟨phase, .log (.blinkSent index)⟩]) :
    Indexed prior.history .tx index := by
  obtain ⟨calibration, present, -, rfl, -⟩ := step.tells sent
  exact counted.index_eq present

/-- A frame that is received is stored under the index of its event. -/
theorem Counted.kept_of_reception (counted : prior.Counted) (step : Step allowed prior later)
    (rest : ReflTransGen (Step allowed) later world) {phase : Option Phase} {time : UInt64}
    {transfers : List Bus.Transfer}
    (received : later.history =
      prior.history ++ [⟨phase, .exchange .readReceptionTime ⟨.ok time, transfers⟩⟩])
    {added : List (Entry ε)} (history : world.history = later.history ++ added) :
    ∃ index header, Indexed prior.history .rx index ∧ Heard prior.history header ∧
      ((∀ time, .began time ∉ landmarks added) →
        ∃ frame latest, frame.header = header ∧ frame.received = (Instant.truncate time).ticks ∧
          world.node.calibration = some latest ∧ latest.Kept frame index (landmarks added)) := by
  obtain ⟨calibration, header, present, hheard, hreceived⟩ := step.tells received
  obtain ⟨began, since, hsince, hindex⟩ := counted.index_eq present
  have hnext : (calibration.receive header time).ring.index = Direction.rx.index since := by
    rw [Direction.index, UInt32.ofNat_add, ← hindex]
    simp [Calibration.receive, Direction.lead]
  refine ⟨_, header, ⟨began, since, hsince, hnext⟩, hheard, fun steady ↦ ?_⟩
  obtain ⟨latest, hlatest, -, -, hkept⟩ := kept_of_steps rest hreceived history steady
  refine ⟨(calibration.receive header time).ring.current, latest, ?_, ?_, hlatest, hkept⟩ <;>
    simp [Calibration.receive]

/-- What is queued is the latest event, under its own index. -/
theorem indexed_of_prompted {start : World ρ ε} (empty : start.history = [])
    (standard : start.Standard) (counted : start.Counted)
    (first : ReflTransGen (Step Operation.KeepsTransmission) start prior) {direction : Direction}
    {index : UInt32} (prompted : prior.Prompts (.postprocess direction index)) :
    ∃ before entry since, prior.history = before ++ entry :: since ∧
      entry.happening.landmark? = some direction.landmark ∧ landmarks since = [] ∧
      Indexed before direction index := by
  obtain ⟨past, phase, ⟨_, hpast, heq⟩ |
    ⟨header, time, correction, calibration, hpast, hreceived, present, heq⟩⟩ := prompted
  · cases heq
    obtain ⟨sending, claimed, hfirst, hstep, -, rfl, hsent, -⟩ :=
      exists_step_of_entry first (empty ▸ List.nil_prefix) hpast
    exact ⟨_, _, [], hpast, rfl, rfl, (counted.steps standard hfirst).indexed_sent hstep hsent⟩
  · cases heq
    obtain ⟨before, phase', transfers, silent, -, hsilent, rfl⟩ := hreceived
    obtain ⟨began, since, hsince, hindex⟩ := (counted.steps standard first).index_eq present
    rw [List.append_assoc, List.cons_append] at hpast
    refine ⟨before, _, _, hpast, rfl, ?_, ?_⟩
    · rw [landmarks_append, hsilent]
      rfl
    · have hcourse : landmarks prior.history = landmarks before ++ [.received] := by
        rw [hpast, landmarks_append]
        change landmarks before ++ .received :: landmarks (silent ++ _) = _
        rw [landmarks_append, hsilent]
        rfl
      obtain ⟨earlier, rfl, hearlier⟩ := (hcourse ▸ hsince).of_append (by simp)
      refine ⟨began, earlier, hearlier, hindex.trans ?_⟩
      rw [events_append]
      rfl

/-! ## Every run -/

variable [Radio ρ ε]

/-- **Indices of events.**  However a node is run with the standard transmit callback, the index
of an event is told by its direction and by how many events came before it since the schedule
began.  A blink that was sent is noted under its index, and either event is queued under it.  A
frame that was received is stored in its slot.  That of a blink is as many indices back as frames
were received while it was pending, and in another slot unless they made full rounds of the ring.
Of fewer than `2 ^ 32` events two since the same beginning have different indices, unless the
second is a blink and comes next after a reception.  Only then do events that come one after the
other share a slot, and in a ring of two if a reception comes next after a blink. -/
theorem event_indices {config : Config} {address : UInt16} {radio : ρ} {platform : Platform}
    (reached : Reaches Operation.KeepsTransmission (.fresh config address radio platform) world)
    {calibration : Calibration} (present : world.node.calibration = some calibration) :
    (∀ before phase index after,
      world.history = before ++ ⟨phase, .log (.blinkSent index)⟩ :: after →
      Indexed before .tx index ∧ ((∀ time, .began time ∉ landmarks after) →
        ∃ frame since, Blinked before frame since ∧ .completed ∉ since ∧
          ((∀ time, .began time ∉ since) → ∃ written, index = written + .ofNat (events since) ∧
            (FrameRing.Seamless calibration.ring.size written (events since) →
              (calibration.ring.slot index = calibration.ring.slot written ↔
                calibration.ring.size ∣ events since)) ∧
            (FrameRing.Seamless calibration.ring.size written
                (events (since ++ .completed :: landmarks after)) →
              Spared calibration.ring.size 0 (since ++ .completed :: landmarks after) →
              (calibration.ring.get written).header = frame.header)))) ∧
    (∀ before phase time transfers after,
      world.history =
        before ++ ⟨phase, .exchange .readReceptionTime ⟨.ok time, transfers⟩⟩ :: after →
      ∃ index header, Indexed before .rx index ∧ Heard before header ∧
        ((∀ time, .began time ∉ landmarks after) →
          calibration.ring.index = index + .ofNat (events (landmarks after)) ∧
          (FrameRing.Seamless calibration.ring.size index (events (landmarks after)) →
            Spared calibration.ring.size 0 (landmarks after) →
            (calibration.ring.get index).header = header ∧
              (calibration.ring.get index).received.toNat = time.toNat % 2 ^ 40))) ∧
    (∀ before phase direction index queued after,
      world.history =
        before ++ ⟨phase, .enqueue (.postprocess direction index) queued⟩ :: after →
      ∃ past entry since, before = past ++ entry :: since ∧
        entry.happening.landmark? = some direction.landmark ∧ landmarks since = [] ∧
        Indexed past direction index) ∧
    (events (landmarks world.history) < 2 ^ 32 →
      ∀ before entry middle entry' after first second index index',
        world.history = before ++ entry :: (middle ++ entry' :: after) →
        entry.happening.landmark? = some (Direction.landmark first) →
        entry'.happening.landmark? = some (Direction.landmark second) →
        (∀ time, .began time ∉ landmarks middle) → Indexed before first index →
        Indexed (before ++ entry :: middle) second index' →
        (index = index' ↔ first = .rx ∧ second = .tx ∧ events (landmarks middle) = 0) ∧
        (events (landmarks middle) = 0 →
          (calibration.ring.slot index = calibration.ring.slot index' ↔
            first = .rx ∧ second = .tx ∨
              first = .tx ∧ second = .rx ∧ calibration.ring.size = 2))) := by
  obtain ⟨-, hsteps⟩ := reached.leads (calm_fresh config address radio platform)
  have hstandard := Standard.fresh (ε := ε) config address radio platform
  have hcounted := Counted.fresh (ε := ε) config address radio platform
  refine ⟨?_, ?_, ?_, ?_⟩
  · intro before phase index after hhistory
    obtain ⟨prior, next, hfirst, hstep, hrest, rfl, hnext, -⟩ :=
      exists_step_of_entry hsteps List.nil_prefix hhistory
    have hadded : world.history = next.history ++ after := by simp [hhistory, hnext]
    refine ⟨(hcounted.steps hstandard hfirst).indexed_sent hstep hnext, fun steady ↦ ?_⟩
    obtain ⟨frame, since, latest, hblinked, hcompleted, hlatest, hkept⟩ :=
      kept_of_sent rfl rfl hfirst hstep hrest hnext hadded steady
    cases present.symm.trans hlatest
    refine ⟨frame, since, hblinked, hcompleted, fun quiet ↦ ?_⟩
    obtain ⟨written, rfl, hleft⟩ := hkept quiet
    exact ⟨written, rfl, calibration.ring.slot_add_eq_iff,
      fun seamless spared ↦ (hleft.frame seamless spared).1⟩
  · intro before phase time transfers after hhistory
    obtain ⟨prior, next, hfirst, hstep, hrest, rfl, hnext, -⟩ :=
      exists_step_of_entry hsteps List.nil_prefix hhistory
    have hadded : world.history = next.history ++ after := by simp [hhistory, hnext]
    obtain ⟨index, header, hindexed, hheard, hkept⟩ :=
      (hcounted.steps hstandard hfirst).kept_of_reception hstep hrest hnext hadded
    refine ⟨index, header, hindexed, hheard, fun steady ↦ ?_⟩
    obtain ⟨frame, latest, hheader, hreceived, hlatest, hkept⟩ := hkept steady
    cases present.symm.trans hlatest
    refine ⟨hkept.counted, fun seamless spared ↦ ?_⟩
    obtain ⟨hheader', hreceived', -⟩ := hkept.frame seamless spared
    refine ⟨hheader'.trans hheader, ?_⟩
    rw [hreceived', hreceived, Instant.toNat_truncate]
  · intro before phase direction index queued after hhistory
    obtain ⟨prior, next, hfirst, -, -, rfl, -, hprompted, -⟩ :=
      exists_step_of_entry hsteps List.nil_prefix hhistory
    exact indexed_of_prompted rfl hstandard hcounted hfirst hprompted
  · intro few before entry middle entry' after first second index index' hhistory passed passed'
      steady hindexed hindexed'
    obtain ⟨time, earlier, ⟨-, past, hpast⟩, rfl, rfl⟩ := hindexed.pair passed hindexed' steady
    have hcourse : landmarks world.history = past ++ .began time :: earlier ++
        first.landmark :: (landmarks middle ++ second.landmark :: landmarks after) := by
      rw [hhistory, landmarks_append, landmarks_cons passed, landmarks_append,
        landmarks_cons passed', hpast]
    have hfew : events earlier + events (landmarks middle) + 2 < 2 ^ 32 := by
      rw [hcourse, Direction.events_event, Direction.events_event, events_append,
        events_cons (.began time)] at few
      omega
    exact ⟨Direction.index_eq_iff hfew, Direction.slot_index_eq_iff hfew calibration.ring⟩

/-- A frame is received while a blink is pending in a ring of four. -/
theorem event_indices_of_overtaken_blink :
    let world := (fresh { period := 1000, latency := 100 } 66
      { systemTime := 1048576, received := [0xc2, 0, 8, 7, 6, 5, 4, 3, 2, 1] } {} :
        World Radio.Scripted Radio.Failure).run
        [.init 4 anyMaster, .blink .nonBlocking, .receptionInterrupt, .transmissionInterrupt]
    ∃ calibration past entry middle phase index after frame since written,
      world.node.calibration = some calibration ∧
      world.history = past ++ entry :: (middle ++ ⟨phase, .log (.blinkSent index)⟩ :: after) ∧
      Indexed past .rx index ∧ Indexed (past ++ entry :: middle) .tx index ∧
      Blinked (past ++ entry :: middle) frame since ∧ index = written + 1 ∧
      calibration.ring.slot index ≠ calibration.ring.slot written ∧
      (calibration.ring.get written).header = frame.header := by
  intro world
  have hreached : Reaches Operation.KeepsTransmission
      (.fresh { period := 1000, latency := 100 } 66
        { systemTime := 1048576, received := [0xc2, 0, 8, 7, 6, 5, 4, 3, 2, 1] } {}) world :=
    Reaches.refl.run (by simp [Operation.KeepsTransmission])
  have hcourse : landmarks world.history =
      [.began 1048576, .attempted, .timed, .accepted] ++ .received :: [] ++ .completed :: [] := by
    decide +kernel
  have hring : world.node.calibration.map (·.ring.size) = some 4 := by decide +kernel
  obtain ⟨calibration, present, hsize⟩ := Option.map_eq_some_iff.mp hring
  obtain ⟨before, ⟨phase, _⟩, after, hhistory, hbefore, hcompleted, hafter⟩ :=
    exists_entry_of_landmarks hcourse
  obtain ⟨past, ⟨phase', _⟩, middle, rfl, -, hreceived, hmiddle⟩ :=
    exists_entry_of_landmarks hbefore
  obtain ⟨index, rfl⟩ := Happening.of_landmark?_completed hcompleted
  obtain ⟨time, transfers, rfl⟩ := Happening.of_landmark?_received hreceived
  have hhistory' : world.history = past ++
      ⟨phase', .exchange .readReceptionTime ⟨.ok time, transfers⟩⟩ ::
        (middle ++ ⟨phase, .log (.blinkSent index)⟩ :: after) := by
    rw [hhistory, List.append_assoc, List.cons_append]
  obtain ⟨hsent, hstored, -, hpair⟩ := event_indices hreached present
  obtain ⟨hindexed, hframe⟩ := hsent _ _ _ _ hhistory
  obtain ⟨index', -, hindexed', -⟩ := hstored _ _ _ _ _ hhistory'
  obtain ⟨frame, since, hblinked, -, hwritten⟩ := hframe (by simp [hafter])
  have hattempt : landmarks _ =
      [.began 1048576] ++ .attempted :: [.timed, .accepted, .received] := hbefore
  obtain rfl := hblinked.since_eq hattempt (by simp)
  obtain ⟨hiff, -⟩ := hpair (by rw [hcourse]; decide) _ _ _ _ _ .rx .tx _ _ hhistory' hreceived
    hcompleted (by simp [hmiddle]) hindexed' hindexed
  obtain rfl := hiff.mpr ⟨rfl, rfl, by rw [hmiddle]; rfl⟩
  obtain ⟨written, hindex, hslot, hkept⟩ := hwritten (by simp)
  have hdvd : calibration.ring.size ∣ 2 ^ 32 := hsize ▸ by decide
  refine ⟨calibration, past, _, middle, phase, index', after, frame, _, written, present, hhistory',
    hindexed', hindexed, hblinked, hindex, ?_, hkept (.inl hdvd) ?_⟩
  · rw [Ne, hslot (.inl hdvd), hsize]
    decide
  · rw [hsize, hafter]
    decide

/-- A blink that comes next after a reception is queued under the same index, and its frame is
written over the one received. -/
theorem blink_shares_index_of_reception :
    let received := (fresh { period := 1000, latency := 100 } 66
      { systemTime := 1048576, received := [0xc2, 0, 8, 7, 6, 5, 4, 3, 2, 1] } {} :
        World Radio.Scripted Radio.Failure).run
        [.init 2 anyMaster, .receptionInterrupt, .receptionInterrupt]
    let later := received.run [.blink .blocking]
    received.platform.queue = [.postprocess .rx 2] ∧
      later.platform.queue = [.postprocess .rx 2, .postprocess .tx 2] ∧
      landmarks later.history = [.began 1048576, .received, .received, .attempted, .timed,
        .accepted, .acknowledged, .completed] ∧
      received.node.calibration.map (fun calibration ↦ (calibration.ring.get 2).header.source) =
        some 0x0102030405060708 ∧
      later.node.calibration.map (fun calibration ↦ (calibration.ring.get 2).header.source) =
        some 66 := by
  decide +kernel

end World

end ClockCalibration
