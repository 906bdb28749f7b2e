import ClockCalibration.Proofs.Completion
import ClockCalibration.Proofs.Origin
import ClockCalibration.Radio.Scripted

/-!
# Deferred records

An event is queued with an index alone, and its record is read off the slot of that index
when it is dispatched, whatever was sent, received or rejected in between.  It is that of the
frame which the event was queued for if the slot was spared.  `World.record_of_event` says so
of every event and every later point.
-/

namespace ClockCalibration

open Relation (ReflTransGen)

variable {ρ ε : Type}

/-! ## Blinks that were sent -/

section

variable {since course : List Landmark} (hattempted : .attempted ∉ since)
  (hreceived : .received ∉ since) (hcompleted : .completed ∉ since) (size : Nat)

include hreceived hcompleted in
/-- The completion of a blink is the first event since its attempt, if nothing was received. -/
theorem events_of_sent : events (since ++ .completed :: course) = 1 + events course := by
  rw [events_append, events_eq_zero hcompleted hreceived, events_cons, Nat.zero_add]
  rfl

include hattempted hreceived hcompleted in
/-- Until then nothing is written over its frame. -/
theorem spared_of_sent (h : Spared size 1 course) :
    Spared size 0 (since ++ .completed :: course) := by
  rw [Spared.append_iff, events_eq_zero hcompleted hreceived]
  exact ⟨.of_unwritten size 0 hattempted hreceived, id, h⟩

include hreceived hcompleted in
/-- Nor is it the one before the current. -/
theorem deferrals_of_sent :
    deferrals size 0 (since ++ .completed :: course) = deferrals size 1 course := by
  have hevents := events_eq_zero hcompleted hreceived
  rw [deferrals_append, deferrals_eq_zero hevents (by simp), hevents, deferrals]
  simp [events]

include hattempted hreceived hcompleted in
/-- So what is left of its frame is told by what was passed since its completion. -/
theorem Calibration.Kept.of_sent {calibration : Calibration} {frame : Frame} {index : UInt32}
    (h : calibration.Kept frame index (since ++ .completed :: course))
    (seamless : FrameRing.Seamless calibration.ring.size index (1 + events course))
    (spared : Spared calibration.ring.size 1 course) :
    (calibration.ring.get index).header = frame.header ∧
      (calibration.ring.get index).sent.toNat % 2 ^ 40 = (frame.sent.toNat +
        deferrals calibration.ring.size 1 course *
          (calibration.config.period.toNat * 2 ^ 15)) % 2 ^ 40 := by
  obtain ⟨hheader, -, hsent⟩ := h.frame (events_of_sent hreceived hcompleted ▸ seamless)
    (spared_of_sent hattempted hreceived hcompleted _ spared)
  rw [deferrals_of_sent hreceived hcompleted] at hsent
  exact ⟨hheader, hsent⟩

end

namespace World

/-! ## Every run -/

variable [Radio ρ ε] {world : World ρ ε}

/-- **Deferred records.**  However a node is run with the standard transmit callback, the record
of an event that was queued is that of its frame at every later point until the next start, as
long as its slot is spared and the index does not wrap around.  It is spared by few further
events.  Of a frame that was received the record tells the sequence number and the time of
reception.  Of a blink that was pending without anything being received it tells the sequence
number, and the time of sending moved on by one epoch for every rejection before the next event:
the record reflects the current content of the slot, and a rejected blink defers the schedule
there. -/
theorem record_of_event {config : Config} {address : UInt16} {radio : ρ} {platform : Platform}
    (reached : Reaches Operation.KeepsTransmission (.fresh config address radio platform) world)
    {before after : List (Entry ε)} {phase : Option Phase} {direction : Direction}
    {index : UInt32} {queued : Bool}
    (history : world.history =
      before ++ ⟨phase, .enqueue (.postprocess direction index) queued⟩ :: after)
    (steady : ∀ time, .began time ∉ landmarks after) :
    ∃ calibration record, world.node.calibration = some calibration ∧
      Node.record? direction index world = some record ∧
      match direction with
      | .rx => ∃ header time, Received before header time ∧
          (FrameRing.Seamless calibration.ring.size index (events (landmarks after)) →
            (Spared calibration.ring.size 0 (landmarks after) ∨
              events (landmarks after) < calibration.ring.size ∧
                ∀ earlier later, landmarks after = earlier ++ .attempted :: later →
                  0 < events earlier) →
            record.sequence = header.sequence ∧ record.timestamp.toNat = time.toNat % 2 ^ 40)
      | .tx => ∃ frame since, Blinked before frame since ∧
          ((∀ landmark ∈ since, landmark ≠ .received ∧ ∀ time, landmark ≠ .began time) →
            FrameRing.Seamless calibration.ring.size index (1 + events (landmarks after)) →
            (Spared calibration.ring.size 1 (landmarks after) ∨
              1 + events (landmarks after) < calibration.ring.size) →
            record.sequence = frame.header.sequence ∧
              record.timestamp.toNat = (frame.sent.toNat +
                deferrals calibration.ring.size 1 (landmarks after) *
                  (calibration.config.period.toNat * 2 ^ 15)) % 2 ^ 40) := by
  obtain ⟨-, hsteps⟩ := reached.leads (calm_fresh config address radio platform)
  obtain ⟨prior, next, hfirst, hstep, hrest, rfl, hnext, ⟨past, phase', hprompt⟩, -⟩ :=
    exists_step_of_entry hsteps List.nil_prefix history
  have hworld : world.history = prior.history ++
      ⟨phase, .enqueue (.postprocess direction index) queued⟩ :: after := history
  have hsteady : ∀ time, .began time ∉ landmarks
      (⟨phase, .enqueue (.postprocess direction index) queued⟩ :: after : List (Entry ε)) := steady
  rcases hprompt with
    ⟨_, hpast, heq⟩ | ⟨header, time, correction, current, hpast, hreceived, hcurrent, heq⟩
  · cases heq
    obtain ⟨sending, claimed, hfirst', hstep', hclaimed, rfl, hsent, -⟩ :=
      exists_step_of_entry hfirst List.nil_prefix hpast
    have hsame : claimed.history = prior.history := hsent.trans hpast.symm
    obtain ⟨frame, since, calibration, hblinked, hcompleted, present, hkept⟩ :=
      kept_of_sent rfl rfl hfirst' hstep' (hclaimed.trans (.head hstep hrest)) hsent
        (hsame ▸ hworld) hsteady
    have hsent' : Blinked prior.history frame (since ++ [.completed]) :=
      hpast ▸ hblinked.append (by simp [Happening.landmark?])
    refine ⟨calibration, _, present, congrArg (Option.map _) present, frame,
      since ++ [.completed], hsent', fun quiet seamless spared ↦ ?_⟩
    have hreceived : .received ∉ since := fun hmem ↦
      (quiet _ (List.mem_append_left _ hmem)).1 rfl
    obtain ⟨written, hindex, hkept⟩ := hkept fun time hmem ↦
      (quiet _ (List.mem_append_left _ hmem)).2 time rfl
    obtain rfl : index = written := by
      simpa [events_eq_zero hcompleted hreceived] using hindex
    have hspared : Spared calibration.ring.size 1 (landmarks after) :=
      spared.elim id fun few ↦ .of_few few fun _ _ _ ↦ by omega
    obtain ⟨hheader, htime⟩ := hkept.of_sent hblinked.latest hreceived hcompleted seamless hspared
    refine ⟨congrArg (·.sequence) hheader, ?_⟩
    rwa [Nat.mod_eq_of_lt (dated_of_steps hsteps rfl present index)] at htime
  · cases heq
    have hreceived' : Received prior.history header time :=
      hpast ▸ hreceived.append (by simp [Happening.landmark?])
    obtain ⟨_, frame, calibration, hpresent, present, hheader, htime, hkept⟩ :=
      kept_of_received rfl hfirst (.head hstep hrest) hreceived' hworld hsteady
    cases hcurrent.symm.trans hpresent
    refine ⟨calibration, _, present, congrArg (Option.map _) present, header, time, hreceived',
      fun seamless spared ↦ ?_⟩
    have hspared : Spared calibration.ring.size 0 (landmarks after) :=
      spared.elim id fun few ↦ .of_few (by simpa using few.1) (by simpa using few.2)
    obtain ⟨hheader', htime', -⟩ := hkept.frame seamless hspared
    have hsequence : (calibration.ring.get current.ring.index).header = header :=
      hheader'.trans hheader
    have htimestamp := congrArg UInt64.toNat (htime'.trans htime)
    rw [Instant.toNat_truncate] at htimestamp
    exact ⟨congrArg (·.sequence) hsequence, htimestamp⟩

/-- The record of a blink after the next one was rejected. -/
theorem record_of_deferred_event :
    let sent := (fresh { period := 1000, latency := 100 } 66
      { systemTime := 1048576, starts := [.started, .rejected] } {} :
        World Radio.Scripted Radio.Failure).run [.init 3 anyMaster, .blink .blocking]
    let later := sent.run [.blink .blocking]
    ∃ before phase queued after frame since record,
      later.history = before ++ ⟨phase, .enqueue (.postprocess .tx 0) queued⟩ :: after ∧
      landmarks after = [.attempted, .timed, .rejected] ∧ Blinked before frame since ∧
      Node.record? .tx 0 later = some record ∧ record.sequence = frame.header.sequence ∧
      record.timestamp.toNat = (frame.sent.toNat + 1 * (1000 * 2 ^ 15)) % 2 ^ 40 := by
  intro sent later
  have hsent : Reaches Operation.KeepsTransmission
      (.fresh { period := 1000, latency := 100 } 66
        { systemTime := 1048576, starts := [.started, .rejected] } {}) sent :=
    Reaches.refl.run (by simp [Operation.KeepsTransmission])
  have hlater : Reaches Operation.KeepsTransmission sent later :=
    Reaches.refl.run (by simp [Operation.KeepsTransmission])
  have hreached : Reaches Operation.KeepsTransmission
      (.fresh { period := 1000, latency := 100 } 66
        { systemTime := 1048576, starts := [.started, .rejected] } {}) later :=
    hsent.run (by simp [Operation.KeepsTransmission])
  have hcourse : landmarks sent.history =
      [.began 1048576, .attempted, .timed, .accepted, .acknowledged, .completed] := by
    decide +kernel
  have hcourse' : landmarks later.history =
      landmarks sent.history ++ [.attempted, .timed, .rejected] := by decide +kernel
  have hinstance : later.node.calibration.map (fun calibration ↦
      (calibration.ring.size, calibration.config.period)) = some (3, 1000) := by decide +kernel
  have hlast : sent.history.getLast?.bind (·.happening.offered?) = some (.postprocess .tx 0) := by
    decide +kernel
  obtain ⟨after, hafter⟩ := history_of_steps
    (hlater.leads (hsent.leads (calm_fresh _ _ _ _)).1).2
  rw [hafter, landmarks_append] at hcourse'
  have hpassed := List.append_cancel_left hcourse'
  obtain ⟨⟨phase, _⟩, hentry, hoffered⟩ := Option.bind_eq_some_iff.mp hlast
  obtain ⟨queued, rfl⟩ := Happening.of_offered? hoffered
  obtain ⟨before, hbefore⟩ := List.getLast?_eq_some_iff.mp hentry
  have hbefore' : landmarks before = landmarks sent.history := by
    rw [hbefore, landmarks_append]
    exact (List.append_nil _).symm
  rw [hbefore, List.append_assoc, List.singleton_append] at hafter
  obtain ⟨calibration, record, present, hrecord, frame, since, hblinked, hkept⟩ :=
    record_of_event hreached hafter (by simp [hpassed])
  obtain ⟨hsize, hperiod⟩ : calibration.ring.size = 3 ∧ calibration.config.period = 1000 := by
    simpa [present] using hinstance
  have hattempt : landmarks before = [.began 1048576] ++
      .attempted :: [.timed, .accepted, .acknowledged, .completed] := hbefore'.trans hcourse
  obtain rfl := hblinked.since_eq hattempt (by simp)
  rw [hsize, hperiod, hpassed] at hkept
  obtain ⟨hsequence, htimestamp⟩ := hkept (by simp) (by decide) (.inl (by decide))
  exact ⟨before, phase, queued, after, frame, _, record, hafter, hpassed, hblinked, hrecord,
    hsequence, htimestamp⟩

/-- A blink that is rejected moves the time in the record of the one before. -/
theorem record_ne_of_rejected_blink :
    let sent := (fresh { period := 1000, latency := 100 } 66
      { systemTime := 1048576, starts := [.started, .rejected] } {} :
        World Radio.Scripted Radio.Failure).run [.init 3 anyMaster, .blink .blocking]
    let later := sent.run [.blink .blocking]
    sent.platform.queue = [.postprocess .tx 0] ∧ instants sent.history = [1048576 + 2 * 32768000] ∧
      landmarks later.history = landmarks sent.history ++ [.attempted, .timed, .rejected] ∧
      (Node.record? .tx 0 sent).map (·.timestamp) = some (1048576 + 2 * 32768000) ∧
      (Node.record? .tx 0 later).map (·.timestamp) = some (1048576 + 3 * 32768000) := by
  decide +kernel

end World

end ClockCalibration
