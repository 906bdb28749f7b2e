import ClockCalibration.Proofs.FrameRing
import ClockCalibration.Proofs.Node.Request
import ClockCalibration.Proofs.Run
import ClockCalibration.Radio.Scripted

/-!
# Attempts that the radio fails

The frame of a blink and the sequence number that it uses up are written before the radio is asked
for anything, and any of the five requests may fail.  What was written stays: the next attempt
writes over it.  The schedule is not in the current slot but in the one before, so the next attempt
is made for the same instant.
-/

namespace ClockCalibration

variable {ρ ε : Type}

namespace Calibration

variable (calibration : Calibration) (address : UInt64)

/-- The frame of a blink is written when the blink is prepared. -/
theorem writes_prepare :
    calibration.ring.Writes calibration.ring.index (calibration.nextFrame address)
      (calibration.prepare address).ring :=
  calibration.ring.writes_modifyCurrent rfl

/-- After an attempt that was given up the next blink has another sequence number, and no other
time of sending. -/
theorem nextFrame_release :
    (calibration.prepare address).release.nextFrame address =
      { calibration.nextFrame address with
        header := { (calibration.nextFrame address).header with
          sequence := calibration.sequence + 1 } } := by
  simp [nextFrame, prepare, release, nextInstant, epoch]

end Calibration

namespace World

variable [Radio ρ ε]

/-- What an attempt leaves behind that is given up with the last of some requests.  Beside the
sequence number it is the frame in the current slot that has changed. -/
structure GivesUp (world : World ρ ε) (calibration : Calibration) (calls : List Call)
    (later : World ρ ε) : Prop where
  radio : later.radio = Radio.through calls world.radio
  platform : later.platform = world.platform
  history : later.history =
    world.history ++ (Radio.exchanges calls world.radio).map (⟨some .armed, ·⟩)
  node : ∃ ring, later.node =
      { world.node with
        calibration := some
          { calibration with ring, phase := .idle, sequence := calibration.sequence + 1 } } ∧
    calibration.ring.Writes calibration.ring.index
      (calibration.nextFrame world.node.shortAddress.toUInt64) ring

/-- An attempt is given up by releasing the cycle after the requests. -/
theorem givesUp_release {world : World ρ ε} {calibration : Calibration}
    (present : world.node.calibration = some calibration) (calls : List Call) :
    world.GivesUp calibration calls
      (((world.recalibrating (·.prepare world.node.shortAddress.toUInt64)).askedAll
        calls).recalibrating (·.release)) := by
  have hprepared : (world.recalibrating
      (·.prepare world.node.shortAddress.toUInt64)).node = world.node.prepared calibration := by
    rw [node_recalibrating, present]
    rfl
  refine ⟨rfl, rfl, ?_, _, ?_, calibration.writes_prepare _⟩
  · change world.history ++ _ = _
    rw [hprepared]
    rfl
  · rw [node_recalibrating, askedAll, hprepared]
    rfl

/-- **A failed attempt moves nothing.**  If no blink is pending and one of the five requests fails,
whichever is the first, the blink fails with that failure, whatever its mode.  The radio has been
asked for nothing after it.  No blink is under way; one more sequence number is used up, and the
frame in the current slot is the one that was to be sent.  The index, all other slots, the status,
the timer, the rest of the node and its platform are as they were.  The next blink, whenever it is
made, begins with handing the radio the same frame, time of sending included, under the next
sequence number. -/
theorem failed_attempt {world : World ρ ε} {calibration : Calibration}
    (present : world.node.calibration = some calibration) (free : calibration.phase ≠ .pending)
    {before : List Call} {call : Call} {failure : ε}
    (fails : Radio.FailsAt
      (Node.programming (calibration.nextFrame world.node.shortAddress.toUInt64))
      world.radio before call failure)
    (mode : BlinkMode) :
    ∃ later, Node.blink mode world = .error (.radio failure) later ∧
      world.GivesUp calibration (before ++ [call]) later ∧
      let frame := calibration.nextFrame world.node.shortAddress.toUInt64
      ∀ next : World ρ ε, next.node = later.node → ∀ mode', ∃ reply added,
        (next.upon (Node.blink mode')).history = next.history ++
          ⟨some .armed, .exchange (.writeTransmitBuffer (Wire.encode
            { frame with header := { frame.header with sequence := calibration.sequence + 1 } }) 0)
              reply⟩ :: added := by
  let prepared := world.recalibrating (·.prepare world.node.shortAddress.toUInt64)
  have hfails : Radio.FailsAt (Node.programming _) prepared.radio before call failure := fails
  have harm := Node.arm_of_failsAt hfails
  rw [← Calibration.current_prepare] at harm
  refine ⟨_, (Node.blink_eq_attemptBlink mode present free).trans
    (Node.attemptBlink_of_error present harm), givesUp_release present _,
    fun next same mode' ↦ ?_⟩
  have hnext : next.node.calibration =
      some (calibration.prepare world.node.shortAddress.toUInt64).release := by
    rw [same]
    change (prepared.node.calibration.map (·.release)) = _
    rw [node_recalibrating, present]
    rfl
  have haddress : next.node.shortAddress = world.node.shortAddress := by
    rw [same]
    rfl
  have hhistory := Node.history_of_blink mode' hnext rfl
  rwa [Calibration.current_prepare, haddress, Calibration.nextFrame_release] at hhistory

/-- The radio does not take the instant, and so is not asked to start.  It is told the same instant
with the next payload. -/
theorem failed_attempt_of_refused_instant :
    let world := (fresh { period := 1000, latency := 100 } 66
      { systemTime := 1048576, failing := ["set_delayed_start"] } {} :
        World Radio.Scripted Radio.Failure).run [.init 3 anyMaster]
    ∃ calibration frame later, world.node.calibration = some calibration ∧
      calibration.phase ≠ .pending ∧ calibration.nextFrame 66 = frame ∧
      Node.blink .blocking world = .error (.radio (.refused "set_delayed_start")) later ∧
      world.GivesUp calibration [.writeTransmitBuffer (Wire.encode frame) 0,
        .configureTransmit 30 true, .setWaitForResponse false, .setDelayedStart frame.sent] later ∧
      ∃ reply added, (later.upon (Node.blink .nonBlocking)).history =
        later.history ++ ⟨some .armed, .exchange (.writeTransmitBuffer
          (Wire.encode { frame with header := { frame.header with sequence := 1 } }) 0)
            reply⟩ :: added := by
  intro world
  have hradio : world.radio = { systemTime := 1048576, failing := ["set_delayed_start"] } := rfl
  have hidle : world.node.calibration.map (fun calibration ↦
      (calibration.phase, calibration.sequence)) = some (.idle, 0) := by decide +kernel
  obtain ⟨calibration, present, hcalibration⟩ := Option.map_eq_some_iff.mp hidle
  obtain ⟨hphase, hsequence⟩ := Prod.mk.inj hcalibration
  have free : calibration.phase ≠ .pending := by simp [hphase]
  let frame := calibration.nextFrame 66
  have fails : Radio.FailsAt (Node.programming frame) world.radio
      [.writeTransmitBuffer (Wire.encode frame) 0, .configureTransmit 30 true,
        .setWaitForResponse false]
      (.setDelayedStart frame.sent) (.refused "set_delayed_start") := by
    rw [hradio]
    exact ⟨⟨[.startTransmission], rfl⟩, rfl, rfl⟩
  obtain ⟨later, hblink, hgives, hagain⟩ := failed_attempt present free fails .blocking
  have hnext := hagain later rfl .nonBlocking
  rw [hsequence] at hnext
  exact ⟨calibration, _, later, present, free, rfl, hblink, hgives, hnext⟩

end World

end ClockCalibration
