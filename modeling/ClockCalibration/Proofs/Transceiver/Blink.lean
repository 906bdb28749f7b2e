import ClockCalibration.Bus.Scripted
import ClockCalibration.Proofs.Node.Request
import ClockCalibration.Proofs.Payload
import ClockCalibration.Proofs.Run
import ClockCalibration.Proofs.Transceiver.Plan

/-!
# A blink over the bus

A node with a transceiver for its radio turns to the bus with every request.  A computation of such
a node conducts a plan if it comes to what the plan comes to on the bus: it makes the same
transfers, ends with the same answer or fails as the last of them did, and leaves the node alone
until then.

Programming the radio conducts a plan in which the whole of a blink is spelled out, from the payload
to the flags of a start that has failed.  Only the last request depends on the state of the driver,
and by then the driver has been told not to wait for a response.
-/

namespace ClockCalibration

open Bus (Plan)

variable {σ φ ε α β : Type}

/-! ## Transfers -/

/-- What went over the bus. -/
def Happening.transfers : Happening ε → List Bus.Transfer
  | .exchange _ reply => reply.transfers
  | _ => []

/-- All that went over the bus. -/
def transfers (history : List (Entry ε)) : List Bus.Transfer :=
  history.flatMap (·.happening.transfers)

theorem transfers_append (first second : List (Entry ε)) :
    transfers (first ++ second) = transfers first ++ transfers second :=
  List.flatMap_append

namespace World

open Transceiver

section

variable {world later latest : World (Transceiver σ) (Fault φ)} {made more : List Bus.Transfer}

/-- Some transfers are made by a node that stays as it is.  The driver is not told to wait for a
response. -/
structure Talks (world : World (Transceiver σ) (Fault φ)) (made : List Bus.Transfer)
    (later : World (Transceiver σ) (Fault φ)) : Prop where
  node : later.node = world.node
  wait : world.radio.waitsForResponse = false → later.radio.waitsForResponse = false
  history : ∃ added, later.history = world.history ++ added ∧ transfers added = made

theorem Talks.trans (h : world.Talks made later) (h' : later.Talks more latest) :
    world.Talks (made ++ more) latest := by
  obtain ⟨added, hadded, rfl⟩ := h.history
  obtain ⟨added', hadded', rfl⟩ := h'.history
  exact ⟨h'.node.trans h.node, fun hwait ↦ h'.wait (h.wait hwait), added ++ added',
    by rw [hadded', hadded, List.append_assoc], transfers_append added added'⟩

end

/-- A world in which a computation has come to an answer of the bus. -/
def answering (world : World (Transceiver σ) (Fault φ)) :
    Except φ α → EStateM.Result (Error (Fault φ)) (World (Transceiver σ) (Fault φ)) α
  | .ok value => .ok value world
  | .error failure => .error (.radio (.bus failure)) world

variable [Bus σ φ]

/-- A computation comes to what a plan comes to on the bus. -/
def Conducts (world : World (Transceiver σ) (Fault φ)) (plan : Plan α)
    (computation : NodeM (Transceiver σ) (Fault φ) α) : Prop :=
  let course : Bus.Course σ φ α := plan.carryOut world.radio.bus
  ∃ later, world.Talks course.transfers later ∧ later.radio.bus = course.bus ∧
    computation world = later.answering course.answer

variable {world : World (Transceiver σ) (Fault φ)}

/-- A sequence of computations conducts a sequence of plans. -/
theorem Conducts.bind {plan : Plan α} {computation : NodeM (Transceiver σ) (Fault φ) α}
    {more : α → Plan β} {next : α → NodeM (Transceiver σ) (Fault φ) β}
    (first : world.Conducts plan computation)
    (rest : ∀ value made later, world.Talks made later →
      later.Conducts (more value) (next value)) :
    world.Conducts (plan >>= more) (computation >>= next) := by
  obtain ⟨later, htalks, hbus, hfirst⟩ := first
  unfold Conducts
  cases hanswer : (plan.carryOut world.radio.bus).answer with
  | error failure =>
      rw [hanswer] at hfirst
      rw [Plan.carryOut_bind_of_error hanswer]
      exact ⟨later, htalks, hbus, bind_of_error hfirst _⟩
  | ok value =>
      obtain ⟨latest, htalks', hbus', hnext⟩ := rest value _ later htalks
      rw [hanswer] at hfirst
      rw [hbus] at htalks' hbus' hnext
      rw [Plan.carryOut_bind_of_ok hanswer]
      exact ⟨latest, htalks.trans htalks', hbus', (bind_of_ok hfirst _).trans hnext⟩

/-- A request conducts its plan. -/
theorem conducts_ask (call : Call) (plan : Plan call.Answer)
    (h : ∀ session : Session σ, session.driver = world.radio →
      (request call : Action σ φ call.Answer) session = conduct plan session) :
    world.Conducts plan (Node.ask call) := by
  let course : Bus.Course σ φ call.Answer := plan.carryOut world.radio.bus
  let later := world.exchanging call ⟨course.answer.mapError .bus, course.transfers⟩
    { world.radio with bus := course.bus }
  have hperform : Radio.perform call world.radio =
      (⟨course.answer.mapError .bus, course.transfers⟩, { world.radio with bus := course.bus }) :=
    perform_eq h
  have hasking : world.asking call = later := by
    rw [asking, hperform]
    rfl
  refine ⟨later, ⟨rfl, id, _, rfl, List.append_nil _⟩, rfl, ?_⟩
  rw [Node.ask, hasking, hperform]
  change _ = later.answering course.answer
  cases course.answer <;> rfl

/-- The driver is told not to wait for a response without a transfer. -/
theorem Conducts.unwaiting {plan : Plan α} {computation : NodeM (Transceiver σ) (Fault φ) α}
    (rest : ∀ later : World (Transceiver σ) (Fault φ), later.radio.waitsForResponse = false →
      later.Conducts plan computation) :
    world.Conducts plan (do Node.ask (.setWaitForResponse false); computation) := by
  let told := world.exchanging (.setWaitForResponse false) ⟨.ok (), []⟩
    { world.radio with waitsForResponse := false }
  have hask : (Node.ask (.setWaitForResponse false) : NodeM (Transceiver σ) (Fault φ) Unit) world =
      .ok () told := rfl
  have htold : world.Talks [] told := ⟨rfl, fun _ ↦ rfl, _, rfl, rfl⟩
  obtain ⟨later, htalks, hbus, hrest⟩ := rest told rfl
  exact ⟨later, htold.trans htalks, hbus, (bind_of_ok hask _).trans hrest⟩

end World

/-! ## Programming the transceiver -/

namespace Transceiver

/-- The plan of a blink with some payload.  The frame is put into the transmit buffer, its length
and its instant are set, which follows the header of ten bytes in it, and the start is requested. -/
def sending (payload : Bytes) : Plan StartOutcome := do
  Plan.write [0x89] payload
  let control ← Plan.read [0x08] 5
  let value := UInt64.ofNat (Wire.ofLittleEndian control.toList)
  Plan.write [0x88] (Wire.littleEndian 5 (withFrame value 30 true).toNat)
  Plan.write [0x8a] ((payload.drop 10).take 5)
  Plan.write [0x8d] [0x06]
  let status ← Plan.read [0x0f] 5
  if startFailed status then
    Plan.write [0x8d] [0x40]
    Plan.write [0x8f] [0, 0, 0, 8, 4]
    return .rejected
  return .started

end Transceiver

namespace World

open Transceiver

variable [Bus σ φ] {world : World (Transceiver σ) (Fault φ)}

/-- Programming the radio is to send the frame. -/
theorem conducts_arm {frame : Frame} (h : frame.sent.toNat < 2 ^ 40) :
    world.Conducts (sending (Wire.encode frame)) (Node.arm (Wire.encode frame) frame.sent) := by
  have hinstant : ((Wire.encode frame).drop 10).take 5 =
      Wire.littleEndian 5 frame.sent.toNat := by
    rw [Wire.drop_encode_frame h, List.take_left' (Wire.length_littleEndian ..)]
  have hsending : sending (Wire.encode frame) = (do
      Plan.write [0x89] (Wire.encode frame)
      configuring 30 true
      Plan.write [0x8a] (Wire.littleEndian 5 frame.sent.toNat)
      starting false) := by
    rw [sending, hinstant]
    rfl
  rw [Node.arm_eq, hsending]
  refine .bind (conducts_ask (.writeTransmitBuffer _ 0) _ fun _ _ ↦
    congrFun (write_eq (.transmitBuffer 0) _) _) fun _ _ _ _ ↦ ?_
  refine .bind (conducts_ask (.configureTransmit 30 true) _ fun _ _ ↦
    congrFun (configureTransmit_eq 30 true) _) fun _ _ _ _ ↦ ?_
  refine .unwaiting fun told unwaiting ↦ ?_
  refine .bind (conducts_ask (.setDelayedStart frame.sent) _ fun _ _ ↦
    congrFun (setDelayedStart_eq frame.sent) _) fun _ _ timed htimed ↦ ?_
  refine conducts_ask .startTransmission _ fun session hsession ↦ ?_
  rw [request, startTransmission_eq, hsession, htimed.wait unwaiting]

/-- A blink that does not block ends with a message once the radio has answered it.  It leaves the
current slot alone and tells whether the radio rejected it. -/
theorem concluded_of_present {told : World (Transceiver σ) (Fault φ)} {armed : Calibration}
    (present : told.node.calibration = some armed) (frame : Frame) (outcome : StartOutcome) :
    ∃ later latest phase message,
      (do Node.conclude .nonBlocking frame outcome; Node.tellStatus :
        NodeM (Transceiver σ) (Fault φ) Status) told = .ok latest.status later ∧
      later.radio = told.radio ∧ later.history = told.history ++ [⟨phase, .log message⟩] ∧
      later.node.calibration = some latest ∧ latest.ring.current = armed.ring.current ∧
      latest.status.startError = decide (outcome = .rejected) := by
  cases outcome with
  | rejected =>
      have hlater : (told.rejecting frame).node.calibration = some armed.reject :=
        congrArg (Option.map _) present
      exact ⟨told.rejecting frame, armed.reject, _, _,
        (bind_of_ok (Node.conclude_rejected ..) _).trans (Node.tellStatus_of_some hlater), rfl, rfl,
        hlater, FrameRing.current_modifyPrevious .., rfl⟩
  | started =>
      have hlater : (told.accepting frame).node.calibration = some armed.accept :=
        congrArg (Option.map _) present
      exact ⟨told.accepting frame, armed.accept, _, _,
        (bind_of_ok (Node.conclude_started ..) _).trans (Node.tellStatus_of_some hlater), rfl, rfl,
        hlater, rfl, rfl⟩

/-- **A blink over the bus.**  If no blink is pending, a blink that does not block carries out one
plan on the bus, whatever the bus answers, wherever it fails, and whether or not the driver was told
to wait for a response.  The payload in the plan has thirty bytes; five of them are the instant, and
the next three are zero.  Its frame stays in the current slot.  If an access fails it is the last
one, the blink fails with its failure, and no blink is under way.  Otherwise the blink tells that
the radio rejected it exactly if the plan comes to that. -/
theorem blink_over_bus {calibration : Calibration}
    (present : world.node.calibration = some calibration) (free : calibration.phase ≠ .pending) :
    let frame := calibration.nextFrame world.node.shortAddress.toUInt64
    let payload := Wire.encode frame
    let course : Bus.Course σ φ StartOutcome := (sending payload).carryOut world.radio.bus
    payload.length = 30 ∧ (payload.drop 15).take 3 = [0, 0, 0] ∧
    ∃ later latest, later.radio.bus = course.bus ∧
      (∃ added, later.history = world.history ++ added ∧ transfers added = course.transfers) ∧
      later.node.calibration = some latest ∧ latest.ring.current = frame ∧
      match course.answer with
      | .ok outcome =>
        (∀ transfer ∈ course.transfers, transfer.failed = false) ∧
        Node.blink .nonBlocking world = .ok latest.status later ∧
        latest.status.startError = decide (outcome = .rejected)
      | .error failure =>
        (∃ made access, course.transfers = made ++ [⟨access, true⟩] ∧
          ∀ transfer ∈ made, transfer.failed = false) ∧
        Node.blink .nonBlocking world = .error (.radio (.bus failure)) later ∧
        latest.phase = .idle := by
  intro frame payload course
  let address := world.node.shortAddress.toUInt64
  have hframe : (calibration.prepare address).ring.current = frame :=
    calibration.current_prepare address
  have hfits : frame.sent.toNat < 2 ^ 40 := Instant.add_lt _ _
  have hzero : (payload.drop 15).take 3 = [0, 0, 0] := by
    rw [show payload.drop 15 = (payload.drop 10).drop 5 by rw [List.drop_drop],
      Wire.drop_encode_frame hfits, List.drop_left' (Wire.length_littleEndian ..)]
    rfl
  refine ⟨Wire.length_encode_frame frame, hzero, ?_⟩
  have hconducts : (world.recalibrating (·.prepare address)).Conducts (sending payload)
      (Node.arm (Wire.encode frame) frame.sent) := conducts_arm hfits
  obtain ⟨told, htalks, hbus, harm⟩ := hconducts
  obtain ⟨added, hadded, htransfers⟩ := htalks.history
  have htold : told.node.calibration = some (calibration.prepare address) := by
    rw [htalks.node, node_recalibrating, present]
    rfl
  change _ = told.answering course.answer at harm
  rw [← hframe] at harm
  rw [Node.blink_eq_attemptBlink .nonBlocking present free]
  cases hanswer : course.answer with
  | error failure =>
      rw [hanswer] at harm
      refine ⟨told.recalibrating (·.release), (calibration.prepare address).release, hbus,
        ⟨added, hadded, htransfers⟩, ?_, hframe, Plan.failed_of_error hanswer,
        Node.attemptBlink_of_error present harm, rfl⟩
      rw [node_recalibrating, htold]
      rfl
  | ok outcome =>
      rw [hanswer] at harm
      obtain ⟨later, latest, phase, message, hconclude, hradio, hlogged, hlatest, hcurrent,
        hstatus⟩ := concluded_of_present htold (calibration.prepare address).ring.current outcome
      refine ⟨later, latest, (congrArg _ hradio).trans hbus,
        ⟨added ++ [⟨phase, .log message⟩], ?_, ?_⟩, hlatest, hcurrent.trans hframe,
        Plan.answered_of_ok hanswer, (Node.attemptBlink_of_ok present harm).trans hconclude,
        hstatus⟩
      · rw [hlogged, hadded, List.append_assoc]
        rfl
      · rw [transfers_append, htransfers]
        exact List.append_nil _

/-- The status tells of a half period warning, so the radio rejects the blink.  Beforehand the
driver was told to wait for a response, and the control register had other settings in it, which
stay. -/
theorem blink_over_bus_of_warning :
    let world := (fresh { period := 1000, latency := 100 } 66
      { bus := { reads := [[0, 0, 16, 0, 0], [12, 0x40, 0, 0, 0], [0, 0, 0, 8, 0]] }
        waitsForResponse := true } {} : World (Transceiver Bus.Scripted) (Fault Bus.Fault)).run
          [.init 2 anyMaster]
    let payload : Bytes := [0xc2, 0, 66, 0, 0, 0, 0, 0, 0, 0, 0, 0, 248, 3, 0, 0, 0, 0,
      0, 0, 0, 0, 0, 0, 0, 0, 0, 0, 0x80, 0x3f]
    ∃ later added status, Node.blink .nonBlocking world = .ok status later ∧
      status.startError = true ∧ later.history = world.history ++ added ∧
      transfers added = [⟨.write [0x89] payload, false⟩, ⟨.read [0x08] 5, false⟩,
        ⟨.write [0x88] [32, 0xc0, 0, 0, 0], false⟩, ⟨.write [0x8a] [0, 0, 248, 3, 0], false⟩,
        ⟨.write [0x8d] [0x06], false⟩, ⟨.read [0x0f] 5, false⟩, ⟨.write [0x8d] [0x40], false⟩,
        ⟨.write [0x8f] [0, 0, 0, 8, 4], false⟩] := by
  intro world payload
  have hpresent : world.node.calibration.map (fun calibration ↦
      (calibration.phase, Wire.encode (calibration.nextFrame world.node.shortAddress.toUInt64))) =
        some (.idle, payload) := by decide +kernel
  obtain ⟨calibration, present, hcalibration⟩ := Option.map_eq_some_iff.mp hpresent
  obtain ⟨hphase, hpayload⟩ := Prod.mk.inj hcalibration
  have hbus : world.radio.bus = { reads := [[12, 0x40, 0, 0, 0], [0, 0, 0, 8, 0]] } := rfl
  obtain ⟨-, -, later, latest, -, ⟨added, hadded, htransfers⟩, -, -, hblink⟩ :=
    blink_over_bus present (by simp [hphase])
  rw [hpayload, hbus] at htransfers hblink
  obtain ⟨-, hblink, hstatus⟩ := hblink
  exact ⟨later, added, latest.status, hblink, hstatus, hadded, htransfers⟩

end World

end ClockCalibration
