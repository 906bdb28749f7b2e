import ClockCalibration.Proofs.Admission
import ClockCalibration.Proofs.Creation
import ClockCalibration.Proofs.Stop

/-!
# Who writes what of a slot

A slot of the ring is shared by the two roles of a node.  A master puts its blinks there, with the
instants they are due at, and a receiver the frames that it hears, with their times of reception and
what the carrier told.  The schedule is read off the times of sending and the drift of the clock off
the rest, so neither role may touch what is the other's.

What an operation leaves alone is said by views here: a column is what a view shows of each slot,
and an operation spares what is viewed if the column after it is the one before.  For the callback
of receptions that is read off what it makes of the instance.  A blink is a long sequence, in which
a transmit callback is called that may be anything, so `Node.SparesReceptions` is a property of
computations that adds up along sequences.
-/

namespace ClockCalibration

variable {ρ ε α β : Type}

/-! ## Columns -/

/-- What is in a slot on behalf of receptions: the time of reception, the correction factor and the
kind of the frame. -/
def Frame.reception (frame : Frame) : UInt64 × Binary32 × UInt8 :=
  (frame.received, frame.correction, frame.header.control)

/-- The slots of the instance of a node. -/
def Node.slots? (node : Node) : Option (Array Frame) := node.calibration.map (·.ring.slots)

/-- What a view shows of them. -/
def Node.column? (view : Frame → α) (node : Node) : Option (Array α) := node.slots?.map (·.map view)

/-- A change of the instance that does not show in its slots does not show in those of the node. -/
theorem Node.column?_eq {view : Frame → α} {node later : Node} {change : Calibration → Calibration}
    (h : later.calibration = node.calibration.map change)
    (unseen : ∀ calibration,
      (change calibration).ring.slots.map view = calibration.ring.slots.map view) :
    later.column? view = node.column? view := by
  rw [column?, slots?, h, column?, slots?]
  cases node.calibration with
  | none => rfl
  | some calibration => exact congrArg some (unseen calibration)

/-- A change of one slot that a view does not show is not seen in the column. -/
theorem FrameRing.map_slots_modifySlot (ring : FrameRing) (slot : Nat) {view : Frame → α}
    {change : Frame → Frame} (unseen : ∀ frame, view (change frame) = view frame) :
    (ring.modifySlot slot change).slots.map view = ring.slots.map view := by
  change (ring.slots.modify slot change).map view = _
  ext i h h'
  · simp
  · simp only [Array.getElem_map, Array.getElem_modify]
    split
    · exact unseen _
    · rfl

namespace Calibration

variable (calibration : Calibration)

/-- A received frame leaves the times of sending alone. -/
theorem sent_takeUp (header : BlinkHeader) (time : UInt64) (correction? : Option Binary32) :
    (calibration.takeUp header time correction?).ring.slots.map (·.sent) =
      calibration.ring.slots.map (·.sent) := by
  let received := calibration.receive header time
  have hreceived : received.ring.slots.map (·.sent) = calibration.ring.slots.map (·.sent) :=
    calibration.ring.advance.map_slots_modifySlot _ fun _ ↦ rfl
  cases correction? with
  | none => exact hreceived
  | some correction =>
      have hcorrected : (received.correct correction).ring.slots.map (·.sent) =
          received.ring.slots.map (·.sent) := received.ring.map_slots_modifySlot _ fun _ ↦ rfl
      exact hcorrected.trans hreceived

/-- A blink leaves what was received alone. -/
theorem reception_prepare (address : UInt64) :
    (calibration.prepare address).ring.slots.map Frame.reception =
      calibration.ring.slots.map Frame.reception :=
  calibration.ring.map_slots_modifySlot _ fun _ ↦ rfl

/-- So does its rejection. -/
theorem reception_reject :
    calibration.reject.ring.slots.map Frame.reception =
      calibration.ring.slots.map Frame.reception :=
  calibration.ring.map_slots_modifySlot _ fun _ ↦ rfl

/-- A start writes the time of sending in the last slot. -/
theorem slots_restart (time : UInt64) (mode : BlinkMode) :
    (calibration.restart time mode).ring.slots = calibration.ring.slots.modify
      (calibration.ring.slots.size - 1) (·.sentAt (.truncate time)) := by
  have hlast : calibration.ring.resetIndex.slotBefore 0 = calibration.ring.slots.size - 1 :=
    FrameRing.slotBefore_zero _
  rw [← hlast]
  rfl

end Calibration

/-! ## What blinks spare -/

namespace World

/-- The transmit callback is the same in two worlds, and what was received is still in the slots. -/
structure SameReceptions (world later : World ρ ε) : Prop where
  callback : later.node.onTransmission = world.node.onTransmission
  column : later.node.column? Frame.reception = world.node.column? Frame.reception

theorem SameReceptions.trans {world later latest : World ρ ε} (h : SameReceptions world later)
    (h' : SameReceptions later latest) : SameReceptions world latest :=
  ⟨h'.callback.trans h.callback, h'.column.trans h.column⟩

theorem SameReceptions.of_node {world later : World ρ ε} (h : later.node = world.node) :
    SameReceptions world later := by
  constructor <;> rw [h]

end World

namespace Node

open World

/-- A computation that leaves what was received in the slots, as long as completed transmissions are
not handed to the callback of receptions. -/
def SparesReceptions (computation : NodeM ρ ε α) : Prop :=
  ∀ world : World ρ ε, world.node.onTransmission ≠ some .reception →
    SameReceptions world (world.upon computation)

namespace SparesReceptions

variable {computation : NodeM ρ ε α}

theorem of_node (h : ∀ world : World ρ ε, (world.upon computation).node = world.node) :
    SparesReceptions computation :=
  fun world _ ↦ .of_node (h world)

theorem pure (value : α) : SparesReceptions (pure value : NodeM ρ ε α) := of_node fun _ ↦ rfl

theorem throw (error : Error ε) : SparesReceptions (throw error : NodeM ρ ε α) :=
  of_node fun _ ↦ rfl

/-- A sequence spares what its parts do. -/
theorem bind {next : α → NodeM ρ ε β} (first : SparesReceptions computation)
    (rest : ∀ value, SparesReceptions (next value)) :
    SparesReceptions (computation >>= next) := by
  intro world foreign
  refine upon_bind_of (R := SameReceptions) SameReceptions.trans (first world foreign)
    fun value later h ↦ ?_
  have hcallback := (first world foreign).callback
  rw [upon_of_ok h] at hcallback
  exact rest value later (hcallback ▸ foreign)

/-- So does one that begins with a look at the world. -/
theorem get_bind {next : World ρ ε → NodeM ρ ε α} (rest : ∀ world, SparesReceptions (next world)) :
    SparesReceptions (get >>= next) :=
  fun world foreign ↦ rest world world foreign

theorem attempt (h : SparesReceptions computation) : SparesReceptions (attempt computation) := by
  intro world foreign
  rw [upon_attempt]
  exact h world foreign

theorem discard (h : SparesReceptions computation) : SparesReceptions (discard computation) := by
  intro world foreign
  rw [upon_discard]
  exact h world foreign

theorem note (happening : Happening ε) : SparesReceptions (note happening : NodeM ρ ε Unit) :=
  of_node fun _ ↦ rfl

theorem log (message : Message) : SparesReceptions (log message : NodeM ρ ε Unit) :=
  note _

theorem requireCalibration : SparesReceptions (requireCalibration : NodeM ρ ε Calibration) :=
  of_node fun world ↦ by rw [upon_requireCalibration]

theorem update {change : Node → Node}
    (callback : ∀ node, (change node).onTransmission = node.onTransmission)
    (column : ∀ node, (change node).column? Frame.reception = node.column? Frame.reception) :
    SparesReceptions (update change : NodeM ρ ε Unit) :=
  fun world _ ↦ ⟨callback world.node, column world.node⟩

theorem updateCalibration {change : Calibration → Calibration}
    (unseen : ∀ calibration, (change calibration).ring.slots.map Frame.reception =
      calibration.ring.slots.map Frame.reception) :
    SparesReceptions (updateCalibration change : NodeM ρ ε Unit) :=
  update (fun _ ↦ rfl) fun _ ↦ column?_eq rfl unseen

theorem schedule (delay : UInt32) : SparesReceptions (schedule delay : NodeM ρ ε Unit) := by
  intro world _
  have hscheduled : (world.scheduling delay).node.calibration =
      world.node.calibration.map (·.scheduled world.platform.schedule.1) := rfl
  exact ⟨rfl, column?_eq hscheduled fun _ ↦ rfl⟩

/-! ### The completion of a blink -/

theorem transmissionComplete :
    SparesReceptions (transmissionComplete : NodeM ρ ε Bool) := by
  intro world _
  refine ⟨(SameSetup.of_steps Reaction.sameSetup (reactions_transmissionComplete world)).callback,
    ?_⟩
  rcases transmissionComplete_cases world with ⟨calibration, present, -, -, h⟩ | ⟨-, h⟩
  · obtain ⟨timer, hfinished⟩ := finishing_calibration present
    rw [upon_of_ok h, Node.column?, Node.slots?, hfinished, Node.column?, Node.slots?, present]
    rfl
  · rw [upon_of_ok h]

variable [Radio ρ ε]

theorem ask (call : Call) : SparesReceptions (ask call : NodeM ρ ε call.Answer) :=
  of_node fun world ↦ by rw [upon_ask, node_exchanging]

/-- The callback of receptions is the one that does not. -/
theorem invoke {callback : Callback} (foreign : callback ≠ .reception) :
    SparesReceptions (invoke callback : NodeM ρ ε Bool) := by
  refine bind (note _) fun _ ↦ ?_
  cases callback with
  | reception => exact absurd rfl foreign
  | transmission => exact transmissionComplete
  | transmissionUnclaimed => exact bind transmissionComplete.discard fun _ ↦ pure false
  | claim => exact pure true
  | fail => exact throw _
  | ignore => exact pure false

theorem transmissionInterrupt :
    SparesReceptions (transmissionInterrupt : NodeM ρ ε Bool) := by
  intro world foreign
  rw [Node.transmissionInterrupt, upon_get_bind]
  cases hcallback : world.node.onTransmission with
  | none => exact .of_node rfl
  | some callback =>
      have hinvoke : SparesReceptions (Node.invoke callback : NodeM ρ ε Bool) :=
        invoke fun h ↦ foreign (h ▸ hcallback)
      refine bind hinvoke (fun claimed ↦ ?_) world foreign
      cases claimed with
      | true => exact bind (update (fun _ ↦ rfl) fun _ ↦ rfl) fun _ ↦ pure true
      | false => exact pure false

/-- A cycle that is closed by force leaves the slots alone. -/
theorem acknowledge : SparesReceptions (acknowledge : NodeM ρ ε Unit) := by
  refine bind transmissionInterrupt.discard fun _ ↦ update (fun node ↦ ?_) fun node ↦ ?_
  · unfold closeCycle
    split <;> rfl
  · unfold closeCycle
    split
    · exact column?_eq rfl fun _ ↦ rfl
    · rfl

theorem pollPending : SparesReceptions (pollPending : NodeM ρ ε Completion) := by
  refine bind (ask .pollTransmission) fun completion ↦ ?_
  cases completion with
  | wouldBlock => exact pure _
  | done => exact bind acknowledge fun _ ↦ pure _

theorem poll : SparesReceptions (poll : NodeM ρ ε Completion) := by
  intro world foreign
  by_cases pending : world.node.phase? = some .pending
  · rw [upon, Node.poll, if_pos pending]
    exact pollPending world foreign
  · rw [upon, Node.poll, if_neg pending]
    exact .of_node rfl

/-- Waiting is polling again and again. -/
theorem awaitCompletion : SparesReceptions (awaitCompletion : NodeM ρ ε Unit) := by
  intro world foreign
  have hpoll := poll world foreign
  induction world using awaitCompletion.induct with
  | case1 world later blocked ih =>
      rw [upon_of_ok blocked] at hpoll
      have hforeign : later.node.onTransmission ≠ some .reception := hpoll.callback ▸ foreign
      rw [upon_congr (awaitCompletion_of_blocked blocked)]
      exact hpoll.trans (ih hforeign (poll later hforeign))
  | case2 world later h =>
      rw [upon_of_ok h] at hpoll
      rwa [upon_of_ok (awaitCompletion_of_done h)]
  | case3 world error later h =>
      rw [upon_of_error h] at hpoll
      rwa [upon_of_error (awaitCompletion_of_error h)]

/-! ### Blinks -/

theorem arm (payload : Bytes) (instant : UInt64) :
    SparesReceptions (arm payload instant : NodeM ρ ε StartOutcome) :=
  bind (ask (.writeTransmitBuffer payload 0)) fun _ ↦
    bind (ask (.configureTransmit _ true)) fun _ ↦
      bind (ask (.setWaitForResponse false)) fun _ ↦
        bind (ask (.setDelayedStart instant)) fun _ ↦ ask .startTransmission

omit [Radio ρ ε] in
theorem prepare : SparesReceptions (prepare : NodeM ρ ε Frame) :=
  get_bind fun _ ↦ bind (updateCalibration fun calibration ↦ calibration.reception_prepare _)
    fun _ ↦ bind requireCalibration fun _ ↦ pure _

theorem conclude (mode : BlinkMode) (frame : Frame) (outcome : StartOutcome) :
    SparesReceptions (conclude mode frame outcome : NodeM ρ ε Unit) := by
  cases outcome with
  | rejected => exact bind (updateCalibration (·.reception_reject)) fun _ ↦ log _
  | started =>
      have hwait : SparesReceptions
          (if mode = .blocking then Node.awaitCompletion else Pure.pure () : NodeM ρ ε Unit) := by
        cases mode with
        | blocking => exact awaitCompletion
        | nonBlocking => exact pure ()
      have haccept : SparesReceptions (Node.update fun node ↦
          { node with
            calibration := node.calibration.map (·.accept)
            outgoing := some .calibration } : NodeM ρ ε Unit) :=
        update (fun _ ↦ rfl) fun _ ↦ column?_eq rfl fun _ ↦ rfl
      exact bind haccept fun _ ↦ bind (log _) fun _ ↦ hwait

theorem blink (mode : BlinkMode) : SparesReceptions (blink mode : NodeM ρ ε Status) := by
  refine bind requireCalibration.discard fun _ ↦ bind awaitCompletion fun _ ↦
    bind prepare fun frame ↦ ?_
  have harm : SparesReceptions (Node.arm (Wire.encode frame) frame.sent : NodeM ρ ε _) := arm _ _
  refine bind harm.attempt fun result ↦ ?_
  cases result with
  | ok outcome =>
      exact bind (conclude mode frame outcome) fun _ ↦ bind requireCalibration fun _ ↦ pure _
  | error error => exact bind (updateCalibration fun _ ↦ rfl) fun _ ↦ throw error

theorem timedBlink (mode : BlinkMode) (delay : UInt32) :
    SparesReceptions (timedBlink mode delay : NodeM ρ ε Unit) := by
  have hblink : SparesReceptions (Node.blink mode : NodeM ρ ε Status) := blink mode
  refine bind hblink.attempt fun result ↦ ?_
  cases result with
  | ok status =>
      cases h : status.startError with
      | false => simpa [h] using pure ()
      | true => simpa [h] using schedule delay
  | error error => exact bind (schedule delay) fun _ ↦ throw error

theorem timerExpired : SparesReceptions (timerExpired : NodeM ρ ε Unit) := by
  refine get_bind fun world ↦ ?_
  cases world.node.calibration with
  | none => exact pure ()
  | some calibration =>
      refine bind (updateCalibration fun _ ↦ rfl) fun _ ↦ ?_
      split
      · exact timedBlink _ _
      · exact pure ()

end SparesReceptions

end Node

/-! ## The operations -/

/-- Whether an operation belongs to the role of the sender. -/
def Operation.Transmits : Operation → Prop
  | blink _ | poll | transmissionComplete | transmissionInterrupt | dispatch .timerExpired => True
  | _ => False

namespace Node

open World

variable [Radio ρ ε] {world : World ρ ε}

/-- The operations of the sender leave what was received alone. -/
theorem sparesReceptions_of_transmits {operation : Operation} (transmits : operation.Transmits) :
    SparesReceptions (operation.perform : NodeM ρ ε _) := by
  cases operation with
  | blink mode => exact .blink mode
  | poll => exact .poll
  | transmissionComplete => exact .transmissionComplete
  | transmissionInterrupt => exact .transmissionInterrupt
  | dispatch event =>
      cases event with
      | timerExpired => exact .timerExpired
      | postprocess => exact transmits.elim
  | _ => exact transmits.elim

/-- A received frame leaves the times of sending alone, whatever becomes of it. -/
theorem sent_receptionComplete (world : World ρ ε) :
    (world.upon receptionComplete).node.column? (·.sent) = world.node.column? (·.sent) := by
  by_cases haccepted : ∃ bytes time, world.Accepts bytes time
  · obtain ⟨bytes, time, accepted⟩ := haccepted
    obtain ⟨calibration, present⟩ := Option.isSome_iff_exists.mp accepted.present
    obtain ⟨-, hnode⟩ := receptionComplete_of_accepts present accepted
    rw [column?, slots?, hnode, column?, slots?, present]
    exact congrArg some (calibration.sent_takeUp _ _ _)
  · have hsame := unmoved_of_not_accepts fun bytes time accepted ↦ haccepted ⟨bytes, time, accepted⟩
    rw [hsame.node]

/-- A start writes to the last slot, if anywhere. -/
theorem slots_start (mode : BlinkMode) :
    let later := world.upon (start mode)
    later.node.slots? = world.node.slots? ∨
      ∃ time, later.node.slots? = world.node.slots?.map fun slots ↦
        slots.modify (slots.size - 1) (·.sentAt (.truncate time)) := by
  intro later
  cases hcalibration : world.node.calibration with
  | none =>
      have hstart : (start mode : NodeM ρ ε Unit) world = .error .notInitialized world :=
        bind_of_error (requireCalibration_of_none world hcalibration) _
      exact .inl (by rw [← upon_of_error hstart])
  | some calibration =>
      cases read : (Radio.perform .readSystemTime world.radio).1.answer with
      | error failure =>
          have hlater : later = _ := upon_of_error (start_of_unread hcalibration mode read)
          exact .inl (by rw [hlater]; rfl)
      | ok time =>
          have hlater : later = _ := upon_of_ok (start_of_read hcalibration mode read)
          refine .inr ⟨time, ?_⟩
          rw [hlater, slots?, node_scheduling, node_noting, node_recalibrating, slots?]
          change Option.map _ (Option.map _ (Option.map _ world.node.calibration)) = _
          rw [hcalibration]
          exact congrArg some (calibration.slots_restart time mode)

omit [Radio ρ ε] in
/-- A stop leaves the slots alone. -/
theorem slots_stop : (world.upon stop).node.slots? = world.node.slots? := by
  cases hcalibration : world.node.calibration with
  | none =>
      have hstop : (stop : NodeM ρ ε Unit) world = .error .notInitialized world :=
        bind_of_error (requireCalibration_of_none world hcalibration) _
      rw [upon_of_error hstop]
  | some calibration =>
      rw [upon_of_ok (stop_eq hcalibration), slots?, slots?, hcalibration]
      rfl

/-- So does a creation where there is an instance. -/
theorem slots_init (present : world.node.calibration.isSome = true) (count : Nat)
    (master : UInt64) : (world.upon (init count master)).node.slots? = world.node.slots? := by
  obtain ⟨calibration, hcalibration⟩ := Option.isSome_iff_exists.mp present
  have hinit := init_of_present hcalibration count master
  split at hinit
  · rw [upon_of_ok hinit]
    rfl
  · rw [upon_of_error hinit]

/-- So does a record whose sink calls nothing. -/
theorem slots_postprocess
    (passive : ∀ calibration, world.node.calibration = some calibration →
      calibration.sink = .log ∨ calibration.sink = .observe)
    (direction : Direction) (index : UInt32) :
    (world.upon (postprocess direction index)).node.slots? = world.node.slots? := by
  rw [postprocess, upon_get_bind]
  cases hcalibration : world.node.calibration with
  | none => rfl
  | some calibration =>
      dsimp only
      rcases passive calibration hcalibration with hsink | hsink <;> rw [hsink] <;> rfl

end Node

namespace World

variable [Radio ρ ε]

/-- **Separate roles.**  The receive callback changes the time of sending in no slot, whatever
becomes of the frame.  As long as completed transmissions are not handed to that callback, whatever
sends a blink or hears of its completion, by a blink, a poll, a report or an expiry of the timer and
with any outcome, changes no time of reception, no correction factor and no kind of a frame.  A
start changes at most the time of sending in the last slot, which is the one before index 0.  And a
stop, a creation where there is an instance, the making of a record and its delivery to a sink that
calls nothing change no slot at all. -/
theorem role_separation (world : World ρ ε) :
    (world.after .receptionComplete).node.column? (·.sent) = world.node.column? (·.sent) ∧
    (world.node.onTransmission ≠ some .reception →
      ∀ operation : Operation, operation.Transmits →
        (world.after operation).node.column? Frame.reception =
          world.node.column? Frame.reception) ∧
    (∀ mode, let later := world.after (.start mode)
      later.node.slots? = world.node.slots? ∨
        ∃ time, later.node.slots? = world.node.slots?.map fun slots ↦
          slots.modify (slots.size - 1) (·.sentAt (.truncate time))) ∧
    (world.after .stop).node.slots? = world.node.slots? ∧
    (world.node.calibration.isSome = true → ∀ count master,
      (world.after (.init count master)).node.slots? = world.node.slots?) ∧
    (∀ direction index, world.upon (Node.record? direction index <$> get) = world) ∧
    ((∀ calibration, world.node.calibration = some calibration →
        calibration.sink = .log ∨ calibration.sink = .observe) →
      ∀ direction index, (world.after (.dispatch (.postprocess direction index))).node.slots? =
        world.node.slots?) := by
  simp only [after_eq_upon]
  refine ⟨Node.sent_receptionComplete world, fun foreign operation transmits ↦ ?_,
    fun mode ↦ Node.slots_start mode, ?_, ?_, fun _ _ ↦ rfl, ?_⟩
  · exact (Node.sparesReceptions_of_transmits transmits world foreign).column
  · exact Node.slots_stop
  · exact fun present count master ↦ Node.slots_init present count master
  · exact fun passive direction index ↦ Node.slots_postprocess passive direction index

/-- A blink shares its slot with the frame that was received before it, and leaves that frame's time
of reception alone. -/
theorem role_separation_of_blink :
    let world : World Radio.Scripted Radio.Failure :=
      (fresh { period := 1000, latency := 100 } 66
        { systemTime := 1048576, receptionTime := 5000,
          received := [0xc2, 0, 8, 7, 6, 5, 4, 3, 2, 1] } {}).run
        [.init 2 anyMaster, .receptionInterrupt]
    let later := world.after (.blink .blocking)
    later.node.column? Frame.reception =
        some #[(0, .one, FrameControl.calibration.code), (5000, .one, 0xc2)] ∧
      later.node.column? (·.sent) ≠ world.node.column? (·.sent) := by
  intro world later
  have foreign : world.node.onTransmission ≠ some .reception := by decide +kernel
  have hcolumn : world.node.column? Frame.reception =
      some #[(0, .one, FrameControl.calibration.code), (5000, .one, 0xc2)] := by decide +kernel
  refine ⟨?_, by decide +kernel⟩
  exact ((role_separation world).2.1 foreign (.blink .blocking) trivial).trans hcolumn

end World

end ClockCalibration
