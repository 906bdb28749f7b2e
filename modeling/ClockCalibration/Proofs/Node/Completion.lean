import ClockCalibration.Node.Completion
import ClockCalibration.Proofs.Node.Step

/-!
# Callbacks and polls

Callbacks and polls are paths of reactions.  The standard transmit callback is told
apart into its two cases once, by `Node.transmissionComplete_cases`; whether it
claimed the blink decides for both of its callers, the interrupt and the poll, whether
they may touch the kind of the outgoing frame.

A poll closes a cycle only after the radio has acknowledged the blink.  What the
callback does in between cannot make another blink go under way, which is
`World.Reaction.underway`.  What a reception does leaves the blink under way and the
timer alone altogether: `Node.samePulse_receptionComplete`.
-/

namespace ClockCalibration

open Relation (ReflTransGen)

variable {ρ ε : Type}

namespace World

variable (world : World ρ ε)

/-! ## Paths of reactions -/

variable {world} in
/-- Asking for something that changes nothing in the node is a path of reactions. -/
theorem reactions_exchanging (call : Call) (reply : Reply ε call)
    (quiet : (Happening.exchange call reply).IsQuiet) (radio : ρ) :
    ReflTransGen Reaction world (world.exchanging call reply radio) :=
  (ReflTransGen.single (.surroundings radio world.platform)).tail (.note quiet)

/-- Reactions that leave the node alone and pass no landmark, which is what asking the radio
about the received frame comes to. -/
structure Listens (world later : World ρ ε) : Prop where
  reactions : ReflTransGen Reaction world later
  node : later.node = world.node
  history : ∃ listened, later.history = world.history ++ listened ∧ landmarks listened = []

theorem Listens.refl : Listens world world :=
  ⟨.refl, rfl, [], (List.append_nil _).symm, rfl⟩

theorem Listens.trans {first second third : World ρ ε} (h : Listens first second)
    (h' : Listens second third) : Listens first third := by
  obtain ⟨listened, hhistory, hlandmarks⟩ := h.history
  obtain ⟨listened', hhistory', hlandmarks'⟩ := h'.history
  refine ⟨h.reactions.trans h'.reactions, h'.node.trans h.node, listened ++ listened', ?_, ?_⟩
  · rw [hhistory', hhistory, List.append_assoc]
  · rw [landmarks_append, hlandmarks, hlandmarks', List.append_nil]

/-- A world that offered the event of a frame, provided that events are wanted. -/
def recording (calibration : Calibration) (direction : Direction) (index : UInt32) : World ρ ε :=
  if calibration.postprocess then world.offering (.postprocess direction index) else world

@[simp] theorem node_recording (calibration : Calibration) (direction : Direction)
    (index : UInt32) : (world.recording calibration direction index).node = world.node := by
  unfold recording
  split
  · exact node_offering world _
  · rfl

@[simp] theorem landmarks_recording (calibration : Calibration) (direction : Direction)
    (index : UInt32) : landmarks (world.recording calibration direction index).history =
      landmarks world.history := by
  unfold recording offering
  split
  · split <;> simp [landmarks, Happening.landmark?]
  · rfl

/-- Offering an event is a path of reactions, also if it finds no room and that is logged. -/
theorem reactions_recording {calibration : Calibration}
    (present : world.node.calibration = some calibration) {direction : Direction}
    {index : UInt32} (prompted : world.Prompts (.postprocess direction index)) :
    ReflTransGen Reaction world (world.recording calibration direction index) := by
  unfold recording offering
  split
  · next wanted =>
    have hoffer := ReflTransGen.single (Reaction.offer present wanted prompted)
    split
    · exact hoffer
    · exact hoffer.tail (.note trivial)
  · exact .refl

/-- A blink that is under way neither before nor after an acknowledgement comes into
being by reactions: only an accepted start makes one. -/
theorem Reaction.underway {world later : World ρ ε} (step : Reaction world later)
    (finished : ClockCalibration.underway (landmarks world.history) = false) :
    ClockCalibration.underway (landmarks later.history) = false := by
  cases step with
  | surroundings | disown | close | correct => exact finished
  | note quiet =>
      rcases quiet.landmark? with h | h <;> simp [h, finished, Landmark.underway]
  | schedule | offer | complete | receive =>
      simp [scheduling, Happening.landmark?, Landmark.underway, finished]

/-! ## The standard transmit callback -/

/-- A world whose pending blink is claimed to have been sent. -/
def claiming (calibration : Calibration) : World ρ ε :=
  (world.recalibrating (·.complete)).noting (.log (.blinkSent calibration.ring.index))

/-- A world that ended the blink that was pending. -/
def finishing (calibration : Calibration) : World ρ ε :=
  let recorded := (world.claiming calibration).recording calibration .tx calibration.ring.index
  if calibration.status.timerEnabled then recorded.scheduling calibration.config.timerDelay
  else recorded

variable {world}
variable {calibration : Calibration}

/-- Ending a blink completes the instance, and at most holds on to another expiry. -/
theorem finishing_calibration (present : world.node.calibration = some calibration) :
    ∃ timer, (world.finishing calibration).node.calibration =
      some { calibration.complete with timer } := by
  unfold finishing
  split
  · simp [claiming, present, Calibration.scheduled]
  · simp [claiming, present]
    exact ⟨_, rfl⟩

/-- Ending a blink passes its completion, and nothing else. -/
theorem landmarks_finishing : landmarks (world.finishing calibration).history =
    landmarks world.history ++ [.completed] := by
  unfold finishing
  split <;> simp [claiming, scheduling, Happening.landmark?]

/-- No blink is pending once it has been ended. -/
theorem phase?_finishing (present : world.node.calibration = some calibration) :
    (world.finishing calibration).node.phase? = some .idle := by
  obtain ⟨timer, h⟩ := finishing_calibration present
  rw [Node.phase?, h]
  rfl

/-- Ending a blink is a path of reactions. -/
theorem reactions_finishing (present : world.node.calibration = some calibration)
    (pending : calibration.phase = .pending)
    (outgoing : world.node.outgoing = some .calibration) :
    ReflTransGen Reaction world (world.finishing calibration) := by
  have hcomplete : (world.claiming calibration).node.calibration = some calibration.complete := by
    simp [claiming, present]
  have hrecord : ReflTransGen Reaction world
      ((world.claiming calibration).recording calibration .tx calibration.ring.index) :=
    (ReflTransGen.single (Reaction.complete present pending outgoing)).trans
      (reactions_recording _ hcomplete ⟨_, _, .inl ⟨_, rfl, rfl⟩⟩)
  unfold finishing
  split
  · next enabled =>
    exact hrecord.tail (.schedule ((congrArg _ (node_recording _ _ _ _)).trans hcomplete)
      enabled (.inr rfl))
  · exact hrecord

end World

namespace Node

open World

variable (world : World ρ ε)

theorem finishBlink_eq (calibration : Calibration) :
    (finishBlink calibration : NodeM ρ ε Unit) world = .ok () (world.finishing calibration) := by
  unfold finishBlink finishing recording
  rw [bind_of_ok (updateCalibration_eq world _), bind_of_ok (log_eq _ _)]
  split
  · rw [bind_of_ok (offer_eq _ _)]
    split <;> rfl
  · split <;> rfl

/-- The standard transmit callback ends the blink that is pending, provided that a
calibration frame is being sent, and claims to have done so.  Otherwise it does
nothing. -/
theorem transmissionComplete_cases :
    (∃ calibration, world.node.calibration = some calibration ∧ calibration.phase = .pending ∧
      world.node.outgoing = some .calibration ∧
      (transmissionComplete : NodeM ρ ε Bool) world = .ok true (world.finishing calibration)) ∨
    ((world.node.phase? = some .pending → world.node.outgoing ≠ some .calibration) ∧
      (transmissionComplete : NodeM ρ ε Bool) world = .ok false world) := by
  rw [transmissionComplete, get_bind, phase?]
  cases present : world.node.calibration with
  | none => exact .inr ⟨by simp, rfl⟩
  | some calibration =>
      by_cases h : world.node.outgoing = some .calibration ∧ calibration.phase = .pending
      · refine .inl ⟨calibration, rfl, h.2, h.1, ?_⟩
        simp only [if_pos h]
        rw [bind_of_ok (finishBlink_eq world calibration)]
        rfl
      · refine .inr ⟨fun pending outgoing ↦ h ⟨outgoing, Option.some.inj pending⟩, ?_⟩
        simp only [if_neg h]
        rfl

/-- The standard transmit callback does not fail, and each time it claims to have ended a
blink one more completion has been passed. -/
theorem transmissionComplete_claims :
    ∃ claimed later, (transmissionComplete : NodeM ρ ε Bool) world = .ok claimed later ∧
      landmarks later.history =
        landmarks world.history ++ if claimed then [.completed] else [] := by
  rcases transmissionComplete_cases world with ⟨calibration, -, -, -, h⟩ | ⟨-, h⟩
  · exact ⟨true, _, h, landmarks_finishing⟩
  · exact ⟨false, world, h, (List.append_nil _).symm⟩

/-- The standard transmit callback is a path of reactions. -/
theorem reactions_transmissionComplete :
    ReflTransGen Reaction world (world.upon (transmissionComplete : NodeM ρ ε Bool)) := by
  rcases transmissionComplete_cases world with
    ⟨calibration, present, pending, outgoing, h⟩ | ⟨-, h⟩
  · rw [upon_of_ok h]
    exact reactions_finishing present pending outgoing
  · rw [upon_of_ok h]

variable [Radio ρ ε]

/-! ## The standard receive callback -/

/-- Asking for something that means nothing to the node leaves it alone. -/
theorem listens_ask (call : Call)
    (quiet : ∀ reply : Reply ε call, (Happening.exchange call reply).IsQuiet)
    (futile : ∀ reply : Reply ε call, (Happening.exchange call reply).landmark? = none) :
    Listens world (world.upon (ask call)) := by
  rw [upon_ask]
  refine ⟨reactions_exchanging call _ (quiet _) _, rfl, _, history_exchanging _ _ _ _, ?_⟩
  rw [landmarks_singleton, futile]
  rfl

theorem listens_askHeader : Listens world (world.upon askHeader) := by
  unfold askHeader
  refine upon_bind_of (R := Listens) Listens.trans
    (listens_ask world (.readReceiveBuffer _ _) (fun _ ↦ id) fun _ ↦ rfl) fun bytes later _ ↦ ?_
  cases (Wire.decode bytes.toList : Except Wire.Error (BlinkHeader × Nat)) <;> exact .refl later

theorem listens_askCorrection : Listens world (world.upon askCorrection) := by
  unfold askCorrection
  refine upon_bind_of (R := Listens) Listens.trans
    (listens_ask world (.readRegister _ _) (fun _ ↦ id) fun _ ↦ rfl) fun _ later _ ↦ ?_
  exact upon_bind_of (R := Listens) Listens.trans
    (listens_ask later (.readRegister _ _) (fun _ ↦ id) fun _ ↦ rfl) fun _ latest _ ↦ .refl latest

variable {world} {header : BlinkHeader}

/-- The header that is asked for is the one that the radio answers with. -/
theorem heard_of_askHeader {later : World ρ ε}
    (h : (askHeader : NodeM ρ ε BlinkHeader) world = .ok header later) :
    Heard later.history header := by
  obtain ⟨bytes, answered, hask, hdecode⟩ := of_bind_eq_ok h
  rcases ask_cases world (.readReceiveBuffer (Wire.Packed.size BlinkHeader) 0) with
    ⟨answer, transfers, radio, -, hanswer⟩ | ⟨failure, transfers, radio, -, hfailure⟩
  · cases hanswer.symm.trans hask
    cases hdecoded : (Wire.decode bytes.toList : Except Wire.Error (BlinkHeader × Nat)) with
    | error error =>
        rw [hdecoded] at hdecode
        cases hdecode
    | ok decoded =>
        rw [hdecoded] at hdecode
        cases hdecode
        exact ⟨_, _, bytes, transfers, decoded.2, rfl, hdecoded⟩
  · cases hfailure.symm.trans hask

/-- Once the correction factor is there, the clock is corrected and the event made known. -/
theorem track_of_ok {later : World ρ ε} {correction : Binary32}
    (h : (askCorrection : NodeM ρ ε Binary32) world = .ok correction later)
    (calibration : Calibration) (header : BlinkHeader) (time : UInt64) :
    (track calibration header time : NodeM ρ ε Unit) world = .ok ()
      (((later.recalibrating (·.correct correction)).noting
        (.log (.frameReceived header.sequence time correction))).recording calibration .rx
          calibration.ring.index) := by
  unfold track recording
  rw [bind_of_ok h, bind_of_ok (updateCalibration_eq later _), bind_of_ok (log_eq _ _)]
  split
  · exact offer_eq _ _
  · rfl

/-- Tracking the clock by a frame that was received is a path of reactions once enough events
have been processed. -/
theorem reactions_track {calibration : Calibration} {time : UInt64}
    (present : world.node.calibration = some calibration)
    (received : Received world.history header time)
    (valid : calibration.status.valid = true) :
    ReflTransGen Reaction world (world.upon (track calibration header time)) := by
  have hlistens := listens_askCorrection world
  refine upon_bind_of ReflTransGen.trans hlistens.reactions fun correction later h ↦ ?_
  rw [upon_of_ok h] at hlistens
  rw [← hlistens.node] at present
  let corrected := later.recalibrating (·.correct correction)
  let logged := corrected.noting (.log (.frameReceived header.sequence time correction))
  have hpresent : logged.node.calibration = some (calibration.correct correction) := by
    simp [logged, corrected, present]
  have hlogged : ReflTransGen Reaction later logged :=
    (ReflTransGen.single (.correct present valid correction)).tail (.note trivial)
  have hreceived : Received later.history header time := by
    obtain ⟨listened, hlater, hlistened⟩ := hlistens.history
    exact hlater ▸ received.append hlistened
  have hrecorded := hlogged.trans (reactions_recording logged hpresent
    ⟨_, _, .inr ⟨header, time, _, _, rfl, hreceived, hpresent, rfl⟩⟩)
  rw [upon_bind_of_ok (updateCalibration_eq later _), upon_bind_of_ok (log_eq _ _)]
  split
  · next wanted =>
    have hoffering : logged.recording (calibration.correct correction) .rx
        calibration.ring.index = logged.offering (.postprocess .rx calibration.ring.index) :=
      if_pos wanted
    rw [upon_of_ok (offer_eq _ _)]
    exact hoffering ▸ hrecorded
  · exact hlogged

/-- Accepting a frame of a trusted sender is a path of reactions. -/
theorem reactions_accept {calibration : Calibration}
    (present : world.node.calibration = some calibration)
    (heard : Heard world.history header)
    (kind : header.kind? = some .calibration)
    (trusted : world.node.trusts header.source = true) :
    ReflTransGen Reaction world (world.upon (accept header)) := by
  refine upon_ask_bind (P := ReflTransGen Reaction world) world
    (fun time transfers radio ↦ ?_) fun failure transfers radio ↦ ?_
  · let received := (world.exchanging .readReceptionTime ⟨.ok time, transfers⟩
      radio).recalibrating (·.receive header time)
    have hpresent : received.node.calibration = some (calibration.receive header time) := by
      simp [received, present]
    have hreceived : ReflTransGen Reaction world received :=
      .single (.receive present heard kind trusted time transfers radio)
    rw [upon_bind_of_ok (updateCalibration_eq _ _),
      upon_bind_of_ok (requireCalibration_of_some _ hpresent)]
    split
    · next valid =>
      exact hreceived.trans (reactions_track hpresent ⟨_, _, transfers, [], heard, rfl, rfl⟩ valid)
    · exact hreceived
  · exact reactions_exchanging .readReceptionTime ⟨.error failure, transfers⟩ id radio

/-- The standard receive callback is a path of reactions. -/
theorem reactions_receptionComplete (world : World ρ ε) :
    ReflTransGen Reaction world (world.upon (receptionComplete : NodeM ρ ε Bool)) := by
  rw [receptionComplete, upon_get_bind]
  cases present : world.node.calibration with
  | none => exact .refl
  | some calibration =>
      have hlistens := listens_askHeader world
      refine upon_bind_of ReflTransGen.trans hlistens.reactions fun header later h ↦ ?_
      rw [upon_of_ok h] at hlistens
      split
      · next kind =>
        refine upon_bind_of ReflTransGen.trans ?_ fun _ _ _ ↦ .refl
        rw [consider, upon_get_bind]
        dsimp only
        split
        · next trusted =>
          exact reactions_accept (hlistens.node ▸ present) (heard_of_askHeader h) kind trusted
        · exact .single (.note trivial)
      · exact .refl

/-! ## What receptions leave alone -/

/-- The state of the blink under way and of the timer of a node. -/
def pulse (node : Node) : Option FrameControl × Option (Option TimerHandle × Phase × Bool) :=
  (node.outgoing, node.calibration.map fun calibration ↦
    (calibration.timer, calibration.phase, calibration.status.timerEnabled))

/-- Neither differs between two worlds. -/
def SamePulse (world later : World ρ ε) : Prop := later.node.pulse = world.node.pulse

omit [Radio ρ ε] in
theorem SamePulse.trans {first second third : World ρ ε} (h : SamePulse first second)
    (h' : SamePulse second third) : SamePulse first third :=
  Eq.trans h' h

omit [Radio ρ ε] in
theorem SamePulse.outgoing {world later : World ρ ε} (h : SamePulse world later) :
    later.node.outgoing = world.node.outgoing :=
  congrArg Prod.fst h

omit [Radio ρ ε] in
theorem SamePulse.phase? {world later : World ρ ε} (h : SamePulse world later) :
    later.node.phase? = world.node.phase? := by
  have hpulse (node : Node) : node.phase? = node.pulse.2.map (·.2.1) := by
    rw [pulse, Option.map_map]
    rfl
  rw [hpulse, h, ← hpulse]

omit [Radio ρ ε] in
/-- A change of the instance that leaves timer, phase and status alone leaves the pulse alone. -/
theorem samePulse_recalibrating (world : World ρ ε) {change : Calibration → Calibration}
    (h : ∀ calibration, (change calibration).timer = calibration.timer ∧
      (change calibration).phase = calibration.phase ∧
      (change calibration).status.timerEnabled = calibration.status.timerEnabled) :
    SamePulse world (world.recalibrating change) := by
  rw [SamePulse, pulse, node_recalibrating, Option.map_map, pulse]
  congr 2
  funext calibration
  obtain ⟨htimer, hphase, henabled⟩ := h calibration
  simp only [Function.comp_apply, htimer, hphase, henabled]

/-- Tracking the clock leaves both alone. -/
theorem samePulse_track (world : World ρ ε) (calibration : Calibration) (header : BlinkHeader)
    (time : UInt64) : SamePulse world (world.upon (track calibration header time)) := by
  refine upon_bind_of (R := SamePulse) SamePulse.trans
    (congrArg pulse (listens_askCorrection world).node) fun correction later _ ↦ ?_
  rw [upon_bind_of_ok (updateCalibration_eq later _), upon_bind_of_ok (log_eq _ _)]
  refine (samePulse_recalibrating later fun _ ↦ ⟨rfl, rfl, rfl⟩ :
    SamePulse later (later.recalibrating (·.correct correction))).trans ?_
  split
  · rw [upon_of_ok (offer_eq _ _), SamePulse, node_offering]
    rfl
  · rfl

/-- So does accepting a frame. -/
theorem samePulse_accept (world : World ρ ε) (header : BlinkHeader) :
    SamePulse world (world.upon (accept header)) := by
  refine upon_ask_bind (P := SamePulse world) world (fun time transfers radio ↦ ?_)
    fun failure transfers radio ↦ rfl
  rw [upon_bind_of_ok (updateCalibration_eq _ _)]
  refine (samePulse_recalibrating _ fun _ ↦ ⟨rfl, rfl, rfl⟩ : SamePulse world
    ((world.exchanging .readReceptionTime ⟨.ok time, transfers⟩ radio).recalibrating
      (·.receive header time))).trans ?_
  refine upon_bind_of (R := SamePulse) SamePulse.trans ?_ fun calibration later _ ↦ ?_
  · rw [upon_requireCalibration]
    rfl
  · split
    · exact samePulse_track later calibration header time
    · rfl

/-- The standard receive callback is nothing to the blink under way or to the timer. -/
theorem samePulse_receptionComplete (world : World ρ ε) :
    SamePulse world (world.upon (receptionComplete : NodeM ρ ε Bool)) := by
  rw [receptionComplete, upon_get_bind]
  cases world.node.calibration with
  | none => rfl
  | some calibration =>
      refine upon_bind_of (R := SamePulse) SamePulse.trans
        (congrArg pulse (listens_askHeader world).node) fun header later _ ↦ ?_
      split
      · refine upon_bind_of (R := SamePulse) SamePulse.trans ?_ fun _ _ _ ↦ rfl
        rw [consider, upon_get_bind]
        dsimp only
        split
        · exact samePulse_accept later header
        · rfl
      · rfl

/-! ## Interrupts -/

/-- Every callback is a path of reactions. -/
theorem reactions_invoke (world : World ρ ε) (callback : Callback) :
    ReflTransGen Reaction world (world.upon (invoke callback : NodeM ρ ε Bool)) := by
  refine upon_bind_of ReflTransGen.trans (.single (.note trivial)) fun _ later _ ↦ ?_
  cases callback with
  | reception => exact reactions_receptionComplete later
  | transmission => exact reactions_transmissionComplete later
  | transmissionUnclaimed =>
      refine upon_bind_of ReflTransGen.trans ?_ fun _ _ _ ↦ .refl
      rw [upon_discard]
      exact reactions_transmissionComplete later
  | claim | fail | ignore => exact .refl

theorem reactions_receptionInterrupt (world : World ρ ε) :
    ReflTransGen Reaction world (world.upon (receptionInterrupt : NodeM ρ ε Bool)) := by
  rw [receptionInterrupt, upon_get_bind]
  cases world.node.onReception with
  | none => exact .refl
  | some callback => exact reactions_invoke world callback

/-- With the standard callback, the interrupt ends the blink that is pending and forgets
what is being sent, or it does nothing but call the callback. -/
theorem transmissionInterrupt_cases
    (standard : world.node.onTransmission = some .transmission) :
    let called := world.noting (.callback .transmission)
    (∃ calibration, world.node.calibration = some calibration ∧ calibration.phase = .pending ∧
      world.node.outgoing = some .calibration ∧
      (transmissionInterrupt : NodeM ρ ε Bool) world = .ok true
        ((called.finishing calibration).updating fun node ↦ { node with outgoing := none })) ∨
    ((world.node.phase? = some .pending → world.node.outgoing ≠ some .calibration) ∧
      (transmissionInterrupt : NodeM ρ ε Bool) world = .ok false called) := by
  intro called
  have hinvoke : (invoke .transmission : NodeM ρ ε Bool) world = transmissionComplete called := rfl
  rw [transmissionInterrupt, get_bind, standard]
  rcases transmissionComplete_cases called with
    ⟨calibration, present, pending, outgoing, h⟩ | ⟨idle, h⟩
  · refine .inl ⟨calibration, present, pending, outgoing, ?_⟩
    exact bind_of_ok (hinvoke.trans h) _
  · refine .inr ⟨idle, ?_⟩
    exact bind_of_ok (hinvoke.trans h) _

/-- A callback other than the standard one may make the node forget what it is
sending, whatever it is; the standard one does so only if it claimed the blink. -/
theorem reactions_transmissionInterrupt (world : World ρ ε) :
    ReflTransGen Reaction world (world.upon (transmissionInterrupt : NodeM ρ ε Bool)) := by
  by_cases standard : world.node.onTransmission = some .transmission
  · have hcalled : ReflTransGen Reaction world (world.noting (.callback .transmission)) :=
      .single (.note trivial)
    rcases transmissionInterrupt_cases standard with
      ⟨calibration, present, pending, outgoing, h⟩ | ⟨-, h⟩
    · rw [upon_of_ok h]
      refine (hcalled.trans (reactions_finishing present pending outgoing)).tail (.disown ?_)
      intro _
      have hphase := (world.noting (.callback .transmission)).phase?_finishing present
      rw [hphase]
      simp
    · rw [upon_of_ok h]
      exact hcalled
  · rw [transmissionInterrupt, upon_get_bind]
    cases hcallback : world.node.onTransmission with
    | none => exact .refl
    | some callback =>
        refine upon_bind_of ReflTransGen.trans (reactions_invoke world callback)
          fun claimed later h ↦ ?_
        have hsame := SameSetup.of_steps Reaction.sameSetup (reactions_invoke world callback)
        rw [upon_of_ok h] at hsame
        cases claimed with
        | false => exact .refl
        | true =>
            exact .single (.disown fun hlater ↦ absurd (hsame.callback.symm.trans hlater) standard)

/-! ## Polling -/

/-- No blink is pending once the cycle has been closed. -/
theorem phase?_closeCycle (node : Node) : node.closeCycle.phase? ≠ some .pending := by
  unfold closeCycle
  split
  · next pending =>
    obtain ⟨calibration, present, -⟩ := Option.map_eq_some_iff.mp pending
    simp [phase?, present, Calibration.release]
  · next idle => exact idle

/-- What follows the acknowledgement of a blink is a path of reactions.  The cycle is
closed by force only if the standard callback could not have claimed the blink. -/
theorem reactions_acknowledge (finished : underway (landmarks world.history) = false) :
    ReflTransGen Reaction world (world.upon (acknowledge : NodeM ρ ε Unit)) := by
  have hinterrupt := reactions_transmissionInterrupt world
  rw [← upon_discard] at hinterrupt
  refine upon_bind_of ReflTransGen.trans hinterrupt fun _ later h ↦ ?_
  rw [upon_of_ok h] at hinterrupt
  have hover : underway (landmarks later.history) = false := by
    clear h
    induction hinterrupt with
    | refl => exact finished
    | tail _ step ih => exact step.underway ih
  rw [upon_of_ok (update_eq later _)]
  by_cases pending : later.node.phase? = some .pending
  · refine .single (.close pending hover fun standard ↦ ?_)
    have hstandard : world.node.onTransmission = some .transmission :=
      (SameSetup.of_steps Reaction.sameSetup hinterrupt).callback.symm.trans standard
    rcases transmissionInterrupt_cases hstandard with ⟨calibration, -, -, -, h'⟩ | ⟨idle, h'⟩
    · rw [discard_of_ok h'] at h
      cases h
      simp
    · rw [discard_of_ok h'] at h
      cases h
      exact idle pending
  · have hclose : later.updating closeCycle = later := by
      rw [updating, closeCycle, if_neg pending]
    rw [hclose]

/-- A poll is a path of reactions. -/
theorem reactions_pollPending (world : World ρ ε) :
    ReflTransGen Reaction world (world.upon (pollPending : NodeM ρ ε Completion)) := by
  refine upon_ask_bind (P := ReflTransGen Reaction world) world
    (fun completion transfers radio ↦ ?_) fun failure transfers radio ↦ ?_
  · have hasked : ReflTransGen Reaction world
        (world.exchanging .pollTransmission ⟨.ok completion, transfers⟩ radio) :=
      reactions_exchanging .pollTransmission ⟨.ok completion, transfers⟩ id radio
    cases completion with
    | wouldBlock => exact hasked
    | done =>
        refine hasked.trans (upon_bind_of ReflTransGen.trans (reactions_acknowledge ?_)
          fun _ _ _ ↦ .refl)
        simp [Happening.landmark?, Landmark.underway]
  · exact reactions_exchanging .pollTransmission ⟨.error failure, transfers⟩ id radio

theorem reactions_poll (world : World ρ ε) :
    ReflTransGen Reaction world (world.upon (poll : NodeM ρ ε Completion)) := by
  by_cases pending : world.node.phase? = some .pending
  · rw [upon, poll, if_pos pending]
    exact reactions_pollPending world
  · rw [upon, poll, if_neg pending]

/-- A poll that finds the blink sent leaves none pending. -/
theorem phase?_of_poll {later : World ρ ε}
    (h : (poll : NodeM ρ ε Completion) world = .ok .done later) :
    later.node.phase? ≠ some .pending := by
  unfold poll at h
  split at h
  · rcases ask_cases world .pollTransmission with
      ⟨completion, transfers, radio, -, hask⟩ | ⟨failure, transfers, radio, -, hask⟩
    · rw [pollPending, bind_of_ok hask] at h
      cases completion with
      | wouldBlock => cases h
      | done =>
          obtain ⟨_, _, hacknowledge, hdone⟩ := of_bind_eq_ok h
          obtain ⟨_, middle, -, hclose⟩ := of_bind_eq_ok hacknowledge
          cases hclose
          cases hdone
          exact phase?_closeCycle middle.node
    · rw [pollPending, bind_of_error hask] at h
      cases h
  · next idle =>
    cases h
    exact idle

section

variable {later : World ρ ε}

theorem awaitCompletion_of_blocked
    (h : (poll : NodeM ρ ε Completion) world = .ok .wouldBlock later) :
    awaitCompletion world = awaitCompletion later := by
  rw [awaitCompletion]
  split <;> simp_all

theorem awaitCompletion_of_done
    (h : (poll : NodeM ρ ε Completion) world = .ok .done later) :
    awaitCompletion world = .ok () later := by
  rw [awaitCompletion]
  split <;> simp_all

theorem awaitCompletion_of_error {error : Error ε}
    (h : (poll : NodeM ρ ε Completion) world = .error error later) :
    awaitCompletion world = .error error later := by
  rw [awaitCompletion]
  split <;> simp_all

end

/-- Nothing is waited for unless a blink is pending. -/
theorem awaitCompletion_of_not_pending (idle : world.node.phase? ≠ some .pending) :
    (awaitCompletion : NodeM ρ ε Unit) world = .ok () world :=
  awaitCompletion_of_done (if_neg idle)

/-- Waiting for a blink is a path of reactions. -/
theorem reactions_awaitCompletion (world : World ρ ε) :
    ReflTransGen Reaction world (world.upon (awaitCompletion : NodeM ρ ε Unit)) := by
  have hpoll := reactions_poll world
  induction world using awaitCompletion.induct with
  | case1 world later blocked ih =>
      rw [upon_of_ok blocked] at hpoll
      unfold upon
      rw [awaitCompletion_of_blocked blocked]
      exact hpoll.trans (ih (reactions_poll later))
  | case2 world later h =>
      rw [upon_of_ok h] at hpoll
      rwa [upon_of_ok (awaitCompletion_of_done h)]
  | case3 world error later h =>
      rw [upon_of_error h] at hpoll
      rwa [upon_of_error (awaitCompletion_of_error h)]

/-- No blink is pending once it has been waited for. -/
theorem phase?_of_awaitCompletion {later : World ρ ε}
    (h : (awaitCompletion : NodeM ρ ε Unit) world = .ok () later) :
    later.node.phase? ≠ some .pending := by
  induction world using awaitCompletion.induct with
  | case1 world middle blocked ih => exact ih (awaitCompletion_of_blocked blocked ▸ h)
  | case2 world middle hdone =>
      cases (awaitCompletion_of_done hdone).symm.trans h
      exact phase?_of_poll hdone
  | case3 world error middle herror => cases (awaitCompletion_of_error herror).symm.trans h

end Node

end ClockCalibration
