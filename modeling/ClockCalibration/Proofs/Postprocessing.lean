import ClockCalibration.Proofs.Node.Plain
import ClockCalibration.Proofs.Run
import ClockCalibration.Radio.Scripted

/-!
# Postprocessing does not disturb the protocol

Twins are two runs of the same operations with the same radio.  They may differ in whether events
are postprocessed, in the room of the queue, in the uptime and in the sinks, and each may dispatch
its events when it likes, or never: these are asides, which the other run need not make.  The
sinks take note of the records and do not call back, since one that does is part of the
protocol.

Every operation of the protocol projects to itself, and an aside does not change the plain world
at all.  So the plain worlds of twins are the same at every step, and with them all that the two
have asked of the radio and of the timer.
-/

namespace ClockCalibration

variable {ρ ε : Type}

/-! ## Operations -/

/-- Whether a sink calls back into the node that hands it a record. -/
def Sink.CallsBack : Sink → Prop
  | log | observe => False
  | blink | stop => True

namespace Operation

/-- The operations that postprocessing has no part in. -/
def IsProtocol : Operation → Prop
  | dispatch (.postprocess _ _) | drain | setSink _ | elapse _ => False
  | _ => True

/-- Whether an operation keeps records from sinks that call back. -/
def KeepsPassive : Operation → Prop
  | setSink sink => ¬ sink.CallsBack
  | _ => True

/-- The operations that one of two twins may carry out alone: it dispatches events of frames,
takes another sink that does not call back, or lets time pass. -/
def IsAside (world : World ρ ε) : Operation → Prop
  | dispatch (.postprocess _ _) => True
  | drain => .timerExpired ∉ world.platform.queue
  | setSink sink => ¬ sink.CallsBack
  | elapse _ => True
  | _ => False

/-- An answer without anything that concerns postprocessing. -/
def see : (operation : Operation) → operation.Answer ε → operation.Answer ε
  | init _ _ => Calibration.plain
  | _ => id

theorem IsProtocol.keepsPassive {operation : Operation} (h : operation.IsProtocol) :
    operation.KeepsPassive := by
  cases operation with
  | setSink => exact h.elim
  | _ => trivial

/-- Every operation of the protocol does in the plain world what it does. -/
theorem IsProtocol.projects [Radio ρ ε] {operation : Operation} (h : operation.IsProtocol) :
    Projects (see operation) (operation.perform : NodeM ρ ε _) operation.perform := by
  cases operation with
  | init size master => exact Node.projects_init size master
  | start mode => exact Node.projects_start mode
  | stop => exact Node.projects_stop
  | blink mode => exact Node.projects_blink mode
  | poll => exact Node.projects_poll
  | receptionInterrupt => exact Node.projects_receptionInterrupt
  | transmissionInterrupt => exact Node.projects_transmissionInterrupt
  | receptionComplete => exact Node.projects_receptionComplete
  | transmissionComplete => exact Node.projects_transmissionComplete
  | setCallbacks onReception onTransmission =>
      exact Node.projects_setCallbacks onReception onTransmission
  | dispatch event =>
      cases event with
      | timerExpired => exact Node.projects_timerExpired
      | postprocess => exact h.elim
  | drain | setSink | elapse => exact h.elim

end Operation

namespace World

variable {world later latest : World ρ ε}

/-! ## Sinks that do not call back -/

/-- The sink of the instance does not call back. -/
def Passive (world : World ρ ε) : Prop :=
  ∀ calibration, world.node.calibration = some calibration → ¬ calibration.sink.CallsBack

theorem Passive.recalibrating (h : world.Passive) {change : Calibration → Calibration}
    (same : ∀ calibration, (change calibration).sink = calibration.sink) :
    (world.recalibrating change).Passive := by
  intro calibration present
  obtain ⟨before, hbefore, rfl⟩ := Option.map_eq_some_iff.mp present
  exact same before ▸ h before hbefore

/-- Only the choice of another sink changes the sink. -/
theorem Step.passive (step : Step Operation.KeepsPassive world later) (h : world.Passive) :
    later.Passive := by
  cases step with
  | turn turn =>
      cases turn with
      | reaction _ step =>
          cases step with
          | surroundings | note | offer | disown => exact h
          | schedule | complete | receive | correct => exact h.recalibrating fun _ ↦ rfl
          | close pending =>
              have hreleased : (world.recalibrating (·.release)).Passive :=
                h.recalibrating fun _ ↦ rfl
              intro calibration present
              rw [node_updating, Node.closeCycle, if_pos pending] at present
              exact hreleased calibration present
      | arming step =>
          cases step with
          | request | time => exact h
          | attempt | release | reject | accept => exact h.recalibrating fun _ ↦ rfl
  | control _ step =>
      cases step with
      | create =>
          intro calibration present
          cases present
          exact id
      | remaster | stopped => exact h
      | restart | halt | timerFired => exact h.recalibrating fun _ ↦ rfl
      | withSink permitted =>
          intro calibration present
          obtain ⟨before, -, rfl⟩ := Option.map_eq_some_iff.mp present
          exact permitted
  | callbacks => exact h

/-- Every operation keeps records from sinks that call back, unless such a sink is chosen. -/
theorem Passive.after [Radio ρ ε] (h : world.Passive) (calm : world.Calm) {operation : Operation}
    (permitted : operation.KeepsPassive) :
    (world.after operation).Calm ∧ (world.after operation).Passive := by
  obtain ⟨hcalm, hsteps⟩ := leads_after world permitted calm
  exact ⟨hcalm, hsteps.head_induction_on (motive := fun first _ ↦
    first.Passive → (world.after operation).Passive) id (fun step _ ih h ↦ ih (step.passive h)) h⟩

/-! ## Asides -/

/-- As long as the sink does not call back, nothing is seen in the plain world. -/
def Unseen (world later : World ρ ε) : Prop :=
  world.Passive → later.Passive ∧ later.plain = world.plain

theorem Unseen.refl (world : World ρ ε) : Unseen world world := fun h ↦ ⟨h, rfl⟩

theorem Unseen.trans (first : Unseen world later) (second : Unseen later latest) :
    Unseen world latest := by
  intro h
  obtain ⟨hlater, hfirst⟩ := first h
  obtain ⟨hlatest, hsecond⟩ := second hlater
  exact ⟨hlatest, hsecond.trans hfirst⟩

theorem unseen_noting (world : World ρ ε) {happening : Happening ε}
    (h : happening.isProtocol = false) : Unseen world (world.noting happening) :=
  fun hpassive ↦ ⟨hpassive, plain_noting_of_not world h⟩

/-- The platform is not seen, except for the number of timers. -/
theorem unseen_platform (world : World ρ ε) {platform : Platform}
    (timers : platform.scheduled = world.platform.scheduled) :
    Unseen world { world with platform } := by
  intro h
  refine ⟨h, ?_⟩
  rw [plain, timers]
  rfl

end World

namespace Node

open World

variable (world : World ρ ε)

/-- Neither is the choice of a sink, unless it calls back. -/
theorem unseen_setSink {sink : Sink} (h : ¬ sink.CallsBack) :
    Unseen world (world.upon (setSink sink : NodeM ρ ε Unit)) := by
  rw [setSink, upon_discard_bind]
  cases present : world.node.calibration with
  | none =>
      rw [upon_bind_of_error (requireCalibration_of_none world present)]
      exact .refl world
  | some calibration =>
      rw [upon_bind_of_ok (requireCalibration_of_some world present),
        upon_of_ok (updateCalibration_eq world _)]
      intro _
      refine ⟨fun _ hlater ↦ ?_, ?_⟩
      · obtain ⟨before, -, rfl⟩ := Option.map_eq_some_iff.mp hlater
        exact h
      · have hnode : (world.recalibrating (·.withSink sink)).node.plain = world.node.plain := by
          rw [node_recalibrating, present, Node.plain, Node.plain, present]
          rfl
        rw [World.plain, hnode]
        rfl

variable [Radio ρ ε]

/-- Neither is what becomes of a record. -/
theorem unseen_deliver (record : Record) {sink : Sink} (h : ¬ sink.CallsBack) :
    Unseen world (world.upon (deliver record sink : NodeM ρ ε Unit)) := by
  have hnoted : Unseen world (world.noting (.sink sink record)) := unseen_noting world rfl
  cases sink with
  | log => exact hnoted.trans (unseen_noting _ rfl)
  | observe => exact hnoted
  | blink | stop => exact absurd trivial h

theorem unseen_postprocess (direction : Direction) (index : UInt32) :
    Unseen world (world.upon (postprocess direction index : NodeM ρ ε Unit)) := by
  intro h
  rw [postprocess, upon_get_bind]
  cases present : world.node.calibration with
  | none => exact ⟨h, rfl⟩
  | some calibration => exact unseen_deliver world _ (h calibration present) h

/-- Events of frames can be dispatched one after the other. -/
theorem unseen_drain (h : .timerExpired ∉ world.platform.queue) :
    Unseen world (world.upon (drain : NodeM ρ ε (List (Except (Error ε) Unit)))) := by
  rw [drain, upon_get_bind]
  refine upon_mapM_of (R := Unseen) Unseen.refl Unseen.trans (fun event hevent world ↦ ?_) world
  refine upon_bind_of (R := Unseen) Unseen.trans (unseen_platform world rfl) fun _ later _ ↦ ?_
  rw [upon_attempt]
  cases event with
  | timerExpired => exact absurd hevent h
  | postprocess direction index => exact unseen_postprocess later direction index

end Node

namespace World

variable [Radio ρ ε] {world twin : World ρ ε}

/-- Nothing of an aside is seen in the plain world. -/
theorem unseen_aside {operation : Operation} (h : operation.IsAside world) :
    Unseen world (world.after operation) := by
  rw [after_eq_upon]
  cases operation with
  | dispatch event =>
      cases event with
      | timerExpired => exact h.elim
      | postprocess direction index => exact Node.unseen_postprocess world direction index
  | drain => exact Node.unseen_drain world h
  | setSink sink => exact Node.unseen_setSink world h
  | elapse uptime => exact unseen_platform world rfl
  | _ => exact h.elim

/-! ## Twins -/

/-- Two runs of the same operations of the protocol with the same radio, which may differ in
everything that concerns postprocessing. -/
inductive Twins : World ρ ε → World ρ ε → Prop
  | /-- Both begin, with configurations that differ in nothing else. -/
    fresh {config config' : Config} (same : config.plain = config'.plain) (address : UInt16)
      (radio : ρ) {platform platform' : Platform}
      (timers : platform.scheduled = platform'.scheduled) :
      Twins (.fresh config address radio platform) (.fresh config' address radio platform')
  | /-- Both carry out an operation of the protocol. -/
    operation {world twin : World ρ ε} (twins : Twins world twin) {operation : Operation}
      (protocol : operation.IsProtocol) : Twins (world.after operation) (twin.after operation)
  | /-- The radio changes for both. -/
    radio {world twin : World ρ ε} (twins : Twins world twin) (radio : ρ) :
      Twins { world with radio } { twin with radio }
  | /-- One of them makes an aside. -/
    aside {world twin : World ρ ε} (twins : Twins world twin) {operation : Operation}
      (unseen : operation.IsAside world) : Twins (world.after operation) twin
  | /-- The platform of one of them changes, though not the number of its timers. -/
    platform {world twin : World ρ ε} (twins : Twins world twin) {platform : Platform}
      (timers : platform.scheduled = world.platform.scheduled) :
      Twins { world with platform } twin
  | /-- It does not matter which one. -/
    symm {world twin : World ρ ε} (twins : Twins world twin) : Twins twin world

/-- Both of two twins carry out the same operations. -/
theorem Twins.run (twins : Twins world twin) {operations : List Operation}
    (protocol : ∀ operation ∈ operations, operation.IsProtocol) :
    Twins (world.run operations) (twin.run operations) := by
  induction operations generalizing world twin with
  | nil => exact twins
  | cons operation operations ih =>
      exact ih (twins.operation (protocol operation List.mem_cons_self))
        fun other hother ↦ protocol other (List.mem_cons_of_mem operation hother)

/-- What twins have in common: their plain worlds, and that neither has a sink that calls back. -/
structure Alike (world twin : World ρ ε) : Prop where
  plain : twin.plain = world.plain
  calm : world.Calm
  passive : world.Passive
  passive_twin : twin.Passive

omit [Radio ρ ε] in
theorem Alike.calm_twin (h : Alike world twin) : twin.Calm := by
  rw [Calm, ← phase?_plain, h.plain, phase?_plain]
  exact h.calm

/-- Twins are alike at every step. -/
theorem Twins.alike (twins : Twins world twin) : Alike world twin := by
  induction twins with
  | @fresh config config' same address radio platform platform' timers =>
      refine ⟨?_, calm_fresh config address radio platform, fun _ present ↦ (nomatch present),
        fun _ present ↦ (nomatch present)⟩
      unfold plain World.fresh Node.plain Node.fresh
      rw [same, timers]
  | operation _ protocol ih =>
      obtain ⟨hcalm, hpassive⟩ := ih.passive.after ih.calm protocol.keepsPassive
      obtain ⟨-, htwin⟩ := ih.passive_twin.after ih.calm_twin protocol.keepsPassive
      refine ⟨?_, hcalm, hpassive, htwin⟩
      rw [after_eq_upon, after_eq_upon, protocol.projects.plain_upon,
        protocol.projects.plain_upon, ih.plain]
  | radio _ radio ih =>
      exact ⟨congrArg (fun plain : World ρ ε ↦ { plain with radio }) ih.plain, ih.calm, ih.passive,
        ih.passive_twin⟩
  | aside _ unseen ih =>
      obtain ⟨hpassive, hplain⟩ := unseen_aside unseen ih.passive
      refine ⟨ih.plain.trans hplain.symm, ?_, hpassive, ih.passive_twin⟩
      rw [Calm, ← phase?_plain, hplain, phase?_plain]
      exact ih.calm
  | platform _ timers ih =>
      obtain ⟨hpassive, hplain⟩ := unseen_platform _ timers ih.passive
      exact ⟨ih.plain.trans hplain.symm, ih.calm, hpassive, ih.passive_twin⟩
  | symm _ ih => exact ⟨ih.plain.symm, ih.calm_twin, ih.passive_twin, ih.passive⟩

/-- Operations of the protocol come to the same in worlds that are the same without
postprocessing. -/
theorem outcome_of_plain {operation : Operation} (protocol : operation.IsProtocol)
    (same : twin.plain = world.plain) :
    (twin.outcome operation.perform).map operation.see =
      (world.outcome operation.perform).map operation.see := by
  rw [← protocol.projects.outcome_plain, same, protocol.projects.outcome_plain]

/-- **Postprocessing does not disturb the protocol.**  Two runs of the same operations with the
same radio, however they differ in the postprocessing of events, agree at every step in what
belongs to the protocol: in all that was asked of the radio and what it replied, in the timers
that were scheduled and cancelled and in what else was noted of it; in the node with the whole
of its instance, but for whether events are postprocessed and by which sink; and in what every
operation of the protocol comes to. -/
theorem protocol_undisturbed (twins : Twins world twin) :
    protocol twin.history = protocol world.history ∧ twin.node.plain = world.node.plain ∧
    ∀ operation : Operation, operation.IsProtocol →
      (twin.outcome operation.perform).map operation.see =
        (world.outcome operation.perform).map operation.see := by
  have hplain := twins.alike.plain
  exact ⟨congrArg World.history hplain, congrArg World.node hplain,
    fun _ protocol ↦ outcome_of_plain protocol hplain⟩

/-- One node has room for a single event, whose record it logs late, and drops the next one; the
other has switched postprocessing off.  Both send their blinks alike. -/
theorem protocol_undisturbed_of_dropped_event :
    let noisy : World Radio.Scripted Radio.Failure :=
      fresh { period := 1000, latency := 100 } 66 { systemTime := 1048576 } { capacity := 1 }
    let quiet : World Radio.Scripted Radio.Failure :=
      fresh { period := 1000, latency := 100, postprocess := false } 66
        { systemTime := 1048576 } { uptime := 5 }
    let recording := ((noisy.run [.init 3 anyMaster, .start .nonBlocking, .dispatch .timerExpired,
      .transmissionInterrupt, .dispatch .timerExpired, .poll]).after
        (.dispatch (.postprocess .tx 0))).run [.dispatch .timerExpired, .stop]
    let silent := (quiet.run [.init 3 anyMaster, .start .nonBlocking, .dispatch .timerExpired,
      .transmissionInterrupt, .dispatch .timerExpired, .poll]).run [.dispatch .timerExpired, .stop]
    recording.platform.queue = [.postprocess .tx 0] ∧ silent.platform.queue = [] ∧
      recording.history.length = silent.history.length + 5 ∧
      protocol silent.history = protocol recording.history ∧
      silent.node.plain = recording.node.plain := by
  intro noisy quiet recording silent
  have hbegun : Twins noisy quiet := .fresh (by rfl) 66 _ (by rfl)
  have htwins : Twins recording silent := by
    refine .run (.aside (.run hbegun ?_) (by exact trivial)) ?_ <;> simp [Operation.IsProtocol]
  obtain ⟨hprotocol, hnode, -⟩ := protocol_undisturbed htwins
  refine ⟨?_, ?_, ?_, hprotocol, hnode⟩ <;> decide +kernel

end World

end ClockCalibration
