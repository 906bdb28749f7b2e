import ClockCalibration.Proofs.Admission
import ClockCalibration.Proofs.Stop

/-!
# Listening

A node that sends nothing of its own keeps a faithful record of what it receives.  From the
beginning of the schedule on its instance `Follows` what is heard, whatever else is done to
the node: `World.Attends` relates the worlds before and after, and every operation is shown
to fit.  All but two kinds of operations are silent to a node that has no blink under way.
The exceptions are the receive callback, whose outcomes `Node.accept_cases` tells apart, and
operations that set off a blink, which attempt it at once.  Which calls of the callback add to
the receptions is `Node.receptions_receptionComplete`.

A stretch of history is `Uneventful` if no blink is attempted, the schedule does not begin
anew and the radio fails at nothing.  Attending says something of such stretches only.
-/

namespace ClockCalibration

open Relation (ReflTransGen)

variable {ρ ε α : Type}

/-- A stretch of history in which no blink was attempted, the schedule did not begin anew and
the radio did not fail. -/
structure Uneventful (added : List (Entry ε)) : Prop where
  unattempted : .attempted ∉ landmarks added
  steady : ∀ time, .began time ∉ landmarks added
  answered : ∀ entry ∈ added, ¬ entry.happening.Failed

/-- Both parts of an uneventful stretch are uneventful. -/
theorem Uneventful.of_append {before after : List (Entry ε)} (h : Uneventful (before ++ after)) :
    Uneventful before ∧ Uneventful after := by
  obtain ⟨unattempted, steady, answered⟩ := h
  simp only [landmarks_append, List.mem_append, not_or, or_imp, forall_and] at *
  exact ⟨⟨unattempted.1, steady.1, answered.1⟩, ⟨unattempted.2, steady.2, answered.2⟩⟩

/-- The instance of a node follows what was heard. -/
def Node.Follows (node : Node) (wanted : Prop) (hearing : Hearing) : Prop :=
  ∃ calibration, node.calibration = some calibration ∧ calibration.Follows wanted hearing

namespace World

variable {allowed : Operation → Prop} {world later latest : World ρ ε}

/-! ## Attending -/

/-- Between two worlds something happened that is more than listening. -/
def Disturbs (world later : World ρ ε) : Prop :=
  ∃ added, later.history = world.history ++ added ∧ ¬ Uneventful added

/-- From a calm world to another, what is heard in between is followed. -/
structure Attends (allowed : Operation → Prop) (world later : World ρ ε) : Prop where
  /-- There is a way from one to the other. -/
  leads : Leads (Step allowed) world later
  /-- What is heard on it is followed, if it is uneventful. -/
  follows : world.Calm → ∀ added, later.history = world.history ++ added → Uneventful added →
    ∀ wanted hearing, world.node.Follows wanted hearing →
      later.node.Follows wanted (hearing.through added)

theorem Attends.refl (world : World ρ ε) : Attends allowed world world where
  leads := .refl _ world
  follows := by
    intro _ added history _ wanted hearing h
    obtain rfl : added = [] := by simpa using history
    exact h

theorem Attends.trans (h : Attends allowed world later) (h' : Attends allowed later latest) :
    Attends allowed world latest where
  leads := h.leads.trans h'.leads
  follows := by
    intro calm added history uneventful wanted hearing hfollows
    obtain ⟨calm', hsteps⟩ := h.leads calm
    obtain ⟨before, hbefore⟩ := history_of_steps hsteps
    obtain ⟨after, hafter⟩ := history_of_steps (h'.leads calm').2
    obtain rfl : added = before ++ after := by
      rw [hafter, hbefore, List.append_assoc] at history
      exact (List.append_cancel_left history).symm
    obtain ⟨hfirst, hsecond⟩ := uneventful.of_append
    rw [Hearing.through_append]
    exact h'.follows calm' after hafter hsecond wanted _
      (h.follows calm before hbefore hfirst wanted hearing hfollows)

/-- To attend is to tell, for an instance without a blink under way, what is heard and that it
is followed, or that more happens than that. -/
theorem attends_of (leads : Leads (Step allowed) world later)
    (h : ∀ calibration, world.node.calibration = some calibration → calibration.phase = .idle →
      Disturbs world later ∨ ∃ change, Hears world later change ∧
        ∀ wanted hearing, calibration.Follows wanted hearing →
          later.node.Follows wanted (change hearing)) : Attends allowed world later where
  leads := leads
  follows := by
    rintro - added history uneventful wanted hearing ⟨calibration, present, hfollows⟩
    rcases h calibration present hfollows.idle with
      ⟨other, hother, heventful⟩ | ⟨change, ⟨other, hother, hheard⟩, hchange⟩
    · obtain rfl := List.append_cancel_left (hother.symm.trans history)
      exact absurd uneventful heventful
    · obtain rfl := List.append_cancel_left (hother.symm.trans history)
      rw [hheard]
      exact hchange wanted hearing hfollows

/-- A silent change that leaves the cycle and the ring alone is nothing to what was heard. -/
theorem attends_of_silent (leads : Leads (Step allowed) world later)
    (h : ∀ calibration, world.node.calibration = some calibration → calibration.phase = .idle →
      Hears world later id ∧ ∃ other, later.node.calibration = some other ∧
        other.phase = calibration.phase ∧ other.ring = calibration.ring ∧
        other.status.valid = calibration.status.valid ∧
        (calibration.postprocess = true → other.postprocess = true)) :
    Attends allowed world later := by
  apply attends_of leads
  intro calibration present idle
  obtain ⟨hears, other, hother, phase, ring, valid, postprocess⟩ := h calibration present idle
  refine .inr ⟨id, hears, ?_⟩
  intro wanted hearing hfollows
  exact ⟨other, hother, hfollows.of_same phase ring valid postprocess⟩

/-- What leaves history and instance alone, on another way to a world, attends as that does. -/
theorem Attends.of_same (h : Attends allowed world later)
    (leads : Leads (Step allowed) world latest)
    (history : latest.history = later.history)
    (same : latest.node.calibration = later.node.calibration) : Attends allowed world latest where
  leads := leads
  follows := by
    intro calm added hadded uneventful wanted hearing hfollows
    obtain ⟨calibration, present, hlater⟩ :=
      h.follows calm added (history ▸ hadded) uneventful wanted hearing hfollows
    exact ⟨calibration, same.trans present, hlater⟩

/-- So is what leaves the instance alone altogether. -/
theorem attends_of_eq (leads : Leads (Step allowed) world later) (hears : Hears world later id)
    (same : later.node.calibration = world.node.calibration) : Attends allowed world later := by
  apply attends_of_silent leads
  intro calibration present _
  exact ⟨hears, calibration, same.trans present, rfl, rfl, rfl, id⟩

/-- Noting something quiet by which nothing is heard is nothing to it. -/
theorem attends_noting (world : World ρ ε) {happening : Happening ε} (quiet : happening.IsQuiet)
    (silent : happening.IsSilent) : Attends allowed world (world.noting happening) := by
  refine attends_of_eq (steps_of_reactions (.single (.note quiet))) ?_ rfl
  obtain ⟨added, hadded, hheard⟩ := hears_noting world happening
  exact ⟨added, hadded, fun hearing ↦
    (hheard hearing).trans (Hearing.after_of_isSilent silent hearing)⟩

/-- A failure is more than listening. -/
theorem Fails.disturbs (h : world.Fails later) : world.Disturbs later := by
  obtain ⟨added, hadded, entry, hentry, hfailed⟩ := h
  exact ⟨added, hadded, fun uneventful ↦ uneventful.answered entry hentry hfailed⟩

/-- More than listening remains that, whatever is done next. -/
theorem Disturbs.of_history (h : world.Disturbs later) {rest : List (Entry ε)}
    (history : latest.history = later.history ++ rest) : world.Disturbs latest := by
  obtain ⟨added, hadded, heventful⟩ := h
  refine ⟨added ++ rest, by rw [history, hadded, List.append_assoc], ?_⟩
  intro uneventful
  exact heventful uneventful.of_append.1

end World

namespace Node

open World

variable {allowed : Operation → Prop} (world : World ρ ε)

/-! ## Callbacks -/

/-- No completion is claimed of a node without a blink under way. -/
theorem attends_transmissionComplete :
    Attends allowed world (world.upon (transmissionComplete : NodeM ρ ε Bool)) := by
  apply attends_of_silent (steps_of_reactions (reactions_transmissionComplete world))
  intro calibration present idle
  rcases transmissionComplete_cases world with ⟨_, hpresent, pending, -, -⟩ | ⟨-, h⟩
  · cases present.symm.trans hpresent
    cases idle.symm.trans pending
  · rw [upon_of_ok h]
    exact ⟨.of_eq rfl, calibration, present, rfl, rfl, rfl, id⟩

variable [Radio ρ ε]

/-- A frame that is accepted is heard and followed, unless the radio fails. -/
theorem accept_follows {calibration : Calibration} (header : BlinkHeader)
    (present : world.node.calibration = some calibration) :
    (∃ later change, accept header world = .ok () later ∧ Hears world later change ∧
      ∀ hearing : Hearing, hearing.header = some header →
        (∀ wanted, calibration.Follows wanted hearing →
          later.node.Follows wanted (change hearing)) ∧
        ∃ frame, (change hearing).frames = frame :: hearing.frames ∧ frame.header = some header) ∨
    world.Fails (world.upon (accept header)) := by
  rcases accept_cases world header present with
    ⟨time, later, invalid, h, hlater, hheard⟩ |
    ⟨time, interval, offset, later, valid, h, hlater, hheard⟩ | hfails
  · refine .inl ⟨later, _, h, hheard, ?_⟩
    intro hearing hheader
    refine ⟨fun wanted hfollows ↦ ?_, _, rfl, hheader⟩
    rw [hfollows.valid_receive, decide_eq_false_iff_not, Nat.not_lt, Nat.le_zero,
      List.length_eq_zero_iff] at invalid
    refine ⟨_, congrArg Node.calibration hlater, hfollows.first invalid ?_ rfl⟩
    dsimp only
    rw [invalid, hheader]
  · refine .inl ⟨later, _, h, hheard, ?_⟩
    intro hearing hheader
    refine ⟨fun wanted hfollows ↦ ?_, _, rfl, hheader⟩
    rw [hfollows.valid_receive, decide_eq_true_iff, List.length_pos_iff] at valid
    refine ⟨_, congrArg Node.calibration hlater, hfollows.next valid ?_ rfl⟩
    dsimp only
    rw [hheader]
  · exact .inr hfails

/-- What the standard receive callback hears is followed, and a calibration frame of a sender
that the node trusts is accepted, unless the radio fails. -/
theorem receptionComplete_follows {calibration : Calibration}
    (present : world.node.calibration = some calibration) :
    (∃ header bytes transfers radio taken later change,
      Radio.perform (.readReceiveBuffer (Wire.Packed.size BlinkHeader) 0) world.radio =
        (⟨.ok bytes, transfers⟩, radio) ∧
      Wire.decode bytes.toList = .ok (header, 10) ∧
      (receptionComplete : NodeM ρ ε Bool) world = .ok taken later ∧ Hears world later change ∧
      (∀ wanted hearing, calibration.Follows wanted hearing →
        later.node.Follows wanted (change hearing)) ∧
      (header.kind? = some .calibration → world.node.trusts header.source = true →
        taken = true ∧ ∀ hearing : Hearing, ∃ frame,
          (change hearing).frames = frame :: hearing.frames ∧ frame.header = some header)) ∨
    world.Fails (world.upon (receptionComplete : NodeM ρ ε Bool)) := by
  rcases receptionComplete_cases world present with
    ⟨header, bytes, transfers, radio, heard, hperform, hdecode, hheard, h⟩ |
    ⟨_, failure, transfers, radio, h⟩
  · have hhears : Hears world heard fun hearing ↦ { hearing with header := some header } := by
      obtain ⟨added, hadded, hafter⟩ := hears_exchanging world
        (.readReceiveBuffer (Wire.Packed.size BlinkHeader) 0) ⟨.ok bytes, transfers⟩ radio
      refine ⟨added, hheard ▸ hadded, fun hearing ↦ (hafter hearing).trans ?_⟩
      simp only [Hearing.after, hdecode]
      rfl
    have hpresent : heard.node.calibration = some calibration := hheard ▸ present
    rcases h with ⟨kind, trusted, h⟩ | ⟨kind, untrusted, h⟩ | ⟨foreign, h⟩
    · have hupon : world.upon (receptionComplete : NodeM ρ ε Bool) =
          heard.upon (accept header) := by
        rw [← upon_bind_pure heard (accept header) true, upon, h]
        rfl
      rcases accept_follows heard header hpresent with
        ⟨later, change, haccept, hreceived, hfollows⟩ | hfails
      · refine .inl ⟨header, bytes, transfers, radio, true, later, _, hperform, hdecode,
          h.trans (bind_of_ok haccept _), hhears.trans hreceived, ?_, ?_⟩
        · intro wanted hearing hbefore
          exact (hfollows { hearing with header := some header } rfl).1 wanted
            (hbefore.of_heard rfl rfl)
        · intro _ _
          exact ⟨rfl, fun hearing ↦ (hfollows { hearing with header := some header } rfl).2⟩
      · exact .inr (hupon ▸ .of_hears hhears hfails)
    · refine .inl ⟨header, bytes, transfers, radio, true, _, _, hperform, hdecode, h,
        hhears.trans (hears_noting heard _), ?_, ?_⟩
      · intro wanted hearing hfollows
        exact ⟨calibration, hpresent, hfollows.of_heard rfl rfl⟩
      · intro _ trusted
        cases untrusted.symm.trans trusted
    · refine .inl ⟨header, bytes, transfers, radio, false, heard, _, hperform, hdecode, h,
        hhears, ?_, ?_⟩
      · intro wanted hearing hfollows
        exact ⟨calibration, hpresent, hfollows.of_heard rfl rfl⟩
      · intro kind
        exact absurd kind foreign
  · exact .inr (upon_of_error h ▸ fails_exchanging world failure transfers radio)

/-- The standard receive callback attends. -/
theorem attends_receptionComplete :
    Attends allowed world (world.upon (receptionComplete : NodeM ρ ε Bool)) := by
  apply attends_of (steps_of_reactions (reactions_receptionComplete world))
  intro calibration present _
  rcases receptionComplete_follows world present with
    ⟨_, _, _, _, _, later, change, -, -, h, hheard, hfollows, -⟩ | hfails
  · rw [upon_of_ok h]
    exact .inr ⟨change, hheard, hfollows⟩
  · exact .inl hfails.disturbs

/-- So does every callback. -/
theorem attends_invoke (callback : Callback) :
    Attends allowed world (world.upon (invoke callback : NodeM ρ ε Bool)) := by
  refine upon_bind_of (R := Attends allowed) Attends.trans (attends_noting world trivial trivial)
    fun _ later _ ↦ ?_
  cases callback with
  | reception => exact attends_receptionComplete later
  | transmission => exact attends_transmissionComplete later
  | transmissionUnclaimed =>
      refine upon_bind_of (R := Attends allowed) Attends.trans ?_ fun _ latest _ ↦ .refl latest
      rw [upon_discard]
      exact attends_transmissionComplete later
  | claim | fail | ignore => exact .refl later

theorem attends_receptionInterrupt :
    Attends allowed world (world.upon (receptionInterrupt : NodeM ρ ε Bool)) := by
  rw [receptionInterrupt, upon_get_bind]
  cases world.node.onReception with
  | none => exact .refl world
  | some callback => exact attends_invoke world callback

theorem attends_transmissionInterrupt :
    Attends allowed world (world.upon (transmissionInterrupt : NodeM ρ ε Bool)) := by
  have hleads : Leads (Step allowed) world (world.upon (transmissionInterrupt : NodeM ρ ε Bool)) :=
    steps_of_reactions (reactions_transmissionInterrupt world)
  rw [transmissionInterrupt, upon_get_bind] at hleads ⊢
  cases hcallback : world.node.onTransmission with
  | none => exact .refl world
  | some callback =>
      rw [hcallback] at hleads
      refine (attends_invoke world callback).of_same hleads ?_ ?_ <;>
      · dsimp only
        cases hinvoke : (invoke callback : NodeM ρ ε Bool) world with
        | error error later => rw [upon_bind_of_error hinvoke, upon_of_error hinvoke]
        | ok claimed later =>
            rw [upon_bind_of_ok hinvoke, upon_of_ok hinvoke]
            cases claimed <;> rfl

/-- There is nothing to poll for while no blink is under way. -/
theorem attends_poll : Attends allowed world (world.upon (poll : NodeM ρ ε Completion)) := by
  apply attends_of_silent (steps_of_reactions (reactions_poll world))
  intro calibration present idle
  have hidle : world.node.phase? ≠ some .pending := by simp [phase?, present, idle]
  rw [upon, poll, if_neg hidle]
  exact ⟨.of_eq rfl, calibration, present, rfl, rfl, rfl, id⟩

/-! ## Blinks -/

variable {world}

/-- A blink of an idle instance is attempted. -/
theorem disturbs_blink {calibration : Calibration}
    (present : world.node.calibration = some calibration) (idle : calibration.phase = .idle)
    (mode : BlinkMode) : world.Disturbs (world.upon (blink mode)) := by
  obtain ⟨reply, added, history⟩ := history_of_blink mode present idle
  refine ⟨_, history, fun uneventful ↦ uneventful.unattempted ?_⟩
  exact mem_landmarks.mpr ⟨_, List.mem_cons_self, rfl⟩

theorem attends_blink (world : World ρ ε) (mode : BlinkMode) :
    Attends allowed world (world.upon (blink mode)) := by
  apply attends_of (leads_of_turns (leads_blink world mode))
  intro calibration present idle
  exact .inl (disturbs_blink present idle mode)

/-- So is one that the timer sets off. -/
theorem disturbs_timedBlink {calibration : Calibration}
    (present : world.node.calibration = some calibration) (idle : calibration.phase = .idle)
    (mode : BlinkMode) (delay : UInt32) :
    world.Disturbs (world.upon (timedBlink mode delay : NodeM ρ ε Unit)) := by
  have hblink := disturbs_blink present idle mode
  unfold timedBlink
  cases h : (blink mode : NodeM ρ ε Status) world with
  | error error later =>
      rw [upon_of_error h] at hblink
      rw [upon_bind_of_ok (attempt_of_error h)]
      exact hblink.of_history (rfl : (later.scheduling delay).history = later.history ++ [_])
  | ok status later =>
      rw [upon_of_ok h] at hblink
      rw [upon_bind_of_ok (attempt_of_ok h)]
      dsimp only
      split
      · exact hblink.of_history (rfl : (later.scheduling delay).history = later.history ++ [_])
      · exact hblink

/-- The expiry of the timer sets off a blink, or nothing. -/
theorem attends_timerExpired (world : World ρ ε) :
    Attends allowed world (world.upon (timerExpired : NodeM ρ ε Unit)) := by
  apply attends_of (leads_timerExpired world)
  intro calibration present idle
  let fired := world.recalibrating (·.timerFired)
  have hpresent : fired.node.calibration = some calibration.timerFired := by
    simp [fired, present]
  rw [timerExpired, upon_get_bind, present]
  dsimp only
  rw [upon_bind_of_ok (updateCalibration_eq world _)]
  split
  · exact .inl (disturbs_timedBlink hpresent idle _ _ : fired.Disturbs _)
  · refine .inr ⟨id, .of_eq rfl, ?_⟩
    intro wanted hearing hfollows
    exact ⟨_, hpresent, hfollows.of_same rfl rfl rfl id⟩

/-! ## Creation, start and stop -/

/-- An instance that exists is not created again. -/
theorem attends_init (world : World ρ ε) (size : Nat) (master : UInt64) :
    Attends allowed world (world.upon (init size master : NodeM ρ ε Calibration)) := by
  apply attends_of_silent (leads_init world size master)
  intro calibration present _
  rw [init, upon_get_bind, present]
  dsimp only
  split <;> exact ⟨.of_eq rfl, calibration, present, rfl, rfl, rfl, id⟩

/-- A start begins the schedule anew, or fails. -/
theorem attends_start (world : World ρ ε) {mode : BlinkMode} (permitted : allowed (.start mode)) :
    Attends allowed world (world.upon (start mode : NodeM ρ ε Unit)) := by
  apply attends_of (leads_start world permitted)
  intro calibration present _
  unfold start
  rw [upon_bind_of_ok (requireCalibration_of_some world present)]
  refine .inl (upon_ask_bind (P := World.Disturbs world) world (fun time transfers radio ↦ ?_)
    fun failure transfers radio ↦ (fails_exchanging world failure transfers radio).disturbs)
  let asked := world.exchanging .readSystemTime ⟨.ok time, transfers⟩ radio
  have hasked : world.Disturbs asked :=
    ⟨_, rfl, fun uneventful ↦ uneventful.steady time (by simp [Happening.landmark?])⟩
  let logged := (asked.recalibrating (·.restart time mode)).noting
    (.log (.started calibration.config.startDelay))
  have hlogged : logged.history = asked.history ++ [_] := rfl
  have hscheduled : (logged.scheduling calibration.config.startDelay).history =
      logged.history ++ [_] := rfl
  exact (hasked.of_history hlogged).of_history hscheduled

omit [Radio ρ ε] in
theorem attends_stop (world : World ρ ε) :
    Attends allowed world (world.upon (stop : NodeM ρ ε Unit)) := by
  apply attends_of_silent (leads_stop world)
  intro calibration present _
  rw [upon_of_ok (stop_eq present)]
  refine ⟨⟨_, List.append_assoc _ _ _, fun hearing ↦ Hearing.through_of_isSilent ?_ hearing⟩,
    _, rfl, rfl, rfl, rfl, id⟩
  intro entry hentry
  rw [List.mem_append, List.mem_map, List.mem_singleton] at hentry
  rcases hentry with ⟨handle, -, rfl⟩ | rfl <;> trivial

/-! ## Records -/

theorem attends_deliver (world : World ρ ε) (record : Record) (sink : Sink) :
    Attends allowed world (world.upon (deliver record sink : NodeM ρ ε Unit)) := by
  refine upon_bind_of (R := Attends allowed) Attends.trans (attends_noting world trivial trivial)
    fun _ later _ ↦ ?_
  cases sink with
  | log => exact attends_noting later trivial trivial
  | observe => exact .refl later
  | blink =>
      refine upon_bind_of (R := Attends allowed) Attends.trans ?_
        fun _ latest _ ↦ attends_noting latest trivial trivial
      rw [upon_attempt]
      exact attends_blink later .nonBlocking
  | stop =>
      refine upon_bind_of (R := Attends allowed) Attends.trans ?_
        fun _ latest _ ↦ attends_noting latest trivial trivial
      rw [upon_attempt]
      exact attends_stop later

theorem attends_dispatch (world : World ρ ε) (event : Event) :
    Attends allowed world (world.upon (dispatch event : NodeM ρ ε Unit)) := by
  cases event with
  | timerExpired => exact attends_timerExpired world
  | postprocess direction index =>
      change Attends allowed world (world.upon (postprocess direction index))
      rw [postprocess, upon_get_bind]
      cases world.node.calibration with
      | none => exact .refl world
      | some calibration => exact attends_deliver world _ calibration.sink

omit [Radio ρ ε] in
theorem attends_surroundings (world : World ρ ε) (radio : ρ) (platform : Platform) :
    Attends allowed world { world with radio, platform } :=
  attends_of_eq (steps_of_reactions (.single (.surroundings radio platform))) (.of_eq rfl) rfl

theorem attends_drain (world : World ρ ε) :
    Attends allowed world (world.upon (drain : NodeM ρ ε (List (Except (Error ε) Unit)))) := by
  rw [drain, upon_get_bind]
  refine upon_mapM_of (R := Attends allowed) Attends.refl Attends.trans (fun event _ world ↦ ?_)
    world
  refine upon_bind_of (R := Attends allowed) Attends.trans
    (attends_surroundings world world.radio world.platform.dropOldest) fun _ later _ ↦ ?_
  rw [upon_attempt]
  exact attends_dispatch later event

omit [Radio ρ ε] in
theorem attends_setSink (world : World ρ ε) {sink : Sink} (permitted : allowed (.setSink sink)) :
    Attends allowed world (world.upon (setSink sink : NodeM ρ ε Unit)) := by
  apply attends_of_silent (leads_setSink world permitted)
  intro calibration present _
  rw [setSink, upon_discard_bind, upon_bind_of_ok (requireCalibration_of_some world present),
    upon_of_ok (updateCalibration_eq world _)]
  exact ⟨.of_eq rfl, calibration.withSink sink, congrArg (Option.map _) present, rfl, rfl, rfl,
    fun _ ↦ rfl⟩

end Node

namespace World

variable [Radio ρ ε] {allowed : Operation → Prop}

/-- Every operation attends. -/
theorem attends_after (world : World ρ ε) {operation : Operation} (permitted : allowed operation) :
    Attends allowed world (world.after operation) := by
  have hleads := leads_after world permitted
  rw [after_eq_upon] at hleads ⊢
  cases operation with
  | init size master => exact Node.attends_init world size master
  | start mode => exact Node.attends_start world permitted
  | stop => exact Node.attends_stop world
  | blink mode => exact Node.attends_blink world mode
  | poll => exact Node.attends_poll world
  | receptionInterrupt => exact Node.attends_receptionInterrupt world
  | transmissionInterrupt => exact Node.attends_transmissionInterrupt world
  | receptionComplete => exact Node.attends_receptionComplete world
  | transmissionComplete => exact Node.attends_transmissionComplete world
  | dispatch event => exact Node.attends_dispatch world event
  | drain => exact Node.attends_drain world
  | setCallbacks | elapse => exact attends_of_eq hleads (.of_eq rfl) rfl
  | setSink sink => exact Node.attends_setSink world permitted

/-- So does every run. -/
theorem Reaches.attends {start world : World ρ ε} (reached : Reaches allowed start world) :
    Attends allowed start world := by
  induction reached with
  | refl => exact .refl start
  | operation _ permitted ih => exact ih.trans (attends_after _ permitted)
  | surroundings _ radio platform ih => exact ih.trans (Node.attends_surroundings _ radio platform)

/-! ## Every run -/

/-- In a world in which no blink was ever attempted none is under way, and until a frame is
received the instance is as the beginning of its schedule left it. -/
def Unattempted (world : World ρ ε) : Prop :=
  ∀ calibration, world.node.calibration = some calibration →
    .attempted ∉ landmarks world.history →
    calibration.phase = .idle ∧ ∃ time since, Since (landmarks world.history) time since ∧
      (.received ∉ since → calibration.ring.index = 0 ∧ calibration.status.valid = false)

omit [Radio ρ ε] in
/-- Every step keeps it like that. -/
theorem Unattempted.step {world later : World ρ ε} (h : world.Unattempted)
    (step : Step allowed world later) : later.Unattempted := by
  intro calibration present unattempted
  cases step.moves with
  | absent before after => cases after.symm.trans present
  | created before valid sized after passed =>
      cases after.symm.trans present
      rw [passed]
      have hindex := FrameRing.index_of_ofSize? _ sized
      exact ⟨rfl, _, [], .began _ _, fun _ ↦ ⟨hindex, rfl⟩⟩
  | moved before after move history passed =>
      cases after.symm.trans present
      rw [history, landmarks_append, passed] at unattempted ⊢
      rw [List.mem_append, not_or] at unattempted
      obtain ⟨idle, time, since, hsince, hunheard⟩ := h _ before unattempted.1
      cases move with
      | manage quiet _ ring phase _ valid =>
          refine ⟨phase.trans idle, time, _, hsince.append ?_, ?_⟩
          · rcases quiet with rfl | rfl <;> simp
          · rw [List.mem_append, not_or, ring, valid]
            exact fun hreceived ↦ hunheard hreceived.1
      | restart _ time mode => exact ⟨idle, time, [], .began _ _, fun _ ↦ ⟨rfl, rfl⟩⟩
      | prepare => exact absurd (List.mem_singleton_self _) unattempted.2
      | time armed | release armed | reject armed | accept armed => cases idle.symm.trans armed
      | complete pending | close pending => cases idle.symm.trans pending
      | receive =>
          refine ⟨idle, time, _, hsince.append (by simp), ?_⟩
          intro hreceived
          exact absurd (List.mem_append_right _ (List.mem_singleton_self _)) hreceived
      | correct =>
          refine ⟨idle, time, _, hsince.append (by simp), ?_⟩
          rw [Option.toList_none, List.append_nil]
          exact hunheard

/-- From a world in which no blink was ever attempted and no frame was received since the
schedule began, the instance follows what is heard. -/
theorem Reaches.follows {config : Config} {address : UInt16} {radio : ρ} {platform : Platform}
    {origin : World ρ ε} {calibration : Calibration} {time : UInt64} {since : List Landmark}
    {wanted : Prop} (reached : Reaches allowed (.fresh config address radio platform) origin)
    (present : origin.node.calibration = some calibration)
    (began : Since (landmarks origin.history) time since) (unheard : .received ∉ since)
    (unattempted : .attempted ∉ landmarks origin.history)
    (hwanted : wanted → calibration.postprocess = true) : origin.node.Follows wanted {} := by
  have horigin : origin.Unattempted := reached.invariant (calm_fresh config address radio platform)
    (fun _ present ↦ nomatch present) fun h step ↦ h.step step
  obtain ⟨idle, _, _, hpassed, hfresh⟩ := horigin calibration present unattempted
  obtain ⟨-, rfl⟩ := hpassed.unique began
  obtain ⟨hindex, hvalid⟩ := hfresh unheard
  exact ⟨calibration, present, idle, .nil hindex, hvalid, nofun, fun h ↦ ⟨hwanted h, rfl⟩⟩

/-- **Receptions are recorded.**  Let a node be run, with any callbacks and sinks, so that no
blink is ever attempted, and take a world in which its instance wants events and no frame was
received since the schedule began.  As long as the schedule does not begin anew and the radio
does not fail, the index counts the frames that are accepted from there on; the events offered
to the queue are those of the second frame, the third and so on; and as long as at most
`size - 2` frames came after it, the record of a frame that was not the first tells its time of
reception, the time since the frame before, its sequence number and the correction factor that
its tracking registers amount to.  The frames are those that the receive callback accepts: a call
adds one with the header and the time that the radio tells then, and the carrier that it tells
next, or none if it does not accept what the radio has. -/
theorem receptions_recorded {config : Config} {address : UInt16} {radio : ρ} {platform : Platform}
    {origin world : World ρ ε} {calibration : Calibration} {time : UInt64}
    {since : List Landmark} {added : List (Entry ε)}
    (reached : Reaches (fun _ ↦ True) (.fresh config address radio platform) origin)
    (present : origin.node.calibration = some calibration)
    (wanted : calibration.postprocess = true)
    (began : Since (landmarks origin.history) time since) (unheard : .received ∉ since)
    (continued : Reaches (fun _ ↦ True) origin world)
    (history : world.history = origin.history ++ added)
    (unattempted : .attempted ∉ landmarks world.history)
    (steady : ∀ time, .began time ∉ landmarks added)
    (answered : ∀ entry ∈ added, ¬ entry.happening.Failed)
    (few : (receptions added).length < 2 ^ 32) :
    let frames := receptions added
    (∃ latest, world.node.calibration = some latest ∧
      latest.ring.index.toNat = frames.length ∧
      added.filterMap (·.happening.offered?) = (List.range' 2 (frames.length - 1)).map
        (fun number ↦ .postprocess .rx (.ofNat number)) ∧
      ∀ number previous frame, 2 ≤ number → frames.length - number ≤ latest.ring.size - 2 →
        frames[number - 2]? = some previous → frames[number - 1]? = some frame →
        ∃ record, Node.record? .rx (.ofNat number) world = some record ∧
          record.timestamp.toNat = frame.time.toNat % 2 ^ 40 ∧
          (record.delta.ticks.toNat : ℤ) =
            ((frame.time.toNat : ℤ) - previous.time.toNat) % 2 ^ 40 ∧
          frame.header.map (·.sequence) = some record.sequence ∧
          frame.correction? = some record.correction) ∧
    ∀ called : World ρ ε, ∃ heard,
      (called.upon Node.receptionComplete).history = called.history ++ heard ∧
      ((∃ bytes time frame, called.Accepts bytes time ∧
        frame.header = some (.ofBytes bytes) ∧ frame.time = time ∧
        (∀ correction, frame.correction? = some correction →
          Radio.correction?
            (Radio.through [.readReceiveBuffer 10 0, .readReceptionTime] called.radio) =
              some correction) ∧
        ∀ before, receptions (before ++ heard) = receptions before ++ [frame]) ∨
      (∀ bytes time, ¬ called.Accepts bytes time) ∧
        ∀ before, receptions (before ++ heard) = receptions before) := by
  intro frames
  refine ⟨?_, Node.receptions_receptionComplete⟩
  have hcalm := calm_fresh config address radio platform (ε := ε)
  rw [history, landmarks_append, List.mem_append, not_or] at unattempted
  have hstart : origin.node.Follows True {} :=
    reached.follows present began unheard unattempted.1 fun _ ↦ wanted
  obtain ⟨latest, hlatest, hfollows⟩ := continued.attends.follows (reached.leads hcalm).1 added
    history ⟨unattempted.2, steady, answered⟩ True {} hstart
  have hlength : frames.length = (({} : Hearing).through added).frames.length :=
    List.length_reverse
  refine ⟨latest, hlatest, ?_, ?_, ?_⟩
  · rw [hfollows.remembers.index, ← hlength, UInt32.toNat_ofNat_of_lt' few]
  · have hoffered := Hearing.offered_through {} added
    rw [(hfollows.announced trivial).2, Hearing.events, ← hlength] at hoffered
    exact hoffered.symm
  · intro number previous frame hnumber hage hprevious hframe
    have hlt : number - 1 < frames.length := (List.getElem?_eq_some_iff.mp hframe).1
    have hsize : 2 ≤ latest.ring.size := latest.ring.two_le_size
    change (receptions added)[number - 1]? = some frame at hframe
    change (receptions added)[number - 2]? = some previous at hprevious
    unfold receptions at hframe hprevious
    rw [List.getElem?_reverse (hlength ▸ hlt), ← hlength,
      show frames.length - 1 - (number - 1) = frames.length - number by omega] at hframe
    rw [List.getElem?_reverse (by omega), ← hlength,
      show frames.length - 1 - (number - 2) = frames.length - number + 1 by omega] at hprevious
    have hrecord := hfollows.record (hlength ▸ few) (by omega) hframe hprevious
      world.platform.uptime
    rw [← hlength, show frames.length - (frames.length - number) = number by omega] at hrecord
    exact ⟨_, by rw [Node.record?, hlatest, Option.map_some], hrecord⟩

/-- Of four frames one is no calibration frame and three come from the clock master. -/
theorem receptions_recorded_of_three_frames :
    let origin := (fresh { postprocess := true } 66 { systemTime := 5 } {} :
      World Radio.Scripted Radio.Failure).run [.init 3 0x0102030405060708]
    let hears (world : World Radio.Scripted Radio.Failure) (received : Bytes) (time : UInt64) :=
      World.after { world with radio := { received, receptionTime := time, trackingOffset := 3 } }
        .receptionInterrupt
    let world := hears (hears (hears (hears origin [0xc2, 7, 8, 7, 6, 5, 4, 3, 2, 1] 5000)
      [0xc5, 8, 8, 7, 6, 5, 4, 3, 2, 1] 6000) [0xc2, 9, 8, 7, 6, 5, 4, 3, 2, 1] 9000)
      [0xc2, 10, 8, 7, 6, 5, 4, 3, 2, 1] 1099511628000
    world.platform.queue = [.postprocess .rx 2, .postprocess .rx 3] ∧
    ∃ record, Node.record? .rx 3 world = some record ∧ record.timestamp.toNat = 224 ∧
      record.delta.ticks.toNat = 1099511619000 ∧ record.sequence = 10 ∧
      record.correction = Tracking.correction 0x01000000 3 := by
  intro origin hears world
  have hreached : Reaches (fun _ ↦ True)
      (.fresh { postprocess := true } 66 { systemTime := 5 } {}) origin :=
    Reaches.refl.run fun _ _ ↦ trivial
  have hhears {world : World Radio.Scripted Radio.Failure} (received : Bytes) (time : UInt64)
      (h : Reaches (fun _ ↦ True) origin world) :
      Reaches (fun _ ↦ True) origin (hears world received time) :=
    (h.surroundings _ _).operation trivial
  have hcontinued : Reaches (fun _ ↦ True) origin world :=
    hhears _ _ (hhears _ _ (hhears _ _ (hhears _ _ .refl)))
  have hadded := history_eq_append_drop
    (hcontinued.leads (hreached.leads (calm_fresh _ _ _ _)).1).2
  have horigin : landmarks origin.history = [.began 5] := by decide +kernel
  have hpassed : landmarks world.history = [.began 5, .received, .received, .received] := by
    decide +kernel
  have hpresent : origin.node.calibration.map (·.postprocess) = some true := by decide +kernel
  obtain ⟨calibration, present, wanted⟩ := Option.map_eq_some_iff.mp hpresent
  have hframes : receptions (world.history.drop origin.history.length) =
      [⟨some ⟨0xc2, 7, 0x0102030405060708⟩, 5000, none, none⟩,
        ⟨some ⟨0xc2, 9, 0x0102030405060708⟩, 9000, some 0x01000000, some 3⟩,
        ⟨some ⟨0xc2, 10, 0x0102030405060708⟩, 1099511628000, some 0x01000000, some 3⟩] := by
    decide +kernel
  have hbegan : Since (landmarks origin.history) 5 [] := horigin ▸ .began [] 5
  have hheard : landmarks (world.history.drop origin.history.length) =
      [.received, .received, .received] := by decide +kernel
  have hqueue : world.platform.queue = [.postprocess .rx 2, .postprocess .rx 3] := by
    decide +kernel
  obtain ⟨⟨latest, -, -, -, hrecords⟩, -⟩ := receptions_recorded hreached present wanted hbegan
    List.not_mem_nil hcontinued hadded (by simp [hpassed]) (by simp [hheard]) (by decide +kernel)
    (by simp [hframes])
  rw [hframes] at hrecords
  obtain ⟨record, hrecord, htimestamp, hdelta, hsequence, hcorrection⟩ :=
    hrecords 3 _ _ (by decide) (by simp) rfl rfl
  refine ⟨hqueue, record, hrecord, htimestamp, ?_, ?_, ?_⟩
  · exact Int.natCast_inj.mp hdelta
  · exact (Option.some.inj hsequence).symm
  · exact (Option.some.inj hcorrection).symm

end World

end ClockCalibration
