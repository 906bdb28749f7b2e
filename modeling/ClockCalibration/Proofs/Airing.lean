import ClockCalibration.Proofs.FrameRing
import ClockCalibration.Proofs.Run
import ClockCalibration.Proofs.Node.Trace
import ClockCalibration.Proofs.Wire.Layout
import Mathlib.Data.List.Induction

/-!
# What a master puts on the air

Every attempt of a blink hands a payload to the radio, and uses up a sequence number whatever
becomes of it.  Those that the radio accepts are on the air.  `broadcasts` gathers them from a
history together with the numbers of their attempts, entry by entry, and knows nothing of what
the payloads mean.

That the payload of the `n`th attempt since the schedule began is a calibration frame of the
node with sequence number `n - 1` holds in every run, also if the node receives frames of
others in between: those leave their headers in the slots that blinks are written to, but they
are calibration frames too, and the other fields of the header are overwritten.
-/

namespace ClockCalibration

variable {ρ ε : Type}

/-! ## Broadcasts -/

/-- A blink that is on the air. -/
structure Broadcast where
  /-- How many blinks had been attempted since the schedule began, this one included. -/
  attempt : Nat
  /-- What the radio was given to send. -/
  payload : Bytes
  deriving DecidableEq

/-- What has been put on the air since the schedule began. -/
structure Airing where
  attempts : Nat := 0
  /-- What the radio was last given to send. -/
  payload : Bytes := []
  /-- The blinks that the radio accepted, the latest last. -/
  broadcasts : List Broadcast := []

/-- What has been put on the air after a happening. -/
def Airing.after (airing : Airing) : Happening ε → Airing
  | .exchange .readSystemTime ⟨.ok _, _⟩ => {}
  | .exchange (.writeTransmitBuffer payload _) _ =>
    { airing with attempts := airing.attempts + 1, payload }
  | .exchange .startTransmission ⟨.ok .started, _⟩ =>
    { airing with broadcasts := airing.broadcasts ++ [⟨airing.attempts, airing.payload⟩] }
  | _ => airing

/-- What a history tells of what has been put on the air. -/
def airing (history : List (Entry ε)) : Airing :=
  history.foldl (fun airing entry ↦ airing.after entry.happening) {}

/-- The blinks that are on the air since the schedule last began, the latest last. -/
def broadcasts (history : List (Entry ε)) : List Broadcast := (airing history).broadcasts

@[simp] theorem airing_snoc (history : List (Entry ε)) (entry : Entry ε) :
    airing (history ++ [entry]) = (airing history).after entry.happening := by
  rw [airing, List.foldl_append]
  rfl

/-- What is neither a beginning, an attempt nor an acceptance puts nothing on the air. -/
theorem Airing.after_of_landmark? (airing : Airing) {happening : Happening ε}
    (hbegan : ∀ time, happening.landmark? ≠ some (.began time))
    (hattempted : happening.landmark? ≠ some .attempted)
    (haccepted : happening.landmark? ≠ some .accepted) : airing.after happening = airing := by
  unfold after
  split
  · exact absurd rfl (hbegan _)
  · exact absurd rfl hattempted
  · exact absurd rfl haccepted
  · rfl

/-- A beginning starts the count anew. -/
theorem Airing.after_of_began (airing : Airing) {happening : Happening ε} {time : UInt64}
    (h : happening.landmark? = some (.began time)) : airing.after happening = {} := by
  unfold Happening.landmark? at h
  split at h <;> cases h
  rfl

/-- An attempt is counted. -/
theorem Airing.attempts_after_of_attempted (airing : Airing) {happening : Happening ε}
    (h : happening.landmark? = some .attempted) :
    (airing.after happening).attempts = airing.attempts + 1 := by
  obtain ⟨payload, offset, reply, rfl⟩ := Happening.of_landmark?_attempted h
  rfl

/-- Nothing else is, unless the count starts anew. -/
theorem Airing.attempts_after (airing : Airing) {happening : Happening ε}
    (hbegan : ∀ time, happening.landmark? ≠ some (.began time))
    (hattempted : happening.landmark? ≠ some .attempted) :
    (airing.after happening).attempts = airing.attempts := by
  unfold after
  split
  · exact absurd rfl (hbegan _)
  · exact absurd rfl hattempted
  · rfl
  · rfl

/-- The attempts that are counted are those since the schedule began. -/
theorem attempts_airing {history : List (Entry ε)} {time : UInt64} {since : List Landmark}
    (h : Since (landmarks history) time since) :
    (airing history).attempts = since.count .attempted := by
  induction history using List.reverseRecOn generalizing since with
  | nil =>
      obtain ⟨-, earlier, hnone⟩ := h
      simp at hnone
  | append_singleton history entry ih =>
      rw [landmarks_append, landmarks_singleton] at h
      rw [airing_snoc]
      cases hlandmark : entry.happening.landmark? with
      | none =>
          rw [hlandmark, Option.toList_none, List.append_nil] at h
          rw [Airing.attempts_after _ (by simp [hlandmark]) (by simp [hlandmark]), ih h]
      | some landmark =>
          rw [hlandmark, Option.toList_some] at h
          by_cases hbegan : ∃ time', landmark = .began time'
          · obtain ⟨time', rfl⟩ := hbegan
            obtain ⟨-, rfl⟩ := h.unique (.began _ time')
            rw [Airing.after_of_began _ hlandmark]
            rfl
          · push Not at hbegan
            obtain ⟨earlier, rfl, hearlier⟩ := h.of_append hbegan
            rw [List.count_append, ← ih hearlier]
            by_cases hattempted : landmark = .attempted
            · subst hattempted
              exact Airing.attempts_after_of_attempted _ hlandmark
            · rw [Airing.attempts_after _ (by simpa [hlandmark] using hbegan)
                (by simpa [hlandmark] using hattempted),
                List.count_singleton, beq_false_of_ne hattempted]
              rfl

/-! ## What it says -/

/-- The header of the blink of an attempt: the first has sequence number zero. -/
def Broadcast.header (broadcast : Broadcast) (address : UInt16) : BlinkHeader :=
  ⟨FrameControl.calibration.code, .ofNat (broadcast.attempt - 1), address.toUInt64⟩

/-- The sequence number goes on by the number of attempts. -/
theorem Broadcast.sequence_header {first second : Broadcast} (address : UInt16)
    (hpos : 0 < first.attempt) (hlt : first.attempt < second.attempt) :
    (second.header address).sequence =
      (first.header address).sequence + .ofNat (second.attempt - first.attempt) := by
  change UInt8.ofNat (second.attempt - 1) = .ofNat (first.attempt - 1) + _
  rw [← UInt8.ofNat_add]
  congr 1
  omega

/-- A payload is a calibration frame with the header of its attempt. -/
def Broadcast.Conveys (broadcast : Broadcast) (address : UInt16) : Prop :=
  0 < broadcast.attempt ∧ ∃ frame : Frame,
    broadcast.payload = Wire.encode frame ∧ frame.header = broadcast.header address

/-- What has been put on the air was put there in turn, each with its own payload. -/
structure Airing.Proper (address : UInt16) (airing : Airing) : Prop where
  /-- Every blink on the air conveys its attempt. -/
  conveyed : ∀ broadcast ∈ airing.broadcasts,
    broadcast.attempt ≤ airing.attempts ∧ broadcast.Conveys address
  /-- Their attempts were made one after the other. -/
  ordered : airing.broadcasts.Pairwise (·.attempt < ·.attempt)

/-- An instance that numbers its blinks by their attempts. -/
structure Calibration.Airs (calibration : Calibration) (address : UInt16) (airing : Airing) :
    Prop where
  /-- There are only calibration frames in the ring. -/
  control : calibration.ring.All (·.header.control = FrameControl.calibration.code)
  /-- The next blink is numbered by how many came before it. -/
  sequence : calibration.sequence = .ofNat airing.attempts
  /-- A blink that is armed is the latest attempt, and not on the air yet. -/
  armed : calibration.phase = .armed →
    (Broadcast.mk airing.attempts airing.payload).Conveys address ∧
      ∀ broadcast ∈ airing.broadcasts, broadcast.attempt < airing.attempts

/-- There are only ever calibration frames in the ring. -/
theorem Move.control {node : Node} {calibration later : Calibration} {landmark : Option Landmark}
    (move : Move node calibration landmark later)
    (h : calibration.ring.All (·.header.control = FrameControl.calibration.code)) :
    later.ring.All (·.header.control = FrameControl.calibration.code) := by
  cases move with
  | manage _ _ ring => exact ring ▸ h
  | time | release | accept | complete | close => exact h
  | restart => exact (h.of_slots calibration.ring.get_resetIndex).modifySlot _ fun _ hframe ↦ hframe
  | prepare | reject | correct => exact h.modifySlot _ fun _ hframe ↦ hframe
  | receive _ header _ kind =>
      have hcode := FrameControl.ofCode?_eq_some_iff.mp kind
      exact (h.of_slots calibration.ring.get_advance).modifySlot _ fun _ _ ↦ hcode

/-! ## What it becomes -/

/-- At the beginning nothing has been put on the air. -/
theorem Airing.Proper.nil (address : UInt16) : Airing.Proper address {} := ⟨nofun, .nil⟩

/-- An attempt puts nothing on the air yet. -/
theorem Airing.Proper.attempt {address : UInt16} {airing : Airing} (h : airing.Proper address)
    (payload : Bytes) :
    { airing with attempts := airing.attempts + 1, payload }.Proper address where
  conveyed broadcast hmem := (h.conveyed broadcast hmem).imp_left Nat.le_succ_of_le
  ordered := h.ordered

namespace Calibration.Airs

variable {calibration later : Calibration} {address : UInt16} {airing : Airing}
variable (h : calibration.Airs address airing)

include h

/-- An instance goes on from what has been put on the air if nothing is added to that. -/
theorem move {node : Node} {landmark : Option Landmark}
    (move : Move node calibration landmark later)
    (hbegan : ∀ time, landmark ≠ some (.began time)) (hattempted : landmark ≠ some .attempted)
    (haccepted : landmark ≠ some .accepted) : later.Airs address airing := by
  have hcontrol := move.control h.control
  cases move with
  | restart _ time => exact absurd rfl (hbegan time)
  | prepare => exact absurd rfl hattempted
  | accept => exact absurd rfl haccepted
  | manage _ _ _ phase sequence =>
      exact ⟨hcontrol, sequence.trans h.sequence, fun armed ↦ h.armed (phase.symm.trans armed)⟩
  | time | receive | correct => exact ⟨hcontrol, h.sequence, h.armed⟩
  | release | reject | complete | close => exact ⟨hcontrol, h.sequence, nofun⟩

/-- An instance puts the next blink into a frame with its own header. -/
theorem header_prepare :
    (calibration.prepare address.toUInt64).ring.current.header =
      ⟨FrameControl.calibration.code, .ofNat airing.attempts, address.toUInt64⟩ := by
  have hcontrol := h.control calibration.ring.index
  simp only [Calibration.prepare, FrameRing.current_modifyCurrent]
  rw [FrameRing.current, hcontrol, h.sequence]

/-- An attempt is given the number that is next. -/
theorem prepare (proper : airing.Proper address) :
    (calibration.prepare address.toUInt64).Airs address
      { airing with
        attempts := airing.attempts + 1
        payload := Wire.encode (calibration.prepare address.toUInt64).ring.current } where
  control := h.control.modifySlot _ fun _ hframe ↦ hframe
  sequence := by
    change calibration.sequence + 1 = _
    rw [h.sequence, UInt8.ofNat_add]
    rfl
  armed := by
    intro _
    refine ⟨⟨Nat.succ_pos _, _, rfl, ?_⟩, ?_⟩
    · simpa only [Broadcast.header, Nat.add_sub_cancel] using h.header_prepare
    · intro broadcast hmem
      exact Nat.lt_succ_of_le (proper.conveyed broadcast hmem).1

/-- A blink that the radio accepts is the latest on the air. -/
theorem accept (proper : airing.Proper address) (armed : calibration.phase = .armed) :
    let latest := { airing with
      broadcasts := airing.broadcasts ++ [⟨airing.attempts, airing.payload⟩] }
    latest.Proper address ∧ calibration.accept.Airs address latest := by
  intro latest
  obtain ⟨hconveys, hlast⟩ := h.armed armed
  refine ⟨⟨?_, ?_⟩, ⟨h.control, h.sequence, nofun⟩⟩
  · intro broadcast hmem
    rcases List.mem_append.mp hmem with hmem | hmem
    · exact proper.conveyed broadcast hmem
    · rw [List.mem_singleton.mp hmem]
      exact ⟨Nat.le_refl _, hconveys⟩
  · rw [List.pairwise_append]
    refine ⟨proper.ordered, List.pairwise_singleton _ _, ?_⟩
    intro broadcast hmem other hother
    rw [List.mem_singleton.mp hother]
    exact hlast broadcast hmem

end Calibration.Airs

namespace World

variable {allowed : Operation → Prop} {world later : World ρ ε}

/-- A world whose history tells of broadcasts of a node with this address. -/
structure Airs (address : UInt16) (world : World ρ ε) : Prop where
  addressed : world.node.shortAddress = address
  proper : (airing world.history).Proper address
  /-- Its instance goes on from there. -/
  present : ∀ calibration, world.node.calibration = some calibration →
    calibration.Airs address (airing world.history)

/-- A node keeps its address. -/
theorem Step.shortAddress (step : Step allowed world later) :
    later.node.shortAddress = world.node.shortAddress := by
  cases step with
  | turn turn =>
      cases turn with
      | reaction _ step =>
          cases step with
          | close pending =>
              rw [node_updating, Node.closeCycle, if_pos pending]
          | _ => rfl
      | arming step => cases step <;> rfl
  | control _ step => cases step <;> rfl
  | callbacks => rfl

/-- A landmark that a step passes is passed with the entry that it adds. -/
theorem Step.entry_of_passed (step : Step allowed world later) {landmark : Option Landmark}
    (passed : landmarks later.history = landmarks world.history ++ landmark.toList) :
    landmark = none ∧ later.history = world.history ∨
      ∃ entry, later.history = world.history ++ [entry] ∧ entry.happening.landmark? = landmark := by
  rcases step.history with history | ⟨entry, history, -⟩
  · rw [history] at passed
    refine .inl ⟨?_, history⟩
    cases landmark with
    | none => rfl
    | some landmark => simp at passed
  · exact .inr ⟨entry, history, landmark?_of_passed (history ▸ passed)⟩

/-- Nothing is put on the air by a step that passes no landmark of it. -/
theorem Step.airing_eq (step : Step allowed world later) {landmark : Option Landmark}
    (passed : landmarks later.history = landmarks world.history ++ landmark.toList)
    (hbegan : ∀ time, landmark ≠ some (.began time)) (hattempted : landmark ≠ some .attempted)
    (haccepted : landmark ≠ some .accepted) : airing later.history = airing world.history := by
  rcases step.entry_of_passed passed with ⟨-, history⟩ | ⟨entry, history, rfl⟩
  · rw [history]
  · rw [history, airing_snoc]
    exact Airing.after_of_landmark? _ hbegan hattempted haccepted

/-- Everything is started anew by one that begins the schedule. -/
theorem Step.airing_of_began (step : Step allowed world later) {time : UInt64}
    (passed : landmarks later.history = landmarks world.history ++ [.began time]) :
    airing later.history = {} := by
  have hpassed : landmarks later.history =
      landmarks world.history ++ (some (Landmark.began time)).toList := passed
  obtain ⟨habsent, -⟩ | ⟨entry, history, hbegan⟩ := step.entry_of_passed hpassed
  · cases habsent
  · rw [history, airing_snoc]
    exact Airing.after_of_began _ hbegan

/-- Every step keeps what has been put on the air proper. -/
theorem Airs.step {address : UInt16} (h : world.Airs address) (step : Step allowed world later) :
    later.Airs address := by
  have haddressed := step.shortAddress.trans h.addressed
  cases step.moves with
  | absent before after idle passed =>
      have hair : airing later.history = airing world.history := by
        apply step.airing_eq passed <;> rcases idle with rfl | rfl <;> simp
      exact ⟨haddressed, hair ▸ h.proper, fun _ present ↦ by cases after.symm.trans present⟩
  | created before valid sized after passed =>
      have hair := step.airing_of_began passed
      refine ⟨haddressed, hair ▸ .nil address, fun _ present ↦ ?_⟩
      cases after.symm.trans present
      have hring := FrameRing.all_of_ofSize?
        (P := (·.header.control = FrameControl.calibration.code)) sized rfl
      rw [hair]
      exact ⟨hring.modifySlot _ fun _ hframe ↦ hframe, rfl, nofun⟩
  | @moved calibration calibration' landmark before after move added history passed =>
      have hpassed : landmarks later.history = landmarks world.history ++ landmark.toList := by
        rw [history, landmarks_append, passed]
      have hairs := h.present _ before
      have hcontrol := move.control hairs.control
      have hquiet (hbegan : ∀ time, landmark ≠ some (.began time))
          (hattempted : landmark ≠ some .attempted) (haccepted : landmark ≠ some .accepted) :
          later.Airs address := by
        have hair := step.airing_eq hpassed hbegan hattempted haccepted
        refine ⟨haddressed, hair ▸ h.proper, fun _ present ↦ ?_⟩
        cases after.symm.trans present
        exact hair ▸ hairs.move move hbegan hattempted haccepted
      cases move with
      | manage idle => apply hquiet <;> rcases idle with rfl | rfl <;> simp
      | time | release | reject | complete | close | receive | correct => apply hquiet <;> simp
      | restart calm time mode =>
          have hair := step.airing_of_began hpassed
          refine ⟨haddressed, hair ▸ .nil address, fun _ present ↦ ?_⟩
          cases after.symm.trans present
          exact hair ▸ ⟨hcontrol, rfl, fun armed ↦ absurd armed calm⟩
      | prepare idle =>
          obtain ⟨habsent, -⟩ | ⟨⟨phase, _⟩, hadded, hattempted⟩ := step.entry_of_passed hpassed
          · cases habsent
          obtain ⟨payload, offset, reply, rfl⟩ := Happening.of_landmark?_attempted hattempted
          obtain ⟨_, hpresent, -, -, rfl, -⟩ := step.tells hadded
          cases before.symm.trans hpresent
          obtain rfl := h.addressed
          have hair := (congrArg airing hadded).trans (airing_snoc _ _)
          refine ⟨haddressed, hair ▸ h.proper.attempt _, fun _ present ↦ ?_⟩
          cases after.symm.trans present
          exact hair ▸ hairs.prepare h.proper
      | accept armed =>
          obtain ⟨habsent, -⟩ | ⟨⟨phase, _⟩, hadded, haccepted⟩ := step.entry_of_passed hpassed
          · cases habsent
          obtain ⟨transfers, rfl⟩ := Happening.of_landmark?_accepted haccepted
          obtain ⟨hproper, hnext⟩ := hairs.accept h.proper armed
          have hair := (congrArg airing hadded).trans (airing_snoc _ _)
          refine ⟨haddressed, hair ▸ hproper, fun _ present ↦ ?_⟩
          cases after.symm.trans present
          exact hair ▸ hnext

/-- However a node is run, its history tells of its broadcasts. -/
theorem Reaches.airs [Radio ρ ε] {config : Config} {address : UInt16} {radio : ρ}
    {platform : Platform}
    (reached : Reaches allowed (.fresh config address radio platform) world) :
    world.Airs address := by
  apply reached.invariant (calm_fresh config address radio platform) ?_ Airs.step
  exact ⟨rfl, .nil address, fun _ present ↦ nomatch present⟩

/-- What it has put on the air is proper. -/
theorem Reaches.proper [Radio ρ ε] {config : Config} {address : UInt16} {radio : ρ}
    {platform : Platform}
    (reached : Reaches allowed (.fresh config address radio platform) world) :
    (airing world.history).Proper address :=
  reached.airs.proper

end World

end ClockCalibration
