import ClockCalibration.Proofs.FrameRing
import ClockCalibration.Proofs.History
import ClockCalibration.Proofs.Time
import ClockCalibration.Tracking

/-!
# What a receiver hears

The history of a node that receives tells everything that it could know of the frames: the
headers that it asked for, the times of reception, the tracking registers, and the events
that it offered to its queue.  A `Hearing` gathers that from a history, entry by entry, and
knows nothing of rings and indices.

An instance `Follows` a hearing if what is left of it in the ring is what was heard: the
index counts the frames, and the frame of a given age, if not too many came after it, is in
the slot of its event.  Receiving a frame and correcting the clock by it keep this up.
-/

namespace ClockCalibration

variable {ε : Type}

/-! ## Hearings -/

/-- A frame that was accepted: the header that was read last before its time of reception,
that time, and the contents of the tracking registers if they were read after it. -/
structure Reception where
  header : Option BlinkHeader
  time : UInt64
  interval : Option UInt64 := none
  offset : Option UInt64 := none
  deriving DecidableEq

/-- The correction factor that the tracking registers amount to. -/
def Reception.correction? (reception : Reception) : Option Binary32 := do
  let interval ← reception.interval
  let offset ← reception.offset
  return Tracking.correction (Tracking.interval interval) (Tracking.offset offset)

/-- What a receiver has heard, and what it made known of it. -/
structure Hearing where
  /-- The header that was read last. -/
  header : Option BlinkHeader := none
  /-- The frames that were accepted, the latest first. -/
  frames : List Reception := []
  /-- The events that were offered to the queue, the latest last. -/
  offered : List Event := []

namespace Hearing

/-- What has been heard after a happening. -/
def after (hearing : Hearing) : Happening ε → Hearing
  | .exchange (.readReceiveBuffer _ _) ⟨.ok bytes, _⟩ =>
    { hearing with header := (Wire.decode bytes.toList).toOption.map Prod.fst }
  | .exchange .readReceptionTime ⟨.ok time, _⟩ =>
    { hearing with frames := ⟨hearing.header, time, none, none⟩ :: hearing.frames }
  | .exchange (.readRegister register _) ⟨.ok content, _⟩ =>
    if register = .trackingInterval then
      { hearing with
        frames := hearing.frames.modifyHead ({ · with interval := some content }) }
    else if register = .trackingOffset then
      { hearing with
        frames := hearing.frames.modifyHead ({ · with offset := some content }) }
    else hearing
  | .enqueue event _ => { hearing with offered := hearing.offered ++ [event] }
  | _ => hearing

/-- What has been heard after some more history. -/
def through (hearing : Hearing) (history : List (Entry ε)) : Hearing :=
  history.foldl (fun hearing entry ↦ hearing.after entry.happening) hearing

@[simp] theorem through_nil (hearing : Hearing) :
    hearing.through ([] : List (Entry ε)) = hearing := rfl

@[simp] theorem through_cons (hearing : Hearing) (entry : Entry ε) (history : List (Entry ε)) :
    hearing.through (entry :: history) = (hearing.after entry.happening).through history := rfl

@[simp] theorem through_append (hearing : Hearing) (before after : List (Entry ε)) :
    hearing.through (before ++ after) = (hearing.through before).through after :=
  List.foldl_append

/-- An event is heard of if it is offered. -/
theorem offered_after (hearing : Hearing) (happening : Happening ε) :
    (hearing.after happening).offered = hearing.offered ++ happening.offered?.toList := by
  unfold after
  split
  · exact (List.append_nil _).symm
  · exact (List.append_nil _).symm
  · split
    · exact (List.append_nil _).symm
    · split <;> exact (List.append_nil _).symm
  · rfl
  · next hother =>
    cases hoffered : happening.offered? with
    | none => exact (List.append_nil _).symm
    | some event =>
        obtain ⟨queued, rfl⟩ := Happening.of_offered? hoffered
        exact absurd rfl (hother event queued)

/-- The events that were offered are those that the history tells of. -/
theorem offered_through (hearing : Hearing) (history : List (Entry ε)) :
    (hearing.through history).offered =
      hearing.offered ++ history.filterMap (·.happening.offered?) := by
  induction history generalizing hearing with
  | nil => exact (List.append_nil _).symm
  | cons entry history ih =>
      rw [through_cons, ih, offered_after, List.append_assoc]
      cases hoffered : entry.happening.offered? <;> simp [hoffered]

/-- A hearing with what was read of the carrier of the latest frame. -/
def track (hearing : Hearing) (interval offset : Option UInt64) : Hearing :=
  { hearing with
    frames := hearing.frames.modifyHead fun frame ↦
      { frame with interval := interval.or frame.interval, offset := offset.or frame.offset } }

theorem track_none (hearing : Hearing) : hearing.track none none = hearing := by
  obtain ⟨header, frames, offered⟩ := hearing
  cases frames <;> rfl

theorem track_track (hearing : Hearing) (interval : UInt64) (offset : Option UInt64) :
    (hearing.track (some interval) none).track none offset =
      hearing.track (some interval) offset := by
  obtain ⟨header, frames, offered⟩ := hearing
  cases frames <;> rfl

/-- What a reply makes of a hearing is seen from the answer. -/
theorem after_exchange (hearing : Hearing) {call : Call} {reply : Reply ε call}
    {answer : Except ε call.Answer} (h : reply.answer = answer) :
    hearing.after (.exchange call reply) = hearing.after (.exchange call ⟨answer, []⟩) := by
  obtain ⟨answer, transfers⟩ := reply
  subst h
  cases answer <;> cases call <;> rfl

/-- The headers of the frames stay as they are until another frame is received. -/
theorem headers_after (hearing : Hearing) {happening : Happening ε}
    (h : happening.landmark? ≠ some .received) :
    (hearing.after happening).frames.map (·.header) = hearing.frames.map (·.header) := by
  unfold after
  split
  · rfl
  · exact absurd rfl h
  · split
    · cases hearing.frames <;> rfl
    · split
      · cases hearing.frames <;> rfl
      · rfl
  · rfl
  · rfl

/-- So they do throughout a stretch of history without a reception. -/
theorem headers_through (hearing : Hearing) {history : List (Entry ε)}
    (unheard : .received ∉ landmarks history) :
    (hearing.through history).frames.map (·.header) = hearing.frames.map (·.header) := by
  induction history generalizing hearing with
  | nil => rfl
  | cons entry history ih =>
      have hentry : entry.happening.landmark? ≠ some .received := fun received ↦
        unheard (mem_landmarks.mpr ⟨entry, List.mem_cons_self, received⟩)
      have hrest : .received ∉ landmarks history := fun hmem ↦ by
        obtain ⟨other, hother, received⟩ := mem_landmarks.mp hmem
        exact unheard (mem_landmarks.mpr ⟨other, List.mem_cons_of_mem entry hother, received⟩)
      rw [through_cons, ih _ hrest, headers_after hearing hentry]

/-- The events that a receiver makes known if every frame but the first is an event to it,
under the number of the frame. -/
def events (hearing : Hearing) : List Event :=
  (List.range' 2 (hearing.frames.length - 1)).map fun number ↦ .postprocess .rx (.ofNat number)

end Hearing

/-- The frames that were accepted in a history, in the order in which they were. -/
def receptions (history : List (Entry ε)) : List Reception :=
  (({} : Hearing).through history).frames.reverse

/-- A request that the radio failed to answer. -/
def Happening.Failed : Happening ε → Prop
  | .exchange _ ⟨.error _, _⟩ => True
  | _ => False

instance (happening : Happening ε) : Decidable happening.Failed :=
  match happening with
  | .exchange _ ⟨.error _, _⟩ => .isTrue trivial
  | .exchange _ ⟨.ok _, _⟩ | .schedule _ _ | .cancel _ | .enqueue _ _ | .log _ | .callback _
  | .sink _ _ | .sinkBlink _ | .sinkStop _ => .isFalse id

/-- A happening by which nothing is heard or made known. -/
def Happening.IsSilent : Happening ε → Prop
  | .exchange (.readReceiveBuffer _ _) _ | .exchange .readReceptionTime _
  | .exchange (.readRegister _ _) _ | .enqueue _ _ => False
  | _ => True

/-- Nothing is heard by it. -/
theorem Hearing.after_of_isSilent {happening : Happening ε} (silent : happening.IsSilent)
    (hearing : Hearing) : hearing.after happening = hearing := by
  unfold after
  split
  · exact silent.elim
  · exact silent.elim
  · exact silent.elim
  · exact silent.elim
  · rfl

/-- Nor is it by a silent stretch of history. -/
theorem Hearing.through_of_isSilent {history : List (Entry ε)}
    (silent : ∀ entry ∈ history, entry.happening.IsSilent) (hearing : Hearing) :
    hearing.through history = hearing := by
  induction history with
  | nil => rfl
  | cons entry history ih =>
      rw [through_cons, after_of_isSilent (silent entry List.mem_cons_self)]
      exact ih fun other hother ↦ silent other (List.mem_cons_of_mem entry hother)

/-! ## Rings that remember -/

/-- A slot holds what was heard of a frame. -/
structure Reception.Fills (reception : Reception) (slot : Frame) : Prop where
  header : reception.header = some slot.header
  /-- The time stamp is the time of reception, as far as the clock tells it. -/
  received : slot.received = (Instant.truncate reception.time).ticks
  /-- The correction factor is that of the tracking registers, if they were read. -/
  correction : ∀ correction, reception.correction? = some correction → slot.correction = correction

/-- A ring that counts the frames that were received, the latest first, and has in its slots
those that fit. -/
structure FrameRing.Remembers (ring : FrameRing) (frames : List Reception) : Prop where
  index : ring.index = .ofNat frames.length
  latest : ∀ frame, frames.head? = some frame → frame.Fills ring.current
  /-- The frame of an age less than the number of slots is in the slot of its event. -/
  fills : frames.length < 2 ^ 32 → ∀ age frame, age < ring.size → frames[age]? = some frame →
    frame.Fills (ring.get (.ofNat (frames.length - age)))

namespace FrameRing

variable {ring : FrameRing} {frames : List Reception}

/-- Two events that are less than a round of the ring apart have slots of their own. -/
theorem slot_ne_slot_sub (ring : FrameRing) {number gap : Nat} (small : number < 2 ^ 32)
    (hle : gap ≤ number) (hpos : 0 < gap) (hlt : gap < ring.size) :
    ring.slot (.ofNat number) ≠ ring.slot (.ofNat (number - gap)) := by
  intro hsame
  have hsmall : number - gap < 2 ^ 32 := by omega
  rw [slot, slot, UInt32.toNat_ofNat_of_lt' small, UInt32.toNat_ofNat_of_lt' hsmall] at hsame
  have hround : number - gap + gap ≡ number - gap + 0 [MOD ring.size] := by
    rw [Nat.sub_add_cancel hle]
    exact hsame
  have hdvd := Nat.modEq_zero_iff_dvd.mp (Nat.ModEq.add_left_cancel' _ hround)
  exact absurd (Nat.le_of_dvd hpos hdvd) (by omega)

/-- A ring that counts from zero remembers nothing. -/
theorem Remembers.nil (h : ring.index = 0) : ring.Remembers [] :=
  ⟨h, nofun, fun _ age frame _ hframe ↦ by simp at hframe⟩

/-- A frame that is put into the next slot is remembered with those before it. -/
theorem Remembers.receive (h : ring.Remembers frames) (header : BlinkHeader) (time : UInt64) :
    (ring.advance.modifyCurrent fun frame ↦
      { frame with header, received := (Instant.truncate time).ticks }).Remembers
        (⟨some header, time, none, none⟩ :: frames) := by
  have hindex : ring.advance.index = .ofNat (frames.length + 1) := by
    rw [index_advance, h.index, UInt32.ofNat_add]
    rfl
  refine ⟨hindex, ?_, ?_⟩
  · intro frame hframe
    obtain rfl := Option.some.inj hframe
    rw [current_modifyCurrent]
    exact ⟨rfl, rfl, nofun⟩
  rw [List.length_cons]
  intro hlength age frame hage hframe
  rw [size_modifyCurrent, size_advance] at hage
  rw [modifyCurrent, hindex, get_modifySlot, slot_advance, slot_advance, get_advance]
  cases age with
  | zero =>
      obtain rfl := Option.some.inj hframe
      rw [Nat.sub_zero, if_pos rfl]
      exact ⟨rfl, rfl, nofun⟩
  | succ age =>
      rw [List.getElem?_cons_succ] at hframe
      have hlt : age < frames.length := (List.getElem?_eq_some_iff.mp hframe).1
      have hslots := ring.slot_ne_slot_sub hlength (by omega : age + 1 ≤ frames.length + 1)
        (by omega) hage
      rw [if_neg hslots, Nat.add_sub_add_right]
      exact h.fills (by omega) age frame (by omega) hframe

/-- The correction factor that is put into the slot of the latest frame is remembered with it. -/
theorem Remembers.correct {reception corrected : Reception} {correction : Binary32}
    (h : ring.Remembers (reception :: frames)) (header : corrected.header = reception.header)
    (time : corrected.time = reception.time)
    (hcorrection : corrected.correction? = some correction) :
    (ring.modifyCurrent fun frame ↦ { frame with correction }).Remembers (corrected :: frames) := by
  have hfill {slot : Frame} (hfills : reception.Fills slot) :
      corrected.Fills { slot with correction } := by
    obtain ⟨hheader, hreceived, -⟩ := hfills
    refine ⟨header.trans hheader, time ▸ hreceived, ?_⟩
    intro other hother
    exact Option.some.inj (hcorrection.symm.trans hother)
  refine ⟨h.index, ?_, ?_⟩
  · intro frame hframe
    obtain rfl := Option.some.inj hframe
    rw [current_modifyCurrent]
    exact hfill (h.latest reception rfl)
  intro hlength age frame hage hframe
  rw [size_modifyCurrent] at hage
  have hfills := h.fills hlength age
  rw [modifyCurrent, h.index, get_modifySlot]
  simp only [List.length_cons] at hlength hfills ⊢
  cases age with
  | zero =>
      obtain rfl := Option.some.inj hframe
      have hfirst := hfills reception hage rfl
      rw [Nat.sub_zero] at hfirst ⊢
      rw [if_pos rfl]
      exact hfill hfirst
  | succ age =>
      have hlt : age < frames.length := by
        rw [List.getElem?_cons_succ] at hframe
        exact (List.getElem?_eq_some_iff.mp hframe).1
      have hslots := ring.slot_ne_slot_sub hlength (by omega : age + 1 ≤ frames.length + 1)
        (by omega) hage
      rw [if_neg hslots]
      exact hfills frame hage hframe

/-- The slot before that of an event that is not the first is the slot of the one before. -/
theorem getBefore_ofNat (ring : FrameRing) {number : Nat} (hpos : 0 < number)
    (small : number < 2 ^ 32) :
    ring.getBefore (.ofNat number) = ring.get (.ofNat (number - 1)) := by
  obtain ⟨earlier, rfl⟩ : ∃ earlier, number = earlier + 1 := ⟨number - 1, by omega⟩
  have hsmall : earlier < 2 ^ 32 := by omega
  have hslot : ring.slotBefore (.ofNat (earlier + 1)) = ring.slot (.ofNat earlier) := by
    rw [UInt32.ofNat_add]
    apply slotBefore_succ
    right
    rwa [UInt32.toNat_ofNat_of_lt' hsmall]
  simp only [getBefore, get, Nat.add_sub_cancel, hslot]

end FrameRing

/-! ## Instances that follow -/

namespace Calibration

/-- An instance that has been told all that was heard, and nothing else; if it is wanted to,
it has also made known every frame but the first. -/
structure Follows (calibration : Calibration) (wanted : Prop) (hearing : Hearing) : Prop where
  idle : calibration.phase = .idle
  remembers : calibration.ring.Remembers hearing.frames
  /-- The instance is valid once it has two frames. -/
  valid : calibration.status.valid = decide (1 < hearing.frames.length)
  /-- The tracking registers were read after every frame but the first. -/
  corrected : ∀ age frame, age + 1 < hearing.frames.length → hearing.frames[age]? = some frame →
    ∃ correction, frame.correction? = some correction
  /-- Every frame but the first was made known. -/
  announced : wanted → calibration.postprocess = true ∧ hearing.offered = hearing.events

namespace Follows

variable {calibration later : Calibration} {wanted : Prop} {hearing heard : Hearing}
variable {header : BlinkHeader} {time : UInt64}

/-- An instance that keeps its cycle and its ring follows as before. -/
theorem of_same (h : calibration.Follows wanted hearing) (phase : later.phase = calibration.phase)
    (ring : later.ring = calibration.ring) (valid : later.status.valid = calibration.status.valid)
    (postprocess : calibration.postprocess = true → later.postprocess = true) :
    later.Follows wanted hearing where
  idle := phase.trans h.idle
  remembers := ring ▸ h.remembers
  valid := valid.trans h.valid
  corrected := h.corrected
  announced hwanted := (h.announced hwanted).imp_left postprocess

/-- Nothing but the frames and the events matters. -/
theorem of_heard (h : calibration.Follows wanted hearing) (frames : heard.frames = hearing.frames)
    (offered : heard.offered = hearing.offered) : calibration.Follows wanted heard where
  idle := h.idle
  remembers := frames ▸ h.remembers
  valid := frames ▸ h.valid
  corrected := frames ▸ h.corrected
  announced hwanted := by
    rw [offered, Hearing.events, frames]
    exact h.announced hwanted

/-- A frame makes the instance valid if it is not the first. -/
theorem valid_receive (h : calibration.Follows wanted hearing) (header : BlinkHeader)
    (time : UInt64) :
    (calibration.receive header time).status.valid = decide (0 < hearing.frames.length) := by
  change (calibration.status.valid || decide (1 < calibration.ring.index + 1)) = _
  rw [h.valid, h.remembers.index]
  rcases Nat.lt_or_ge 1 hearing.frames.length with hmany | hfew
  · simp [hmany, Nat.lt_of_succ_lt hmany]
  · generalize hearing.frames.length = frames at hfew
    match frames, hfew with
    | 0, _ => rfl
    | 1, _ => rfl

/-- An instance that receives its first frame follows. -/
theorem first (h : calibration.Follows wanted hearing) (empty : hearing.frames = [])
    (frames : heard.frames = [⟨some header, time, none, none⟩])
    (offered : heard.offered = hearing.offered) :
    (calibration.receive header time).Follows wanted heard where
  idle := h.idle
  remembers := by
    rw [frames, ← empty]
    exact h.remembers.receive header time
  valid := by
    rw [h.valid_receive, empty, frames]
    rfl
  corrected := by
    intro age frame hage
    rw [frames] at hage
    exact absurd hage (by simp)
  announced hwanted := by
    obtain ⟨hpostprocess, hoffered⟩ := h.announced hwanted
    refine ⟨hpostprocess, offered.trans (hoffered.trans ?_)⟩
    rw [Hearing.events, Hearing.events, empty, frames]
    rfl

/-- So does one that receives another frame and corrects its clock by it. -/
theorem next {interval offset : UInt64} (h : calibration.Follows wanted hearing)
    (nonempty : hearing.frames ≠ [])
    (frames : heard.frames = ⟨some header, time, some interval, some offset⟩ :: hearing.frames)
    (offered : heard.offered = hearing.offered ++
      if calibration.postprocess then
        [.postprocess .rx (calibration.receive header time).ring.index]
      else []) :
    ((calibration.receive header time).correct
      (Tracking.correction (Tracking.interval interval) (Tracking.offset offset))).Follows
        wanted heard where
  idle := h.idle
  remembers := by
    rw [frames]
    exact (h.remembers.receive header time).correct rfl rfl rfl
  valid := by
    have hpos := List.length_pos_iff.mpr nonempty
    change (calibration.receive header time).status.valid = _
    rw [h.valid_receive, frames, List.length_cons]
    simp [hpos]
  corrected := by
    intro age frame hage hframe
    rw [frames] at hage hframe
    cases age with
    | zero =>
        obtain rfl := Option.some.inj hframe
        exact ⟨_, rfl⟩
    | succ age => exact h.corrected age frame (Nat.lt_of_succ_lt_succ hage) hframe
  announced hwanted := by
    obtain ⟨hpostprocess, hoffered⟩ := h.announced hwanted
    refine ⟨hpostprocess, offered.trans ?_⟩
    have hindex : (calibration.receive header time).ring.index =
        .ofNat (hearing.frames.length + 1) := by
      change calibration.ring.index + 1 = _
      rw [h.remembers.index, UInt32.ofNat_add]
      rfl
    have hpos := List.length_pos_iff.mpr nonempty
    rw [if_pos hpostprocess, hoffered, hindex, Hearing.events, Hearing.events, frames,
      List.length_cons, Nat.add_sub_cancel]
    obtain ⟨earlier, hlength⟩ : ∃ earlier, hearing.frames.length = earlier + 1 :=
      ⟨hearing.frames.length - 1, by omega⟩
    rw [hlength, Nat.add_sub_cancel, List.range'_concat, List.map_append,
      show 2 + 1 * earlier = earlier + 1 + 1 by omega]
    rfl

/-- The record of a frame that was not the first, while its slot and the one before are left. -/
theorem record (h : calibration.Follows wanted hearing) (few : hearing.frames.length < 2 ^ 32)
    {age : Nat} {frame previous : Reception} (within : age + 2 ≤ calibration.ring.size)
    (hframe : hearing.frames[age]? = some frame)
    (hprevious : hearing.frames[age + 1]? = some previous) (uptime : UInt32) :
    let record := calibration.record .rx uptime (.ofNat (hearing.frames.length - age))
    record.timestamp.toNat = frame.time.toNat % 2 ^ 40 ∧
      (record.delta.ticks.toNat : ℤ) = ((frame.time.toNat : ℤ) - previous.time.toNat) % 2 ^ 40 ∧
      frame.header.map (·.sequence) = some record.sequence ∧
      frame.correction? = some record.correction := by
  intro record
  have hlt : age + 1 < hearing.frames.length := (List.getElem?_eq_some_iff.mp hprevious).1
  have hfills := h.remembers.fills few age frame (by omega) hframe
  have hfills' := h.remembers.fills few (age + 1) previous (by omega) hprevious
  have hbefore : calibration.ring.getBefore (.ofNat (hearing.frames.length - age)) =
      calibration.ring.get (.ofNat (hearing.frames.length - (age + 1))) := by
    rw [FrameRing.getBefore_ofNat _ (by omega) (by omega), Nat.sub_sub]
  obtain ⟨correction, hcorrection⟩ := h.corrected age frame hlt hframe
  have htimestamp : record.timestamp.toNat = frame.time.toNat % 2 ^ 40 := by
    change (calibration.ring.get (.ofNat (hearing.frames.length - age))).received.toNat = _
    rw [hfills.received, Instant.toNat_truncate]
  refine ⟨htimestamp, ?_, ?_, ?_⟩
  · change ((Instant.since (.truncate _) (.truncate
      (calibration.ring.getBefore _).received)).ticks.toNat : ℤ) = _
    rw [Instant.toNat_since, hbefore, hfills'.received, Instant.toNat_truncate]
    change ((record.timestamp.toNat : ℤ) - _) % _ = _
    rw [htimestamp]
    omega
  · rw [hfills.header]
    rfl
  · rw [hcorrection, ← hfills.correction correction hcorrection]
    rfl

end Follows

end Calibration

end ClockCalibration
