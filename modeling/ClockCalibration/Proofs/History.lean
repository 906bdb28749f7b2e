import ClockCalibration.Node.Basic

/-!
# Landmarks of a history

A history tells every exchange with the radio and every line of the log, but only
few of its entries bear on the broadcast.  Those are its landmarks: the schedule
begins at a system time, a blink is attempted, the radio is told its instant and
accepts or rejects it, the blink is sent, a frame is received.  What is said about
whole runs is said about the landmarks of their histories.

`Since course time since` cuts a course of landmarks at the last place where the
schedule began, so that "the number of attempts since the last start" is the count
of `attempted` in `since`.
-/

namespace ClockCalibration

variable {ε : Type}

/-! ## Landmarks -/

/-- Something in a history that bears on the broadcast. -/
inductive Landmark
  /-- The schedule began anew, at a system time. -/
  | began (systemTime : UInt64)
  /-- A blink was attempted: with none under way, its frame went to the radio. -/
  | attempted
  /-- The radio was told the instant of a blink. -/
  | timed
  /-- The radio accepted a blink. -/
  | accepted
  /-- The radio rejected a blink. -/
  | rejected
  /-- The radio, when polled, reported that a blink has left the antenna. -/
  | acknowledged
  /-- The completion of a blink was claimed, which moves the index on. -/
  | completed
  /-- A frame of the clock master was received, which moves the index on. -/
  | received
  deriving DecidableEq

/-- The landmark that a happening is, if it is one. -/
def Happening.landmark? : Happening ε → Option Landmark
  | .exchange .readSystemTime ⟨.ok systemTime, _⟩ => some (.began systemTime)
  | .exchange .readReceptionTime ⟨.ok _, _⟩ => some .received
  | .exchange (.writeTransmitBuffer _ _) _ => some .attempted
  | .exchange (.setDelayedStart _) _ => some .timed
  | .exchange .startTransmission ⟨.ok .started, _⟩ => some .accepted
  | .exchange .startTransmission ⟨.ok .rejected, _⟩ => some .rejected
  | .exchange .pollTransmission ⟨.ok .done, _⟩ => some .acknowledged
  | .log (.blinkSent _) => some .completed
  | _ => none

/-- A blink is accepted by the answer that its transmission was started. -/
theorem Happening.of_landmark?_accepted {happening : Happening ε}
    (h : happening.landmark? = some .accepted) :
    ∃ transfers, happening = .exchange .startTransmission ⟨.ok .started, transfers⟩ := by
  unfold landmark? at h
  split at h <;> cases h
  exact ⟨_, rfl⟩

/-- A blink is attempted by handing its frame to the radio. -/
theorem Happening.of_landmark?_attempted {happening : Happening ε}
    (h : happening.landmark? = some .attempted) :
    ∃ payload offset reply, happening = .exchange (.writeTransmitBuffer payload offset) reply := by
  unfold landmark? at h
  split at h <;> cases h
  exact ⟨_, _, _, rfl⟩

/-- The radio is told an instant by setting its delayed start. -/
theorem Happening.of_landmark?_timed {happening : Happening ε}
    (h : happening.landmark? = some .timed) :
    ∃ instant reply, happening = .exchange (.setDelayedStart instant) reply := by
  unfold landmark? at h
  split at h <;> cases h
  exact ⟨_, _, rfl⟩

/-- A frame is received by reading its time of reception. -/
theorem Happening.of_landmark?_received {happening : Happening ε}
    (h : happening.landmark? = some .received) :
    ∃ time transfers, happening = .exchange .readReceptionTime ⟨.ok time, transfers⟩ := by
  unfold landmark? at h
  split at h <;> cases h
  exact ⟨_, _, rfl⟩

/-- The completion of a blink is claimed by noting that it was sent. -/
theorem Happening.of_landmark?_completed {happening : Happening ε}
    (h : happening.landmark? = some .completed) :
    ∃ index, happening = .log (.blinkSent index) := by
  unfold landmark? at h
  split at h <;> cases h
  exact ⟨_, rfl⟩

/-- The landmarks of a history, in the order in which they happened. -/
def landmarks (history : List (Entry ε)) : List Landmark :=
  history.filterMap (·.happening.landmark?)

@[simp] theorem landmarks_nil : landmarks ([] : List (Entry ε)) = [] := rfl

@[simp] theorem landmarks_append (before after : List (Entry ε)) :
    landmarks (before ++ after) = landmarks before ++ landmarks after :=
  List.filterMap_append

/-- An entry adds the landmark that it is, if it is one. -/
@[simp] theorem landmarks_singleton (entry : Entry ε) :
    landmarks [entry] = entry.happening.landmark?.toList := by
  cases h : entry.happening.landmark? <;> simp [landmarks, h]

/-- What is passed with an entry is the landmark that it is, if it is one. -/
theorem landmark?_of_passed {history : List (Entry ε)} {entry : Entry ε}
    {landmark : Option Landmark}
    (passed : landmarks (history ++ [entry]) = landmarks history ++ landmark.toList) :
    entry.happening.landmark? = landmark := by
  rw [landmarks_append, landmarks_singleton] at passed
  have htold := List.append_cancel_left passed
  cases landmark <;> cases hlandmark : entry.happening.landmark? <;> simp_all

/-- An entry that is a landmark is passed before what comes after it. -/
theorem landmarks_cons {entry : Entry ε} {landmark : Landmark}
    (h : entry.happening.landmark? = some landmark) (after : List (Entry ε)) :
    landmarks (entry :: after) = landmark :: landmarks after :=
  List.filterMap_cons_some h

/-- What is passed in a history is passed with one of its entries. -/
theorem mem_landmarks {history : List (Entry ε)} {landmark : Landmark} :
    landmark ∈ landmarks history ↔
      ∃ entry ∈ history, entry.happening.landmark? = some landmark :=
  List.mem_filterMap

/-- Where a landmark was passed there is the entry that it was passed with. -/
theorem exists_entry_of_landmarks {history : List (Entry ε)} {earlier since : List Landmark}
    {landmark : Landmark} (h : landmarks history = earlier ++ landmark :: since) :
    ∃ before entry after, history = before ++ entry :: after ∧ landmarks before = earlier ∧
      entry.happening.landmark? = some landmark ∧ landmarks after = since := by
  obtain ⟨before, rest, rfl, hbefore, hrest⟩ := List.filterMap_eq_append_iff.mp h
  obtain ⟨silent, entry, after, rfl, hsilent, hentry, hafter⟩ :=
    List.filterMap_eq_cons_iff.mp hrest
  refine ⟨before ++ silent, entry, after, by simp, ?_, hentry, hafter⟩
  have hnone : landmarks silent = [] := List.filterMap_eq_nil_iff.mpr hsilent
  rw [landmarks_append, hnone, List.append_nil]
  exact hbefore

/-- A list with one more item is cut at that item or within the list. -/
theorem cut_snoc {α : Type} {items before after : List α} {last item : α}
    (h : items ++ [last] = before ++ item :: after) :
    (after = [] ∧ items = before ∧ last = item) ∨
      ∃ rest, after = rest ++ [last] ∧ items = before ++ item :: rest := by
  rcases List.eq_nil_or_concat after with rfl | ⟨rest, other, rfl⟩
  · obtain ⟨hitems, hlast⟩ := List.append_inj' h rfl
    exact .inl ⟨rfl, hitems, List.singleton_inj.mp hlast⟩
  · rw [List.concat_eq_append, ← List.cons_append, ← List.append_assoc] at h
    obtain ⟨hitems, hlast⟩ := List.append_inj' h rfl
    exact .inr ⟨rest, by rw [List.concat_eq_append, hlast], hitems⟩

/-- A list is cut in one way only at the last of the items of a kind. -/
theorem cut_unique {α : Type} {P : α → Prop} {earlier earlier' since since' : List α}
    {item item' : α} (h : earlier ++ item :: since = earlier' ++ item' :: since') (hitem : P item)
    (hitem' : P item') (hlast : ∀ other ∈ since, ¬ P other)
    (hlast' : ∀ other ∈ since', ¬ P other) :
    earlier = earlier' ∧ item = item' ∧ since = since' := by
  rcases List.append_eq_append_iff.mp h with ⟨gap, hearlier, hgap⟩ | ⟨gap, hearlier, hgap⟩
  · cases gap with
    | nil => simp_all
    | cons other gap =>
        rw [(List.cons.inj hgap).2] at hlast
        exact absurd hitem' (hlast _ (List.mem_append_right gap List.mem_cons_self))
  · cases gap with
    | nil => simp_all
    | cons other gap =>
        rw [(List.cons.inj hgap).2] at hlast'
        exact absurd hitem (hlast' _ (List.mem_append_right gap List.mem_cons_self))

/-- The instant that the radio is told by a happening, if it is told one. -/
def Happening.instant? : Happening ε → Option UInt64
  | .exchange (.setDelayedStart instant) _ => some instant
  | _ => none

/-- The instants that the radio was told, in the order in which it was told them. -/
def instants (history : List (Entry ε)) : List UInt64 :=
  history.filterMap (·.happening.instant?)

@[simp] theorem instants_append (before after : List (Entry ε)) :
    instants (before ++ after) = instants before ++ instants after :=
  List.filterMap_append

@[simp] theorem instants_singleton (entry : Entry ε) :
    instants [entry] = entry.happening.instant?.toList := by
  cases h : entry.happening.instant? <;> simp [instants, h]

/-- The event that is offered to the queue by a happening, if one is. -/
def Happening.offered? : Happening ε → Option Event
  | .enqueue event _ => some event
  | _ => none

/-- An event is offered to the queue by enqueuing it. -/
theorem Happening.of_offered? {happening : Happening ε} {event : Event}
    (h : happening.offered? = some event) : ∃ queued, happening = .enqueue event queued := by
  unfold offered? at h
  split at h <;> cases h
  exact ⟨_, rfl⟩

/-! ## What holds throughout a history -/

/-- Every entry of a history is as it should be, given the entries before it. -/
def Always (proper : List (Entry ε) → Entry ε → Prop) (history : List (Entry ε)) : Prop :=
  ∀ before entry after, history = before ++ entry :: after → proper before entry

namespace Always

variable {proper : List (Entry ε) → Entry ε → Prop} {history : List (Entry ε)}

theorem nil : Always proper [] := by
  intro before entry after h
  simp at h

/-- A history stays proper if an entry is added that is proper. -/
theorem snoc {entry : Entry ε} (h : Always proper history) (hentry : proper history entry) :
    Always proper (history ++ [entry]) := by
  intro before other after hsplit
  rcases cut_snoc hsplit with ⟨-, rfl, rfl⟩ | ⟨rest, -, hhistory⟩
  · exact hentry
  · exact h before other rest hhistory

end Always

/-! ## Blinks under way -/

/-- Whether the radio has a blink under way once a landmark is passed. -/
def Landmark.underway (before : Bool) : Landmark → Bool
  | accepted => true
  | acknowledged | completed => false
  | _ => before

/-- Whether the radio has accepted a blink that has not been completed since, neither
by its completion being claimed nor by a poll that acknowledged it. -/
def underway (course : List Landmark) : Bool := course.foldl Landmark.underway false

@[simp] theorem underway_snoc (course : List Landmark) (landmark : Landmark) :
    underway (course ++ [landmark]) = landmark.underway (underway course) := by
  rw [underway, List.foldl_append]
  rfl

/-! ## Since the schedule began -/

/-- The schedule last began at a system time, and the landmarks after that. -/
def Since (course : List Landmark) (time : UInt64) (since : List Landmark) : Prop :=
  (∀ other, .began other ∉ since) ∧ ∃ earlier, course = earlier ++ .began time :: since

namespace Since

variable {course since : List Landmark} {time : UInt64}

/-- Nothing has passed when the schedule begins. -/
theorem began (course : List Landmark) (time : UInt64) : Since (course ++ [.began time]) time [] :=
  ⟨fun _ ↦ List.not_mem_nil, course, rfl⟩

/-- What is passed without the schedule beginning belongs to the time since it did. -/
theorem extend {added : List Landmark} (h : Since course time since)
    (steady : ∀ other, .began other ∉ added) : Since (course ++ added) time (since ++ added) := by
  obtain ⟨hsince, earlier, rfl⟩ := h
  refine ⟨fun other hmem ↦ ?_, earlier, by simp⟩
  rcases List.mem_append.mp hmem with hmem | hmem
  · exact hsince other hmem
  · exact steady other hmem

/-- So does a single landmark. -/
theorem append {landmark : Option Landmark} (h : Since course time since)
    (hlandmark : ∀ other, landmark ≠ some (.began other)) :
    Since (course ++ landmark.toList) time (since ++ landmark.toList) :=
  h.extend fun other hmem ↦ hlandmark other (Option.mem_toList.mp hmem)

/-- A course that ends with a landmark was without it before. -/
theorem of_append {landmark : Landmark} (h : Since (course ++ [landmark]) time since)
    (hlandmark : ∀ other, landmark ≠ .began other) :
    ∃ earlier, since = earlier ++ [landmark] ∧ Since course time earlier := by
  obtain ⟨hsince, past, hcourse⟩ := h
  rcases cut_snoc hcourse with ⟨-, -, hlast⟩ | ⟨earlier, rfl, hpast⟩
  · exact absurd hlast (hlandmark time)
  · exact ⟨earlier, rfl, fun other hmem ↦ hsince other (List.mem_append_left _ hmem), past, hpast⟩

/-- A course tells in one way only when the schedule last began. -/
theorem unique {time' : UInt64} {since' : List Landmark} (h : Since course time since)
    (h' : Since course time' since') : time = time' ∧ since = since' := by
  obtain ⟨hsince, earlier, rfl⟩ := h
  obtain ⟨hsince', earlier', heq⟩ := h'
  obtain ⟨-, hbegan, rfl⟩ := cut_unique (P := fun landmark ↦ ∃ time, landmark = .began time) heq
    ⟨time, rfl⟩ ⟨time', rfl⟩ (fun other hmem ⟨time, hother⟩ ↦ hsince time (hother ▸ hmem))
    (fun other hmem ⟨time, hother⟩ ↦ hsince' time (hother ▸ hmem))
  exact ⟨Landmark.began.inj hbegan, rfl⟩

end Since

end ClockCalibration
