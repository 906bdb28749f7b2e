import ClockCalibration.Proofs.Airing
import ClockCalibration.Proofs.Listening
import Mathlib.Data.List.Basic

/-!
# From one node to another

The blinks that a master puts on the air are lost or delivered to a listener, in the order in
which they were sent.  What the master and the listener have in common is the payload alone,
and of that the listener reads the first ten bytes: `Airing` says which header those are, and
`Listening` that it ends up in the slot of the event.

A `Delivery` is a run of the listener in which payloads are delivered one after the other.
Whatever else is done to it meanwhile, it receives nothing else.
-/

namespace ClockCalibration

variable {ρ ε : Type}

/-- The header that a receiver finds in a payload, if there is one. -/
def announced? (payload : Bytes) : Option BlinkHeader :=
  (Wire.decode (payload.take 10)).toOption.map Prod.fst

/-- The header of a blink on the air is told by its attempt. -/
theorem Broadcast.Conveys.announced? {address : UInt16} {broadcast : Broadcast}
    (h : broadcast.Conveys address) :
    announced? broadcast.payload = some (broadcast.header address) := by
  obtain ⟨-, frame, hpayload, hheader⟩ := h
  rw [ClockCalibration.announced?, hpayload, Wire.decode_take_encode_frame, ← hheader]
  rfl

namespace World

variable [Radio ρ ε] {allowed : Operation → Prop} {origin world later : World ρ ε}

/-! ## Delivered payloads -/

/-- The frame that the radio has received begins like this payload, if it can be read. -/
def Holds (world : World ρ ε) (payload : Bytes) : Prop :=
  ∀ bytes transfers radio,
    Radio.perform (.readReceiveBuffer (Wire.Packed.size BlinkHeader) 0) world.radio =
      (⟨.ok bytes, transfers⟩, radio) → bytes.toList = payload.take 10

/-- Payloads of a sender are delivered to a node that has it as its clock master, and nothing
else is received.  For each payload there is the header that was then found in the current
slot. -/
inductive Delivery (source : UInt64) (origin : World ρ ε) :
    List Bytes → List BlinkHeader → World ρ ε → Prop
  | /-- Nothing has been delivered yet. -/
    none : Delivery source origin [] [] origin
  | /-- Something else is done. -/
    meanwhile {payloads : List Bytes} {stored : List BlinkHeader} {world later : World ρ ε}
      {added : List (Entry ε)} (delivery : Delivery source origin payloads stored world)
      (reached : Reaches (fun _ ↦ True) world later)
      (history : later.history = world.history ++ added) (unheard : .received ∉ landmarks added) :
      Delivery source origin payloads stored later
  | /-- A payload is delivered. -/
    deliver {payloads : List Bytes} {stored : List BlinkHeader} {world : World ρ ε}
      {payload : Bytes} {calibration : Calibration}
      (delivery : Delivery source origin payloads stored world) (holds : world.Holds payload)
      (callback : world.node.onReception = some .reception)
      (trusted : world.node.clockMaster = anyMaster ∨ world.node.clockMaster = source)
      (present : (world.after .receptionInterrupt).node.calibration = some calibration) :
      Delivery source origin (payloads ++ [payload]) (stored ++ [calibration.ring.current.header])
        (world.after .receptionInterrupt)

/-- Deliveries are runs. -/
theorem Delivery.reaches {source : UInt64} {payloads : List Bytes} {stored : List BlinkHeader}
    (delivery : Delivery source origin payloads stored world) :
    Reaches (fun _ ↦ True) origin world := by
  induction delivery with
  | none => exact .refl
  | meanwhile _ reached _ _ ih => exact ih.trans reached
  | deliver _ _ _ _ _ ih => exact ih.operation trivial

/-! ## What becomes of a payload -/

/-- The reception interrupt calls the standard callback. -/
theorem after_receptionInterrupt (callback : world.node.onReception = some .reception) :
    world.after .receptionInterrupt =
      (world.noting (.callback .reception)).upon (Node.receptionComplete : NodeM ρ ε Bool) := by
  rw [after_eq_upon]
  change world.upon (Node.receptionInterrupt : NodeM ρ ε Bool) = _
  rw [Node.receptionInterrupt, upon_get_bind, callback]
  rfl

/-- What the radio reads of a payload that it holds is its header. -/
theorem Holds.announced? {payload : Bytes} (holds : world.Holds payload)
    {bytes : Vector UInt8 (Wire.Packed.size BlinkHeader)} {transfers : List Bus.Transfer}
    {radio : ρ}
    (hperform : Radio.perform (.readReceiveBuffer (Wire.Packed.size BlinkHeader) 0) world.radio =
      (⟨.ok bytes, transfers⟩, radio)) {header : BlinkHeader} {length : Nat}
    (hdecode : Wire.decode bytes.toList = .ok (header, length)) :
    ClockCalibration.announced? payload = some header := by
  rw [ClockCalibration.announced?, ← holds bytes transfers radio hperform, hdecode]
  rfl

/-- A calibration frame of a sender that the node trusts is accepted, unless the radio fails. -/
theorem receptionInterrupt_follows {payload : Bytes} {header : BlinkHeader}
    {calibration : Calibration} (present : world.node.calibration = some calibration)
    (holds : world.Holds payload) (callback : world.node.onReception = some .reception)
    (announced : announced? payload = some header) (kind : header.kind? = some .calibration)
    (trusted : world.node.trusts header.source = true) :
    (∃ change, Hears world (world.after .receptionInterrupt) change ∧
      (∀ wanted hearing, calibration.Follows wanted hearing →
        (world.after .receptionInterrupt).node.Follows wanted (change hearing)) ∧
      ∀ hearing : Hearing, ∃ frame,
        (change hearing).frames = frame :: hearing.frames ∧ frame.header = some header) ∨
    world.Fails (world.after .receptionInterrupt) := by
  rw [after_receptionInterrupt callback]
  have hnoted : Hears world (world.noting (.callback .reception)) id :=
    hears_noting world (.callback .reception)
  rcases Node.receptionComplete_follows (world.noting (.callback .reception)) present with
    ⟨other, bytes, transfers, radio, taken, later, change, hperform, hdecode, h, hheard, hfollows,
      haccepted⟩ | hfails
  · obtain rfl : other = header :=
      Option.some.inj ((holds.announced? hperform hdecode).symm.trans announced)
    rw [upon_of_ok h]
    exact .inl ⟨change, hnoted.trans hheard, hfollows, (haccepted kind trusted).2⟩
  · exact .inr (.of_hears hnoted hfails)

/-- A frame of a stranger leaves the node as it is, and also if the radio fails. -/
theorem receptionInterrupt_of_stranger {payload : Bytes} {header : BlinkHeader}
    (holds : world.Holds payload) (callback : world.node.onReception = some .reception)
    (announced : announced? payload = some header)
    (untrusted : world.node.trusts header.source = false) :
    (world.after .receptionInterrupt).node = world.node ∧
      (world.after .receptionInterrupt).platform = world.platform := by
  rw [after_receptionInterrupt callback]
  cases present : world.node.calibration with
  | none =>
      rw [Node.receptionComplete, upon_get_bind, node_noting, present]
      exact ⟨rfl, rfl⟩
  | some calibration =>
      rcases Node.receptionComplete_cases (world.noting (.callback .reception)) present with
        ⟨other, bytes, transfers, radio, heard, hperform, hdecode, rfl, h⟩ |
        ⟨error, failure, transfers, radio, h⟩
      · obtain rfl : other = header :=
          Option.some.inj ((holds.announced? hperform hdecode).symm.trans announced)
        rcases h with ⟨-, trusted, -⟩ | ⟨-, -, h⟩ | ⟨-, h⟩
        · cases untrusted.symm.trans trusted
        · rw [upon_of_ok h]
          exact ⟨rfl, rfl⟩
        · rw [upon_of_ok h]
          exact ⟨rfl, rfl⟩
      · rw [upon_of_error h]
        exact ⟨rfl, rfl⟩

/-- What is delivered without anything failing is accepted, and the current slot tells it. -/
theorem Delivery.heard {source : UInt64} {payloads : List Bytes} {stored : List BlinkHeader}
    (delivery : Delivery source origin payloads stored world) (calm : origin.Calm)
    (follows : origin.node.Follows False {})
    (conveyed : ∀ payload ∈ payloads, ∃ header, announced? payload = some header ∧
      header.kind? = some .calibration ∧ header.source = source)
    {added : List (Entry ε)} (history : world.history = origin.history ++ added)
    (uneventful : Uneventful added) :
    (({} : Hearing).through added).frames.map (·.header) = (stored.map some).reverse ∧
      payloads.map announced? = stored.map some := by
  induction delivery generalizing added with
  | none =>
      obtain rfl : added = [] := by simpa using history
      exact ⟨rfl, rfl⟩
  | meanwhile delivery _ hlater unheard ih =>
      obtain ⟨before, hbefore⟩ := history_of_steps (delivery.reaches.leads calm).2
      obtain rfl : added = before ++ _ := by
        rw [hlater, hbefore, List.append_assoc] at history
        exact (List.append_cancel_left history).symm
      obtain ⟨hheard, hstored⟩ := ih conveyed hbefore uneventful.of_append.1
      refine ⟨?_, hstored⟩
      rw [Hearing.through_append, Hearing.headers_through _ unheard, hheard]
  | @deliver payloads stored world payload latest delivery holds callback trusted present ih =>
      obtain ⟨calm', hsteps⟩ := delivery.reaches.leads calm
      obtain ⟨before, hbefore⟩ := history_of_steps hsteps
      obtain ⟨header, hannounced, kind, rfl⟩ :=
        conveyed payload (List.mem_append_right _ (List.mem_singleton_self _))
      have hrest : ∀ payload ∈ payloads, ∃ header, announced? payload = some header ∧ _ :=
        fun payload hmem ↦ conveyed payload (List.mem_append_left _ hmem)
      have htrusts : world.node.trusts header.source = true := by
        rcases trusted with h | h <;> simp [Node.trusts, h]
      have hleads : Leads (Step fun _ ↦ True) world (world.after .receptionInterrupt) :=
        leads_after world trivial
      obtain ⟨after, hafter⟩ := history_of_steps (hleads calm').2
      obtain rfl : added = before ++ after := by
        rw [hafter, hbefore, List.append_assoc] at history
        exact (List.append_cancel_left history).symm
      obtain ⟨hfirst, hsecond⟩ := uneventful.of_append
      obtain ⟨hheard, hstored⟩ := ih hrest hbefore hfirst
      obtain ⟨calibration, hpresent, hfollows⟩ :=
        delivery.reaches.attends.follows calm before hbefore hfirst False {} follows
      rcases receptionInterrupt_follows hpresent holds callback hannounced kind htrusts with
        ⟨change, ⟨_, hchanged, hchange⟩, hlater, hframe⟩ | ⟨_, hfailing, entry, hentry, hfailed⟩
      · obtain rfl := List.append_cancel_left (hchanged.symm.trans hafter)
        obtain ⟨_, hlatest, hremembers⟩ := hlater False _ hfollows
        cases present.symm.trans hlatest
        obtain ⟨frame, hframes, hheader⟩ := hframe (({} : Hearing).through before)
        have hfills := hremembers.remembers.latest frame (by rw [hframes]; rfl)
        have hcurrent : latest.ring.current.header = header :=
          Option.some.inj (hfills.header.symm.trans hheader)
        refine ⟨?_, ?_⟩
        · rw [Hearing.through_append, hchange, hframes, List.map_cons, hheard, hheader, hcurrent]
          simp
        · simp [hstored, hannounced, hcurrent]
      · obtain rfl := List.append_cancel_left (hfailing.symm.trans hafter)
        exact absurd hfailed (hsecond.answered entry hentry)

/-- A scripted radio holds what is in its receive buffer. -/
theorem holds_of_received {world : World Radio.Scripted Radio.Failure}
    (long : 10 ≤ world.radio.received.length) : world.Holds world.radio.received := by
  intro bytes transfers radio hperform
  change Radio.Scripted.perform _ _ = _ at hperform
  unfold Radio.Scripted.perform at hperform
  split at hperform
  · cases hperform
  · cases hperform
    apply List.ext_getElem
    · rw [Vector.length_toList, List.length_take_of_le long]
      rfl
    · intro i hi hlt
      have hin : i < world.radio.received.length :=
        (List.length_take ▸ hlt).trans_le (Nat.min_le_right _ _)
      simp [hin]

/-- A world after its scripted radio has reported that it received these bytes. -/
def hearing (world : World Radio.Scripted Radio.Failure) (received : Bytes) :
    World Radio.Scripted Radio.Failure :=
  World.after { world with radio := { received } } .receptionInterrupt

/-- That delivers them. -/
theorem Delivery.hearing {source : UInt64} {origin world : World Radio.Scripted Radio.Failure}
    {payloads : List Bytes} {stored : List BlinkHeader} {payload : Bytes} {latest : Calibration}
    (delivery : Delivery source origin payloads stored world) (long : 10 ≤ payload.length)
    (callback : world.node.onReception = some .reception)
    (trusted : world.node.clockMaster = source)
    (present : (world.hearing payload).node.calibration = some latest) :
    Delivery source origin (payloads ++ [payload]) (stored ++ [latest.ring.current.header])
      (world.hearing payload) := by
  have hmeanwhile : Delivery source origin payloads stored
      { world with radio := { received := payload } } :=
    delivery.meanwhile (Reaches.refl.surroundings _ world.platform) (List.append_nil _).symm
      List.not_mem_nil
  exact hmeanwhile.deliver (holds_of_received long) callback (.inr trusted) present

/-! ## Every run -/

variable {ρ' ε' : Type} [Radio ρ' ε']

/-- **Sequence gaps are visible end to end.**  However a master is run, let some of the blinks
that it has put on the air since its schedule began be delivered, in this order, to a listener
that has it as its clock master.  As long as the listener attempts no blink of its own, its
schedule does not begin anew and its radio does not fail, it accepts every delivered frame and
nothing else, its index counts them, and from one to the next the sequence number that it
stores goes on by the number of attempts that the master made.  A frame that is delivered to a
node with another clock master leaves that node as it is. -/
theorem sequence_gaps {config : Config} {address : UInt16} {radio : ρ} {platform : Platform}
    {master : World ρ ε}
    (reached : Reaches (fun _ ↦ True) (.fresh config address radio platform) master) :
    (∀ {config' : Config} {address' : UInt16} {radio' : ρ'} {platform' : Platform}
        {delivered : List Broadcast} {stored : List BlinkHeader} {origin listener : World ρ' ε'}
        {calibration : Calibration} {time : UInt64} {since : List Landmark}
        {added : List (Entry ε')},
      delivered.Sublist (broadcasts master.history) →
      Reaches (fun _ ↦ True) (.fresh config' address' radio' platform') origin →
      origin.node.calibration = some calibration → Since (landmarks origin.history) time since →
      .received ∉ since →
      Delivery address.toUInt64 origin (delivered.map (·.payload)) stored listener →
      listener.history = origin.history ++ added → .attempted ∉ landmarks listener.history →
      (∀ time, .began time ∉ landmarks added) → (∀ entry ∈ added, ¬ entry.happening.Failed) →
      ∃ latest, listener.node.calibration = some latest ∧
        latest.ring.index = .ofNat delivered.length ∧ stored.length = delivered.length ∧
        (receptions added).map (·.header) = stored.map some ∧
        ∀ number first second earlier later,
          delivered[number]? = some first → delivered[number + 1]? = some second →
          stored[number]? = some earlier → stored[number + 1]? = some later →
          first.attempt < second.attempt ∧
            later.sequence = earlier.sequence + .ofNat (second.attempt - first.attempt)) ∧
    (∀ broadcast ∈ broadcasts master.history, ∀ listener : World ρ' ε',
      listener.Holds broadcast.payload → listener.node.onReception = some .reception →
      listener.node.clockMaster ≠ anyMaster → listener.node.clockMaster ≠ address.toUInt64 →
      (listener.after .receptionInterrupt).node = listener.node ∧
        (listener.after .receptionInterrupt).platform = listener.platform) := by
  obtain ⟨hconveyed, hordered⟩ := reached.proper
  refine ⟨?_, ?_⟩
  · intro config' address' radio' platform' delivered stored origin listener calibration time since
      added sublist begun present began unheard delivery history unattempted steady answered
    have hcalm := calm_fresh config' address' radio' platform' (ε := ε')
    rw [history, landmarks_append, List.mem_append, not_or] at unattempted
    have huneventful : Uneventful added := ⟨unattempted.2, steady, answered⟩
    have hstart : origin.node.Follows False {} :=
      begun.follows present began unheard unattempted.1 False.elim
    have hdelivered : ∀ broadcast ∈ delivered, broadcast.Conveys address :=
      fun broadcast hmem ↦ (hconveyed broadcast (sublist.subset hmem)).2
    obtain ⟨hheard, hstored⟩ := delivery.heard (begun.leads hcalm).1 hstart
      (List.forall_mem_map.mpr fun broadcast hmem ↦ ⟨_, (hdelivered broadcast hmem).announced?,
        FrameControl.ofCode?_code .calibration, rfl⟩) history huneventful
    obtain ⟨latest, hlatest, hfollows⟩ := delivery.reaches.attends.follows (begun.leads hcalm).1
      added history huneventful False {} hstart
    have hheaders : stored = delivered.map (·.header address) := by
      apply List.map_injective_iff.mpr (Option.some_injective BlinkHeader)
      rw [← hstored, List.map_map, List.map_map]
      exact List.map_congr_left fun broadcast hmem ↦ (hdelivered broadcast hmem).announced?
    have hlength : (({} : Hearing).through added).frames.length = delivered.length := by
      rw [← List.length_map (·.header), hheard, hheaders]
      simp
    refine ⟨latest, hlatest, hlength ▸ hfollows.remembers.index, by simp [hheaders], ?_, ?_⟩
    · rw [receptions, List.map_reverse, hheard, List.reverse_reverse]
    · intro number first second earlier later hfirst hsecond hearlier hlater
      obtain rfl : first.header address = earlier := by simpa [hheaders, hfirst] using hearlier
      obtain rfl : second.header address = later := by simpa [hheaders, hsecond] using hlater
      have hlt : first.attempt < second.attempt := by
        obtain ⟨hnumber, rfl⟩ := List.getElem?_eq_some_iff.mp hfirst
        obtain ⟨hnext, rfl⟩ := List.getElem?_eq_some_iff.mp hsecond
        exact List.pairwise_iff_getElem.mp (hordered.sublist sublist) _ _ hnumber hnext
          (Nat.lt_succ_self number)
      have hpos := (hdelivered first (List.mem_of_getElem? hfirst)).1
      exact ⟨hlt, Broadcast.sequence_header address hpos hlt⟩
  · intro broadcast hmem listener holds callback hany hother
    refine receptionInterrupt_of_stranger holds callback
      (hconveyed broadcast hmem).2.announced? ?_
    have hstranger : (broadcast.header address).source ≠ listener.node.clockMaster := hother.symm
    simp [Node.trusts, hany, hstranger]

/-- Of three blinks the second is rejected, and the others are delivered. -/
theorem sequence_gaps_of_rejected_blink :
    let master := (fresh { period := 1000, latency := 100 } 66
      { systemTime := 1048576, starts := [.started, .rejected] } {} :
        World Radio.Scripted Radio.Failure).run
        [.init 3 anyMaster, .blink .blocking, .blink .blocking, .blink .blocking]
    let listener (clockMaster : UInt64) := (fresh {} 7 {} {} :
      World Radio.Scripted Radio.Failure).run [.init 2 clockMaster]
    ∃ first second earlier later latest,
      broadcasts master.history = [⟨1, first⟩, ⟨3, second⟩] ∧
      Delivery 66 (listener 66) [first, second] [earlier, later]
        (((listener 66).hearing first).hearing second) ∧
      (((listener 66).hearing first).hearing second).node.calibration = some latest ∧
      latest.ring.index = 2 ∧ later.sequence = earlier.sequence + 2 ∧
      ((listener 67).hearing first).node = (listener 67).node := by
  intro master listener
  let first : Bytes := [194, 0, 66, 0, 0, 0, 0, 0, 0, 0,
    0, 0, 248, 3, 0, 0, 0, 0, 0, 0, 0, 0, 0, 0, 0, 0, 0, 0, 128, 63]
  let second : Bytes := [194, 2, 66, 0, 0, 0, 0, 0, 0, 0,
    0, 0, 212, 9, 0, 0, 0, 0, 0, 0, 0, 0, 0, 0, 0, 0, 0, 0, 128, 63]
  have hmaster : Reaches (fun _ ↦ True) (.fresh { period := 1000, latency := 100 } 66
      { systemTime := 1048576, starts := [.started, .rejected] } {}) master :=
    Reaches.refl.run fun _ _ ↦ trivial
  have hlistener (clockMaster : UInt64) :
      Reaches (fun _ ↦ True) (.fresh {} 7 {} {}) (listener clockMaster) :=
    Reaches.refl.run fun _ _ ↦ trivial
  have hbroadcasts : broadcasts master.history = [⟨1, first⟩, ⟨3, second⟩] := by decide +kernel
  have honce : ((listener 66).hearing first).node.calibration.isSome := by decide +kernel
  have htwice : (((listener 66).hearing first).hearing second).node.calibration.isSome := by
    decide +kernel
  obtain ⟨calibration, hpresent⟩ := Option.isSome_iff_exists.mp honce
  obtain ⟨latest, hlatest⟩ := Option.isSome_iff_exists.mp htwice
  have hdelivery : Delivery 66 (listener 66) ([first] ++ [second])
      ([calibration.ring.current.header] ++ [latest.ring.current.header])
      (((listener 66).hearing first).hearing second) := by
    apply Delivery.hearing ?_ (by decide) (by decide +kernel) (by decide +kernel) hlatest
    exact Delivery.none.hearing (by decide) (by decide +kernel) (by decide +kernel) hpresent
  have hbegan : landmarks (listener 66).history = [.began 0] := by decide +kernel
  have hpassed : landmarks (((listener 66).hearing first).hearing second).history =
      [.began 0, .received, .received] := by decide +kernel
  have hadded := history_eq_append_drop
    (hdelivery.reaches.leads ((hlistener 66).leads (calm_fresh _ _ _ _)).1).2
  have hheard : landmarks ((((listener 66).hearing first).hearing second).history.drop
      (listener 66).history.length) = [.received, .received] := by decide +kernel
  have hbegun : (listener 66).node.calibration.isSome := by decide +kernel
  obtain ⟨_, present⟩ := Option.isSome_iff_exists.mp hbegun
  have hsince : Since (landmarks (listener 66).history) 0 [] := hbegan ▸ .began [] 0
  have hsublist : [⟨1, first⟩, ⟨3, second⟩].Sublist (broadcasts master.history) := by
    rw [hbroadcasts]
  obtain ⟨_, hother, hindex, -, -, hdifference⟩ := (sequence_gaps hmaster).1 hsublist
    (hlistener 66) present hsince List.not_mem_nil hdelivery hadded (by simp [hpassed])
    (by simp [hheard]) (by decide +kernel)
  obtain rfl := Option.some.inj (hlatest.symm.trans hother)
  let stranger : World Radio.Scripted Radio.Failure :=
    { listener 67 with radio := { received := first } }
  have hholds : stranger.Holds first := holds_of_received (by decide)
  obtain ⟨hsame, -⟩ := (sequence_gaps hmaster).2 ⟨1, first⟩ (by simp [hbroadcasts]) stranger hholds
    (by decide +kernel) (by decide +kernel) (by decide +kernel)
  exact ⟨first, second, _, _, latest, hbroadcasts, hdelivery, hlatest, hindex,
    (hdifference 0 _ _ _ _ rfl rfl rfl rfl).2, hsame⟩

end World

end ClockCalibration
