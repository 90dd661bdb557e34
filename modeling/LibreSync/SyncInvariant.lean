import LibreSync.Sync

/-!
What a cursor promises. An entry carries items of content (`carries`); a device
that holds a usable cursor into a sender's history holds all the content of
every key the sender's next delta leaves out. `transit` says whether content
counts as held while it is in a delta on its way to the device.
-/

namespace LibreSync

variable {V σ α : Type}

section Content

variable (carries : Entry V → α → Prop)

def State.Holds (state : State V) (key : String) (item : α) : Prop :=
  ∃ entry, state.entries[key]? = some entry ∧ carries entry item

def Carried (entries : List (Entry V)) (key : String) (item : α) : Prop :=
  ∃ entry ∈ entries, entry.key = key ∧ carries entry item

namespace World

/-- The content is in a delta that `client` has sent and a live `listener` has yet to merge. -/
def InFlight (world : World V σ) (client listener key : String) (item : α) : Prop :=
  ∃ id session delta, world.sessions id = some session ∧ session.client = client ∧
    session.listener = listener ∧ session.phase = .merged delta ∧
    world.listenerAlive session ∧ Carried carries delta.entries key item

def Usable (world : World V σ) (sender : String) (cursor : PeerCursor) : Prop :=
  cursor.epoch = (world.state sender).epoch ∧ cursor.clock ≠ 0

variable (transit : Prop)

/-- What the sender's delta past `cursor` leaves out, the receiver holds or has in `extra`. -/
structure Covers (world : World V σ) (sender receiver : String) (cursor : PeerCursor)
    (extra : List (Entry V)) : Prop where
  bound : cursor.clock ≤ (world.state sender).sequence
  past : ∀ key item sequence, (world.state sender).sequences[key]? = some sequence →
    sequence ≤ cursor.clock → (world.state sender).origins[key]? ≠ some receiver →
      (world.state sender).Holds carries key item →
        (world.state receiver).Holds carries key item ∨ Carried carries extra key item
  attributed : ∀ key item, (world.state sender).origins[key]? = some receiver →
    (world.state sender).Holds carries key item →
      (world.state receiver).Holds carries key item ∨ Carried carries extra key item ∨
        transit ∧ world.InFlight carries sender receiver key item

structure Covered (world : World V σ) (sender receiver : String) (cursor : PeerCursor)
    (extra : List (Entry V)) : Prop where
  recorded : cursor.clock ≠ 0 → cursor.epoch ∈ world.epochs sender
  covers : world.Usable sender cursor → world.Covers carries transit sender receiver cursor extra

/-- The cursors an exchange carries promise the same as stored ones, to whoever is still there
to take them. -/
def SessionCovered (world : World V σ) (session : Session V) : Prop :=
  (session.client ≠ session.listener ∧ session.clientEpoch ∈ world.epochs session.client ∧
      session.listenerEpoch ∈ world.epochs session.listener) ∧
    match session.phase with
    | .requested cursor => world.clientAlive session →
        world.Covered carries transit session.listener session.client cursor []
    | .answered delta =>
        (world.clientAlive session →
          world.Covered carries transit session.listener session.client delta.cursor
            delta.entries) ∧
        (world.listenerAlive session →
          world.Covered carries transit session.client session.listener delta.acked [])
    | .merged delta => world.listenerAlive session →
        world.Covered carries transit session.client session.listener delta.cursor delta.entries

structure Synced (world : World V σ) : Prop where
  wellFormed : ∀ device, (world.state device).WellFormed
  idle : ∀ device, (world.state device).inboundOrigin = none
  current : ∀ device, (world.state device).epoch ∈ world.epochs device
  stored : ∀ sender receiver, sender ≠ receiver → world.Covered carries transit sender receiver
    ((world.state receiver).peerCursor sender) []
  sessions : ∀ id session, world.sessions id = some session →
    world.SessionCovered carries transit session

/-- Nothing lets `receiver` ask for less than the whole of what `sender` holds: its cursor is
unusable and it takes part in no exchange with `sender`. -/
def Untracked (world : World V σ) (sender receiver : String) : Prop :=
  ¬world.Usable sender ((world.state receiver).peerCursor sender) ∧
    ∀ id session, world.sessions id = some session →
      ¬(session.client = receiver ∧ session.listener = sender ∧ world.clientAlive session) ∧
        ¬(session.client = sender ∧ session.listener = receiver ∧ world.listenerAlive session)

end World

end Content

namespace World

@[simp] theorem setDevice_sessions (world : World V σ) (name : String) (device : Device V σ) :
    (world.setDevice name device).sessions = world.sessions := rfl

@[simp] theorem setSession_devices (world : World V σ) (id : Nat)
    (session : Option (Session V)) : (world.setSession id session).devices = world.devices := rfl

@[simp] theorem setSession_state (world : World V σ) (id : Nat) (session : Option (Session V))
    (name : String) : (world.setSession id session).state name = world.state name := rfl

theorem setSession_sessions (world : World V σ) (id query : Nat)
    (session : Option (Session V)) : (world.setSession id session).sessions query =
      if query = id then session else world.sessions query := by
  simp only [setSession, Function.update_apply]

@[simp] theorem setDevice_state_self (world : World V σ) (name : String) (device : Device V σ) :
    (world.setDevice name device).state name = device.state := by
  simp [state, setDevice]

theorem setDevice_state_ne (world : World V σ) {name other : String} (device : Device V σ)
    (distinct : other ≠ name) : (world.setDevice name device).state other = world.state other := by
  simp [state, setDevice, Function.update_of_ne distinct]

theorem setDevice_self (world : World V σ) (name : String) :
    world.setDevice name (world.devices name) = world := by
  simp only [setDevice, Function.update_eq_self]

theorem setDevice_setDevice (world : World V σ) (name : String) (first second : Device V σ) :
    (world.setDevice name first).setDevice name second = world.setDevice name second := by
  simp only [setDevice, Function.update_idem]

theorem setSession_setSession (world : World V σ) (id : Nat) (first second : Option (Session V)) :
    (world.setSession id first).setSession id second = world.setSession id second := by
  simp only [setSession, Function.update_idem]

theorem setDevice_epoch {world : World V σ} {name : String} {device : Device V σ}
    (same : device.state.epoch = (world.state name).epoch) (other : String) :
    ((world.setDevice name device).state other).epoch = (world.state other).epoch := by
  by_cases here : other = name
  · subst here
    rw [setDevice_state_self, same]
  · rw [setDevice_state_ne world device here]

end World

theorem State.resolveCursor_of_delta {state : State V} {cursor : PeerCursor}
    (served : state.isFullSnapshotRequest (state.resolveCursor cursor) = false) :
    state.resolveCursor cursor = cursor.clock ∧ cursor.epoch = state.epoch ∧ cursor.clock ≠ 0 := by
  by_cases known : cursor.epoch = state.epoch
  · have resolved : state.resolveCursor cursor = cursor.clock := if_pos known
    rw [resolved] at served
    simp only [State.isFullSnapshotRequest, Bool.or_eq_false_iff, decide_eq_false_iff_not] at served
    exact ⟨resolved, known, served.1⟩
  · have resolved : state.resolveCursor cursor = 0 := if_neg known
    rw [resolved] at served
    simp [State.isFullSnapshotRequest] at served

section Invariant

variable {carries : Entry V → α → Prop} {transit : Prop}

namespace World

/-- What may change under a cursor without breaking its promise. -/
theorem Covers.step {world after : World V σ} {sender receiver : String} {cursor : PeerCursor}
    {extra rest : List (Entry V)}
    (covers : world.Covers carries transit sender receiver cursor extra)
    (grows : (world.state sender).sequence ≤ (after.state sender).sequence)
    (writes : ∀ key,
      State.Untouched (world.state sender) (after.state sender) key ∨
        (∃ sequence, (after.state sender).sequences[key]? = some sequence ∧
          (world.state sender).sequence < sequence) ∧
        ((after.state sender).origins[key]? = some receiver →
          ∀ item, (after.state sender).Holds carries key item →
            (after.state receiver).Holds carries key item ∨ Carried carries rest key item ∨
              transit ∧ after.InFlight carries sender receiver key item))
    (gains : ∀ key item, (world.state receiver).Holds carries key item →
      (after.state receiver).Holds carries key item)
    (absorbed : ∀ key item, Carried carries extra key item →
      (after.state receiver).Holds carries key item ∨ Carried carries rest key item)
    (flights : transit → ∀ key item, (world.state sender).origins[key]? = some receiver →
      (world.state sender).Holds carries key item →
        world.InFlight carries sender receiver key item →
          (after.state receiver).Holds carries key item ∨
            after.InFlight carries sender receiver key item) :
    after.Covers carries transit sender receiver cursor rest where
  bound := covers.bound.trans grows
  past := by
    intro key item sequence found ordered foreign holds
    rcases writes key with same | ⟨⟨fresh, present, newer⟩, _⟩
    · rw [same.sequence] at found
      rw [same.origin] at foreign
      have before : (world.state sender).Holds carries key item := by
        simpa only [State.Holds, same.entry] using holds
      rcases covers.past key item sequence found ordered foreign before with held | carried
      · exact Or.inl (gains key item held)
      · exact absorbed key item carried
    · -- A key written since has a sequence past every cursor handed out before.
      have equal : fresh = sequence := Option.some.inj (present.symm.trans found)
      have bound := covers.bound
      omega
  attributed := by
    intro key item origin holds
    rcases writes key with same | ⟨_, known⟩
    · rw [same.origin] at origin
      have before : (world.state sender).Holds carries key item := by
        simpa only [State.Holds, same.entry] using holds
      rcases covers.attributed key item origin before with held | carried | ⟨allowed, flight⟩
      · exact Or.inl (gains key item held)
      · rcases absorbed key item carried with held | carried
        · exact Or.inl held
        · exact Or.inr (Or.inl carried)
      · rcases flights allowed key item origin before flight with held | flight
        · exact Or.inl held
        · exact Or.inr (Or.inr ⟨allowed, flight⟩)
    · exact known origin item holds

theorem covers_outbound {world : World V σ} {sender receiver : String} {cursor : PeerCursor}
    (valid : (world.state sender).WellFormed)
    (covered : world.Covered carries transit sender receiver cursor []) :
    world.Covers carries transit sender receiver (world.state sender).currentCursor
      ((world.state sender).outbound cursor receiver).1 := by
  have listed : ∀ key entry, (world.state sender).entries[key]? = some entry →
      entry ∈ (world.state sender).snapshot := fun key entry found =>
    BTreeMap.mem_valueList.mpr ⟨key, found⟩
  by_cases full : (world.state sender).isFullSnapshotRequest
      ((world.state sender).resolveCursor cursor) = true
  · have carried : ∀ key item, (world.state sender).Holds carries key item →
        Carried carries ((world.state sender).outbound cursor receiver).1 key item := by
      rintro key item ⟨entry, found, has⟩
      refine ⟨entry, ?_, valid.keyed key entry found, has⟩
      simpa only [State.outbound, full, if_true] using listed key entry found
    exact {
      bound := le_rfl
      past := fun key item _ _ _ _ holds => Or.inr (carried key item holds)
      attributed := fun key item _ holds => Or.inr (Or.inl (carried key item holds)) }
  · obtain ⟨resolved, used⟩ := State.resolveCursor_of_delta (Bool.not_eq_true _ ▸ full)
    have covers := covered.covers used
    refine ⟨le_rfl, ?_, ?_⟩
    · intro key item sequence found _ foreign holds
      by_cases received : sequence ≤ cursor.clock
      · rcases covers.past key item sequence found received foreign holds with held | ⟨_, none, _⟩
        · exact Or.inl held
        · simp at none
      · obtain ⟨entry, present, has⟩ := holds
        refine Or.inr ⟨entry, ?_, valid.keyed key entry present, has⟩
        simp only [State.outbound, full, State.deltaSince, Bool.false_eq_true, if_false,
          List.mem_map, List.mem_filter, Prod.exists, exists_eq_right]
        refine ⟨key, Std.ExtTreeMap.mem_toList_iff_getElem?_eq_some.mpr present, ?_⟩
        simp only [State.inDelta, found, Option.getD_some, resolved, Bool.and_eq_true,
          decide_eq_true_eq]
        exact ⟨not_le.mp received, foreign⟩
    · intro key item origin holds
      rcases covers.attributed key item origin holds with held | ⟨_, none, _⟩ | flight
      · exact Or.inl held
      · simp at none
      · exact Or.inr (Or.inr flight)

theorem outbound_reaches {world : World V σ} {sender receiver : String} {cursor : PeerCursor}
    (valid : (world.state sender).WellFormed)
    (covered : world.Covered carries transit sender receiver cursor [])
    {key : String} {item : α} (held : (world.state sender).Holds carries key item) :
    (world.state receiver).Holds carries key item ∨
      Carried carries ((world.state sender).outbound cursor receiver).1 key item ∨
        transit ∧ world.InFlight carries sender receiver key item := by
  have covers := covers_outbound valid covered
  by_cases attributed : (world.state sender).origins[key]? = some receiver
  · exact covers.attributed key item attributed held
  · obtain ⟨entry, present, has⟩ := held
    obtain ⟨sequence, numbered⟩ := valid.sequenced key entry present
    rcases covers.past key item sequence numbered (valid.numbered key sequence numbered) attributed
      ⟨entry, present, has⟩ with there | carried
    · exact Or.inl there
    · exact Or.inr (Or.inl carried)

variable {world : World V σ}

theorem setDevice_alive {name : String} {device : Device V σ}
    (same : device.state.epoch = (world.state name).epoch) (session : Session V) :
    ((world.setDevice name device).clientAlive session ↔ world.clientAlive session) ∧
      ((world.setDevice name device).listenerAlive session ↔ world.listenerAlive session) := by
  simp only [clientAlive, listenerAlive, setDevice_epoch same, and_self]

theorem setDevice_usable {name : String} {device : Device V σ}
    (same : device.state.epoch = (world.state name).epoch) (sender : String) (cursor : PeerCursor) :
    (world.setDevice name device).Usable sender cursor ↔ world.Usable sender cursor := by
  simp only [Usable, setDevice_epoch same]

theorem InFlight.setDevice {name client listener key : String} {device : Device V σ} {item : α}
    (flight : world.InFlight carries client listener key item)
    (same : device.state.epoch = (world.state name).epoch) :
    (world.setDevice name device).InFlight carries client listener key item := by
  obtain ⟨id, session, delta, found, sent, taken, phase, live, has⟩ := flight
  have alive := (setDevice_alive same session).2.mpr live
  exact ⟨id, session, delta, found, sent, taken, phase, alive, has⟩

theorem holds_setDevice {name : String} {device : Device V σ}
    (gains : ∀ key item, (world.state name).Holds carries key item →
      device.state.Holds carries key item)
    (other key : String) (item : α) (held : (world.state other).Holds carries key item) :
    ((world.setDevice name device).state other).Holds carries key item := by
  by_cases here : other = name
  · subst here
    rw [setDevice_state_self]
    exact gains key item held
  · rw [setDevice_state_ne world device here]
    exact held

/-- What one device may change: writes that lose nothing, and attribute to a peer what it has. -/
structure DeviceChange (carries : Entry V → α → Prop) (transit : Prop) (world : World V σ)
    (name : String) (device : Device V σ) (origin : Option String) : Prop where
  writes : State.Writes origin (world.state name) device.state
  below : device.state.sequence < u64Max
  gains : ∀ key item, (world.state name).Holds carries key item →
    device.state.Holds carries key item
  known : ∀ peer, peer ≠ name → origin = some peer → world.Untracked name peer ∨
    ∀ key, State.Touched origin (world.state name) device.state key →
      ∀ item, device.state.Holds carries key item →
        (world.state peer).Holds carries key item ∨
          transit ∧ world.InFlight carries name peer key item

section DeviceChange

variable {name : String} {device : Device V σ} {origin : Option String}

theorem Covers.setDevice {sender receiver : String} {cursor : PeerCursor} {extra : List (Entry V)}
    (covers : world.Covers carries transit sender receiver cursor extra)
    (change : world.DeviceChange carries transit name device origin) (distinct : sender ≠ receiver)
    (tracked : sender = name → ¬world.Untracked name receiver) :
    (world.setDevice name device).Covers carries transit sender receiver cursor extra := by
  have same := change.writes.epoch
  refine covers.step ?_ ?_ (holds_setDevice change.gains receiver) (fun key item => Or.inr)
    (fun _ key item _ _ flight => Or.inr (flight.setDevice same))
  · by_cases here : sender = name
    · subst here
      rw [setDevice_state_self]
      exact change.writes.grows change.below
    · rw [setDevice_state_ne world device here]
  · intro key
    by_cases here : sender = name
    · subst here
      rw [setDevice_state_self]
      rcases change.writes.keys change.below key with untouched | touched
      · exact Or.inl untouched
      · obtain ⟨sequence, found, fresh, -⟩ := touched.fresh
        refine Or.inr ⟨⟨sequence, found, fresh⟩, ?_⟩
        intro attributed item held
        rw [touched.origin] at attributed
        rcases change.known receiver distinct.symm attributed with untracked | elsewhere
        · exact absurd untracked (tracked rfl)
        · rw [setDevice_state_ne world device distinct.symm]
          rcases elsewhere key touched item held with held | ⟨allowed, flight⟩
          · exact Or.inl held
          · exact Or.inr (Or.inr ⟨allowed, flight.setDevice same⟩)
    · rw [setDevice_state_ne world device here]
      exact Or.inl (State.Untouched.refl _ _)

theorem Covered.setDevice {sender receiver : String} {cursor : PeerCursor}
    {extra : List (Entry V)} (covered : world.Covered carries transit sender receiver cursor extra)
    (change : world.DeviceChange carries transit name device origin) (distinct : sender ≠ receiver)
    (tracked : sender = name → world.Untracked name receiver → ¬world.Usable sender cursor) :
    (world.setDevice name device).Covered carries transit sender receiver cursor extra := by
  refine ⟨covered.recorded, fun here => ?_⟩
  have used := (setDevice_usable change.writes.epoch sender cursor).mp here
  exact (covered.covers used).setDevice change distinct
    fun same untracked => tracked same untracked used

theorem SessionCovered.setDevice {id : Nat} {session : Session V}
    (covered : world.SessionCovered carries transit session)
    (change : world.DeviceChange carries transit name device origin)
    (found : world.sessions id = some session) :
    (world.setDevice name device).SessionCovered carries transit session := by
  obtain ⟨⟨distinct, tags⟩, phase⟩ := covered
  obtain ⟨asClient, asListener⟩ := setDevice_alive change.writes.epoch session
  refine ⟨⟨distinct, tags⟩, ?_⟩
  -- An exchange in progress with a live party is one that `Untracked` rules out.
  have toClient : ∀ cursor extra, world.clientAlive session →
      world.Covered carries transit session.listener session.client cursor extra →
        (world.setDevice name device).Covered carries transit session.listener session.client
          cursor extra := by
    intro cursor extra live before
    refine before.setDevice change distinct.symm fun here untracked => ?_
    exact absurd ⟨rfl, here, live⟩ (untracked.2 id session found).1
  have toListener : ∀ cursor extra, world.listenerAlive session →
      world.Covered carries transit session.client session.listener cursor extra →
        (world.setDevice name device).Covered carries transit session.client session.listener
          cursor extra := by
    intro cursor extra live before
    refine before.setDevice change distinct fun here untracked => ?_
    exact absurd ⟨here, rfl, live⟩ (untracked.2 id session found).2
  revert phase
  cases session.phase with
  | requested cursor =>
      intro phase live
      exact toClient _ _ (asClient.mp live) (phase (asClient.mp live))
  | answered delta =>
      intro phase
      refine ⟨fun live => ?_, fun live => ?_⟩
      · exact toClient _ _ (asClient.mp live) (phase.1 (asClient.mp live))
      · exact toListener _ _ (asListener.mp live) (phase.2 (asListener.mp live))
  | merged delta =>
      intro phase live
      exact toListener _ _ (asListener.mp live) (phase (asListener.mp live))

end DeviceChange

theorem Synced.setDevice (synced : world.Synced carries transit) (name : String)
    (device : Device V σ) {origin : Option String}
    (writes : State.Writes origin (world.state name) device.state)
    (below : device.state.sequence < u64Max) (valid : device.state.WellFormed)
    (gains : ∀ key item, (world.state name).Holds carries key item →
      device.state.Holds carries key item)
    (known : ∀ peer, peer ≠ name → origin = some peer → world.Untracked name peer ∨
      ∀ key, State.Touched origin (world.state name) device.state key →
        ∀ item, device.state.Holds carries key item →
          (world.state peer).Holds carries key item ∨
            transit ∧ world.InFlight carries name peer key item) :
    (world.setDevice name device).Synced carries transit := by
  have change : world.DeviceChange carries transit name device origin :=
    ⟨writes, below, gains, known⟩
  refine ⟨?_, ?_, fun other => (setDevice_epoch writes.epoch other) ▸ synced.current other, ?_,
    fun id session found => (synced.sessions id session found).setDevice change found⟩
  · intro other
    by_cases here : other = name
    · subst here
      rwa [setDevice_state_self]
    · rw [setDevice_state_ne world device here]
      exact synced.wellFormed other
  · intro other
    by_cases here : other = name
    · subst here
      rw [setDevice_state_self, writes.inboundOrigin]
      exact synced.idle other
    · rw [setDevice_state_ne world device here]
      exact synced.idle other
  · intro sender receiver distinct
    have cursor : ((world.setDevice name device).state receiver).peerCursor sender =
        (world.state receiver).peerCursor sender := by
      by_cases here : receiver = name
      · subst here
        rw [setDevice_state_self]
        simp only [State.peerCursor, writes.peerCursors]
      · rw [setDevice_state_ne world device here]
    rw [cursor]
    refine (synced.stored sender receiver distinct).setDevice change distinct ?_
    rintro rfl untracked
    exact untracked.1

theorem Synced.setPeerCursor (synced : world.Synced carries transit) (name peer : String)
    (device : Device V σ) {cursor : PeerCursor}
    (same : device.state = (world.state name).setPeerCursor peer cursor)
    (promised : world.Covered carries transit peer name cursor []) :
    (world.setDevice name device).Synced carries transit := by
  have epoch : device.state.epoch = (world.state name).epoch := by
    rw [same]
    rfl
  have untouched : ∀ other key, State.Untouched (world.state other)
      ((world.setDevice name device).state other) key := by
    intro other key
    by_cases here : other = name
    · subst here
      rw [setDevice_state_self, same]
      exact ⟨rfl, rfl, rfl⟩
    · rw [setDevice_state_ne world device here]
      exact State.Untouched.refl _ _
  have holds : ∀ other key item, (world.state other).Holds carries key item →
      ((world.setDevice name device).state other).Holds carries key item := by
    rintro other key item ⟨entry, found, has⟩
    exact ⟨entry, (untouched other key).entry.trans found, has⟩
  have covered : ∀ sender receiver cursor extra,
      world.Covered carries transit sender receiver cursor extra →
        (world.setDevice name device).Covered carries transit sender receiver cursor extra := by
    intro sender receiver cursor extra before
    refine ⟨before.recorded, fun usable => ?_⟩
    have used := (setDevice_usable epoch sender cursor).mp usable
    refine (before.covers used).step ?_ (fun key => Or.inl (untouched sender key))
      (holds receiver) (fun key item => Or.inr)
      (fun _ key item _ _ flight => Or.inr (flight.setDevice epoch))
    by_cases here : sender = name
    · subst here
      rw [setDevice_state_self, same]
      exact le_rfl
    · rw [setDevice_state_ne world device here]
  refine ⟨?_, ?_, fun other => (setDevice_epoch epoch other) ▸ synced.current other, ?_, ?_⟩
  · intro other
    by_cases here : other = name
    · subst here
      rw [setDevice_state_self, same]
      have valid := synced.wellFormed other
      exact ⟨valid.keyed, valid.sequenced, valid.numbered, valid.counted, valid.started⟩
    · rw [setDevice_state_ne world device here]
      exact synced.wellFormed other
  · intro other
    by_cases here : other = name
    · subst here
      rw [setDevice_state_self, same]
      exact synced.idle other
    · rw [setDevice_state_ne world device here]
      exact synced.idle other
  · intro sender receiver distinct
    refine covered sender receiver _ [] ?_
    by_cases here : receiver = name
    · subst here
      rw [setDevice_state_self, same]
      simp only [State.peerCursor, State.setPeerCursor, BTreeMap.get_insert]
      by_cases about : sender = peer
      · subst about
        simpa using promised
      · rw [if_neg about]
        exact synced.stored sender receiver distinct
    · rw [setDevice_state_ne world device here]
      exact synced.stored sender receiver distinct
  · intro id session found
    obtain ⟨asClient, asListener⟩ := setDevice_alive epoch session
    obtain ⟨distinct, phase⟩ := synced.sessions id session found
    refine ⟨distinct, ?_⟩
    revert phase
    cases session.phase with
    | requested cursor => exact fun phase live => covered _ _ _ _ (phase (asClient.mp live))
    | answered delta =>
        exact fun phase => ⟨fun live => covered _ _ _ _ (phase.1 (asClient.mp live)),
          fun live => covered _ _ _ _ (phase.2 (asListener.mp live))⟩
    | merged delta => exact fun phase live => covered _ _ _ _ (phase (asListener.mp live))

/-- Moving an exchange on, or ending it, when no content in flight is lost that matters. -/
theorem Synced.setSession (synced : world.Synced carries transit) {id : Nat}
    {next : Option (Session V)}
    (promised : ∀ session, next = some session → world.SessionCovered carries transit session)
    (flights : ∀ client listener, (world.setSession id next).Untracked client listener ∨
      (transit → ∀ key item, (world.state client).origins[key]? = some listener →
        (world.state client).Holds carries key item →
          world.InFlight carries client listener key item →
            (world.state listener).Holds carries key item ∨
              (world.setSession id next).InFlight carries client listener key item)) :
    (world.setSession id next).Synced carries transit := by
  have covered : ∀ sender receiver cursor extra,
      ((world.setSession id next).Untracked sender receiver → ¬world.Usable sender cursor) →
      world.Covered carries transit sender receiver cursor extra →
        (world.setSession id next).Covered carries transit sender receiver cursor extra := by
    intro sender receiver cursor extra tracked before
    refine ⟨before.recorded, fun usable => ?_⟩
    refine (before.covers usable).step le_rfl (fun key => Or.inl (State.Untouched.refl _ key))
      (fun _ _ held => held) (fun key item => Or.inr) ?_
    rcases flights sender receiver with untracked | kept
    · exact absurd usable (tracked untracked)
    · exact kept
  refine ⟨synced.wellFormed, synced.idle, synced.current, ?_, ?_⟩
  · intro sender receiver distinct
    exact covered sender receiver _ [] (fun untracked => untracked.1)
      (synced.stored sender receiver distinct)
  · intro query session found
    have before : world.SessionCovered carries transit session := by
      rw [setSession_sessions] at found
      split at found
      · exact promised session found
      · exact synced.sessions query session found
    obtain ⟨distinct, phase⟩ := before
    refine ⟨distinct, ?_⟩
    have asClient : world.clientAlive session → ∀ cursor,
        (world.setSession id next).Untracked session.listener session.client →
          ¬world.Usable session.listener cursor := by
      intro live cursor untracked
      exact absurd ⟨rfl, rfl, live⟩ (untracked.2 query session found).1
    have asListener : world.listenerAlive session → ∀ cursor,
        (world.setSession id next).Untracked session.client session.listener →
          ¬world.Usable session.client cursor := by
      intro live cursor untracked
      exact absurd ⟨rfl, rfl, live⟩ (untracked.2 query session found).2
    revert phase
    cases session.phase with
    | requested cursor =>
        exact fun phase live => covered _ _ _ _ (asClient live _) (phase live)
    | answered delta =>
        exact fun phase => ⟨fun live => covered _ _ _ _ (asClient live _) (phase.1 live),
          fun live => covered _ _ _ _ (asListener live _) (phase.2 live)⟩
    | merged delta =>
        exact fun phase live => covered _ _ _ _ (asListener live _) (phase live)

theorem InFlight.setSession {id : Nat} {next : Option (Session V)}
    (waiting : ∀ session delta, world.sessions id = some session → session.phase ≠ .merged delta)
    {client listener key : String} {item : α}
    (flight : world.InFlight carries client listener key item) :
    (world.setSession id next).InFlight carries client listener key item := by
  obtain ⟨other, flying, delta, present, client', listener', phase, live, has⟩ := flight
  have distinct : other ≠ id := by
    rintro rfl
    exact waiting flying delta present phase
  exact ⟨other, flying, delta, by rw [setSession_sessions, if_neg distinct, present],
    client', listener', phase, live, has⟩

end World

end Invariant

end LibreSync
