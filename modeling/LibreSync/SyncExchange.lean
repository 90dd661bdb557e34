import LibreSync.SyncInvariant

/-! Each message of an exchange keeps what the cursors promise. -/

namespace LibreSync

variable {V σ α : Type} {carries : Entry V → α → Prop} {transit : Prop}

/-- `after` is `before` with the inbound `entries` merged in, attributed to `remoteId`. -/
structure State.Merges (carries : Entry V → α → Prop) (remoteId : String)
    (entries : List (Entry V)) (before after : State V) : Prop where
  writes : State.Writes (some remoteId) before after
  content : ∀ key item, after.Holds carries key item ↔
    before.Holds carries key item ∨ Carried carries entries key item
  wellFormed : after.WellFormed

structure Device.Received (applier : InboundApplier V σ) (carries : Entry V → α → Prop)
    (device : Device V σ) (remoteId : String) (entries : List (Entry V)) (after : State V) :
    Prop where
  applied : ∃ count,
    device.state.withInboundOrigin remoteId (applier.applyInbound entries) = (.ok count, after)
  merges : device.state.Merges carries remoteId entries after
  below : after.sequence < u64Max

theorem State.WellFormed.withInbound {state : State V} (valid : state.WellFormed)
    (origin : Option String) : { state with inboundOrigin := origin }.WellFormed where
  keyed := valid.keyed
  sequenced := valid.sequenced
  numbered := valid.numbered
  counted := valid.counted
  started := valid.started

theorem Device.Received.of_applied {applier : InboundApplier V σ} {device : Device V σ}
    {remoteId : String} {entries : List (Entry V)} {count : Nat} {merged : State V}
    (applied : applier.applyInbound entries { device.state with inboundOrigin := some remoteId } =
      (.ok count, merged))
    (writes : State.Writes (some remoteId) { device.state with inboundOrigin := some remoteId }
      merged)
    (content : ∀ key item, merged.Holds carries key item ↔
      device.state.Holds carries key item ∨ Carried carries entries key item)
    (valid : merged.WellFormed) (below : merged.sequence < u64Max) :
    device.Received applier carries remoteId entries
      { merged with inboundOrigin := device.state.inboundOrigin } where
  applied := ⟨count, by simp only [State.withInboundOrigin, applied]⟩
  merges := {
    writes := {
      deviceId := writes.deviceId
      epoch := writes.epoch
      peerCursors := writes.peerCursors
      inboundOrigin := rfl
      counter := writes.counter
      grows := writes.grows
      keys := by
        intro bound key
        rcases writes.keys bound key with same | touched
        · exact Or.inl ⟨same.entry, same.sequence, same.origin⟩
        · exact Or.inr ⟨touched.fresh, touched.origin⟩ }
    content := content
    wellFormed := valid.withInbound _ }
  below := below

namespace World

variable {applier : InboundApplier V σ} {world after : World V σ} {id : Nat} {session : Session V}

theorem start_synced (epochs : String → String) (stores : String → σ) :
    (start epochs stores : World V σ).Synced carries transit where
  wellFormed device := State.new_wellFormed device (epochs device)
  idle _ := rfl
  current device := List.mem_singleton.mpr rfl
  stored sender receiver _ := by
    refine ⟨fun used => absurd rfl used, fun usable => absurd rfl usable.2⟩
  sessions := by simp [start]

theorem exchange_connect {client listener : String}
    (stepped : world.exchange applier (.connect id client listener) = some after) :
    world.sessions id = none ∧ client ≠ listener ∧ after = world.connect id client listener := by
  simp only [exchange, Option.isNone_iff_eq_none, Option.ite_none_right_eq_some,
    Option.some.injEq] at stepped
  exact ⟨stepped.1.1, stepped.1.2, stepped.2.symm⟩

theorem exchange_answer (stepped : world.exchange applier (.answer id) = some after) :
    ∃ session cursor, world.sessions id = some session ∧ session.phase = .requested cursor ∧
      world.listenerAlive session ∧ after = world.answer applier id session cursor := by
  simp only [exchange] at stepped
  split at stepped
  · rename_i session found
    split at stepped
    · rename_i cursor phase
      simp only [Option.ite_none_right_eq_some, Option.some.injEq] at stepped
      exact ⟨session, cursor, found, phase, stepped.1, stepped.2.symm⟩
    · simp at stepped
  · simp at stepped

theorem exchange_mergeAsClient
    (stepped : world.exchange applier (.mergeAsClient id) = some after) :
    ∃ session delta, world.sessions id = some session ∧ session.phase = .answered delta ∧
      world.clientAlive session ∧ after = world.mergeAsClient applier id session delta := by
  simp only [exchange] at stepped
  split at stepped
  · rename_i session found
    split at stepped
    · rename_i delta phase
      simp only [Option.ite_none_right_eq_some, Option.some.injEq] at stepped
      exact ⟨session, delta, found, phase, stepped.1, stepped.2.symm⟩
    · simp at stepped
  · simp at stepped

theorem exchange_mergeAsListener
    (stepped : world.exchange applier (.mergeAsListener id) = some after) :
    ∃ session delta, world.sessions id = some session ∧ session.phase = .merged delta ∧
      world.listenerAlive session ∧ after = world.mergeAsListener applier id session delta := by
  simp only [exchange] at stepped
  split at stepped
  · rename_i session found
    split at stepped
    · rename_i delta phase
      simp only [Option.ite_none_right_eq_some, Option.some.injEq] at stepped
      exact ⟨session, delta, found, phase, stepped.1, stepped.2.symm⟩
    · simp at stepped
  · simp at stepped

theorem answer_frame (id : Nat) (session : Session V) (cursor : PeerCursor) :
    (∀ query, query ≠ id →
      (world.answer applier id session cursor).sessions query = world.sessions query) ∧
    (∀ next, (world.answer applier id session cursor).sessions id = some next →
      next.client = session.client ∧ next.listener = session.listener) ∧
    ∀ device, device ≠ session.listener →
      (world.answer applier id session cursor).devices device = world.devices device := by
  simp only [answer]
  split <;> refine ⟨fun query apart => Function.update_of_ne apart _ _, ?_,
    fun device apart => Function.update_of_ne apart _ _⟩ <;> simp +contextual [setSession]

theorem mergeAsClient_frame (id : Nat) (session : Session V) (delta : Delta V) :
    (∀ query, query ≠ id →
      (world.mergeAsClient applier id session delta).sessions query = world.sessions query) ∧
    (∀ next, (world.mergeAsClient applier id session delta).sessions id = some next →
      next.client = session.client ∧ next.listener = session.listener) ∧
    ∀ device, device ≠ session.client →
      (world.mergeAsClient applier id session delta).devices device = world.devices device := by
  simp only [mergeAsClient]
  split <;> refine ⟨fun query apart => Function.update_of_ne apart _ _, ?_,
    fun device apart => Function.update_of_ne apart _ _⟩ <;> simp +contextual [setSession]

theorem exchange_sessions {event : ExchangeEvent}
    (stepped : world.exchange applier event = some after) {query : Nat}
    (apart : event.exchangeId ≠ some query) : after.sessions query = world.sessions query := by
  cases event with
  | connect id client listener =>
      obtain ⟨-, -, rfl⟩ := exchange_connect stepped
      exact Function.update_of_ne (fun same => apart (congrArg some same.symm)) _ _
  | answer id =>
      obtain ⟨session, cursor, -, -, -, rfl⟩ := exchange_answer stepped
      exact (answer_frame id session cursor).1 query fun same => apart (congrArg some same.symm)
  | mergeAsClient id =>
      obtain ⟨session, delta, -, -, -, rfl⟩ := exchange_mergeAsClient stepped
      exact (mergeAsClient_frame id session delta).1 query fun same =>
        apart (congrArg some same.symm)
  | mergeAsListener id =>
      obtain ⟨session, delta, -, -, -, rfl⟩ := exchange_mergeAsListener stepped
      exact Function.update_of_ne (fun same => apart (congrArg some same.symm)) _ _
  | cut id =>
      obtain rfl := Option.some.inj stepped
      exact Function.update_of_ne (fun same => apart (congrArg some same.symm)) _ _
  | load device =>
      obtain rfl := Option.some.inj stepped
      rfl
  | writeBack device =>
      obtain rfl := Option.some.inj stepped
      rfl

def Idle (world : World V σ) (device : String) : Prop :=
  ∀ id session, world.sessions id = some session →
    session.client ≠ device ∧ session.listener ≠ device

theorem Idle.setSession {device : String} (idle : world.Idle device) {next : Option (Session V)}
    (apart : ∀ session, next = some session → session.client ≠ device ∧ session.listener ≠ device) :
    (world.setSession id next).Idle device := by
  intro query session found
  rw [setSession_sessions] at found
  split at found
  · exact apart session found
  · exact idle query session found

theorem exchange_devices {event : ExchangeEvent}
    (stepped : world.exchange applier event = some after) {device : String}
    (idle : world.Idle device) (spared : event.Spares device) :
    after.devices device = world.devices device ∧ after.Idle device := by
  -- An exchange that moves on has the parties it had.
  have moved : ∀ {id : Nat} {session : Session V} {next : World V σ},
      world.sessions id = some session →
        (∀ query, query ≠ id → next.sessions query = world.sessions query) →
          (∀ other, next.sessions id = some other →
            other.client = session.client ∧ other.listener = session.listener) →
              next.Idle device := by
    intro id session next found others parties query other present
    by_cases here : query = id
    · subst here
      obtain ⟨client, listener⟩ := parties other present
      rw [client, listener]
      exact idle query session found
    · exact idle query other (others query here ▸ present)
  cases event with
  | connect id client listener =>
      obtain ⟨-, -, rfl⟩ := exchange_connect stepped
      exact ⟨rfl, idle.setSession (by rintro session ⟨⟩; exact spared)⟩
  | answer id =>
      obtain ⟨session, cursor, found, -, -, rfl⟩ := exchange_answer stepped
      obtain ⟨others, parties, devices⟩ := answer_frame id session cursor
      exact ⟨devices device (idle id session found).2.symm, moved found others parties⟩
  | mergeAsClient id =>
      obtain ⟨session, delta, found, -, -, rfl⟩ := exchange_mergeAsClient stepped
      obtain ⟨others, parties, devices⟩ := mergeAsClient_frame id session delta
      exact ⟨devices device (idle id session found).1.symm, moved found others parties⟩
  | mergeAsListener id =>
      obtain ⟨session, delta, found, -, -, rfl⟩ := exchange_mergeAsListener stepped
      exact ⟨Function.update_of_ne (idle id session found).2.symm _ _,
        @Idle.setSession _ _ (world.setDevice _ _) _ _ idle _ (by simp)⟩
  | cut id =>
      obtain rfl := Option.some.inj stepped
      exact ⟨rfl, idle.setSession (by simp)⟩
  | load name =>
      obtain rfl := Option.some.inj stepped
      exact ⟨Function.update_of_ne (Ne.symm spared) _ _, idle⟩
  | writeBack name =>
      obtain rfl := Option.some.inj stepped
      exact ⟨Function.update_of_ne (Ne.symm spared) _ _, idle⟩

theorem Synced.connect (synced : world.Synced carries transit) (free : world.sessions id = none)
    {client listener : String} (distinct : client ≠ listener) :
    (world.connect id client listener).Synced carries transit := by
  refine synced.setSession ?_ ?_
  · rintro session ⟨⟩
    exact ⟨⟨distinct, synced.current client, synced.current listener⟩,
      fun _ => synced.stored listener client distinct.symm⟩
  · intro client listener
    refine Or.inr fun _ key item _ _ flight => Or.inr (flight.setSession ?_)
    intro session delta present
    rw [free] at present
    simp at present

theorem answer_eq (id : Nat) (cursor : PeerCursor)
    (loads : (world.devices session.listener).load applier =
      (.ok (), world.devices session.listener)) :
    ∃ sent : Delta V,
      sent.entries = ((world.state session.listener).outbound cursor session.client).1 ∧
      sent.cursor = (world.state session.listener).currentCursor ∧
      sent.acked = (world.state session.listener).peerCursor session.client ∧
      world.answer applier id session cursor =
        world.setSession id (some { session with phase := .answered sent }) := by
  refine ⟨{
    entries := ((world.state session.listener).outbound cursor session.client).1
    cursor := (world.state session.listener).currentCursor
    acked := (world.state session.listener).peerCursor session.client
    full := ((world.state session.listener).outbound cursor session.client).2 }, rfl, rfl, rfl, ?_⟩
  simp only [World.answer, Device.answer, loads, setDevice_self]

theorem Synced.answer (synced : world.Synced carries transit)
    (found : world.sessions id = some session) {cursor : PeerCursor}
    (phase : session.phase = .requested cursor)
    (loads : (world.devices session.listener).load applier =
      (.ok (), world.devices session.listener)) :
    (world.answer applier id session cursor).Synced carries transit := by
  obtain ⟨⟨distinct, tags⟩, requested⟩ := synced.sessions id session found
  rw [phase] at requested
  obtain ⟨sent, entries, current, acked, answered⟩ := answer_eq id cursor loads
  rw [answered]
  refine synced.setSession ?_ ?_
  · rintro next ⟨⟩
    refine ⟨⟨distinct, tags⟩, fun live => ?_, fun _ => ?_⟩
    · simp only [current, entries]
      exact ⟨fun _ => synced.current _, fun _ =>
        covers_outbound (synced.wellFormed _) (requested live)⟩
    · simp only [acked]
      exact synced.stored _ _ distinct
  · intro client listener
    refine Or.inr fun _ key item _ _ flight => Or.inr (flight.setSession ?_)
    intro other delta present
    obtain rfl : session = other := Option.some.inj (found.symm.trans present)
    simp [phase]

theorem receive_eq {device : Device V σ} {remoteId : String} {entries : List (Entry V)}
    {count : Nat} {after : State V}
    (applied : device.state.withInboundOrigin remoteId (applier.applyInbound entries) =
      (.ok count, after)) (cursor : PeerCursor) :
    device.receive applier remoteId entries cursor =
      (.ok count, { device with state := after.setPeerCursor remoteId cursor }) := by
  simp only [Device.receive, applied]

theorem mergeAsClient_eq (id : Nat) {delta : Delta V} {count : Nat} {after : State V}
    (applied : (world.state session.client).withInboundOrigin session.listener
      (applier.applyInbound delta.entries) = (.ok count, after)) :
    ∃ sent : Delta V,
      sent.entries = ((world.state session.client).outbound delta.acked session.listener).1 ∧
      sent.cursor = (world.state session.client).currentCursor ∧
      world.mergeAsClient applier id session delta =
        (world.setSession id (some { session with phase := .merged sent })).setDevice
          session.client { (world.devices session.client) with
            state := after.setPeerCursor session.listener delta.cursor } := by
  refine ⟨{
    entries := ((world.state session.client).outbound delta.acked session.listener).1
    cursor := (world.state session.client).currentCursor
    acked := (after.setPeerCursor session.listener delta.cursor).peerCursor session.listener
    full := ((world.state session.client).outbound delta.acked session.listener).2 }, rfl, rfl, ?_⟩
  simp only [World.mergeAsClient, Device.mergeAsClient, receive_eq applied]
  rfl

theorem Covered.receive {sender receiver : String} {cursor : PeerCursor}
    {entries : List (Entry V)} (distinct : sender ≠ receiver)
    (covered : world.Covered carries transit sender receiver cursor entries) (device : Device V σ)
    (merges : (world.state receiver).Merges carries sender entries device.state) :
    (world.setDevice receiver device).Covered carries transit sender receiver cursor [] := by
  have sender_same := setDevice_state_ne world device distinct
  refine ⟨covered.recorded, fun usable => ?_⟩
  have used := (setDevice_usable merges.writes.epoch sender cursor).mp usable
  refine (covered.covers used).step ?_ ?_ ?_ ?_
    (fun _ key item _ _ flight => Or.inr (flight.setDevice merges.writes.epoch))
  · rw [sender_same]
  · intro key
    rw [sender_same]
    exact Or.inl (State.Untouched.refl _ _)
  · intro key item held
    rw [setDevice_state_self]
    exact (merges.content key item).mpr (Or.inl held)
  · intro key item carried
    rw [setDevice_state_self]
    exact Or.inl ((merges.content key item).mpr (Or.inr carried))

/-- The client's merge. What it attributes to the listener must be there, or be on its way. -/
theorem Synced.mergeAsClient (synced : world.Synced carries transit)
    (found : world.sessions id = some session) {delta : Delta V}
    (phase : session.phase = .answered delta) (alive : world.clientAlive session)
    {after : State V}
    (received : (world.devices session.client).Received applier carries session.listener
      delta.entries after)
    (known : world.Untracked session.client session.listener ∨
      ∀ key, State.Touched (some session.listener) (world.state session.client) after key →
        ∀ item, after.Holds carries key item →
          (world.state session.listener).Holds carries key item ∨
            transit ∧ world.listenerAlive session ∧
              (world.state session.client).Holds carries key item) :
    (world.mergeAsClient applier id session delta).Synced carries transit := by
  obtain ⟨⟨distinct, tags⟩, answered⟩ := synced.sessions id session found
  rw [phase] at answered
  obtain ⟨count, applied⟩ := received.applied
  obtain ⟨sent, entries, cursor, merged⟩ := mergeAsClient_eq id applied
  have waiting : ∀ other delta, world.sessions id = some other → other.phase ≠ .merged delta := by
    intro other delta present
    obtain rfl : session = other := Option.some.inj (found.symm.trans present)
    simp [phase]
  -- The delta is in flight before the merge makes anything depend on it.
  have flying : (world.setSession id (some { session with phase := .merged sent })).Synced
      carries transit := by
    refine synced.setSession ?_ fun client listener => Or.inr fun _ key item _ _ flight =>
      Or.inr (flight.setSession waiting)
    rintro next ⟨⟩
    refine ⟨⟨distinct, tags⟩, fun live => ⟨fun _ => ?_, fun _ => ?_⟩⟩
    · simp only [cursor]
      exact synced.current session.client
    · simp only [entries, cursor]
      exact covers_outbound (synced.wellFormed _) (answered.2 live)
  have promised : (world.setSession id (some { session with phase := .merged sent })).Covered
      carries transit session.listener session.client delta.cursor delta.entries := by
    refine ⟨(answered.1 alive).recorded, fun usable => ?_⟩
    refine ((answered.1 alive).covers usable).step le_rfl (fun key => Or.inl (State.Untouched.refl _ key))
      (fun _ _ held => held) (fun key item => Or.inr) fun _ key item _ _ flight =>
        Or.inr (flight.setSession waiting)
  rw [merged]
  have stepped := flying.setDevice session.client
    { (world.devices session.client) with state := after } received.merges.writes
    received.below received.merges.wellFormed
    (fun key item held => (received.merges.content key item).mpr (Or.inl held)) (by
      rintro peer away ⟨⟩
      rcases known with untracked | known
      · refine Or.inl ⟨untracked.1, ?_⟩
        intro query other present
        rw [setSession_sessions] at present
        split at present
        · obtain rfl := Option.some.inj present
          exact untracked.2 id session found
        · exact untracked.2 query other present
      · refine Or.inr fun key touched item held => ?_
        rcases known key touched item held with there | ⟨allowed, live, before⟩
        · exact Or.inl there
        · have onTheWay : Carried carries sent.entries key item →
              (world.setSession id (some { session with phase := .merged sent })).InFlight carries
                session.client session.listener key item := by
            intro carried
            refine ⟨id, { session with phase := .merged sent }, sent, ?_, rfl, rfl, rfl, live, carried⟩
            rw [setSession_sessions, if_pos rfl]
          rcases outbound_reaches (synced.wellFormed session.client) (answered.2 live) before with
            there | carried | ⟨_, flight⟩
          · exact Or.inl there
          · exact Or.inr ⟨allowed, onTheWay (entries ▸ carried)⟩
          · exact Or.inr ⟨allowed, flight.setSession waiting⟩)
  have kept := Covered.receive distinct.symm promised
    { (world.devices session.client) with state := after } received.merges
  have stored := stepped.setPeerCursor session.client session.listener
    { (world.devices session.client) with
      state := after.setPeerCursor session.listener delta.cursor }
    (by rw [setDevice_state_self]) kept
  rwa [setDevice_setDevice] at stored

theorem mergeAsListener_eq (id : Nat) {delta : Delta V} {count : Nat} {after : State V}
    (applied : (world.state session.listener).withInboundOrigin session.client
      (applier.applyInbound delta.entries) = (.ok count, after)) :
    world.mergeAsListener applier id session delta =
      (world.setDevice session.listener {
          state := after.setPeerCursor session.client delta.cursor
          store := (applier.afterApply (after.setPeerCursor session.client delta.cursor)
            (world.devices session.listener).store).2 }).setSession id none := by
  simp only [World.mergeAsListener, Device.mergeAsListener, receive_eq applied, Device.writeBack]

theorem Synced.mergeAsListener (synced : world.Synced carries transit)
    (found : world.sessions id = some session) {delta : Delta V}
    (phase : session.phase = .merged delta) (alive : world.listenerAlive session)
    {after : State V}
    (received : (world.devices session.listener).Received applier carries session.client
      delta.entries after)
    (known : world.Untracked session.listener session.client ∨
      ∀ key, State.Touched (some session.client) (world.state session.listener) after key →
        ∀ item, after.Holds carries key item →
          (world.state session.client).Holds carries key item ∨
            transit ∧ world.InFlight carries session.listener session.client key item) :
    (world.mergeAsListener applier id session delta).Synced carries transit := by
  obtain ⟨⟨distinct, -⟩, sent⟩ := synced.sessions id session found
  rw [phase] at sent
  obtain ⟨count, applied⟩ := received.applied
  have merged := mergeAsListener_eq id applied
  generalize (applier.afterApply (after.setPeerCursor session.client delta.cursor)
    (world.devices session.listener).store).2 = store at merged
  have stepped := synced.setDevice session.listener { state := after, store }
    received.merges.writes received.below received.merges.wellFormed
    (fun key item held => (received.merges.content key item).mpr (Or.inl held)) (by
      rintro peer away ⟨⟩
      exact known)
  have kept := Covered.receive distinct (sent alive) { state := after, store }
    received.merges
  have stored := stepped.setPeerCursor session.listener session.client
    { state := after.setPeerCursor session.client delta.cursor, store }
    (by rw [setDevice_state_self]) kept
  rw [setDevice_setDevice] at stored
  rw [merged]
  refine stored.setSession (by simp) fun client listener => Or.inr fun _ key item _ _ flight => ?_
  obtain ⟨other, flying, carried, present, client', listener', waiting, live, has⟩ := flight
  by_cases here : other = id
  · -- The delta that leaves the network is the one just merged.
    subst here
    obtain rfl : session = flying := Option.some.inj (found.symm.trans present)
    obtain rfl : delta = carried := by
      rw [phase] at waiting
      exact Phase.merged.inj waiting
    subst client' listener'
    rw [setDevice_state_self]
    exact Or.inl ((received.merges.content key item).mpr (Or.inr has))
  · exact Or.inr ⟨other, flying, carried, by rw [setSession_sessions, if_neg here]; exact present,
      client', listener', waiting, live, has⟩

theorem Synced.cut (synced : world.Synced carries transit)
    (spared : transit → ∀ session delta, world.sessions id = some session →
      session.phase = .merged delta → world.listenerAlive session →
        (world.setSession id none).Untracked session.client session.listener ∨
          ∀ key item, (world.state session.client).origins[key]? = some session.listener →
            (world.state session.client).Holds carries key item →
              (world.state session.listener).Holds carries key item ∨
                (world.setSession id none).InFlight carries session.client session.listener
                  key item) :
    (world.setSession id none).Synced carries transit := by
  refine synced.setSession (by simp) fun client listener => ?_
  by_cases allowed : transit
  · by_cases ends : ∃ session delta, world.sessions id = some session ∧
        session.phase = .merged delta ∧ world.listenerAlive session ∧
          session.client = client ∧ session.listener = listener
    · obtain ⟨session, delta, found, phase, live, rfl, rfl⟩ := ends
      rcases spared allowed session delta found phase live with untracked | held
      · exact Or.inl untracked
      · exact Or.inr fun _ key item origin before _ => held key item origin before
    · refine Or.inr fun _ key item _ _ flight => Or.inr ?_
      obtain ⟨other, flying, delta, present, client', listener', phase, live, has⟩ := flight
      have distinct : other ≠ id := by
        rintro rfl
        exact ends ⟨flying, delta, present, phase, live, client', listener'⟩
      exact ⟨other, flying, delta, by rw [setSession_sessions, if_neg distinct]; exact present,
        client', listener', phase, live, has⟩
  · exact Or.inr fun yes => absurd yes allowed

end World

end LibreSync
