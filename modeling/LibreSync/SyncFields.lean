import LibreSync.SyncExchange
import LibreSync.RecordEdit

/-!
Devices that edit records locally and exchange deltas merged field by field:
what holds of every device, edit and delta in flight along a run.
-/

namespace LibreSync

open Record

variable {V : Type} [DecidableEq V] [LawfulPayloadCodec V]

/-- The world, and the records that local edits stored, newest first. -/
structure FieldWorld (V : Type) where
  world : World V RecordStore
  edits : List (String × SyncRecord)

inductive FieldEvent where
  | edit (device : String) (record : SyncRecord)
  | exchange (event : ExchangeEvent)

namespace FieldWorld

variable (adapter : InMemoryLogicalAdapter)

def history (field : FieldWorld V) : List SyncRecord := field.edits.map Prod.snd

def start (epochs : String → String) : FieldWorld V where
  world := World.start epochs fun _ => ∅
  edits := []

abbrev applier : InboundApplier V RecordStore :=
  (adapter.router : AdapterRouter V RecordStore).applier

abbrev Carries : Entry V → Content → Prop :=
  RecordCarries adapter.mergePolicy adapter.keyNamespace

def read (field : FieldWorld V) (device : String) (record : SyncRecord) :
    Except Error (Option SyncRecord) :=
  RecordState.get adapter.keyNamespace (field.world.state device) record.schema record.entity
    record.id

def edit (field : FieldWorld V) (device : String) (record : SyncRecord) : Option (FieldWorld V) :=
  match field.read adapter device record with
  | .error _ => none
  | .ok found =>
      match RecordState.set adapter.keyNamespace (field.world.state device) record with
      | .error _ => none
      | .ok (_, state) => some {
          world := field.world.setDevice device { (field.world.devices device) with state }
          edits := (device, record.stored found (field.world.state device).nextClock) ::
            field.edits }

def step (field : FieldWorld V) : FieldEvent → Option (FieldWorld V)
  | .edit device record => field.edit adapter device record
  | .exchange event =>
      (field.world.exchange (applier adapter) event).map fun world => { field with world }

def mergedAtListener (field : FieldWorld V) (session : Session V) (delta : Delta V) : State V :=
  ((field.world.state session.listener).withInboundOrigin session.client
    ((applier adapter).applyInbound delta.entries)).2

/-- The steps that lose nothing: edits keep what their record holds; when a listener merges a
delta, what it held of each record the merge rewrites has reached the client or is on its way; when
a delta is lost, what its sender attributes to the listener is there without it, or the listener
will be sent everything anyway. -/
def Keeping (field : FieldWorld V) (event : FieldEvent) : Prop :=
  (∀ device, (field.world.state device).counter < u64Max ∧
    (field.world.state device).sequence < u64Max) ∧
  match event with
  | .edit device record => ∀ found, field.read adapter device record = .ok found →
      EditKeeps V adapter.mergePolicy found record
  | .exchange (.mergeAsListener id) => ∀ session delta,
      field.world.sessions id = some session → session.phase = .merged delta →
        ∀ key, State.Touched (some session.client) (field.world.state session.listener)
            (field.mergedAtListener adapter session delta) key →
          ∀ content, (field.world.state session.listener).Holds (Carries adapter) key content →
            (field.world.state session.client).Holds (Carries adapter) key content ∨
              field.world.InFlight (Carries adapter) session.listener session.client key content
  | .exchange (.cut id) => ∀ session delta,
      field.world.sessions id = some session → session.phase = .merged delta →
        (field.world.setSession id none).Untracked session.client session.listener ∨
          ∀ key content,
            (field.world.state session.client).origins[key]? = some session.listener →
              (field.world.state session.client).Holds (Carries adapter) key content →
                (field.world.state session.listener).Holds (Carries adapter) key content ∨
                  (field.world.setSession id none).InFlight (Carries adapter) session.client
                    session.listener key content
  | _ => True

/-- What holds of every device, edit and delta in flight, whatever is cut or rewritten. -/
structure Intact (field : FieldWorld V) : Prop where
  named : ∀ device, (field.world.state device).deviceId = device
  sound : ∀ device, SoundState adapter.mergePolicy field.history adapter.keyNamespace
    (field.world.state device)
  stores : ∀ device, StoreKnown adapter (field.world.devices device).store
    (field.world.state device)
  edited : ∀ item ∈ field.edits, ∀ content, item.2.Carries adapter.mergePolicy content →
    (field.world.state item.1).Holds (Carries adapter)
      (recordEntryKey adapter.keyNamespace item.2.schema item.2.entity item.2.id) content
  agree : Agree adapter.mergePolicy field.history
  dated : ∀ edit ∈ field.history, ∀ (name : String) (value : FieldValue),
    adapter.mergePolicy name = .lastWriterWins → edit.fields[name]? = some value →
      (edit.fieldClock name).counter ≤
        (field.world.state (edit.fieldClock name).deviceId).counter
  alive : ∀ id session, field.world.sessions id = some session →
    field.world.clientAlive session ∧ field.world.listenerAlive session
  answered : ∀ id session delta, field.world.sessions id = some session →
    session.phase = .answered delta →
      (∀ entry ∈ delta.entries, SoundEntry adapter.mergePolicy field.history
        adapter.keyNamespace entry) ∧
      ∀ key content, Carried (Carries adapter) delta.entries key content →
        (field.world.state session.listener).Holds (Carries adapter) key content
  merged : ∀ id session delta, field.world.sessions id = some session →
    session.phase = .merged delta →
      (∀ entry ∈ delta.entries, SoundEntry adapter.mergePolicy field.history
        adapter.keyNamespace entry) ∧
      ∀ key content, Carried (Carries adapter) delta.entries key content →
        (field.world.state session.client).Holds (Carries adapter) key content

variable {adapter}

omit [DecidableEq V] in
theorem start_intact (epochs : String → String) :
    (start epochs : FieldWorld V).Intact adapter where
  named _ := rfl
  sound _ := ⟨by simp [start, World.start, State.new], by simp [start, World.start, State.new]⟩
  stores _ := by
    intro key record found
    simp [start, World.start] at found
  edited := by simp [start]
  agree := by simp [start, history, Agree]
  dated := by simp [start, history]
  alive := by simp [start, World.start]
  answered := by simp [start, World.start]
  merged := by simp [start, World.start]

omit [DecidableEq V] in
theorem Intact.setDevice {field : FieldWorld V} (intact : field.Intact adapter) {name : String}
    {device : Device V RecordStore} {edits : List (String × SyncRecord)}
    (named : device.state.deviceId = (field.world.state name).deviceId)
    (epoch : device.state.epoch = (field.world.state name).epoch)
    (counter : (field.world.state name).counter ≤ device.state.counter)
    (sub : field.history ⊆ edits.map Prod.snd)
    (sound : SoundState adapter.mergePolicy (edits.map Prod.snd) adapter.keyNamespace device.state)
    (keeps : ∀ key content, (field.world.state name).Holds (Carries adapter) key content →
      device.state.Holds (Carries adapter) key content)
    (stores : StoreKnown adapter device.store device.state)
    (edited : ∀ item ∈ edits, item ∈ field.edits ∨ item.1 = name ∧
      ∀ content, item.2.Carries adapter.mergePolicy content → device.state.Holds (Carries adapter)
        (recordEntryKey adapter.keyNamespace item.2.schema item.2.entity item.2.id) content)
    (agree : Agree adapter.mergePolicy (edits.map Prod.snd))
    (dated : ∀ edit ∈ edits.map Prod.snd, ∀ (field' : String) (value : FieldValue),
      adapter.mergePolicy field' = .lastWriterWins → edit.fields[field']? = some value →
        (edit.fieldClock field').counter ≤
          ((field.world.setDevice name device).state (edit.fieldClock field').deviceId).counter) :
    ({ world := field.world.setDevice name device, edits } : FieldWorld V).Intact adapter := by
  have epochs := World.setDevice_epoch epoch
  have holds := World.holds_setDevice keeps
  refine ⟨?_, ?_, ?_, ?_, agree, dated, ?_, ?_, ?_⟩
  · intro other
    by_cases here : other = name
    · subst here
      rw [World.setDevice_state_self, named]
      exact intact.named other
    · rw [World.setDevice_state_ne _ _ here]
      exact intact.named other
  · intro other
    by_cases here : other = name
    · subst here
      rw [World.setDevice_state_self]
      exact sound
    · rw [World.setDevice_state_ne _ _ here]
      exact (intact.sound other).mono sub
  · intro other
    by_cases here : other = name
    · subst here
      simpa [World.setDevice, World.state] using stores
    · simpa [World.setDevice, World.state, Function.update_of_ne here] using intact.stores other
  · intro item member content has
    rcases edited item member with old | ⟨here, now⟩
    · exact holds _ _ _ (intact.edited item old content has)
    · rw [here, World.setDevice_state_self]
      exact now content has
  · intro id session found
    have before := intact.alive id session found
    simpa only [World.clientAlive, World.listenerAlive, epochs] using before
  · intro id session delta found phase
    obtain ⟨entries, sourced⟩ := intact.answered id session delta found phase
    exact ⟨fun entry member => (entries entry member).mono sub,
      fun key content carried => holds _ key content (sourced key content carried)⟩
  · intro id session delta found phase
    obtain ⟨entries, sourced⟩ := intact.merged id session delta found phase
    exact ⟨fun entry member => (entries entry member).mono sub,
      fun key content carried => holds _ key content (sourced key content carried)⟩

omit [DecidableEq V] [LawfulPayloadCodec V] in
theorem setDevice_counter {world : World V RecordStore} {name : String}
    {device : Device V RecordStore} (counter : (world.state name).counter ≤ device.state.counter)
    (other : String) :
    (world.state other).counter ≤ ((world.setDevice name device).state other).counter := by
  by_cases here : other = name
  · subst here
    rwa [World.setDevice_state_self]
  · rw [World.setDevice_state_ne _ _ here]

omit [DecidableEq V] in
theorem Intact.replace {field : FieldWorld V} (intact : field.Intact adapter) (name : String)
    (device : Device V RecordStore)
    (named : device.state.deviceId = (field.world.state name).deviceId)
    (epoch : device.state.epoch = (field.world.state name).epoch)
    (counter : (field.world.state name).counter ≤ device.state.counter)
    (sound : SoundState adapter.mergePolicy field.history adapter.keyNamespace device.state)
    (keeps : ∀ key content, (field.world.state name).Holds (Carries adapter) key content →
      device.state.Holds (Carries adapter) key content)
    (stores : StoreKnown adapter device.store device.state) :
    ({ field with world := field.world.setDevice name device } : FieldWorld V).Intact adapter :=
  intact.setDevice named epoch counter (fun _ member => member) sound keeps stores
    (fun _ member => Or.inl member) intact.agree
    fun edit member field' value lww present =>
      (intact.dated edit member field' value lww present).trans (setDevice_counter counter _)

omit [DecidableEq V] in
theorem Intact.setSession {field : FieldWorld V} (intact : field.Intact adapter) (id : Nat)
    (next : Option (Session V))
    (alive : ∀ session, next = some session →
      field.world.clientAlive session ∧ field.world.listenerAlive session)
    (answered : ∀ session delta, next = some session → session.phase = .answered delta →
      (∀ entry ∈ delta.entries, SoundEntry adapter.mergePolicy field.history
        adapter.keyNamespace entry) ∧
      ∀ key content, Carried (Carries adapter) delta.entries key content →
        (field.world.state session.listener).Holds (Carries adapter) key content)
    (merged : ∀ session delta, next = some session → session.phase = .merged delta →
      (∀ entry ∈ delta.entries, SoundEntry adapter.mergePolicy field.history
        adapter.keyNamespace entry) ∧
      ∀ key content, Carried (Carries adapter) delta.entries key content →
        (field.world.state session.client).Holds (Carries adapter) key content) :
    ({ field with world := field.world.setSession id next } : FieldWorld V).Intact adapter := by
  refine ⟨intact.named, intact.sound, intact.stores, intact.edited, intact.agree, intact.dated,
    ?_, ?_, ?_⟩
  · intro query session found
    rw [World.setSession_sessions] at found
    split at found
    · exact alive session found
    · exact intact.alive query session found
  · intro query session delta found phase
    rw [World.setSession_sessions] at found
    split at found
    · exact answered session delta found phase
    · exact intact.answered query session delta found phase
  · intro query session delta found phase
    rw [World.setSession_sessions] at found
    split at found
    · exact merged session delta found phase
    · exact intact.merged query session delta found phase

omit [DecidableEq V] in
theorem Intact.outbound {field : FieldWorld V} (intact : field.Intact adapter)
    (name : String) (cursor : PeerCursor) (remoteId : String) :
    (∀ entry ∈ ((field.world.state name).outbound cursor remoteId).1,
      SoundEntry adapter.mergePolicy field.history adapter.keyNamespace entry) ∧
    ∀ key content, Carried (Carries adapter)
        ((field.world.state name).outbound cursor remoteId).1 key content →
      (field.world.state name).Holds (Carries adapter) key content := by
  have sound := intact.sound name
  have listed : ∀ entry ∈ ((field.world.state name).outbound cursor remoteId).1,
      ∃ key : String, (field.world.state name).entries[key]? = some entry := by
    intro entry member
    have whole : ∀ item ∈ (field.world.state name).snapshot,
        ∃ key : String, (field.world.state name).entries[key]? = some item :=
      fun item member => BTreeMap.mem_valueList.mp member
    simp only [State.outbound, State.deltaSince] at member
    split at member
    · exact whole entry member
    · obtain ⟨item, kept, rfl⟩ := List.mem_map.mp member
      exact ⟨item.1, Std.ExtTreeMap.mem_toList_iff_getElem?_eq_some.mp (List.mem_filter.mp kept).1⟩
  refine ⟨fun entry member => ?_, ?_⟩
  · obtain ⟨key, found⟩ := listed entry member
    exact sound.sound key entry found
  · rintro key content ⟨entry, member, rfl, has⟩
    obtain ⟨key, found⟩ := listed entry member
    obtain rfl := sound.keyed key entry found
    exact ⟨entry, found, has⟩

theorem Intact.received {field : FieldWorld V} (intact : field.Intact adapter)
    (keeps : KeepsContent adapter.mergePolicy) (name remoteId : String)
    {entries : List (Entry V)}
    (sound : ∀ entry ∈ entries,
      SoundEntry adapter.mergePolicy field.history adapter.keyNamespace entry) :
    ∃ after, (∃ count, (field.world.state name).withInboundOrigin remoteId
        ((applier adapter).applyInbound entries) = (.ok count, after)) ∧
      SoundState adapter.mergePolicy field.history adapter.keyNamespace after ∧
      ((field.world.state name).counter ≤ after.counter ∧
        (after.sequence < u64Max → (field.world.state name).sequence ≤ after.sequence)) ∧
      ((field.world.state name).WellFormed → after.sequence < u64Max →
        (field.world.devices name).Received (applier adapter) (Carries adapter) remoteId entries
          after) ∧
      (∀ key content, after.Holds (Carries adapter) key content ↔
        (field.world.state name).Holds (Carries adapter) key content ∨
          Carried (Carries adapter) entries key content) ∧
      after.deviceId = (field.world.state name).deviceId ∧
      after.epoch = (field.world.state name).epoch := by
  let inside : State V := { field.world.state name with inboundOrigin := some remoteId }
  have insideSound : SoundState adapter.mergePolicy field.history adapter.keyNamespace inside :=
    ⟨(intact.sound name).keyed, (intact.sound name).sound⟩
  obtain ⟨count, after, records, applied, same, merged⟩ :=
    router_merges adapter keeps insideSound sound
  have content : ∀ key content, after.Holds (Carries adapter) key content ↔
      (field.world.state name).Holds (Carries adapter) key content ∨
        Carried (Carries adapter) entries key content := by
    rw [same]
    exact merged.content
  refine ⟨{ after with inboundOrigin := (field.world.state name).inboundOrigin }, ⟨count, ?_⟩,
    ⟨merged.sound.keyed, merged.sound.sound⟩, ⟨merged.writes.counter, merged.writes.grows⟩,
    fun valid below => ?_, content,
    merged.writes.deviceId, merged.writes.epoch⟩
  · have inner : (applier adapter).applyInbound entries
        { field.world.state name with inboundOrigin := some remoteId } = (.ok count, after) := applied
    simp only [State.withInboundOrigin, inner]
  · exact Device.Received.of_applied applied merged.writes content
      (merged.wellFormed (valid.withInbound _) below) below

variable {field after : FieldWorld V}

theorem Intact.loads (intact : field.Intact adapter) (name : String) :
    (field.world.devices name).load (applier adapter) = (.ok (), field.world.devices name) := by
  have known : (applier adapter).beforeExport (field.world.devices name).state
      (field.world.devices name).store = (.ok (), (field.world.devices name).state,
        (field.world.devices name).store) :=
    load_known adapter (intact.sound name) (intact.stores name)
  simp only [Device.load, known]

omit [DecidableEq V] in
theorem edit_eq {device : String} {record : SyncRecord}
    (stepped : field.edit adapter device record = some after) :
    ∃ found, field.read adapter device record = .ok found ∧ after = {
      world := field.world.setDevice device { (field.world.devices device) with
        state := { field.world.state device with
          counter := saturatingSucc (field.world.state device).counter }.insertEntry
            (recordToEntry adapter.keyNamespace
              (record.stored found (field.world.state device).nextClock)) none }
      edits := (device, record.stored found (field.world.state device).nextClock) ::
        field.edits } := by
  cases got : field.read adapter device record with
  | error error => simp [edit, got] at stepped
  | ok found =>
      refine ⟨found, rfl, ?_⟩
      simp only [edit, got, set_eq got, Option.some.injEq] at stepped
      exact stepped.symm

omit [DecidableEq V] in
theorem Intact.edit (intact : field.Intact adapter) {device : String} {record : SyncRecord}
    (valid : (field.world.state device).WellFormed)
    (room : (field.world.state device).counter < u64Max) {found : Option SyncRecord}
    (got : field.read adapter device record = .ok found)
    (keeps : EditKeeps V adapter.mergePolicy found record)
    (stepped : field.edit adapter device record = some after) : after.Intact adapter := by
  obtain ⟨again, same, rfl⟩ := edit_eq stepped
  obtain rfl : found = again := Except.ok.inj (got.symm.trans same)
  have edited := (intact.sound device).edited valid room got keeps
  have before := (intact.sound device).existing_before valid room got
  have raised : (field.world.state device).counter ≤
      saturatingSucc (field.world.state device).counter := le_saturatingSucc room.le
  have next : (field.world.state device).nextClock.deviceId = device := intact.named device
  refine intact.setDevice rfl rfl raised (List.subset_cons_self ..) edited.sound edited.keeps
    ((intact.stores device).mono edited.keeps) ?_ ?_ ?_
  · intro item member
    rcases List.mem_cons.mp member with rfl | member
    · exact Or.inr ⟨rfl, edited.holds⟩
    · exact Or.inl member
  · refine stored_agree keeps intact.agree ?_ ?_
    · intro existing here
      obtain ⟨sound, about, -⟩ := before existing here
      exact ⟨sound, recordKey_eq_iff.mpr about⟩
    · intro edit member name value lww present same
      have dated := intact.dated edit member name value lww present
      rw [same, next] at dated
      simp only [State.nextClock, saturatingSucc_eq room] at dated
      omega
  · intro edit member name value lww present
    have grown : ∀ older ∈ field.history, ∀ olderValue,
        older.fields[name]? = some olderValue → (older.fieldClock name).counter ≤
          ((field.world.setDevice device { (field.world.devices device) with
            state := { field.world.state device with
              counter := saturatingSucc (field.world.state device).counter }.insertEntry
                (recordToEntry adapter.keyNamespace
                  (record.stored found (field.world.state device).nextClock)) none }).state
            (older.fieldClock name).deviceId).counter := fun older olderMember olderValue has =>
      (intact.dated older olderMember name olderValue lww has).trans (setDevice_counter raised _)
    rcases List.mem_cons.mp member with rfl | member
    · rcases stored_fieldClock (field.world.state device).nextClock keeps present with
        fresh | ⟨existing, existingValue, here, has, -, old⟩
      · rw [fresh, next, World.setDevice_state_self]
        exact le_rfl
      · obtain ⟨sound, -⟩ := before existing here
        obtain ⟨source, sourceMember, -, sourceClock, written, sourceHas, -⟩ :=
          sound.vouched name existingValue lww has
        rw [old, ← sourceClock]
        exact grown source sourceMember written sourceHas
    · exact grown edit member value present

theorem Intact.exchange (keeps : KeepsContent adapter.mergePolicy) (intact : field.Intact adapter)
    {event : ExchangeEvent}
    {world : World V RecordStore}
    (stepped : field.world.exchange (applier adapter) event = some world) :
    ({ field with world } : FieldWorld V).Intact adapter := by
  cases event with
  | connect id client listener =>
      obtain ⟨-, -, rfl⟩ := World.exchange_connect stepped
      refine intact.setSession _ _ ?_ ?_ ?_
      · rintro session ⟨⟩
        exact ⟨rfl, rfl⟩
      · rintro session delta ⟨⟩ ⟨⟩
      · rintro session delta ⟨⟩ ⟨⟩
  | answer id =>
      obtain ⟨session, cursor, found, -, -, rfl⟩ := World.exchange_answer stepped
      obtain ⟨sent, entries, -, -, answered⟩ :=
        World.answer_eq id cursor (intact.loads session.listener)
      rw [answered]
      refine intact.setSession _ _ ?_ ?_ ?_
      · rintro next ⟨⟩
        exact intact.alive id session found
      · rintro next delta ⟨⟩ ⟨⟩
        rw [entries]
        exact intact.outbound session.listener cursor session.client
      · rintro next delta ⟨⟩ ⟨⟩
  | mergeAsClient id =>
      obtain ⟨session, delta, found, phase, -, rfl⟩ := World.exchange_mergeAsClient stepped
      obtain ⟨sound, -⟩ := intact.answered id session delta found phase
      obtain ⟨merged, ⟨count, applied⟩, mergedSound, ⟨counter, -⟩, -, content, named, epoch⟩ :=
        intact.received keeps session.client session.listener sound
      obtain ⟨sent, entries, -, result⟩ := World.mergeAsClient_eq id applied
      rw [result]
      have flying := intact.setSession id (some { session with phase := .merged sent }) (by
          rintro next ⟨⟩
          exact intact.alive id session found) (by rintro next delta ⟨⟩ ⟨⟩) (by
          rintro next delta ⟨⟩ ⟨⟩
          rw [entries]
          exact intact.outbound session.client _ session.listener)
      exact flying.replace session.client _ named epoch counter ⟨mergedSound.keyed, mergedSound.sound⟩
        (fun key item held => (content key item).mpr (Or.inl held))
        ((intact.stores session.client).mono fun key item held =>
          (content key item).mpr (Or.inl held))
  | mergeAsListener id =>
      obtain ⟨session, delta, found, phase, -, rfl⟩ := World.exchange_mergeAsListener stepped
      obtain ⟨sound, -⟩ := intact.merged id session delta found phase
      obtain ⟨merged, ⟨count, applied⟩, mergedSound, ⟨counter, -⟩, -, content, named, epoch⟩ :=
        intact.received keeps session.listener session.client sound
      rw [World.mergeAsListener_eq id applied]
      have kept : ∀ key item, (field.world.state session.listener).Holds (Carries adapter) key item →
          (merged.setPeerCursor session.client delta.cursor).Holds (Carries adapter) key item :=
        fun key item held => (content key item).mpr (Or.inl held)
      have replaced := intact.replace session.listener {
          state := merged.setPeerCursor session.client delta.cursor
          store := ((applier adapter).afterApply (merged.setPeerCursor session.client delta.cursor)
            (field.world.devices session.listener).store).2 }
        named epoch counter ⟨mergedSound.keyed, mergedSound.sound⟩ kept
        (writeBack_known adapter ⟨mergedSound.keyed, mergedSound.sound⟩
          ((intact.stores session.listener).mono kept))
      exact replaced.setSession id none (by simp) (by simp) (by simp)
  | cut id =>
      simp only [World.exchange, Option.some.injEq] at stepped
      subst stepped
      exact intact.setSession id none (by simp) (by simp) (by simp)
  | load device =>
      simp only [World.exchange, Option.some.injEq, intact.loads device,
        World.setDevice_self] at stepped
      subst stepped
      exact intact
  | writeBack device =>
      simp only [World.exchange, Option.some.injEq] at stepped
      subst stepped
      exact intact.replace device _ rfl rfl le_rfl (intact.sound device) (fun _ _ held => held)
        (writeBack_known adapter (intact.sound device) (intact.stores device))

abbrev Bounded (field : FieldWorld V) : Prop :=
  ∀ device, (field.world.state device).counter < u64Max ∧
    (field.world.state device).sequence < u64Max

structure Reliable (adapter : InMemoryLogicalAdapter) (field : FieldWorld V) : Prop where
  intact : field.Intact adapter
  synced : field.world.Synced (Carries adapter) True

theorem Reliable.mergeAsClient (keeps : KeepsContent adapter.mergePolicy)
    (reliable : field.Reliable adapter) {id : Nat} {session : Session V} {delta : Delta V}
    (found : field.world.sessions id = some session) (phase : session.phase = .answered delta)
    (bounded : ∀ device, ((field.world.mergeAsClient (applier adapter) id session delta).state
      device).sequence < u64Max) :
    (field.world.mergeAsClient (applier adapter) id session delta).Synced (Carries adapter)
      True := by
  obtain ⟨clientAlive, listenerAlive⟩ := reliable.intact.alive id session found
  obtain ⟨sound, sourced⟩ := reliable.intact.answered id session delta found phase
  obtain ⟨merged, ⟨count, applied⟩, -, -, received, content, -⟩ :=
    reliable.intact.received keeps session.client session.listener sound
  have below := bounded session.client
  obtain ⟨sent, -, -, result⟩ := World.mergeAsClient_eq id applied
  rw [result, World.setDevice_state_self] at below
  refine reliable.synced.mergeAsClient found phase clientAlive
    (received (reliable.synced.wellFormed session.client) below) ?_
  refine Or.inr fun key _ item held => ?_
  rcases (content key item).mp held with before | carried
  · exact Or.inr ⟨trivial, listenerAlive, before⟩
  · exact Or.inl (sourced key item carried)

theorem Reliable.mergeAsListener (keeps : KeepsContent adapter.mergePolicy)
    (reliable : field.Reliable adapter) {id : Nat} {session : Session V} {delta : Delta V}
    (keeping : field.Keeping adapter (.exchange (.mergeAsListener id)))
    (found : field.world.sessions id = some session) (phase : session.phase = .merged delta)
    (bounded : ∀ device, ((field.world.mergeAsListener (applier adapter) id session delta).state
      device).sequence < u64Max) :
    (field.world.mergeAsListener (applier adapter) id session delta).Synced (Carries adapter)
      True := by
  obtain ⟨-, listenerAlive⟩ := reliable.intact.alive id session found
  obtain ⟨sound, sourced⟩ := reliable.intact.merged id session delta found phase
  obtain ⟨merged, ⟨count, applied⟩, -, -, received, content, -⟩ :=
    reliable.intact.received keeps session.listener session.client sound
  have below := bounded session.listener
  rw [World.mergeAsListener_eq id applied, World.setSession_state,
    World.setDevice_state_self] at below
  refine reliable.synced.mergeAsListener found phase listenerAlive
    (received (reliable.synced.wellFormed session.listener) below) ?_
  have result : field.mergedAtListener adapter session delta = merged := by
    simp only [mergedAtListener, applied]
  refine Or.inr fun key touched item held => ?_
  rcases (content key item).mp held with before | carried
  · rcases keeping.2 session delta found phase key (result ▸ touched) item before with
      known | flight
    · exact Or.inl known
    · exact Or.inr ⟨trivial, flight⟩
  · exact Or.inl (sourced key item carried)

theorem Reliable.exchange (keeps : KeepsContent adapter.mergePolicy)
    (reliable : field.Reliable adapter) {event : ExchangeEvent}
    (keeping : field.Keeping adapter (.exchange event)) {world : World V RecordStore}
    (stepped : field.world.exchange (applier adapter) event = some world)
    (bounded : ∀ device, (world.state device).sequence < u64Max) :
    world.Synced (Carries adapter) True := by
  have intact := reliable.intact
  have synced := reliable.synced
  cases event with
  | connect id client listener =>
      obtain ⟨free, distinct, rfl⟩ := World.exchange_connect stepped
      exact synced.connect free distinct
  | answer id =>
      obtain ⟨session, cursor, found, phase, -, rfl⟩ := World.exchange_answer stepped
      exact synced.answer found phase (intact.loads session.listener)
  | mergeAsClient id =>
      obtain ⟨session, delta, found, phase, -, rfl⟩ := World.exchange_mergeAsClient stepped
      exact reliable.mergeAsClient keeps found phase bounded
  | mergeAsListener id =>
      obtain ⟨session, delta, found, phase, -, rfl⟩ := World.exchange_mergeAsListener stepped
      exact reliable.mergeAsListener keeps keeping found phase bounded
  | cut id =>
      simp only [World.exchange, Option.some.injEq] at stepped
      subst stepped
      exact synced.cut fun _ session delta found phase _ => keeping.2 session delta found phase
  | load device =>
      simp only [World.exchange, Option.some.injEq, intact.loads device,
        World.setDevice_self] at stepped
      subst stepped
      exact synced
  | writeBack device =>
      simp only [World.exchange, Option.some.injEq] at stepped
      subst stepped
      exact synced.setDevice device _ (State.Writes.refl none _) (keeping.1 device).2
        (synced.wellFormed device) (fun _ _ held => held) (by simp)

theorem Intact.step (keeps : KeepsContent adapter.mergePolicy) (intact : field.Intact adapter)
    (valid : ∀ device, (field.world.state device).WellFormed) {event : FieldEvent}
    (keeping : field.Keeping adapter event) (stepped : field.step adapter event = some after) :
    after.Intact adapter := by
  cases event with
  | edit device record =>
      obtain ⟨found, got, -⟩ := edit_eq stepped
      exact intact.edit (valid device) (keeping.1 device).1 got (keeping.2 found got) stepped
  | exchange event =>
      obtain ⟨world, exchanged, rfl⟩ := Option.map_eq_some_iff.mp stepped
      exact intact.exchange keeps exchanged

theorem Reliable.step (keeps : KeepsContent adapter.mergePolicy)
    (reliable : field.Reliable adapter) {event : FieldEvent}
    (keeping : field.Keeping adapter event) (stepped : field.step adapter event = some after)
    (bounded : after.Bounded) : after.Reliable adapter := by
  refine ⟨reliable.intact.step keeps reliable.synced.wellFormed keeping stepped, ?_⟩
  cases event with
  | edit device record =>
      obtain ⟨found, got, rfl⟩ := edit_eq stepped
      have edited := (reliable.intact.sound device).edited (reliable.synced.wellFormed device)
        (keeping.1 device).1 got (keeping.2 found got)
      have below := (bounded device).2
      rw [World.setDevice_state_self] at below
      exact reliable.synced.setDevice device _ edited.writes below (edited.wellFormed below)
        edited.keeps (by simp)
  | exchange event =>
      obtain ⟨world, exchanged, rfl⟩ := Option.map_eq_some_iff.mp stepped
      exact reliable.exchange keeps keeping exchanged fun device => (bounded device).2

theorem reliable_of_reaches (keeps : KeepsContent adapter.mergePolicy) {epochs : String → String}
    (reached : Transition.Reaches (step adapter) (Keeping adapter) (start epochs) field)
    (bounded : field.Bounded) : field.Reliable adapter := by
  refine reached.invariant (motive := fun field => field.Bounded → field.Reliable adapter)
    (fun _ => ⟨start_intact epochs, World.start_synced epochs _⟩) ?_ bounded
  intro before event after reliable keeping stepped
  exact (reliable keeping.1).step keeps keeping stepped

/-- The last step may have used up a counter; what it did to the records still holds. -/
theorem intact_of_reaches (keeps : KeepsContent adapter.mergePolicy) {epochs : String → String}
    (reached : Transition.Reaches (step adapter) (Keeping adapter) (start epochs) field) :
    field.Intact adapter := by
  cases reached with
  | start => exact start_intact epochs
  | next before keeping stepped =>
      exact (reliable_of_reaches keeps before keeping.1).intact.step keeps
        (reliable_of_reaches keeps before keeping.1).synced.wellFormed keeping stepped

omit [DecidableEq V] [LawfulPayloadCodec V] in
theorem bounded_before (world : World V RecordStore) (name : String)
    (device : Device V RecordStore)
    (grows : (world.state name).counter ≤ device.state.counter ∧
      (device.state.sequence < u64Max → (world.state name).sequence ≤ device.state.sequence))
    (bounded : ∀ other, ((world.setDevice name device).state other).counter < u64Max ∧
      ((world.setDevice name device).state other).sequence < u64Max) :
    ∀ other, (world.state other).counter < u64Max ∧ (world.state other).sequence < u64Max := by
  intro other
  have after := bounded other
  by_cases here : other = name
  · subst here
    rw [World.setDevice_state_self] at after
    exact ⟨grows.1.trans_lt after.1, (grows.2 after.2).trans_lt after.2⟩
  · rwa [World.setDevice_state_ne _ _ here] at after

theorem Intact.bounded_exchange (keeps : KeepsContent adapter.mergePolicy)
    (intact : field.Intact adapter) {event : ExchangeEvent} {world : World V RecordStore}
    (stepped : field.world.exchange (applier adapter) event = some world)
    (bounded : Bounded ({ field with world } : FieldWorld V)) : field.Bounded := by
  cases event with
  | connect id client listener =>
      obtain ⟨-, -, rfl⟩ := World.exchange_connect stepped
      exact bounded
  | answer id =>
      obtain ⟨session, cursor, found, -, -, rfl⟩ := World.exchange_answer stepped
      obtain ⟨sent, -, -, -, answered⟩ := World.answer_eq id cursor (intact.loads session.listener)
      rw [answered] at bounded
      exact bounded
  | mergeAsClient id =>
      obtain ⟨session, delta, found, phase, -, rfl⟩ := World.exchange_mergeAsClient stepped
      obtain ⟨sound, -⟩ := intact.answered id session delta found phase
      obtain ⟨merged, ⟨count, applied⟩, -, grows, -⟩ :=
        intact.received keeps session.client session.listener sound
      obtain ⟨sent, -, -, result⟩ := World.mergeAsClient_eq id applied
      rw [result] at bounded
      exact bounded_before (field.world.setSession id (some { session with phase := .merged sent }))
        session.client { (field.world.devices session.client) with
          state := merged.setPeerCursor session.listener delta.cursor } grows bounded
  | mergeAsListener id =>
      obtain ⟨session, delta, found, phase, -, rfl⟩ := World.exchange_mergeAsListener stepped
      obtain ⟨sound, -⟩ := intact.merged id session delta found phase
      obtain ⟨merged, ⟨count, applied⟩, -, grows, -⟩ :=
        intact.received keeps session.listener session.client sound
      rw [World.mergeAsListener_eq id applied] at bounded
      exact bounded_before field.world session.listener _ grows bounded
  | cut id =>
      simp only [World.exchange, Option.some.injEq] at stepped
      subst stepped
      exact bounded
  | load device =>
      simp only [World.exchange, Option.some.injEq, intact.loads device,
        World.setDevice_self] at stepped
      subst stepped
      exact bounded
  | writeBack device =>
      simp only [World.exchange, Option.some.injEq] at stepped
      subst stepped
      exact bounded_before field.world device
        ((field.world.devices device).writeBack (applier adapter)).2 ⟨le_rfl, fun _ => le_rfl⟩ bounded

end FieldWorld

end LibreSync
