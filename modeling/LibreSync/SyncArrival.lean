import LibreSync.SyncFields

/-!
One complete exchange with no other one under way brings every edit that is not
superseded, and every appended item, to the other device.
-/

namespace LibreSync

open Record

namespace FieldWorld

variable {V : Type} [DecidableEq V] [LawfulPayloadCodec V] {adapter : InMemoryLogicalAdapter}
  {field after : FieldWorld V}

def completeExchange (id : Nat) (client listener : String) : List FieldEvent :=
  [.exchange (.connect id client listener), .exchange (.answer id), .exchange (.mergeAsClient id),
    .exchange (.mergeAsListener id)]

theorem Reliable.reply (reliable : field.Reliable adapter) {id : Nat} {session : Session V}
    {cursor : PeerCursor} (found : field.world.sessions id = some session)
    (phase : session.phase = .requested cursor) :
    ∃ sent : Delta V, field.world.answer (applier adapter) id session cursor =
        field.world.setSession id (some { session with phase := .answered sent }) ∧
      ∀ key content, (field.world.state session.listener).Holds (Carries adapter) key content →
        (field.world.state session.client).Holds (Carries adapter) key content ∨
          Carried (Carries adapter) sent.entries key content ∨
            field.world.InFlight (Carries adapter) session.listener session.client key content := by
  obtain ⟨-, promised⟩ := reliable.synced.sessions id session found
  rw [phase] at promised
  obtain ⟨sent, entries, -, -, answered⟩ :=
    World.answer_eq id cursor (reliable.intact.loads session.listener)
  refine ⟨sent, answered, fun key content held => ?_⟩
  rw [entries]
  have reaches := World.outbound_reaches (reliable.synced.wellFormed session.listener)
    (promised (reliable.intact.alive id session found).1) held
  exact reaches.imp_right (Or.imp_right And.right)

theorem Reliable.respond (keeps : KeepsContent adapter.mergePolicy)
    (reliable : field.Reliable adapter) {id : Nat} {session : Session V} {delta : Delta V}
    (found : field.world.sessions id = some session) (phase : session.phase = .answered delta) :
    ∃ (sent : Delta V) (device : Device V RecordStore),
      field.world.mergeAsClient (applier adapter) id session delta =
        (field.world.setSession id (some { session with phase := .merged sent })).setDevice
          session.client device ∧
      (∀ key content, device.state.Holds (Carries adapter) key content ↔
        (field.world.state session.client).Holds (Carries adapter) key content ∨
          Carried (Carries adapter) delta.entries key content) ∧
      ∀ key content, (field.world.state session.client).Holds (Carries adapter) key content →
        (field.world.state session.listener).Holds (Carries adapter) key content ∨
          Carried (Carries adapter) sent.entries key content ∨
            field.world.InFlight (Carries adapter) session.client session.listener key content := by
  obtain ⟨-, promised⟩ := reliable.synced.sessions id session found
  rw [phase] at promised
  obtain ⟨sound, -⟩ := reliable.intact.answered id session delta found phase
  obtain ⟨merged, ⟨count, applied⟩, -, -, -, content, -⟩ :=
    reliable.intact.received keeps session.client session.listener sound
  obtain ⟨sent, entries, -, result⟩ := World.mergeAsClient_eq id applied
  refine ⟨sent, _, result, content, fun key content held => ?_⟩
  rw [entries]
  have reaches := World.outbound_reaches (reliable.synced.wellFormed session.client)
    (promised.2 (reliable.intact.alive id session found).2) held
  exact reaches.imp_right (Or.imp_right And.right)

theorem Intact.finish (keeps : KeepsContent adapter.mergePolicy) (intact : field.Intact adapter)
    {id : Nat} {session : Session V} {delta : Delta V}
    (found : field.world.sessions id = some session) (phase : session.phase = .merged delta) :
    ∃ device : Device V RecordStore,
      field.world.mergeAsListener (applier adapter) id session delta =
        (field.world.setDevice session.listener device).setSession id none ∧
      ∀ key content, device.state.Holds (Carries adapter) key content ↔
        (field.world.state session.listener).Holds (Carries adapter) key content ∨
          Carried (Carries adapter) delta.entries key content := by
  obtain ⟨sound, -⟩ := intact.merged id session delta found phase
  obtain ⟨merged, ⟨count, applied⟩, -, -, -, content, -⟩ :=
    intact.received keeps session.listener session.client sound
  exact ⟨_, World.mergeAsListener_eq id applied, content⟩

theorem complete_exchange (keeps : KeepsContent adapter.mergePolicy)
    (intact : field.Intact adapter) (reliable : field.Bounded → field.Reliable adapter)
    (quiet : ∀ id, field.world.sessions id = none) {id : Nat} {client listener : String}
    (exchanged : Transition.run (step adapter) field (completeExchange id client listener) =
      some after) (bounded : after.Bounded) :
    after.Intact adapter ∧ after.edits = field.edits ∧
      ∀ key content, (field.world.state client).Holds (Carries adapter) key content ∨
          (field.world.state listener).Holds (Carries adapter) key content →
        (after.world.state client).Holds (Carries adapter) key content ∧
          (after.world.state listener).Holds (Carries adapter) key content := by
  obtain ⟨_, connects, exchanged⟩ := Transition.run_cons exchanged
  obtain ⟨_, answers, exchanged⟩ := Transition.run_cons exchanged
  obtain ⟨_, merges, exchanged⟩ := Transition.run_cons exchanged
  obtain ⟨_, ends, exchanged⟩ := Transition.run_cons exchanged
  obtain rfl := Option.some.inj exchanged
  obtain ⟨requested, connected, rfl⟩ := Option.map_eq_some_iff.mp connects
  obtain ⟨answered, replied, rfl⟩ := Option.map_eq_some_iff.mp answers
  obtain ⟨merged, received, rfl⟩ := Option.map_eq_some_iff.mp merges
  obtain ⟨final, ended, rfl⟩ := Option.map_eq_some_iff.mp ends
  have requestedIntact := intact.exchange keeps connected
  have answeredIntact := requestedIntact.exchange keeps replied
  have mergedIntact := answeredIntact.exchange keeps received
  have finalIntact := mergedIntact.exchange keeps ended
  have mergedBounded := mergedIntact.bounded_exchange keeps ended bounded
  have answeredBounded := answeredIntact.bounded_exchange keeps received mergedBounded
  have requestedBounded := requestedIntact.bounded_exchange keeps replied answeredBounded
  have startBounded := intact.bounded_exchange keeps connected requestedBounded
  have requestedReliable := (reliable startBounded).step keeps ⟨startBounded, trivial⟩ connects
    requestedBounded
  have answeredReliable := requestedReliable.step keeps ⟨requestedBounded, trivial⟩ answers
    answeredBounded
  refine ⟨finalIntact, rfl, ?_⟩
  -- The four steps, with the one exchange under way written out.
  obtain ⟨-, distinct, rfl⟩ := World.exchange_connect connected
  obtain ⟨session, cursor, found, phase, -, rfl⟩ := World.exchange_answer replied
  obtain ⟨sent, answerEq, reply⟩ := requestedReliable.reply found phase
  obtain rfl := Option.some.inj (found.symm.trans ((World.setSession_sessions _ _ _ _).trans
    (if_pos rfl)))
  rw [answerEq] at received mergedIntact answeredIntact answeredReliable
  obtain ⟨session, delta, found, phase, -, rfl⟩ := World.exchange_mergeAsClient received
  obtain ⟨outbound, device, mergeEq, clientHolds, respond⟩ :=
    answeredReliable.respond keeps found phase
  obtain rfl := Option.some.inj (found.symm.trans ((World.setSession_sessions _ _ _ _).trans
    (if_pos rfl)))
  obtain rfl := Phase.answered.inj phase
  rw [mergeEq] at ended mergedIntact
  obtain ⟨session, delta, found, phase, -, rfl⟩ := World.exchange_mergeAsListener ended
  obtain ⟨last, finishEq, listenerHolds⟩ := mergedIntact.finish keeps found phase
  obtain rfl := Option.some.inj (found.symm.trans ((World.setSession_sessions _ _ _ _).trans
    (if_pos rfl)))
  obtain rfl := Phase.merged.inj phase
  -- No other exchange carries anything, so each delta brings what its receiver lacks.
  have alone : ∀ (next : Session V), (∀ delta, next.phase ≠ .merged delta) →
      ∀ first second key content, ¬(field.world.setSession id (some next)).InFlight
        (Carries adapter) first second key content := by
    rintro next unsent first second key content ⟨query, other, delta, present, -, -, sending, -⟩
    rw [World.setSession_sessions] at present
    split at present
    · exact unsent delta (Option.some.inj present ▸ sending)
    · rw [quiet query] at present
      simp at present
  have toClient : ∀ key content, (field.world.state listener).Holds (Carries adapter) key content →
      (field.world.state client).Holds (Carries adapter) key content ∨
        Carried (Carries adapter) sent.entries key content := by
    intro key content held
    rcases reply key content held with there | carried | flight
    · exact Or.inl there
    · exact Or.inr carried
    · exact absurd flight (alone _ (by simp) _ _ _ _)
  have toListener : ∀ key content, (field.world.state client).Holds (Carries adapter) key content →
      (field.world.state listener).Holds (Carries adapter) key content ∨
        Carried (Carries adapter) outbound.entries key content := by
    intro key content held
    rcases respond key content held with there | carried | flight
    · exact Or.inl there
    · exact Or.inr carried
    · rw [World.connect, World.setSession_setSession] at flight
      exact absurd flight (alone _ (by simp) _ _ _ _)
  rw [finishEq]
  intro key content held
  have onListener := listenerHolds key content
  rw [World.setDevice_state_ne _ _ distinct.symm] at onListener
  have onClient := clientHolds key content
  rw [World.setSession_state, World.setSession_state, World.setDevice_state_self,
    World.setDevice_state_ne _ _ distinct, World.setDevice_state_self]
  constructor
  · refine onClient.mpr ?_
    rcases held with held | held
    · exact Or.inl held
    · exact toClient key content held
  · refine onListener.mpr ?_
    rcases held with held | held
    · exact toListener key content held
    · exact Or.inl held

def Newest (field : FieldWorld V) (edit : SyncRecord) (name : String) : Prop :=
  ∀ other ∈ field.history, recordKey other = recordKey edit →
    (other.fields[name]?).isSome = true → other.fieldClock name ≤ edit.fieldClock name

/-- The record has the edit's value of every field that no later edit supersedes, and all its
appended items. -/
structure Arrived (adapter : InMemoryLogicalAdapter) (field : FieldWorld V)
    (edit record : SyncRecord) : Prop where
  written : ∀ (name : String) (value : FieldValue), adapter.mergePolicy name = .lastWriterWins →
    edit.fields[name]? = some value → field.Newest edit name →
      ∃ held, record.fields[name]? = some held ∧ held.partialEq value = true
  appended : ∀ (name : String) (value : FieldValue), adapter.mergePolicy name = .appendOnly →
    (opItems edit.fields[name]?).any (·.partialEq value) = true →
      (opItems record.fields[name]?).any (·.partialEq value) = true

omit [DecidableEq V] in
theorem Intact.arrived (intact : field.Intact adapter) {edit : SyncRecord}
    (member : edit ∈ field.history) {device : String}
    (held : ∀ content, edit.Carries adapter.mergePolicy content →
      (field.world.state device).Holds (Carries adapter)
        (recordEntryKey adapter.keyNamespace edit.schema edit.entity edit.id) content) :
    ∃ record, field.read adapter device edit = .ok (some record) ∧
      field.Arrived adapter edit record := by
  have version : (field.world.state device).Holds (Carries adapter)
      (recordEntryKey adapter.keyNamespace edit.schema edit.entity edit.id)
      (.version edit.clock) := held _ (le_refl edit.clock)
  rcases (intact.sound device).get edit.schema edit.entity edit.id with
    ⟨absent, _⟩ | ⟨record, sound, same, present, got⟩
  · obtain ⟨entry, found, -⟩ := version
    rw [absent] at found
    simp at found
  · have carries : ∀ content, edit.Carries adapter.mergePolicy content →
        record.Carries adapter.mergePolicy content := by
      intro content has
      obtain ⟨entry, found, carried⟩ := held content has
      obtain rfl := Option.some.inj (present.symm.trans found)
      exact (recordCarries_iff sound.tidy content).mp carried
    refine ⟨record, got, ?_, ?_⟩
    · intro name value lww wrote newest
      have since : record.Carries adapter.mergePolicy (.write name (edit.fieldClock name)) :=
        carries _ ⟨_, by simp only [SyncRecord.written, wrote, Option.map_some], le_rfl⟩
      obtain ⟨clock, written, later⟩ := since
      obtain ⟨value', has, rfl⟩ := Option.map_eq_some_iff.mp written
      -- Some edit wrote what the record has, at its clock; none wrote later than this one.
      obtain ⟨source, sourceMember, sourceKey, sourceClock, sourceValue, sourceHas, equal⟩ :=
        sound.vouched name value' lww has
      have about : recordKey source = recordKey edit :=
        sourceKey.trans (recordKey_eq_iff.mpr same)
      have newer := newest source sourceMember about (by rw [sourceHas]; rfl)
      have clocks : source.fieldClock name = edit.fieldClock name :=
        le_antisymm newer (sourceClock ▸ later)
      have agreed := intact.agree source sourceMember edit member about name sourceValue value lww
        sourceHas wrote clocks
      exact ⟨value', has, FieldValue.partialEq_trans equal agreed⟩
    · intro name value append has
      exact (carries (.item name value) ⟨append, has⟩).2

/-- In a run that loses nothing, every edit made on either side of a complete exchange has
arrived on both. -/
theorem edits_arrive (keeps : KeepsContent adapter.mergePolicy) {epochs : String → String}
    (reached : Transition.Reaches (step adapter) (Keeping adapter) (start epochs) field)
    (quiet : ∀ id, field.world.sessions id = none) {id : Nat} {client listener : String}
    (exchanged : Transition.run (step adapter) field (completeExchange id client listener) =
      some after) (bounded : after.Bounded) :
    ∀ item ∈ field.edits, item.1 = client ∨ item.1 = listener →
      ∀ device, device = client ∨ device = listener →
        ∃ record, after.read adapter device item.2 = .ok (some record) ∧
          field.Arrived adapter item.2 record := by
  intro item member author device side
  have intact := intact_of_reaches keeps reached
  obtain ⟨later, edits, shared⟩ := complete_exchange keeps intact
    (reliable_of_reaches keeps reached) quiet exchanged bounded
  have held : ∀ content, item.2.Carries adapter.mergePolicy content →
      (after.world.state device).Holds (Carries adapter)
        (recordEntryKey adapter.keyNamespace item.2.schema item.2.entity item.2.id) content := by
    intro content has
    have before := intact.edited item member content has
    obtain ⟨onClient, onListener⟩ := shared _ content (by
      rcases author with here | here
      · exact Or.inl (here ▸ before)
      · exact Or.inr (here ▸ before))
    rcases side with here | here
    · exact here ▸ onClient
    · exact here ▸ onListener
  have history : after.history = field.history := by simp only [FieldWorld.history, edits]
  obtain ⟨record, read, arrived⟩ := later.arrived
    (history ▸ List.mem_map_of_mem member) held
  refine ⟨record, read, ?_, arrived.appended⟩
  intro name value lww wrote newest
  refine arrived.written name value lww wrote ?_
  rwa [Newest, history]

def exchangeId : FieldEvent → Option Nat
  | .edit .. => none
  | .exchange event => event.exchangeId

def Spares (device : String) : FieldEvent → Prop
  | .edit name _ => name ≠ device
  | .exchange event => event.Spares device

theorem run_sessions {events : List FieldEvent}
    (ran : Transition.run (step adapter) field events = some after) {id : Nat}
    (apart : ∀ event ∈ events, exchangeId event ≠ some id) :
    after.world.sessions id = field.world.sessions id := by
  induction events generalizing field with
  | nil => rw [Option.some.inj ran]
  | cons event events ih =>
      obtain ⟨next, stepped, later⟩ := Transition.run_cons ran
      rw [ih later fun other member => apart other (List.mem_cons_of_mem _ member)]
      have here := apart event (List.mem_cons_self ..)
      cases event with
      | edit device record =>
          obtain ⟨_, -, rfl⟩ := edit_eq stepped
          rfl
      | exchange event =>
          obtain ⟨world, exchanged, rfl⟩ := Option.map_eq_some_iff.mp stepped
          exact World.exchange_sessions exchanged here

theorem run_devices {events : List FieldEvent}
    (ran : Transition.run (step adapter) field events = some after) {device : String}
    (idle : field.world.Idle device) (spared : ∀ event ∈ events, Spares device event) :
    after.world.devices device = field.world.devices device := by
  induction events generalizing field with
  | nil => rw [Option.some.inj ran]
  | cons event events ih =>
      obtain ⟨next, stepped, later⟩ := Transition.run_cons ran
      have rest := fun other member => spared other (List.mem_cons_of_mem _ member)
      have here := spared event (List.mem_cons_self ..)
      cases event with
      | edit name record =>
          obtain ⟨_, -, rfl⟩ := edit_eq stepped
          rw [ih later idle rest]
          exact Function.update_of_ne (Ne.symm here) _ _
      | exchange event =>
          obtain ⟨world, exchanged, rfl⟩ := Option.map_eq_some_iff.mp stepped
          obtain ⟨same, still⟩ := World.exchange_devices exchanged idle here
          exact (ih later still rest).trans same

section Notes

def notes : InMemoryLogicalAdapter where
  id := "notes"
  keyNamespace := "notes"
  mergePolicies := (∅ : BTreeMap String MergePolicy).insert "log" .appendOnly
  mergeCustom _ _ _ _ _ := none

theorem notes_keeps : KeepsContent notes.mergePolicy := by
  intro field
  have policies : notes.mergePolicies[field]? = if field = "log" then some .appendOnly else none := by
    simp only [notes, BTreeMap.get_insert, Std.ExtTreeMap.getElem?_empty]
  simp only [InMemoryLogicalAdapter.mergePolicy, policies]
  split
  · exact Or.inr rfl
  · exact Or.inl rfl

def note (title done : String) : SyncRecord where
  schema := "notes"
  entity := "Note"
  id := "1"
  fields := ((∅ : BTreeMap String FieldValue).insert "title" (.string title)).insert "done"
    (.string done)
  tombstone := false
  clock := { counter := 0, deviceId := "" }
  updatedAt := none
  fieldClocks := ∅

abbrev begun : FieldWorld RecordPayload := start fun device => device ++ "1"

theorem note_keeps (title done : String) :
    EditKeeps RecordPayload notes.mergePolicy none (note title done) where
  live := rfl
  finite := by
    intro field value found
    simp only [note, BTreeMap.get_insert, Std.ExtTreeMap.getElem?_empty] at found
    split at found
    · rw [← Option.some.inj found]
      rfl
    · split at found
      · rw [← Option.some.inj found]
        rfl
      · simp at found
  exact := by
    intro field value found
    simp only [note, BTreeMap.get_insert, Std.ExtTreeMap.getElem?_empty] at found
    split at found
    · rw [← Option.some.inj found]
      rfl
    · split at found
      · rw [← Option.some.inj found]
        rfl
      · simp at found
  shallow := by
    intro field value found
    simp only [note, BTreeMap.get_insert, Std.ExtTreeMap.getElem?_empty] at found
    split at found
    · rw [← Option.some.inj found]
      simp [FieldValue.Shallow, opItems, FieldValue.depth, recursionLimit]
    · split at found
      · rw [← Option.some.inj found]
        simp [FieldValue.Shallow, opItems, FieldValue.depth, recursionLimit]
      · simp at found
  clocks := by
    intro field clock found
    simp [note] at found
  fields := by simp
  items := by simp

theorem begun_bounded : begun.Bounded :=
  fun _ => by simp [begun, start, World.start, State.new, u64Max]

def exchangedOnce : Option (FieldWorld RecordPayload) :=
  (begun.step notes (.edit "phone" (note "milk" "no"))).bind fun field =>
    Transition.run (step notes) field (completeExchange 0 "phone" "laptop")

def counters (field : FieldWorld RecordPayload) (device : String) : Bool :=
  (field.world.state device).counter < u64Max && (field.world.state device).sequence < u64Max

theorem edits_arrive_once : ∃ field after : FieldWorld RecordPayload,
    begun.step notes (.edit "phone" (note "milk" "no")) = some field ∧
    Transition.run (step notes) field (completeExchange 0 "phone" "laptop") = some after ∧
    ∀ item ∈ field.edits, item.1 = "phone" ∨ item.1 = "laptop" →
      ∀ device, device = "phone" ∨ device = "laptop" →
        ∃ record, after.read notes device item.2 = .ok (some record) ∧
          field.Arrived notes item.2 record := by
  have ends : exchangedOnce.any (fun after => counters after "phone" && counters after "laptop") =
      true := by
    decide +kernel
  obtain ⟨after, ran, counted⟩ := (Option.any_eq_true _ _).mp ends
  obtain ⟨field, edited, exchanged⟩ := Option.bind_eq_some_iff.mp ran
  have set : begun.edit notes "phone" (note "milk" "no") = some field := edited
  obtain ⟨_, -, made⟩ := edit_eq set
  have reached : Transition.Reaches (step notes) (Keeping notes) begun field := by
    refine Transition.Reaches.next Transition.Reaches.start ⟨begun_bounded, ?_⟩ edited
    intro found got
    obtain rfl : none = found := Except.ok.inj got
    exact note_keeps "milk" "no"
  have quiet : ∀ id, field.world.sessions id = none := by
    rw [made]
    exact fun _ => rfl
  have bounded : after.Bounded := by
    simp only [counters, Bool.and_eq_true, decide_eq_true_eq] at counted
    intro device
    by_cases phone : device = "phone"
    · exact phone ▸ counted.1
    · by_cases laptop : device = "laptop"
      · exact laptop ▸ counted.2
      · have same : after.world.devices device = begun.world.devices device := by
          rw [run_devices exchanged (fun id session found => by simp [quiet] at found) (by
            simp [completeExchange, Spares, ExchangeEvent.Spares, Ne.symm phone, Ne.symm laptop])]
          rw [made]
          exact Function.update_of_ne phone _ _
        rw [World.state, same]
        exact begun_bounded device
  exact ⟨field, after, edited, exchanged,
    edits_arrive notes_keeps reached quiet exchanged bounded⟩

/-- Both sides have the note; the laptop finishes it while the phone retitles it; the phone merges
the laptop's delta and the connection drops before its own is merged. -/
def cutAfterMerge : List FieldEvent :=
  [.edit "phone" (note "milk" "no")] ++ completeExchange 0 "phone" "laptop" ++
    [.edit "laptop" (note "milk" "yes"), .edit "phone" (note "bread" "no"),
      .exchange (.connect 1 "phone" "laptop"), .exchange (.answer 1),
      .exchange (.mergeAsClient 1), .exchange (.cut 1)]

instance (field : FieldWorld RecordPayload) (edit : SyncRecord) (name : String) :
    Decidable (field.Newest edit name) :=
  inferInstanceAs (Decidable (∀ other ∈ field.history, _ → _ → _))

/-- The phone's title is the newest, and the laptop still has the old one. -/
def oldTitle (field after : FieldWorld RecordPayload) : Bool :=
  field.edits.any fun item =>
    item.1 = "phone" && item.2.fields["title"]? = some (.string "bread") &&
      field.Newest item.2 "title" &&
        match after.read notes "laptop" item.2 with
        | .ok (some record) => record.fields["title"]? = some (.string "milk")
        | _ => false

def recovered : Option (FieldWorld RecordPayload × FieldWorld RecordPayload) :=
  (Transition.run (step notes) begun cutAfterMerge).bind fun field =>
    (Transition.run (step notes) field (completeExchange 2 "phone" "laptop")).map fun after =>
      (field, after)

theorem cutAfterMerge_loses : ∃ field after : FieldWorld RecordPayload,
    Transition.run (step notes) begun cutAfterMerge = some field ∧
    (∀ id, field.world.sessions id = none) ∧
    Transition.run (step notes) field (completeExchange 2 "phone" "laptop") = some after ∧
    (∀ item ∈ field.edits, item.2.tombstone = false) ∧
    ∃ item ∈ field.edits, item.1 = "phone" ∧ ∀ record,
      after.read notes "laptop" item.2 = .ok (some record) → ¬field.Arrived notes item.2 record := by
  have ends : recovered.any (fun pair => oldTitle pair.1 pair.2 &&
      ((pair.1.world.sessions 0).isNone && (pair.1.world.sessions 1).isNone) &&
        pair.1.edits.all fun item => item.2.tombstone = false) = true := by
    decide +kernel
  obtain ⟨pair, ran, facts⟩ := (Option.any_eq_true _ _).mp ends
  obtain ⟨field, cut, mapped⟩ := Option.bind_eq_some_iff.mp ran
  obtain ⟨after, exchanged, rfl⟩ := Option.map_eq_some_iff.mp mapped
  simp only [Bool.and_eq_true, Option.isNone_iff_eq_none, List.all_eq_true,
    decide_eq_true_eq] at facts
  obtain ⟨⟨old, first, second⟩, live⟩ := facts
  refine ⟨field, after, cut, ?_, exchanged, live, ?_⟩
  · intro id
    by_cases here : id = 0 ∨ id = 1
    · rcases here with rfl | rfl
      · exact first
      · exact second
    · have apart : ∀ event ∈ cutAfterMerge, exchangeId event ≠ some id := by
        simp only [not_or] at here
        simp [cutAfterMerge, completeExchange, exchangeId, ExchangeEvent.exchangeId, Ne.symm here.1,
          Ne.symm here.2]
      rw [run_sessions cut apart]
      rfl
  · obtain ⟨item, member, newest⟩ := List.any_eq_true.mp old
    simp only [Bool.and_eq_true, decide_eq_true_eq] at newest
    obtain ⟨⟨⟨author, wrote⟩, newest⟩, stale⟩ := newest
    refine ⟨item, member, author, fun record read arrived => ?_⟩
    obtain ⟨held, has, equal⟩ := arrived.written "title" (.string "bread") (by decide +kernel) wrote
      newest
    rw [read] at stale
    simp only [decide_eq_true_eq] at stale
    rw [stale] at has
    obtain rfl := Option.some.inj has
    simp [FieldValue.partialEq] at equal

end Notes

end FieldWorld

end LibreSync
