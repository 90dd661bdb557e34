import LibreSync.RecordContent
import LibreSync.Adapter
import LibreSync.SyncInvariant

/-!
States whose entries are all live records of one namespace, with every value
vouched for by a local edit, and the merge of such records through a router.
-/

namespace LibreSync

open Record

/-- Every last-writer-wins value is one that some edit wrote at that field clock. -/
def SyncRecord.Vouched (policy : String → MergePolicy) (history : List SyncRecord)
    (record : SyncRecord) : Prop :=
  ∀ (field : String) (value : FieldValue), policy field = .lastWriterWins →
    record.fields[field]? = some value →
      ∃ edit ∈ history, recordKey edit = recordKey record ∧
        edit.fieldClock field = record.fieldClock field ∧
          ∃ written, edit.fields[field]? = some written ∧ value.partialEq written = true

structure SyncRecord.Sound (V : Type) [LawfulPayloadCodec V] (policy : String → MergePolicy)
    (history : List SyncRecord) (record : SyncRecord) : Prop where
  tidy : record.Tidy (LawfulPayloadCodec.readsFloat V)
  vouched : record.Vouched policy history

variable {V : Type}

theorem SyncRecord.Sound.mono [LawfulPayloadCodec V] {policy : String → MergePolicy} {history longer : List SyncRecord}
    {record : SyncRecord} (sound : record.Sound V policy history) (sub : history ⊆ longer) :
    record.Sound V policy longer where
  tidy := sound.tidy
  vouched := by
    intro field value lww found
    obtain ⟨edit, member, facts⟩ := sound.vouched field value lww found
    exact ⟨edit, sub member, facts⟩

theorem recordKey_eq_iff {left right : SyncRecord} : recordKey left = recordKey right ↔
    left.schema = right.schema ∧ left.entity = right.entity ∧ left.id = right.id := by
  simp only [recordKey, EmbeddingLike.apply_eq_iff_eq, Prod.mk.injEq]

theorem mergeRecords_sound [LawfulPayloadCodec V] {policy : String → MergePolicy} (keeps : KeepsContent policy)
    (mergeCustom : CustomMerge) {history : List SyncRecord} {existing incoming : SyncRecord}
    (existingSound : existing.Sound V policy history) (incomingSound : incoming.Sound V policy history)
    (same : recordKey existing = recordKey incoming) :
    (mergeRecords existing incoming policy mergeCustom).Sound V policy history ∧
      recordKey (mergeRecords existing incoming policy mergeCustom) = recordKey existing := by
  have key : recordKey (mergeRecords existing incoming policy mergeCustom) = recordKey existing :=
    recordKey_eq_iff.mpr (mergeRecords_id mergeCustom existingSound.tidy incomingSound.tidy)
  refine ⟨⟨mergeRecords_tidy mergeCustom keeps existingSound.tidy incomingSound.tidy, ?_⟩, key⟩
  intro field value lww found
  have merged := mergeRecords_register policy mergeCustom existingSound.tidy.live
    incomingSound.tidy.live lww
  have register : (mergeRecords existing incoming policy mergeCustom).register field =
      some ((mergeRecords existing incoming policy mergeCustom).fieldClock field, value) := by
    simp only [SyncRecord.register, found, Option.map_some]
  have source : ∀ record : SyncRecord, record.Sound V policy history →
      recordKey record = recordKey existing →
        (mergeRecords existing incoming policy mergeCustom).register field =
          record.register field →
        ∃ edit ∈ history,
          recordKey edit = recordKey (mergeRecords existing incoming policy mergeCustom) ∧
          edit.fieldClock field =
            (mergeRecords existing incoming policy mergeCustom).fieldClock field ∧
            ∃ written, edit.fields[field]? = some written ∧ value.partialEq written = true := by
    intro record sound about chosen
    rw [register] at chosen
    obtain ⟨held, present, pair⟩ := Option.map_eq_some_iff.mp chosen.symm
    simp only [Prod.mk.injEq] at pair
    obtain ⟨edit, member, editKey, editClock, written⟩ :=
      sound.vouched field value lww (pair.2 ▸ present)
    exact ⟨edit, member, editKey.trans (about.trans key.symm), editClock.trans pair.1, written⟩
  rcases LastWriter.later_cases (existing.register field) (incoming.register field) with
    ⟨chosen, -⟩ | ⟨chosen, -⟩
  · exact source existing existingSound rfl (merged.trans chosen)
  · exact source incoming incomingSound same.symm (merged.trans chosen)

theorem SyncRecord.stampFieldClocks_get (record : SyncRecord) (existing : Option SyncRecord)
    (field : String) : (record.stampFieldClocks existing).fieldClocks[field]? =
      record.fields[field]?.map fun _ =>
        record.fieldClocks[field]?.getD (record.inheritedClock existing field) := by
  simp only [stampFieldClocks, Std.ExtTreeMap.getElem?_filter']
  rw [BTreeMap.get_foldl_insert fun field clock _ =>
    clock.getD (record.inheritedClock existing field)]
  cases found : record.fields[field]? with
  | none => simp [Std.ExtTreeMap.contains_eq_isSome_getElem?, found]
  | some value => simp [Option.filter, Std.ExtTreeMap.contains_eq_isSome_getElem?, found]

theorem SyncRecord.Stamped.stampFieldClocks_eq {record : SyncRecord} (stamped : record.Stamped)
    (existing : Option SyncRecord) : record.stampFieldClocks existing = record := by
  have clocks : (record.stampFieldClocks existing).fieldClocks = record.fieldClocks := by
    refine Std.ExtTreeMap.ext_getElem? fun field => ?_
    rw [SyncRecord.stampFieldClocks_get]
    have both := stamped field
    cases found : record.fields[field]? with
    | none =>
        rw [found] at both
        simp only [Option.isSome_none, Option.isSome_eq_false_iff,
          Option.isNone_iff_eq_none] at both
        rw [both]
        rfl
    | some value =>
        rw [found] at both
        obtain ⟨clock, known⟩ := Option.isSome_iff_exists.mp both
        simp [known]
  have rest : record.stampFieldClocks existing =
      { record with fieldClocks := (record.stampFieldClocks existing).fieldClocks } := rfl
  rw [rest, clocks]

section Entries

variable [PayloadCodec V] {keyNamespace : String}

theorem entryToRecord_of_readsBack {record : SyncRecord}
    (reads : PayloadCodec.ReadsBack V record.payload) :
    entryToRecord (recordToEntry keyNamespace record : Entry V) keyNamespace =
      .ok (some record) := by
  have read : PayloadCodec.fromSlice (PayloadCodec.toVec record.payload : V) =
    .ok record.payload := reads
  simp only [entryToRecord, recordToEntry, parse_recordEntryKey, ne_eq, not_true, if_false, read]
  rfl

variable (keyNamespace) in
theorem foldlM_recordsOf {step : List SyncRecord → Entry V → Except Error (List SyncRecord)}
    (appends : ∀ records entry, step records entry =
      (entryToRecord entry keyNamespace).map fun found => records ++ found.toList)
    (entries : List (Entry V)) (start : List SyncRecord) :
    entries.foldlM step start = (recordsOf keyNamespace entries).map (start ++ ·) := by
  induction entries generalizing start with
  | nil => simp [recordsOf, Except.map, pure, Except.pure]
  | cons entry rest ih =>
      simp only [List.foldlM_cons, recordsOf, bind, Except.bind, appends]
      cases entryToRecord entry keyNamespace with
      | error error => rfl
      | ok found =>
          refine (ih (start ++ found.toList)).trans ?_
          cases found with
          | none => simp
          | some record => cases recordsOf keyNamespace rest <;> simp [Except.map]

theorem snapshot_recordsOf (keyNamespace : String) (state : State V) :
    RecordView.snapshot keyNamespace state = recordsOf keyNamespace state.snapshot := by
  refine (foldlM_recordsOf keyNamespace (fun records entry => ?_) state.snapshot []).trans ?_
  · simp only [bind, Except.bind]
    rcases entryToRecord entry keyNamespace with error | ⟨_ | record⟩ <;> simp [Except.map, pure,
      Except.pure]
  · cases recordsOf keyNamespace state.snapshot <;> simp [Except.map]

theorem recordsOf_mem {entries : List (Entry V)} {records : List SyncRecord}
    (read : recordsOf keyNamespace entries = .ok records) :
    ∀ record ∈ records, ∃ entry ∈ entries, entryToRecord entry keyNamespace = .ok (some record) := by
  induction entries generalizing records with
  | nil =>
      obtain rfl := Except.ok.inj read
      exact fun record member => absurd member List.not_mem_nil
  | cons entry rest ih =>
      have later {rest'} (rested : recordsOf keyNamespace rest = .ok rest') : ∀ record ∈ rest',
          ∃ other ∈ entry :: rest, entryToRecord other keyNamespace = .ok (some record) := by
        intro record member
        obtain ⟨other, listed, decoded⟩ := ih rested record member
        exact ⟨other, List.mem_cons_of_mem _ listed, decoded⟩
      simp only [recordsOf] at read
      split at read
      · simp at read
      · exact later read
      · rename_i found decoded
        cases rested : recordsOf keyNamespace rest with
        | error error =>
            rw [rested] at read
            simp [Except.map] at read
        | ok more =>
            rw [rested] at read
            obtain rfl := Except.ok.inj read
            intro record member
            rcases List.mem_cons.mp member with rfl | tail
            · exact ⟨entry, List.mem_cons_self, decoded⟩
            · exact later rested record tail

theorem recordsOf_ok_iff {entries : List (Entry V)} :
    (∃ records, recordsOf keyNamespace entries = .ok records) ↔
      ∀ entry ∈ entries, ∃ found, entryToRecord entry keyNamespace = .ok found := by
  induction entries with
  | nil => simp [recordsOf]
  | cons entry rest ih =>
      rw [List.forall_mem_cons, ← ih, recordsOf]
      cases entryToRecord entry keyNamespace with
      | error error => simp
      | ok found =>
          cases found with
          | none => simp
          | some record =>
              cases recordsOf keyNamespace rest <;> simp [Except.map]

theorem snapshot_mem {state : State V} {records : List SyncRecord}
    (read : RecordView.snapshot keyNamespace state = .ok records) :
    ∀ record ∈ records, ∃ entry ∈ state.snapshot,
      entryToRecord entry keyNamespace = .ok (some record) := by
  rw [snapshot_recordsOf] at read
  exact recordsOf_mem read

def RecordCarries (policy : String → MergePolicy) (keyNamespace : String) (entry : Entry V)
    (content : Content) : Prop :=
  ∃ record, entryToRecord entry keyNamespace = .ok (some record) ∧ record.Carries policy content

end Entries

section Sound

variable [LawfulPayloadCodec V] {keyNamespace : String}

theorem SyncRecord.Tidy.payload_lossless {record : SyncRecord}
    (tidy : record.Tidy (LawfulPayloadCodec.readsFloat V)) : record.payload.Lossless V where
  readable := tidy.payload_readable
  exact := SyncRecord.payload_floats_iff.mpr tidy.exact

theorem entryToRecord_recordToEntry {record : SyncRecord}
    (tidy : record.Tidy (LawfulPayloadCodec.readsFloat V)) :
    entryToRecord (recordToEntry keyNamespace record : Entry V) keyNamespace =
      .ok (some record) :=
  entryToRecord_of_readsBack tidy.payload_lossless.readsBack

theorem recordCarries_iff {policy : String → MergePolicy} {record : SyncRecord}
    (tidy : record.Tidy (LawfulPayloadCodec.readsFloat V)) (content : Content) :
    RecordCarries policy keyNamespace (recordToEntry keyNamespace record : Entry V) content ↔
      record.Carries policy content := by
  simp [RecordCarries, entryToRecord_recordToEntry tidy]

def SoundEntry (policy : String → MergePolicy) (history : List SyncRecord)
    (keyNamespace : String) (entry : Entry V) : Prop :=
  ∃ record : SyncRecord, record.Sound V policy history ∧ entry = recordToEntry keyNamespace record

structure SoundState (policy : String → MergePolicy) (history : List SyncRecord)
    (keyNamespace : String) (state : State V) : Prop where
  keyed : ∀ (key : String) (entry : Entry V), state.entries[key]? = some entry → entry.key = key
  sound : ∀ (key : String) (entry : Entry V), state.entries[key]? = some entry →
    SoundEntry policy history keyNamespace entry

variable {policy : String → MergePolicy} {history : List SyncRecord}

theorem SoundEntry.mono {longer : List SyncRecord} {entry : Entry V}
    (sound : SoundEntry policy history keyNamespace entry) (sub : history ⊆ longer) :
    SoundEntry policy longer keyNamespace entry := by
  obtain ⟨record, sound, rfl⟩ := sound
  exact ⟨record, sound.mono sub, rfl⟩

theorem SoundState.mono {longer : List SyncRecord} {state : State V}
    (sound : SoundState policy history keyNamespace state) (sub : history ⊆ longer) :
    SoundState policy longer keyNamespace state :=
  ⟨sound.keyed, fun key entry found => (sound.sound key entry found).mono sub⟩

theorem SoundState.get {state : State V} (sound : SoundState policy history keyNamespace state)
    (schema entity id : String) :
    (state.entries[recordEntryKey keyNamespace schema entity id]? = none ∧
        RecordState.get keyNamespace state schema entity id = .ok none) ∨
      ∃ record : SyncRecord, record.Sound V policy history ∧
        (record.schema = schema ∧ record.entity = entity ∧ record.id = id) ∧
        state.entries[recordEntryKey keyNamespace schema entity id]? =
          some (recordToEntry keyNamespace record) ∧
        RecordState.get keyNamespace state schema entity id = .ok (some record) := by
  simp only [RecordState.get]
  cases found : state.entries[recordEntryKey keyNamespace schema entity id]? with
  | none => exact Or.inl ⟨rfl, rfl⟩
  | some entry =>
      obtain ⟨record, recordSound, rfl⟩ := sound.sound _ entry found
      have key := sound.keyed _ _ found
      refine Or.inr ⟨record, recordSound, recordEntryKey_injective key, rfl, ?_⟩
      exact entryToRecord_recordToEntry recordSound.tidy

theorem SoundState.insertEntry {state : State V}
    (sound : SoundState policy history keyNamespace state) {entry : Entry V}
    (entrySound : SoundEntry policy history keyNamespace entry) (origin : Option String) :
    SoundState policy history keyNamespace (state.insertEntry entry origin) := by
  refine ⟨fun key other found => ?_, fun key other found => ?_⟩
  · rw [State.insertEntry_entries] at found
    split at found
    · rename_i same
      rw [← Option.some.inj found, same]
    · exact sound.keyed key other found
  · rw [State.insertEntry_entries] at found
    split at found
    · exact Option.some.inj found ▸ entrySound
    · exact sound.sound key other found

structure MergedRecords (policy : String → MergePolicy) (history : List SyncRecord)
    (keyNamespace : String) (records : List SyncRecord) (before after : State V) : Prop where
  sound : SoundState policy history keyNamespace after
  writes : State.Writes before.inboundOrigin before after
  wellFormed : before.WellFormed → after.sequence < u64Max → after.WellFormed
  content : ∀ key content, after.Holds (RecordCarries policy keyNamespace) key content ↔
    before.Holds (RecordCarries policy keyNamespace) key content ∨
      Carried (RecordCarries policy keyNamespace)
        (records.map (recordToEntry keyNamespace : SyncRecord → Entry V)) key content

theorem MergedRecords.refl {state : State V}
    (sound : SoundState policy history keyNamespace state) :
    MergedRecords policy history keyNamespace [] state state where
  sound := sound
  writes := State.Writes.refl _ state
  wellFormed := fun valid _ => valid
  content := by simp [Carried]

theorem MergedRecords.trans {record : SyncRecord} {rest : List SyncRecord}
    {first second third : State V}
    (earlier : MergedRecords policy history keyNamespace [record] first second)
    (later : MergedRecords policy history keyNamespace rest second third) :
    MergedRecords policy history keyNamespace (record :: rest) first third where
  sound := later.sound
  writes := by
    have writes := later.writes
    rw [earlier.writes.inboundOrigin] at writes
    exact earlier.writes.trans writes
  wellFormed := fun valid below => later.wellFormed
    (earlier.wellFormed valid ((later.writes.grows below).trans_lt below)) below
  content := by
    intro key content
    rw [later.content, earlier.content]
    simp only [Carried, List.map_cons, List.map_nil, List.mem_cons, List.not_mem_nil, or_false,
      exists_eq_left, exists_eq_or_imp, or_assoc]

theorem SoundState.upsertEntry [DecidableEq V] {state : State V}
    (sound : SoundState policy history keyNamespace state) {record merged : SyncRecord}
    (recordTidy : record.Tidy (LawfulPayloadCodec.readsFloat V)) (mergedSound : merged.Sound V policy history)
    (key : recordKey merged = recordKey record)
    (held : ∀ content, merged.Carries policy content ↔
      state.Holds (RecordCarries policy keyNamespace)
        (recordToEntry keyNamespace record : Entry V).key content ∨
        record.Carries policy content) :
    MergedRecords policy history keyNamespace [record] state
      (state.upsertEntry (recordToEntry keyNamespace merged)).2 := by
  have mergedKey : (recordToEntry keyNamespace merged : Entry V).key =
      (recordToEntry keyNamespace record : Entry V).key := by
    obtain ⟨schema, entity, id⟩ := recordKey_eq_iff.mp key
    simp only [recordToEntry, schema, entity, id]
  have raised : SoundState policy history keyNamespace
      (state.raiseCounter (recordToEntry keyNamespace merged : Entry V).clock) := by
    rw [State.raiseCounter_eq]
    exact ⟨sound.keyed, sound.sound⟩
  have entries : (state.raiseCounter (recordToEntry keyNamespace merged : Entry V).clock).entries =
      state.entries := by
    rw [State.raiseCounter_eq]
  have inbound : (state.raiseCounter
      (recordToEntry keyNamespace merged : Entry V).clock).inboundOrigin = state.inboundOrigin := by
    rw [State.raiseCounter_eq]
  have mergedEntry : ∀ content, RecordCarries policy keyNamespace
      (recordToEntry keyNamespace merged : Entry V) content ↔ merged.Carries policy content :=
    recordCarries_iff mergedSound.tidy
  have content : ∀ after : State V,
      (∀ query, after.entries[query]? =
        if query = (recordToEntry keyNamespace record : Entry V).key then
          some (recordToEntry keyNamespace merged) else state.entries[query]?) →
        ∀ query content, after.Holds (RecordCarries policy keyNamespace) query content ↔
          state.Holds (RecordCarries policy keyNamespace) query content ∨
            Carried (RecordCarries policy keyNamespace)
              ([record].map (recordToEntry keyNamespace : SyncRecord → Entry V)) query content := by
    intro after result query content
    simp only [Carried, List.map_cons, List.map_nil, List.mem_singleton, exists_eq_left,
      recordCarries_iff recordTidy]
    by_cases here : query = (recordToEntry keyNamespace record : Entry V).key
    · subst here
      have now : after.Holds (RecordCarries policy keyNamespace)
          (recordToEntry keyNamespace record : Entry V).key content ↔
          merged.Carries policy content := by
        simp only [State.Holds, result, if_true, Option.some.injEq, exists_eq_left', mergedEntry]
      rw [now, held]
      simp
    · have now : after.Holds (RecordCarries policy keyNamespace) query content ↔
          state.Holds (RecordCarries policy keyNamespace) query content := by
        simp only [State.Holds, result, if_neg here]
      rw [now]
      simp [Ne.symm here]
  have raisedWrites := State.raiseCounter_writes state.inboundOrigin state
    (recordToEntry keyNamespace merged : Entry V).clock
  by_cases unchanged : state.entries[(recordToEntry keyNamespace merged : Entry V).key]? =
      some (recordToEntry keyNamespace merged)
  · simp only [State.upsertEntry, entries, unchanged, if_true]
    refine ⟨raised, raisedWrites, fun valid _ => State.raiseCounter_wellFormed valid _, ?_⟩
    refine content _ fun query => ?_
    rw [entries]
    split
    · rename_i here
      rw [here, ← mergedKey, unchanged]
    · rfl
  · simp only [State.upsertEntry, entries, unchanged, if_false, inbound]
    refine ⟨raised.insertEntry ⟨merged, mergedSound, rfl⟩ _, ?_, ?_, ?_⟩
    · exact raisedWrites.trans (State.insertEntry_writes _ _ _)
    · intro valid below
      refine State.insertEntry_wellFormed (State.raiseCounter_wellFormed valid _) _ ?_ below
      rw [State.raiseCounter_eq]
      exact le_max_right _ _
    · refine content _ fun query => ?_
      rw [State.insertEntry_entries, entries, mergedKey]

theorem SoundState.upsert_eq [DecidableEq V] {state : State V}
    (sound : SoundState policy history keyNamespace state) {record : SyncRecord}
    (stamped : record.Stamped) : RecordState.upsert keyNamespace state record =
      .ok (state.upsertEntry (recordToEntry keyNamespace record)) := by
  rcases sound.get record.schema record.entity record.id with ⟨_, got⟩ | ⟨_, _, _, _, got⟩
  · simp only [RecordState.upsert, got, stamped.stampFieldClocks_eq]
  · simp only [RecordState.upsert, got, stamped.stampFieldClocks_eq]

theorem SoundState.mergeRecord [DecidableEq V] {state : State V}
    (sound : SoundState policy history keyNamespace state) (keeps : KeepsContent policy)
    (mergeCustom : CustomMerge) {record : SyncRecord} (recordSound : record.Sound V policy history)
    {found : Option SyncRecord}
    (got : RecordState.get keyNamespace state record.schema record.entity record.id = .ok found) :
    ∃ merged changed after,
      (found = none ∧ merged = record ∨ ∃ existing, found = some existing ∧
        merged = mergeRecords existing record policy mergeCustom) ∧
      RecordState.upsert keyNamespace state merged = .ok (changed, after) ∧
      MergedRecords policy history keyNamespace [record] state after := by
  rcases sound.get record.schema record.entity record.id with
    ⟨absent, nothing⟩ | ⟨existing, existingSound, same, present, something⟩
  · obtain rfl : none = found := Except.ok.inj (nothing.symm.trans got)
    refine ⟨record, _, _, Or.inl ⟨rfl, rfl⟩, sound.upsert_eq recordSound.tidy.stamped, ?_⟩
    refine sound.upsertEntry recordSound.tidy recordSound rfl fun content => ?_
    have none : ¬state.Holds (RecordCarries policy keyNamespace)
        (recordToEntry keyNamespace record : Entry V).key content := by
      rintro ⟨entry, held, -⟩
      simp [recordToEntry, absent] at held
    simp only [none, false_or]
  · obtain rfl : some existing = found := Except.ok.inj (something.symm.trans got)
    have key : recordKey existing = recordKey record := recordKey_eq_iff.mpr same
    obtain ⟨mergedSound, mergedKey⟩ :=
      mergeRecords_sound keeps mergeCustom existingSound recordSound key
    refine ⟨_, _, _, Or.inr ⟨existing, rfl, rfl⟩, sound.upsert_eq mergedSound.tidy.stamped, ?_⟩
    refine sound.upsertEntry recordSound.tidy mergedSound (mergedKey.trans key) fun content => ?_
    have here : state.Holds (RecordCarries policy keyNamespace)
        (recordToEntry keyNamespace record : Entry V).key content ↔
          existing.Carries policy content := by
      simp only [State.Holds, recordToEntry, present, Option.some.injEq, exists_eq_left']
      exact recordCarries_iff existingSound.tidy content
    rw [here]
    exact mergeRecords_carries mergeCustom existingSound.tidy recordSound.tidy content

theorem SoundState.applySnapshot [DecidableEq V] {state : State V} (keeps : KeepsContent policy)
    (mergeCustom : CustomMerge) {records : List SyncRecord}
    (sound : SoundState policy history keyNamespace state)
    (recordsSound : ∀ record ∈ records, record.Sound V policy history) :
    ∃ count after,
      applySnapshotWithPolicy keyNamespace policy mergeCustom records state = (.ok count, after) ∧
        MergedRecords policy history keyNamespace records state after := by
  induction records generalizing state with
  | nil => exact ⟨0, state, rfl, MergedRecords.refl sound⟩
  | cons record rest ih =>
      have recordSound := recordsSound record (List.mem_cons_self ..)
      have readable : ∃ found, RecordState.get keyNamespace state record.schema record.entity
          record.id = .ok found := by
        rcases sound.get record.schema record.entity record.id with ⟨_, got⟩ | ⟨_, _, _, _, got⟩
        · exact ⟨_, got⟩
        · exact ⟨_, got⟩
      obtain ⟨found, got⟩ := readable
      obtain ⟨merged, changed, middle, chosen, written, step⟩ :=
        sound.mergeRecord keeps mergeCustom recordSound got
      obtain ⟨count, after, applied, later⟩ := ih step.sound fun other member =>
        recordsSound other (List.mem_cons_of_mem _ member)
      refine ⟨count + changed.toNat, after, ?_, step.trans later⟩
      rcases chosen with ⟨rfl, rfl⟩ | ⟨existing, rfl, rfl⟩
      · simp only [applySnapshotWithPolicy, got, written, applied]
      · simp only [applySnapshotWithPolicy, got, written, applied]

theorem recordsOf_sound {entries : List (Entry V)}
    (sound : ∀ entry ∈ entries, SoundEntry policy history keyNamespace entry) :
    ∃ records, recordsOf keyNamespace entries = .ok records ∧
      entries = records.map (recordToEntry keyNamespace) ∧
        ∀ record ∈ records, record.Sound V policy history := by
  induction entries with
  | nil => exact ⟨[], rfl, rfl, by simp⟩
  | cons entry rest ih =>
      obtain ⟨record, recordSound, rfl⟩ := sound entry (List.mem_cons_self ..)
      obtain ⟨records, read, same, restSound⟩ :=
        ih fun other member => sound other (List.mem_cons_of_mem _ member)
      refine ⟨record :: records, ?_, by rw [same, List.map_cons], ?_⟩
      · simp only [recordsOf, entryToRecord_recordToEntry recordSound.tidy, read, Except.map]
      · simp only [List.mem_cons, forall_eq_or_imp]
        exact ⟨recordSound, restSound⟩

end Sound

section Router

variable [DecidableEq V] [LawfulPayloadCodec V] (adapter : InMemoryLogicalAdapter)
  {history : List SyncRecord}

def InMemoryLogicalAdapter.router : AdapterRouter V RecordStore where
  adapters := [adapter.logical.wrapper]
  ordered := List.pairwise_singleton _ _

theorem owner_sound {entry : Entry V}
    (sound : SoundEntry adapter.mergePolicy history adapter.keyNamespace entry) :
    (adapter.router : AdapterRouter V RecordStore).owner entry.key = some 0 := by
  obtain ⟨record, -, rfl⟩ := sound
  have owns : (adapter.logical.wrapper : DataAdapter V RecordStore).ownsKey
      (recordToEntry adapter.keyNamespace record : Entry V).key = true := by
    simp only [LogicalAdapter.wrapper, InMemoryLogicalAdapter.logical, recordToEntry,
      parse_recordEntryKey, decide_true]
  simp [AdapterRouter.owner, InMemoryLogicalAdapter.router, owns]

theorem router_merges {state : State V} {entries : List (Entry V)}
    (keeps : KeepsContent adapter.mergePolicy)
    (sound : SoundState adapter.mergePolicy history adapter.keyNamespace state)
    (entriesSound : ∀ entry ∈ entries,
      SoundEntry adapter.mergePolicy history adapter.keyNamespace entry) :
    ∃ count after records,
      (adapter.router : AdapterRouter V RecordStore).applyInbound entries state =
        (.ok count, after) ∧ entries = records.map (recordToEntry adapter.keyNamespace) ∧
      MergedRecords adapter.mergePolicy history adapter.keyNamespace records state after := by
  obtain ⟨records, read, same, recordsSound⟩ := recordsOf_sound entriesSound
  obtain ⟨count, after, applied, merged⟩ :=
    SoundState.applySnapshot keeps adapter.mergeCustom sound recordsSound
  have owned : (adapter.router : AdapterRouter V RecordStore).bucket entries (some 0) =
      entries := by
    refine List.filter_eq_self.mpr fun entry member => ?_
    simp only [owner_sound adapter (entriesSound entry member), decide_true]
  have unowned : (adapter.router : AdapterRouter V RecordStore).bucket entries none = [] := by
    refine List.filter_eq_nil_iff.mpr fun entry member => ?_
    simp [owner_sound adapter (entriesSound entry member)]
  refine ⟨count, after, records, ?_, same, merged⟩
  simp only [AdapterRouter.applyInbound, unowned]
  by_cases empty : entries = []
  · subst empty
    obtain rfl : records = [] := List.map_eq_nil_iff.mp same.symm
    simp only [applySnapshotWithPolicy, Prod.mk.injEq, Except.ok.injEq] at applied
    obtain ⟨rfl, rfl⟩ := applied
    simp [AdapterRouter.applyBuckets, InMemoryLogicalAdapter.router, AdapterRouter.bucket,
      State.mergeSnapshot]
  · have some : entries.isEmpty = false := by simpa using empty
    have apply : (adapter.logical.wrapper : DataAdapter V RecordStore).applyEntries entries state =
        (.ok count, after) := by
      simp only [LogicalAdapter.wrapper, InMemoryLogicalAdapter.logical, read]
      exact applied
    have adapters : (adapter.router : AdapterRouter V RecordStore).adapters =
      [adapter.logical.wrapper] := rfl
    simp only [adapters, AdapterRouter.applyBuckets, owned, some, Bool.false_eq_true, if_false,
      apply, State.mergeSnapshot, List.foldl_nil, Nat.add_zero]

end Router

end LibreSync
