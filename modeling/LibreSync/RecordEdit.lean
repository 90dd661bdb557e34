import LibreSync.RecordState

/-! A local edit of a record through `RecordState::set`, and the adapter's store. -/

namespace LibreSync

open Record

/-- An edit writes over a record without deleting it, a field or an appended item, and leaves the
clocks of the fields it changes to the state. Each of its floats is one that is read back. -/
structure EditKeeps (V : Type) [LawfulPayloadCodec V] (policy : String → MergePolicy)
    (found : Option SyncRecord) (record : SyncRecord) : Prop where
  live : record.tombstone = false
  finite : ∀ (field : String) (value : FieldValue), record.fields[field]? = some value →
    value.finite = true
  exact : ∀ (field : String) (value : FieldValue), record.fields[field]? = some value →
    value.floats (LawfulPayloadCodec.readsFloat V) = true
  shallow : ∀ (field : String) (value : FieldValue), record.fields[field]? = some value →
    value.Shallow
  clocks : ∀ (field : String) (clock : LamportClock), record.fieldClocks[field]? = some clock →
    (record.fields[field]?).isSome = true →
      ∃ existing, found = some existing ∧
        FieldValue.partialEqOption existing.fields[field]? record.fields[field]? = true ∧
          clock = existing.fieldClock field
  fields : ∀ existing, found = some existing → ∀ field : String,
    (existing.fields[field]?).isSome = true → (record.fields[field]?).isSome = true
  items : ∀ existing, found = some existing → ∀ (field : String) (value : FieldValue),
    policy field = .appendOnly → (opItems existing.fields[field]?).any (·.partialEq value) = true →
      (opItems record.fields[field]?).any (·.partialEq value) = true

def SyncRecord.stored (record : SyncRecord) (found : Option SyncRecord) (clock : LamportClock) :
    SyncRecord :=
  { record with clock := clock }.stampFieldClocks found

/-- Edits of one field that share a field clock wrote the same value. -/
def Agree (policy : String → MergePolicy) (history : List SyncRecord) : Prop :=
  ∀ left ∈ history, ∀ right ∈ history, recordKey left = recordKey right →
    ∀ (field : String) (leftValue rightValue : FieldValue), policy field = .lastWriterWins →
      left.fields[field]? = some leftValue → right.fields[field]? = some rightValue →
        left.fieldClock field = right.fieldClock field →
          leftValue.partialEq rightValue = true

variable {V : Type}

section Stored

variable [LawfulPayloadCodec V] {policy : String → MergePolicy} {history : List SyncRecord} {found : Option SyncRecord}
  {record : SyncRecord} {clock : LamportClock}

theorem stored_fields : (record.stored found clock).fields = record.fields := rfl

theorem stored_clock : (record.stored found clock).clock = clock := rfl

variable (record) in
theorem stored_date (found : Option SyncRecord) (clock : LamportClock) {field : String}
    {value : FieldValue} (present : record.fields[field]? = some value) :
    (record.stored found clock).fieldClock field =
      record.fieldClocks[field]?.getD
        ({ record with clock := clock }.inheritedClock found field) := by
  simp only [SyncRecord.fieldClock, SyncRecord.stored, SyncRecord.stampFieldClocks_get, present,
    Option.map_some, Option.getD_some]

theorem stored_fieldClock (clock : LamportClock) (keeps : EditKeeps V policy found record)
    {field : String} {value : FieldValue} (present : record.fields[field]? = some value) :
    (record.stored found clock).fieldClock field = clock ∨
      ∃ existing existingValue, found = some existing ∧
        existing.fields[field]? = some existingValue ∧ existingValue.partialEq value = true ∧
          (record.stored found clock).fieldClock field = existing.fieldClock field := by
  have date := stored_date record found clock present
  have unchanged : ∀ existing : SyncRecord,
      FieldValue.partialEqOption existing.fields[field]? record.fields[field]? = true →
        ∃ existingValue, existing.fields[field]? = some existingValue ∧
          existingValue.partialEq value = true := by
    intro existing same
    rcases FieldValue.partialEqOption_cases same with ⟨_, none⟩ | ⟨left, right, has, holds, equal⟩
    · rw [present] at none
      simp at none
    · obtain rfl : right = value := Option.some.inj (holds.symm.trans present)
      exact ⟨left, has, equal⟩
  rw [date]
  cases supplied : record.fieldClocks[field]? with
  | some given =>
      obtain ⟨existing, rfl, same, rfl⟩ := keeps.clocks field given supplied (by rw [present]; rfl)
      obtain ⟨existingValue, has, equal⟩ := unchanged existing same
      exact Or.inr ⟨existing, existingValue, rfl, has, equal, rfl⟩
  | none =>
      simp only [Option.getD_none, SyncRecord.inheritedClock]
      cases found with
      | none => exact Or.inl rfl
      | some existing =>
          by_cases deleted : existing.tombstone = true
          · exact Or.inl (if_pos deleted)
          · simp only [deleted, Bool.false_eq_true, if_false]
            by_cases same : FieldValue.partialEqOption existing.fields[field]?
                record.fields[field]? = true
            · obtain ⟨existingValue, has, equal⟩ := unchanged existing same
              exact Or.inr ⟨existing, existingValue, rfl, has, equal, if_pos same⟩
            · exact Or.inl (if_neg same)

theorem stored_tidy (keeps : EditKeeps V policy found record)
    (existingTidy : ∀ existing, found = some existing → existing.Tidy (LawfulPayloadCodec.readsFloat V) ∧
      existing.clock.counter < clock.counter) : (record.stored found clock).Tidy (LawfulPayloadCodec.readsFloat V) := by
  have stamped : (record.stored found clock).Stamped := by
    intro field
    simp only [SyncRecord.stored, SyncRecord.stampFieldClocks_get, Option.isSome_map]
    rfl
  refine ⟨keeps.live, stamped, keeps.finite, keeps.exact, keeps.shallow, ?_⟩
  intro field date known
  have present : (record.fields[field]?).isSome := (stamped field).symm.trans (by rw [known]; rfl)
  obtain ⟨value, holds⟩ := Option.isSome_iff_exists.mp present
  have same : (record.stored found clock).fieldClock field = date := by
    simp only [SyncRecord.fieldClock, known, Option.getD_some]
  rcases stored_fieldClock clock keeps holds with fresh | ⟨existing, _, rfl, _, _, old⟩
  · rw [← same, fresh]
    exact le_rfl
  · obtain ⟨tidy, before⟩ := existingTidy existing rfl
    rw [← same, old]
    exact (tidy.fieldClock_counter field).trans before.le

theorem stored_carries (keeps : EditKeeps V policy found record) {existing : SyncRecord}
    (here : found = some existing) (tidy : existing.Tidy (LawfulPayloadCodec.readsFloat V))
    (before : existing.clock.counter < clock.counter) {content : Content}
    (held : existing.Carries policy content) :
    (record.stored found clock).Carries policy content := by
  cases content with
  | version other =>
      exact (le_trans held (LamportClock.lt_of_counter_lt before).le : other ≤ clock)
  | item field value =>
      obtain ⟨append, holds⟩ := held
      exact ⟨append, keeps.items existing here field value append holds⟩
  | write field other =>
      obtain ⟨written, has, below⟩ := held
      obtain ⟨value, holds, rfl⟩ := Option.map_eq_some_iff.mp has
      obtain ⟨kept, present⟩ := Option.isSome_iff_exists.mp
        (keeps.fields existing here field (by rw [holds]; rfl))
      refine ⟨(record.stored found clock).fieldClock field, ?_, ?_⟩
      · simp only [SyncRecord.written, stored_fields, present, Option.map_some]
      · rcases stored_fieldClock clock keeps present with fresh | ⟨same, _, again, _, _, old⟩
        · rw [fresh]
          have older : existing.fieldClock field < clock :=
            LamportClock.lt_of_counter_lt ((tidy.fieldClock_counter field).trans_lt before)
          exact below.trans older.le
        · obtain rfl : existing = same := Option.some.inj (here.symm.trans again)
          rw [old]
          exact below

theorem stored_sound (keeps : EditKeeps V policy found record)
    (existingTidy : ∀ existing, found = some existing → existing.Tidy (LawfulPayloadCodec.readsFloat V) ∧
      existing.clock.counter < clock.counter) :
    (record.stored found clock).Sound V policy (record.stored found clock :: history) where
  tidy := stored_tidy keeps existingTidy
  vouched := by
    intro field value _ present
    exact ⟨_, List.mem_cons_self .., rfl, rfl, value, present,
      FieldValue.partialEq_refl (keeps.finite field value present)⟩

theorem stored_agree (keeps : EditKeeps V policy found record) (agree : Agree policy history)
    (existingSound : ∀ existing, found = some existing →
      existing.Sound V policy history ∧ recordKey existing = recordKey record)
    (fresh : ∀ edit ∈ history, ∀ (field : String) (value : FieldValue),
      policy field = .lastWriterWins → edit.fields[field]? = some value →
        edit.fieldClock field ≠ clock) :
    Agree policy (record.stored found clock :: history) := by
  have against : ∀ edit ∈ history, recordKey edit = recordKey record →
      ∀ (field : String) (value editValue : FieldValue), policy field = .lastWriterWins →
        record.fields[field]? = some value → edit.fields[field]? = some editValue →
          edit.fieldClock field = (record.stored found clock).fieldClock field →
            value.partialEq editValue = true := by
    intro edit member key field value editValue lww present editPresent same
    rcases stored_fieldClock clock keeps present with new | ⟨existing, old, here, has, equal, date⟩
    · exact absurd (same.trans new) (fresh edit member field editValue lww editPresent)
    · obtain ⟨sound, about⟩ := existingSound existing here
      obtain ⟨source, sourceMember, sourceKey, sourceClock, written, sourcePresent, twin⟩ :=
        sound.vouched field old lww has
      have known := agree source sourceMember edit member
        (sourceKey.trans (about.trans key.symm)) field written editValue lww sourcePresent
        editPresent (sourceClock.trans (date.symm.trans same.symm))
      exact FieldValue.partialEq_trans (FieldValue.partialEq_symm equal)
        (FieldValue.partialEq_trans twin known)
  intro left leftMember right rightMember key field leftValue rightValue lww leftHas rightHas same
  rcases List.mem_cons.mp leftMember with rfl | leftMember
  · rcases List.mem_cons.mp rightMember with rfl | rightMember
    · obtain rfl : leftValue = rightValue := Option.some.inj (leftHas.symm.trans rightHas)
      exact FieldValue.partialEq_refl (keeps.finite field leftValue leftHas)
    · exact against right rightMember key.symm field leftValue rightValue lww leftHas rightHas
        same.symm
  · rcases List.mem_cons.mp rightMember with rfl | rightMember
    · exact FieldValue.partialEq_symm
        (against left leftMember key field rightValue leftValue lww rightHas leftHas same)
    · exact agree left leftMember right rightMember key field leftValue rightValue lww leftHas
        rightHas same

end Stored

section States

variable {policy : String → MergePolicy} {history : List SyncRecord} {keyNamespace : String}
  {state : State V}

theorem set_eq [PayloadCodec V] {record : SyncRecord} {found : Option SyncRecord}
    (got : RecordState.get keyNamespace state record.schema record.entity record.id = .ok found) :
    RecordState.set keyNamespace state record =
      .ok (recordToEntry keyNamespace (record.stored found state.nextClock),
        { state with counter := saturatingSucc state.counter }.insertEntry
          (recordToEntry keyNamespace (record.stored found state.nextClock)) none) := by
  simp only [RecordState.set, got]
  rfl

variable [LawfulPayloadCodec V]

structure Edited (policy : String → MergePolicy) (history : List SyncRecord)
    (keyNamespace : String) (record : SyncRecord) (before after : State V) : Prop where
  sound : SoundState policy history keyNamespace after
  writes : State.Writes none before after
  wellFormed : after.sequence < u64Max → after.WellFormed
  keeps : ∀ key content, before.Holds (RecordCarries policy keyNamespace) key content →
    after.Holds (RecordCarries policy keyNamespace) key content
  holds : ∀ content, record.Carries policy content →
    after.Holds (RecordCarries policy keyNamespace)
      (recordToEntry keyNamespace record : Entry V).key content

theorem SoundState.existing_before (sound : SoundState policy history keyNamespace state)
    (valid : state.WellFormed) (room : state.counter < u64Max) {schema entity id : String}
    {found : Option SyncRecord}
    (got : RecordState.get keyNamespace state schema entity id = .ok found) :
    ∀ existing, found = some existing → existing.Sound V policy history ∧
      (existing.schema = schema ∧ existing.entity = entity ∧ existing.id = id) ∧
        existing.clock.counter < state.nextClock.counter ∧
          state.entries[recordEntryKey keyNamespace schema entity id]? =
            some (recordToEntry keyNamespace existing) := by
  rintro existing rfl
  rcases sound.get schema entity id with ⟨_, none⟩ | ⟨record, recordSound, same, present, some⟩
  · rw [none] at got
    simp at got
  · obtain rfl : record = existing := Option.some.inj (Except.ok.inj (some.symm.trans got))
    have counted := valid.counted _ _ present
    refine ⟨recordSound, same, ?_, present⟩
    simp only [State.nextClock, saturatingSucc_eq room]
    exact Nat.lt_succ_of_le counted

theorem SoundState.edited (sound : SoundState policy history keyNamespace state)
    (valid : state.WellFormed) (room : state.counter < u64Max) {record : SyncRecord}
    {found : Option SyncRecord}
    (got : RecordState.get keyNamespace state record.schema record.entity record.id = .ok found)
    (keeps : EditKeeps V policy found record) :
    Edited policy (record.stored found state.nextClock :: history) keyNamespace
      (record.stored found state.nextClock) state
      ({ state with counter := saturatingSucc state.counter }.insertEntry
        (recordToEntry keyNamespace (record.stored found state.nextClock)) none) := by
  have before := sound.existing_before valid room got
  have storedSound : (record.stored found state.nextClock).Sound V policy
      (record.stored found state.nextClock :: history) :=
    stored_sound keeps fun existing here =>
      ⟨(before existing here).1.tidy, (before existing here).2.2.1⟩
  have raised : state.counter ≤ saturatingSucc state.counter := le_saturatingSucc room.le
  have longer : SoundState policy (record.stored found state.nextClock :: history) keyNamespace
      ({ state with counter := saturatingSucc state.counter } : State V) :=
    ⟨sound.keyed, fun key entry present =>
      (sound.sound key entry present).mono (List.subset_cons_self ..)⟩
  refine ⟨longer.insertEntry ⟨_, storedSound, rfl⟩ none,
    (State.withCounter_writes none state raised).trans (State.insertEntry_writes _ _ none),
    State.insertEntry_wellFormed (State.withCounter_wellFormed valid raised) none le_rfl, ?_, ?_⟩
  · rintro key content ⟨entry, present, has⟩
    simp only [State.Holds, State.insertEntry_entries]
    split
    · rename_i here
      refine ⟨_, rfl, (recordCarries_iff storedSound.tidy content).mpr ?_⟩
      cases found with
      | none =>
          rcases sound.get record.schema record.entity record.id with ⟨absent, _⟩ | ⟨_, _, _, _, some⟩
          · have missing : state.entries[key]? = none := by
              rw [here]
              exact absent
            rw [missing] at present
            simp at present
          · rw [some] at got
            simp at got
      | some existing =>
          obtain ⟨existingSound, _, older, held⟩ := before existing rfl
          have same : entry = recordToEntry keyNamespace existing := by
            rw [here] at present
            exact Option.some.inj (present.symm.trans held)
          subst same
          exact stored_carries keeps rfl existingSound.tidy older
            ((recordCarries_iff existingSound.tidy content).mp has)
    · exact ⟨entry, present, has⟩
  · intro content has
    refine ⟨recordToEntry keyNamespace (record.stored found state.nextClock), ?_,
      (recordCarries_iff storedSound.tidy content).mpr has⟩
    rw [State.insertEntry_entries, if_pos rfl]

end States

section Store

variable [LawfulPayloadCodec V] (adapter : InMemoryLogicalAdapter)
  {history : List SyncRecord} {state : State V}

/-- The app store holds no version newer than the state's. -/
def StoreKnown (store : RecordStore) (state : State V) : Prop :=
  ∀ (key : RecordKey) (record : SyncRecord), store[key]? = some record →
    state.Holds (RecordCarries adapter.mergePolicy adapter.keyNamespace)
      (recordEntryKey adapter.keyNamespace record.schema record.entity record.id)
      (.version record.clock)

variable {adapter} in
theorem StoreKnown.mono {store : RecordStore} {after : State V}
    (known : StoreKnown adapter store state)
    (keeps : ∀ key content,
      state.Holds (RecordCarries adapter.mergePolicy adapter.keyNamespace) key content →
        after.Holds (RecordCarries adapter.mergePolicy adapter.keyNamespace) key content) :
    StoreKnown adapter store after :=
  fun key record found => keeps _ _ (known key record found)

theorem loadRecords_known
    (sound : SoundState adapter.mergePolicy history adapter.keyNamespace state)
    {records : List SyncRecord}
    (known : ∀ record ∈ records,
      state.Holds (RecordCarries adapter.mergePolicy adapter.keyNamespace)
        (recordEntryKey adapter.keyNamespace record.schema record.entity record.id)
        (.version record.clock)) :
    adapter.loadRecords records state = (.ok (), state) := by
  induction records with
  | nil => rfl
  | cons record rest ih =>
      obtain ⟨entry, present, decoded, read, older⟩ := known record (List.mem_cons_self ..)
      have skipped : RecordState.apply adapter.keyNamespace state record = .ok (false, state) := by
        rcases sound.get record.schema record.entity record.id with
          ⟨absent, _⟩ | ⟨existing, existingSound, _, held, got⟩
        · rw [absent] at present
          simp at present
        · obtain rfl : recordToEntry adapter.keyNamespace existing = entry :=
            Option.some.inj (held.symm.trans present)
          rw [entryToRecord_recordToEntry existingSound.tidy, Except.ok.injEq,
            Option.some.injEq] at read
          subst read
          have stale : record.clock ≤ existing.clock := older
          simp [RecordState.apply, got, stale]
      simp only [InMemoryLogicalAdapter.loadRecords, skipped]
      exact ih fun other member => known other (List.mem_cons_of_mem _ member)

theorem load_known [DecidableEq V] {store : RecordStore}
    (sound : SoundState adapter.mergePolicy history adapter.keyNamespace state)
    (known : StoreKnown adapter store state) :
    (adapter.router : AdapterRouter V RecordStore).applier.beforeExport state store =
      (.ok (), state, store) := by
  have loaded : adapter.loadRecords (BTreeMap.valueList store) state = (.ok (), state) := by
    refine loadRecords_known adapter sound fun record member => ?_
    obtain ⟨key, found⟩ := BTreeMap.mem_valueList.mp member
    exact known key record found
  simp only [AdapterRouter.applier, InMemoryLogicalAdapter.router, AdapterRouter.loadAll,
    LogicalAdapter.wrapper, InMemoryLogicalAdapter.logical, loaded]

theorem writeBack_known [DecidableEq V] {store : RecordStore}
    (sound : SoundState adapter.mergePolicy history adapter.keyNamespace state)
    (known : StoreKnown adapter store state) :
    StoreKnown adapter
      ((adapter.router : AdapterRouter V RecordStore).applier.afterApply state store).2 state := by
  have result : ((adapter.router : AdapterRouter V RecordStore).applier.afterApply state store).2 =
      (adapter.applyRecords state store).2 := by
    simp only [AdapterRouter.applier, InMemoryLogicalAdapter.router, AdapterRouter.writeAll,
      LogicalAdapter.wrapper, InMemoryLogicalAdapter.logical]
    cases adapter.applyRecords state store with
    | mk outcome store => cases outcome <;> rfl
  rw [result]
  simp only [InMemoryLogicalAdapter.applyRecords]
  cases read : RecordView.snapshot adapter.keyNamespace state with
  | error error => exact known
  | ok records =>
      have held : ∀ record ∈ records,
          state.Holds (RecordCarries adapter.mergePolicy adapter.keyNamespace)
            (recordEntryKey adapter.keyNamespace record.schema record.entity record.id)
            (.version record.clock) := by
        intro record member
        obtain ⟨entry, listed, decoded⟩ := snapshot_mem read record member
        obtain ⟨key, found⟩ := BTreeMap.mem_valueList.mp listed
        obtain ⟨source, sourceSound, rfl⟩ := sound.sound key entry found
        rw [entryToRecord_recordToEntry sourceSound.tidy, Except.ok.injEq,
          Option.some.injEq] at decoded
        subst decoded
        obtain rfl := sound.keyed key _ found
        refine ⟨_, found, (recordCarries_iff sourceSound.tidy _).mpr ?_⟩
        exact le_refl source.clock
      have collected : ∀ (records : List SyncRecord) (start : RecordStore),
          (∀ record ∈ records, state.Holds
            (RecordCarries adapter.mergePolicy adapter.keyNamespace)
            (recordEntryKey adapter.keyNamespace record.schema record.entity record.id)
            (.version record.clock)) →
          StoreKnown adapter start state → StoreKnown adapter
            (records.foldl (fun store record => store.insert (recordKey record) record) start)
            state := by
        intro records
        induction records with
        | nil => exact fun _ _ known => known
        | cons record rest ih =>
            intro start within begun
            refine ih _ (fun other member => within other (List.mem_cons_of_mem _ member)) ?_
            intro key other present
            rw [BTreeMap.get_insert] at present
            split at present
            · exact Option.some.inj present ▸ within record (List.mem_cons_self ..)
            · exact begun key other present
      exact collected records ∅ held (by intro key record present; simp at present)

end Store

end LibreSync
