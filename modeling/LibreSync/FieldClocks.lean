import LibreSync.RecordEdit

/-!
When the field clocks of a written record follow its changes: a changed field
is dated by the write, another one keeps its date, and the version that was
stored before takes every field of the write.
-/

namespace LibreSync

open Record

def Unchanged (found : Option SyncRecord) (record : SyncRecord) (field : String) : Prop :=
  ∃ existing, found = some existing ∧ existing.tombstone = false ∧
    FieldValue.partialEqOption existing.fields[field]? record.fields[field]? = true

structure FollowsChanges (found : Option SyncRecord) (written : SyncRecord) : Prop where
  changed : ∀ field value, written.fields[field]? = some value → ¬Unchanged found written field →
    written.fieldClock field = written.clock
  unchanged : ∀ existing, found = some existing → ∀ field value, written.fields[field]? = some value →
    Unchanged found written field → written.fieldClock field = existing.fieldClock field
  merged : ∀ existing, found = some existing → ∀ (policyForField : String → MergePolicy)
    (mergeCustom : CustomMerge) (field : String) (value : FieldValue),
    policyForField field = .lastWriterWins → written.fields[field]? = some value →
      (mergeRecords existing written policyForField mergeCustom).fields[field]? = some value

/-- The version that a write at `clock` meets does not win over it. -/
def Overtaken (existing record : SyncRecord) (clock : LamportClock) : Prop :=
  if existing.tombstone = false ∧ record.tombstone = false then
    ∀ field value, record.fields[field]? = some value → (existing.fields[field]?).isSome = true →
      ¬Unchanged (some existing) record field →
        existing.fieldClock field ≤ clock ∨ existing.fields[field]? = some value
  else existing.clock ≤ clock ∨
    ∀ (field : String) (value : FieldValue), record.fields[field]? = some value →
      existing.fields[field]? = some value

/-- The field clocks that a record brings along are those it would get without them. -/
structure Dated (found : Option SyncRecord) (record : SyncRecord) (clock : LamportClock) : Prop where
  changed : ∀ (field : String) (value : FieldValue) (given : LamportClock),
    record.fields[field]? = some value → record.fieldClocks[field]? = some given →
      ¬Unchanged found record field → given = clock
  unchanged : ∀ existing, found = some existing → ∀ (field : String) (value : FieldValue)
    (given : LamportClock), record.fields[field]? = some value →
      record.fieldClocks[field]? = some given → Unchanged found record field →
        given = existing.fieldClock field
  overtaken : ∀ existing, found = some existing → Overtaken existing record clock

variable {found : Option SyncRecord} {record existing : SyncRecord} {clock : LamportClock}
  {field : String} {value : FieldValue}

theorem inherited_changed (changed : ¬Unchanged found record field) :
    ({ record with clock := clock }).inheritedClock found field = clock := by
  simp only [SyncRecord.inheritedClock]
  split
  · rename_i existing
    split
    · rfl
    · rename_i live
      rw [if_neg]
      exact fun same => changed ⟨existing, rfl, by simpa using live, same⟩
  · rfl

theorem inherited_unchanged (same : Unchanged (some existing) record field) :
    ({ record with clock := clock }).inheritedClock (some existing) field =
      existing.fieldClock field := by
  obtain ⟨other, here, live, equal⟩ := same
  obtain rfl := Option.some.inj here
  simp only [SyncRecord.inheritedClock, live, Bool.false_eq_true, if_false, if_pos equal]

theorem changed_iff : (∀ field value, (record.stored found clock).fields[field]? = some value →
      ¬Unchanged found (record.stored found clock) field →
        (record.stored found clock).fieldClock field = (record.stored found clock).clock) ↔
    ∀ (field : String) (value : FieldValue) (given : LamportClock),
      record.fields[field]? = some value → record.fieldClocks[field]? = some given →
        ¬Unchanged found record field → given = clock := by
  constructor
  · intro follows field value given present supplied changed
    have date := follows field value present changed
    rw [stored_date record found clock present, supplied] at date
    exact date
  · intro dated field value present changed
    rw [stored_date record found clock present]
    cases supplied : record.fieldClocks[field]? with
    | none => exact inherited_changed changed
    | some given => exact dated field value given present supplied changed

theorem unchanged_iff : (∀ field value,
      (record.stored (some existing) clock).fields[field]? = some value →
        Unchanged (some existing) (record.stored (some existing) clock) field →
          (record.stored (some existing) clock).fieldClock field = existing.fieldClock field) ↔
    ∀ (field : String) (value : FieldValue) (given : LamportClock),
      record.fields[field]? = some value → record.fieldClocks[field]? = some given →
        Unchanged (some existing) record field → given = existing.fieldClock field := by
  constructor
  · intro follows field value given present supplied same
    have date := follows field value present same
    rw [stored_date record (some existing) clock present, supplied] at date
    exact date
  · intro dated field value present same
    rw [stored_date record (some existing) clock present]
    cases supplied : record.fieldClocks[field]? with
    | none => exact inherited_unchanged same
    | some given => exact dated field value given present supplied same

section Merged

variable (changed : ∀ field value, (record.stored (some existing) clock).fields[field]? = some value →
    ¬Unchanged (some existing) (record.stored (some existing) clock) field →
      (record.stored (some existing) clock).fieldClock field =
        (record.stored (some existing) clock).clock)
  (unchanged : ∀ field value, (record.stored (some existing) clock).fields[field]? = some value →
    Unchanged (some existing) (record.stored (some existing) clock) field →
      (record.stored (some existing) clock).fieldClock field = existing.fieldClock field)

include changed unchanged in
/-- Between live versions a field of the write loses only to a later change of the same field. -/
theorem merged_field_iff (existingLive : existing.tombstone = false)
    (recordLive : record.tombstone = false) {policyForField : String → MergePolicy}
    (mergeCustom : CustomMerge) (policy : policyForField field = .lastWriterWins)
    (present : record.fields[field]? = some value) :
    (mergeRecords existing (record.stored (some existing) clock) policyForField
        mergeCustom).fields[field]? = some value ↔
      ((existing.fields[field]?).isSome = true → ¬Unchanged (some existing) record field →
        existing.fieldClock field ≤ clock ∨ existing.fields[field]? = some value) := by
  have written : (record.stored (some existing) clock).fields[field]? = some value := present
  rw [mergeRecords_takes_iff policyForField mergeCustom existingLive
    (show (record.stored (some existing) clock).tombstone = false from recordLive) policy written]
  by_cases same : Unchanged (some existing) record field
  · rw [unchanged field value written same]
    simp [same]
  · rw [changed field value written same, stored_clock]
    simp [same]

include changed unchanged in
theorem merged_iff : (∀ (policyForField : String → MergePolicy) (mergeCustom : CustomMerge)
      (field : String) (value : FieldValue), policyForField field = .lastWriterWins →
        (record.stored (some existing) clock).fields[field]? = some value →
          (mergeRecords existing (record.stored (some existing) clock) policyForField
            mergeCustom).fields[field]? = some value) ↔ Overtaken existing record clock := by
  rw [Overtaken]
  split
  · rename_i live
    constructor
    · intro merges field value present
      exact (merged_field_iff changed unchanged live.1 live.2 _ rfl present).mp
        (merges (fun _ => .lastWriterWins) (fun _ _ _ _ _ => none) field value rfl present)
    · intro overtaken policyForField mergeCustom field value policy present
      exact (merged_field_iff changed unchanged live.1 live.2 mergeCustom policy present).mpr
        (overtaken field value present)
  · rename_i deleted
    have gone : existing.tombstone = true ∨ (record.stored (some existing) clock).tombstone = true := by
      rw [not_and_or, Bool.not_eq_false, Bool.not_eq_false] at deleted
      exact deleted
    have whole := fun policyForField mergeCustom => mergeRecords_deleted policyForField mergeCustom gone
    by_cases newer : existing.clock ≤ (record.stored (some existing) clock).clock
    · refine iff_of_true (fun policyForField mergeCustom field value _ present => ?_) (Or.inl newer)
      rw [whole, if_pos newer]
      exact present
    · constructor
      · intro merges
        refine Or.inr fun field value present => ?_
        have kept := merges (fun _ => .lastWriterWins) (fun _ _ _ _ _ => none) field value rfl present
        rwa [whole, if_neg newer] at kept
      · intro overtaken policyForField mergeCustom field value _ present
        rw [whole, if_neg newer]
        exact overtaken.resolve_left newer field value present

end Merged

theorem stored_follows_iff (found : Option SyncRecord) (record : SyncRecord) (clock : LamportClock) :
    FollowsChanges found (record.stored found clock) ↔ Dated found record clock := by
  constructor
  · rintro ⟨changed, unchanged, merged⟩
    refine ⟨changed_iff.mp changed, ?_, ?_⟩
    · rintro existing rfl
      exact unchanged_iff.mp (unchanged existing rfl)
    · rintro existing rfl
      exact (merged_iff changed (unchanged existing rfl)).mp (merged existing rfl)
  · rintro ⟨changed, unchanged, overtaken⟩
    have dated := changed_iff.mpr changed
    refine ⟨dated, ?_, ?_⟩
    · rintro existing rfl
      exact unchanged_iff.mpr (unchanged existing rfl)
    · rintro existing rfl
      exact (merged_iff dated (unchanged_iff.mpr (unchanged existing rfl))).mpr (overtaken existing rfl)

section Writes

variable {V : Type} [PayloadCodec V] {keyNamespace : String} {state after : State V}

structure Stores (keyNamespace : String) (state : State V) (record : SyncRecord) : Prop where
  entry : state.entries[recordEntryKey keyNamespace record.schema record.entity record.id]? =
    some (recordToEntry keyNamespace record)
  read : PayloadCodec.ReadsBack V record.payload →
    RecordState.get keyNamespace state record.schema record.entity record.id = .ok (some record)

theorem stores_of_entry (entry : state.entries[recordEntryKey keyNamespace record.schema
    record.entity record.id]? = some (recordToEntry keyNamespace record)) :
    Stores keyNamespace state record where
  entry := entry
  read reads := by
    simp only [RecordState.get, entry, entryToRecord_of_readsBack reads]

theorem set_stores
    (got : RecordState.get keyNamespace state record.schema record.entity record.id = .ok found)
    {entry : Entry V} (wrote : RecordState.set keyNamespace state record = .ok (entry, after)) :
    Stores keyNamespace after (record.stored found state.nextClock) := by
  rw [set_eq got] at wrote
  obtain ⟨-, rfl⟩ := Prod.mk.inj (Except.ok.inj wrote)
  refine stores_of_entry ?_
  rw [State.insertEntry_entries]
  exact if_pos rfl

theorem apply_stores
    (got : RecordState.get keyNamespace state record.schema record.entity record.id = .ok found)
    (wrote : RecordState.apply keyNamespace state record = .ok (true, after)) :
    Stores keyNamespace after (record.stored found record.clock) := by
  simp only [RecordState.apply, got] at wrote
  split at wrote
  · simp at wrote
  · have applied := Except.ok.inj wrote
    refine stores_of_entry ?_
    rcases State.applyEntry_cases state (recordToEntry keyNamespace (record.stampFieldClocks found))
      with ⟨_, _, _, refused⟩ | ⟨_, inserted⟩
    · rw [refused] at applied
      simp at applied
    · rw [inserted] at applied
      obtain ⟨-, rfl⟩ := Prod.mk.inj applied
      rw [State.insertEntry_entries]
      exact if_pos rfl

/-- What `set` and `apply` write follows the changes exactly when the write is dated so. -/
theorem writes_follow_iff (keyNamespace : String) (state : State V) (record : SyncRecord)
    {found : Option SyncRecord}
    (got : RecordState.get keyNamespace state record.schema record.entity record.id = .ok found) :
    (∀ entry after, RecordState.set keyNamespace state record = .ok (entry, after) →
      Stores keyNamespace after (record.stored found state.nextClock) ∧
        (FollowsChanges found (record.stored found state.nextClock) ↔
          Dated found record state.nextClock)) ∧
      ∀ after, RecordState.apply keyNamespace state record = .ok (true, after) →
        Stores keyNamespace after (record.stored found record.clock) ∧
          (FollowsChanges found (record.stored found record.clock) ↔
            Dated found record record.clock) :=
  ⟨fun _ _ wrote => ⟨set_stores got wrote, stored_follows_iff found record state.nextClock⟩,
    fun _ wrote => ⟨apply_stores got wrote, stored_follows_iff found record record.clock⟩⟩

end Writes

section Sample

def titledNote (title : String) : SyncRecord where
  schema := "notes"
  entity := "note"
  id := "1"
  fields := (∅ : BTreeMap String FieldValue).insert "title" (.string title)
  tombstone := false
  clock := {
    counter := 0
    deviceId := "" }
  updatedAt := none
  fieldClocks := ∅

def titledState : State RecordPayload :=
  match RecordState.set "app" (State.new "desk" "first") (titledNote "draft") with
  | .ok (_, state) => state
  | .error _ => State.new "desk" "first"

def readNote : SyncRecord := (titledNote "draft").stored none {
  counter := 1
  deviceId := "desk" }

def retitledNote : SyncRecord :=
  { readNote with fields := readNote.fields.insert "title" (.string "final") }

theorem readNote_read : RecordState.get "app" titledState "notes" "note" "1" = .ok (some readNote) := by
  decide +kernel

theorem writes_follow_titled : FollowsChanges (some readNote)
    ((titledNote "final").stored (some readNote) titledState.nextClock) ↔
      Dated (some readNote) (titledNote "final") titledState.nextClock := by
  have read : RecordState.get "app" titledState (titledNote "final").schema (titledNote "final").entity
      (titledNote "final").id = .ok (some readNote) := readNote_read
  exact ((writes_follow_iff "app" titledState (titledNote "final") read).1 _ _ (set_eq read)).2

/-- Read and edited, the title keeps the clock of the draft. -/
theorem retitled_stale :
    (∃ after, RecordState.set "app" titledState retitledNote = .ok (recordToEntry "app"
      (retitledNote.stored (some readNote) titledState.nextClock), after)) ∧
    ¬FollowsChanges (some readNote)
      (retitledNote.stored (some readNote) titledState.nextClock) := by
  refine ⟨⟨_, set_eq readNote_read⟩, fun follows => ?_⟩
  have present : (retitledNote.stored (some readNote) titledState.nextClock).fields["title"]? =
      some (.string "final") := by decide +kernel
  have dated := follows.changed "title" (.string "final") present (by
    rintro ⟨existing, here, -, same⟩
    obtain rfl := Option.some.inj here
    exact absurd same (by decide +kernel))
  exact absurd dated (by decide +kernel)

end Sample

end LibreSync
