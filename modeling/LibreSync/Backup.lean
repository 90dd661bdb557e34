import LibreSync.RecordRouting
import LibreSync.FieldClocks

/-! Backups of a namespace: exported records, and their restore through the field merge. -/

namespace LibreSync

open Record

section Model

variable {V σ : Type} [PayloadCodec V]

/-- `LogicalAdapterWrapper::export_snapshot`, with the adapter's default export. -/
def LogicalAdapter.exportSnapshot (inner : LogicalAdapter V σ) (state : State V) :
    Except Error (List (Entry V)) :=
  (RecordView.snapshot inner.keyNamespace state).map
    (·.map (recordToEntry inner.keyNamespace))

omit [PayloadCodec V] in
def reclockEntriesForRestore (state : State V) : List (Entry V) → List (Entry V) × State V
  | [] => ([], state)
  | entry :: rest =>
      let state := { state with counter := saturatingSucc state.counter }
      let (entries, after) := reclockEntriesForRestore state rest
      let clock : LamportClock := {
        counter := state.counter
        deviceId := state.deviceId }
      ({ entry with clock := clock } :: entries, after)

def restoreSnapshot (adapter : DataAdapter V σ) (stored : Except Error (List (Entry V)))
    (confirm : Bool) (state : State V) : Except Error Unit × State V :=
  if ¬confirm then (.error (.protocol "restore requires explicit confirmation"), state)
  else match stored with
    | .error error => (.error error, state)
    | .ok entries =>
        let (entries, state) := reclockEntriesForRestore state entries
        let (result, state) := adapter.applyEntries entries state
        (result.map fun _ => (), state)

def restoredRecords (state : State V) : List SyncRecord → List SyncRecord
  | [] => []
  | record :: rest =>
      let state := { state with counter := saturatingSucc state.counter }
      let clock : LamportClock := {
        counter := state.counter
        deviceId := state.deviceId }
      { record with clock := clock } :: restoredRecords state rest

/-- The record in the state has the tombstone flag and every field of the record of the snapshot. -/
def BroughtBack (keyNamespace : String) (state : State V) (record : SyncRecord) : Prop :=
  ∃ final, RecordState.get keyNamespace state record.schema record.entity record.id =
      .ok (some final) ∧ final.tombstone = record.tombstone ∧
    ∀ (field : String) (value : FieldValue), record.fields[field]? = some value →
      final.fields[field]? = some value

end Model

/--
The merge of a restored version into the present one gives the restored one: no
field of a live version is dated after the backup's, and a tombstone not after
the restore, unless they hold the same anyway.
-/
def Restorable (existing restored : SyncRecord) : Prop :=
  if existing.tombstone = false ∧ restored.tombstone = false then
    ∀ (field : String) (value : FieldValue), restored.fields[field]? = some value →
      (existing.fields[field]?).isSome = true →
        existing.fieldClock field ≤ restored.fieldClock field ∨ existing.fields[field]? = some value
  else existing.clock ≤ restored.clock ∨ (existing.tombstone = restored.tombstone ∧
    ∀ (field : String) (value : FieldValue), restored.fields[field]? = some value →
      existing.fields[field]? = some value)

section Merge

variable {existing restored : SyncRecord} {policyForField : String → MergePolicy}
  (mergeCustom : CustomMerge)

theorem merge_restores_iff (lastWriterWins : ∀ field, policyForField field = .lastWriterWins) :
    ((mergeRecords existing restored policyForField mergeCustom).tombstone = restored.tombstone ∧
      ∀ (field : String) (value : FieldValue), restored.fields[field]? = some value →
        (mergeRecords existing restored policyForField mergeCustom).fields[field]? = some value) ↔
      Restorable existing restored := by
  rw [Restorable]
  split
  · rename_i live
    have merged := (mergeRecords_live policyForField mergeCustom live.1 live.2).1
    rw [merged, live.2]
    simp only [true_and]
    refine forall₃_congr fun field value present => ?_
    exact mergeRecords_takes_iff policyForField mergeCustom live.1 live.2 (lastWriterWins field) present
  · rename_i deleted
    rw [not_and_or, Bool.not_eq_false, Bool.not_eq_false] at deleted
    rw [mergeRecords_deleted policyForField mergeCustom deleted]
    by_cases newer : existing.clock ≤ restored.clock
    · rw [if_pos newer]
      exact iff_of_true ⟨rfl, fun _ _ present => present⟩ (Or.inl newer)
    · rw [if_neg newer]
      exact ⟨Or.inr, fun either => either.resolve_left newer⟩

theorem merge_fields (lastWriterWins : ∀ field, policyForField field = .lastWriterWins)
    {field : String} {value : FieldValue}
    (held : (mergeRecords existing restored policyForField mergeCustom).fields[field]? = some value) :
    existing.fields[field]? = some value ∨ restored.fields[field]? = some value := by
  by_cases live : existing.tombstone = false ∧ restored.tombstone = false
  · rw [mergeRecords_field policyForField mergeCustom live.1 live.2, lastWriterWins] at held
    cases incoming : restored.fields[field]? with
    | none =>
        rw [incoming] at held
        exact Or.inl held
    | some given =>
        rw [incoming] at held
        simp only [mergeField, Option.some.injEq] at held
        split at held
        · exact Or.inr (congrArg some held)
        · cases present : existing.fields[field]? with
          | none =>
              rw [present] at held
              exact Or.inr (congrArg some held)
          | some kept =>
              rw [present] at held
              exact Or.inl (congrArg some held)
  · rw [not_and_or, Bool.not_eq_false, Bool.not_eq_false] at live
    rw [mergeRecords_deleted policyForField mergeCustom live] at held
    split at held
    · exact Or.inr held
    · exact Or.inl held

theorem merge_id (same : recordKey existing = recordKey restored) :
    recordKey (mergeRecords existing restored policyForField mergeCustom) = recordKey restored := by
  simp only [mergeRecords]
  split
  · split
    · rfl
    · exact same
  · split
    · split
      · rfl
      · exact same
    · exact same

end Merge

section Restore

variable {V σ : Type} [DecidableEq V] [PayloadCodec V] {keyNamespace : String}
  {policyForField : String → MergePolicy} {mergeCustom : CustomMerge}

def storedKey (keyNamespace : String) (record : SyncRecord) : String :=
  recordEntryKey keyNamespace record.schema record.entity record.id

theorem storedKey_eq_iff {left right : SyncRecord} :
    storedKey keyNamespace left = storedKey keyNamespace right ↔ recordKey left = recordKey right := by
  constructor
  · exact fun same => recordKey_eq_iff.mpr (recordEntryKey_injective same)
  · intro same
    obtain ⟨schema, entity, id⟩ := recordKey_eq_iff.mp same
    rw [storedKey, storedKey, schema, entity, id]

omit [DecidableEq V] in
theorem get_congr {state other : State V} {record : SyncRecord}
    (same : state.entries[storedKey keyNamespace record]? =
      other.entries[storedKey keyNamespace record]?) :
    RecordState.get keyNamespace state record.schema record.entity record.id =
      RecordState.get keyNamespace other record.schema record.entity record.id := by
  rw [storedKey] at same
  rw [RecordState.get, RecordState.get, same]

omit [DecidableEq V] in
theorem get_recordKey {state : State V} (keyed : state.Keyed) {record existing : SyncRecord}
    (got : RecordState.get keyNamespace state record.schema record.entity record.id =
      .ok (some existing)) : recordKey existing = recordKey record := by
  rw [RecordState.get] at got
  cases found : state.entries[recordEntryKey keyNamespace record.schema record.entity record.id]? with
  | none =>
      rw [found] at got
      simp at got
  | some entry =>
      rw [found] at got
      simp only [entryToRecord, keyed _ _ found, parse_recordEntryKey, ne_eq, not_true,
        if_false] at got
      split at got
      · simp at got
      · rw [← Option.some.inj (Except.ok.inj got)]
        rfl

def mergedVersion (policyForField : String → MergePolicy) (mergeCustom : CustomMerge)
    (found : Option SyncRecord) (record : SyncRecord) : SyncRecord :=
  match found with
  | some existing => mergeRecords existing record policyForField mergeCustom
  | none => record

variable (policyForField mergeCustom) in
theorem upsert_merged {state : State V} (keyed : state.Keyed) {record : SyncRecord}
    {found : Option SyncRecord}
    (got : RecordState.get keyNamespace state record.schema record.entity record.id = .ok found) :
    ∃ changed after, RecordState.upsert keyNamespace state
        (mergedVersion policyForField mergeCustom found record) = .ok (changed, after) ∧
      after.Keyed ∧ ∀ key, after.entries[key]? =
        if key = storedKey keyNamespace record then
          some (recordToEntry keyNamespace
            ((mergedVersion policyForField mergeCustom found record).stampFieldClocks found))
        else state.entries[key]? := by
  have same : recordKey (mergedVersion policyForField mergeCustom found record) = recordKey record := by
    cases found with
    | none => rfl
    | some existing => exact merge_id mergeCustom (get_recordKey keyed got)
  have key : storedKey keyNamespace (mergedVersion policyForField mergeCustom found record) =
      storedKey keyNamespace record := storedKey_eq_iff.mpr same
  obtain ⟨schema, entity, id⟩ := recordKey_eq_iff.mp same
  have wrote : RecordState.upsert keyNamespace state
      (mergedVersion policyForField mergeCustom found record) = .ok (state.upsertEntry (recordToEntry
        keyNamespace ((mergedVersion policyForField mergeCustom found record).stampFieldClocks found))) := by
    simp only [RecordState.upsert, schema, entity, id, got]
  have stored : (recordToEntry keyNamespace ((mergedVersion policyForField mergeCustom found
      record).stampFieldClocks found) : Entry V).key = storedKey keyNamespace record := key
  generalize (recordToEntry keyNamespace ((mergedVersion policyForField mergeCustom found
    record).stampFieldClocks found) : Entry V) = entry at wrote stored ⊢
  have entries := State.upsertEntry_entries state entry
  refine ⟨(state.upsertEntry entry).1, (state.upsertEntry entry).2, wrote, ?_, fun query => ?_⟩
  · intro query other held
    rw [entries] at held
    split at held
    · rename_i here
      rw [here, ← Option.some.inj held]
    · exact keyed query other held
  · rw [entries, stored]

theorem applySnapshot_cons {record : SyncRecord} {rest : List SyncRecord} {state after : State V}
    {count : Nat} (ran : applySnapshotWithPolicy keyNamespace policyForField mergeCustom
      (record :: rest) state = (.ok count, after)) : ∃ found changed middle more,
    RecordState.get keyNamespace state record.schema record.entity record.id = .ok found ∧
      RecordState.upsert keyNamespace state
        (mergedVersion policyForField mergeCustom found record) = .ok (changed, middle) ∧
      applySnapshotWithPolicy keyNamespace policyForField mergeCustom rest middle =
        (.ok more, after) := by
  rw [applySnapshotWithPolicy] at ran
  cases got : RecordState.get keyNamespace state record.schema record.entity record.id with
  | error error =>
      rw [got] at ran
      simp at ran
  | ok found =>
      rw [got] at ran
      rcases found with _ | existing
      all_goals
        dsimp only at ran
        split at ran
        · simp at ran
        · rename_i changed middle wrote
          split at ran
          · rename_i more later rested
            simp only [Prod.mk.injEq] at ran
            exact ⟨_, changed, middle, more, rfl, wrote, ran.2 ▸ rested⟩
          · simp at ran

theorem applySnapshot_writes {records : List SyncRecord} {state after : State V} {count : Nat}
    (keyed : state.Keyed) (distinct : (records.map recordKey).Nodup)
    (ran : applySnapshotWithPolicy keyNamespace policyForField mergeCustom records state =
      (.ok count, after)) :
    (∀ record ∈ records, ∃ found,
      RecordState.get keyNamespace state record.schema record.entity record.id = .ok found ∧
        after.entries[storedKey keyNamespace record]? = some (recordToEntry keyNamespace
          ((mergedVersion policyForField mergeCustom found record).stampFieldClocks found))) ∧
      ∀ key, (∀ record ∈ records, key ≠ storedKey keyNamespace record) →
        after.entries[key]? = state.entries[key]? := by
  induction records generalizing state count with
  | nil =>
      simp only [applySnapshotWithPolicy, Prod.mk.injEq] at ran
      rw [ran.2]
      exact ⟨fun record member => absurd member List.not_mem_nil, fun _ _ => rfl⟩
  | cons record rest ih =>
      rw [List.map_cons, List.nodup_cons] at distinct
      obtain ⟨found, changed, middle, more, got, wrote, rested⟩ := applySnapshot_cons ran
      obtain ⟨_, next, written, nextKeyed, entries⟩ := upsert_merged
        policyForField mergeCustom keyed got
      obtain ⟨-, rfl⟩ := Prod.mk.inj (Except.ok.inj (wrote.symm.trans written))
      obtain ⟨writes, frame⟩ := ih nextKeyed distinct.2 rested
      have apart : ∀ other ∈ rest, storedKey keyNamespace other ≠ storedKey keyNamespace record := by
        intro other member same
        exact distinct.1 (storedKey_eq_iff.mp same ▸ List.mem_map_of_mem member)
      refine ⟨?_, ?_⟩
      · intro other member
        rcases List.mem_cons.mp member with rfl | later
        · refine ⟨found, got, ?_⟩
          rw [frame _ fun next member => (apart next member).symm, entries, if_pos rfl]
        · obtain ⟨held, read, entry⟩ := writes other later
          refine ⟨held, ?_, entry⟩
          rw [← read]
          refine get_congr ?_
          rw [entries, if_neg (apart other later)]
      · intro key others
        rw [frame key fun other member => others other (List.mem_cons_of_mem _ member), entries,
          if_neg (others record List.mem_cons_self)]

omit [DecidableEq V] in
theorem reclock_records (keyNamespace : String) (state : State V) (records : List SyncRecord) : ∃ counter,
    reclockEntriesForRestore state (records.map (recordToEntry keyNamespace)) =
      ((restoredRecords state records).map (recordToEntry keyNamespace),
        { state with counter := counter }) := by
  induction records generalizing state with
  | nil => exact ⟨state.counter, rfl⟩
  | cons record rest ih =>
      obtain ⟨counter, reclocked⟩ := ih { state with counter := saturatingSucc state.counter }
      refine ⟨counter, ?_⟩
      simp only [List.map_cons, reclockEntriesForRestore, reclocked, restoredRecords]
      rfl

omit [DecidableEq V] [PayloadCodec V] in
theorem forall_restored (holds : SyncRecord → Prop)
    (clockless : ∀ record clock, holds { record with clock := clock } ↔ holds record)
    (state : State V) (records : List SyncRecord) :
    (∀ record ∈ restoredRecords state records, holds record) ↔ ∀ record ∈ records, holds record := by
  induction records generalizing state with
  | nil => rfl
  | cons record rest ih => simp only [restoredRecords, List.forall_mem_cons, clockless, ih]

omit [DecidableEq V] [PayloadCodec V] in
theorem restoredRecords_keys (state : State V) (records : List SyncRecord) :
    (restoredRecords state records).map recordKey = records.map recordKey := by
  induction records generalizing state with
  | nil => rfl
  | cons record rest ih =>
      rw [restoredRecords, List.map_cons, List.map_cons, ih]
      rfl

end Restore

section Lossless

variable {V σ : Type} [LawfulPayloadCodec V] {keyNamespace : String}
  {policyForField : String → MergePolicy} {mergeCustom : CustomMerge}

theorem lossless_iff {record : SyncRecord} : record.payload.Lossless V ↔
    ∀ (field : String) (value : FieldValue), record.fields[field]? = some value →
      (value.finite = true ∧ value.depth + 2 < recursionLimit) ∧
        value.floats (LawfulPayloadCodec.readsFloat V) = true := by
  constructor
  · exact fun lossless field value present =>
      ⟨SyncRecord.payload_readable_iff.mp lossless.readable field value present,
        SyncRecord.payload_floats_iff.mp lossless.exact field value present⟩
  · exact fun each => {
      readable := SyncRecord.payload_readable_iff.mpr fun field value present =>
        (each field value present).1
      exact := SyncRecord.payload_floats_iff.mpr fun field value present =>
        (each field value present).2 }

theorem recordsOf_recordToEntry {records : List SyncRecord}
    (lossless : ∀ record ∈ records, record.payload.Lossless V) :
    recordsOf keyNamespace (records.map (recordToEntry keyNamespace) : List (Entry V)) =
      .ok records := by
  induction records with
  | nil => rfl
  | cons record rest ih =>
      rw [List.forall_mem_cons] at lossless
      rw [List.map_cons, recordsOf, entryToRecord_of_readsBack lossless.1.readsBack]
      simp only [ih lossless.2, Except.map]

theorem merge_lossless {existing restored : SyncRecord}
    (lastWriterWins : ∀ field, policyForField field = .lastWriterWins)
    (existingLossless : existing.payload.Lossless V)
    (restoredLossless : restored.payload.Lossless V) :
    (mergeRecords existing restored policyForField mergeCustom).payload.Lossless V := by
  rw [lossless_iff] at *
  intro field value held
  rcases merge_fields mergeCustom lastWriterWins held with present | incoming
  · exact existingLossless field value present
  · exact restoredLossless field value incoming

/-- A restored record is brought back unless its merge into the version in the state keeps that. -/
theorem broughtBack_iff {state after : State V} {restored : SyncRecord} {found : Option SyncRecord}
    (lastWriterWins : ∀ field, policyForField field = .lastWriterWins)
    (restoredLossless : restored.payload.Lossless V)
    (foundLossless : ∀ existing, found = some existing → existing.payload.Lossless V)
    (got : RecordState.get keyNamespace state restored.schema restored.entity restored.id = .ok found)
    (stored : after.entries[storedKey keyNamespace restored]? = some (recordToEntry keyNamespace
      ((mergedVersion policyForField mergeCustom found restored).stampFieldClocks found))) :
    BroughtBack keyNamespace after restored ↔ ∀ existing,
      RecordState.get keyNamespace state restored.schema restored.entity restored.id =
        .ok (some existing) → Restorable existing restored := by
  have lossless : ((mergedVersion policyForField mergeCustom found restored).stampFieldClocks
      found).payload.Lossless V := by
    cases found with
    | none => exact ⟨restoredLossless.readable, restoredLossless.exact⟩
    | some existing =>
        have merged : (mergeRecords existing restored policyForField mergeCustom).payload.Lossless V :=
          merge_lossless lastWriterWins (foundLossless existing rfl) restoredLossless
        exact ⟨merged.readable, merged.exact⟩
  have final : RecordState.get keyNamespace after restored.schema restored.entity restored.id =
      .ok (some ((mergedVersion policyForField mergeCustom found restored).stampFieldClocks
        found)) := by
    rw [storedKey] at stored
    rw [RecordState.get, stored]
    exact entryToRecord_of_readsBack lossless.readsBack
  rw [BroughtBack, final, got]
  simp only [Except.ok.injEq, Option.some.injEq, exists_eq_left']
  cases found with
  | none =>
      refine iff_of_true ⟨rfl, fun field value present => present⟩ ?_
      simp
  | some existing =>
      simp only [Option.some.injEq, forall_eq']
      exact merge_restores_iff mergeCustom lastWriterWins

variable [DecidableEq V]

theorem restoreSnapshot_merges {inner : LogicalAdapter V σ}
    (merges : inner.applySnapshot =
      applySnapshotWithPolicy inner.keyNamespace policyForField mergeCustom)
    {earlier state after : State V} {records : List SyncRecord}
    (taken : RecordView.snapshot inner.keyNamespace earlier = .ok records)
    (lossless : ∀ record ∈ restoredRecords state records, record.payload.Lossless V)
    (restored : restoreSnapshot inner.wrapper (inner.exportSnapshot earlier) true state =
      (.ok (), after)) :
    ∃ counter count, applySnapshotWithPolicy inner.keyNamespace policyForField mergeCustom
      (restoredRecords state records) { state with counter := counter } = (.ok count, after) := by
  have exported : inner.exportSnapshot earlier =
      .ok (records.map (recordToEntry inner.keyNamespace)) := by
    rw [LogicalAdapter.exportSnapshot, taken]
    rfl
  obtain ⟨counter, reclocked⟩ := reclock_records inner.keyNamespace state records
  refine ⟨counter, ?_⟩
  simp only [restoreSnapshot, not_true_eq_false, if_false, exported, reclocked,
    LogicalAdapter.wrapper, recordsOf_recordToEntry lossless, merges] at restored
  rcases outcome : applySnapshotWithPolicy inner.keyNamespace policyForField mergeCustom
      (restoredRecords state records) { state with counter := counter } with ⟨error | count, final⟩
  · rw [outcome] at restored
    simp [Except.map] at restored
  · rw [outcome] at restored
    exact ⟨count, congrArg _ (Prod.mk.inj restored).2⟩

/--
A confirmed restore brings a backup back exactly where no version in the state
holds on to another value of a field, or to another tombstone flag, if the texts
of the records and of those versions are read back.
-/
theorem restoreSnapshot_brings_back_iff {inner : LogicalAdapter V σ}
    (merges : inner.applySnapshot =
      applySnapshotWithPolicy inner.keyNamespace policyForField mergeCustom)
    (lastWriterWins : ∀ field, policyForField field = .lastWriterWins)
    {earlier state after : State V} (keyed : state.Keyed) {records : List SyncRecord}
    (taken : RecordView.snapshot inner.keyNamespace earlier = .ok records)
    (distinct : (records.map recordKey).Nodup)
    (lossless : ∀ record ∈ records, record.payload.Lossless V ∧ ∀ existing,
      RecordState.get inner.keyNamespace state record.schema record.entity record.id =
        .ok (some existing) → existing.payload.Lossless V)
    (restored : restoreSnapshot inner.wrapper (inner.exportSnapshot earlier) true state =
      (.ok (), after)) :
    (∀ record ∈ records, BroughtBack inner.keyNamespace after record) ↔
      ∀ record ∈ restoredRecords state records, ∀ existing,
        RecordState.get inner.keyNamespace state record.schema record.entity record.id =
          .ok (some existing) → Restorable existing record := by
  have texts : ∀ record ∈ restoredRecords state records, record.payload.Lossless V ∧ ∀ existing,
      RecordState.get inner.keyNamespace state record.schema record.entity record.id =
        .ok (some existing) → existing.payload.Lossless V :=
    (forall_restored (fun record : SyncRecord => record.payload.Lossless V ∧ ∀ existing,
      RecordState.get inner.keyNamespace state record.schema record.entity record.id =
        .ok (some existing) → existing.payload.Lossless V) (fun _ _ => Iff.rfl) state records).mpr
      lossless
  obtain ⟨counter, count, applied⟩ := restoreSnapshot_merges merges taken
    (fun record member => (texts record member).1) restored
  have nodup : ((restoredRecords state records).map recordKey).Nodup := by
    rw [restoredRecords_keys]
    exact distinct
  have counted : State.Keyed { state with counter := counter } := keyed
  obtain ⟨writes, -⟩ := applySnapshot_writes counted nodup applied
  rw [← forall_restored (BroughtBack inner.keyNamespace after) (fun _ _ => Iff.rfl) state records]
  refine forall₂_congr fun record member => ?_
  obtain ⟨found, got, stored⟩ := writes record member
  refine broughtBack_iff lastWriterWins (texts record member).1 ?_ got stored
  rintro existing rfl
  exact (texts record member).2 existing got

end Lossless

section Sample

/-- The JSON texts of payloads; the text of one that is not readable is not read. -/
instance : LawfulPayloadCodec (Option RecordPayload) where
  toVec payload := if payload.readable then some payload else none
  fromSlice
    | some payload =>
        if payload.readable then .ok payload else .error (.serde "number out of range")
    | none => .error (.serde "invalid type: null, expected f64")
  readsFloat _ := true
  readsBack payload readable _ := by simp only [PayloadCodec.ReadsBack, readable, if_true]

def noteAdapter : InMemoryLogicalAdapter where
  id := "notes"
  keyNamespace := "app"
  mergePolicies := ∅
  mergeCustom _ _ _ _ _ := none

def noteBackups : LogicalAdapter (Option RecordPayload) RecordStore := noteAdapter.logical

def writeNote (state : State (Option RecordPayload)) (record : SyncRecord) :
    State (Option RecordPayload) :=
  match RecordState.set "app" state record with
  | .ok (_, state) => state
  | .error _ => state

def draftDesk : State (Option RecordPayload) :=
  writeNote (State.new "desk" "first") (titledNote "draft")

def deletedDesk : State (Option RecordPayload) :=
  writeNote draftDesk { titledNote "draft" with tombstone := true }

def finalDesk : State (Option RecordPayload) := writeNote draftDesk (titledNote "final")

def restoredDesk (state : State (Option RecordPayload)) : State (Option RecordPayload) :=
  (restoreSnapshot noteBackups.wrapper (noteBackups.exportSnapshot draftDesk) true state).2

theorem writeNote_keyed {state : State (Option RecordPayload)} (keyed : state.Keyed)
    (record : SyncRecord) : (writeNote state record).Keyed := by
  simp only [writeNote]
  split
  · rename_i wrote
    exact (RecordState.set_confined wrote).keyed keyed
  · exact keyed

theorem restoredDesk_eq {state : State (Option RecordPayload)}
    (confirmed : (restoreSnapshot noteBackups.wrapper (noteBackups.exportSnapshot draftDesk) true
      state).1 = .ok ()) :
    restoreSnapshot noteBackups.wrapper (noteBackups.exportSnapshot draftDesk) true state =
      (.ok (), restoredDesk state) :=
  Prod.ext confirmed rfl

theorem restoreSnapshot_undeletes : BroughtBack "app" (restoredDesk deletedDesk) readNote := by
  have keyed : deletedDesk.Keyed :=
    writeNote_keyed (writeNote_keyed (State.new_wellFormed "desk" "first").keyed _) _
  have taken : RecordView.snapshot "app" draftDesk = .ok [readNote] := by decide +kernel
  have restored : restoreSnapshot noteBackups.wrapper (noteBackups.exportSnapshot draftDesk) true
      deletedDesk = (.ok (), restoredDesk deletedDesk) := restoredDesk_eq (by decide +kernel)
  have lastWriterWins : ∀ field, noteAdapter.mergePolicy field = .lastWriterWins := by
    intro field
    simp [InMemoryLogicalAdapter.mergePolicy, noteAdapter]
  have merges : noteBackups.applySnapshot = applySnapshotWithPolicy noteBackups.keyNamespace
      noteAdapter.mergePolicy noteAdapter.mergeCustom := rfl
  -- The tombstone is older than the restore, and its text is read back.
  have held : (RecordState.get "app" deletedDesk "notes" "note" "1").map
      (·.map fun existing => (existing.tombstone, existing.clock, existing.payload.readable,
        existing.payload.floats (LawfulPayloadCodec.readsFloat (Option RecordPayload)))) =
        .ok (some (true, { counter := 2, deviceId := "desk" }, true, true)) := by decide +kernel
  have version : ∀ existing, RecordState.get "app" deletedDesk "notes" "note" "1" =
      .ok (some existing) → existing.tombstone = true ∧
        existing.clock = { counter := 2, deviceId := "desk" } ∧
          existing.payload.Lossless (Option RecordPayload) := by
    intro existing got
    rw [got] at held
    simp only [Except.map, Option.map_some, Except.ok.injEq, Option.some.injEq,
      Prod.mk.injEq] at held
    exact ⟨held.1, held.2.1, held.2.2.1, held.2.2.2⟩
  have lossless : ∀ record ∈ [readNote], record.payload.Lossless (Option RecordPayload) ∧
      ∀ existing, RecordState.get "app" deletedDesk record.schema record.entity record.id =
        .ok (some existing) → existing.payload.Lossless (Option RecordPayload) := by
    intro record member
    obtain rfl := List.mem_singleton.mp member
    exact ⟨⟨by decide +kernel, by decide +kernel⟩, fun existing got => (version existing got).2.2⟩
  refine (restoreSnapshot_brings_back_iff merges lastWriterWins keyed taken
    (List.nodup_singleton _) lossless restored).mpr ?_ readNote (List.mem_singleton.mpr rfl)
  intro record member existing got
  obtain rfl := List.mem_singleton.mp member
  obtain ⟨deleted, dated, -⟩ := version existing got
  have later : existing.clock ≤ {
      counter := saturatingSucc deletedDesk.counter
      deviceId := deletedDesk.deviceId } := by
    rw [dated]
    decide +kernel
  rw [Restorable, if_neg (by simp [deleted])]
  exact Or.inl later

/-- The title edited since the backup outlives its restore. -/
theorem restoreSnapshot_keeps_edit :
    draftDesk.Keyed ∧ RecordView.snapshot "app" draftDesk = .ok [readNote] ∧
      restoreSnapshot noteBackups.wrapper (noteBackups.exportSnapshot draftDesk) true finalDesk =
        (.ok (), restoredDesk finalDesk) ∧
      ¬BroughtBack "app" (restoredDesk finalDesk) readNote := by
  refine ⟨writeNote_keyed (State.new_wellFormed "desk" "first").keyed _, by decide +kernel,
    restoredDesk_eq (by decide +kernel), ?_⟩
  rintro ⟨final, got, -, fields⟩
  have title : (RecordState.get "app" (restoredDesk finalDesk) "notes" "note" "1").map
      (·.map fun final => final.fields["title"]?) = .ok (some (some (.string "final"))) := by
    decide +kernel
  have draft := fields "title" (.string "draft") (by decide +kernel)
  have here : RecordState.get "app" (restoredDesk finalDesk) "notes" "note" "1" =
      .ok (some final) := got
  rw [here] at title
  have same := Option.some.inj (Except.ok.inj title)
  exact absurd (draft.symm.trans same) (by decide)

end Sample

end LibreSync
