import LibreSync.RecordJson

/-!
The table of an unmapped logical SQLite store: one row a record, written from a
view and read into a state. Text and signed integers come back as they were stored.
-/

namespace LibreSync

open Record

/-- `as i64` on a `u64`: the upper half wraps to the negative numbers. -/
def asI64 (value : Nat) : Int :=
  if value < 2 ^ 63 then value else value - 2 ^ 64

/-- `max(0) as u64`. -/
def asU64 (value : Int) : Nat := (max value 0).toNat

theorem asU64_asI64_iff (value : Nat) : asU64 (asI64 value) = value ↔ value < 2 ^ 63 := by
  rw [asU64, asI64]
  split <;> omega

/-- The columns of `ensure_table`; `S` is the type of the text of the fields. -/
structure LogicalRow (S : Type) where
  schema : String
  entity : String
  id : String
  fields : S
  tombstone : Int
  updatedAt : Option Int
  clockCounter : Int
  clockDevice : String

def LogicalRow.primaryKey {S : Type} (row : LogicalRow S) : String × String × String :=
  (row.schema, row.entity, row.id)

structure SqliteLogicalAdapter where
  table : String

namespace SqliteLogicalAdapter

section Rows

variable {S : Type} [JsonText S Error]

def rowOf (record : SyncRecord) : LogicalRow S where
  schema := record.schema
  entity := record.entity
  id := record.id
  fields := JsonText.toText (mapJson FieldValue.toJson record.fields)
  tombstone := if record.tombstone then 1 else 0
  updatedAt := record.updatedAt.map asI64
  clockCounter := asI64 record.clock.counter
  clockDevice := record.clock.deviceId

def fieldsOf (text : S) : BTreeMap String FieldValue :=
  match (JsonText.ofText text).bind (mapOfJson FieldValue.ofJson) with
  | .ok fields => fields
  | .error _ => ∅

def recordOf (row : LogicalRow S) : SyncRecord where
  schema := row.schema
  entity := row.entity
  id := row.id
  fields := fieldsOf row.fields
  tombstone := decide (row.tombstone ≠ 0)
  clock := {
    counter := asU64 row.clockCounter
    deviceId := row.clockDevice }
  updatedAt := row.updatedAt.map asU64
  fieldClocks := ∅

def insertRow (adapter : SqliteLogicalAdapter) (rows : List (LogicalRow S)) (row : LogicalRow S) :
    Except Error (List (LogicalRow S)) :=
  if rows.any fun present => present.primaryKey = row.primaryKey then
    .error (.protocol ("UNIQUE constraint failed: " ++ adapter.table ++ ".schema, " ++
      adapter.table ++ ".entity, " ++ adapter.table ++ ".id"))
  else .ok (rows ++ [row])

variable {V : Type} [PayloadCodec V]

/-- The rows of the table are deleted and those of the view inserted, in one transaction. -/
def applyRecords (adapter : SqliteLogicalAdapter) (keyNamespace : String) (view : State V) :
    Except Error (List (LogicalRow S)) :=
  (RecordView.snapshot keyNamespace view).bind fun records =>
    records.foldlM (fun rows record => adapter.insertRow rows (rowOf record)) []

/-- The rows are applied in the order in which the table gives them. -/
def loadRecords (rows : List (LogicalRow S)) (keyNamespace : String) (state : State V) :
    Except Error (State V) :=
  rows.foldlM (fun state row =>
    (RecordState.apply keyNamespace state (recordOf row)).map Prod.snd) state

end Rows

section Load

variable {S : Type} [JsonText S Error] {V : Type} [PayloadCodec V]

def loadedEntry (keyNamespace : String) (row : LogicalRow S) : Entry V :=
  recordToEntry keyNamespace ((recordOf row).stampFieldClocks none)

theorem loadedEntry_key (keyNamespace : String) (row : LogicalRow S) :
    (loadedEntry keyNamespace row : Entry V).key =
      recordEntryKey keyNamespace row.schema row.entity row.id := rfl

theorem loadedEntry_key_ne (keyNamespace : String) {left right : LogicalRow S}
    (different : left.primaryKey ≠ right.primaryKey) :
    (loadedEntry keyNamespace left : Entry V).key ≠
      (loadedEntry keyNamespace right : Entry V).key := by
  intro same
  rw [loadedEntry_key, loadedEntry_key] at same
  obtain ⟨schema, entity, id⟩ := recordEntryKey_injective same
  exact different (by rw [LogicalRow.primaryKey, LogicalRow.primaryKey, schema, entity, id])

theorem apply_absent {keyNamespace : String} {state : State V} {row : LogicalRow S}
    (absent : state.entries[(loadedEntry keyNamespace row : Entry V).key]? = none) :
    RecordState.apply keyNamespace state (recordOf row) =
      .ok (state.applyEntry (loadedEntry keyNamespace row)) := by
  rw [loadedEntry_key] at absent
  have unknown : RecordState.get keyNamespace state row.schema row.entity row.id = .ok none := by
    rw [RecordState.get, absent]
  have read : RecordState.get keyNamespace state (recordOf row).schema (recordOf row).entity
    (recordOf row).id = .ok none := unknown
  rw [RecordState.apply, read]
  rfl

theorem loadRecords_fresh (keyNamespace : String) {rows : List (LogicalRow S)}
    (distinct : rows.Pairwise fun left right => left.primaryKey ≠ right.primaryKey)
    (state : State V) (absent : ∀ row ∈ rows,
      state.entries[(loadedEntry keyNamespace row : Entry V).key]? = none) :
    ∃ after, loadRecords rows keyNamespace state = .ok after ∧
      (∀ key, (∀ row ∈ rows, (loadedEntry keyNamespace row : Entry V).key ≠ key) →
        after.entries[key]? = state.entries[key]?) ∧
      ∀ row ∈ rows, after.entries[(loadedEntry keyNamespace row : Entry V).key]? =
        some (loadedEntry keyNamespace row) := by
  induction rows generalizing state with
  | nil => exact ⟨state, rfl, fun _ _ => rfl, fun row member => absurd member List.not_mem_nil⟩
  | cons row rest ih =>
      obtain ⟨first, later⟩ := List.pairwise_cons.mp distinct
      have here := absent row List.mem_cons_self
      have others : ∀ other ∈ rest, (loadedEntry keyNamespace other : Entry V).key ≠
          (loadedEntry keyNamespace row : Entry V).key :=
        fun other member => loadedEntry_key_ne keyNamespace (first other member).symm
      have stored : ∀ key : String,
          (state.applyEntry (loadedEntry keyNamespace row)).2.entries[key]? =
            if key = (loadedEntry keyNamespace row : Entry V).key then
              some (loadedEntry keyNamespace row) else state.entries[key]? := by
        intro key
        rw [State.applyEntry_entries]
        by_cases same : key = (loadedEntry keyNamespace row : Entry V).key
        · subst same
          rw [if_pos rfl, if_pos]
          exact ⟨rfl, fun existing found => absurd (here.symm.trans found) (by simp)⟩
        · rw [if_neg same, if_neg fun both => same both.1]
      obtain ⟨after, loaded, kept, held⟩ := ih later
        (state.applyEntry (loadedEntry keyNamespace row)).2 (by
          intro other member
          rw [stored, if_neg (others other member)]
          exact absent other (List.mem_cons_of_mem _ member))
      refine ⟨after, ?_, ?_, ?_⟩
      · rw [loadRecords, List.foldlM_cons, apply_absent here]
        exact loaded
      · intro key away
        rw [kept key fun other member => away other (List.mem_cons_of_mem _ member), stored,
          if_neg fun same => away row List.mem_cons_self same.symm]
      · intro other member
        rcases List.mem_cons.mp member with rfl | tail
        · rw [kept _ others, stored, if_pos rfl]
        · exact held other tail

theorem insertRows_distinct (adapter : SqliteLogicalAdapter) {records : List SyncRecord}
    (distinct : records.Pairwise fun left right => recordKey left ≠ recordKey right)
    (rows : List (LogicalRow S)) (apart : ∀ row ∈ rows, ∀ record ∈ records,
      row.primaryKey ≠ (rowOf record : LogicalRow S).primaryKey) :
    records.foldlM (fun rows record => adapter.insertRow rows (rowOf record)) rows =
      .ok (rows ++ records.map rowOf) := by
  induction records generalizing rows with
  | nil => simp [pure, Except.pure]
  | cons record rest ih =>
      obtain ⟨first, later⟩ := List.pairwise_cons.mp distinct
      have inserted : adapter.insertRow rows (rowOf record) = .ok (rows ++ [rowOf record]) := by
        rw [insertRow, if_neg]
        simp only [List.any_eq_true, decide_eq_true_eq, not_exists, not_and]
        exact fun row member => apart row member record List.mem_cons_self
      have next : ∀ row ∈ rows ++ [rowOf record], ∀ other ∈ rest,
          row.primaryKey ≠ (rowOf other : LogicalRow S).primaryKey := by
        intro row member other listed
        rcases List.mem_append.mp member with old | new
        · exact apart row old other (List.mem_cons_of_mem _ listed)
        · rw [List.mem_singleton.mp new]
          intro same
          simp only [LogicalRow.primaryKey, rowOf, Prod.mk.injEq] at same
          exact first other listed (recordKey_eq_iff.mpr same)
      rw [List.foldlM_cons, inserted, List.map_cons]
      refine (ih later _ next).trans ?_
      rw [List.append_assoc, List.singleton_append]

end Load

section Reproduction

variable {S T : Type} [JsonText S Error] [LawfulJsonText T Error recursionLimit]
  {record : SyncRecord}

def Reproduces (keyNamespace : String) (state : State T) (record : SyncRecord) : Prop :=
  ∃ found, RecordState.get keyNamespace state record.schema record.entity record.id =
      .ok (some found) ∧
    found.schema = record.schema ∧ found.entity = record.entity ∧ found.id = record.id ∧
    found.fields = record.fields ∧ found.tombstone = record.tombstone ∧
    found.clock = record.clock ∧ found.updatedAt = record.updatedAt

structure TextsRead (S T : Type) [JsonText S Error] [JsonText T Error] (record : SyncRecord) :
    Prop where
  column : JsonText.ReadsBack S recursionLimit (mapJson FieldValue.toJson record.fields)
  state : ∀ payload : RecordPayload, payload.fields = record.fields →
    JsonText.ReadsBack T recursionLimit payload.toJson

omit [LawfulJsonText T Error recursionLimit] in
theorem fieldsOf_rowOf
    (text : JsonText.ReadsBack S recursionLimit (mapJson FieldValue.toJson record.fields)) :
    fieldsOf (rowOf record : LogicalRow S).fields =
      if decide ((mapJson FieldValue.toJson record.fields).depth < recursionLimit) &&
        record.payload.finite then record.fields else ∅ := by
  have whole : ReadIf (decide ((mapJson FieldValue.toJson record.fields).depth < recursionLimit))
      (JsonText.ofText (rowOf record : LogicalRow S).fields) (mapJson FieldValue.toJson record.fields) := by
    rw [ReadIf]
    simp only [decide_eq_true_eq]
    exact text
  have read : ReadIf (decide ((mapJson FieldValue.toJson record.fields).depth < recursionLimit) &&
      record.payload.finite) ((JsonText.ofText (rowOf record : LogicalRow S).fields).bind
        (mapOfJson FieldValue.ofJson)) record.fields :=
    whole.bind (mapOfJson_mapJson FieldValue.ofJson_toJson record.fields)
  cases condition : decide ((mapJson FieldValue.toJson record.fields).depth < recursionLimit) &&
      record.payload.finite with
  | true =>
      rw [fieldsOf, read.ok_iff.mpr condition]
      rfl
  | false =>
      rw [condition] at read
      obtain ⟨error, refused⟩ := read
      rw [fieldsOf, refused]
      rfl

omit [LawfulJsonText T Error recursionLimit] in
theorem fieldsOf_readable
    (text : JsonText.ReadsBack S recursionLimit (mapJson FieldValue.toJson record.fields))
    (readable : record.payload.readable = true) :
    fieldsOf (rowOf record : LogicalRow S).fields = record.fields := by
  obtain ⟨finite, nests⟩ : record.payload.finite = true ∧ _ := Bool.and_eq_true_iff.mp readable
  have shallow : (mapJson FieldValue.toJson record.fields).depth < recursionLimit := by
    refine Nat.lt_succ_of_le (depth_mapJson_le.mpr fun field value found => ?_)
    have each := List.all_eq_true.mp nests (field, value)
      (Std.ExtTreeMap.mem_toList_iff_getElem?_eq_some.mpr found)
    have nests : value.depth + 2 < 128 := of_decide_eq_true each
    rw [FieldValue.depth_toJson]
    omega
  rw [fieldsOf_rowOf text, finite, decide_eq_true shallow]
  rfl

/-- The clock and the date fit in signed columns, and the payload is read back. -/
structure Fits (record : SyncRecord) : Prop where
  counter : record.clock.counter < 2 ^ 63
  updatedAt : ∀ updatedAt ∈ record.updatedAt, updatedAt < 2 ^ 63
  readable : record.payload.readable = true

omit [LawfulJsonText T Error recursionLimit] in
theorem recordOf_clock_iff :
    (recordOf (rowOf record : LogicalRow S)).clock = record.clock ↔
      record.clock.counter < 2 ^ 63 := by
  rw [← asU64_asI64_iff]
  constructor
  · exact congrArg LamportClock.counter
  · exact fun same => congrArg (LamportClock.mk · record.clock.deviceId) same

omit [LawfulJsonText T Error recursionLimit] in
theorem recordOf_updatedAt_iff :
    (recordOf (rowOf record : LogicalRow S)).updatedAt = record.updatedAt ↔
      ∀ updatedAt ∈ record.updatedAt, updatedAt < 2 ^ 63 := by
  have read : (recordOf (rowOf record : LogicalRow S)).updatedAt =
      (record.updatedAt.map asI64).map asU64 := rfl
  rw [read]
  cases record.updatedAt with
  | none => simp
  | some value => simp [asU64_asI64_iff]

omit [LawfulJsonText T Error recursionLimit] in
theorem recordOf_tombstone :
    (recordOf (rowOf record : LogicalRow S)).tombstone = record.tombstone := by
  rw [recordOf, rowOf]
  cases record.tombstone <;> rfl

theorem reproduces_iff {keyNamespace : String} {state : State T} (texts : TextsRead S T record)
    (held : state.entries[recordEntryKey keyNamespace record.schema record.entity record.id]? =
      some (loadedEntry keyNamespace (rowOf record : LogicalRow S))) :
    Reproduces keyNamespace state record ↔ Fits record := by
  let loaded := (recordOf (rowOf record : LogicalRow S)).stampFieldClocks none
  -- What the column does not give leaves a text without fields, and so without floats.
  have text : JsonText.ReadsBack T recursionLimit loaded.payload.toJson := by
    have fields : loaded.payload.fields = fieldsOf (rowOf record : LogicalRow S).fields := rfl
    rw [fieldsOf_rowOf texts.column] at fields
    split at fields
    · exact texts.state loaded.payload fields
    · refine LawfulJsonText.readsBack _ ?_
      rw [RecordPayload.floats_toJson, RecordPayload.floats, fields]
      rfl
  have read : ReadIf loaded.payload.readable
      (RecordState.get keyNamespace state record.schema record.entity record.id) (some loaded) := by
    rw [RecordState.get, held]
    exact entryToRecord_readIf loaded text
  have sameFields : loaded.fields = record.fields →
      loaded.payload.readable = record.payload.readable := by
    intro same
    rw [RecordPayload.readable, RecordPayload.readable, RecordPayload.finite, RecordPayload.finite,
      RecordPayload.floats, RecordPayload.floats]
    have fields : loaded.payload.fields = record.payload.fields := same
    rw [fields]
  constructor
  · rintro ⟨found, got, -, -, -, fields, -, clock, updatedAt⟩
    cases readable : loaded.payload.readable with
    | false =>
        rw [readable] at read
        obtain ⟨error, refused⟩ := read
        exact absurd (refused.symm.trans got) (by simp)
    | true =>
        obtain rfl : loaded = found :=
          Option.some.inj (Except.ok.inj ((read.ok_iff.mpr readable).symm.trans got))
        exact {
          counter := recordOf_clock_iff.mp clock
          updatedAt := recordOf_updatedAt_iff.mp updatedAt
          readable := (sameFields fields).symm.trans readable }
  · intro fits
    have fields : loaded.fields = record.fields := fieldsOf_readable texts.column fits.readable
    refine ⟨loaded, read.ok_iff.mpr ((sameFields fields).trans fits.readable), rfl, rfl, rfl,
      fields, recordOf_tombstone, recordOf_clock_iff.mpr fits.counter,
      recordOf_updatedAt_iff.mpr fits.updatedAt⟩

/--
The records of a view whose texts are read back come back from the table, in
whatever order it lists its rows, exactly if their counters and dates are below
2^63 and their payloads are such as a state can hold.
-/
theorem loadRecords_reproduces_iff (adapter : SqliteLogicalAdapter) {view : State T}
    {keyNamespace target deviceId epoch : String} {records : List SyncRecord}
    (seen : RecordView.snapshot keyNamespace view = .ok records)
    (distinct : records.Pairwise fun left right => recordKey left ≠ recordKey right)
    (texts : ∀ record ∈ records, TextsRead S T record) :
    ∃ rows : List (LogicalRow S), adapter.applyRecords keyNamespace view = .ok rows ∧
      ∀ listed, listed.Perm rows →
        ∃ after : State T, loadRecords listed target (State.new deviceId epoch) = .ok after ∧
          ∀ record ∈ records, Reproduces target after record ↔ Fits record := by
  refine ⟨records.map rowOf, ?_, ?_⟩
  · rw [applyRecords, seen]
    exact insertRows_distinct adapter distinct [] fun row member => absurd member List.not_mem_nil
  · intro listed permuted
    have separate : listed.Pairwise fun left right => left.primaryKey ≠ right.primaryKey := by
      refine (permuted.pairwise_iff fun different => different.symm).mpr ?_
      rw [List.pairwise_map]
      refine distinct.imp fun different same => different (recordKey_eq_iff.mpr ?_)
      simpa only [LogicalRow.primaryKey, rowOf, Prod.mk.injEq] using same
    obtain ⟨after, loaded, -, held⟩ := loadRecords_fresh target separate
      (State.new deviceId epoch : State T) fun _ _ => rfl
    refine ⟨after, loaded, fun record member => ?_⟩
    have stored := held (rowOf record) (permuted.mem_iff.mpr (List.mem_map_of_mem member))
    exact reproduces_iff (texts record member) stored

end Reproduction

section Sample

def distantNote (counter : Nat) : SyncRecord :=
  { measuredNote 0x3FF8000000000000 with clock := {
      counter := counter
      deviceId := "far" } }

def distantDesk (counter : Nat) : State Json :=
  ((State.new "desk" "first").applyEntry (recordToEntry "app" (distantNote counter))).2

def logicalStore : SqliteLogicalAdapter where
  table := "records"

def reloaded (counter : Nat) : Except Error (State Json) :=
  (logicalStore.applyRecords "app" (distantDesk counter)).bind fun rows : List (LogicalRow Json) =>
    loadRecords rows "app" (State.new "desk" "second")

theorem loadRecords_reproduces_note :
    ∃ after, reloaded 5 = .ok after ∧ Reproduces "app" after (distantNote 5) := by
  have seen : RecordView.snapshot "app" (distantDesk 5) = .ok [distantNote 5] := by decide +kernel
  obtain ⟨rows, applied, each⟩ := loadRecords_reproduces_iff (S := Json) logicalStore seen
    (List.pairwise_singleton _ _) fun record _ => {
      column := readsBack_json _
      state := fun _ _ => readsBack_json _ }
  obtain ⟨after, loaded, all⟩ := each rows (List.Perm.refl rows)
  refine ⟨after, ?_, (all _ (List.mem_singleton_self _)).mpr ?_⟩
  · rw [reloaded, applied]
    exact loaded
  · exact {
      counter := by decide
      updatedAt := fun _ dated => absurd dated (by simp [distantNote, measuredNote])
      readable := by decide +kernel }

/-- A counter of 2^63 is stored as a negative number and comes back as zero. -/
theorem loadRecords_wraps :
    RecordView.snapshot "app" (distantDesk (2 ^ 63)) = .ok [distantNote (2 ^ 63)] ∧
      ∃ after, reloaded (2 ^ 63) = .ok after ∧ ¬Reproduces "app" after (distantNote (2 ^ 63)) := by
  refine ⟨by decide +kernel, ?_⟩
  have wrapped : (reloaded (2 ^ 63)).bind (fun after =>
      (RecordState.get "app" after "notes" "note" "1").map fun found =>
        found.map fun found => found.clock.counter) = .ok (some 0) := by decide +kernel
  cases result : reloaded (2 ^ 63) with
  | error error =>
      rw [result] at wrapped
      exact absurd wrapped (by simp [Except.bind])
  | ok after =>
      refine ⟨after, rfl, ?_⟩
      rintro ⟨found, got, -, -, -, -, -, clock, -⟩
      have read : RecordState.get "app" after "notes" "note" "1" = .ok (some found) := got
      rw [result, Except.bind, read] at wrapped
      have zero : found.clock.counter = 0 := by simpa [Except.map] using wrapped
      rw [clock] at zero
      exact absurd zero (by decide)

end Sample

end SqliteLogicalAdapter

end LibreSync
