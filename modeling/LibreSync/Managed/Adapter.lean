import LibreSync.Managed.Envelope

/-!
Transactional adapters: pure hooks that prepare, commit, recover and export the
records of one namespace, and what a session makes of them.
-/

namespace LibreSync.Managed

def maxRecordBytes : Nat := 64 * 1024 * 1024

def maxBatchBytes : Nat := 128 * 1024 * 1024

/-- The hooks of an adapter, with the defaults of its trait. The random id of a change is an
argument. -/
structure ManagedAdapter where
  descriptor : AdapterDescriptor
  exports : List ManagedRecord → Except Error (List ManagedRecord) := fun records => .ok records
  prepare : String → List ManagedRecord → List ManagedRecord → Nat → Except Error PreparedChange
  preview : String → List ManagedRecord → List ManagedRecord → Nat → Except Error PreparedChange :=
    prepare
  commit : PreparedChange → Nat → Except Error (List ManagedRecord) :=
    fun prepared currentRevision =>
      if prepared.adapter ≠ descriptor.id ∨ prepared.expectedRevision ≠ currentRevision then
        fail "stale adapter transaction"
      else .ok prepared.staged
  recover : PreparedChange → Except Error (List ManagedRecord) :=
    fun prepared =>
      if prepared.adapter ≠ descriptor.id then fail "adapter recovery mismatch"
      else .ok prepared.staged

namespace RecordsAdapter

/-- The loop of `prepare`: newer clocks win, equal clocks must carry equal records. -/
def merge (adapter : String) :
    List ManagedRecord → BTreeMap String ManagedRecord →
      Except Error (BTreeMap String ManagedRecord)
  | [], merged => .ok merged
  | next :: rest, merged =>
      if next.adapter ≠ adapter then fail "record adapter mismatch"
      else match merged[next.id]? with
        | some old =>
            if old.clock = next.clock ∧ old ≠ next then
              fail "unequal payload at identical logical clock"
            else if next.clock ≤ old.clock then merge adapter rest merged
            else merge adapter rest (merged.insert next.id next)
        | none => merge adapter rest (merged.insert next.id next)

def index (records : List ManagedRecord) : BTreeMap String ManagedRecord :=
  records.foldl (fun merged record => merged.insert record.id record) ∅

def prepare (adapter id : String) (existing incoming : List ManagedRecord) (revision : Nat) :
    Except Error PreparedChange :=
  match merge adapter incoming (index existing) with
  | .error error => .error error
  | .ok merged => .ok {
      id
      adapter
      expectedRevision := revision
      staged := BTreeMap.valueList merged
      recovery := existing }

end RecordsAdapter

def recordsAdapter (descriptor : AdapterDescriptor) : ManagedAdapter where
  descriptor := descriptor
  prepare := RecordsAdapter.prepare descriptor.id

structure SessionConfig where
  metadata : DeviceMetadata
  recoveryRetention : Nat
  adapters : BTreeMap String ManagedAdapter

def SessionConfig.new (metadata : DeviceMetadata) : SessionConfig where
  metadata := metadata
  recoveryRetention := 20
  adapters := metadata.manifest.adapters.foldl (fun adapters descriptor =>
    adapters.insert descriptor.id (recordsAdapter descriptor)) ∅

/-- The lengths of the JSON texts that the size bounds are about: of a batch, and of a batch of
the records with the largest checkpoint. -/
structure Sizes (Proof : Type) where
  batch : ExportBatch Proof → Nat
  complete : List ManagedRecord → Nat

structure Inner (Proof : Type) where
  config : SessionConfig
  storageKey : Bytes
  sizes : Sizes Proof

def validRecord (adapter : String) (record : ManagedRecord) : Bool :=
  record.adapter = adapter && record.id ≠ "" && record.id.utf8ByteSize ≤ 1024 &&
    record.value.length ≤ maxRecordBytes

def validateRecords (adapter : String) (before after : List ManagedRecord) :
    Except Error Unit :=
  if ¬(after.all (validRecord adapter) ∧ (after.map ManagedRecord.id).Nodup) then
    failCode .invalidRecord "invalid adapter staged record"
  else if before.any fun record => record.id ∉ after.map ManagedRecord.id then
    fail "managed adapters must preserve tombstones instead of dropping records"
  else .ok ()

section Records

variable {Proof : Type} (inner : Inner Proof)

def checkedChange (adapter : String) (records : BTreeMap RecordKey ManagedRecord) (revision : Nat)
    (message : String) (result : Except Error PreparedChange) : Except Error PreparedChange :=
  match result with
  | .error error => .error error
  | .ok staged =>
      if staged.adapter ≠ adapter ∨ staged.expectedRevision ≠ revision ∨
          staged.recovery ≠ recordsOf records adapter then fail message
      else match validateRecords adapter (recordsOf records adapter) staged.staged with
        | .error error => .error error
        | .ok () => .ok staged

def prepareEach (id : String) (records : BTreeMap RecordKey ManagedRecord) (revision : Nat)
    (incoming : List ManagedRecord) : List (String × ManagedAdapter) →
      Except Error (List PreparedChange)
  | [] => .ok []
  | (name, adapter) :: rest =>
      let mine := incoming.filter fun record => record.adapter = name
      if mine.isEmpty then prepareEach id records revision incoming rest
      else match checkedChange name records revision "invalid adapter preparation"
          (adapter.prepare id (recordsOf records name) mine revision) with
        | .error error => .error error
        | .ok staged => (prepareEach id records revision incoming rest).map (staged :: ·)

def prepareRecords (e : Contents Proof) (id : String) (incoming : List ManagedRecord) :
    Except Error (List PreparedChange) :=
  prepareEach id e.records e.revision incoming inner.config.adapters.toList

/-- The adapters' records for each change, validated before any is published. -/
def commitEach (expected : Nat) : List PreparedChange → Except Error (List (List ManagedRecord))
  | [] => .ok []
  | prepared :: rest =>
      match inner.config.adapters[prepared.adapter]? with
      | none => .error (.protocol "adapter missing")
      | some adapter =>
          match adapter.commit prepared expected with
          | .error error => .error error
          | .ok records =>
              match validateRecords prepared.adapter prepared.recovery records with
              | .error error => .error error
              | .ok () => (commitEach expected rest).map (records :: ·)

def storeRecord (e : Contents Proof) (origin : Option String) (record : ManagedRecord) :
    Except Error (Contents Proof) :=
  if e.records[record.key]? = some record then .ok e
  else match checkedNext e.revision "revision exhausted" with
    | .error error => .error error
    | .ok revision => .ok { e with
        revision
        records := e.records.insert record.key record
        sequences := e.sequences.insert record.key revision
        origins := match origin with
          | some peer => e.origins.insert record.key peer
          | none => e.origins.erase record.key }

def storeAll (origin : Option String) :
    List ManagedRecord → Contents Proof → Except Error (Contents Proof)
  | [], e => .ok e
  | record :: rest, e =>
      match storeRecord e origin record with
      | .error error => .error error
      | .ok e => storeAll origin rest e

def commitRecords (e : Contents Proof) (prepared : List PreparedChange) (origin : Option String) :
    Except Error (Contents Proof) :=
  match commitEach inner e.revision prepared with
  | .error error => .error error
  | .ok results => storeAll origin results.flatten e

def previewEach (id : String) (records : BTreeMap RecordKey ManagedRecord) (revision : Nat)
    (incoming : List ManagedRecord) : List (String × ManagedAdapter) → Except Error Unit
  | [] => .ok ()
  | (name, adapter) :: rest =>
      match checkedChange name records revision "invalid adapter preview"
          (adapter.preview id (recordsOf records name)
            (incoming.filter fun record => record.adapter = name) revision) with
      | .error error => .error error
      | .ok _ => previewEach id records revision incoming rest

def previewRecords (e : Contents Proof) (id : String) (incoming : List ManagedRecord) :
    Except Error Unit :=
  previewEach id e.records e.revision incoming inner.config.adapters.toList

def exportEach (records : List ManagedRecord) : List (String × ManagedAdapter) →
    Except Error (List ManagedRecord)
  | [] => .ok []
  | (name, adapter) :: rest =>
      let selected := records.filter fun record => record.adapter = name
      match adapter.exports selected with
      | .error error => .error error
      | .ok result =>
          if ¬(result ⊆ selected ∧ (result.map ManagedRecord.id).Nodup) then
            fail "adapter export must preserve selected logical records"
          else (exportEach records rest).map (result ++ ·)

def exportRecords (records : List ManagedRecord) : Except Error (List ManagedRecord) :=
  exportEach records inner.config.adapters.toList

end Records

namespace Limits

variable {Proof : Type} (sizes : Sizes Proof)

def batch (batch : ExportBatch Proof) : Except Error Unit :=
  if maxBatchBytes < sizes.batch batch then
    failCode .invalidRecord "managed exportable state exceeds 128 MiB serialized batch budget"
  else .ok ()

def recordAllowed (manifest : AppManifest) (record : ManagedRecord) : Bool :=
  record.value.length ≤ maxRecordBytes && record.id ≠ "" && record.id.utf8ByteSize ≤ 1024 &&
    record.clock.deviceId.utf8ByteSize ≤ 128 &&
    manifest.adapters.any fun adapter => adapter.id = record.adapter

def state (e : Contents Proof) : Except Error Unit :=
  let records := BTreeMap.valueList e.records
  if e.epoch = "" ∨ 128 < e.epoch.utf8ByteSize then
    failCode .invalidRecord "invalid managed source epoch"
  else if 100000 < records.length then failCode .invalidRecord "too many managed records"
  else if ¬records.all (recordAllowed e.metadata.manifest) then
    failCode .invalidRecord "invalid managed record or size bound"
  else if maxBatchBytes / 4 * 3 ≤ (records.map fun record => record.value.length).sum then
    failCode .invalidRecord "managed bytes alone exceed exportable batch budget"
  else if maxBatchBytes < sizes.complete records then
    failCode .invalidRecord "managed exportable state exceeds 128 MiB serialized batch budget"
  else .ok ()

end Limits

end LibreSync.Managed
