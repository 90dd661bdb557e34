import LibreSync.Adapter
import LibreSync.Handler

/-! The durable envelope of a managed session, and the messages its peers exchange. -/

namespace LibreSync

structure AdapterDescriptor where
  id : String
  keyNamespace : String
  schema : String
  transactional : Bool
deriving DecidableEq, Repr

structure AppManifest where
  appId : String
  displayName : String
  schemaVersion : Nat
  adapters : List AdapterDescriptor
deriving DecidableEq, Repr

structure DeviceMetadata where
  displayName : String
  deviceKind : String
  role : String
  manifest : AppManifest
deriving DecidableEq, Repr

/-- Two manifests of one app and schema with the same adapters, in any order. -/
def AppManifest.compatibleWith (left right : AppManifest) : Bool :=
  left.appId = right.appId && left.schemaVersion = right.schemaVersion &&
    left.adapters.mergeSort (fun first second => first.id ≤ second.id) =
      right.adapters.mergeSort fun first second => first.id ≤ second.id

def bounded (text : String) : Except Error Unit :=
  if text = "" ∨ 128 < text.utf8ByteSize ∨ text.toList.any (fun char => char.val < 32 ∨
      127 ≤ char.val ∧ char.val < 160) then
    .error (.protocol "pairing: invalid metadata field")
  else .ok ()

def validateAdapters : List String → List AdapterDescriptor → Except Error Unit
  | _, [] => .ok ()
  | ids, adapter :: rest => do
      bounded adapter.id
      bounded adapter.keyNamespace
      bounded adapter.schema
      if adapter.id ∈ ids then
        throw (.protocol "pairing: duplicate adapter id")
      validateAdapters (adapter.id :: ids) rest

def AppManifest.validate (manifest : AppManifest) : Except Error Unit := do
  bounded manifest.appId
  bounded manifest.displayName
  if manifest.adapters = [] ∨ 16 < manifest.adapters.length then
    throw (.protocol "pairing: invalid adapter count")
  validateAdapters [] manifest.adapters

def DeviceMetadata.validate (metadata : DeviceMetadata) : Except Error Unit := do
  bounded metadata.displayName
  bounded metadata.deviceKind
  bounded metadata.role
  metadata.manifest.validate

namespace Managed

structure ManagedRecord where
  adapter : String
  id : String
  value : Bytes
  deleted : Bool
  clock : LamportClock
deriving DecidableEq

/-- The pair that `record_key` writes as JSON text. -/
abbrev RecordKey := String ×ₗ String

def recordKey (adapter id : String) : RecordKey := toLex (adapter, id)

def ManagedRecord.key (record : ManagedRecord) : RecordKey := recordKey record.adapter record.id

inductive SessionPhase where
  | stopped
  | failed
  | running
  | paused
deriving DecidableEq, Repr

inductive PeerState where
  | waiting
  | exchanging
  | stored
  | upToDate
  | needsMerge
  | needsRepair
  | paused
deriving DecidableEq, Repr

inductive AckDisposition where
  | stored
  | applied
deriving DecidableEq, Repr

structure PreparedChange where
  id : String
  adapter : String
  expectedRevision : Nat
  staged : List ManagedRecord
  recovery : List ManagedRecord
deriving DecidableEq

structure RecoverySnapshot where
  id : String
  revision : Nat
  records : List ManagedRecord
deriving DecidableEq

structure SecurePairingOutcome where
  invitationId : String
  identity : Identity
  metadata : DeviceMetadata
  fingerprint : String
deriving DecidableEq

structure Enrollment where
  outcome : SecurePairingOutcome
  generation : Nat
deriving DecidableEq

structure Preparation where
  addresses : List String
  outcome : SecurePairingOutcome
  generation : Nat
deriving DecidableEq

section Receipts

variable (Proof : Type)

structure ManagedReceipt where
  epoch : String
  sequence : Nat
  proof : Proof
deriving DecidableEq

structure ExportBatch where
  checkpoint : ManagedReceipt Proof
  records : List ManagedRecord
  full : Bool
deriving DecidableEq

structure BootstrapPreview where
  token : String
  peer : String
  fingerprint : String
  localRevision : Nat
  batch : ExportBatch Proof
deriving DecidableEq

structure Peer where
  identity : Identity
  metadata : DeviceMetadata
  fingerprint : String
  addresses : List String
  stored : ManagedReceipt Proof
  applied : ManagedReceipt Proof
  incarnation : String
  transmitted : ManagedReceipt Proof
  received : ManagedReceipt Proof
  processed : ManagedReceipt Proof
  bootstrapped : Bool
  state : PeerState
  pending : Option (BootstrapPreview Proof)
  revoked : Bool
deriving DecidableEq

end Receipts

structure PreparedTransaction (Target : Type) where
  id : String
  changes : List PreparedChange
  target : Target
deriving DecidableEq

/-- The fields of an envelope but its journal. -/
structure Contents (Proof : Type) where
  version : Nat
  recovery : List RecoverySnapshot
  identity : Identity
  metadata : DeviceMetadata
  groupKey : Bytes
  epoch : String
  revision : Nat
  localRevision : Nat
  sequences : BTreeMap RecordKey Nat
  origins : BTreeMap RecordKey String
  peers : BTreeMap String (Peer Proof)
  enrollments : BTreeMap String Enrollment
  preparations : BTreeMap String Preparation
  phase : SessionPhase
  generation : Nat
  records : BTreeMap RecordKey ManagedRecord
deriving DecidableEq

structure Envelope (Proof : Type) extends Contents Proof where
  prepared : Option (PreparedTransaction (Envelope Proof))

namespace Envelope

variable {Proof : Type} [DecidableEq Proof]

mutual
def decEq : (left right : Envelope Proof) → Decidable (left = right)
  | ⟨left, leftPrepared⟩, ⟨right, rightPrepared⟩ =>
      have := decEqPrepared leftPrepared rightPrepared
      decidable_of_iff (left = right ∧ leftPrepared = rightPrepared) (by simp)

def decEqPrepared : (left right : Option (PreparedTransaction (Envelope Proof))) →
    Decidable (left = right)
  | none, none => isTrue rfl
  | none, some _ => isFalse (by simp)
  | some _, none => isFalse (by simp)
  | some ⟨left, leftChanges, leftTarget⟩, some ⟨right, rightChanges, rightTarget⟩ =>
      have := decEq leftTarget rightTarget
      decidable_of_iff (left = right ∧ leftChanges = rightChanges ∧ leftTarget = rightTarget)
        (by simp)
end

instance : DecidableEq (Envelope Proof) := decEq

end Envelope

def recordsOf (records : BTreeMap RecordKey ManagedRecord) (adapter : String) :
    List ManagedRecord :=
  (BTreeMap.valueList records).filter fun record => record.adapter = adapter

def fail {α : Type} (message : String) : Except Error α :=
  .error (.managed .invalidOperation message)

def failCode {α : Type} (code : SessionErrorCode) (message : String) : Except Error α :=
  .error (.managed code message)

def checkedNext (count : Nat) (message : String) : Except Error Nat :=
  match checkedSucc count with
  | some next => .ok next
  | none => .error (.protocol message)

end Managed

end LibreSync
