import LibreSync.Managed.Exchange

/-! What the application does to its own session: writes, imports and acknowledgements. -/

namespace LibreSync.Managed

structure ApplicationInbox (Proof : Type) where
  revision : Nat
  records : List ManagedRecord
  receipts : BTreeMap String (ManagedReceipt Proof)
deriving DecidableEq

section Operations

variable {Proof : Type} (inner : Inner Proof)

def checkAdapter (adapter : String) : Except Error Unit :=
  if inner.config.metadata.manifest.adapters.any fun descriptor => descriptor.id = adapter then
    .ok ()
  else fail "unknown managed adapter"

def maxCounter (records : BTreeMap RecordKey ManagedRecord) : Nat :=
  ((BTreeMap.valueList records).map fun record => record.clock.counter).foldl max 0

def admitWrite (adapter id : String) (value : Bytes) : Except Error Unit :=
  match checkAdapter inner adapter with
  | .error error => .error error
  | .ok () =>
      if id = "" ∨ 1024 < id.utf8ByteSize ∨ maxRecordBytes < value.length then
        failCode .invalidRecord "invalid managed record size"
      else .ok ()

def write (change adapter id : String) (value : Bytes) (deleted : Bool) (e : Contents Proof) :
    Except Error (Unit × Contents Proof) :=
  match checkedNext (maxCounter e.records) "clock exhausted" with
  | .error error => .error error
  | .ok counter =>
      let clock := { counter, deviceId := e.identity.deviceId }
      let incoming := { adapter, id, value, deleted, clock }
      match prepareRecords inner e change [incoming] with
      | .error error => .error error
      | .ok prepared =>
          match commitRecords inner e prepared none with
          | .error error => .error error
          | .ok e => (checkedNext e.localRevision "local revision exhausted").map
              fun localRevision => ((), { e with localRevision })

def importRecords (change : String) (records : List ManagedRecord) (e : Contents Proof) :
    Except Error (Unit × Contents Proof) :=
  match prepareRecords inner e change records with
  | .error error => .error error
  | .ok prepared =>
      match commitRecords inner e prepared none with
      | .error error => .error error
      | .ok after =>
          if after.revision ≠ e.revision then
            (checkedNext after.localRevision "local revision exhausted").map
              fun localRevision => ((), { after with localRevision })
          else .ok ((), after)

def pruneRecoverySnapshots (retain : Nat) (e : Contents Proof) :
    Except Error (Unit × Contents Proof) :=
  .ok ((), { e with recovery := e.recovery.drop (e.recovery.length - retain) })

def applicationInbox (e : Contents Proof) : ApplicationInbox Proof where
  revision := e.revision
  records := BTreeMap.valueList e.records
  receipts := e.peers.filterMap fun _ peer =>
    if ¬peer.revoked ∧ peer.received.epoch ≠ "" then some peer.received else none

def Peer.covers (peer : Peer Proof) (receipt : ManagedReceipt Proof) : Bool :=
  !peer.revoked && peer.received.epoch = receipt.epoch &&
    decide (receipt.sequence ≤ peer.received.sequence)

def Peer.process (peer : Peer Proof) (receipt : ManagedReceipt Proof) : Peer Proof :=
  { peer with processed := raise peer.processed receipt }

def acknowledgeApplied (peer : String) (receipt : ManagedReceipt Proof) (e : Contents Proof) :
    Except Error (Unit × Contents Proof) :=
  match e.peers[peer]? with
  | none => .error .cancelled
  | some p =>
      if ¬p.covers receipt then fail "processing receipt is outside stored source history"
      else .ok ((), e.setPeer peer (p.process receipt))

def coveredReceipts (e : Contents Proof) : List (String × ManagedReceipt Proof) →
    Except Error Unit
  | [] => .ok ()
  | (id, receipt) :: rest =>
      match e.peers[id]? with
      | none => .error .cancelled
      | some p =>
          if ¬p.covers receipt then fail "application receipt is outside stored history"
          else coveredReceipts e rest

def processReceipts (e : Contents Proof) : List (String × ManagedReceipt Proof) →
    Except Error (Contents Proof)
  | [] => .ok e
  | (id, receipt) :: rest =>
      match e.peers[id]? with
      | none => .error .cancelled
      | some p => processReceipts (e.setPeer id (p.process receipt)) rest

def acknowledgeInbox (inbox : ApplicationInbox Proof) (e : Contents Proof) :
    Except Error (Unit × Contents Proof) :=
  if e.revision < inbox.revision then fail "application snapshot revision is in the future"
  else match coveredReceipts e inbox.receipts.toList with
    | .error error => .error error
    | .ok () => (processReceipts e inbox.receipts.toList).map fun e => ((), e)

end Operations

end LibreSync.Managed
