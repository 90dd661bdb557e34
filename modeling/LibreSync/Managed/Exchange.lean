import LibreSync.Managed.Journal

/-!
One exchange with a peer: the hellos, the batch exported to it with its acknowledgement, and the
batch received from it. Each operation is what the session passes to `mutate`.
-/

namespace LibreSync.Managed

structure Hello (Proof : Type) where
  identity : Identity
  metadata : DeviceMetadata
  cursor : ManagedReceipt Proof
  processed : ManagedReceipt Proof
  addresses : List String
deriving DecidableEq

/-- A receipt of another epoch or a later sequence replaces the held one. -/
def raise {Proof : Type} (held receipt : ManagedReceipt Proof) : ManagedReceipt Proof :=
  if held.epoch ≠ receipt.epoch ∨ held.sequence < receipt.sequence then receipt else held

section Operations

variable {Proof : Type}

def check (e : Contents Proof) (generation : Nat) (identity : Identity) (fingerprint : String) :
    Except Error (Peer Proof) :=
  if e.phase ≠ .running ∨ e.generation ≠ generation then .error .cancelled
  else match e.peers[identity.deviceId]? with
    | none => .error (.protocol "peer is not enrolled")
    | some peer =>
        if peer.revoked ∨ peer.state = .paused ∨ peer.state = .needsRepair ∨
            peer.identity ≠ identity ∨ peer.fingerprint ≠ fingerprint then
          failCode .peerRevoked "peer is revoked, paused or changed"
        else .ok peer

def Contents.setPeer (e : Contents Proof) (id : String) (peer : Peer Proof) : Contents Proof :=
  { e with peers := e.peers.insert id peer }

variable (inner : Inner Proof)

def hello (e : Contents Proof) (peer : Peer Proof) (addresses : List String) : Hello Proof where
  identity := e.identity
  metadata := inner.config.metadata
  cursor := peer.received
  processed := peer.processed
  addresses := addresses

def admitHello (message : Hello Proof) : Except Error Unit :=
  if 32 < message.addresses.length ∨
      ¬inner.config.metadata.manifest.compatibleWith message.metadata.manifest then
    failCode .incompatibleSchema "incompatible managed schema"
  else .ok ()

/-- A cursor of the peer does not cover the whole export. -/
def wantsFull (e : Contents Proof) (cursor : ManagedReceipt Proof) : Bool :=
  cursor.epoch ≠ e.epoch || e.revision < cursor.sequence

def selected (e : Contents Proof) (peer : String) (cursor : ManagedReceipt Proof) :
    List ManagedRecord :=
  (e.records.toList.filter fun (key, _) => wantsFull e cursor ∨
    cursor.sequence < (e.sequences[key]?).getD u64Max ∧ e.origins[key]? ≠ some peer).map Prod.snd

def validateBatch [ReceiptMac Proof] (e : Contents Proof) (batch : ExportBatch Proof) :
    Except Error Unit :=
  if batch.checkpoint.epoch = "" ∨ 128 < batch.checkpoint.epoch.utf8ByteSize ∨
      ReceiptMac.length batch.checkpoint.proof ≠ 32 ∨ 100000 < batch.records.length then
    fail "invalid managed batch"
  else if batch.records.all (fun record => record.id ≠ "" ∧ record.id.utf8ByteSize ≤ 1024 ∧
      record.value.length ≤ maxRecordBytes ∧
      e.metadata.manifest.adapters.any fun adapter => adapter.id = record.adapter) ∧
      (batch.records.map ManagedRecord.key).Nodup then .ok ()
  else fail "invalid managed record"

def apply (change : String) (e : Contents Proof) (batch : ExportBatch Proof) (peer : String) :
    Except Error (Contents Proof) :=
  match prepareRecords inner e change batch.records with
  | .error error => .error error
  | .ok prepared =>
      match commitRecords inner e prepared (some peer) with
      | .error error => .error error
      | .ok e =>
          match e.peers[peer]? with
          | none => .error .cancelled
          | some p => .ok (e.setPeer peer { p with
              received := batch.checkpoint
              bootstrapped := true
              pending := none })

variable [DecidableEq Proof]

/-- A candidate equal to the one already staged keeps its token. -/
def restaged (e : Contents Proof) (peer : Peer Proof) (preview : BootstrapPreview Proof) :
    BootstrapPreview Proof :=
  match peer.pending with
  | none => preview
  | some old =>
      if old.batch ≠ preview.batch ∨ old.localRevision ≠ e.revision then preview else old

def stage (e : Contents Proof) (peer : Peer Proof) (preview : BootstrapPreview Proof) :
    Contents Proof :=
  e.setPeer peer.identity.deviceId { peer with
    pending := some (restaged e peer preview)
    state := .needsMerge }

def resolveBootstrap [ReceiptMac Proof] (change : String) (preview : BootstrapPreview Proof)
    (merge : Bool) (e : Contents Proof) : Except Error (Unit × Contents Proof) :=
  match e.peers[preview.peer]? with
  | none => .error .cancelled
  | some p =>
      if p.revoked ∨ p.fingerprint ≠ preview.fingerprint ∨ e.revision ≠ preview.localRevision ∨
          ¬p.pending.any fun staged =>
            staged.token = preview.token ∧ staged.batch = preview.batch then
        failCode .staleBootstrap "stale bootstrap preview"
      else if merge then
        match validateBatch e preview.batch with
        | .error error => .error error
        | .ok () => (apply inner change e preview.batch preview.peer).map fun e => ((), e)
      else .ok ((), e.setPeer preview.peer { p with pending := none, state := .paused })

variable [ReceiptMac Proof]

def Peer.prove (peer : Peer Proof) (processed : ManagedReceipt Proof) : Peer Proof :=
  { peer with
    stored := raise peer.stored processed
    applied := raise peer.applied processed }

def Peer.refresh (peer : Peer Proof) (message : Hello Proof) : Peer Proof :=
  { peer with
    addresses := message.addresses
    metadata := { peer.metadata with
      displayName := message.metadata.displayName
      deviceKind := message.metadata.deviceKind
      role := message.metadata.role } }

/-- `authenticate` under the lock: the peer as it is now, and the cursor it may use. -/
def authenticate (generation : Nat) (message : Hello Proof) (fingerprint : String)
    (e : Contents Proof) : Except Error ((Peer Proof × ManagedReceipt Proof) × Contents Proof) :=
  match check e generation message.identity fingerprint with
  | .error error => .error error
  | .ok current =>
      match message.metadata.validate with
      | .error error => .error error
      | .ok () =>
          let cursor :=
            if message.cursor = default ∨ verify inner e current message.cursor = .ok () then
              message.cursor
            else default
          let proven :=
            if message.processed ≠ default ∧ verify inner e current message.processed = .ok () then
              current.prove message.processed
            else current
          let peer := proven.refresh message
          .ok ((peer, cursor), e.setPeer message.identity.deviceId peer)

def exportBatch (generation : Nat) (peer : Peer Proof) (cursor : ManagedReceipt Proof)
    (e : Contents Proof) : Except Error (ExportBatch Proof × Contents Proof) :=
  match check e generation peer.identity peer.fingerprint with
  | .error error => .error error
  | .ok current =>
      match exportRecords inner (selected e peer.identity.deviceId cursor) with
      | .error error => .error error
      | .ok records =>
          let batch := {
            checkpoint := mint inner e current
            records
            full := wantsFull e cursor }
          match Limits.batch inner.sizes batch with
          | .error error => .error error
          | .ok () => .ok (batch, e)

def transmit (generation : Nat) (peer : Peer Proof) (batch : ExportBatch Proof)
    (e : Contents Proof) : Except Error (Unit × Contents Proof) :=
  match check e generation peer.identity peer.fingerprint with
  | .error error => .error error
  | .ok current =>
      .ok ((), e.setPeer peer.identity.deviceId { current with transmitted := batch.checkpoint })

def deliveryState (stored : Peer Proof) (receipt : ManagedReceipt Proof) : PeerState :=
  if stored.pending.isSome then .needsMerge
  else if stored.applied.epoch = receipt.epoch ∧ receipt.sequence ≤ stored.applied.sequence then
    .upToDate
  else .stored

/-- The peer after an acknowledgement: a later receipt is stored, an `Applied` one is applied. -/
def Peer.deliver (peer : Peer Proof) (receipt : ManagedReceipt Proof)
    (disposition : AckDisposition) : Peer Proof :=
  let delivered : Peer Proof := { peer with
    stored := raise peer.stored receipt
    applied := if disposition = .applied then receipt else peer.applied }
  { delivered with state := deliveryState delivered receipt }

/-- `ManagedAck` for the batch that `send_batch` captured. -/
def acknowledge (generation : Nat) (peer : Peer Proof) (batch : ExportBatch Proof)
    (receipt : ManagedReceipt Proof) (disposition : AckDisposition) (e : Contents Proof) :
    Except Error (Unit × Contents Proof) :=
  if receipt ≠ batch.checkpoint then fail "receipt does not match captured export"
  else match check e generation peer.identity peer.fingerprint with
    | .error error => .error error
    | .ok current =>
        match verify inner e current receipt with
        | .error error => .error error
        | .ok () =>
            .ok ((), e.setPeer peer.identity.deviceId (current.deliver receipt disposition))

/-- `receive_batch` under the lock; `none` asks the user to review a staged batch. -/
def receiveBatch (generation : Nat) (token change : String) (peer : Peer Proof)
    (batch : ExportBatch Proof) (e : Contents Proof) :
    Except Error (Option (ManagedReceipt Proof) × Contents Proof) :=
  match check e generation peer.identity peer.fingerprint with
  | .error error => .error error
  | .ok current =>
      if current.received.epoch = batch.checkpoint.epoch ∧
          batch.checkpoint.sequence ≤ current.received.sequence then
        .ok (some batch.checkpoint, e)
      else match validateBatch e batch with
        | .error error => .error error
        | .ok () =>
            if ¬current.bootstrapped ∧ ¬batch.full then
              fail "first managed batch must be an authoritative full snapshot"
            else match previewRecords inner e change batch.records with
              | .error error => .error error
              | .ok () =>
                  if ¬current.bootstrapped ∧ ¬e.records.isEmpty ∧ ¬batch.records.isEmpty then
                    .ok (none, stage e current {
                      token
                      peer := peer.identity.deviceId
                      fingerprint := peer.fingerprint
                      localRevision := e.revision
                      batch })
                  else match apply inner change e batch peer.identity.deviceId with
                    | .error error => .error error
                    | .ok e => .ok (some batch.checkpoint, e)

end Operations

end LibreSync.Managed
