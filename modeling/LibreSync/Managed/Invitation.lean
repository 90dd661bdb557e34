import LibreSync.Managed.BatchJson
import LibreSync.Managed.CrashAtomicity
import LibreSync.PairingManager

/-!
What a session advertises: its addresses, the invitation it hands out and the hello it opens an
exchange with, as texts, and the checks that meet them.
-/

namespace LibreSync.Managed

/-- `MAX_PAIRING_BYTES`, the limit of an invitation and of the first message of a connection. -/
def maxPairingBytes : Nat := 16 * 1024

inductive IpAddr where
  | v4 (text : String)
  | v6 (text : String)
deriving DecidableEq

def IpAddr.isUnspecified : IpAddr → Bool
  | .v4 text => text = "0.0.0.0"
  | .v6 text => text = "::"

structure SocketAddr where
  ip : IpAddr
  port : Nat
deriving DecidableEq

def SocketAddr.text (addr : SocketAddr) : String :=
  match addr.ip with
  | .v4 text => text ++ ":" ++ Nat.repr addr.port
  | .v6 text => "[" ++ text ++ "]:" ++ Nat.repr addr.port

structure Interface where
  ip : IpAddr
  loopback : Bool
deriving DecidableEq

/-- Where a listener bound to `addr` is reached; the interfaces are those of the host. -/
def addresses (addr : SocketAddr) (interfaces : List Interface) : List SocketAddr :=
  if ¬addr.ip.isUnspecified then [addr]
  else ((interfaces.filter fun interface => !interface.loopback).map fun interface =>
      { ip := interface.ip, port := addr.port }) ++
    [{ ip := .v4 "127.0.0.1", port := addr.port }]

section Text

def jsonObject (members : List (String × String)) : String :=
  "\x7b" ++ commaJoined (members.map fun member => "\"" ++ member.1 ++ "\":" ++ member.2) ++ "\x7d"

def jsonArray (items : List String) : String := "[" ++ commaJoined items ++ "]"

def identityText (identity : Identity) : String :=
  jsonObject [("device_id", jsonString identity.deviceId), ("app_id", jsonString identity.appId),
    ("user_id", jsonString identity.userId)]

def adapterText (adapter : AdapterDescriptor) : String :=
  jsonObject [("id", jsonString adapter.id), ("namespace", jsonString adapter.keyNamespace),
    ("schema", jsonString adapter.schema), ("transactional", jsonBool adapter.transactional)]

def manifestText (manifest : AppManifest) : String :=
  jsonObject [("app_id", jsonString manifest.appId),
    ("display_name", jsonString manifest.displayName),
    ("schema_version", Nat.repr manifest.schemaVersion),
    ("adapters", jsonArray (manifest.adapters.map adapterText))]

def metadataText (metadata : DeviceMetadata) : String :=
  jsonObject [("display_name", jsonString metadata.displayName),
    ("device_kind", jsonString metadata.deviceKind), ("role", jsonString metadata.role),
    ("manifest", manifestText metadata.manifest)]

def addressesText (addresses : List String) : String := jsonArray (addresses.map jsonString)

end Text

structure SessionInvitation where
  invitation : PairingInvitation
  identity : Identity
  addresses : List String
deriving DecidableEq

namespace SessionInvitation

def encode (invitation : SessionInvitation) : String :=
  jsonObject [
    ("invitation", jsonObject [
      ("version", Nat.repr invitation.invitation.version),
      ("invitation_id", jsonString invitation.invitation.invitationId),
      ("inviter_fingerprint", jsonString invitation.invitation.inviterFingerprint),
      ("metadata", metadataText invitation.invitation.metadata),
      ("expires_at", Nat.repr invitation.invitation.expiresAt),
      ("secret", jsonString invitation.invitation.secret)]),
    ("identity", identityText invitation.identity),
    ("addresses", addressesText invitation.addresses)]

/-- `decode`; `fromStr` is `serde_json::from_str`. -/
def decode (fromStr : String → Except Error SessionInvitation) (text : String) :
    Except Error SessionInvitation :=
  if maxPairingBytes < text.utf8ByteSize then fail "invitation too large"
  else match fromStr text with
    | .error error => .error error
    | .ok invitation =>
        match invitation.invitation.validate with
        | .error error => .error error
        | .ok () =>
            if invitation.addresses = [] ∨ 32 < invitation.addresses.length ∨
                invitation.identity.appId ≠ invitation.invitation.metadata.manifest.appId then
              fail "invalid invitation destination"
            else .ok invitation

end SessionInvitation

section Operations

variable {Proof : Type} (inner : Inner Proof)

/-- `Session::invitation` of a session that listens on `addr`, with what the pairing manager draws
and reads. -/
def createInvitation (e : Contents Proof) (manager : PairingManager) (issued time : Nat)
    (id secret fingerprint : String) (ttl : Nat) (addr : SocketAddr) (interfaces : List Interface) :
    Except Error SessionInvitation × PairingManager :=
  if e.phase ≠ .running then (fail "session is not running", manager)
  else match manager.create issued time id secret inner.config.metadata fingerprint ttl with
    | (.error error, manager) => (.error error, manager)
    | (.ok invitation, manager) => (.ok {
        invitation
        identity := e.identity
        addresses := (addresses addr interfaces).map SocketAddr.text }, manager)

variable (bytesOf : Proof → Bytes)

/-- A receipt whose proof is longer than its bound is not written. -/
def writeReceipt (receipt : ManagedReceipt Proof) : Except Error String :=
  if 32 < (bytesOf receipt.proof).length then
    .error (.serde "managed bytes exceed size bound")
  else .ok (receiptText receipt.epoch receipt.sequence (bytesOf receipt.proof))

/-- `write_message` of a `ManagedHello`, without the line's end. -/
def writeHello (message : Hello Proof) : Except Error String :=
  match writeReceipt bytesOf message.cursor, writeReceipt bytesOf message.processed with
  | .ok cursor, .ok processed => .ok (jsonObject [
      ("type", jsonString "ManagedHello"),
      ("payload", jsonObject [
        ("identity", identityText message.identity),
        ("metadata", metadataText message.metadata),
        ("cursor", cursor),
        ("processed", processed),
        ("addresses", addressesText message.addresses)])])
  | .error error, _ => .error error
  | _, .error error => .error error

/-- `read_message_with_limit`, for a line that ends with its newline. -/
def readLine (limit : Nat) (line : String) : Except Error Unit :=
  if limit < line.utf8ByteSize + 1 then
    .error (.protocol ("message exceeds " ++ Nat.repr limit ++ " bytes"))
  else .ok ()

def context (e : Contents Proof) : Except Error Nat :=
  if e.phase ≠ .running then .error .cancelled else .ok e.generation

variable [DecidableEq Proof] [ReceiptMac Proof]

/-- `inbound` up to the answer, for a connection whose first line is this hello. -/
def inbound (e : Contents Proof) (line : String) (message : Hello Proof) (fingerprint : String) :
    Except Error ((Peer Proof × ManagedReceipt Proof) × Contents Proof) :=
  match readLine maxPairingBytes line with
  | .error error => .error error
  | .ok () =>
      match context e with
      | .error error => .error error
      | .ok generation =>
          match check e generation message.identity fingerprint with
          | .error error => .error error
          | .ok _ =>
              match admitHello inner message with
              | .error error => .error error
              | .ok () => authenticate inner generation message fingerprint e

end Operations

section Sizes

def jsonSize (text : String) : Nat := (jsonString text).utf8ByteSize

def numberSize (number : Nat) : Nat := (Nat.repr number).utf8ByteSize

def arraySize (items : List Nat) : Nat := 2 + items.sum + (items.length - 1)

def identitySize (identity : Identity) : Nat :=
  35 + jsonSize identity.deviceId + jsonSize identity.appId + jsonSize identity.userId

def adapterSize (adapter : AdapterDescriptor) : Nat :=
  47 + jsonSize adapter.id + jsonSize adapter.keyNamespace + jsonSize adapter.schema +
    if adapter.transactional then 4 else 5

def metadataSize (metadata : DeviceMetadata) : Nat :=
  109 + jsonSize metadata.displayName + jsonSize metadata.deviceKind + jsonSize metadata.role +
    jsonSize metadata.manifest.appId + jsonSize metadata.manifest.displayName +
    numberSize metadata.manifest.schemaVersion +
    arraySize (metadata.manifest.adapters.map adapterSize)

def invitationSize (version : Nat) (id fingerprint : String) (metadata : DeviceMetadata)
    (expiresAt : Nat) (secret : String) (identity : Identity) (addresses : List String) : Nat :=
  128 + numberSize version + jsonSize id + jsonSize fingerprint + metadataSize metadata +
    numberSize expiresAt + jsonSize secret + identitySize identity +
    arraySize (addresses.map jsonSize)

def SessionInvitation.size (invitation : SessionInvitation) : Nat :=
  invitationSize invitation.invitation.version invitation.invitation.invitationId
    invitation.invitation.inviterFingerprint invitation.invitation.metadata
    invitation.invitation.expiresAt invitation.invitation.secret invitation.identity
    invitation.addresses

def heldSize {Proof : Type} (bytesOf : Proof → Bytes) (receipt : ManagedReceipt Proof) : Nat :=
  33 + jsonSize receipt.epoch + numberSize receipt.sequence +
    base64Size (bytesOf receipt.proof).length

def helloSize {Proof : Type} (bytesOf : Proof → Bytes) (identity : Identity)
    (metadata : DeviceMetadata) (cursor processed : ManagedReceipt Proof)
    (addresses : List String) : Nat :=
  95 + identitySize identity + metadataSize metadata + heldSize bytesOf cursor +
    heldSize bytesOf processed + arraySize (addresses.map jsonSize)

def Hello.size {Proof : Type} (bytesOf : Proof → Bytes) (message : Hello Proof) : Nat :=
  helloSize bytesOf message.identity message.metadata message.cursor message.processed
    message.addresses

theorem jsonObject_size (members : List (String × String)) :
    (jsonObject members).utf8ByteSize =
      2 + (members.map fun member => member.1.utf8ByteSize + 3 + member.2.utf8ByteSize).sum +
        (members.length - 1) := by
  have parts : "\x7b".utf8ByteSize = 1 ∧ "\x7d".utf8ByteSize = 1 ∧ "\"".utf8ByteSize = 1 ∧
      "\":".utf8ByteSize = 2 := by
    decide
  have each : ∀ member : String × String,
      ("\"" ++ member.1 ++ "\":" ++ member.2).utf8ByteSize =
        member.1.utf8ByteSize + 3 + member.2.utf8ByteSize := by
    intro member
    simp only [String.utf8ByteSize_append]
    omega
  simp only [jsonObject, String.utf8ByteSize_append, commaJoined_size, List.map_map,
    Function.comp_def, each, List.length_map]
  omega

theorem jsonArray_size (items : List String) :
    (jsonArray items).utf8ByteSize = arraySize (items.map String.utf8ByteSize) := by
  have parts : "[".utf8ByteSize = 1 ∧ "]".utf8ByteSize = 1 := by decide
  simp only [jsonArray, String.utf8ByteSize_append, commaJoined_size, arraySize, List.length_map]
  omega

theorem identityText_size (identity : Identity) :
    (identityText identity).utf8ByteSize = identitySize identity := by
  have keys : "device_id".utf8ByteSize = 9 ∧ "app_id".utf8ByteSize = 6 ∧
      "user_id".utf8ByteSize = 7 := by
    decide
  simp only [identityText, jsonObject_size, List.map_cons, List.map_nil, List.sum_cons,
    List.sum_nil, List.length_cons, List.length_nil, identitySize, jsonSize]
  omega

theorem adapterText_size (adapter : AdapterDescriptor) :
    (adapterText adapter).utf8ByteSize = adapterSize adapter := by
  have keys : "id".utf8ByteSize = 2 ∧ "namespace".utf8ByteSize = 9 ∧ "schema".utf8ByteSize = 6 ∧
      "transactional".utf8ByteSize = 13 := by
    decide
  have bool : (jsonBool adapter.transactional).utf8ByteSize =
      if adapter.transactional then 4 else 5 := by
    cases adapter.transactional <;> decide
  simp only [adapterText, jsonObject_size, List.map_cons, List.map_nil, List.sum_cons,
    List.sum_nil, List.length_cons, List.length_nil, adapterSize, jsonSize, bool]
  omega

theorem metadataText_size (metadata : DeviceMetadata) :
    (metadataText metadata).utf8ByteSize = metadataSize metadata := by
  have keys : "display_name".utf8ByteSize = 12 ∧ "device_kind".utf8ByteSize = 11 ∧
      "role".utf8ByteSize = 4 ∧ "manifest".utf8ByteSize = 8 ∧ "app_id".utf8ByteSize = 6 ∧
      "schema_version".utf8ByteSize = 14 ∧ "adapters".utf8ByteSize = 8 := by
    decide
  have adapters : String.utf8ByteSize ∘ adapterText = adapterSize := funext adapterText_size
  simp only [metadataText, manifestText, jsonObject_size, jsonArray_size, List.map_map,
    adapters, List.map_cons, List.map_nil, List.sum_cons, List.sum_nil,
    List.length_cons, List.length_nil, metadataSize, jsonSize, numberSize]
  omega

theorem SessionInvitation.encode_size (invitation : SessionInvitation) :
    invitation.encode.utf8ByteSize = invitation.size := by
  have keys : "invitation".utf8ByteSize = 10 ∧ "version".utf8ByteSize = 7 ∧
      "invitation_id".utf8ByteSize = 13 ∧ "inviter_fingerprint".utf8ByteSize = 19 ∧
      "metadata".utf8ByteSize = 8 ∧ "expires_at".utf8ByteSize = 10 ∧ "secret".utf8ByteSize = 6 ∧
      "identity".utf8ByteSize = 8 ∧ "addresses".utf8ByteSize = 9 := by
    decide
  have texts : String.utf8ByteSize ∘ jsonString = jsonSize := rfl
  have sizes : ∀ text, (jsonString text).utf8ByteSize = jsonSize text := fun _ => rfl
  simp only [encode, addressesText, jsonObject_size, jsonArray_size, List.map_map, texts, sizes,
    metadataText_size, identityText_size, List.map_cons, List.map_nil, List.sum_cons,
    List.sum_nil, List.length_cons, List.length_nil, size, invitationSize, numberSize]
  omega

variable {Proof : Type} {bytesOf : Proof → Bytes}

theorem writeReceipt_ok {receipt : ManagedReceipt Proof} {text : String}
    (written : writeReceipt bytesOf receipt = .ok text) :
    text.utf8ByteSize = heldSize bytesOf receipt := by
  rw [writeReceipt] at written
  split at written
  · simp at written
  · obtain rfl := Except.ok.inj written
    rw [receiptText_size, heldSize]
    rfl

theorem writeHello_ok {message : Hello Proof} {line : String}
    (written : writeHello bytesOf message = .ok line) :
    line.utf8ByteSize = message.size bytesOf := by
  have keys : "type".utf8ByteSize = 4 ∧ "payload".utf8ByteSize = 7 ∧
      "identity".utf8ByteSize = 8 ∧ "metadata".utf8ByteSize = 8 ∧ "cursor".utf8ByteSize = 6 ∧
      "processed".utf8ByteSize = 9 ∧ "addresses".utf8ByteSize = 9 ∧
      (jsonString "ManagedHello").utf8ByteSize = 14 := by
    decide
  have texts : String.utf8ByteSize ∘ jsonString = jsonSize := rfl
  rw [writeHello] at written
  split at written
  · rename_i cursor processed cursorWritten processedWritten
    have cursorSize := writeReceipt_ok cursorWritten
    have processedSize := writeReceipt_ok processedWritten
    obtain rfl := Except.ok.inj written
    simp only [addressesText, jsonObject_size, jsonArray_size, List.map_map, texts,
      metadataText_size, identityText_size, List.map_cons, List.map_nil, List.sum_cons,
      List.sum_nil, List.length_cons, List.length_nil, Hello.size, helloSize]
    omega
  · simp at written
  · simp at written

end Sizes

theorem addresses_ne_nil (addr : SocketAddr) (interfaces : List Interface) :
    addresses addr interfaces ≠ [] := by
  rw [addresses]
  split
  · exact List.cons_ne_nil _ _
  · exact List.append_ne_nil_of_right_ne_nil _ (List.cons_ne_nil _ _)

theorem length_addresses_le {addr : SocketAddr} {interfaces : List Interface} :
    (addresses addr interfaces).length ≤ 32 ↔ (addr.ip.isUnspecified = true →
      (interfaces.filter fun interface => !interface.loopback).length ≤ 31) := by
  rw [addresses]
  cases addr.ip.isUnspecified with
  | false => simp
  | true =>
      simp
      omega

section Acceptance

variable {Proof : Type} {inner : Inner Proof} {e : Contents Proof} {manager after : PairingManager}
  {issued time ttl : Nat} {id secret fingerprint : String} {addr : SocketAddr}
  {interfaces : List Interface} {wrapped : SessionInvitation}

theorem createInvitation_ok (created : createInvitation inner e manager issued time id secret
    fingerprint ttl addr interfaces = (.ok wrapped, after)) :
    wrapped.invitation.validate = .ok () ∧ wrapped = {
      invitation := {
        version := pairingVersion
        invitationId := id
        inviterFingerprint := fingerprint
        metadata := inner.config.metadata
        expiresAt := min (issued + ttl / 10 ^ 9) u64Max
        secret }
      identity := e.identity
      addresses := (addresses addr interfaces).map SocketAddr.text } := by
  rw [createInvitation] at created
  split at created
  · simp [fail] at created
  · split at created
    · simp at created
    · rename_i invitation manager issue
      obtain rfl := Except.ok.inj (Prod.mk.inj created).1
      rw [PairingManager.create] at issue
      split at issue
      · simp at issue
      · dsimp only at issue
        split at issue
        · simp at issue
        · rename_i validated
          split at issue
          · simp at issue
          · obtain rfl := Except.ok.inj (Prod.mk.inj issue).1
            exact ⟨validated, rfl⟩

theorem decode_created {fromStr : String → Except Error SessionInvitation}
    (owned : e.identity.appId = inner.config.metadata.manifest.appId)
    (created : createInvitation inner e manager issued time id secret fingerprint ttl addr
      interfaces = (.ok wrapped, after))
    (reads : fromStr wrapped.encode = .ok wrapped) :
    SessionInvitation.decode fromStr wrapped.encode = .ok wrapped ↔
      (addresses addr interfaces).length ≤ 32 ∧ wrapped.size ≤ maxPairingBytes := by
  obtain ⟨validated, made⟩ := createInvitation_ok created
  have present : wrapped.addresses ≠ [] := by
    rw [made, ne_eq, List.map_eq_nil_iff]
    exact addresses_ne_nil addr interfaces
  have count : wrapped.addresses.length = (addresses addr interfaces).length := by
    rw [made, List.length_map]
  have app : wrapped.identity.appId = wrapped.invitation.metadata.manifest.appId := by
    rw [made, owned]
  rw [SessionInvitation.decode, SessionInvitation.encode_size, reads]
  dsimp only
  rw [validated, ← count]
  dsimp only
  constructor
  · intro decoded
    split at decoded
    · simp [fail] at decoded
    · rename_i small
      split at decoded
      · simp [fail] at decoded
      · rename_i fine
        rw [not_or, not_or, not_lt] at fine
        exact ⟨fine.2.1, not_lt.mp small⟩
  · rintro ⟨few, small⟩
    rw [if_neg (not_lt.mpr small), if_neg]
    rintro (none | many | other)
    · exact present none
    · exact absurd few (not_le.mpr many)
    · exact other app

variable [DecidableEq Proof] [ReceiptMac Proof]

theorem inbound_ok {other : Inner Proof} {f : Contents Proof} {p : Peer Proof} {line : String}
    {message : Hello Proof} (running : f.phase = .running)
    (enrolled : f.peers[message.identity.deviceId]? = some p)
    (known : p.identity = message.identity) (pinned : p.fingerprint = fingerprint)
    (live : p.revoked = false) (active : p.state ≠ .paused)
    (compatible : other.config.metadata.manifest.compatibleWith message.metadata.manifest = true)
    (valid : message.metadata.validate = .ok ()) :
    (∃ result, inbound other f line message fingerprint = .ok result) ↔
      line.utf8ByteSize + 1 ≤ maxPairingBytes ∧ message.addresses.length ≤ 32 ∧
        p.state ≠ .needsRepair := by
  have context : context f = .ok f.generation := by
    rw [Managed.context, if_neg (not_not.mpr running)]
  have checked : check f f.generation message.identity fingerprint =
      if p.state = .needsRepair then failCode .peerRevoked "peer is revoked, paused or changed"
      else .ok p := by
    simp only [check, running, enrolled, known, pinned, live, active]
    simp
  rw [inbound, readLine, context]
  constructor
  · rintro ⟨result, accepted⟩
    split at accepted
    · simp at accepted
    · rename_i short
      have fits : line.utf8ByteSize + 1 ≤ maxPairingBytes := by
        by_contra long
        rw [if_pos (not_le.mp long)] at short
        simp at short
      dsimp only at accepted
      rw [checked] at accepted
      by_cases broken : p.state = .needsRepair
      · rw [if_pos broken] at accepted
        simp [failCode] at accepted
      · rw [if_neg broken] at accepted
        dsimp only at accepted
        rw [admitHello] at accepted
        by_cases many : 32 < message.addresses.length
        · rw [if_pos (Or.inl many)] at accepted
          simp [failCode] at accepted
        · exact ⟨fits, not_lt.mp many, broken⟩
  · rintro ⟨fits, few, fine⟩
    have admitted : admitHello other message = .ok () := by
      rw [admitHello, if_neg]
      rintro (many | apart)
      · exact absurd few (not_le.mpr many)
      · exact apart compatible
    rw [if_neg (not_lt.mpr fits)]
    dsimp only
    rw [checked, if_neg fine]
    dsimp only
    rw [admitted]
    dsimp only
    rw [authenticate, checked, if_neg fine]
    dsimp only
    rw [valid]
    exact ⟨_, rfl⟩

end Acceptance

/-- The invitation of a session is read back, and its hello accepted by a running peer that lists
it, when at most 32 addresses and 16 KiB are written and the peer asks for no repair. -/
theorem advertised_accepted_iff {Proof : Type} [DecidableEq Proof] [ReceiptMac Proof]
    {inner other : Inner Proof} {e f : Contents Proof} {manager after : PairingManager}
    {issued time ttl : Nat} {id secret fingerprint line : String} {addr : SocketAddr}
    {interfaces : List Interface} {wrapped : SessionInvitation} {target p : Peer Proof}
    {fromStr : String → Except Error SessionInvitation} {bytesOf : Proof → Bytes}
    (valid : inner.config.validate = .ok ())
    (owned : e.identity.appId = inner.config.metadata.manifest.appId)
    (created : createInvitation inner e manager issued time id secret fingerprint ttl addr
      interfaces = (.ok wrapped, after))
    (reads : fromStr wrapped.encode = .ok wrapped)
    (sent : writeHello bytesOf (hello inner e target
      ((addresses addr interfaces).map SocketAddr.text)) = .ok line)
    (running : f.phase = .running) (enrolled : f.peers[e.identity.deviceId]? = some p)
    (known : p.identity = e.identity) (pinned : p.fingerprint = fingerprint)
    (live : p.revoked = false) (active : p.state ≠ .paused)
    (compatible : other.config.metadata.manifest.compatibleWith inner.config.metadata.manifest =
      true) :
    SessionInvitation.decode fromStr wrapped.encode = .ok wrapped ∧
        (∃ result, inbound other f line (hello inner e target
          ((addresses addr interfaces).map SocketAddr.text)) fingerprint = .ok result) ↔
      (addr.ip.isUnspecified = true →
        (interfaces.filter fun interface => !interface.loopback).length ≤ 31) ∧
      invitationSize pairingVersion id fingerprint inner.config.metadata
        (min (issued + ttl / 10 ^ 9) u64Max) secret e.identity
        ((addresses addr interfaces).map SocketAddr.text) ≤ maxPairingBytes ∧
      helloSize bytesOf e.identity inner.config.metadata target.received target.processed
        ((addresses addr interfaces).map SocketAddr.text) + 1 ≤ maxPairingBytes ∧
      p.state ≠ .needsRepair := by
  have metadata := SessionConfig.validate_metadata valid
  have size : wrapped.size = invitationSize pairingVersion id fingerprint inner.config.metadata
      (min (issued + ttl / 10 ^ 9) u64Max) secret e.identity
      ((addresses addr interfaces).map SocketAddr.text) := by
    rw [(createInvitation_ok created).2]
    rfl
  rw [decode_created owned created reads, size,
    inbound_ok running enrolled known pinned live active compatible metadata, writeHello_ok sent,
    ← length_addresses_le]
  rw [show (hello inner e target ((addresses addr interfaces).map SocketAddr.text)).addresses.length =
    (addresses addr interfaces).length from List.length_map ..]
  constructor
  · rintro ⟨⟨few, small⟩, short, _, fine⟩
    exact ⟨few, small, short, fine⟩
  · rintro ⟨few, small, short, fine⟩
    exact ⟨⟨few, small⟩, short, few, fine⟩

section Sample

def listeningDesk : Contents SymbolicProof := { desk.first with phase := .running }

def deskCertificate : String := String.ofList (List.replicate 64 'd')

def deskInvitation (networks : Nat) : Except Error SessionInvitation × PairingManager :=
  createInvitation desk.inner listeningDesk .empty 0 0 sampleId.text
    (String.ofList (List.replicate 64 '0')) deskCertificate (60 * 10 ^ 9)
    { ip := .v4 "0.0.0.0", port := 7000 }
    ((List.range networks).map fun network =>
      { ip := .v4 ("10.0." ++ Nat.repr network ++ ".1"), loopback := false })

def deskAddresses (networks : Nat) : List String :=
  (addresses { ip := .v4 "0.0.0.0", port := 7000 } ((List.range networks).map fun network =>
    { ip := .v4 ("10.0." ++ Nat.repr network ++ ".1"), loopback := false })).map SocketAddr.text

def listedDesk : Peer SymbolicProof := .enrolled {
  invitationId := "invitation"
  identity := listeningDesk.identity
  metadata := sampleMetadata
  fingerprint := deskCertificate } sampleId.text []

def listeningPhone : Contents SymbolicProof :=
  { (sampleInstallation "phone" 2 sampleId).first with
    phase := .running
    peers := (∅ : BTreeMap String (Peer SymbolicProof)).insert "desk" listedDesk }

def deskHello (networks : Nat) : Hello SymbolicProof :=
  hello desk.inner listeningDesk phonePeer (deskAddresses networks)

def phoneHears (networks : Nat) (line : String) :
    Except Error ((Peer SymbolicProof × ManagedReceipt SymbolicProof) × Contents SymbolicProof) :=
  inbound (sampleInstallation "phone" 2 sampleId).inner listeningPhone line (deskHello networks)
    deskCertificate

theorem manyNetworks_refused :
    (∃ wrapped after, deskInvitation 32 = (.ok wrapped, after) ∧
      SessionInvitation.decode (fun _ => .ok wrapped) wrapped.encode =
        .error (.managed .invalidOperation "invalid invitation destination")) ∧
    ∃ line, writeHello symbolicBytes (deskHello 32) = .ok line ∧
      (phoneHears 32 line).map (fun _ => ()) =
        .error (.managed .incompatibleSchema "incompatible managed schema") :=
  ⟨⟨_, _, rfl, by decide +kernel⟩, _, rfl, by decide +kernel⟩

theorem advertised_accepted_one : ∃ wrapped after line,
    deskInvitation 1 = (.ok wrapped, after) ∧
    writeHello symbolicBytes (deskHello 1) = .ok line ∧
    SessionInvitation.decode (fun _ => .ok wrapped) wrapped.encode = .ok wrapped ∧
    ∃ result, phoneHears 1 line = .ok result := by
  obtain ⟨wrapped, after, created⟩ : ∃ wrapped after, deskInvitation 1 = (.ok wrapped, after) :=
    ⟨_, _, rfl⟩
  obtain ⟨line, sent⟩ : ∃ line, writeHello symbolicBytes (deskHello 1) = .ok line := ⟨_, rfl⟩
  have phone : listeningPhone.peers[listeningDesk.identity.deviceId]? = some listedDesk := by rfl
  refine ⟨wrapped, after, line, created, sent, ?_⟩
  refine (advertised_accepted_iff desk.valid rfl created rfl sent rfl phone rfl rfl rfl (by decide)
    (AppManifest.compatibleWith_self _)).mpr
      ⟨fun _ => by decide, by decide +kernel, by decide +kernel, by decide⟩

end Sample

end LibreSync.Managed
