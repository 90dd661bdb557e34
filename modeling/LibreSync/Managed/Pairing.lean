import LibreSync.Managed.Lifecycle

/-! What a pairing writes into the envelope: its preparation, its enrolment and its addresses. -/

namespace LibreSync.Managed

structure Handler where
  generation : Nat
  expected : Option Identity
  addresses : List String
  recovering : Bool
  repair : Bool
deriving DecidableEq

section Operations

variable {Proof : Type} (inner : Inner Proof)

def Handler.check (handler : Handler) (e : Contents Proof) : Except Error Unit :=
  if e.phase ≠ .running ∨ e.generation ≠ handler.generation then .error .cancelled else .ok ()

def Handler.validate (handler : Handler) (e : Contents Proof) (outcome : SecurePairingOutcome) :
    Except Error Unit :=
  match handler.check e with
  | .error error => .error error
  | .ok () =>
      if handler.expected.any (· ≠ outcome.identity) then
        fail "authenticated inviter differs from invitation destination"
      else if ¬inner.config.metadata.manifest.compatibleWith outcome.metadata.manifest ∨
          outcome.identity.appId ≠ e.identity.appId ∨
          outcome.identity.deviceId = e.identity.deviceId then
        fail "incompatible enrollment identity or schema"
      else if (e.peers[outcome.identity.deviceId]?).any fun peer =>
          (peer.revoked || peer.fingerprint ≠ outcome.fingerprint) && !handler.repair then
        fail "peer revoked or fingerprint changed; explicit repair required"
      else .ok ()

def prepareSecurePairing (handler : Handler) (outcome : SecurePairingOutcome)
    (e : Contents Proof) : Except Error (Unit × Contents Proof) :=
  match handler.validate inner e outcome with
  | .error error => .error error
  | .ok () => .ok ((), { e with preparations := e.preparations.insert outcome.invitationId {
      addresses := handler.addresses
      outcome
      generation := handler.generation } })

/-- The incarnations that a commit draws: one for the enrolled peer, and one for every peer when
the group key is replaced. -/
structure Incarnations where
  enrolled : String
  rekeyed : String → String

def Peer.enrolled [ReceiptMac Proof] (outcome : SecurePairingOutcome) (incarnation : String)
    (addresses : List String) : Peer Proof where
  identity := outcome.identity
  metadata := outcome.metadata
  fingerprint := outcome.fingerprint
  addresses := addresses
  stored := default
  applied := default
  incarnation := incarnation
  transmitted := default
  received := default
  processed := default
  bootstrapped := false
  state := .waiting
  pending := none
  revoked := false

def rekeyed (key : Bytes) (incarnations : String → String) (e : Contents Proof) :
    BTreeMap String (Peer Proof) :=
  if e.groupKey ≠ key then
    e.peers.map fun id peer => { peer with incarnation := incarnations id }
  else e.peers

/-- The invitation has no enrolment of this very outcome yet. -/
def freshOutcome (outcome : SecurePairingOutcome) (e : Contents Proof) : Bool :=
  !(e.enrollments[outcome.invitationId]?).any fun job => job.outcome = outcome

def enroll [ReceiptMac Proof] (handler : Handler) (outcome : SecurePairingOutcome) (key : AppKey)
    (incarnations : Incarnations) (e : Contents Proof) : Contents Proof :=
  let device := outcome.identity.deviceId
  let peers := rekeyed key.bytes incarnations.rekeyed e
  let fresh := freshOutcome outcome e
  let peer := match peers[device]? with
    | none => .enrolled outcome incarnations.enrolled []
    | some peer =>
        if fresh then .enrolled outcome incarnations.enrolled peer.addresses else peer
  let others :=
    if fresh ∧ (handler.repair ∨ device ∈ e.peers) then
      e.enrollments.filter fun _ job => job.outcome.identity.deviceId ≠ device
    else e.enrollments
  { e with
    groupKey := key.bytes
    peers := peers.insert device peer
    enrollments := others.insert outcome.invitationId {
      outcome
      generation := handler.generation }
    preparations := e.preparations.erase outcome.invitationId }

def commitSecurePairing [ReceiptMac Proof] (handler : Handler) (outcome : SecurePairingOutcome)
    (key : AppKey) (incarnations : Incarnations) (e : Contents Proof) :
    Except Error (Unit × Contents Proof) :=
  match handler.validate inner e outcome with
  | .error error => .error error
  | .ok () =>
      if e.groupKey ≠ key.bytes ∧ (BTreeMap.valueList e.peers).any fun peer => !peer.revoked then
        failCode .groupConflict "cannot replace transport key of an enrolled group"
      else if (e.preparations[outcome.invitationId]?).any fun preparation =>
          (!handler.recovering && preparation.generation ≠ handler.generation) ||
            preparation.outcome ≠ outcome then
        fail "pairing preparation changed"
      else .ok ((), enroll handler outcome key incarnations e)

/-- What the inviter tells a joiner that recovers its enrolment. -/
def recoverSecurePairing (handler : Handler) (invitation : String) (identity : Identity)
    (fingerprint : String) (e : Contents Proof) : Except Error (Option DeviceMetadata) :=
  (handler.check e).map fun () =>
    ((e.enrollments[invitation]?).filter fun job =>
      job.outcome.identity = identity && job.outcome.fingerprint = fingerprint &&
        (e.peers[identity.deviceId]?).any fun peer =>
          !peer.revoked && peer.fingerprint = fingerprint).map fun job => job.outcome.metadata

def settleAddresses (handler : Handler) (peer : String) (addresses : List String)
    (e : Contents Proof) : Except Error (Unit × Contents Proof) :=
  match handler.check e with
  | .error error => .error error
  | .ok () =>
      match e.peers[peer]? with
      | none => .error (if handler.recovering then .cancelled else .protocol "enrollment missing")
      | some p => .ok ((), e.setPeer peer { p with addresses })

end Operations

end LibreSync.Managed
