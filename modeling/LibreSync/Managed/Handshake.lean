import LibreSync.Managed.Meeting
import LibreSync.Transcript

/-!
Secure pairing and its recovery, over a network that loses, delays, repeats, reflects and invents
messages. SPAKE2 and HMAC are ideal: a MAC under an invitation's secret is written by a run that
holds the secret, or is a copy.
-/

namespace LibreSync

def PairingManager.admits (manager : PairingManager) (time : Nat) (id : String) : Bool :=
  (manager.invitations[id]?).any fun entry => entry.claimed && time < entry.invitation.expiresAt

namespace Managed

inductive ConfirmationLabel where
  | client
  | server
  | ready
  | prepared
  | accepted
  | commit
deriving DecidableEq

/-- What SPAKE2 gives to both sides that used one password on the same two messages. -/
structure PakeSecret where
  secret : String
  invitationId : String
  clientPake : Bytes
  serverPake : Bytes
deriving DecidableEq

structure Confirmations where
  shared : PakeSecret
  transcript : Transcript
deriving DecidableEq

/-- A MAC, by who could write it. -/
structure Confirmation where
  label : ConfirmationLabel
  extra : Bytes
  keys : Confirmations
deriving DecidableEq

def Confirmation.hashed (tag : Confirmation) : PakeSecret × Bytes × ConfirmationLabel × Bytes :=
  (tag.keys.shared, tag.keys.transcript.bytes, tag.label, tag.keys.transcript.macInput tag.extra)

instance Confirmation.decideHashed (tag other : Confirmation) :
    Decidable (tag.hashed = other.hashed) :=
  if same : tag = other then .isTrue (congrArg hashed same)
  else instDecidableEqProd tag.hashed other.hashed

structure PairChallenge where
  identity : Identity
  metadata : DeviceMetadata
  pake : Bytes
  confirmation : Confirmation

section Checks

def pairingFail {α : Type} (message : String) : Except Error α :=
  .error (.protocol ("pairing: " ++ message))

def Confirmations.mac (keys : Confirmations) (label : ConfirmationLabel) (extra : Bytes) :
    Confirmation where
  label
  extra
  keys

def Confirmations.verify (keys : Confirmations) (label : ConfirmationLabel) (extra : Bytes)
    (tag : Confirmation) : Except Error Unit :=
  if tag.hashed = (keys.mac label extra).hashed then .ok ()
  else .error (.protocol "pairing authentication failed")

def validateIdentity (identity : Identity) (metadata : DeviceMetadata) : Except Error Unit := do
  bounded identity.deviceId
  bounded identity.appId
  bounded identity.userId
  metadata.validate
  if identity.appId ≠ metadata.manifest.appId then
    throw (.protocol "pairing: identity and manifest disagree")

/-- A SPAKE2 message of the role; `point` says which bytes are a safe group element. -/
def validPakeMessage (point : Bytes → Bool) (message : Bytes) (role : UInt8) : Bool :=
  message.length = 33 && message.head? = some role && point message.tail

end Checks

structure Devices (Proof : Type) extends Fleet Proof where
  fingerprint : String → String
  point : Bytes → Bool

inductive LinkStage where
  | greeted
  | confirmed (keys : Confirmations)
  | readied (keys : Confirmations)
  | prepared (keys : Confirmations)
  | committed (keys : Confirmations) (key : AppKey)
deriving DecidableEq

/-- A run of `link_secure` at the joining node. -/
structure Link where
  node : String
  handler : Handler
  invitation : PairingInvitation
  hello : PairHello
  stage : LinkStage
  closed : Bool

inductive AcceptStage where
  | challenged
  | readied
  | proven
  | keyed (key : AppKey)
  | accepted (key : AppKey)
deriving DecidableEq

/-- A run of `accept_secure` at the inviting node. -/
structure Accept where
  node : String
  handler : Handler
  fingerprint : String
  hello : PairHello
  invitation : PairingInvitation
  keys : Confirmations
  stage : AcceptStage
  completed : Bool
  closed : Bool

structure PairRecovered where
  identity : Identity
  metadata : DeviceMetadata
  appKey : Bytes
deriving DecidableEq

/-- A run of `recover_secure_link` for a preparation, and the key that it committed. -/
structure Recovery where
  node : String
  handler : Handler
  previous : SecurePairingOutcome
  committed : Option AppKey
  closed : Bool

structure Answer where
  connection : Nat
  node : String
  fingerprint : String
  invitationId : String
  identity : Identity
  closed : Bool

/-- What was written over a connection between two certificates. -/
structure Relayed where
  connection : Nat
  server : String
  client : String
  message : PairRecovered
deriving DecidableEq

section Runs

variable {Proof : Type} (devices : Devices Proof)

def listenerHandler (generation : Nat) : Handler where
  generation := generation
  expected := none
  addresses := []
  recovering := false
  repair := false

/-- `link_secure` until its hello is written, over a connection to this certificate. -/
def linkSecure (e : Contents Proof) (node : String) (handler : Handler)
    (invitation : PairingInvitation) (fingerprint : String) (pake : Bytes) (time : Nat) :
    Except Error Link :=
  let metadata := (devices.member node).inner.config.metadata
  match validateIdentity e.identity metadata, invitation.validate with
  | .error error, _ => .error error
  | _, .error error => .error error
  | .ok (), .ok () =>
      if invitation.expiresAt ≤ time then pairingFail "invitation expired"
      else if ¬metadata.manifest.compatibleWith invitation.metadata.manifest then
        pairingFail "incompatible app manifest"
      else if fingerprint ≠ invitation.inviterFingerprint then
        .error (.fingerprintMismatch "" invitation.inviterFingerprint fingerprint)
      else .ok {
        node
        handler
        invitation
        hello := {
          version := pairingVersion
          invitationId := invitation.invitationId
          identity := e.identity
          metadata
          clientFingerprint := devices.fingerprint node
          serverFingerprint := fingerprint
          pake }
        stage := .greeted
        closed := false }

def connect (e : Contents Proof) (node : String) (invitation : SessionInvitation) (repair : Bool)
    (fingerprint : String) (pake : Bytes) (time : Nat) : Except Error Link :=
  match invitation.invitation.validate with
  | .error error => .error error
  | .ok () =>
      if ¬(devices.member node).inner.config.metadata.manifest.compatibleWith
          invitation.invitation.metadata.manifest then
        failCode .incompatibleSchema "incompatible invitation schema"
      else if e.phase ≠ .running then fail "session is not running"
      else
        let handler := {
          generation := e.generation
          expected := some invitation.identity
          addresses := invitation.addresses
          recovering := false
          repair }
        linkSecure devices e node handler invitation.invitation fingerprint pake time

def Link.transcript (link : Link) (challenge : PairChallenge) : Transcript where
  hello := link.hello
  serverIdentity := challenge.identity
  serverMetadata := challenge.metadata
  serverPake := challenge.pake

def Link.challenged (link : Link) (challenge : PairChallenge) : Except Error Confirmations :=
  let manifest := (devices.member link.node).inner.config.metadata.manifest
  match validateIdentity challenge.identity challenge.metadata with
  | .error error => .error error
  | .ok () =>
      if ¬manifest.compatibleWith challenge.metadata.manifest ∨
          ¬link.invitation.metadata.manifest.compatibleWith challenge.metadata.manifest then
        pairingFail "incompatible authenticated manifest"
      else if ¬validPakeMessage devices.point challenge.pake 66 then
        pairingFail "invalid SPAKE2 group element"
      else
        let keys : Confirmations := {
          shared := {
            secret := link.invitation.secret
            invitationId := link.invitation.invitationId
            clientPake := link.hello.pake
            serverPake := challenge.pake }
          transcript := link.transcript challenge }
        (keys.verify .server [] challenge.confirmation).map fun () => keys

def Link.outcome (link : Link) (keys : Confirmations) : SecurePairingOutcome where
  invitationId := link.invitation.invitationId
  identity := keys.transcript.serverIdentity
  metadata := keys.transcript.serverMetadata
  fingerprint := link.hello.serverFingerprint

def admitAccept (e : Contents Proof) (node : String) (hello : PairHello) (fingerprint : String) :
    Except Error Unit :=
  let metadata := (devices.member node).inner.config.metadata
  match validateIdentity hello.identity hello.metadata with
  | .error error => .error error
  | .ok () =>
      if hello.version ≠ pairingVersion ∨ ¬validPakeMessage devices.point hello.pake 65 ∨
          hello.clientFingerprint ≠ fingerprint ∨
          hello.serverFingerprint ≠ devices.fingerprint node then
        pairingFail "invalid initial transcript"
      else match validateIdentity e.identity metadata with
        | .error error => .error error
        | .ok () =>
            if ¬metadata.manifest.compatibleWith hello.metadata.manifest then
              pairingFail "incompatible manifest"
            else .ok ()

def acceptSecure (e : Contents Proof) (node : String) (handler : Handler) (hello : PairHello)
    (fingerprint : String) (invitation : PairingInvitation) (pake : Bytes) : Except Error Accept :=
  let metadata := (devices.member node).inner.config.metadata
  if invitation.inviterFingerprint ≠ devices.fingerprint node ∨
      ¬metadata.manifest.compatibleWith invitation.metadata.manifest then
    pairingFail "invitation identity changed"
  else .ok {
    node
    handler
    fingerprint
    hello
    invitation
    keys := {
      shared := {
        secret := invitation.secret
        invitationId := invitation.invitationId
        clientPake := hello.pake
        serverPake := pake }
      transcript := {
        hello
        serverIdentity := e.identity
        serverMetadata := metadata
        serverPake := pake } }
    stage := .challenged
    completed := false
    closed := false }

def Accept.outcome (accept : Accept) : SecurePairingOutcome where
  invitationId := accept.hello.invitationId
  identity := accept.hello.identity
  metadata := accept.hello.metadata
  fingerprint := accept.fingerprint

/-- `accept_recovery` until it reads the key. -/
def acceptRecovery (e : Contents Proof) (connection : Nat) (node : String) (handler : Handler)
    (id : String) (peer : Identity) (fingerprint : String) : Except Error Answer :=
  match recoverSecurePairing handler id peer fingerprint e with
  | .error error => .error error
  | .ok none => .error (.protocol "no journaled enrollment")
  | .ok (some metadata) =>
      if peer.appId ≠ e.identity.appId then pairingFail "recovery app mismatch"
      else if ¬(devices.member node).inner.config.metadata.manifest.compatibleWith
          metadata.manifest then
        pairingFail "recovery manifest mismatch"
      else .ok {
        connection
        node
        fingerprint
        invitationId := id
        identity := peer
        closed := false }

def recoverSecureLink (e : Contents Proof) (node : String) (preparation : Preparation) :
    Except Error Recovery :=
  (validateIdentity e.identity (devices.member node).inner.config.metadata).map fun () => {
    node
    handler := {
      generation := e.generation
      expected := some preparation.outcome.identity
      addresses := preparation.addresses
      recovering := true
      repair := false }
    previous := preparation.outcome
    committed := none
    closed := false }

def Recovery.recovered (recovery : Recovery) (message : PairRecovered) : Except Error AppKey :=
  if message.identity ≠ recovery.previous.identity ∨
      ¬(devices.member recovery.node).inner.config.metadata.manifest.compatibleWith
        message.metadata.manifest then
    pairingFail "recovery identity changed"
  else AppKey.fromSlice message.appKey

end Runs

/-- The sessions with their open invitations, the runs of both sides, the MACs and recovered keys
that were written, the envelopes that pairings saved and the ones that recoveries saw. -/
structure Pairings (Proof : Type) where
  nodes : String → Session Proof
  managers : String → PairingManager
  links : Nat → Option Link
  accepts : Nat → Option Accept
  recoveries : Nat → Option Recovery
  answers : Nat → Option Answer
  sent : List Confirmation
  relayed : List Relayed
  saved : List (String × Contents Proof)
  seen : List (String × Contents Proof)

structure Mutation where
  change : RandomId
  transaction : RandomId
  saves : Saves
  incarnation : RandomId
  rekeyed : String → RandomId

inductive PairingEvent (Proof : Type) where
  | session (node : String) (event : SessionEvent Proof)
  | invite (node : String) (issued time : Nat) (id secret : String) (ttl : Nat)
  | revoke (node id : String)
  | close (node : String)
  | connect (run : Nat) (node : String) (invitation : SessionInvitation) (repair : Bool)
      (fingerprint : String) (pake : Bytes) (time : Nat)
  | accept (run : Nat) (node : String) (hello : PairHello) (fingerprint : String) (pake : Bytes)
      (time : Nat)
  | challenge (run : Nat) (challenge : PairChallenge)
  | confirm (run : Nat) (tag : Confirmation) (time : Nat)
  | ready (run : Nat) (tag : Confirmation) (time : Nat) (mutation : Mutation)
  | prove (run : Nat) (tag : Confirmation)
  | key (run : Nat)
  | enroll (run : Nat) (time : Nat) (mutation : Mutation)
  | accepted (run : Nat) (appKey : Bytes) (tag : Confirmation) (time : Nat) (mutation : Mutation)
  | commit (run : Nat) (tag : Confirmation) (time : Nat)
  | complete (run : Nat) (mutation : Mutation)
  | dropLink (run : Nat)
  | dropAccept (run : Nat)
  | recover (run : Nat) (node : String) (preparation : Preparation)
  | lookup (run connection : Nat) (node id : String) (peer : Identity) (fingerprint : String)
  | answer (run : Nat)
  | recovered (run : Nat) (message : PairRecovered) (mutation : Mutation)

def Call.pairing {Proof : Type} : Call Proof → Bool
  | .prepare .. | .commit .. | .settle .. => true
  | _ => false

def SessionEvent.pairing {Proof : Type} : SessionEvent Proof → Bool
  | .call _ _ _ made => made.pairing
  | .reopen _ => false

namespace Pairings

section Step

variable {Proof : Type} [DecidableEq Proof] [ReceiptMac Proof] (devices : Devices Proof)
  (w : Pairings Proof)

def start : Pairings Proof where
  nodes id := .opened (devices.member id).first
  managers _ := .empty
  links _ := none
  accepts _ := none
  recoveries _ := none
  answers _ := none
  sent := []
  relayed := []
  saved := []
  seen := []

def envelope (node : String) : Contents Proof := (w.nodes node).envelope.toContents

def setNode (node : String) (session : Session Proof) : Pairings Proof :=
  { w with nodes := Function.update w.nodes node session }

def setManager (node : String) (manager : PairingManager) : Pairings Proof :=
  { w with managers := Function.update w.managers node manager }

def setLink (run : Nat) (link : Link) : Pairings Proof :=
  { w with links := Function.update w.links run (some link) }

def setAccept (run : Nat) (accept : Accept) : Pairings Proof :=
  { w with accepts := Function.update w.accepts run (some accept) }

def setRecovery (run : Nat) (recovery : Recovery) : Pairings Proof :=
  { w with recoveries := Function.update w.recoveries run (some recovery) }

def setAnswer (run : Nat) (answer : Answer) : Pairings Proof :=
  { w with answers := Function.update w.answers run (some answer) }

def send (tag : Confirmation) : Pairings Proof := { w with sent := tag :: w.sent }

def endLink (run : Nat) (link : Link) : Pairings Proof :=
  w.setLink run { link with closed := true }

/-- However `accept_secure` ends, it releases what it claimed. -/
def endAccept (run : Nat) (accept : Accept) : Pairings Proof :=
  (w.setAccept run { accept with closed := true }).setManager accept.node
    ((w.managers accept.node).release accept.hello.invitationId)

def mutate (node : String) (mutation : Mutation) (call : Call Proof) :
    Except Error Unit × Pairings Proof :=
  let (result, session) := (w.nodes node).perform (devices.member node).inner mutation.change
    mutation.transaction mutation.saves call
  let next := w.setNode node session
  match result with
  | .error error => (.error error, next)
  | .ok () => (.ok (), { next with saved := (node, session.durable) :: w.saved })

def prepareLink (run : Nat) (link : Link) (keys : Confirmations) (time : Nat)
    (mutation : Mutation) : Pairings Proof :=
  match w.mutate devices link.node mutation (.prepare link.handler (link.outcome keys)) with
  | (.error _, next) => next.endLink run link
  | (.ok (), next) =>
      if link.invitation.expiresAt ≤ time then next.endLink run link
      else (next.setLink run { link with stage := .prepared keys }).send (keys.mac .prepared [])

def enrollAccept (run : Nat) (accept : Accept) (key : AppKey) (time : Nat) (mutation : Mutation) :
    Pairings Proof :=
  let (result, next) := w.mutate devices accept.node mutation (.commit accept.handler
    accept.outcome key mutation.incarnation mutation.rekeyed)
  match (w.managers accept.node).commit time accept.hello.invitationId result with
  | (.error _, _) =>
      if (w.managers accept.node).admits time accept.hello.invitationId then
        next.endAccept run accept
      else w.endAccept run accept
  | (.ok (), manager) =>
      ((next.setManager accept.node manager).setAccept run
        { accept with stage := .accepted key }).send (accept.keys.mac .accepted key.bytes)

def commitLink (run : Nat) (link : Link) (keys : Confirmations) (key : AppKey)
    (mutation : Mutation) : Pairings Proof :=
  match w.mutate devices link.node mutation (.commit link.handler (link.outcome keys) key
    mutation.incarnation mutation.rekeyed) with
  | (.error _, next) => next.endLink run link
  | (.ok (), next) =>
      (next.setLink run { link with stage := .committed keys key }).send
        (keys.mac .commit key.bytes)

def commitRecovery (run : Nat) (recovery : Recovery) (message : PairRecovered) (key : AppKey)
    (mutation : Mutation) : Pairings Proof :=
  match w.mutate devices recovery.node mutation (.commit recovery.handler
    { recovery.previous with metadata := message.metadata } key mutation.incarnation
    mutation.rekeyed) with
  | (.error _, next) => next.setRecovery run { recovery with closed := true }
  | (.ok (), next) => next.setRecovery run { recovery with committed := some key, closed := true }

def challengeLink (run : Nat) (challenge : PairChallenge) (link : Link) :
    Option (Pairings Proof) :=
  if link.stage ≠ .greeted then none
  else match link.challenged devices challenge with
    | .error _ => some (w.endLink run link)
    | .ok keys =>
        some ((w.setLink run { link with stage := .confirmed keys }).send (keys.mac .client []))

def readyLink (run : Nat) (tag : Confirmation) (time : Nat) (mutation : Mutation) (link : Link) :
    Option (Pairings Proof) :=
  match link.stage with
  | .confirmed keys =>
      match keys.verify .ready [] tag with
      | .error _ => some (w.endLink run link)
      | .ok () =>
          some (w.prepareLink devices run { link with stage := .readied keys } keys time mutation)
  | _ => none

def acceptedLink (run : Nat) (appKey : Bytes) (tag : Confirmation) (time : Nat)
    (mutation : Mutation) (link : Link) : Option (Pairings Proof) :=
  match link.stage with
  | .prepared keys =>
      match keys.verify .accepted appKey tag, AppKey.fromSlice appKey with
      | .ok (), .ok key =>
          if link.invitation.expiresAt ≤ time then some (w.endLink run link)
          else some (w.commitLink devices run link keys key mutation)
      | _, _ => some (w.endLink run link)
  | _ => none

def completeLink (run : Nat) (mutation : Mutation) (link : Link) : Option (Pairings Proof) :=
  match link.stage with
  | .committed keys _ =>
      let (_, next) := w.mutate devices link.node mutation (.settle link.handler
        keys.transcript.serverIdentity.deviceId link.handler.addresses)
      some (next.endLink run link)
  | _ => none

def beginAccept (run : Nat) (node : String) (hello : PairHello) (fingerprint : String)
    (pake : Bytes) (time : Nat) : Option (Pairings Proof) :=
  let e := w.envelope node
  match context e, admitAccept devices e node hello fingerprint,
      (w.managers node).claim time hello.invitationId with
  | .ok generation, .ok (), .ok (invitation, manager) =>
      match acceptSecure devices e node (listenerHandler generation) hello fingerprint invitation
        pake with
      | .error _ => some (w.setManager node (manager.release hello.invitationId))
      | .ok accept =>
          some (((w.setManager node manager).setAccept run accept).send
            (accept.keys.mac .server []))
  | _, _, _ => none

def confirmAccept (run : Nat) (tag : Confirmation) (time : Nat) (accept : Accept) :
    Option (Pairings Proof) :=
  if accept.stage ≠ .challenged then none
  else match accept.keys.verify .client [] tag with
    | .error _ => some (w.endAccept run accept)
    | .ok () =>
        if accept.invitation.expiresAt ≤ time then some (w.endAccept run accept)
        else some ((w.setAccept run { accept with stage := .readied }).send
          (accept.keys.mac .ready []))

def proveAccept (run : Nat) (tag : Confirmation) (accept : Accept) : Option (Pairings Proof) :=
  if accept.stage ≠ .readied then none
  else match accept.keys.verify .prepared [] tag with
    | .error _ => some (w.endAccept run accept)
    | .ok () => some (w.setAccept run { accept with stage := .proven })

def keyAccept (run : Nat) (accept : Accept) : Option (Pairings Proof) :=
  if accept.stage ≠ .proven then none
  else match AppKey.fromSlice (w.envelope accept.node).groupKey with
    | .error _ => some (w.endAccept run accept)
    | .ok key => some (w.setAccept run { accept with stage := .keyed key })

def keyedAccept (run : Nat) (time : Nat) (mutation : Mutation) (accept : Accept) :
    Option (Pairings Proof) :=
  match accept.stage with
  | .keyed key => some (w.enrollAccept devices run accept key time mutation)
  | _ => none

/-- The joiner's commit arrived: the inviter completes unless the enrolment was revoked. -/
def committedAccept (run : Nat) (tag : Confirmation) (time : Nat) (accept : Accept) :
    Option (Pairings Proof) :=
  match accept.stage with
  | .accepted key =>
      let found := recoverSecurePairing accept.handler accept.hello.invitationId
        accept.hello.identity accept.fingerprint (w.envelope accept.node)
      let valid := accept.keys.verify .commit key.bytes tag = .ok () ∧
        time < accept.invitation.expiresAt ∧ found.toOption.join.isSome
      some (w.endAccept run { accept with completed := valid })
  | _ => none

def beginAnswer (run connection : Nat) (node id : String) (peer : Identity)
    (fingerprint : String) : Option (Pairings Proof) :=
  let e := w.envelope node
  match context e with
  | .error _ => none
  | .ok generation =>
      (acceptRecovery devices e connection node (listenerHandler generation) id peer
        fingerprint).toOption.map fun answer => { w.setAnswer run answer with
          seen := (node, e) :: w.seen }

/-- The key is read when the answer is written, after the enrolment was looked up. -/
def writeAnswer (run : Nat) (answer : Answer) : Option (Pairings Proof) :=
  let e := w.envelope answer.node
  let next := w.setAnswer run { answer with closed := true }
  if answer.closed then none
  else match AppKey.fromSlice e.groupKey with
    | .error _ => some next
    | .ok key => some { next with
        relayed := {
          connection := answer.connection
          server := devices.fingerprint answer.node
          client := answer.fingerprint
          message := {
            identity := e.identity
            metadata := (devices.member answer.node).inner.config.metadata
            appKey := key.bytes } } :: w.relayed
        seen := (answer.node, e) :: w.seen }

def finishRecovery (run : Nat) (message : PairRecovered) (mutation : Mutation)
    (recovery : Recovery) : Option (Pairings Proof) :=
  if recovery.closed then none
  else match recovery.recovered devices message with
    | .error _ => some (w.setRecovery run { recovery with closed := true })
    | .ok key => some (w.commitRecovery devices run recovery message key mutation)

def onLink (run : Nat) (act : Link → Option (Pairings Proof)) : Option (Pairings Proof) :=
  (w.links run).bind fun link => if link.closed then none else act link

def onAccept (run : Nat) (act : Accept → Option (Pairings Proof)) : Option (Pairings Proof) :=
  (w.accepts run).bind fun accept => if accept.closed then none else act accept

/-- One event; a run is numbered afresh when it begins. -/
def step : PairingEvent Proof → Option (Pairings Proof)
  | .session node event =>
      if event.pairing then none
      else ((devices.member node).step (w.nodes node) event).map (w.setNode node)
  | .invite node issued time id secret ttl =>
      some (w.setManager node ((w.managers node).create issued time id secret
        (devices.member node).inner.config.metadata (devices.fingerprint node) ttl).2)
  | .revoke node id => some (w.setManager node ((w.managers node).revoke id))
  | .close node => some (w.setManager node (w.managers node).close)
  | .connect run node invitation repair fingerprint pake time =>
      if (w.links run).isSome then none
      else (connect devices (w.envelope node) node invitation repair fingerprint pake
        time).toOption.map (w.setLink run)
  | .challenge run challenge => w.onLink run (w.challengeLink devices run challenge)
  | .ready run tag time mutation => w.onLink run (w.readyLink devices run tag time mutation)
  | .accepted run appKey tag time mutation =>
      w.onLink run (w.acceptedLink devices run appKey tag time mutation)
  | .complete run mutation => w.onLink run (w.completeLink devices run mutation)
  | .dropLink run => w.onLink run fun link => some (w.endLink run link)
  | .accept run node hello fingerprint pake time =>
      if (w.accepts run).isSome then none
      else w.beginAccept devices run node hello fingerprint pake time
  | .confirm run tag time => w.onAccept run (w.confirmAccept run tag time)
  | .prove run tag => w.onAccept run (w.proveAccept run tag)
  | .key run => w.onAccept run (w.keyAccept run)
  | .enroll run time mutation => w.onAccept run (w.keyedAccept devices run time mutation)
  | .commit run tag time => w.onAccept run (w.committedAccept run tag time)
  | .dropAccept run => w.onAccept run fun accept => some (w.endAccept run accept)
  | .recover run node preparation =>
      if (w.recoveries run).isSome ∨
          preparation ∉ BTreeMap.valueList (w.envelope node).preparations then none
      else (recoverSecureLink devices (w.envelope node) node preparation).toOption.map
        (w.setRecovery run)
  | .lookup run connection node id peer fingerprint =>
      if (w.answers run).isSome then none
      else w.beginAnswer devices run connection node id peer fingerprint
  | .answer run => (w.answers run).bind (w.writeAnswer devices run)
  | .recovered run message mutation =>
      (w.recoveries run).bind (w.finishRecovery devices run message mutation)

end Step

end Pairings

end Managed

end LibreSync
