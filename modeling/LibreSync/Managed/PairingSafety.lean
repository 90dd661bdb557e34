import LibreSync.Managed.Handshake

/-!
Against whoever lacks the secret of an invitation, the two sides of a pairing agree: the inviter
enrols only whom prepared, and the joiner commits only what the inviter enrolled and released.
-/

namespace LibreSync.Managed

section Macs

theorem Confirmation.hashed_injective : Function.Injective Confirmation.hashed := by
  rintro ⟨label, extra, shared, transcript⟩ ⟨other, otherExtra, otherShared, otherTranscript⟩ same
  simp only [hashed, Prod.mk.injEq] at same
  obtain ⟨rfl, _, rfl, inputs⟩ := same
  have fields : (transcript, extra) = (otherTranscript, otherExtra) :=
    Transcript.macInput_injective inputs
  obtain ⟨rfl, rfl⟩ := Prod.mk.inj fields
  rfl

theorem Confirmations.mac_injective {keys other : Confirmations}
    {label otherLabel : ConfirmationLabel} {extra otherExtra : Bytes}
    (same : keys.mac label extra = other.mac otherLabel otherExtra) :
    keys = other ∧ label = otherLabel ∧ extra = otherExtra := by
  simp only [mac, Confirmation.mk.injEq] at same
  exact ⟨same.2.2, same.1, same.2.1⟩

theorem Confirmations.verify_ok {keys : Confirmations} {label : ConfirmationLabel} {extra : Bytes}
    {tag : Confirmation} (verified : keys.verify label extra tag = .ok ()) :
    tag = keys.mac label extra := by
  simp only [verify] at verified
  split at verified
  · rename_i same
    exact Confirmation.hashed_injective same
  · simp at verified

theorem AppKey.eq_of_bytes {key other : AppKey} (same : key.bytes = other.bytes) : key = other := by
  cases key
  cases other
  simp only at same
  subst same
  rfl

theorem AppKey.fromSlice_ok {bytes : Bytes} {key : AppKey} (read : AppKey.fromSlice bytes = .ok key) :
    bytes = key.bytes := by
  simp only [AppKey.fromSlice] at read
  split at read
  · rw [← Except.ok.inj read]
  · simp at read

end Macs

section Stages

def LinkStage.proof : LinkStage → Option Confirmations
  | .prepared keys | .committed keys _ => some keys
  | _ => none

def LinkStage.keys : LinkStage → Option Confirmations
  | .confirmed keys | .readied keys | .prepared keys | .committed keys _ => some keys
  | .greeted => none

def LinkStage.answered : LinkStage → Option Confirmations
  | .readied keys | .prepared keys | .committed keys _ => some keys
  | _ => none

def LinkStage.taken : LinkStage → Option (Confirmations × AppKey)
  | .committed keys key => some (keys, key)
  | _ => none

theorem LinkStage.keys_of_answered {stage : LinkStage} {keys : Confirmations}
    (answered : stage.answered = some keys) : stage.keys = some keys := by
  cases stage with
  | readied | prepared | committed => exact answered
  | _ => simp [LinkStage.answered] at answered

theorem LinkStage.answered_of_proof {stage : LinkStage} {keys : Confirmations}
    (proof : stage.proof = some keys) : stage.answered = some keys := by
  cases stage with
  | prepared | committed => exact proof
  | _ => simp [LinkStage.proof] at proof

theorem LinkStage.proof_of_taken {stage : LinkStage} {keys : Confirmations} {key : AppKey}
    (taken : stage.taken = some (keys, key)) : stage.proof = some keys := by
  cases stage with
  | committed found key =>
      obtain ⟨rfl, rfl⟩ := Prod.mk.inj (Option.some.inj taken)
      rfl
  | _ => simp [LinkStage.taken] at taken

def AcceptStage.ready : AcceptStage → Bool
  | .challenged => false
  | _ => true

def AcceptStage.proved : AcceptStage → Bool
  | .challenged | .readied => false
  | _ => true

def AcceptStage.released : AcceptStage → Option AppKey
  | .accepted key => some key
  | _ => none

structure Link.Extends (before after : Link) : Prop where
  node : after.node = before.node
  invitation : after.invitation = before.invitation
  hello : after.hello = before.hello
  answered : ∀ keys, before.stage.answered = some keys → after.stage.answered = some keys
  proof : ∀ keys, before.stage.proof = some keys → after.stage.proof = some keys
  taken : ∀ result, before.stage.taken = some result → after.stage.taken = some result

structure Accept.Extends (before after : Accept) : Prop where
  node : after.node = before.node
  fingerprint : after.fingerprint = before.fingerprint
  hello : after.hello = before.hello
  invitation : after.invitation = before.invitation
  keys : after.keys = before.keys
  ready : before.stage.ready = true → after.stage.ready = true
  proved : before.stage.proved = true → after.stage.proved = true
  released : ∀ key, before.stage.released = some key → after.stage.released = some key

theorem Link.Extends.refl (link : Link) : link.Extends link :=
  ⟨rfl, rfl, rfl, fun _ => id, fun _ => id, fun _ => id⟩

theorem Accept.Extends.refl (accept : Accept) : accept.Extends accept :=
  ⟨rfl, rfl, rfl, rfl, rfl, id, id, fun _ => id⟩

end Stages

def PairingEvent.tags {Proof : Type} : PairingEvent Proof → List Confirmation
  | .challenge _ received => [received.confirmation]
  | .confirm _ tag _ | .ready _ tag _ _ | .prove _ tag | .accepted _ _ tag _ _
  | .commit _ tag _ => [tag]
  | _ => []

def Call.writes {Proof : Type} : Call Proof → Option SecurePairingOutcome
  | .prepare _ outcome | .commit _ outcome _ _ _ => some outcome
  | _ => none

def Link.Makes {Proof : Type} (link : Link) (node : String)
    (call : Call Proof) : Prop :=
  ∀ outcome, call.writes = some outcome → node = link.node ∧ ∃ keys,
    link.stage.answered = some keys ∧ outcome = link.outcome keys

def Accept.Makes {Proof : Type} (accept : Accept) (node : String)
    (call : Call Proof) : Prop :=
  ∀ outcome, call.writes = some outcome → node = accept.node ∧ accept.stage.proved = true ∧
    outcome = accept.outcome

def Recovery.Makes {Proof : Type} (recovery : Recovery) (node : String)
    (call : Call Proof) : Prop :=
  ∀ outcome, call.writes = some outcome → node = recovery.node ∧
    ∃ metadata, outcome = { recovery.previous with metadata }

def Confirmations.Under (keys : Confirmations) (secret id : String) : Prop :=
  keys.shared.secret = secret ∧ keys.shared.invitationId = id

namespace Pairings

section Moves

variable {Proof : Type} (devices : Devices Proof)

/-- A node prepared the pairing, in an envelope that it saved. -/
def Prepared (w : Pairings Proof) (node : String) (outcome : SecurePairingOutcome) : Prop :=
  ∃ contents preparation, (node, contents) ∈ w.saved ∧
    contents.preparations[outcome.invitationId]? = some preparation ∧
    preparation.outcome = outcome

def Enrolled (w : Pairings Proof) (node : String) (outcome : SecurePairingOutcome)
    (key : AppKey) : Prop :=
  ∃ contents enrollment, (node, contents) ∈ w.saved ∧
    contents.enrollments[outcome.invitationId]? = some enrollment ∧
    enrollment.outcome = outcome ∧ contents.groupKey = key.bytes ∧
    outcome.identity.deviceId ∈ contents.peers

def Sound (w : Pairings Proof) : Prop :=
  ∀ id, (w.nodes id).Holds (Managed.Sound (devices.member id))

variable [DecidableEq Proof] [ReceiptMac Proof]

def Shown (calls : String → Call Proof → Prop) (w next : Pairings Proof) : Prop :=
  ∀ node view, (next.nodes node).Shows view →
    (∃ old, (w.nodes node).Shows old ∧ Kin old view) ∨ ∃ change call candidate, calls node call ∧
      operate (devices.member node).inner change call (w.envelope node) = .ok candidate ∧
      Kin candidate view

/-- Sessions moved on by such calls, and invitations too, and no run did. -/
structure Beside (calls : String → Call Proof → Prop) (w next : Pairings Proof) : Prop where
  sound : w.Sound devices → next.Sound devices
  shown : w.Sound devices → Shown devices calls w next
  links : next.links = w.links
  accepts : next.accepts = w.accepts
  recoveries : next.recoveries = w.recoveries
  answers : next.answers = w.answers
  sent : next.sent = w.sent
  relayed : next.relayed = w.relayed
  saved : w.saved ⊆ next.saved
  seen : next.seen = w.seen

variable {devices} {w next after : Pairings Proof} {calls : String → Call Proof → Prop}

theorem Beside.refl (w : Pairings Proof) : Beside devices calls w w :=
  ⟨id, fun _ _ view shows => Or.inl ⟨view, shows, rfl⟩, rfl, rfl, rfl, rfl, rfl, rfl,
    List.Subset.refl _, rfl⟩

theorem Beside.setManager (beside : Beside devices calls w next) (node : String)
    (manager : PairingManager) : Beside devices calls w (next.setManager node manager) :=
  { beside with }

omit [DecidableEq Proof] [ReceiptMac Proof] in
theorem Prepared.mono {node : String} {outcome : SecurePairingOutcome}
    (prepared : Prepared w node outcome) (saved : w.saved ⊆ after.saved) :
    Prepared after node outcome := by
  obtain ⟨contents, preparation, listed, found⟩ := prepared
  exact ⟨contents, preparation, saved listed, found⟩

omit [DecidableEq Proof] [ReceiptMac Proof] in
theorem Enrolled.mono {node : String} {outcome : SecurePairingOutcome} {key : AppKey}
    (enrolled : Enrolled w node outcome key) (saved : w.saved ⊆ after.saved) :
    Enrolled after node outcome key := by
  obtain ⟨contents, enrollment, listed, found⟩ := enrolled
  exact ⟨contents, enrollment, saved listed, found⟩

theorem Sound.setNode {node : String} {event : SessionEvent Proof} {session : Session Proof}
    (sound : w.Sound devices)
    (moved : (devices.member node).step (w.nodes node) event = some session) :
    (w.setNode node session).Sound devices := by
  intro id
  by_cases here : id = node
  · subst here
    simpa [Pairings.setNode] using (sound id).step moved
  · simpa [Pairings.setNode, here] using sound id

theorem Beside.setNode {node : String} {event : SessionEvent Proof} {session : Session Proof}
    {next : Pairings Proof}
    (moved : (devices.member node).step (w.nodes node) event = some session)
    (made : ∀ change transaction saves call, event = .call change transaction saves call →
      calls node call)
    (set : next = { w.setNode node session with saved := next.saved })
    (saved : w.saved ⊆ next.saved) : Beside devices calls w next where
  sound sound := by
    rw [set]
    exact sound.setNode moved
  shown sound query view shows := by
    rw [set] at shows
    by_cases here : query = node
    · subst here
      rw [show ({ w.setNode query session with saved := next.saved } : Pairings Proof).nodes query =
        session from Function.update_self ..] at shows
      rcases Installation.shows (sound query) moved shows with old |
        ⟨change, transaction, saves, call, candidate, rfl, _, _, operated, kin, _⟩
      · exact Or.inl old
      · exact Or.inr ⟨change.text, call, candidate, made _ _ _ _ rfl, operated, kin⟩
    · rw [show ({ w.setNode node session with saved := next.saved } : Pairings Proof).nodes query =
        w.nodes query from Function.update_of_ne here ..] at shows
      exact Or.inl ⟨view, shows, rfl⟩
  links := by rw [set]; rfl
  accepts := by rw [set]; rfl
  recoveries := by rw [set]; rfl
  answers := by rw [set]; rfl
  sent := by rw [set]; rfl
  relayed := by rw [set]; rfl
  saved := saved
  seen := by rw [set]; rfl

theorem mutate_spec {node : String} {mutation : Mutation} {call : Call Proof}
    {result : Except Error Unit} (sound : w.Sound devices) (made : calls node call)
    (ran : w.mutate devices node mutation call = (result, next)) :
    Beside devices calls w next ∧ (result = .ok () → ∃ contents candidate,
      (node, contents) ∈ next.saved ∧
      operate (devices.member node).inner mutation.change.text call (w.envelope node) =
        .ok candidate ∧ Kin candidate contents) := by
  simp only [mutate] at ran
  generalize performed : (w.nodes node).perform (devices.member node).inner mutation.change
    mutation.transaction mutation.saves call = outcome at ran
  obtain ⟨reply, session⟩ := outcome
  have stepped : (devices.member node).step (w.nodes node)
      (.call mutation.change mutation.transaction mutation.saves call) = some session := by
    simp only [Installation.step, performed]
  have called : ∀ change transaction saves other,
      SessionEvent.call mutation.change mutation.transaction mutation.saves call =
        .call change transaction saves other → calls node other := by
    rintro _ _ _ _ ⟨⟩
    exact made
  cases reply with
  | error error =>
      simp only [Prod.mk.injEq] at ran
      obtain ⟨rfl, rfl⟩ := ran
      exact ⟨.setNode stepped called rfl (List.Subset.refl _), by simp⟩
  | ok done =>
      simp only [Prod.mk.injEq] at ran
      obtain ⟨rfl, rfl⟩ := ran
      obtain ⟨_, _, candidate, operated, kin⟩ := Session.perform_kin (sound node).settled performed
      exact ⟨.setNode stepped called rfl (List.subset_cons_self _ _),
        fun _ => ⟨_, candidate, List.mem_cons_self, operated, kin⟩⟩

theorem mutate_prepared {node : String} {mutation : Mutation} {handler : Handler}
    {outcome : SecurePairingOutcome} (sound : w.Sound devices)
    (made : calls node (.prepare handler outcome))
    (ran : w.mutate devices node mutation (.prepare handler outcome) = (.ok (), next)) :
    Beside devices calls w next ∧ Prepared next node outcome := by
  obtain ⟨beside, saves⟩ := mutate_spec sound made ran
  obtain ⟨contents, candidate, listed, operated, kin⟩ := saves rfl
  obtain ⟨reply, prepared⟩ := Except.map_snd_ok.mp operated
  obtain ⟨_, rfl⟩ := prepareSecurePairing_ok prepared
  refine ⟨beside, contents, {
    addresses := handler.addresses
    outcome
    generation := handler.generation }, listed, ?_, rfl⟩
  rw [kin]
  exact (BTreeMap.get_insert ..).trans (if_pos rfl)

theorem mutate_enrolled {node : String} {mutation : Mutation} {handler : Handler}
    {outcome : SecurePairingOutcome} {key : AppKey} (sound : w.Sound devices)
    (made : calls node (.commit handler outcome key mutation.incarnation mutation.rekeyed))
    (ran : w.mutate devices node mutation (.commit handler outcome key mutation.incarnation
      mutation.rekeyed) = (.ok (), next)) :
    Beside devices calls w next ∧ Enrolled next node outcome key := by
  obtain ⟨beside, saves⟩ := mutate_spec sound made ran
  obtain ⟨contents, candidate, listed, operated, kin⟩ := saves rfl
  obtain ⟨reply, committed⟩ := Except.map_snd_ok.mp operated
  obtain ⟨_, _, _, rfl⟩ := commitSecurePairing_ok committed
  refine ⟨beside, contents, {
    outcome
    generation := handler.generation }, listed, ?_, rfl, ?_, ?_⟩
  · rw [kin]
    exact (BTreeMap.get_insert ..).trans (if_pos rfl)
  · rw [kin]
    rfl
  · rw [kin]
    exact Std.ExtTreeMap.mem_insert_self

inductive Moved (devices : Devices Proof) (w : Pairings Proof) :
    PairingEvent Proof → Pairings Proof → Prop where
  | beside {event : PairingEvent Proof} {next : Pairings Proof}
      (beside : Beside devices (fun _ call => call.writes = none) w next) :
      Moved devices w event next
  | linked {run : Nat} {node : String} {invitation : SessionInvitation} {repair : Bool}
      {fingerprint : String} {pake : Bytes} {time : Nat} {link : Link}
      (fresh : w.links run = none)
      (begun : connect devices (w.envelope node) node invitation repair fingerprint pake time =
        .ok link) :
      Moved devices w (.connect run node invitation repair fingerprint pake time)
        (w.setLink run link)
  | challenged {run : Nat} {challenge : PairChallenge} {link : Link} {keys : Confirmations}
      (found : w.links run = some link) (stage : link.stage = .greeted)
      (keyed : link.challenged devices challenge = .ok keys) :
      Moved devices w (.challenge run challenge)
        ((w.setLink run { link with stage := .confirmed keys }).send (keys.mac .client []))
  | prepared {run : Nat} {time : Nat} {mutation : Mutation} {link : Link} {keys : Confirmations}
      {next : Pairings Proof} (found : w.links run = some link)
      (stage : link.stage = .confirmed keys)
      (beside : Beside devices ({ link with stage := .readied keys } : Link).Makes w next)
      (saved : Prepared next link.node (link.outcome keys)) :
      Moved devices w (.ready run (keys.mac .ready []) time mutation)
        ((next.setLink run { link with stage := .prepared keys }).send (keys.mac .prepared []))
  | committed {run : Nat} {time : Nat} {mutation : Mutation} {link : Link} {keys : Confirmations}
      {key : AppKey} {next : Pairings Proof} (found : w.links run = some link)
      (stage : link.stage = .prepared keys) (beside : Beside devices link.Makes w next)
      (saved : Enrolled next link.node (link.outcome keys) key) :
      Moved devices w (.accepted run key.bytes (keys.mac .accepted key.bytes) time mutation)
        ((next.setLink run { link with stage := .committed keys key }).send
          (keys.mac .commit key.bytes))
  | unprepared {run : Nat} {time : Nat} {mutation : Mutation} {link : Link} {keys : Confirmations}
      {next : Pairings Proof} (found : w.links run = some link)
      (stage : link.stage = .confirmed keys)
      (beside : Beside devices ({ link with stage := .readied keys } : Link).Makes w next) :
      Moved devices w (.ready run (keys.mac .ready []) time mutation)
        (next.endLink run { link with stage := .readied keys })
  | endedLink {event : PairingEvent Proof} {run : Nat} {link : Link} {next : Pairings Proof}
      (found : w.links run = some link) (beside : Beside devices link.Makes w next) :
      Moved devices w event (next.endLink run link)
  | begun {run : Nat} {node : String} {hello : PairHello} {fingerprint : String} {pake : Bytes}
      {time generation : Nat} {invitation : PairingInvitation} {manager : PairingManager}
      {accept : Accept} (fresh : w.accepts run = none)
      (admitted : admitAccept devices (w.envelope node) node hello fingerprint = .ok ())
      (claimed : (w.managers node).claim time hello.invitationId = .ok (invitation, manager))
      (made : acceptSecure devices (w.envelope node) node (listenerHandler generation) hello
        fingerprint invitation pake = .ok accept) :
      Moved devices w (.accept run node hello fingerprint pake time)
        (((w.setManager node manager).setAccept run accept).send (accept.keys.mac .server []))
  | readied {run : Nat} {time : Nat} {accept : Accept} (found : w.accepts run = some accept)
      (stage : accept.stage = .challenged) :
      Moved devices w (.confirm run (accept.keys.mac .client []) time)
        ((w.setAccept run { accept with stage := .readied }).send (accept.keys.mac .ready []))
  | proven {run : Nat} {accept : Accept} (found : w.accepts run = some accept)
      (stage : accept.stage = .readied) :
      Moved devices w (.prove run (accept.keys.mac .prepared []))
        (w.setAccept run { accept with stage := .proven })
  | keyed {run : Nat} {accept : Accept} {key : AppKey} (found : w.accepts run = some accept)
      (stage : accept.stage = .proven) :
      Moved devices w (.key run) (w.setAccept run { accept with stage := .keyed key })
  | enrolled {run : Nat} {time : Nat} {mutation : Mutation} {accept : Accept} {key : AppKey}
      {next : Pairings Proof} (found : w.accepts run = some accept)
      (stage : accept.stage = .keyed key) (beside : Beside devices accept.Makes w next)
      (saved : Enrolled next accept.node accept.outcome key) :
      Moved devices w (.enroll run time mutation)
        ((next.setAccept run { accept with stage := .accepted key }).send
          (accept.keys.mac .accepted key.bytes))
  | endedAccept {event : PairingEvent Proof} {run : Nat} {accept : Accept} {completed : Bool}
      {next : Pairings Proof} (found : w.accepts run = some accept)
      (beside : Beside devices accept.Makes w next)
      (valid : completed = true → accept.completed = true ∨ ∃ key,
        accept.stage = .accepted key ∧ accept.keys.mac .commit key.bytes ∈ event.tags) :
      Moved devices w event (next.endAccept run { accept with completed })
  | recovers {run : Nat} {node : String} {preparation : Preparation} {recovery : Recovery}
      (fresh : w.recoveries run = none)
      (listed : preparation ∈ BTreeMap.valueList (w.envelope node).preparations)
      (begun : recoverSecureLink devices (w.envelope node) node preparation = .ok recovery) :
      Moved devices w (.recover run node preparation) (w.setRecovery run recovery)
  | found {run connection : Nat} {node id : String} {peer : Identity} {fingerprint : String}
      {generation : Nat} {answer : Answer} (fresh : w.answers run = none)
      (accepted : acceptRecovery devices (w.envelope node) connection node
        (listenerHandler generation) id peer fingerprint = .ok answer) :
      Moved devices w (.lookup run connection node id peer fingerprint)
        { w.setAnswer run answer with seen := (node, w.envelope node) :: w.seen }
  | refused {run : Nat} {answer : Answer} (found : w.answers run = some answer) :
      Moved devices w (.answer run) (w.setAnswer run { answer with closed := true })
  | answered {run : Nat} {answer : Answer} {key : AppKey} (found : w.answers run = some answer)
      (read : AppKey.fromSlice (w.envelope answer.node).groupKey = .ok key) :
      Moved devices w (.answer run) { w.setAnswer run { answer with closed := true } with
        relayed := {
          connection := answer.connection
          server := devices.fingerprint answer.node
          client := answer.fingerprint
          message := {
            identity := (w.envelope answer.node).identity
            metadata := (devices.member answer.node).inner.config.metadata
            appKey := key.bytes } } :: w.relayed
        seen := (answer.node, w.envelope answer.node) :: w.seen }
  | gaveUp {event : PairingEvent Proof} {run : Nat} {recovery : Recovery} {next : Pairings Proof}
      (found : w.recoveries run = some recovery) (beside : Beside devices recovery.Makes w next) :
      Moved devices w event (next.setRecovery run { recovery with closed := true })
  | recovered {run : Nat} {message : PairRecovered} {mutation : Mutation} {recovery : Recovery}
      {key : AppKey} {next : Pairings Proof} (found : w.recoveries run = some recovery)
      (read : recovery.recovered devices message = .ok key)
      (beside : Beside devices recovery.Makes w next)
      (saved : Enrolled next recovery.node
        { recovery.previous with metadata := message.metadata } key) :
      Moved devices w (.recovered run message mutation)
        (next.setRecovery run { recovery with committed := some key, closed := true })

omit [DecidableEq Proof] [ReceiptMac Proof] in
theorem onLink_some {run : Nat} {act : Link → Option (Pairings Proof)}
    (ran : w.onLink run act = some after) :
    ∃ link, w.links run = some link ∧ act link = some after := by
  obtain ⟨link, found, acted⟩ := Option.bind_eq_some_iff.mp ran
  split at acted
  · simp at acted
  · exact ⟨link, found, acted⟩

omit [DecidableEq Proof] [ReceiptMac Proof] in
theorem onAccept_some {run : Nat} {act : Accept → Option (Pairings Proof)}
    (ran : w.onAccept run act = some after) :
    ∃ accept, w.accepts run = some accept ∧ act accept = some after := by
  obtain ⟨accept, found, acted⟩ := Option.bind_eq_some_iff.mp ran
  split at acted
  · simp at acted
  · exact ⟨accept, found, acted⟩

omit [ReceiptMac Proof] in
theorem toOption_map_some {α β : Type} {result : Except Error α} {f : α → β} {value : β}
    (ran : result.toOption.map f = some value) : ∃ read, result = .ok read ∧ f read = value := by
  cases result with
  | error error => simp [Except.toOption] at ran
  | ok read => exact ⟨read, rfl, Option.some.inj ran⟩

theorem readyLink_moved {run : Nat} {tag : Confirmation} {time : Nat} {mutation : Mutation}
    {link : Link} (sound : w.Sound devices) (found : w.links run = some link)
    (ran : w.readyLink devices run tag time mutation link = some after) :
    Moved devices w (.ready run tag time mutation) after := by
  simp only [readyLink] at ran
  split at ran
  · rename_i keys stage
    split at ran
    · obtain rfl := Option.some.inj ran
      exact .endedLink found (.refl w)
    · rename_i verified
      obtain rfl := Confirmations.verify_ok verified
      obtain rfl := Option.some.inj ran
      have made : ({ link with stage := .readied keys } : Link).Makes link.node
          (.prepare link.handler (link.outcome keys) : Call Proof) := by
        rintro _ ⟨⟩
        exact ⟨rfl, keys, rfl, rfl⟩
      simp only [prepareLink]
      split
      · rename_i mutated
        exact .unprepared found stage (mutate_spec sound made mutated).1
      · rename_i mutated
        obtain ⟨beside, saved⟩ := mutate_prepared sound made mutated
        split
        · exact .unprepared found stage beside
        · exact .prepared found stage beside saved
  · simp at ran

theorem acceptedLink_moved {run : Nat} {appKey : Bytes} {tag : Confirmation} {time : Nat}
    {mutation : Mutation} {link : Link} (sound : w.Sound devices)
    (found : w.links run = some link)
    (ran : w.acceptedLink devices run appKey tag time mutation link = some after) :
    Moved devices w (.accepted run appKey tag time mutation) after := by
  simp only [acceptedLink] at ran
  split at ran
  · rename_i keys stage
    split at ran
    · rename_i key verified read
      obtain rfl := Confirmations.verify_ok verified
      obtain rfl := AppKey.fromSlice_ok read
      split at ran
      · obtain rfl := Option.some.inj ran
        exact .endedLink found (.refl w)
      · obtain rfl := Option.some.inj ran
        have made : link.Makes link.node (.commit link.handler (link.outcome keys) key
            mutation.incarnation mutation.rekeyed : Call Proof) := by
          rintro _ ⟨⟩
          exact ⟨rfl, keys, by rw [stage]; rfl, rfl⟩
        simp only [commitLink]
        split
        · rename_i mutated
          exact .endedLink found (mutate_spec sound made mutated).1
        · rename_i mutated
          obtain ⟨beside, saved⟩ := mutate_enrolled sound made mutated
          exact .committed found stage beside saved
    · obtain rfl := Option.some.inj ran
      exact .endedLink found (.refl w)
  · simp at ran

theorem keyedAccept_moved {run : Nat} {time : Nat} {mutation : Mutation} {accept : Accept}
    (sound : w.Sound devices) (found : w.accepts run = some accept)
    (ran : w.keyedAccept devices run time mutation accept = some after) :
    Moved devices w (.enroll run time mutation) after := by
  simp only [keyedAccept] at ran
  split at ran
  · rename_i key stage
    obtain rfl := Option.some.inj ran
    simp only [enrollAccept]
    generalize mutated : w.mutate devices accept.node mutation (.commit accept.handler
      accept.outcome key mutation.incarnation mutation.rekeyed) = outcome
    obtain ⟨result, next⟩ := outcome
    have made : accept.Makes accept.node (.commit accept.handler accept.outcome key
        mutation.incarnation mutation.rekeyed : Call Proof) := by
      rintro _ ⟨⟩
      exact ⟨rfl, by rw [stage]; rfl, rfl⟩
    simp only
    split
    · split
      · exact .endedAccept found (mutate_spec sound made mutated).1 Or.inl
      · exact .endedAccept found (.refl w) Or.inl
    · rename_i manager committed
      have succeeded : result = .ok () := by
        simp only [PairingManager.commit] at committed
        split at committed
        · simp at committed
        · split at committed
          · simp at committed
          · split at committed
            · simp at committed
            · rfl
      subst succeeded
      obtain ⟨beside, saved⟩ := mutate_enrolled sound made mutated
      exact .enrolled found stage (beside.setManager _ _) saved
  · simp at ran

theorem finishRecovery_moved {run : Nat} {message : PairRecovered} {mutation : Mutation}
    {recovery : Recovery} (sound : w.Sound devices) (found : w.recoveries run = some recovery)
    (ran : w.finishRecovery devices run message mutation recovery = some after) :
    Moved devices w (.recovered run message mutation) after := by
  simp only [finishRecovery] at ran
  split at ran
  · simp at ran
  · split at ran
    · obtain rfl := Option.some.inj ran
      exact .gaveUp found (.refl w)
    · rename_i key read
      obtain rfl := Option.some.inj ran
      have made : recovery.Makes recovery.node (.commit recovery.handler
          { recovery.previous with metadata := message.metadata } key mutation.incarnation
          mutation.rekeyed : Call Proof) := by
        rintro _ ⟨⟩
        exact ⟨rfl, message.metadata, rfl⟩
      simp only [commitRecovery]
      split
      · rename_i mutated
        exact .gaveUp found (mutate_spec sound made mutated).1
      · rename_i mutated
        obtain ⟨beside, saved⟩ := mutate_enrolled sound made mutated
        exact .recovered found read beside saved

theorem challengeLink_moved {run : Nat} {challenge : PairChallenge} {link : Link}
    (found : w.links run = some link)
    (ran : w.challengeLink devices run challenge link = some after) :
    Moved devices w (.challenge run challenge) after := by
  simp only [challengeLink] at ran
  split at ran
  · simp at ran
  · rename_i stage
    split at ran
    · obtain rfl := Option.some.inj ran
      exact .endedLink found (.refl w)
    · rename_i keys keyed
      obtain rfl := Option.some.inj ran
      exact .challenged found (not_not.mp stage) keyed

theorem completeLink_moved {run : Nat} {mutation : Mutation} {link : Link}
    (sound : w.Sound devices) (found : w.links run = some link)
    (ran : w.completeLink devices run mutation link = some after) :
    Moved devices w (.complete run mutation) after := by
  simp only [completeLink] at ran
  split at ran
  · rename_i keys key _
    generalize mutated : w.mutate devices link.node mutation (.settle link.handler
      keys.transcript.serverIdentity.deviceId link.handler.addresses) = outcome at ran
    obtain ⟨result, next⟩ := outcome
    obtain rfl := Option.some.inj ran
    refine .endedLink found (mutate_spec sound ?_ mutated).1
    simp [Link.Makes, Call.writes]
  · simp at ran

theorem confirmAccept_moved {run : Nat} {tag : Confirmation} {time : Nat} {accept : Accept}
    (found : w.accepts run = some accept)
    (ran : w.confirmAccept run tag time accept = some after) :
    Moved devices w (.confirm run tag time) after := by
  simp only [confirmAccept] at ran
  split at ran
  · simp at ran
  · rename_i stage
    split at ran
    · obtain rfl := Option.some.inj ran
      exact .endedAccept found (.refl w) Or.inl
    · rename_i verified
      obtain rfl := Confirmations.verify_ok verified
      split at ran
      · obtain rfl := Option.some.inj ran
        exact .endedAccept found (.refl w) Or.inl
      · obtain rfl := Option.some.inj ran
        exact .readied found (not_not.mp stage)

theorem proveAccept_moved {run : Nat} {tag : Confirmation} {accept : Accept}
    (found : w.accepts run = some accept) (ran : w.proveAccept run tag accept = some after) :
    Moved devices w (.prove run tag) after := by
  simp only [proveAccept] at ran
  split at ran
  · simp at ran
  · rename_i stage
    split at ran
    · obtain rfl := Option.some.inj ran
      exact .endedAccept found (.refl w) Or.inl
    · rename_i verified
      obtain rfl := Confirmations.verify_ok verified
      obtain rfl := Option.some.inj ran
      exact .proven found (not_not.mp stage)

theorem keyAccept_moved {run : Nat} {accept : Accept} (found : w.accepts run = some accept)
    (ran : w.keyAccept run accept = some after) : Moved devices w (.key run) after := by
  simp only [keyAccept] at ran
  split at ran
  · simp at ran
  · rename_i stage
    split at ran
    · obtain rfl := Option.some.inj ran
      exact .endedAccept found (.refl w) Or.inl
    · obtain rfl := Option.some.inj ran
      exact .keyed found (not_not.mp stage)

theorem committedAccept_moved {run : Nat} {tag : Confirmation} {time : Nat} {accept : Accept}
    (found : w.accepts run = some accept)
    (ran : w.committedAccept run tag time accept = some after) :
    Moved devices w (.commit run tag time) after := by
  simp only [committedAccept] at ran
  split at ran
  · rename_i key stage
    obtain rfl := Option.some.inj ran
    refine .endedAccept found (.refl w) fun valid => Or.inr ⟨key, stage, ?_⟩
    obtain rfl := Confirmations.verify_ok (of_decide_eq_true valid).1
    exact List.mem_cons_self
  · simp at ran

theorem writeAnswer_moved {run : Nat} {answer : Answer} (found : w.answers run = some answer)
    (ran : w.writeAnswer devices run answer = some after) :
    Moved devices w (.answer run) after := by
  simp only [writeAnswer] at ran
  split at ran
  · simp at ran
  · split at ran
    · obtain rfl := Option.some.inj ran
      exact .refused found
    · rename_i key read
      obtain rfl := Option.some.inj ran
      exact .answered found read

theorem beginAccept_moved {run : Nat} {node : String} {hello : PairHello} {fingerprint : String}
    {pake : Bytes} {time : Nat} (fresh : w.accepts run = none)
    (ran : w.beginAccept devices run node hello fingerprint pake time = some after) :
    Moved devices w (.accept run node hello fingerprint pake time) after := by
  simp only [beginAccept] at ran
  split at ran
  · rename_i generation invitation manager _ admitted claimed
    split at ran
    · obtain rfl := Option.some.inj ran
      exact .beside ((Beside.refl w).setManager _ _)
    · rename_i accept made
      obtain rfl := Option.some.inj ran
      exact .begun fresh admitted claimed made
  · simp at ran

theorem beginAnswer_moved {run connection : Nat} {node id : String} {peer : Identity}
    {fingerprint : String} (fresh : w.answers run = none)
    (ran : w.beginAnswer devices run connection node id peer fingerprint = some after) :
    Moved devices w (.lookup run connection node id peer fingerprint) after := by
  simp only [beginAnswer] at ran
  split at ran
  · simp at ran
  · obtain ⟨answer, accepted, rfl⟩ := toOption_map_some ran
    exact .found fresh accepted

theorem step_moved {event : PairingEvent Proof} (sound : w.Sound devices)
    (stepped : step devices w event = some after) : Moved devices w event after := by
  cases event with
  | session node event =>
      simp only [step] at stepped
      split at stepped
      · simp at stepped
      · rename_i apart
        obtain ⟨session, moved, rfl⟩ := Option.map_eq_some_iff.mp stepped
        refine .beside (.setNode moved ?_ rfl (List.Subset.refl _))
        rintro change transaction saves call rfl
        cases call with
        | prepare | commit => exact absurd rfl apart
        | _ => rfl
  | invite node issued time id secret ttl =>
      obtain rfl := Option.some.inj stepped
      exact .beside ((Beside.refl w).setManager _ _)
  | revoke node id =>
      obtain rfl := Option.some.inj stepped
      exact .beside ((Beside.refl w).setManager _ _)
  | close node =>
      obtain rfl := Option.some.inj stepped
      exact .beside ((Beside.refl w).setManager _ _)
  | connect run node invitation repair fingerprint pake time =>
      simp only [step] at stepped
      split at stepped
      · simp at stepped
      · rename_i fresh
        obtain ⟨link, begun, rfl⟩ := toOption_map_some stepped
        exact .linked (by simpa using fresh) begun
  | challenge run challenge =>
      obtain ⟨link, found, ran⟩ := onLink_some stepped
      exact challengeLink_moved found ran
  | ready run tag time mutation =>
      obtain ⟨link, found, ran⟩ := onLink_some stepped
      exact readyLink_moved sound found ran
  | accepted run appKey tag time mutation =>
      obtain ⟨link, found, ran⟩ := onLink_some stepped
      exact acceptedLink_moved sound found ran
  | complete run mutation =>
      obtain ⟨link, found, ran⟩ := onLink_some stepped
      exact completeLink_moved sound found ran
  | dropLink run =>
      obtain ⟨link, found, ran⟩ := onLink_some stepped
      obtain rfl := Option.some.inj ran
      exact .endedLink found (.refl w)
  | accept run node hello fingerprint pake time =>
      simp only [step] at stepped
      split at stepped
      · simp at stepped
      · rename_i fresh
        exact beginAccept_moved (by simpa using fresh) stepped
  | confirm run tag time =>
      obtain ⟨accept, found, ran⟩ := onAccept_some stepped
      exact confirmAccept_moved found ran
  | prove run tag =>
      obtain ⟨accept, found, ran⟩ := onAccept_some stepped
      exact proveAccept_moved found ran
  | key run =>
      obtain ⟨accept, found, ran⟩ := onAccept_some stepped
      exact keyAccept_moved found ran
  | enroll run time mutation =>
      obtain ⟨accept, found, ran⟩ := onAccept_some stepped
      exact keyedAccept_moved sound found ran
  | commit run tag time =>
      obtain ⟨accept, found, ran⟩ := onAccept_some stepped
      exact committedAccept_moved found ran
  | dropAccept run =>
      obtain ⟨accept, found, ran⟩ := onAccept_some stepped
      obtain rfl := Option.some.inj ran
      exact .endedAccept found (.refl w) Or.inl
  | recover run node preparation =>
      simp only [step] at stepped
      split at stepped
      · simp at stepped
      · rename_i ready
        obtain ⟨recovery, begun, rfl⟩ := toOption_map_some stepped
        exact .recovers (by simpa using (not_or.mp ready).1) (not_not.mp (not_or.mp ready).2) begun
  | lookup run connection node id peer fingerprint =>
      simp only [step] at stepped
      split at stepped
      · simp at stepped
      · rename_i fresh
        exact beginAnswer_moved (by simpa using fresh) stepped
  | answer run =>
      obtain ⟨answer, found, ran⟩ := Option.bind_eq_some_iff.mp stepped
      exact writeAnswer_moved found ran
  | recovered run message mutation =>
      obtain ⟨recovery, found, ran⟩ := Option.bind_eq_some_iff.mp stepped
      exact finishRecovery_moved sound found ran

end Moves

section Growth

variable {Proof : Type} [DecidableEq Proof] [ReceiptMac Proof] {devices : Devices Proof}
  {w next after : Pairings Proof} {calls : String → Call Proof → Prop}

/-- Runs go on, and nothing that was written or saved is forgotten. -/
structure Grown (w after : Pairings Proof) : Prop where
  links : ∀ (run : Nat) (link : Link), w.links run = some link →
    ∃ later, after.links run = some later ∧ link.Extends later
  accepts : ∀ (run : Nat) (accept : Accept), w.accepts run = some accept →
    ∃ later, after.accepts run = some later ∧ accept.Extends later
  sent : w.sent ⊆ after.sent
  saved : w.saved ⊆ after.saved

theorem Beside.grown (beside : Beside devices calls w next) : Grown w next where
  links run link found := ⟨link, beside.links ▸ found, .refl link⟩
  accepts run accept found := ⟨accept, beside.accepts ▸ found, .refl accept⟩
  sent := by rw [beside.sent]; exact List.Subset.refl _
  saved := beside.saved

omit [DecidableEq Proof] [ReceiptMac Proof] in
theorem Grown.send (grown : Grown w next) (tag : Confirmation) : Grown w (next.send tag) :=
  { grown with sent := fun _ member => List.mem_cons_of_mem _ (grown.sent member) }

omit [DecidableEq Proof] [ReceiptMac Proof] in
theorem Grown.setLink (grown : Grown w next) {run : Nat} {link : Link}
    (extends_ : ∀ before, w.links run = some before → before.Extends link) :
    Grown w (next.setLink run link) where
  links query before found := by
    by_cases here : query = run
    · subst here
      exact ⟨link, by simp [Pairings.setLink], extends_ before found⟩
    · obtain ⟨later, kept, extended⟩ := grown.links query before found
      exact ⟨later, by simpa [Pairings.setLink, here] using kept, extended⟩
  accepts := grown.accepts
  sent := grown.sent
  saved := grown.saved

omit [DecidableEq Proof] [ReceiptMac Proof] in
theorem Grown.setAccept (grown : Grown w next) {run : Nat} {accept : Accept}
    (extends_ : ∀ before, w.accepts run = some before → before.Extends accept) :
    Grown w (next.setAccept run accept) where
  links := grown.links
  accepts query before found := by
    by_cases here : query = run
    · subst here
      exact ⟨accept, by simp [Pairings.setAccept], extends_ before found⟩
    · obtain ⟨later, kept, extended⟩ := grown.accepts query before found
      exact ⟨later, by simpa [Pairings.setAccept, here] using kept, extended⟩
  sent := grown.sent
  saved := grown.saved

omit [DecidableEq Proof] [ReceiptMac Proof] in
theorem Grown.extendLink (grown : Grown w next) {run : Nat} {before link : Link}
    (found : w.links run = some before) (extended : before.Extends link) :
    Grown w (next.setLink run link) := by
  refine grown.setLink fun other same => ?_
  rw [found] at same
  exact Option.some.inj same ▸ extended

omit [DecidableEq Proof] [ReceiptMac Proof] in
theorem Grown.extendAccept (grown : Grown w next) {run : Nat} {before accept : Accept}
    (found : w.accepts run = some before) (extended : before.Extends accept) :
    Grown w (next.setAccept run accept) := by
  refine grown.setAccept fun other same => ?_
  rw [found] at same
  exact Option.some.inj same ▸ extended

theorem Moved.grown {event : PairingEvent Proof} (moved : Moved devices w event after) :
    Grown w after := by
  have here : Beside devices (fun _ _ => True) w w := .refl w
  have still := here.grown
  cases moved with
  | beside beside => exact beside.grown
  | linked fresh =>
      exact still.setLink fun before found => absurd (fresh.symm.trans found) (by simp)
  | challenged found stage =>
      apply Grown.send
      refine still.extendLink found ⟨rfl, rfl, rfl, ?_, ?_, ?_⟩
      · simp [stage, LinkStage.answered]
      · simp [stage, LinkStage.proof]
      · simp [stage, LinkStage.taken]
  | prepared found stage beside =>
      apply Grown.send
      refine beside.grown.extendLink found ⟨rfl, rfl, rfl, ?_, ?_, ?_⟩
      · simp [stage, LinkStage.answered]
      · simp [stage, LinkStage.proof]
      · simp [stage, LinkStage.taken]
  | committed found stage beside =>
      apply Grown.send
      refine beside.grown.extendLink found ⟨rfl, rfl, rfl, ?_, ?_, ?_⟩
      · simp [stage, LinkStage.answered]
      · simp [stage, LinkStage.proof]
      · simp [stage, LinkStage.taken]
  | @unprepared run time mutation link keys next found stage beside =>
      have extended :
          Grown w (next.setLink run { link with stage := .readied keys, closed := true }) := by
        refine beside.grown.extendLink found ⟨rfl, rfl, rfl, ?_, ?_, ?_⟩
        · simp [stage, LinkStage.answered]
        · simp [stage, LinkStage.proof]
        · simp [stage, LinkStage.taken]
      exact extended
  | endedLink found beside =>
      exact beside.grown.extendLink found ⟨rfl, rfl, rfl, fun _ => id, fun _ => id, fun _ => id⟩
  | begun fresh =>
      apply Grown.send
      refine Grown.setAccept ?_ fun before found => absurd (fresh.symm.trans found) (by simp)
      exact (here.setManager _ _).grown
  | readied found stage =>
      apply Grown.send
      refine still.extendAccept found ⟨rfl, rfl, rfl, rfl, rfl, fun _ => rfl, ?_, ?_⟩
      · simp [stage, AcceptStage.proved]
      · simp [stage, AcceptStage.released]
  | proven found stage =>
      refine still.extendAccept found ⟨rfl, rfl, rfl, rfl, rfl, fun _ => rfl, fun _ => rfl, ?_⟩
      simp [stage, AcceptStage.released]
  | keyed found stage =>
      refine still.extendAccept found ⟨rfl, rfl, rfl, rfl, rfl, fun _ => rfl, fun _ => rfl, ?_⟩
      simp [stage, AcceptStage.released]
  | enrolled found stage beside =>
      apply Grown.send
      refine beside.grown.extendAccept found
        ⟨rfl, rfl, rfl, rfl, rfl, fun _ => rfl, fun _ => rfl, ?_⟩
      simp [stage, AcceptStage.released]
  | @endedAccept _ run accept completed next found beside =>
      have extended : Grown w (next.setAccept run { accept with completed, closed := true }) :=
        beside.grown.extendAccept found ⟨rfl, rfl, rfl, rfl, rfl, id, id, fun _ => id⟩
      exact ⟨extended.links, extended.accepts, extended.sent, extended.saved⟩
  | recovers => exact { still with }
  | found => exact { still with }
  | refused => exact { still with }
  | answered => exact { still with }
  | gaveUp found beside => exact { beside.grown with }
  | recovered found read beside => exact { beside.grown with }

end Growth

section Honesty

variable {Proof : Type} (devices : Devices Proof)

/-- What a joiner's run says is true of its node, and it saved what it says it saved. -/
structure TrueLink (w : Pairings Proof) (link : Link) : Prop where
  identity : link.hello.identity = (devices.member link.node).identity
  metadata : link.hello.metadata = (devices.member link.node).inner.config.metadata
  certificate : link.hello.clientFingerprint = devices.fingerprint link.node
  pinned : link.hello.serverFingerprint = link.invitation.inviterFingerprint
  invited : link.hello.invitationId = link.invitation.invitationId
  keys : ∀ keys, link.stage.keys = some keys → keys.shared.secret = link.invitation.secret ∧
    keys.shared.invitationId = link.invitation.invitationId ∧ keys.transcript.hello = link.hello
  proof : ∀ keys, link.stage.proof = some keys → Prepared w link.node (link.outcome keys)
  taken : ∀ keys key, link.stage.taken = some (keys, key) →
    Enrolled w link.node (link.outcome keys) key

structure TrueAccept (w : Pairings Proof) (accept : Accept) : Prop where
  hello : accept.keys.transcript.hello = accept.hello
  identity : accept.keys.transcript.serverIdentity = (devices.member accept.node).identity
  metadata : accept.keys.transcript.serverMetadata =
    (devices.member accept.node).inner.config.metadata
  certificate : accept.hello.serverFingerprint = devices.fingerprint accept.node
  peer : accept.hello.clientFingerprint = accept.fingerprint
  secret : accept.keys.shared.secret = accept.invitation.secret
  named : accept.keys.shared.invitationId = accept.invitation.invitationId
  released : ∀ key, accept.stage.released = some key →
    Enrolled w accept.node accept.outcome key

/-- The run that wrote a MAC is where it wrote it, or further. -/
structure Origin (w : Pairings Proof) (tag : Confirmation) : Prop where
  ready : tag.label = .ready → ∃ run accept, w.accepts run = some accept ∧
    accept.stage.ready = true ∧ tag = accept.keys.mac .ready []
  prepared : tag.label = .prepared → ∃ run link keys, w.links run = some link ∧
    link.stage.proof = some keys ∧ tag = keys.mac .prepared []
  accepted : tag.label = .accepted → ∃ run accept key, w.accepts run = some accept ∧
    accept.stage.released = some key ∧ tag = accept.keys.mac .accepted key.bytes
  commit : tag.label = .commit → ∃ run link keys key, w.links run = some link ∧
    link.stage.taken = some (keys, key) ∧ tag = keys.mac .commit key.bytes

structure Honest (w : Pairings Proof) : Prop where
  sound : w.Sound devices
  links : ∀ (run : Nat) (link : Link), w.links run = some link → TrueLink devices w link
  accepts : ∀ (run : Nat) (accept : Accept), w.accepts run = some accept →
    TrueAccept devices w accept
  sent : ∀ tag ∈ w.sent, Origin w tag

variable {devices} {w next after : Pairings Proof}

theorem TrueLink.mono {link : Link} (true_ : TrueLink devices w link)
    (saved : w.saved ⊆ after.saved) : TrueLink devices after link :=
  { true_ with
    proof := fun keys proven => (true_.proof keys proven).mono saved
    taken := fun keys key taken => (true_.taken keys key taken).mono saved }

theorem TrueAccept.mono {accept : Accept} (true_ : TrueAccept devices w accept)
    (saved : w.saved ⊆ after.saved) : TrueAccept devices after accept :=
  { true_ with released := fun key released => (true_.released key released).mono saved }

theorem Origin.mono {tag : Confirmation} (origin : Origin w tag) (grown : Grown w after) :
    Origin after tag where
  ready labelled := by
    obtain ⟨run, accept, found, ready, same⟩ := origin.ready labelled
    obtain ⟨later, kept, extended⟩ := grown.accepts run accept found
    exact ⟨run, later, kept, extended.ready ready, extended.keys ▸ same⟩
  prepared labelled := by
    obtain ⟨run, link, keys, found, proof, same⟩ := origin.prepared labelled
    obtain ⟨later, kept, extended⟩ := grown.links run link found
    exact ⟨run, later, keys, kept, extended.proof keys proof, same⟩
  accepted labelled := by
    obtain ⟨run, accept, key, found, released, same⟩ := origin.accepted labelled
    obtain ⟨later, kept, extended⟩ := grown.accepts run accept found
    exact ⟨run, later, key, kept, extended.released key released, extended.keys ▸ same⟩
  commit labelled := by
    obtain ⟨run, link, keys, key, found, taken, same⟩ := origin.commit labelled
    obtain ⟨later, kept, extended⟩ := grown.links run link found
    exact ⟨run, later, keys, key, kept, extended.taken _ taken, same⟩

theorem setLink_all {motive : Link → Prop} {run : Nat} {link : Link}
    (others : ∀ query found, w.links query = some found → motive found) (new : motive link)
    {query : Nat} {found : Link} (listed : (w.setLink run link).links query = some found) :
    motive found := by
  by_cases here : query = run
  · subst here
    obtain rfl : link = found := by simpa [setLink] using listed
    exact new
  · exact others query found (by simpa [setLink, here] using listed)

theorem setAccept_all {motive : Accept → Prop} {run : Nat} {accept : Accept}
    (others : ∀ query found, w.accepts query = some found → motive found) (new : motive accept)
    {query : Nat} {found : Accept}
    (listed : (w.setAccept run accept).accepts query = some found) : motive found := by
  by_cases here : query = run
  · subst here
    obtain rfl : accept = found := by simpa [setAccept] using listed
    exact new
  · exact others query found (by simpa [setAccept, here] using listed)

theorem linkSecure_true {e : Contents Proof} {node : String} {handler : Handler}
    {invitation : PairingInvitation} {fingerprint : String} {pake : Bytes} {time : Nat}
    {link : Link} (same : e.identity = (devices.member node).identity)
    (begun : linkSecure devices e node handler invitation fingerprint pake time = .ok link) :
    TrueLink devices w link := by
  simp only [linkSecure] at begun
  split at begun
  · simp at begun
  · simp at begun
  · split at begun
    · simp [pairingFail] at begun
    · split at begun
      · simp [pairingFail] at begun
      · split at begun
        · simp at begun
        · rename_i pinned
          obtain rfl := Except.ok.inj begun
          exact {
            identity := same
            metadata := rfl
            certificate := rfl
            pinned := not_not.mp pinned
            invited := rfl
            keys := by simp [LinkStage.keys]
            proof := by simp [LinkStage.proof]
            taken := by simp [LinkStage.taken] }

theorem connect_true {e : Contents Proof} {node : String} {invitation : SessionInvitation}
    {repair : Bool} {fingerprint : String} {pake : Bytes} {time : Nat} {link : Link}
    (same : e.identity = (devices.member node).identity)
    (begun : connect devices e node invitation repair fingerprint pake time = .ok link) :
    TrueLink devices w link := by
  simp only [connect] at begun
  split at begun
  · simp at begun
  · split at begun
    · simp [failCode] at begun
    · split at begun
      · simp [fail] at begun
      · exact linkSecure_true same begun

theorem challenged_ok {link : Link} {challenge : PairChallenge} {keys : Confirmations}
    (keyed : link.challenged devices challenge = .ok keys) :
    keys.shared.secret = link.invitation.secret ∧
      keys.shared.invitationId = link.invitation.invitationId ∧
      keys.transcript.hello = link.hello := by
  simp only [Link.challenged] at keyed
  split at keyed
  · simp at keyed
  · split at keyed
    · simp [pairingFail] at keyed
    · split at keyed
      · simp [pairingFail] at keyed
      · obtain ⟨_, _, rfl⟩ := Except.map_ok keyed
        exact ⟨rfl, rfl, rfl⟩

theorem acceptSecure_true {e : Contents Proof} {node : String} {handler : Handler}
    {hello : PairHello} {fingerprint : String} {invitation : PairingInvitation} {pake : Bytes}
    {accept : Accept} (same : e.identity = (devices.member node).identity)
    (admitted : admitAccept devices e node hello fingerprint = .ok ())
    (made : acceptSecure devices e node handler hello fingerprint invitation pake = .ok accept) :
    TrueAccept devices w accept := by
  have certificates : hello.clientFingerprint = fingerprint ∧
      hello.serverFingerprint = devices.fingerprint node := by
    simp only [admitAccept] at admitted
    split at admitted
    · simp at admitted
    · split at admitted
      · simp [pairingFail] at admitted
      · rename_i valid
        simp only [not_or, not_not] at valid
        exact valid.2.2
  simp only [acceptSecure] at made
  split at made
  · simp [pairingFail] at made
  · obtain rfl := Except.ok.inj made
    exact {
      hello := rfl
      identity := same
      metadata := rfl
      certificate := certificates.2
      peer := certificates.1
      secret := rfl
      named := rfl
      released := by simp [AcceptStage.released] }

theorem TrueLink.setStage {link : Link} (old : TrueLink devices w link) {stage : LinkStage}
    (keys : ∀ keys, stage.keys = some keys → keys.shared.secret = link.invitation.secret ∧
      keys.shared.invitationId = link.invitation.invitationId ∧ keys.transcript.hello = link.hello)
    (proof : ∀ keys, stage.proof = some keys → Prepared w link.node (link.outcome keys))
    (taken : ∀ keys key, stage.taken = some (keys, key) →
      Enrolled w link.node (link.outcome keys) key) :
    TrueLink devices w { link with stage } :=
  ⟨old.identity, old.metadata, old.certificate, old.pinned, old.invited, keys, proof, taken⟩

theorem TrueAccept.setStage {accept : Accept} (old : TrueAccept devices w accept)
    {stage : AcceptStage} (released : ∀ key, stage.released = some key →
      Enrolled w accept.node accept.outcome key) : TrueAccept devices w { accept with stage } :=
  ⟨old.hello, old.identity, old.metadata, old.certificate, old.peer, old.secret, old.named,
    released⟩

theorem Origin.other {keys : Confirmations} {label : ConfirmationLabel} {extra : Bytes}
    (apart : label = .client ∨ label = .server) : Origin w (keys.mac label extra) := by
  rcases apart with rfl | rfl
  · exact ⟨by simp [Confirmations.mac], by simp [Confirmations.mac], by simp [Confirmations.mac],
      by simp [Confirmations.mac]⟩
  · exact ⟨by simp [Confirmations.mac], by simp [Confirmations.mac], by simp [Confirmations.mac],
      by simp [Confirmations.mac]⟩

theorem Honest.start [DecidableEq Proof] (devices : Devices Proof) :
    Honest devices (start devices) where
  sound id := .opened (.first _)
  links := by simp [Pairings.start]
  accepts := by simp [Pairings.start]
  sent := by simp [Pairings.start]

theorem Sound.identity (sound : w.Sound devices) (node : String) :
    (w.envelope node).identity = (devices.member node).identity :=
  (sound node).memory.identity

variable [DecidableEq Proof] [ReceiptMac Proof]

theorem Honest.step {event : PairingEvent Proof} (honest : Honest devices w)
    (stepped : step devices w event = some after) : Honest devices after := by
  have moved := step_moved honest.sound stepped
  have grown := moved.grown
  have sent : ∀ tag ∈ w.sent, Origin after tag := fun tag member =>
    (honest.sent tag member).mono grown
  have links : ∀ run link, w.links run = some link → TrueLink devices after link :=
    fun run link found => (honest.links run link found).mono grown.saved
  have accepts : ∀ run accept, w.accepts run = some accept → TrueAccept devices after accept :=
    fun run accept found => (honest.accepts run accept found).mono grown.saved
  cases moved with
  | beside beside =>
      exact ⟨beside.sound honest.sound, beside.links ▸ links, beside.accepts ▸ accepts,
        beside.sent ▸ sent⟩
  | linked fresh begun =>
      exact ⟨honest.sound, fun run link listed => setLink_all links
        (connect_true (honest.sound.identity _) begun) listed, accepts, sent⟩
  | challenged found stage keyed =>
      refine ⟨honest.sound, fun run link listed => setLink_all links ?_ listed, accepts,
        List.forall_mem_cons.mpr ⟨.other (Or.inl rfl), sent⟩⟩
      refine (links _ _ found).setStage ?_ (by simp [LinkStage.proof]) (by simp [LinkStage.taken])
      rintro _ ⟨⟩
      exact challenged_ok keyed
  | @prepared run time mutation link keys next found stage beside saved =>
      refine ⟨beside.sound honest.sound, fun run link listed => setLink_all (beside.links ▸ links)
        ?_ listed, beside.accepts ▸ accepts, List.forall_mem_cons.mpr ⟨?_, beside.sent ▸ sent⟩⟩
      · refine (links _ _ found).setStage ?_ ?_ (by simp [LinkStage.taken])
        · rintro _ ⟨⟩
          exact (links _ _ found).keys keys (by rw [stage]; rfl)
        · rintro _ ⟨⟩
          exact saved
      · have here := Function.update_self run (some { link with stage := .prepared keys }) next.links
        exact ⟨by simp [Confirmations.mac], fun _ => ⟨run, _, keys, here, rfl, rfl⟩,
          by simp [Confirmations.mac], by simp [Confirmations.mac]⟩
  | @committed run time mutation link keys key next found stage beside saved =>
      refine ⟨beside.sound honest.sound, fun run link listed => setLink_all (beside.links ▸ links)
        ?_ listed, beside.accepts ▸ accepts, List.forall_mem_cons.mpr ⟨?_, beside.sent ▸ sent⟩⟩
      · have old := links _ _ found
        refine old.setStage ?_ ?_ ?_
        · rintro _ ⟨⟩
          exact old.keys keys (by rw [stage]; rfl)
        · rintro _ ⟨⟩
          exact old.proof keys (by rw [stage]; rfl)
        · rintro _ _ ⟨⟩
          exact saved
      · have here := Function.update_self run (some { link with stage := .committed keys key })
          next.links
        exact ⟨by simp [Confirmations.mac], by simp [Confirmations.mac],
          by simp [Confirmations.mac], fun _ => ⟨run, _, keys, key, here, rfl, rfl⟩⟩
  | @unprepared run time mutation link keys next found stage beside =>
      have old := links _ _ found
      have readied : TrueLink devices (next.endLink run { link with stage := .readied keys })
          { link with stage := .readied keys } := by
        refine old.setStage ?_ (by simp [LinkStage.proof]) (by simp [LinkStage.taken])
        rintro _ ⟨⟩
        exact old.keys keys (by rw [stage]; rfl)
      exact ⟨beside.sound honest.sound, fun query later listed => setLink_all
        (beside.links ▸ links) { readied with } listed, beside.accepts ▸ accepts,
        beside.sent ▸ sent⟩
  | @endedLink _ run link next found beside =>
      have old := links _ _ found
      exact ⟨beside.sound honest.sound, fun run found listed => setLink_all (beside.links ▸ links)
        { old with } listed, beside.accepts ▸ accepts, beside.sent ▸ sent⟩
  | begun fresh admitted claimed made =>
      exact ⟨honest.sound, links, fun run accept listed => setAccept_all accepts
        (acceptSecure_true (honest.sound.identity _) admitted made) listed,
        List.forall_mem_cons.mpr ⟨.other (Or.inr rfl), sent⟩⟩
  | @readied run time accept found stage =>
      refine ⟨honest.sound, links, fun run accept listed => setAccept_all accepts
        ((accepts _ _ found).setStage (by simp [AcceptStage.released])) listed,
        List.forall_mem_cons.mpr ⟨?_, sent⟩⟩
      have here := Function.update_self run (some { accept with stage := .readied }) w.accepts
      exact ⟨fun _ => ⟨run, _, here, rfl, rfl⟩, by simp [Confirmations.mac],
        by simp [Confirmations.mac], by simp [Confirmations.mac]⟩
  | proven found stage =>
      exact ⟨honest.sound, links, fun run accept listed => setAccept_all accepts
        ((accepts _ _ found).setStage (by simp [AcceptStage.released])) listed, sent⟩
  | keyed found stage =>
      exact ⟨honest.sound, links, fun run accept listed => setAccept_all accepts
        ((accepts _ _ found).setStage (by simp [AcceptStage.released])) listed, sent⟩
  | @enrolled run time mutation accept key next found stage beside saved =>
      refine ⟨beside.sound honest.sound, beside.links ▸ links, fun run accept listed =>
        setAccept_all (beside.accepts ▸ accepts) ((accepts _ _ found).setStage ?_) listed,
        List.forall_mem_cons.mpr ⟨?_, beside.sent ▸ sent⟩⟩
      · rintro _ ⟨⟩
        exact saved
      · have here := Function.update_self run (some { accept with stage := .accepted key })
          next.accepts
        exact ⟨by simp [Confirmations.mac], by simp [Confirmations.mac],
          fun _ => ⟨run, _, key, here, rfl, rfl⟩, by simp [Confirmations.mac]⟩
  | @endedAccept _ run accept completed next found beside =>
      have old := accepts _ _ found
      have ended : TrueAccept devices (next.endAccept run { accept with completed })
          { accept with completed, closed := true } := { old with }
      exact ⟨beside.sound honest.sound, beside.links ▸ links, fun query found listed =>
        setAccept_all (beside.accepts ▸ accepts) ended listed, beside.sent ▸ sent⟩
  | recovers => exact ⟨honest.sound, links, accepts, sent⟩
  | found => exact ⟨honest.sound, links, accepts, sent⟩
  | refused => exact ⟨honest.sound, links, accepts, sent⟩
  | answered => exact ⟨honest.sound, links, accepts, sent⟩
  | gaveUp found beside =>
      exact ⟨beside.sound honest.sound, beside.links ▸ links, beside.accepts ▸ accepts,
        beside.sent ▸ sent⟩
  | recovered found read beside =>
      exact ⟨beside.sound honest.sound, beside.links ▸ links, beside.accepts ▸ accepts,
        beside.sent ▸ sent⟩

end Honesty

section Secrecy

variable {Proof : Type} {devices : Devices Proof} {w after : Pairings Proof} {secret id : String}

/-- Who lacks the secret of an invitation copies its MACs, and makes none. -/
def Unforged (secret id : String) (w : Pairings Proof) (event : PairingEvent Proof) : Prop :=
  ∀ tag ∈ event.tags, tag.keys.Under secret id → tag ∈ w.sent

/-- What a run under the secret went by, an honest run wrote. -/
structure MatchedLink (secret id : String) (w : Pairings Proof) (link : Link) : Prop where
  ready : ∀ keys, link.stage.answered = some keys → keys.Under secret id →
    keys.mac .ready [] ∈ w.sent
  accepted : ∀ keys key, link.stage.taken = some (keys, key) → keys.Under secret id →
    keys.mac .accepted key.bytes ∈ w.sent

structure MatchedAccept (secret id : String) (w : Pairings Proof) (accept : Accept) : Prop where
  prepared : accept.stage.proved = true → accept.keys.Under secret id →
    accept.keys.mac .prepared [] ∈ w.sent
  commit : accept.completed = true → accept.keys.Under secret id → ∃ key,
    accept.stage.released = some key ∧ accept.keys.mac .commit key.bytes ∈ w.sent

structure Matched (secret id : String) (w : Pairings Proof) : Prop where
  links : ∀ (run : Nat) (link : Link), w.links run = some link → MatchedLink secret id w link
  accepts : ∀ (run : Nat) (accept : Accept), w.accepts run = some accept →
    MatchedAccept secret id w accept

theorem Matched.start (devices : Devices Proof) : Matched secret id (start devices) where
  links := by simp [Pairings.start]
  accepts := by simp [Pairings.start]

theorem connect_greeted {e : Contents Proof} {node : String} {invitation : SessionInvitation}
    {repair : Bool} {fingerprint : String} {pake : Bytes} {time : Nat} {link : Link}
    (begun : connect devices e node invitation repair fingerprint pake time = .ok link) :
    link.stage = .greeted := by
  simp only [connect, linkSecure, failCode, fail, pairingFail] at begun
  repeat' split at begun
  all_goals simp only [Except.ok.injEq, reduceCtorEq] at begun
  rw [← begun]

theorem acceptSecure_challenged {e : Contents Proof} {node : String} {handler : Handler}
    {hello : PairHello} {fingerprint : String} {invitation : PairingInvitation} {pake : Bytes}
    {accept : Accept}
    (made : acceptSecure devices e node handler hello fingerprint invitation pake = .ok accept) :
    accept.stage = .challenged ∧ accept.completed = false := by
  simp only [acceptSecure] at made
  split at made
  · simp [pairingFail] at made
  · obtain rfl := Except.ok.inj made
    exact ⟨rfl, rfl⟩

theorem MatchedLink.mono {link : Link} (matched : MatchedLink secret id w link)
    (grown : Grown w after) : MatchedLink secret id after link where
  ready keys answered under := grown.sent (matched.ready keys answered under)
  accepted keys key taken under := grown.sent (matched.accepted keys key taken under)

theorem MatchedAccept.mono {accept : Accept} (matched : MatchedAccept secret id w accept)
    (grown : Grown w after) : MatchedAccept secret id after accept where
  prepared proved under := grown.sent (matched.prepared proved under)
  commit completed under := by
    obtain ⟨key, released, sent⟩ := matched.commit completed under
    exact ⟨key, released, grown.sent sent⟩

theorem MatchedAccept.setStage {accept : Accept} (matched : MatchedAccept secret id w accept)
    (stage : AcceptStage) (proved : stage.proved = true → accept.keys.Under secret id →
      accept.keys.mac .prepared [] ∈ w.sent) (unreleased : accept.stage.released = none) :
    MatchedAccept secret id w { accept with stage } where
  prepared := proved
  commit completed under := by
    obtain ⟨key, released, _⟩ := matched.commit completed under
    simp [unreleased] at released

variable [DecidableEq Proof] [ReceiptMac Proof]

theorem Matched.moved {event : PairingEvent Proof} (matched : Matched secret id w)
    (unforged : Unforged secret id w event) (moved : Moved devices w event after) :
    Matched secret id after := by
  have grown := moved.grown
  have links : ∀ run link, w.links run = some link → MatchedLink secret id after link :=
    fun run link found => (matched.links run link found).mono grown
  have accepts : ∀ run accept, w.accepts run = some accept → MatchedAccept secret id after accept :=
    fun run accept found => (matched.accepts run accept found).mono grown
  cases moved with
  | beside beside => exact ⟨beside.links ▸ links, beside.accepts ▸ accepts⟩
  | linked fresh begun =>
      have greeted := connect_greeted begun
      exact ⟨fun run link listed => setLink_all links ⟨by simp [greeted, LinkStage.answered],
        by simp [greeted, LinkStage.taken]⟩ listed, accepts⟩
  | challenged found stage keyed =>
      exact ⟨fun run link listed => setLink_all links ⟨by simp [LinkStage.answered],
        by simp [LinkStage.taken]⟩ listed, accepts⟩
  | prepared found stage beside =>
      refine ⟨fun run link listed => setLink_all (beside.links ▸ links)
        ⟨?_, by simp [LinkStage.taken]⟩ listed, beside.accepts ▸ accepts⟩
      rintro _ ⟨⟩ ⟨rfl, rfl⟩
      exact grown.sent (unforged _ List.mem_cons_self ⟨rfl, rfl⟩)
  | committed found stage beside =>
      refine ⟨fun run link listed => setLink_all (beside.links ▸ links) ⟨?_, ?_⟩ listed,
        beside.accepts ▸ accepts⟩
      · rintro _ ⟨⟩ under
        exact (links _ _ found).ready _ (by rw [stage]; rfl) under
      · rintro _ _ ⟨⟩ ⟨rfl, rfl⟩
        exact grown.sent (unforged _ List.mem_cons_self ⟨rfl, rfl⟩)
  | unprepared found stage beside =>
      refine ⟨fun run link listed => setLink_all (beside.links ▸ links)
        ⟨?_, by simp [LinkStage.taken]⟩ listed, beside.accepts ▸ accepts⟩
      rintro _ ⟨⟩ ⟨rfl, rfl⟩
      exact grown.sent (unforged _ List.mem_cons_self ⟨rfl, rfl⟩)
  | endedLink found beside =>
      have old := links _ _ found
      exact ⟨fun run link listed => setLink_all (beside.links ▸ links)
        ⟨old.ready, old.accepted⟩ listed, beside.accepts ▸ accepts⟩
  | begun fresh admitted claimed made =>
      obtain ⟨challenged, open_⟩ := acceptSecure_challenged made
      exact ⟨links, fun run accept listed => setAccept_all accepts
        ⟨by simp [challenged, AcceptStage.proved], by simp [open_]⟩ listed⟩
  | @readied run time accept found stage =>
      have next := (accepts run accept found).setStage .readied
        (by simp [AcceptStage.proved]) (by rw [stage]; rfl)
      exact ⟨links, fun query later listed => setAccept_all accepts next listed⟩
  | @proven run accept found stage =>
      have next := (accepts run accept found).setStage .proven
        (by
          rintro _ ⟨rfl, rfl⟩
          exact unforged _ List.mem_cons_self ⟨rfl, rfl⟩)
        (by rw [stage]; rfl)
      exact ⟨links, fun query later listed => setAccept_all accepts next listed⟩
  | @keyed run accept key found stage =>
      have old := accepts run accept found
      have next := old.setStage (.keyed key)
        (fun _ => old.prepared (by rw [stage]; rfl)) (by rw [stage]; rfl)
      exact ⟨links, fun query later listed => setAccept_all accepts next listed⟩
  | @enrolled run time mutation accept key next found stage beside =>
      have old := accepts run accept found
      have further := old.setStage (.accepted key)
        (fun _ => old.prepared (by rw [stage]; rfl)) (by rw [stage]; rfl)
      exact ⟨beside.links ▸ links, fun query later listed =>
        setAccept_all (beside.accepts ▸ accepts) further listed⟩
  | @endedAccept event run accept completed next found beside valid =>
      have old := accepts run accept found
      have ended : MatchedAccept secret id (next.endAccept run { accept with completed })
          { accept with completed, closed := true } := by
        refine ⟨old.prepared, fun done under => ?_⟩
        rcases valid done with before | ⟨key, stage, received⟩
        · exact old.commit before under
        · obtain ⟨rfl, rfl⟩ := under
          exact ⟨key, by rw [stage]; rfl, grown.sent (unforged _ received ⟨rfl, rfl⟩)⟩
      exact ⟨beside.links ▸ links, fun query later listed =>
        setAccept_all (beside.accepts ▸ accepts) ended listed⟩
  | recovers => exact ⟨links, accepts⟩
  | found => exact ⟨links, accepts⟩
  | refused => exact ⟨links, accepts⟩
  | answered => exact ⟨links, accepts⟩
  | gaveUp found beside => exact ⟨beside.links ▸ links, beside.accepts ▸ accepts⟩
  | recovered found read beside => exact ⟨beside.links ▸ links, beside.accepts ▸ accepts⟩

end Secrecy

end Pairings

end LibreSync.Managed
