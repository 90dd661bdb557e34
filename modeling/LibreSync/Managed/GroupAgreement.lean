import LibreSync.Managed.PairingRecovery

/-!
The group key while pairings cross. A session keeps its key as long as it lists somebody; two
sessions that list each other hold one key, unless a device was committed that held another.
-/

namespace LibreSync.Managed

section Keys

variable {Proof : Type}

def Lists (e : Contents Proof) (other : String) : Prop :=
  ∃ p : Peer Proof, e.peers[other]? = some p ∧ p.revoked = false

/-- What a failed save may have left on disk brings no other key to a session with peers. -/
def Session.Sealed (session : Session Proof) : Prop :=
  Enrolling session.envelope.toContents → session.durable.groupKey = session.envelope.groupKey

theorem Lists.enrolling {e : Contents Proof} {other : String} (lists : Lists e other) :
    Enrolling e := by
  obtain ⟨p, found, current⟩ := lists
  exact ⟨other, p, found, current⟩

theorem Lists.of_kin {e view : Contents Proof} {other : String} (kin : Kin e view)
    (lists : Lists view other) : Lists e other := by
  rw [kin] at lists
  exact lists

theorem Kin.groupKey {e view : Contents Proof} (kin : Kin e view) :
    view.groupKey = e.groupKey := by
  rw [kin]

variable [DecidableEq Proof] [ReceiptMac Proof] {inner : Inner Proof}
  {installation : Installation Proof} {e after : Contents Proof} {call : Call Proof}
  {change other : String}

/-- Whom a session lists after a call it listed before, under the same key, or the call commits it
and brings the key. -/
theorem operate_lists (operated : operate inner change call e = .ok after)
    (lists : Lists after other) :
    (Lists e other ∧ after.groupKey = e.groupKey) ∨
      ∃ handler outcome key incarnation rekeyed,
        call = .commit handler outcome key incarnation rekeyed ∧
          other = outcome.identity.deviceId ∧ after.groupKey = key.bytes := by
  obtain ⟨p, found, current⟩ := lists
  have step := operate_peers operated other
  rw [found] at step
  generalize before : e.peers[other]? = entry at step
  have stays : ∀ old, entry = some old → old.revoked = false →
      Lists e other ∧ after.groupKey = e.groupKey := by
    intro old same unrevoked
    have listed : Lists e other := ⟨old, before.trans same, unrevoked⟩
    refine ⟨listed, (operate_shifted operated).groupKey.resolve_right ?_⟩
    exact fun alone => alone.2 listed.enrolling
  have brings : ∀ {handler outcome key incarnation rekeyed},
      call = .commit handler outcome key incarnation rekeyed → after.groupKey = key.bytes := by
    rintro handler outcome key incarnation rekeyed rfl
    obtain ⟨reply, ran⟩ := Except.map_snd_ok.mp operated
    obtain ⟨_, _, _, rfl⟩ := commitSecurePairing_ok ran
    rfl
  cases step with
  | enrolled called device => exact Or.inr ⟨_, _, _, _, _, called, device, brings called⟩
  | kept touched =>
      cases touched with
      | enrolled device => exact Or.inr ⟨_, _, _, _, _, rfl, device, brings rfl⟩
      | removed => simp at current
      | _ => exact Or.inl (stays _ rfl current)

theorem Stepped.sealed {session next : Session Proof} {event : SessionEvent Proof}
    (stepped : Stepped installation session event next) (sealed : session.Sealed)
    (holds : session.Holds (Sound installation)) : next.Sealed := by
  cases stepped with
  | idle => exact sealed
  | committed => exact fun _ => rfl
  | interrupted _ _ operated finished _ memory disk =>
      intro enrolling
      rw [memory] at enrolling ⊢
      rcases disk with disk | disk
      · rw [disk]
      · rw [disk, completed_rest finished]
        exact (operate_shifted operated).groupKey.resolve_right fun alone => alone.2 enrolling
  | reopened => exact fun _ => rfl
  | unopened _ memory disk =>
      intro enrolling
      rw [memory] at enrolling ⊢
      rcases disk with disk | launched
      · rw [disk]
        exact sealed enrolling
      · rw [(holds.durable.launch launched).1]
        exact sealed enrolling

theorem Stepped.groupKey {session next : Session Proof} {event : SessionEvent Proof}
    (stepped : Stepped installation session event next) (sealed : session.Sealed)
    (holds : session.Holds (Sound installation))
    (enrolling : Enrolling session.envelope.toContents) :
    next.envelope.groupKey = session.envelope.groupKey := by
  cases stepped with
  | idle => rfl
  | committed _ _ operated finished =>
      show (_ : Contents Proof).groupKey = _
      rw [completed_rest finished]
      exact (operate_shifted operated).groupKey.resolve_right fun alone => alone.2 enrolling
  | interrupted _ _ _ _ _ memory => exact congrArg Contents.groupKey memory
  | reopened launched =>
      have opened := (holds.durable.launch launched).1
      rw [opened]
      exact sealed enrolling
  | unopened _ memory => exact congrArg Contents.groupKey memory

end Keys

namespace Pairings

section Acts

variable {Proof : Type} {devices : Devices Proof} {w next after : Pairings Proof}
  {event : PairingEvent Proof}

/-- The commit that an event asks a session for: at which node, for whom and under which key. -/
inductive Committing (devices : Devices Proof) (w : Pairings Proof) :
    PairingEvent Proof → String → Handler → SecurePairingOutcome → AppKey → Prop where
  | enroll {run time : Nat} {mutation : Mutation} {accept : Accept} {key : AppKey}
      (found : w.accepts run = some accept) (stage : accept.stage = .keyed key) :
      Committing devices w (.enroll run time mutation) accept.node accept.handler accept.outcome key
  | accepted {run time : Nat} {appKey : Bytes} {tag : Confirmation} {mutation : Mutation}
      {link : Link} {keys : Confirmations} {key : AppKey} (found : w.links run = some link)
      (stage : link.stage = .prepared keys) (verified : keys.verify .accepted appKey tag = .ok ())
      (read : AppKey.fromSlice appKey = .ok key) :
      Committing devices w (.accepted run appKey tag time mutation) link.node link.handler
        (link.outcome keys) key
  | recovered {run : Nat} {message : PairRecovered} {mutation : Mutation} {recovery : Recovery}
      {key : AppKey} (found : w.recoveries run = some recovery)
      (read : recovery.recovered devices message = .ok key) :
      Committing devices w (.recovered run message mutation) recovery.node recovery.handler
        { recovery.previous with metadata := message.metadata } key

variable [DecidableEq Proof] [ReceiptMac Proof]

/-- An event is a step of one session at most, and what it commits there the event asks for. -/
inductive Acted (devices : Devices Proof) (w : Pairings Proof) (event : PairingEvent Proof)
    (after : Pairings Proof) : Prop where
  | still (nodes : after.nodes = w.nodes) (saved : after.saved = w.saved)
  | acted {node : String} {act : SessionEvent Proof}
      (stepped : (devices.member node).step (w.nodes node) act = some (after.nodes node))
      (others : ∀ other, other ≠ node → after.nodes other = w.nodes other)
      (saved : after.saved = w.saved ∨ after.saved = (node, (after.nodes node).durable) :: w.saved)
      (commits : ∀ change transaction saves handler outcome key incarnation rekeyed,
        act = .call change transaction saves (.commit handler outcome key incarnation rekeyed) →
          Committing devices w event node handler outcome key)

theorem Acted.mutated {node : String} {mutation : Mutation} {call : Call Proof}
    {result : Except Error Unit} (ran : w.mutate devices node mutation call = (result, next))
    (nodes : after.nodes = next.nodes) (saved : after.saved = next.saved)
    (commits : ∀ handler outcome key incarnation rekeyed,
      call = .commit handler outcome key incarnation rekeyed →
        Committing devices w event node handler outcome key) :
    Acted devices w event after := by
  simp only [mutate] at ran
  generalize performed : (w.nodes node).perform (devices.member node).inner mutation.change
    mutation.transaction mutation.saves call = outcome at ran
  obtain ⟨reply, session⟩ := outcome
  have set : next.nodes = Function.update w.nodes node session := by
    cases reply with
    | error error => exact (congrArg (fun result => result.2.nodes) ran).symm
    | ok done => exact (congrArg (fun result => result.2.nodes) ran).symm
  have stepped : (devices.member node).step (w.nodes node)
      (.call mutation.change mutation.transaction mutation.saves call) =
        some (after.nodes node) := by
    rw [nodes, set, Function.update_self]
    simp only [Installation.step, performed]
  refine .acted stepped ?_ ?_ ?_
  · intro other apart
    rw [nodes, set, Function.update_of_ne apart]
  · rw [saved, nodes, set, Function.update_self]
    cases reply with
    | error error => exact Or.inl (congrArg (fun result => result.2.saved) ran).symm
    | ok done => exact Or.inr (congrArg (fun result => result.2.saved) ran).symm
  · rintro change transaction saves handler outcome key incarnation rekeyed ⟨⟩
    exact commits _ _ _ _ _ rfl

theorem prepareLink_acted {run time : Nat} {link : Link} {keys : Confirmations}
    {mutation : Mutation} :
    Acted devices w event (w.prepareLink devices run link keys time mutation) := by
  simp only [prepareLink]
  generalize ran : w.mutate devices link.node mutation (.prepare link.handler (link.outcome keys)) =
    made
  obtain ⟨result, next⟩ := made
  cases result with
  | error error => exact .mutated ran rfl rfl (by simp)
  | ok done =>
      simp only
      split
      · exact .mutated ran rfl rfl (by simp)
      · exact .mutated ran rfl rfl (by simp)

theorem commitLink_acted {run : Nat} {link : Link} {keys : Confirmations} {key : AppKey}
    {mutation : Mutation}
    (asked : Committing devices w event link.node link.handler (link.outcome keys) key) :
    Acted devices w event (w.commitLink devices run link keys key mutation) := by
  simp only [commitLink]
  generalize ran : w.mutate devices link.node mutation (.commit link.handler (link.outcome keys) key
    mutation.incarnation mutation.rekeyed) = made
  obtain ⟨result, next⟩ := made
  have commits : ∀ handler outcome other incarnation rekeyed,
      (.commit link.handler (link.outcome keys) key mutation.incarnation mutation.rekeyed :
        Call Proof) = .commit handler outcome other incarnation rekeyed →
      Committing devices w event link.node handler outcome other := by
    rintro _ _ _ _ _ ⟨⟩
    exact asked
  cases result with
  | error error => exact .mutated ran rfl rfl commits
  | ok done => exact .mutated ran rfl rfl commits

theorem commitRecovery_acted {run : Nat} {recovery : Recovery} {message : PairRecovered}
    {key : AppKey} {mutation : Mutation}
    (asked : Committing devices w event recovery.node recovery.handler
      { recovery.previous with metadata := message.metadata } key) :
    Acted devices w event (w.commitRecovery devices run recovery message key mutation) := by
  simp only [commitRecovery]
  generalize ran : w.mutate devices recovery.node mutation (.commit recovery.handler
    { recovery.previous with metadata := message.metadata } key mutation.incarnation
    mutation.rekeyed) = made
  obtain ⟨result, next⟩ := made
  have commits : ∀ handler outcome other incarnation rekeyed,
      (.commit recovery.handler { recovery.previous with metadata := message.metadata } key
        mutation.incarnation mutation.rekeyed : Call Proof) =
          .commit handler outcome other incarnation rekeyed →
      Committing devices w event recovery.node handler outcome other := by
    rintro _ _ _ _ _ ⟨⟩
    exact asked
  cases result with
  | error error => exact .mutated ran rfl rfl commits
  | ok done => exact .mutated ran rfl rfl commits

theorem enrollAccept_acted {run time : Nat} {accept : Accept} {key : AppKey} {mutation : Mutation}
    (asked : Committing devices w event accept.node accept.handler accept.outcome key) :
    Acted devices w event (w.enrollAccept devices run accept key time mutation) := by
  simp only [enrollAccept]
  generalize ran : w.mutate devices accept.node mutation (.commit accept.handler accept.outcome key
    mutation.incarnation mutation.rekeyed) = made
  obtain ⟨result, next⟩ := made
  have commits : ∀ handler outcome other incarnation rekeyed,
      (.commit accept.handler accept.outcome key mutation.incarnation mutation.rekeyed :
        Call Proof) = .commit handler outcome other incarnation rekeyed →
      Committing devices w event accept.node handler outcome other := by
    rintro _ _ _ _ _ ⟨⟩
    exact asked
  simp only
  split
  · split
    · exact .mutated ran rfl rfl commits
    · exact .still rfl rfl
  · exact .mutated ran rfl rfl commits

theorem onLink_acted {run : Nat} {act : Link → Option (Pairings Proof)}
    (ran : w.onLink run act = some after)
    (acts : ∀ link next, w.links run = some link → act link = some next →
      Acted devices w event next) : Acted devices w event after := by
  obtain ⟨link, found, acted⟩ := onLink_some ran
  exact acts link after found acted

theorem onAccept_acted {run : Nat} {act : Accept → Option (Pairings Proof)}
    (ran : w.onAccept run act = some after)
    (acts : ∀ accept next, w.accepts run = some accept → act accept = some next →
      Acted devices w event next) : Acted devices w event after := by
  obtain ⟨accept, found, acted⟩ := onAccept_some ran
  exact acts accept after found acted

theorem step_acted (stepped : step devices w event = some after) :
    Acted devices w event after := by
  cases event with
  | session node act =>
      simp only [step] at stepped
      split at stepped
      · simp at stepped
      · rename_i quiet
        obtain ⟨session, moved, rfl⟩ := Option.map_eq_some_iff.mp stepped
        have moved : (devices.member node).step (w.nodes node) act =
            some ((w.setNode node session).nodes node) := by
          rw [moved]
          simp [Pairings.setNode]
        refine .acted moved ?_ (Or.inl rfl) ?_
        · intro other apart
          simp [Pairings.setNode, apart]
        · rintro change transaction saves handler outcome key incarnation rekeyed rfl
          simp [SessionEvent.pairing, Call.pairing] at quiet
  | invite | revoke | close =>
      obtain rfl := Option.some.inj stepped
      exact .still rfl rfl
  | connect run node invitation repair fingerprint pake time =>
      simp only [step] at stepped
      split at stepped
      · simp at stepped
      · obtain ⟨link, _, rfl⟩ := toOption_map_some stepped
        exact .still rfl rfl
  | challenge run challenge =>
      refine onLink_acted stepped fun link next found ran => ?_
      simp only [challengeLink] at ran
      split at ran
      · simp at ran
      · split at ran
        · obtain rfl := Option.some.inj ran
          exact .still rfl rfl
        · obtain rfl := Option.some.inj ran
          exact .still rfl rfl
  | ready run tag time mutation =>
      refine onLink_acted stepped fun link next found ran => ?_
      simp only [readyLink] at ran
      split at ran
      · split at ran
        · obtain rfl := Option.some.inj ran
          exact .still rfl rfl
        · obtain rfl := Option.some.inj ran
          exact prepareLink_acted
      · simp at ran
  | accepted run appKey tag time mutation =>
      refine onLink_acted stepped fun link next found ran => ?_
      simp only [acceptedLink] at ran
      split at ran
      · rename_i keys stage
        split at ran
        · rename_i verified read
          split at ran
          · obtain rfl := Option.some.inj ran
            exact .still rfl rfl
          · obtain rfl := Option.some.inj ran
            exact commitLink_acted (.accepted found stage verified read)
        · obtain rfl := Option.some.inj ran
          exact .still rfl rfl
      · simp at ran
  | complete run mutation =>
      refine onLink_acted stepped fun link next found ran => ?_
      simp only [completeLink] at ran
      split at ran
      · rename_i keys key stage
        generalize made : w.mutate devices link.node mutation (.settle link.handler
          keys.transcript.serverIdentity.deviceId link.handler.addresses) = outcome at ran
        obtain ⟨result, settled⟩ := outcome
        obtain rfl := Option.some.inj ran
        exact .mutated made rfl rfl (by simp)
      · simp at ran
  | dropLink run =>
      refine onLink_acted stepped fun link next found ran => ?_
      obtain rfl := Option.some.inj ran
      exact .still rfl rfl
  | accept run node hello fingerprint pake time =>
      simp only [step] at stepped
      split at stepped
      · simp at stepped
      · simp only [beginAccept] at stepped
        split at stepped
        · split at stepped
          · obtain rfl := Option.some.inj stepped
            exact .still rfl rfl
          · obtain rfl := Option.some.inj stepped
            exact .still rfl rfl
        · simp at stepped
  | confirm run tag time =>
      refine onAccept_acted stepped fun accept next found ran => ?_
      simp only [confirmAccept] at ran
      split at ran
      · simp at ran
      · split at ran
        · obtain rfl := Option.some.inj ran
          exact .still rfl rfl
        · split at ran
          · obtain rfl := Option.some.inj ran
            exact .still rfl rfl
          · obtain rfl := Option.some.inj ran
            exact .still rfl rfl
  | prove run tag =>
      refine onAccept_acted stepped fun accept next found ran => ?_
      simp only [proveAccept] at ran
      split at ran
      · simp at ran
      · split at ran
        · obtain rfl := Option.some.inj ran
          exact .still rfl rfl
        · obtain rfl := Option.some.inj ran
          exact .still rfl rfl
  | key run =>
      refine onAccept_acted stepped fun accept next found ran => ?_
      simp only [keyAccept] at ran
      split at ran
      · simp at ran
      · split at ran
        · obtain rfl := Option.some.inj ran
          exact .still rfl rfl
        · obtain rfl := Option.some.inj ran
          exact .still rfl rfl
  | enroll run time mutation =>
      refine onAccept_acted stepped fun accept next found ran => ?_
      simp only [keyedAccept] at ran
      split at ran
      · rename_i key stage
        obtain rfl := Option.some.inj ran
        exact enrollAccept_acted (.enroll found stage)
      · simp at ran
  | commit run tag time =>
      refine onAccept_acted stepped fun accept next found ran => ?_
      simp only [committedAccept] at ran
      split at ran
      · obtain rfl := Option.some.inj ran
        exact .still rfl rfl
      · simp at ran
  | dropAccept run =>
      refine onAccept_acted stepped fun accept next found ran => ?_
      obtain rfl := Option.some.inj ran
      exact .still rfl rfl
  | recover run node preparation =>
      simp only [step] at stepped
      split at stepped
      · simp at stepped
      · obtain ⟨recovery, _, rfl⟩ := toOption_map_some stepped
        exact .still rfl rfl
  | lookup run connection node id peer fingerprint =>
      simp only [step] at stepped
      split at stepped
      · simp at stepped
      · simp only [beginAnswer] at stepped
        split at stepped
        · simp at stepped
        · obtain ⟨answer, _, rfl⟩ := toOption_map_some stepped
          exact .still rfl rfl
  | answer run =>
      obtain ⟨answer, found, ran⟩ := Option.bind_eq_some_iff.mp stepped
      simp only [writeAnswer] at ran
      split at ran
      · simp at ran
      · split at ran
        · obtain rfl := Option.some.inj ran
          exact .still rfl rfl
        · obtain rfl := Option.some.inj ran
          exact .still rfl rfl
  | recovered run message mutation =>
      obtain ⟨recovery, found, ran⟩ := Option.bind_eq_some_iff.mp stepped
      simp only [finishRecovery] at ran
      split at ran
      · simp at ran
      · split at ran
        · obtain rfl := Option.some.inj ran
          exact .still rfl rfl
        · rename_i key read
          obtain rfl := Option.some.inj ran
          exact commitRecovery_acted (.recovered found read)

/-- The device that a session commits lists that session under the same group key, or not at all. -/
def Concordant (devices : Devices Proof) (w : Pairings Proof) (event : PairingEvent Proof) : Prop :=
  ∀ node handler outcome key, Committing devices w event node handler outcome key →
    (∃ incarnations candidate, commitSecurePairing (devices.member node).inner handler outcome key
      incarnations (w.envelope node) = .ok ((), candidate)) →
    ∀ view, (w.nodes outcome.identity.deviceId).Shows view → Lists view node →
      view.groupKey = key.bytes

/-- Two sessions that list each other hold one group key, in memory and on disk. -/
def Alike (w : Pairings Proof) : Prop :=
  ∀ (node other : String) (view seen : Contents Proof), node ≠ other →
    (w.nodes node).Shows view → (w.nodes other).Shows seen → Lists view other → Lists seen node →
      view.groupKey = seen.groupKey

theorem Alike.acted (alike : Alike w) (sound : w.Sound devices)
    (concordant : Concordant devices w event) (acted : Acted devices w event after) :
    Alike after := by
  cases acted with
  | still nodes =>
      intro node other view seen apart shows there
      rw [nodes] at shows there
      exact alike node other view seen apart shows there
  | @acted here act stepped others _ commits =>
      have moved : ∀ other view seen, here ≠ other → (after.nodes here).Shows view →
          (w.nodes other).Shows seen → Lists view other → Lists seen here →
            view.groupKey = seen.groupKey := by
        intro other view seen apart shows there lists back
        rcases Installation.shows (sound here) stepped shows with ⟨old, was, kin⟩ |
          ⟨change, transaction, saves, call, candidate, rfl, _, _, operated, kin, _⟩
        · rw [kin.groupKey]
          exact alike here other old seen apart was there (lists.of_kin kin) back
        · rw [kin.groupKey]
          rcases operate_lists operated (lists.of_kin kin) with ⟨listed, same⟩ |
            ⟨handler, outcome, key, incarnation, rekeyed, rfl, rfl, brings⟩
          · rw [same]
            exact alike here other _ seen apart (Or.inl rfl) there listed back
          · obtain ⟨_, committed⟩ := Except.map_snd_ok.mp operated
            have asked := commits change transaction saves handler outcome key incarnation rekeyed
              rfl
            rw [brings]
            exact (concordant here handler outcome key asked ⟨_, candidate, committed⟩ seen there
              back).symm
      intro node other view seen apart shows there lists back
      by_cases isHere : node = here
      · subst isHere
        rw [others other apart.symm] at there
        exact moved other view seen apart shows there lists back
      · rw [others node isHere] at shows
        by_cases isThere : other = here
        · subst isThere
          exact (moved node seen view apart.symm there shows back lists).symm
        · rw [others other isThere] at there
          exact alike node other view seen apart shows there lists back

theorem Acted.sound (acted : Acted devices w event after) (sound : w.Sound devices) :
    after.Sound devices := by
  intro node
  cases acted with
  | still nodes =>
      rw [nodes]
      exact sound node
  | @acted here act stepped others _ _ =>
      by_cases isHere : node = here
      · subst isHere
        exact (sound node).step stepped
      · rw [others node isHere]
        exact sound node

theorem Acted.sealed (acted : Acted devices w event after) (sound : w.Sound devices)
    (sealed : ∀ node, (w.nodes node).Sealed) (node : String) :
    (after.nodes node).Sealed ∧ (Enrolling (w.envelope node) →
      (after.envelope node).groupKey = (w.envelope node).groupKey) := by
  cases acted with
  | still nodes =>
      have same : after.nodes node = w.nodes node := congrFun nodes node
      simp only [envelope, same]
      exact ⟨sealed node, fun _ => trivial⟩
  | @acted here act stepped others _ _ =>
      by_cases isHere : node = here
      · subst isHere
        have step := Installation.stepped (sound node).settled stepped
        exact ⟨step.sealed (sealed node) (sound node), step.groupKey (sealed node) (sound node)⟩
      · simp only [envelope, others node isHere]
        exact ⟨sealed node, fun _ => trivial⟩

end Acts

end Pairings

section Theorems

variable {Proof : Type} [DecidableEq Proof] [ReceiptMac Proof] (devices : Devices Proof)
  {w after : Pairings Proof} {event : PairingEvent Proof}

end Theorems

section Sample

def lists (e : Contents SymbolicProof) (other : String) : Bool :=
  (e.peers[other]?).any fun p => !p.revoked

def alikeAt (w : Pairings SymbolicProof) (node other : String) (key : AppKey) : Bool :=
  [w.envelope other, (w.nodes other).durable].all fun view =>
    !lists view node || view.groupKey = key.bytes

/-- The event commits no device that holds another key, and its MACs are copies. -/
def concordant (w : Pairings SymbolicProof) (event : PairingEvent SymbolicProof) : Bool :=
  event.tags.all (· ∈ w.sent) && match event with
    | .enroll run _ _ => (w.accepts run).all fun accept => match accept.stage with
        | .keyed key => alikeAt w accept.node accept.outcome.identity.deviceId key
        | _ => true
    | .accepted run appKey _ _ _ => (w.links run).all fun link => match link.stage with
        | .prepared keys => (AppKey.fromSlice appKey).toOption.all fun key =>
            alikeAt w link.node (link.outcome keys).identity.deviceId key
        | _ => true
    | .recovered .. => false
    | _ => true

def otherPake (role : UInt8) : Bytes := role :: List.replicate 32 2

def otherSecret : String := String.ofList (List.replicate 64 '6')

def deskGreeting : PairHello where
  version := pairingVersion
  invitationId := secondId.text
  identity := deskOutcome.identity
  metadata := sampleMetadata
  clientFingerprint := sampleDevices.fingerprint "desk"
  serverFingerprint := sampleDevices.fingerprint "phone"
  pake := otherPake 65

def deskKeys : Confirmations where
  shared := {
    secret := otherSecret
    invitationId := secondId.text
    clientPake := otherPake 65
    serverPake := otherPake 66 }
  transcript := {
    hello := deskGreeting
    serverIdentity := phone.identity
    serverMetadata := sampleMetadata
    serverPake := otherPake 66 }

end Sample

end LibreSync.Managed
