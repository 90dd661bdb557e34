import LibreSync.Managed.PairingSafety

/-!
The agreement of the two sides of a pairing, whoever is on the network: each enrolment has the run
of the other side behind it, and only one.
-/

namespace LibreSync.Managed

def PairingEvent.dialed {Proof : Type} : PairingEvent Proof → Option (Nat × Bytes)
  | .connect run _ _ _ _ pake _ => some (run, pake)
  | _ => none

def PairingEvent.claimed {Proof : Type} : PairingEvent Proof → Option (Nat × Bytes)
  | .accept run _ _ _ pake _ => some (run, pake)
  | _ => none

def PairingEvent.resumes {Proof : Type} : PairingEvent Proof → Bool
  | .lookup .. | .answer .. | .recovered .. => true
  | _ => false

namespace Pairings

section Draws

variable {Proof : Type} {devices : Devices Proof} {w after : Pairings Proof}

/-- SPAKE2 draws a new element for every run. -/
structure FreshPakes (w : Pairings Proof) (event : PairingEvent Proof) : Prop where
  links : ∀ begun, event.dialed = some begun → ∀ (run : Nat) (link : Link),
    w.links run = some link → link.hello.pake ≠ begun.2
  accepts : ∀ begun, event.claimed = some begun → ∀ (run : Nat) (accept : Accept),
    w.accepts run = some accept → accept.keys.transcript.serverPake ≠ begun.2

structure Distinct (w : Pairings Proof) : Prop where
  links : ∀ (first second : Nat) (link other : Link), w.links first = some link →
    w.links second = some other → link.hello.pake = other.hello.pake → first = second
  accepts : ∀ (first second : Nat) (accept other : Accept), w.accepts first = some accept →
    w.accepts second = some other →
    accept.keys.transcript.serverPake = other.keys.transcript.serverPake → first = second

theorem connect_pake {e : Contents Proof} {node : String} {invitation : SessionInvitation}
    {repair : Bool} {fingerprint : String} {pake : Bytes} {time : Nat} {link : Link}
    (begun : connect devices e node invitation repair fingerprint pake time = .ok link) :
    link.hello.pake = pake := by
  simp only [connect, linkSecure, failCode, fail, pairingFail] at begun
  repeat' split at begun
  all_goals simp only [Except.ok.injEq, reduceCtorEq] at begun
  rw [← begun]

theorem acceptSecure_pake {e : Contents Proof} {node : String} {handler : Handler}
    {hello : PairHello} {fingerprint : String} {invitation : PairingInvitation} {pake : Bytes}
    {accept : Accept}
    (made : acceptSecure devices e node handler hello fingerprint invitation pake = .ok accept) :
    accept.keys.transcript.serverPake = pake := by
  simp only [acceptSecure] at made
  split at made
  · simp [pairingFail] at made
  · obtain rfl := Except.ok.inj made
    rfl

def LinkFrom (w : Pairings Proof) (event : PairingEvent Proof) (run : Nat) (link : Link) : Prop :=
  (∃ before, w.links run = some before ∧ before.hello = link.hello) ∨
    event.dialed = some (run, link.hello.pake)

def AcceptFrom (w : Pairings Proof) (event : PairingEvent Proof) (run : Nat) (accept : Accept) :
    Prop :=
  (∃ before, w.accepts run = some before ∧ before.keys = accept.keys) ∨
    event.claimed = some (run, accept.keys.transcript.serverPake)

theorem setLink_from {event : PairingEvent Proof} {next : Pairings Proof} {run query : Nat}
    {link found : Link} (listed : (next.setLink run link).links query = some found)
    (still : next.links = w.links) (new : LinkFrom w event run link) :
    LinkFrom w event query found := by
  by_cases here : query = run
  · subst here
    obtain rfl : link = found := by simpa [setLink] using listed
    exact new
  · refine Or.inl ⟨found, ?_, rfl⟩
    simpa [setLink, here, still] using listed

theorem setAccept_from {event : PairingEvent Proof} {next : Pairings Proof} {run query : Nat}
    {accept found : Accept} (listed : (next.setAccept run accept).accepts query = some found)
    (still : next.accepts = w.accepts) (new : AcceptFrom w event run accept) :
    AcceptFrom w event query found := by
  by_cases here : query = run
  · subst here
    obtain rfl : accept = found := by simpa [setAccept] using listed
    exact new
  · refine Or.inl ⟨found, ?_, rfl⟩
    simpa [setAccept, here, still] using listed

theorem Distinct.start (devices : Devices Proof) : Distinct (start devices) where
  links := by simp [Pairings.start]
  accepts := by simp [Pairings.start]

variable [DecidableEq Proof] [ReceiptMac Proof]

theorem Moved.linkFrom {event : PairingEvent Proof} {run : Nat} {link : Link}
    (moved : Moved devices w event after) (listed : after.links run = some link) :
    LinkFrom w event run link := by
  have same : w.links run = some link → LinkFrom w event run link :=
    fun found => Or.inl ⟨link, found, rfl⟩
  cases moved with
  | beside beside => exact same (beside.links ▸ listed)
  | linked fresh begun =>
      refine setLink_from listed rfl (Or.inr ?_)
      rw [connect_pake begun]
      rfl
  | challenged found => exact setLink_from listed rfl (Or.inl ⟨_, found, rfl⟩)
  | prepared found stage beside =>
      exact setLink_from listed beside.links (Or.inl ⟨_, found, rfl⟩)
  | committed found stage beside =>
      exact setLink_from listed beside.links (Or.inl ⟨_, found, rfl⟩)
  | @unprepared run time mutation link keys next found stage beside =>
      have readied : LinkFrom w (.ready run (keys.mac .ready []) time mutation) run
          { link with stage := .readied keys, closed := true } := Or.inl ⟨link, found, rfl⟩
      exact setLink_from listed beside.links readied
  | endedLink found beside =>
      exact setLink_from listed beside.links (Or.inl ⟨_, found, rfl⟩)
  | enrolled found stage beside => exact same (beside.links ▸ listed)
  | endedAccept found beside => exact same (beside.links ▸ listed)
  | gaveUp found beside => exact same (beside.links ▸ listed)
  | recovered found read beside => exact same (beside.links ▸ listed)
  | _ => exact same listed

theorem Moved.acceptFrom {event : PairingEvent Proof} {run : Nat} {accept : Accept}
    (moved : Moved devices w event after) (listed : after.accepts run = some accept) :
    AcceptFrom w event run accept := by
  have same : w.accepts run = some accept → AcceptFrom w event run accept :=
    fun found => Or.inl ⟨accept, found, rfl⟩
  cases moved with
  | beside beside => exact same (beside.accepts ▸ listed)
  | prepared found stage beside => exact same (beside.accepts ▸ listed)
  | committed found stage beside => exact same (beside.accepts ▸ listed)
  | unprepared found stage beside => exact same (beside.accepts ▸ listed)
  | endedLink found beside => exact same (beside.accepts ▸ listed)
  | @begun _ node _ _ _ _ _ _ manager _ fresh admitted claimed made =>
      refine setAccept_from listed rfl (Or.inr ?_)
      rw [acceptSecure_pake made]
      rfl
  | readied found => exact setAccept_from listed rfl (Or.inl ⟨_, found, rfl⟩)
  | proven found => exact setAccept_from listed rfl (Or.inl ⟨_, found, rfl⟩)
  | keyed found => exact setAccept_from listed rfl (Or.inl ⟨_, found, rfl⟩)
  | enrolled found stage beside =>
      exact setAccept_from listed beside.accepts (Or.inl ⟨_, found, rfl⟩)
  | @endedAccept _ run accept completed next found beside =>
      have ended : AcceptFrom w event run { accept with completed, closed := true } :=
        Or.inl ⟨accept, found, rfl⟩
      exact setAccept_from listed beside.accepts ended
  | gaveUp found beside => exact same (beside.accepts ▸ listed)
  | recovered found read beside => exact same (beside.accepts ▸ listed)
  | _ => exact same listed

theorem Moved.linksAll {event : PairingEvent Proof} {motive : Nat × Bytes → Prop}
    (moved : Moved devices w event after)
    (held : ∀ run link, w.links run = some link → motive (run, link.hello.pake))
    (new : ∀ begun, event.dialed = some begun → motive begun) :
    ∀ run link, after.links run = some link → motive (run, link.hello.pake) := by
  intro run link found
  rcases moved.linkFrom found with ⟨before, there, same⟩ | dialed
  · exact same ▸ held run before there
  · exact new _ dialed

theorem Moved.acceptsAll {event : PairingEvent Proof} {motive : Nat × Bytes → Prop}
    (moved : Moved devices w event after)
    (held : ∀ run accept, w.accepts run = some accept →
      motive (run, accept.keys.transcript.serverPake))
    (new : ∀ begun, event.claimed = some begun → motive begun) :
    ∀ run accept, after.accepts run = some accept →
      motive (run, accept.keys.transcript.serverPake) := by
  intro run accept found
  rcases moved.acceptFrom found with ⟨before, there, same⟩ | claimed
  · exact same ▸ held run before there
  · exact new _ claimed

theorem Distinct.moved {event : PairingEvent Proof} (distinct : Distinct w)
    (fresh : FreshPakes w event) (moved : Moved devices w event after) : Distinct after where
  links first second link other listed also same := by
    rcases moved.linkFrom listed with ⟨before, found, hello⟩ | began
    · rcases moved.linkFrom also with ⟨earlier, there, greeting⟩ | began
      · exact distinct.links _ _ _ _ found there (by rw [hello, greeting, same])
      · exact absurd ((congrArg PairHello.pake hello).trans same)
          (fresh.links _ began _ _ found)
    · rcases moved.linkFrom also with ⟨earlier, there, greeting⟩ | also
      · exact absurd ((congrArg PairHello.pake greeting).trans same.symm)
          (fresh.links _ began _ _ there)
      · exact (Prod.mk.inj (Option.some.inj (began.symm.trans also))).1
  accepts first second accept other listed also same := by
    rcases moved.acceptFrom listed with ⟨before, found, keys⟩ | began
    · rcases moved.acceptFrom also with ⟨earlier, there, keyed⟩ | began
      · exact distinct.accepts _ _ _ _ found there (by rw [keys, keyed, same])
      · exact absurd ((congrArg (·.transcript.serverPake) keys).trans same)
          (fresh.accepts _ began _ _ found)
    · rcases moved.acceptFrom also with ⟨earlier, there, keyed⟩ | also
      · exact absurd ((congrArg (·.transcript.serverPake) keyed).trans same.symm)
          (fresh.accepts _ began _ _ there)
      · exact (Prod.mk.inj (Option.some.inj (began.symm.trans also))).1

end Draws

section Agreement

variable {Proof : Type} {devices : Devices Proof} {w : Pairings Proof} {secret id : String}

/-- The network of someone who lacks the secret of the invitation. -/
def Intruded (secret id : String) (w : Pairings Proof) (event : PairingEvent Proof) : Prop :=
  Unforged secret id w event ∧ FreshPakes w event

/-- The network of someone who has the secrets of these invitations only. -/
def Overheard (leaked : String → String → Prop) (w : Pairings Proof)
    (event : PairingEvent Proof) : Prop :=
  (∀ secret id, ¬leaked secret id → Unforged secret id w event) ∧ FreshPakes w event

structure Safe (devices : Devices Proof) (secret id : String) (w : Pairings Proof) : Prop where
  honest : Honest devices w
  matched : Matched secret id w
  distinct : Distinct w

def party (devices : Devices Proof) (node id : String) : SecurePairingOutcome where
  invitationId := id
  identity := (devices.member node).identity
  metadata := (devices.member node).inner.config.metadata
  fingerprint := devices.fingerprint node

theorem Honest.counterpart {link : Link} {accept : Accept} {run other : Nat}
    (honest : Honest devices w) (found : w.links run = some link)
    (there : w.accepts other = some accept) (keyed : link.stage.keys = some accept.keys) :
    link.hello = accept.hello ∧ link.invitation.secret = accept.invitation.secret ∧
      link.invitation.invitationId = accept.invitation.invitationId ∧
      accept.outcome = party devices link.node accept.invitation.invitationId ∧
      link.outcome accept.keys = party devices accept.node accept.invitation.invitationId := by
  have joined := honest.links run link found
  have accepted := honest.accepts other accept there
  obtain ⟨secret, named, hello⟩ := joined.keys _ keyed
  have greeting : link.hello = accept.hello := hello.symm.trans accepted.hello
  have invited : link.invitation.invitationId = accept.invitation.invitationId :=
    named.symm.trans accepted.named
  refine ⟨greeting, secret.symm.trans accepted.secret, invited, ?_, ?_⟩
  · simp only [Accept.outcome, party, ← greeting, joined.identity, joined.metadata,
      joined.invited, invited, ← accepted.peer, joined.certificate]
  · simp only [Link.outcome, party, accepted.identity, accepted.metadata, invited, greeting,
      accepted.certificate]

variable [DecidableEq Proof] [ReceiptMac Proof]

theorem Safe.reached
    (reached : Transition.Reaches (step devices) (Intruded secret id) (start devices) w) :
    Safe devices secret id w :=
  reached.invariant ⟨.start devices, .start devices, .start devices⟩
    fun _ _ _ safe intruded stepped =>
      have moved := step_moved safe.honest.sound stepped
      ⟨safe.honest.step stepped, safe.matched.moved intruded.1 moved,
        safe.distinct.moved intruded.2 moved⟩

omit [DecidableEq Proof] [ReceiptMac Proof] in
theorem Safe.sameLink {first second : Nat} {link other : Link} {keys : Confirmations}
    (safe : Safe devices secret id w) (found : w.links first = some link)
    (there : w.links second = some other) (keyed : link.stage.keys = some keys)
    (same : other.stage.keys = some keys) : first = second := by
  obtain ⟨_, _, hello⟩ := (safe.honest.links _ _ found).keys keys keyed
  obtain ⟨_, _, greeting⟩ := (safe.honest.links _ _ there).keys keys same
  exact safe.distinct.links _ _ _ _ found there (by rw [← hello, ← greeting])

omit [DecidableEq Proof] [ReceiptMac Proof] in
theorem Safe.joiner {run : Nat} {accept : Accept}
    (safe : Safe devices accept.invitation.secret accept.invitation.invitationId w)
    (found : w.accepts run = some accept) (proved : accept.stage.proved = true) :
    ∃ joiner link, w.links joiner = some link ∧ link.stage.proof = some accept.keys := by
  have accepted := safe.honest.accepts run accept found
  obtain ⟨joiner, link, keys, there, proof, tag⟩ := (safe.honest.sent _
    ((safe.matched.accepts run accept found).prepared proved
      ⟨accepted.secret, accepted.named⟩)).prepared rfl
  obtain ⟨rfl, _, _⟩ := Confirmations.mac_injective tag
  exact ⟨joiner, link, there, proof⟩

omit [DecidableEq Proof] [ReceiptMac Proof] in
theorem Safe.inviter {run : Nat} {link : Link} {keys : Confirmations}
    (safe : Safe devices link.invitation.secret link.invitation.invitationId w)
    (found : w.links run = some link) (answered : link.stage.answered = some keys) :
    ∃ inviter accept, w.accepts inviter = some accept ∧ accept.keys = keys ∧
      accept.stage.ready = true := by
  obtain ⟨secret, named, _⟩ := (safe.honest.links run link found).keys keys
    (LinkStage.keys_of_answered answered)
  obtain ⟨inviter, accept, there, ready, tag⟩ := (safe.honest.sent _
    ((safe.matched.links run link found).ready keys answered ⟨secret, named⟩)).ready rfl
  obtain ⟨rfl, _, _⟩ := Confirmations.mac_injective tag
  exact ⟨inviter, accept, there, rfl, ready⟩

theorem undialed (reached : Transition.Reaches (step devices) (fun _ event => event.dialed = none)
    (start devices) w) (run : Nat) : w.links run = none := by
  have held := reached.invariant (motive := fun w => Honest devices w ∧
      ∀ run link, w.links run = some link → False)
    ⟨.start devices, by simp [Pairings.start]⟩ fun w event after held quiet stepped =>
      ⟨held.1.step stepped, (step_moved held.1.sound stepped).linksAll (motive := fun _ => False)
        held.2 fun begun dialed => by simp [quiet] at dialed⟩
  exact Option.eq_none_iff_forall_not_mem.mpr fun link found => held.2 run link found

theorem unclaimed (reached : Transition.Reaches (step devices)
    (fun _ event => event.claimed = none) (start devices) w) (run : Nat) :
    w.accepts run = none := by
  have held := reached.invariant (motive := fun w => Honest devices w ∧
      ∀ run accept, w.accepts run = some accept → False)
    ⟨.start devices, by simp [Pairings.start]⟩ fun w event after held quiet stepped =>
      ⟨held.1.step stepped, (step_moved held.1.sound stepped).acceptsAll
        (motive := fun _ => False) held.2 fun begun claimed => by simp [quiet] at claimed⟩
  exact Option.eq_none_iff_forall_not_mem.mpr fun accept found => held.2 run accept found

/-- Events whose runs begin with elements of their own draw fresh ones. -/
theorem fresh_run {guard : Pairings Proof → PairingEvent Proof → Bool}
    {events : List (PairingEvent Proof)} {final : Pairings Proof} (greeted challenged : List Bytes)
    (honest : Honest devices w)
    (links : ∀ run link, w.links run = some link → link.hello.pake ∈ greeted)
    (accepts : ∀ run accept, w.accepts run = some accept →
      accept.keys.transcript.serverPake ∈ challenged)
    (dials : (greeted ++ events.flatMap fun event => (event.dialed.map Prod.snd).toList).Nodup)
    (claims : (challenged ++ events.flatMap fun event =>
      (event.claimed.map Prod.snd).toList).Nodup)
    (ran : Transition.run (fun w event => if guard w event then step devices w event else none) w
      events = some final) :
    Transition.Reaches (step devices) (fun w event => guard w event = true ∧ FreshPakes w event) w
      final := by
  induction events generalizing w greeted challenged with
  | nil =>
      obtain rfl := Option.some.inj ran
      exact .start
  | cons event events ih =>
      obtain ⟨after, stepped, rest⟩ := Transition.run_cons ran
      split at stepped
      · rename_i permitted
        simp only [List.flatMap_cons, ← List.append_assoc] at dials claims
        have moved := step_moved honest.sound stepped
        have fresh : FreshPakes w event := by
          refine ⟨fun begun dialed run link found same => ?_,
            fun begun claimed run accept found same => ?_⟩
          · have apart := List.disjoint_of_nodup_append (List.nodup_append.mp dials).1
            exact apart (links run link found) (by simp [dialed, same])
          · have apart := List.disjoint_of_nodup_append (List.nodup_append.mp claims).1
            exact apart (accepts run accept found) (by simp [claimed, same])
        refine (Transition.Reaches.next .start ⟨permitted, fresh⟩ stepped).trans
          (ih _ _ (honest.step stepped) ?_ ?_ dials claims rest)
        · refine moved.linksAll (motive := fun begun => begun.2 ∈ _) ?_ ?_
          · exact fun run link found => List.mem_append_left _ (links run link found)
          · intro begun dialed
            simp [dialed]
        · refine moved.acceptsAll (motive := fun begun => begun.2 ∈ _) ?_ ?_
          · exact fun run accept found => List.mem_append_left _ (accepts run accept found)
          · intro begun claimed
            simp [claimed]
      · simp at stepped

end Agreement

end Pairings

section Theorems

variable {Proof : Type} [DecidableEq Proof] [ReceiptMac Proof] (devices : Devices Proof)
  {w : Pairings Proof} {run : Nat}

/-- Against whoever lacks the secret of its invitation, an inviter that has the proof of a
preparation agrees with the one run that prepared: on the hello, on each other's certificates and
identities, on what both saved, and, when it completes, on the key. -/
theorem Devices.inviter_agrees {accept : Accept}
    (reached : Transition.Reaches (Pairings.step devices) (Pairings.Intruded
      accept.invitation.secret accept.invitation.invitationId) (Pairings.start devices) w)
    (found : w.accepts run = some accept) (proved : accept.stage.proved = true) :
    ∃ joiner link, w.links joiner = some link ∧ link.stage.proof = some accept.keys ∧
      (∀ other later, w.links other = some later → later.stage.keys = some accept.keys →
        other = joiner) ∧
      link.hello = accept.hello ∧ link.invitation.secret = accept.invitation.secret ∧
      link.invitation.inviterFingerprint = devices.fingerprint accept.node ∧
      w.Prepared link.node (Pairings.party devices accept.node accept.invitation.invitationId) ∧
      (∀ key, accept.stage.released = some key → w.Enrolled accept.node
        (Pairings.party devices link.node accept.invitation.invitationId) key) ∧
      (accept.completed = true → ∃ key, accept.stage.released = some key ∧
        link.stage.taken = some (accept.keys, key)) := by
  have safe := Pairings.Safe.reached reached
  have accepted := safe.honest.accepts run accept found
  have matched := safe.matched.accepts run accept found
  have under := And.intro accepted.secret accepted.named
  obtain ⟨joiner, link, there, proof⟩ := safe.joiner found proved
  have joined := safe.honest.links joiner link there
  have keyed := LinkStage.keys_of_answered (LinkStage.answered_of_proof proof)
  obtain ⟨hello, secret, named, joinerParty, inviterParty⟩ :=
    safe.honest.counterpart there found keyed
  refine ⟨joiner, link, there, proof, fun other later listed same =>
    safe.sameLink listed there same keyed, hello, secret, ?_, ?_, ?_, ?_⟩
  · rw [← joined.pinned, hello, accepted.certificate]
  · exact inviterParty ▸ joined.proof _ proof
  · intro key released
    exact joinerParty ▸ accepted.released key released
  · intro completed
    obtain ⟨key, released, sent⟩ := matched.commit completed under
    obtain ⟨other, later, keys, committed, listed, taken, tag⟩ :=
      (safe.honest.sent _ sent).commit rfl
    obtain ⟨rfl, _, bytes⟩ := Confirmations.mac_injective tag
    obtain rfl : key = committed := AppKey.eq_of_bytes bytes
    have same := LinkStage.keys_of_answered
      (LinkStage.answered_of_proof (LinkStage.proof_of_taken taken))
    obtain rfl := safe.sameLink listed there same keyed
    obtain rfl := Option.some.inj (listed.symm.trans there)
    exact ⟨key, released, taken⟩

/-- Against whoever lacks the secret of its invitation, a joiner that goes on to prepare agrees with
the one run that is ready for it, and commits only the key under which that inviter enrolled it. -/
theorem Devices.joiner_agrees {link : Link} {keys : Confirmations}
    (reached : Transition.Reaches (Pairings.step devices) (Pairings.Intruded
      link.invitation.secret link.invitation.invitationId) (Pairings.start devices) w)
    (found : w.links run = some link) (answered : link.stage.answered = some keys) :
    ∃ inviter accept, w.accepts inviter = some accept ∧ accept.keys = keys ∧
      accept.stage.ready = true ∧
      (∀ other later, w.accepts other = some later → later.keys = keys → other = inviter) ∧
      accept.hello = link.hello ∧ accept.invitation.secret = link.invitation.secret ∧
      accept.fingerprint = devices.fingerprint link.node ∧
      link.outcome keys = Pairings.party devices accept.node link.invitation.invitationId ∧
      (link.stage.proof = some keys → w.Prepared link.node
        (Pairings.party devices accept.node link.invitation.invitationId)) ∧
      ∀ key, link.stage.taken = some (keys, key) → accept.stage.released = some key ∧
        w.Enrolled accept.node (Pairings.party devices link.node link.invitation.invitationId)
          key ∧
        w.Enrolled link.node (Pairings.party devices accept.node link.invitation.invitationId)
          key := by
  have safe := Pairings.Safe.reached reached
  have joined := safe.honest.links run link found
  have matched := safe.matched.links run link found
  have keyed := LinkStage.keys_of_answered answered
  obtain ⟨secret, named, _⟩ := joined.keys keys keyed
  obtain ⟨inviter, accept, there, rfl, ready⟩ := safe.inviter found answered
  have accepted := safe.honest.accepts inviter accept there
  obtain ⟨hello, secrets, invited, joinerParty, inviterParty⟩ :=
    safe.honest.counterpart found there keyed
  have once : ∀ other later, w.accepts other = some later → later.keys = accept.keys →
      other = inviter := fun other later listed same =>
    safe.distinct.accepts _ _ _ _ listed there (by rw [same])
  refine ⟨inviter, accept, there, rfl, ready, once, hello.symm, secrets.symm, ?_, ?_, ?_, ?_⟩
  · rw [← accepted.peer, ← hello, joined.certificate]
  · rw [invited, inviterParty]
  · exact fun proof => invited ▸ inviterParty ▸ joined.proof _ proof
  · intro key taken
    obtain ⟨other, later, released, listed, stage, tag⟩ :=
      (safe.honest.sent _ (matched.accepted _ key taken ⟨secret, named⟩)).accepted rfl
    obtain ⟨same, _, bytes⟩ := Confirmations.mac_injective tag
    obtain rfl : key = released := AppKey.eq_of_bytes bytes
    obtain rfl := once other later listed same.symm
    obtain rfl := Option.some.inj (listed.symm.trans there)
    exact ⟨stage, invited ▸ joinerParty ▸ accepted.released key stage,
      invited ▸ inviterParty ▸ joined.taken _ key taken⟩

end Theorems

section Sample

def sampleFingerprint (id : String) : String :=
  if id = "desk" then String.ofList (List.replicate 64 'd')
  else if id = "phone" then String.ofList (List.replicate 64 'a')
  else if id = "tablet" then String.ofList (List.replicate 64 'b')
  else "certificate of " ++ id

def sampleDevices : Devices SymbolicProof where
  toFleet := sampleFleet
  fingerprint := sampleFingerprint
  point _ := true

def certified (fingerprint : String) : String :=
  match fingerprint.toList with
  | 'd' :: _ => "desk"
  | 'a' :: _ => "phone"
  | 'b' :: _ => "tablet"
  | text => String.ofList (text.drop "certificate of ".length)

theorem sampleDevices_distinct : Function.Injective sampleDevices.fingerprint := by
  refine Function.LeftInverse.injective (g := certified) fun id => ?_
  simp only [sampleDevices, sampleFingerprint]
  split
  · rename_i desk
    exact desk.symm
  · split
    · rename_i phone
      exact phone.symm
    · split
      · rename_i tablet
        exact tablet.symm
      · have tail : "certificate of ".length = 15 := rfl
        simp [certified, tail]

def samplePake (role : UInt8) : Bytes := role :: List.replicate 32 1

def sampleSecret : String := String.ofList (List.replicate 64 '5')

def sampleInvitation : SessionInvitation where
  invitation := {
    version := pairingVersion
    invitationId := sampleId.text
    inviterFingerprint := sampleDevices.fingerprint "desk"
    metadata := sampleMetadata
    expiresAt := 1120
    secret := sampleSecret }
  identity := deskOutcome.identity
  addresses := []

def phoneGreeting : PairHello where
  version := pairingVersion
  invitationId := sampleId.text
  identity := phone.identity
  metadata := sampleMetadata
  clientFingerprint := sampleDevices.fingerprint "phone"
  serverFingerprint := sampleDevices.fingerprint "desk"
  pake := samplePake 65

def phoneKeys : Confirmations where
  shared := {
    secret := sampleSecret
    invitationId := sampleId.text
    clientPake := samplePake 65
    serverPake := samplePake 66 }
  transcript := {
    hello := phoneGreeting
    serverIdentity := deskOutcome.identity
    serverMetadata := sampleMetadata
    serverPake := samplePake 66 }

def sampleMutation : Mutation where
  change := sampleId
  transaction := sampleId
  saves := {}
  incarnation := sampleId
  rekeyed _ := sampleId

def inviteOne : List (PairingEvent SymbolicProof) :=
  [.session "desk" (sampleCall .start), .session "phone" (sampleCall .start),
    .invite "desk" 1000 1000 sampleId.text sampleSecret (120 * 10 ^ 9)]

def phoneDials : PairingEvent SymbolicProof :=
  .connect 0 "phone" sampleInvitation false (sampleDevices.fingerprint "desk") (samplePake 65) 1001

def deskClaims : PairingEvent SymbolicProof :=
  .accept 0 "desk" phoneGreeting (sampleDevices.fingerprint "phone") (samplePake 66) 1001

def confirmPhone : List (PairingEvent SymbolicProof) :=
  [.challenge 0 {
      identity := deskOutcome.identity
      metadata := sampleMetadata
      pake := samplePake 66
      confirmation := phoneKeys.mac .server [] },
    .confirm 0 (phoneKeys.mac .client []) 1002,
    .ready 0 (phoneKeys.mac .ready []) 1003 sampleMutation,
    .prove 0 (phoneKeys.mac .prepared []),
    .key 0,
    .enroll 0 1004 sampleMutation]

def commitPhone : List (PairingEvent SymbolicProof) :=
  [.accepted 0 desk.groupKey.bytes (phoneKeys.mac .accepted desk.groupKey.bytes) 1005
      sampleMutation,
    .commit 0 (phoneKeys.mac .commit desk.groupKey.bytes) 1006,
    .complete 0 sampleMutation]

/-- The event begins no run, and its MACs are copies. -/
def copies (w : Pairings SymbolicProof) (event : PairingEvent SymbolicProof) : Bool :=
  event.dialed.isNone && event.claimed.isNone && event.tags.all (· ∈ w.sent)

def copying (w : Pairings SymbolicProof) (event : PairingEvent SymbolicProof) :
    Option (Pairings SymbolicProof) :=
  if copies w event && !event.resumes then Pairings.step sampleDevices w event else none

theorem copies_overheard {w : Pairings SymbolicProof} {event : PairingEvent SymbolicProof}
    (leaked : String → String → Prop) (copied : copies w event = true) :
    Pairings.Overheard leaked w event := by
  simp only [copies, Bool.and_eq_true, Option.isNone_iff_eq_none, List.all_eq_true,
    decide_eq_true_eq] at copied
  obtain ⟨⟨quiet, unclaimed⟩, tags⟩ := copied
  exact ⟨fun _ _ _ tag member _ => tags tag member, by simp [quiet], by simp [unclaimed]⟩

theorem copying_reaches {w after : Pairings SymbolicProof}
    {events : List (PairingEvent SymbolicProof)} (leaked : String → String → Prop)
    (ran : Transition.run copying w events = some after) :
    Transition.Reaches (Pairings.step sampleDevices) (fun w event => (copies w event = true ∧
      Pairings.Overheard leaked w event) ∧ event.resumes = false) w after := by
  refine (Transition.reaches_guarded ran).mono fun _ _ guarded => ?_
  simp only [Bool.and_eq_true, Bool.not_eq_true'] at guarded
  exact ⟨⟨guarded.1, copies_overheard leaked guarded.1⟩, guarded.2⟩

theorem inviteOne_runs :
    (Transition.run copying (Pairings.start sampleDevices) inviteOne).isSome = true := by
  decide +kernel

def invitedWorld : Pairings SymbolicProof :=
  (Transition.run copying (Pairings.start sampleDevices) inviteOne).get inviteOne_runs

theorem phoneDials_steps :
    (Pairings.step sampleDevices invitedWorld phoneDials).isSome = true := by
  decide +kernel

def dialedWorld : Pairings SymbolicProof :=
  (Pairings.step sampleDevices invitedWorld phoneDials).get phoneDials_steps

theorem deskClaims_steps :
    (Pairings.step sampleDevices dialedWorld deskClaims).isSome = true := by
  decide +kernel

def claimedWorld : Pairings SymbolicProof :=
  (Pairings.step sampleDevices dialedWorld deskClaims).get deskClaims_steps

def agreed (w : Pairings SymbolicProof) : Bool :=
  ((w.links 0).any fun link => link.stage.taken.any fun result => result.1 = phoneKeys) &&
    ((w.accepts 0).any fun accept => accept.stage.proved && accept.completed) &&
    ((w.nodes "desk").envelope.peers["phone"]?).isSome

theorem confirmBoth_runs : ((Transition.run copying claimedWorld
    (confirmPhone ++ commitPhone)).filter agreed).isSome = true := by
  decide +kernel

def pairedWorld : Pairings SymbolicProof :=
  ((Transition.run copying claimedWorld (confirmPhone ++ commitPhone)).filter agreed).get
    confirmBoth_runs

theorem pairedWorld_ran : Transition.run copying claimedWorld (confirmPhone ++ commitPhone) =
    some pairedWorld ∧ agreed pairedWorld = true :=
  Option.filter_eq_some_iff.mp (Option.some_get confirmBoth_runs).symm

theorem claimedWorld_reached (leaked : String → String → Prop) :
    Transition.Reaches (Pairings.step sampleDevices)
      (fun w event => Pairings.Overheard leaked w event ∧ event.resumes = false)
      (Pairings.start sampleDevices) claimedWorld := by
  have invited := copying_reaches leaked (Option.some_get inviteOne_runs).symm
  have quiet : ∀ {w : Pairings SymbolicProof} {event : PairingEvent SymbolicProof},
      copies w event = true → event.dialed = none ∧ event.claimed = none := by
    intro w event copied
    simp only [copies, Bool.and_eq_true, Option.isNone_iff_eq_none] at copied
    exact copied.1
  have dialed := Option.some_get phoneDials_steps
  have claimed := Option.some_get deskClaims_steps
  have unlinked := Pairings.undialed (invited.mono fun _ _ copied => (quiet copied.1.1).1)
  have unaccepted := Pairings.unclaimed (.next (invited.mono fun _ _ copied => (quiet copied.1.1).2)
    rfl dialed.symm)
  have before := invited.mono fun _ _ copied => And.intro copied.1.2 copied.2
  have joined : Pairings.Overheard leaked invitedWorld phoneDials :=
    ⟨by simp [Pairings.Unforged, phoneDials, PairingEvent.tags],
      fun _ _ run link found => absurd ((unlinked run).symm.trans found) (by simp),
      by simp [phoneDials, PairingEvent.claimed]⟩
  have answered : Pairings.Overheard leaked dialedWorld deskClaims :=
    ⟨by simp [Pairings.Unforged, deskClaims, PairingEvent.tags],
      by simp [deskClaims, PairingEvent.dialed],
      fun _ _ run accept found => absurd ((unaccepted run).symm.trans found) (by simp)⟩
  exact (before.next ⟨joined, rfl⟩ dialed.symm).next ⟨answered, rfl⟩ claimed.symm

theorem pairedWorld_overheard (leaked : String → String → Prop) :
    Transition.Reaches (Pairings.step sampleDevices) (Pairings.Overheard leaked)
      (Pairings.start sampleDevices) pairedWorld :=
  ((claimedWorld_reached leaked).mono fun _ _ => And.left).trans
    ((copying_reaches leaked pairedWorld_ran.1).mono fun _ _ copied => copied.1.2)

theorem pairedWorld_reached (secret id : String) : Transition.Reaches (Pairings.step sampleDevices)
    (Pairings.Intruded secret id) (Pairings.start sampleDevices) pairedWorld :=
  (pairedWorld_overheard fun _ _ => False).mono fun _ _ overheard =>
    ⟨overheard.1 secret id not_false, overheard.2⟩


theorem pairedWorld_agreed : (∃ link, pairedWorld.links 0 = some link ∧
      ∃ result, link.stage.taken = some result ∧ decide (result.1 = phoneKeys) = true) ∧
    (∃ accept, pairedWorld.accepts 0 = some accept ∧ accept.stage.proved = true ∧
      accept.completed = true) ∧
    ((pairedWorld.nodes "desk").envelope.peers["phone"]?).isSome = true := by
  have checked := pairedWorld_ran.2
  simp only [agreed, Bool.and_eq_true, Option.any_eq_true] at checked
  exact ⟨checked.1.1, checked.1.2, checked.2⟩

theorem phoneLink_committed : ∃ link key, pairedWorld.links 0 = some link ∧
    link.stage.taken = some (phoneKeys, key) := by
  obtain ⟨link, there, result, taken, same⟩ := pairedWorld_agreed.1
  obtain ⟨keys, key⟩ := result
  obtain rfl : keys = phoneKeys := of_decide_eq_true same
  exact ⟨link, key, there, taken⟩

theorem pairedWorld_listed :
    ∃ p, (pairedWorld.nodes "desk").envelope.peers["phone"]? = some p :=
  Option.isSome_iff_exists.mp pairedWorld_agreed.2.2

theorem inviter_agrees_desk : ∃ accept joiner link key, pairedWorld.accepts 0 = some accept ∧
    accept.completed = true ∧ pairedWorld.links joiner = some link ∧
    link.stage.taken = some (accept.keys, key) ∧ pairedWorld.Enrolled accept.node
      (Pairings.party sampleDevices link.node accept.invitation.invitationId) key := by
  obtain ⟨accept, found, proved, completed⟩ := pairedWorld_agreed.2.1
  obtain ⟨joiner, link, there, _, _, _, _, _, _, enrolled, agreed⟩ :=
    sampleDevices.inviter_agrees (pairedWorld_reached _ _) found proved
  obtain ⟨key, released, taken⟩ := agreed completed
  exact ⟨accept, joiner, link, key, found, completed, there, taken, enrolled key released⟩

theorem joiner_agrees_phone : ∃ link inviter accept key, pairedWorld.links 0 = some link ∧
    link.stage.taken = some (phoneKeys, key) ∧ pairedWorld.accepts inviter = some accept ∧
    accept.keys = phoneKeys ∧ accept.stage.released = some key ∧
    pairedWorld.Enrolled link.node
      (Pairings.party sampleDevices accept.node link.invitation.invitationId) key := by
  obtain ⟨link, key, found, taken⟩ := phoneLink_committed
  obtain ⟨inviter, accept, there, keyed, _, _, _, _, _, _, _, agreed⟩ :=
    sampleDevices.joiner_agrees (pairedWorld_reached _ _) found
      (LinkStage.answered_of_proof (LinkStage.proof_of_taken taken))
  obtain ⟨released, _, enrolled⟩ := agreed key taken
  exact ⟨link, inviter, accept, key, found, taken, there, keyed, released, enrolled⟩

end Sample

end LibreSync.Managed
