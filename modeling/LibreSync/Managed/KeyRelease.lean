import LibreSync.Managed.GroupAgreement

/-!
Who gets the group key of a session. An inviter enrols and answers only a device that prepared for
it; a joiner takes only the key that it was enrolled under, as long as no inviter comes to another
key between the look at an enrolment and the answer.
-/

namespace LibreSync.Managed.Pairings

section Past

variable {Proof : Type} [DecidableEq Proof] [ReceiptMac Proof] (devices : Devices Proof)
  (allowed : Pairings Proof → PairingEvent Proof → Prop) (w : Pairings Proof)

/-- At some point of the run the node had this on disk. -/
def Lasted (node : String) (contents : Contents Proof) : Prop :=
  ∃ before, Transition.Reaches (step devices) allowed (start devices) before ∧
    Transition.Reaches (step devices) allowed before w ∧ (before.nodes node).durable = contents

def HadPrepared (node : String) (outcome : SecurePairingOutcome) : Prop :=
  ∃ (contents : Contents Proof) (job : Preparation), Lasted devices allowed w node contents ∧
    contents.preparations[outcome.invitationId]? = some job ∧ job.outcome = outcome

def HadEnrolled (node : String) (outcome : SecurePairingOutcome) (key : Bytes) : Prop :=
  ∃ (contents : Contents Proof) (job : Enrollment), Lasted devices allowed w node contents ∧
    contents.enrollments[outcome.invitationId]? = some job ∧ job.outcome = outcome ∧
    contents.groupKey = key

structure Durable : Prop where
  envelopes : ∀ node, Lasted devices allowed w node (w.envelope node)
  saved : ∀ node contents, (node, contents) ∈ w.saved → Lasted devices allowed w node contents
  seen : ∀ node contents, (node, contents) ∈ w.seen → Lasted devices allowed w node contents
  recoveries : ∀ (run : Nat) (recovery : Recovery), w.recoveries run = some recovery →
    HadPrepared devices allowed w recovery.node recovery.previous

variable {devices allowed w} {after : Pairings Proof} {event : PairingEvent Proof}

theorem Lasted.next {node : String} {contents : Contents Proof}
    (lasted : Lasted devices allowed w node contents) (permitted : allowed w event)
    (stepped : step devices w event = some after) :
    Lasted devices allowed after node contents := by
  obtain ⟨before, reached, since, there⟩ := lasted
  exact ⟨before, reached, since.next permitted stepped, there⟩

theorem HadPrepared.next {node : String} {outcome : SecurePairingOutcome}
    (had : HadPrepared devices allowed w node outcome) (permitted : allowed w event)
    (stepped : step devices w event = some after) :
    HadPrepared devices allowed after node outcome := by
  obtain ⟨contents, job, lasted, found⟩ := had
  exact ⟨contents, job, lasted.next permitted stepped, found⟩

theorem Known.reached {node : String} {outcome : SecurePairingOutcome} {before : Pairings Proof}
    (known : Known before node outcome) (sound : before.Sound devices)
    (since : Transition.Reaches (step devices) allowed before w) : Known w node outcome :=
  (since.invariant (motive := fun w => w.Sound devices ∧ Known w node outcome) ⟨sound, known⟩
    fun _ _ _ held _ stepped =>
      ⟨(step_acted stepped).sound held.1, held.2.mono (step_moved held.1 stepped).grown⟩).2

theorem Lasted.known {node id : String} {contents : Contents Proof}
    {outcome : SecurePairingOutcome} (lasted : Lasted devices allowed w node contents)
    (journaled : Journaled contents id outcome) :
    Known w node outcome ∧ outcome.invitationId = id := by
  obtain ⟨before, reached, since, rfl⟩ := lasted
  have rooted := Rooted.reached reached
  obtain ⟨known, filed⟩ := rooted.jobs node _ id outcome (Or.inr rfl) journaled
  exact ⟨known.reached rooted.sound since, filed⟩

theorem Moved.seenFrom (moved : Moved devices w event after) :
    after.seen = w.seen ∨ ∃ node, after.seen = (node, w.envelope node) :: w.seen := by
  cases moved with
  | beside beside => exact Or.inl beside.seen
  | prepared _ _ beside => exact Or.inl beside.seen
  | unprepared _ _ beside => exact Or.inl beside.seen
  | committed _ _ beside => exact Or.inl beside.seen
  | endedLink _ beside => exact Or.inl beside.seen
  | enrolled _ _ beside => exact Or.inl beside.seen
  | endedAccept _ beside => exact Or.inl beside.seen
  | gaveUp _ beside => exact Or.inl beside.seen
  | recovered _ _ beside => exact Or.inl beside.seen
  | found => exact Or.inr ⟨_, rfl⟩
  | answered => exact Or.inr ⟨_, rfl⟩
  | _ => exact Or.inl rfl

theorem Acted.envelope_or (acted : Acted devices w event after) (sound : w.Sound devices)
    (node : String) : after.envelope node = (after.nodes node).durable ∨
      after.envelope node = w.envelope node := by
  cases acted with
  | still nodes => exact Or.inr (by simp only [envelope, nodes])
  | @acted here act stepped others =>
      by_cases isHere : node = here
      · subst isHere
        exact (Installation.stepped (sound node).settled stepped).memory
      · exact Or.inr (by simp only [envelope, others node isHere])

theorem Acted.savedFrom (acted : Acted devices w event after) :
    after.saved = w.saved ∨
      ∃ node, after.saved = (node, (after.nodes node).durable) :: w.saved := by
  cases acted with
  | still _ saved => exact Or.inl saved
  | acted _ _ saved => exact saved.imp_right fun saved => ⟨_, saved⟩

theorem Durable.reached
    (reached : Transition.Reaches (step devices) allowed (start devices) w) :
    Durable devices allowed w := by
  induction reached with
  | start =>
      refine ⟨fun node => ⟨_, .start, .start, rfl⟩, ?_, ?_, ?_⟩
      all_goals simp [Pairings.start]
  | @next w after event before permitted stepped ih =>
      have sound := (Rooted.reached before).sound
      have moved := step_moved sound stepped
      have acted := step_acted stepped
      have now : ∀ node, Lasted devices allowed after node (after.nodes node).durable :=
        fun node => ⟨after, before.next permitted stepped, .start, rfl⟩
      refine ⟨fun node => ?_, fun node contents listed => ?_, fun node contents listed => ?_,
        fun run recovery listed => ?_⟩
      · rcases acted.envelope_or sound node with disk | same
        · exact disk ▸ now node
        · exact same ▸ (ih.envelopes node).next permitted stepped
      · rcases acted.savedFrom with same | ⟨here, new⟩
        · exact (ih.saved node contents (same ▸ listed)).next permitted stepped
        · rcases List.mem_cons.mp (new ▸ listed) with new | old
          · obtain ⟨rfl, rfl⟩ := Prod.mk.inj new
            exact now node
          · exact (ih.saved node contents old).next permitted stepped
      · rcases moved.seenFrom with same | ⟨here, new⟩
        · exact (ih.seen node contents (same ▸ listed)).next permitted stepped
        · rcases List.mem_cons.mp (new ▸ listed) with new | old
          · obtain ⟨rfl, rfl⟩ := Prod.mk.inj new
            exact (ih.envelopes node).next permitted stepped
          · exact (ih.seen node contents old).next permitted stepped
      · rcases moved.recoveryFrom listed with ⟨earlier, found, node, previous⟩ |
          ⟨preparation, stored, previous⟩
        · rw [node, previous]
          exact (ih.recoveries run earlier found).next permitted stepped
        · obtain ⟨id, found⟩ := BTreeMap.mem_valueList.mp stored
          have lasted := (ih.envelopes recovery.node)
          obtain ⟨_, filed⟩ := lasted.known (.preparation found)
          exact ⟨_, preparation, lasted.next permitted stepped, by rw [previous, filed, found],
            previous.symm⟩

end Past

section Keys

variable {Proof : Type} (devices : Devices Proof) (leaked : String → String → Prop)

/-- A recovery is answered with the group key under which the enrolment was found. -/
def KeyKept (w : Pairings Proof) (event : PairingEvent Proof) : Prop :=
  ∀ run answer, event = .answer run → w.answers run = some answer → ∃ looked,
    (answer.node, looked) ∈ w.seen ∧
    Standing looked answer.invitationId answer.identity answer.fingerprint ∧
    looked.groupKey = (w.envelope answer.node).groupKey

def Keeping [DecidableEq Proof] [ReceiptMac Proof] (w : Pairings Proof)
    (event : PairingEvent Proof) : Prop :=
  Overheard leaked w event ∧ Authentic devices w event ∧ KeyKept w event

/-- Nobody else has the secret of an invitation under which the party came in. -/
def Secluded (w : Pairings Proof) (node : String) (outcome : SecurePairingOutcome) : Prop :=
  ∀ invitation metadata, Brought w node invitation { outcome with metadata } →
    ¬leaked invitation.secret invitation.invitationId

structure Names (outcome : SecurePairingOutcome) (device : String) : Prop where
  identity : outcome.identity = (devices.member device).identity
  fingerprint : outcome.fingerprint = devices.fingerprint device

def Served (w : Pairings Proof) (entry : Relayed) : Prop :=
  ∃ node id peer looked, entry.server = devices.fingerprint node ∧ (node, looked) ∈ w.seen ∧
    Standing looked id peer entry.client ∧ looked.groupKey = entry.message.appKey ∧
    (Owned devices entry.client → Asked devices w entry.connection node id peer entry.client)

variable {devices leaked} {w after : Pairings Proof} {event : PairingEvent Proof}

theorem Served.mono {entry : Relayed} (served : Served devices w entry)
    (continued : Continued w after) : Served devices after entry := by
  obtain ⟨node, id, peer, looked, server, listed, standing, key, asked⟩ := served
  exact ⟨node, id, peer, looked, server, continued.seen listed, standing, key,
    fun owned => (asked owned).mono continued⟩

variable [DecidableEq Proof] [ReceiptMac Proof]

theorem Moved.relayedFrom {entry : Relayed} (moved : Moved devices w event after)
    (listed : entry ∈ after.relayed) : entry ∈ w.relayed ∨ ∃ run answer key,
      event = .answer run ∧ w.answers run = some answer ∧
      AppKey.fromSlice (w.envelope answer.node).groupKey = .ok key ∧
      entry.connection = answer.connection ∧ entry.server = devices.fingerprint answer.node ∧
      entry.client = answer.fingerprint ∧ entry.message.appKey = key.bytes := by
  cases moved with
  | beside beside => exact Or.inl (beside.relayed ▸ listed)
  | prepared _ _ beside => exact Or.inl (beside.relayed ▸ listed)
  | unprepared _ _ beside => exact Or.inl (beside.relayed ▸ listed)
  | committed _ _ beside => exact Or.inl (beside.relayed ▸ listed)
  | endedLink _ beside => exact Or.inl (beside.relayed ▸ listed)
  | enrolled _ _ beside => exact Or.inl (beside.relayed ▸ listed)
  | endedAccept _ beside => exact Or.inl (beside.relayed ▸ listed)
  | gaveUp _ beside => exact Or.inl (beside.relayed ▸ listed)
  | recovered _ _ beside => exact Or.inl (beside.relayed ▸ listed)
  | @answered run answer key found read =>
      rcases List.mem_cons.mp listed with rfl | old
      · exact Or.inr ⟨run, answer, key, rfl, found, read, rfl, rfl, rfl, rfl⟩
      · exact Or.inl old
  | _ => exact Or.inl listed

theorem Served.moved (served : ∀ entry ∈ w.relayed, Served devices w entry)
    (answered : Answered devices w) (kept : KeyKept w event)
    (moved : Moved devices w event after) :
    ∀ entry ∈ after.relayed, Served devices after entry := by
  intro entry listed
  rcases moved.relayedFrom listed with old |
    ⟨run, answer, key, rfl, found, read, connection, server, client, bytes⟩
  · exact (served entry old).mono moved.continued
  · obtain ⟨looked, seen, standing, same⟩ := kept run answer rfl found
    have asked := (answered.answers run answer found).asked
    refine Served.mono ⟨answer.node, answer.invitationId, answer.identity, looked, server, seen,
      client ▸ standing, ?_, ?_⟩ moved.continued
    · rw [same, AppKey.fromSlice_ok read, bytes]
    · rw [client, connection]
      exact asked

theorem Served.reached
    (reached : Transition.Reaches (step devices) (Keeping devices leaked) (start devices) w) :
    ∀ entry ∈ w.relayed, Served devices w entry :=
  (reached.invariant (motive := fun w => Honest devices w ∧ Answered devices w ∧
      ∀ entry ∈ w.relayed, Served devices w entry)
    ⟨.start devices, .start devices, by simp [Pairings.start]⟩
    fun _ _ _ held keeping stepped =>
      have moved := step_moved held.1.sound stepped
      ⟨held.1.step stepped, held.2.1.moved held.1.sound keeping.2.1 moved,
        Served.moved held.2.2 held.2.1 keeping.2.2 moved⟩).2.2

theorem Keeping.safe {secret id : String}
    (reached : Transition.Reaches (step devices) (Keeping devices leaked) (start devices) w)
    (kept : ¬leaked secret id) : Safe devices secret id w :=
  .reached (reached.mono fun _ _ keeping => ⟨keeping.1.1 _ _ kept, keeping.1.2⟩)

theorem Known.names {node : String} {outcome : SecurePairingOutcome}
    (known : Known w node outcome) (secluded : Secluded leaked w node outcome)
    (reached : Transition.Reaches (step devices) (Keeping devices leaked) (start devices) w) :
    ∃ other, Names devices outcome other := by
  obtain ⟨invitation, metadata, brought⟩ := known
  obtain ⟨other, party, _⟩ :=
    brought.other (Keeping.safe reached (secluded invitation metadata brought))
  exact ⟨other, congrArg SecurePairingOutcome.identity party,
    congrArg SecurePairingOutcome.fingerprint party⟩

theorem HadPrepared.known {allowed : Pairings Proof → PairingEvent Proof → Prop} {node : String}
    {outcome : SecurePairingOutcome} (had : HadPrepared devices allowed w node outcome) :
    Known w node outcome := by
  obtain ⟨contents, job, lasted, found, rfl⟩ := had
  exact (lasted.known (.preparation found)).1

end Keys

end LibreSync.Managed.Pairings

namespace LibreSync.Managed

section Theorems

variable {Proof : Type} [DecidableEq Proof] [ReceiptMac Proof] (devices : Devices Proof)
  {w : Pairings Proof}

open Pairings in
/-- An inviter has the proof of a preparation before it enrols and before it writes its key, and
whoever it answers in a recovery is enrolled and prepared too; what a joiner is asked to commit, in
its pairing or in a recovery, the inviter has enrolled it under. Each of these was on disk. -/
theorem Devices.pairings_released {leaked : String → String → Prop}
    (distinct : Function.Injective devices.fingerprint)
    (reached : Transition.Reaches (Pairings.step devices) (Keeping devices leaked)
      (Pairings.start devices) w) :
    (∀ run accept, w.accepts run = some accept → accept.stage.proved = true →
      ¬leaked accept.invitation.secret accept.invitation.invitationId →
      ∃ joiner link, w.links joiner = some link ∧ link.stage.proof = some accept.keys ∧
        link.invitation.secret = accept.invitation.secret ∧
        accept.outcome = party devices link.node accept.invitation.invitationId ∧
        HadPrepared devices (Keeping devices leaked) w link.node
          (party devices accept.node accept.invitation.invitationId)) ∧
    (∀ entry ∈ w.relayed, ∃ node outcome, entry.server = devices.fingerprint node ∧
      entry.client = outcome.fingerprint ∧
      HadEnrolled devices (Keeping devices leaked) w node outcome entry.message.appKey ∧
      (Secluded leaked w node outcome → ∃ joiner prepared, Names devices outcome joiner ∧
        HadPrepared devices (Keeping devices leaked) w joiner prepared ∧
        prepared.invitationId = outcome.invitationId ∧
        prepared.fingerprint = devices.fingerprint node ∧
        (Secluded leaked w joiner prepared → prepared.identity = (devices.member node).identity))) ∧
    (∀ run appKey tag time mutation link keys,
      Keeping devices leaked w (.accepted run appKey tag time mutation) →
      w.links run = some link → link.stage = .prepared keys →
      keys.verify .accepted appKey tag = .ok () →
      ¬leaked link.invitation.secret link.invitation.invitationId →
      ∃ inviter accept, w.accepts inviter = some accept ∧ accept.keys = keys ∧
        link.outcome keys = party devices accept.node link.invitation.invitationId ∧
        HadEnrolled devices (Keeping devices leaked) w accept.node
          (party devices link.node link.invitation.invitationId) appKey) ∧
    ∀ run message mutation recovery key,
      Keeping devices leaked w (.recovered run message mutation) →
      w.recoveries run = some recovery → recovery.recovered devices message = .ok key →
      Secluded leaked w recovery.node recovery.previous →
      ∃ inviter outcome, Names devices recovery.previous inviter ∧
        Names devices outcome recovery.node ∧
        outcome.invitationId = recovery.previous.invitationId ∧
        HadEnrolled devices (Keeping devices leaked) w inviter outcome key.bytes := by
  have durable := Durable.reached reached
  have served := Served.reached reached
  refine ⟨fun run accept found proved kept => ?_, fun entry listed => ?_, ?_, ?_⟩
  · have safe := Keeping.safe reached kept
    obtain ⟨joiner, link, there, proof⟩ := safe.joiner found proved
    obtain ⟨_, secret, _, joinerParty, inviterParty⟩ := safe.honest.counterpart there found
      (LinkStage.keys_of_answered (LinkStage.answered_of_proof proof))
    refine ⟨joiner, link, there, proof, secret, joinerParty, ?_⟩
    obtain ⟨contents, job, saved, journaled, same⟩ :=
      (safe.honest.links joiner link there).proof _ proof
    rw [inviterParty] at journaled same
    exact ⟨contents, job, durable.saved _ _ saved, journaled, same⟩
  · obtain ⟨node, id, peer, looked, server, seen, standing, key, asked⟩ := served entry listed
    obtain ⟨job, journaled, rfl, client⟩ := standing.job
    have lasted := durable.seen node looked seen
    obtain ⟨known, rfl⟩ := lasted.known (.enrollment journaled)
    refine ⟨node, job.outcome, server, client.symm, ⟨looked, job, lasted, journaled, rfl, key⟩,
      fun secluded => ?_⟩
    obtain ⟨joiner, names⟩ := known.names secluded reached
    obtain ⟨recovery, there, certificate, inviter, named, _⟩ :=
      asked ⟨joiner, client.symm.trans names.fingerprint⟩
    obtain rfl : recovery.node = joiner :=
      distinct (certificate.trans (client.symm.trans names.fingerprint))
    have prepared := durable.recoveries _ recovery there
    refine ⟨recovery.node, recovery.previous, names, prepared, named, inviter, fun kept => ?_⟩
    obtain ⟨other, same⟩ := prepared.known.names kept reached
    obtain rfl : other = node := distinct (same.fingerprint.symm.trans inviter)
    exact same.identity
  · intro run appKey tag time mutation link keys keeping found stage verified kept
    have safe := Keeping.safe reached kept
    obtain rfl := Confirmations.verify_ok verified
    have keyed : link.stage.keys = some keys := by rw [stage]; rfl
    obtain ⟨secret, named, _⟩ := (safe.honest.links run link found).keys keys keyed
    have sent := keeping.1.1 _ _ kept _ (List.mem_singleton_self _) ⟨secret, named⟩
    obtain ⟨inviter, accept, key, there, released, tag⟩ := (safe.honest.sent _ sent).accepted rfl
    obtain ⟨rfl, _, rfl⟩ := Confirmations.mac_injective tag
    obtain ⟨_, _, invited, joinerParty, inviterParty⟩ := safe.honest.counterpart found there keyed
    refine ⟨inviter, accept, there, rfl, invited ▸ inviterParty, ?_⟩
    obtain ⟨contents, job, saved, journaled, same, groupKey, _⟩ :=
      (safe.honest.accepts inviter accept there).released key released
    rw [joinerParty, ← invited] at journaled same
    exact ⟨contents, job, durable.saved _ _ saved, journaled, same, groupKey⟩
  · intro run message mutation recovery key keeping found read secluded
    obtain ⟨_, bytes⟩ := Recovery.recovered_ok read
    obtain ⟨inviter, names⟩ :=
      (durable.recoveries run recovery found).known.names secluded reached
    have sent := keeping.2.1.recovered run message mutation recovery rfl found
      ⟨inviter, names.fingerprint⟩
    obtain ⟨node, id, peer, looked, server, seen, standing, groupKey, asked⟩ := served _ sent
    obtain rfl : inviter = node := distinct (names.fingerprint.symm.trans server)
    obtain ⟨asking, there, _, _, named, owner⟩ := asked ⟨recovery.node, rfl⟩
    obtain rfl := Option.some.inj (found.symm.trans there)
    obtain ⟨job, journaled, identity, client⟩ := standing.job
    have lasted := durable.seen inviter looked seen
    obtain ⟨_, filed⟩ := lasted.known (.enrollment journaled)
    refine ⟨inviter, job.outcome, names, ⟨identity.trans owner, client⟩, filed.trans named.symm,
      looked, job, lasted, filed ▸ journaled, rfl, groupKey.trans bytes⟩

end Theorems

section Sample

def stands (e : Contents SymbolicProof) (id : String) (peer : Identity) (fingerprint : String) :
    Bool :=
  ((e.enrollments[id]?).any fun job =>
    job.outcome.identity = peer && job.outcome.fingerprint = fingerprint) &&
  (e.peers[peer.deviceId]?).any fun p => !p.revoked && p.fingerprint = fingerprint

theorem stands_standing {e : Contents SymbolicProof} {id : String} {peer : Identity}
    {fingerprint : String} (checked : stands e id peer fingerprint = true) :
    Standing e id peer fingerprint := by
  simp only [stands, Bool.and_eq_true, Option.any_eq_true, decide_eq_true_eq,
    Bool.not_eq_true'] at checked
  exact ⟨checked.1, checked.2⟩

def keyKept (w : Pairings SymbolicProof) : PairingEvent SymbolicProof → Bool
  | .answer run => (w.answers run).all fun answer => w.seen.any fun found =>
      found.1 = answer.node &&
        stands found.2 answer.invitationId answer.identity answer.fingerprint &&
        found.2.groupKey = (w.envelope answer.node).groupKey
  | _ => true

theorem keyKept_kept {w : Pairings SymbolicProof} {event : PairingEvent SymbolicProof}
    (checked : keyKept w event = true) : Pairings.KeyKept w event := by
  rintro run answer rfl found
  simp only [keyKept, found, Option.all_some, List.any_eq_true, Bool.and_eq_true,
    decide_eq_true_eq] at checked
  obtain ⟨⟨_, looked⟩, listed, ⟨rfl, standing⟩, same⟩ := checked
  exact ⟨looked, listed, stands_standing standing, same⟩

theorem kept_apart {w : Pairings SymbolicProof} {event : PairingEvent SymbolicProof}
    (apart : event.resumes = false) : Pairings.KeyKept w event := by
  rintro run answer rfl
  exact absurd apart (by simp [PairingEvent.resumes])

def sampleKeeping : Pairings SymbolicProof → PairingEvent SymbolicProof → Prop :=
  Pairings.Keeping sampleDevices fun _ _ => False

/-- Desk and phone are past the proof, the phone recovers, and the desk has answered. -/
def phoneAnswered (w : Pairings SymbolicProof) : Bool :=
  ((w.accepts 0).any fun accept => accept.stage.proved) && !w.relayed.isEmpty &&
    ((w.links 0).any fun link => link.stage = .prepared phoneKeys) &&
    decide (phoneKeys.mac .accepted desk.groupKey.bytes ∈ w.sent) &&
    (w.recoveries 0).any fun recovery =>
      attested w (.recovered 0 (deskAnswer desk.groupKey) sampleMutation) &&
        (recovery.recovered sampleDevices (deskAnswer desk.groupKey)).toOption = some desk.groupKey

def keeping (w : Pairings SymbolicProof) (event : PairingEvent SymbolicProof) : Bool :=
  copies w event && attested w event && keyKept w event

theorem keeping_keeping {w : Pairings SymbolicProof} {event : PairingEvent SymbolicProof}
    (checked : keeping w event = true) : sampleKeeping w event := by
  simp only [keeping, Bool.and_eq_true] at checked
  exact ⟨copies_overheard _ checked.1.1, attested_authentic checked.1.2, keyKept_kept checked.2⟩

theorem askDesk_runs : ((Transition.run (fun w event =>
    if keeping w event then Pairings.step sampleDevices w event else none) claimedWorld
    (confirmPhone ++ askDesk ++ [.answer 0])).filter phoneAnswered).isSome = true := by
  decide +kernel

def answeredWorld : Pairings SymbolicProof :=
  ((Transition.run (fun w event =>
    if keeping w event then Pairings.step sampleDevices w event else none) claimedWorld
    (confirmPhone ++ askDesk ++ [.answer 0])).filter phoneAnswered).get askDesk_runs

theorem answeredWorld_ran : Transition.run (fun w event =>
      if keeping w event then Pairings.step sampleDevices w event else none) claimedWorld
      (confirmPhone ++ askDesk ++ [.answer 0]) = some answeredWorld ∧
    phoneAnswered answeredWorld = true :=
  Option.filter_eq_some_iff.mp (Option.some_get askDesk_runs).symm

theorem answeredWorld_reached : Transition.Reaches (Pairings.step sampleDevices) sampleKeeping
    (Pairings.start sampleDevices) answeredWorld := by
  refine ((claimedWorld_reached fun _ _ => False).mono ?_).trans
    ((Transition.reaches_guarded answeredWorld_ran.1).mono fun _ _ => keeping_keeping)
  intro w event allowed
  exact ⟨allowed.1, authentic_apart allowed.2, kept_apart allowed.2⟩

/-- Each of the four, while the phone recovers from the desk. -/
theorem pairings_released_phone :
    (∃ accept joiner, answeredWorld.accepts 0 = some accept ∧
      Pairings.HadPrepared sampleDevices sampleKeeping answeredWorld joiner
        (Pairings.party sampleDevices accept.node accept.invitation.invitationId)) ∧
    (∃ entry joiner prepared, entry ∈ answeredWorld.relayed ∧
      prepared.fingerprint = entry.server ∧
      Pairings.HadPrepared sampleDevices sampleKeeping answeredWorld joiner prepared) ∧
    (∃ link inviter, answeredWorld.links 0 = some link ∧
      Pairings.HadEnrolled sampleDevices sampleKeeping answeredWorld inviter
        (Pairings.party sampleDevices link.node link.invitation.invitationId)
        desk.groupKey.bytes) ∧
    ∃ recovery inviter outcome, answeredWorld.recoveries 0 = some recovery ∧
      Pairings.Names sampleDevices outcome recovery.node ∧
      Pairings.HadEnrolled sampleDevices sampleKeeping answeredWorld inviter outcome
        desk.groupKey.bytes := by
  obtain ⟨inviter, answer, joiner, recovering⟩ :=
    sampleDevices.pairings_released sampleDevices_distinct answeredWorld_reached
  have checked := answeredWorld_ran.2
  simp only [phoneAnswered, Bool.and_eq_true, Option.any_eq_true, decide_eq_true_eq,
    Bool.not_eq_true', List.isEmpty_eq_false_iff_exists_mem] at checked
  obtain ⟨⟨⟨⟨⟨accept, accepting, proved⟩, entry, listed⟩, link, linking, stage⟩, sent⟩, recovery,
    found, relayed, read⟩ := checked
  have kept : ∀ {event : PairingEvent SymbolicProof}, copies answeredWorld event = true →
      attested answeredWorld event = true → keyKept answeredWorld event = true →
      sampleKeeping answeredWorld event := by
    intro event copied attested same
    exact keeping_keeping (by simp [keeping, copied, attested, same])
  refine ⟨?_, ?_, ?_, ?_⟩
  · obtain ⟨run, there, _, _, _, _, prepared⟩ := inviter 0 accept accepting proved id
    exact ⟨accept, _, accepting, prepared⟩
  · obtain ⟨node, outcome, server, _, _, behind⟩ := answer entry listed
    obtain ⟨asking, prepared, _, had, _, pinned, _⟩ := behind fun _ _ _ => id
    exact ⟨entry, asking, prepared, listed, pinned.trans server.symm, had⟩
  · obtain ⟨run, there, _, _, _, enrolled⟩ := joiner 0 desk.groupKey.bytes
      (phoneKeys.mac .accepted desk.groupKey.bytes) 1005 sampleMutation link phoneKeys
      (kept (by simp [copies, PairingEvent.dialed, PairingEvent.claimed, PairingEvent.tags, sent])
        rfl rfl) linking stage (by simp [Confirmations.verify]) id
    exact ⟨link, there.node, linking, enrolled⟩
  · have answered : recovery.recovered sampleDevices (deskAnswer desk.groupKey) =
        .ok desk.groupKey := by
      cases result : recovery.recovered sampleDevices (deskAnswer desk.groupKey) with
      | error error => simp [result, Except.toOption] at read
      | ok key => simpa [result, Except.toOption] using read
    obtain ⟨node, outcome, _, names, _, enrolled⟩ := recovering 0 (deskAnswer desk.groupKey)
      sampleMutation recovery desk.groupKey (kept rfl relayed rfl) found answered fun _ _ _ => id
    exact ⟨recovery, node, outcome, found, names, enrolled⟩

def tabletKey : AppKey := (sampleDevices.member "tablet").groupKey

def tabletIdentity : Identity := (sampleDevices.member "tablet").identity

def tabletInvitation : SessionInvitation where
  invitation := {
    version := pairingVersion
    invitationId := secondId.text
    inviterFingerprint := sampleDevices.fingerprint "tablet"
    metadata := sampleMetadata
    expiresAt := 1120
    secret := otherSecret }
  identity := tabletIdentity
  addresses := []

def greetingTablet : PairHello :=
  { deskGreeting with serverFingerprint := sampleDevices.fingerprint "tablet" }

def tabletKeys : Confirmations :=
  { deskKeys with
    transcript := {
      hello := greetingTablet
      serverIdentity := tabletIdentity
      serverMetadata := sampleMetadata
      serverPake := otherPake 66 } }

/-- The desk removes the phone and joins the group of the tablet. -/
def joinTablet : List (PairingEvent SymbolicProof) :=
  [.session "desk" (sampleCall (.remove "phone" secondId)),
    .session "tablet" (sampleCall .start),
    .invite "tablet" 1000 1000 secondId.text otherSecret (120 * 10 ^ 9),
    .connect 1 "desk" tabletInvitation false (sampleDevices.fingerprint "tablet") (otherPake 65)
      1006,
    .accept 1 "tablet" greetingTablet (sampleDevices.fingerprint "desk") (otherPake 66) 1006,
    .challenge 1 {
      identity := tabletIdentity
      metadata := sampleMetadata
      pake := otherPake 66
      confirmation := tabletKeys.mac .server [] },
    .confirm 1 (tabletKeys.mac .client []) 1007,
    .ready 1 (tabletKeys.mac .ready []) 1008 sampleMutation,
    .prove 1 (tabletKeys.mac .prepared []),
    .key 1,
    .enroll 1 1009 sampleMutation,
    .accepted 1 tabletKey.bytes (tabletKeys.mac .accepted tabletKey.bytes) 1010 sampleMutation]

def answerLate : List (PairingEvent SymbolicProof) :=
  inviteOne ++ [phoneDials, deskClaims] ++ confirmPhone ++ askDesk ++ joinTablet ++
    [.answer 0, .recovered 0 (deskAnswer tabletKey) sampleMutation]

/-- The phone's enrolment is not at the desk under the key of the tablet. -/
def Unenrolled (w : Pairings SymbolicProof) : Prop :=
  ∀ (view : Contents SymbolicProof) (job : Enrollment), (w.nodes "desk").Shows view →
    view.enrollments[sampleId.text]? = some job → view.groupKey ≠ tabletKey.bytes

def unenrolled (w : Pairings SymbolicProof) : Bool :=
  [w.envelope "desk", (w.nodes "desk").durable].all fun view =>
    (view.enrollments[sampleId.text]?).all fun _ => view.groupKey ≠ tabletKey.bytes

theorem unenrolled_unenrolled {w : Pairings SymbolicProof} (checked : unenrolled w = true) :
    Unenrolled w := by
  intro view job shows found
  simp only [unenrolled, List.all_cons, List.all_nil, Bool.and_true, Bool.and_eq_true,
    Option.all_eq_true, decide_eq_true_eq] at checked
  rcases shows with rfl | rfl
  · exact checked.1 job found
  · exact checked.2 job found

def overtaking (w : Pairings SymbolicProof) (event : PairingEvent SymbolicProof) : Bool :=
  event.tags.all (· ∈ w.sent) && attested w event && unenrolled w

/-- The desk finds the phone's enrolment, and answers when it has removed the phone and joined the
tablet. The phone commits the key of the tablet, which the desk never enrolled it under. -/
theorem recovered_other_key : ∃ w,
    Transition.Reaches (Pairings.step sampleDevices) (fun w event =>
      Pairings.Overheard (fun _ _ => False) w event ∧ Pairings.Authentic sampleDevices w event ∧
        Unenrolled w) (Pairings.start sampleDevices) w ∧
    Unenrolled w ∧ ∃ recovery, w.recoveries 0 = some recovery ∧ recovery.node = "phone" ∧
      recovery.previous = Pairings.party sampleDevices "desk" sampleId.text ∧
      recovery.committed = some tabletKey := by
  have runs : (Transition.run (fun w event =>
      if overtaking w event then Pairings.step sampleDevices w event else none)
      (Pairings.start sampleDevices) answerLate).any (fun w => unenrolled w &&
        (w.recoveries 0).any fun recovery => recovery.node = "phone" &&
          recovery.previous = Pairings.party sampleDevices "desk" sampleId.text &&
          recovery.committed = some tabletKey) = true := by
    decide +kernel
  simp only [Option.any_eq_true, Bool.and_eq_true, decide_eq_true_eq] at runs
  obtain ⟨w, ran, apart, recovery, found, ⟨here, previous⟩, committed⟩ := runs
  have fresh := Pairings.fresh_run [] [] (.start sampleDevices)
    (by simp [Pairings.start]) (by simp [Pairings.start]) (by decide) (by decide) ran
  refine ⟨w, fresh.mono fun w event permitted => ?_, unenrolled_unenrolled apart, recovery, found,
    here, previous, committed⟩
  obtain ⟨checked, fresh⟩ := permitted
  simp only [overtaking, Bool.and_eq_true, List.all_eq_true, decide_eq_true_eq] at checked
  exact ⟨⟨fun _ _ _ tag member _ => checked.1.1 tag member, fresh⟩,
    attested_authentic checked.1.2, unenrolled_unenrolled checked.2⟩

end Sample

end LibreSync.Managed
