import LibreSync.Managed.PairingAuthority

/-!
Recovery of an interrupted pairing. TLS shows each side the certificate of the other: a joiner takes
a key only from the inviter it had prepared for, and gets it only while its enrolment stands.
-/

namespace LibreSync.Managed

section Standing

variable {Proof : Type} {e : Contents Proof}

structure Standing (e : Contents Proof) (id : String) (peer : Identity) (fingerprint : String) :
    Prop where
  job : ∃ (job : Enrollment), e.enrollments[id]? = some job ∧ job.outcome.identity = peer ∧
    job.outcome.fingerprint = fingerprint
  listed : ∃ (p : Peer Proof), e.peers[peer.deviceId]? = some p ∧ p.revoked = false ∧
    p.fingerprint = fingerprint

theorem recoverSecurePairing_some {handler : Handler} {id : String} {peer : Identity}
    {fingerprint : String} {metadata : DeviceMetadata}
    (found : recoverSecurePairing handler id peer fingerprint e = .ok (some metadata)) :
    Standing e id peer fingerprint := by
  obtain ⟨_, _, same⟩ := Except.map_ok found
  obtain ⟨job, kept, _⟩ := Option.map_eq_some_iff.mp same
  obtain ⟨there, checked⟩ := Option.filter_eq_some_iff.mp kept
  simp only [Bool.and_eq_true, decide_eq_true_eq, Option.any_eq_true, Bool.not_eq_true'] at checked
  obtain ⟨⟨identity, certificate⟩, p, listed, unrevoked, pinned⟩ := checked
  exact ⟨⟨job, there, identity, certificate⟩, p, listed, unrevoked, pinned⟩

theorem acceptRecovery_ok {devices : Devices Proof} {connection : Nat} {node : String}
    {handler : Handler} {id : String} {peer : Identity} {fingerprint : String} {answer : Answer}
    (accepted : acceptRecovery devices e connection node handler id peer fingerprint =
      .ok answer) : Standing e id peer fingerprint ∧ answer = {
        connection
        node
        fingerprint
        invitationId := id
        identity := peer
        closed := false } := by
  simp only [acceptRecovery] at accepted
  split at accepted
  · simp at accepted
  · simp at accepted
  · rename_i found
    split at accepted
    · simp [pairingFail] at accepted
    · split at accepted
      · simp [pairingFail] at accepted
      · exact ⟨recoverSecurePairing_some found, (Except.ok.inj accepted).symm⟩

theorem Recovery.recovered_ok {devices : Devices Proof} {recovery : Recovery}
    {message : PairRecovered} {key : AppKey}
    (read : recovery.recovered devices message = .ok key) :
    message.identity = recovery.previous.identity ∧ message.appKey = key.bytes := by
  simp only [Recovery.recovered] at read
  split at read
  · simp [pairingFail] at read
  · rename_i same
    simp only [not_or, not_not] at same
    exact ⟨same.1, AppKey.fromSlice_ok read⟩

end Standing

namespace Pairings

section Recoveries

variable {Proof : Type} (devices : Devices Proof)

def Asked (w : Pairings Proof) (connection : Nat) (node id : String) (peer : Identity)
    (client : String) : Prop :=
  ∃ recovery, w.recoveries connection = some recovery ∧
    devices.fingerprint recovery.node = client ∧
    recovery.previous.fingerprint = devices.fingerprint node ∧
    recovery.previous.invitationId = id ∧ peer = (devices.member recovery.node).identity

def Owned (fingerprint : String) : Prop := ∃ node, fingerprint = devices.fingerprint node

/-- TLS: what comes under the certificate of a device was sent by it, on that connection. -/
structure Authentic (w : Pairings Proof) (event : PairingEvent Proof) : Prop where
  lookup : ∀ run connection node id peer fingerprint,
    event = .lookup run connection node id peer fingerprint → Owned devices fingerprint →
    Asked devices w connection node id peer fingerprint
  recovered : ∀ run message mutation recovery, event = .recovered run message mutation →
    w.recoveries run = some recovery → Owned devices recovery.previous.fingerprint → {
      connection := run
      server := recovery.previous.fingerprint
      client := devices.fingerprint recovery.node
      message : Relayed } ∈ w.relayed

def Stood (w : Pairings Proof) (node id : String) (peer : Identity) (client : String) : Prop :=
  ∃ looked, (node, looked) ∈ w.seen ∧ Standing looked id peer client

structure TrueAnswer (w : Pairings Proof) (answer : Answer) : Prop where
  stood : Stood w answer.node answer.invitationId answer.identity answer.fingerprint
  asked : Owned devices answer.fingerprint → Asked devices w answer.connection answer.node
    answer.invitationId answer.identity answer.fingerprint

/-- A key that was written is the group key of the node, and went to an enrolled client. -/
def TrueRelayed (w : Pairings Proof) (entry : Relayed) : Prop :=
  ∃ node id peer read, entry.server = devices.fingerprint node ∧
    entry.message.identity = (devices.member node).identity ∧
    Stood w node id peer entry.client ∧
    (node, read) ∈ w.seen ∧ read.groupKey = entry.message.appKey ∧
    (Owned devices entry.client → Asked devices w entry.connection node id peer entry.client)

def TrueRecovery (w : Pairings Proof) (run : Nat) (recovery : Recovery) : Prop :=
  ∀ key, recovery.committed = some key → ∃ message, message.appKey = key.bytes ∧
    message.identity = recovery.previous.identity ∧
    Enrolled w recovery.node { recovery.previous with metadata := message.metadata } key ∧
    (Owned devices recovery.previous.fingerprint → {
      connection := run
      server := recovery.previous.fingerprint
      client := devices.fingerprint recovery.node
      message : Relayed } ∈ w.relayed)

structure Answered (w : Pairings Proof) : Prop where
  answers : ∀ (run : Nat) (answer : Answer), w.answers run = some answer →
    TrueAnswer devices w answer
  relayed : ∀ entry ∈ w.relayed, TrueRelayed devices w entry
  recoveries : ∀ (run : Nat) (recovery : Recovery), w.recoveries run = some recovery →
    TrueRecovery devices w run recovery

structure Continued (w after : Pairings Proof) : Prop where
  recoveries : ∀ (run : Nat) (recovery : Recovery), w.recoveries run = some recovery →
    ∃ later, after.recoveries run = some later ∧ later.node = recovery.node ∧
      later.previous = recovery.previous
  seen : w.seen ⊆ after.seen
  relayed : w.relayed ⊆ after.relayed
  saved : w.saved ⊆ after.saved

variable {devices} {w after : Pairings Proof}

theorem Asked.mono {connection : Nat} {node id : String} {peer : Identity} {client : String}
    (asked : Asked devices w connection node id peer client) (continued : Continued w after) :
    Asked devices after connection node id peer client := by
  obtain ⟨recovery, found, certificate, server, named, identity⟩ := asked
  obtain ⟨later, kept, node, previous⟩ := continued.recoveries _ _ found
  exact ⟨later, kept, node ▸ certificate, previous ▸ server, previous ▸ named, node ▸ identity⟩

theorem Stood.mono {node id : String} {peer : Identity} {client : String}
    (stood : Stood w node id peer client) (continued : Continued w after) :
    Stood after node id peer client := by
  obtain ⟨looked, listed, standing⟩ := stood
  exact ⟨looked, continued.seen listed, standing⟩

theorem TrueAnswer.mono {answer : Answer} (true_ : TrueAnswer devices w answer)
    (continued : Continued w after) : TrueAnswer devices after answer where
  stood := true_.stood.mono continued
  asked owned := (true_.asked owned).mono continued

theorem TrueRelayed.mono {entry : Relayed} (true_ : TrueRelayed devices w entry)
    (continued : Continued w after) : TrueRelayed devices after entry := by
  obtain ⟨node, id, peer, read, server, identity, stood, listed, key, asked⟩ := true_
  exact ⟨node, id, peer, read, server, identity, stood.mono continued, continued.seen listed, key,
    fun owned => (asked owned).mono continued⟩

theorem TrueRecovery.mono {run : Nat} {recovery : Recovery}
    (true_ : TrueRecovery devices w run recovery) (continued : Continued w after) :
    TrueRecovery devices after run recovery := by
  intro key committed
  obtain ⟨message, same, identity, enrolled, relayed⟩ := true_ key committed
  exact ⟨message, same, identity, enrolled.mono continued.saved,
    fun owned => continued.relayed (relayed owned)⟩

theorem Answered.start (devices : Devices Proof) : Answered devices (start devices) where
  answers := by simp [Pairings.start]
  relayed := by simp [Pairings.start]
  recoveries := by simp [Pairings.start]

theorem setAnswer_all {motive : Answer → Prop} {run : Nat} {answer : Answer}
    (others : ∀ query found, w.answers query = some found → motive found) (new : motive answer)
    {query : Nat} {found : Answer}
    (listed : (w.setAnswer run answer).answers query = some found) : motive found := by
  by_cases here : query = run
  · subst here
    obtain rfl : answer = found := by simpa [setAnswer] using listed
    exact new
  · exact others query found (by simpa [setAnswer, here] using listed)

theorem setRecovery_all {motive : Nat → Recovery → Prop} {run : Nat} {recovery : Recovery}
    (others : ∀ query found, w.recoveries query = some found → motive query found)
    (new : motive run recovery) {query : Nat} {found : Recovery}
    (listed : (w.setRecovery run recovery).recoveries query = some found) : motive query found := by
  by_cases here : query = run
  · subst here
    obtain rfl : recovery = found := by simpa [setRecovery] using listed
    exact new
  · exact others query found (by simpa [setRecovery, here] using listed)

theorem Continued.refl (w : Pairings Proof) : Continued w w where
  recoveries _ recovery found := ⟨recovery, found, rfl, rfl⟩
  seen := List.Subset.refl _
  relayed := List.Subset.refl _
  saved := List.Subset.refl _

theorem Continued.setRecovery {next : Pairings Proof} {run : Nat} {recovery : Recovery}
    (continued : Continued w next) (same : ∀ before, w.recoveries run = some before →
      recovery.node = before.node ∧ recovery.previous = before.previous) :
    Continued w (next.setRecovery run recovery) where
  recoveries query before found := by
    by_cases here : query = run
    · subst here
      obtain ⟨node, previous⟩ := same before found
      exact ⟨recovery, by simp [Pairings.setRecovery], node, previous⟩
    · obtain ⟨later, kept, same⟩ := continued.recoveries query before found
      exact ⟨later, by simpa [Pairings.setRecovery, here] using kept, same⟩
  seen := continued.seen
  relayed := continued.relayed
  saved := continued.saved

variable [DecidableEq Proof] [ReceiptMac Proof]

theorem Beside.continued {next : Pairings Proof} {calls : String → Call Proof → Prop}
    (beside : Beside devices calls w next) : Continued w next where
  recoveries _ recovery found := ⟨recovery, beside.recoveries ▸ found, rfl, rfl⟩
  seen := by rw [beside.seen]; exact List.Subset.refl _
  relayed := by rw [beside.relayed]; exact List.Subset.refl _
  saved := beside.saved

theorem Moved.continued {event : PairingEvent Proof} (moved : Moved devices w event after) :
    Continued w after := by
  have still := Continued.refl w
  have same : ∀ {run : Nat} {recovery : Recovery}, w.recoveries run = some recovery →
      ∀ before, w.recoveries run = some before →
        recovery.node = before.node ∧ recovery.previous = before.previous := by
    intro run recovery found before there
    obtain rfl := Option.some.inj (found.symm.trans there)
    exact ⟨rfl, rfl⟩
  cases moved with
  | beside beside => exact beside.continued
  | prepared found stage beside => exact { beside.continued with }
  | unprepared found stage beside => exact { beside.continued with }
  | committed found stage beside => exact { beside.continued with }
  | endedLink found beside => exact { beside.continued with }
  | enrolled found stage beside => exact { beside.continued with }
  | endedAccept found beside => exact { beside.continued with }
  | recovers fresh =>
      exact still.setRecovery fun before found => absurd (fresh.symm.trans found) (by simp)
  | found => exact { still with seen := List.subset_cons_self _ _ }
  | answered =>
      exact { still with
        seen := List.subset_cons_self _ _
        relayed := List.subset_cons_self _ _ }
  | gaveUp found beside =>
      have kept := same found
      exact beside.continued.setRecovery kept
  | recovered found read beside =>
      have kept := same found
      exact beside.continued.setRecovery kept
  | _ => exact { still with }

theorem Answered.moved {event : PairingEvent Proof} (answered : Answered devices w)
    (sound : w.Sound devices) (authentic : Authentic devices w event)
    (moved : Moved devices w event after) : Answered devices after := by
  have continued := moved.continued
  have answers : ∀ run answer, w.answers run = some answer → TrueAnswer devices after answer :=
    fun run answer found => (answered.answers run answer found).mono continued
  have relayed : ∀ entry ∈ w.relayed, TrueRelayed devices after entry :=
    fun entry listed => (answered.relayed entry listed).mono continued
  have recoveries : ∀ run recovery, w.recoveries run = some recovery →
      TrueRecovery devices after run recovery :=
    fun run recovery found => (answered.recoveries run recovery found).mono continued
  have aside : ∀ {next : Pairings Proof} {calls : String → Call Proof → Prop},
      Beside devices calls w next → next.answers = after.answers → next.relayed = after.relayed →
      next.recoveries = after.recoveries → Answered devices after := by
    intro next calls beside sameAnswers sameRelayed sameRecoveries
    exact ⟨sameAnswers ▸ beside.answers ▸ answers, sameRelayed ▸ beside.relayed ▸ relayed,
      sameRecoveries ▸ beside.recoveries ▸ recoveries⟩
  cases moved with
  | beside beside => exact aside beside rfl rfl rfl
  | prepared found stage beside => exact aside beside rfl rfl rfl
  | unprepared found stage beside => exact aside beside rfl rfl rfl
  | committed found stage beside => exact aside beside rfl rfl rfl
  | endedLink found beside => exact aside beside rfl rfl rfl
  | enrolled found stage beside => exact aside beside rfl rfl rfl
  | endedAccept found beside => exact aside beside rfl rfl rfl
  | recovers fresh stored begun =>
      refine ⟨answers, relayed, fun query later listed => setRecovery_all recoveries ?_ listed⟩
      obtain ⟨_, _, rfl⟩ := Except.map_ok begun
      simp [TrueRecovery]
  | @found run connection node id peer fingerprint generation answer fresh accepted =>
      obtain ⟨standing, rfl⟩ := acceptRecovery_ok accepted
      refine ⟨fun query later listed => setAnswer_all answers ⟨?_, fun owned => ?_⟩ listed, relayed,
        recoveries⟩
      · exact ⟨_, List.mem_cons_self, standing⟩
      · exact (authentic.lookup _ _ _ _ _ _ rfl owned).mono continued
  | @refused run answer found =>
      have old := answers run answer found
      have closed : TrueAnswer devices (w.setAnswer run { answer with closed := true })
          { answer with closed := true } := { old with }
      exact ⟨fun query later listed => setAnswer_all answers closed listed, relayed, recoveries⟩
  | @answered run answer key found read =>
      have old := answers run answer found
      refine ⟨fun query later listed => setAnswer_all answers ?_ listed,
        List.forall_mem_cons.mpr ⟨?_, relayed⟩, recoveries⟩
      · exact { old with }
      refine ⟨answer.node, answer.invitationId, answer.identity, w.envelope answer.node, rfl,
        sound.identity answer.node, old.stood, List.mem_cons_self, AppKey.fromSlice_ok read,
        old.asked⟩
  | @gaveUp event run recovery next found beside =>
      have old := recoveries run recovery found
      refine ⟨beside.answers ▸ answers, beside.relayed ▸ relayed, fun query later listed =>
        setRecovery_all (beside.recoveries ▸ recoveries) ?_ listed⟩
      exact old
  | @recovered run message mutation recovery key next found read beside saved =>
      refine ⟨beside.answers ▸ answers, beside.relayed ▸ relayed, fun query later listed =>
        setRecovery_all (beside.recoveries ▸ recoveries) ?_ listed⟩
      obtain ⟨identity, bytes⟩ := Recovery.recovered_ok read
      rintro _ ⟨⟩
      have sent := authentic.recovered run message mutation recovery rfl found
      exact ⟨message, bytes, identity, saved, fun owned => continued.relayed (sent owned)⟩
  | linked => exact ⟨answers, relayed, recoveries⟩
  | challenged => exact ⟨answers, relayed, recoveries⟩
  | begun => exact ⟨answers, relayed, recoveries⟩
  | readied => exact ⟨answers, relayed, recoveries⟩
  | proven => exact ⟨answers, relayed, recoveries⟩
  | keyed => exact ⟨answers, relayed, recoveries⟩

theorem Answered.reached {allowed : Pairings Proof → PairingEvent Proof → Prop}
    (reached : Transition.Reaches (step devices) allowed (Pairings.start devices) w)
    (authentic : ∀ w event, allowed w event → Authentic devices w event) : Answered devices w :=
  (reached.invariant (motive := fun w => Honest devices w ∧ Answered devices w)
    ⟨.start devices, .start devices⟩ fun _ _ _ held allowed stepped =>
      ⟨held.1.step stepped, held.2.moved held.1.sound (authentic _ _ allowed)
        (step_moved held.1.sound stepped)⟩).2

end Recoveries

end Pairings

section Theorems

variable {Proof : Type} [DecidableEq Proof] [ReceiptMac Proof] (devices : Devices Proof)
  {w : Pairings Proof}

/-- A key that leaves a session in a recovery is its group key then, and goes to a certificate whose
enrolment stood when it was looked up. If that is a device's, the device is recovering this very
invitation on this connection. -/
theorem Devices.relayed_enrolled {entry : Relayed}
    (reached : Transition.Reaches (Pairings.step devices) (Pairings.Authentic devices)
      (Pairings.start devices) w)
    (listed : entry ∈ w.relayed) :
    ∃ node id peer read, entry.server = devices.fingerprint node ∧
      w.Stood node id peer entry.client ∧
      (node, read) ∈ w.seen ∧ read.groupKey = entry.message.appKey ∧
      (Pairings.Owned devices entry.client →
        Pairings.Asked devices w entry.connection node id peer entry.client) := by
  obtain ⟨node, id, peer, read, server, _, rest⟩ :=
    (Pairings.Answered.reached reached fun _ _ authentic => authentic).relayed entry listed
  exact ⟨node, id, peer, read, server, rest⟩

/-- A joiner that recovers commits a key for a party that one of its pairings brought in. Unless
that invitation leaked, the party is the inviter, it had enrolled the joiner and not removed it when it
looked, and the key is its group key. -/
theorem Devices.recovered_served {leaked : String → String → Prop} {run : Nat}
    {recovery : Recovery} {key : AppKey}
    (reached : Transition.Reaches (Pairings.step devices) (fun w event =>
      Pairings.Overheard leaked w event ∧ Pairings.Authentic devices w event)
      (Pairings.start devices) w)
    (found : w.recoveries run = some recovery) (committed : recovery.committed = some key) :
    ∃ invitation, w.Sponsored recovery.node invitation recovery.previous.identity
        recovery.previous.fingerprint ∧
      (¬leaked invitation.secret invitation.invitationId → ∃ inviter read metadata,
        recovery.previous.identity = (devices.member inviter).identity ∧
        recovery.previous.fingerprint = devices.fingerprint inviter ∧
        w.Ran inviter invitation ∧
        w.Stood inviter recovery.previous.invitationId (devices.member recovery.node).identity
          (devices.fingerprint recovery.node) ∧
        (inviter, read) ∈ w.seen ∧ read.groupKey = key.bytes ∧
        w.Enrolled recovery.node { recovery.previous with metadata } key) := by
  obtain ⟨invitation, renewed, brought⟩ :=
    (Pairings.Rooted.reached reached).recoveries run recovery found
  refine ⟨invitation, brought.sponsored, fun kept => ?_⟩
  have safe : Pairings.Safe devices invitation.secret invitation.invitationId w :=
    .reached (reached.mono fun _ _ allowed => ⟨allowed.1.1 _ _ kept, allowed.1.2⟩)
  obtain ⟨inviter, party, ran⟩ := brought.other safe
  have identity : recovery.previous.identity = (devices.member inviter).identity :=
    congrArg SecurePairingOutcome.identity party
  have certificate : recovery.previous.fingerprint = devices.fingerprint inviter :=
    congrArg SecurePairingOutcome.fingerprint party
  have answered := Pairings.Answered.reached reached fun _ _ => And.right
  obtain ⟨message, bytes, same, enrolled, sent⟩ :=
    answered.recoveries run recovery found key committed
  obtain ⟨node, id, peer, read, server, origin, stood, listed, groupKey, asked⟩ :=
    answered.relayed _ (sent ⟨inviter, certificate⟩)
  -- A device has one identity, and it names the device.
  obtain rfl : inviter = node := by
    have identities := identity.symm.trans (same.symm.trans origin)
    rw [← devices.named inviter, ← devices.named node, identities]
  obtain ⟨asking, there, _, _, named, owner⟩ := asked ⟨recovery.node, rfl⟩
  obtain rfl := Option.some.inj (found.symm.trans there)
  exact ⟨inviter, read, message.metadata, identity, certificate, ran, named ▸ owner ▸ stood,
    listed, groupKey.trans bytes, enrolled⟩

end Theorems

section Sample

def deskPreparation : Preparation where
  addresses := []
  outcome := Pairings.party sampleDevices "desk" sampleId.text
  generation := 2

def askDesk : List (PairingEvent SymbolicProof) :=
  [.dropLink 0,
    .recover 0 "phone" deskPreparation,
    .lookup 0 0 "desk" sampleId.text phone.identity (sampleDevices.fingerprint "phone")]

def deskAnswer (key : AppKey) : PairRecovered where
  identity := deskOutcome.identity
  metadata := sampleMetadata
  appKey := key.bytes

def recoverPhone : List (PairingEvent SymbolicProof) :=
  askDesk ++ [.answer 0, .recovered 0 (deskAnswer desk.groupKey) sampleMutation]

def attested (w : Pairings SymbolicProof) : PairingEvent SymbolicProof → Bool
  | .lookup _ connection node id peer fingerprint =>
      (w.recoveries connection).any fun recovery =>
        sampleDevices.fingerprint recovery.node = fingerprint &&
          recovery.previous.fingerprint = sampleDevices.fingerprint node &&
          recovery.previous.invitationId = id &&
          peer = (sampleDevices.member recovery.node).identity
  | .recovered run message _ =>
      (w.recoveries run).all fun recovery => {
        connection := run
        server := recovery.previous.fingerprint
        client := sampleDevices.fingerprint recovery.node
        message : Relayed } ∈ w.relayed
  | _ => true

theorem attested_authentic {w : Pairings SymbolicProof} {event : PairingEvent SymbolicProof}
    (checked : attested w event = true) : Pairings.Authentic sampleDevices w event where
  lookup := by
    rintro run connection node id peer fingerprint rfl _
    simp only [attested, Option.any_eq_true, Bool.and_eq_true, decide_eq_true_eq] at checked
    obtain ⟨recovery, found, ⟨⟨client, server⟩, named⟩, identity⟩ := checked
    exact ⟨recovery, found, client, server, named, identity⟩
  recovered := by
    rintro run message mutation recovery rfl found _
    simpa only [attested, found, Option.all_some, decide_eq_true_eq] using checked

theorem authentic_apart {w : Pairings SymbolicProof} {event : PairingEvent SymbolicProof}
    (apart : event.resumes = false) : Pairings.Authentic sampleDevices w event where
  lookup := by
    rintro run connection node id peer fingerprint rfl _
    exact absurd apart (by simp [PairingEvent.resumes])
  recovered := by
    rintro run message mutation recovery rfl found _
    exact absurd apart (by simp [PairingEvent.resumes])

def relaying (w : Pairings SymbolicProof) (event : PairingEvent SymbolicProof) :
    Option (Pairings SymbolicProof) :=
  if copies w event && attested w event then Pairings.step sampleDevices w event else none

def resumed (w : Pairings SymbolicProof) : Bool :=
  ((w.recoveries 0).any fun recovery => recovery.committed = some desk.groupKey) &&
    !w.relayed.isEmpty

theorem recoverPhone_runs : ((Transition.run relaying claimedWorld
    (confirmPhone ++ recoverPhone)).filter resumed).isSome = true := by
  decide +kernel

def recoveredWorld : Pairings SymbolicProof :=
  ((Transition.run relaying claimedWorld (confirmPhone ++ recoverPhone)).filter resumed).get
    recoverPhone_runs

theorem recoveredWorld_ran : Transition.run relaying claimedWorld (confirmPhone ++ recoverPhone) =
    some recoveredWorld ∧ resumed recoveredWorld = true :=
  Option.filter_eq_some_iff.mp (Option.some_get recoverPhone_runs).symm

theorem recoveredWorld_reached (leaked : String → String → Prop) :
    Transition.Reaches (Pairings.step sampleDevices) (fun w event =>
      Pairings.Overheard leaked w event ∧ Pairings.Authentic sampleDevices w event)
      (Pairings.start sampleDevices) recoveredWorld := by
  refine ((claimedWorld_reached leaked).mono ?_).trans
    ((Transition.reaches_guarded recoveredWorld_ran.1).mono ?_)
  · intro w event allowed
    exact ⟨allowed.1, authentic_apart allowed.2⟩
  · intro w event guarded
    simp only [Bool.and_eq_true] at guarded
    exact ⟨copies_overheard leaked guarded.1, attested_authentic guarded.2⟩

theorem recoveredWorld_committed : (∃ recovery, recoveredWorld.recoveries 0 = some recovery ∧
    recovery.committed = some desk.groupKey) ∧ ∃ entry, entry ∈ recoveredWorld.relayed := by
  have checked := recoveredWorld_ran.2
  simp only [resumed, Bool.and_eq_true, Option.any_eq_true, decide_eq_true_eq,
    Bool.not_eq_true', List.isEmpty_eq_false_iff_exists_mem] at checked
  exact checked

theorem relayed_enrolled_desk : ∃ entry node id peer, entry ∈ recoveredWorld.relayed ∧
    entry.server = sampleDevices.fingerprint node ∧
    recoveredWorld.Stood node id peer entry.client := by
  obtain ⟨entry, listed⟩ := recoveredWorld_committed.2
  obtain ⟨node, id, peer, _, server, stood, _⟩ := sampleDevices.relayed_enrolled
    ((recoveredWorld_reached fun _ _ => False).mono fun _ _ => And.right) listed
  exact ⟨entry, node, id, peer, listed, server, stood⟩

theorem recovered_served_phone : ∃ recovery inviter read,
    recoveredWorld.recoveries 0 = some recovery ∧
    recovery.previous.fingerprint = sampleDevices.fingerprint inviter ∧
    (inviter, read) ∈ recoveredWorld.seen ∧ read.groupKey = desk.groupKey.bytes := by
  obtain ⟨recovery, found, committed⟩ := recoveredWorld_committed.1
  obtain ⟨_, _, honest⟩ := sampleDevices.recovered_served
    (recoveredWorld_reached fun _ _ => False) found committed
  obtain ⟨inviter, read, _, _, certificate, _, _, listed, key, _⟩ := honest id
  exact ⟨recovery, inviter, read, found, certificate, listed, key⟩

end Sample

end LibreSync.Managed
