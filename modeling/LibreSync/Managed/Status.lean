import LibreSync.Lib.Fallible
import LibreSync.Managed.BatchJson
import LibreSync.Managed.Coverage

/-!
What a session reports of itself. A peer for which nothing is pending has everything, and two
sessions that report nothing pending for each other hold the same records.
-/

namespace LibreSync.Managed

section Reports

variable (Proof : Type)

structure PeerSnapshot where
  identity : Identity
  metadata : DeviceMetadata
  fingerprint : String
  revoked : Bool
  pending : Nat
  stored : ManagedReceipt Proof
  applied : ManagedReceipt Proof
  transmitted : ManagedReceipt Proof
  received : ManagedReceipt Proof
  processed : ManagedReceipt Proof
  state : PeerState
deriving DecidableEq

structure SessionSnapshot where
  identity : Identity
  phase : SessionPhase
  localRevision : Nat
  peers : List (PeerSnapshot Proof)
deriving DecidableEq

end Reports

section Operations

variable {Proof : Type} (inner : Inner Proof)

/-- The records that an export to the peer from its stored receipt would carry. -/
def pending (e : Contents Proof) (p : Peer Proof) : Except Error Nat :=
  (exportRecords inner (selected e p.identity.deviceId p.stored)).map List.length

def shownState (e : Contents Proof) (uncertain : Bool) (count : Nat) (p : Peer Proof) :
    PeerState :=
  if p.revoked ∨ e.phase ≠ .running ∨ uncertain then .paused
  else if p.pending.isSome then .needsMerge
  else if 0 < count ∧ p.state = .upToDate then .waiting
  else p.state

def peerSnapshot (e : Contents Proof) (uncertain : Bool) (p : Peer Proof) :
    Except Error (PeerSnapshot Proof) :=
  (pending inner e p).map fun count => {
    identity := p.identity
    metadata := p.metadata
    fingerprint := p.fingerprint
    revoked := p.revoked
    pending := count
    stored := p.stored
    applied := p.applied
    transmitted := p.transmitted
    received := p.received
    processed := p.processed
    state := shownState e uncertain count p }

def Session.snapshot (session : Session Proof) : Except Error (SessionSnapshot Proof) :=
  let e := session.envelope.toContents
  ((BTreeMap.valueList e.peers).mapM
    (peerSnapshot inner e session.storageUncertain)).map fun peers => {
      identity := e.identity
      phase := if session.storageUncertain then .failed else e.phase
      localRevision := e.localRevision
      peers }

end Operations

section Counts

variable {Proof : Type} {inner : Inner Proof} {e : Contents Proof} {p : Peer Proof}

theorem shownState_upToDate {uncertain : Bool} {count : Nat}
    (shown : shownState e uncertain count p = .upToDate) :
    count = 0 ∧ p.revoked = false ∧ e.phase = .running ∧ uncertain = false ∧
      p.state = .upToDate := by
  simp only [shownState] at shown
  split at shown
  · simp at shown
  · rename_i running
    split at shown
    · simp at shown
    · split at shown
      · simp at shown
      · rename_i waits
        rw [shown] at waits
        simp only [and_true, not_lt, Nat.le_zero] at waits
        simpa [waits, shown] using running

theorem pending_ok {count : Nat} (counted : pending inner e p = .ok count) :
    ∃ records, exportRecords inner (selected e p.identity.deviceId p.stored) = .ok records ∧
      records.length = count :=
  Except.map_ok counted

theorem pending_none (uniform : inner.config.Uniform) (counted : pending inner e p = .ok 0)
    {key : RecordKey} {record : ManagedRecord} (found : e.records[key]? = some record)
    (registered : inner.config.registers record.adapter) :
    p.stored.epoch = e.epoch ∧ ((e.sequences[key]?).getD u64Max ≤ p.stored.sequence ∨
      e.origins[key]? = some p.identity.deviceId) := by
  obtain ⟨records, exported, none⟩ := pending_ok counted
  have unselected : record ∉ selected e p.identity.deviceId p.stored := by
    intro member
    have listed := (exportRecords_ok uniform exported record).mpr ⟨member, registered⟩
    simp [List.length_eq_zero_iff.mp none] at listed
  simp only [mem_selected, not_exists, not_and, not_or, Bool.not_eq_true] at unselected
  obtain ⟨partly, kept⟩ := unselected key found
  simp only [wantsFull, Bool.or_eq_false_iff, decide_eq_false_iff_not, not_not] at partly
  refine ⟨partly.1, ?_⟩
  by_cases within : (e.sequences[key]?).getD u64Max ≤ p.stored.sequence
  · exact Or.inl within
  · exact Or.inr (not_not.mp (kept (not_le.mp within)))

theorem peerSnapshot_ok {uncertain : Bool} {shown : PeerSnapshot Proof}
    (ran : peerSnapshot inner e uncertain p = .ok shown) :
    pending inner e p = .ok shown.pending ∧ shown.identity = p.identity ∧
      shown.revoked = p.revoked ∧ shown.state = shownState e uncertain shown.pending p := by
  obtain ⟨count, counted, rfl⟩ := Except.map_ok ran
  exact ⟨counted, rfl, rfl, rfl⟩

theorem Session.snapshot_ok {session : Session Proof} {status : SessionSnapshot Proof}
    (ran : session.snapshot inner = .ok status) :
    status.phase = (if session.storageUncertain then .failed else session.envelope.phase) ∧
      ∀ shown ∈ status.peers, ∃ (id : String) (p : Peer Proof),
        session.envelope.peers[id]? = some p ∧
        peerSnapshot inner session.envelope.toContents session.storageUncertain p = .ok shown := by
  obtain ⟨peers, mapped, rfl⟩ := Except.map_ok ran
  refine ⟨rfl, fun shown member => ?_⟩
  obtain ⟨p, listed, ran⟩ := Fallible.mapM_source mapped member
  obtain ⟨id, found⟩ := BTreeMap.mem_valueList.mp listed
  exact ⟨id, p, found, ran⟩

theorem Session.snapshot_total {session : Session Proof} (uniform : inner.config.Uniform)
    (keyed : Keyed session.envelope.records) : ∃ status, session.snapshot inner = .ok status := by
  have each : ∀ p ∈ BTreeMap.valueList session.envelope.peers, ∃ shown,
      peerSnapshot inner session.envelope.toContents session.storageUncertain p = .ok shown := by
    intro p _
    have exports : ∃ records, exportRecords inner (selected session.envelope.toContents
        p.identity.deviceId p.stored) = .ok records := by
      refine exportEach_total (fun item member => ?_) (selected_distinct keyed _ _)
      obtain ⟨descriptor, _, same⟩ := uniform item.1 item.2
        (Std.ExtTreeMap.mem_toList_iff_getElem?_eq_some.mp member)
      exact ⟨descriptor, same⟩
    obtain ⟨records, exported⟩ := exports
    simp only [peerSnapshot, pending, exported, Except.map]
    exact ⟨_, rfl⟩
  obtain ⟨peers, mapped⟩ := Fallible.mapM_total each
  simp only [Session.snapshot, mapped, Except.map]
  exact ⟨_, rfl⟩

end Counts

section Worlds

variable {Proof : Type} [DecidableEq Proof] [ReceiptMac Proof] {fleet : Fleet Proof}
  {w : World Proof}

omit [DecidableEq Proof] [ReceiptMac Proof] in
theorem Covering.unpending {id : String} {status : SessionSnapshot Proof}
    {shown : PeerSnapshot Proof} (covering : Covering fleet w)
    (uniform : (fleet.member id).inner.config.Uniform)
    (reported : (w.nodes id).snapshot (fleet.member id).inner = .ok status)
    (listed : shown ∈ status.peers) (none : shown.pending = 0) {key : RecordKey}
    {record : ManagedRecord} (found : (w.nodes id).envelope.records[key]? = some record) :
    Has (w.nodes shown.identity.deviceId).durable record := by
  have sound := (covering.sound id).memory
  obtain ⟨peer, p, enrolled, ran⟩ := (Session.snapshot_ok reported).2 shown listed
  obtain ⟨counted, identity, _, _⟩ := peerSnapshot_ok ran
  rw [none] at counted
  rw [identity]
  obtain ⟨own, stored | origin⟩ := pending_none uniform counted found (sound.registers found)
  · obtain ⟨sequence, sequenced, _⟩ := sound.sequenced key record found
    rw [sequenced] at stored
    have backs := covering.stored id peer _ p (Or.inl rfl) enrolled
    rw [sound.devices peer p enrolled]
    obtain ⟨_, covers⟩ := backs (own.trans sound.epoch)
    exact (covers _ (Or.inl rfl) key record sequence found sequenced stored).resolve_left (by simp)
  · exact covering.origins id _ _ key record (Or.inl rfl) origin found

/-- In every reachable world a session can report, and of every peer that it reports as up to date
or with nothing pending: nothing is pending for the former, and either has all of the session's
records durably, each in that version or in a newer one. -/
theorem Fleet.unpending_delivered (fleet : Fleet Proof)
    (uniform : ∀ id, (fleet.member id).inner.config.Uniform)
    {allowed : World Proof → WorldEvent Proof → Prop}
    (reached : Transition.Reaches (World.step fleet) allowed (World.start fleet) w) (id : String) :
    ∃ status, (w.nodes id).snapshot (fleet.member id).inner = .ok status ∧
      ∀ shown ∈ status.peers,
        (shown.state = .upToDate → shown.pending = 0 ∧ shown.revoked = false ∧
          status.phase = .running) ∧
        (shown.pending = 0 → ∀ (key : RecordKey) (record : ManagedRecord),
          (w.nodes id).envelope.records[key]? = some record →
            ∃ stored, (w.nodes shown.identity.deviceId).durable.records[key]? = some stored ∧
              (stored = record ∨ record.clock < stored.clock)) := by
  have covering := Fleet.covering uniform reached
  have sound := (covering.sound id).memory
  obtain ⟨status, reported⟩ := Session.snapshot_total (uniform id) sound.keyed
  refine ⟨status, reported, fun shown listed => ⟨fun current => ?_, fun none key record found => ?_⟩⟩
  · obtain ⟨phase, peers⟩ := Session.snapshot_ok reported
    obtain ⟨peer, p, _, ran⟩ := peers shown listed
    obtain ⟨_, _, revoked, state⟩ := peerSnapshot_ok ran
    obtain ⟨none, unrevoked, running, certain, _⟩ := shownState_upToDate (state.symm.trans current)
    exact ⟨none, revoked.trans unrevoked, by simp [phase, certain, running]⟩
  · have has := covering.unpending (uniform id) reported listed none found
    rw [Has, sound.keyed key record found] at has
    exact has

omit [DecidableEq Proof] [ReceiptMac Proof] in
theorem Covering.alike {left right : String} {record : ManagedRecord} {key : RecordKey}
    (covering : Covering fleet w) (certain : (w.nodes left).storageUncertain = false)
    (found : (w.nodes left).envelope.records[key]? = some record)
    (here : ∀ (key : RecordKey) (record : ManagedRecord),
      (w.nodes left).envelope.records[key]? = some record → Has (w.nodes right).durable record)
    (there : ∀ (key : RecordKey) (record : ManagedRecord),
      (w.nodes right).durable.records[key]? = some record → Has (w.nodes left).durable record) :
    (w.nodes right).durable.records[key]? = some record := by
  have keyed := (covering.sound left).memory.keyed
  obtain ⟨stored, present, rank⟩ := here key record found
  rcases rank with rfl | newer
  · rwa [keyed key stored found] at present
  · obtain ⟨back, returned, again⟩ := there _ stored present
    rw [(covering.sound right).durable.keyed _ stored present, keyed key record found,
      (covering.sound left).settled.durable certain, found] at returned
    obtain rfl := Option.some.inj returned
    rcases again with rfl | older
    · exact absurd newer (lt_irrefl _)
    · exact absurd (newer.trans older) (lt_irrefl _)

/-- Two sessions that report nothing pending for each other hold the same records, in every
reachable world and however many other sessions they exchanged with. -/
theorem Fleet.settled_alike (fleet : Fleet Proof)
    (uniform : ∀ id, (fleet.member id).inner.config.Uniform)
    {allowed : World Proof → WorldEvent Proof → Prop}
    (reached : Transition.Reaches (World.step fleet) allowed (World.start fleet) w)
    {left right : String} {leftStatus rightStatus : SessionSnapshot Proof}
    (leftReports : (w.nodes left).snapshot (fleet.member left).inner = .ok leftStatus)
    (rightReports : (w.nodes right).snapshot (fleet.member right).inner = .ok rightStatus)
    (leftWorks : leftStatus.phase ≠ .failed) (rightWorks : rightStatus.phase ≠ .failed)
    (toRight : ∃ shown ∈ leftStatus.peers, shown.identity.deviceId = right ∧ shown.pending = 0)
    (toLeft : ∃ shown ∈ rightStatus.peers, shown.identity.deviceId = left ∧ shown.pending = 0) :
    (w.nodes left).envelope.records = (w.nodes right).envelope.records := by
  have covering := Fleet.covering uniform reached
  have certain : ∀ {id : String} {status : SessionSnapshot Proof},
      (w.nodes id).snapshot (fleet.member id).inner = .ok status → status.phase ≠ .failed →
        (w.nodes id).storageUncertain = false ∧
          (w.nodes id).durable.records = (w.nodes id).envelope.records := by
    intro id status reported works
    rw [(Session.snapshot_ok reported).1] at works
    have free : (w.nodes id).storageUncertain = false := by
      by_contra uncertain
      simp [Bool.eq_true_of_not_eq_false uncertain] at works
    exact ⟨free, by rw [(covering.sound id).settled.durable free]⟩
  obtain ⟨leftFree, leftSaved⟩ := certain leftReports leftWorks
  obtain ⟨rightFree, rightSaved⟩ := certain rightReports rightWorks
  obtain ⟨there, listed, rfl, none⟩ := toRight
  obtain ⟨here, shown, back, empty⟩ := toLeft
  have sent := fun (key : RecordKey) (record : ManagedRecord)
      (found : (w.nodes left).envelope.records[key]? = some record) =>
    covering.unpending (uniform left) leftReports listed none found
  have returned := fun (key : RecordKey) (record : ManagedRecord)
      (found : (w.nodes there.identity.deviceId).envelope.records[key]? = some record) =>
    covering.unpending (uniform _) rightReports shown empty found
  rw [back] at returned
  refine Std.ExtTreeMap.ext_getElem? fun key => Option.ext fun record => ?_
  constructor
  · intro found
    have arrived := covering.alike leftFree found sent (by rwa [rightSaved])
    rwa [rightSaved] at arrived
  · intro found
    have arrived := covering.alike rightFree found returned (by rwa [leftSaved])
    rwa [leftSaved] at arrived

end Worlds

section Sample

def settledFor (id other : String) : Bool :=
  ((syncedWorld.nodes id).snapshot (sampleFleet.member id).inner).toOption.any fun status =>
    status.phase ≠ .failed && status.peers.any fun shown =>
      shown.identity.deviceId = other && shown.pending = 0

theorem settledFor_reports (id other : String) (settled : settledFor id other = true) :
    ∃ status, (syncedWorld.nodes id).snapshot (sampleFleet.member id).inner = .ok status ∧
      status.phase ≠ .failed ∧ ∃ shown ∈ status.peers,
        shown.identity.deviceId = other ∧ shown.pending = 0 := by
  simp only [settledFor, Option.any_eq_true, Bool.and_eq_true, List.any_eq_true,
    decide_eq_true_eq] at settled
  obtain ⟨status, reported, works, shown⟩ := settled
  refine ⟨status, ?_, works, shown⟩
  cases ran : (syncedWorld.nodes id).snapshot (sampleFleet.member id).inner with
  | error error => simp [ran, Except.toOption] at reported
  | ok found =>
      rw [ran] at reported
      rw [Option.some.inj reported]

theorem unpending_delivered_note : ∃ stored,
    (syncedWorld.nodes "phone").durable.records[phoneNote.key]? = some stored := by
  obtain ⟨status, reported, delivered⟩ :=
    sampleFleet.unpending_delivered sampleFleet_uniform syncedWorld_reached "desk"
  have ends : settledFor "desk" "phone" = true ∧
      (syncedWorld.nodes "desk").envelope.records[phoneNote.key]?.isSome = true := by
    decide +kernel
  obtain ⟨settled, found⟩ := ends
  obtain ⟨same, again, _, shown, listed, named, none⟩ := settledFor_reports "desk" "phone" settled
  obtain rfl := Except.ok.inj (again.symm.trans reported)
  obtain ⟨record, held⟩ := Option.isSome_iff_exists.mp found
  obtain ⟨stored, present, _⟩ := (delivered shown listed).2 none _ record held
  exact ⟨stored, named ▸ present⟩

theorem settled_alike_note : (syncedWorld.nodes "desk").envelope.records =
    (syncedWorld.nodes "phone").envelope.records := by
  have ends : settledFor "desk" "phone" = true ∧ settledFor "phone" "desk" = true := by
    decide +kernel
  obtain ⟨_, deskReports, deskWorks, toPhone⟩ := settledFor_reports "desk" "phone" ends.1
  obtain ⟨_, phoneReports, phoneWorks, toDesk⟩ := settledFor_reports "phone" "desk" ends.2
  exact sampleFleet.settled_alike sampleFleet_uniform syncedWorld_reached deskReports phoneReports
    deskWorks phoneWorks toPhone toDesk

end Sample

end LibreSync.Managed
