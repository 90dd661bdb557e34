import LibreSync.Managed.Delivery
import LibreSync.Managed.Status

/-!
A peer that is reported as up to date has applied everything, as long as acknowledgements come
in the order of their batches; a late one overstates.
-/

namespace LibreSync.Managed

section Steps

variable {Proof : Type}

/-- A peer marked as up to date has applied what it has stored. -/
def Peer.Caught (p : Peer Proof) : Prop :=
  p.state = .upToDate → p.applied.epoch = p.stored.epoch ∧ p.stored.sequence ≤ p.applied.sequence

/-- The receipt of an acknowledgement is not older than what its peer has stored already. -/
def InOrder (session : Session Proof) : SessionEvent Proof → Prop
  | .call _ _ _ (.acknowledge _ peer _ receipt _) => ∀ p : Peer Proof,
      session.envelope.peers[peer.identity.deviceId]? = some p → p.stored.epoch = receipt.epoch →
        p.stored.sequence ≤ receipt.sequence
  | _ => True

variable {held receipt : ManagedReceipt Proof} {p : Peer Proof}

theorem raise_within {higher : ManagedReceipt Proof} (epochs : higher.epoch = held.epoch)
    (within : held.sequence ≤ higher.sequence) :
    (raise higher receipt).epoch = (raise held receipt).epoch ∧
      (raise held receipt).sequence ≤ (raise higher receipt).sequence := by
  by_cases same : held.epoch = receipt.epoch
  · simp only [raise, epochs, same, ne_eq, not_true, false_or]
    split
    · rename_i later
      rw [if_pos (within.trans_lt later)]
      exact ⟨rfl, le_rfl⟩
    · split
      · exact ⟨epochs.trans same, by omega⟩
      · exact ⟨epochs, within⟩
  · rw [raise, raise, epochs, if_pos (Or.inl same), if_pos (Or.inl same)]
    exact ⟨rfl, le_rfl⟩

theorem Peer.Caught.prove [DecidableEq Proof] (caught : p.Caught) (processed : ManagedReceipt Proof) :
    (p.prove processed).Caught := by
  intro current
  obtain ⟨epochs, within⟩ := caught current
  exact raise_within epochs within

theorem Peer.deliver_caught {disposition : AckDisposition}
    (ordered : p.stored.epoch = receipt.epoch → p.stored.sequence ≤ receipt.sequence) :
    (p.deliver receipt disposition).Caught := by
  intro current
  have covered : (p.deliver receipt disposition).applied.epoch = receipt.epoch ∧
      receipt.sequence ≤ (p.deliver receipt disposition).applied.sequence := by
    by_contra uncovered
    simp only [Peer.deliver, deliveryState] at current uncovered
    rw [if_neg uncovered] at current
    split at current <;> simp at current
  have kept : (p.deliver receipt disposition).stored = raise p.stored receipt := rfl
  rw [kept, raise]
  split
  · exact covered
  · rename_i stays
    simp only [not_or, not_not, not_lt] at stays
    exact ⟨covered.1.trans stays.1.symm, (ordered stays.1).trans covered.2⟩

variable [DecidableEq Proof] [ReceiptMac Proof]

theorem Touched.caught {inner : Inner Proof} {e : Contents Proof} {id : String}
    {old new : Peer Proof} {call : Call Proof} (touched : Touched inner e id old call new)
    (caught : old.Caught) (named : old.identity.deviceId = id)
    (ordered : ∀ generation peer batch receipt disposition,
      call = .acknowledge generation peer batch receipt disposition →
        peer.identity.deviceId = id → old.stored.epoch = receipt.epoch →
          old.stored.sequence ≤ receipt.sequence) : new.Caught := by
  cases touched with
  | proven => exact caught.prove _
  | @delivered generation peer batch disposition live =>
      refine Peer.deliver_caught (ordered generation peer batch _ disposition rfl ?_)
      rw [← live.identity]
      exact named
  | staged => exact fun current => absurd current (by simp)
  | declined => exact fun current => absurd current (by simp)
  | removed => exact fun current => absurd current (by simp)
  | paused => exact fun current => absurd current (by simp)
  | resumed => exact fun current => absurd current (by simp)
  | enrolled => exact fun current => absurd current (by simp [Peer.enrolled])
  | @failed error =>
      refine fun current => absurd current ?_
      simp only
      split <;> simp
  | _ => exact caught

end Steps

section Runs

variable {Proof : Type} [DecidableEq Proof] [ReceiptMac Proof]

def AllCaught (installation : Installation Proof) (e : Contents Proof) : Prop :=
  Sound installation e ∧ ∀ (id : String) (p : Peer Proof), e.peers[id]? = some p → p.Caught

theorem Installation.allCaught {installation : Installation Proof} {session : Session Proof}
    (reached : Transition.Reaches installation.step InOrder (.opened installation.first) session) :
    session.Holds (AllCaught installation) := by
  have first : AllCaught installation installation.first := by
    refine ⟨.first _, fun id p found => ?_⟩
    simp [Installation.first, Installation.created] at found
  refine Installation.holds reached (.opened first) ?_ ?_
  · intro state change transaction saves call candidate final holds ordered _ operated finished
    refine ⟨holds.memory.1.called operated finished, fun id p found => ?_⟩
    have step := operate_peers operated id
    rw [completed_rest finished] at found
    rw [show candidate.peers[id]? = some p from found] at step
    generalize memory : state.envelope.peers[id]? = old at step
    cases step with
    | kept touched =>
        refine touched.caught (holds.memory.2 id _ memory) (holds.memory.1.devices id _ memory) ?_
        rintro generation peer batch receipt disposition rfl rfl
        exact ordered _ memory
    | enrolled => exact fun current => absurd current (by simp [Peer.enrolled])
  · intro before after all launched
    obtain ⟨rfl, _⟩ := all.1.launch launched
    exact ⟨all.1.launched launched, all.2⟩

omit [DecidableEq Proof] [ReceiptMac Proof] in
theorem Sound.upToDate {installation : Installation Proof} {session : Session Proof}
    (sound : Sound installation session.envelope.toContents)
    (uniform : installation.inner.config.Uniform) {status : SessionSnapshot Proof}
    (reported : session.snapshot installation.inner = .ok status) {shown : PeerSnapshot Proof}
    (listed : shown ∈ status.peers) (current : shown.state = .upToDate) :
    ∃ p : Peer Proof, session.envelope.peers[shown.identity.deviceId]? = some p ∧
      p.state = .upToDate ∧ p.revoked = false ∧ shown.applied = p.applied ∧
      ∀ (key : RecordKey) (record : ManagedRecord), session.envelope.records[key]? = some record →
        session.envelope.origins[key]? ≠ some shown.identity.deviceId →
          p.stored.epoch = installation.epoch.text ∧
            ∃ sequence, session.envelope.sequences[key]? = some sequence ∧
              sequence ≤ p.stored.sequence := by
  obtain ⟨_, peers⟩ := Session.snapshot_ok reported
  obtain ⟨id, p, enrolled, ran⟩ := peers shown listed
  obtain ⟨count, counted, rfl⟩ := Except.map_ok ran
  obtain ⟨rfl, revoked, _, _, marked⟩ := shownState_upToDate current
  obtain rfl := sound.devices id p enrolled
  refine ⟨p, enrolled, marked, revoked, rfl, fun key record found foreign => ?_⟩
  obtain ⟨own, stored | origin⟩ := pending_none uniform counted found (sound.registers found)
  · obtain ⟨sequence, sequenced, _⟩ := sound.sequenced key record found
    rw [sequenced] at stored
    exact ⟨own.trans sound.epoch, sequence, sequenced, stored⟩
  · exact absurd origin foreign

/-- While acknowledgements come in the order of their batches, a peer that is reported as up to
date has applied every record of the session that did not come from the peer itself. -/
theorem RecordsInstallation.upToDate_applied (installation : RecordsInstallation Proof)
    {session : Session Proof} (reached : Transition.Reaches installation.step InOrder
      (.opened installation.first) session)
    {status : SessionSnapshot Proof} (reported : session.snapshot installation.inner = .ok status)
    {shown : PeerSnapshot Proof} (listed : shown ∈ status.peers)
    (current : shown.state = .upToDate) {key : RecordKey} {record : ManagedRecord}
    (found : session.envelope.records[key]? = some record)
    (foreign : session.envelope.origins[key]? ≠ some shown.identity.deviceId) :
    shown.applied.epoch = installation.epoch.text ∧
      ∃ sequence, session.envelope.sequences[key]? = some sequence ∧
        sequence ≤ shown.applied.sequence := by
  have holds := Installation.allCaught reached
  obtain ⟨p, enrolled, marked, _, applied, stored⟩ :=
    holds.memory.1.upToDate installation.uniform reported listed current
  obtain ⟨own, sequence, sequenced, covered⟩ := stored key record found foreign
  obtain ⟨epochs, within⟩ := holds.memory.2 _ p enrolled marked
  rw [applied]
  exact ⟨epochs.trans own, sequence, sequenced, covered.trans within⟩

end Runs

section Sample

def firstExport : ExportBatch SymbolicProof :=
  deskExport editedDesk.envelope.toContents

def phoneHello : Hello SymbolicProof where
  identity := phone.identity
  metadata := sampleMetadata
  cursor := default
  processed := firstExport.checkpoint
  addresses := []

def acknowledged (batch : ExportBatch SymbolicProof) : SessionEvent SymbolicProof :=
  sampleCall (.acknowledge 2 phonePeer batch batch.checkpoint .stored)

def processedNote : List (SessionEvent SymbolicProof) :=
  [sampleCall (.write "records" "note" [] false), sampleCall (.exportTo 2 phonePeer default),
    sampleCall (.hello 2 phoneHello "phone certificate")]

theorem processedNote_runs :
    (Transition.run desk.step deskWithPhone processedNote).isSome = true :=
  rfl

def processedDesk : Session SymbolicProof :=
  (Transition.run desk.step deskWithPhone processedNote).get processedNote_runs

theorem processedDesk_ordered : Transition.Reaches desk.step InOrder (.opened desk.first)
    processedDesk := by
  have enrolled : Transition.Reaches desk.step InOrder (.opened desk.first) deskWithPhone := by
    refine Transition.reaches_along (Option.some_get enrollPhone_runs).symm ?_
    exact fun _ _ => ⟨trivial, fun _ _ => ⟨trivial, trivial⟩⟩
  refine enrolled.trans (Transition.reaches_along (Option.some_get processedNote_runs).symm ?_)
  exact fun _ _ => ⟨trivial, fun _ _ => ⟨trivial, fun _ _ => ⟨trivial, trivial⟩⟩⟩

def caughtDesk : Session SymbolicProof :=
  (desk.step processedDesk (acknowledged firstExport)).getD processedDesk

def shownApplied (session : Session SymbolicProof) : Option Nat :=
  (session.snapshot desk.inner).toOption.bind fun status =>
    (status.peers.find? fun shown => shown.state = .upToDate).map fun shown =>
      shown.applied.sequence

theorem shownApplied_listed (session : Session SymbolicProof) (sequence : Nat)
    (shows : shownApplied session = some sequence) :
    ∃ status, session.snapshot desk.inner = .ok status ∧ ∃ shown ∈ status.peers,
      shown.state = .upToDate ∧ shown.applied.sequence = sequence := by
  simp only [shownApplied, Option.bind_eq_some_iff, Option.map_eq_some_iff] at shows
  obtain ⟨status, reported, shown, found, applied⟩ := shows
  refine ⟨status, ?_, shown, List.mem_of_find?_eq_some found, ?_, applied⟩
  · cases ran : session.snapshot desk.inner with
    | error error => simp [ran, Except.toOption] at reported
    | ok listed =>
        rw [ran] at reported
        rw [Option.some.inj reported]
  · simpa using List.find?_some found

def noteKey : RecordKey := recordKey "records" "note"

theorem upToDate_applied_note : ∃ sequence, caughtDesk.envelope.sequences[noteKey]? = some sequence ∧
    sequence ≤ 1 := by
  have ordered : InOrder processedDesk (acknowledged firstExport) := by
    intro p found _
    have stored : (processedDesk.envelope.peers["phone"]?).map (fun p => p.stored.sequence) =
        some firstExport.checkpoint.sequence := by
      decide +kernel
    rw [show processedDesk.envelope.peers["phone"]? = some p from found] at stored
    exact (Option.some.inj stored).le
  have moved : desk.step processedDesk (acknowledged firstExport) = some caughtDesk := rfl
  obtain ⟨status, reported, shown, listed, current, applied⟩ :=
    shownApplied_listed caughtDesk 1 (by decide +kernel)
  have held : (caughtDesk.envelope.records[noteKey]?).isSome = true := by
    decide +kernel
  obtain ⟨record, found⟩ := Option.isSome_iff_exists.mp held
  have own : caughtDesk.envelope.origins[noteKey]? = none := by
    decide +kernel
  obtain ⟨_, sequence, sequenced, within⟩ := desk.upToDate_applied
    (processedDesk_ordered.next ordered moved) reported listed current found (by simp [own])
  exact ⟨sequence, sequenced, applied ▸ within⟩

def laterDesk : Session SymbolicProof :=
  (processedDesk.perform desk.inner sampleId sampleId {} (.write "records" "later" [] false)).2

def lateAcknowledgement : List (SessionEvent SymbolicProof) :=
  [sampleCall (.write "records" "later" [] false), sampleCall (.exportTo 2 phonePeer default),
    acknowledged (deskExport laterDesk.envelope.toContents), acknowledged firstExport]

theorem lateAcknowledgement_runs :
    (Transition.run desk.step processedDesk lateAcknowledgement).isSome = true :=
  rfl

/-- The late acknowledgement marks the phone as up to date with a record it has not applied. -/
theorem lateAcknowledgement_overstates : ∃ final : Session SymbolicProof,
    Transition.run desk.step processedDesk lateAcknowledgement = some final ∧
      shownApplied final = some 1 ∧
      final.envelope.sequences[recordKey "records" "later"]? = some 2 ∧
      final.envelope.origins[recordKey "records" "later"]? = none := by
  refine ⟨_, (Option.some_get lateAcknowledgement_runs).symm, ?_, ?_, ?_⟩
  · decide +kernel
  · decide +kernel
  · decide +kernel

end Sample

end LibreSync.Managed
