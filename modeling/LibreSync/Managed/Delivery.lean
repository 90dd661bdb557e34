import LibreSync.Managed.ClockRange

/-! The stored and applied receipts that a session keeps for one peer over a run. -/

namespace LibreSync.Managed

section Receipts

variable {Proof : Type} [ReceiptMac Proof]

def Own (epoch : String) (receipt : ManagedReceipt Proof) : Prop :=
  receipt = default ∨ receipt.epoch = epoch

theorem Own.raise {epoch : String} {held receipt : ManagedReceipt Proof} (own : Own epoch held)
    (same : receipt.epoch = epoch) :
    Own epoch (raise held receipt) ∧
      (raise held receipt).sequence = max held.sequence receipt.sequence := by
  simp only [Managed.raise]
  split
  · rename_i later
    refine ⟨Or.inr same, ?_⟩
    rcases later with other | later
    · rcases own with rfl | here
      · exact (Nat.zero_max _).symm
      · exact absurd (here.trans same.symm) other
    · exact (max_eq_right later.le).symm
  · rename_i covered
    simp only [not_or, not_not, not_lt] at covered
    exact ⟨own, (max_eq_left covered.2).symm⟩

structure Delivered (e : Contents Proof) (peer : Peer Proof) : Prop where
  stored : Own e.epoch peer.stored
  applied : Own e.epoch peer.applied
  ordered : peer.applied.sequence ≤ peer.stored.sequence
  bounded : peer.stored.sequence ≤ e.revision

end Receipts

section Forward

variable {Proof : Type}

structure Forward (before after : Peer Proof) : Prop where
  stored : before.stored.sequence ≤ after.stored.sequence
  applied : before.applied.sequence ≤ after.applied.sequence

theorem Forward.refl (peer : Peer Proof) : Forward peer peer := ⟨le_rfl, le_rfl⟩

theorem Forward.trans {first second third : Peer Proof} (earlier : Forward first second)
    (later : Forward second third) : Forward first third :=
  ⟨earlier.stored.trans later.stored, earlier.applied.trans later.applied⟩

end Forward

section Receipts

variable {Proof : Type} [ReceiptMac Proof]

variable {e after : Contents Proof} {peer : Peer Proof} {receipt : ManagedReceipt Proof}

theorem Delivered.default {outcome : SecurePairingOutcome} {incarnation : String}
    {addresses : List String} : Delivered e (.enrolled outcome incarnation addresses) :=
  ⟨Or.inl rfl, Or.inl rfl, le_rfl, Nat.zero_le _⟩

theorem Delivered.prove (delivered : Delivered e peer) (own : receipt.epoch = e.epoch)
    (past : receipt.sequence ≤ e.revision) :
    Delivered e (peer.prove receipt) ∧ Forward peer (peer.prove receipt) := by
  obtain ⟨stored, storedSequence⟩ := delivered.stored.raise own
  obtain ⟨applied, appliedSequence⟩ := delivered.applied.raise own
  have ordered := delivered.ordered
  have bounded := delivered.bounded
  refine ⟨⟨stored, applied, ?_, ?_⟩, ?_, ?_⟩
  · simp only [Peer.prove, storedSequence, appliedSequence]
    omega
  · simp only [Peer.prove, storedSequence]
    omega
  · simp only [Peer.prove, storedSequence]
    omega
  · simp only [Peer.prove, appliedSequence]
    omega

/-- An acknowledgement keeps the order of the receipts. The applied one moves back if the
acknowledged checkpoint is older. -/
theorem Delivered.deliver (delivered : Delivered e peer) (own : receipt.epoch = e.epoch)
    (past : receipt.sequence ≤ e.revision) (disposition : AckDisposition) :
    Delivered e (peer.deliver receipt disposition) ∧
      ((disposition = .applied → peer.applied.sequence ≤ receipt.sequence) →
        Forward peer (peer.deliver receipt disposition)) := by
  obtain ⟨stored, storedSequence⟩ := delivered.stored.raise own
  have ordered := delivered.ordered
  have bounded := delivered.bounded
  have forward : peer.stored.sequence ≤ (peer.deliver receipt disposition).stored.sequence := by
    simp only [Peer.deliver, storedSequence]
    omega
  cases disposition with
  | stored =>
      refine ⟨⟨stored, delivered.applied, ?_, ?_⟩, fun _ => ⟨forward, le_rfl⟩⟩
      · exact ordered.trans forward
      · simp only [Peer.deliver, storedSequence]
        omega
  | applied =>
      refine ⟨⟨stored, Or.inr own, ?_, ?_⟩, fun later => ⟨forward, later rfl⟩⟩
      · simp only [Peer.deliver, storedSequence, if_true]
        omega
      · simp only [Peer.deliver, storedSequence]
        omega

theorem Delivered.mono (delivered : Delivered e peer) (epoch : after.epoch = e.epoch)
    (revision : e.revision ≤ after.revision) : Delivered after peer where
  stored := epoch ▸ delivered.stored
  applied := epoch ▸ delivered.applied
  ordered := delivered.ordered
  bounded := delivered.bounded.trans revision

variable [DecidableEq Proof] {inner : Inner Proof} {id : String} {old new : Peer Proof}
  {call : Call Proof}

theorem Touched.receipts (touched : Touched inner e id old call new)
    (delivered : Delivered e old) : Delivered e new ∧
      ((∀ generation peer batch receipt, call = .acknowledge generation peer batch receipt .applied →
          peer.identity.deviceId = id → old.applied.sequence ≤ receipt.sequence) →
        (∀ handler outcome key incarnation rekeyed,
          call = .commit handler outcome key incarnation rekeyed →
            outcome.identity.deviceId ≠ id) →
        old.identity.deviceId = id → Forward old new) := by
  have same : ∀ {new : Peer Proof} {later apart named : Prop}, new.stored = old.stored →
      new.applied = old.applied →
        Delivered e new ∧ (later → apart → named → Forward old new) := by
    intro new later apart named stored applied
    refine ⟨⟨?_, ?_, ?_, ?_⟩, fun _ _ _ => ⟨?_, ?_⟩⟩
    · exact stored ▸ delivered.stored
    · exact applied ▸ delivered.applied
    · rw [stored, applied]
      exact delivered.ordered
    · rw [stored]
      exact delivered.bounded
    · rw [stored]
    · rw [applied]
  cases touched with
  | proven live verified =>
      obtain ⟨_, _, own, past, _⟩ := verify_ok.mp verified
      obtain ⟨kept, forward⟩ := delivered.prove own past
      exact ⟨⟨kept.stored, kept.applied, kept.ordered, kept.bounded⟩,
        fun _ _ _ => ⟨forward.stored, forward.applied⟩⟩
  | @delivered generation peer batch disposition live verified =>
      obtain ⟨_, _, own, past, _⟩ := verify_ok.mp verified
      obtain ⟨kept, forward⟩ := delivered.deliver own past disposition
      refine ⟨kept, fun acknowledged _ named => forward fun applied => ?_⟩
      subst applied
      refine acknowledged _ _ _ _ rfl ?_
      rw [← live.identity, named]
  | enrolled device =>
      exact ⟨.default, fun _ apart _ => absurd device.symm (apart _ _ _ _ _ rfl)⟩
  | _ =>
      refine same ?_ ?_
      · rfl
      · rfl

end Receipts

section Runs

variable {Proof : Type} [DecidableEq Proof] [ReceiptMac Proof]
  {installation : Installation Proof}

def AllDelivered (installation : Installation Proof) (e : Contents Proof) : Prop :=
  Sound installation e ∧
    ∀ (id : String) (peer : Peer Proof), e.peers[id]? = some peer → Delivered e peer

theorem operate_revision {change : String} {call : Call Proof} {e after : Contents Proof}
    {inner : Inner Proof}
    (operated : operate inner change call e = .ok after) : e.revision ≤ after.revision := by
  cases (operate_data operated).2 with
  | same data => exact data.revision.ge
  | committed merging data => exact merging.framed.revision.trans data.revision.ge

theorem AllDelivered.called {change transaction : String} {call : Call Proof}
    {e candidate final : Contents Proof} (all : AllDelivered installation e)
    (operated : operate installation.inner change call e = .ok candidate)
    (finished : completed installation.inner transaction e candidate = .ok final) :
    AllDelivered installation final := by
  obtain ⟨sound, delivered⟩ := all
  have epoch := (operate_data operated).1.epoch
  have revision := operate_revision operated
  refine ⟨sound.called operated finished, fun id peer found => ?_⟩
  have rest := completed_rest finished
  rw [rest] at found ⊢
  have kept : Delivered e peer := by
    have step := operate_peers operated id
    rw [found] at step
    generalize before : e.peers[id]? = old at step
    cases step with
    | kept touched => exact (touched.receipts (delivered id _ before)).1
    | enrolled => exact .default
  exact kept.mono epoch revision

omit [DecidableEq Proof] in
theorem AllDelivered.launched {before after : Contents Proof}
    (all : AllDelivered installation before)
    (launched : installation.launch before = .ok after) : AllDelivered installation after := by
  refine ⟨all.1.launched launched, fun id peer found => ?_⟩
  obtain ⟨rfl, _⟩ := all.1.launch launched
  exact (all.2 id peer found).mono rfl le_rfl

/-- No pairing enrols the peer a second time, and no `Applied` acknowledgement of it names a
checkpoint older than its applied receipt. -/
def KeepsApplied (id : String) (session : Session Proof) : SessionEvent Proof → Prop
  | .call _ _ _ (.acknowledge _ peer _ receipt .applied) => peer.identity.deviceId = id →
      ∀ current, session.envelope.peers[id]? = some current →
        current.applied.sequence ≤ receipt.sequence
  | .call _ _ _ (.commit _ outcome _ _ _) => outcome.identity.deviceId = id →
      session.envelope.peers[id]? = none
  | _ => True

def ForwardAt (id : String) (before after : Contents Proof) : Prop :=
  ∀ peer, before.peers[id]? = some peer →
    ∃ current, after.peers[id]? = some current ∧ Forward peer current

theorem forwardAt_kept (id : String) :
    installation.Kept (KeepsApplied id) (AllDelivered installation) (ForwardAt id) where
  refl _ peer found := ⟨peer, found, .refl peer⟩
  trans earlier later peer found := by
    obtain ⟨middle, present, first⟩ := earlier peer found
    obtain ⟨current, here, second⟩ := later middle present
    exact ⟨current, here, first.trans second⟩
  called state change transaction saves call candidate final holds permitted _ operated
      finished := by
    refine ⟨holds.memory.called operated finished, fun peer found => ?_⟩
    have step := operate_peers operated id
    rw [completed_rest finished]
    rw [found] at step
    generalize candidate.peers[id]? = new at step
    cases step with
    | kept touched =>
        refine ⟨_, rfl, (touched.receipts (holds.memory.2 id peer found)).2 ?_ ?_
          (holds.memory.1.devices id peer found)⟩
        · rintro generation target batch receipt rfl named
          exact permitted named peer found
        · rintro handler outcome key incarnation rekeyed rfl named
          exact absurd ((permitted named).symm.trans found) (by simp)
  launched before after all launched := by
    refine ⟨all.launched launched, fun peer found => ⟨peer, ?_, .refl peer⟩⟩
    obtain ⟨rfl, _⟩ := all.1.launch launched
    exact found

/-- Over such a run the receipts of the peer only move forward, and in every state they are
ordered below the revision. -/
theorem Installation.receipts_monotone (installation : Installation Proof)
    {id : String} {session final : Session Proof}
    (earlier : Transition.Reaches installation.step (KeepsApplied id)
      (.opened installation.first) session)
    (later : Transition.Reaches installation.step (KeepsApplied id) session final)
    {peer : Peer Proof} (found : session.envelope.peers[id]? = some peer) :
    ∃ current, final.envelope.peers[id]? = some current ∧
      peer.stored.sequence ≤ current.stored.sequence ∧
      peer.applied.sequence ≤ current.applied.sequence ∧
      current.applied.sequence ≤ current.stored.sequence ∧
      current.stored.sequence ≤ final.envelope.revision := by
  have first : AllDelivered installation installation.first := by
    refine ⟨.first _, fun id peer found => ?_⟩
    simp [Installation.first, Installation.created] at found
  have kept : installation.Kept (KeepsApplied id) (AllDelivered installation) (ForwardAt id) :=
    forwardAt_kept id
  obtain ⟨holds, _, pending⟩ := kept.advances earlier (.opened first) (kept.refl _)
  obtain ⟨holds, moved, _⟩ := kept.advances later holds pending
  obtain ⟨current, here, forward⟩ := moved peer found
  have delivered := holds.memory.2 id current here
  exact ⟨current, here, forward.stored, forward.applied, delivered.ordered, delivered.bounded⟩

end Runs

def deskExport (e : Contents SymbolicProof) : ExportBatch SymbolicProof :=
  match exportBatch desk.inner 2 phonePeer default e with
  | .ok (batch, _) => batch
  | .error _ => phoneBatch 0

def phoneApplied (batch : ExportBatch SymbolicProof) : SessionEvent SymbolicProof :=
  sampleCall (.acknowledge 2 phonePeer batch batch.checkpoint .applied)

theorem deskWithPhone_keeps : Transition.Reaches desk.step (KeepsApplied "phone")
    (.opened desk.first) deskWithPhone := by
  refine Transition.reaches_along (Option.some_get enrollPhone_runs).symm ?_
  intro started stepped
  obtain rfl := Option.some.inj stepped
  exact ⟨trivial, fun _ _ => ⟨fun _ => by decide +kernel, trivial⟩⟩

def editedDesk : Session SymbolicProof :=
  (deskWithPhone.perform desk.inner sampleId sampleId {} (.write "records" "note" [] false)).2

def noteApplied : List (SessionEvent SymbolicProof) :=
  [sampleCall (.write "records" "note" [] false), sampleCall (.exportTo 2 phonePeer default),
    phoneApplied (deskExport editedDesk.envelope.toContents)]

theorem noteApplied_runs : (Transition.run desk.step deskWithPhone noteApplied).isSome = true :=
  rfl

def appliedDesk : Session SymbolicProof :=
  (Transition.run desk.step deskWithPhone noteApplied).get noteApplied_runs

def phoneAppliedAt (session : Session SymbolicProof) : Option Nat :=
  (session.envelope.peers["phone"]?).map fun peer => peer.applied.sequence

theorem appliedDesk_keeps :
    Transition.Reaches desk.step (KeepsApplied "phone") deskWithPhone appliedDesk := by
  refine Transition.reaches_along (Option.some_get noteApplied_runs).symm ?_
  intro edited wrote
  obtain rfl := Option.some.inj wrote
  refine ⟨trivial, fun exported sent => ⟨trivial, fun _ _ => ⟨?_, trivial⟩⟩⟩
  obtain rfl := Option.some.inj sent
  intro _ current found
  have early : phoneAppliedAt ((desk.step editedDesk
      (sampleCall (.exportTo 2 phonePeer default))).getD editedDesk) = some 0 := by
    decide +kernel
  have none : current.applied.sequence = 0 :=
    Option.some.inj ((congrArg (Option.map fun peer : Peer SymbolicProof =>
      peer.applied.sequence) found).symm.trans early)
  exact none ▸ Nat.zero_le _

theorem receipts_monotone_applied : ∃ current : Peer SymbolicProof,
    appliedDesk.envelope.peers["phone"]? = some current ∧ current.applied.sequence = 1 ∧
      phonePeer.stored.sequence ≤ current.stored.sequence ∧
      phonePeer.applied.sequence ≤ current.applied.sequence ∧
      current.applied.sequence ≤ current.stored.sequence ∧
      current.stored.sequence ≤ appliedDesk.envelope.revision := by
  have enrolled : deskWithPhone.envelope.peers["phone"]? = some phonePeer := by decide +kernel
  obtain ⟨current, found, forward⟩ :=
    desk.receipts_monotone deskWithPhone_keeps appliedDesk_keeps enrolled
  have moved : phoneAppliedAt appliedDesk = some 1 := by decide +kernel
  refine ⟨current, found, ?_, forward⟩
  exact Option.some.inj ((congrArg (Option.map fun peer : Peer SymbolicProof =>
    peer.applied.sequence) found).symm.trans moved)

/-- The desk exports at two revisions, and the phone acknowledges the later export first. -/
def lateApplied : List (SessionEvent SymbolicProof) :=
  [sampleCall (.exportTo 2 phonePeer default), sampleCall (.write "records" "note" [] false),
    sampleCall (.exportTo 2 phonePeer default),
    phoneApplied (deskExport editedDesk.envelope.toContents)]

theorem lateApplied_runs : (Transition.run desk.step deskWithPhone lateApplied).isSome = true :=
  rfl

theorem lateApplied_moves_back : ∃ session final : Session SymbolicProof,
    Transition.Reaches desk.step (fun _ _ => True) (.opened desk.first) session ∧
      desk.step session (phoneApplied (deskExport deskWithPhone.envelope.toContents)) =
        some final ∧ phoneAppliedAt session = some 1 ∧ phoneAppliedAt final = some 0 := by
  refine ⟨(Transition.run desk.step deskWithPhone lateApplied).get lateApplied_runs, _,
    deskWithPhone_reached.trans
      (Transition.reaches_of_run lateApplied (Option.some_get lateApplied_runs).symm), rfl, ?_, ?_⟩
  · decide +kernel
  · decide +kernel

end LibreSync.Managed
