import LibreSync.Managed.Renewal
import LibreSync.Managed.UpToDate

/-!
Two exchanges with one peer may be in flight at once. A peer that is reported as up to date has
acknowledged everything, unless the acknowledgement of an older batch overtook a newer one's.
-/

namespace LibreSync.Managed

section Peers

variable {Proof : Type}

/-- What a peer marked as up to date has stored is within what it has applied of this epoch. -/
def Peer.Settled (epoch : String) (p : Peer Proof) : Prop :=
  p.state = .upToDate → p.applied.epoch = epoch ∧ p.stored.sequence ≤ p.applied.sequence

/-- An acknowledgement of a batch that is applied finds nothing stored beyond what is applied. -/
def Peer.InTime (p : Peer Proof) (receipt : ManagedReceipt Proof) : Prop :=
  p.pending = none → p.applied.epoch = receipt.epoch → receipt.sequence ≤ p.applied.sequence →
    p.stored.sequence ≤ p.applied.sequence

variable {epoch : String} {held receipt : ManagedReceipt Proof} {p : Peer Proof}

theorem raise_epoch (own : held.epoch = epoch) (same : receipt.epoch = epoch) :
    (raise held receipt).epoch = epoch := by
  rcases raise_cases held receipt with ⟨_, replaced⟩ | ⟨_, _, kept⟩
  · rw [replaced, same]
  · rw [kept, own]

variable [ReceiptMac Proof]

theorem Peer.Settled.prove (settled : p.Settled epoch) (stored : Own epoch p.stored)
    (same : receipt.epoch = epoch) : (p.prove receipt).Settled epoch := by
  intro marked
  obtain ⟨own, within⟩ := settled marked
  refine ⟨raise_epoch own same, ?_⟩
  have applied : Own epoch p.applied := Or.inr own
  simp only [Peer.prove, (stored.raise same).2, (applied.raise same).2]
  exact max_le_max_right _ within

omit [ReceiptMac Proof] in
theorem deliveryState_upToDate (marked : deliveryState p receipt = .upToDate) :
    p.pending = none ∧ p.applied.epoch = receipt.epoch ∧
      receipt.sequence ≤ p.applied.sequence := by
  simp only [deliveryState] at marked
  split at marked
  · simp at marked
  · rename_i reviewed
    split at marked
    · rename_i covered
      exact ⟨Option.not_isSome_iff_eq_none.mp reviewed, covered⟩
    · simp at marked

theorem Peer.Settled.deliver (stored : Own epoch p.stored) (same : receipt.epoch = epoch)
    (inTime : p.InTime receipt) : (p.deliver receipt .stored).Settled epoch := by
  intro marked
  obtain ⟨reviewed, epochs, covered⟩ := deliveryState_upToDate marked
  have overtakes : p.stored.sequence ≤ p.applied.sequence := inTime reviewed epochs covered
  refine ⟨epochs.trans same, ?_⟩
  simp only [Peer.deliver, (stored.raise same).2]
  exact max_le overtakes covered

end Peers

section Worlds

variable {Proof : Type} [DecidableEq Proof] [ReceiptMac Proof] {fleet : Fleet Proof}
  {w after : World Proof} {event : WorldEvent Proof}

/-- Every acknowledgement comes in time for the peer that it is about. -/
def World.InTime (w : World Proof) : WorldEvent Proof → Prop
  | .session node (.call _ _ _ (.acknowledge _ peer _ receipt _)) => ∀ p : Peer Proof,
      (w.nodes node).envelope.peers[peer.identity.deviceId]? = some p → p.InTime receipt
  | _ => True

theorem Proven.own {inner : Inner Proof} {e : Contents Proof} {p : Peer Proof}
    {receipt : ManagedReceipt Proof} (proven : Proven inner e p receipt) : Own e.epoch receipt :=
  proven.imp_right fun verified => (verify_ok.mp verified).2.2.1

theorem Touched.settled {inner : Inner Proof} {e : Contents Proof} {id : String}
    {old new : Peer Proof} {call : Call Proof} (touched : Touched inner e id old call new)
    (settled : old.Settled e.epoch) (named : old.identity.deviceId = id)
    (stored : old.revoked = false → Own e.epoch old.stored)
    (inTime : ∀ generation peer batch receipt disposition,
      call = .acknowledge generation peer batch receipt disposition →
        disposition = .stored ∧ (peer.identity.deviceId = id → old.InTime receipt)) :
    new.Settled e.epoch := by
  cases touched with
  | proven _ verified =>
      obtain ⟨current, _, same, _⟩ := verify_ok.mp verified
      exact settled.prove (stored current) same
  | @delivered generation peer batch disposition live verified =>
      obtain ⟨current, _, same, _⟩ := verify_ok.mp verified
      obtain ⟨rfl, due⟩ := inTime generation peer batch _ disposition rfl
      exact .deliver (stored current) same (due (live.identity ▸ named))
  | staged => exact fun marked => absurd marked (by simp)
  | declined => exact fun marked => absurd marked (by simp)
  | removed => exact fun marked => absurd marked (by simp)
  | paused => exact fun marked => absurd marked (by simp)
  | resumed => exact fun marked => absurd marked (by simp)
  | enrolled => exact fun marked => absurd marked (by simp [Peer.enrolled])
  | @failed error =>
      refine fun marked => absurd marked ?_
      simp only
      split <;> simp
  | _ => exact settled

def AllSettled (fleet : Fleet Proof) (w : World Proof) : Prop :=
  ∀ (id : String) (view : Contents Proof) (peer : String) (p : Peer Proof),
    (w.nodes id).Shows view → view.peers[peer]? = some p → p.Settled (fleet.member id).epoch.text

theorem AllSettled.step (settled : AllSettled fleet w) (held : Held fleet w)
    (inTime : w.InTime event) (moved : World.step fleet w event = some after) :
    AllSettled fleet after := by
  intro id view peer p shows found
  rcases World.shows held.sound moved shows with ⟨old, was, kin⟩ |
    ⟨_, _, _, call, candidate, rfl, delivered, operated, kin⟩
  · rw [kin] at found
    exact settled id old peer p was found
  · rw [kin] at found
    have memory := (held.sound id).memory
    have step := operate_peers operated peer
    rw [found] at step
    generalize before : (w.nodes id).envelope.toContents.peers[peer]? = entry at step
    cases step with
    | enrolled => exact fun marked => absurd marked (by simp [Peer.enrolled])
    | @kept old _ touched =>
        have own := held.authentic id _ (Or.inl rfl) peer old before
        rw [← memory.epoch]
        refine touched.settled (memory.epoch ▸ settled id _ peer old (Or.inl rfl) before)
          (memory.devices peer old before) (fun current => (own current).1.own) ?_
        rintro generation source batch receipt disposition rfl
        simp only [World.delivers, Bool.and_eq_true, decide_eq_true_eq] at delivered
        exact ⟨delivered.1.1, fun here => inTime old (here ▸ before)⟩

theorem AllSettled.run {observed : Observed Proof}
    (reached : Transition.Reaches (Observed.step fleet) (fun observed event =>
      observed.Obtained event ∧ observed.world.InTime event) (.start fleet) observed) :
    AllSettled fleet observed.world :=
  (reached.invariant (motive := fun observed => Held fleet observed.world ∧
      AllSettled fleet observed.world)
    ⟨.start fleet, fun id view peer p shows found => by
      rw [Session.shows_opened shows] at found
      simp [Installation.first, Installation.created] at found⟩
    fun _ _ _ holds permitted moved => by
      obtain ⟨_, ran, rfl⟩ := Option.map_eq_some_iff.mp moved
      exact ⟨holds.1.step ran, holds.2.step holds.1 permitted.2 ran⟩).2

/-- While acknowledgements come in time, a peer that is reported as up to date has acknowledged, by
its application, a receipt of this session that covers every record which did not come from it. -/
theorem Fleet.upToDate_acknowledged (fleet : Fleet Proof)
    (uniform : ∀ id, (fleet.member id).inner.config.Uniform) {observed : Observed Proof}
    (reached : Transition.Reaches (Observed.step fleet) (fun observed event =>
      observed.Obtained event ∧ observed.world.InTime event) (.start fleet) observed)
    {id : String} {status : SessionSnapshot Proof} {shown : PeerSnapshot Proof}
    (reported : (observed.world.nodes id).snapshot (fleet.member id).inner = .ok status)
    (listed : shown ∈ status.peers) (current : shown.state = .upToDate) :
    ∃ receipt : ManagedReceipt Proof,
      { sender := shown.identity.deviceId, receiver := id, message := receipt } ∈ observed.handed ∧
      receipt.epoch = (fleet.member id).epoch.text ∧
      (∃ p, (observed.world.nodes id).envelope.peers[shown.identity.deviceId]? = some p ∧
        verify (fleet.member id).inner (observed.world.nodes id).envelope.toContents p receipt =
          .ok ()) ∧
      ∀ (key : RecordKey) (record : ManagedRecord),
        (observed.world.nodes id).envelope.records[key]? = some record →
        (observed.world.nodes id).envelope.origins[key]? ≠ some shown.identity.deviceId →
          ∃ sequence, (observed.world.nodes id).envelope.sequences[key]? = some sequence ∧
            sequence ≤ receipt.sequence := by
  have backed := Observed.Backed.run reached fun _ _ permitted => permitted.1
  obtain ⟨p, enrolled, marked, unrevoked, _, stored⟩ :=
    (backed.held.sound id).memory.upToDate (uniform id) reported listed current
  obtain ⟨own, within⟩ := AllSettled.run reached id _ _ p (Or.inl rfl) enrolled marked
  have set : p.applied ≠ default := fun none_there =>
    (fleet.member id).epoch.ne_empty (own.symm.trans (congrArg ManagedReceipt.epoch none_there))
  have verified := (backed.held.authentic id _ (Or.inl rfl) _ p enrolled unrevoked).2
  refine ⟨p.applied, (backed.applied id _ _ p (Or.inl rfl) enrolled).resolve_left set, own,
    ⟨p, enrolled, verified.resolve_left set⟩, fun key record found foreign => ?_⟩
  obtain ⟨_, sequence, sequenced, covered⟩ := stored key record found foreign
  exact ⟨sequence, sequenced, covered.trans within⟩

end Worlds

section Sample

def laterKey : RecordKey := recordKey "records" "later"

/-- The later record is written, and its batch is on the way. -/
def laterDelivered : Script :=
  writes "desk" "later" ++ delivers "desk" "phone"

/-- What the desk shows of an up-to-date phone, and the sequence of the later record. -/
def shownLater (observed : Observed SymbolicProof) : Option (PeerSnapshot SymbolicProof × Nat) := do
  let status ← ((observed.world.nodes "desk").snapshot (sampleFleet.member "desk").inner).toOption
  let shown ← status.peers.find? fun shown => shown.state = .upToDate
  let sequence ← (observed.world.nodes "desk").envelope.sequences[laterKey]?
  some (shown, sequence)

theorem shownLater_some {observed : Observed SymbolicProof}
    {shown : PeerSnapshot SymbolicProof} {sequence : Nat}
    (shows : shownLater observed = some (shown, sequence)) :
    ∃ status, (observed.world.nodes "desk").snapshot (sampleFleet.member "desk").inner =
        .ok status ∧ shown ∈ status.peers ∧ shown.state = .upToDate ∧
      (observed.world.nodes "desk").envelope.sequences[laterKey]? = some sequence := by
  simp only [shownLater, Option.bind_eq_bind, Option.bind_eq_some_iff, Option.some.injEq,
    Prod.mk.injEq] at shows
  obtain ⟨status, reported, _, found, _, sequenced, rfl, rfl⟩ := shows
  refine ⟨status, ?_, List.mem_of_find?_eq_some found, ?_, sequenced⟩
  · cases ran : (observed.world.nodes "desk").snapshot (sampleFleet.member "desk").inner with
    | error error => simp [ran, Except.toOption] at reported
    | ok listed =>
        rw [ran] at reported
        rw [Option.some.inj reported]
  · simpa using List.find?_some found

def inTime (w : World SymbolicProof) : WorldEvent SymbolicProof → Bool
  | .session node (.call _ _ _ (.acknowledge _ peer _ receipt _)) =>
      ((w.nodes node).envelope.peers[peer.identity.deviceId]?).all fun p =>
        decide (receipt.sequence ≤ p.applied.sequence → p.stored.sequence ≤ p.applied.sequence)
  | _ => true

theorem inTime_inTime {w : World SymbolicProof} {event : WorldEvent SymbolicProof}
    (checked : inTime w event = true) : w.InTime event := by
  cases event with
  | greet | capture => trivial
  | session node event =>
      cases event with
      | reopen => trivial
      | call change transaction saves call =>
          cases call with
          | acknowledge generation peer batch receipt disposition =>
              intro p found _ _ covered
              simp only [inTime, show (w.nodes node).envelope.peers[peer.identity.deviceId]? =
                some p from found, Option.all_some, decide_eq_true_eq] at checked
              exact checked covered
          | _ => trivial

def ordered (observed : Observed SymbolicProof) (event : WorldEvent SymbolicProof) : Bool :=
  obtains observed event && inTime observed.world event

def laterProcessed : Option (Observed SymbolicProof) :=
  Transition.play (guarded ordered) (.start sampleFleet)
    (noteDelivered ++ answered "desk" "phone" 1 ++ processes "phone" "desk" ++ laterDelivered ++
      processes "phone" "desk" ++ answered "desk" "phone" 2)

theorem upToDate_acknowledged_later : ∃ observed shown sequence receipt,
    laterProcessed = some observed ∧ shownLater observed = some (shown, sequence) ∧
    sequence = 2 ∧ sequence ≤ receipt.sequence ∧
    { sender := shown.identity.deviceId, receiver := "desk", message := receipt } ∈
      observed.handed := by
  have runs : laterProcessed.any (fun observed =>
      (shownLater observed).any (fun shows => shows.2 = 2) &&
      ((observed.world.nodes "desk").envelope.records[laterKey]?).isSome &&
      ((observed.world.nodes "desk").envelope.origins[laterKey]?).isNone) = true := by
    decide +kernel
  simp only [Option.any_eq_true, Bool.and_eq_true, decide_eq_true_eq, Option.isSome_iff_exists,
    Option.isNone_iff_eq_none] at runs
  obtain ⟨observed, ran, ⟨⟨⟨shown, sequence⟩, shows, second⟩, record, found⟩, own⟩ := runs
  have reached : Transition.Reaches (Observed.step sampleFleet) (fun observed event =>
      observed.Obtained event ∧ observed.world.InTime event) (.start sampleFleet) observed := by
    refine (Transition.reaches_of_play ran).mono fun observed event permitted => ?_
    simp only [ordered, Bool.and_eq_true] at permitted
    exact ⟨obtains_obtained permitted.1, inTime_inTime permitted.2⟩
  obtain ⟨_, reported, listed, current, sequenced⟩ := shownLater_some shows
  obtain ⟨receipt, handed, _, _, covers⟩ :=
    sampleFleet.upToDate_acknowledged sampleFleet_uniform reached reported listed current
  obtain ⟨_, same, within⟩ := covers laterKey record found (by simp [own])
  obtain rfl := Option.some.inj (sequenced.symm.trans same)
  exact ⟨observed, shown, _, receipt, ran, shows, second, within, handed⟩

/-- The first acknowledgement is still on the way when the phone processes its batch and answers the
next one. -/
def overtaken : Option (Observed SymbolicProof) :=
  Transition.play (guarded obtains) (.start sampleFleet)
    (noteDelivered ++ processes "phone" "desk" ++ laterDelivered ++ answered "desk" "phone" 2 ++
      answered "desk" "phone" 1)

/-- The phone is shown as up to date, and its application acknowledged nothing that covers the later
record. -/
theorem upToDate_overtaken : ∃ (observed : Observed SymbolicProof)
    (status : SessionSnapshot SymbolicProof) (shown : PeerSnapshot SymbolicProof)
    (record : ManagedRecord) (sequence : Nat),
    Transition.Reaches (Observed.step sampleFleet) Observed.Obtained (.start sampleFleet) observed ∧
    (observed.world.nodes "desk").snapshot (sampleFleet.member "desk").inner = .ok status ∧
    shown ∈ status.peers ∧ shown.state = .upToDate ∧ shown.identity.deviceId = "phone" ∧
    (observed.world.nodes "desk").envelope.records[laterKey]? = some record ∧
    (observed.world.nodes "desk").envelope.origins[laterKey]? = none ∧
    (observed.world.nodes "desk").envelope.sequences[laterKey]? = some sequence ∧
    ∀ sent ∈ observed.handed, sent.message.sequence < sequence := by
  have runs : overtaken.any (fun observed =>
      (shownLater observed).any (fun shows => shows.1.identity.deviceId = "phone" &&
        observed.handed.all fun sent => sent.message.sequence < shows.2) &&
      ((observed.world.nodes "desk").envelope.records[laterKey]?).isSome &&
      ((observed.world.nodes "desk").envelope.origins[laterKey]?).isNone) = true := by
    decide +kernel
  simp only [Option.any_eq_true, Bool.and_eq_true, decide_eq_true_eq, Option.isSome_iff_exists,
    Option.isNone_iff_eq_none, List.all_eq_true] at runs
  obtain ⟨observed, ran, ⟨⟨⟨shown, sequence⟩, shows, named, below⟩, record, found⟩, own⟩ := runs
  obtain ⟨status, reported, listed, current, sequenced⟩ := shownLater_some shows
  refine ⟨observed, status, shown, record, sequence, ?_, reported, listed, current, named, found,
    own, sequenced, below⟩
  exact (Transition.reaches_of_play ran).mono fun _ _ => obtains_obtained

end Sample

end LibreSync.Managed
