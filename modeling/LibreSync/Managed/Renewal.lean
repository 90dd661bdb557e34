import LibreSync.Managed.Applied

/-!
Removing a peer, enrolling it again or replacing the group key ends the old enrolment for good: no
proof minted for it is accepted later, because every incarnation is drawn once.
-/

namespace LibreSync.Managed

section Draws

variable {Proof : Type} [DecidableEq Proof] [ReceiptMac Proof] {fleet : Fleet Proof}
  {w after : World Proof} {event : WorldEvent Proof}

def WorldEvent.draws (w : World Proof) : WorldEvent Proof → List String
  | .session node (.call _ _ _ call) => call.draws (w.nodes node).envelope.toContents
  | _ => []

/-- `random_id` does not repeat itself. -/
def FreshDraws (w : World Proof) (event : WorldEvent Proof) : Prop :=
  ∀ incarnation ∈ event.draws w, incarnation ∉ w.drawn

theorem Issues.drawn {inner : Inner Proof} {change node : String} {e : Contents Proof}
    {call : Call Proof} (issues : Issues inner change e node call w after) :
    after.drawn = w.drawn := by
  cases issues <;> rfl

theorem World.step_drawn (moved : World.step fleet w event = some after) :
    after.drawn = event.draws w ++ w.drawn := by
  cases event with
  | greet node peer addresses =>
      obtain ⟨_, _, rfl⟩ := Option.map_eq_some_iff.mp moved
      rfl
  | capture node =>
      obtain rfl := Option.some.inj moved
      rfl
  | session node event =>
      cases World.step_session moved with
      | reopened => rfl
      | failed => rfl
      | succeeded _ _ issued => exact issued.drawn

theorem PeerStep.incarnation_from {inner : Inner Proof} {e : Contents Proof} {call : Call Proof}
    {id : String} {p : Peer Proof} (step : PeerStep inner e call id e.peers[id]? (some p)) :
    (∃ old, e.peers[id]? = some old ∧ p.incarnation = old.incarnation) ∨
      p.incarnation ∈ call.draws e := by
  generalize before : e.peers[id]? = entry at step
  cases step with
  | enrolled called =>
      subst called
      exact Or.inr List.mem_cons_self
  | kept touched =>
      cases touched with
      | removed => exact Or.inr List.mem_cons_self
      | enrolled => exact Or.inr List.mem_cons_self
      | rekeyed =>
          refine Or.inr (List.mem_cons_of_mem _ (List.mem_map.mpr ⟨id, ?_, rfl⟩))
          exact Std.ExtTreeMap.mem_keys.mpr (Std.ExtTreeMap.mem_iff_isSome_getElem?.mpr (by simp [before]))
      | _ => exact Or.inl ⟨_, rfl, rfl⟩

def Known (w : World Proof) : Prop :=
  ∀ (id : String) (view : Contents Proof) (peer : String) (p : Peer Proof),
    (w.nodes id).Shows view → view.peers[peer]? = some p → p.incarnation ∈ w.drawn

theorem Known.step (known : Known w) (sound : w.Sound fleet)
    (moved : World.step fleet w event = some after) : Known after := by
  intro id view peer p shows found
  rw [World.step_drawn moved]
  rcases World.shows sound moved shows with ⟨old, was, kin⟩ |
    ⟨_, _, _, call, candidate, rfl, _, operated, kin⟩
  · rw [kin] at found
    exact List.mem_append_right _ (known id old peer p was found)
  · rw [kin] at found
    have step := operate_peers operated peer
    rw [found] at step
    rcases step.incarnation_from with ⟨old, before, same⟩ | drawn
    · rw [same]
      exact List.mem_append_right _ (known id _ peer old (Or.inl rfl) before)
    · exact List.mem_append_left _ drawn

/-- The session's enrolment of the peer is none of those. -/
def Apart (past : List String) (id peer : String) (w : World Proof) : Prop :=
  ∀ (view : Contents Proof) (p : Peer Proof), (w.nodes id).Shows view →
    view.peers[peer]? = some p → p.incarnation ∉ past

theorem Apart.step {past : List String} {id peer : String} (apart : Apart past id peer w)
    (sound : w.Sound fleet) (within : past ⊆ w.drawn) (fresh : FreshDraws w event)
    (moved : World.step fleet w event = some after) : Apart past id peer after := by
  intro view p shows found
  rcases World.shows sound moved shows with ⟨old, was, kin⟩ |
    ⟨_, _, _, call, candidate, rfl, _, operated, kin⟩
  · rw [kin] at found
    exact apart old p was found
  · rw [kin] at found
    have step := operate_peers operated peer
    rw [found] at step
    rcases step.incarnation_from with ⟨old, before, same⟩ | drawn
    · rw [same]
      exact apart _ old (Or.inl rfl) before
    · exact fun before => fresh _ drawn (within before)

omit [DecidableEq Proof] in
theorem enroll_fresh {handler : Handler} {outcome : SecurePairingOutcome} {key : AppKey}
    {incarnations : Incarnations} {e : Contents Proof} (fresh : freshOutcome outcome e = true) :
    ∃ addresses, (enroll handler outcome key incarnations e).peers[outcome.identity.deviceId]? =
      some (.enrolled outcome incarnations.enrolled addresses) := by
  simp only [enroll, BTreeMap.get_insert, if_pos, fresh]
  split
  · exact ⟨_, rfl⟩
  · exact ⟨_, rfl⟩

omit [DecidableEq Proof] in
theorem enroll_rekeyed {handler : Handler} {outcome : SecurePairingOutcome} {key : AppKey}
    {incarnation : RandomId} {rekeyed : String → RandomId} {e : Contents Proof} {id : String}
    {p : Peer Proof} (replaced : e.groupKey ≠ key.bytes)
    (found : (enroll handler outcome key
      { enrolled := incarnation.text, rekeyed := fun id => (rekeyed id).text } e).peers[id]? =
        some p) :
    p.incarnation ∈ (Call.commit handler outcome key incarnation rekeyed).draws e := by
  have others : ∀ {id : String} {p : Peer Proof},
      (Managed.rekeyed key.bytes (fun id => (rekeyed id).text) e)[id]? = some p →
      p.incarnation ∈ (Call.commit handler outcome key incarnation rekeyed).draws e := by
    intro id p found
    rw [Managed.rekeyed, if_pos replaced, Std.ExtTreeMap.getElem?_map] at found
    obtain ⟨old, before, rfl⟩ := Option.map_eq_some_iff.mp found
    refine List.mem_cons_of_mem _ (List.mem_map.mpr ⟨id, ?_, rfl⟩)
    exact Std.ExtTreeMap.mem_keys.mpr
      (Std.ExtTreeMap.mem_iff_isSome_getElem?.mpr (by simp [before]))
  simp only [enroll, BTreeMap.get_insert] at found
  split at found
  · obtain rfl := Option.some.inj found
    split
    · exact List.mem_cons_self
    · rename_i old before
      split
      · exact List.mem_cons_self
      · exact others before
  · exact others found

def Call.retires (e : Contents Proof) (peer : String) (call : Call Proof) : Prop :=
  call.renews e peer ∨ ∃ handler outcome key incarnation rekeyed,
    call = .commit handler outcome key incarnation rekeyed ∧ e.groupKey ≠ key.bytes

theorem Call.renews_draws {inner : Inner Proof} {change peer : String} {call : Call Proof}
    {e candidate : Contents Proof} {p : Peer Proof} (renews : call.renews e peer)
    (operated : operate inner change call e = .ok candidate)
    (found : candidate.peers[peer]? = some p) : p.incarnation ∈ call.draws e := by
  cases call with
  | remove id incarnation =>
      obtain rfl : id = peer := renews
      obtain ⟨reply, ran⟩ := Except.map_snd_ok.mp operated
      obtain ⟨old, _, rfl⟩ := removePeer_ok ran
      rw [Contents.setPeer_peers, if_pos rfl] at found
      obtain rfl := Option.some.inj found
      exact List.mem_cons_self
  | commit handler outcome key incarnation rekeyed =>
      obtain ⟨rfl, fresh⟩ := renews
      obtain ⟨reply, ran⟩ := Except.map_snd_ok.mp operated
      obtain ⟨_, _, _, rfl⟩ := commitSecurePairing_ok ran
      obtain ⟨addresses, entry⟩ := enroll_fresh fresh
      obtain rfl := Option.some.inj (entry.symm.trans found)
      exact List.mem_cons_self
  | _ => exact absurd renews id

theorem Call.retires_draws {inner : Inner Proof} {change peer : String} {call : Call Proof}
    {e candidate : Contents Proof} {p : Peer Proof} (retires : call.retires e peer)
    (operated : operate inner change call e = .ok candidate)
    (found : candidate.peers[peer]? = some p) : p.incarnation ∈ call.draws e := by
  rcases retires with renews | ⟨handler, outcome, key, incarnation, rekeyed, rfl, replaced⟩
  · exact renews_draws renews operated found
  · obtain ⟨reply, ran⟩ := Except.map_snd_ok.mp operated
    obtain ⟨_, _, _, rfl⟩ := commitSecurePairing_ok ran
    exact enroll_rekeyed replaced found

/-- The proof is the session's own, for its enrolment of the peer at that time. -/
def Minted (fleet : Fleet Proof) (w : World Proof) (id peer : String)
    (receipt : ManagedReceipt Proof) : Prop :=
  ∃ view p, (w.nodes id).Shows view ∧ view.peers[peer]? = some p ∧
    receipt.proof = p.mac (fleet.member id).inner receipt.epoch receipt.sequence

omit [DecidableEq Proof] in
theorem minted_set {inner : Inner Proof} {q : Peer Proof} {receipt : ManagedReceipt Proof}
    (proof : receipt.proof = q.mac inner receipt.epoch receipt.sequence) : receipt ≠ default := by
  rintro rfl
  have lengths := congrArg ReceiptMac.length proof
  rw [Peer.mac, ReceiptMac.length_mac] at lengths
  exact absurd (ReceiptMac.length_empty.symm.trans lengths) (by decide)

omit [DecidableEq Proof] in
theorem Minted.ne_default {id peer : String} {receipt : ManagedReceipt Proof}
    (minted : Minted fleet w id peer receipt) : receipt ≠ default := by
  obtain ⟨_, _, _, _, proof⟩ := minted
  exact minted_set proof

theorem World.drawn_kept (reached : Transition.Reaches (World.step fleet) FreshDraws w after) :
    w.drawn ⊆ after.drawn :=
  reached.invariant (motive := fun next => w.drawn ⊆ next.drawn) (List.Subset.refl _)
    fun _ _ _ within _ moved => by
      rw [World.step_drawn moved]
      exact List.subset_append_of_subset_right _ within

theorem Apart.renewed {id peer : String} {attempt : Attempt} {call : Call Proof}
    (sound : w.Sound fleet) (retires : call.retires (w.nodes id).envelope.toContents peer)
    (fresh : FreshDraws w
      (.session id (.call attempt.change attempt.transaction attempt.saves call)))
    (ran : w.attempt fleet id attempt call = some after) : Apart w.drawn id peer after := by
  obtain ⟨candidate, operated, kin⟩ := World.attempt_kin sound ran
  intro view p shows found
  rw [kin view shows] at found
  exact fresh _ (Call.retires_draws retires operated found)

theorem Apart.run {past : List String} {id peer : String} (apart : Apart past id peer w)
    (sound : w.Sound fleet) (within : past ⊆ w.drawn)
    (reached : Transition.Reaches (World.step fleet) FreshDraws w after) :
    Apart past id peer after :=
  (reached.invariant
    (motive := fun w => w.Sound fleet ∧ past ⊆ w.drawn ∧ Apart past id peer w)
    ⟨sound, within, apart⟩ fun _ _ _ holds fresh moved =>
      ⟨holds.1.step moved, by
        rw [World.step_drawn moved]
        exact List.subset_append_of_subset_right _ holds.2.1,
        holds.2.2.step holds.1 holds.2.1 fresh moved⟩).2.2

theorem Known.run
    (history : Transition.Reaches (World.step fleet) FreshDraws (World.start fleet) w) :
    w.Sound fleet ∧ Known w :=
  history.invariant (motive := fun w => w.Sound fleet ∧ Known w)
    ⟨fun _ => .opened (.first _), fun id view peer p shows found => by
      rw [Session.shows_opened shows] at found
      simp [Installation.first, Installation.created] at found⟩
    fun _ _ _ holds _ moved => ⟨holds.1.step moved, holds.2.step holds.1 moved⟩

theorem Apart.since {id peer : String} {renewed : World Proof} {attempt : Attempt}
    {call : Call Proof} (sound : w.Sound fleet)
    (retires : call.retires (w.nodes id).envelope.toContents peer)
    (fresh : FreshDraws w
      (.session id (.call attempt.change attempt.transaction attempt.saves call)))
    (ran : w.attempt fleet id attempt call = some renewed)
    (later : Transition.Reaches (World.step fleet) FreshDraws renewed after) :
    Apart w.drawn id peer after := by
  have moved := (World.attempt_ok ran).1
  have within : w.drawn ⊆ renewed.drawn := by
    rw [World.step_drawn moved]
    exact List.subset_append_right _ _
  exact (Apart.renewed sound retires fresh ran).run (sound.step moved) within later

theorem verify_incarnation {inner : Inner Proof} {view : Contents Proof} {p q : Peer Proof}
    {receipt : ManagedReceipt Proof} (verified : verify inner view p receipt = .ok ())
    (proof : receipt.proof = q.mac inner receipt.epoch receipt.sequence) :
    q.incarnation = p.incarnation := by
  have same := proof.symm.trans (verify_ok.mp verified).2.2.2.2
  exact congrArg ReceiptFields.incarnation (ReceiptMac.mac_injective _ _ _ _ same).2

theorem Minted.refused {id peer : String} {receipt : ManagedReceipt Proof} {past : List String}
    (own : Minted fleet w id peer receipt) (known : Known w) (within : w.drawn ⊆ past)
    (apart : Apart past id peer after) {view : Contents Proof} {p : Peer Proof}
    (shows : (after.nodes id).Shows view) (found : view.peers[peer]? = some p) :
    verify (fleet.member id).inner view p receipt ≠ .ok () := by
  intro verified
  obtain ⟨earlier, q, was, listed, proof⟩ := own
  have renamed := verify_incarnation verified proof
  exact apart view p shows found (renamed ▸ within (known id earlier peer q was listed))

theorem Authentic.without {inner : Inner Proof} {view : Contents Proof} {peer : String}
    {p : Peer Proof} {receipt : ManagedReceipt Proof} (authentic : Authentic inner view)
    (found : view.peers[peer]? = some p) (current : p.revoked = false) (set : receipt ≠ default)
    (refused : verify inner view p receipt ≠ .ok ()) :
    p.stored ≠ receipt ∧ p.applied ≠ receipt := by
  obtain ⟨stored, applied⟩ := authentic peer p found current
  constructor
  · rintro same
    rw [same] at stored
    exact refused (stored.resolve_left set)
  · rintro same
    rw [same] at applied
    exact refused (applied.resolve_left set)

/-- A proof minted for an enrolment that was removed or renewed since, or under a group key that was
replaced since, is refused ever after, and is neither counted as stored nor as applied. -/
theorem Fleet.earlier_proofs_refused (fleet : Fleet Proof) {minted before renewed : World Proof}
    {id peer : String} {attempt : Attempt} {call : Call Proof} {receipt : ManagedReceipt Proof}
    (history : Transition.Reaches (World.step fleet) FreshDraws (World.start fleet) minted)
    (own : Minted fleet minted id peer receipt)
    (since : Transition.Reaches (World.step fleet) FreshDraws minted before)
    (retires : call.retires (before.nodes id).envelope.toContents peer)
    (fresh : FreshDraws before
      (.session id (.call attempt.change attempt.transaction attempt.saves call)))
    (ran : before.attempt fleet id attempt call = some renewed)
    (later : Transition.Reaches (World.step fleet) FreshDraws renewed after)
    {view : Contents Proof} {p : Peer Proof} (shows : (after.nodes id).Shows view)
    (found : view.peers[peer]? = some p) :
    verify (fleet.member id).inner view p receipt ≠ .ok () ∧
      (p.revoked = false → p.stored ≠ receipt ∧ p.applied ≠ receipt) := by
  have sound := (Known.run (history.trans since)).1
  have apart : Apart before.drawn id peer after := .since sound retires fresh ran later
  have refused :=
    own.refused (Known.run history).2 (World.drawn_kept since) apart shows found
  refine ⟨refused, fun current => ?_⟩
  have whole := ((history.trans since).next fresh (World.attempt_ok ran).1).trans later
  exact ((Held.run whole).authentic id view shows).without found current own.ne_default refused

end Draws

section Reports

variable {Proof : Type} [DecidableEq Proof] [ReceiptMac Proof] {fleet : Fleet Proof}
  {observed after : Observed Proof}

/-- Applications hand in what they obtained, and incarnations are drawn fresh. -/
def Observed.Honest (observed : Observed Proof) (event : WorldEvent Proof) : Prop :=
  observed.Obtained event ∧ FreshDraws observed.world event

theorem Observed.world_run
    (reached : Transition.Reaches (Observed.step fleet) Observed.Honest observed after) :
    Transition.Reaches (World.step fleet) FreshDraws observed.world after.world := by
  have follows : ∀ (observed : Observed Proof) event next,
      Observed.step fleet observed event = some next →
      World.step fleet observed.world event = some next.world := by
    intro observed event next moved
    obtain ⟨_, ran, rfl⟩ := Option.map_eq_some_iff.mp moved
    exact ran
  exact reached.project follows fun _ _ honest => honest.2

/-- Receipts tell the truth about the applications: what a session processed of a peer it received,
what it lists as applied at a peer was acknowledged there by an application that was given no less,
and proofs of another enrolment, in particular of one that was renewed since, are not counted. -/
theorem Fleet.receipts_truthful (fleet : Fleet Proof)
    (reached : Transition.Reaches (Observed.step fleet) Observed.Honest (.start fleet) observed)
    {id peer : String} {view : Contents Proof} {p : Peer Proof}
    (shows : (observed.world.nodes id).Shows view) (found : view.peers[peer]? = some p) :
    (p.applied ≠ default →
      { sender := peer, receiver := id, message := p.applied } ∈ observed.handed ∧
      ∃ captured q, (peer, captured) ∈ observed.world.captured ∧ captured.peers[id]? = some q ∧
        q.received.epoch = p.applied.epoch ∧ p.applied.sequence ≤ q.received.sequence) ∧
    (p.processed = default ∨ p.processed.epoch = p.received.epoch ∧
      p.processed.sequence ≤ p.received.sequence) ∧
    (p.revoked = false → ∀ (q : Peer Proof) (receipt : ManagedReceipt Proof),
      receipt.proof = q.mac (fleet.member id).inner receipt.epoch receipt.sequence →
      q.incarnation ≠ p.incarnation → p.stored ≠ receipt ∧ p.applied ≠ receipt) ∧
    (p.revoked = false → ∀ (minted before renewed : Observed Proof) (attempt : Attempt)
      (call : Call Proof) (receipt : ManagedReceipt Proof),
      Transition.Reaches (Observed.step fleet) Observed.Honest (.start fleet) minted →
      Minted fleet minted.world id peer receipt →
      Transition.Reaches (Observed.step fleet) Observed.Honest minted before →
      call.retires (before.world.nodes id).envelope.toContents peer →
      FreshDraws before.world
        (.session id (.call attempt.change attempt.transaction attempt.saves call)) →
      before.world.attempt fleet id attempt call = some renewed.world →
      Transition.Reaches (Observed.step fleet) Observed.Honest renewed observed →
      p.stored ≠ receipt ∧ p.applied ≠ receipt) := by
  have backed := Observed.Backed.run reached fun _ _ honest => honest.1
  have authentic := backed.held.authentic id view shows
  refine ⟨fun set => ?_, ?_, ?_, ?_⟩
  · have handed := (backed.applied id view peer p shows found).resolve_left set
    obtain ⟨captured, q, kept, listed, same⟩ := backed.captured _ handed
    exact ⟨handed, captured, q, kept, listed, congrArg ManagedReceipt.epoch same,
      (congrArg ManagedReceipt.sequence same).ge⟩
  · exact (backed.held.ordered id view peer p shows found).processed.imp_right And.right
  · intro current q receipt proof other
    exact authentic.without found current (minted_set proof) fun verified =>
      other (verify_incarnation verified proof)
  · intro current minted before renewed attempt call receipt history own since retires fresh ran
      later
    have sound := (Known.run ((Observed.world_run history).trans (Observed.world_run since))).1
    have apart : Apart before.world.drawn id peer observed.world :=
      .since sound retires fresh ran (Observed.world_run later)
    have refused := own.refused (Known.run (Observed.world_run history)).2
      (World.drawn_kept (Observed.world_run since)) apart shows found
    exact authentic.without found current own.ne_default refused

end Reports

section Sample

instance (w : World SymbolicProof) (event : WorldEvent SymbolicProof) :
    Decidable (FreshDraws w event) :=
  inferInstanceAs (Decidable (∀ incarnation ∈ event.draws w, incarnation ∉ w.drawn))

def enrollPhoneAgain : Call SymbolicProof :=
  .commit sampleHandler { phone with invitationId := "second" } desk.groupKey secondId
    fun _ => secondId

def pairedOnce : Option (World SymbolicProof) := do
  let started ← World.step sampleFleet (.start sampleFleet) (.session "desk" (sampleCall .start))
  World.step sampleFleet started (.session "desk" (sampleCall
    (.commit sampleHandler phone desk.groupKey sampleId fun _ => sampleId)))

theorem pairedOnce_fresh {w : World SymbolicProof} (ran : pairedOnce = some w) :
    Transition.Reaches (World.step sampleFleet) FreshDraws (.start sampleFleet) w := by
  simp only [pairedOnce, Option.bind_eq_bind, Option.bind_eq_some_iff] at ran
  obtain ⟨started, first, second⟩ := ran
  have unused : started.drawn = [] := World.step_drawn first
  refine (Transition.Reaches.start.next ?_ first).next ?_ second
  · intro incarnation drawn
    simp [WorldEvent.draws, sampleCall, Call.draws] at drawn
  · intro incarnation _
    rw [unused]
    exact List.not_mem_nil

def deskReceipt (w : World SymbolicProof) : Option (ManagedReceipt SymbolicProof) :=
  ((w.nodes "desk").envelope.peers["phone"]?).map
    (mint (sampleFleet.member "desk").inner (w.nodes "desk").envelope.toContents)

theorem earlier_proofs_refused_phone : ∃ paired renewed receipt p,
    pairedOnce = some paired ∧ deskReceipt paired = some receipt ∧
    paired.attempt sampleFleet "desk" sampleAttempt enrollPhoneAgain = some renewed ∧
    (renewed.nodes "desk").envelope.peers["phone"]? = some p ∧ p.revoked = false ∧
    verify (sampleFleet.member "desk").inner (renewed.nodes "desk").envelope.toContents p receipt ≠
      .ok () ∧ p.stored ≠ receipt := by
  have runs : pairedOnce.any (fun paired => (deskReceipt paired).any fun _ =>
      decide (freshOutcome { phone with invitationId := "second" }
        (paired.nodes "desk").envelope.toContents = true) &&
      decide (FreshDraws paired (.session "desk" (.call sampleAttempt.change
        sampleAttempt.transaction sampleAttempt.saves enrollPhoneAgain))) &&
      (paired.attempt sampleFleet "desk" sampleAttempt enrollPhoneAgain).any fun renewed =>
      ((renewed.nodes "desk").envelope.peers["phone"]?).any fun p => !p.revoked) = true := by
    decide +kernel
  simp only [Option.any_eq_true, Bool.and_eq_true, Bool.not_eq_true', decide_eq_true_eq] at runs
  obtain ⟨paired, ran, receipt, minted, ⟨outcome, fresh⟩, renewed, again, p, found, current⟩ := runs
  have own : Minted sampleFleet paired "desk" "phone" receipt := by
    obtain ⟨old, listed, rfl⟩ := Option.map_eq_some_iff.mp minted
    exact ⟨_, old, Or.inl rfl, listed, rfl⟩
  have renews : enrollPhoneAgain.renews (paired.nodes "desk").envelope.toContents "phone" :=
    ⟨rfl, outcome⟩
  obtain ⟨refused, apart⟩ := sampleFleet.earlier_proofs_refused (pairedOnce_fresh ran) own .start
    (Or.inl renews) fresh again .start (Or.inl rfl) found
  exact ⟨paired, renewed, receipt, p, ran, minted, again, found, current, refused,
    (apart current).1⟩

def thirdId : RandomId where
  text := "00000000000000000000000000000003"
  sized := rfl

def enrollPhoneAnew : Call SymbolicProof :=
  .commit sampleHandler { phone with invitationId := "third" } desk.groupKey thirdId
    fun _ => thirdId

abbrev Script : Type :=
  List (Observed SymbolicProof → Option (WorldEvent SymbolicProof))

def enrollBoth : Script :=
  [fun _ => some (.session "desk" (sampleCall .start)),
    fun _ => some (.session "phone" (sampleCall .start)),
    fun _ => some (.session "desk" (sampleCall
      (.commit sampleHandler phone desk.groupKey sampleId fun _ => sampleId))),
    fun _ => some (.session "phone" (sampleCall
      (.commit sampleHandler deskOutcome desk.groupKey secondId fun _ => secondId)))]

def writes (node key : String) : Script :=
  [fun _ => some (.session node (sampleCall (.write "records" key [] false)))]

def greets (sender receiver : String) : Script :=
  [fun _ => some (.greet sender receiver []),
    fun observed => observed.world.hellos.head?.map fun sent =>
      .session receiver (sampleCall (.hello 2 sent.message (sender ++ " certificate")))]

def batchTo (receiver : String) (observed : Observed SymbolicProof) :
    Option (ExportBatch SymbolicProof) :=
  (observed.world.batches.find? fun sent => sent.receiver = receiver).map Sent.message

/-- `send_batch` until the peer has answered; its answer is still on the way. -/
def delivers (sender receiver : String) : Script :=
  [fun observed => do
      let target ← (observed.world.nodes sender).envelope.peers[receiver]?
      let cursor ← observed.world.cursors.find? fun sent =>
        sent.sender = receiver && sent.receiver = sender
      some (.session sender (sampleCall (.exportTo 2 target cursor.message))),
    fun observed => do
      let target ← (observed.world.nodes sender).envelope.peers[receiver]?
      let batch ← batchTo receiver observed
      some (.session sender (sampleCall (.transmit 2 target batch))),
    fun observed => do
      let source ← (observed.world.nodes receiver).envelope.peers[sender]?
      let batch ← batchTo receiver observed
      some (.session receiver (sampleCall (.receive 2 sampleId source batch)))]

/-- The answer to the batch with this sequence arrives. -/
def answered (sender receiver : String) (sequence : Nat) : Script :=
  [fun observed => do
    let target ← (observed.world.nodes sender).envelope.peers[receiver]?
    let batch ← observed.world.batches.find? fun sent =>
      sent.receiver = receiver && sent.message.checkpoint.sequence = sequence
    let ack ← observed.world.acks.find? fun sent =>
      sent.receiver = sender && sent.message.sequence = sequence
    some (.session sender (sampleCall
      (.acknowledge 2 target batch.message ack.message .stored)))]

/-- The application takes what its session received, and its session says so to the peer. -/
def processes (node peer : String) : Script :=
  [fun _ => some (.capture node),
    fun observed => do
      let looked ← observed.world.captured.find? fun item => item.1 = node
      let p ← looked.2.peers[peer]?
      some (.session node (sampleCall (.acknowledgeApplied peer p.received)))] ++ greets node peer

def noteDelivered : Script :=
  enrollBoth ++ writes "desk" "note" ++ greets "desk" "phone" ++ greets "phone" "desk" ++
    delivers "desk" "phone"

def obtains (observed : Observed SymbolicProof) : WorldEvent SymbolicProof → Bool
  | .session node (.call _ _ _ (.acknowledgeApplied peer receipt)) =>
      observed.world.captured.any fun item => item.1 = node &&
        (item.2.peers[peer]?).any fun p => p.received = receipt
  | .session _ (.call _ _ _ (.acknowledgeInbox _)) => false
  | _ => true

theorem obtains_obtained {observed : Observed SymbolicProof} {event : WorldEvent SymbolicProof}
    (checked : obtains observed event = true) : observed.Obtained event := by
  cases event with
  | greet | capture => trivial
  | session node event =>
      cases event with
      | reopen => trivial
      | call change transaction saves call =>
          cases call with
          | acknowledgeApplied peer receipt =>
              simp only [obtains, List.any_eq_true, Bool.and_eq_true, Option.any_eq_true,
                decide_eq_true_eq] at checked
              obtain ⟨⟨_, view⟩, kept, rfl, p, found, same⟩ := checked
              exact ⟨view, p, kept, found, same⟩
          | acknowledgeInbox => simp [obtains] at checked
          | _ => trivial

def guarded (guard : Observed SymbolicProof → WorldEvent SymbolicProof → Bool)
    (observed : Observed SymbolicProof) (event : WorldEvent SymbolicProof) :
    Option (Observed SymbolicProof) :=
  if guard observed event then Observed.step sampleFleet observed event else none

def honest (observed : Observed SymbolicProof) (event : WorldEvent SymbolicProof) : Bool :=
  obtains observed event && FreshDraws observed.world event

def noteProcessed : Option (Observed SymbolicProof) :=
  Transition.play (guarded honest) (.start sampleFleet)
    (noteDelivered ++ answered "desk" "phone" 1 ++ processes "phone" "desk")

/-- The note arrives and is processed; then the phone is enrolled anew. -/
theorem receipts_truthful_phone : ∃ told renewed receipt listed p q,
    noteProcessed = some told ∧
    (told.world.nodes "desk").envelope.peers["phone"]? = some p ∧
    { sender := "phone", receiver := "desk", message := p.applied } ∈ told.handed ∧
    (told.world.nodes "phone").envelope.peers["desk"]? = some listed ∧
    listed.processed.sequence ≤ listed.received.sequence ∧
    deskReceipt told.world = some receipt ∧
    told.world.attempt sampleFleet "desk" sampleAttempt enrollPhoneAnew = some renewed ∧
    (renewed.nodes "desk").envelope.peers["phone"]? = some q ∧ q.stored ≠ receipt := by
  have runs : noteProcessed.any (fun told =>
      ((told.world.nodes "desk").envelope.peers["phone"]?).any (fun p =>
        decide (p.applied ≠ default)) &&
      ((told.world.nodes "phone").envelope.peers["desk"]?).any (fun listed =>
        decide (listed.processed ≠ default)) &&
      (deskReceipt told.world).isSome &&
      decide (freshOutcome { phone with invitationId := "third" }
        (told.world.nodes "desk").envelope.toContents = true) &&
      decide (FreshDraws told.world (.session "desk" (.call sampleAttempt.change
        sampleAttempt.transaction sampleAttempt.saves enrollPhoneAnew))) &&
      (told.world.attempt sampleFleet "desk" sampleAttempt enrollPhoneAnew).any fun renewed =>
        ((renewed.nodes "desk").envelope.peers["phone"]?).any fun q => !q.revoked) = true := by
    decide +kernel
  simp only [Option.any_eq_true, Bool.and_eq_true, Bool.not_eq_true', decide_eq_true_eq,
    Option.isSome_iff_exists] at runs
  obtain ⟨told, ran, ⟨⟨⟨⟨⟨p, found, applied⟩, listed, there, processed⟩, receipt, minted⟩, outcome⟩,
    fresh⟩, renewed, again, q, renewedAs, current⟩ := runs
  have reached : Transition.Reaches (Observed.step sampleFleet) Observed.Honest
      (.start sampleFleet) told := by
    refine (Transition.reaches_of_play ran).mono fun observed event permitted => ?_
    simp only [honest, Bool.and_eq_true, decide_eq_true_eq] at permitted
    exact ⟨obtains_obtained permitted.1, permitted.2⟩
  have own : Minted sampleFleet told.world "desk" "phone" receipt := by
    obtain ⟨old, was, rfl⟩ := Option.map_eq_some_iff.mp minted
    exact ⟨_, old, Or.inl rfl, was, rfl⟩
  have permitted : told.Honest (.session "desk" (.call sampleAttempt.change
      sampleAttempt.transaction sampleAttempt.saves enrollPhoneAnew)) := ⟨trivial, fresh⟩
  have moved : Observed.step sampleFleet told (.session "desk" (.call sampleAttempt.change
      sampleAttempt.transaction sampleAttempt.saves enrollPhoneAnew)) =
        some { world := renewed, handed := told.handed } :=
    Option.map_eq_some_iff.mpr ⟨renewed, (World.attempt_ok again).1, rfl⟩
  obtain ⟨acknowledged, _⟩ := sampleFleet.receipts_truthful reached (Or.inl rfl) found
  obtain ⟨_, within, _⟩ := sampleFleet.receipts_truthful reached (Or.inl rfl) there
  obtain ⟨_, _, _, apart⟩ := sampleFleet.receipts_truthful (reached.next permitted moved) (Or.inl rfl)
    renewedAs
  have refused := apart current told told { world := renewed, handed := told.handed } sampleAttempt
    enrollPhoneAnew receipt reached own .start (Or.inl ⟨rfl, outcome⟩) fresh again .start
  exact ⟨told, renewed, receipt, listed, p, q, ran, found, (acknowledged applied).1, there,
    (within.resolve_left processed).2, minted, again, renewedAs, refused.1⟩

end Sample

end LibreSync.Managed
