import LibreSync.Managed.Acknowledge

/-!
What stands behind the receipts of a peer: those it processed it received before, and those counted
as stored or applied at it were minted for the enrolment that stands.
-/

namespace LibreSync.Managed

section Entries

variable {Proof : Type} [DecidableEq Proof] [ReceiptMac Proof]

def Proven (inner : Inner Proof) (view : Contents Proof) (p : Peer Proof)
    (receipt : ManagedReceipt Proof) : Prop :=
  receipt = default ∨ verify inner view p receipt = .ok ()

/-- What the session counts as stored and applied at its unrevoked peers is proven. -/
def Authentic (inner : Inner Proof) (view : Contents Proof) : Prop :=
  ∀ (id : String) (p : Peer Proof), view.peers[id]? = some p → p.revoked = false →
    Proven inner view p p.stored ∧ Proven inner view p p.applied

variable {inner : Inner Proof} {e candidate view : Contents Proof} {p q : Peer Proof}
  {held receipt : ManagedReceipt Proof} {change : String} {call : Call Proof}

theorem Proven.congr (proven : Proven inner e p receipt) (identity : q.identity = p.identity)
    (fingerprint : q.fingerprint = p.fingerprint) (incarnation : q.incarnation = p.incarnation)
    (revoked : q.revoked = p.revoked) (epoch : candidate.epoch = e.epoch)
    (later : e.revision ≤ candidate.revision) : Proven inner candidate q receipt :=
  proven.imp_right fun verified =>
    verify_congr verified identity fingerprint incarnation revoked epoch later

theorem Proven.raise (old : Proven inner view p held) (new : Proven inner view p receipt) :
    Proven inner view p (raise held receipt) := by
  simp only [Managed.raise]
  split
  · exact new
  · exact old

theorem Authentic.kin (authentic : Authentic inner e) (kin : Kin e view) :
    Authentic inner view := by
  intro id p found current
  rw [kin] at found ⊢
  exact authentic id p found current

theorem Authentic.operate (authentic : Authentic inner e)
    (operated : operate inner change call e = .ok candidate) : Authentic inner candidate := by
  intro id p found current
  have epoch := (operate_data operated).1.epoch
  have later := operate_revision_le operated
  have step := operate_peers operated id
  rw [found] at step
  generalize before : e.peers[id]? = entry at step
  cases step with
  | enrolled => exact ⟨Or.inl rfl, Or.inl rfl⟩
  | @kept old _ touched =>
      have kept : p.identity = old.identity → p.fingerprint = old.fingerprint →
          p.incarnation = old.incarnation → p.revoked = old.revoked →
          ∀ {receipt : ManagedReceipt Proof},
            Proven inner e old receipt → Proven inner candidate p receipt :=
        fun identity fingerprint incarnation revoked _ proven =>
          proven.congr identity fingerprint incarnation revoked epoch later
      cases touched with
      | removed => simp at current
      | enrolled => exact ⟨Or.inl rfl, Or.inl rfl⟩
      | rekeyed alone => exact absurd ((alone id old before).symm.trans current) (by simp)
      | proven _ verified =>
          obtain ⟨stored, applied⟩ := authentic id old before current
          have shown : Proven inner e old _ := Or.inr verified
          exact ⟨kept rfl rfl rfl rfl (stored.raise shown),
            kept rfl rfl rfl rfl (applied.raise shown)⟩
      | @delivered _ _ _ disposition _ verified =>
          obtain ⟨stored, applied⟩ := authentic id old before current
          have shown : Proven inner e old _ := Or.inr verified
          refine ⟨kept rfl rfl rfl rfl (stored.raise shown), ?_⟩
          cases disposition with
          | stored => exact kept rfl rfl rfl rfl applied
          | applied => exact kept rfl rfl rfl rfl shown
      | _ =>
          obtain ⟨stored, applied⟩ := authentic id _ before current
          exact ⟨kept rfl rfl rfl rfl stored, kept rfl rfl rfl rfl applied⟩

structure Ordered (epoch : String) (p : Peer Proof) : Prop where
  received : p.received = default ∨ p.received.epoch = epoch
  unconsented : p.bootstrapped = false → p.received = default
  pending : ∀ preview, p.pending = some preview →
    p.bootstrapped = false ∧ preview.batch.checkpoint.epoch = epoch
  processed : p.processed = default ∨ p.received ≠ default ∧ p.processed.epoch = p.received.epoch ∧
    p.processed.sequence ≤ p.received.sequence

omit [DecidableEq Proof] in
theorem Ordered.enrolled (epoch : String) (outcome : SecurePairingOutcome) (incarnation : String)
    (addresses : List String) :
    Ordered epoch (.enrolled outcome incarnation addresses : Peer Proof) where
  received := Or.inl rfl
  unconsented _ := rfl
  pending _ waits := by simp [Peer.enrolled] at waits
  processed := Or.inl rfl

omit [DecidableEq Proof] in
theorem Ordered.advance {epoch : String} {old : Peer Proof} (ordered : Ordered epoch old)
    (named : epoch ≠ "") (own : receipt.epoch = epoch)
    (later : old.received = default ∨ Replaces old.received receipt) :
    Ordered epoch { old with received := receipt, bootstrapped := true, pending := none } where
  received := Or.inr own
  unconsented consent := by simp at consent
  pending _ waits := by simp at waits
  processed := by
    have set : receipt ≠ default := fun same => named (by rw [← own, same]; rfl)
    rcases ordered.processed with unset | ⟨held, epochs, within⟩
    · exact Or.inl unset
    · have same := ordered.received.resolve_left held
      refine Or.inr ⟨set, epochs.trans (same.trans own.symm), within.trans ?_⟩
      rcases later.resolve_left held with other | more
      · exact absurd (same.trans own.symm) other
      · exact more.le

omit [DecidableEq Proof] in
theorem Ordered.process {epoch : String} {old : Peer Proof} (ordered : Ordered epoch old)
    (covered : old.covers receipt = true) : Ordered epoch (old.process receipt) where
  received := ordered.received
  unconsented := ordered.unconsented
  pending := ordered.pending
  processed := by
    simp only [Peer.covers, Bool.and_eq_true, Bool.not_eq_true', decide_eq_true_eq] at covered
    obtain ⟨⟨_, epochs⟩, within⟩ := covered
    rcases raise_cases old.processed receipt with ⟨later, replaced⟩ | ⟨_, _, kept⟩
    · right
      simp only [Peer.process, replaced]
      refine ⟨fun unset => ?_, epochs.symm, within⟩
      rw [unset] at epochs within
      have nothing : old.processed = default :=
        ordered.processed.resolve_right fun held => held.1 unset
      rw [nothing] at later
      rcases later with other | more
      · exact other epochs
      · exact absurd more (Nat.not_lt.mpr within)
    · simp only [Peer.process, kept]
      exact ordered.processed

theorem PeerStep.ordered {id epoch : String} {entry : Option (Peer Proof)}
    (step : PeerStep inner e call id entry (some p)) (named : epoch ≠ "")
    (before : ∀ old, entry = some old → Ordered epoch old ∧ old.identity.deviceId = id)
    (batches : ∀ generation token peer batch, call = .receive generation token peer batch →
      peer.identity.deviceId = id → batch.checkpoint.epoch = epoch) : Ordered epoch p := by
  cases step with
  | enrolled => exact .enrolled ..
  | kept touched =>
      obtain ⟨ordered, device⟩ := before _ rfl
      cases touched with
      | enrolled => exact .enrolled ..
      | received live later =>
          rw [live.identity] at device
          exact ordered.advance named (batches _ _ _ _ rfl device)
            (Or.inr (replaces_iff.mpr later))
      | merged _ waits _ same =>
          obtain ⟨consent, own⟩ := ordered.pending _ waits
          rw [same] at own
          exact ordered.advance named own (Or.inl (ordered.unconsented consent))
      | staged live consent _ _ _ preview =>
          rw [live.identity] at device
          refine ⟨ordered.received, ordered.unconsented, fun staged waits => ?_, ordered.processed⟩
          obtain rfl := Option.some.inj waits
          rcases preview with ⟨waits, _⟩ | rfl
          · exact ordered.pending _ waits
          · exact ⟨consent, batches _ _ _ _ rfl device⟩
      | declined =>
          exact ⟨ordered.received, ordered.unconsented, fun _ waits => by simp at waits,
            ordered.processed⟩
      | removed =>
          exact ⟨ordered.received, ordered.unconsented, fun _ waits => by simp at waits,
            ordered.processed⟩
      | processed covered => exact ordered.process covered
      | handled _ covered => exact ordered.process covered
      | _ => exact ⟨ordered.received, ordered.unconsented, ordered.pending, ordered.processed⟩

end Entries

section Worlds

variable {Proof : Type} [DecidableEq Proof] [ReceiptMac Proof] {fleet : Fleet Proof}
  {w after : World Proof} {event : WorldEvent Proof} {id peer : String} {view : Contents Proof}
  {p : Peer Proof}

def Dated (fleet : Fleet Proof) (w : World Proof) : Prop :=
  ∀ sent ∈ w.batches, sent.message.checkpoint.epoch = (fleet.member sent.sender).epoch.text

theorem Dated.step (dated : Dated fleet w) (sound : w.Sound fleet)
    (moved : World.step fleet w event = some after) : Dated fleet after := by
  cases event with
  | greet node peer addresses =>
      obtain ⟨_, _, rfl⟩ := Option.map_eq_some_iff.mp moved
      exact dated
  | capture node =>
      obtain rfl := Option.some.inj moved
      exact dated
  | session node event =>
      cases World.step_session moved with
      | succeeded _ _ issued =>
          cases issued with
          | batch ran =>
              intro sent member
              rcases List.mem_cons.mp member with rfl | member
              · obtain ⟨_, _, _, minted, _⟩ := exportBatch_ok ran
                exact (congrArg ManagedReceipt.epoch minted).trans (sound node).memory.epoch
              · exact dated sent member
          | _ => exact dated
      | _ => exact dated

/-- What the sessions show holds of their peers, in one invariant. -/
structure Held (fleet : Fleet Proof) (w : World Proof) : Prop where
  sound : w.Sound fleet
  dated : Dated fleet w
  authentic : ∀ id view, (w.nodes id).Shows view → Authentic (fleet.member id).inner view
  ordered : ∀ (id : String) (view : Contents Proof) (peer : String) (p : Peer Proof),
    (w.nodes id).Shows view → view.peers[peer]? = some p → Ordered (fleet.member peer).epoch.text p

theorem Held.start (fleet : Fleet Proof) : Held fleet (World.start fleet) where
  sound _ := .opened (.first _)
  dated sent member := by simp [World.start] at member
  authentic id view shows peer p found := by
    rw [Session.shows_opened shows] at found
    simp [Installation.first, Installation.created] at found
  ordered id view peer p shows found := by
    rw [Session.shows_opened shows] at found
    simp [Installation.first, Installation.created] at found

theorem Held.step (held : Held fleet w) (moved : World.step fleet w event = some after) :
    Held fleet after where
  sound := held.sound.step moved
  dated := held.dated.step held.sound moved
  authentic id view shows := by
    rcases World.shows held.sound moved shows with ⟨old, was, kin⟩ |
      ⟨_, _, _, _, candidate, _, _, operated, kin⟩
    · exact (held.authentic id old was).kin kin
    · exact ((held.authentic id _ (Or.inl rfl)).operate operated).kin kin
  ordered id view peer p shows found := by
    rcases World.shows held.sound moved shows with ⟨old, was, kin⟩ |
      ⟨_, _, _, call, candidate, _, delivered, operated, kin⟩
    · rw [kin] at found
      exact held.ordered id old peer p was found
    · rw [kin] at found
      have step := operate_peers operated peer
      rw [found] at step
      refine step.ordered (fleet.member peer).epoch.ne_empty (fun old before => ⟨?_, ?_⟩) ?_
      · exact held.ordered id _ peer old (Or.inl rfl) before
      · exact (held.sound id).memory.devices peer old before
      · rintro generation token sender batch rfl rfl
        exact held.dated _ (of_decide_eq_true delivered)

theorem Held.run {allowed : World Proof → WorldEvent Proof → Prop}
    (reached : Transition.Reaches (World.step fleet) allowed (World.start fleet) w) :
    Held fleet w :=
  reached.invariant (.start fleet) fun _ _ _ held _ moved => held.step moved

/-- In every reachable world what a session processed of a peer it received before, and a
batch that waits for review is of a peer that gave it nothing yet. -/
theorem Fleet.processed_within (fleet : Fleet Proof)
    {allowed : World Proof → WorldEvent Proof → Prop}
    (reached : Transition.Reaches (World.step fleet) allowed (World.start fleet) w)
    (shows : (w.nodes id).Shows view) (found : view.peers[peer]? = some p) :
    (p.processed = default ∨ p.processed.epoch = p.received.epoch ∧
      p.received.epoch = (fleet.member peer).epoch.text ∧
      p.processed.sequence ≤ p.received.sequence) ∧
    (p.pending.isSome = true → p.bootstrapped = false ∧ p.received = default ∧
      p.processed = default) := by
  have ordered := (Held.run reached).ordered id view peer p shows found
  refine ⟨?_, fun waits => ?_⟩
  · rcases ordered.processed with unset | ⟨held, epochs, within⟩
    · exact Or.inl unset
    · exact Or.inr ⟨epochs, ordered.received.resolve_left held, within⟩
  · obtain ⟨preview, waits⟩ := Option.isSome_iff_exists.mp waits
    have consent := (ordered.pending preview waits).1
    have nothing := ordered.unconsented consent
    exact ⟨consent, nothing, ordered.processed.resolve_right fun held => held.1 nothing⟩

end Worlds

section Applications

variable {Proof : Type}

def Call.hands : Call Proof → List (String × ManagedReceipt Proof)
  | .acknowledgeApplied peer receipt => [(peer, receipt)]
  | .acknowledgeInbox inbox => inbox.receipts.toList
  | _ => []

def WorldEvent.hands : WorldEvent Proof → List (Sent (ManagedReceipt Proof))
  | .session node (.call _ _ _ call) => call.hands.map fun item => {
      sender := node
      receiver := item.1
      message := item.2 }
  | _ => []

/-- A world, and every receipt that an application handed in there, reported or not: a call whose
save failed may still have been recorded. -/
structure Observed (Proof : Type) where
  world : World Proof
  handed : List (Sent (ManagedReceipt Proof))

def Observed.start (fleet : Fleet Proof) : Observed Proof where
  world := .start fleet
  handed := []

/-- Applications hand in only what they got from their own session: a whole inbox, or the inbound
receipt of one peer. -/
def Observed.Obtained (observed : Observed Proof) : WorldEvent Proof → Prop
  | .session node (.call _ _ _ (.acknowledgeApplied peer receipt)) =>
      ∃ view p, (node, view) ∈ observed.world.captured ∧ view.peers[peer]? = some p ∧
        p.received = receipt
  | .session node (.call _ _ _ (.acknowledgeInbox inbox)) =>
      ∃ view, (node, view) ∈ observed.world.captured ∧ applicationInbox view = inbox
  | _ => True

variable [DecidableEq Proof] [ReceiptMac Proof]

def Observed.step (fleet : Fleet Proof) (observed : Observed Proof) (event : WorldEvent Proof) :
    Option (Observed Proof) :=
  (World.step fleet observed.world event).map fun world => {
    world
    handed := event.hands ++ observed.handed }

variable {fleet : Fleet Proof} {observed after : Observed Proof} {event : WorldEvent Proof}

omit [DecidableEq Proof] [ReceiptMac Proof] in
theorem applicationInbox_received {e : Contents Proof} {source : String}
    {receipt : ManagedReceipt Proof}
    (listed : (applicationInbox e).receipts[source]? = some receipt) :
    ∃ p, e.peers[source]? = some p ∧ p.received = receipt := by
  simp only [applicationInbox, Std.ExtTreeMap.getElem?_filterMap', Option.bind_eq_some_iff] at listed
  obtain ⟨p, found, kept⟩ := listed
  split at kept
  · exact ⟨p, found, Option.some.inj kept⟩
  · simp at kept

theorem World.step_captured {w next : World Proof} (moved : World.step fleet w event = some next)
    {item : String × Contents Proof} (member : item ∈ w.captured) : item ∈ next.captured := by
  cases event with
  | greet node peer addresses =>
      obtain ⟨_, _, rfl⟩ := Option.map_eq_some_iff.mp moved
      exact member
  | capture node =>
      obtain rfl := Option.some.inj moved
      exact List.mem_cons_of_mem _ member
  | session node event =>
      cases World.step_session moved with
      | succeeded _ _ issued => cases issued <;> exact member
      | _ => exact member

theorem World.step_hellos {w next : World Proof} (moved : World.step fleet w event = some next)
    {sent : Sent (Hello Proof)} (member : sent ∈ next.hellos) :
    sent ∈ w.hellos ∨ ∃ p addresses, (w.nodes sent.sender).envelope.peers[sent.receiver]? = some p ∧
      sent.message = hello (fleet.member sent.sender).inner
        (w.nodes sent.sender).envelope.toContents p addresses := by
  cases event with
  | greet node peer addresses =>
      obtain ⟨p, found, rfl⟩ := Option.map_eq_some_iff.mp moved
      rcases List.mem_cons.mp member with rfl | member
      · exact Or.inr ⟨p, addresses, found, rfl⟩
      · exact Or.inl member
  | capture node =>
      obtain rfl := Option.some.inj moved
      exact Or.inl member
  | session node event =>
      rw [(World.step_session moved).hellos] at member
      exact Or.inl member

def Observed.Captured (observed : Observed Proof) (sent : Sent (ManagedReceipt Proof)) : Prop :=
  ∃ view p, (sent.sender, view) ∈ observed.world.captured ∧
    view.peers[sent.receiver]? = some p ∧ p.received = sent.message

omit [DecidableEq Proof] [ReceiptMac Proof] in
theorem Observed.Obtained.captured (obtained : observed.Obtained event)
    {sent : Sent (ManagedReceipt Proof)} (member : sent ∈ event.hands) :
    observed.Captured sent := by
  cases event with
  | greet | capture => simp [WorldEvent.hands] at member
  | session node event =>
      cases event with
      | reopen => simp [WorldEvent.hands] at member
      | call change transaction saves call =>
          simp only [WorldEvent.hands, List.mem_map] at member
          obtain ⟨item, handed, rfl⟩ := member
          cases call with
          | acknowledgeApplied peer receipt =>
              obtain rfl := List.mem_singleton.mp handed
              exact obtained
          | acknowledgeInbox inbox =>
              obtain ⟨view, kept, rfl⟩ := obtained
              obtain ⟨p, found, same⟩ := applicationInbox_received
                (Std.ExtTreeMap.mem_toList_iff_getElem?_eq_some.mp handed)
              exact ⟨view, p, kept, found, same⟩
          | _ => simp [Call.hands] at handed

theorem PeerStep.processed_from {inner : Inner Proof} {e : Contents Proof} {call : Call Proof}
    {id : String} {entry : Option (Peer Proof)} {p : Peer Proof}
    (step : PeerStep inner e call id entry (some p)) :
    p.processed = default ∨ (∃ old, entry = some old ∧ p.processed = old.processed) ∨
      (id, p.processed) ∈ call.hands := by
  cases step with
  | enrolled => exact Or.inl rfl
  | @kept old _ touched =>
      have raised : ∀ receipt, (id, receipt) ∈ call.hands →
          (∃ q, some old = some q ∧ raise old.processed receipt = q.processed) ∨
            (id, raise old.processed receipt) ∈ call.hands := by
        intro receipt handed
        rcases raise_cases old.processed receipt with ⟨_, replaced⟩ | ⟨_, _, kept⟩
        · exact Or.inr (replaced.symm ▸ handed)
        · exact Or.inl ⟨old, rfl, kept⟩
      cases touched with
      | enrolled => exact Or.inl rfl
      | processed => exact Or.inr (raised _ List.mem_cons_self)
      | handled listed =>
          exact Or.inr (raised _ (Std.ExtTreeMap.mem_toList_iff_getElem?_eq_some.mpr listed))
      | _ => exact Or.inr (Or.inl ⟨_, rfl, rfl⟩)

theorem PeerStep.applied_from {inner : Inner Proof} {e : Contents Proof} {call : Call Proof}
    {id : String} {entry : Option (Peer Proof)} {p : Peer Proof}
    (step : PeerStep inner e call id entry (some p))
    (devices : ∀ old, entry = some old → old.identity.deviceId = id) :
    p.applied = default ∨ (∃ old, entry = some old ∧ p.applied = old.applied) ∨
      (∃ generation message fingerprint, call = .hello generation message fingerprint ∧
        message.identity.deviceId = id ∧ p.applied = message.processed) ∨
      ∃ generation peer batch receipt,
        call = .acknowledge generation peer batch receipt .applied := by
  cases step with
  | enrolled => exact Or.inl rfl
  | @kept old _ touched =>
      have device := devices _ rfl
      cases touched with
      | enrolled => exact Or.inl rfl
      | @proven _ message _ live =>
          right
          rw [live.identity] at device
          rcases raise_cases old.applied message.processed with ⟨_, replaced⟩ | ⟨_, _, kept⟩
          · exact Or.inr (Or.inl ⟨_, message, _, rfl, device, replaced⟩)
          · exact Or.inl ⟨old, rfl, kept⟩
      | @delivered _ _ _ disposition =>
          right
          cases disposition with
          | stored => exact Or.inl ⟨old, rfl, rfl⟩
          | applied => exact Or.inr (Or.inr ⟨_, _, _, _, rfl⟩)
      | _ => exact Or.inr (Or.inl ⟨_, rfl, rfl⟩)

structure Observed.Backed (fleet : Fleet Proof) (observed : Observed Proof) : Prop where
  held : Held fleet observed.world
  captured : ∀ sent ∈ observed.handed, observed.Captured sent
  processed : ∀ (id : String) (view : Contents Proof) (peer : String) (p : Peer Proof),
    (observed.world.nodes id).Shows view → view.peers[peer]? = some p → p.processed = default ∨
      { sender := id, receiver := peer, message := p.processed } ∈ observed.handed
  hellos : ∀ sent ∈ observed.world.hellos, sent.message.processed = default ∨
    { sender := sent.sender, receiver := sent.receiver, message := sent.message.processed } ∈
      observed.handed
  applied : ∀ (id : String) (view : Contents Proof) (peer : String) (p : Peer Proof),
    (observed.world.nodes id).Shows view → view.peers[peer]? = some p → p.applied = default ∨
      { sender := peer, receiver := id, message := p.applied } ∈ observed.handed

theorem Observed.Backed.start (fleet : Fleet Proof) : (Observed.start fleet).Backed fleet where
  held := .start fleet
  captured sent member := by simp [Observed.start] at member
  processed id view peer p shows found := by
    rw [Session.shows_opened shows] at found
    simp [Installation.first, Installation.created] at found
  hellos sent member := by simp [Observed.start, World.start] at member
  applied id view peer p shows found := by
    rw [Session.shows_opened shows] at found
    simp [Installation.first, Installation.created] at found

theorem Observed.Backed.step (backed : observed.Backed fleet) (obtained : observed.Obtained event)
    (moved : Observed.step fleet observed event = some after) : after.Backed fleet := by
  obtain ⟨world, ran, rfl⟩ := Option.map_eq_some_iff.mp moved
  have sound := backed.held.sound
  have handed : ∀ {receipt : ManagedReceipt Proof} {sender receiver : String},
      receipt = default ∨ { sender, receiver, message := receipt } ∈ observed.handed →
      receipt = default ∨ { sender, receiver, message := receipt } ∈
        event.hands ++ observed.handed :=
    fun before => before.imp_right (List.mem_append_right _)
  refine {
    held := backed.held.step ran
    captured := fun sent member => ?_
    processed := fun id view peer p shows found => ?_
    hellos := fun sent member => ?_
    applied := fun id view peer p shows found => ?_ }
  · obtain ⟨view, p, kept, found, same⟩ := (List.mem_append.mp member).elim
      (fun new => obtained.captured new) (backed.captured sent)
    exact ⟨view, p, World.step_captured ran kept, found, same⟩
  · rcases World.shows sound ran shows with ⟨old, was, kin⟩ |
      ⟨_, _, _, call, candidate, rfl, _, operated, kin⟩
    · rw [kin] at found
      exact handed (backed.processed id old peer p was found)
    · rw [kin] at found
      have step := operate_peers operated peer
      rw [found] at step
      rcases step.processed_from with unset | ⟨old, before, same⟩ | new
      · exact Or.inl unset
      · rw [same]
        exact handed (backed.processed id _ peer old (Or.inl rfl) before)
      · exact Or.inr (List.mem_append_left _ (List.mem_map.mpr ⟨_, new, rfl⟩))
  · rcases World.step_hellos ran member with old | ⟨p, addresses, found, same⟩
    · exact handed (backed.hellos sent old)
    · rw [same]
      exact handed (backed.processed _ _ _ p (Or.inl rfl) found)
  · rcases World.shows sound ran shows with ⟨old, was, kin⟩ |
      ⟨_, _, _, call, candidate, rfl, delivered, operated, kin⟩
    · rw [kin] at found
      exact handed (backed.applied id old peer p was found)
    · rw [kin] at found
      have step := operate_peers operated peer
      rw [found] at step
      rcases step.applied_from fun old before => (sound id).memory.devices peer old before with
        unset | ⟨old, before, same⟩ | ⟨_, message, _, rfl, rfl, same⟩ | ⟨_, _, _, _, rfl⟩
      · exact Or.inl unset
      · rw [same]
        exact handed (backed.applied id _ peer old (Or.inl rfl) before)
      · rw [same]
        exact handed (backed.hellos _ (of_decide_eq_true delivered))
      · simp [World.delivers] at delivered

theorem Observed.Backed.run {allowed : Observed Proof → WorldEvent Proof → Prop}
    (reached : Transition.Reaches (Observed.step fleet) allowed (.start fleet) observed)
    (obtained : ∀ observed event, allowed observed event → observed.Obtained event) :
    observed.Backed fleet :=
  reached.invariant (.start fleet) fun _ _ _ backed permitted moved =>
    backed.step (obtained _ _ permitted) moved

/-- Whatever a session counts as applied at a peer, the application there handed in, and its
session held it as received when the application looked; for an unrevoked peer it still verifies
for the enrolment that stands. -/
theorem Fleet.applied_handed (fleet : Fleet Proof)
    (reached : Transition.Reaches (Observed.step fleet) Observed.Obtained (.start fleet) observed)
    {id peer : String} {view : Contents Proof} {p : Peer Proof}
    (shows : (observed.world.nodes id).Shows view) (found : view.peers[peer]? = some p)
    (applied : p.applied ≠ default) :
    { sender := peer, receiver := id, message := p.applied } ∈ observed.handed ∧
      (∃ captured q, (peer, captured) ∈ observed.world.captured ∧ captured.peers[id]? = some q ∧
        q.received = p.applied) ∧
      (p.revoked = false → verify (fleet.member id).inner view p p.applied = .ok ()) := by
  have backed := Observed.Backed.run reached fun _ _ obtained => obtained
  have handed := (backed.applied id view peer p shows found).resolve_left applied
  exact ⟨handed, backed.captured _ handed, fun current =>
    ((backed.held.authentic id view shows peer p found current).2).resolve_left applied⟩

def WorldEvent.reports : WorldEvent Proof → Bool
  | .session _ (.call _ _ _ (.acknowledgeApplied ..)) => true
  | .session _ (.call _ _ _ (.acknowledgeInbox ..)) => true
  | _ => false

theorem Observed.runs {allowed : Observed Proof → WorldEvent Proof → Prop}
    (reached : Transition.Reaches (Observed.step fleet) allowed (.start fleet) observed) :
    Runs fleet (World.start fleet) observed.world := by
  induction reached with
  | start => exact .start
  | next _ _ moved ih =>
      obtain ⟨world, ran, rfl⟩ := Option.map_eq_some_iff.mp moved
      exact ih.next trivial ran

theorem Observed.lift {w next : World Proof} {handed : List (Sent (ManagedReceipt Proof))}
    (reached : Transition.Reaches (World.step fleet) (fun _ event => event.reports = false) w next) :
    Transition.Reaches (Observed.step fleet) Observed.Obtained { world := w, handed }
      { world := next, handed } := by
  induction reached with
  | start => exact .start
  | @next state after event reached quiet moved ih =>
      refine ih.next ?_ (Option.map_eq_some_iff.mpr ⟨after, moved, ?_⟩)
      · cases event with
        | greet | capture => trivial
        | session node event =>
            cases event with
            | reopen => trivial
            | call change transaction saves call =>
                cases call with
                | acknowledgeApplied | acknowledgeInbox => simp [WorldEvent.reports] at quiet
                | _ => trivial
      · have nothing : event.hands = [] := by
          cases event with
          | greet | capture => rfl
          | session node event =>
              cases event with
              | reopen => rfl
              | call change transaction saves call =>
                  cases call with
                  | acknowledgeApplied | acknowledgeInbox => simp [WorldEvent.reports] at quiet
                  | _ => rfl
        rw [nothing]
        rfl

omit [DecidableEq Proof] [ReceiptMac Proof] in
theorem WorldEvent.quiet_of_meets {event : WorldEvent Proof} (meets : event.meets = true) :
    event.reports = false := by
  unfold WorldEvent.meets at meets
  split at meets
  · rfl
  · rfl
  · simp at meets

omit [DecidableEq Proof] [ReceiptMac Proof] in
theorem WorldEvent.quiet_of_pushes {event : WorldEvent Proof} (pushes : event.pushes = true) :
    event.reports = false := by
  unfold WorldEvent.pushes at pushes
  split at pushes
  · rfl
  · rfl
  · rfl
  · rfl
  · simp at pushes

theorem World.exchange_quiet {w next : World Proof} {caller listener : String}
    {outbound inbound : Party}
    (ran : w.exchange fleet caller listener outbound inbound = some next) :
    Transition.Reaches (World.step fleet) (fun _ event => event.reports = false) w next := by
  simp only [World.exchange, Option.bind_eq_bind, Option.bind_eq_some_iff, Prod.exists] at ran
  obtain ⟨_, _, _, called, _, _, _, answered, _, pushed, returned⟩ := ran
  exact ((((World.meet_reaches called).mono fun _ _ => WorldEvent.quiet_of_meets).trans
    ((World.meet_reaches answered).mono fun _ _ => WorldEvent.quiet_of_meets)).trans
      ((World.push_reaches pushed).mono fun _ _ => WorldEvent.quiet_of_pushes)).trans
        ((World.push_reaches returned).mono fun _ _ => WorldEvent.quiet_of_pushes)

end Applications

section Sample

def reported : Option (Observed SymbolicProof) := do
  let looked ← Observed.step sampleFleet { world := syncedWorld, handed := [] } (.capture "phone")
  let told ← Observed.step sampleFleet looked (.session "phone"
    (sampleCall (.acknowledgeInbox (phoneInbox syncedWorld))))
  let met ← meetAgain told.world
  some { told with world := met }

theorem reported_runs : reported.isSome = true := by
  decide +kernel

def reportedWorld : Observed SymbolicProof := reported.get reported_runs

theorem syncedWorld_quiet : Transition.Reaches (World.step sampleFleet)
    (fun _ event => event.reports = false) (World.start sampleFleet) syncedWorld := by
  have ran : noted = some notedWorld := (Option.some_get noted_runs).symm
  simp only [noted, bootstrapped, Option.bind_eq_bind, Option.bind_eq_some_iff] at ran
  obtain ⟨_, ⟨_, enrolled, met⟩, wrote⟩ := ran
  have quiet : ∀ {w next : World SymbolicProof} {events : List (WorldEvent SymbolicProof)},
      Transition.run (World.step sampleFleet) w events = some next →
      (∀ event ∈ events, event.reports = false) →
      Transition.Reaches (World.step sampleFleet) (fun _ event => event.reports = false) w next := by
    intro w next events ran all
    refine Transition.reaches_along ran ?_
    clear ran
    induction events generalizing w with
    | nil => trivial
    | cons event rest ih =>
        exact fun _ _ => ⟨all event List.mem_cons_self,
          ih fun other member => all other (List.mem_cons_of_mem _ member)⟩
  refine (((quiet enrolled ?_).trans (World.exchange_quiet met)).trans (quiet wrote ?_)).trans
    (World.exchange_quiet (Option.some_get synced_runs).symm)
  · decide
  · decide

theorem reportedWorld_reached : Transition.Reaches (Observed.step sampleFleet) Observed.Obtained
    (.start sampleFleet) reportedWorld := by
  have ran : reported = some reportedWorld := (Option.some_get reported_runs).symm
  simp only [reported, Option.bind_eq_bind, Option.bind_eq_some_iff, Option.some.injEq] at ran
  obtain ⟨looked, captured, told, acknowledged, met, exchanged, same⟩ := ran
  have captures : looked.world.captured =
      ("phone", (syncedWorld.nodes "phone").envelope.toContents) :: syncedWorld.captured := by
    obtain ⟨w, moved, rfl⟩ := Option.map_eq_some_iff.mp captured
    obtain rfl := Option.some.inj moved
    rfl
  have before : Transition.Reaches (Observed.step sampleFleet) Observed.Obtained
      (.start sampleFleet) { world := syncedWorld, handed := [] } :=
    Observed.lift syncedWorld_quiet
  rw [← same]
  refine ((before.next ?_ captured).next ?_ acknowledged).trans
    (Observed.lift (World.exchange_quiet exchanged))
  · trivial
  · exact ⟨_, by rw [captures]; exact List.mem_cons_self, rfl⟩

theorem processed_within_desk : ∃ p,
    (reportedWorld.world.nodes "phone").envelope.peers["desk"]? = some p ∧ p.processed ≠ default ∧
      p.processed.sequence ≤ p.received.sequence := by
  have listed : ((reportedWorld.world.nodes "phone").envelope.peers["desk"]?).any
      (fun p => decide (p.processed ≠ default)) = true := by
    decide +kernel
  simp only [Option.any_eq_true, decide_eq_true_eq] at listed
  obtain ⟨p, found, set⟩ := listed
  have reached := Observed.runs reportedWorld_reached
  obtain ⟨unset | ⟨_, _, within⟩, _⟩ := sampleFleet.processed_within reached (Or.inl rfl) found
  · exact absurd unset set
  · exact ⟨p, found, set, within⟩

theorem applied_handed_phone : ∃ p,
    (reportedWorld.world.nodes "desk").envelope.peers["phone"]? = some p ∧
      p.applied.sequence = 1 ∧
      { sender := "phone", receiver := "desk", message := p.applied } ∈ reportedWorld.handed := by
  have listed : ((reportedWorld.world.nodes "desk").envelope.peers["phone"]?).any
      (fun p => decide (p.applied ≠ default) && decide (p.applied.sequence = 1)) = true := by
    decide +kernel
  simp only [Option.any_eq_true, Bool.and_eq_true, decide_eq_true_eq] at listed
  obtain ⟨p, found, applied⟩ := listed
  exact ⟨p, found, applied.2, (sampleFleet.applied_handed reportedWorld_reached (Or.inl rfl) found
    applied.1).1⟩

end Sample

end LibreSync.Managed
