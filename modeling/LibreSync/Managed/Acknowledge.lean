import LibreSync.Managed.Meeting

/-!
Which acknowledgements reach the source: a session passes on the processed receipt it holds, and
the source takes it only for the enrolment it was minted for.
-/

namespace LibreSync.Managed

section Definitions

variable {Proof : Type}

def Replaces (held receipt : ManagedReceipt Proof) : Prop :=
  held.epoch ≠ receipt.epoch ∨ held.sequence < receipt.sequence

inductive Takes (e : Contents Proof) (peer : String) : Call Proof → ManagedReceipt Proof → Prop where
  | batch {generation : Nat} {token : RandomId} {sender p : Peer Proof} {batch : ExportBatch Proof}
      (named : sender.identity.deviceId = peer) (found : e.peers[peer]? = some p)
      (later : Replaces p.received batch.checkpoint) :
      Takes e peer (.receive generation token sender batch) batch.checkpoint
  | applied {receipt : ManagedReceipt Proof} {p : Peer Proof} (found : e.peers[peer]? = some p)
      (later : Replaces p.processed receipt) : Takes e peer (.acknowledgeApplied peer receipt) receipt
  | inbox {inbox : ApplicationInbox Proof} {receipt : ManagedReceipt Proof} {p : Peer Proof}
      (listed : inbox.receipts[peer]? = some receipt) (found : e.peers[peer]? = some p)
      (later : Replaces p.processed receipt) : Takes e peer (.acknowledgeInbox inbox) receipt

def Call.renews (e : Contents Proof) (peer : String) : Call Proof → Prop
  | .remove id _ => id = peer
  | .commit _ outcome _ _ _ => outcome.identity.deviceId = peer ∧ freshOutcome outcome e = true
  | _ => False

def Peer.held (peer : Peer Proof) : List (ManagedReceipt Proof) :=
  peer.received :: peer.processed ::
    peer.pending.toList.map fun preview => preview.batch.checkpoint

variable [DecidableEq Proof] [ReceiptMac Proof]

def Verified (inner : Inner Proof) (target : String) (receipt : ManagedReceipt Proof)
    (view : Contents Proof) : Prop :=
  ∃ p, view.peers[target]? = some p ∧ verify inner view p receipt = .ok ()

def Accepts (fleet : Fleet Proof) (source target : String) (w : World Proof)
    (receipt : ManagedReceipt Proof) : Prop :=
  ∀ view, (w.nodes source).Shows view → Verified (fleet.member source).inner target receipt view

/-- The target holds nothing of the source that the source does not accept. -/
def Untainted (fleet : Fleet Proof) (source target : String) (w : World Proof) : Prop :=
  ∀ view p, (w.nodes target).Shows view → view.peers[source]? = some p →
    ∀ receipt ∈ p.held, receipt = default ∨ Accepts fleet source target w receipt

/-- Both enrolments stay, and the target takes only receipts that the source accepts. -/
def Faithful (fleet : Fleet Proof) (source target : String) (w : World Proof) :
    WorldEvent Proof → Prop
  | .session node (.call _ _ _ call) =>
      (node = source → ¬call.renews (w.nodes source).envelope.toContents target) ∧
      (node = target → ¬call.renews (w.nodes target).envelope.toContents source ∧
        ∀ receipt, Takes (w.nodes target).envelope.toContents source call receipt →
          Accepts fleet source target w receipt)
  | _ => True

end Definitions

section Verification

variable {Proof : Type} [DecidableEq Proof] [ReceiptMac Proof] {inner : Inner Proof}
  {e candidate view : Contents Proof} {change target : String} {call : Call Proof}
  {receipt : ManagedReceipt Proof}

theorem operate_revision_le (operated : operate inner change call e = .ok candidate) :
    e.revision ≤ candidate.revision := by
  cases (operate_data operated).2 with
  | same data => exact data.revision.ge
  | committed merging data => exact data.revision.ge.trans' merging.framed.revision

theorem verify_congr {p q : Peer Proof} (verified : verify inner e p receipt = .ok ())
    (identity : q.identity = p.identity) (fingerprint : q.fingerprint = p.fingerprint)
    (incarnation : q.incarnation = p.incarnation) (revoked : q.revoked = p.revoked)
    (epoch : candidate.epoch = e.epoch) (later : e.revision ≤ candidate.revision) :
    verify inner candidate q receipt = .ok () := by
  obtain ⟨current, named, same, past, authentic⟩ := verify_ok.mp verified
  refine verify_ok.mpr ⟨revoked.trans current, incarnation ▸ named, same.trans epoch.symm,
    past.trans later, ?_⟩
  simpa only [Peer.mac, identity, fingerprint, incarnation] using authentic

theorem Verified.operate (verified : Verified inner target receipt e)
    (kept : ¬call.renews e target) (operated : operate inner change call e = .ok candidate) :
    Verified inner target receipt candidate := by
  obtain ⟨p, found, accepted⟩ := verified
  have epoch := (operate_data operated).1.epoch
  have later := operate_revision_le operated
  have step := operate_peers operated target
  rw [found] at step
  generalize after : candidate.peers[target]? = entry at step
  cases step with
  | kept touched =>
      refine ⟨_, after, ?_⟩
      cases touched with
      | removed => exact absurd rfl kept
      | enrolled device fresh => exact absurd ⟨device.symm, fresh⟩ kept
      | rekeyed alone =>
          have current := (verify_ok.mp accepted).1
          exact absurd (alone target p found) (by simp [current])
      | _ => exact verify_congr accepted rfl rfl rfl rfl epoch later

omit [DecidableEq Proof] in
theorem Verified.kin [DecidableEq Proof] (verified : Verified inner target receipt e)
    (kin : Kin e view) : Verified inner target receipt view := by
  obtain ⟨p, found, accepted⟩ := verified
  refine ⟨p, by rw [kin]; exact found, ?_⟩
  rw [kin]
  exact accepted

end Verification

section Held

variable {Proof : Type} {inner : Inner Proof} {e candidate : Contents Proof}
  {receipt : ManagedReceipt Proof}

theorem replaces_iff {held : ManagedReceipt Proof} : Replaces held receipt ↔
    ¬(held.epoch = receipt.epoch ∧ receipt.sequence ≤ held.sequence) := by
  rw [Replaces, not_and_or, not_le]

theorem raise_cases (held receipt : ManagedReceipt Proof) :
    Replaces held receipt ∧ raise held receipt = receipt ∨
      held.epoch = receipt.epoch ∧ receipt.sequence ≤ held.sequence ∧
        raise held receipt = held := by
  by_cases later : Replaces held receipt
  · exact Or.inl ⟨later, if_pos later⟩
  · obtain ⟨same, within⟩ := not_not.mp (mt replaces_iff.mpr later)
    exact Or.inr ⟨same, within, if_neg later⟩

theorem Peer.mem_held {peer : Peer Proof} : receipt ∈ peer.held ↔
    receipt = peer.received ∨ receipt = peer.processed ∨
      ∃ preview, peer.pending = some preview ∧ receipt = preview.batch.checkpoint := by
  cases waiting : peer.pending with
  | none => simp [held, waiting]
  | some preview => simp [held, waiting]

variable [DecidableEq Proof] [ReceiptMac Proof] {change source : String} {call : Call Proof}
  {new : Peer Proof}

theorem receiveBatch_later {generation : Nat} {token : String} {peer : Peer Proof}
    {batch : ExportBatch Proof} {reply : Option (ManagedReceipt Proof)}
    (ran : receiveBatch inner generation token change peer batch e = .ok (reply, candidate)) :
    candidate = e ∨ ∃ current, Live e generation peer.identity peer.fingerprint current ∧
      Replaces current.received batch.checkpoint := by
  simp only [receiveBatch] at ran
  split at ran
  · simp at ran
  · rename_i current checked
    split at ran
    · simp only [Except.ok.injEq, Prod.mk.injEq] at ran
      exact Or.inl ran.2.symm
    · rename_i later
      exact Or.inr ⟨current, check_ok checked, replaces_iff.mpr later⟩

theorem operate_held
    (devices : ∀ (id : String) (p : Peer Proof), e.peers[id]? = some p → p.identity.deviceId = id)
    (operated : operate inner change call e = .ok candidate)
    (found : candidate.peers[source]? = some new) (member : receipt ∈ new.held) :
    receipt = default ∨ (∃ old, e.peers[source]? = some old ∧ receipt ∈ old.held) ∨
      Takes e source call receipt := by
  have step := operate_peers operated source
  rw [found] at step
  generalize before : e.peers[source]? = entry at step
  cases step with
  | enrolled => exact Or.inl (by simpa [Peer.mem_held, Peer.enrolled] using member)
  | @kept old _ touched =>
      have there : receipt ∈ old.held → receipt = default ∨
          (∃ p, some old = some p ∧ receipt ∈ p.held) ∨ Takes e source call receipt :=
        fun held => Or.inr (Or.inl ⟨old, rfl, held⟩)
      have takes : Takes e source call receipt → receipt = default ∨
          (∃ p, some old = some p ∧ receipt ∈ p.held) ∨ Takes e source call receipt :=
        fun takes => Or.inr (Or.inr takes)
      have raised : ∀ {offered : ManagedReceipt Proof},
          (Replaces old.processed offered → Takes e source call offered) →
          receipt ∈ (old.process offered).held → receipt ∈ old.held ∨
            Takes e source call receipt := by
        intro offered taken member
        rcases Peer.mem_held.mp member with same | same | waits
        · exact Or.inl (Peer.mem_held.mpr (Or.inl same))
        · rcases raise_cases old.processed offered with ⟨later, replaced⟩ | ⟨_, _, kept⟩
          · exact Or.inr (same.trans replaced ▸ taken later)
          · exact Or.inl (Peer.mem_held.mpr (Or.inr (Or.inl (same.trans kept))))
        · exact Or.inl (Peer.mem_held.mpr (Or.inr (Or.inr waits)))
      cases touched with
      | enrolled => exact Or.inl (by simpa [Peer.mem_held, Peer.enrolled] using member)
      | @staged _ _ peer batch pending live _ _ _ _ preview =>
          have named : peer.identity.deviceId = source := by
            rw [← live.identity]
            exact devices source old before
          rcases Peer.mem_held.mp member with same | same | ⟨waiting, waits, same⟩
          · exact there (Peer.mem_held.mpr (Or.inl same))
          · exact there (Peer.mem_held.mpr (Or.inr (Or.inl same)))
          · obtain rfl := Option.some.inj waits
            rcases preview with ⟨pending, _⟩ | rfl
            · exact there (Peer.mem_held.mpr (Or.inr (Or.inr ⟨_, pending, same⟩)))
            · obtain ⟨reply, ran⟩ := Except.map_snd_ok.mp operated
              rcases receiveBatch_later ran with unmoved | ⟨current, live, later⟩
              · rw [unmoved, before] at found
                rw [← Option.some.inj found] at member
                exact there member
              · exact takes (same ▸ .batch named (named ▸ live.enrolled) later)
      | @received _ _ peer _ live later =>
          have named : peer.identity.deviceId = source := by
            rw [← live.identity]
            exact devices source old before
          rcases Peer.mem_held.mp member with same | same | ⟨_, waits, _⟩
          · exact takes (same ▸ .batch named before (replaces_iff.mpr later))
          · exact there (Peer.mem_held.mpr (Or.inr (Or.inl same)))
          · simp at waits
      | declined =>
          rcases Peer.mem_held.mp member with same | same | ⟨_, waits, _⟩
          · exact there (Peer.mem_held.mpr (Or.inl same))
          · exact there (Peer.mem_held.mpr (Or.inr (Or.inl same)))
          · simp at waits
      | merged _ pending _ same =>
          rcases Peer.mem_held.mp member with here | here | ⟨_, waits, _⟩
          · exact there (Peer.mem_held.mpr (Or.inr (Or.inr ⟨_, pending, by rw [here, same]⟩)))
          · exact there (Peer.mem_held.mpr (Or.inr (Or.inl here)))
          · simp at waits
      | processed => exact (raised (fun later => .applied before later) member).elim there takes
      | handled listed =>
          exact (raised (fun later => .inbox listed before later) member).elim there takes
      | removed =>
          rcases Peer.mem_held.mp member with same | same | ⟨_, waits, _⟩
          · exact there (Peer.mem_held.mpr (Or.inl same))
          · exact there (Peer.mem_held.mpr (Or.inr (Or.inl same)))
          · simp at waits
      | _ => exact there member

end Held

section Steps

variable {Proof : Type} [DecidableEq Proof] [ReceiptMac Proof] {fleet : Fleet Proof}
  {w after : World Proof} {node source target : String} {receipt : ManagedReceipt Proof}

def World.Sound (fleet : Fleet Proof) (w : World Proof) : Prop :=
  ∀ id, (w.nodes id).Holds (Managed.Sound (fleet.member id))

theorem World.Sound.step {event : WorldEvent Proof} (sound : w.Sound fleet)
    (moved : World.step fleet w event = some after) : after.Sound fleet := by
  cases event with
  | greet node peer addresses =>
      obtain ⟨_, _, rfl⟩ := Option.map_eq_some_iff.mp moved
      exact sound
  | capture node =>
      obtain rfl := Option.some.inj moved
      exact sound
  | session node event =>
      have move := World.step_session moved
      intro id
      by_cases here : id = node
      · subst here
        exact (sound id).step move.stepped
      · rw [move.others here]
        exact sound id

theorem Runs.sound_after (sound : w.Sound fleet) (run : Runs fleet w after) :
    after.Sound fleet :=
  run.invariant sound fun _ _ _ sound _ moved => sound.step moved

theorem Runs.sound (run : Runs fleet (World.start fleet) w) : w.Sound fleet :=
  Runs.sound_after (fun _ => .opened (.first _)) run

theorem World.shows {event : WorldEvent Proof} (sound : w.Sound fleet)
    (moved : World.step fleet w event = some after) {id : String} {view : Contents Proof}
    (shows : (after.nodes id).Shows view) :
    (∃ old, (w.nodes id).Shows old ∧ Kin old view) ∨
      ∃ change transaction saves call candidate,
        event = .session id (.call change transaction saves call) ∧
        w.delivers id call = true ∧
        operate (fleet.member id).inner change.text call (w.nodes id).envelope.toContents =
          .ok candidate ∧ Kin candidate view := by
  cases event with
  | greet node peer addresses =>
      obtain ⟨_, _, rfl⟩ := Option.map_eq_some_iff.mp moved
      exact Or.inl ⟨view, shows, .refl _⟩
  | capture node =>
      obtain rfl := Option.some.inj moved
      exact Or.inl ⟨view, shows, .refl _⟩
  | session node event =>
      have move := World.step_session moved
      by_cases here : id = node
      · subst here
        rcases Installation.shows (sound id) move.stepped shows with kept |
          ⟨_, _, _, _, _, rfl, _, _, operated, kin, _⟩
        · exact Or.inl kept
        · exact Or.inr ⟨_, _, _, _, _, rfl, move.delivered, operated, kin⟩
      · rw [move.others here] at shows
        exact Or.inl ⟨view, shows, .refl _⟩

theorem Accepts.step {event : WorldEvent Proof} (accepts : Accepts fleet source target w receipt)
    (sound : w.Sound fleet) (faithful : Faithful fleet source target w event)
    (moved : World.step fleet w event = some after) :
    Accepts fleet source target after receipt := by
  intro view shows
  rcases World.shows sound moved shows with ⟨old, was, kin⟩ |
    ⟨_, _, _, call, candidate, rfl, _, operated, kin⟩
  · exact (accepts old was).kin kin
  · exact ((accepts _ (Or.inl rfl)).operate (faithful.1 rfl) operated).kin kin

theorem Accepts.epoch (accepts : Accepts fleet source target w receipt) (sound : w.Sound fleet) :
    receipt.epoch = (fleet.member source).epoch.text := by
  obtain ⟨p, _, verified⟩ := accepts _ (Or.inl rfl)
  exact (verify_ok.mp verified).2.2.1.trans (sound source).memory.epoch

theorem Accepts.ne_default (accepts : Accepts fleet source target w receipt)
    (sound : w.Sound fleet) : receipt ≠ default := by
  rintro rfl
  exact (fleet.member source).epoch.ne_empty (accepts.epoch sound).symm

theorem Untainted.step {event : WorldEvent Proof} (untainted : Untainted fleet source target w)
    (sound : w.Sound fleet) (faithful : Faithful fleet source target w event)
    (moved : World.step fleet w event = some after) : Untainted fleet source target after := by
  intro view p shows found receipt member
  have kept : (receipt = default ∨ Accepts fleet source target w receipt) →
      receipt = default ∨ Accepts fleet source target after receipt :=
    fun before => before.imp_right fun accepts => accepts.step sound faithful moved
  rcases World.shows sound moved shows with ⟨old, was, kin⟩ |
    ⟨_, _, _, call, candidate, rfl, _, operated, kin⟩
  · rw [kin] at found
    exact kept (untainted old p was found receipt member)
  · rw [kin] at found
    rcases operate_held (sound target).memory.devices operated found member with
      none_there | ⟨old, before, held⟩ | takes
    · exact Or.inl none_there
    · exact kept (untainted _ old (Or.inl rfl) before receipt held)
    · exact kept (Or.inr ((faithful.2 rfl).2 receipt takes))

def Keeps (fleet : Fleet Proof) (source target : String) (w after : World Proof) : Prop :=
  Transition.Reaches (World.step fleet) (Faithful fleet source target) w after

theorem Keeps.sound (run : Keeps fleet source target w after) (sound : w.Sound fleet) :
    after.Sound fleet :=
  run.invariant sound fun _ _ _ sound _ moved => sound.step moved

theorem Keeps.accepts (run : Keeps fleet source target w after) (sound : w.Sound fleet)
    (accepts : Accepts fleet source target w receipt) :
    Accepts fleet source target after receipt :=
  (run.invariant (motive := fun w => w.Sound fleet ∧ Accepts fleet source target w receipt)
    ⟨sound, accepts⟩ fun _ _ _ holds faithful moved =>
      ⟨holds.1.step moved, holds.2.step holds.1 faithful moved⟩).2

theorem Keeps.untainted (run : Keeps fleet source target w after) (sound : w.Sound fleet)
    (untainted : Untainted fleet source target w) : Untainted fleet source target after :=
  (run.invariant (motive := fun w => w.Sound fleet ∧ Untainted fleet source target w)
    ⟨sound, untainted⟩ fun _ _ _ holds faithful moved =>
      ⟨holds.1.step moved, holds.2.step holds.1 faithful moved⟩).2

end Steps

section Cumulative

variable {Proof : Type}

structure AtLeast (epoch : String) (sequence : Nat) (receipt : ManagedReceipt Proof) : Prop where
  epoch : receipt.epoch = epoch
  sequence : sequence ≤ receipt.sequence

variable {epoch : String} {sequence : Nat} {held receipt : ManagedReceipt Proof}

theorem AtLeast.raise (least : AtLeast epoch sequence held)
    (same : Replaces held receipt → receipt.epoch = epoch) :
    AtLeast epoch sequence (raise held receipt) := by
  rcases raise_cases held receipt with ⟨later, replaced⟩ | ⟨_, _, kept⟩
  · rw [replaced]
    have own := same later
    refine ⟨own, least.sequence.trans ?_⟩
    rcases later with other | more
    · exact absurd (least.epoch.trans own.symm) other
    · exact more.le
  · rw [kept]
    exact least

theorem AtLeast.raised (least : AtLeast epoch sequence receipt) :
    AtLeast epoch sequence (Managed.raise held receipt) := by
  rcases raise_cases held receipt with ⟨_, replaced⟩ | ⟨same, within, kept⟩
  · rw [replaced]
    exact least
  · rw [kept]
    exact ⟨same.trans least.epoch, least.sequence.trans within⟩

variable [DecidableEq Proof] [ReceiptMac Proof] {fleet : Fleet Proof} {w after : World Proof}
  {source target : String}

/-- The target would pass on that it processed the source up to the sequence. -/
def Processed (fleet : Fleet Proof) (source target : String) (sequence : Nat)
    (w : World Proof) : Prop :=
  ∀ view, (w.nodes target).Shows view → ∃ p, view.peers[source]? = some p ∧
    AtLeast (fleet.member source).epoch.text sequence p.processed

def Applied (fleet : Fleet Proof) (source target : String) (sequence : Nat)
    (w : World Proof) : Prop :=
  ∀ view, (w.nodes source).Shows view → ∃ p, view.peers[target]? = some p ∧
    AtLeast (fleet.member source).epoch.text sequence p.applied

theorem Processed.step {event : WorldEvent Proof}
    (processed : Processed fleet source target sequence w) (sound : w.Sound fleet)
    (faithful : Faithful fleet source target w event)
    (moved : World.step fleet w event = some after) :
    Processed fleet source target sequence after := by
  intro view shows
  rcases World.shows sound moved shows with ⟨old, was, kin⟩ |
    ⟨_, _, _, call, candidate, rfl, _, operated, kin⟩
  · obtain ⟨p, found, least⟩ := processed old was
    exact ⟨p, by rw [kin]; exact found, least⟩
  · obtain ⟨kept, taken⟩ := faithful.2 rfl
    obtain ⟨old, before, least⟩ := processed _ (Or.inl rfl)
    have step := operate_peers operated source
    rw [before] at step
    generalize entry : candidate.peers[source]? = now at step
    rw [kin]
    have own : ∀ {receipt : ManagedReceipt Proof},
        Takes (w.nodes target).envelope.toContents source call receipt →
        receipt.epoch = (fleet.member source).epoch.text :=
      fun takes => (taken _ takes).epoch sound
    cases step with
    | kept touched =>
        refine ⟨_, entry, ?_⟩
        cases touched with
        | enrolled device fresh => exact absurd ⟨device.symm, fresh⟩ kept
        | processed => exact least.raise fun later => own (.applied before later)
        | handled listed => exact least.raise fun later => own (.inbox listed before later)
        | _ => exact least

theorem Keeps.processed (run : Keeps fleet source target w after) (sound : w.Sound fleet)
    (processed : Processed fleet source target sequence w) :
    Processed fleet source target sequence after :=
  (run.invariant (motive := fun w => w.Sound fleet ∧ Processed fleet source target sequence w)
    ⟨sound, processed⟩ fun _ _ _ holds faithful moved =>
      ⟨holds.1.step moved, holds.2.step holds.1 faithful moved⟩).2

theorem Applied.step {event : WorldEvent Proof}
    (applied : Applied fleet source target sequence w) (sound : w.Sound fleet)
    (steady : ∀ change transaction saves call,
      event = .session source (.call change transaction saves call) →
        ¬call.renews (w.nodes source).envelope.toContents target)
    (moved : World.step fleet w event = some after) :
    Applied fleet source target sequence after := by
  intro view shows
  rcases World.shows sound moved shows with ⟨old, was, kin⟩ |
    ⟨_, _, _, call, candidate, rfl, delivered, operated, kin⟩
  · obtain ⟨p, found, least⟩ := applied old was
    exact ⟨p, by rw [kin]; exact found, least⟩
  · have kept := steady _ _ _ _ rfl
    obtain ⟨old, before, least⟩ := applied _ (Or.inl rfl)
    have step := operate_peers operated target
    rw [before] at step
    generalize entry : candidate.peers[target]? = now at step
    rw [kin]
    cases step with
    | kept touched =>
        refine ⟨_, entry, ?_⟩
        cases touched with
        | enrolled device fresh => exact absurd ⟨device.symm, fresh⟩ kept
        | proven _ verified =>
            have epoch := (verify_ok.mp verified).2.2.1
            exact least.raise fun _ => epoch.trans (sound source).memory.epoch
        | @delivered _ _ _ disposition =>
            have stored : disposition = .stored := by
              simp only [World.delivers, Bool.and_eq_true, decide_eq_true_eq] at delivered
              exact delivered.1.1
            subst stored
            exact least
        | _ => exact least

end Cumulative

section Exchange

variable {Proof : Type} [DecidableEq Proof] [ReceiptMac Proof] {fleet : Fleet Proof}
  {w after : World Proof} {node source target : String} {sequence : Nat}

theorem World.attempt_kin {attempt : Attempt} {call : Call Proof} (sound : w.Sound fleet)
    (ran : w.attempt fleet node attempt call = some after) :
    ∃ candidate, operate (fleet.member node).inner attempt.change.text call
        (w.nodes node).envelope.toContents = .ok candidate ∧
      ∀ view, (after.nodes node).Shows view → Kin candidate view := by
  obtain ⟨moved, session, performed⟩ := World.attempt_ok ran
  obtain ⟨_, durable, candidate, operated, kin⟩ :=
    Session.perform_kin (sound node).settled performed
  have here : after.nodes node = session := by
    have stepped := (World.step_session moved).stepped
    simp only [Installation.step, performed, Option.some.injEq] at stepped
    exact stepped.symm
  refine ⟨candidate, operated, fun view shows => ?_⟩
  rw [here] at shows
  rcases shows with rfl | rfl
  · exact durable ▸ kin
  · exact kin

theorem authenticate_proven {inner : Inner Proof} {generation : Nat} {message : Hello Proof}
    {fingerprint : String} {e candidate : Contents Proof} {p peer : Peer Proof}
    {cursor : ManagedReceipt Proof} (found : e.peers[message.identity.deviceId]? = some p)
    (verified : verify inner e p message.processed = .ok ())
    (processed : message.processed ≠ default)
    (ran : authenticate inner generation message fingerprint e = .ok ((peer, cursor), candidate)) :
    candidate.peers[message.identity.deviceId]? =
      some ((p.prove message.processed).refresh message) := by
  simp only [authenticate] at ran
  split at ran
  · simp at ran
  · rename_i current checked
    obtain rfl := Option.some.inj ((check_ok checked).enrolled.symm.trans found)
    split at ran
    · simp at ran
    · simp only [if_pos (And.intro processed verified), Except.ok.injEq, Prod.mk.injEq] at ran
      rw [← ran.2, Contents.setPeer_peers, if_pos rfl]

theorem World.meet_applied {addresses : List String} {party : Party}
    {found : Peer Proof × ManagedReceipt Proof} (sound : w.Sound fleet)
    (untainted : Untainted fleet source target w)
    (processed : Processed fleet source target sequence w)
    (ran : w.meet fleet target source addresses party = some (found, after)) :
    Applied fleet source target sequence after := by
  simp only [World.meet, Option.bind_eq_bind, Option.bind_eq_some_iff, Option.some.injEq,
    Prod.mk.injEq] at ran
  obtain ⟨greeted, stepped, sent, first, met, authenticated, _, _, _, _, _, rfl⟩ := ran
  obtain ⟨candidate, operated, kin⟩ := World.attempt_kin (sound.step stepped) authenticated
  obtain ⟨p, listed, rfl⟩ := Option.map_eq_some_iff.mp stepped
  obtain rfl := Option.some.inj first
  obtain ⟨q, here, least⟩ := processed _ (Or.inl rfl)
  obtain rfl := Option.some.inj (listed.symm.trans here)
  have accepts : Accepts fleet source target w p.processed := by
    refine (untainted _ p (Or.inl rfl) listed _ (Peer.mem_held.mpr (Or.inr (Or.inl rfl)))).resolve_left ?_
    intro none_there
    have own := least.epoch
    rw [none_there] at own
    exact (fleet.member source).epoch.ne_empty own.symm
  obtain ⟨r, enrolled, verified⟩ := accepts _ (Or.inl rfl)
  have named : (w.nodes target).envelope.identity.deviceId = target := by
    rw [(sound target).memory.identity]
    exact fleet.named target
  obtain ⟨⟨peer, cursor⟩, authentic⟩ := Except.map_snd_ok.mp operated
  have proven := authenticate_proven (named.symm ▸ enrolled) verified (accepts.ne_default sound)
    authentic
  intro view shows
  refine ⟨(r.prove p.processed).refresh (hello (fleet.member target).inner
    (w.nodes target).envelope.toContents p addresses), ?_, least.raised⟩
  rw [kin view shows]
  exact (congrArg (fun id : String => candidate.peers[id]?) named.symm).trans proven

theorem Applied.run {events : WorldEvent Proof → Prop}
    (applied : Applied fleet source target sequence w) (sound : w.Sound fleet)
    (steady : ∀ (w : World Proof) change transaction saves call,
      events (.session source (.call change transaction saves call)) →
        ¬call.renews (w.nodes source).envelope.toContents target)
    (run : Transition.Reaches (World.step fleet) (fun _ event => events event) w after) :
    after.Sound fleet ∧ Applied fleet source target sequence after :=
  run.invariant (motive := fun w => w.Sound fleet ∧ Applied fleet source target sequence w)
    ⟨sound, applied⟩ fun state _ _ holds permitted moved =>
      ⟨holds.1.step moved, holds.2.step holds.1
        (fun change transaction saves call same =>
          steady state change transaction saves call (same ▸ permitted)) moved⟩

theorem faithful_of_meets (event : WorldEvent Proof) (permitted : event.meets = true) :
    Faithful fleet source target w event := by
  cases event with
  | greet => trivial
  | capture => trivial
  | session node event =>
      cases event with
      | call change transaction saves call =>
          cases call with
          | hello => exact ⟨fun _ renews => renews, fun _ => ⟨fun renews => renews, nofun⟩⟩
          | _ => simp [WorldEvent.meets] at permitted
      | _ => trivial

theorem World.exchange_applied {caller listener : String} {outbound inbound : Party}
    (sound : w.Sound fleet) (untainted : Untainted fleet source target w)
    (processed : Processed fleet source target sequence w)
    (between : caller = source ∧ listener = target ∨ caller = target ∧ listener = source)
    (ran : w.exchange fleet caller listener outbound inbound = some after) :
    Applied fleet source target sequence after := by
  simp only [World.exchange, Option.bind_eq_bind, Option.bind_eq_some_iff, Prod.exists] at ran
  obtain ⟨_, _, first, called, _, _, second, answered, _, pushed, returned⟩ := ran
  have pushes : ∀ {w after : World Proof}, w.Sound fleet ∧ Applied fleet source target sequence w →
      Transition.Reaches (World.step fleet) (fun _ event => event.pushes = true) w after →
      after.Sound fleet ∧ Applied fleet source target sequence after := by
    intro w after holds run
    refine holds.2.run holds.1 (fun w change transaction saves call permitted => ?_) run
    cases call with
    | exportTo | transmit | receive | acknowledge => exact fun renews => renews
    | _ => simp [WorldEvent.pushes] at permitted
  have met : second.Sound fleet ∧ Applied fleet source target sequence second := by
    rcases between with ⟨rfl, rfl⟩ | ⟨rfl, rfl⟩
    · have faithful : Keeps fleet caller listener w first :=
        (World.meet_reaches called).mono fun _ => faithful_of_meets
      have processed := faithful.processed sound processed
      exact ⟨Runs.sound_after (faithful.sound sound) (World.meet_runs answered),
        World.meet_applied (faithful.sound sound) (faithful.untainted sound untainted) processed
          answered⟩
    · have applied := World.meet_applied sound untainted processed called
      refine applied.run (Runs.sound_after sound (World.meet_runs called))
        (fun w change transaction saves call permitted => ?_) (World.meet_reaches answered)
      cases call with
      | hello => exact fun renews => renews
      | _ => simp [WorldEvent.meets] at permitted
  exact (pushes (pushes met (World.push_reaches pushed)) (World.push_reaches returned)).2

end Exchange

section Honest

variable {Proof : Type} [DecidableEq Proof] [ReceiptMac Proof] {fleet : Fleet Proof}
  {w after : World Proof} {source target : String}

def Incarnated (w : World Proof) : Prop :=
  ∀ (id : String) (view : Contents Proof) (peer : String) (p : Peer Proof),
    (w.nodes id).Shows view → view.peers[peer]? = some p → p.incarnation ≠ ""

theorem PeerStep.incarnated {inner : Inner Proof} {e : Contents Proof} {call : Call Proof}
    {id : String} {entry : Option (Peer Proof)} {new : Peer Proof}
    (step : PeerStep inner e call id entry (some new))
    (before : ∀ old, entry = some old → old.incarnation ≠ "") : new.incarnation ≠ "" := by
  cases step with
  | enrolled => exact RandomId.ne_empty _
  | kept touched =>
      have named := before _ rfl
      cases touched with
      | removed => exact RandomId.ne_empty _
      | rekeyed => exact RandomId.ne_empty _
      | enrolled => exact RandomId.ne_empty _
      | _ => exact named

theorem Incarnated.step {event : WorldEvent Proof} (incarnated : Incarnated w)
    (sound : w.Sound fleet) (moved : World.step fleet w event = some after) :
    Incarnated after := by
  intro id view peer p shows found
  rcases World.shows sound moved shows with ⟨old, was, kin⟩ |
    ⟨_, _, _, call, candidate, rfl, _, operated, kin⟩
  · rw [kin] at found
    exact incarnated id old peer p was found
  · rw [kin] at found
    have step := operate_peers operated peer
    rw [found] at step
    exact step.incarnated fun old before => incarnated id _ peer old (Or.inl rfl) before

theorem Incarnated.run {allowed : World Proof → WorldEvent Proof → Prop}
    (incarnated : Incarnated w) (sound : w.Sound fleet)
    (run : Transition.Reaches (World.step fleet) allowed w after) : Incarnated after :=
  (run.invariant (motive := fun w => w.Sound fleet ∧ Incarnated w) ⟨sound, incarnated⟩
    fun _ _ _ holds _ moved => ⟨holds.1.step moved, holds.2.step holds.1 moved⟩).2

omit [DecidableEq Proof] [ReceiptMac Proof] in
theorem Incarnated.start (fleet : Fleet Proof) : Incarnated (World.start fleet) := by
  intro id view peer p shows found
  rw [Session.shows_opened shows] at found
  simp [Installation.first, Installation.created] at found

theorem World.export_accepts {attempt : Attempt} {generation : Nat} {peer : Peer Proof}
    {cursor : ManagedReceipt Proof} {sent : Sent (ExportBatch Proof)} (sound : w.Sound fleet)
    (incarnated : Incarnated w) (named : peer.identity.deviceId = target)
    (ran : w.attempt fleet source attempt (.exportTo generation peer cursor) = some after)
    (first : after.batches.head? = some sent) :
    Accepts fleet source target after sent.message.checkpoint := by
  obtain ⟨moved, session, performed⟩ := World.attempt_ok ran
  obtain ⟨candidate, operated, kin⟩ := World.attempt_kin sound ran
  obtain ⟨batch, exported⟩ := Except.map_snd_ok.mp operated
  have emitted : after.batches = {
      sender := source
      receiver := peer.identity.deviceId
      message := batch } :: w.batches := by
    simp only [World.step] at moved
    split at moved
    · simp only [performed, Option.some.injEq] at moved
      rw [← moved]
      simp only [World.emit, exported]
      rfl
    · simp at moved
  rw [emitted] at first
  obtain rfl := Option.some.inj first
  obtain ⟨current, live, rfl, minted, _, _⟩ := exportBatch_ok exported
  have enrolled := live.enrolled
  rw [named] at enrolled
  intro view shows
  refine Verified.kin ⟨current, enrolled, ?_⟩ (kin view shows)
  rw [minted]
  exact verify_mint live.unrevoked (incarnated source _ target current (Or.inl rfl) enrolled)

theorem faithful_plain {node : String} {attempt : Attempt} {call : Call Proof}
    (keeps : ∀ e peer, ¬call.renews e peer)
    (takes : node = target → ∀ receipt, Takes (w.nodes target).envelope.toContents source call
      receipt → Accepts fleet source target w receipt) :
    Faithful fleet source target w
      (.session node (.call attempt.change attempt.transaction attempt.saves call)) :=
  ⟨fun _ => keeps _ _, fun here => ⟨keeps _ _, takes here⟩⟩

theorem World.push_keeps {sender receiver : String} {outgoing incoming : Party}
    {peer other : Peer Proof} {cursor : ManagedReceipt Proof} (sound : w.Sound fleet)
    (incarnated : Incarnated w)
    (towards : receiver = target → sender = source ∧ peer.identity.deviceId = target)
    (ran : w.push fleet sender receiver outgoing incoming peer other cursor = some after) :
    Keeps fleet source target w after := by
  simp only [World.push, Option.bind_eq_bind, Option.bind_eq_some_iff] at ran
  obtain ⟨exported, exports, sent, first, transmitted, transmits, received, receives, _, _,
    acknowledges⟩ := ran
  have export_run : Keeps fleet source target w exported := by
    refine World.attempt_reaches (faithful_plain ?_ ?_) exports
    · exact fun _ _ renews => renews
    · intro _ _ takes
      cases takes
  have transmit_run : Keeps fleet source target exported transmitted := by
    refine World.attempt_reaches (faithful_plain ?_ ?_) transmits
    · exact fun _ _ renews => renews
    · intro _ _ takes
      cases takes
  have receive_run : Keeps fleet source target transmitted received := by
    refine World.attempt_reaches (faithful_plain ?_ ?_) receives
    · exact fun _ _ renews => renews
    · intro here receipt takes
      obtain ⟨rfl, named⟩ := towards here
      cases takes with
      | batch =>
          exact transmit_run.accepts (export_run.sound sound)
            (World.export_accepts sound incarnated named exports first)
  have acknowledge_run : Keeps fleet source target received after := by
    refine World.attempt_reaches (faithful_plain ?_ ?_) acknowledges
    · exact fun _ _ renews => renews
    · intro _ _ takes
      cases takes
  exact ((export_run.trans transmit_run).trans receive_run).trans acknowledge_run

theorem World.meet_named {sender receiver : String} {addresses : List String} {party : Party}
    {found : Peer Proof × ManagedReceipt Proof} (sound : w.Sound fleet)
    (ran : w.meet fleet sender receiver addresses party = some (found, after)) :
    found.1.identity.deviceId = sender := by
  have later := Runs.sound_after sound (World.meet_runs ran)
  simp only [World.meet, Option.bind_eq_bind, Option.bind_eq_some_iff, Option.some.injEq,
    Prod.mk.injEq] at ran
  obtain ⟨_, _, _, _, _, _, peer, listed, _, _, rfl, rfl⟩ := ran
  exact (later receiver).memory.devices sender peer listed

theorem World.exchange_keeps {caller listener : String} {outbound inbound : Party}
    (apart : source ≠ target) (sound : w.Sound fleet) (incarnated : Incarnated w)
    (between : caller = source ∧ listener = target ∨ caller = target ∧ listener = source)
    (ran : w.exchange fleet caller listener outbound inbound = some after) :
    Keeps fleet source target w after := by
  simp only [World.exchange, Option.bind_eq_bind, Option.bind_eq_some_iff, Prod.exists] at ran
  obtain ⟨_, _, first, called, _, _, second, answered, third, pushed, returned⟩ := ran
  have first_run : Keeps fleet source target w first :=
    (World.meet_reaches called).mono fun _ => faithful_of_meets
  have second_run : Keeps fleet source target first second :=
    (World.meet_reaches answered).mono fun _ => faithful_of_meets
  have first_sound := first_run.sound sound
  have second_sound := second_run.sound first_sound
  have second_named := incarnated.run sound (first_run.trans second_run)
  have opposite : ∀ {id other : String}, id = target → other = caller ∧ id = listener ∨
      other = listener ∧ id = caller → other = source := by
    rintro id other rfl pair
    rcases between with ⟨rfl, rfl⟩ | ⟨rfl, rfl⟩
    · exact pair.elim And.left fun swapped => absurd swapped.2.symm apart
    · exact pair.elim (fun swapped => absurd swapped.2.symm apart) And.left
  have third_run : Keeps fleet source target second third := by
    refine World.push_keeps second_sound second_named (fun here => ⟨?_, ?_⟩) pushed
    · exact opposite here (Or.inl ⟨rfl, rfl⟩)
    · exact (World.meet_named first_sound answered).trans here
  have last_run : Keeps fleet source target third after := by
    refine World.push_keeps (third_run.sound second_sound) (second_named.run second_sound third_run)
      (fun here => ⟨?_, ?_⟩) returned
    · exact opposite here (Or.inr ⟨rfl, rfl⟩)
    · exact (World.meet_named sound called).trans here
  exact ((first_run.trans second_run).trans third_run).trans last_run

end Honest

section Acknowledgement

variable {Proof : Type} [DecidableEq Proof] [ReceiptMac Proof]

omit [DecidableEq Proof] [ReceiptMac Proof] in
theorem applicationInbox_listed {e : Contents Proof} {source : String}
    {receipt : ManagedReceipt Proof}
    (listed : (applicationInbox e).receipts[source]? = some receipt) :
    receipt.epoch ≠ "" ∧ ∃ p, e.peers[source]? = some p ∧ receipt ∈ p.held := by
  simp only [applicationInbox, Std.ExtTreeMap.getElem?_filterMap', Option.bind_eq_some_iff] at listed
  obtain ⟨p, found, kept⟩ := listed
  split at kept
  · rename_i current
    obtain rfl := Option.some.inj kept
    exact ⟨current.2, p, found, Peer.mem_held.mpr (Or.inl rfl)⟩
  · simp at kept

/-- An inbox that the application captures once the target holds nothing that the source would
refuse, and acknowledges in the same enrolments, leaves a proof that the source accepts; the next
exchange makes it applied there. Until then the target must not take other receipts than those the
source accepts. -/
theorem acknowledged_accepted (fleet : Fleet Proof) {source target : String}
    {opened captured later acknowledged : World Proof} {receipt : ManagedReceipt Proof}
    {attempt : Attempt} (history : Runs fleet (World.start fleet) opened)
    (untainted : Untainted fleet source target opened)
    (before : Keeps fleet source target opened captured)
    (listed : (applicationInbox (captured.nodes target).envelope.toContents).receipts[source]? =
      some receipt)
    (since : Keeps fleet source target captured later)
    (reported : later.attempt fleet target attempt
      (.acknowledgeInbox (applicationInbox (captured.nodes target).envelope.toContents)) =
        some acknowledged) :
    (∃ p, (acknowledged.nodes target).envelope.peers[source]? = some p ∧
      receipt.sequence ≤ p.processed.sequence ∧
      Verified (fleet.member source).inner target p.processed
        (acknowledged.nodes source).envelope.toContents) ∧
    ∀ (meeting final : World Proof) (caller listener : String) (outbound inbound : Party),
      Keeps fleet source target acknowledged meeting →
      caller = source ∧ listener = target ∨ caller = target ∧ listener = source →
      meeting.exchange fleet caller listener outbound inbound = some final →
        ∃ q, (final.nodes source).envelope.peers[target]? = some q ∧
          q.applied.epoch = (fleet.member source).epoch.text ∧
          receipt.sequence ≤ q.applied.sequence := by
  have sound := before.sound history.sound
  have accepts : Accepts fleet source target captured receipt := by
    obtain ⟨named, p, found, held⟩ := applicationInbox_listed listed
    refine (before.untainted history.sound untainted _ p (Or.inl rfl) found receipt held).resolve_left
      fun none_there => named ?_
    rw [none_there]
    rfl
  have accepted := since.accepts sound accepts
  have reports : Keeps fleet source target later acknowledged := by
    refine World.attempt_reaches ?_ reported
    refine ⟨fun _ renews => renews, fun _ => ⟨fun renews => renews, fun taken takes => ?_⟩⟩
    cases takes with
    | inbox here => exact Option.some.inj (listed.symm.trans here) ▸ accepted
  have run : Keeps fleet source target opened acknowledged := (before.trans since).trans reports
  have final := run.sound history.sound
  have clean := run.untainted history.sound untainted
  have processed : Processed fleet source target receipt.sequence acknowledged := by
    obtain ⟨candidate, operated, kin⟩ := World.attempt_kin (since.sound sound) reported
    obtain ⟨reply, ran⟩ := Except.map_snd_ok.mp operated
    obtain ⟨p, _, _, written⟩ := ((acknowledgeInbox_ok ran).2 source).2 receipt listed
    intro view shows
    refine ⟨p.process receipt, by rw [kin view shows]; exact written, ?_⟩
    exact AtLeast.raised ⟨accepted.epoch (since.sound sound), le_rfl⟩
  obtain ⟨p, found, least⟩ := processed _ (Or.inl rfl)
  have proof : Accepts fleet source target acknowledged p.processed := by
    refine (clean _ p (Or.inl rfl) found _ (Peer.mem_held.mpr (Or.inr (Or.inl rfl)))).resolve_left
      fun none_there => (fleet.member source).epoch.ne_empty ?_
    rw [← least.epoch, none_there]
    rfl
  refine ⟨⟨p, found, least.sequence, proof _ (Or.inl rfl)⟩, ?_⟩
  intro meeting last caller listener outbound inbound kept between exchanged
  obtain ⟨q, listed, applied⟩ := World.exchange_applied (kept.sound final)
    (kept.untainted final clean) (kept.processed final processed) between exchanged _ (Or.inl rfl)
  exact ⟨q, listed, applied.epoch, applied.sequence⟩

end Acknowledgement

section Sample

def secondId : RandomId where
  text := "00000000000000000000000000000002"
  sized := rfl

def sampleHandler : Handler where
  generation := 2
  expected := none
  addresses := []
  recovering := false
  repair := false

def enrollAgain : List (WorldEvent SymbolicProof) :=
  [.session "phone" (sampleCall (.commit sampleHandler
      { deskOutcome with invitationId := "second" } desk.groupKey secondId fun _ => secondId)),
    .session "desk" (sampleCall (.commit sampleHandler
      { phone with invitationId := "second" } desk.groupKey secondId fun _ => secondId))]

def phoneInbox (w : World SymbolicProof) : ApplicationInbox SymbolicProof :=
  applicationInbox (w.nodes "phone").envelope.toContents

def meetAgain (w : World SymbolicProof) : Option (World SymbolicProof) :=
  w.exchange sampleFleet "desk" "phone" (sampleParty "phone certificate")
    (sampleParty "desk certificate")

/-- The phone reads its inbox, both pair again and meet, and it acknowledges what it read. -/
def staleReported : Option (World SymbolicProof) := do
  let old ← bootstrapped
  let enrolled ← Transition.run (World.step sampleFleet) old enrollAgain
  let met ← meetAgain enrolled
  met.attempt sampleFleet "phone" sampleAttempt (.acknowledgeInbox (phoneInbox old))

theorem staleReported_runs : staleReported.isSome = true := by
  decide +kernel

def staleWorld : World SymbolicProof := staleReported.get staleReported_runs

theorem bootstrapped_reached {w : World SymbolicProof} (ran : bootstrapped = some w) :
    Runs sampleFleet (World.start sampleFleet) w := by
  simp only [bootstrapped, Option.bind_eq_bind, Option.bind_eq_some_iff] at ran
  obtain ⟨_, enrolled, met⟩ := ran
  exact (Transition.reaches_of_run _ enrolled).trans (World.exchange_runs met)

theorem staleWorld_reached : Runs sampleFleet (World.start sampleFleet) staleWorld := by
  have ran : staleReported = some staleWorld := (Option.some_get staleReported_runs).symm
  simp only [staleReported, Option.bind_eq_bind, Option.bind_eq_some_iff] at ran
  obtain ⟨_, old, _, enrolled, _, met, acknowledged⟩ := ran
  exact (((bootstrapped_reached old).trans (Transition.reaches_of_run _ enrolled)).trans
    (World.exchange_runs met)).trans (World.attempt_runs acknowledged)

theorem paired_untainted {w : World SymbolicProof}
    (enrolled : Transition.run (World.step sampleFleet) (World.start sampleFleet)
      (enrollPhone.map (.session "desk") ++ enrollDesk.map (.session "phone")) = some w) :
    Untainted sampleFleet "desk" "phone" w := by
  have empty : (Transition.run (World.step sampleFleet) (World.start sampleFleet)
      (enrollPhone.map (.session "desk") ++ enrollDesk.map (.session "phone"))).all (fun w =>
        [(w.nodes "phone").envelope.toContents, (w.nodes "phone").durable].all fun view =>
          (view.peers["desk"]?).all fun p => p.held.all (· = default)) = true := by
    decide +kernel
  rw [enrolled] at empty
  simp only [Option.all_some, List.all_cons, List.all_nil, Bool.and_true, Bool.and_eq_true] at empty
  have checked : ∀ view : Contents SymbolicProof,
      (view.peers["desk"]?).all (fun p => p.held.all (· = default)) = true →
      ∀ p : Peer SymbolicProof, view.peers["desk"]? = some p →
        ∀ receipt ∈ p.held, receipt = default := by
    intro view all p found receipt member
    rw [found, Option.all_some, List.all_eq_true] at all
    exact of_decide_eq_true (all receipt member)
  intro view p shows found receipt member
  rcases shows with rfl | rfl
  · exact Or.inl (checked _ empty.1 p found receipt member)
  · exact Or.inl (checked _ empty.2 p found receipt member)

theorem acknowledged_accepted_phone : ∃ captured acknowledged receipt p,
    bootstrapped = some captured ∧
    (phoneInbox captured).receipts["desk"]? = some receipt ∧
    captured.attempt sampleFleet "phone" sampleAttempt
      (.acknowledgeInbox (phoneInbox captured)) = some acknowledged ∧
    (acknowledged.nodes "phone").envelope.peers["desk"]? = some p ∧
    receipt.sequence ≤ p.processed.sequence ∧
    Verified (sampleFleet.member "desk").inner "phone" p.processed
      (acknowledged.nodes "desk").envelope.toContents := by
  have reported : bootstrapped.any (fun captured =>
      ((phoneInbox captured).receipts["desk"]?).any fun _ =>
      (captured.attempt sampleFleet "phone" sampleAttempt
        (.acknowledgeInbox (phoneInbox captured))).any fun _ => true) = true := by
    decide +kernel
  simp only [Option.any_eq_true] at reported
  obtain ⟨captured, ran, receipt, listed, acknowledged, reports, _⟩ := reported
  have met := ran
  simp only [bootstrapped, Option.bind_eq_bind, Option.bind_eq_some_iff] at met
  obtain ⟨paired, enrolled, exchanged⟩ := met
  have history := Transition.reaches_of_run _ enrolled
  have sound := Runs.sound history
  have apart : "desk" ≠ "phone" := by decide
  have before := World.exchange_keeps apart sound
    ((Incarnated.start sampleFleet).run (Runs.sound .start) history) (Or.inl ⟨rfl, rfl⟩) exchanged
  obtain ⟨⟨p, found, covered, verified⟩, _⟩ := acknowledged_accepted sampleFleet history
    (paired_untainted enrolled) before listed .start reports
  exact ⟨captured, acknowledged, receipt, p, ran, listed, reports, found, covered, verified⟩

def deskVerifies (w : World SymbolicProof) (receipt : ManagedReceipt SymbolicProof) : Bool :=
  ((w.nodes "desk").envelope.peers["phone"]?).any fun p =>
    verify (sampleFleet.member "desk").inner (w.nodes "desk").envelope.toContents p receipt = .ok ()

/-- The phone now reads and acknowledges its inbox with a receipt that the desk verifies. It goes
on to hold the stale receipt of the same sequence, which the desk refuses in the next exchange. -/
theorem staleWorld_blocked : ∃ acknowledged final receipt processed applied,
    Runs sampleFleet (World.start sampleFleet) staleWorld ∧
    (phoneInbox staleWorld).receipts["desk"]? = some receipt ∧
    deskVerifies staleWorld receipt = true ∧
    staleWorld.attempt sampleFleet "phone" sampleAttempt
      (.acknowledgeInbox (phoneInbox staleWorld)) = some acknowledged ∧
    ((acknowledged.nodes "phone").envelope.peers["desk"]?).map Peer.processed = some processed ∧
    deskVerifies acknowledged processed = false ∧
    meetAgain acknowledged = some final ∧
    ((final.nodes "desk").envelope.peers["phone"]?).map Peer.applied = some applied ∧
    applied = default := by
  have blocked : ((phoneInbox staleWorld).receipts["desk"]?).any (fun receipt =>
      deskVerifies staleWorld receipt &&
      (staleWorld.attempt sampleFleet "phone" sampleAttempt
        (.acknowledgeInbox (phoneInbox staleWorld))).any fun acknowledged =>
      (((acknowledged.nodes "phone").envelope.peers["desk"]?).map Peer.processed).any fun processed =>
      !deskVerifies acknowledged processed &&
      (meetAgain acknowledged).any fun final =>
      (((final.nodes "desk").envelope.peers["phone"]?).map Peer.applied).any fun applied =>
      decide (applied = default)) = true := by
    decide +kernel
  simp only [Option.any_eq_true, Bool.and_eq_true, Bool.not_eq_true', decide_eq_true_eq] at blocked
  obtain ⟨receipt, listed, accepted, acknowledged, ran, processed, held, refused, final, met,
    applied, counted, nothing⟩ := blocked
  exact ⟨acknowledged, final, receipt, processed, applied, staleWorld_reached, listed, accepted, ran,
    held, refused, met, counted, nothing⟩

end Sample

end LibreSync.Managed
