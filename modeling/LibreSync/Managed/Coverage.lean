import LibreSync.Managed.Meeting

/-!
Stored receipts are truthful: whatever a session still counts as stored at a peer, the peer has,
in that version or a newer one.
-/

namespace LibreSync.Managed

section Growth

variable {Proof : Type}

def Has (target : Contents Proof) (record : ManagedRecord) : Prop :=
  ∃ stored, target.records[record.key]? = some stored ∧
    (stored = record ∨ record.clock < stored.clock)

/-- What one session's growth means to the others: it loses no version, and what it shows of its
records up to an old revision it showed before. -/
structure Grows (before after : Session Proof) : Prop where
  has : ∀ record, Has before.durable record → Has after.durable record
  revision : before.durable.revision ≤ after.durable.revision
  views : ∀ view, after.Shows view → ∀ bound, bound ≤ before.durable.revision →
    ∃ old, before.Shows old ∧ ∀ (key : RecordKey) (record : ManagedRecord) (held : Nat),
      view.records[key]? = some record → view.sequences[key]? = some held → held ≤ bound →
        old.records[key]? = some record ∧ old.sequences[key]? = some held

theorem Grows.refl (session : Session Proof) : Grows session session where
  has _ has := has
  revision := le_rfl
  views view shows _ _ := ⟨view, shows, fun _ _ _ found sequenced _ => ⟨found, sequenced⟩⟩

theorem Has.committed {inner : Inner Proof} {origin : Option String}
    {incoming : List ManagedRecord} {before after : Contents Proof}
    (committed : Committed inner origin incoming before after) {record : ManagedRecord}
    (has : Has before record) : Has after record := by
  obtain ⟨stored, found, rank⟩ := has
  rcases committed.entries record.key with same | ⟨new, _, _, fresh, newer⟩
  · exact ⟨stored, same.record.trans found, rank⟩
  · refine ⟨new, fresh.record, Or.inr ?_⟩
    rcases rank with rfl | older
    · exact newer _ found
    · exact older.trans (newer _ found)

theorem Committed.older {inner : Inner Proof} {origin : Option String}
    {incoming : List ManagedRecord} {before after : Contents Proof}
    (committed : Committed inner origin incoming before after) {key : RecordKey}
    {record : ManagedRecord} {held : Nat} (found : after.records[key]? = some record)
    (sequenced : after.sequences[key]? = some held) (within : held ≤ before.revision) :
    before.records[key]? = some record ∧ before.sequences[key]? = some held := by
  rcases committed.entries key with same | ⟨_, _, _, fresh, _⟩
  · exact ⟨same.record ▸ found, same.sequence ▸ sequenced⟩
  · obtain ⟨sequence, written, past, _⟩ := fresh.sequence
    have := Option.some.inj (written.symm.trans sequenced)
    omega

variable [DecidableEq Proof] [ReceiptMac Proof] {installation : Installation Proof}

theorem operate_has {change : String} {call : Call Proof} {e after : Contents Proof}
    (uniform : installation.inner.config.Uniform) (sound : Sound installation e)
    (operated : operate installation.inner change call e = .ok after) {record : ManagedRecord}
    (has : Has e record) : Has after record := by
  have carried : ∀ {middle : Contents Proof}, SameData middle after → Has middle record →
      Has after record := by
    rintro middle data ⟨stored, found, rank⟩
    exact ⟨stored, data.records ▸ found, rank⟩
  cases operate_effect operated with
  | quiet data => exact carried data has
  | wrote merging data => exact carried data (has.committed (merging.committed uniform sound.keyed))
  | arrived _ _ merging data =>
      exact carried data (has.committed (merging.committed uniform sound.keyed))

theorem Installation.grows {session after : Session Proof} {event : SessionEvent Proof}
    (uniform : installation.inner.config.Uniform) (holds : session.Holds (Sound installation))
    (moved : installation.step session event = some after) : Grows session after := by
  have advanced := (Installation.stepped holds.settled moved).advanced holds.settled
  refine ⟨fun record has => ?_, (advanced.since holds.durable).revision, ?_⟩
  · generalize after.durable = contents at advanced
    cases advanced with
    | kept => exact has
    | called _ operated finished =>
        obtain ⟨stored, found, rank⟩ := operate_has uniform holds.durable operated has
        exact ⟨stored, by rw [completed_rest finished]; exact found, rank⟩
    | launched launched =>
        obtain ⟨rfl, _⟩ := holds.durable.launch launched
        exact has
  · intro view shows bound within
    rcases Installation.shows holds moved shows with ⟨old, was, kin⟩ |
      ⟨_, _, _, _, candidate, _, free, _, operated, kin, _⟩
    · refine ⟨old, was, fun key record held found sequenced _ => ?_⟩
      rw [kin] at found sequenced
      exact ⟨found, sequenced⟩
    · have durable := holds.settled.durable free
      refine ⟨_, Or.inl rfl, fun key record held found sequenced small => ?_⟩
      rw [kin] at found sequenced
      have past : held ≤ session.envelope.revision := by
        rw [durable] at within
        exact small.trans within
      cases operate_effect operated with
      | quiet data => exact ⟨data.records ▸ found, data.sequences ▸ sequenced⟩
      | wrote merging data =>
          exact (merging.committed uniform holds.memory.keyed).older (data.records ▸ found)
            (data.sequences ▸ sequenced) past
      | arrived _ _ merging data =>
          exact (merging.committed uniform holds.memory.keyed).older (data.records ▸ found)
            (data.sequences ▸ sequenced) past

end Growth

section Exports

variable {Proof : Type} {inner : Inner Proof}

theorem exportEach_ok {adapters : List (String × ManagedAdapter)}
    (uniform : ∀ item ∈ adapters, ∃ descriptor, item.2 = recordsAdapter descriptor)
    {records result : List ManagedRecord} (ran : exportEach records adapters = .ok result) :
    ∀ record, record ∈ result ↔ record ∈ records ∧ record.adapter ∈ adapters.map Prod.fst := by
  induction adapters generalizing result with
  | nil =>
      obtain rfl := Except.ok.inj ran
      simp
  | cons item rest ih =>
      obtain ⟨name, adapter⟩ := item
      obtain ⟨descriptor, same⟩ := uniform _ List.mem_cons_self
      simp only at same
      subst same
      simp only [exportEach, recordsAdapter] at ran
      split at ran
      · simp [fail] at ran
      · obtain ⟨later, exported, rfl⟩ := Except.map_ok ran
        intro record
        rw [List.mem_append, ih (fun item member => uniform item (List.mem_cons_of_mem _ member))
          exported]
        simp only [List.mem_filter, decide_eq_true_eq, List.map_cons, List.mem_cons]
        tauto

theorem exportRecords_ok (uniform : inner.config.Uniform) {records result : List ManagedRecord}
    (ran : exportRecords inner records = .ok result) (record : ManagedRecord) :
    record ∈ result ↔ record ∈ records ∧ inner.config.registers record.adapter := by
  have each := exportEach_ok (fun item member => ?_) ran record
  · rw [each, SessionConfig.registers, ← Std.ExtTreeMap.mem_keys,
      ← Std.ExtTreeMap.map_fst_toList_eq_keys]
  · obtain ⟨descriptor, _, same⟩ := uniform item.1 item.2
      (Std.ExtTreeMap.mem_toList_iff_getElem?_eq_some.mp member)
    exact ⟨descriptor, same⟩

theorem Sound.registers {installation : Installation Proof} {e : Contents Proof}
    (sound : Sound installation e) {key : RecordKey} {record : ManagedRecord}
    (found : e.records[key]? = some record) :
    installation.inner.config.registers record.adapter := by
  have bounded := sound.bounded
  simp only [Limits.state] at bounded
  split at bounded
  · simp [failCode] at bounded
  · split at bounded
    · simp [failCode] at bounded
    · split at bounded
      · simp [failCode] at bounded
      · rename_i allowed
        simp only [not_not, List.all_eq_true] at allowed
        have listed := allowed record (BTreeMap.mem_valueList.mpr ⟨key, found⟩)
        simp only [Limits.recordAllowed, Bool.and_eq_true] at listed
        exact sound.registered listed.2

theorem mem_selected {e : Contents Proof} {peer : String} {cursor : ManagedReceipt Proof}
    {record : ManagedRecord} : record ∈ selected e peer cursor ↔
      ∃ key : RecordKey, e.records[key]? = some record ∧ (wantsFull e cursor = true ∨
        cursor.sequence < (e.sequences[key]?).getD u64Max ∧ e.origins[key]? ≠ some peer) := by
  simp only [selected, List.mem_map, List.mem_filter, decide_eq_true_eq]
  constructor
  · rintro ⟨⟨key, stored⟩, ⟨member, chosen⟩, rfl⟩
    exact ⟨key, Std.ExtTreeMap.mem_toList_iff_getElem?_eq_some.mp member, chosen⟩
  · rintro ⟨key, found, chosen⟩
    exact ⟨(key, record), ⟨Std.ExtTreeMap.mem_toList_iff_getElem?_eq_some.mpr found, chosen⟩, rfl⟩

end Exports

section Coverage

variable {Proof : Type}

/-- What the view holds with sequences up to the bound is offered or already at the target. -/
def Covers (view target : Contents Proof) (bound : Nat) (offered : List ManagedRecord) : Prop :=
  ∀ (key : RecordKey) (record : ManagedRecord) (held : Nat), view.records[key]? = some record →
    view.sequences[key]? = some held → held ≤ bound → record ∈ offered ∨ Has target record

/-- A checkpoint of the source's own history is within it, and covered at the target. -/
def Backs (fleet : Fleet Proof) (w : World Proof) (source target : String)
    (offered : List ManagedRecord) (receipt : ManagedReceipt Proof) : Prop :=
  receipt.epoch = (fleet.member source).epoch.text →
    receipt.sequence ≤ (w.nodes source).durable.revision ∧
      ∀ view, (w.nodes source).Shows view →
        Covers view (w.nodes target).durable receipt.sequence offered

variable {fleet : Fleet Proof} {w after : World Proof} {source target : String}
  {offered : List ManagedRecord} {receipt : ManagedReceipt Proof}

theorem Backs.default [ReceiptMac Proof] : Backs fleet w source target offered default :=
  fun own => absurd own.symm (fleet.member source).epoch.ne_empty

theorem Backs.mono (backs : Backs fleet w source target offered receipt)
    {earlier : ManagedReceipt Proof} (same : earlier.epoch = receipt.epoch)
    (before : earlier.sequence ≤ receipt.sequence) :
    Backs fleet w source target offered earlier := by
  intro own
  obtain ⟨within, covers⟩ := backs (same.symm.trans own)
  exact ⟨before.trans within, fun view shows key record held found sequenced small =>
    covers view shows key record held found sequenced (small.trans before)⟩

theorem Backs.raise {held : ManagedReceipt Proof} (old : Backs fleet w source target offered held)
    (new : Backs fleet w source target offered receipt) :
    Backs fleet w source target offered (Managed.raise held receipt) := by
  simp only [Managed.raise]
  split
  · exact new
  · exact old

theorem Backs.grow (backs : Backs fleet w source target offered receipt)
    (grows : ∀ id, Grows (w.nodes id) (after.nodes id)) :
    Backs fleet after source target offered receipt := by
  intro own
  obtain ⟨within, covers⟩ := backs own
  refine ⟨within.trans (grows source).revision, fun view shows key record held found sequenced
    small => ?_⟩
  obtain ⟨old, was, kept⟩ := (grows source).views view shows _ within
  obtain ⟨found, sequenced⟩ := kept key record held found sequenced small
  exact (covers old was key record held found sequenced small).imp_right
    ((grows target).has record)

theorem Backs.arrived (backs : Backs fleet w source target offered receipt)
    (arrived : ∀ record ∈ offered, Has (w.nodes target).durable record) :
    Backs fleet w source target [] receipt := by
  intro own
  obtain ⟨within, covers⟩ := backs own
  refine ⟨within, fun view shows key record held found sequenced small => Or.inr ?_⟩
  rcases covers view shows key record held found sequenced small with member | has
  · exact arrived record member
  · exact has

/-- The receipts, batches and origins of the world are truthful. -/
structure Covering (fleet : Fleet Proof) (w : World Proof) : Prop where
  sound : ∀ id, (w.nodes id).Holds (Sound (fleet.member id))
  received : ∀ (id peer : String) (view : Contents Proof) (p : Peer Proof),
    (w.nodes id).Shows view → view.peers[peer]? = some p →
      Backs fleet w peer id [] p.received ∧ Backs fleet w peer id [] p.processed
  stored : ∀ (id peer : String) (view : Contents Proof) (p : Peer Proof),
    (w.nodes id).Shows view → view.peers[peer]? = some p → Backs fleet w id peer [] p.stored
  pending : ∀ (id peer : String) (view : Contents Proof) (p : Peer Proof)
    (preview : BootstrapPreview Proof), (w.nodes id).Shows view → view.peers[peer]? = some p →
      p.pending = some preview →
        { sender := peer, receiver := id, message := preview.batch } ∈ w.batches
  origins : ∀ (id peer : String) (view : Contents Proof) (key : RecordKey)
    (record : ManagedRecord), (w.nodes id).Shows view → view.origins[key]? = some peer →
      view.records[key]? = some record → Has (w.nodes peer).durable record
  hellos : ∀ sent ∈ w.hellos, Backs fleet w sent.receiver sent.sender [] sent.message.cursor ∧
    Backs fleet w sent.receiver sent.sender [] sent.message.processed
  cursors : ∀ sent ∈ w.cursors, Backs fleet w sent.receiver sent.sender [] sent.message
  batches : ∀ sent ∈ w.batches,
    Backs fleet w sent.sender sent.receiver sent.message.records sent.message.checkpoint ∧
      ∀ record ∈ sent.message.records, Has (w.nodes sent.sender).durable record
  acks : ∀ sent ∈ w.acks, Backs fleet w sent.receiver sent.sender [] sent.message

theorem Covering.start (fleet : Fleet Proof) : Covering fleet (World.start fleet) := by
  have fresh : ∀ {id : String} {view : Contents Proof},
      ((World.start fleet).nodes id).Shows view → view.peers = ∅ ∧ view.origins = ∅ := by
    intro id view shows
    rw [Session.shows_opened shows]
    exact ⟨rfl, rfl⟩
  refine {
    sound := fun id => .opened (.first _)
    received := ?_
    stored := ?_
    pending := ?_
    origins := ?_
    hellos := by simp [World.start]
    cursors := by simp [World.start]
    batches := by simp [World.start]
    acks := by simp [World.start] }
  · intro id peer view p shows found
    simp [(fresh shows).1] at found
  · intro id peer view p shows found
    simp [(fresh shows).1] at found
  · intro id peer view p preview shows found
    simp [(fresh shows).1] at found
  · intro id peer view key record shows origin
    simp [(fresh shows).2] at origin

end Coverage

section Preservation

variable {Proof : Type} [DecidableEq Proof] [ReceiptMac Proof] {fleet : Fleet Proof}
  {w after : World Proof} {node : String} {event : SessionEvent Proof} {change : String}
  {call : Call Proof} {candidate : Contents Proof}

theorem Covering.grows (covering : Covering fleet w)
    (uniform : ∀ id, (fleet.member id).inner.config.Uniform)
    (move : SessionMove fleet w node event after) (id : String) :
    Grows (w.nodes id) (after.nodes id) := by
  by_cases here : id = node
  · subst here
    exact Installation.grows (uniform id) (covering.sound id) move.stepped
  · rw [move.others here]
    exact .refl _

omit [ReceiptMac Proof] in
theorem Covering.arrives (covering : Covering fleet w) (delivered : w.delivers node call = true)
    {peer : String} {batch : ExportBatch Proof}
    (arrives : Arrives (w.nodes node).envelope.toContents call peer batch) :
    { sender := peer, receiver := node, message := batch } ∈ w.batches := by
  cases arrives with
  | received => simpa [World.delivers] using delivered
  | reviewed found pending same =>
      rw [← same]
      exact covering.pending node _ _ _ _ (Or.inl rfl) found pending

omit [DecidableEq Proof] in
theorem Covering.applied (covering : Covering fleet w)
    (uniform : ∀ id, (fleet.member id).inner.config.Uniform) {peer : String}
    {batch : ExportBatch Proof} {middle : Contents Proof}
    (valid : validateBatch (w.nodes node).envelope.toContents batch = .ok ())
    (merging : Merging (fleet.member node).inner (some peer) batch.records
      (w.nodes node).envelope.toContents middle) :
    ∀ record ∈ batch.records, Has middle record := by
  intro record member
  have sound := (covering.sound node).memory
  have registered := sound.registered ((validateBatch_ok valid).1 record member)
  exact (merging.committed (uniform node) sound.keyed).taken record member registered

omit [DecidableEq Proof] [ReceiptMac Proof] in
theorem Has.kin {before view : Contents Proof} {record : ManagedRecord}
    (kin : Kin before view) (has : Has before record) : Has view record := by
  rw [kin]
  exact has

omit [DecidableEq Proof] [ReceiptMac Proof] in
theorem Has.data {before view : Contents Proof} {record : ManagedRecord}
    (data : SameData before view) (has : Has before record) : Has view record := by
  obtain ⟨stored, found, rank⟩ := has
  exact ⟨stored, data.records ▸ found, rank⟩

theorem Covering.next_received (covering : Covering fleet w)
    (uniform : ∀ id, (fleet.member id).inner.config.Uniform)
    (grows : ∀ id, Grows (w.nodes id) (after.nodes id)) (delivered : w.delivers node call = true)
    (operated : operate (fleet.member node).inner change call (w.nodes node).envelope.toContents =
      .ok candidate) (kin : Kin candidate (after.nodes node).durable) {peer : String}
    {p : Peer Proof} (found : candidate.peers[peer]? = some p) :
    Backs fleet after peer node [] p.received := by
  have kept : ∀ old, (w.nodes node).envelope.peers[peer]? = some old →
      Backs fleet after peer node [] old.received := fun old present =>
    (covering.received node peer _ old (Or.inl rfl) present).1.grow grows
  cases operate_effect operated with
  | quiet _ received =>
      rcases received peer p found with same | ⟨old, present, same⟩
      · exact same ▸ .default
      · exact same ▸ kept old present
  | wrote _ _ peers => exact kept p (peers ▸ found)
  | arrived arrives valid merging data enrolled peers =>
      rw [peers, BTreeMap.get_insert] at found
      split at found
      · rename_i here
        subst here
        obtain rfl := Option.some.inj found
        have sent := covering.batches _ (covering.arrives delivered arrives)
        exact (sent.1.grow grows).arrived fun record member =>
          ((covering.applied uniform valid merging record member).data data).kin kin
      · exact kept p found

omit [DecidableEq Proof] [ReceiptMac Proof] in
theorem Peer.covers_iff {peer : Peer Proof} {receipt : ManagedReceipt Proof} :
    peer.covers receipt = true ↔ peer.revoked = false ∧ peer.received.epoch = receipt.epoch ∧
      receipt.sequence ≤ peer.received.sequence := by
  simp [Peer.covers, and_assoc]

theorem Covering.next_processed (covering : Covering fleet w)
    (grows : ∀ id, Grows (w.nodes id) (after.nodes id))
    (operated : operate (fleet.member node).inner change call (w.nodes node).envelope.toContents =
      .ok candidate) {peer : String} {p : Peer Proof} (found : candidate.peers[peer]? = some p) :
    Backs fleet after peer node [] p.processed := by
  have step := operate_peers operated peer
  rw [found] at step
  generalize before : (w.nodes node).envelope.peers[peer]? = entry at step
  cases step with
  | enrolled => exact .default
  | kept touched =>
      obtain ⟨received, processed⟩ := covering.received node peer _ _ (Or.inl rfl) before
      have raised : ∀ {receipt : ManagedReceipt Proof}, Peer.covers _ receipt = true →
          Backs fleet after peer node [] (raise _ receipt) := fun {receipt} covered => by
        obtain ⟨_, epoch, within⟩ := Peer.covers_iff.mp covered
        exact (processed.raise (received.mono epoch.symm within)).grow grows
      cases touched with
      | processed covered => exact raised covered
      | handled _ covered => exact raised covered
      | enrolled => exact .default
      | _ => exact processed.grow grows

theorem Covering.next_stored (covering : Covering fleet w)
    (grows : ∀ id, Grows (w.nodes id) (after.nodes id)) (delivered : w.delivers node call = true)
    (operated : operate (fleet.member node).inner change call (w.nodes node).envelope.toContents =
      .ok candidate) {peer : String} {p : Peer Proof} (found : candidate.peers[peer]? = some p) :
    Backs fleet after node peer [] p.stored := by
  have step := operate_peers operated peer
  rw [found] at step
  generalize before : (w.nodes node).envelope.peers[peer]? = entry at step
  cases step with
  | enrolled => exact .default
  | kept touched =>
      have stored := covering.stored node peer _ _ (Or.inl rfl) before
      have named := (covering.sound node).memory.devices peer _ before
      cases touched with
      | proven live =>
          rw [live.identity] at named
          have sent := (covering.hellos _ (of_decide_eq_true delivered)).2
          rw [named] at sent
          exact (stored.raise sent).grow grows
      | delivered live =>
          rw [live.identity] at named
          simp only [World.delivers, Bool.and_eq_true, decide_eq_true_eq] at delivered
          have sent := covering.acks _ delivered.2
          rw [named] at sent
          exact (stored.raise sent).grow grows
      | enrolled => exact .default
      | _ => exact stored.grow grows

theorem Covering.next_pending (covering : Covering fleet w) (delivered : w.delivers node call = true)
    (operated : operate (fleet.member node).inner change call (w.nodes node).envelope.toContents =
      .ok candidate) {peer : String} {p : Peer Proof} {preview : BootstrapPreview Proof}
    (found : candidate.peers[peer]? = some p) (pending : p.pending = some preview) :
    { sender := peer, receiver := node, message := preview.batch } ∈ w.batches := by
  have step := operate_peers operated peer
  rw [found] at step
  generalize before : (w.nodes node).envelope.peers[peer]? = entry at step
  cases step with
  | enrolled => simp [Peer.enrolled] at pending
  | kept touched =>
      have kept := fun waits => covering.pending node peer _ _ preview (Or.inl rfl) before waits
      have named := (covering.sound node).memory.devices peer _ before
      cases touched with
      | staged live _ _ _ _ staged =>
          obtain rfl := Option.some.inj pending
          rcases staged with ⟨same, _⟩ | rfl
          · exact kept same
          · rw [live.identity] at named
            subst named
            exact of_decide_eq_true delivered
      | received => simp at pending
      | merged => simp at pending
      | declined => simp at pending
      | removed => simp at pending
      | enrolled => simp [Peer.enrolled] at pending
      | _ => exact kept pending

omit [DecidableEq Proof] [ReceiptMac Proof] in
theorem Committed.origin {inner : Inner Proof} {origin : Option String}
    {incoming : List ManagedRecord} {before after : Contents Proof}
    (committed : Committed inner origin incoming before after) {key : RecordKey} {peer : String}
    {record : ManagedRecord} (from_peer : after.origins[key]? = some peer)
    (found : after.records[key]? = some record) :
    before.origins[key]? = some peer ∧ before.records[key]? = some record ∨
      origin = some peer ∧ record ∈ incoming := by
  rcases committed.entries key with same | ⟨taken, member, _, fresh, _⟩
  · exact Or.inl ⟨same.origin ▸ from_peer, same.record ▸ found⟩
  · obtain rfl := Option.some.inj (fresh.record.symm.trans found)
    exact Or.inr ⟨fresh.origin.symm.trans from_peer, member⟩

theorem Covering.next_origins (covering : Covering fleet w)
    (uniform : ∀ id, (fleet.member id).inner.config.Uniform)
    (grows : ∀ id, Grows (w.nodes id) (after.nodes id)) (delivered : w.delivers node call = true)
    (operated : operate (fleet.member node).inner change call (w.nodes node).envelope.toContents =
      .ok candidate) {peer : String} {key : RecordKey} {record : ManagedRecord}
    (from_peer : candidate.origins[key]? = some peer)
    (found : candidate.records[key]? = some record) : Has (after.nodes peer).durable record := by
  have kept : (w.nodes node).envelope.origins[key]? = some peer →
      (w.nodes node).envelope.records[key]? = some record → Has (after.nodes peer).durable record :=
    fun origin present =>
      (grows peer).has record (covering.origins node peer _ key record (Or.inl rfl) origin present)
  have keyed := (covering.sound node).memory.keyed
  cases operate_effect operated with
  | quiet data => exact kept (data.origins ▸ from_peer) (data.records ▸ found)
  | wrote merging data =>
      rcases (merging.committed (uniform node) keyed).origin (data.origins ▸ from_peer)
        (data.records ▸ found) with ⟨origin, present⟩ | ⟨none_peer, _⟩
      · exact kept origin present
      · simp at none_peer
  | arrived arrives _ merging data =>
      rcases (merging.committed (uniform node) keyed).origin (data.origins ▸ from_peer)
        (data.records ▸ found) with ⟨origin, present⟩ | ⟨same, member⟩
      · exact kept origin present
      · obtain rfl := Option.some.inj same
        exact (grows _).has record
          ((covering.batches _ (covering.arrives delivered arrives)).2 record member)

theorem Covering.next_cursor (covering : Covering fleet w)
    (grows : ∀ id, Grows (w.nodes id) (after.nodes id)) {generation : Nat} {message : Hello Proof}
    {fingerprint : String} {peer : Peer Proof} {cursor : ManagedReceipt Proof}
    (delivered : w.delivers node (.hello generation message fingerprint) = true)
    (ran : authenticate (fleet.member node).inner generation message fingerprint
      (w.nodes node).envelope.toContents = .ok ((peer, cursor), candidate)) :
    Backs fleet after node message.identity.deviceId [] cursor := by
  obtain ⟨_, _, _, same | ⟨same, _⟩, _⟩ := authenticate_ok ran
  · exact same ▸ .default
  · rw [same]
    exact (covering.hellos _ (of_decide_eq_true delivered)).1.grow grows

theorem Covering.next_batch (covering : Covering fleet w)
    (uniform : ∀ id, (fleet.member id).inner.config.Uniform)
    (grows : ∀ id, Grows (w.nodes id) (after.nodes id)) {generation : Nat} {peer : Peer Proof}
    {cursor : ManagedReceipt Proof} {batch : ExportBatch Proof}
    (free : (w.nodes node).storageUncertain = false)
    (delivered : w.delivers node (.exportTo generation peer cursor) = true)
    (ran : exportBatch (fleet.member node).inner generation peer cursor
      (w.nodes node).envelope.toContents = .ok (batch, candidate)) :
    Backs fleet after node peer.identity.deviceId batch.records batch.checkpoint ∧
      ∀ record ∈ batch.records, Has (after.nodes node).durable record := by
  obtain ⟨current, _, _, checkpoint, _, exported⟩ := exportBatch_ok ran
  have sound := (covering.sound node).memory
  have durable := (covering.sound node).settled.durable free
  have listed := exportRecords_ok (uniform node) exported
  constructor
  · have backs : Backs fleet w node peer.identity.deviceId batch.records batch.checkpoint := by
      intro own
      rw [checkpoint, mint, durable]
      refine ⟨le_rfl, fun view shows key record held found sequenced small => ?_⟩
      obtain rfl : view = (w.nodes node).envelope.toContents := by
        rcases shows with rfl | rfl
        · rfl
        · exact durable
      by_cases chosen : record ∈ selected (w.nodes node).envelope.toContents
          peer.identity.deviceId cursor
      · exact Or.inl ((listed record).mpr ⟨chosen, sound.registers found⟩)
      · right
        simp only [mem_selected, not_exists, not_and, not_or, Bool.not_eq_true, not_not] at chosen
        obtain ⟨partly, unsent⟩ := chosen key found
        have own : cursor.epoch = (fleet.member node).epoch.text := by
          rw [← sound.epoch]
          simpa [wantsFull] using (Bool.or_eq_false_iff.mp partly).1
        obtain ⟨_, covers⟩ := covering.cursors _ (of_decide_eq_true delivered) own
        by_cases past : held ≤ cursor.sequence
        · exact (covers _ (Or.inl rfl) key record held found sequenced past).resolve_left (by simp)
        · refine covering.origins node _ _ key record (Or.inl rfl) (unsent ?_) found
          rw [sequenced]
          exact not_le.mp past
    exact backs.grow grows
  · intro record member
    obtain ⟨key, found, _⟩ := mem_selected.mp ((listed record).mp member).1
    refine (grows node).has record ?_
    rw [durable]
    exact ⟨record, by rw [sound.keyed key record found]; exact found, Or.inl rfl⟩

theorem Covering.next_ack (covering : Covering fleet w)
    (uniform : ∀ id, (fleet.member id).inner.config.Uniform)
    (grows : ∀ id, Grows (w.nodes id) (after.nodes id)) {generation : Nat} {token : RandomId}
    {peer : Peer Proof} {batch : ExportBatch Proof} {receipt : ManagedReceipt Proof}
    (delivered : w.delivers node (.receive generation token peer batch) = true)
    (ran : receiveBatch (fleet.member node).inner generation token.text change peer batch
      (w.nodes node).envelope.toContents = .ok (some receipt, candidate))
    (kin : Kin candidate (after.nodes node).durable) :
    Backs fleet after peer.identity.deviceId node [] receipt := by
  have operated : operate (fleet.member node).inner change (.receive generation token peer batch)
      (w.nodes node).envelope.toContents = .ok candidate := by
    simp only [operate, ran]
    rfl
  obtain ⟨current, live, received⟩ := receiveBatch_ok ran
  have heard : current.received.epoch = receipt.epoch ∧
      receipt.sequence ≤ current.received.sequence ∨
        ∃ p, candidate.peers[peer.identity.deviceId]? = some p ∧ p.received = receipt := by
    cases received with
    | already epoch covered => exact Or.inl ⟨epoch, covered⟩
    | applied => exact Or.inr ⟨_, (Contents.setPeer_peers ..).trans (if_pos rfl), rfl⟩
  rcases heard with ⟨epoch, covered⟩ | ⟨p, found, same⟩
  · have held := (covering.received node _ _ current (Or.inl rfl) live.enrolled).1
    exact (held.mono epoch.symm covered).grow grows
  · exact same ▸ covering.next_received uniform grows delivered operated kin found

theorem Covering.session (covering : Covering fleet w)
    (uniform : ∀ id, (fleet.member id).inner.config.Uniform)
    (move : SessionMove fleet w node event after) : Covering fleet after := by
  have grows := covering.grows uniform move
  have views := @move.views _ _ _ _ _ _ _ _ covering.sound
  refine {
    sound := ?_
    received := ?_
    stored := ?_
    pending := ?_
    origins := ?_
    hellos := ?_
    cursors := ?_
    batches := ?_
    acks := ?_ }
  · intro id
    by_cases here : id = node
    · subst here
      exact (covering.sound id).step move.stepped
    · rw [move.others here]
      exact covering.sound id
  · intro id peer view p shows found
    rcases views shows with ⟨old, was, kin⟩ | ⟨rfl, _, _, _, delivered, _, operated, kin, durable⟩
    · rw [kin] at found
      obtain ⟨received, processed⟩ := covering.received id peer old p was found
      exact ⟨received.grow grows, processed.grow grows⟩
    · subst durable
      rw [kin] at found
      exact ⟨covering.next_received uniform grows delivered operated kin found,
        covering.next_processed grows operated found⟩
  · intro id peer view p shows found
    rcases views shows with ⟨old, was, kin⟩ | ⟨rfl, _, _, _, delivered, _, operated, kin, _⟩
    · rw [kin] at found
      exact (covering.stored id peer old p was found).grow grows
    · rw [kin] at found
      exact covering.next_stored grows delivered operated found
  · intro id peer view p preview shows found pending
    refine move.batches ?_
    rcases views shows with ⟨old, was, kin⟩ | ⟨rfl, _, _, _, delivered, _, operated, kin, _⟩
    · rw [kin] at found
      exact covering.pending id peer old p preview was found pending
    · rw [kin] at found
      exact covering.next_pending delivered operated found pending
  · intro id peer view key record shows origin found
    rcases views shows with ⟨old, was, kin⟩ | ⟨rfl, _, _, _, delivered, _, operated, kin, _⟩
    · rw [kin] at origin found
      exact (grows peer).has record (covering.origins id peer old key record was origin found)
    · rw [kin] at origin found
      exact covering.next_origins uniform grows delivered operated origin found
  · intro sent member
    rw [move.hellos] at member
    obtain ⟨cursor, processed⟩ := covering.hellos sent member
    exact ⟨cursor.grow grows, processed.grow grows⟩
  · intro sent member
    cases move with
    | succeeded delivered _ issued =>
        cases issued with
        | cursor ran =>
            rcases List.mem_cons.mp member with rfl | member
            · exact covering.next_cursor grows delivered ran
            · exact (covering.cursors sent member).grow grows
        | _ => exact (covering.cursors sent member).grow grows
    | _ => exact (covering.cursors sent member).grow grows
  · intro sent member
    have kept : ∀ {sent}, sent ∈ w.batches →
        Backs fleet after sent.sender sent.receiver sent.message.records sent.message.checkpoint ∧
          ∀ record ∈ sent.message.records, Has (after.nodes sent.sender).durable record := by
      intro sent member
      obtain ⟨backs, has⟩ := covering.batches sent member
      exact ⟨backs.grow grows, fun record listed => (grows _).has record (has record listed)⟩
    cases move with
    | succeeded delivered performed issued =>
        obtain ⟨free, _⟩ := Session.perform_kin (covering.sound node).settled performed
        cases issued with
        | batch ran =>
            rcases List.mem_cons.mp member with rfl | member
            · exact covering.next_batch uniform grows free delivered ran
            · exact kept member
        | _ => exact kept member
    | _ => exact kept member
  · intro sent member
    cases move with
    | succeeded delivered performed issued =>
        obtain ⟨_, _, candidate, operated, kin⟩ :=
          Session.perform_kin (covering.sound node).settled performed
        cases issued with
        | ack ran =>
            rcases List.mem_cons.mp member with rfl | member
            · simp only [operate, ran, Except.map, Except.ok.injEq] at operated
              subst operated
              exact covering.next_ack uniform grows delivered ran (by simpa [World.setNode] using kin)
            · exact (covering.acks sent member).grow grows
        | _ => exact (covering.acks sent member).grow grows
    | _ => exact (covering.acks sent member).grow grows

theorem Covering.step {event : WorldEvent Proof} (covering : Covering fleet w)
    (uniform : ∀ id, (fleet.member id).inner.config.Uniform)
    (moved : World.step fleet w event = some after) : Covering fleet after := by
  cases event with
  | session node event => exact covering.session uniform (World.step_session moved)
  | capture node =>
      obtain rfl := Option.some.inj moved
      exact { covering with }
  | greet node peer addresses =>
      obtain ⟨p, found, rfl⟩ := Option.map_eq_some_iff.mp moved
      refine { covering with hellos := fun sent member => ?_ }
      rcases List.mem_cons.mp member with rfl | member
      · exact covering.received node peer _ p (Or.inl rfl) found
      · exact covering.hellos sent member

theorem Fleet.covering (uniform : ∀ id, (fleet.member id).inner.config.Uniform)
    {allowed : World Proof → WorldEvent Proof → Prop}
    (reached : Transition.Reaches (World.step fleet) allowed (World.start fleet) w) :
    Covering fleet w :=
  reached.invariant (.start fleet) fun _ _ _ covering _ moved => covering.step uniform moved

/-- In every reachable world of sessions that use the `RecordsAdapter`: whatever a session holds
up to the sequence of its stored receipt for an unrevoked peer, the peer has durably, in that
version or one with a greater clock. -/
theorem Fleet.stored_covers (fleet : Fleet Proof)
    (uniform : ∀ id, (fleet.member id).inner.config.Uniform)
    (reached : Transition.Reaches (World.step fleet) (fun _ _ => True) (World.start fleet) w)
    {id peer : String} {view : Contents Proof} {p : Peer Proof} (shows : (w.nodes id).Shows view)
    (listed : view.peers[peer]? = some p)
    (own : p.stored.epoch = (fleet.member id).epoch.text) {key : RecordKey}
    {record : ManagedRecord} {sequence : Nat} (found : view.records[key]? = some record)
    (sequenced : view.sequences[key]? = some sequence) (within : sequence ≤ p.stored.sequence) :
    ∃ stored, (w.nodes peer).durable.records[key]? = some stored ∧
      record.clock ≤ stored.clock := by
  have covering := Fleet.covering uniform reached
  obtain ⟨_, covers⟩ := covering.stored id peer view p shows listed own
  obtain ⟨stored, present, rank⟩ :=
    (covers view shows key record sequence found sequenced within).resolve_left (by simp)
  have keyed : Keyed view.records := by
    rcases shows with rfl | rfl
    · exact (covering.sound id).memory.keyed
    · exact (covering.sound id).durable.keyed
  refine ⟨stored, keyed key record found ▸ present, ?_⟩
  rcases rank with rfl | older
  · exact le_rfl
  · exact older.le

end Preservation

def phoneNote : ManagedRecord where
  adapter := "records"
  id := "note"
  value := [2]
  deleted := false
  clock := { counter := 1, deviceId := "phone" }

theorem stored_covers_note : ∃ stored,
    (syncedWorld.nodes "desk").durable.records[phoneNote.key]? = some stored ∧
      phoneNote.clock ≤ stored.clock := by
  have shows : (syncedWorld.nodes "phone").Shows
      (syncedWorld.nodes "phone").envelope.toContents := Or.inl rfl
  -- One statement, so that the run is evaluated once.
  have ends : (((syncedWorld.nodes "phone").envelope.peers["desk"]?).any fun p =>
        decide (p.revoked = false) &&
          decide (p.stored.epoch = (sampleFleet.member "phone").epoch.text) &&
          decide (1 ≤ p.stored.sequence)) = true ∧
      (syncedWorld.nodes "phone").envelope.records[phoneNote.key]? = some phoneNote ∧
      (syncedWorld.nodes "phone").envelope.sequences[phoneNote.key]? = some 1 := by
    decide +kernel
  obtain ⟨listed, found, sequenced⟩ := ends
  simp only [Option.any_eq_true, Bool.and_eq_true, decide_eq_true_eq] at listed
  obtain ⟨p, present, ⟨current, own⟩, within⟩ := listed
  exact sampleFleet.stored_covers sampleFleet_uniform syncedWorld_reached shows present own
    found sequenced within

end LibreSync.Managed
