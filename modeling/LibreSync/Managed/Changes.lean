import LibreSync.Managed.Steps

/-!
What a call can do to one peer and to the records, over all calls at once; and the facts that
every envelope of a session satisfies.
-/

namespace LibreSync.Managed

section Peers

variable {Proof : Type} [DecidableEq Proof] [ReceiptMac Proof]

inductive Touched (inner : Inner Proof) (e : Contents Proof) (id : String) (old : Peer Proof) :
    Call Proof → Peer Proof → Prop where
  | same (call : Call Proof) : Touched inner e id old call old
  | addressed (call : Call Proof) (addresses : List String) :
      Touched inner e id old call { old with addresses }
  | greeted {generation : Nat} {message : Hello Proof} {fingerprint : String}
      (live : Live e generation message.identity fingerprint old) :
      Touched inner e id old (.hello generation message fingerprint) (old.refresh message)
  | proven {generation : Nat} {message : Hello Proof} {fingerprint : String}
      (live : Live e generation message.identity fingerprint old)
      (verified : verify inner e old message.processed = .ok ()) :
      Touched inner e id old (.hello generation message fingerprint)
        ((old.prove message.processed).refresh message)
  | transmitted {generation : Nat} {peer : Peer Proof} {batch : ExportBatch Proof}
      (live : Live e generation peer.identity peer.fingerprint old) :
      Touched inner e id old (.transmit generation peer batch)
        { old with transmitted := batch.checkpoint }
  | delivered {generation : Nat} {peer : Peer Proof} {batch : ExportBatch Proof}
      {disposition : AckDisposition} (live : Live e generation peer.identity peer.fingerprint old)
      (verified : verify inner e old batch.checkpoint = .ok ()) :
      Touched inner e id old (.acknowledge generation peer batch batch.checkpoint disposition)
        (old.deliver batch.checkpoint disposition)
  | staged {generation : Nat} {token : RandomId} {peer : Peer Proof} {batch : ExportBatch Proof}
      {pending : BootstrapPreview Proof}
      (live : Live e generation peer.identity peer.fingerprint old)
      (unconsented : old.bootstrapped = false) (full : batch.full = true)
      (stored : e.records.isEmpty = false) (offered : batch.records ≠ [])
      (preview : old.pending = some pending ∧ pending.batch = batch ∧
          pending.localRevision = e.revision ∨
        pending = {
          token := token.text
          peer := id
          fingerprint := peer.fingerprint
          localRevision := e.revision
          batch }) :
      Touched inner e id old (.receive generation token peer batch)
        { old with pending := some pending, state := .needsMerge }
  | received {generation : Nat} {token : RandomId} {peer : Peer Proof} {batch : ExportBatch Proof}
      (live : Live e generation peer.identity peer.fingerprint old)
      (later : ¬(old.received.epoch = batch.checkpoint.epoch ∧
        batch.checkpoint.sequence ≤ old.received.sequence))
      (permitted : old.bootstrapped = true ∨
        batch.full = true ∧ (e.records.isEmpty = true ∨ batch.records = [])) :
      Touched inner e id old (.receive generation token peer batch)
        { old with received := batch.checkpoint, bootstrapped := true, pending := none }
  | declined {preview : BootstrapPreview Proof} (unrevoked : old.revoked = false) :
      Touched inner e id old (.resolve preview false)
        { old with pending := none, state := .paused }
  | merged {preview staged : BootstrapPreview Proof} (unrevoked : old.revoked = false)
      (pending : old.pending = some staged) (token : staged.token = preview.token)
      (same : staged.batch = preview.batch) (revision : e.revision = preview.localRevision)
      (named : id = preview.peer) :
      Touched inner e id old (.resolve preview true)
        { old with received := preview.batch.checkpoint, bootstrapped := true, pending := none }
  | processed {receipt : ManagedReceipt Proof} (covered : old.covers receipt = true) :
      Touched inner e id old (.acknowledgeApplied id receipt) (old.process receipt)
  | handled {inbox : ApplicationInbox Proof} {receipt : ManagedReceipt Proof}
      (listed : inbox.receipts[id]? = some receipt) (covered : old.covers receipt = true) :
      Touched inner e id old (.acknowledgeInbox inbox) (old.process receipt)
  | removed {incarnation : RandomId} : Touched inner e id old (.remove id incarnation)
      { old with
        revoked := true
        incarnation := incarnation.text
        state := .paused
        pending := none }
  | paused : Touched inner e id old (.pause id) { old with state := .paused }
  | resumed (unrevoked : old.revoked = false) :
      Touched inner e id old (.resume id) { old with state := .waiting }
  | failed {error : Error} (unrevoked : old.revoked = false) :
      Touched inner e id old (.scheduleFailed id error)
        { old with state := if certificateChanged error then .needsRepair else .waiting }
  | rekeyed {handler : Handler} {outcome : SecurePairingOutcome} {key : AppKey}
      {incarnation : RandomId} {incarnations : String → RandomId}
      (alone : ∀ (other : String) (peer : Peer Proof), e.peers[other]? = some peer →
        peer.revoked = true) :
      Touched inner e id old (.commit handler outcome key incarnation incarnations)
        { old with incarnation := (incarnations id).text }
  | enrolled {handler : Handler} {outcome : SecurePairingOutcome} {key : AppKey}
      {incarnation : RandomId} {incarnations : String → RandomId}
      (device : id = outcome.identity.deviceId) (fresh : freshOutcome outcome e = true) :
      Touched inner e id old (.commit handler outcome key incarnation incarnations)
        (.enrolled outcome incarnation.text old.addresses)

/-- How a call changes the entry under an id of the peer map. -/
inductive PeerStep (inner : Inner Proof) (e : Contents Proof) (call : Call Proof) (id : String) :
    Option (Peer Proof) → Option (Peer Proof) → Prop where
  | absent : PeerStep inner e call id none none
  | kept {old new : Peer Proof} (touched : Touched inner e id old call new) :
      PeerStep inner e call id (some old) (some new)
  | enrolled {handler : Handler} {outcome : SecurePairingOutcome} {key : AppKey}
      {incarnation : RandomId} {incarnations : String → RandomId}
      (called : call = .commit handler outcome key incarnation incarnations)
      (device : id = outcome.identity.deviceId) :
      PeerStep inner e call id none (some (.enrolled outcome incarnation.text []))

variable {inner : Inner Proof} {e after : Contents Proof} {call : Call Proof}

theorem PeerStep.unchanged (id : String) (same : after.peers[id]? = e.peers[id]?) :
    PeerStep inner e call id e.peers[id]? after.peers[id]? := by
  rw [same]
  cases e.peers[id]? with
  | none => exact .absent
  | some old => exact .kept (.same call)

theorem PeerStep.single {device : String} {old new : Peer Proof}
    (found : e.peers[device]? = some old) (touched : Touched inner e device old call new)
    (written : after.peers = e.peers.insert device new) (id : String) :
    PeerStep inner e call id e.peers[id]? after.peers[id]? := by
  by_cases here : id = device
  · subst here
    rw [written, BTreeMap.get_insert, if_pos rfl, found]
    exact .kept touched
  · refine .unchanged id ?_
    rw [written, BTreeMap.get_insert, if_neg here]

theorem enroll_peers {handler : Handler} {outcome : SecurePairingOutcome} {key : AppKey}
    {incarnation : RandomId} {incarnations : String → RandomId}
    (alone : e.groupKey = key.bytes ∨ ∀ (id : String) (peer : Peer Proof),
      e.peers[id]? = some peer → peer.revoked = true) (id : String) :
    PeerStep inner e (.commit handler outcome key incarnation incarnations) id e.peers[id]?
      (enroll handler outcome key
        { enrolled := incarnation.text, rekeyed := fun id => (incarnations id).text } e).peers[id]? := by
  have touched : ∀ (id : String) (old : Peer Proof), e.peers[id]? = some old →
      ∃ new, (rekeyed key.bytes (fun id => (incarnations id).text) e)[id]? = some new ∧
        new.addresses = old.addresses ∧
        Touched inner e id old (.commit handler outcome key incarnation incarnations) new := by
    intro id old found
    by_cases same : e.groupKey = key.bytes
    · exact ⟨old, by rw [rekeyed, if_neg (not_not.mpr same), found], rfl, .same _⟩
    · refine ⟨{ old with incarnation := (incarnations id).text }, ?_, rfl,
        .rekeyed (alone.resolve_left same)⟩
      rw [rekeyed, if_pos same, Std.ExtTreeMap.getElem?_map, found]
      rfl
  have absent : ∀ id : String, e.peers[id]? = none →
      (rekeyed key.bytes (fun id => (incarnations id).text) e)[id]? = none := by
    intro id missing
    by_cases same : e.groupKey = key.bytes
    · rw [rekeyed, if_neg (not_not.mpr same), missing]
    · rw [rekeyed, if_pos same, Std.ExtTreeMap.getElem?_map, missing]
      rfl
  simp only [enroll]
  by_cases here : id = outcome.identity.deviceId
  · subst here
    rw [BTreeMap.get_insert, if_pos rfl]
    cases found : e.peers[outcome.identity.deviceId]? with
    | none =>
        rw [absent _ found]
        exact .enrolled rfl rfl
    | some old =>
        obtain ⟨new, present, addresses, how⟩ := touched _ old found
        rw [present]
        by_cases fresh : freshOutcome outcome e = true
        · simp only [fresh, if_true, addresses]
          exact .kept (.enrolled rfl fresh)
        · simp only [fresh]
          exact .kept how
  · rw [BTreeMap.get_insert, if_neg here]
    cases found : e.peers[id]? with
    | none =>
        rw [absent _ found]
        exact .absent
    | some old =>
        obtain ⟨new, present, _, how⟩ := touched _ old found
        rw [present]
        exact .kept how

theorem received_peers {generation : Nat} {token : RandomId} {peer current : Peer Proof}
    {batch : ExportBatch Proof} {reply : Option (ManagedReceipt Proof)}
    (live : Live e generation peer.identity peer.fingerprint current)
    (received : Received inner e token.text peer current batch reply after) (id : String) :
    PeerStep inner e (.receive generation token peer batch) id e.peers[id]? after.peers[id]? := by
  cases received with
  | already => exact .unchanged id rfl
  | staged unconsented full stored offered =>
      have named := congrArg Identity.deviceId live.identity
      have written : ∀ preview, (stage e current preview).peers =
          e.peers.insert peer.identity.deviceId { current with
            pending := some (restaged e current preview)
            state := .needsMerge } := by
        intro preview
        rw [← named]
        rfl
      refine .single live.enrolled (.staged live unconsented full stored offered ?_)
        (written _) id
      simp only [restaged]
      split
      · exact Or.inr rfl
      · rename_i old pending
        split
        · exact Or.inr rfl
        · rename_i kept
          simp only [not_or, not_not] at kept
          exact Or.inl ⟨pending, kept⟩
  | applied later _ permitted committed =>
      refine .single live.enrolled (.received live later permitted) ?_ id
      rw [← committed.peers]
      rfl

theorem operate_peers {change : String}
    (operated : operate inner change call e = .ok after) (id : String) :
    PeerStep inner e call id e.peers[id]? after.peers[id]? := by
  cases call with
  | write adapter key value deleted =>
      obtain ⟨reply, ran⟩ := Except.map_snd_ok.mp operated
      obtain ⟨middle, _, committed, rfl⟩ := write_ok ran
      exact .unchanged id (by rw [committed.peers])
  | importRecords records =>
      obtain ⟨reply, ran⟩ := Except.map_snd_ok.mp operated
      obtain ⟨middle, committed, _, rfl⟩ := importRecords_ok ran
      exact .unchanged id (by rw [committed.peers])
  | prune retain =>
      simp only [operate, pruneRecoverySnapshots, Except.map, Except.ok.injEq] at operated
      subst operated
      exact .unchanged id rfl
  | acknowledgeApplied peer receipt =>
      obtain ⟨reply, ran⟩ := Except.map_snd_ok.mp operated
      obtain ⟨p, found, covered, rfl⟩ := acknowledgeApplied_ok ran
      exact .single found (.processed covered) rfl id
  | acknowledgeInbox inbox =>
      obtain ⟨reply, ran⟩ := Except.map_snd_ok.mp operated
      obtain ⟨_, each⟩ := acknowledgeInbox_ok ran
      cases listed : inbox.receipts[id]? with
      | none => exact .unchanged id ((each id).1 listed)
      | some receipt =>
          obtain ⟨p, found, covered, written⟩ := (each id).2 receipt listed
          rw [found, written]
          exact .kept (.handled listed covered)
  | hello generation message fingerprint =>
      obtain ⟨⟨peer, cursor⟩, ran⟩ := Except.map_snd_ok.mp operated
      obtain ⟨current, live, rfl, _, rfl | ⟨verified, rfl⟩⟩ := authenticate_ok ran
      · exact .single live.enrolled (.greeted live) rfl id
      · exact .single live.enrolled (.proven live verified) rfl id
  | exportTo generation peer cursor =>
      obtain ⟨batch, ran⟩ := Except.map_snd_ok.mp operated
      obtain ⟨_, _, rfl, _⟩ := exportBatch_ok ran
      exact .unchanged id rfl
  | transmit generation peer batch =>
      obtain ⟨reply, ran⟩ := Except.map_snd_ok.mp operated
      obtain ⟨current, live, rfl⟩ := transmit_ok ran
      exact .single live.enrolled (.transmitted live) rfl id
  | acknowledge generation peer batch receipt disposition =>
      obtain ⟨reply, ran⟩ := Except.map_snd_ok.mp operated
      obtain ⟨current, live, rfl, verified, rfl⟩ := acknowledge_ok ran
      exact .single live.enrolled (.delivered live verified) rfl id
  | receive generation token peer batch =>
      obtain ⟨reply, ran⟩ := Except.map_snd_ok.mp operated
      obtain ⟨current, live, received⟩ := receiveBatch_ok ran
      exact received_peers live received id
  | resolve preview merge =>
      obtain ⟨reply, ran⟩ := Except.map_snd_ok.mp operated
      obtain ⟨p, staged, found, unrevoked, _, revision, pending, token, batch,
        ⟨rfl, rfl⟩ | ⟨rfl, _, middle, committed, rfl⟩⟩ := resolveBootstrap_ok ran
      · exact .single found (.declined unrevoked) rfl id
      · refine .single found (.merged unrevoked pending token batch revision rfl) ?_ id
        rw [← committed.peers]
        rfl
  | start =>
      obtain ⟨reply, ran⟩ := Except.map_snd_ok.mp operated
      obtain rfl := start_ok ran
      exact .unchanged id rfl
  | stop phase =>
      obtain ⟨reply, ran⟩ := Except.map_snd_ok.mp operated
      rcases stop_ok ran with rfl | rfl
      · exact .unchanged id rfl
      · exact .unchanged id rfl
  | remove peer incarnation =>
      obtain ⟨reply, ran⟩ := Except.map_snd_ok.mp operated
      obtain ⟨p, found, rfl⟩ := removePeer_ok ran
      exact .single found .removed rfl id
  | pause peer =>
      obtain ⟨reply, ran⟩ := Except.map_snd_ok.mp operated
      obtain ⟨p, found, rfl⟩ := pausePeer_ok ran
      exact .single found .paused rfl id
  | resume peer =>
      obtain ⟨reply, ran⟩ := Except.map_snd_ok.mp operated
      obtain ⟨p, found, unrevoked, rfl⟩ := resumePeer_ok ran
      exact .single found (.resumed unrevoked) rfl id
  | scheduleFailed peer error =>
      obtain ⟨reply, ran⟩ := Except.map_snd_ok.mp operated
      rcases scheduleFailed_ok ran with rfl | ⟨p, found, unrevoked, rfl⟩
      · exact .unchanged id rfl
      · exact .single found (.failed unrevoked) rfl id
  | discovered identity addresses =>
      obtain ⟨reply, ran⟩ := Except.map_snd_ok.mp operated
      obtain ⟨_, same | ⟨p, found, written⟩⟩ := discovered_ok ran
      · exact .unchanged id (by rw [same])
      · exact .single found (.addressed _ addresses) written id
  | prepare handler outcome =>
      obtain ⟨reply, ran⟩ := Except.map_snd_ok.mp operated
      obtain ⟨_, rfl⟩ := prepareSecurePairing_ok ran
      exact .unchanged id rfl
  | commit handler outcome key incarnation rekeyed =>
      obtain ⟨reply, ran⟩ := Except.map_snd_ok.mp operated
      obtain ⟨_, alone, _, rfl⟩ := commitSecurePairing_ok ran
      exact enroll_peers alone id
  | settle handler peer addresses =>
      obtain ⟨reply, ran⟩ := Except.map_snd_ok.mp operated
      obtain ⟨p, found, rfl⟩ := settleAddresses_ok ran
      exact .single found (.addressed _ addresses) rfl id

end Peers

section Data

variable {Proof : Type}

structure SameOwner (before after : Contents Proof) : Prop where
  version : after.version = before.version
  identity : after.identity = before.identity
  metadata : after.metadata = before.metadata
  epoch : after.epoch = before.epoch

structure SameData (before after : Contents Proof) : Prop where
  revision : after.revision = before.revision
  records : after.records = before.records
  sequences : after.sequences = before.sequences
  origins : after.origins = before.origins

theorem SameOwner.refl (e : Contents Proof) : SameOwner e e := ⟨rfl, rfl, rfl, rfl⟩

theorem SameData.refl (e : Contents Proof) : SameData e e := ⟨rfl, rfl, rfl, rfl⟩

theorem SameOwner.trans {first second third : Contents Proof} (earlier : SameOwner first second)
    (later : SameOwner second third) : SameOwner first third where
  version := later.version.trans earlier.version
  identity := later.identity.trans earlier.identity
  metadata := later.metadata.trans earlier.metadata
  epoch := later.epoch.trans earlier.epoch

theorem Framed.owner {before after : Contents Proof} (framed : Framed before after) :
    SameOwner before after := by
  rw [framed.rest]
  exact ⟨rfl, rfl, rfl, rfl⟩

/-- The records that a call commits if it commits any, and the origin they are given. -/
def Call.incoming (e : Contents Proof) : Call Proof → Option String × List ManagedRecord
  | .write adapter id value deleted => (none, [{
      adapter, id, value, deleted
      clock := { counter := maxCounter e.records + 1, deviceId := e.identity.deviceId } }])
  | .importRecords records => (none, records)
  | .receive _ _ peer batch => (some peer.identity.deviceId, batch.records)
  | .resolve preview _ => (some preview.peer, preview.batch.records)
  | _ => (none, [])

inductive DataStep (inner : Inner Proof) (e : Contents Proof) (call : Call Proof)
    (after : Contents Proof) : Prop where
  | same (data : SameData e after)
  | committed {middle : Contents Proof}
      (merging : Merging inner (call.incoming e).1 (call.incoming e).2 e middle)
      (data : SameData middle after)

/-- What `mutate` adds to a candidate: a recovery copy at most. -/
theorem completed_ok {inner : Inner Proof} {e : Contents Proof} {id : String} {candidate final : Contents Proof}
    (finished : completed inner id e candidate = .ok final) :
    (candidate.records = e.records ∧ final = candidate) ∨
      (candidate.records ≠ e.records ∧ Limits.state inner.sizes candidate = .ok () ∧
        final = withRecoveryCopy inner id e candidate) := by
  simp only [completed] at finished
  split at finished
  · rename_i same
    exact Or.inl ⟨same, (Except.ok.inj finished).symm⟩
  · rename_i changed
    split at finished
    · simp at finished
    · rename_i fits
      exact Or.inr ⟨changed, fits, (Except.ok.inj finished).symm⟩

theorem completed_rest {inner : Inner Proof} {e : Contents Proof} {id : String} {candidate final : Contents Proof}
    (finished : completed inner id e candidate = .ok final) :
    final = { candidate with recovery := final.recovery } := by
  rcases completed_ok finished with ⟨_, rfl⟩ | ⟨_, _, rfl⟩
  · rfl
  · rfl

variable [DecidableEq Proof] [ReceiptMac Proof] {inner : Inner Proof} {e after : Contents Proof}
  {call : Call Proof}

theorem operate_data {change : String}
    (operated : operate inner change call e = .ok after) :
    SameOwner e after ∧ DataStep inner e call after := by
  have same : ∀ {after : Contents Proof}, SameOwner e after → SameData e after →
      SameOwner e after ∧ DataStep inner e call after := fun owner data => ⟨owner, .same data⟩
  cases call with
  | write adapter key value deleted =>
      obtain ⟨reply, ran⟩ := Except.map_snd_ok.mp operated
      obtain ⟨middle, _, committed, rfl⟩ := write_ok ran
      exact ⟨committed.framed.owner.trans ⟨rfl, rfl, rfl, rfl⟩,
        .committed committed ⟨rfl, rfl, rfl, rfl⟩⟩
  | importRecords records =>
      obtain ⟨reply, ran⟩ := Except.map_snd_ok.mp operated
      obtain ⟨middle, committed, _, rfl⟩ := importRecords_ok ran
      exact ⟨committed.framed.owner.trans ⟨rfl, rfl, rfl, rfl⟩,
        .committed committed ⟨rfl, rfl, rfl, rfl⟩⟩
  | prune retain =>
      simp only [operate, pruneRecoverySnapshots, Except.map, Except.ok.injEq] at operated
      subst operated
      exact same ⟨rfl, rfl, rfl, rfl⟩ ⟨rfl, rfl, rfl, rfl⟩
  | acknowledgeApplied peer receipt =>
      obtain ⟨reply, ran⟩ := Except.map_snd_ok.mp operated
      obtain ⟨_, _, _, rfl⟩ := acknowledgeApplied_ok ran
      exact same ⟨rfl, rfl, rfl, rfl⟩ ⟨rfl, rfl, rfl, rfl⟩
  | acknowledgeInbox inbox =>
      obtain ⟨reply, ran⟩ := Except.map_snd_ok.mp operated
      rw [(acknowledgeInbox_ok ran).1]
      exact same ⟨rfl, rfl, rfl, rfl⟩ ⟨rfl, rfl, rfl, rfl⟩
  | hello generation message fingerprint =>
      obtain ⟨⟨peer, cursor⟩, ran⟩ := Except.map_snd_ok.mp operated
      obtain ⟨_, _, rfl, _⟩ := authenticate_ok ran
      exact same ⟨rfl, rfl, rfl, rfl⟩ ⟨rfl, rfl, rfl, rfl⟩
  | exportTo generation peer cursor =>
      obtain ⟨batch, ran⟩ := Except.map_snd_ok.mp operated
      obtain ⟨_, _, rfl, _⟩ := exportBatch_ok ran
      exact same (.refl _) (.refl _)
  | transmit generation peer batch =>
      obtain ⟨reply, ran⟩ := Except.map_snd_ok.mp operated
      obtain ⟨_, _, rfl⟩ := transmit_ok ran
      exact same ⟨rfl, rfl, rfl, rfl⟩ ⟨rfl, rfl, rfl, rfl⟩
  | acknowledge generation peer batch receipt disposition =>
      obtain ⟨reply, ran⟩ := Except.map_snd_ok.mp operated
      obtain ⟨_, _, rfl, _, rfl⟩ := acknowledge_ok ran
      exact same ⟨rfl, rfl, rfl, rfl⟩ ⟨rfl, rfl, rfl, rfl⟩
  | receive generation token peer batch =>
      obtain ⟨reply, ran⟩ := Except.map_snd_ok.mp operated
      obtain ⟨_, _, received⟩ := receiveBatch_ok ran
      cases received with
      | already => exact same (.refl _) (.refl _)
      | staged => exact same ⟨rfl, rfl, rfl, rfl⟩ ⟨rfl, rfl, rfl, rfl⟩
      | applied _ _ _ committed =>
          exact ⟨committed.framed.owner.trans ⟨rfl, rfl, rfl, rfl⟩,
            .committed committed ⟨rfl, rfl, rfl, rfl⟩⟩
  | resolve preview merge =>
      obtain ⟨reply, ran⟩ := Except.map_snd_ok.mp operated
      obtain ⟨_, _, _, _, _, _, _, _, _, ⟨rfl, rfl⟩ | ⟨rfl, _, middle, committed, rfl⟩⟩ :=
        resolveBootstrap_ok ran
      · exact same ⟨rfl, rfl, rfl, rfl⟩ ⟨rfl, rfl, rfl, rfl⟩
      · exact ⟨committed.framed.owner.trans ⟨rfl, rfl, rfl, rfl⟩,
          .committed committed ⟨rfl, rfl, rfl, rfl⟩⟩
  | start =>
      obtain ⟨reply, ran⟩ := Except.map_snd_ok.mp operated
      obtain rfl := start_ok ran
      exact same ⟨rfl, rfl, rfl, rfl⟩ ⟨rfl, rfl, rfl, rfl⟩
  | stop phase =>
      obtain ⟨reply, ran⟩ := Except.map_snd_ok.mp operated
      rcases stop_ok ran with rfl | rfl
      · exact same (.refl _) (.refl _)
      · exact same ⟨rfl, rfl, rfl, rfl⟩ ⟨rfl, rfl, rfl, rfl⟩
  | remove peer incarnation =>
      obtain ⟨reply, ran⟩ := Except.map_snd_ok.mp operated
      obtain ⟨_, _, rfl⟩ := removePeer_ok ran
      exact same ⟨rfl, rfl, rfl, rfl⟩ ⟨rfl, rfl, rfl, rfl⟩
  | pause peer =>
      obtain ⟨reply, ran⟩ := Except.map_snd_ok.mp operated
      obtain ⟨_, _, rfl⟩ := pausePeer_ok ran
      exact same ⟨rfl, rfl, rfl, rfl⟩ ⟨rfl, rfl, rfl, rfl⟩
  | resume peer =>
      obtain ⟨reply, ran⟩ := Except.map_snd_ok.mp operated
      obtain ⟨_, _, _, rfl⟩ := resumePeer_ok ran
      exact same ⟨rfl, rfl, rfl, rfl⟩ ⟨rfl, rfl, rfl, rfl⟩
  | scheduleFailed peer error =>
      obtain ⟨reply, ran⟩ := Except.map_snd_ok.mp operated
      rcases scheduleFailed_ok ran with rfl | ⟨_, _, _, rfl⟩
      · exact same (.refl _) (.refl _)
      · exact same ⟨rfl, rfl, rfl, rfl⟩ ⟨rfl, rfl, rfl, rfl⟩
  | discovered identity addresses =>
      obtain ⟨reply, ran⟩ := Except.map_snd_ok.mp operated
      rw [(discovered_ok ran).1]
      exact same ⟨rfl, rfl, rfl, rfl⟩ ⟨rfl, rfl, rfl, rfl⟩
  | prepare handler outcome =>
      obtain ⟨reply, ran⟩ := Except.map_snd_ok.mp operated
      obtain ⟨_, rfl⟩ := prepareSecurePairing_ok ran
      exact same ⟨rfl, rfl, rfl, rfl⟩ ⟨rfl, rfl, rfl, rfl⟩
  | commit handler outcome key incarnation rekeyed =>
      obtain ⟨reply, ran⟩ := Except.map_snd_ok.mp operated
      obtain ⟨_, _, _, rfl⟩ := commitSecurePairing_ok ran
      exact same ⟨rfl, rfl, rfl, rfl⟩ ⟨rfl, rfl, rfl, rfl⟩
  | settle handler peer addresses =>
      obtain ⟨reply, ran⟩ := Except.map_snd_ok.mp operated
      obtain ⟨_, _, rfl⟩ := settleAddresses_ok ran
      exact same ⟨rfl, rfl, rfl, rfl⟩ ⟨rfl, rfl, rfl, rfl⟩

end Data

section Reachable

variable {Proof : Type}

structure Sound (installation : Installation Proof) (e : Contents Proof) : Prop where
  version : e.version = 1
  identity : e.identity = installation.identity
  metadata : e.metadata = installation.inner.config.metadata
  epoch : e.epoch = installation.epoch.text
  bounded : Limits.state installation.inner.sizes e = .ok ()
  keyed : Keyed e.records
  sequenced : ∀ (key : RecordKey) (record : ManagedRecord), e.records[key]? = some record →
    ∃ sequence, e.sequences[key]? = some sequence ∧ sequence ≤ e.revision
  devices : ∀ (id : String) (peer : Peer Proof), e.peers[id]? = some peer →
    peer.identity.deviceId = id

/-- An installation that keeps its records in `RecordsAdapter`s. -/
structure RecordsInstallation (Proof : Type) extends Installation Proof where
  uniform : inner.config.Uniform

theorem Limits.state_congr {sizes : Sizes Proof} {left right : Contents Proof}
    (epoch : left.epoch = right.epoch) (records : left.records = right.records)
    (metadata : left.metadata = right.metadata) :
    Limits.state sizes left = Limits.state sizes right := by
  simp only [Limits.state, epoch, records, metadata]

theorem Sound.first (installation : Installation Proof) :
    Sound installation installation.first where
  version := rfl
  identity := rfl
  metadata := rfl
  epoch := rfl
  bounded := by
    have launched := installation.launch_created
    have named : (if installation.automaticName then installation.created
        else installation.created.named installation.inner.config.metadata.displayName) =
          installation.created := by
      split <;> rfl
    simp only [Installation.launch, named] at launched
    split at launched
    · simp at launched
    · split at launched
      · simp at launched
      · assumption
  keyed := by
    intro key record found
    simp [Installation.first, Installation.created] at found
  sequenced := by
    intro key record found
    simp [Installation.first, Installation.created] at found
  devices := by
    intro id peer found
    simp [Installation.first, Installation.created] at found

theorem Sound.launch {installation : Installation Proof} {before after : Contents Proof}
    (sound : Sound installation before) (launched : installation.launch before = .ok after) :
    after = { before with phase := .stopped, generation := before.generation + 1 } ∧
      before.generation < u64Max := by
  have named : (if installation.automaticName then before
      else before.named installation.inner.config.metadata.displayName) = before := by
    split
    · rfl
    · rw [Contents.named, ← sound.metadata]
  simp only [Installation.launch, named] at launched
  split at launched
  · simp at launched
  · split at launched
    · simp at launched
    · obtain ⟨generation, counted, rfl⟩ := Except.map_ok launched
      obtain ⟨below, rfl⟩ := checkedNext_ok counted
      exact ⟨rfl, below⟩

theorem Sound.launched {installation : Installation Proof} {before after : Contents Proof}
    (sound : Sound installation before) (launched : installation.launch before = .ok after) :
    Sound installation after := by
  obtain ⟨rfl, _⟩ := sound.launch launched
  exact ⟨sound.version, sound.identity, sound.metadata, sound.epoch, sound.bounded, sound.keyed,
    sound.sequenced, sound.devices⟩

theorem Sound.registered {installation : Installation Proof} {e : Contents Proof}
    (sound : Sound installation e) {adapter : String}
    (listed : e.metadata.manifest.adapters.any fun descriptor => descriptor.id = adapter) :
    installation.inner.config.registers adapter := by
  have valid := installation.valid
  rw [sound.metadata] at listed
  obtain ⟨descriptor, member, named⟩ := List.any_eq_true.mp listed
  simp only [decide_eq_true_eq] at named
  subst named
  simp only [SessionConfig.validate] at valid
  split at valid
  · simp at valid
  · split at valid
    · simp [failCode] at valid
    · rename_i adapters
      simp only [not_or, Bool.not_eq_true, List.any_eq_false] at adapters
      have here := adapters.2 descriptor member
      rw [SessionConfig.registers]
      by_contra absent
      rw [Std.ExtTreeMap.getElem?_eq_none absent] at here
      simp at here

/-- An envelope that the session serves or would recover. -/
def Session.Shows (session : Session Proof) (view : Contents Proof) : Prop :=
  view = session.envelope.toContents ∨ view = session.durable

theorem Session.shows_opened {contents view : Contents Proof}
    (shows : (Session.opened contents).Shows view) : view = contents :=
  shows.elim id id

/-- Envelopes that differ at most in what `open` and a recovery copy rewrite. -/
def Kin (before after : Contents Proof) : Prop :=
  after = { before with
    phase := after.phase
    generation := after.generation
    recovery := after.recovery }

theorem Kin.refl (e : Contents Proof) : Kin e e := rfl

theorem completed_kin {inner : Inner Proof} {e : Contents Proof} {id : String}
    {candidate final : Contents Proof} (finished : completed inner id e candidate = .ok final) :
    Kin candidate final := by
  rcases completed_ok finished with ⟨_, rfl⟩ | ⟨_, _, rfl⟩
  · rfl
  · rfl

variable [DecidableEq Proof] [ReceiptMac Proof] {installation : Installation Proof}

theorem PeerStep.device {inner : Inner Proof} {e : Contents Proof} {call : Call Proof}
    {id : String} {old new : Option (Peer Proof)} (step : PeerStep inner e call id old new)
    (before : ∀ peer, old = some peer → peer.identity.deviceId = id) :
    ∀ peer, new = some peer → peer.identity.deviceId = id := by
  intro peer found
  cases step with
  | absent => simp at found
  | enrolled _ device =>
      obtain rfl := Option.some.inj found
      exact device.symm
  | kept touched =>
      have named := before _ rfl
      obtain rfl := Option.some.inj found
      cases touched with
      | enrolled device => exact device.symm
      | _ => exact named

theorem Sound.called {change transaction : String} {call : Call Proof}
    {e candidate final : Contents Proof} (sound : Sound installation e)
    (operated : operate installation.inner change call e = .ok candidate)
    (finished : completed installation.inner transaction e candidate = .ok final) :
    Sound installation final := by
  obtain ⟨owner, data⟩ := operate_data operated
  have peers := operate_peers operated
  have bounded : Limits.state installation.inner.sizes candidate = .ok () := by
    rcases completed_ok finished with ⟨same, _⟩ | ⟨_, fits, _⟩
    · rw [Limits.state_congr owner.epoch same owner.metadata]
      exact sound.bounded
    · exact fits
  have stored : Keyed candidate.records ∧ ∀ (key : RecordKey) (record : ManagedRecord),
      candidate.records[key]? = some record →
        ∃ sequence, candidate.sequences[key]? = some sequence ∧
          sequence ≤ candidate.revision := by
    cases data with
    | same data =>
        rw [data.records, data.sequences, data.revision]
        exact ⟨sound.keyed, sound.sequenced⟩
    | committed merging data =>
        rw [data.records, data.sequences, data.revision]
        exact ⟨merging.keyed sound.keyed, merging.sequenced sound.sequenced⟩
  have rest := completed_rest finished
  rw [rest]
  exact ⟨owner.version.trans sound.version, owner.identity.trans sound.identity,
    owner.metadata.trans sound.metadata, owner.epoch.trans sound.epoch, bounded, stored.1,
    stored.2, fun id => (peers id).device (sound.devices id)⟩

theorem Installation.sound {allowed : Session Proof → SessionEvent Proof → Prop}
    {session : Session Proof}
    (reached : Transition.Reaches installation.step allowed (.opened installation.first) session) :
    session.Holds (Sound installation) :=
  Installation.holds reached (.opened (Sound.first _))
    (fun _ _ _ _ _ _ _ holds _ _ operated finished => holds.memory.called operated finished)
    (fun _ _ sound launched => sound.launched launched)

theorem Session.Holds.step {session after : Session Proof} {event : SessionEvent Proof}
    (holds : session.Holds (Sound installation))
    (moved : installation.step session event = some after) : after.Holds (Sound installation) := by
  have reached : Transition.Reaches installation.step (fun _ _ => True) session after :=
    .next .start trivial moved
  exact Installation.holds reached holds
    (fun _ _ _ _ _ _ _ holds _ _ operated finished => holds.memory.called operated finished)
    (fun _ _ sound launched => sound.launched launched)

theorem Session.perform_kin {call : Call Proof} {inner : Inner Proof}
    {session final : Session Proof} (settled : session.Settled) {change transaction : RandomId}
    {saves : Saves}
    (performed : session.perform inner change transaction saves call = (.ok (), final)) :
    session.storageUncertain = false ∧ final.durable = final.envelope.toContents ∧
      ∃ candidate, operate inner change.text call session.envelope.toContents = .ok candidate ∧
        Kin candidate final.durable := by
  obtain ⟨_, free, candidate, operated, outcome⟩ := Session.perform_ok settled performed
  refine ⟨free, ?_, candidate, operated, ?_⟩
  · rcases outcome with ⟨rfl, _⟩ | ⟨contents, _, rfl⟩
    · exact settled.durable free
    · rfl
  · rcases outcome with ⟨rfl, same⟩ | ⟨contents, finished, rfl⟩
    · rw [settled.durable free, same]
      exact .refl _
    · exact completed_kin finished

theorem Installation.shows {session after : Session Proof} {event : SessionEvent Proof}
    {view : Contents Proof} (holds : session.Holds (Sound installation))
    (moved : installation.step session event = some after) (shows : after.Shows view) :
    (∃ old, session.Shows old ∧ Kin old view) ∨
      ∃ change transaction saves call candidate,
        event = .call change transaction saves call ∧ session.storageUncertain = false ∧
        admitCall installation.inner call = .ok () ∧
        operate installation.inner change.text call session.envelope.toContents =
          .ok candidate ∧ Kin candidate view ∧ after.durable = view := by
  have served : session.Shows session.envelope.toContents := Or.inl rfl
  have recoverable : session.Shows session.durable := Or.inr rfl
  have opened : ∀ {contents : Contents Proof},
      installation.launch session.durable = .ok contents → view = contents →
      ∃ old, session.Shows old ∧ Kin old view := by
    rintro contents launched rfl
    obtain ⟨rfl, _⟩ := holds.durable.launch launched
    exact ⟨_, recoverable, rfl⟩
  cases Installation.stepped holds.settled moved with
  | idle => exact Or.inl ⟨view, shows, rfl⟩
  | committed free admitted operated finished =>
      obtain rfl := shows.elim id id
      exact Or.inr ⟨_, _, _, _, _, rfl, free, admitted, operated, completed_kin finished, rfl⟩
  | interrupted free admitted operated finished _ memory disk =>
      rcases shows with rfl | rfl
      · exact Or.inl ⟨_, served, memory ▸ .refl _⟩
      · rcases disk with disk | disk
        · exact Or.inl ⟨_, served, disk ▸ .refl _⟩
        · exact Or.inr ⟨_, _, _, _, _, rfl, free, admitted, operated,
            disk ▸ completed_kin finished, rfl⟩
  | reopened launched => exact Or.inl (opened launched (shows.elim id id))
  | unopened _ memory disk =>
      rcases shows with rfl | rfl
      · exact Or.inl ⟨_, served, memory ▸ .refl _⟩
      · rcases disk with disk | launched
        · exact Or.inl ⟨_, recoverable, disk ▸ .refl _⟩
        · exact Or.inl (opened launched rfl)

end Reachable

section Sample

def base64Size (count : Nat) : Nat := 4 * ((count + 2) / 3)

def receiptSize (epoch digits proof : Nat) : Nat := 35 + epoch + digits + base64Size proof

def boolSize (value : Bool) : Nat := if value then 4 else 5

def recordSize (record : ManagedRecord) : Nat :=
  80 + record.adapter.utf8ByteSize + record.id.utf8ByteSize + base64Size record.value.length +
    boolSize record.deleted + (Nat.repr record.clock.counter).length +
    record.clock.deviceId.utf8ByteSize

def recordsSize (records : List ManagedRecord) : Nat :=
  (records.map recordSize).sum + (records.length - 1)

/-- The lengths of the JSON texts of batches whose strings need no escapes. -/
def plainSizes : Sizes SymbolicProof where
  batch batch := 36 + receiptSize batch.checkpoint.epoch.utf8ByteSize
    (Nat.repr batch.checkpoint.sequence).length (ReceiptMac.length batch.checkpoint.proof) +
      recordsSize batch.records + boolSize batch.full
  complete records := 36 + receiptSize (6 * 128) 20 32 + recordsSize records + 5

def sampleMetadata : DeviceMetadata where
  displayName := "Desk"
  deviceKind := "desktop"
  role := "application"
  manifest := {
    appId := "app"
    displayName := "App"
    schemaVersion := 1
    adapters := [{ id := "records", keyNamespace := "app", schema := "kv", transactional := true }] }

theorem sampleMetadata_valid : (SessionConfig.new sampleMetadata).validate = .ok () := by rfl

theorem plainSizes_fits : plainSizes.complete [] ≤ maxBatchBytes := by decide

def sampleInstallation (deviceId : String) (storageKey : UInt8) (epoch : RandomId) :
    RecordsInstallation SymbolicProof where
  inner := {
    config := .new sampleMetadata
    storageKey := List.replicate 32 storageKey
    sizes := plainSizes }
  identity := { deviceId, appId := "app", userId := "managed" }
  automaticName := false
  groupKey := { bytes := List.replicate 32 storageKey, sized := List.length_replicate }
  epoch := epoch
  valid := sampleMetadata_valid
  fits := plainSizes_fits
  uniform := SessionConfig.new_uniform _

def sampleId : RandomId where
  text := "00000000000000000000000000000001"
  sized := rfl

def desk : RecordsInstallation SymbolicProof :=
  sampleInstallation "desk" 1 { text := "00000000000000000000000000000000", sized := rfl }

def phone : SecurePairingOutcome where
  invitationId := "invitation"
  identity := { deviceId := "phone", appId := "app", userId := "managed" }
  metadata := sampleMetadata
  fingerprint := "phone certificate"

def sampleCall (call : Call SymbolicProof) : SessionEvent SymbolicProof :=
  .call sampleId sampleId {} call

def enrollPhone : List (SessionEvent SymbolicProof) :=
  [sampleCall .start, sampleCall (.commit {
      generation := 2
      expected := none
      addresses := []
      recovering := false
      repair := false } phone desk.groupKey sampleId fun _ => sampleId)]

def phonePeer : Peer SymbolicProof := .enrolled phone sampleId.text []

def phoneCheckpoint (sequence : Nat) : ManagedReceipt SymbolicProof where
  epoch := "phone epoch"
  sequence := sequence
  proof := .mac (List.replicate 32 2) {
    identity := desk.identity
    fingerprint := "desk certificate"
    incarnation := sampleId.text
    epoch := "phone epoch"
    sequence }

def phoneRecord (id : String) (counter : Nat) : ManagedRecord where
  adapter := "records"
  id := id
  value := []
  deleted := false
  clock := { counter, deviceId := "phone" }

end Sample

end LibreSync.Managed
