import LibreSync.Managed.Calls
import LibreSync.Managed.Commit

/-! What each operation of a session can do to its envelope, said once. -/

namespace LibreSync.Managed

section Operations

variable {Proof : Type} {inner : Inner Proof} {e after : Contents Proof}

/-- A call that `check` let through: the session runs under the handler's generation, and the
peer is enrolled, unrevoked, not paused and the one that is connected. -/
structure Live (e : Contents Proof) (generation : Nat) (identity : Identity)
    (fingerprint : String) (peer : Peer Proof) : Prop where
  running : e.phase = .running
  generation : e.generation = generation
  enrolled : e.peers[identity.deviceId]? = some peer
  unrevoked : peer.revoked = false
  unpaused : peer.state ≠ .paused
  sound : peer.state ≠ .needsRepair
  identity : peer.identity = identity
  fingerprint : peer.fingerprint = fingerprint

theorem check_ok {generation : Nat} {identity : Identity} {fingerprint : String}
    {peer : Peer Proof} (checked : check e generation identity fingerprint = .ok peer) :
    Live e generation identity fingerprint peer := by
  simp only [check] at checked
  split at checked
  · simp at checked
  · rename_i running
    split at checked
    · simp at checked
    · rename_i found enrolled
      split at checked
      · simp [failCode] at checked
      · rename_i allowed
        obtain rfl := Except.ok.inj checked
        simp only [not_or, not_not, Bool.not_eq_true] at running allowed
        exact ⟨running.1, running.2, enrolled, allowed.1, allowed.2.1, allowed.2.2.1,
          allowed.2.2.2.1, allowed.2.2.2.2⟩

theorem checkedNext_ok {count next : Nat} {message : String}
    (stepped : checkedNext count message = .ok next) : count < u64Max ∧ next = count + 1 := by
  simp only [checkedNext] at stepped
  split at stepped
  · rename_i found
    obtain rfl := Except.ok.inj stepped
    exact checkedSucc_some found
  · simp at stepped

@[simp] theorem Except.map_snd_ok {R S : Type} {result : Except Error (R × S)} {state : S} :
    result.map Prod.snd = .ok state ↔ ∃ reply, result = .ok (reply, state) := by
  cases result with
  | error error => simp [Except.map]
  | ok pair =>
      obtain ⟨reply, final⟩ := pair
      simp [Except.map]

theorem Except.map_ok {R S : Type} {result : Except Error R} {f : R → S} {state : S}
    (mapped : result.map f = .ok state) : ∃ reply, result = .ok reply ∧ f reply = state := by
  cases result with
  | error error => simp [Except.map] at mapped
  | ok reply => exact ⟨reply, rfl, Except.ok.inj mapped⟩

theorem nextGeneration_ok (stepped : nextGeneration e = .ok after) :
    after = { e with generation := e.generation + 1 } := by
  obtain ⟨generation, counted, rfl⟩ := Except.map_ok stepped
  rw [(checkedNext_ok counted).2]

theorem apply_ok {change : String} {batch : ExportBatch Proof} {peer : String}
    (applied : apply inner change e batch peer = .ok after) :
    ∃ middle p, Merging inner (some peer) batch.records e middle ∧
      e.peers[peer]? = some p ∧ after = middle.setPeer peer { p with
        received := batch.checkpoint
        bootstrapped := true
        pending := none } := by
  simp only [apply] at applied
  split at applied
  · simp at applied
  · rename_i changes prepared
    split at applied
    · simp at applied
    · rename_i middle committed
      split at applied
      · simp at applied
      · rename_i p found
        have merging : Merging inner (some peer) batch.records e middle :=
          ⟨_, _, prepared, committed⟩
        exact ⟨middle, p, merging, merging.peers ▸ found, (Except.ok.inj applied).symm⟩

theorem write_ok {change adapter id : String} {value : Bytes} {deleted : Bool} {reply : Unit}
    (wrote : write inner change adapter id value deleted e = .ok (reply, after)) :
    ∃ middle, maxCounter e.records < u64Max ∧
      Merging inner none [{
        adapter, id, value, deleted
        clock := { counter := maxCounter e.records + 1, deviceId := e.identity.deviceId } }]
        e middle ∧ after = { middle with localRevision := middle.localRevision + 1 } := by
  simp only [write] at wrote
  split at wrote
  · simp at wrote
  · rename_i counter counted
    obtain ⟨below, rfl⟩ := checkedNext_ok counted
    split at wrote
    · simp at wrote
    · rename_i changes prepared
      split at wrote
      · simp at wrote
      · rename_i middle committed
        obtain ⟨next, counted, same⟩ := Except.map_ok wrote
        simp only [Prod.mk.injEq, true_and] at same
        exact ⟨middle, below, ⟨_, _, prepared, committed⟩,
          by rw [← same, (checkedNext_ok counted).2]⟩

theorem importRecords_ok {change : String} {records : List ManagedRecord} {reply : Unit}
    (imported : importRecords inner change records e = .ok (reply, after)) :
    ∃ middle, Merging inner none records e middle ∧
      ∃ localRevision, after = { middle with localRevision } := by
  simp only [importRecords] at imported
  split at imported
  · simp at imported
  · rename_i changes prepared
    split at imported
    · simp at imported
    · rename_i middle committed
      refine ⟨middle, ⟨_, _, prepared, committed⟩, ?_⟩
      split at imported
      · obtain ⟨next, _, same⟩ := Except.map_ok imported
        simp only [Prod.mk.injEq, true_and] at same
        exact ⟨next, same.symm⟩
      · simp only [Except.ok.injEq, Prod.mk.injEq, true_and] at imported
        exact ⟨middle.localRevision, imported.symm⟩

theorem acknowledgeApplied_ok {peer : String} {receipt : ManagedReceipt Proof} {reply : Unit}
    (acknowledged : acknowledgeApplied peer receipt e = .ok (reply, after)) :
    ∃ p, e.peers[peer]? = some p ∧ p.covers receipt = true ∧
      after = e.setPeer peer (p.process receipt) := by
  simp only [acknowledgeApplied] at acknowledged
  split at acknowledged
  · simp at acknowledged
  · rename_i p found
    split at acknowledged
    · simp [fail] at acknowledged
    · rename_i covered
      simp only [Except.ok.injEq, Prod.mk.injEq, true_and] at acknowledged
      exact ⟨p, found, by simpa using covered, acknowledged.symm⟩

@[simp] theorem Contents.setPeer_peers (id query : String) (peer : Peer Proof) :
    (e.setPeer id peer).peers[query]? = if query = id then some peer else e.peers[query]? :=
  BTreeMap.get_insert _ _ _ _

theorem processReceipts_ok {receipts : List (String × ManagedReceipt Proof)}
    (distinct : (receipts.map Prod.fst).Nodup)
    (covered : coveredReceipts e receipts = .ok ()) :
    ∀ {start : Contents Proof}, (∀ id ∈ receipts.map Prod.fst,
        start.peers[id]? = e.peers[id]?) → processReceipts start receipts = .ok after →
      after = { start with peers := after.peers } ∧ ∀ id : String,
        (id ∉ receipts.map Prod.fst → after.peers[id]? = start.peers[id]?) ∧
        ∀ receipt, (id, receipt) ∈ receipts → ∃ p, e.peers[id]? = some p ∧
          p.covers receipt = true ∧ after.peers[id]? = some (p.process receipt) := by
  induction receipts with
  | nil =>
      intro start _ processed
      obtain rfl := Except.ok.inj processed
      exact ⟨rfl, by simp⟩
  | cons item rest ih =>
      obtain ⟨first, receipt⟩ := item
      simp only [List.map_cons, List.nodup_cons] at distinct
      intro start agree processed
      simp only [coveredReceipts] at covered
      split at covered
      · simp at covered
      · rename_i p found
        split at covered
        · simp [fail] at covered
        · rename_i covers
          simp only [Bool.not_eq_true, Bool.not_eq_false] at covers
          have here : start.peers[first]? = some p := (agree first (by simp)).trans found
          simp only [processReceipts, here] at processed
          obtain ⟨frame, later⟩ := ih distinct.2 covered (by
            intro id member
            have apart : id ≠ first := fun same => distinct.1 (same ▸ member)
            rw [Contents.setPeer_peers, if_neg apart]
            exact agree id (by simp [member])) processed
          refine ⟨frame, fun id => ⟨fun absent => ?_, fun other member => ?_⟩⟩
          · simp only [List.map_cons, List.mem_cons, not_or] at absent
            rw [(later id).1 absent.2, Contents.setPeer_peers, if_neg absent.1]
          · rcases List.mem_cons.mp member with same | member
            · simp only [Prod.mk.injEq] at same
              obtain ⟨rfl, rfl⟩ := same
              refine ⟨p, found, covers, ?_⟩
              rw [(later id).1 distinct.1, Contents.setPeer_peers, if_pos rfl]
            · exact (later id).2 other member

theorem acknowledgeInbox_ok {inbox : ApplicationInbox Proof} {reply : Unit}
    (acknowledged : acknowledgeInbox inbox e = .ok (reply, after)) :
    after = { e with peers := after.peers } ∧ ∀ id : String,
      (inbox.receipts[id]? = none → after.peers[id]? = e.peers[id]?) ∧
      ∀ receipt, inbox.receipts[id]? = some receipt → ∃ p, e.peers[id]? = some p ∧
        p.covers receipt = true ∧ after.peers[id]? = some (p.process receipt) := by
  simp only [acknowledgeInbox] at acknowledged
  split at acknowledged
  · simp [fail] at acknowledged
  · split at acknowledged
    · simp at acknowledged
    · rename_i covered
      obtain ⟨processed, ran, same⟩ := Except.map_ok acknowledged
      simp only [Prod.mk.injEq, true_and] at same
      subst same
      have distinct : (inbox.receipts.toList.map Prod.fst).Nodup := by
        rw [List.Nodup, List.pairwise_map]
        exact Std.ExtTreeMap.distinct_keys_toList.imp fun different same =>
          different (by simp [same])
      obtain ⟨frame, each⟩ := processReceipts_ok distinct covered (fun _ _ => rfl) ran
      refine ⟨frame, fun id => ⟨fun absent => (each id).1 ?_, fun receipt found => (each id).2 receipt
        (Std.ExtTreeMap.mem_toList_iff_getElem?_eq_some.mpr found)⟩⟩
      rintro member
      obtain ⟨⟨query, receipt⟩, listed, rfl⟩ := List.mem_map.mp member
      rw [Std.ExtTreeMap.mem_toList_iff_getElem?_eq_some] at listed
      exact absurd (listed.symm.trans absent) (by simp)

theorem start_ok {reply : Unit} (started : start e = .ok (reply, after)) :
    after = { e with generation := e.generation + 1, phase := .running } := by
  obtain ⟨middle, stepped, same⟩ := Except.map_ok started
  rw [nextGeneration_ok stepped] at same
  simp only [Prod.mk.injEq, true_and] at same
  exact same.symm

theorem stop_ok {phase : SessionPhase} {reply : Unit}
    (stopped : stop phase e = .ok (reply, after)) :
    after = e ∨ after = { e with generation := e.generation + 1, phase } := by
  simp only [stop] at stopped
  split at stopped
  · simp only [Except.ok.injEq, Prod.mk.injEq, true_and] at stopped
    exact Or.inl stopped.symm
  · obtain ⟨middle, stepped, same⟩ := Except.map_ok stopped
    rw [nextGeneration_ok stepped] at same
    simp only [Prod.mk.injEq, true_and] at same
    exact Or.inr same.symm

theorem removePeer_ok {peer incarnation : String} {reply : Unit}
    (removed : removePeer peer incarnation e = .ok (reply, after)) :
    ∃ p, e.peers[peer]? = some p ∧ after = { e.setPeer peer { p with
        revoked := true
        incarnation
        state := .paused
        pending := none } with
      generation := e.generation + 1
      enrollments := e.enrollments.filter fun _ job => job.outcome.identity.deviceId ≠ peer
      preparations := e.preparations.filter fun _ job =>
        job.outcome.identity.deviceId ≠ peer } := by
  simp only [removePeer] at removed
  split at removed
  · simp at removed
  · rename_i p found
    obtain ⟨middle, stepped, same⟩ := Except.map_ok removed
    rw [nextGeneration_ok stepped] at same
    simp only [Prod.mk.injEq, true_and] at same
    exact ⟨p, found, same.symm⟩

theorem pausePeer_ok {peer : String} {reply : Unit}
    (paused : pausePeer peer e = .ok (reply, after)) :
    ∃ p, e.peers[peer]? = some p ∧ after = { e.setPeer peer { p with state := .paused } with
      generation := e.generation + 1 } := by
  simp only [pausePeer] at paused
  split at paused
  · simp at paused
  · rename_i p found
    obtain ⟨middle, stepped, same⟩ := Except.map_ok paused
    rw [nextGeneration_ok stepped] at same
    simp only [Prod.mk.injEq, true_and] at same
    exact ⟨p, found, same.symm⟩

theorem resumePeer_ok {peer : String} {reply : Unit}
    (resumed : resumePeer peer e = .ok (reply, after)) :
    ∃ p, e.peers[peer]? = some p ∧ p.revoked = false ∧
      after = e.setPeer peer { p with state := .waiting } := by
  simp only [resumePeer] at resumed
  split at resumed
  · simp at resumed
  · rename_i p found
    split at resumed
    · simp [fail] at resumed
    · rename_i unrevoked
      simp only [Except.ok.injEq, Prod.mk.injEq, true_and] at resumed
      exact ⟨p, found, by simpa using unrevoked, resumed.symm⟩

theorem scheduleFailed_ok {peer : String} {error : Error} {reply : Unit}
    (failed : scheduleFailed peer error e = .ok (reply, after)) :
    after = e ∨ ∃ p, e.peers[peer]? = some p ∧ p.revoked = false ∧
      after = e.setPeer peer { p with
        state := if certificateChanged error then .needsRepair else .waiting } := by
  simp only [scheduleFailed] at failed
  split at failed
  · simp only [Except.ok.injEq, Prod.mk.injEq, true_and] at failed
    exact Or.inl failed.symm
  · rename_i p found
    split at failed
    · simp only [Except.ok.injEq, Prod.mk.injEq, true_and] at failed
      exact Or.inl failed.symm
    · rename_i unrevoked
      simp only [Except.ok.injEq, Prod.mk.injEq, true_and] at failed
      exact Or.inr ⟨p, found, by simpa using unrevoked, failed.symm⟩

theorem discovered_ok {identity : Identity} {addresses : List String} {reply : Unit}
    (learned : discovered identity addresses e = .ok (reply, after)) :
    after = { e with peers := after.peers, preparations := after.preparations } ∧
      (after.peers = e.peers ∨ ∃ p, e.peers[identity.deviceId]? = some p ∧
        after.peers = e.peers.insert identity.deviceId { p with addresses }) := by
  simp only [discovered] at learned
  split at learned
  · simp only [Except.ok.injEq, Prod.mk.injEq, true_and] at learned
    subst learned
    exact ⟨rfl, Or.inl rfl⟩
  · simp only [Except.ok.injEq, Prod.mk.injEq, true_and] at learned
    subst learned
    refine ⟨rfl, ?_⟩
    simp only
    split
    · exact Or.inl rfl
    · rename_i p found
      split
      · exact Or.inl rfl
      · exact Or.inr ⟨p, found, rfl⟩

theorem prepareSecurePairing_ok {handler : Handler} {outcome : SecurePairingOutcome}
    {reply : Unit} (prepared : prepareSecurePairing inner handler outcome e = .ok (reply, after)) :
    handler.validate inner e outcome = .ok () ∧
      after = { e with preparations := e.preparations.insert outcome.invitationId {
        addresses := handler.addresses
        outcome
        generation := handler.generation } } := by
  simp only [prepareSecurePairing] at prepared
  split at prepared
  · simp at prepared
  · rename_i valid
    simp only [Except.ok.injEq, Prod.mk.injEq, true_and] at prepared
    exact ⟨valid, prepared.symm⟩

theorem settleAddresses_ok {handler : Handler} {peer : String} {addresses : List String}
    {reply : Unit} (settled : settleAddresses handler peer addresses e = .ok (reply, after)) :
    ∃ p, e.peers[peer]? = some p ∧ after = e.setPeer peer { p with addresses } := by
  simp only [settleAddresses] at settled
  split at settled
  · simp at settled
  · split at settled
    · simp at settled
    · rename_i p found
      simp only [Except.ok.injEq, Prod.mk.injEq, true_and] at settled
      exact ⟨p, found, settled.symm⟩

theorem transmit_ok {generation : Nat} {peer : Peer Proof} {batch : ExportBatch Proof}
    {reply : Unit} (transmitted : transmit generation peer batch e = .ok (reply, after)) :
    ∃ current, Live e generation peer.identity peer.fingerprint current ∧
      after = e.setPeer peer.identity.deviceId
        { current with transmitted := batch.checkpoint } := by
  simp only [transmit] at transmitted
  split at transmitted
  · simp at transmitted
  · rename_i current checked
    simp only [Except.ok.injEq, Prod.mk.injEq, true_and] at transmitted
    exact ⟨current, check_ok checked, transmitted.symm⟩

variable [ReceiptMac Proof]

/-- No peer loses its group: the key only changes while every peer is revoked. -/
theorem commitSecurePairing_ok {handler : Handler} {outcome : SecurePairingOutcome} {key : AppKey}
    {incarnations : Incarnations} {reply : Unit}
    (committed : commitSecurePairing inner handler outcome key incarnations e =
      .ok (reply, after)) :
    handler.validate inner e outcome = .ok () ∧
      (e.groupKey = key.bytes ∨ ∀ (id : String) (peer : Peer Proof),
        e.peers[id]? = some peer → peer.revoked = true) ∧
      (∀ preparation, e.preparations[outcome.invitationId]? = some preparation →
        preparation.outcome = outcome ∧
          (handler.recovering = true ∨ preparation.generation = handler.generation)) ∧
      after = enroll handler outcome key incarnations e := by
  simp only [commitSecurePairing] at committed
  split at committed
  · simp at committed
  · rename_i valid
    split at committed
    · simp [failCode] at committed
    · rename_i alone
      split at committed
      · simp [fail] at committed
      · rename_i unchanged
        simp only [Except.ok.injEq, Prod.mk.injEq, true_and] at committed
        refine ⟨valid, ?_, ?_, committed.symm⟩
        · by_cases same : e.groupKey = key.bytes
          · exact Or.inl same
          · refine Or.inr fun id peer found => ?_
            by_contra current
            refine alone ⟨same, List.any_eq_true.mpr ⟨peer, ?_, by simpa using current⟩⟩
            exact BTreeMap.mem_valueList.mpr ⟨id, found⟩
        · intro preparation found
          simp only [found, Option.any_some, Bool.or_eq_true, Bool.and_eq_true,
            Bool.not_eq_true', decide_eq_true_eq, not_or, not_and, not_not] at unchanged
          exact ⟨unchanged.2, by
            by_cases recovering : handler.recovering = true
            · exact Or.inl recovering
            · exact Or.inr (unchanged.1 (by simpa using recovering))⟩

theorem exportBatch_ok {generation : Nat} {peer : Peer Proof} {cursor : ManagedReceipt Proof}
    {batch : ExportBatch Proof}
    (exported : exportBatch inner generation peer cursor e = .ok (batch, after)) :
    ∃ current, Live e generation peer.identity peer.fingerprint current ∧ after = e ∧
      batch.checkpoint = mint inner e current ∧ batch.full = wantsFull e cursor ∧
      exportRecords inner (selected e peer.identity.deviceId cursor) = .ok batch.records := by
  simp only [exportBatch] at exported
  split at exported
  · simp at exported
  · rename_i current checked
    split at exported
    · simp at exported
    · rename_i records listed
      split at exported
      · simp at exported
      · simp only [Except.ok.injEq, Prod.mk.injEq] at exported
        obtain ⟨rfl, rfl⟩ := exported
        exact ⟨current, check_ok checked, rfl, rfl, rfl, listed⟩

variable [DecidableEq Proof]

theorem authenticate_ok {generation : Nat} {message : Hello Proof} {fingerprint : String}
    {peer : Peer Proof} {cursor : ManagedReceipt Proof}
    (authenticated : authenticate inner generation message fingerprint e =
      .ok ((peer, cursor), after)) :
    ∃ current, Live e generation message.identity fingerprint current ∧
      after = e.setPeer message.identity.deviceId peer ∧
      (cursor = default ∨ cursor = message.cursor ∧
        verify inner e current message.cursor = .ok ()) ∧
      (peer = current.refresh message ∨ verify inner e current message.processed = .ok () ∧
        peer = (current.prove message.processed).refresh message) := by
  simp only [authenticate] at authenticated
  split at authenticated
  · simp at authenticated
  · rename_i current checked
    split at authenticated
    · simp at authenticated
    · simp only [Except.ok.injEq, Prod.mk.injEq] at authenticated
      obtain ⟨⟨rfl, rfl⟩, rfl⟩ := authenticated
      refine ⟨current, check_ok checked, rfl, ?_, ?_⟩
      · split
        · rename_i usable
          rcases usable with same | verified
          · exact Or.inl same
          · exact Or.inr ⟨rfl, verified⟩
        · exact Or.inl rfl
      · split
        · rename_i proven
          exact Or.inr ⟨proven.2, rfl⟩
        · exact Or.inl rfl

theorem acknowledge_ok {generation : Nat} {peer : Peer Proof} {batch : ExportBatch Proof}
    {receipt : ManagedReceipt Proof} {disposition : AckDisposition} {reply : Unit}
    (acknowledged : acknowledge inner generation peer batch receipt disposition e =
      .ok (reply, after)) :
    ∃ current, Live e generation peer.identity peer.fingerprint current ∧
      receipt = batch.checkpoint ∧ verify inner e current receipt = .ok () ∧
      after = e.setPeer peer.identity.deviceId (current.deliver receipt disposition) := by
  simp only [acknowledge] at acknowledged
  split at acknowledged
  · simp [fail] at acknowledged
  · rename_i captured
    split at acknowledged
    · simp at acknowledged
    · rename_i current checked
      split at acknowledged
      · simp at acknowledged
      · rename_i verified
        simp only [Except.ok.injEq, Prod.mk.injEq, true_and] at acknowledged
        exact ⟨current, check_ok checked, not_not.mp captured, verified, acknowledged.symm⟩

inductive Received (inner : Inner Proof) (e : Contents Proof) (token : String)
    (peer current : Peer Proof) (batch : ExportBatch Proof) :
    Option (ManagedReceipt Proof) → Contents Proof → Prop where
  | already (epoch : current.received.epoch = batch.checkpoint.epoch)
      (covered : batch.checkpoint.sequence ≤ current.received.sequence) :
      Received inner e token peer current batch (some batch.checkpoint) e
  | staged (unconsented : current.bootstrapped = false) (full : batch.full = true)
      (stored : e.records.isEmpty = false) (offered : batch.records ≠ []) :
      Received inner e token peer current batch none (stage e current {
        token
        peer := peer.identity.deviceId
        fingerprint := peer.fingerprint
        localRevision := e.revision
        batch })
  | applied {middle : Contents Proof}
      (later : ¬(current.received.epoch = batch.checkpoint.epoch ∧
        batch.checkpoint.sequence ≤ current.received.sequence))
      (valid : validateBatch e batch = .ok ())
      (permitted : current.bootstrapped = true ∨
        batch.full = true ∧ (e.records.isEmpty = true ∨ batch.records = []))
      (committed : Merging inner (some peer.identity.deviceId) batch.records e middle) :
      Received inner e token peer current batch (some batch.checkpoint)
        (middle.setPeer peer.identity.deviceId { current with
          received := batch.checkpoint
          bootstrapped := true
          pending := none })

theorem receiveBatch_ok {generation : Nat} {token change : String} {peer : Peer Proof}
    {batch : ExportBatch Proof} {reply : Option (ManagedReceipt Proof)}
    (received : receiveBatch inner generation token change peer batch e = .ok (reply, after)) :
    ∃ current, Live e generation peer.identity peer.fingerprint current ∧
      Received inner e token peer current batch reply after := by
  simp only [receiveBatch] at received
  split at received
  · simp at received
  · rename_i current checked
    have live := check_ok checked
    refine ⟨current, live, ?_⟩
    split at received
    · rename_i known
      simp only [Except.ok.injEq, Prod.mk.injEq] at received
      obtain ⟨rfl, rfl⟩ := received
      exact .already known.1 known.2
    · rename_i later
      split at received
      · simp at received
      · rename_i valid
        split at received
        · simp [fail] at received
        · rename_i authoritative
          split at received
          · simp at received
          · split at received
            · rename_i review
              simp only [Except.ok.injEq, Prod.mk.injEq] at received
              obtain ⟨rfl, rfl⟩ := received
              simp only [Bool.not_eq_true, not_and, Bool.not_eq_false] at authoritative review
              exact .staged review.1 (authoritative review.1) review.2.1 (by simpa using review.2.2)
            · rename_i direct
              split at received
              · simp at received
              · rename_i final applied
                simp only [Except.ok.injEq, Prod.mk.injEq] at received
                obtain ⟨rfl, rfl⟩ := received
                obtain ⟨middle, p, committed, found, rfl⟩ := apply_ok applied
                obtain rfl := Option.some.inj (live.enrolled.symm.trans found)
                refine .applied later valid ?_ committed
                simp only [Bool.not_eq_true, not_and, Bool.not_eq_false] at authoritative direct
                cases consent : current.bootstrapped with
                | true => exact Or.inl rfl
                | false =>
                    refine Or.inr ⟨authoritative consent, ?_⟩
                    cases nothing : e.records.isEmpty with
                    | true => exact Or.inl rfl
                    | false => exact Or.inr (by simpa using direct consent nothing)

theorem resolveBootstrap_ok {change : String} {preview : BootstrapPreview Proof} {merge : Bool}
    {reply : Unit}
    (resolved : resolveBootstrap inner change preview merge e = .ok (reply, after)) :
    ∃ p staged, e.peers[preview.peer]? = some p ∧ p.revoked = false ∧
      p.fingerprint = preview.fingerprint ∧ e.revision = preview.localRevision ∧
      p.pending = some staged ∧ staged.token = preview.token ∧ staged.batch = preview.batch ∧
      (merge = false ∧ after = e.setPeer preview.peer { p with
          pending := none
          state := .paused } ∨
        merge = true ∧ validateBatch e preview.batch = .ok () ∧ ∃ middle,
          Merging inner (some preview.peer) preview.batch.records e middle ∧
          after = middle.setPeer preview.peer { p with
            received := preview.batch.checkpoint
            bootstrapped := true
            pending := none }) := by
  simp only [resolveBootstrap] at resolved
  split at resolved
  · simp at resolved
  · rename_i p found
    split at resolved
    · simp [failCode] at resolved
    · rename_i current
      simp only [not_or, not_not, Bool.not_eq_true] at current
      obtain ⟨unrevoked, pinned, unchanged, pending⟩ := current
      obtain ⟨staged, here, same⟩ : ∃ staged, p.pending = some staged ∧
          staged.token = preview.token ∧ staged.batch = preview.batch := by
        cases here : p.pending with
        | none => simp [here] at pending
        | some staged => exact ⟨staged, rfl, by simpa [here] using pending⟩
      refine ⟨p, staged, found, unrevoked, pinned, unchanged, here, same.1, same.2, ?_⟩
      split at resolved
      · rename_i consent
        split at resolved
        · simp at resolved
        · rename_i valid
          obtain ⟨final, applied, same⟩ := Except.map_ok resolved
          simp only [Prod.mk.injEq, true_and] at same
          subst same
          obtain ⟨middle, q, committed, enrolled, rfl⟩ := apply_ok applied
          obtain rfl := Option.some.inj (found.symm.trans enrolled)
          exact Or.inr ⟨consent, valid, middle, committed, rfl⟩
      · rename_i refused
        simp only [Except.ok.injEq, Prod.mk.injEq, true_and] at resolved
        exact Or.inl ⟨by simpa using refused, resolved.symm⟩

theorem Session.perform_ok {call : Call Proof} {inner : Inner Proof} {session final : Session Proof}
    (settled : session.Settled) {change transaction : RandomId} {saves : Saves}
    (performed : session.perform inner change transaction saves call = (.ok (), final)) :
    admitCall inner call = .ok () ∧ session.storageUncertain = false ∧ ∃ candidate,
      operate inner change.text call session.envelope.toContents = .ok candidate ∧
        (final = session ∧ candidate = session.envelope.toContents ∨
          ∃ contents, completed inner transaction.text session.envelope.toContents candidate =
            .ok contents ∧ final = .opened contents) := by
  simp only [Session.perform] at performed
  split at performed
  · simp at performed
  · rename_i admitted
    refine ⟨admitted, ?_⟩
    have mutated := mutate_cases inner settled transaction.text saves
      (fun e => (operate inner change.text call e).map fun after => ((), after))
    rw [performed] at mutated
    cases mutated with
    | idle free ran =>
        obtain ⟨candidate, operated, same⟩ := Except.map_ok ran
        simp only [Prod.mk.injEq, true_and] at same
        exact ⟨free, candidate, operated, Or.inl ⟨rfl, same⟩⟩
    | committed free ran finished =>
        obtain ⟨candidate, operated, same⟩ := Except.map_ok ran
        simp only [Prod.mk.injEq, true_and] at same
        subst same
        exact ⟨free, candidate, operated, Or.inr ⟨_, finished, rfl⟩⟩

/-- A call reported as failed did nothing, or it fenced the session and changed nothing that the
session serves. -/
theorem Session.perform_failed {call : Call Proof} {inner : Inner Proof} {session final : Session Proof}
    (settled : session.Settled) {change transaction : RandomId} {saves : Saves} {error : Error}
    (performed : session.perform inner change transaction saves call = (.error error, final)) :
    final = session ∨ final.storageUncertain = true ∧
      final.envelope.toContents = session.envelope.toContents := by
  simp only [Session.perform] at performed
  split at performed
  · exact Or.inl (Prod.mk.inj performed).2.symm
  · have mutated := mutate_cases inner settled transaction.text saves
      (fun e => (operate inner change.text call e).map fun after => ((), after))
    rw [performed] at mutated
    cases mutated with
    | refused _ => exact Or.inl rfl
    | interrupted _ _ _ _ fenced memory _ _ => exact Or.inr ⟨fenced, memory⟩

theorem Session.perform_error {call : Call Proof} {inner : Inner Proof} {session final : Session Proof}
    (settled : session.Settled) {change transaction : RandomId} {saves : Saves} {error : Error}
    (performed : session.perform inner change transaction saves call = (.error error, final)) :
    final.envelope.toContents = session.envelope.toContents := by
  rcases Session.perform_failed settled performed with rfl | ⟨_, same⟩
  · rfl
  · exact same

end Operations

end LibreSync.Managed
