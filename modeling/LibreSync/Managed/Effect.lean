import LibreSync.Managed.CrashAtomicity

/-! What a call does to the records: nothing, local edits, or one batch of a peer. -/

namespace LibreSync.Managed

section Effects

variable {Proof : Type}

inductive Arrives (e : Contents Proof) : Call Proof → String → ExportBatch Proof → Prop where
  | received {generation : Nat} {token : RandomId} {peer : Peer Proof}
      {batch : ExportBatch Proof} :
      Arrives e (.receive generation token peer batch) peer.identity.deviceId batch
  | reviewed {preview staged : BootstrapPreview Proof} {peer : Peer Proof}
      (found : e.peers[preview.peer]? = some peer) (pending : peer.pending = some staged)
      (same : staged.batch = preview.batch) :
      Arrives e (.resolve preview true) preview.peer preview.batch

variable [ReceiptMac Proof]

def SameReceived (e after : Contents Proof) : Prop :=
  ∀ (id : String) (new : Peer Proof), after.peers[id]? = some new →
    new.received = default ∨ ∃ old, e.peers[id]? = some old ∧ new.received = old.received

inductive Effect (inner : Inner Proof) (e : Contents Proof) (call : Call Proof)
    (after : Contents Proof) : Prop where
  | quiet (data : SameData e after) (received : SameReceived e after)
  | wrote {records : List ManagedRecord} {middle : Contents Proof}
      (merging : Merging inner none records e middle) (data : SameData middle after)
      (peers : after.peers = e.peers)
  | arrived {id : String} {batch : ExportBatch Proof} {old : Peer Proof} {middle : Contents Proof}
      (arrives : Arrives e call id batch) (valid : validateBatch e batch = .ok ())
      (merging : Merging inner (some id) batch.records e middle) (data : SameData middle after)
      (found : e.peers[id]? = some old)
      (peers : after.peers = e.peers.insert id { old with
        received := batch.checkpoint
        bootstrapped := true
        pending := none })

variable [DecidableEq Proof] {inner : Inner Proof} {e after : Contents Proof} {call : Call Proof}
  {change : String}

omit [DecidableEq Proof] in
theorem SameReceived.setPeer {device : String} {old new : Peer Proof}
    (found : e.peers[device]? = some old) (same : new.received = old.received) :
    SameReceived e (e.setPeer device new) := by
  intro id peer present
  rw [Contents.setPeer_peers] at present
  split at present
  · rename_i here
    subst here
    obtain rfl := Option.some.inj present
    exact Or.inr ⟨old, found, same⟩
  · exact Or.inr ⟨peer, present, rfl⟩

omit [DecidableEq Proof] in
theorem SameReceived.refl (e : Contents Proof) : SameReceived e e :=
  fun _ new found => Or.inr ⟨new, found, rfl⟩

theorem PeerStep.received {id : String} {entry : Option (Peer Proof)} {new : Peer Proof}
    (step : PeerStep inner e call id entry (some new))
    (unreceived : ∀ generation token peer batch, call ≠ .receive generation token peer batch)
    (unmerged : ∀ preview merge, call ≠ .resolve preview merge) :
    new.received = default ∨ ∃ old, entry = some old ∧ new.received = old.received := by
  cases step with
  | enrolled => exact Or.inl rfl
  | kept touched =>
      cases touched with
      | received => exact absurd rfl (unreceived _ _ _ _)
      | merged => exact absurd rfl (unmerged _ _)
      | enrolled => exact Or.inl rfl
      | _ => exact Or.inr ⟨_, rfl, rfl⟩

theorem operate_effect (operated : operate inner change call e = .ok after) :
    Effect inner e call after := by
  have steps := operate_peers operated
  cases call with
  | write adapter key value deleted =>
      obtain ⟨reply, ran⟩ := Except.map_snd_ok.mp operated
      obtain ⟨middle, _, merging, rfl⟩ := write_ok ran
      exact .wrote merging ⟨rfl, rfl, rfl, rfl⟩ merging.peers
  | importRecords records =>
      obtain ⟨reply, ran⟩ := Except.map_snd_ok.mp operated
      obtain ⟨middle, merging, _, rfl⟩ := importRecords_ok ran
      exact .wrote merging ⟨rfl, rfl, rfl, rfl⟩ merging.peers
  | receive generation token peer batch =>
      obtain ⟨reply, ran⟩ := Except.map_snd_ok.mp operated
      obtain ⟨current, live, received⟩ := receiveBatch_ok ran
      cases received with
      | already => exact .quiet (.refl e) (.refl e)
      | staged =>
          have found : e.peers[current.identity.deviceId]? = some current := by
            rw [live.identity]
            exact live.enrolled
          exact .quiet ⟨rfl, rfl, rfl, rfl⟩ (.setPeer found rfl)
      | applied _ valid _ merging =>
          refine .arrived .received valid merging ⟨rfl, rfl, rfl, rfl⟩ live.enrolled ?_
          rw [← merging.peers]
          rfl
  | resolve preview merge =>
      obtain ⟨reply, ran⟩ := Except.map_snd_ok.mp operated
      obtain ⟨p, staged, found, _, _, _, pending, _, same,
        ⟨rfl, rfl⟩ | ⟨rfl, valid, middle, merging, rfl⟩⟩ := resolveBootstrap_ok ran
      · exact .quiet ⟨rfl, rfl, rfl, rfl⟩ (.setPeer found rfl)
      · refine .arrived (.reviewed found pending same) valid merging ⟨rfl, rfl, rfl, rfl⟩ found ?_
        rw [← merging.peers]
        rfl
  | _ =>
      have data : SameData e after := by
        cases (operate_data operated).2 with
        | same data => exact data
        | committed merging data => exact merging.nil ▸ data
      refine .quiet data fun id new found => ?_
      have step := steps id
      rw [found] at step
      exact step.received (by simp) (by simp)

end Effects

end LibreSync.Managed
