import LibreSync.Managed.Pause

/-! A consented merge keeps a copy of the records it replaces. -/

namespace LibreSync.Managed

section Consent

variable {Proof : Type}

/-- A batch waits for a review only while its peer is not bootstrapped. -/
def Unreviewed (e : Contents Proof) : Prop :=
  ∀ (id : String) (peer : Peer Proof), e.peers[id]? = some peer →
    peer.pending.isSome = true → peer.bootstrapped = false

variable [DecidableEq Proof] [ReceiptMac Proof]

theorem Touched.unreviewed {inner : Inner Proof} {e : Contents Proof} {id : String}
    {old new : Peer Proof} {call : Call Proof} (touched : Touched inner e id old call new)
    (before : old.pending.isSome = true → old.bootstrapped = false) :
    new.pending.isSome = true → new.bootstrapped = false := by
  cases touched with
  | staged _ unconsented => exact fun _ => unconsented
  | received => exact fun waits => absurd waits (by simp)
  | merged => exact fun waits => absurd waits (by simp)
  | declined => exact fun waits => absurd waits (by simp)
  | removed => exact fun waits => absurd waits (by simp)
  | enrolled => exact fun _ => rfl
  | _ => exact before

theorem Unreviewed.called {inner : Inner Proof} {change transaction : String} {call : Call Proof}
    {e candidate final : Contents Proof} (unreviewed : Unreviewed e)
    (operated : operate inner change call e = .ok candidate)
    (finished : completed inner transaction e candidate = .ok final) : Unreviewed final := by
  intro id peer found
  have step := operate_peers operated id
  rw [completed_rest finished] at found
  rw [found] at step
  generalize before : e.peers[id]? = old at step
  cases step with
  | kept touched => exact touched.unreviewed (unreviewed id _ before)
  | enrolled => exact fun _ => rfl

theorem Installation.unreviewed {installation : Installation Proof}
    {allowed : Session Proof → SessionEvent Proof → Prop} {session : Session Proof}
    (reached : Transition.Reaches installation.step allowed (.opened installation.first) session) :
    session.Holds fun e => Sound installation e ∧ Unreviewed e := by
  refine Installation.holds reached (.opened ⟨.first _, fun id peer found => ?_⟩) ?_ ?_
  · simp [Installation.first, Installation.created] at found
  · intro _ _ _ _ _ _ _ holds _ _ operated finished
    exact ⟨holds.memory.1.called operated finished, holds.memory.2.called operated finished⟩
  · intro before after both launched
    refine ⟨both.1.launched launched, ?_⟩
    obtain ⟨rfl, _⟩ := both.1.launch launched
    exact both.2

end Consent

section Copies

variable {Proof : Type}

/-- The newest recovery snapshot holds the records and the revision from before. -/
def Copied (before after : Contents Proof) : Prop :=
  ∃ older id, after.recovery = older ++ [recoveryCopy id before]

theorem SessionConfig.validate_retention {config : SessionConfig}
    (valid : config.validate = .ok ()) : 1 ≤ config.recoveryRetention := by
  simp only [validate] at valid
  split at valid
  · simp at valid
  · split at valid
    · simp [failCode] at valid
    · split at valid
      · simp [failCode] at valid
      · omega

theorem retained_append {inner : Inner Proof} (keeps : 1 ≤ inner.config.recoveryRetention)
    (recovery : List RecoverySnapshot) (newest : RecoverySnapshot) :
    ∃ older, retained inner (recovery ++ [newest]) = older ++ [newest] := by
  have within : recovery.length + 1 - inner.config.recoveryRetention ≤ recovery.length := by omega
  refine ⟨recovery.drop (recovery.length + 1 - inner.config.recoveryRetention), ?_⟩
  rw [retained, List.length_append, List.length_singleton,
    List.drop_append_of_le_length within]

theorem withRecoveryCopy_copied {inner : Inner Proof} (keeps : 1 ≤ inner.config.recoveryRetention)
    {id : String} {before candidate : Contents Proof}
    (bootstrapping : bootstraps before candidate = true)
    (stored : before.records.isEmpty = false) :
    Copied before (withRecoveryCopy inner id before candidate) := by
  obtain ⟨older, kept⟩ := retained_append keeps candidate.recovery (recoveryCopy id before)
  refine ⟨older, id, ?_⟩
  simp only [withRecoveryCopy]
  rw [if_pos ⟨bootstrapping, by simp [stored]⟩]
  exact kept

variable [DecidableEq Proof] [ReceiptMac Proof]

theorem resolve_bootstraps {installation : Installation Proof} {change : String}
    {preview : BootstrapPreview Proof} {e candidate : Contents Proof}
    (sound : Sound installation e) (unreviewed : Unreviewed e)
    (operated : operate installation.inner change (.resolve preview true) e = .ok candidate) :
    bootstraps e candidate = true := by
  obtain ⟨reply, ran⟩ := Except.map_snd_ok.mp operated
  obtain ⟨p, staged, found, _, _, _, pending, _, _, ⟨refused, _⟩ | ⟨_, _, middle, _, rfl⟩⟩ :=
    resolveBootstrap_ok ran
  · simp at refused
  · have consent : p.bootstrapped = false := unreviewed _ p found (by simp [pending])
    refine List.any_eq_true.mpr ⟨p, BTreeMap.mem_valueList.mpr ⟨_, found⟩, ?_⟩
    rw [sound.devices _ p found, Contents.setPeer_peers, if_pos rfl]
    simp [consent]

theorem resolve_copied {installation : Installation Proof} {change transaction : String}
    {preview : BootstrapPreview Proof} {e candidate final : Contents Proof}
    (sound : Sound installation e) (unreviewed : Unreviewed e)
    (stored : e.records.isEmpty = false)
    (operated : operate installation.inner change (.resolve preview true) e = .ok candidate)
    (finished : completed installation.inner transaction e candidate = .ok final) :
    final.records = e.records ∨ final.records = candidate.records ∧ Copied e final := by
  rcases completed_ok finished with ⟨same, rfl⟩ | ⟨_, _, rfl⟩
  · exact Or.inl same
  · exact Or.inr ⟨rfl, withRecoveryCopy_copied
      (SessionConfig.validate_retention installation.valid)
      (resolve_bootstraps sound unreviewed operated) stored⟩

def SessionEvent.isReopen : SessionEvent Proof → Prop
  | .reopen _ => True
  | .call .. => False

/-- A consented merge over a nonempty record map. If it succeeds and changes the records, the
newest recovery snapshot is the map from before. However its saves end and however often the
session is then opened, it has the old records, or the new ones with that snapshot. -/
theorem Installation.merge_copied (installation : Installation Proof)
    {session : Session Proof} {change transaction : RandomId} {saves : Saves}
    {preview : BootstrapPreview Proof}
    (reached : Transition.Reaches installation.step (fun _ _ => True)
      (.opened installation.first) session)
    (stored : session.envelope.records.isEmpty = false) :
    (∀ final : Session Proof, session.perform installation.inner change transaction saves
        (.resolve preview true) = (.ok (), final) →
      final.envelope.records ≠ session.envelope.records →
        Copied session.envelope.toContents final.envelope.toContents) ∧
      (session.storageUncertain = false → ∀ reopened : Session Proof,
        Transition.Reaches installation.step (fun _ event => event.isReopen)
          (session.perform installation.inner change transaction saves
            (.resolve preview true)).2 reopened →
        reopened.envelope.records = session.envelope.records ∨ ∃ candidate,
          operate installation.inner change.text (.resolve preview true)
            session.envelope.toContents = .ok candidate ∧
          reopened.envelope.records = candidate.records ∧
          Copied session.envelope.toContents reopened.envelope.toContents) := by
  have holds := Installation.unreviewed reached
  obtain ⟨sound, unreviewed⟩ := holds.memory
  constructor
  · intro final performed changed
    obtain ⟨_, _, candidate, operated, ⟨rfl, _⟩ | ⟨contents, finished, rfl⟩⟩ :=
      Session.perform_ok holds.settled performed
    · exact absurd rfl changed
    · exact ((resolve_copied sound unreviewed stored operated finished).resolve_left changed).2
  · intro free reopened later
    let event : SessionEvent Proof := .call change transaction saves (.resolve preview true)
    have whole : Transition.Reaches installation.step
        (fun state taken => state = session ∧ taken = event ∨ taken.isReopen) session reopened := by
      have performed : installation.step session event = some (session.perform installation.inner
        change transaction saves (.resolve preview true)).2 := rfl
      refine Transition.Reaches.trans (.next .start ?_ performed) (later.mono fun _ _ => Or.inr)
      exact Or.inl ⟨rfl, rfl⟩
    have after : reopened.Holds fun e => Sound installation e ∧
        (e.records = session.envelope.records ∨ ∃ candidate,
          operate installation.inner change.text (.resolve preview true)
            session.envelope.toContents = .ok candidate ∧ e.records = candidate.records ∧
          Copied session.envelope.toContents e) := by
      refine Installation.holds whole ⟨holds.settled, ⟨sound, Or.inl rfl⟩, ?_⟩ ?_ ?_
      · rw [holds.settled.durable free]
        exact ⟨sound, Or.inl rfl⟩
      · intro state drawn named ended call candidate final _ permitted _ operated finished
        rcases permitted with ⟨rfl, same⟩ | reopens
        · simp only [event, SessionEvent.call.injEq] at same
          obtain ⟨rfl, rfl, rfl, rfl⟩ := same
          refine ⟨sound.called operated finished, ?_⟩
          rcases resolve_copied sound unreviewed stored operated finished with same | ⟨new, copied⟩
          · exact Or.inl same
          · exact Or.inr ⟨candidate, operated, new, copied⟩
        · exact absurd reopens id
      · intro before after kept launched
        refine ⟨kept.1.launched launched, ?_⟩
        obtain ⟨rfl, _⟩ := kept.1.launch launched
        exact kept.2
    exact after.memory.2

end Copies

def stagePhone : List (SessionEvent SymbolicProof) :=
  [sampleCall (.write "records" "note" [] false), sampleCall (receivePhone 1)]

theorem stagePhone_runs : (Transition.run desk.step deskWithPhone stagePhone).isSome = true :=
  rfl

def stagedDesk : Session SymbolicProof :=
  (Transition.run desk.step deskWithPhone stagePhone).get stagePhone_runs

def phonePreview : BootstrapPreview SymbolicProof where
  token := sampleId.text
  peer := "phone"
  fingerprint := "phone certificate"
  localRevision := 1
  batch := phoneBatch 1

def mergedDesk : Session SymbolicProof :=
  (stagedDesk.perform desk.inner sampleId sampleId {} (.resolve phonePreview true)).2

theorem merge_copied_note :
    Copied stagedDesk.envelope.toContents mergedDesk.envelope.toContents := by
  have staged : Transition.Reaches desk.step (fun _ _ => True) (.opened desk.first) stagedDesk :=
    deskWithPhone_reached.trans
      (Transition.reaches_of_run stagePhone (Option.some_get stagePhone_runs).symm)
  have stored : stagedDesk.envelope.records.isEmpty = false := by decide +kernel
  have merged : (stagedDesk.perform desk.inner sampleId sampleId {}
      (.resolve phonePreview true)).1 = .ok () := by decide +kernel
  have changed : mergedDesk.envelope.records ≠ stagedDesk.envelope.records := by decide +kernel
  exact (desk.merge_copied staged stored).1 mergedDesk (Prod.ext merged rfl) changed

end LibreSync.Managed
