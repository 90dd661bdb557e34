import LibreSync.Managed.Delivery

/-! A paused peer stays paused and nothing is exchanged with it, until it is resumed or replaced. -/

namespace LibreSync.Managed

section Paused

variable {Proof : Type}

def PausedAt (id : String) (e : Contents Proof) : Prop :=
  ∃ peer, e.peers[id]? = some peer ∧ peer.state = .paused

def Call.exchangesWith (id : String) : Call Proof → Bool
  | .exportTo _ peer _ | .receive _ _ peer _ => peer.identity.deviceId = id
  | _ => false

/-- The calls of an application that pause one peer. -/
def Call.pauses (id : String) : Call Proof → Bool
  | .pause peer => peer = id
  | .resolve preview false => preview.peer = id
  | _ => false

/-- The calls that end a pause: resumption, removal and a pairing of the device. -/
def Call.ends (id : String) : Call Proof → Bool
  | .resume peer | .remove peer _ => peer = id
  | .commit _ outcome _ _ _ => outcome.identity.deviceId = id
  | _ => false

/-- The candidate staged for the peer of the preview is the previewed one. -/
def Reviewed (e : Contents Proof) (preview : BootstrapPreview Proof) : Prop :=
  ∃ current staged, e.peers[preview.peer]? = some current ∧ current.pending = some staged ∧
    staged.token = preview.token ∧ staged.batch = preview.batch

/-- The call merges the batch that the peer staged, and its preview is not stale. -/
def Call.mergesStaged (id : String) (e : Contents Proof) (call : Call Proof) : Prop :=
  ∃ preview, call = .resolve preview true ∧ preview.peer = id ∧ Reviewed e preview ∧
    e.revision = preview.localRevision

/-- Nothing ends the pause, the scheduler records no failed exchange with the paused peer, and
no batch that it staged before is merged. -/
def RespectsPause (id : String) (session : Session Proof) : SessionEvent Proof → Prop
  | .call _ _ _ call => call.ends id = false ∧ (PausedAt id session.envelope.toContents →
      (∀ error, call ≠ .scheduleFailed id error) ∧
      ¬call.mergesStaged id session.envelope.toContents)
  | .reopen _ => True

theorem check_paused {e : Contents Proof} {id : String} (paused : PausedAt id e)
    {generation : Nat} {identity : Identity} {fingerprint : String}
    (named : identity.deviceId = id) {peer : Peer Proof} :
    check e generation identity fingerprint ≠ .ok peer := by
  intro checked
  obtain ⟨current, found, state⟩ := paused
  have live := check_ok checked
  have enrolled := live.enrolled
  rw [named, found] at enrolled
  exact live.unpaused (Option.some.inj enrolled ▸ state)

variable [DecidableEq Proof] [ReceiptMac Proof]

theorem operate_paused {inner : Inner Proof} {change : String} {call : Call Proof}
    {e after : Contents Proof} {id : String} (paused : PausedAt id e)
    (exchanges : call.exchangesWith id = true) : operate inner change call e ≠ .ok after := by
  intro operated
  cases call with
  | exportTo generation peer cursor =>
      simp only [Call.exchangesWith, decide_eq_true_eq] at exchanges
      obtain ⟨batch, ran⟩ := Except.map_snd_ok.mp operated
      simp only [exportBatch] at ran
      split at ran
      · simp at ran
      · rename_i checked
        exact check_paused paused exchanges checked
  | receive generation token peer batch =>
      simp only [Call.exchangesWith, decide_eq_true_eq] at exchanges
      obtain ⟨reply, ran⟩ := Except.map_snd_ok.mp operated
      simp only [receiveBatch] at ran
      split at ran
      · simp at ran
      · rename_i checked
        exact check_paused paused exchanges checked
  | _ => simp [Call.exchangesWith] at exchanges

theorem perform_paused {inner : Inner Proof} {session : Session Proof} {id : String}
    (settled : session.Settled) (paused : PausedAt id session.envelope.toContents)
    {call : Call Proof} (exchanges : call.exchangesWith id = true)
    (change transaction : RandomId) (saves : Saves) :
    ∃ error, session.perform inner change transaction saves call = (.error error, session) := by
  simp only [Session.perform]
  split
  · exact ⟨_, rfl⟩
  · have mutated := mutate_cases inner settled transaction.text saves
      (fun e => (operate inner change.text call e).map fun after => ((), after))
    generalize session.mutate inner transaction.text saves
      (fun e => (operate inner change.text call e).map fun after => ((), after)) = outcome
      at mutated
    cases mutated with
    | refused error => exact ⟨error, rfl⟩
    | idle _ ran =>
        obtain ⟨_, operated, _⟩ := Except.map_ok ran
        exact absurd operated (operate_paused paused exchanges)
    | committed _ ran =>
        obtain ⟨_, operated, _⟩ := Except.map_ok ran
        exact absurd operated (operate_paused paused exchanges)
    | interrupted _ _ ran =>
        obtain ⟨_, operated, _⟩ := Except.map_ok ran
        exact absurd operated (operate_paused paused exchanges)

theorem Touched.paused_kept {inner : Inner Proof} {e : Contents Proof} {id : String}
    {old new : Peer Proof} {call : Call Proof} (touched : Touched inner e id old call new)
    (found : e.peers[id]? = some old) (paused : old.state = .paused)
    (endless : call.ends id = false) (unfailed : ∀ error, call ≠ .scheduleFailed id error)
    (unmerged : ¬call.mergesStaged id e) : new.state = .paused := by
  cases touched with
  | greeted live => exact absurd paused live.unpaused
  | proven live => exact absurd paused live.unpaused
  | transmitted live => exact absurd paused live.unpaused
  | delivered live => exact absurd paused live.unpaused
  | staged live => exact absurd paused live.unpaused
  | received live => exact absurd paused live.unpaused
  | merged _ pending token same revision named =>
      subst named
      exact absurd ⟨_, rfl, rfl, ⟨old, _, found, pending, token, same⟩, revision⟩ unmerged
  | resumed => simp [Call.ends] at endless
  | failed => exact absurd rfl (unfailed _)
  | enrolled device => simp [Call.ends, device] at endless
  | declined => rfl
  | removed => rfl
  | paused => rfl
  | _ => exact paused

end Paused

section Runs

variable {Proof : Type} [DecidableEq Proof] [ReceiptMac Proof]
  {installation : Installation Proof}

theorem pausedAt_called {id change transaction : String} {call : Call Proof}
    {e candidate final : Contents Proof} (paused : PausedAt id e) (endless : call.ends id = false)
    (unfailed : ∀ error, call ≠ .scheduleFailed id error) (unmerged : ¬call.mergesStaged id e)
    (operated : operate installation.inner change call e = .ok candidate)
    (finished : completed installation.inner transaction e candidate = .ok final) :
    PausedAt id final := by
  obtain ⟨old, found, state⟩ := paused
  have step := operate_peers operated id
  rw [completed_rest finished, PausedAt]
  rw [found] at step
  generalize candidate.peers[id]? = written at step
  cases step with
  | kept touched =>
      exact ⟨_, rfl, touched.paused_kept found state endless unfailed unmerged⟩

theorem paused_after {id change : String} {call : Call Proof} {e after : Contents Proof}
    (pauses : call.pauses id = true)
    (operated : operate installation.inner change call e = .ok after) : PausedAt id after := by
  cases call with
  | pause peer =>
      simp only [Call.pauses, decide_eq_true_eq] at pauses
      subst pauses
      obtain ⟨reply, ran⟩ := Except.map_snd_ok.mp operated
      obtain ⟨p, _, rfl⟩ := pausePeer_ok ran
      exact ⟨_, (e.setPeer_peers peer peer _).trans (if_pos rfl), rfl⟩
  | resolve preview merge =>
      cases merge with
      | true => simp [Call.pauses] at pauses
      | false =>
          simp only [Call.pauses, decide_eq_true_eq] at pauses
          subst pauses
          obtain ⟨reply, ran⟩ := Except.map_snd_ok.mp operated
          obtain ⟨_, _, _, _, _, _, _, _, _, ⟨_, rfl⟩ | ⟨consent, _⟩⟩ :=
            resolveBootstrap_ok ran
          · exact ⟨_, (e.setPeer_peers preview.peer preview.peer _).trans (if_pos rfl), rfl⟩
          · simp at consent
  | _ => simp [Call.pauses] at pauses

/-- From a successful pause on, over every run that respects it, the peer stays paused, and every
export to it and every batch from it is refused. -/
theorem Installation.pause_sticky (installation : Installation Proof)
    {id : String} {session paused final : Session Proof} {change transaction : RandomId}
    {saves : Saves} {call : Call Proof}
    (earlier : Transition.Reaches installation.step (fun _ _ => True)
      (.opened installation.first) session)
    (pauses : call.pauses id = true)
    (performed : session.perform installation.inner change transaction saves call =
      (.ok (), paused))
    (later : Transition.Reaches installation.step (RespectsPause id) paused final) :
    PausedAt id final.envelope.toContents ∧
      ∀ (exchange : Call Proof) (change transaction : RandomId) (saves : Saves),
        exchange.exchangesWith id = true → ∃ error,
          final.perform installation.inner change transaction saves exchange =
            (.error error, final) := by
  have holds := installation.sound earlier
  obtain ⟨_, free, candidate, operated, outcome⟩ := Session.perform_ok holds.settled performed
  have here := paused_after pauses operated
  have initial : paused.Holds fun e => Sound installation e ∧ PausedAt id e := by
    rcases outcome with ⟨rfl, same⟩ | ⟨contents, finished, rfl⟩
    · refine ⟨holds.settled, ⟨holds.memory, same ▸ here⟩, ?_⟩
      rw [holds.settled.durable free]
      exact ⟨holds.memory, same ▸ here⟩
    · refine .opened ⟨holds.memory.called operated finished, ?_⟩
      rw [completed_rest finished]
      exact here
  have after : final.Holds fun e => Sound installation e ∧ PausedAt id e := by
    refine Installation.holds later initial ?_ ?_
    · intro state change transaction saves call candidate final holds permitted _ operated finished
      obtain ⟨endless, quiet⟩ := permitted
      obtain ⟨unfailed, unmerged⟩ := quiet holds.memory.2
      exact ⟨holds.memory.1.called operated finished,
        pausedAt_called holds.memory.2 endless unfailed unmerged operated finished⟩
    · intro before after holds launched
      refine ⟨holds.1.launched launched, ?_⟩
      obtain ⟨rfl, _⟩ := holds.1.launch launched
      exact holds.2
  exact ⟨after.memory.2, fun exchange change transaction saves exchanges =>
    perform_paused after.settled after.memory.2 exchanges change transaction saves⟩

end Runs

def pausedDesk : Session SymbolicProof :=
  (deskWithPhone.perform desk.inner sampleId sampleId {} (.pause "phone")).2

theorem pausedDesk_ok : deskWithPhone.perform desk.inner sampleId sampleId {} (.pause "phone") =
    (.ok (), pausedDesk) :=
  Prod.ext (by decide +kernel) rfl

def editedPausedDesk : Session SymbolicProof :=
  (pausedDesk.perform desk.inner sampleId sampleId {} (.write "records" "note" [] false)).2

theorem pause_sticky_edited : PausedAt "phone" editedPausedDesk.envelope.toContents ∧
    ∀ (exchange : Call SymbolicProof) (change transaction : RandomId) (saves : Saves),
      exchange.exchangesWith "phone" = true → ∃ error,
        editedPausedDesk.perform desk.inner change transaction saves exchange =
          (.error error, editedPausedDesk) := by
  have edited : desk.step pausedDesk (sampleCall (.write "records" "note" [] false)) =
      some editedPausedDesk := rfl
  refine desk.pause_sticky deskWithPhone_reached rfl pausedDesk_ok (.next .start ?_ edited)
  exact ⟨rfl, fun _ => ⟨by simp, by simp [Call.mergesStaged]⟩⟩

/-- The scheduler's record of an exchange that failed meanwhile overwrites the pause. -/
theorem scheduleFailed_unpauses : ∃ final : Session SymbolicProof,
    Transition.Reaches desk.step (fun _ _ => True) (.opened desk.first) deskWithPhone ∧
      deskWithPhone.perform desk.inner sampleId sampleId {} (.pause "phone") =
        (.ok (), pausedDesk) ∧
      desk.step pausedDesk (sampleCall (.scheduleFailed "phone" (.io "connection reset"))) =
        some final ∧
      (final.envelope.peers["phone"]?).map Peer.state = some .waiting ∧
      ¬PausedAt "phone" final.envelope.toContents := by
  have waiting : ((pausedDesk.perform desk.inner sampleId sampleId {}
      (.scheduleFailed "phone" (.io "connection reset"))).2.envelope.peers["phone"]?).map
        Peer.state = some .waiting := by
    decide +kernel
  refine ⟨_, deskWithPhone_reached, pausedDesk_ok, rfl, waiting, ?_⟩
  rintro ⟨peer, found, paused⟩
  change ((pausedDesk.perform desk.inner sampleId sampleId {}
    (.scheduleFailed "phone" (.io "connection reset"))).2.envelope.peers["phone"]?) =
      some peer at found
  rw [found] at waiting
  simp [paused] at waiting

end LibreSync.Managed
