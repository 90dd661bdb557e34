import LibreSync.Managed.Acknowledge

/-!
Generations fence off workers: what was started before a stop, a pause or a removal changes
nothing afterwards. The group key stays as long as somebody is enrolled.
-/

namespace LibreSync.Managed

section Shifts

variable {Proof : Type}

def Call.generation : Call Proof → Option Nat
  | .hello generation _ _ | .exportTo generation _ _ | .transmit generation _ _
  | .acknowledge generation _ _ _ _ | .receive generation _ _ _ => some generation
  | .prepare handler _ | .commit handler _ _ _ _ | .settle handler _ _ => some handler.generation
  | _ => none

def Call.turns (e : Contents Proof) : Call Proof → Prop
  | .start | .remove _ _ | .pause _ => True
  | .stop phase => e.phase ≠ phase
  | _ => False

def Call.pairs : Call Proof → Prop
  | .commit .. => True
  | _ => False

def Enrolling (e : Contents Proof) : Prop :=
  ∃ (id : String) (peer : Peer Proof), e.peers[id]? = some peer ∧ peer.revoked = false

structure Shifted (e : Contents Proof) (call : Call Proof) (after : Contents Proof) : Prop where
  generation : after.generation = e.generation ∨ after.generation = e.generation + 1
  turned : call.turns e → after.generation = e.generation + 1
  groupKey : after.groupKey = e.groupKey ∨ call.pairs ∧ ¬Enrolling e

variable {inner : Inner Proof} {e middle after : Contents Proof} {call : Call Proof}

theorem Shifted.same (generation : after.generation = e.generation)
    (groupKey : after.groupKey = e.groupKey) (steady : ¬call.turns e) : Shifted e call after where
  generation := Or.inl generation
  turned turns := absurd turns steady
  groupKey := Or.inl groupKey

theorem Shifted.next (generation : after.generation = e.generation + 1)
    (groupKey : after.groupKey = e.groupKey) : Shifted e call after where
  generation := Or.inr generation
  turned _ := generation
  groupKey := Or.inl groupKey

theorem Framed.generation (framed : Framed e after) : after.generation = e.generation := by
  rw [framed.rest]

theorem Framed.groupKey (framed : Framed e after) : after.groupKey = e.groupKey := by
  rw [framed.rest]

variable [DecidableEq Proof] [ReceiptMac Proof]

theorem operate_shifted {change : String}
    (operated : operate inner change call e = .ok after) : Shifted e call after := by
  cases call with
  | write adapter key value deleted =>
      obtain ⟨reply, ran⟩ := Except.map_snd_ok.mp operated
      obtain ⟨middle, _, committed, rfl⟩ := write_ok ran
      exact .same committed.framed.generation committed.framed.groupKey id
  | importRecords records =>
      obtain ⟨reply, ran⟩ := Except.map_snd_ok.mp operated
      obtain ⟨middle, committed, _, rfl⟩ := importRecords_ok ran
      exact .same committed.framed.generation committed.framed.groupKey id
  | prune retain =>
      simp only [operate, pruneRecoverySnapshots, Except.map, Except.ok.injEq] at operated
      subst operated
      exact .same rfl rfl id
  | acknowledgeApplied peer receipt =>
      obtain ⟨reply, ran⟩ := Except.map_snd_ok.mp operated
      obtain ⟨_, _, _, rfl⟩ := acknowledgeApplied_ok ran
      exact .same rfl rfl id
  | acknowledgeInbox inbox =>
      obtain ⟨reply, ran⟩ := Except.map_snd_ok.mp operated
      rw [(acknowledgeInbox_ok ran).1]
      exact .same rfl rfl id
  | hello generation message fingerprint =>
      obtain ⟨⟨peer, cursor⟩, ran⟩ := Except.map_snd_ok.mp operated
      obtain ⟨_, _, rfl, _⟩ := authenticate_ok ran
      exact .same rfl rfl id
  | exportTo generation peer cursor =>
      obtain ⟨batch, ran⟩ := Except.map_snd_ok.mp operated
      obtain ⟨_, _, rfl, _⟩ := exportBatch_ok ran
      exact .same rfl rfl id
  | transmit generation peer batch =>
      obtain ⟨reply, ran⟩ := Except.map_snd_ok.mp operated
      obtain ⟨_, _, rfl⟩ := transmit_ok ran
      exact .same rfl rfl id
  | acknowledge generation peer batch receipt disposition =>
      obtain ⟨reply, ran⟩ := Except.map_snd_ok.mp operated
      obtain ⟨_, _, rfl, _, rfl⟩ := acknowledge_ok ran
      exact .same rfl rfl id
  | receive generation token peer batch =>
      obtain ⟨reply, ran⟩ := Except.map_snd_ok.mp operated
      obtain ⟨_, _, received⟩ := receiveBatch_ok ran
      cases received with
      | already => exact .same rfl rfl id
      | staged => exact .same rfl rfl id
      | applied _ _ _ committed =>
          exact .same committed.framed.generation committed.framed.groupKey id
  | resolve preview merge =>
      obtain ⟨reply, ran⟩ := Except.map_snd_ok.mp operated
      obtain ⟨_, _, _, _, _, _, _, _, _, ⟨rfl, rfl⟩ | ⟨rfl, _, middle, committed, rfl⟩⟩ :=
        resolveBootstrap_ok ran
      · exact .same rfl rfl id
      · exact .same committed.framed.generation committed.framed.groupKey id
  | start =>
      obtain ⟨reply, ran⟩ := Except.map_snd_ok.mp operated
      obtain rfl := start_ok ran
      exact .next rfl rfl
  | stop phase =>
      obtain ⟨reply, ran⟩ := Except.map_snd_ok.mp operated
      simp only [stop] at ran
      split at ran
      · rename_i same
        simp only [Except.ok.injEq, Prod.mk.injEq, true_and] at ran
        subst ran
        exact .same rfl rfl fun turns => turns same
      · obtain ⟨middle, stepped, same⟩ := Except.map_ok ran
        rw [nextGeneration_ok stepped] at same
        simp only [Prod.mk.injEq, true_and] at same
        subst same
        exact .next rfl rfl
  | remove peer incarnation =>
      obtain ⟨reply, ran⟩ := Except.map_snd_ok.mp operated
      obtain ⟨_, _, rfl⟩ := removePeer_ok ran
      exact .next rfl rfl
  | pause peer =>
      obtain ⟨reply, ran⟩ := Except.map_snd_ok.mp operated
      obtain ⟨_, _, rfl⟩ := pausePeer_ok ran
      exact .next rfl rfl
  | resume peer =>
      obtain ⟨reply, ran⟩ := Except.map_snd_ok.mp operated
      obtain ⟨_, _, _, rfl⟩ := resumePeer_ok ran
      exact .same rfl rfl id
  | scheduleFailed peer error =>
      obtain ⟨reply, ran⟩ := Except.map_snd_ok.mp operated
      rcases scheduleFailed_ok ran with rfl | ⟨_, _, _, rfl⟩
      · exact .same rfl rfl id
      · exact .same rfl rfl id
  | discovered identity addresses =>
      obtain ⟨reply, ran⟩ := Except.map_snd_ok.mp operated
      rw [(discovered_ok ran).1]
      exact .same rfl rfl id
  | prepare handler outcome =>
      obtain ⟨reply, ran⟩ := Except.map_snd_ok.mp operated
      obtain ⟨_, rfl⟩ := prepareSecurePairing_ok ran
      exact .same rfl rfl id
  | commit handler outcome key incarnation rekeyed =>
      obtain ⟨reply, ran⟩ := Except.map_snd_ok.mp operated
      obtain ⟨_, alone, _, rfl⟩ := commitSecurePairing_ok ran
      refine ⟨Or.inl rfl, fun turns => absurd turns id, ?_⟩
      rcases alone with same | alone
      · exact Or.inl same.symm
      · refine Or.inr ⟨trivial, ?_⟩
        rintro ⟨id, peer, found, unrevoked⟩
        simp [alone id peer found] at unrevoked
  | settle handler peer addresses =>
      obtain ⟨reply, ran⟩ := Except.map_snd_ok.mp operated
      obtain ⟨_, _, rfl⟩ := settleAddresses_ok ran
      exact .same rfl rfl id

omit [DecidableEq Proof] [ReceiptMac Proof] in
theorem Handler.check_ok {handler : Handler} (checked : handler.check e = .ok ()) :
    e.phase = .running ∧ e.generation = handler.generation := by
  simp only [Handler.check] at checked
  split at checked
  · simp at checked
  · rename_i running
    simpa only [not_or, not_not] using running

omit [DecidableEq Proof] [ReceiptMac Proof] in
theorem Handler.validate_ok {handler : Handler} {outcome : SecurePairingOutcome}
    (valid : handler.validate inner e outcome = .ok ()) : handler.check e = .ok () := by
  simp only [Handler.validate] at valid
  split at valid
  · simp at valid
  · assumption

theorem operate_current {change : String} {generation : Nat}
    (worker : call.generation = some generation)
    (operated : operate inner change call e = .ok after) :
    e.phase = .running ∧ e.generation = generation := by
  have live : ∀ {generation : Nat} {identity : Identity} {fingerprint : String}
      {peer : Peer Proof}, Live e generation identity fingerprint peer →
      e.phase = .running ∧ e.generation = generation := fun live => ⟨live.running, live.generation⟩
  cases call with
  | hello =>
      obtain rfl := Option.some.inj worker
      obtain ⟨⟨peer, cursor⟩, ran⟩ := Except.map_snd_ok.mp operated
      obtain ⟨_, current, _⟩ := authenticate_ok ran
      exact live current
  | exportTo =>
      obtain rfl := Option.some.inj worker
      obtain ⟨batch, ran⟩ := Except.map_snd_ok.mp operated
      obtain ⟨_, current, _⟩ := exportBatch_ok ran
      exact live current
  | transmit =>
      obtain rfl := Option.some.inj worker
      obtain ⟨reply, ran⟩ := Except.map_snd_ok.mp operated
      obtain ⟨_, current, _⟩ := transmit_ok ran
      exact live current
  | acknowledge =>
      obtain rfl := Option.some.inj worker
      obtain ⟨reply, ran⟩ := Except.map_snd_ok.mp operated
      obtain ⟨_, current, _⟩ := acknowledge_ok ran
      exact live current
  | receive =>
      obtain rfl := Option.some.inj worker
      obtain ⟨reply, ran⟩ := Except.map_snd_ok.mp operated
      obtain ⟨_, current, _⟩ := receiveBatch_ok ran
      exact live current
  | prepare =>
      obtain rfl := Option.some.inj worker
      obtain ⟨reply, ran⟩ := Except.map_snd_ok.mp operated
      exact Handler.check_ok (Handler.validate_ok (prepareSecurePairing_ok ran).1)
  | commit =>
      obtain rfl := Option.some.inj worker
      obtain ⟨reply, ran⟩ := Except.map_snd_ok.mp operated
      exact Handler.check_ok (Handler.validate_ok (commitSecurePairing_ok ran).1)
  | settle =>
      obtain rfl := Option.some.inj worker
      obtain ⟨reply, ran⟩ := Except.map_snd_ok.mp operated
      simp only [settleAddresses] at ran
      split at ran
      · simp at ran
      · rename_i checked
        exact Handler.check_ok checked
  | _ => simp [Call.generation] at worker

theorem perform_unable {session : Session Proof} {change : RandomId}
    (settled : session.Settled) (unable : ∀ after : Contents Proof,
      operate inner change.text call session.envelope.toContents ≠ .ok after)
    (transaction : RandomId) (saves : Saves) :
    ∃ error, session.perform inner change transaction saves call = (.error error, session) := by
  simp only [Session.perform]
  split
  · exact ⟨_, rfl⟩
  · have mutated := mutate_cases inner settled transaction.text saves
      (fun e => (operate inner change.text call e).map fun after => ((), after))
    generalize session.mutate inner transaction.text saves
      (fun e => (operate inner change.text call e).map fun after => ((), after)) = outcome
      at mutated
    cases mutated with
    | refused error => exact ⟨error, rfl⟩
    | idle _ ran =>
        obtain ⟨_, operated, _⟩ := Except.map_ok ran
        exact absurd operated (unable _)
    | committed _ ran =>
        obtain ⟨_, operated, _⟩ := Except.map_ok ran
        exact absurd operated (unable _)
    | interrupted _ _ ran =>
        obtain ⟨_, operated, _⟩ := Except.map_ok ran
        exact absurd operated (unable _)

end Shifts

section Runs

variable {Proof : Type} [DecidableEq Proof] [ReceiptMac Proof]

/-- What a start, a stop, a pause or a removal leaves behind fences off every worker of an earlier
generation, through restarts and failing saves: each of its calls is refused and changes nothing. -/
theorem Installation.workers_fenced (installation : Installation Proof)
    {session turned final : Session Proof} {change transaction : RandomId} {saves : Saves}
    {call : Call Proof}
    (earlier : Transition.Reaches installation.step (fun _ _ => True)
      (.opened installation.first) session)
    (turns : call.turns session.envelope.toContents)
    (performed : session.perform installation.inner change transaction saves call =
      (.ok (), turned))
    (later : Transition.Reaches installation.step (fun _ _ => True) turned final)
    {worker : Call Proof} {generation : Nat} (begun : worker.generation = some generation)
    (old : generation ≤ session.envelope.toContents.generation)
    (change transaction : RandomId) (saves : Saves) : ∃ error,
      final.perform installation.inner change transaction saves worker =
        (.error error, final) := by
  have holds := installation.sound earlier
  obtain ⟨_, free, candidate, operated, outcome⟩ := Session.perform_ok holds.settled performed
  have counted := (operate_shifted operated).turned turns
  have initial : turned.Holds fun e => Sound installation e ∧ generation < e.generation := by
    rcases outcome with ⟨rfl, same⟩ | ⟨contents, finished, rfl⟩
    · rw [same] at counted
      omega
    · refine .opened ⟨holds.memory.called operated finished, ?_⟩
      rw [completed_rest finished]
      show generation < candidate.generation
      omega
  have after : final.Holds fun e => Sound installation e ∧ generation < e.generation := by
    refine Installation.holds later initial ?_ ?_
    · intro state _ _ _ _ candidate final holds _ _ operated finished
      refine ⟨holds.memory.1.called operated finished, ?_⟩
      have passed := holds.memory.2
      rw [completed_rest finished]
      show generation < candidate.generation
      rcases (operate_shifted operated).generation with same | next
      · rwa [same]
      · omega
    · intro before after holds launched
      refine ⟨holds.1.launched launched, ?_⟩
      obtain ⟨rfl, _⟩ := holds.1.launch launched
      exact Nat.lt_succ_of_lt holds.2
  refine perform_unable after.settled (fun later operated => ?_) transaction saves
  have current := (operate_current begun operated).2
  have passed := after.memory.2
  omega

/-- A pairing is committed only while somebody is enrolled. -/
def Populated (session : Session Proof) : SessionEvent Proof → Prop
  | .call _ _ _ call => call.pairs → Enrolling session.envelope.toContents
  | .reopen _ => True

/-- The group key stays as long as every pairing finds somebody enrolled, whatever key it brings,
and a restart finds the same one. -/
theorem Installation.groupKey_kept (installation : Installation Proof)
    {session final : Session Proof}
    (earlier : Transition.Reaches installation.step (fun _ _ => True)
      (.opened installation.first) session)
    (certain : session.storageUncertain = false)
    (later : Transition.Reaches installation.step Populated session final) :
    final.envelope.groupKey = session.envelope.groupKey ∧
      final.durable.groupKey = session.envelope.groupKey := by
  have holds := installation.sound earlier
  have kept : installation.Kept Populated (Sound installation)
      fun before after => after.groupKey = before.groupKey := {
    refl := fun _ => rfl
    trans := fun first second => second.trans first
    called := fun state change transaction saves call candidate final holds populated _ operated
        finished => by
      refine ⟨holds.memory.called operated finished, ?_⟩
      rw [completed_rest finished]
      rcases (operate_shifted operated).groupKey with same | ⟨pairs, alone⟩
      · exact same
      · exact absurd (populated pairs) alone
    launched := fun before after holds launched => by
      refine ⟨holds.launched launched, ?_⟩
      obtain ⟨rfl, _⟩ := holds.launch launched
      rfl }
  obtain ⟨_, memory, durable⟩ := kept.advances later holds (by rw [holds.settled.durable certain])
  exact ⟨memory, durable.trans memory⟩

end Runs

def restartedDesk : Session SymbolicProof :=
  (pausedDesk.perform desk.inner sampleId sampleId {} .start).2

theorem workers_fenced_paused : ∃ error,
    restartedDesk.perform desk.inner sampleId sampleId {} (receivePhone 1) =
      (.error error, restartedDesk) := by
  have restarted : desk.step pausedDesk (sampleCall .start) = some restartedDesk := rfl
  have turns : (.pause "phone" : Call SymbolicProof).turns deskWithPhone.envelope.toContents :=
    trivial
  have begun : (receivePhone 1).generation = some 2 := rfl
  refine desk.workers_fenced deskWithPhone_reached turns pausedDesk_ok
    (.next .start trivial restarted) begun ?_ sampleId sampleId {}
  decide +kernel

def pairAgain : SessionEvent SymbolicProof :=
  sampleCall (.commit sampleHandler { phone with invitationId := "second" } desk.groupKey secondId
    fun _ => secondId)

def repairedDesk : Session SymbolicProof :=
  (desk.step deskWithPhone pairAgain).getD deskWithPhone

theorem groupKey_kept_paired : repairedDesk.envelope.groupKey = deskWithPhone.envelope.groupKey ∧
    repairedDesk.durable.groupKey = deskWithPhone.envelope.groupKey := by
  have paired : desk.step deskWithPhone pairAgain = some repairedDesk := rfl
  refine desk.groupKey_kept deskWithPhone_reached (by decide +kernel) (.next .start (fun _ => ?_) paired)
  have found : (deskWithPhone.envelope.peers["phone"]?).isSome = true := by
    decide +kernel
  obtain ⟨peer, present⟩ := Option.isSome_iff_exists.mp found
  refine ⟨"phone", peer, present, ?_⟩
  have unrevoked : (deskWithPhone.envelope.peers["phone"]?).map Peer.revoked = some false := by
    decide +kernel
  rw [present] at unrevoked
  exact Option.some.inj unrevoked

end LibreSync.Managed
