import LibreSync.Lib.Transition
import LibreSync.Managed.Open

/-!
One session under everything that can reach it: its application, messages from any peer, its
own workers, pairings, failing saves and restarts.
-/

namespace LibreSync.Managed

inductive Call (Proof : Type) where
  | write (adapter id : String) (value : Bytes) (deleted : Bool)
  | importRecords (records : List ManagedRecord)
  | prune (retain : Nat)
  | acknowledgeApplied (peer : String) (receipt : ManagedReceipt Proof)
  | acknowledgeInbox (inbox : ApplicationInbox Proof)
  | hello (generation : Nat) (message : Hello Proof) (fingerprint : String)
  | exportTo (generation : Nat) (peer : Peer Proof) (cursor : ManagedReceipt Proof)
  | transmit (generation : Nat) (peer : Peer Proof) (batch : ExportBatch Proof)
  | acknowledge (generation : Nat) (peer : Peer Proof) (batch : ExportBatch Proof)
      (receipt : ManagedReceipt Proof) (disposition : AckDisposition)
  | receive (generation : Nat) (token : RandomId) (peer : Peer Proof) (batch : ExportBatch Proof)
  | resolve (preview : BootstrapPreview Proof) (merge : Bool)
  | start
  | stop (phase : SessionPhase)
  | remove (peer : String) (incarnation : RandomId)
  | pause (peer : String)
  | resume (peer : String)
  | scheduleFailed (peer : String) (error : Error)
  | discovered (identity : Identity) (addresses : List String)
  | prepare (handler : Handler) (outcome : SecurePairingOutcome)
  | commit (handler : Handler) (outcome : SecurePairingOutcome) (key : AppKey)
      (incarnation : RandomId) (rekeyed : String → RandomId)
  | settle (handler : Handler) (peer : String) (addresses : List String)

section Step

variable {Proof : Type} [DecidableEq Proof] [ReceiptMac Proof] (inner : Inner Proof)

def admitImport (records : List ManagedRecord) : Except Error Unit :=
  match records.forM fun record => checkAdapter inner record.adapter with
  | .error error => .error error
  | .ok () => Limits.batch inner.sizes { checkpoint := default, records, full := false }

/-- What a call checks before it locks the envelope. -/
def admitCall : Call Proof → Except Error Unit
  | .write adapter id value _ => admitWrite inner adapter id value
  | .importRecords records => admitImport inner records
  | .hello _ message _ => admitHello inner message
  | .receive _ _ _ batch => Limits.batch inner.sizes batch
  | _ => .ok ()

/-- What a call passes to `mutate`, without the result it hands back. -/
def operate (change : String) (call : Call Proof) (e : Contents Proof) :
    Except Error (Contents Proof) :=
  match call with
  | .write adapter id value deleted =>
      (write inner change adapter id value deleted e).map Prod.snd
  | .importRecords records => (importRecords inner change records e).map Prod.snd
  | .prune retain => (pruneRecoverySnapshots retain e).map Prod.snd
  | .acknowledgeApplied peer receipt => (acknowledgeApplied peer receipt e).map Prod.snd
  | .acknowledgeInbox inbox => (acknowledgeInbox inbox e).map Prod.snd
  | .hello generation message fingerprint =>
      (authenticate inner generation message fingerprint e).map Prod.snd
  | .exportTo generation peer cursor =>
      (exportBatch inner generation peer cursor e).map Prod.snd
  | .transmit generation peer batch => (transmit generation peer batch e).map Prod.snd
  | .acknowledge generation peer batch receipt disposition =>
      (acknowledge inner generation peer batch receipt disposition e).map Prod.snd
  | .receive generation token peer batch =>
      (receiveBatch inner generation token.text change peer batch e).map Prod.snd
  | .resolve preview merge => (resolveBootstrap inner change preview merge e).map Prod.snd
  | .start => (start e).map Prod.snd
  | .stop phase => (stop phase e).map Prod.snd
  | .remove peer incarnation => (removePeer peer incarnation.text e).map Prod.snd
  | .pause peer => (pausePeer peer e).map Prod.snd
  | .resume peer => (resumePeer peer e).map Prod.snd
  | .scheduleFailed peer error => (scheduleFailed peer error e).map Prod.snd
  | .discovered identity addresses => (discovered identity addresses e).map Prod.snd
  | .prepare handler outcome => (prepareSecurePairing inner handler outcome e).map Prod.snd
  | .commit handler outcome key incarnation rekeyed =>
      (commitSecurePairing inner handler outcome key
        { enrolled := incarnation.text, rekeyed := fun id => (rekeyed id).text } e).map Prod.snd
  | .settle handler peer addresses => (settleAddresses handler peer addresses e).map Prod.snd

/-- One event of a session's life, with the ids it draws and how its saves end. -/
inductive SessionEvent (Proof : Type) where
  | call (change transaction : RandomId) (saves : Saves) (call : Call Proof)
  | reopen (outcome : SaveOutcome)

def Session.perform (session : Session Proof) (change transaction : RandomId) (saves : Saves)
    (call : Call Proof) : Except Error Unit × Session Proof :=
  match admitCall inner call with
  | .error error => (.error error, session)
  | .ok () => session.mutate inner transaction.text saves fun e =>
      (operate inner change.text call e).map fun after => ((), after)

/-- A session that does not open again stays as its file is. -/
def Installation.step (installation : Installation Proof) (session : Session Proof) :
    SessionEvent Proof → Option (Session Proof)
  | .call change transaction saves call =>
      some (session.perform installation.inner change transaction saves call).2
  | .reopen outcome =>
      match installation.reopen outcome session.file with
      | (.ok session, _) => some session
      | (.error _, file) => some { session with file, storageUncertain := true }

end Step

section Runs

variable {Proof : Type} {installation : Installation Proof}

def Installation.first (installation : Installation Proof) : Contents Proof :=
  { installation.created with generation := 1 }

theorem SessionConfig.validate_metadata {config : SessionConfig}
    (valid : config.validate = .ok ()) : config.metadata.validate = .ok () := by
  simp only [validate] at valid
  split at valid
  · simp at valid
  · assumption

theorem Installation.launch_created (installation : Installation Proof) :
    installation.launch installation.created = .ok installation.first := by
  have named : (if installation.automaticName then installation.created
      else installation.created.named installation.inner.config.metadata.displayName) =
        installation.created := by
    split <;> rfl
  have bounds : Limits.state installation.inner.sizes installation.created = .ok () := by
    have empty : BTreeMap.valueList installation.created.records = [] := by
      simp [BTreeMap.valueList, Installation.created]
    have sized := installation.epoch.sized
    have fits := installation.fits
    simp only [Limits.state, empty]
    simp only [Installation.created, installation.epoch.ne_empty, sized, List.length_nil,
      List.all_nil, List.map_nil, List.sum_nil]
    rw [if_neg (by simp), if_neg (by omega), if_neg (by simp), if_neg (by decide),
      if_neg (not_lt.mpr fits)]
  simp only [launch, named]
  rw [show installation.created.metadata.validate = .ok () from
    SessionConfig.validate_metadata installation.valid]
  simp only [bounds]
  rfl

/-- A property of the envelope in memory and of the one that would be recovered. -/
structure Session.Holds (motive : Contents Proof → Prop) (session : Session Proof) : Prop where
  settled : session.Settled
  memory : motive session.envelope.toContents
  durable : motive session.durable

theorem Session.Holds.opened {motive : Contents Proof → Prop} {contents : Contents Proof}
    (holds : motive contents) : Session.Holds motive (.opened contents) where
  settled := Session.opened_settled contents
  memory := holds
  durable := holds

variable [DecidableEq Proof] [ReceiptMac Proof]

theorem Session.perform_cases (inner : Inner Proof) {session : Session Proof}
    (settled : session.Settled) (change transaction : RandomId) (saves : Saves)
    (call : Call Proof) :
    (session.perform inner change transaction saves call).2 = session ∨
      admitCall inner call = .ok () ∧ Mutated inner transaction.text session
        (fun e => (operate inner change.text call e).map fun after => ((), after))
        (session.perform inner change transaction saves call) := by
  simp only [perform]
  split
  · exact Or.inl rfl
  · rename_i admitted
    exact Or.inr ⟨admitted, mutate_cases inner settled _ _ _⟩

theorem Session.perform_saved {inner : Inner Proof} {e candidate final : Contents Proof}
    {change transaction : RandomId} {call : Call Proof} (admitted : admitCall inner call = .ok ())
    (operated : operate inner change.text call e = .ok candidate)
    (finished : completed inner transaction.text e candidate = .ok final) :
    (Session.opened e).perform inner change transaction {} call = (.ok (), .opened final) := by
  have free : (Session.opened e).storageUncertain = false := rfl
  have recovered : (Session.opened e).recoverPrepared inner .saved = (.ok (), .opened e) :=
    (Session.opened_settled e).recoverPrepared free .saved
  simp only [perform, admitted, mutate, free, Bool.false_eq_true, if_false, recovered,
    opened_contents, operated, Except.map, finished]
  split
  · rename_i same
    subst same
    simp only [completed, if_true, Except.ok.injEq] at finished
    rw [finished]
  · by_cases unchanged : final.records = e.records
    · simp only [journal, opened_contents, unchanged, if_true, install_saved free]
    · simp only [journal, opened_contents, unchanged, if_false, install, save]
      rfl

inductive Stepped (installation : Installation Proof) (session : Session Proof) :
    SessionEvent Proof → Session Proof → Prop where
  | idle (event : SessionEvent Proof) : Stepped installation session event session
  | committed {change transaction : RandomId} {saves : Saves} {call : Call Proof}
      {candidate final : Contents Proof} (free : session.storageUncertain = false)
      (admitted : admitCall installation.inner call = .ok ())
      (operated : operate installation.inner change.text call session.envelope.toContents =
        .ok candidate)
      (finished : completed installation.inner transaction.text session.envelope.toContents
        candidate = .ok final) :
      Stepped installation session (.call change transaction saves call) (.opened final)
  | interrupted {change transaction : RandomId} {saves : Saves} {call : Call Proof}
      {candidate final : Contents Proof} {after : Session Proof}
      (free : session.storageUncertain = false)
      (admitted : admitCall installation.inner call = .ok ())
      (operated : operate installation.inner change.text call session.envelope.toContents =
        .ok candidate)
      (finished : completed installation.inner transaction.text session.envelope.toContents
        candidate = .ok final)
      (fenced : after.storageUncertain = true)
      (memory : after.envelope.toContents = session.envelope.toContents)
      (disk : after.durable = session.envelope.toContents ∨ after.durable = final)
      (written : Written installation.inner transaction.text session final after.file) :
      Stepped installation session (.call change transaction saves call) after
  | reopened {outcome : SaveOutcome} {contents : Contents Proof}
      (launched : installation.launch session.durable = .ok contents) :
      Stepped installation session (.reopen outcome) (.opened contents)
  | unopened {outcome : SaveOutcome} {after : Session Proof}
      (fenced : after.storageUncertain = true)
      (memory : after.envelope.toContents = session.envelope.toContents)
      (disk : after.durable = session.durable ∨
        installation.launch session.durable = .ok after.durable)
      (file : after.file = session.file ∨ after.file = after.durable.committed) :
      Stepped installation session (.reopen outcome) after

omit [DecidableEq Proof] [ReceiptMac Proof] in
theorem Installation.load_ok {installation : Installation Proof} {session : Session Proof}
    {contents : Contents Proof} (loaded : installation.load session.file = .ok contents) :
    installation.launch session.durable = .ok contents := by
  simp only [load] at loaded
  split at loaded
  · simp [fail] at loaded
  · split at loaded
    · simp [fail] at loaded
    · split at loaded
      · simp at loaded
      · rename_i found
        simp only [Managed.recovered] at found
        split at found
        · rename_i unprepared
          obtain rfl := Except.ok.inj found
          simp only [Session.durable, unprepared]
          exact loaded
        · rename_i prepared journaled
          cases accepted : recoverTransaction installation.inner session.file.toContents
              prepared with
          | error error => simp [accepted, Except.map] at found
          | ok _ =>
              simp only [accepted, Except.map, Except.ok.injEq] at found
              subst found
              simp only [Session.durable, journaled]
              exact loaded

theorem Installation.stepped {installation : Installation Proof} {session after : Session Proof}
    {event : SessionEvent Proof} (settled : session.Settled)
    (moved : installation.step session event = some after) :
    Stepped installation session event after := by
  cases event with
  | call change transaction saves call =>
      obtain rfl := Option.some.inj moved
      have operates : ∀ {candidate : Contents Proof},
          ((operate installation.inner change.text call session.envelope.toContents).map
            fun after => ((), after)) = .ok ((), candidate) →
          operate installation.inner change.text call session.envelope.toContents =
            .ok candidate := by
        intro candidate ran
        cases operated : operate installation.inner change.text call
            session.envelope.toContents with
        | error error => simp [operated, Except.map] at ran
        | ok contents =>
            simp only [operated, Except.map, Except.ok.injEq, Prod.mk.injEq, true_and] at ran
            rw [ran]
      rcases Session.perform_cases installation.inner settled change transaction saves call with
        same | ⟨admitted, mutated⟩
      · rw [same]
        exact .idle _
      · generalize session.perform installation.inner change transaction saves call = outcome
          at mutated
        cases mutated with
        | refused => exact .idle _
        | idle => exact .idle _
        | committed free ran finished => exact .committed free admitted (operates ran) finished
        | interrupted _ free ran finished fenced memory disk written =>
            exact .interrupted free admitted (operates ran) finished fenced memory disk written
  | reopen outcome =>
      simp only [step, reopen] at moved
      cases opening : installation.load session.file with
      | error error =>
          simp only [opening, Option.some.injEq] at moved
          subst moved
          exact .unopened rfl rfl (Or.inl rfl) (Or.inl rfl)
      | ok contents =>
          have launched := load_ok opening
          simp only [opening] at moved
          cases outcome with
          | saved =>
              obtain rfl := Option.some.inj moved
              exact .reopened launched
          | failed renamed error =>
              obtain rfl := Option.some.inj moved
              cases renamed with
              | true => exact .unopened rfl rfl (Or.inr launched) (Or.inr rfl)
              | false => exact .unopened rfl rfl (Or.inl rfl) (Or.inl rfl)

theorem Stepped.settled {installation : Installation Proof} {session after : Session Proof}
    {event : SessionEvent Proof} (stepped : Stepped installation session event after)
    (settled : session.Settled) : after.Settled := by
  cases stepped with
  | idle => exact settled
  | committed => exact Session.opened_settled _
  | reopened => exact Session.opened_settled _
  | interrupted _ _ _ _ fenced => exact fun free => absurd free (by simp [fenced])
  | unopened fenced => exact fun free => absurd free (by simp [fenced])

inductive Advanced (installation : Installation Proof) (e : Contents Proof) :
    SessionEvent Proof → Contents Proof → Prop where
  | kept (event : SessionEvent Proof) : Advanced installation e event e
  | called {change transaction : RandomId} {saves : Saves} {call : Call Proof}
      {candidate final : Contents Proof} (admitted : admitCall installation.inner call = .ok ())
      (operated : operate installation.inner change.text call e = .ok candidate)
      (finished : completed installation.inner transaction.text e candidate = .ok final) :
      Advanced installation e (.call change transaction saves call) final
  | launched {outcome : SaveOutcome} {contents : Contents Proof}
      (launched : installation.launch e = .ok contents) :
      Advanced installation e (.reopen outcome) contents

theorem Stepped.advanced {installation : Installation Proof} {session after : Session Proof}
    {event : SessionEvent Proof} (stepped : Stepped installation session event after)
    (settled : session.Settled) : Advanced installation session.durable event after.durable := by
  cases stepped with
  | idle => exact .kept _
  | committed free admitted operated finished =>
      rw [settled.durable free]
      exact .called admitted operated finished
  | interrupted free admitted operated finished _ _ disk =>
      rw [settled.durable free]
      rcases disk with disk | disk
      · exact disk ▸ .kept _
      · exact disk ▸ .called admitted operated finished
  | reopened launched => exact .launched launched
  | unopened _ _ disk =>
      rcases disk with disk | launched
      · exact disk ▸ .kept _
      · exact .launched launched

theorem Stepped.fenced {installation : Installation Proof} {session after : Session Proof}
    {event : SessionEvent Proof} (stepped : Stepped installation session event after)
    (fenced : session.storageUncertain = true) (calls : ∀ outcome, event ≠ .reopen outcome) :
    after = session := by
  cases stepped with
  | idle => rfl
  | committed free => exact absurd (fenced.symm.trans free) (by simp)
  | interrupted free => exact absurd (fenced.symm.trans free) (by simp)
  | reopened => exact absurd rfl (calls _)
  | unopened => exact absurd rfl (calls _)

/-- Until the next open a fenced session stays as it is. -/
theorem Installation.fenced_stays {installation : Installation Proof} {session running : Session Proof}
    (fenced : session.storageUncertain = true)
    (calls : Transition.Reaches installation.step (fun _ event => ∀ outcome, event ≠ .reopen outcome)
      session running) : running = session := by
  induction calls with
  | start => rfl
  | next _ permitted moved ih =>
      subst ih
      have settled : Session.Settled _ := fun free => absurd (fenced.symm.trans free) (by simp)
      exact (Installation.stepped settled moved).fenced fenced permitted

theorem Stepped.memory {installation : Installation Proof} {session after : Session Proof}
    {event : SessionEvent Proof} (stepped : Stepped installation session event after) :
    after.envelope.toContents = after.durable ∨
      after.envelope.toContents = session.envelope.toContents := by
  cases stepped with
  | idle => exact Or.inr rfl
  | committed => exact Or.inl rfl
  | interrupted _ _ _ _ _ memory => exact Or.inr memory
  | reopened => exact Or.inl rfl
  | unopened _ memory => exact Or.inr memory

structure Installation.Kept (installation : Installation Proof)
    (allowed : Session Proof → SessionEvent Proof → Prop) (motive : Contents Proof → Prop)
    (related : Contents Proof → Contents Proof → Prop) : Prop where
  refl : ∀ contents, related contents contents
  trans : ∀ {first second third : Contents Proof}, related first second →
    related second third → related first third
  called : ∀ (state : Session Proof) (change transaction : RandomId) (saves : Saves)
    (call : Call Proof) (candidate final : Contents Proof), state.Holds motive →
      allowed state (.call change transaction saves call) →
      admitCall installation.inner call = .ok () →
      operate installation.inner change.text call state.envelope.toContents = .ok candidate →
      completed installation.inner transaction.text state.envelope.toContents candidate =
        .ok final → motive final ∧ related state.envelope.toContents final
  launched : ∀ before after : Contents Proof, motive before →
    installation.launch before = .ok after → motive after ∧ related before after

theorem Installation.Kept.advances {allowed : Session Proof → SessionEvent Proof → Prop}
    {motive : Contents Proof → Prop} {related : Contents Proof → Contents Proof → Prop}
    {start session : Session Proof} (kept : installation.Kept allowed motive related)
    (reached : Transition.Reaches installation.step allowed start session)
    (initial : start.Holds motive)
    (pending : related start.envelope.toContents start.durable) :
    session.Holds motive ∧ related start.envelope.toContents session.envelope.toContents ∧
      related session.envelope.toContents session.durable := by
  refine reached.invariant (motive := fun session => session.Holds motive ∧
      related start.envelope.toContents session.envelope.toContents ∧
      related session.envelope.toContents session.durable)
    ⟨initial, kept.refl _, pending⟩ fun state event after invariant permitted moved => ?_
  obtain ⟨holds, since, pending⟩ := invariant
  have stepped := Installation.stepped holds.settled moved
  have settled := stepped.settled holds.settled
  cases stepped with
  | idle => exact ⟨holds, since, pending⟩
  | committed _ admitted operated finished =>
      obtain ⟨good, moved⟩ := kept.called state _ _ _ _ _ _ holds permitted admitted operated
        finished
      exact ⟨.opened good, kept.trans since moved, kept.refl _⟩
  | interrupted _ admitted operated finished _ memory disk =>
      obtain ⟨good, moved⟩ := kept.called state _ _ _ _ _ _ holds permitted admitted operated
        finished
      rw [memory]
      refine ⟨⟨settled, memory ▸ holds.memory, ?_⟩, since, ?_⟩
      · rcases disk with disk | disk
        · exact disk ▸ holds.memory
        · exact disk ▸ good
      · rcases disk with disk | disk
        · exact disk ▸ kept.refl _
        · exact disk ▸ moved
  | reopened launched =>
      obtain ⟨good, moved⟩ := kept.launched _ _ holds.durable launched
      exact ⟨.opened good, kept.trans since (kept.trans pending moved), kept.refl _⟩
  | unopened _ memory disk =>
      rw [memory]
      rcases disk with disk | launched
      · rw [disk]
        exact ⟨⟨settled, memory ▸ holds.memory, disk ▸ holds.durable⟩, since, pending⟩
      · obtain ⟨good, moved⟩ := kept.launched _ _ holds.durable launched
        exact ⟨⟨settled, memory ▸ holds.memory, good⟩, since, kept.trans pending moved⟩

theorem Installation.holds {allowed : Session Proof → SessionEvent Proof → Prop}
    {motive : Contents Proof → Prop} {start session : Session Proof}
    (reached : Transition.Reaches installation.step allowed start session)
    (initial : start.Holds motive)
    (called : ∀ (state : Session Proof) (change transaction : RandomId) (saves : Saves)
      (call : Call Proof) (candidate final : Contents Proof), state.Holds motive →
        allowed state (.call change transaction saves call) →
        admitCall installation.inner call = .ok () →
        operate installation.inner change.text call state.envelope.toContents = .ok candidate →
        completed installation.inner transaction.text state.envelope.toContents candidate =
          .ok final → motive final)
    (launched : ∀ before after : Contents Proof, motive before →
      installation.launch before = .ok after → motive after) : session.Holds motive := by
  have kept : installation.Kept allowed motive fun _ _ => True := {
    refl := fun _ => trivial
    trans := fun _ _ => trivial
    called := fun state change transaction saves call candidate final holds permitted admitted
      operated finished => ⟨called state change transaction saves call candidate final holds
        permitted admitted operated finished, trivial⟩
    launched := fun before after holds opened => ⟨launched before after holds opened, trivial⟩ }
  exact (kept.advances reached initial trivial).1

end Runs

end LibreSync.Managed
