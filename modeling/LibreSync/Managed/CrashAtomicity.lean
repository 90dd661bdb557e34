import LibreSync.Managed.Consent

/-!
However the saves of a mutation end, the next open finds the envelope from before or the
committed candidate, and nothing in between.
-/

namespace LibreSync.Managed

section Files

variable {Proof : Type}

/-- The hooks reproduce what was staged, as the default `recover` does. -/
def SessionConfig.Recovers (config : SessionConfig) : Prop :=
  ∀ (name : String) (adapter : ManagedAdapter), config.adapters[name]? = some adapter →
    ∀ change : PreparedChange, change.adapter = name → adapter.recover change = .ok change.staged

theorem SessionConfig.Uniform.recovers {config : SessionConfig} (uniform : config.Uniform) :
    config.Recovers := by
  intro name adapter found change named
  obtain ⟨descriptor, same, rfl⟩ := uniform name adapter found
  simp [recordsAdapter, named, same]

/-- The files that a session writes: an envelope, or one with a journal to a candidate. -/
inductive Filed (installation : Installation Proof) : Envelope Proof → Prop where
  | whole {e : Contents Proof} (sound : Sound installation e) : Filed installation e.committed
  | journaled {id : String} {current target : Contents Proof} (named : id ≠ "")
      (before : Sound installation current) (after : Sound installation target) :
      Filed installation { current.committed with
        prepared := some (transaction installation.inner id current target) }

variable {installation : Installation Proof}

theorem recoverChanges_ok {inner : Inner Proof} {current target : Contents Proof}
    {changes : List PreparedChange}
    (each : ∀ change ∈ changes, recoverChange inner current target change = .ok ()) :
    recoverChanges inner current target changes = .ok () := by
  induction changes with
  | nil => rfl
  | cons change rest ih =>
      simp only [recoverChanges, each change List.mem_cons_self]
      exact ih fun other member => each other (List.mem_cons_of_mem _ member)

theorem recoverTransaction_ok (recovers : installation.inner.config.Recovers) {id : String}
    {current target : Contents Proof} (named : id ≠ "") (before : Sound installation current)
    (after : Sound installation target) :
    recoverTransaction installation.inner current
      (transaction installation.inner id current target) = .ok () := by
  have bounded : Limits.state installation.inner.sizes
      (transaction installation.inner id current target).target.toContents = .ok () :=
    after.bounded
  have identity : target.identity = current.identity := after.identity.trans before.identity.symm
  simp only [recoverTransaction, bounded]
  rw [if_neg (by simp [transaction, Contents.committed, identity, named])]
  refine recoverChanges_ok fun change member => ?_
  simp only [transaction, changesOf, List.mem_filterMap] at member
  obtain ⟨⟨name, adapter⟩, registered, made⟩ := member
  rw [Std.ExtTreeMap.mem_toList_iff_getElem?_eq_some] at registered
  split at made
  · simp at made
  · obtain rfl := Option.some.inj made
    have hook := recovers name adapter registered {
      id
      adapter := name
      expectedRevision := current.revision
      staged := recordsOf target.records name
      recovery := recordsOf current.records name } rfl
    simp [recoverChange, registered, hook, transaction, Contents.committed]

theorem Filed.accepted (recovers : installation.inner.config.Recovers) {file : Envelope Proof}
    (filed : Filed installation file) {prepared : PreparedTransaction (Envelope Proof)}
    (found : file.prepared = some prepared) :
    recoverTransaction installation.inner file.toContents prepared = .ok () := by
  cases filed with
  | whole => simp [Contents.committed] at found
  | journaled named before after =>
      obtain rfl := Option.some.inj found
      exact recoverTransaction_ok recovers named before after

theorem AppManifest.compatibleWith_self (manifest : AppManifest) :
    manifest.compatibleWith manifest = true := by
  simp [AppManifest.compatibleWith]

theorem Sound.opens {e : Contents Proof} (sound : Sound installation e)
    (room : e.generation < u64Max) : installation.launch e =
      .ok { e with phase := .stopped, generation := e.generation + 1 } := by
  have named : (if installation.automaticName then e
      else e.named installation.inner.config.metadata.displayName) = e := by
    split
    · rfl
    · rw [Contents.named, ← sound.metadata]
  have valid : e.metadata.validate = .ok () := by
    rw [sound.metadata]
    exact SessionConfig.validate_metadata installation.valid
  simp only [Installation.launch, named, valid, sound.bounded, checkedNext, checkedSucc, if_pos room]
  rfl

theorem Filed.loads (recovers : installation.inner.config.Recovers) {session : Session Proof}
    (filed : Filed installation session.file) (sound : Sound installation session.durable)
    (room : session.durable.generation < u64Max) :
    installation.load session.file = .ok { session.durable with
      phase := .stopped
      generation := session.durable.generation + 1 } := by
  have opens := sound.opens room
  have header : session.file.version = 1 ∧ session.file.identity = installation.identity ∧
      session.file.metadata = installation.inner.config.metadata := by
    generalize session.file = file at filed
    cases filed with
    | whole sound => exact ⟨sound.version, sound.identity, sound.metadata⟩
    | journaled named before after => exact ⟨before.version, before.identity, before.metadata⟩
  have recovering : recovered installation.inner session.file = .ok session.durable := by
    simp only [recovered, Session.durable]
    cases journal : session.file.prepared with
    | none => rfl
    | some prepared =>
        simp only [filed.accepted recovers journal]
        rfl
  simp only [Installation.load, header, recovering]
  rw [if_neg (by simp), if_neg (by simp [AppManifest.compatibleWith_self])]
  exact opens

end Files

section Runs

variable {Proof : Type} [DecidableEq Proof] [ReceiptMac Proof] {installation : Installation Proof}

omit [DecidableEq Proof] [ReceiptMac Proof] in
theorem Filed.written {session : Session Proof} {transaction : RandomId} {final : Contents Proof}
    {file : Envelope Proof} (filed : Filed installation session.file)
    (before : Sound installation session.envelope.toContents) (after : Sound installation final)
    (written : Written installation.inner transaction.text session final file) :
    Filed installation file := by
  cases written with
  | before => exact filed
  | candidate => exact .whole after
  | journal => exact .journaled transaction.ne_empty before after

theorem Installation.filed {session : Session Proof}
    (reached : Transition.Reaches installation.step (fun _ _ => True) (.opened installation.first)
      session) : Filed installation session.file := by
  induction reached with
  | start => exact .whole (.first _)
  | next earlier _ moved ih =>
      have holds := Installation.sound earlier
      cases Installation.stepped holds.settled moved with
      | idle => exact ih
      | committed _ _ operated finished => exact .whole (holds.memory.called operated finished)
      | reopened launched => exact .whole (holds.durable.launched launched)
      | interrupted _ _ operated finished _ _ _ written =>
          exact ih.written holds.memory (holds.memory.called operated finished) written
      | unopened _ _ disk file =>
          rcases file with same | same
          · exact same ▸ ih
          · rw [same]
            refine .whole ?_
            rcases disk with kept | launched
            · exact kept ▸ holds.durable
            · exact holds.durable.launched launched

/-- The later of two recoverable envelopes comes from the earlier one by whole operations and
opens. -/
def Follows (installation : Installation Proof) : Contents Proof → Contents Proof → Prop :=
  Relation.ReflTransGen fun e after => ∃ event, Advanced installation e event after

theorem follows {session later : Session Proof}
    (reached : Transition.Reaches installation.step (fun _ _ => True) (.opened installation.first)
      session)
    (since : Transition.Reaches installation.step (fun _ _ => True) session later) :
    Follows installation session.durable later.durable := by
  induction since with
  | start => exact .refl
  | next earlier _ moved ih =>
      have settled := (Installation.sound (reached.trans earlier)).settled
      exact ih.tail ⟨_, (Installation.stepped settled moved).advanced settled⟩

/-- What the mutation leaves to the next open: the envelope from before, or the candidate that it
committed. -/
inductive Leaves (installation : Installation Proof) (change transaction : RandomId)
    (call : Call Proof) (e : Contents Proof) : Contents Proof → Prop where
  | before : Leaves installation change transaction call e e
  | candidate {candidate final : Contents Proof}
      (operated : operate installation.inner change.text call e = .ok candidate)
      (finished : completed installation.inner transaction.text e candidate = .ok final) :
      Leaves installation change transaction call e final

omit [DecidableEq Proof] [ReceiptMac Proof] in
theorem completed_self (inner : Inner Proof) (id : String) (e : Contents Proof) :
    completed inner id e e = .ok e := by
  simp [completed]

/-- A mutation of a reachable session, however its saves end. The next open finds what `Leaves`
says, unless the generations are used up; a failed operation shows nothing, and unless it did
nothing at all the session stays as it is until that open; every journal in the file is accepted;
and whatever comes later, no open goes back before it. -/
theorem Installation.crash_atomic (installation : Installation Proof)
    (recovers : installation.inner.config.Recovers) {session after later : Session Proof}
    {change transaction : RandomId} {saves : Saves} {call : Call Proof}
    {result : Except Error Unit}
    (reached : Transition.Reaches installation.step (fun _ _ => True) (.opened installation.first)
      session)
    (performed : session.perform installation.inner change transaction saves call =
      (result, after))
    (since : Transition.Reaches installation.step (fun _ _ => True) after later) :
    Leaves installation change transaction call session.durable after.durable ∧
      (after.durable.generation < u64Max → installation.load after.file = .ok { after.durable with
        phase := .stopped
        generation := after.durable.generation + 1 }) ∧
      (result = .ok () → after.envelope.toContents = after.durable ∧ ∃ candidate,
        operate installation.inner change.text call session.durable = .ok candidate ∧
        completed installation.inner transaction.text session.durable candidate =
          .ok after.durable) ∧
      (∀ error, result = .error error →
        after.envelope.toContents = session.envelope.toContents ∧ (after = session ∨
          ∀ running, Transition.Reaches installation.step
            (fun _ event => ∀ outcome, event ≠ .reopen outcome) after running → running = after)) ∧
      (∀ prepared, after.file.prepared = some prepared →
        recoverTransaction installation.inner after.file.toContents prepared = .ok ()) ∧
      Follows installation after.durable later.durable := by
  have holds := Installation.sound reached
  have moved : installation.step session (.call change transaction saves call) = some after := by
    show some (session.perform installation.inner change transaction saves call).2 = some after
    rw [performed]
  have next : Transition.Reaches installation.step (fun _ _ => True)
      (.opened installation.first) after := .next reached trivial moved
  have filed := Installation.filed next
  refine ⟨?_, filed.loads recovers (Installation.sound next).durable, ?_, ?_,
    fun prepared found => filed.accepted recovers found, follows next since⟩
  · have advanced := (Installation.stepped holds.settled moved).advanced holds.settled
    generalize after.durable = contents at advanced
    cases advanced with
    | kept => exact .before
    | called _ operated finished => exact .candidate operated finished
  · rintro rfl
    obtain ⟨_, free, candidate, operated, outcome⟩ := Session.perform_ok holds.settled performed
    rw [holds.settled.durable free]
    rcases outcome with ⟨rfl, same⟩ | ⟨contents, finished, rfl⟩
    · rw [holds.settled.durable free]
      exact ⟨rfl, candidate, operated, same ▸ completed_self _ _ _⟩
    · exact ⟨rfl, candidate, operated, finished⟩
  · rintro error rfl
    refine ⟨Session.perform_error holds.settled performed, ?_⟩
    rcases Session.perform_failed holds.settled performed with same | ⟨fenced, _⟩
    · exact Or.inl same
    · exact Or.inr fun running calls => Installation.fenced_stays fenced calls

theorem perform_start {inner : Inner Proof} {e : Contents Proof} (room : e.generation < u64Max)
    (change transaction : RandomId) :
    (Session.opened e).perform inner change transaction {} .start =
      (.ok (), .opened { e with generation := e.generation + 1, phase := .running }) := by
  have operated : operate inner change.text .start e =
      .ok { e with generation := e.generation + 1, phase := .running } := by
    simp only [operate, start, nextGeneration, checkedNext, checkedSucc, if_pos room]
    rfl
  refine Session.perform_saved rfl operated ?_
  simp [completed]

end Runs

def interruptedDesk : Except Error Unit × Session SymbolicProof :=
  deskWithPhone.perform desk.inner sampleId sampleId { candidate := .failed true (.io "disk full") }
    (.write "records" "note" [] false)

theorem crash_atomic_write :
    Leaves desk.toInstallation sampleId sampleId (.write "records" "note" [] false)
        deskWithPhone.durable interruptedDesk.2.durable ∧
      desk.load interruptedDesk.2.file = .ok { interruptedDesk.2.durable with
        phase := .stopped
        generation := interruptedDesk.2.durable.generation + 1 } ∧
      interruptedDesk.2.envelope.toContents = deskWithPhone.envelope.toContents ∧
      ∀ running, Transition.Reaches desk.step (fun _ event => ∀ outcome, event ≠ .reopen outcome)
        interruptedDesk.2 running → running = interruptedDesk.2 := by
  have performed : deskWithPhone.perform desk.inner sampleId sampleId
      { candidate := .failed true (.io "disk full") } (.write "records" "note" [] false) =
        (interruptedDesk.1, interruptedDesk.2) := rfl
  have failed : interruptedDesk.1 = .error (.io "disk full") ∧
      interruptedDesk.2.durable.generation < u64Max ∧
      interruptedDesk.2.storageUncertain ≠ deskWithPhone.storageUncertain := by
    decide +kernel
  obtain ⟨reported, room, fenced⟩ := failed
  obtain ⟨leaves, opens, -, shows, -⟩ :=
    desk.crash_atomic desk.uniform.recovers deskWithPhone_reached performed .start
  obtain ⟨same, stays⟩ := shows _ reported
  refine ⟨leaves, opens room, same, stays.resolve_left fun unchanged => ?_⟩
  exact fenced (congrArg Session.storageUncertain unchanged)

def runningDesk (generation : Nat) : Session SymbolicProof :=
  .opened { desk.first with phase := .running, generation }

theorem runningDesk_start {generation : Nat} (room : generation < u64Max) :
    (runningDesk generation).perform desk.inner sampleId sampleId {} .start =
      (.ok (), runningDesk (generation + 1)) :=
  perform_start room sampleId sampleId

theorem runningDesk_reached {generation : Nat} (started : 2 ≤ generation)
    (room : generation ≤ u64Max) : Transition.Reaches desk.step (fun _ _ => True)
      (.opened desk.first) (runningDesk generation) := by
  induction generation, started using Nat.le_induction with
  | base =>
      have first : desk.step (.opened desk.first) (sampleCall .start) = some (runningDesk 2) := by
        show some ((Session.opened desk.first).perform desk.inner sampleId sampleId {} .start).2 = _
        rw [perform_start (by decide)]
        rfl
      exact .next .start trivial first
  | succ generation _ ih =>
      have next : desk.step (runningDesk generation) (sampleCall .start) =
          some (runningDesk (generation + 1)) := by
        show some ((runningDesk generation).perform desk.inner sampleId sampleId {} .start).2 = _
        rw [runningDesk_start (by omega)]
      exact .next (ih (by omega)) trivial next

/-- After the last generation a successful operation leaves a file that does not open. -/
theorem lastGeneration_locks_out : ∃ session final : Session SymbolicProof,
    Transition.Reaches desk.step (fun _ _ => True) (.opened desk.first) session ∧
      session.perform desk.inner sampleId sampleId {} .start = (.ok (), final) ∧
      desk.load final.file = .error (.protocol "generation exhausted") := by
  refine ⟨runningDesk (u64Max - 1), runningDesk u64Max, runningDesk_reached (by decide) (by decide),
    runningDesk_start (by decide), ?_⟩
  decide +kernel

end LibreSync.Managed
