import LibreSync.Managed.RecoveryCopy

/-!
What a user consents to: a batch of an enrolment that is not bootstrapped waits for a review,
and only the reviewed batch is merged, into the records it was reviewed against.
-/

namespace LibreSync.Managed

section Steps

variable {Proof : Type}

def bootstrapPreview (e : Contents Proof) (peer : String) :
    Except Error (Option (BootstrapPreview Proof)) :=
  match e.peers[peer]? with
  | none => .error (.protocol "unknown peer")
  | some p => .ok p.pending

/-- The calls that may change a nonempty record map. -/
def Consented (e : Contents Proof) : Call Proof → Prop
  | .write .. | .importRecords _ => True
  | .receive _ _ peer _ => ∃ current, e.peers[peer.identity.deviceId]? = some current ∧
      current.bootstrapped = true
  | .resolve preview true => Reviewed e preview
  | _ => False

/-- The calls that may bootstrap the enrolment of a device. -/
def Bootstrapping (e : Contents Proof) (id : String) : Call Proof → Prop
  | .receive _ _ peer batch => peer.identity.deviceId = id ∧ batch.full = true ∧
      (e.records.isEmpty = true ∨ batch.records = [])
  | .resolve preview true => preview.peer = id ∧ Reviewed e preview
  | _ => False

variable [DecidableEq Proof] [ReceiptMac Proof] {inner : Inner Proof} {e after : Contents Proof}
  {call : Call Proof} {change : String}

theorem operate_consented (operated : operate inner change call e = .ok after) :
    after.records = e.records ∨ e.records.isEmpty = true ∨ Consented e call := by
  cases call with
  | write => exact Or.inr (Or.inr trivial)
  | importRecords => exact Or.inr (Or.inr trivial)
  | receive generation token peer batch =>
      obtain ⟨reply, ran⟩ := Except.map_snd_ok.mp operated
      obtain ⟨current, live, received⟩ := receiveBatch_ok ran
      cases received with
      | already => exact Or.inl rfl
      | staged => exact Or.inl rfl
      | applied later valid permitted merging =>
          rcases permitted with bootstrapped | ⟨_, empty | nothing⟩
          · exact Or.inr (Or.inr ⟨current, live.enrolled, bootstrapped⟩)
          · exact Or.inr (Or.inl empty)
          · rw [nothing] at merging
            obtain rfl := merging.nil
            exact Or.inl rfl
  | resolve preview merge =>
      obtain ⟨reply, ran⟩ := Except.map_snd_ok.mp operated
      obtain ⟨current, staged, found, _, _, _, pending, token, batch,
        ⟨_, rfl⟩ | ⟨rfl, _⟩⟩ := resolveBootstrap_ok ran
      · exact Or.inl rfl
      · exact Or.inr (Or.inr ⟨current, staged, found, pending, token, batch⟩)
  | _ =>
      cases (operate_data operated).2 with
      | same data => exact Or.inl data.records
      | committed merging data =>
          exact Or.inl (data.records.trans (congrArg Contents.records merging.nil))

theorem operate_bootstrapping (devices : ∀ (id : String) (peer : Peer Proof),
      e.peers[id]? = some peer → peer.identity.deviceId = id)
    (operated : operate inner change call e = .ok after) {id : String} {peer : Peer Proof}
    (found : after.peers[id]? = some peer)
    (bootstrapped : peer.bootstrapped = true) :
    (∃ old, e.peers[id]? = some old ∧ old.bootstrapped = true) ∨ Bootstrapping e id call := by
  have step := operate_peers operated id
  rw [found] at step
  generalize before : e.peers[id]? = entry at step
  cases step with
  | enrolled => simp [Peer.enrolled] at bootstrapped
  | kept touched =>
      rename_i old
      cases touched with
      | received live later permitted =>
          rcases permitted with consent | ⟨full, nothing⟩
          · exact Or.inl ⟨old, rfl, consent⟩
          · refine Or.inr ⟨?_, full, nothing⟩
            rw [← live.identity, devices id old before]
      | merged unrevoked pending token same revision named =>
          subst named
          exact Or.inr ⟨rfl, _, _, before, pending, token, same⟩
      | enrolled => simp [Peer.enrolled] at bootstrapped
      | _ => exact Or.inl ⟨_, rfl, bootstrapped⟩

end Steps

section Reviews

variable {Proof : Type}

/-- A session with the review tokens that it has drawn. -/
structure Reviewing (Proof : Type) where
  session : Session Proof
  drawn : List String

def SessionEvent.token : SessionEvent Proof → Option String
  | .call _ _ _ (.receive _ token _ _) => some token.text
  | _ => none

def FreshToken (state : Reviewing Proof) (event : SessionEvent Proof) : Prop :=
  ∀ token, event.token = some token → token ∉ state.drawn

/-- The records of an envelope are those of an earlier one of the same revision. -/
structure Since (before after : Contents Proof) : Prop where
  revision : before.revision ≤ after.revision
  records : after.revision = before.revision → after.records = before.records

theorem Since.refl (e : Contents Proof) : Since e e := ⟨le_rfl, fun _ => rfl⟩

theorem Since.trans {first second third : Contents Proof} (earlier : Since first second)
    (later : Since second third) : Since first third where
  revision := earlier.revision.trans later.revision
  records := by
    intro same
    have middle : second.revision = first.revision :=
      le_antisymm (same ▸ later.revision) earlier.revision
    exact (later.records (same.trans middle.symm)).trans (earlier.records middle)

def Awaits (e : Contents Proof) (id : String) (preview : BootstrapPreview Proof) : Prop :=
  ∃ peer, e.peers[id]? = some peer ∧ peer.pending = some preview

variable [DecidableEq Proof] [ReceiptMac Proof] {installation : Installation Proof}

/-- The event is the arrival of the previewed batch, staged under the preview's token. -/
def StagesPreview (preview : BootstrapPreview Proof) : SessionEvent Proof → Prop
  | .call _ _ _ (.receive _ token source batch) => token.text = preview.token ∧
      source.identity.deviceId = preview.peer ∧ batch = preview.batch
  | _ => False

omit [DecidableEq Proof] [ReceiptMac Proof] in
theorem StagesPreview.token {preview : BootstrapPreview Proof} {event : SessionEvent Proof}
    (stages : StagesPreview preview event) :
    event.token = some preview.token ∧ ∀ outcome, event ≠ .reopen outcome := by
  cases event with
  | reopen => exact absurd stages id
  | call change transaction saves call =>
      cases call with
      | receive => exact ⟨congrArg some stages.1, by simp⟩
      | _ => exact absurd stages id

def Installation.review (installation : Installation Proof) (state : Reviewing Proof)
    (event : SessionEvent Proof) : Option (Reviewing Proof) :=
  (installation.step state.session event).map fun session =>
    { session, drawn := event.token.toList ++ state.drawn }

def Installation.reviewing (installation : Installation Proof) : Reviewing Proof where
  session := .opened installation.first
  drawn := []

theorem review_ok {state after : Reviewing Proof} {event : SessionEvent Proof}
    (moved : installation.review state event = some after) :
    installation.step state.session event = some after.session ∧
      after.drawn = event.token.toList ++ state.drawn := by
  obtain ⟨session, stepped, rfl⟩ := Option.map_eq_some_iff.mp moved
  exact ⟨stepped, rfl⟩

theorem Advanced.since {e after : Contents Proof} {event : SessionEvent Proof}
    (sound : Sound installation e) (advanced : Advanced installation e event after) :
    Since e after := by
  cases advanced with
  | kept => exact .refl e
  | called admitted operated finished =>
      rename_i candidate
      have step : Since e candidate := by
        cases (operate_data operated).2 with
        | same data => exact ⟨data.revision.ge, fun _ => data.records⟩
        | committed merging data =>
            refine ⟨merging.framed.revision.trans data.revision.ge, fun same => ?_⟩
            rw [data.records, merging.framed.still (data.revision.symm.trans same)]
      rw [completed_rest finished]
      exact ⟨step.revision, step.records⟩
  | launched launched =>
      obtain ⟨rfl, _⟩ := sound.launch launched
      exact ⟨le_rfl, fun _ => rfl⟩

theorem Advanced.awaits {e after : Contents Proof} {event : SessionEvent Proof}
    (sound : Sound installation e) (advanced : Advanced installation e event after) {id : String}
    {preview : BootstrapPreview Proof} (awaits : Awaits after id preview) :
    Awaits e id preview ∨ StagesPreview preview event ∧ preview.peer = id ∧
      preview.localRevision = e.revision := by
  obtain ⟨peer, found, pending⟩ := awaits
  cases advanced with
  | kept => exact Or.inl ⟨peer, found, pending⟩
  | launched launched =>
      obtain ⟨rfl, _⟩ := sound.launch launched
      exact Or.inl ⟨peer, found, pending⟩
  | called admitted operated finished =>
      have step := operate_peers operated id
      rw [completed_rest finished] at found
      rw [found] at step
      generalize before : e.peers[id]? = entry at step
      cases step with
      | enrolled => simp [Peer.enrolled] at pending
      | kept touched =>
          cases touched with
          | staged live _ _ _ _ preview =>
              obtain rfl := Option.some.inj pending
              rcases preview with ⟨same, _, _⟩ | rfl
              · exact Or.inl ⟨_, before, same⟩
              · have named := sound.devices id _ before
                rw [live.identity] at named
                exact Or.inr ⟨⟨rfl, named, rfl⟩, rfl, rfl⟩
          | received => simp at pending
          | declined => simp at pending
          | merged => simp at pending
          | removed => simp at pending
          | enrolled => simp [Peer.enrolled] at pending
          | _ => exact Or.inl ⟨_, before, pending⟩

theorem reviewing_reached {start state : Reviewing Proof}
    (reached : Transition.Reaches installation.review FreshToken start state) :
    Transition.Reaches installation.step (fun _ _ => True) start.session state.session :=
  reached.project (fun _ _ _ moved => (review_ok moved).1) fun _ _ _ => trivial

theorem review_run {events : List (SessionEvent Proof)} {start final : Session Proof}
    (drawn : List String) (ran : Transition.run installation.step start events = some final)
    (distinct : (events.filterMap SessionEvent.token).Nodup)
    (unused : ∀ token ∈ events.filterMap SessionEvent.token, token ∉ drawn) :
    ∃ later, Transition.Reaches installation.review FreshToken ⟨start, drawn⟩ ⟨final, later⟩ := by
  induction events generalizing start drawn with
  | nil =>
      simp only [Transition.run, Option.some.injEq] at ran
      exact ⟨drawn, ran ▸ .start⟩
  | cons event rest ih =>
      obtain ⟨middle, stepped, ran⟩ := Transition.run_cons ran
      have moved : installation.review ⟨start, drawn⟩ event =
          some ⟨middle, event.token.toList ++ drawn⟩ := by
        simp only [Installation.review, stepped, Option.map_some]
      have fresh : FreshToken ⟨start, drawn⟩ event := by
        intro token named
        refine unused token ?_
        simp [named]
      have apart : ∀ token ∈ rest.filterMap SessionEvent.token,
          token ∉ event.token.toList ++ drawn := by
        intro token later
        cases named : event.token with
        | none =>
            refine unused token ?_
            simpa [named] using later
        | some first =>
            simp only [List.filterMap_cons, named, List.nodup_cons] at distinct
            simp only [Option.toList_some, List.singleton_append, List.mem_cons, not_or]
            refine ⟨fun same => distinct.1 (same ▸ later), unused token ?_⟩
            simp only [List.filterMap_cons, named]
            exact List.mem_cons_of_mem _ later
      have distinct : (rest.filterMap SessionEvent.token).Nodup := by
        refine distinct.sublist ?_
        cases named : event.token with
        | none => simp [named]
        | some first =>
            simp only [List.filterMap_cons, named]
            exact List.sublist_cons_self ..
      obtain ⟨later, reached⟩ := ih _ ran distinct apart
      exact ⟨later, .trans (.next .start fresh moved) reached⟩

/-- The step that staged a preview, on the way to a later state. -/
structure Origin (installation : Installation Proof) (preview : BootstrapPreview Proof)
    (staging staged state : Reviewing Proof) (event : SessionEvent Proof) : Prop where
  reached : Transition.Reaches installation.review FreshToken installation.reviewing staging
  fresh : FreshToken staging event
  moved : installation.review staging event = some staged
  stages : StagesPreview preview event
  awaits : Awaits staged.session.durable preview.peer preview
  free : staging.session.storageUncertain = false
  revision : preview.localRevision = staging.session.envelope.revision
  later : Transition.Reaches installation.review FreshToken staged state

theorem Origin.next {preview : BootstrapPreview Proof} {staging staged state after : Reviewing Proof}
    {event query : SessionEvent Proof} (origin : Origin installation preview staging staged state event)
    (permitted : FreshToken state query) (moved : installation.review state query = some after) :
    Origin installation preview staging staged after event :=
  { origin with later := .next origin.later permitted moved }

theorem review_advanced {state after : Reviewing Proof} {event : SessionEvent Proof}
    (reached : Transition.Reaches installation.review FreshToken installation.reviewing state)
    (moved : installation.review state event = some after) :
    Sound installation state.session.durable ∧
      Advanced installation state.session.durable event after.session.durable := by
  have holds := Installation.sound (reviewing_reached reached)
  exact ⟨holds.durable, (Installation.stepped holds.settled (review_ok moved).1).advanced
    holds.settled⟩

theorem Awaits.origin {state : Reviewing Proof} {id : String} {preview : BootstrapPreview Proof}
    (reached : Transition.Reaches installation.review FreshToken installation.reviewing state)
    (awaits : Awaits state.session.durable id preview) :
    preview.peer = id ∧ preview.token ∈ state.drawn ∧
      ∃ staging staged event, Origin installation preview staging staged state event := by
  induction reached with
  | start =>
      obtain ⟨peer, found, _⟩ := awaits
      simp [Installation.reviewing, Installation.first, Installation.created] at found
  | next earlier permitted moved ih =>
      rename_i state after event
      have holds := Installation.sound (reviewing_reached earlier)
      obtain ⟨stepped, drawn⟩ := review_ok moved
      obtain ⟨sound, advanced⟩ := review_advanced earlier moved
      have kept : Awaits state.session.durable id preview → preview.peer = id ∧
          preview.token ∈ after.drawn ∧
          ∃ staging staged event, Origin installation preview staging staged after event := by
        intro before
        obtain ⟨named, known, staging, staged, event, origin⟩ := ih before
        exact ⟨named, drawn ▸ List.mem_append_right _ known, staging, staged, event,
          origin.next permitted moved⟩
      rcases advanced.awaits sound awaits with before | ⟨stages, named, revision⟩
      · exact kept before
      · obtain ⟨token, calls⟩ := stages.token
        cases free : state.session.storageUncertain with
        | true =>
            have same := (Installation.stepped holds.settled stepped).fenced free calls
            exact kept (same ▸ awaits)
        | false =>
            subst named
            refine ⟨rfl, ?_, state, after, event, earlier, permitted, moved, stages, awaits, free,
              ?_, .start⟩
            · rw [drawn, token]
              exact List.mem_append_left _ (by simp)
            · rw [revision, holds.settled.durable free]

theorem Awaits.back {state after : Reviewing Proof} {event : SessionEvent Proof} {id : String}
    {preview : BootstrapPreview Proof}
    (reached : Transition.Reaches installation.review FreshToken installation.reviewing state)
    (permitted : FreshToken state event) (moved : installation.review state event = some after)
    (known : preview.token ∈ state.drawn) (awaits : Awaits after.session.durable id preview) :
    Awaits state.session.durable id preview := by
  obtain ⟨sound, advanced⟩ := review_advanced reached moved
  rcases advanced.awaits sound awaits with before | ⟨stages, _⟩
  · exact before
  · exact absurd known (permitted _ stages.token.1)

theorem drawn_grows {start final : Reviewing Proof}
    (reached : Transition.Reaches installation.review FreshToken start final) {token : String}
    (known : token ∈ start.drawn) : token ∈ final.drawn := by
  refine reached.invariant (motive := fun state => token ∈ state.drawn) known
    fun state event after here _ moved => ?_
  rw [(review_ok moved).2]
  exact List.mem_append_right _ here

theorem Awaits.throughout {middle final : Reviewing Proof} {id : String}
    {preview : BootstrapPreview Proof}
    (earlier : Transition.Reaches installation.review FreshToken installation.reviewing middle)
    (later : Transition.Reaches installation.review FreshToken middle final)
    (known : preview.token ∈ middle.drawn) (awaits : Awaits final.session.durable id preview) :
    Awaits middle.session.durable id preview := by
  induction later with
  | start => exact awaits
  | next reached permitted moved ih =>
      exact ih (awaits.back (earlier.trans reached) permitted moved (drawn_grows reached known))

theorem served_before {state : Reviewing Proof}
    (reached : Transition.Reaches installation.review FreshToken installation.reviewing state) :
    ∃ past, Transition.Reaches installation.review FreshToken installation.reviewing past ∧
      Transition.Reaches installation.review FreshToken past state ∧
      past.session.durable = state.session.envelope.toContents := by
  induction reached with
  | start => exact ⟨_, .start, .start, rfl⟩
  | next earlier permitted moved ih =>
      have holds := Installation.sound (reviewing_reached earlier)
      rcases (Installation.stepped holds.settled (review_ok moved).1).memory with same | same
      · exact ⟨_, .next earlier permitted moved, .start, same.symm⟩
      · obtain ⟨past, before, since, served⟩ := ih
        exact ⟨past, before, .next since permitted moved, served.trans same.symm⟩

theorem Origin.since {preview : BootstrapPreview Proof}
    {staging staged state : Reviewing Proof} {event : SessionEvent Proof}
    (origin : Origin installation preview staging staged state event) :
    Since staging.session.durable state.session.durable := by
  have whole : Transition.Reaches installation.review FreshToken staging state :=
    .trans (.next .start origin.fresh origin.moved) origin.later
  have step : ∀ {middle}, Transition.Reaches installation.review FreshToken staging middle →
      Since staging.session.durable middle.session.durable := by
    intro middle reached
    induction reached with
    | start => exact .refl _
    | next earlier _ moved ih =>
        obtain ⟨sound, advanced⟩ := review_advanced (origin.reached.trans earlier) moved
        exact ih.trans (advanced.since sound)
  exact step whole

omit [DecidableEq Proof] [ReceiptMac Proof] in
theorem bootstrapPreview_ok {e : Contents Proof} {id : String} {preview : BootstrapPreview Proof} :
    bootstrapPreview e id = .ok (some preview) ↔ Awaits e id preview := by
  simp only [bootstrapPreview, Awaits]
  cases e.peers[id]? with
  | none => simp
  | some peer => simp

/-- A merge of a preview that the session returned merges the previewed batch into the records of
the time it was staged, and that preview has been waiting ever since. -/
theorem reviewed_merge {shown merging : Reviewing Proof} {id : String}
    {preview : BootstrapPreview Proof} {change transaction : RandomId} {saves : Saves}
    {final : Session Proof}
    (reached : Transition.Reaches installation.review FreshToken installation.reviewing shown)
    (later : Transition.Reaches installation.review FreshToken shown merging)
    (returned : bootstrapPreview shown.session.envelope.toContents id = .ok (some preview))
    (merged : merging.session.perform installation.inner change transaction saves
      (.resolve preview true) = (.ok (), final)) :
    ∃ staging staged event, Origin installation preview staging staged merging event ∧
      merging.session.envelope.records = staging.session.envelope.records ∧
      (∀ middle, Transition.Reaches installation.review FreshToken staged middle →
        Transition.Reaches installation.review FreshToken middle merging →
        Awaits middle.session.durable preview.peer preview) ∧
      ∃ stored, Merging installation.inner (some preview.peer) preview.batch.records
        merging.session.envelope.toContents stored ∧ final.envelope.records = stored.records := by
  obtain ⟨past, before, since, served⟩ := served_before reached
  have waiting : Awaits past.session.durable id preview := by
    rw [served]
    exact bootstrapPreview_ok.mp returned
  obtain ⟨rfl, known, staging, staged, event, origin⟩ := waiting.origin before
  have here : Origin installation preview staging staged merging event :=
    { origin with later := origin.later.trans (since.trans later) }
  have holds := Installation.sound (reviewing_reached (reached.trans later))
  have staging_holds := Installation.sound (reviewing_reached origin.reached)
  obtain ⟨_, free, candidate, operated, outcome⟩ := Session.perform_ok holds.settled merged
  have durable := holds.settled.durable free
  obtain ⟨reply, ran⟩ := Except.map_snd_ok.mp operated
  obtain ⟨current, pending, found, _, _, revision, waits, token, batch,
    ⟨refused, _⟩ | ⟨_, _, stored, merged, rfl⟩⟩ := resolveBootstrap_ok ran
  · simp at refused
  · have still : Awaits merging.session.durable preview.peer pending := by
      rw [durable]
      exact ⟨current, found, waits⟩
    have same : pending = preview := by
      obtain ⟨peer, present, first⟩ :=
        still.throughout before (since.trans later) (token ▸ known)
      obtain ⟨other, there, second⟩ := waiting
      obtain rfl := Option.some.inj (present.symm.trans there)
      exact Option.some.inj (first.symm.trans second)
    subst same
    refine ⟨staging, staged, event, here, ?_, fun middle earlier rest => ?_, stored, merged, ?_⟩
    · have unchanged := here.since.records
      rw [durable, staging_holds.settled.durable origin.free] at unchanged
      exact unchanged (revision.trans origin.revision)
    · have drawn : pending.token ∈ staged.drawn := by
        rw [(review_ok origin.moved).2, origin.stages.token.1]
        exact List.mem_append_left _ (by simp)
      have from_start := (origin.reached.next origin.fresh origin.moved).trans earlier
      exact still.throughout from_start rest (drawn_grows earlier drawn)
    · rcases outcome with ⟨rfl, same⟩ | ⟨contents, finished, rfl⟩
      · exact (congrArg Contents.records same).symm
      · rw [Session.opened_contents, completed_rest finished]
        rfl

/-- Consent, over every run. No event shows other records than before over a nonempty map, nor a
newly bootstrapped enrolment, but through the calls named by `Consented` and `Bootstrapping`; and
a merge of a returned preview merges the previewed batch into the records that it was staged
against, with no other candidate staged since. -/
theorem Installation.consent (installation : Installation Proof) :
    (∀ (session after : Session Proof) (event : SessionEvent Proof) (view : Contents Proof),
      Transition.Reaches installation.step (fun _ _ => True) (.opened installation.first)
        session →
      installation.step session event = some after → after.Shows view →
      ((∃ old, session.Shows old ∧ view.records = old.records) ∨
        session.envelope.records.isEmpty = true ∨
        ∃ change transaction saves call, event = .call change transaction saves call ∧
          Consented session.envelope.toContents call) ∧
      ∀ (id : String) (peer : Peer Proof), view.peers[id]? = some peer →
        peer.bootstrapped = true →
        (∃ old enrolled, session.Shows old ∧ old.peers[id]? = some enrolled ∧
          enrolled.bootstrapped = true) ∨
        ∃ change transaction saves call, event = .call change transaction saves call ∧
          Bootstrapping session.envelope.toContents id call) ∧
    ∀ (shown merging : Reviewing Proof) (id : String) (preview : BootstrapPreview Proof)
      (change transaction : RandomId) (saves : Saves) (final : Session Proof),
      Transition.Reaches installation.review FreshToken installation.reviewing shown →
      Transition.Reaches installation.review FreshToken shown merging →
      bootstrapPreview shown.session.envelope.toContents id = .ok (some preview) →
      merging.session.perform installation.inner change transaction saves
        (.resolve preview true) = (.ok (), final) →
      ∃ staging staged event, Origin installation preview staging staged merging event ∧
        merging.session.envelope.records = staging.session.envelope.records ∧
        (∀ middle, Transition.Reaches installation.review FreshToken staged middle →
          Transition.Reaches installation.review FreshToken middle merging →
          Awaits middle.session.durable preview.peer preview) ∧
        ∃ stored, Merging installation.inner (some preview.peer) preview.batch.records
          merging.session.envelope.toContents stored ∧
            final.envelope.records = stored.records := by
  refine ⟨fun session after event view reached moved shows => ?_,
    fun shown merging id preview change transaction saves final reached later returned merged =>
      reviewed_merge reached later returned merged⟩
  have holds := Installation.sound reached
  have kin : ∀ {old : Contents Proof}, Kin old view → view.records = old.records ∧
      view.peers = old.peers := fun kin => ⟨by rw [kin], by rw [kin]⟩
  rcases Installation.shows holds moved shows with ⟨old, was, same⟩ |
    ⟨change, transaction, saves, call, candidate, rfl, _, _, operated, same, _⟩
  all_goals obtain ⟨records, peers⟩ := kin same
  · exact ⟨Or.inl ⟨old, was, records⟩, fun id peer found bootstrapped =>
      Or.inl ⟨old, peer, was, peers ▸ found, bootstrapped⟩⟩
  · constructor
    · rcases operate_consented operated with same | empty | consented
      · exact Or.inl ⟨_, Or.inl rfl, records.trans same⟩
      · exact Or.inr (Or.inl empty)
      · exact Or.inr (Or.inr ⟨change, transaction, saves, call, rfl, consented⟩)
    · intro id peer found bootstrapped
      rw [peers] at found
      rcases operate_bootstrapping holds.memory.devices operated found bootstrapped with
        ⟨enrolled, present, known⟩ | allowed
      · exact Or.inl ⟨_, enrolled, Or.inl rfl, present, known⟩
      · exact Or.inr ⟨change, transaction, saves, call, rfl, allowed⟩

end Reviews

theorem consent_note : ∃ stored, Merging desk.inner (some "phone") (phoneBatch 1).records
    stagedDesk.envelope.toContents stored ∧ mergedDesk.envelope.records = stored.records := by
  have ran : Transition.run desk.step (.opened desk.first) (enrollPhone ++ stagePhone) =
      some stagedDesk := by
    exact Transition.run_append (Option.some_get enrollPhone_runs).symm
      (Option.some_get stagePhone_runs).symm
  obtain ⟨drawn, reached⟩ := review_run [] ran (by decide) (by decide)
  have returned : bootstrapPreview stagedDesk.envelope.toContents "phone" =
      .ok (some phonePreview) := by
    decide +kernel
  have merged : (stagedDesk.perform desk.inner sampleId sampleId {}
      (.resolve phonePreview true)).1 = .ok () := by decide +kernel
  obtain ⟨_, _, _, _, _, _, stored, merging, same⟩ := desk.consent.2 _ _ "phone" phonePreview sampleId
    sampleId {} mergedDesk reached .start returned (Prod.ext merged rfl)
  exact ⟨stored, merging, same⟩

end LibreSync.Managed
