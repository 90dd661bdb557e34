import LibreSync.Managed.Coverage

/-!
Two sessions that complete an exchange hold the same records, and a second exchange changes
nothing.
-/

namespace LibreSync.Managed

section Absorbing

variable {Proof : Type} {inner : Inner Proof} {origin : Option String}
  {incoming : List ManagedRecord} {before middle after offered : Contents Proof}

theorem SameData.trans {first second third : Contents Proof} (earlier : SameData first second)
    (later : SameData second third) : SameData first third where
  revision := later.revision.trans earlier.revision
  records := later.records.trans earlier.records
  sequences := later.sequences.trans earlier.sequences
  origins := later.origins.trans earlier.origins

theorem Merging.marked (merging : Merging inner origin incoming before after) :
    before.revision ≤ after.revision ∧ (after = before ∨ ∃ (key : RecordKey)
      (record : ManagedRecord) (sequence : Nat), after.records[key]? = some record ∧
        after.sequences[key]? = some sequence ∧ before.revision < sequence) := by
  refine merging.keeps (motive := fun e => before.revision ≤ e.revision ∧ (e = before ∨
    ∃ (key : RecordKey) (record : ManagedRecord) (sequence : Nat), e.records[key]? = some record ∧
      e.sequences[key]? = some sequence ∧ before.revision < sequence)) ⟨le_rfl, Or.inl rfl⟩
    fun e next record held stored => ?_
  rcases storeRecord_ok stored with ⟨_, rfl⟩ | ⟨_, framed, _, fresh, _⟩
  · exact held
  · obtain ⟨sequence, written, past, _⟩ := fresh.sequence
    exact ⟨held.1.trans framed.revision, Or.inr ⟨record.key, record, sequence, fresh.record,
      written, held.1.trans_lt past⟩⟩

theorem Merging.unchanged (uniform : inner.config.Uniform)
    (merging : Merging inner origin incoming before after) (keyed : Keyed before.records)
    (sequenced : ∀ (key : RecordKey) (record : ManagedRecord),
      before.records[key]? = some record →
        ∃ sequence, before.sequences[key]? = some sequence ∧ sequence ≤ before.revision)
    (stored : ∀ record ∈ incoming, before.records[record.key]? = some record) :
    after = before := by
  rcases merging.marked.2 with same | ⟨key, record, sequence, found, written, past⟩
  · exact same
  · exfalso
    rcases (merging.committed uniform keyed).entries key with same | ⟨taken, member, rfl, _, newer⟩
    · obtain ⟨held, present, within⟩ := sequenced key record (same.record ▸ found)
      have := Option.some.inj (present.symm.trans (same.sequence ▸ written))
      omega
    · exact lt_irrefl _ (newer taken (stored taken member))

/-- A session takes nothing but what another one offers, and nothing when it has all of that. -/
structure Absorbs (before after offered : Contents Proof) : Prop where
  entries : ∀ key : RecordKey, after.records[key]? = before.records[key]? ∨
    after.records[key]? = offered.records[key]?
  still : (∀ (key : RecordKey) (record : ManagedRecord), offered.records[key]? = some record →
    before.records[key]? = some record) → SameData before after

theorem Absorbs.same (same : SameData before after) (offered : Contents Proof) :
    Absorbs before after offered where
  entries key := Or.inl (by rw [same.records])
  still _ := same

theorem Absorbs.merging (uniform : inner.config.Uniform) (keyed : Keyed before.records)
    (sequenced : ∀ (key : RecordKey) (record : ManagedRecord),
      before.records[key]? = some record →
        ∃ sequence, before.sequences[key]? = some sequence ∧ sequence ≤ before.revision)
    (merging : Merging inner origin incoming before middle) (data : SameData middle after)
    (listed : ∀ record ∈ incoming, offered.records[record.key]? = some record) :
    Absorbs before after offered where
  entries key := by
    rw [data.records]
    rcases (merging.committed uniform keyed).entries key with same | ⟨record, member, rfl, fresh, _⟩
    · exact Or.inl same.record
    · exact Or.inr (fresh.record.trans (listed record member).symm)
  still stored := by
    obtain rfl := merging.unchanged uniform keyed sequenced
      fun record member => stored _ record (listed record member)
    exact data

structure Joined (left right final : BTreeMap RecordKey ManagedRecord) : Prop where
  held : ∀ (key : RecordKey) (record : ManagedRecord), final[key]? = some record →
    left[key]? = some record ∨ right[key]? = some record
  newest : ∀ (key : RecordKey) (record : ManagedRecord),
    left[key]? = some record ∨ right[key]? = some record →
      ∃ latest, final[key]? = some latest ∧ record.clock ≤ latest.clock

theorem Keyed.has (keyed : Keyed before.records) {key : RecordKey} {record : ManagedRecord}
    (found : before.records[key]? = some record) (has : Has after record) :
    ∃ stored, after.records[key]? = some stored ∧
      (stored = record ∨ record.clock < stored.clock) := by
  obtain ⟨stored, present, rank⟩ := has
  exact ⟨stored, keyed key record found ▸ present, rank⟩

variable {left right leftAfter rightAfter : Contents Proof}

theorem Absorbs.equal (keyed : Keyed left.records) (keyedAfter : Keyed rightAfter.records)
    (covers : ∀ (key : RecordKey) (record : ManagedRecord), left.records[key]? = some record →
      Has rightAfter record)
    (absorbs : Absorbs left leftAfter rightAfter)
    (returns : ∀ (key : RecordKey) (record : ManagedRecord),
      rightAfter.records[key]? = some record → Has leftAfter record) :
    leftAfter.records = rightAfter.records := by
  refine Std.ExtTreeMap.ext_getElem? fun key => ?_
  rcases absorbs.entries key with own | taken
  · rw [own]
    cases held : left.records[key]? with
    | none =>
        cases other : rightAfter.records[key]? with
        | none => rfl
        | some record =>
            obtain ⟨stored, present, _⟩ := keyedAfter.has other (returns key record other)
            rw [own, held] at present
            simp at present
    | some record =>
        obtain ⟨stored, present, rank⟩ := keyed.has held (covers key record held)
        obtain ⟨back, found, later⟩ := keyedAfter.has present (returns key stored present)
        obtain rfl : record = back := Option.some.inj (held.symm.trans (own.symm.trans found))
        rcases rank with rfl | older
        · exact present.symm
        · rcases later with rfl | newer
          · exact present.symm
          · exact absurd (older.trans newer) (lt_irrefl _)
  · exact taken

theorem Absorbs.joined (keyedLeft : Keyed left.records) (keyedRight : Keyed right.records)
    (absorbs : Absorbs right rightAfter left)
    (covers : ∀ (key : RecordKey) (record : ManagedRecord), left.records[key]? = some record →
      Has rightAfter record)
    (grows : ∀ record, Has right record → Has rightAfter record) :
    Joined left.records right.records rightAfter.records where
  held key record found := by
    rcases absorbs.entries key with own | taken
    · exact Or.inr (own ▸ found)
    · exact Or.inl (taken ▸ found)
  newest key record present := by
    have has : Has rightAfter record ∧ record.key = key := by
      rcases present with found | found
      · exact ⟨covers key record found, keyedLeft key record found⟩
      · have named := keyedRight key record found
        exact ⟨grows record ⟨record, named ▸ found, Or.inl rfl⟩, named⟩
    obtain ⟨⟨latest, found, rank⟩, rfl⟩ := has
    refine ⟨latest, found, ?_⟩
    rcases rank with rfl | older
    · exact le_rfl
    · exact older.le

end Absorbing

section Attempts

variable {Proof : Type} [DecidableEq Proof] [ReceiptMac Proof] {fleet : Fleet Proof}
  {w after : World Proof} {node sender receiver : String} {attempt : Attempt} {call : Call Proof}
  {change : String}

/-- A call that reported success, on the durable envelopes. -/
structure Attempted (fleet : Fleet Proof) (w : World Proof) (node change : String)
    (call : Call Proof) (after : World Proof) : Prop where
  delivered : w.delivers node call = true
  settled : (w.nodes node).durable = (w.nodes node).envelope.toContents
  settles : (after.nodes node).durable = (after.nodes node).envelope.toContents
  operated : ∃ candidate, operate (fleet.member node).inner change call (w.nodes node).durable =
    .ok candidate ∧ SameData candidate (after.nodes node).durable
  others : ∀ id, id ≠ node → after.nodes id = w.nodes id
  emitted : ∃ middle : World Proof, middle.batches = w.batches ∧
    after = middle.emit node (fleet.member node).inner change (w.nodes node).durable call

theorem World.attempt_attempted (covering : Covering fleet w)
    (ran : w.attempt fleet node attempt call = some after) :
    Attempted fleet w node attempt.change.text call after := by
  obtain ⟨stepped, session, performed⟩ := World.attempt_ok ran
  have settled := (covering.sound node).settled
  obtain ⟨free, same, candidate, operated, kin⟩ := Session.perform_kin settled performed
  have durable := settled.durable free
  have move := World.step_session stepped
  have landed : after.nodes node = session := by
    have step := move.stepped
    simp only [Installation.step, performed, Option.some.injEq] at step
    exact step.symm
  refine ⟨move.delivered, durable, ?_, ⟨candidate, ?_, ?_⟩, fun id => move.others, ?_⟩
  · rw [landed]
    exact same
  · rw [durable]
    exact operated
  · rw [landed, kin]
    exact ⟨rfl, rfl, rfl, rfl⟩
  · simp only [World.step, move.delivered, if_true, performed, Option.some.injEq] at stepped
    rw [durable]
    exact ⟨{ w.setNode node session with
      drawn := call.draws (w.nodes node).envelope.toContents ++ w.drawn }, rfl, stepped.symm⟩

theorem operate_quiet {inner : Inner Proof} {e candidate : Contents Proof}
    (quiet : (call.incoming e).2 = [])
    (operated : operate inner change call e = .ok candidate) : SameData e candidate := by
  cases (operate_data operated).2 with
  | same data => exact data
  | committed merging data =>
      rw [quiet] at merging
      exact merging.nil ▸ data

theorem Attempted.quiet (done : Attempted fleet w node change call after)
    (quiet : (call.incoming (w.nodes node).durable).2 = []) (id : String) :
    SameData (w.nodes id).durable (after.nodes id).durable := by
  by_cases here : id = node
  · subst here
    obtain ⟨candidate, operated, same⟩ := done.operated
    exact (operate_quiet quiet operated).trans same
  · rw [done.others id here]
    exact .refl _

theorem Attempted.exported {generation : Nat} {target : Peer Proof}
    {cursor : ManagedReceipt Proof}
    (done : Attempted fleet w sender change (.exportTo generation target cursor) after)
    (uniform : ∀ id, (fleet.member id).inner.config.Uniform) (covering : Covering fleet w) :
    ∃ batch rest, after.batches =
        { sender, receiver := target.identity.deviceId, message := batch } :: rest ∧
      batch.checkpoint.epoch = (fleet.member sender).epoch.text ∧
      batch.checkpoint.sequence = (w.nodes sender).durable.revision ∧
      ∀ record ∈ batch.records, (w.nodes sender).durable.records[record.key]? = some record := by
  have sound := (covering.sound sender).durable
  obtain ⟨candidate, operated, _⟩ := done.operated
  obtain ⟨batch, ran⟩ := Except.map_snd_ok.mp operated
  obtain ⟨current, _, _, checkpoint, _, exported⟩ := exportBatch_ok ran
  obtain ⟨middle, _, rfl⟩ := done.emitted
  refine ⟨batch, middle.batches, by simp only [World.emit, ran], ?_, ?_, fun record member => ?_⟩
  · rw [checkpoint, ← sound.epoch]
    rfl
  · rw [checkpoint]
    rfl
  · obtain ⟨key, found, _⟩ := mem_selected.mp
      ((exportRecords_ok (uniform sender) exported record).mp member).1
    rw [sound.keyed key record found]
    exact found

theorem Attempted.absorbs {generation : Nat} {token : RandomId} {source : Peer Proof}
    {batch : ExportBatch Proof} {offered : Contents Proof}
    (done : Attempted fleet w receiver change (.receive generation token source batch) after)
    (uniform : ∀ id, (fleet.member id).inner.config.Uniform) (covering : Covering fleet w)
    (listed : ∀ record ∈ batch.records, offered.records[record.key]? = some record) :
    Absorbs (w.nodes receiver).durable (after.nodes receiver).durable offered := by
  have sound := (covering.sound receiver).durable
  obtain ⟨candidate, operated, data⟩ := done.operated
  cases (operate_data operated).2 with
  | same same => exact .same (same.trans data) _
  | committed merging same =>
      exact .merging (uniform receiver) sound.keyed sound.sequenced merging (same.trans data) listed

theorem Runs.covering (uniform : ∀ id, (fleet.member id).inner.config.Uniform)
    (covering : Covering fleet w) (runs : Runs fleet w after) : Covering fleet after :=
  runs.invariant covering fun _ _ _ covering _ moved => covering.step uniform moved

end Attempts

section Pushes

variable {Proof : Type} [DecidableEq Proof] [ReceiptMac Proof] {fleet : Fleet Proof}
  {w after : World Proof} {sender receiver : String}

/-- One direction of an exchange: what the sender holds was stored at the receiver. -/
structure Pushed (w after : World Proof) (sender receiver : String) : Prop where
  sent : SameData (w.nodes sender).durable (after.nodes sender).durable
  absorbs : Absorbs (w.nodes receiver).durable (after.nodes receiver).durable
    (w.nodes sender).durable
  covers : ∀ (key : RecordKey) (record : ManagedRecord),
    (w.nodes sender).durable.records[key]? = some record → Has (after.nodes receiver).durable record
  settles : ∀ id, id = sender ∨ id = receiver →
    (after.nodes id).durable = (after.nodes id).envelope.toContents

theorem World.push_pushed {outgoing incoming : Party} {target source : Peer Proof}
    {cursor : ManagedReceipt Proof} (uniform : ∀ id, (fleet.member id).inner.config.Uniform)
    (covering : Covering fleet w) (apart : sender ≠ receiver)
    (named : target.identity.deviceId = receiver)
    (ran : w.push fleet sender receiver outgoing incoming target source cursor = some after) :
    Pushed w after sender receiver := by
  simp only [World.push, Option.bind_eq_bind, Option.bind_eq_some_iff] at ran
  obtain ⟨first, exports, sent, head, second, transmits, third, receives, ack, _, finishes⟩ := ran
  have exported := World.attempt_attempted covering exports
  have covering₁ := Runs.covering uniform covering (World.attempt_runs exports)
  have transmitted := World.attempt_attempted covering₁ transmits
  have covering₂ := Runs.covering uniform covering₁ (World.attempt_runs transmits)
  have received := World.attempt_attempted covering₂ receives
  have covering₃ := Runs.covering uniform covering₂ (World.attempt_runs receives)
  have finished := World.attempt_attempted covering₃ finishes
  obtain ⟨batch, rest, batches, epoch, sequence, listed⟩ := exported.exported uniform covering
  obtain rfl : sent = { sender, receiver := target.identity.deviceId, message := batch } := by
    rw [batches, List.head?_cons, Option.some.injEq] at head
    exact head.symm
  have early := fun id => (exported.quiet rfl id).trans (transmitted.quiet rfl id)
  have late := finished.quiet rfl
  have same : SameData (w.nodes sender).durable (third.nodes sender).durable := by
    rw [received.others sender apart]
    exact early sender
  have absorbed : Absorbs (second.nodes receiver).durable (third.nodes receiver).durable
      (w.nodes sender).durable := received.absorbs uniform covering₂ listed
  refine ⟨same.trans (late sender), ⟨fun key => ?_, fun stored => ?_⟩, fun key record found => ?_,
    ?_⟩
  · rw [(late receiver).records, ← (early receiver).records]
    exact absorbed.entries key
  · rw [← (early receiver).records] at stored
    exact ((early receiver).trans (absorbed.still stored)).trans (late receiver)
  · -- the acknowledgement is in the pool, so all up to its checkpoint is covered
    have delivered := finished.delivered
    obtain ⟨_, operated, _⟩ := finished.operated
    obtain ⟨_, ran⟩ := Except.map_snd_ok.mp operated
    obtain ⟨_, _, captured, _, _⟩ := acknowledge_ok ran
    simp only [World.delivers, Bool.and_eq_true, decide_eq_true_eq, captured, named] at delivered
    obtain ⟨_, covers⟩ := covering₃.acks _ delivered.2 epoch
    obtain ⟨held, sequenced, within⟩ := (covering.sound sender).durable.sequenced key record found
    have has := (covers _ (Or.inr rfl) key record held (same.records ▸ found)
      (same.sequences ▸ sequenced) (sequence ▸ within)).resolve_left (by simp)
    exact has.data (late receiver)
  · rintro id (rfl | rfl)
    · exact finished.settles
    · rw [finished.others id apart.symm]
      exact received.settles

theorem World.meet_quiet {addresses : List String} {party : Party} {peer : Peer Proof}
    {cursor : ManagedReceipt Proof} (covering : Covering fleet w)
    (uniform : ∀ id, (fleet.member id).inner.config.Uniform)
    (ran : w.meet fleet sender receiver addresses party = some ((peer, cursor), after)) :
    (∀ id, SameData (w.nodes id).durable (after.nodes id).durable) ∧
      (∀ id, id ≠ receiver → after.nodes id = w.nodes id) ∧
      (w.nodes receiver).durable = (w.nodes receiver).envelope.toContents ∧
      peer.identity.deviceId = sender := by
  have covering₂ := Runs.covering uniform covering (World.meet_runs ran)
  simp only [World.meet, Option.bind_eq_bind, Option.bind_eq_some_iff, Option.some.injEq,
    Prod.mk.injEq] at ran
  obtain ⟨greeted, stepped, _, _, met, authenticates, _, found, _, _, ⟨rfl, _⟩, rfl⟩ := ran
  obtain ⟨_, _, rfl⟩ := Option.map_eq_some_iff.mp stepped
  have covering₁ := covering.step uniform stepped
  have authenticated := World.attempt_attempted covering₁ authenticates
  exact ⟨authenticated.quiet rfl, authenticated.others, authenticated.settled,
    (covering₂.sound receiver).memory.devices _ _ found⟩

theorem Runs.has (uniform : ∀ id, (fleet.member id).inner.config.Uniform)
    (covering : Covering fleet w) (runs : Runs fleet w after) (id : String)
    {record : ManagedRecord} (has : Has (w.nodes id).durable record) :
    Has (after.nodes id).durable record := by
  refine (runs.invariant (motive := fun reached => Covering fleet reached ∧
    Has (reached.nodes id).durable record) ⟨covering, has⟩
    fun state event next held _ moved => ⟨held.1.step uniform moved, ?_⟩).2
  obtain ⟨covering, has⟩ := held
  cases event with
  | session node event =>
      exact (covering.grows uniform (World.step_session moved) id).has record has
  | capture =>
      obtain rfl := Option.some.inj moved
      exact has
  | greet =>
      obtain ⟨_, _, rfl⟩ := Option.map_eq_some_iff.mp moved
      exact has

structure Exchanged (w after : World Proof) (caller listener : String) : Prop where
  settled : ∀ id, id = caller ∨ id = listener →
    (w.nodes id).durable = (w.nodes id).envelope.toContents
  settles : ∀ id, id = caller ∨ id = listener →
    (after.nodes id).durable = (after.nodes id).envelope.toContents
  equal : (after.nodes caller).durable.records = (after.nodes listener).durable.records
  joined : Joined (w.nodes caller).durable.records (w.nodes listener).durable.records
    (after.nodes caller).durable.records
  still : (w.nodes caller).durable.records = (w.nodes listener).durable.records →
    ∀ id, id = caller ∨ id = listener → SameData (w.nodes id).durable (after.nodes id).durable

theorem World.exchange_exchanged {caller listener : String} {outbound inbound : Party}
    (covering : Covering fleet w) (uniform : ∀ id, (fleet.member id).inner.config.Uniform)
    (apart : caller ≠ listener)
    (ran : w.exchange fleet caller listener outbound inbound = some after) :
    Exchanged w after caller listener := by
  simp only [World.exchange, Option.bind_eq_bind, Option.bind_eq_some_iff, Prod.exists] at ran
  obtain ⟨_, _, _, calls, _, _, met, answers, middle, pushes, returns⟩ := ran
  have covering₁ := Runs.covering uniform covering (World.meet_runs calls)
  have covering₂ := Runs.covering uniform covering₁ (World.meet_runs answers)
  have covering₃ := Runs.covering uniform covering₂ (World.push_runs pushes)
  obtain ⟨called, untouched, ready, source⟩ := World.meet_quiet covering uniform calls
  obtain ⟨answered, _, set, target⟩ := World.meet_quiet covering₁ uniform answers
  have there := World.push_pushed uniform covering₂ apart target pushes
  have back := World.push_pushed uniform covering₃ apart.symm source returns
  have early := fun id => (called id).trans (answered id)
  have keyed := fun id => (covering₂.sound id).durable.keyed
  have equal : (after.nodes caller).durable.records = (middle.nodes listener).durable.records := by
    refine Absorbs.equal (there.sent.records ▸ keyed caller) (covering₃.sound listener).durable.keyed
      (fun key record found => ?_) back.absorbs back.covers
    exact there.covers key record (there.sent.records ▸ found)
  refine ⟨?_, fun id party => back.settles id party.symm, ?_, ?_, fun same => ?_⟩
  · rintro id (rfl | rfl)
    · rw [untouched id apart] at set
      exact set
    · exact ready
  · rw [equal, back.sent.records]
  · rw [equal, ← (early caller).records, ← (early listener).records]
    exact Absorbs.joined (keyed caller) (keyed listener) there.absorbs there.covers
      fun record => Runs.has uniform covering₂ (World.push_runs pushes) listener
  · have listening := there.absorbs.still fun key record found => by
      rw [(early listener).records, ← same, ← (early caller).records]
      exact found
    have calling := back.absorbs.still fun key record found => by
      rw [there.sent.records, (early caller).records, same, ← (early listener).records,
        ← listening.records]
      exact found
    rintro id (rfl | rfl)
    · exact ((early _).trans there.sent).trans calling
    · exact ((early _).trans listening).trans back.sent

/-- Two sessions of a reachable world that complete an exchange, with no other event between its
first hello and its last acknowledgement: they hold equal record maps, of the newest version of
each record that one of them held. No further exchange of theirs changes their records,
sequences or revisions. -/
theorem Fleet.exchange_converges (fleet : Fleet Proof)
    (uniform : ∀ id, (fleet.member id).inner.config.Uniform)
    (reached : Runs fleet (World.start fleet) w) {caller listener : String}
    (apart : caller ≠ listener) {outbound inbound : Party}
    (ran : w.exchange fleet caller listener outbound inbound = some after) :
    (after.nodes caller).envelope.records = (after.nodes listener).envelope.records ∧
      Joined (w.nodes caller).envelope.records (w.nodes listener).envelope.records
        (after.nodes caller).envelope.records ∧
      ∀ one other : String, one = caller ∧ other = listener ∨ one = listener ∧ other = caller →
        ∀ (parties : Party × Party) (final : World Proof),
          after.exchange fleet one other parties.1 parties.2 = some final →
            SameData (after.nodes one).envelope.toContents (final.nodes one).envelope.toContents ∧
              SameData (after.nodes other).envelope.toContents
                (final.nodes other).envelope.toContents := by
  have covering := Runs.covering uniform (.start fleet) reached
  have covering₁ := Runs.covering uniform covering (World.exchange_runs ran)
  have exchanged := World.exchange_exchanged covering uniform apart ran
  have caller_settled := exchanged.settled caller (Or.inl rfl)
  have listener_settled := exchanged.settled listener (Or.inr rfl)
  have caller_settles := exchanged.settles caller (Or.inl rfl)
  have listener_settles := exchanged.settles listener (Or.inr rfl)
  refine ⟨?_, ?_, fun one other either parties final again => ?_⟩
  · rw [← caller_settles, ← listener_settles]
    exact exchanged.equal
  · rw [← caller_settled, ← listener_settled, ← caller_settles]
    exact exchanged.joined
  · have distinct : one ≠ other := by
      rcases either with ⟨rfl, rfl⟩ | ⟨rfl, rfl⟩
      · exact apart
      · exact apart.symm
    have further := World.exchange_exchanged covering₁ uniform distinct again
    have same : (after.nodes one).durable.records = (after.nodes other).durable.records := by
      rcases either with ⟨rfl, rfl⟩ | ⟨rfl, rfl⟩
      · exact exchanged.equal
      · exact exchanged.equal.symm
    rw [← further.settled one (Or.inl rfl), ← further.settled other (Or.inr rfl),
      ← further.settles one (Or.inl rfl), ← further.settles other (Or.inr rfl)]
    exact ⟨further.still same one (Or.inl rfl), further.still same other (Or.inr rfl)⟩

end Pushes

theorem exchange_converges_note : (syncedWorld.nodes "desk").envelope.records =
    (syncedWorld.nodes "phone").envelope.records :=
  (sampleFleet.exchange_converges sampleFleet_uniform notedWorld_reached (by decide)
    (Option.some_get synced_runs).symm).1

end LibreSync.Managed
