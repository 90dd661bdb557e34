import LibreSync.Managed.Records

/-!
`prepare_records` and `commit_records` together, for a session whose adapters are all
`RecordsAdapter`s: which keys change, and what the changed ones carry.
-/

namespace LibreSync.Managed

variable {Proof : Type}

structure SameAt (before after : Contents Proof) (key : RecordKey) : Prop where
  record : after.records[key]? = before.records[key]?
  sequence : after.sequences[key]? = before.sequences[key]?
  origin : after.origins[key]? = before.origins[key]?

structure FreshAt (origin : Option String) (before after : Contents Proof) (key : RecordKey)
    (record : ManagedRecord) : Prop where
  record : after.records[key]? = some record
  sequence : ∃ sequence, after.sequences[key]? = some sequence ∧
    before.revision < sequence ∧ sequence ≤ after.revision
  origin : after.origins[key]? = origin

theorem SameAt.trans {first second third : Contents Proof} {key : RecordKey}
    (earlier : SameAt first second key) (later : SameAt second third key) :
    SameAt first third key where
  record := later.record.trans earlier.record
  sequence := later.sequence.trans earlier.sequence
  origin := later.origin.trans earlier.origin

theorem SameAt.refl (contents : Contents Proof) (key : RecordKey) :
    SameAt contents contents key := ⟨rfl, rfl, rfl⟩

/-- Two contents that differ at most in what a commit writes. -/
structure Framed (before after : Contents Proof) : Prop where
  rest : after = { before with
    revision := after.revision
    records := after.records
    sequences := after.sequences
    origins := after.origins }
  revision : before.revision ≤ after.revision
  still : after.revision = before.revision → after = before

theorem Framed.refl (contents : Contents Proof) : Framed contents contents :=
  ⟨rfl, le_rfl, fun _ => rfl⟩

theorem Framed.trans {first second third : Contents Proof} (earlier : Framed first second)
    (later : Framed second third) : Framed first third where
  rest := by
    rw [later.rest, earlier.rest]
  revision := earlier.revision.trans later.revision
  still := by
    intro same
    have middle : second.revision = first.revision :=
      le_antisymm (same ▸ later.revision) earlier.revision
    rw [later.still (same.trans middle.symm), earlier.still middle]

theorem storeRecord_ok {origin : Option String} {record : ManagedRecord}
    {before after : Contents Proof} (stored : storeRecord before origin record = .ok after) :
    (before.records[record.key]? = some record ∧ after = before) ∨
      (before.records[record.key]? ≠ some record ∧ Framed before after ∧
        before.revision < after.revision ∧
        FreshAt origin before after record.key record ∧
        ∀ key, key ≠ record.key → SameAt before after key) := by
  simp only [storeRecord] at stored
  split at stored
  · rename_i present
    exact Or.inl ⟨present, (Except.ok.inj stored).symm⟩
  · rename_i absent
    right
    simp only [checkedNext] at stored
    cases bumped : checkedSucc before.revision with
    | none => simp [bumped] at stored
    | some next =>
        obtain ⟨_, rfl⟩ := checkedSucc_some bumped
        simp only [bumped, Except.ok.injEq] at stored
        subst stored
        refine ⟨absent, ⟨rfl, Nat.le_succ _, fun same => absurd same (Nat.succ_ne_self _)⟩,
          Nat.lt_succ_self _, ⟨?_, ⟨before.revision + 1, ?_, ?_, ?_⟩, ?_⟩, ?_⟩
        · simp
        · simp
        · exact Nat.lt_succ_self _
        · exact le_rfl
        · cases origin with
          | none => simp
          | some peer => simp
        · intro key different
          refine ⟨?_, ?_, ?_⟩
          · simp [BTreeMap.get_insert, different]
          · simp [BTreeMap.get_insert, different]
          · cases origin with
            | none => simp [BTreeMap.get_erase, different]
            | some peer => simp [BTreeMap.get_insert, different]

structure Published (origin : Option String) (records : List ManagedRecord)
    (before after : Contents Proof) : Prop where
  framed : Framed before after
  others : ∀ key : RecordKey, (∀ record ∈ records, record.key ≠ key) → SameAt before after key
  stored : ∀ record ∈ records,
    (before.records[record.key]? = some record ∧ SameAt before after record.key) ∨
      (before.records[record.key]? ≠ some record ∧
        FreshAt origin before after record.key record)

theorem storeAll_published {origin : Option String} {records : List ManagedRecord}
    {before after : Contents Proof} (distinct : (records.map ManagedRecord.key).Nodup)
    (stored : storeAll origin records before = .ok after) :
    Published origin records before after := by
  induction records generalizing before with
  | nil =>
      obtain rfl := Except.ok.inj stored
      exact ⟨.refl _, fun key _ => .refl _ key, by simp⟩
  | cons first rest ih =>
      simp only [List.map_cons, List.nodup_cons, List.mem_map, not_exists, not_and] at distinct
      simp only [storeAll] at stored
      split at stored
      · simp at stored
      · rename_i middle here
        have later := ih distinct.2 stored
        have kept := later.others first.key distinct.1
        rcases storeRecord_ok here with ⟨present, rfl⟩ | ⟨absent, framed, grown, fresh, others⟩
        · refine ⟨later.framed, fun key apart => later.others key fun record member =>
            apart record (List.mem_cons_of_mem _ member), fun record member => ?_⟩
          rcases List.mem_cons.mp member with rfl | member
          · exact Or.inl ⟨present, kept⟩
          · exact later.stored record member
        · refine ⟨framed.trans later.framed, fun key apart => ?_, fun record member => ?_⟩
          · exact (others key (apart first List.mem_cons_self).symm).trans
              (later.others key fun record member =>
                apart record (List.mem_cons_of_mem _ member))
          · rcases List.mem_cons.mp member with rfl | member
            · obtain ⟨sequence, written, past, within⟩ := fresh.sequence
              exact Or.inr ⟨absent, kept.record.trans fresh.record,
                ⟨sequence, kept.sequence.trans written, past,
                  within.trans later.framed.revision⟩, kept.origin.trans fresh.origin⟩
            · have apart : record.key ≠ first.key := distinct.1 record member
              have same := others record.key apart
              rcases later.stored record member with ⟨present, unchanged⟩ | ⟨absent, new⟩
              · exact Or.inl ⟨same.record ▸ present, same.trans unchanged⟩
              · obtain ⟨sequence, written, past, within⟩ := new.sequence
                exact Or.inr ⟨same.record ▸ absent, new.record,
                  ⟨sequence, written, grown.trans past, within⟩, new.origin⟩

namespace RecordsAdapter

theorem merge_kept {adapter : String} {incoming : List ManagedRecord}
    {before after : BTreeMap String ManagedRecord}
    (result : merge adapter incoming before = .ok after) :
    ∀ record ∈ incoming, ∃ newest, after[record.id]? = some newest ∧
      (newest = record ∨ record.clock < newest.clock) := by
  induction incoming generalizing before with
  | nil => simp
  | cons next rest ih =>
      simp only [merge] at result
      split at result
      · simp [fail] at result
      · have later : ∀ old : ManagedRecord, ∀ middle : BTreeMap String ManagedRecord,
            middle[next.id]? = some old → merge adapter rest middle = .ok after →
              ∃ newest, after[next.id]? = some newest ∧
                (newest = old ∨ old.clock < newest.clock) := by
          intro old middle present ran
          rcases (merge_merged ran).entries next.id with same | ⟨record, _, _, found, newer⟩
          · exact ⟨old, same.trans present, Or.inl rfl⟩
          · exact ⟨record, found, Or.inr (newer old present)⟩
        intro record member
        split at result
        · rename_i old present
          split at result
          · simp [fail] at result
          · rename_i distinct
            split at result
            · rename_i older
              rcases List.mem_cons.mp member with rfl | member
              · obtain ⟨newest, found, rank⟩ := later old before present result
                refine ⟨newest, found, ?_⟩
                rcases older.lt_or_eq with older | tied
                · rcases rank with rfl | rank
                  · exact Or.inr older
                  · exact Or.inr (older.trans rank)
                · have same : old = record := by
                    by_contra different
                    exact distinct ⟨tied.symm, different⟩
                  exact same ▸ rank
              · exact ih result record member
            · rcases List.mem_cons.mp member with rfl | member
              · exact later record _ (by rw [BTreeMap.get_insert, if_pos rfl]) result
              · exact ih result record member
        · rcases List.mem_cons.mp member with rfl | member
          · exact later record _ (by rw [BTreeMap.get_insert, if_pos rfl]) result
          · exact ih result record member

theorem Merged.keyed {adapter : String} {incoming : List ManagedRecord}
    {before after : BTreeMap String ManagedRecord} (merged : Merged adapter incoming before after)
    (keyed : KeyedById before) : KeyedById after := by
  intro key record found
  rcases merged.entries key with same | ⟨taken, _, about, here, _⟩
  · exact keyed key record (same ▸ found)
  · rw [← Option.some.inj (here.symm.trans found), about]

end RecordsAdapter

/-- What `prepare` of a `RecordsAdapter` staged for the records of one adapter. -/
structure Staged (records : BTreeMap RecordKey ManagedRecord) (revision : Nat)
    (incoming : List ManagedRecord) (change : PreparedChange) : Prop where
  expected : change.expectedRevision = revision
  merged : ∃ merged, change.staged = BTreeMap.valueList merged ∧
    RecordsAdapter.merge change.adapter
      (incoming.filter fun record => record.adapter = change.adapter)
      (RecordsAdapter.index (recordsOf records change.adapter)) = .ok merged

namespace Staged

variable {records : BTreeMap RecordKey ManagedRecord} {revision : Nat}
  {incoming : List ManagedRecord} {change : PreparedChange}

theorem nodup (staged : Staged records revision incoming change) (keyed : Keyed records) :
    (change.staged.map ManagedRecord.id).Nodup := by
  obtain ⟨merged, listed, ran⟩ := staged.merged
  rw [listed]
  exact ((RecordsAdapter.merge_merged ran).keyed
    (index_keyed (recordsOf_nodup keyed change.adapter))).valueList_nodup

theorem mem (staged : Staged records revision incoming change) (keyed : Keyed records)
    {record : ManagedRecord} (member : record ∈ change.staged) :
    record.adapter = change.adapter ∧ (records[record.key]? = some record ∨
      record ∈ incoming ∧ ∀ old, records[record.key]? = some old → old.clock < record.clock) := by
  obtain ⟨merged, listed, ran⟩ := staged.merged
  have facts := RecordsAdapter.merge_merged ran
  have nodup := recordsOf_nodup keyed change.adapter
  rw [listed, BTreeMap.mem_valueList] at member
  obtain ⟨id, found⟩ := member
  have named : record.id = id := facts.keyed (index_keyed nodup) id record found
  rcases facts.entries id with same | ⟨taken, taking, about, here, newer⟩
  · rw [same, RecordsAdapter.index_get nodup, mem_recordsOf keyed] at found
    exact ⟨found.1.2, Or.inl found.1.1⟩
  · obtain rfl := Option.some.inj (here.symm.trans found)
    have mine := facts.mine taken taking
    refine ⟨mine, Or.inr ⟨List.mem_of_mem_filter taking, fun old present => newer old ?_⟩⟩
    rw [RecordsAdapter.index_get nodup, mem_recordsOf keyed]
    have same := keyed _ old present
    have parts := same
    rw [ManagedRecord.key, ManagedRecord.key, recordKey_inj] at parts
    exact ⟨⟨by rw [same]; exact present, parts.1.trans mine⟩, parts.2.trans about⟩

theorem holds (staged : Staged records revision incoming change) (keyed : Keyed records)
    {old : ManagedRecord} (present : records[old.key]? = some old)
    (mine : old.adapter = change.adapter) :
    ∃ record ∈ change.staged, record.key = old.key ∧
      (record = old ∨ old.clock < record.clock) := by
  obtain ⟨merged, listed, ran⟩ := staged.merged
  have facts := RecordsAdapter.merge_merged ran
  have nodup := recordsOf_nodup keyed change.adapter
  have indexed : (RecordsAdapter.index (recordsOf records change.adapter))[old.id]? =
      some old := by
    rw [RecordsAdapter.index_get nodup, mem_recordsOf keyed]
    exact ⟨⟨present, mine⟩, rfl⟩
  rcases facts.entries old.id with same | ⟨taken, taking, about, here, newer⟩
  · exact ⟨old, listed ▸ BTreeMap.mem_valueList.mpr ⟨old.id, same.trans indexed⟩, rfl,
      Or.inl rfl⟩
  · refine ⟨taken, listed ▸ BTreeMap.mem_valueList.mpr ⟨old.id, here⟩, ?_,
      Or.inr (newer old indexed)⟩
    rw [ManagedRecord.key, facts.mine taken taking, about, ← mine, ManagedRecord.key]

theorem takes (staged : Staged records revision incoming change) (keyed : Keyed records)
    {record : ManagedRecord} (member : record ∈ incoming)
    (mine : record.adapter = change.adapter) :
    ∃ newest ∈ change.staged, newest.key = record.key ∧
      (newest = record ∨ record.clock < newest.clock) := by
  obtain ⟨merged, listed, ran⟩ := staged.merged
  obtain ⟨newest, found, rank⟩ := RecordsAdapter.merge_kept ran record
    (List.mem_filter.mpr ⟨member, by simp [mine]⟩)
  have staying : newest ∈ change.staged := listed ▸ BTreeMap.mem_valueList.mpr ⟨record.id, found⟩
  have named : newest.id = record.id :=
    (RecordsAdapter.merge_merged ran).keyed
      (index_keyed (recordsOf_nodup keyed change.adapter)) _ _ found
  refine ⟨newest, staying, ?_, rank⟩
  rw [ManagedRecord.key, (staged.mem keyed staying).1, named, ← mine, ManagedRecord.key]

end Staged

theorem checkedChange_ok {adapter message : String} {records : BTreeMap RecordKey ManagedRecord}
    {revision : Nat} {result : Except Error PreparedChange} {change : PreparedChange}
    (checked : checkedChange adapter records revision message result = .ok change) :
    result = .ok change ∧ change.adapter = adapter ∧ change.expectedRevision = revision := by
  simp only [checkedChange] at checked
  split at checked
  · simp at checked
  · split at checked
    · simp [fail] at checked
    · rename_i staged facts
      split at checked
      · simp at checked
      · obtain rfl := Except.ok.inj checked
        simp only [not_or, not_not] at facts
        exact ⟨rfl, facts.1, facts.2.1⟩

theorem prepareEach_ok {id : String} {records : BTreeMap RecordKey ManagedRecord} {revision : Nat}
    {incoming : List ManagedRecord} {adapters : List (String × ManagedAdapter)}
    {changes : List PreparedChange}
    (uniform : ∀ item ∈ adapters, ∃ descriptor, descriptor.id = item.1 ∧
      item.2 = recordsAdapter descriptor)
    (prepared : prepareEach id records revision incoming adapters = .ok changes) :
    (∀ change ∈ changes, Staged records revision incoming change) ∧
      (changes.map PreparedChange.adapter).Sublist (adapters.map Prod.fst) ∧
      ∀ record ∈ incoming, record.adapter ∈ adapters.map Prod.fst →
        record.adapter ∈ changes.map PreparedChange.adapter := by
  induction adapters generalizing changes with
  | nil =>
      obtain rfl := Except.ok.inj prepared
      exact ⟨by simp, List.Sublist.slnil, by simp⟩
  | cons item rest ih =>
      obtain ⟨name, adapter⟩ := item
      have others : ∀ item ∈ rest, ∃ descriptor, descriptor.id = item.1 ∧
          item.2 = recordsAdapter descriptor :=
        fun item member => uniform item (List.mem_cons_of_mem _ member)
      simp only [prepareEach] at prepared
      split at prepared
      · rename_i nothing
        obtain ⟨staged, order, covered⟩ := ih others prepared
        refine ⟨staged, order.cons name, fun record member mine => ?_⟩
        rcases List.mem_cons.mp mine with here | later
        · simp only [List.isEmpty_iff, List.filter_eq_nil_iff, decide_eq_true_eq] at nothing
          exact absurd here (nothing record member)
        · exact covered record member later
      · split at prepared
        · simp at prepared
        · rename_i change checked
          cases later : prepareEach id records revision incoming rest with
          | error error => simp [later, Except.map] at prepared
          | ok changes =>
              simp only [later, Except.map, Except.ok.injEq] at prepared
              subst prepared
              obtain ⟨staged, order, covered⟩ := ih others later
              obtain ⟨descriptor, named, same⟩ := uniform (name, adapter) List.mem_cons_self
              obtain ⟨ran, mine, expected⟩ := checkedChange_ok checked
              simp only at named same
              subst same
              simp only [recordsAdapter, RecordsAdapter.prepare, named] at ran
              refine ⟨fun change member => ?_, ?_, fun record member about => ?_⟩
              · rcases List.mem_cons.mp member with rfl | member
                · refine ⟨expected, ?_⟩
                  split at ran
                  · simp at ran
                  · rename_i merged outcome
                    rw [mine]
                    exact ⟨merged, by rw [← Except.ok.inj ran], outcome⟩
                · exact staged change member
              · simp only [List.map_cons, mine]
                exact order.cons_cons name
              · simp only [List.map_cons, mine, List.mem_cons] at about ⊢
                exact about.imp_right (covered record member)

theorem commitEach_ok {inner : Inner Proof} (uniform : inner.config.Uniform) {expected : Nat}
    {changes : List PreparedChange} {results : List (List ManagedRecord)}
    (committed : commitEach inner expected changes = .ok results) :
    results = changes.map PreparedChange.staged := by
  induction changes generalizing results with
  | nil => exact (Except.ok.inj committed).symm
  | cons change rest ih =>
      simp only [commitEach] at committed
      split at committed
      · simp at committed
      · rename_i adapter found
        obtain ⟨descriptor, named, rfl⟩ := uniform _ _ found
        split at committed
        · simp at committed
        · rename_i records outcome
          simp only [recordsAdapter] at outcome
          split at outcome
          · simp [fail] at outcome
          · obtain rfl := Except.ok.inj outcome
            split at committed
            · simp at committed
            · cases later : commitEach inner expected rest with
              | error error => simp [later, Except.map] at committed
              | ok results =>
                  simp only [later, Except.map, Except.ok.injEq] at committed
                  rw [← committed, ih later, List.map_cons]

def SessionConfig.registers (config : SessionConfig) (adapter : String) : Prop :=
  adapter ∈ config.adapters

/-- What one commit of incoming records does to the contents. -/
structure Committed (inner : Inner Proof) (origin : Option String) (incoming : List ManagedRecord)
    (before after : Contents Proof) : Prop where
  framed : Framed before after
  keyed : Keyed after.records
  entries : ∀ key : RecordKey, SameAt before after key ∨ ∃ record ∈ incoming,
    record.key = key ∧ FreshAt origin before after key record ∧
      ∀ old, before.records[key]? = some old → old.clock < record.clock
  taken : ∀ record ∈ incoming, inner.config.registers record.adapter →
    ∃ newest, after.records[record.key]? = some newest ∧
      (newest = record ∨ record.clock < newest.clock)

theorem commit_committed {inner : Inner Proof} (uniform : inner.config.Uniform)
    {before after : Contents Proof} (keyed : Keyed before.records) {id : String}
    {incoming : List ManagedRecord} {origin : Option String} {changes : List PreparedChange}
    (prepared : prepareRecords inner before id incoming = .ok changes)
    (committed : commitRecords inner before changes origin = .ok after) :
    Committed inner origin incoming before after := by
  have registered : ∀ item ∈ inner.config.adapters.toList, ∃ descriptor,
      descriptor.id = item.1 ∧ item.2 = recordsAdapter descriptor := fun item member =>
    uniform item.1 item.2 (Std.ExtTreeMap.mem_toList_iff_getElem?_eq_some.mp member)
  obtain ⟨staged, order, covered⟩ := prepareEach_ok registered prepared
  simp only [commitRecords] at committed
  split at committed
  · simp at committed
  · rename_i results ran
    rw [commitEach_ok uniform ran] at committed
    have adapters : (changes.map PreparedChange.adapter).Nodup := by
      refine order.nodup ?_
      rw [List.Nodup, List.pairwise_map]
      exact Std.ExtTreeMap.distinct_keys_toList.imp fun different same => different (by simp [same])
    have distinct : ((changes.map PreparedChange.staged).flatten.map ManagedRecord.key).Nodup := by
      rw [List.map_flatten, List.map_map, List.nodup_flatten]
      constructor
      · intro keys member
        obtain ⟨change, here, rfl⟩ := List.mem_map.mp member
        have ids := (staged change here).nodup keyed
        simp only [Function.comp_apply]
        rw [List.Nodup, List.pairwise_map] at ids ⊢
        refine ids.imp_of_mem fun _ _ different same => different ?_
        simp only [ManagedRecord.key, recordKey_inj] at same
        exact same.2
      · rw [List.pairwise_map]
        rw [List.Nodup, List.pairwise_map] at adapters
        refine adapters.imp_of_mem fun {first second} firstIn secondIn different => ?_
        intro key left right
        simp only [Function.comp_apply, List.mem_map] at left right
        obtain ⟨one, oneIn, rfl⟩ := left
        obtain ⟨two, twoIn, same⟩ := right
        simp only [ManagedRecord.key, recordKey_inj] at same
        refine different ?_
        rw [← ((staged first firstIn).mem keyed oneIn).1,
          ← ((staged second secondIn).mem keyed twoIn).1, same.1]
    have published := storeAll_published distinct committed
    have mem : ∀ record, record ∈ (changes.map PreparedChange.staged).flatten ↔
        ∃ change ∈ changes, record ∈ change.staged := by
      simp [List.mem_flatten]
    have entries : ∀ key : RecordKey, SameAt before after key ∨ ∃ record ∈ incoming,
        record.key = key ∧ FreshAt origin before after key record ∧
          ∀ old, before.records[key]? = some old → old.clock < record.clock := by
      intro key
      by_cases written : ∃ record ∈ (changes.map PreparedChange.staged).flatten, record.key = key
      · obtain ⟨record, member, rfl⟩ := written
        rcases published.stored record member with ⟨_, same⟩ | ⟨absent, fresh⟩
        · exact Or.inl same
        · obtain ⟨change, here, staying⟩ := (mem record).mp member
          rcases ((staged change here).mem keyed staying).2 with present | ⟨taken, newer⟩
          · exact absurd present absent
          · exact Or.inr ⟨record, taken, rfl, fresh, newer⟩
      · exact Or.inl (published.others key fun record member same => written ⟨record, member, same⟩)
    refine ⟨published.framed, ?_, entries, fun record member named => ?_⟩
    · intro key record found
      rcases entries key with same | ⟨new, _, about, fresh, _⟩
      · exact keyed key record (same.record ▸ found)
      · rw [← Option.some.inj (fresh.record.symm.trans found), about]
    · have listed : record.adapter ∈ inner.config.adapters.toList.map Prod.fst := by
        rw [SessionConfig.registers, ← Std.ExtTreeMap.mem_keys, ← Std.ExtTreeMap.map_fst_toList_eq_keys] at named
        exact named
      obtain ⟨change, here, mine⟩ := List.mem_map.mp (covered record member listed)
      obtain ⟨newest, staying, about, rank⟩ := (staged change here).takes keyed member mine.symm
      refine ⟨newest, ?_, rank⟩
      rw [← about]
      rcases published.stored newest ((mem newest).mpr ⟨change, here, staying⟩) with
        ⟨present, same⟩ | ⟨_, fresh⟩
      · exact same.record.trans present
      · exact fresh.record

structure Merging (inner : Inner Proof) (origin : Option String) (incoming : List ManagedRecord)
    (before after : Contents Proof) : Prop where
  ran : ∃ change changes, prepareRecords inner before change incoming = .ok changes ∧
    commitRecords inner before changes origin = .ok after

theorem storeAll_keeps {motive : Contents Proof → Prop} {origin : Option String}
    {records : List ManagedRecord} {before after : Contents Proof}
    (stored : storeAll origin records before = .ok after) (initial : motive before)
    (each : ∀ (e next : Contents Proof) (record : ManagedRecord), motive e →
      storeRecord e origin record = .ok next → motive next) : motive after := by
  induction records generalizing before with
  | nil => exact Except.ok.inj stored ▸ initial
  | cons first rest ih =>
      simp only [storeAll] at stored
      split at stored
      · simp at stored
      · rename_i middle here
        exact ih stored (each _ _ _ initial here)

namespace Merging

variable {inner : Inner Proof} {origin : Option String} {incoming : List ManagedRecord}
  {before after : Contents Proof}

theorem keeps {motive : Contents Proof → Prop} (merging : Merging inner origin incoming before after)
    (initial : motive before)
    (each : ∀ (e next : Contents Proof) (record : ManagedRecord), motive e →
      storeRecord e origin record = .ok next → motive next) : motive after := by
  obtain ⟨change, changes, prepared, committed⟩ := merging.ran
  simp only [commitRecords] at committed
  split at committed
  · simp at committed
  · exact storeAll_keeps committed initial each

theorem framed (merging : Merging inner origin incoming before after) : Framed before after := by
  refine merging.keeps (.refl before) fun e next record framed stored => ?_
  rcases storeRecord_ok stored with ⟨_, rfl⟩ | ⟨_, step, _⟩
  · exact framed
  · exact framed.trans step

theorem peers (merging : Merging inner origin incoming before after) :
    after.peers = before.peers := by
  rw [merging.framed.rest]

theorem keyed (merging : Merging inner origin incoming before after)
    (keyed : Keyed before.records) : Keyed after.records := by
  refine merging.keeps (motive := fun e => Keyed e.records) keyed
    fun e next record keyed stored => ?_
  rcases storeRecord_ok stored with ⟨_, rfl⟩ | ⟨_, _, _, fresh, others⟩
  · exact keyed
  · intro key found present
    by_cases here : key = record.key
    · subst here
      rw [← Option.some.inj (fresh.record.symm.trans present)]
    · exact keyed key found ((others key here).record ▸ present)

theorem committed (merging : Merging inner origin incoming before after)
    (uniform : inner.config.Uniform) (keyed : Keyed before.records) :
    Committed inner origin incoming before after := by
  obtain ⟨_, _, prepared, committed⟩ := merging.ran
  exact commit_committed uniform keyed prepared committed

omit inner origin incoming before after in
theorem prepareEach_nil {change : String} {records : BTreeMap RecordKey ManagedRecord}
    {revision : Nat} (adapters : List (String × ManagedAdapter)) :
    prepareEach change records revision [] adapters = .ok [] := by
  induction adapters with
  | nil => rfl
  | cons item rest ih => simpa [prepareEach] using ih

theorem nil (merging : Merging inner origin [] before after) : after = before := by
  obtain ⟨change, changes, prepared, committed⟩ := merging.ran
  rw [prepareRecords, prepareEach_nil] at prepared
  obtain rfl := Except.ok.inj prepared
  exact (Except.ok.inj committed).symm

theorem sequenced (merging : Merging inner origin incoming before after)
    (sequenced : ∀ (key : RecordKey) (record : ManagedRecord),
      before.records[key]? = some record →
        ∃ sequence, before.sequences[key]? = some sequence ∧ sequence ≤ before.revision) :
    ∀ (key : RecordKey) (record : ManagedRecord), after.records[key]? = some record →
      ∃ sequence, after.sequences[key]? = some sequence ∧ sequence ≤ after.revision := by
  refine merging.keeps (motive := fun e => ∀ (key : RecordKey) (record : ManagedRecord),
    e.records[key]? = some record →
      ∃ sequence, e.sequences[key]? = some sequence ∧ sequence ≤ e.revision) sequenced
    fun e next record sequenced stored => ?_
  rcases storeRecord_ok stored with ⟨_, rfl⟩ | ⟨_, framed, _, fresh, others⟩
  · exact sequenced
  · intro key found present
    by_cases here : key = record.key
    · subst here
      obtain ⟨sequence, written, _, within⟩ := fresh.sequence
      exact ⟨sequence, written, within⟩
    · obtain ⟨sequence, written, within⟩ :=
        sequenced key found ((others key here).record ▸ present)
      exact ⟨sequence, (others key here).sequence.trans written, within.trans framed.revision⟩

end Merging

end LibreSync.Managed
