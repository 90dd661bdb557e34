import LibreSync.Managed.Adapter

/-!
What a commit of received or local records does to the record map of a session
whose adapters are all `RecordsAdapter`s: every key is left alone or takes a
strictly newer record of the batch, under a fresh revision.
-/

namespace LibreSync.Managed

variable {Proof : Type}

/-- Every registered adapter is a `RecordsAdapter` under its own id. -/
def SessionConfig.Uniform (config : SessionConfig) : Prop :=
  ∀ (name : String) (adapter : ManagedAdapter), config.adapters[name]? = some adapter →
    ∃ descriptor, descriptor.id = name ∧ adapter = recordsAdapter descriptor

theorem SessionConfig.new_uniform (metadata : DeviceMetadata) :
    (SessionConfig.new metadata).Uniform := by
  have step : ∀ (descriptors : List AdapterDescriptor) (adapters : BTreeMap String ManagedAdapter),
      (∀ (name : String) (adapter : ManagedAdapter), adapters[name]? = some adapter →
        ∃ descriptor, descriptor.id = name ∧ adapter = recordsAdapter descriptor) →
      ∀ (name : String) (adapter : ManagedAdapter),
        (descriptors.foldl (fun adapters descriptor =>
          adapters.insert descriptor.id (recordsAdapter descriptor)) adapters)[name]? =
            some adapter →
          ∃ descriptor, descriptor.id = name ∧ adapter = recordsAdapter descriptor := by
    intro descriptors
    induction descriptors with
    | nil => exact fun _ uniform => uniform
    | cons descriptor rest ih =>
        intro adapters uniform
        refine ih _ fun name adapter found => ?_
        rw [BTreeMap.get_insert] at found
        split at found
        · rename_i same
          exact ⟨descriptor, same.symm, (Option.some.inj found).symm⟩
        · exact uniform name adapter found
  exact step metadata.manifest.adapters ∅ (by simp)

def Keyed (records : BTreeMap RecordKey ManagedRecord) : Prop :=
  ∀ (key : RecordKey) (record : ManagedRecord), records[key]? = some record → record.key = key

theorem recordKey_inj {adapter other id query : String} :
    recordKey adapter id = recordKey other query ↔ adapter = other ∧ id = query := by
  simp only [recordKey, EmbeddingLike.apply_eq_iff_eq, Prod.mk.injEq]

theorem mem_recordsOf {records : BTreeMap RecordKey ManagedRecord} (keyed : Keyed records)
    {name : String} {record : ManagedRecord} :
    record ∈ recordsOf records name ↔
      records[record.key]? = some record ∧ record.adapter = name := by
  simp only [recordsOf, List.mem_filter, BTreeMap.mem_valueList, decide_eq_true_eq]
  constructor
  · rintro ⟨⟨key, found⟩, same⟩
    exact ⟨keyed key record found ▸ found, same⟩
  · rintro ⟨found, same⟩
    exact ⟨⟨record.key, found⟩, same⟩

theorem recordsOf_nodup {records : BTreeMap RecordKey ManagedRecord} (keyed : Keyed records)
    (name : String) : ((recordsOf records name).map ManagedRecord.id).Nodup := by
  have distinct : (BTreeMap.valueList records).Pairwise fun left right => left.key ≠ right.key := by
    simp only [BTreeMap.valueList, List.pairwise_map]
    have keys : (records.toList).Pairwise fun left right => left.1 ≠ right.1 :=
      Std.ExtTreeMap.distinct_keys_toList.imp fun different same => different (by simp [same])
    refine keys.imp_of_mem fun leftMember rightMember different => ?_
    rw [keyed _ _ (Std.ExtTreeMap.mem_toList_iff_getElem?_eq_some.mp leftMember),
      keyed _ _ (Std.ExtTreeMap.mem_toList_iff_getElem?_eq_some.mp rightMember)]
    exact different
  rw [List.Nodup, List.pairwise_map]
  refine (distinct.filter _).imp_of_mem fun leftMember rightMember different same => ?_
  have left := ((mem_recordsOf keyed).mp leftMember).2
  have right := ((mem_recordsOf keyed).mp rightMember).2
  exact different (by simp only [ManagedRecord.key, left, right, same])

namespace RecordsAdapter

theorem index_get {records : List ManagedRecord} (nodup : (records.map ManagedRecord.id).Nodup)
    (id : String) (record : ManagedRecord) :
    (index records)[id]? = some record ↔ record ∈ records ∧ record.id = id := by
  have step : ∀ (records : List ManagedRecord) (merged : BTreeMap String ManagedRecord),
      (records.map ManagedRecord.id).Nodup →
        ((records.foldl (fun merged record => merged.insert record.id record) merged)[id]? =
            some record ↔
          (record ∈ records ∧ record.id = id) ∨
            ((∀ other ∈ records, other.id ≠ id) ∧ merged[id]? = some record)) := by
    intro records
    induction records with
    | nil => simp
    | cons first rest ih =>
        intro merged nodup
        simp only [List.map_cons, List.nodup_cons, List.mem_map, not_exists, not_and] at nodup
        simp only [List.foldl_cons]
        rw [ih _ nodup.2, BTreeMap.get_insert]
        by_cases here : id = first.id
        · subst here
          simp only [if_true, Option.some.injEq, List.mem_cons, forall_eq_or_imp]
          constructor
          · rintro (⟨member, same⟩ | ⟨-, rfl⟩)
            · exact absurd same (nodup.1 record member)
            · exact Or.inl ⟨Or.inl rfl, rfl⟩
          · rintro (⟨rfl | member, same⟩ | ⟨⟨different, -⟩, -⟩)
            · exact Or.inr ⟨fun other member => nodup.1 other member, rfl⟩
            · exact absurd same (nodup.1 record member)
            · exact absurd rfl different
        · rw [if_neg here]
          simp only [List.mem_cons, forall_eq_or_imp]
          constructor
          · rintro (⟨member, same⟩ | ⟨others, found⟩)
            · exact Or.inl ⟨Or.inr member, same⟩
            · exact Or.inr ⟨⟨Ne.symm here, others⟩, found⟩
          · rintro (⟨rfl | member, same⟩ | ⟨⟨_, others⟩, found⟩)
            · exact absurd same.symm here
            · exact Or.inl ⟨member, same⟩
            · exact Or.inr ⟨others, found⟩
  have result := step records ∅ nodup
  simpa [index] using result

end RecordsAdapter

def KeyedById (merged : BTreeMap String ManagedRecord) : Prop :=
  ∀ (key : String) (record : ManagedRecord), merged[key]? = some record → record.id = key

theorem KeyedById.insert {merged : BTreeMap String ManagedRecord} (keyed : KeyedById merged)
    {key : String} {record : ManagedRecord} (same : record.id = key) :
    KeyedById (merged.insert key record) := by
  intro query found present
  rw [BTreeMap.get_insert] at present
  split at present
  · rename_i here
    rw [← Option.some.inj present, here, same]
  · exact keyed query found present

theorem KeyedById.valueList_nodup {merged : BTreeMap String ManagedRecord}
    (keyed : KeyedById merged) : ((BTreeMap.valueList merged).map ManagedRecord.id).Nodup := by
  rw [List.Nodup, List.pairwise_map, BTreeMap.valueList, List.pairwise_map]
  have keys : (merged.toList).Pairwise fun left right => left.1 ≠ right.1 :=
    Std.ExtTreeMap.distinct_keys_toList.imp fun different same => different (by simp [same])
  refine keys.imp_of_mem fun leftMember rightMember different => ?_
  rw [keyed _ _ (Std.ExtTreeMap.mem_toList_iff_getElem?_eq_some.mp leftMember),
    keyed _ _ (Std.ExtTreeMap.mem_toList_iff_getElem?_eq_some.mp rightMember)]
  exact different

theorem KeyedById.index_valueList {merged : BTreeMap String ManagedRecord}
    (keyed : KeyedById merged) (key : String) :
    (RecordsAdapter.index (BTreeMap.valueList merged))[key]? = merged[key]? := by
  refine Option.ext fun record => ?_
  rw [RecordsAdapter.index_get keyed.valueList_nodup, BTreeMap.mem_valueList]
  constructor
  · rintro ⟨⟨query, found⟩, same⟩
    rwa [← same, keyed query record found]
  · exact fun found => ⟨⟨key, found⟩, keyed key record found⟩

theorem index_keyed {records : List ManagedRecord} (nodup : (records.map ManagedRecord.id).Nodup) :
    KeyedById (RecordsAdapter.index records) :=
  fun key record found => ((RecordsAdapter.index_get nodup key record).mp found).2

namespace RecordsAdapter

structure Merged (adapter : String) (incoming : List ManagedRecord)
    (before after : BTreeMap String ManagedRecord) : Prop where
  mine : ∀ record ∈ incoming, record.adapter = adapter
  entries : ∀ id : String, after[id]? = before[id]? ∨ ∃ record ∈ incoming, record.id = id ∧
    after[id]? = some record ∧ ∀ old, before[id]? = some old → old.clock < record.clock
  taken : ∀ record ∈ incoming, ∃ newest, after[record.id]? = some newest ∧
    record.clock ≤ newest.clock
  grows : ∀ (id : String) (old : ManagedRecord), before[id]? = some old →
    ∃ new, after[id]? = some new ∧ old.clock ≤ new.clock

theorem Merged.skip {adapter : String} {next : ManagedRecord} {rest : List ManagedRecord}
    {before after : BTreeMap String ManagedRecord} (merged : Merged adapter rest before after)
    (same : next.adapter = adapter) {old : ManagedRecord} (present : before[next.id]? = some old)
    (older : next.clock ≤ old.clock) : Merged adapter (next :: rest) before after where
  mine := by
    intro record member
    rcases List.mem_cons.mp member with rfl | member
    · exact same
    · exact merged.mine record member
  entries := by
    intro id
    rcases merged.entries id with unchanged | ⟨record, member, facts⟩
    · exact Or.inl unchanged
    · exact Or.inr ⟨record, List.mem_cons_of_mem _ member, facts⟩
  taken := by
    intro record member
    rcases List.mem_cons.mp member with rfl | member
    · obtain ⟨new, found, newer⟩ := merged.grows _ old present
      exact ⟨new, found, older.trans newer⟩
    · exact merged.taken record member
  grows := merged.grows

theorem Merged.take {adapter : String} {next : ManagedRecord} {rest : List ManagedRecord}
    {before after : BTreeMap String ManagedRecord}
    (merged : Merged adapter rest (before.insert next.id next) after)
    (same : next.adapter = adapter)
    (newer : ∀ old, before[next.id]? = some old → old.clock < next.clock) :
    Merged adapter (next :: rest) before after where
  mine := by
    intro record member
    rcases List.mem_cons.mp member with rfl | member
    · exact same
    · exact merged.mine record member
  entries := by
    intro id
    rcases merged.entries id with unchanged | ⟨record, member, about, found, newest⟩
    · rw [BTreeMap.get_insert] at unchanged
      split at unchanged
      · rename_i here
        exact Or.inr ⟨next, List.mem_cons_self .., here.symm, unchanged, here ▸ newer⟩
      · exact Or.inl unchanged
    · refine Or.inr ⟨record, List.mem_cons_of_mem _ member, about, found, fun old present => ?_⟩
      rw [BTreeMap.get_insert] at newest
      by_cases here : id = next.id
      · rw [if_pos here] at newest
        exact (newer old (here ▸ present)).trans (newest next rfl)
      · rw [if_neg here] at newest
        exact newest old present
  taken := by
    intro record member
    rcases List.mem_cons.mp member with rfl | member
    · exact merged.grows _ record (by rw [BTreeMap.get_insert, if_pos rfl])
    · exact merged.taken record member
  grows := by
    intro id old present
    by_cases here : id = next.id
    · subst here
      obtain ⟨new, found, later⟩ := merged.grows next.id next (by
        rw [BTreeMap.get_insert, if_pos rfl])
      exact ⟨new, found, (newer old present).le.trans later⟩
    · exact merged.grows id old (by rw [BTreeMap.get_insert, if_neg here]; exact present)

theorem merge_merged {adapter : String} {incoming : List ManagedRecord}
    {before after : BTreeMap String ManagedRecord}
    (result : merge adapter incoming before = .ok after) :
    Merged adapter incoming before after := by
  induction incoming generalizing before with
  | nil =>
      obtain rfl := Except.ok.inj result
      exact ⟨by simp, fun _ => Or.inl rfl, by simp, fun _ old present => ⟨old, present, le_rfl⟩⟩
  | cons next rest ih =>
      simp only [merge] at result
      split at result
      · simp [fail] at result
      · rename_i same
        have mine : next.adapter = adapter := not_not.mp same
        split at result
        · rename_i old present
          split at result
          · simp [fail] at result
          · split at result
            · rename_i older
              exact (ih result).skip mine present older
            · rename_i newer
              refine (ih result).take mine fun other found => ?_
              obtain rfl := Option.some.inj (present.symm.trans found)
              exact not_le.mp newer
        · rename_i absent
          exact (ih result).take mine (by simp [absent])

end RecordsAdapter

end LibreSync.Managed
