import LibreSync.RecordState

/-! What routing inbound entries can do to the records of a namespace none of them belongs to. -/

namespace LibreSync

namespace Record

/-- The namespace of a record key; `none` for any other key, one that does not parse included. -/
def namespaceOf (key : String) : Option String :=
  match parseRecordKey key with
  | .ok (some parts) => some parts.keyNamespace
  | _ => none

def parses (key : String) : Bool := (parseRecordKey key).isOk

theorem parses_of_namespaceOf {key keyNamespace : String}
    (found : namespaceOf key = some keyNamespace) : parses key = true := by
  simp only [namespaceOf] at found
  split at found
  · rename_i parts parsed
    simp [parses, parsed, Except.isOk, Except.toBool]
  · simp at found

@[simp] theorem namespaceOf_recordEntryKey (keyNamespace schema entity id : String) :
    namespaceOf (recordEntryKey keyNamespace schema entity id) = some keyNamespace := by
  simp only [namespaceOf, parse_recordEntryKey]

end Record

open Record

namespace State

variable {V : Type}

def Keyed (state : State V) : Prop :=
  ∀ (key : String) (entry : Entry V), state.entries[key]? = some entry → entry.key = key

theorem Keyed.insertEntry {state : State V} (keyed : state.Keyed) (entry : Entry V)
    (origin : Option String) : (state.insertEntry entry origin).Keyed := by
  intro key found present
  rw [insertEntry_entries] at present
  split at present
  · rename_i same
    exact Option.some.inj present ▸ same.symm
  · exact keyed key found present

theorem Keyed.applyEntry {state : State V} (keyed : state.Keyed) (entry : Entry V) :
    (state.applyEntry entry).2.Keyed := by
  intro key found present
  rw [applyEntry_entries] at present
  split at present
  · rename_i both
    exact Option.some.inj present ▸ both.1.symm
  · exact keyed key found present

structure Confined (keyNamespace : String) (before after : State V) : Prop where
  keyed : before.Keyed → after.Keyed
  outside : ∀ key, namespaceOf key ≠ some keyNamespace →
    after.entries[key]? = before.entries[key]?

variable {keyNamespace : String}

theorem Confined.refl (state : State V) : Confined keyNamespace state state :=
  ⟨id, fun _ _ => rfl⟩

theorem Confined.trans {first second third : State V} (earlier : Confined keyNamespace first second)
    (later : Confined keyNamespace second third) : Confined keyNamespace first third :=
  ⟨later.keyed ∘ earlier.keyed, fun key other =>
    (later.outside key other).trans (earlier.outside key other)⟩

theorem insertEntry_confined (state : State V) {entry : Entry V} (origin : Option String)
    (inside : namespaceOf entry.key = some keyNamespace) :
    Confined keyNamespace state (state.insertEntry entry origin) := by
  refine ⟨fun keyed => keyed.insertEntry entry origin, fun key other => ?_⟩
  rw [insertEntry_entries, if_neg]
  rintro rfl
  exact other inside

theorem set_confined (state : State V) {key : String} (value : V)
    (inside : namespaceOf key = some keyNamespace) :
    Confined keyNamespace state (state.set key value).2 := by
  have counted : Confined keyNamespace state
      { state with counter := saturatingSucc state.counter } := ⟨id, fun _ _ => rfl⟩
  exact counted.trans (insertEntry_confined _ none inside)

theorem raiseCounter_confined (state : State V) (clock : LamportClock) :
    Confined keyNamespace state (state.raiseCounter clock) := by
  rw [raiseCounter_eq]
  exact ⟨id, fun _ _ => rfl⟩

end State

section RecordState

variable {V : Type} [PayloadCodec V] {keyNamespace : String} {state after : State V}
  {record : SyncRecord}

theorem RecordState.set_confined {entry : Entry V}
    (written : RecordState.set keyNamespace state record = .ok (entry, after)) :
    state.Confined keyNamespace after := by
  simp only [RecordState.set] at written
  split at written
  · simp at written
  · rename_i existing _
    obtain rfl : _ = after := congrArg Prod.snd (Except.ok.inj written)
    exact State.set_confined state _ (namespaceOf_recordEntryKey ..)

theorem RecordState.apply_confined {applied : Bool}
    (written : RecordState.apply keyNamespace state record = .ok (applied, after)) :
    state.Confined keyNamespace after := by
  simp only [RecordState.apply] at written
  split at written
  · simp at written
  · rename_i existing _
    split at written
    · simp only [Except.ok.injEq, Prod.mk.injEq] at written
      rw [← written.2]
      exact State.Confined.refl state
    · obtain rfl : _ = after := congrArg Prod.snd (Except.ok.inj written)
      refine ⟨fun keyed => keyed.applyEntry _, fun key other => ?_⟩
      rw [State.applyEntry_entries, if_neg]
      rintro ⟨rfl, _⟩
      exact other (by simp [recordToEntry])

theorem RecordState.upsert_confined [DecidableEq V] {changed : Bool}
    (written : RecordState.upsert keyNamespace state record = .ok (changed, after)) :
    state.Confined keyNamespace after := by
  simp only [RecordState.upsert] at written
  split at written
  · simp at written
  · rename_i existing _
    obtain rfl : _ = after := congrArg Prod.snd (Except.ok.inj written)
    simp only [State.upsertEntry]
    split
    · exact State.raiseCounter_confined state _
    · exact (State.raiseCounter_confined state _).trans
        (State.insertEntry_confined _ _ (by simp [recordToEntry]))

theorem applySnapshotWithPolicy_confined [DecidableEq V] (policyForField : String → MergePolicy)
    (mergeCustom : CustomMerge) (records : List SyncRecord) (state : State V) :
    state.Confined keyNamespace (applySnapshotWithPolicy keyNamespace policyForField mergeCustom
      records state).2 := by
  induction records generalizing state with
  | nil => exact State.Confined.refl state
  | cons record rest ih =>
      simp only [applySnapshotWithPolicy]
      cases RecordState.get keyNamespace state record.schema record.entity record.id with
      | error error => exact State.Confined.refl state
      | ok found =>
          dsimp only
          split
          · exact State.Confined.refl state
          · rename_i changed next upserted
            have later := ih next
            have first := RecordState.upsert_confined upserted
            split
            all_goals
              rename_i rested
              rw [rested] at later
              exact first.trans later

end RecordState

section Adapters

variable {V σ : Type}

/-- A change at `key` is accounted for by an entry handed over under that key, or by one of
the same record namespace. -/
def Accounts (handed : Entry V → Prop) (key : String) : Prop :=
  ∃ entry, handed entry ∧ (entry.key = key ∨
    ∃ keyNamespace, namespaceOf entry.key = some keyNamespace ∧ namespaceOf key = some keyNamespace)

structure Merged (handed : Entry V → Prop) (before after : State V) : Prop where
  keyed : before.Keyed → after.Keyed
  frame : ∀ key, ¬ Accounts handed key → after.entries[key]? = before.entries[key]?
  stored : ∀ entry, handed entry → parses entry.key = false → after.entries[entry.key]?.isSome = true

theorem Accounts.same_key {handed : Entry V → Prop} {key : String} (accounts : Accounts handed key)
    (broken : parses key = false) : ∃ entry, handed entry ∧ entry.key = key := by
  obtain ⟨entry, member, same | ⟨keyNamespace, _, found⟩⟩ := accounts
  · exact ⟨entry, member, same⟩
  · simp [parses_of_namespaceOf found] at broken

theorem Merged.empty {handed : Entry V → Prop} (none : ∀ entry, ¬ handed entry) (state : State V) :
    Merged handed state state :=
  ⟨id, fun _ _ => rfl, fun entry member => absurd member (none entry)⟩

theorem Merged.union {first second handed : Entry V → Prop} {before middle after : State V}
    (earlier : Merged first before middle) (later : Merged second middle after)
    (covers : ∀ entry, handed entry ↔ first entry ∨ second entry) :
    Merged handed before after := by
  refine ⟨later.keyed ∘ earlier.keyed, ?_, ?_⟩
  · intro key untouched
    have notFirst : ¬ Accounts first key := fun ⟨entry, member, how⟩ =>
      untouched ⟨entry, (covers entry).mpr (Or.inl member), how⟩
    have notSecond : ¬ Accounts second key := fun ⟨entry, member, how⟩ =>
      untouched ⟨entry, (covers entry).mpr (Or.inr member), how⟩
    rw [later.frame key notSecond, earlier.frame key notFirst]
  · intro entry member broken
    by_cases again : Accounts second entry.key
    · obtain ⟨other, within, same⟩ := again.same_key broken
      rw [← same]
      exact later.stored other within (same ▸ broken)
    · rcases (covers entry).mp member with within | within
      · rw [later.frame entry.key again]
        exact earlier.stored entry within broken
      · exact absurd ⟨entry, within, Or.inl rfl⟩ again

theorem mergeSnapshot_frame (state : State V) (entries : List (Entry V)) {key : String}
    (other : ∀ entry ∈ entries, entry.key ≠ key) :
    (state.mergeSnapshot entries).2.entries[key]? = state.entries[key]? := by
  refine State.mergeSnapshot_induct
    (motive := fun reached => reached.entries[key]? = state.entries[key]?) ?_ rfl
  intro reached entry member same
  rw [State.applyEntry_entries, if_neg, same]
  rintro ⟨here, _⟩
  exact other entry member here.symm

theorem mergeSnapshot_stored (state : State V) (entries : List (Entry V)) {entry : Entry V}
    (member : entry ∈ entries) :
    (state.mergeSnapshot entries).2.entries[entry.key]?.isSome = true := by
  have kept : ∀ (state : State V) (other : Entry V),
      state.entries[entry.key]?.isSome = true →
        (state.applyEntry other).2.entries[entry.key]?.isSome = true := by
    intro state other present
    rw [State.applyEntry_entries]
    split
    · rfl
    · exact present
  have applied : ∀ state : State V,
      (state.applyEntry entry).2.entries[entry.key]?.isSome = true := by
    intro state
    rw [State.applyEntry_entries]
    split
    · rfl
    · rename_i stale
      cases found : state.entries[entry.key]? with
      | some existing => rfl
      | none => exact absurd ⟨rfl, fun existing present => by simp [found] at present⟩ stale
  induction entries generalizing state with
  | nil => simp at member
  | cons head rest ih =>
      rw [State.mergeSnapshot_cons]
      rcases List.mem_cons.mp member with rfl | later
      · exact State.mergeSnapshot_induct
          (motive := fun reached => reached.entries[entry.key]?.isSome = true)
          (fun state other _ present => kept state other present) (applied state)
      · exact ih _ later

theorem mergeSnapshot_merged (state : State V) (entries : List (Entry V)) :
    Merged (· ∈ entries) state (state.mergeSnapshot entries).2 := by
  refine ⟨?_, ?_, ?_⟩
  · intro keyed
    exact State.mergeSnapshot_induct (motive := State.Keyed)
      (fun _ entry _ keyed => keyed.applyEntry entry) keyed
  · intro key untouched
    refine mergeSnapshot_frame state entries fun entry member same => ?_
    exact untouched ⟨entry, member, Or.inl same⟩
  · exact fun entry member _ => mergeSnapshot_stored state entries member

/-- An adapter that is handed entries it owns changes those keys and records of their
namespaces, and does not accept an entry whose key does not parse without storing it. -/
def DataAdapter.Scoped (adapter : DataAdapter V σ) : Prop :=
  ∀ (entries : List (Entry V)) (state after : State V) (applied : Nat), entries ≠ [] →
    (∀ entry ∈ entries, adapter.ownsKey entry.key = true) →
    adapter.applyEntries entries state = (.ok applied, after) →
    Merged (· ∈ entries) state after

theorem DataAdapter.scoped_of_default {adapter : DataAdapter V σ}
    (merges : adapter.applyEntries = fun entries state =>
      (.ok (state.mergeSnapshot entries).1, (state.mergeSnapshot entries).2)) :
    adapter.Scoped := by
  intro entries state after applied _ _ result
  simp only [merges, Prod.mk.injEq, Except.ok.injEq] at result
  rw [← result.2]
  exact mergeSnapshot_merged state entries

variable [PayloadCodec V]

/-- The inner adapter works through the `RecordState` of its namespace. -/
def LogicalAdapter.Confined (inner : LogicalAdapter V σ) : Prop :=
  ∀ (records : List SyncRecord) (state : State V),
    state.Confined inner.keyNamespace (inner.applySnapshot records state).2

theorem InMemoryLogicalAdapter.logical_confined [DecidableEq V] (adapter : InMemoryLogicalAdapter) :
    (adapter.logical : LogicalAdapter V RecordStore).Confined :=
  fun records state =>
    applySnapshotWithPolicy_confined adapter.mergePolicy adapter.mergeCustom records state

theorem LogicalAdapter.wrapper_owns (inner : LogicalAdapter V σ) (key : String) :
    inner.wrapper.ownsKey key = true ↔ namespaceOf key = some inner.keyNamespace := by
  simp only [LogicalAdapter.wrapper, namespaceOf]
  cases parseRecordKey key with
  | error error => simp
  | ok found =>
      cases found with
      | none => simp
      | some parts => simp

theorem LogicalAdapter.wrapper_scoped {inner : LogicalAdapter V σ} (confined : inner.Confined) :
    inner.wrapper.Scoped := by
  intro entries state after applied some owned result
  have named : ∀ entry ∈ entries, namespaceOf entry.key = Option.some inner.keyNamespace :=
    fun entry member => (inner.wrapper_owns entry.key).mp (owned entry member)
  obtain ⟨records, written⟩ : ∃ records, inner.applySnapshot records state = (.ok applied, after) := by
    simp only [LogicalAdapter.wrapper] at result
    split at result
    · simp at result
    · exact ⟨_, result⟩
  have only := confined records state
  rw [written] at only
  refine ⟨only.keyed, ?_, ?_⟩
  · intro key untouched
    refine only.outside key fun inside => untouched ?_
    obtain ⟨entry, member⟩ := List.exists_mem_of_ne_nil entries some
    exact ⟨entry, member, Or.inr ⟨_, named entry member, inside⟩⟩
  · intro entry member broken
    simp [parses_of_namespaceOf (named entry member)] at broken

end Adapters

section Snapshot

variable {V : Type} {keyNamespace : String}

theorem snapshot_filter {state : State V} (keyed : state.Keyed) (keep : String → Bool) :
    state.snapshot.filter (fun entry => keep entry.key) =
      BTreeMap.valueList (state.entries.filter fun key _ => keep key) := by
  simp only [State.snapshot, BTreeMap.valueList, Std.ExtTreeMap.toList_filter, List.filter_map]
  refine congrArg (List.map Prod.snd) (List.filter_congr fun item member => ?_)
  have found := Std.ExtTreeMap.mem_toList_iff_getElem?_eq_some.mp
    (show (item.1, item.2) ∈ state.entries.toList from member)
  simp only [Function.comp_apply, keyed item.1 item.2 found]

theorem State.Keyed.parses_iff {state : State V} (keyed : state.Keyed) :
    (∀ entry ∈ state.snapshot, parses entry.key = true) ↔
      ∀ (key : String) (entry : Entry V), state.entries[key]? = some entry → parses key = true := by
  constructor
  · intro parsed key entry found
    rw [← keyed key entry found]
    exact parsed entry (BTreeMap.mem_valueList.mpr ⟨key, found⟩)
  · intro parsed entry member
    obtain ⟨key, found⟩ := BTreeMap.mem_valueList.mp member
    rw [keyed key entry found]
    exact parsed key entry found

variable [PayloadCodec V]

theorem recordsOf_parses {entries : List (Entry V)} {records : List SyncRecord}
    (read : recordsOf keyNamespace entries = .ok records) :
    ∀ entry ∈ entries, parses entry.key = true := by
  intro entry member
  obtain ⟨found, decoded⟩ := recordsOf_ok_iff.mp ⟨records, read⟩ entry member
  cases parsed : parseRecordKey entry.key with
  | error error => simp [entryToRecord, parsed] at decoded
  | ok parts => simp [parses, parsed, Except.isOk, Except.toBool]

theorem entryToRecord_foreign {entry : Entry V} (parsed : parses entry.key = true)
    (foreign : namespaceOf entry.key ≠ some keyNamespace) :
    entryToRecord entry keyNamespace = .ok none := by
  simp only [parses] at parsed
  simp only [namespaceOf] at foreign
  simp only [entryToRecord]
  cases result : parseRecordKey entry.key with
  | error error => simp [result, Except.isOk, Except.toBool] at parsed
  | ok found =>
      cases found with
      | none => rfl
      | some parts =>
          rw [result] at foreign
          simp only [ne_eq, Option.some.injEq] at foreign
          simp only [ne_eq, foreign, not_false_eq_true, if_true]

theorem recordsOf_filter {entries : List (Entry V)}
    (parsed : ∀ entry ∈ entries, parses entry.key = true) :
    recordsOf keyNamespace entries =
      recordsOf keyNamespace (entries.filter fun entry =>
        namespaceOf entry.key = some keyNamespace) := by
  induction entries with
  | nil => rfl
  | cons entry rest ih =>
      have later := ih fun other member => parsed other (List.mem_cons_of_mem _ member)
      by_cases inside : namespaceOf entry.key = some keyNamespace
      · rw [List.filter_cons_of_pos (by simpa using inside)]
        simp only [recordsOf, later]
      · rw [List.filter_cons_of_neg (by simpa using inside)]
        simp only [recordsOf, entryToRecord_foreign (parsed entry (List.mem_cons_self ..)) inside]
        exact later

theorem snapshot_congr {before after : State V} (keyed : before.Keyed) (stays : after.Keyed)
    (parsed : ∀ entry ∈ before.snapshot, parses entry.key = true)
    (parsedAfter : ∀ entry ∈ after.snapshot, parses entry.key = true)
    (agree : ∀ key, namespaceOf key = some keyNamespace →
      after.entries[key]? = before.entries[key]?) :
    RecordView.snapshot keyNamespace after = RecordView.snapshot keyNamespace before := by
  have same : (after.entries.filter fun key _ => decide (namespaceOf key = some keyNamespace)) =
      before.entries.filter fun key _ => decide (namespaceOf key = some keyNamespace) := by
    refine Std.ExtTreeMap.ext_getElem? fun {key} => ?_
    simp only [Std.ExtTreeMap.getElem?_filter']
    by_cases inside : namespaceOf key = some keyNamespace
    · rw [agree key inside]
    · simp [inside]
  rw [snapshot_recordsOf, snapshot_recordsOf, recordsOf_filter parsed, recordsOf_filter parsedAfter,
    snapshot_filter keyed fun key => decide (namespaceOf key = some keyNamespace),
    snapshot_filter stays fun key => decide (namespaceOf key = some keyNamespace), same]

end Snapshot

namespace AdapterRouter

variable {V σ : Type} (router : AdapterRouter V σ)

theorem owner_spec {key : String} {index : Nat} (owned : router.owner key = some index) :
    ∃ adapter, router.adapters[index]? = some adapter ∧ adapter.ownsKey key = true := by
  obtain ⟨below, owns, _⟩ := List.findIdx?_eq_some_iff_getElem.mp owned
  exact ⟨_, List.getElem?_eq_getElem below, owns⟩

theorem applyBuckets_merged (wellScoped : ∀ adapter ∈ router.adapters, adapter.Scoped)
    (entries : List (Entry V)) {adapters : List (DataAdapter V σ)} {index : Nat}
    (dropped : router.adapters.drop index = adapters) {state after : State V} {applied : Nat}
    (result : router.applyBuckets entries adapters index state = (.ok applied, after)) :
    Merged (fun entry => entry ∈ entries ∧ ∃ owner, router.owner entry.key = some owner ∧
      index ≤ owner) state after := by
  induction adapters generalizing index state applied with
  | nil =>
      simp only [applyBuckets, Prod.mk.injEq] at result
      rw [← result.2]
      refine Merged.empty ?_ state
      rintro entry ⟨_, owner, owned, above⟩
      obtain ⟨adapter, found, _⟩ := router.owner_spec owned
      have short := List.drop_eq_nil_iff.mp dropped
      have within := (List.getElem?_eq_some_iff.mp found).1
      omega
  | cons adapter rest ih =>
      have here : router.adapters[index]? = some adapter := by
        rw [← List.head?_drop, dropped]
        rfl
      have later : router.adapters.drop (index + 1) = rest := by
        rw [← List.tail_drop, dropped]
        rfl
      have owned : ∀ entry ∈ router.bucket entries (some index),
          adapter.ownsKey entry.key = true := by
        intro entry member
        obtain ⟨other, found, owns⟩ :=
          router.owner_spec (of_decide_eq_true (List.mem_filter.mp member).2)
        rw [here] at found
        exact Option.some.inj found ▸ owns
      have bucketed : ∀ entry, entry ∈ router.bucket entries (some index) ↔
          entry ∈ entries ∧ router.owner entry.key = some index := by
        intro entry
        simp [bucket]
      have covers : ∀ entry, (entry ∈ entries ∧ ∃ owner, router.owner entry.key = some owner ∧
          index ≤ owner) ↔ entry ∈ router.bucket entries (some index) ∨
            (entry ∈ entries ∧ ∃ owner, router.owner entry.key = some owner ∧
              index + 1 ≤ owner) := by
        intro entry
        rw [bucketed]
        constructor
        · rintro ⟨member, owner, found, above⟩
          rcases Nat.eq_or_lt_of_le above with rfl | above
          · exact Or.inl ⟨member, found⟩
          · exact Or.inr ⟨member, owner, found, above⟩
        · rintro (⟨member, found⟩ | ⟨member, owner, found, above⟩)
          · exact ⟨member, index, found, le_refl index⟩
          · exact ⟨member, owner, found, by omega⟩
      simp only [applyBuckets] at result
      split at result
      · rename_i vacant
        rw [List.isEmpty_iff] at vacant
        have none : ∀ entry, entry ∉ router.bucket entries (some index) := by simp [vacant]
        exact (Merged.empty none state).union (ih later result) covers
      · rename_i occupied
        split at result
        · simp at result
        · rename_i first middle handed
          split at result
          · simp at result
          · rename_i more final rested
            simp only [Prod.mk.injEq] at result
            rw [result.2] at rested
            have merged := wellScoped adapter (List.mem_of_getElem? here) _ _ _ _
              (fun vacant => occupied (by simp [vacant])) owned handed
            exact merged.union (ih later rested) covers

theorem applyInbound_merged (wellScoped : ∀ adapter ∈ router.adapters, adapter.Scoped)
    {entries : List (Entry V)} {state after : State V} {applied : Nat}
    (result : router.applyInbound entries state = (.ok applied, after)) :
    Merged (· ∈ entries) state after := by
  simp only [applyInbound] at result
  split at result
  · simp at result
  · rename_i routed middle buckets
    simp only [Prod.mk.injEq] at result
    rw [← result.2]
    refine (router.applyBuckets_merged wellScoped entries (List.drop_zero) buckets).union
      (mergeSnapshot_merged middle (router.bucket entries none)) fun entry => ?_
    simp only [bucket, List.mem_filter, decide_eq_true_eq, Nat.zero_le, and_true]
    cases router.owner entry.key <;> simp

variable [PayloadCodec V]

/-- Entries of other namespaces keep the records of this one unless a key among them does not
parse, which no adapter with a record namespace owns and every snapshot stumbles over. -/
theorem snapshot_kept_iff (wellScoped : ∀ adapter ∈ router.adapters, adapter.Scoped)
    (inner : LogicalAdapter V σ) {state after : State V} (keyed : state.Keyed)
    {records : List SyncRecord}
    (read : RecordView.snapshot inner.keyNamespace state = .ok records) {entries : List (Entry V)}
    (foreign : ∀ entry ∈ entries, inner.wrapper.ownsKey entry.key = false) {applied : Nat}
    (result : router.applyInbound entries state = (.ok applied, after)) :
    RecordView.snapshot inner.keyNamespace after = .ok records ↔
      ∀ entry ∈ entries, parses entry.key = true := by
  have merged := router.applyInbound_merged wellScoped result
  have outside : ∀ entry ∈ entries, namespaceOf entry.key ≠ some inner.keyNamespace := by
    intro entry member inside
    have owned := (inner.wrapper_owns entry.key).mpr inside
    simp [foreign entry member] at owned
  have parsed : ∀ entry ∈ state.snapshot, parses entry.key = true := by
    rw [snapshot_recordsOf] at read
    exact recordsOf_parses read
  constructor
  · intro kept entry member
    rw [snapshot_recordsOf] at kept
    by_contra broken
    simp only [Bool.not_eq_true] at broken
    obtain ⟨stored, found⟩ := Option.isSome_iff_exists.mp (merged.stored entry member broken)
    have good := (merged.keyed keyed).parses_iff.mp (recordsOf_parses kept) _ _ found
    simp [broken] at good
  · intro inbound
    rw [← read]
    refine snapshot_congr keyed (merged.keyed keyed) parsed ?_ ?_
    · rw [(merged.keyed keyed).parses_iff]
      intro key entry found
      by_cases accounts : Accounts (· ∈ entries) key
      · obtain ⟨other, member, same | ⟨keyNamespace, _, inside⟩⟩ := accounts
        · exact same ▸ inbound other member
        · exact parses_of_namespaceOf inside
      · rw [merged.frame key accounts] at found
        exact keyed.parses_iff.mp parsed key entry found
    · intro key inside
      refine merged.frame key ?_
      rintro ⟨entry, member, rfl | ⟨keyNamespace, named, same⟩⟩
      · exact outside entry member inside
      · rw [inside] at same
        exact outside entry member (same ▸ named)

def notes : InMemoryLogicalAdapter where
  id := "notes"
  keyNamespace := "notes"
  mergePolicies := ∅
  mergeCustom _ _ _ _ _ := none

def inbound (key : String) : Entry RecordPayload where
  key := key
  value := { fields := ∅, tombstone := false, updatedAt := none, fieldClocks := ∅ }
  clock := { counter := 1, deviceId := "laptop" }

theorem notes_scoped : ∀ adapter ∈ (notes.router : AdapterRouter RecordPayload RecordStore).adapters,
    adapter.Scoped := by
  intro adapter member
  obtain rfl := List.mem_singleton.mp member
  exact LogicalAdapter.wrapper_scoped notes.logical_confined

def heldNote : SyncRecord where
  schema := "notes"
  entity := "note"
  id := "1"
  fields := (∅ : BTreeMap String FieldValue).insert "title" (.string "draft")
  tombstone := false
  updatedAt := none
  clock := { counter := 1, deviceId := "phone" }
  fieldClocks := ∅

def notedPhone : State RecordPayload :=
  ((State.new "phone" "first").applyEntry (recordToEntry "notes" heldNote)).2

theorem snapshot_kept_settings :
    RecordView.snapshot "notes" ((notes.router : AdapterRouter RecordPayload RecordStore).applyInbound
      [inbound "settings"] notedPhone).2 = .ok [heldNote] := by
  have read : RecordView.snapshot "notes" notedPhone = .ok [heldNote] := rfl
  have foreign : ∀ entry ∈ [inbound "settings"], (notes.logical :
      LogicalAdapter RecordPayload RecordStore).wrapper.ownsKey entry.key = false := by
    decide +kernel
  have applied : ((notes.router : AdapterRouter RecordPayload RecordStore).applyInbound
      [inbound "settings"] notedPhone).1 = .ok 1 := rfl
  have keyed : notedPhone.Keyed :=
    State.Keyed.applyEntry (State.new_wellFormed "phone" "first").keyed _
  exact ((notes.router : AdapterRouter RecordPayload RecordStore).snapshot_kept_iff notes_scoped
    notes.logical keyed read foreign (Prod.ext applied rfl)).mpr (by decide +kernel)

theorem truncatedKey_breaks_snapshot :
    ∃ (state : State RecordPayload) (entry : Entry RecordPayload) (after : State RecordPayload),
      RecordView.snapshot "notes" state = .ok [] ∧
      (notes.logical : LogicalAdapter RecordPayload RecordStore).wrapper.ownsKey entry.key = false ∧
      (notes.router : AdapterRouter RecordPayload RecordStore).applyInbound [entry] state =
        (.ok 1, after) ∧
      RecordView.snapshot "notes" after = .error (.protocol "record key missing schema") :=
  ⟨State.new "phone" "first", inbound "record:notes", _, rfl, by decide +kernel, rfl,
    by decide +kernel⟩

end AdapterRouter

end LibreSync
