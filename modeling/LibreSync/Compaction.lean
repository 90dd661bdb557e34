import LibreSync.RecordRouting
import LibreSync.RecordJson
import LibreSync.Lib.Surplus

/-! The compaction of a namespace: which tombstones a policy removes from the state. -/

namespace LibreSync

open Record

structure RecordCompactionPolicy where
  tombstoneMaxAgeSecs : Option Nat
  maxTombstones : Option Nat

structure RecordCompactionSummary where
  tombstonesTotal : Nat
  tombstonesRemoved : Nat
  tombstonesRetained : Nat
deriving DecidableEq, Repr

def SyncRecord.entryKey (keyNamespace : String) (record : SyncRecord) : String :=
  recordEntryKey keyNamespace record.schema record.entity record.id

namespace State

variable {V : Type}

def removeAll (state : State V) (keys : List String) : Nat × State V :=
  keys.foldl (fun (count, state) key =>
    match state.remove key with
    | (some _, state) => (count + 1, state)
    | (none, state) => (count, state)) (0, state)

/-- Every record key is one that `record_entry_key` writes. -/
structure Written (state : State V) : Prop where
  keyed : state.Keyed
  canonical : ∀ (key : String) (entry : Entry V) (parts : RecordKeyParts),
    state.entries[key]? = some entry → parseRecordKey key = .ok (some parts) → parts.entryKey = key

theorem Written.new (deviceId epoch : String) : (State.new deviceId epoch : State V).Written where
  keyed key entry found := by simp [State.new] at found
  canonical key entry parts found := by simp [State.new] at found

theorem Written.write {before after : State V} (written : before.Written)
    (wrote : ∀ (key : String) (entry : Entry V), after.entries[key]? = some entry →
      before.entries[key]? = some entry ∨
        entry.key = key ∧ ∃ parts : RecordKeyParts, parts.entryKey = key) : after.Written where
  keyed key entry found := by
    rcases wrote key entry found with old | ⟨named, -⟩
    · exact written.keyed key entry old
    · exact named
  canonical key entry parts found parsed := by
    rcases wrote key entry found with old | ⟨-, other, rfl⟩
    · exact written.canonical key entry parts old parsed
    · rw [RecordKeyParts.entryKey, parse_recordEntryKey] at parsed
      obtain rfl := Option.some.inj (Except.ok.inj parsed)
      rfl

structure Without (before after : State V) (keys : List String) : Prop where
  entries : ∀ key, after.entries[key]? = if key ∈ keys then none else before.entries[key]?
  sequences : ∀ key, after.sequences[key]? = if key ∈ keys then none else before.sequences[key]?
  origins : ∀ key, after.origins[key]? = if key ∈ keys then none else before.origins[key]?
  rest : after.deviceId = before.deviceId ∧ after.counter = before.counter ∧
    after.sequence = before.sequence ∧ after.peerCursors = before.peerCursors ∧
    after.epoch = before.epoch ∧ after.inboundOrigin = before.inboundOrigin

theorem remove_without (state : State V) (key : String) :
    Without state (state.remove key).2 [key] where
  entries other := by simp only [remove, BTreeMap.get_erase, List.mem_singleton]
  sequences other := by simp only [remove, BTreeMap.get_erase, List.mem_singleton]
  origins other := by simp only [remove, BTreeMap.get_erase, List.mem_singleton]
  rest := ⟨rfl, rfl, rfl, rfl, rfl, rfl⟩

theorem Without.trans {before middle after : State V} {first later : List String}
    (one : Without before middle first) (next : Without middle after later) :
    Without before after (first ++ later) where
  entries key := by
    rw [next.entries, one.entries]
    by_cases here : key ∈ later <;> simp [here]
  sequences key := by
    rw [next.sequences, one.sequences]
    by_cases here : key ∈ later <;> simp [here]
  origins key := by
    rw [next.origins, one.origins]
    by_cases here : key ∈ later <;> simp [here]
  rest := by
    obtain ⟨deviceId, counter, sequence, cursors, epoch, origin⟩ := one.rest
    obtain ⟨deviceId', counter', sequence', cursors', epoch', origin'⟩ := next.rest
    exact ⟨deviceId'.trans deviceId, counter'.trans counter, sequence'.trans sequence,
      cursors'.trans cursors, epoch'.trans epoch, origin'.trans origin⟩

theorem Without.congr {before after : State V} {keys others : List String}
    (without : Without before after keys) (same : ∀ key, key ∈ keys ↔ key ∈ others) :
    Without before after others where
  entries key := by simpa only [same] using without.entries key
  sequences key := by simpa only [same] using without.sequences key
  origins key := by simpa only [same] using without.origins key
  rest := without.rest

theorem removeAll_without {keys : List String} (state : State V) (distinct : keys.Nodup)
    (present : ∀ key ∈ keys, state.entries[key]? ≠ none) :
    (state.removeAll keys).1 = keys.length ∧ Without state (state.removeAll keys).2 keys := by
  have folded : ∀ (keys : List String) (count : Nat) (state : State V), keys.Nodup →
      (∀ key ∈ keys, state.entries[key]? ≠ none) →
      (keys.foldl (fun (count, state) key =>
        match state.remove key with
        | (some _, state) => (count + 1, state)
        | (none, state) => (count, state)) (count, state)).1 = count + keys.length ∧
      Without state (keys.foldl (fun (count, state) key =>
        match state.remove key with
        | (some _, state) => (count + 1, state)
        | (none, state) => (count, state)) (count, state)).2 keys := by
    intro keys
    induction keys with
    | nil =>
        exact fun count state _ _ => ⟨rfl, ⟨fun _ => rfl, fun _ => rfl, fun _ => rfl,
          rfl, rfl, rfl, rfl, rfl, rfl⟩⟩
    | cons key rest ih =>
        intro count state distinct present
        obtain ⟨fresh, others⟩ := List.nodup_cons.mp distinct
        have gone := state.remove_without key
        obtain ⟨entry, found⟩ := Option.ne_none_iff_exists'.mp (present key List.mem_cons_self)
        have later : ∀ other ∈ rest, (state.remove key).2.entries[other]? ≠ none := by
          intro other member
          have differs : other ≠ key := fun same => fresh (same ▸ member)
          rw [gone.entries, if_neg (by simpa using differs)]
          exact present other (List.mem_cons_of_mem _ member)
        obtain ⟨counted, without⟩ := ih (count + 1) (state.remove key).2 others later
        have step : state.remove key = (some entry, (state.remove key).2) := by
          rw [← found]
          rfl
        rw [List.foldl_cons]
        generalize (state.remove key).2 = next at step gone counted without
        simp only [step]
        refine ⟨?_, gone.trans without⟩
        rw [counted, List.length_cons]
        omega
  obtain ⟨counted, without⟩ := folded keys 0 state distinct present
  exact ⟨counted.trans (Nat.zero_add _), without⟩

end State

namespace RecordState

section Writes

variable {V : Type} [PayloadCodec V] {keyNamespace : String} {state after : State V}
  {record : SyncRecord}

theorem set_written (written : state.Written) {entry : Entry V}
    (set : set keyNamespace state record = .ok (entry, after)) : after.Written := by
  rw [RecordState.set] at set
  split at set
  · simp at set
  · obtain rfl := congrArg Prod.snd (Except.ok.inj set)
    refine written.write fun key entry found => ?_
    rw [State.set_entries] at found
    split at found
    · rename_i same
      obtain rfl := Option.some.inj found
      exact Or.inr ⟨same.symm, ⟨keyNamespace, _, _, _⟩, same.symm⟩
    · exact Or.inl found

theorem apply_written (written : state.Written) {changed : Bool}
    (applied : apply keyNamespace state record = .ok (changed, after)) : after.Written := by
  rw [RecordState.apply] at applied
  split at applied
  · simp at applied
  · split at applied
    · obtain rfl := congrArg Prod.snd (Except.ok.inj applied)
      exact written
    · obtain rfl := congrArg Prod.snd (Except.ok.inj applied)
      refine written.write fun key entry found => ?_
      rw [State.applyEntry_entries] at found
      split at found
      · rename_i same
        obtain rfl := Option.some.inj found
        exact Or.inr ⟨same.1.symm, ⟨keyNamespace, _, _, _⟩, same.1.symm⟩
      · exact Or.inl found

theorem upsert_written [DecidableEq V] (written : state.Written) {changed : Bool}
    (upserted : upsert keyNamespace state record = .ok (changed, after)) : after.Written := by
  rw [RecordState.upsert] at upserted
  split at upserted
  · simp at upserted
  · obtain rfl := congrArg Prod.snd (Except.ok.inj upserted)
    refine written.write fun key entry found => ?_
    rw [State.upsertEntry_entries] at found
    split at found
    · rename_i same
      obtain rfl := Option.some.inj found
      exact Or.inr ⟨same.symm, ⟨keyNamespace, _, _, _⟩, same.symm⟩
    · exact Or.inl found

end Writes

def tombstones (keyNamespace : String) (records : List SyncRecord) : List (String × Option Nat) :=
  (records.filter (·.tombstone)).map fun record => (record.entryKey keyNamespace, record.updatedAt)

def timestamped (tombstones : List (String × Option Nat)) : List (String × Nat) :=
  tombstones.filterMap fun tombstone => tombstone.2.map (tombstone.1, ·)

def aged (policy : RecordCompactionPolicy) (now : Nat) (tombstones : List (String × Option Nat)) :
    List String :=
  match policy.tombstoneMaxAgeSecs with
  | none => []
  | some maxAge => (tombstones.filter fun tombstone =>
      tombstone.2.any fun updatedAt => maxAge ≤ now - updatedAt).map Prod.fst

def overflow (policy : RecordCompactionPolicy) (candidates : List (String × Nat)) : List String :=
  match policy.maxTombstones with
  | none => []
  | some maxTombstones =>
      if maxTombstones < candidates.length then
        ((Surplus.byAge Prod.snd candidates).take (candidates.length - maxTombstones)).map Prod.fst
      else []

/-- `compact` at this time; `dedup` is that of a sorted list. -/
def compact {V : Type} [PayloadCodec V] (keyNamespace : String) (policy : RecordCompactionPolicy)
    (now : Nat) (state : State V) : Except Error RecordCompactionSummary × State V :=
  match RecordView.snapshot keyNamespace state with
  | .error error => (.error error, state)
  | .ok snapshot =>
      let tombstones := tombstones keyNamespace snapshot
      let toRemove := aged policy now tombstones
      let candidates := (timestamped tombstones).filter fun candidate => candidate.1 ∉ toRemove
      let toRemove := toRemove ++ overflow policy candidates
      let (removed, state) := state.removeAll (toRemove.insertionSort (· ≤ ·)).dedup
      (.ok {
        tombstonesTotal := tombstones.length
        tombstonesRemoved := removed
        tombstonesRetained := tombstones.length - removed }, state)

def expired (policy : RecordCompactionPolicy) (now : Nat) (tombstone : String × Nat) : Bool :=
  policy.tombstoneMaxAgeSecs.any fun maxAge => maxAge ≤ now - tombstone.2

def excess (policy : RecordCompactionPolicy) (now : Nat) (stamped : List (String × Nat)) :
    List (String × Nat) :=
  match policy.maxTombstones with
  | none => []
  | some maxTombstones => Surplus.surplus Prod.snd maxTombstones
      (stamped.filter fun tombstone => !expired policy now tombstone)

def selected (policy : RecordCompactionPolicy) (now : Nat) (stamped : List (String × Nat)) :
    List (String × Nat) :=
  stamped.filter (expired policy now) ++ excess policy now stamped

section Selection

variable {policy : RecordCompactionPolicy} {now : Nat} {tombstones : List (String × Option Nat)}
  {stamped : List (String × Nat)}

theorem aged_eq : aged policy now tombstones =
    ((timestamped tombstones).filter (expired policy now)).map Prod.fst := by
  have limit : expired policy now = fun tombstone : String × Nat =>
      policy.tombstoneMaxAgeSecs.any fun maxAge => decide (maxAge ≤ now - tombstone.2) := rfl
  rw [aged, limit]
  cases policy.tombstoneMaxAgeSecs with
  | none => simp
  | some maxAge =>
      induction tombstones with
      | nil => rfl
      | cons tombstone rest ih =>
          obtain ⟨key, time⟩ := tombstone
          cases time with
          | none => simpa [timestamped] using ih
          | some time =>
              by_cases old : maxAge ≤ now - time
              · simpa [timestamped, List.filter_cons, old] using ih
              · simpa [timestamped, List.filter_cons, old] using ih

variable (policy now) in
theorem overflow_eq (distinct : (stamped.map Prod.fst).Nodup) :
    overflow policy (stamped.filter fun candidate =>
        candidate.1 ∉ (stamped.filter (expired policy now)).map Prod.fst) =
      (excess policy now stamped).map Prod.fst := by
  have fresh : (stamped.filter fun candidate =>
      candidate.1 ∉ (stamped.filter (expired policy now)).map Prod.fst) =
      stamped.filter fun tombstone => !expired policy now tombstone := by
    refine List.filter_congr fun candidate member => ?_
    have same : candidate.1 ∈ (stamped.filter (expired policy now)).map Prod.fst ↔
        expired policy now candidate = true := by
      constructor
      · intro listed
        obtain ⟨other, old, key⟩ := List.mem_map.mp listed
        obtain ⟨present, aged⟩ := List.mem_filter.mp old
        exact List.inj_on_of_nodup_map distinct present member key ▸ aged
      · exact fun old => List.mem_map_of_mem (List.mem_filter.mpr ⟨member, old⟩)
    simp only [same]
    cases expired policy now candidate <;> rfl
  rw [fresh, overflow, excess]
  cases policy.maxTombstones with
  | none => rfl
  | some maxTombstones =>
      dsimp only
      split
      · rfl
      · rename_i few
        rw [Surplus.surplus, Nat.sub_eq_zero_of_le (not_lt.mp few), List.take_zero]
        rfl

theorem excess_fresh {tombstone : String × Nat} (member : tombstone ∈ excess policy now stamped) :
    tombstone ∈ stamped ∧ expired policy now tombstone = false := by
  rw [excess] at member
  split at member
  · exact absurd member List.not_mem_nil
  · obtain ⟨listed, fresh⟩ := List.mem_filter.mp (Surplus.mem_of_surplus member)
    exact ⟨listed, by simpa using fresh⟩

theorem selected_subset {tombstone : String × Nat} (member : tombstone ∈ selected policy now stamped) :
    tombstone ∈ stamped := by
  rcases List.mem_append.mp member with old | many
  · exact (List.mem_filter.mp old).1
  · exact (excess_fresh many).1

theorem selected_nodup (distinct : (stamped.map Prod.fst).Nodup) :
    ((selected policy now stamped).map Prod.fst).Nodup := by
  have whole : stamped.Nodup := List.Nodup.of_map _ distinct
  have many : (excess policy now stamped).Nodup := by
    rw [excess]
    split
    · exact List.nodup_nil
    · exact Surplus.surplus_nodup (whole.filter _)
  have apart : (selected policy now stamped).Nodup := by
    refine List.nodup_append.mpr ⟨whole.filter _, many, ?_⟩
    rintro tombstone old other excessive rfl
    have fresh := (excess_fresh excessive).2
    rw [(List.mem_filter.mp old).2] at fresh
    exact absurd fresh (by simp)
  exact apart.map_on fun left leftIn right rightIn same => List.inj_on_of_nodup_map distinct
    (selected_subset leftIn) (selected_subset rightIn) same

theorem excess_older {old kept : String × Nat} (goes : old ∈ excess policy now stamped)
    (member : kept ∈ stamped) (stays : kept ∉ selected policy now stamped) : old.2 ≤ kept.2 := by
  obtain ⟨young, within⟩ := not_or.mp (mt List.mem_append.mpr stays)
  have fresh : kept ∈ stamped.filter fun tombstone => !expired policy now tombstone := by
    refine List.mem_filter.mpr ⟨member, ?_⟩
    have alive : ¬expired policy now kept = true :=
      fun aged => young (List.mem_filter.mpr ⟨member, aged⟩)
    simpa using alive
  rw [excess] at goes within
  cases maximum : policy.maxTombstones with
  | none => simp [maximum] at goes
  | some maxTombstones =>
      simp only [maximum] at goes within
      exact Surplus.surplus_older goes fresh within

theorem length_kept (distinct : (stamped.map Prod.fst).Nodup) {maxTombstones : Nat}
    (maximum : policy.maxTombstones = some maxTombstones) :
    (stamped.filter fun tombstone => tombstone ∉ selected policy now stamped).length =
      min maxTombstones (stamped.filter fun tombstone => !expired policy now tombstone).length := by
  have whole : stamped.Nodup := List.Nodup.of_map _ distinct
  have retained := Surplus.length_retained Prod.snd maxTombstones
    (whole.filter fun tombstone => !expired policy now tombstone)
  rw [← retained, List.filter_filter]
  refine congrArg List.length (List.filter_congr fun tombstone member => ?_)
  have either : tombstone ∈ selected policy now stamped ↔ expired policy now tombstone = true ∨
      tombstone ∈ Surplus.surplus Prod.snd maxTombstones
        (stamped.filter fun tombstone => !expired policy now tombstone) := by
    rw [selected, List.mem_append, List.mem_filter, excess, maximum]
    exact or_congr_left (and_iff_right member)
  simp [either, Bool.and_comm]

end Selection

end RecordState

section Records

variable {V : Type} [PayloadCodec V] {keyNamespace : String} {state : State V}
  {entries : List (Entry V)} {records : List SyncRecord}

theorem State.Written.entryKey (written : state.Written) {entry : Entry V}
    (member : entry ∈ state.snapshot) {record : SyncRecord}
    (decoded : entryToRecord entry keyNamespace = .ok (some record)) :
    record.entryKey keyNamespace = entry.key := by
  obtain ⟨key, found⟩ := BTreeMap.mem_valueList.mp member
  obtain rfl := written.keyed key entry found
  rw [entryToRecord] at decoded
  cases parsed : parseRecordKey entry.key with
  | error error => simp [parsed] at decoded
  | ok parts =>
      cases parts with
      | none => simp [parsed] at decoded
      | some parts =>
          simp only [parsed] at decoded
          split at decoded
          · simp at decoded
          · rename_i own
            rw [not_not] at own
            split at decoded
            · simp at decoded
            · obtain rfl := Option.some.inj (Except.ok.inj decoded)
              exact own ▸ written.canonical _ entry parts found parsed

omit [PayloadCodec V] in
theorem State.Keyed.snapshot_keys (keyed : state.Keyed) :
    (state.snapshot.map Entry.key).Nodup := by
  have keys : state.snapshot.map Entry.key = state.entries.toList.map Prod.fst := by
    rw [State.snapshot, BTreeMap.valueList, List.map_map]
    refine List.map_congr_left fun item member => ?_
    exact keyed item.1 item.2 (Std.ExtTreeMap.mem_toList_iff_getElem?_eq_some.mp member)
  rw [keys]
  refine List.pairwise_map.mpr (Std.ExtTreeMap.distinct_keys_toList.imp fun different same => ?_)
  exact different (by simp [same])

theorem recordsOf_keys (named : ∀ entry ∈ entries, ∀ record,
      entryToRecord entry keyNamespace = .ok (some record) →
        record.entryKey keyNamespace = entry.key)
    (read : recordsOf keyNamespace entries = .ok records) (keep : String → Bool) :
    (records.map (·.entryKey keyNamespace)).Sublist (entries.map Entry.key) ∧
      recordsOf keyNamespace (entries.filter fun entry => keep entry.key) =
        .ok (records.filter fun record => keep (record.entryKey keyNamespace)) := by
  induction entries generalizing records with
  | nil =>
      obtain rfl := Except.ok.inj read
      exact ⟨List.Sublist.refl _, rfl⟩
  | cons entry rest ih =>
      have later {more : List SyncRecord} (rested : recordsOf keyNamespace rest = .ok more) :=
        ih (fun other member => named other (List.mem_cons_of_mem _ member)) rested
      simp only [recordsOf] at read
      split at read
      · simp at read
      · rename_i decoded
        obtain ⟨keys, kept⟩ := later read
        refine ⟨keys.trans (List.sublist_cons_self _ _), ?_⟩
        rw [List.filter_cons]
        split
        · simp only [recordsOf, decoded, kept]
        · exact kept
      · rename_i record decoded
        cases rested : recordsOf keyNamespace rest with
        | error error => simp [rested, Except.map] at read
        | ok more =>
            rw [rested] at read
            obtain rfl := Except.ok.inj read
            obtain ⟨keys, kept⟩ := later rested
            have key := named entry List.mem_cons_self record decoded
            refine ⟨by simpa [key] using keys, ?_⟩
            rw [List.filter_cons, List.filter_cons, key]
            split
            · simp only [recordsOf, decoded, kept, Except.map]
            · exact kept

theorem State.Written.keys_nodup (written : state.Written)
    (read : RecordView.snapshot keyNamespace state = .ok records) :
    (records.map (·.entryKey keyNamespace)).Nodup := by
  rw [snapshot_recordsOf] at read
  exact written.keyed.snapshot_keys.sublist (recordsOf_keys
    (fun entry member record decoded => written.entryKey member decoded) read fun _ => true).1

theorem State.Written.snapshot_without {after : State V} {keys : List String}
    (written : state.Written) (read : RecordView.snapshot keyNamespace state = .ok records)
    (without : state.Without after keys) : RecordView.snapshot keyNamespace after =
      .ok (records.filter fun record => record.entryKey keyNamespace ∉ keys) := by
  rw [snapshot_recordsOf] at read ⊢
  have rest : after.entries = state.entries.filter fun key _ => decide (key ∉ keys) := by
    refine Std.ExtTreeMap.ext_getElem? fun {key} => ?_
    rw [without.entries, Std.ExtTreeMap.getElem?_filter']
    by_cases gone : key ∈ keys
    · simp [gone]
    · rw [if_neg gone]
      cases state.entries[key]? with
      | none => rfl
      | some entry => exact (Option.filter_some_pos (by simpa using gone)).symm
  have snapshot : after.snapshot = state.snapshot.filter fun entry => decide (entry.key ∉ keys) := by
    rw [snapshot_filter written.keyed fun key => decide (key ∉ keys), State.snapshot, rest]
  rw [snapshot]
  exact (recordsOf_keys (fun entry member record decoded => written.entryKey member decoded) read
    fun key => decide (key ∉ keys)).2

end Records

namespace RecordState

variable {V : Type} [PayloadCodec V] {keyNamespace : String} {policy : RecordCompactionPolicy}
  {now : Nat} {state after : State V} {records : List SyncRecord}

def stamped (keyNamespace : String) (records : List SyncRecord) : List (String × Nat) :=
  timestamped (tombstones keyNamespace records)

def selectedKeys (keyNamespace : String) (policy : RecordCompactionPolicy) (now : Nat)
    (records : List SyncRecord) : List String :=
  (selected policy now (stamped keyNamespace records)).map Prod.fst

structure Compacted (keyNamespace : String) (policy : RecordCompactionPolicy) (now : Nat)
    (records : List SyncRecord) (before after : State V) (summary : RecordCompactionSummary) :
    Prop where
  without : before.Without after (selectedKeys keyNamespace policy now records)
  touched : ∀ key, after.entries[key]? ≠ before.entries[key]? → ∃ record ∈ records,
    record.entryKey keyNamespace = key ∧ record.tombstone = true ∧ record.updatedAt ≠ none
  snapshot : RecordView.snapshot keyNamespace after = .ok (records.filter fun record =>
    record.entryKey keyNamespace ∉ selectedKeys keyNamespace policy now records)
  older : ∀ kept ∈ stamped keyNamespace records,
    kept ∉ selected policy now (stamped keyNamespace records) →
      ∀ old ∈ excess policy now (stamped keyNamespace records), old.2 ≤ kept.2
  kept : ∀ maxTombstones, policy.maxTombstones = some maxTombstones →
    ((stamped keyNamespace records).filter fun tombstone =>
        tombstone ∉ selected policy now (stamped keyNamespace records)).length =
      min maxTombstones ((stamped keyNamespace records).filter fun tombstone =>
        !expired policy now tombstone).length
  total : summary.tombstonesTotal = (records.filter (·.tombstone)).length
  removed : summary.tombstonesRemoved = (selectedKeys keyNamespace policy now records).length
  retained : summary.tombstonesRetained = ((records.filter fun record =>
    record.entryKey keyNamespace ∉ selectedKeys keyNamespace policy now records).filter
      (·.tombstone)).length

theorem timestamped_keys (tombstones : List (String × Option Nat)) :
    ((timestamped tombstones).map Prod.fst).Sublist (tombstones.map Prod.fst) := by
  induction tombstones with
  | nil => exact List.Sublist.refl _
  | cons tombstone rest ih =>
      obtain ⟨key, time⟩ := tombstone
      cases time with
      | none => exact ih.trans (List.sublist_cons_self _ _)
      | some time => exact ih.cons_cons key

theorem mem_stamped {tombstone : String × Nat} (member : tombstone ∈ stamped keyNamespace records) :
    ∃ record ∈ records, record.entryKey keyNamespace = tombstone.1 ∧ record.tombstone = true ∧
      record.updatedAt = some tombstone.2 := by
  obtain ⟨⟨key, time⟩, listed, found⟩ := List.mem_filterMap.mp member
  obtain ⟨record, dead, same⟩ := List.mem_map.mp listed
  obtain ⟨read, tombstoned⟩ := List.mem_filter.mp dead
  obtain ⟨time, written, rfl⟩ := Option.map_eq_some_iff.mp found
  obtain ⟨rfl, rfl⟩ := Prod.mk.inj same
  exact ⟨record, read, rfl, tombstoned, written⟩

theorem stamped_nodup (distinct : (records.map (·.entryKey keyNamespace)).Nodup) :
    ((stamped keyNamespace records).map Prod.fst).Nodup := by
  refine (timestamped_keys _).nodup ?_
  rw [tombstones, List.map_map]
  exact (List.filter_sublist.map _).nodup distinct

theorem length_retained (distinct : (records.map (·.entryKey keyNamespace)).Nodup) :
    ((records.filter fun record => record.entryKey keyNamespace ∉
        selectedKeys keyNamespace policy now records).filter (·.tombstone)).length =
      (records.filter (·.tombstone)).length -
        (selectedKeys keyNamespace policy now records).length := by
  have gone : ((records.filter (·.tombstone)).filter fun record => record.entryKey keyNamespace ∈
      selectedKeys keyNamespace policy now records).length =
        (selectedKeys keyNamespace policy now records).length := by
    rw [← List.length_map (·.entryKey keyNamespace)]
    refine List.Perm.length_eq ((List.perm_ext_iff_of_nodup ?_
      (selected_nodup (stamped_nodup distinct))).mpr fun key => ?_)
    · exact ((List.filter_sublist.trans List.filter_sublist).map _).nodup distinct
    · simp only [List.mem_map, List.mem_filter, decide_eq_true_eq]
      constructor
      · rintro ⟨record, ⟨-, chosen⟩, rfl⟩
        exact List.mem_map.mp chosen
      · rintro ⟨tombstone, chosen, rfl⟩
        obtain ⟨record, read, key, dead, -⟩ := mem_stamped (selected_subset chosen)
        exact ⟨record, ⟨⟨read, dead⟩, key ▸ List.mem_map_of_mem chosen⟩, key⟩
  have both := List.length_eq_length_filter_add (l := records.filter (·.tombstone))
    fun record => decide (record.entryKey keyNamespace ∈ selectedKeys keyNamespace policy now records)
  rw [List.filter_filter] at gone both ⊢
  rw [List.filter_filter] at both
  have same : (records.filter fun record => record.tombstone &&
      decide (record.entryKey keyNamespace ∉ selectedKeys keyNamespace policy now records)) =
      records.filter fun record => !decide (record.entryKey keyNamespace ∈
        selectedKeys keyNamespace policy now records) && record.tombstone :=
    List.filter_congr fun record _ => by simp [Bool.and_comm]
  rw [same]
  omega

/-- A compaction ends with the error of the first record that cannot be read, or it removes what the
policy selects. -/
theorem compact_compacts (written : state.Written) :
    (∀ error, RecordView.snapshot keyNamespace state = .error error →
      compact keyNamespace policy now state = (.error error, state)) ∧
    ∀ records, RecordView.snapshot keyNamespace state = .ok records → ∃ summary after,
      compact keyNamespace policy now state = (.ok summary, after) ∧
        Compacted keyNamespace policy now records state after summary := by
  refine ⟨fun error unread => by simp only [compact, unread], fun records read => ?_⟩
  have distinct := written.keys_nodup read
  have nodup := stamped_nodup distinct
  have chosen : aged policy now (tombstones keyNamespace records) ++ overflow policy
      ((timestamped (tombstones keyNamespace records)).filter fun candidate =>
        candidate.1 ∉ aged policy now (tombstones keyNamespace records)) =
      selectedKeys keyNamespace policy now records := by
    have many := overflow_eq policy now nodup
    rw [stamped] at many
    rw [aged_eq, many, ← List.map_append]
    rfl
  have apart : (selectedKeys keyNamespace policy now records).Nodup := selected_nodup nodup
  have perm : (((selectedKeys keyNamespace policy now records).insertionSort (· ≤ ·)).dedup).Perm
      (selectedKeys keyNamespace policy now records) := by
    have sorted := List.perm_insertionSort (· ≤ ·) (selectedKeys keyNamespace policy now records)
    rw [(sorted.nodup_iff.mpr apart).dedup]
    exact sorted
  have present : ∀ key ∈ ((selectedKeys keyNamespace policy now records).insertionSort
      (· ≤ ·)).dedup, state.entries[key]? ≠ none := by
    intro key member
    obtain ⟨tombstone, listed, rfl⟩ := List.mem_map.mp (perm.mem_iff.mp member)
    obtain ⟨record, known, key, -⟩ := mem_stamped (selected_subset listed)
    obtain ⟨entry, stored, decoded⟩ := snapshot_mem read record known
    obtain ⟨place, found⟩ := BTreeMap.mem_valueList.mp stored
    rw [← key, written.entryKey stored decoded, written.keyed place entry found, found]
    exact Option.some_ne_none entry
  obtain ⟨count, without⟩ := state.removeAll_without (perm.nodup_iff.mpr apart) present
  have gone : state.Without (state.removeAll ((selectedKeys keyNamespace policy now
      records).insertionSort (· ≤ ·)).dedup).2 (selectedKeys keyNamespace policy now records) :=
    without.congr fun key => perm.mem_iff
  have ran : compact keyNamespace policy now state = (.ok {
      tombstonesTotal := (tombstones keyNamespace records).length
      tombstonesRemoved := (state.removeAll ((selectedKeys keyNamespace policy now
        records).insertionSort (· ≤ ·)).dedup).1
      tombstonesRetained := (tombstones keyNamespace records).length - (state.removeAll
        ((selectedKeys keyNamespace policy now records).insertionSort (· ≤ ·)).dedup).1 },
      (state.removeAll ((selectedKeys keyNamespace policy now records).insertionSort
        (· ≤ ·)).dedup).2) := by
    simp only [compact, read, chosen]
  refine ⟨_, _, ran, ⟨gone, ?_, written.snapshot_without read gone,
    fun kept member stays old goes => excess_older goes member stays,
    fun maxTombstones maximum => length_kept nodup maximum, ?_, ?_, ?_⟩⟩
  · intro key changed
    rw [gone.entries] at changed
    split at changed
    · rename_i listed
      obtain ⟨tombstone, chosen, rfl⟩ := List.mem_map.mp listed
      obtain ⟨record, known, key, dead, time⟩ := mem_stamped (selected_subset chosen)
      exact ⟨record, known, key, dead, by simp [time]⟩
    · exact absurd rfl changed
  · exact List.length_map _
  · exact count.trans perm.length_eq
  · rw [length_retained distinct]
    dsimp only
    rw [count, perm.length_eq, tombstones, List.length_map]

end RecordState

section Desk

def compactedNote (id : String) (tombstone : Bool) (updatedAt : Option Nat) : SyncRecord where
  schema := "notes"
  entity := "note"
  id := id
  fields := ∅
  tombstone := tombstone
  clock := {
    counter := 0
    deviceId := "" }
  updatedAt := updatedAt
  fieldClocks := ∅

def fiftySeconds : RecordCompactionPolicy where
  tombstoneMaxAgeSecs := some 50
  maxTombstones := some 1

def withNotes (desk : State Json) (notes : List SyncRecord) : State Json :=
  notes.foldl (fun state note =>
    match RecordState.set "app" state note with
    | .ok (_, after) => after
    | .error _ => state) desk

def oldTombstone : SyncRecord := compactedNote "2" true (some 10)

def mixedNotes : List SyncRecord :=
  [compactedNote "1" false (some 10), oldTombstone, compactedNote "3" true (some 60),
    compactedNote "4" true (some 70), compactedNote "5" true none]

namespace RecordState

theorem withNotes_written {desk : State Json} (written : desk.Written) (notes : List SyncRecord) :
    (withNotes desk notes).Written := by
  induction notes generalizing desk with
  | nil => exact written
  | cons note rest ih =>
      rw [withNotes, List.foldl_cons]
      refine ih ?_
      split
      · rename_i entry after wrote
        exact set_written written wrote
      · exact written

theorem compact_removes_deleted : ∃ summary after records,
    compact "app" fiftySeconds 100 (withNotes (State.new "desk" "first") mixedNotes) =
      (.ok summary, after) ∧
      summary.tombstonesTotal = 4 ∧ summary.tombstonesRemoved = 2 ∧
      RecordView.snapshot "app" after = .ok records ∧ records.map (·.id) = ["1", "4", "5"] := by
  have facts : (RecordView.snapshot "app" (withNotes (State.new "desk" "first") mixedNotes)).map
      (fun records => ((records.filter (·.tombstone)).length,
        (selectedKeys "app" fiftySeconds 100 records).length,
        (records.filter fun record => record.entryKey "app" ∉
          selectedKeys "app" fiftySeconds 100 records).map (·.id))) =
        .ok (4, 2, ["1", "4", "5"]) := by decide +kernel
  cases read : RecordView.snapshot "app" (withNotes (State.new "desk" "first") mixedNotes) with
  | error error =>
      rw [read] at facts
      exact absurd facts (by simp [Except.map])
  | ok records =>
      rw [read] at facts
      obtain ⟨total, removed, kept⟩ : _ ∧ _ ∧ _ := by
        simpa only [Except.map, Except.ok.injEq, Prod.mk.injEq] using facts
      obtain ⟨summary, after, ran, done⟩ :=
        (compact_compacts (withNotes_written (.new "desk" "first") mixedNotes)).2 records read
      exact ⟨summary, after, _, ran, done.total.trans total, done.removed.trans removed,
        done.snapshot, kept⟩

/-- A note whose weight is no number keeps the deleted note in the state. -/
theorem compact_unreadable : (withNotes (measuredDesk 0x7FF8000000000000) [oldTombstone]).Written ∧
    compact "app" fiftySeconds 100 (withNotes (measuredDesk 0x7FF8000000000000) [oldTombstone]) =
      (.error (.serde "invalid type"),
        withNotes (measuredDesk 0x7FF8000000000000) [oldTombstone]) ∧
    ((RecordState.get "app" (withNotes (measuredDesk 0x7FF8000000000000) [oldTombstone]) "notes"
      "note" "2").map
      fun found => found.map fun record => (record.tombstone, record.updatedAt)) =
        .ok (some (true, some 10)) := by
  refine ⟨withNotes_written ?_ _, ?_, by decide +kernel⟩
  · obtain ⟨entry, wrote⟩ := measured_ok 0x7FF8000000000000
    exact set_written (.new "desk" "first") wrote
  · have unread : RecordView.snapshot "app"
        (withNotes (measuredDesk 0x7FF8000000000000) [oldTombstone]) =
        .error (.serde "invalid type") := by decide +kernel
    simp only [compact, unread]

end RecordState

end Desk

end LibreSync
