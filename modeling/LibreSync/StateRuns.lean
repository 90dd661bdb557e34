import LibreSync.Lib.Transition
import LibreSync.RecordJson
import LibreSync.Writes

/-!
The state file, and runs of the state's operations: local writes, entries from
elsewhere, removals, and saving and loading.
-/

namespace LibreSync

def stringOfJson : Json → Except Error String
  | .string value => .ok value
  | _ => FieldValue.invalid "expected a string"

def natOfJson (json : Json) : Except Error Nat :=
  match json.asNat with
  | some value => .ok value
  | none => FieldValue.invalid "expected u64"

def requiredField {α : Type} (read : Json → Except Error α) (name : String) :
    Option Json → Except Error α
  | some content => read content
  | none => FieldValue.invalid ("missing field " ++ name)

theorem mapOfJson_ok {ν : Type} {read : Json → Except Error ν} {write : ν → Json}
    (reads : ∀ value, read (write value) = .ok value) (map : BTreeMap String ν) :
    mapOfJson read (mapJson write map) = .ok map := by
  have each : ∀ value, ReadIf true (read (write value)) value := reads
  exact (mapOfJson_mapJson each map).ok_iff.mpr (by simp)

theorem natOfJson_nat (value : Nat) : natOfJson (.nat value) = .ok value := by
  simp [natOfJson]

theorem stringOfJson_string (value : String) : stringOfJson (.string value) = .ok value := rfl

namespace Entry

def toJson (entry : Entry Bytes) : Json :=
  .object [("clock", entry.clock.toJson), ("key", .string entry.key),
    ("value", .array (entry.value.map FieldValue.byteJson))]

def valueOfJson : Json → Except Error Bytes
  | .array items => FieldValue.bytesOfJson items
  | _ => FieldValue.invalid "expected a sequence"

def ofParts (key value clock : Option Json) : Except Error (Entry Bytes) := do
  let key ← requiredField stringOfJson "key" key
  let value ← requiredField valueOfJson "value" value
  let clock ← requiredField LamportClock.ofJson "clock" clock
  return { key, value, clock }

def ofJson : Json → Except Error (Entry Bytes)
  | .object members =>
      ofParts (members.lookup "key") (members.lookup "value") (members.lookup "clock")
  | .array [key, value, clock] => ofParts (some key) (some value) (some clock)
  | _ => FieldValue.invalid "expected struct Entry"

theorem ofJson_toJson (entry : Entry Bytes) : ofJson entry.toJson = .ok entry := by
  have value : valueOfJson (.array (entry.value.map FieldValue.byteJson)) = .ok entry.value :=
    FieldValue.bytesOfJson_byteJson entry.value
  have parts : ofJson entry.toJson = ofParts (some (.string entry.key))
      (some (.array (entry.value.map FieldValue.byteJson))) (some entry.clock.toJson) := by
    simp [toJson, ofJson, List.lookup]
  rw [parts, ofParts]
  simp only [requiredField, stringOfJson, value, LamportClock.ofJson_toJson]
  rfl

theorem depth_toJson (entry : Entry Bytes) : entry.toJson.depth ≤ 2 := by
  have value : Json.depthItems (entry.value.map FieldValue.byteJson) ≤ 0 := by
    rw [Json.depthItems_le, List.forall_mem_map]
    exact fun byte _ => le_rfl
  have clock := entry.clock.depth_toJson
  simp only [toJson, Json.depth, Json.depthMembers]
  omega

theorem floats_toJson {reads : FiniteBits → Bool} (entry : Entry Bytes) :
    entry.toJson.floats reads = true := by
  have value : Json.floatsItems reads (entry.value.map FieldValue.byteJson) = true := by
    rw [Json.floatsItems_iff, List.forall_mem_map]
    exact fun byte _ => rfl
  simp [toJson, Json.floats, Json.floatsMembers, entry.clock.floats_toJson, value]

end Entry

namespace PeerCursor

def toJson (cursor : PeerCursor) : Json :=
  .object [("clock", .nat cursor.clock), ("epoch", .string cursor.epoch)]

def ofParts (epoch clock : Option Json) : Except Error PeerCursor := do
  let epoch ← requiredField stringOfJson "epoch" epoch
  let clock ← requiredField natOfJson "clock" clock
  return { epoch, clock }

def ofJson : Json → Except Error PeerCursor
  | .object members => ofParts (members.lookup "epoch") (members.lookup "clock")
  | .array [epoch, clock] => ofParts (some epoch) (some clock)
  | _ => FieldValue.invalid "expected struct PeerCursor"

theorem ofJson_toJson (cursor : PeerCursor) : ofJson cursor.toJson = .ok cursor := by
  have parts : ofJson cursor.toJson = ofParts (some (.string cursor.epoch))
      (some (.nat cursor.clock)) := by
    simp [toJson, ofJson, List.lookup]
  rw [parts, ofParts]
  simp only [requiredField, stringOfJson, natOfJson_nat]
  rfl

theorem depth_toJson (cursor : PeerCursor) : cursor.toJson.depth = 1 := by
  simp [toJson, Json.depth, Json.depthMembers]

theorem floats_toJson {reads : FiniteBits → Bool} (cursor : PeerCursor) :
    cursor.toJson.floats reads = true := by
  simp [toJson, Json.floats, Json.floatsMembers]

end PeerCursor

namespace State

/-- `Serialize for State`, which skips the inbound origin. -/
def toJson (state : State Bytes) : Json :=
  .object [("counter", .nat state.counter), ("device_id", .string state.deviceId),
    ("entries", mapJson Entry.toJson state.entries), ("epoch", .string state.epoch),
    ("origins", mapJson .string state.origins),
    ("peer_cursors", mapJson PeerCursor.toJson state.peerCursors),
    ("sequence", .nat state.sequence), ("sequences", mapJson .nat state.sequences)]

def ofParts (deviceId counter entries sequence sequences origins peerCursors epoch : Option Json) :
    Except Error (State Bytes) := do
  let deviceId ← requiredField stringOfJson "device_id" deviceId
  let counter ← requiredField natOfJson "counter" counter
  let entries ← requiredField (mapOfJson Entry.ofJson) "entries" entries
  let sequence ← RecordPayload.fieldOr natOfJson 0 sequence
  let sequences ← RecordPayload.fieldOr (mapOfJson natOfJson) ∅ sequences
  let origins ← RecordPayload.fieldOr (mapOfJson stringOfJson) ∅ origins
  let peerCursors ← RecordPayload.fieldOr (mapOfJson PeerCursor.ofJson) ∅ peerCursors
  let epoch ← RecordPayload.fieldOr stringOfJson "" epoch
  return {
    deviceId, counter, entries, sequence, sequences, origins, peerCursors, epoch
    inboundOrigin := none }

def ofJson : Json → Except Error (State Bytes)
  | .object members => ofParts (members.lookup "device_id") (members.lookup "counter")
      (members.lookup "entries") (members.lookup "sequence") (members.lookup "sequences")
      (members.lookup "origins") (members.lookup "peer_cursors") (members.lookup "epoch")
  | .array items =>
      if items.length ≤ 8 then
        ofParts items[0]? items[1]? items[2]? items[3]? items[4]? items[5]? items[6]? items[7]?
      else FieldValue.invalid "expected struct State"
  | _ => FieldValue.invalid "expected struct State"

theorem ofJson_toJson (state : State Bytes) :
    ofJson state.toJson = .ok { state with inboundOrigin := none } := by
  have parts : ofJson state.toJson = ofParts (some (.string state.deviceId))
      (some (.nat state.counter)) (some (mapJson Entry.toJson state.entries))
      (some (.nat state.sequence)) (some (mapJson .nat state.sequences))
      (some (mapJson .string state.origins)) (some (mapJson PeerCursor.toJson state.peerCursors))
      (some (.string state.epoch)) := by
    simp [toJson, ofJson, List.lookup]
  have entries := mapOfJson_ok Entry.ofJson_toJson state.entries
  have sequences := mapOfJson_ok natOfJson_nat state.sequences
  have origins := mapOfJson_ok stringOfJson_string state.origins
  have cursors := mapOfJson_ok PeerCursor.ofJson_toJson state.peerCursors
  rw [parts, ofParts]
  simp only [requiredField, RecordPayload.fieldOr, stringOfJson, natOfJson_nat, entries, sequences,
    origins, cursors]
  rfl

theorem depth_toJson (state : State Bytes) : state.toJson.depth < recursionLimit := by
  have entries : (mapJson Entry.toJson state.entries).depth ≤ 2 + 1 :=
    depth_mapJson_le.mpr fun _ entry _ => entry.depth_toJson
  have cursors : (mapJson PeerCursor.toJson state.peerCursors).depth ≤ 1 + 1 :=
    depth_mapJson_le.mpr fun _ cursor _ => cursor.depth_toJson.le
  have origins : (mapJson .string state.origins).depth ≤ 0 + 1 :=
    depth_mapJson_le.mpr fun _ _ _ => le_rfl
  have sequences : (mapJson .nat state.sequences).depth ≤ 0 + 1 :=
    depth_mapJson_le.mpr fun _ number _ => (Json.depth_nat number).le
  simp only [toJson, Json.depth, Json.depthMembers, Json.depth_nat, recursionLimit]
  omega

theorem floats_toJson {reads : FiniteBits → Bool} (state : State Bytes) :
    state.toJson.floats reads = true := by
  simp [toJson, Json.floats, Json.floatsMembers, floats_mapJson, Entry.floats_toJson,
    PeerCursor.floats_toJson]

section Normalize

variable {V : Type}

def assignSequence (state : State V) (key : String) : State V :=
  { state with
    sequence := saturatingSucc state.sequence
    sequences := state.sequences.insert key (saturatingSucc state.sequence) }

/-- `normalize`, with the random epoch as an argument. -/
def normalize (state : State V) (epoch : String) : State V :=
  let state := if state.epoch = "" then { state with epoch := epoch } else state
  let state := if state.sequence = 0 then { state with sequence := 1 } else state
  let missing := (state.entries.toList.map Prod.fst).filter fun key => !state.sequences.contains key
  let state := missing.foldl assignSequence state
  { state with
    sequences := state.sequences.filter fun key _ => state.entries.contains key
    origins := state.origins.filter fun key _ => state.entries.contains key }

end Normalize

section File

variable {T : Type} [LawfulJsonText T Error recursionLimit]

def save (state : State Bytes) : T := JsonText.toText state.toJson

def load (contents : T) (epoch : String) : Except Error (State Bytes) :=
  ((JsonText.ofText contents).bind ofJson).map (·.normalize epoch)

theorem load_save (state : State Bytes) (epoch : String) :
    load (save state : T) epoch = .ok ({ state with inboundOrigin := none }.normalize epoch) := by
  have text : JsonText.ReadsBack T recursionLimit state.toJson :=
    LawfulJsonText.readsBack state.toJson state.floats_toJson
  rw [JsonText.ReadsBack, if_pos state.depth_toJson] at text
  simp only [load, save, text, Except.bind, ofJson_toJson, Except.map]

end File

/-- What holds of the counters and of the maps kept beside the entries. -/
structure Indexed {V : Type} (state : State V) : Prop extends state.WellFormed where
  listed : ∀ (key : String) (sequence : Nat), state.sequences[key]? = some sequence →
    ∃ entry, state.entries[key]? = some entry
  distinct : ∀ (first second : String) (sequence : Nat), state.sequences[first]? = some sequence →
    state.sequences[second]? = some sequence → first = second
  owned : ∀ (key origin : String), state.origins[key]? = some origin →
    ∃ entry, state.entries[key]? = some entry

section Indexed

variable {V : Type} {state : State V}

theorem new_indexed (deviceId epoch : String) : (new deviceId epoch : State V).Indexed where
  toWellFormed := new_wellFormed deviceId epoch
  listed := by simp [new]
  distinct := by simp [new]
  owned := by simp [new]

theorem Indexed.withCounter (indexed : state.Indexed) {counter : Nat}
    (above : state.counter ≤ counter) : { state with counter := counter }.Indexed where
  toWellFormed := withCounter_wellFormed indexed.toWellFormed above
  listed := indexed.listed
  distinct := indexed.distinct
  owned := indexed.owned

theorem Indexed.raiseCounter (indexed : state.Indexed) (clock : LamportClock) :
    (state.raiseCounter clock).Indexed := by
  rw [raiseCounter_eq]
  exact indexed.withCounter (le_max_left _ _)

theorem Indexed.withOrigin (indexed : state.Indexed) (origin : Option String) :
    { state with inboundOrigin := origin }.Indexed where
  keyed := indexed.keyed
  sequenced := indexed.sequenced
  numbered := indexed.numbered
  counted := indexed.counted
  started := indexed.started
  listed := indexed.listed
  distinct := indexed.distinct
  owned := indexed.owned

theorem insertEntry_lists (state : State V) (entry : Entry V) (origin : Option String) {key : String}
    (other : key ≠ entry.key → ∃ held, state.entries[key]? = some held) :
    ∃ held, (state.insertEntry entry origin).entries[key]? = some held := by
  by_cases same : key = entry.key
  · exact ⟨entry, by rw [insertEntry_entries, if_pos same]⟩
  · obtain ⟨held, found⟩ := other same
    exact ⟨held, by rw [insertEntry_entries, if_neg same, found]⟩

theorem Indexed.insertEntry (indexed : state.Indexed) {entry : Entry V} (origin : Option String)
    (counted : entry.clock.counter ≤ state.counter)
    (below : (state.insertEntry entry origin).sequence < u64Max) :
    (state.insertEntry entry origin).Indexed := by
  have fresh : saturatingSucc state.sequence = state.sequence + 1 := by
    have next : saturatingSucc state.sequence < u64Max := below
    simp only [saturatingSucc] at next ⊢
    omega
  refine ⟨insertEntry_wellFormed indexed.toWellFormed origin counted below, ?_, ?_, ?_⟩
  · intro key sequence found
    refine insertEntry_lists state entry origin fun other => ?_
    rw [insertEntry_sequences, if_neg other] at found
    exact indexed.listed key sequence found
  · intro first second sequence left right
    rw [insertEntry_sequences] at left right
    -- The new sequence is above every old one.
    split at left
    · rename_i firstSame
      split at right
      · rename_i secondSame
        exact firstSame.trans secondSame.symm
      · have old := indexed.numbered second sequence right
        have new := Option.some.inj left
        omega
    · split at right
      · have old := indexed.numbered first sequence left
        have new := Option.some.inj right
        omega
      · exact indexed.distinct first second sequence left right
  · intro key owner found
    refine insertEntry_lists state entry origin fun other => ?_
    rw [insertEntry_origins, if_neg other] at found
    exact indexed.owned key owner found

theorem Indexed.set (indexed : state.Indexed) (key : String) (value : V)
    (room : state.counter < u64Max) (below : (state.set key value).2.sequence < u64Max) :
    (state.set key value).2.Indexed :=
  (indexed.withCounter (le_saturatingSucc room.le)).insertEntry none le_rfl below

theorem Indexed.remove (indexed : state.Indexed) (key : String) : (state.remove key).2.Indexed := by
  have entries : ∀ query : String, (state.remove key).2.entries[query]? =
      if query = key then none else state.entries[query]? := BTreeMap.get_erase state.entries key
  have sequences : ∀ query : String, (state.remove key).2.sequences[query]? =
      if query = key then none else state.sequences[query]? := BTreeMap.get_erase state.sequences key
  have origins : ∀ query : String, (state.remove key).2.origins[query]? =
      if query = key then none else state.origins[query]? := BTreeMap.get_erase state.origins key
  have left : ∀ {ν : Type} {query : String} {before : Option ν} {found : ν},
      (if query = key then none else before) = some found → query ≠ key ∧ before = some found := by
    intro ν query before found kept
    split at kept
    · simp at kept
    · rename_i other
      exact ⟨other, kept⟩
  refine ⟨⟨?_, ?_, ?_, ?_, indexed.started⟩, ?_, ?_, ?_⟩
  · intro query entry found
    exact indexed.keyed query entry (left (entries query ▸ found)).2
  · intro query entry found
    obtain ⟨other, before⟩ := left (entries query ▸ found)
    rw [sequences, if_neg other]
    exact indexed.sequenced query entry before
  · intro query sequence found
    exact indexed.numbered query sequence (left (sequences query ▸ found)).2
  · intro query entry found
    exact indexed.counted query entry (left (entries query ▸ found)).2
  · intro query sequence found
    obtain ⟨other, before⟩ := left (sequences query ▸ found)
    rw [entries, if_neg other]
    exact indexed.listed query sequence before
  · intro first second sequence one two
    exact indexed.distinct first second sequence (left (sequences first ▸ one)).2
      (left (sequences second ▸ two)).2
  · intro query origin found
    obtain ⟨other, before⟩ := left (origins query ▸ found)
    rw [entries, if_neg other]
    exact indexed.owned query origin before

theorem Indexed.applyEntry (indexed : state.Indexed) (entry : Entry V)
    (below : (state.applyEntry entry).2.sequence < u64Max) : (state.applyEntry entry).2.Indexed := by
  have raised := indexed.raiseCounter entry.clock
  rcases applyEntry_cases state entry with ⟨_, _, _, applied⟩ | ⟨_, applied⟩
  · rw [applied]
    exact raised
  · rw [applied] at below ⊢
    refine raised.insertEntry _ ?_ below
    rw [raiseCounter_eq]
    exact le_max_right _ _

theorem Indexed.upsertEntry [DecidableEq V] (indexed : state.Indexed) (entry : Entry V)
    (below : (state.upsertEntry entry).2.sequence < u64Max) :
    (state.upsertEntry entry).2.Indexed := by
  have raised := indexed.raiseCounter entry.clock
  rw [State.upsertEntry] at below ⊢
  split
  · exact raised
  · rename_i changed
    rw [if_neg changed] at below
    refine raised.insertEntry _ ?_ below
    rw [raiseCounter_eq]
    exact le_max_right _ _

theorem Indexed.mergeSnapshot (indexed : state.Indexed) (entries : List (Entry V))
    (below : (state.mergeSnapshot entries).2.sequence < u64Max) :
    (state.mergeSnapshot entries).2.Indexed := by
  induction entries generalizing state with
  | nil => exact indexed
  | cons entry rest ih =>
      rw [mergeSnapshot_cons] at below ⊢
      have later := (mergeSnapshot_writes (state.applyEntry entry).2 rest).grows below
      exact ih (indexed.applyEntry entry (later.trans_lt below)) below

theorem Indexed.normalize (indexed : state.Indexed) (epoch : String) :
    (state.normalize epoch).Indexed ∧ (state.normalize epoch).counter = state.counter ∧
      (state.normalize epoch).sequence = state.sequence ∧
      (state.normalize epoch).entries = state.entries := by
  let dated : State V := if state.epoch = "" then { state with epoch := epoch } else state
  have same : dated.entries = state.entries ∧ dated.sequences = state.sequences ∧
      dated.origins = state.origins ∧ dated.counter = state.counter ∧
      dated.sequence = state.sequence := by
    dsimp only [dated]
    split <;> exact ⟨rfl, rfl, rfl, rfl, rfl⟩
  have started : ¬dated.sequence = 0 := by
    have positive := indexed.started
    omega
  have assigned : ((dated.entries.toList.map Prod.fst).filter fun key =>
      !dated.sequences.contains key) = [] := by
    rw [List.filter_eq_nil_iff]
    intro key member
    obtain ⟨⟨found, entry⟩, listed, rfl⟩ := List.mem_map.mp member
    rw [Std.ExtTreeMap.mem_toList_iff_getElem?_eq_some, same.1] at listed
    obtain ⟨sequence, present⟩ := indexed.sequenced found entry listed
    simp [same.2.1, Std.ExtTreeMap.contains_eq_isSome_getElem?, present]
  have whole : state.normalize epoch = { dated with
      sequences := dated.sequences.filter fun key _ => dated.entries.contains key
      origins := dated.origins.filter fun key _ => dated.entries.contains key } := by
    have unfolded : state.normalize epoch = (let state := if dated.sequence = 0 then
        { dated with sequence := 1 } else dated
      let missing := (state.entries.toList.map Prod.fst).filter fun key =>
        !state.sequences.contains key
      let state := missing.foldl assignSequence state
      { state with
        sequences := state.sequences.filter fun key _ => state.entries.contains key
        origins := state.origins.filter fun key _ => state.entries.contains key }) := rfl
    rw [unfolded]
    simp only [if_neg started, assigned, List.foldl_nil]
  have kept : ∀ {ν : Type} {map : BTreeMap String ν} {key : String} {found : ν},
      (map.filter fun key _ => state.entries.contains key)[key]? = some found →
        map[key]? = some found ∧ ∃ entry, state.entries[key]? = some entry := by
    intro ν map key found present
    rw [Std.ExtTreeMap.getElem?_filter', Option.filter_eq_some_iff] at present
    refine ⟨present.1, Option.isSome_iff_exists.mp ?_⟩
    rw [← Std.ExtTreeMap.contains_eq_isSome_getElem?]
    exact present.2
  rw [whole, same.1, same.2.1, same.2.2.1]
  refine ⟨⟨⟨?_, ?_, ?_, ?_, ?_⟩, ?_, ?_, ?_⟩, same.2.2.2.1, same.2.2.2.2, rfl⟩
  · exact fun key entry found => indexed.keyed key entry (same.1 ▸ found)
  · intro key entry found
    have present : state.entries[key]? = some entry := same.1 ▸ found
    obtain ⟨sequence, numbered⟩ := indexed.sequenced key entry present
    refine ⟨sequence, ?_⟩
    have held : state.entries.contains key = true := by
      rw [Std.ExtTreeMap.contains_eq_isSome_getElem?, present]
      rfl
    rw [Std.ExtTreeMap.getElem?_filter', numbered]
    exact Option.filter_some_pos held
  · intro key sequence found
    exact (indexed.numbered key sequence (kept found).1).trans same.2.2.2.2.ge
  · intro key entry found
    exact (indexed.counted key entry (same.1 ▸ found)).trans same.2.2.2.1.ge
  · exact indexed.started.trans same.2.2.2.2.ge
  · exact fun key sequence found => same.1.symm ▸ (kept found).2
  · exact fun first second sequence left right =>
      indexed.distinct first second sequence (kept left).1 (kept right).1
  · exact fun key origin found => same.1.symm ▸ (kept found).2

end Indexed

inductive Operation (V : Type) where
  | set (key : String) (value : V)
  | applyEntry (entry : Entry V)
  | upsertEntry (entry : Entry V)
  | mergeSnapshot (entries : List (Entry V))
  | remove (key : String)

inductive Event where
  /-- An operation, alone or inside `with_inbound_origin`. -/
  | operate (origin : Option String) (operation : Operation Bytes)
  /-- The state is saved and loaded, by a process that draws this epoch. -/
  | reload (epoch : String)

section Runs

variable {V : Type} [DecidableEq V]

def perform (state : State V) : Operation V → State V
  | .set key value => (state.set key value).2
  | .applyEntry entry => (state.applyEntry entry).2
  | .upsertEntry entry => (state.upsertEntry entry).2
  | .mergeSnapshot entries => (state.mergeSnapshot entries).2
  | .remove key => (state.remove key).2

def Unsaturated (state : State V) : Prop := state.counter < u64Max ∧ state.sequence < u64Max

theorem Indexed.perform {state : State V} (indexed : state.Indexed) (room : state.counter < u64Max)
    (operation : Operation V) (below : (state.perform operation).sequence < u64Max) :
    (state.perform operation).Indexed := by
  cases operation with
  | set key value => exact indexed.set key value room below
  | applyEntry entry => exact indexed.applyEntry entry below
  | upsertEntry entry => exact indexed.upsertEntry entry below
  | mergeSnapshot entries => exact indexed.mergeSnapshot entries below
  | remove key => exact indexed.remove key

variable (T : Type) [LawfulJsonText T Error recursionLimit]

def step (state : State Bytes) : Event → Option (State Bytes)
  | .operate none operation => some (state.perform operation)
  | .operate (some origin) operation =>
      some (state.withInboundOrigin origin fun state => ((), state.perform operation)).2
  | .reload epoch => (load (state.save : T) epoch).toOption

/-- The step uses up no counter. -/
def Unexhausted (state : State Bytes) (event : Event) : Prop :=
  ∀ after, step T state event = some after → after.Unsaturated

variable {T}

theorem Indexed.step {before after : State Bytes} (indexed : before.Indexed)
    (room : before.Unsaturated)
    (event : Event) (stepped : step T before event = some after) (left : after.Unsaturated) :
    after.Indexed := by
  cases event with
  | operate origin operation =>
      cases origin with
      | none =>
          obtain rfl := Option.some.inj stepped
          exact indexed.perform room.1 operation left.2
      | some origin =>
          obtain rfl := Option.some.inj stepped
          exact ((indexed.withOrigin (some origin)).perform room.1 operation left.2).withOrigin _
  | reload epoch =>
      simp only [State.step, load_save] at stepped
      obtain rfl := Option.some.inj stepped
      exact ((indexed.withOrigin none).normalize epoch).1

theorem reaches_indexed {deviceId epoch : String} {state : State Bytes}
    (reached : Transition.Reaches (step T) (Unexhausted T) (State.new deviceId epoch) state) :
    state.Indexed ∧ state.Unsaturated := by
  refine reached.invariant (motive := fun state => state.Indexed ∧ state.Unsaturated)
    ⟨new_indexed deviceId epoch, (by decide : 0 < u64Max), (by decide : 1 < u64Max)⟩ ?_
  rintro before event after ⟨indexed, room⟩ unexhausted stepped
  have left := unexhausted after stepped
  exact ⟨indexed.step room event stepped left, left⟩

/--
In every run from a new state that uses up no counter: the counter dominates
every clock, the next local write is newer than every entry, the sequences are
those of the entries, one each and none ahead, and only entries have an origin.
-/
theorem reached_dominates {deviceId epoch : String} {state : State Bytes}
    (reached : Transition.Reaches (step T) (Unexhausted T) (State.new deviceId epoch) state) :
    (∀ (key : String) (entry : Entry Bytes), state.entries[key]? = some entry →
      entry.clock.counter ≤ state.counter) ∧
    (∀ (written : String) (value : Bytes) (key : String) (entry : Entry Bytes),
      state.entries[key]? = some entry → entry.clock < (state.set written value).1.clock) ∧
    (∀ key : String, (state.sequences[key]?).isSome = (state.entries[key]?).isSome) ∧
    (∀ (first second : String) (sequence : Nat), state.sequences[first]? = some sequence →
      state.sequences[second]? = some sequence → first = second) ∧
    (∀ (key : String) (sequence : Nat), state.sequences[key]? = some sequence →
      sequence ≤ state.sequence) ∧
    ∀ (key origin : String), state.origins[key]? = some origin →
      ∃ entry, state.entries[key]? = some entry := by
  obtain ⟨indexed, room⟩ := reaches_indexed reached
  refine ⟨indexed.counted, ?_, ?_, indexed.distinct, indexed.numbered, indexed.owned⟩
  · intro written value key entry found
    refine LamportClock.lt_of_counter_lt ?_
    have clock : (state.set written value).1.clock.counter = saturatingSucc state.counter := rfl
    rw [clock, saturatingSucc_eq room.1]
    exact Nat.lt_succ_of_le (indexed.counted key entry found)
  · intro key
    rw [Bool.eq_iff_iff, Option.isSome_iff_exists, Option.isSome_iff_exists]
    constructor
    · rintro ⟨sequence, found⟩
      exact indexed.listed key sequence found
    · rintro ⟨entry, found⟩
      exact indexed.sequenced key entry found

end Runs

section Sample

def restarted : State Bytes :=
  (({ ((State.new "desk" "first").set "alpha" [1]).2 with inboundOrigin := none } :
    State Bytes).normalize "second")

theorem reached_dominates_restarted :
    ∃ entry, restarted.entries["alpha"]? = some entry ∧
      entry.clock < (restarted.set "beta" [2]).1.clock := by
  have wrote : Unexhausted Json (State.new "desk" "first")
      (.operate none (.set "alpha" [1])) := by
    intro after stepped
    obtain rfl := Option.some.inj stepped
    exact ⟨by decide, by decide⟩
  have first : Transition.Reaches (step Json) (Unexhausted Json) (State.new "desk" "first")
      ((State.new "desk" "first").set "alpha" [1]).2 := Transition.Reaches.start.next wrote rfl
  have loaded : step Json ((State.new "desk" "first").set "alpha" [1]).2 (.reload "second") =
      some restarted := by
    simp only [step, load_save]
    rfl
  have restart : Unexhausted Json ((State.new "desk" "first").set "alpha" [1]).2
      (.reload "second") := by
    intro after stepped
    rw [loaded] at stepped
    obtain rfl := Option.some.inj stepped
    exact ⟨by decide +kernel, by decide +kernel⟩
  have present : (restarted.entries["alpha"]?).isSome = true := by decide +kernel
  obtain ⟨entry, found⟩ := Option.isSome_iff_exists.mp present
  exact ⟨entry, found,
    (reached_dominates (first.next restart loaded)).2.1 "beta" [2] "alpha" entry found⟩

end Sample

end State

end LibreSync
