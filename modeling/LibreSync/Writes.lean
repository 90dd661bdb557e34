import LibreSync.State

/-!
What a run of writes under one origin does to a state: keys it does not touch
keep their entry, sequence and origin; keys it touches get a fresh sequence.
-/

namespace LibreSync

namespace State

variable {V : Type}

structure WellFormed (state : State V) : Prop where
  keyed : ∀ (key : String) (entry : Entry V), state.entries[key]? = some entry → entry.key = key
  sequenced : ∀ (key : String) (entry : Entry V), state.entries[key]? = some entry →
    ∃ sequence, state.sequences[key]? = some sequence
  numbered : ∀ (key : String) (sequence : Nat), state.sequences[key]? = some sequence →
    sequence ≤ state.sequence
  counted : ∀ (key : String) (entry : Entry V), state.entries[key]? = some entry →
    entry.clock.counter ≤ state.counter
  started : 1 ≤ state.sequence

structure Untouched (before after : State V) (key : String) : Prop where
  entry : after.entries[key]? = before.entries[key]?
  sequence : after.sequences[key]? = before.sequences[key]?
  origin : after.origins[key]? = before.origins[key]?

structure Touched (origin : Option String) (before after : State V) (key : String) : Prop where
  fresh : ∃ sequence, after.sequences[key]? = some sequence ∧
    before.sequence < sequence ∧ sequence ≤ after.sequence
  origin : after.origins[key]? = origin

/-- `after` is reached from `before` by writes under `origin` alone. -/
structure Writes (origin : Option String) (before after : State V) : Prop where
  deviceId : after.deviceId = before.deviceId
  epoch : after.epoch = before.epoch
  peerCursors : after.peerCursors = before.peerCursors
  inboundOrigin : after.inboundOrigin = before.inboundOrigin
  counter : before.counter ≤ after.counter
  grows : after.sequence < u64Max → before.sequence ≤ after.sequence
  keys : after.sequence < u64Max → ∀ key,
    Untouched before after key ∨ Touched origin before after key

theorem Touched.not_untouched {origin : Option String} {before after : State V} {key : String}
    (valid : before.WellFormed) (touched : Touched origin before after key) :
    ¬Untouched before after key := by
  intro same
  obtain ⟨sequence, found, fresh, -⟩ := touched.fresh
  exact absurd (valid.numbered key sequence (same.sequence ▸ found)) (not_le.mpr fresh)

theorem Untouched.refl (state : State V) (key : String) : Untouched state state key :=
  ⟨rfl, rfl, rfl⟩

theorem Writes.refl (origin : Option String) (state : State V) : Writes origin state state where
  deviceId := rfl
  epoch := rfl
  peerCursors := rfl
  inboundOrigin := rfl
  counter := le_rfl
  grows := fun _ => le_rfl
  keys := fun _ key => Or.inl (Untouched.refl state key)

theorem Writes.trans {origin : Option String} {first second third : State V}
    (earlier : Writes origin first second) (later : Writes origin second third) :
    Writes origin first third where
  deviceId := later.deviceId.trans earlier.deviceId
  epoch := later.epoch.trans earlier.epoch
  peerCursors := later.peerCursors.trans earlier.peerCursors
  inboundOrigin := later.inboundOrigin.trans earlier.inboundOrigin
  counter := earlier.counter.trans later.counter
  grows := fun below =>
    (earlier.grows ((later.grows below).trans_lt below)).trans (later.grows below)
  keys := by
    intro below key
    have middle : second.sequence < u64Max := (later.grows below).trans_lt below
    rcases later.keys below key with same | ⟨⟨sequence, found, fresh, bound⟩, origin⟩
    · rcases earlier.keys middle key with before | ⟨⟨sequence, found, fresh, bound⟩, origin⟩
      · exact Or.inl ⟨same.entry.trans before.entry, same.sequence.trans before.sequence,
          same.origin.trans before.origin⟩
      · exact Or.inr ⟨⟨sequence, same.sequence.trans found, fresh,
          bound.trans (later.grows below)⟩, same.origin.trans origin⟩
    · exact Or.inr ⟨⟨sequence, found, (earlier.grows middle).trans_lt fresh, bound⟩, origin⟩

theorem insertEntry_entries (state : State V) (entry : Entry V) (origin : Option String)
    (key : String) : (state.insertEntry entry origin).entries[key]? =
      if key = entry.key then some entry else state.entries[key]? :=
  BTreeMap.get_insert state.entries entry.key key entry

theorem insertEntry_sequences (state : State V) (entry : Entry V) (origin : Option String)
    (key : String) : (state.insertEntry entry origin).sequences[key]? =
      if key = entry.key then some (saturatingSucc state.sequence) else state.sequences[key]? :=
  BTreeMap.get_insert state.sequences entry.key key _

theorem insertEntry_origins (state : State V) (entry : Entry V) (origin : Option String)
    (key : String) : (state.insertEntry entry origin).origins[key]? =
      if key = entry.key then origin else state.origins[key]? := by
  cases origin with
  | none => exact BTreeMap.get_erase state.origins entry.key key
  | some origin => exact BTreeMap.get_insert state.origins entry.key key origin

theorem insertEntry_writes (state : State V) (entry : Entry V) (origin : Option String) :
    Writes origin state (state.insertEntry entry origin) where
  deviceId := rfl
  epoch := rfl
  peerCursors := rfl
  inboundOrigin := rfl
  counter := le_rfl
  grows := by
    intro below
    simp only [insertEntry, recordWrite, saturatingSucc] at below ⊢
    omega
  keys := by
    intro below key
    by_cases same : key = entry.key
    · refine Or.inr ⟨⟨saturatingSucc state.sequence, ?_, ?_, le_rfl⟩, ?_⟩
      · rw [insertEntry_sequences, if_pos same]
      · simp only [insertEntry, recordWrite, saturatingSucc] at below ⊢
        omega
      · rw [insertEntry_origins, if_pos same]
    · refine Or.inl ⟨?_, ?_, ?_⟩
      · rw [insertEntry_entries, if_neg same]
      · rw [insertEntry_sequences, if_neg same]
      · rw [insertEntry_origins, if_neg same]

theorem insertEntry_wellFormed {state : State V} (valid : state.WellFormed) {entry : Entry V}
    (origin : Option String) (counted : entry.clock.counter ≤ state.counter)
    (below : (state.insertEntry entry origin).sequence < u64Max) :
    (state.insertEntry entry origin).WellFormed := by
  have grows := (insertEntry_writes state entry origin).grows below
  refine ⟨?_, ?_, ?_, ?_, valid.started.trans grows⟩
  · intro key found holds
    rw [insertEntry_entries] at holds
    split at holds
    · rename_i same
      simp only [Option.some.injEq] at holds
      rw [← holds, same]
    · exact valid.keyed key found holds
  · intro key found holds
    rw [insertEntry_entries] at holds
    rw [insertEntry_sequences]
    split at holds
    · rename_i same
      exact ⟨_, if_pos same⟩
    · rename_i other
      obtain ⟨sequence, present⟩ := valid.sequenced key found holds
      exact ⟨sequence, (if_neg other).trans present⟩
  · intro key sequence found
    rw [insertEntry_sequences] at found
    split at found
    · simp only [Option.some.injEq] at found
      exact found.ge
    · exact (valid.numbered key sequence found).trans grows
  · intro key found holds
    rw [insertEntry_entries] at holds
    split at holds
    · simp only [Option.some.injEq] at holds
      rw [← holds]
      exact counted
    · exact valid.counted key found holds

theorem raiseCounter_eq (state : State V) (clock : LamportClock) :
    state.raiseCounter clock = { state with counter := max state.counter clock.counter } := by
  simp only [raiseCounter]
  split
  · rename_i below
    rw [max_eq_right below.le]
  · rename_i above
    rw [max_eq_left (not_lt.mp above)]

theorem withCounter_writes (origin : Option String) (state : State V) {counter : Nat}
    (above : state.counter ≤ counter) : Writes origin state { state with counter := counter } where
  deviceId := rfl
  epoch := rfl
  peerCursors := rfl
  inboundOrigin := rfl
  counter := above
  grows := fun _ => le_rfl
  keys := fun _ _ => Or.inl ⟨rfl, rfl, rfl⟩

theorem withCounter_wellFormed {state : State V} (valid : state.WellFormed) {counter : Nat}
    (above : state.counter ≤ counter) : { state with counter := counter }.WellFormed where
  keyed := valid.keyed
  sequenced := valid.sequenced
  numbered := valid.numbered
  counted := fun key entry found => (valid.counted key entry found).trans above
  started := valid.started

theorem raiseCounter_writes (origin : Option String) (state : State V) (clock : LamportClock) :
    Writes origin state (state.raiseCounter clock) := by
  rw [raiseCounter_eq]
  exact withCounter_writes origin state (le_max_left _ _)

theorem raiseCounter_wellFormed {state : State V} (valid : state.WellFormed)
    (clock : LamportClock) : (state.raiseCounter clock).WellFormed := by
  rw [raiseCounter_eq]
  exact withCounter_wellFormed valid (le_max_left _ _)

theorem applyEntry_cases (state : State V) (entry : Entry V) :
    (∃ existing, state.entries[entry.key]? = some existing ∧ entry.clock ≤ existing.clock ∧
        state.applyEntry entry = (false, state.raiseCounter entry.clock)) ∨
      ((∀ existing, state.entries[entry.key]? = some existing → existing.clock < entry.clock) ∧
        state.applyEntry entry =
          (true, (state.raiseCounter entry.clock).insertEntry entry state.inboundOrigin)) := by
  have entries : (state.raiseCounter entry.clock).entries = state.entries := by
    rw [raiseCounter_eq]
  have inbound : (state.raiseCounter entry.clock).inboundOrigin = state.inboundOrigin := by
    rw [raiseCounter_eq]
  simp only [applyEntry, entries, inbound]
  cases found : state.entries[entry.key]? with
  | none => exact Or.inr ⟨by simp, rfl⟩
  | some existing =>
      by_cases older : entry.clock ≤ existing.clock
      · exact Or.inl ⟨existing, rfl, older, by simp [older]⟩
      · refine Or.inr ⟨?_, by simp [older]⟩
        rintro other ⟨⟩
        exact not_le.mp older

theorem applyEntry_writes (state : State V) (entry : Entry V) :
    Writes state.inboundOrigin state (state.applyEntry entry).2 := by
  rcases applyEntry_cases state entry with ⟨_, _, _, applied⟩ | ⟨_, applied⟩
  · rw [applied]
    exact raiseCounter_writes _ state entry.clock
  · rw [applied]
    exact (raiseCounter_writes _ state entry.clock).trans (insertEntry_writes _ entry _)

theorem applyEntry_wellFormed {state : State V} (valid : state.WellFormed) (entry : Entry V)
    (below : (state.applyEntry entry).2.sequence < u64Max) :
    (state.applyEntry entry).2.WellFormed := by
  have raised := raiseCounter_wellFormed valid entry.clock
  rcases applyEntry_cases state entry with ⟨_, _, _, applied⟩ | ⟨_, applied⟩
  · rw [applied]
    exact raised
  · rw [applied] at below ⊢
    refine insertEntry_wellFormed raised _ ?_ below
    rw [raiseCounter_eq]
    exact le_max_right _ _

theorem applyEntry_entries (state : State V) (entry : Entry V) (key : String) :
    (state.applyEntry entry).2.entries[key]? =
      if key = entry.key ∧ ∀ existing, state.entries[key]? = some existing →
        existing.clock < entry.clock then some entry else state.entries[key]? := by
  rcases applyEntry_cases state entry with ⟨existing, found, older, applied⟩ | ⟨newer, applied⟩
  · rw [applied, raiseCounter_eq, if_neg]
    rintro ⟨rfl, newer⟩
    exact absurd (newer existing found) (not_lt.mpr older)
  · rw [applied, insertEntry_entries, raiseCounter_eq]
    by_cases same : key = entry.key
    · subst same
      rw [if_pos rfl, if_pos ⟨rfl, newer⟩]
    · rw [if_neg same, if_neg (fun both => same both.1)]

theorem upsertEntry_entries [DecidableEq V] (state : State V) (entry : Entry V) (key : String) :
    (state.upsertEntry entry).2.entries[key]? =
      if key = entry.key then some entry else state.entries[key]? := by
  have entries : (state.raiseCounter entry.clock).entries = state.entries := by
    rw [raiseCounter_eq]
  simp only [upsertEntry, entries]
  split
  · rename_i same
    dsimp only
    rw [entries]
    split
    · rename_i here
      rw [here, same]
    · rfl
  · rw [insertEntry_entries, entries]

theorem foldl_uncounted {step : Nat × State V → Entry V → Nat × State V}
    (uncounted : ∀ applied other state entry,
      (step (applied, state) entry).2 = (step (other, state) entry).2)
    (entries : List (Entry V)) (applied other : Nat) (state : State V) :
    (entries.foldl step (applied, state)).2 = (entries.foldl step (other, state)).2 := by
  induction entries generalizing applied other state with
  | nil => rfl
  | cons entry rest ih =>
      have same := uncounted applied other state entry
      simp only [List.foldl_cons]
      rcases first : step (applied, state) entry with ⟨count, left⟩
      rcases second : step (other, state) entry with ⟨another, right⟩
      rw [first, second] at same
      obtain rfl : left = right := same
      exact ih count another left

theorem mergeSnapshot_cons (state : State V) (entry : Entry V) (rest : List (Entry V)) :
    (state.mergeSnapshot (entry :: rest)).2 =
      ((state.applyEntry entry).2.mergeSnapshot rest).2 := by
  simp only [mergeSnapshot, List.foldl_cons]
  rcases state.applyEntry entry with ⟨_ | _, state⟩
  · rfl
  · refine foldl_uncounted (fun applied other state entry => ?_) rest _ _ state
    dsimp only
    rcases state.applyEntry entry with ⟨_ | _, state⟩ <;> rfl

theorem mergeSnapshot_induct {motive : State V → Prop} {entries : List (Entry V)}
    (step : ∀ state, ∀ entry ∈ entries, motive state → motive (state.applyEntry entry).2)
    {state : State V} (start : motive state) : motive (state.mergeSnapshot entries).2 := by
  induction entries generalizing state with
  | nil => exact start
  | cons entry rest ih =>
      rw [mergeSnapshot_cons]
      exact ih (fun state item member => step state item (List.mem_cons_of_mem _ member))
        (step state entry (List.mem_cons_self ..) start)

theorem mergeSnapshot_writes (state : State V) (entries : List (Entry V)) :
    Writes state.inboundOrigin state (state.mergeSnapshot entries).2 := by
  refine mergeSnapshot_induct (motive := Writes state.inboundOrigin state) ?_
    (Writes.refl _ state)
  intro reached entry _ writes
  have next := applyEntry_writes reached entry
  rw [writes.inboundOrigin] at next
  exact writes.trans next

theorem mergeSnapshot_wellFormed {state : State V} (valid : state.WellFormed)
    (entries : List (Entry V)) (below : (state.mergeSnapshot entries).2.sequence < u64Max) :
    (state.mergeSnapshot entries).2.WellFormed := by
  induction entries generalizing state with
  | nil => exact valid
  | cons entry rest ih =>
      rw [mergeSnapshot_cons] at below ⊢
      have later := (mergeSnapshot_writes (state.applyEntry entry).2 rest).grows below
      exact ih (applyEntry_wellFormed valid entry (later.trans_lt below)) below

theorem set_writes (state : State V) (key : String) (value : V)
    (room : state.counter < u64Max) : Writes none state (state.set key value).2 :=
  (withCounter_writes none state (le_saturatingSucc room.le)).trans (insertEntry_writes _ _ none)

theorem set_wellFormed {state : State V} (valid : state.WellFormed) (key : String) (value : V)
    (room : state.counter < u64Max) (below : (state.set key value).2.sequence < u64Max) :
    (state.set key value).2.WellFormed :=
  insertEntry_wellFormed (withCounter_wellFormed valid (le_saturatingSucc room.le)) none
    le_rfl below

theorem set_entries (state : State V) (key query : String) (value : V) :
    (state.set key value).2.entries[query]? =
      if query = key then some (state.set key value).1 else state.entries[query]? :=
  insertEntry_entries _ _ _ _

theorem new_wellFormed (deviceId epoch : String) : (new deviceId epoch : State V).WellFormed where
  keyed := by simp [new]
  sequenced := by simp [new]
  numbered := by simp [new]
  counted := by simp [new]
  started := le_rfl

end State

end LibreSync
