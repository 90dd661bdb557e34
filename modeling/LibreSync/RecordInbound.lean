import LibreSync.RecordState
import LibreSync.Lib.Fallible

/-!
Inbound entries through a router of logical adapters, as one run of fallible
steps on the state, and what a failed run leaves behind.
-/

namespace LibreSync

open Record Fallible

namespace State

variable {V : Type} {before after : State V}

def Advanced (before after : State V) : Prop :=
  before.sequence ≤ after.sequence ∧ before.counter ≤ after.counter ∧
    (before.sequence < after.sequence ∨ before.counter < after.counter)

theorem Advanced.irrefl (state : State V) : ¬Advanced state state := by
  rintro ⟨-, -, sequence | counter⟩
  · exact lt_irrefl _ sequence
  · exact lt_irrefl _ counter

theorem Advanced.trans (first second third : State V) (earlier : Advanced first second)
    (later : Advanced second third) : Advanced first third := by
  simp only [Advanced] at *
  omega

/-- That many writes get sequences of their own. -/
def Room (count : Nat) (state : State V) : Prop := state.sequence + count ≤ u64Max

def Moves (before after : State V) : Prop :=
  ∀ count, Room (count + 1) before → Room count after ∧ (after = before ∨ Advanced before after)

theorem Moves.refl (state : State V) : Moves state state := by
  intro count room
  refine ⟨?_, Or.inl rfl⟩
  simp only [Room] at *
  omega

theorem raiseCounter_moves (state : State V) (clock : LamportClock) :
    Moves state (state.raiseCounter clock) := by
  rw [raiseCounter]
  split
  · rename_i below
    intro count room
    refine ⟨?_, Or.inr ⟨le_rfl, below.le, Or.inr below⟩⟩
    simp only [Room] at *
    omega
  · exact Moves.refl state

theorem insertEntry_moves (state : State V) (clock : LamportClock) (entry : Entry V)
    (origin : Option String) :
    Moves state ((state.raiseCounter clock).insertEntry entry origin) := by
  intro count room
  have raised : state.counter ≤ (state.raiseCounter clock).counter := by
    rw [raiseCounter_eq]
    exact le_max_left _ _
  have sequence : ((state.raiseCounter clock).insertEntry entry origin).sequence =
      state.sequence + 1 := by
    have same : (state.raiseCounter clock).sequence = state.sequence := by rw [raiseCounter_eq]
    have below : state.sequence < u64Max := by
      simp only [Room] at room
      omega
    have written : ((state.raiseCounter clock).insertEntry entry origin).sequence =
      saturatingSucc (state.raiseCounter clock).sequence := rfl
    rw [written, same, saturatingSucc_eq below]
  refine ⟨?_, Or.inr ⟨?_, raised, Or.inl ?_⟩⟩
  · simp only [Room] at *
    omega
  · omega
  · omega

theorem raiseCounter_still_iff (state : State V) (clock : LamportClock) :
    state.raiseCounter clock = state ↔ clock.counter ≤ state.counter := by
  rw [raiseCounter]
  split
  · rename_i below
    refine iff_of_false (fun same => ?_) (not_le.mpr below)
    have counters : clock.counter = state.counter := congrArg State.counter same
    omega
  · rename_i above
    exact iff_of_true rfl (not_lt.mp above)

theorem applyEntry_moves (state : State V) (entry : Entry V) :
    Moves state (state.applyEntry entry).2 := by
  rcases applyEntry_cases state entry with ⟨existing, found, older, applied⟩ | ⟨newer, applied⟩
  · rw [applied]
    exact raiseCounter_moves state entry.clock
  · rw [applied]
    exact insertEntry_moves state entry.clock entry state.inboundOrigin

theorem applyEntry_still_iff (state : State V) (entry : Entry V) :
    (state.applyEntry entry).2 = state ↔ entry.clock.counter ≤ state.counter ∧
      ∃ existing, state.entries[entry.key]? = some existing ∧ entry.clock ≤ existing.clock := by
  rcases applyEntry_cases state entry with ⟨existing, found, older, applied⟩ | ⟨newer, applied⟩
  · rw [applied, raiseCounter_still_iff]
    exact ⟨fun below => ⟨below, existing, found, older⟩, And.left⟩
  · constructor
    · intro same
      have stored := state.applyEntry_entries entry entry.key
      rw [if_pos ⟨rfl, newer⟩, same] at stored
      exact absurd (newer entry stored) (lt_irrefl _)
    · rintro ⟨-, existing, found, older⟩
      exact absurd (newer existing found) (not_lt.mpr older)

variable [DecidableEq V]

theorem upsertEntry_moves (state : State V) (entry : Entry V) :
    Moves state (state.upsertEntry entry).2 := by
  rw [upsertEntry]
  split
  · exact raiseCounter_moves state entry.clock
  · exact insertEntry_moves state entry.clock entry _

theorem upsertEntry_still_iff (state : State V) (entry : Entry V) :
    (state.upsertEntry entry).2 = state ↔ entry.clock.counter ≤ state.counter ∧
      state.entries[entry.key]? = some entry := by
  have entries : (state.raiseCounter entry.clock).entries = state.entries := by rw [raiseCounter_eq]
  by_cases stored : state.entries[entry.key]? = some entry
  · have raised : (state.upsertEntry entry).2 = state.raiseCounter entry.clock := by
      rw [upsertEntry, entries, if_pos stored]
    rw [raised, raiseCounter_still_iff]
    exact ⟨fun below => ⟨below, stored⟩, And.left⟩
  · refine iff_of_false (fun same => stored ?_) fun both => stored both.2
    have held := state.upsertEntry_entries entry entry.key
    rw [same, if_pos rfl] at held
    exact held

end State

section Merge

variable {V : Type} [PayloadCodec V]

def RecordState.mergeSnapshot (keyNamespace : String) :
    List SyncRecord → State V → Except Error Nat × State V
  | [], state => (.ok 0, state)
  | record :: rest, state =>
      match RecordState.apply keyNamespace state record with
      | .error error => (.error error, state)
      | .ok (changed, state) =>
          match mergeSnapshot keyNamespace rest state with
          | (.ok applied, state) => (.ok (applied + changed.toNat), state)
          | (.error error, state) => (.error error, state)

variable [DecidableEq V]

/-- How a logical adapter merges records: under policies, or by the clock as the trait's default. -/
inductive RecordMerge where
  | byPolicy (policyForField : String → MergePolicy) (mergeCustom : CustomMerge)
  | byClock

namespace RecordMerge

def merged (policyForField : String → MergePolicy) (mergeCustom : CustomMerge)
    (keyNamespace : String) (state : State V) (record : SyncRecord) : Except Error SyncRecord :=
  match RecordState.get keyNamespace state record.schema record.entity record.id with
  | .error error => .error error
  | .ok (some existing) => .ok (mergeRecords existing record policyForField mergeCustom)
  | .ok none => .ok record

def applySnapshot (merge : RecordMerge) (keyNamespace : String) (records : List SyncRecord)
    (state : State V) : Except Error Nat × State V :=
  match merge with
  | byPolicy policyForField mergeCustom =>
      applySnapshotWithPolicy keyNamespace policyForField mergeCustom records state
  | byClock => RecordState.mergeSnapshot keyNamespace records state

def mergeOne (merge : RecordMerge) (keyNamespace : String) (record : SyncRecord)
    (state : State V) : Except Error (State V) :=
  match merge with
  | byPolicy policyForField mergeCustom =>
      (merged policyForField mergeCustom keyNamespace state record).bind fun record =>
        (RecordState.upsert keyNamespace state record).map Prod.snd
  | byClock => (RecordState.apply keyNamespace state record).map Prod.snd

def Settled (keyNamespace : String) (state : State V) (record : SyncRecord) : RecordMerge → Prop
  | byPolicy policyForField mergeCustom => ∃ result found,
      merged policyForField mergeCustom keyNamespace state record = .ok result ∧
      RecordState.get keyNamespace state result.schema result.entity result.id = .ok found ∧
      result.clock.counter ≤ state.counter ∧
      state.entries[recordEntryKey keyNamespace result.schema result.entity result.id]? =
        some (recordToEntry keyNamespace (result.stampFieldClocks found))
  | byClock => ∃ found,
      RecordState.get keyNamespace state record.schema record.entity record.id = .ok found ∧
      ((∃ existing, found = some existing ∧ record.clock ≤ existing.clock) ∨
        record.clock.counter ≤ state.counter ∧ ∃ stored : Entry V,
          state.entries[recordEntryKey keyNamespace record.schema record.entity record.id]? =
            some stored ∧ record.clock ≤ stored.clock)

def Unreadable (keyNamespace : String) (state : State V) (record : SyncRecord) : RecordMerge → Prop
  | byPolicy policyForField mergeCustom =>
      (∃ error, RecordState.get keyNamespace state record.schema record.entity record.id =
        .error error) ∨
      ∃ result error, merged policyForField mergeCustom keyNamespace state record = .ok result ∧
        RecordState.get keyNamespace state result.schema result.entity result.id = .error error
  | byClock => ∃ error,
      RecordState.get keyNamespace state record.schema record.entity record.id = .error error

variable {keyNamespace : String} {state after : State V} {record : SyncRecord}

omit [DecidableEq V] in
theorem merged_error {policyForField : String → MergePolicy} {mergeCustom : CustomMerge}
    {error : Error} : merged policyForField mergeCustom keyNamespace state record = .error error ↔
      RecordState.get keyNamespace state record.schema record.entity record.id = .error error := by
  rw [merged]
  cases RecordState.get keyNamespace state record.schema record.entity record.id with
  | error refused => simp
  | ok found => cases found <;> simp

theorem upsert_of_get {found : Option SyncRecord} (got : RecordState.get keyNamespace state
    record.schema record.entity record.id = .ok found) :
    RecordState.upsert keyNamespace state record =
      .ok (state.upsertEntry (recordToEntry keyNamespace (record.stampFieldClocks found))) := by
  rw [RecordState.upsert, got]

theorem upsert_of_error {error : Error} (got : RecordState.get keyNamespace state
    record.schema record.entity record.id = .error error) :
    RecordState.upsert keyNamespace state record = .error error := by
  rw [RecordState.upsert, got]

theorem mergeOne_byPolicy {policyForField : String → MergePolicy} {mergeCustom : CustomMerge}
    {result : SyncRecord}
    (combined : merged policyForField mergeCustom keyNamespace state record = .ok result) :
    (byPolicy policyForField mergeCustom).mergeOne keyNamespace record state =
      (RecordState.upsert keyNamespace state result).map Prod.snd := by
  simp only [mergeOne, combined, Except.bind]

theorem mergeOne_byPolicy_error {policyForField : String → MergePolicy} {mergeCustom : CustomMerge}
    {error : Error}
    (refused : merged policyForField mergeCustom keyNamespace state record = .error error) :
    (byPolicy policyForField mergeCustom).mergeOne keyNamespace record state = .error error := by
  simp only [mergeOne, refused, Except.bind]

theorem mergeOne_error_iff (merge : RecordMerge) :
    (∃ error, merge.mergeOne keyNamespace record state = .error error) ↔
      merge.Unreadable keyNamespace state record := by
  cases merge with
  | byClock =>
      simp only [mergeOne, Unreadable, RecordState.apply]
      cases RecordState.get keyNamespace state record.schema record.entity record.id with
      | error error => simp [Except.map]
      | ok found =>
          refine iff_of_false ?_ (by simp)
          rintro ⟨error, refused⟩
          dsimp only at refused
          split at refused <;> simp [Except.map] at refused
  | byPolicy policyForField mergeCustom =>
      rw [Unreadable]
      cases combined : merged policyForField mergeCustom keyNamespace state record with
      | error error =>
          rw [mergeOne_byPolicy_error combined]
          exact iff_of_true ⟨error, rfl⟩ (Or.inl ⟨error, merged_error.mp combined⟩)
      | ok result =>
          have readable : ∀ error, RecordState.get keyNamespace state record.schema record.entity
              record.id ≠ .error error := by
            intro error refused
            rw [merged_error.mpr refused] at combined
            exact absurd combined (by simp)
          rw [mergeOne_byPolicy combined]
          cases got : RecordState.get keyNamespace state result.schema result.entity result.id with
          | error error =>
              rw [upsert_of_error got]
              exact iff_of_true ⟨error, rfl⟩ (Or.inr ⟨result, error, rfl, got⟩)
          | ok found =>
              rw [upsert_of_get got]
              refine iff_of_false (by simp [Except.map]) ?_
              rintro (⟨error, refused⟩ | ⟨other, error, same, refused⟩)
              · exact readable error refused
              · obtain rfl := Except.ok.inj same
                exact absurd (got.symm.trans refused) (by simp)

theorem mergeOne_still_iff (merge : RecordMerge) :
    merge.mergeOne keyNamespace record state = .ok state ↔
      merge.Settled keyNamespace state record := by
  cases merge with
  | byClock =>
      simp only [mergeOne, Settled, RecordState.apply]
      cases RecordState.get keyNamespace state record.schema record.entity record.id with
      | error error => simp [Except.map]
      | ok found =>
          by_cases older : ∃ existing, found = some existing ∧ record.clock ≤ existing.clock
          · obtain ⟨existing, rfl, below⟩ := older
            refine iff_of_true ?_ ⟨_, rfl, Or.inl ⟨existing, rfl, below⟩⟩
            simp [below, Except.map]
          · have unseen : (found.any fun existing => decide (record.clock ≤ existing.clock)) =
                false := by
              cases found with
              | none => rfl
              | some existing =>
                  simpa using fun below => older ⟨existing, rfl, below⟩
            have stored := state.applyEntry_still_iff
              (recordToEntry keyNamespace (record.stampFieldClocks found))
            simp only [unseen, Bool.false_eq_true, if_false, Except.map, Except.ok.injEq, stored]
            constructor
            · rintro ⟨counter, existing, held, below⟩
              exact ⟨found, rfl, Or.inr ⟨counter, existing, held, below⟩⟩
            · rintro ⟨other, rfl, seen | ⟨counter, existing, held, below⟩⟩
              · exact absurd seen older
              · exact ⟨counter, existing, held, below⟩
  | byPolicy policyForField mergeCustom =>
      rw [Settled]
      cases combined : merged policyForField mergeCustom keyNamespace state record with
      | error error =>
          rw [mergeOne_byPolicy_error combined]
          simp
      | ok result =>
          rw [mergeOne_byPolicy combined]
          cases got : RecordState.get keyNamespace state result.schema result.entity result.id with
          | error error =>
              rw [upsert_of_error got]
              refine iff_of_false (by simp [Except.map]) ?_
              rintro ⟨other, found, same, read, -⟩
              obtain rfl := Except.ok.inj same
              exact absurd (got.symm.trans read) (by simp)
          | ok found =>
              rw [upsert_of_get got, Except.map, Except.ok.injEq, State.upsertEntry_still_iff]
              constructor
              · rintro ⟨counter, held⟩
                exact ⟨result, found, rfl, got, counter, held⟩
              · rintro ⟨other, read, same, again, counter, held⟩
                obtain rfl := Except.ok.inj same
                obtain rfl := Except.ok.inj (got.symm.trans again)
                exact ⟨counter, held⟩

theorem mergeOne_moves (merge : RecordMerge)
    (ran : merge.mergeOne keyNamespace record state = .ok after) : state.Moves after := by
  cases merge with
  | byClock =>
      simp only [mergeOne, RecordState.apply] at ran
      split at ran
      · simp [Except.map] at ran
      · split at ran
        · obtain rfl := Except.ok.inj ran
          exact State.Moves.refl state
        · obtain rfl := Except.ok.inj ran
          exact state.applyEntry_moves _
  | byPolicy policyForField mergeCustom =>
      cases combined : merged policyForField mergeCustom keyNamespace state record with
      | error error =>
          rw [mergeOne_byPolicy_error combined] at ran
          simp at ran
      | ok result =>
          rw [mergeOne_byPolicy combined] at ran
          cases got : RecordState.get keyNamespace state result.schema result.entity result.id with
          | error error =>
              rw [upsert_of_error got] at ran
              simp [Except.map] at ran
          | ok found =>
              rw [upsert_of_get got] at ran
              obtain rfl := Except.ok.inj ran
              exact state.upsertEntry_moves _

def uncounted {S : Type} (result : Except Error Nat × S) : Except Error Unit × S :=
  (result.1.map fun _ => (), result.2)

theorem applySnapshot_steps (merge : RecordMerge) (keyNamespace : String)
    (records : List SyncRecord) (state : State V) :
    uncounted (merge.applySnapshot keyNamespace records state) =
      runSteps (records.map (merge.mergeOne keyNamespace)) state := by
  induction records generalizing state with
  | nil => cases merge <;> rfl
  | cons record rest ih =>
      rw [List.map_cons, runSteps]
      cases merge with
      | byClock =>
          simp only [applySnapshot, RecordState.mergeSnapshot, mergeOne] at ih ⊢
          cases RecordState.apply keyNamespace state record with
          | error error => rfl
          | ok written =>
              obtain ⟨changed, after⟩ := written
              refine Eq.trans ?_ (ih after)
              dsimp only
              rcases RecordState.mergeSnapshot keyNamespace rest after with ⟨_ | _, _⟩ <;> rfl
      | byPolicy policyForField mergeCustom =>
          simp only [applySnapshot, applySnapshotWithPolicy, mergeOne, merged] at ih ⊢
          cases RecordState.get keyNamespace state record.schema record.entity record.id with
          | error error => rfl
          | ok found =>
              cases found <;>
              · dsimp only [Except.bind]
                cases RecordState.upsert keyNamespace state _ with
                | error error => rfl
                | ok written =>
                    obtain ⟨changed, after⟩ := written
                    refine Eq.trans ?_ (ih after)
                    dsimp only
                    rcases applySnapshotWithPolicy keyNamespace policyForField mergeCustom rest
                      after with ⟨_ | _, _⟩ <;> rfl

end RecordMerge

end Merge

section Routing

variable {V σ : Type} [PayloadCodec V] [DecidableEq V]

inductive InboundStep where
  | undecodable (error : Error)
  | mergeRecord (merge : RecordMerge) (keyNamespace : String) (record : SyncRecord)

namespace InboundStep

def run : InboundStep → State V → Except Error (State V)
  | undecodable error, _ => .error error
  | mergeRecord merge keyNamespace record, state => merge.mergeOne keyNamespace record state

def Settled (state : State V) : InboundStep → Prop
  | undecodable _ => False
  | mergeRecord merge keyNamespace record => merge.Settled keyNamespace state record

def Fails (state : State V) : InboundStep → Prop
  | undecodable _ => True
  | mergeRecord merge keyNamespace record => merge.Unreadable keyNamespace state record

theorem run_still_iff (step : InboundStep) (state : State V) :
    step.run state = .ok state ↔ step.Settled state := by
  cases step with
  | undecodable error => simp [run, Settled]
  | mergeRecord merge keyNamespace record => exact merge.mergeOne_still_iff

theorem run_error_iff (step : InboundStep) (state : State V) :
    (∃ error, step.run state = .error error) ↔ step.Fails state := by
  cases step with
  | undecodable error => simp [run, Fails]
  | mergeRecord merge keyNamespace record => exact merge.mergeOne_error_iff

theorem run_moves (step : InboundStep) {state after : State V} (ran : step.run state = .ok after) :
    state.Moves after := by
  cases step with
  | undecodable error => simp [run] at ran
  | mergeRecord merge keyNamespace record => exact merge.mergeOne_moves ran

end InboundStep

structure MergingAdapter (V σ : Type) [PayloadCodec V] [DecidableEq V] where
  inner : LogicalAdapter V σ
  merge : RecordMerge
  merges : ∀ records state,
    inner.applySnapshot records state = merge.applySnapshot inner.keyNamespace records state

def InMemoryLogicalAdapter.merging (adapter : InMemoryLogicalAdapter) :
    MergingAdapter V RecordStore where
  inner := adapter.logical
  merge := .byPolicy adapter.mergePolicy adapter.mergeCustom
  merges _ _ := rfl

namespace MergingAdapter

variable (adapter : MergingAdapter V σ)

/-- All entries of the bucket are decoded before the first record is merged. -/
def steps (bucket : List (Entry V)) : List InboundStep :=
  match recordsOf adapter.inner.keyNamespace bucket with
  | .error error => [.undecodable error]
  | .ok records => records.map (.mergeRecord adapter.merge adapter.inner.keyNamespace)

theorem applyEntries_steps (bucket : List (Entry V)) (state : State V) :
    RecordMerge.uncounted (adapter.inner.wrapper.applyEntries bucket state) =
      runSteps ((adapter.steps bucket).map InboundStep.run) state := by
  have applied : adapter.inner.wrapper.applyEntries bucket state =
      match recordsOf adapter.inner.keyNamespace bucket with
      | .error error => (.error error, state)
      | .ok records => adapter.inner.applySnapshot records state := rfl
  rw [applied, steps]
  cases recordsOf adapter.inner.keyNamespace bucket with
  | error error => rfl
  | ok records =>
      dsimp only
      rw [adapter.merges, RecordMerge.applySnapshot_steps, List.map_map]
      rfl

omit [DecidableEq V] in
theorem recordsOf_length {keyNamespace : String} {bucket : List (Entry V)}
    {records : List SyncRecord} (read : recordsOf keyNamespace bucket = .ok records) :
    records.length ≤ bucket.length := by
  induction bucket generalizing records with
  | nil =>
      obtain rfl := Except.ok.inj read
      exact le_rfl
  | cons entry rest ih =>
      simp only [recordsOf] at read
      split at read
      · simp at read
      · exact (ih read).trans (Nat.le_succ _)
      · cases rested : recordsOf keyNamespace rest with
        | error error =>
            rw [rested] at read
            simp [Except.map] at read
        | ok more =>
            rw [rested] at read
            obtain rfl := Except.ok.inj read
            exact Nat.succ_le_succ (ih rested)

theorem length_steps (bucket : List (Entry V)) : (adapter.steps bucket).length ≤ bucket.length := by
  rw [steps]
  cases read : recordsOf adapter.inner.keyNamespace bucket with
  | error error =>
      cases bucket with
      | nil => simp [recordsOf] at read
      | cons entry rest => simp
  | ok records =>
      rw [List.length_map]
      exact recordsOf_length read

end MergingAdapter

structure LogicalRouter (V σ : Type) [PayloadCodec V] [DecidableEq V] where
  adapters : List (MergingAdapter V σ)
  ordered : adapters.Pairwise fun left right => left.inner.id < right.inner.id

namespace LogicalRouter

variable (logical : LogicalRouter V σ)

def router : AdapterRouter V σ where
  adapters := logical.adapters.map fun adapter => adapter.inner.wrapper
  ordered := List.pairwise_map.mpr logical.ordered

def stepsFrom (entries : List (Entry V)) : List (MergingAdapter V σ) → Nat → List InboundStep
  | [], _ => []
  | adapter :: rest, index =>
      adapter.steps (logical.router.bucket entries (some index)) ++
        stepsFrom entries rest (index + 1)

/-- Bucket by bucket in the order of the adapters, entry by entry within a bucket. -/
def steps (entries : List (Entry V)) : List InboundStep :=
  logical.stepsFrom entries logical.adapters 0

/-- Up to the first entry that fails, the state already holds what it would merge. -/
def FailsUnmoved (entries : List (Entry V)) (state : State V) : Prop :=
  ∃ earlier failing later, logical.steps entries = earlier ++ failing :: later ∧
    (∀ step ∈ earlier, step.Settled state) ∧ failing.Fails state

theorem applyBuckets_steps (entries : List (Entry V)) (adapters : List (MergingAdapter V σ))
    (index : Nat) (state : State V) :
    RecordMerge.uncounted (logical.router.applyBuckets entries
        (adapters.map fun adapter => adapter.inner.wrapper) index state) =
      runSteps ((logical.stepsFrom entries adapters index).map InboundStep.run) state := by
  induction adapters generalizing index state with
  | nil => rfl
  | cons adapter rest ih =>
      rw [List.map_cons, stepsFrom, List.map_append, runSteps_append,
        ← adapter.applyEntries_steps, AdapterRouter.applyBuckets]
      generalize logical.router.bucket entries (some index) = bucket
      cases bucket with
      | nil =>
          have nothing : RecordMerge.uncounted (adapter.inner.wrapper.applyEntries [] state) =
              (.ok (), state) := by
            rw [adapter.applyEntries_steps]
            rfl
          rw [nothing]
          exact ih (index + 1) state
      | cons entry others =>
          rw [List.isEmpty_cons, if_neg Bool.false_ne_true]
          rcases adapter.inner.wrapper.applyEntries (entry :: others) state with
            ⟨error | applied, after⟩
          · rfl
          · refine Eq.trans ?_ (ih (index + 1) after)
            dsimp only
            rcases logical.router.applyBuckets entries
              (rest.map fun adapter => adapter.inner.wrapper) (index + 1) after with ⟨_ | _, _⟩ <;>
            rfl

theorem applyInbound_failed {entries : List (Entry V)} {state after : State V} {error : Error}
    (failed : logical.router.applyInbound entries state = (.error error, after)) :
    runSteps ((logical.steps entries).map InboundStep.run) state = (.error error, after) := by
  have steps := logical.applyBuckets_steps entries logical.adapters 0 state
  rw [AdapterRouter.applyInbound] at failed
  split at failed
  · rename_i refused stopped buckets
    rw [LogicalRouter.steps, ← steps]
    have same : logical.router.applyBuckets entries (logical.adapters.map fun adapter =>
      adapter.inner.wrapper) 0 state = (.error refused, stopped) := buckets
    obtain ⟨refusal, rfl⟩ := Prod.mk.inj failed
    obtain rfl := Except.error.inj refusal
    rw [same]
    rfl
  · simp at failed

def routedBefore (entries : List (Entry V)) (index : Nat) : Nat :=
  entries.countP fun entry => (logical.router.owner entry.key).any (· < index)

theorem routedBefore_succ (entries : List (Entry V)) (index : Nat) :
    logical.routedBefore entries (index + 1) = logical.routedBefore entries index +
      (logical.router.bucket entries (some index)).length := by
  simp only [routedBefore, AdapterRouter.bucket, ← List.countP_eq_length_filter]
  induction entries with
  | nil => rfl
  | cons entry rest ih =>
      simp only [List.countP_cons, ih]
      cases logical.router.owner entry.key with
      | none => simp
      | some owner =>
          simp only [Option.any_some, decide_eq_true_eq, Option.some.injEq]
          split <;> split <;> split <;> omega

theorem length_stepsFrom (entries : List (Entry V)) (adapters : List (MergingAdapter V σ))
    (index : Nat) : logical.routedBefore entries index +
      (logical.stepsFrom entries adapters index).length ≤ entries.length := by
  induction adapters generalizing index with
  | nil => exact List.countP_le_length
  | cons adapter rest ih =>
      have later := ih (index + 1)
      have here := adapter.length_steps (logical.router.bucket entries (some index))
      rw [routedBefore_succ] at later
      rw [stepsFrom, List.length_append]
      omega

/--
A failed application leaves the state as it was if the first entry to fail comes
after entries the state already holds, and only then unless writes have used up
the sequence.
-/
theorem applyInbound_unchanged_iff (entries : List (Entry V)) (state : State V)
    {error : Error} {after : State V}
    (failed : logical.router.applyInbound entries state = (.error error, after)) :
    (logical.FailsUnmoved entries state → after = state) ∧
      (state.sequence + entries.length ≤ u64Max →
        after = state → logical.FailsUnmoved entries state) := by
  have ran := logical.applyInbound_failed failed
  constructor
  · rintro ⟨earlier, failing, later, planned, settled, fails⟩
    have first : FailsFirst ((logical.steps entries).map InboundStep.run) state := by
      refine ⟨earlier.map InboundStep.run, failing.run, later.map InboundStep.run, ?_, ?_,
        (failing.run_error_iff state).mpr fails⟩
      · rw [planned, List.map_append, List.map_cons]
      · rw [List.forall_mem_map]
        exact fun step member => (step.run_still_iff state).mpr (settled step member)
    exact (congrArg Prod.snd ran).symm.trans first.unchanged
  · intro room unchanged
    have enough : State.Room ((logical.steps entries).map (InboundStep.run (V := V))).length
        state := by
      have length := logical.length_stepsFrom entries logical.adapters 0
      rw [List.length_map, State.Room, steps]
      omega
    have moves : ∀ step ∈ (logical.steps entries).map (InboundStep.run (V := V)),
        ∀ (count : Nat) (before next : State V), State.Room (count + 1) before →
          step before = .ok next →
            State.Room count next ∧ (next = before ∨ State.Advanced before next) := by
      rw [List.forall_mem_map]
      intro step _ count before next room ran
      exact step.run_moves ran count room
    obtain ⟨earlier, failing, later, planned, still, refused⟩ :=
      failsFirst_of_unchanged State.Advanced.irrefl State.Advanced.trans moves enough
        (congrArg Prod.fst ran) ((congrArg Prod.snd ran).trans unchanged)
    obtain ⟨first, others, split, rfl, tail⟩ := List.map_eq_append_iff.mp planned
    obtain ⟨step, rest, rfl, rfl, rfl⟩ := List.map_eq_cons_iff.mp tail
    refine ⟨first, step, rest, split, ?_, (step.run_error_iff state).mp refused⟩
    intro other member
    exact (other.run_still_iff state).mp (still _ (List.mem_map_of_mem member))

end LogicalRouter

end Routing

section Sample

/-- Payloads as they are, or bytes that are no payload with what the reader says of them. -/
instance : LawfulPayloadCodec (Except String RecordPayload) where
  toVec := .ok
  fromSlice
    | .ok payload => .ok payload
    | .error message => .error (.serde message)
  readsFloat _ := true
  readsBack _ _ _ := rfl

def topic (name : String) : InMemoryLogicalAdapter where
  id := name
  keyNamespace := name
  mergePolicies := ∅
  mergeCustom _ _ _ _ _ := none

def tagsAndTodos : LogicalRouter (Except String RecordPayload) RecordStore where
  adapters := [(topic "tags").merging, (topic "todos").merging]
  ordered := by
    refine List.pairwise_pair.mpr ?_
    change "tags" < "todos"
    decide

def received (keyNamespace : String) (value : Except String RecordPayload) :
    Entry (Except String RecordPayload) where
  key := recordEntryKey keyNamespace "notes" "note" "1"
  value := value
  clock := {
    counter := 1
    deviceId := "phone" }

def tagged : Entry (Except String RecordPayload) :=
  received "tags" (.ok {
    fields := ∅
    tombstone := false
    updatedAt := none
    fieldClocks := ∅ })

def broken : Entry (Except String RecordPayload) := received "todos" (.error "expected value")

def taggedDesk : State (Except String RecordPayload) :=
  (tagsAndTodos.router.applyInbound [tagged] (State.new "desk" "first")).2

def tag : SyncRecord where
  schema := "notes"
  entity := "note"
  id := "1"
  fields := ∅
  tombstone := false
  clock := tagged.clock
  updatedAt := none
  fieldClocks := ∅

def tagsMerge : RecordMerge := ((topic "tags").merging (V := Except String RecordPayload)).merge

theorem tag_steps : tagsAndTodos.steps [tagged, broken] =
    [.mergeRecord tagsMerge "tags" tag,
      .undecodable (.serde "expected value")] := by
  have first : tagsAndTodos.router.bucket [tagged, broken] (some 0) = [tagged] := by decide +kernel
  have second : tagsAndTodos.router.bucket [tagged, broken] (some 1) = [broken] := by decide +kernel
  have decoded : recordsOf "tags" [tagged] = .ok [tag] := by decide +kernel
  have refused : recordsOf "todos" [broken] = .error (.serde "expected value") := by
    decide +kernel
  have tags : (topic "tags").merging.steps [tagged] =
      [.mergeRecord tagsMerge "tags" tag] := by
    have same : ((topic "tags").merging (V := Except String RecordPayload)).inner.keyNamespace =
      "tags" := rfl
    rw [MergingAdapter.steps, same, decoded]
    rfl
  have todos : (topic "todos").merging.steps [broken] =
      [.undecodable (.serde "expected value")] := by
    have same : ((topic "todos").merging (V := Except String RecordPayload)).inner.keyNamespace =
      "todos" := rfl
    rw [MergingAdapter.steps, same, refused]
  rw [LogicalRouter.steps, tagsAndTodos, LogicalRouter.stepsFrom, LogicalRouter.stepsFrom,
    LogicalRouter.stepsFrom]
  rw [tagsAndTodos] at first second
  rw [first, second, tags, todos]
  rfl

theorem tag_settled : tagsMerge.Settled "tags" taggedDesk tag := by
  refine ⟨tag, some tag, ?_, ?_, ?_, ?_⟩ <;> decide +kernel

theorem applyInbound_unchanged_broken :
    taggedDesk.entries[tagged.key]? = some tagged ∧
      (tagsAndTodos.router.applyInbound [tagged, broken] taggedDesk).2 = taggedDesk := by
  have held : taggedDesk.entries[tagged.key]? = some tagged := by decide +kernel
  have refused : (tagsAndTodos.router.applyInbound [tagged, broken] taggedDesk).1 =
      .error (.serde "expected value") := by decide +kernel
  refine ⟨held, (tagsAndTodos.applyInbound_unchanged_iff [tagged, broken] taggedDesk
    (Prod.ext refused rfl)).1 ⟨[_], _, [], tag_steps, ?_, trivial⟩⟩
  intro step member
  obtain rfl := List.mem_singleton.mp member
  exact tag_settled

/-- The tag is merged before the todo turns out to be no payload. -/
theorem applyInbound_half_merged :
    (tagsAndTodos.router.applyInbound [tagged, broken] (State.new "desk" "first")).1 =
        .error (.serde "expected value") ∧
      (tagsAndTodos.router.applyInbound [tagged, broken] (State.new "desk" "first")).2.sequence =
        2 ∧
      (tagsAndTodos.router.applyInbound [tagged, broken] (State.new "desk" "first")).2 ≠
        State.new "desk" "first" := by
  have sequence : (tagsAndTodos.router.applyInbound [tagged, broken]
      (State.new "desk" "first")).2.sequence = 2 := by decide +kernel
  refine ⟨by decide +kernel, sequence, fun same => ?_⟩
  rw [same] at sequence
  exact absurd sequence (by decide)

end Sample

end LibreSync
