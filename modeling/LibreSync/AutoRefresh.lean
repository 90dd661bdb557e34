import LibreSync.JsonFile
import LibreSync.Crypto
import LibreSync.Lib.Transition

/-!
The loop of `auto_refresh`: a digest of what the adapter exports decides whether
an iteration goes through its exchanges.
-/

namespace LibreSync

structure ExportingAdapter (V σ : Type) extends DataAdapter V σ where
  exportSnapshot : State V → Except Error (List (Entry V)) := fun state => .ok state.snapshot

namespace Entry

def hashed (entry : Entry Bytes) : Bytes :=
  hashBytes (utf8 entry.key) ++ (hashU64 entry.clock.counter ++
    (hashBytes (utf8 entry.clock.deviceId) ++ hashBytes entry.value))

def sortsBefore (left right : Entry Bytes) : Bool :=
  left.key < right.key || (left.key = right.key && left.clock ≤ right.clock)

structure Sized (entry : Entry Bytes) : Prop where
  key : (utf8 entry.key).length < 2 ^ 64
  counter : entry.clock.counter < 2 ^ 64
  deviceId : (utf8 entry.clock.deviceId).length < 2 ^ 64
  value : entry.value.length < 2 ^ 64

end Entry

section Digest

variable {D : Type} (sha256 : Bytes → D)

def hashEntries (entries : List (Entry Bytes)) : D :=
  sha256 ((entries.insertionSort fun left right => left.sortsBefore right).flatMap Entry.hashed)

end Digest

inductive RefreshPhase where
  | waiting
  /-- Between two candidates; whether an exchange of the round succeeded. -/
  | refreshing (synced : Bool)
  /-- In an exchange, with the state in which it began. -/
  | exchanging (synced : Bool) (begun : State Bytes)

/-- The loop and what it works on. `begun` and `exported` only record the run. -/
structure RefreshWorld (σ D : Type) where
  state : State Bytes
  store : σ
  cache : AdapterCache Bytes
  lastDigest : Option D
  phase : RefreshPhase
  /-- The states in which the exchanges that succeeded began, the last one first. -/
  begun : List (State Bytes)
  /-- The export that `lastDigest` was computed from. -/
  exported : Option (List (Entry Bytes))

inductive RefreshEvent (σ : Type) where
  /-- A local edit, or what another thread or an exchange writes under the lock. -/
  | write (state : State Bytes) (store : σ)
  /-- The iteration up to its decision, so long after the last round. -/
  | tick (elapsed : Nat)
  | candidate
  | finish (success : Bool)
  | endRound

namespace RefreshWorld

variable {σ D : Type}

def start (state : State Bytes) (store : σ) : RefreshWorld σ D where
  state := state
  store := store
  cache := {}
  lastDigest := none
  phase := .waiting
  begun := []
  exported := none

variable [DecidableEq D] (adapter : ExportingAdapter Bytes σ) (refreshInterval : Option Nat)
  (sha256 : Bytes → D)

def record (world : RefreshWorld σ D) (entries : List (Entry Bytes)) : RefreshWorld σ D :=
  { world with
    lastDigest := some (hashEntries sha256 entries)
    exported := some entries }

def intervalDue (elapsed : Nat) : Bool :=
  match refreshInterval with
  | some interval => interval ≤ elapsed
  | none => false

/-- `sync_tick`; the loop reports an error and goes on. -/
def syncTick (world : RefreshWorld σ D) : RefreshWorld σ D :=
  let (_, state, cache, store) := adapter.syncTick world.state world.cache world.store
  { world with state, cache, store }

def detect (world : RefreshWorld σ D) : Bool × RefreshWorld σ D :=
  match adapter.exportSnapshot world.state with
  | .ok entries =>
      if world.lastDigest ≠ some (hashEntries sha256 entries) then
        (true, world.record sha256 entries)
      else (false, world)
  | .error _ => (false, world)

def step (world : RefreshWorld σ D) : RefreshEvent σ → Option (RefreshWorld σ D)
  | .write state store => some { world with state, store }
  | .tick elapsed =>
      match world.phase with
      | .waiting =>
          let (localChanged, world) := (world.syncTick adapter).detect adapter sha256
          let due := intervalDue refreshInterval elapsed
          some { world with
            phase := if !localChanged && !due then .waiting else .refreshing false }
      | _ => none
  | .candidate =>
      match world.phase with
      | .refreshing synced =>
          match adapter.loadIntoState world.state world.store with
          | (.ok (), state, store) => some { world with
              state
              store
              phase := .exchanging synced state }
          | (.error _, state, store) => some { world with state, store }
      | _ => none
  | .finish success =>
      match world.phase with
      | .exchanging synced begun => some { world with
          phase := .refreshing (synced || success)
          begun := if success then begun :: world.begun else world.begun }
      | _ => none
  | .endRound =>
      match world.phase with
      | .refreshing true =>
          let world := { world with
            store := (adapter.applyFromState world.state world.store).2
            phase := .waiting }
          match adapter.exportSnapshot world.state with
          | .ok entries => some (world.record sha256 entries)
          | .error _ => some world
      | .refreshing false => some { world with phase := .waiting }
      | _ => none

end RefreshWorld

namespace ExportingAdapter

variable {σ : Type} (adapter : ExportingAdapter Bytes σ)

def Exports (state : State Bytes) (entry : Entry Bytes) : Prop :=
  ∃ entries, adapter.exportSnapshot state = .ok entries ∧ entry ∈ entries

end ExportingAdapter

namespace RefreshWorld

variable {σ D : Type} [DecidableEq D] (adapter : ExportingAdapter Bytes σ)
  (refreshInterval : Option Nat) (sha256 : Bytes → D) (concerned : Entry Bytes → Prop)

/-- When some exchange that succeeded began, the state had the entry. -/
def Known (world : RefreshWorld σ D) (entry : Entry Bytes) : Prop :=
  ∃ begun ∈ world.begun, adapter.Exports begun entry

def NothingNew (world : RefreshWorld σ D) : Prop :=
  ∀ entries, world.exported = some entries → ∀ entry ∈ entries, concerned entry →
    world.Known adapter entry

/-- A round with an exchange that succeeded ends with nothing exported that was not there when the
last of them began; a round without one had found nothing new. -/
def Settles (world : RefreshWorld σ D) : RefreshEvent σ → Prop
  | .endRound =>
      match world.phase, adapter.exportSnapshot world.state with
      | .refreshing true, .ok entries => ∀ begun, world.begun.head? = some begun →
          ∀ entry ∈ entries, concerned entry → adapter.Exports begun entry
      | _, _ => world.NothingNew adapter concerned
  | _ => True

def Fits (world : RefreshWorld σ D) : Prop :=
  ∀ entry, adapter.Exports world.state entry → entry.Sized

/-- The step settles its round, and the next state exports entries of a size the machine has. -/
def Allowed (world : RefreshWorld σ D) (event : RefreshEvent σ) : Prop :=
  world.Settles adapter concerned event ∧
    ∀ after, world.step adapter refreshInterval sha256 event = some after → after.Fits adapter

structure Holds (world : RefreshWorld σ D) : Prop where
  digest : world.lastDigest = world.exported.map (hashEntries sha256)
  sized : ∀ entries, world.exported = some entries → ∀ entry ∈ entries, entry.Sized
  exchanged : (world.phase = .refreshing true ∨
    ∃ begun, world.phase = .exchanging true begun) → world.begun ≠ []
  settled : world.phase = .waiting → world.NothingNew adapter concerned

end RefreshWorld

theorem Entry.hashed_unique : PrefixCode.Unique Entry.Sized Entry.hashed := by
  have unique := (hashBytes_unique.pair (hashU64_unique.pair
    (hashBytes_unique.pair hashBytes_unique))).comap (fun entry : Entry Bytes =>
      (utf8 entry.key, entry.clock.counter, utf8 entry.clock.deviceId, entry.value)) ?_
  · intro left right leftSized rightSized
    exact unique left right
      ⟨leftSized.key, leftSized.counter, leftSized.deviceId, leftSized.value⟩
      ⟨rightSized.key, rightSized.counter, rightSized.deviceId, rightSized.value⟩
  · rintro ⟨key, value, counter, deviceId⟩ ⟨other, content, count, device⟩ same
    simp only [Prod.mk.injEq] at same
    obtain ⟨keys, rfl, devices, rfl⟩ := same
    rw [utf8_injective keys, utf8_injective devices]

theorem hashed_ne_nil (entry : Entry Bytes) : entry.hashed ≠ [] := by
  have word : hashU64 (utf8 entry.key).length ≠ [] := by
    rw [← List.length_pos_iff, hashU64, List.length_reverse, Overlay.length_toBytes]
    omega
  rw [Entry.hashed, hashBytes]
  simp [word]

theorem hashEntries_perm {D : Type} {sha256 : Bytes → D} (injective : Function.Injective sha256)
    {left right : List (Entry Bytes)} (leftSized : ∀ entry ∈ left, entry.Sized)
    (rightSized : ∀ entry ∈ right, entry.Sized)
    (same : hashEntries sha256 left = hashEntries sha256 right) : left.Perm right := by
  have sorted := Entry.hashed_unique.flatMap hashed_ne_nil
    (fun entry member => leftSized entry ((List.mem_insertionSort _).mp member))
    (fun entry member => rightSized entry ((List.mem_insertionSort _).mp member)) (injective same)
  have leftPerm := List.perm_insertionSort (fun left right : Entry Bytes => left.sortsBefore right) left
  rw [sorted] at leftPerm
  exact leftPerm.symm.trans (List.perm_insertionSort _ right)

namespace RefreshWorld

variable {σ D : Type} [DecidableEq D] {adapter : ExportingAdapter Bytes σ}
  {refreshInterval : Option Nat} {sha256 : Bytes → D} {concerned : Entry Bytes → Prop}
  {world after : RefreshWorld σ D}

omit [DecidableEq D] in
theorem start_holds (state : State Bytes) (store : σ) :
    (start state store : RefreshWorld σ D).Holds adapter sha256 concerned where
  digest := rfl
  sized := by rintro entries ⟨⟩
  exchanged := by
    rintro (synced | ⟨begun, synced⟩)
    · exact RefreshPhase.noConfusion synced
    · exact RefreshPhase.noConfusion synced
  settled := by rintro _ entries ⟨⟩

theorem detect_frame {changed : Bool} (detected : world.detect adapter sha256 = (changed, after)) :
    after.state = world.state ∧ after.begun = world.begun := by
  rw [detect] at detected
  split at detected
  · split at detected
    · obtain ⟨_, rfl⟩ := Prod.mk.inj detected
      exact ⟨rfl, rfl⟩
    · obtain ⟨_, rfl⟩ := Prod.mk.inj detected
      exact ⟨rfl, rfl⟩
  · obtain ⟨_, rfl⟩ := Prod.mk.inj detected
    exact ⟨rfl, rfl⟩

theorem detect_cases (injective : Function.Injective sha256)
    (digest : world.lastDigest = world.exported.map (hashEntries sha256))
    (recorded : ∀ entries, world.exported = some entries → ∀ entry ∈ entries, entry.Sized)
    (fits : world.Fits adapter) {changed : Bool}
    (detected : world.detect adapter sha256 = (changed, after)) :
    after.lastDigest = after.exported.map (hashEntries sha256) ∧
      (∀ entries, after.exported = some entries → ∀ entry ∈ entries, entry.Sized) ∧
      (changed = false → after.exported = world.exported ∧ ∀ entry,
        adapter.Exports world.state entry →
          ∃ entries, world.exported = some entries ∧ entry ∈ entries) := by
  rw [detect] at detected
  cases exported : adapter.exportSnapshot world.state with
  | error error =>
      rw [exported] at detected
      obtain ⟨rfl, rfl⟩ := Prod.mk.inj detected
      refine ⟨digest, recorded, fun _ => ⟨rfl, ?_⟩⟩
      rintro entry ⟨entries, ok, _⟩
      simp [exported] at ok
  | ok entries =>
      have sized : ∀ entry ∈ entries, entry.Sized :=
        fun entry member => fits entry ⟨entries, exported, member⟩
      rw [exported] at detected
      dsimp only at detected
      split at detected
      · obtain ⟨rfl, rfl⟩ := Prod.mk.inj detected
        refine ⟨rfl, ?_, fun unchanged => Bool.noConfusion unchanged⟩
        rintro _ ⟨⟩
        exact sized
      · rename_i same
        obtain ⟨rfl, rfl⟩ := Prod.mk.inj detected
        refine ⟨digest, recorded, fun _ => ⟨rfl, ?_⟩⟩
        rintro entry ⟨listed, ok, member⟩
        obtain rfl := Except.ok.inj (exported.symm.trans ok)
        rw [not_not, digest] at same
        obtain ⟨earlier, hashed, digests⟩ := Option.map_eq_some_iff.mp same
        refine ⟨earlier, hashed, ?_⟩
        exact (hashEntries_perm injective (recorded earlier hashed) sized digests).mem_iff.mpr member

theorem tick_cases {elapsed : Nat} (injective : Function.Injective sha256)
    (holds : world.Holds adapter sha256 concerned)
    (ticked : world.step adapter refreshInterval sha256 (.tick elapsed) = some after)
    (fits : after.Fits adapter) :
    after.Holds adapter sha256 concerned ∧
      (after.phase = .waiting → ∀ entry, adapter.Exports after.state entry →
        ∃ entries, after.exported = some entries ∧ entry ∈ entries) := by
  cases phase : world.phase with
  | refreshing synced => simp [step, phase] at ticked
  | exchanging synced begun => simp [step, phase] at ticked
  | waiting =>
      rcases detected : (world.syncTick adapter).detect adapter sha256 with ⟨changed, next⟩
      simp only [step, phase, detected, Option.some.injEq] at ticked
      obtain ⟨states, begun⟩ := detect_frame detected
      have before : (world.syncTick adapter).Fits adapter := by
        rw [← ticked] at fits
        intro entry exports
        exact fits entry (states ▸ exports)
      have recorded : (world.syncTick adapter).lastDigest =
          (world.syncTick adapter).exported.map (hashEntries sha256) := holds.digest
      obtain ⟨digest, sized, unchanged⟩ :=
        detect_cases injective recorded holds.sized before detected
      have quiet : after.phase = .waiting → changed = false := by
        intro skips
        rw [← ticked] at skips
        cases changed with
        | false => rfl
        | true => exact RefreshPhase.noConfusion skips
      have unsynced : ∀ begun, after.phase ≠ .refreshing true ∧
          after.phase ≠ .exchanging true begun := by
        intro begun
        rw [← ticked]
        dsimp only
        split
        · exact ⟨RefreshPhase.noConfusion, RefreshPhase.noConfusion⟩
        · exact ⟨fun same => Bool.noConfusion (RefreshPhase.refreshing.inj same),
            RefreshPhase.noConfusion⟩
      subst ticked
      refine ⟨⟨digest, sized, ?_, ?_⟩, ?_⟩
      · rintro (synced | ⟨first, synced⟩)
        · exact absurd synced (unsynced world.state).1
        · exact absurd synced (unsynced first).2
      · intro skips entries recorded entry member matters
        obtain ⟨same, _⟩ := unchanged (quiet skips)
        obtain ⟨first, listed, exports⟩ :=
          holds.settled phase entries (same ▸ recorded) entry member matters
        exact ⟨first, begun ▸ listed, exports⟩
      · intro skips entry exports
        obtain ⟨same, listed⟩ := unchanged (quiet skips)
        obtain ⟨entries, recorded, member⟩ := listed entry (states ▸ exports)
        exact ⟨entries, same.trans recorded, member⟩

theorem Holds.step (injective : Function.Injective sha256)
    (holds : world.Holds adapter sha256 concerned) {event : RefreshEvent σ}
    (allowed : world.Allowed adapter refreshInterval sha256 concerned event)
    (stepped : world.step adapter refreshInterval sha256 event = some after) :
    after.Holds adapter sha256 concerned := by
  cases event with
  | write state store =>
      obtain rfl := Option.some.inj stepped
      exact ⟨holds.digest, holds.sized, holds.exchanged, holds.settled⟩
  | tick elapsed => exact (tick_cases injective holds stepped (allowed.2 after stepped)).1
  | candidate =>
      cases phase : world.phase with
      | waiting => simp [RefreshWorld.step, phase] at stepped
      | exchanging synced begun => simp [RefreshWorld.step, phase] at stepped
      | refreshing synced =>
          have exchanged := holds.exchanged
          have settled := holds.settled
          rw [phase] at exchanged settled
          simp only [RefreshWorld.step, phase] at stepped
          split at stepped
          · obtain rfl := Option.some.inj stepped
            refine ⟨holds.digest, holds.sized, ?_, fun waits => RefreshPhase.noConfusion waits⟩
            rintro (again | ⟨begun, again⟩)
            · exact RefreshPhase.noConfusion again
            · obtain ⟨rfl, _⟩ := RefreshPhase.exchanging.inj again
              exact exchanged (Or.inl rfl)
          · obtain rfl := Option.some.inj stepped
            exact ⟨holds.digest, holds.sized, exchanged, settled⟩
  | finish success =>
      cases phase : world.phase with
      | waiting => simp [RefreshWorld.step, phase] at stepped
      | refreshing synced => simp [RefreshWorld.step, phase] at stepped
      | exchanging synced begun =>
          simp only [RefreshWorld.step, phase, Option.some.injEq] at stepped
          subst stepped
          refine ⟨holds.digest, holds.sized, ?_, fun waits => RefreshPhase.noConfusion waits⟩
          rintro (again | ⟨first, again⟩)
          · cases success with
            | true => exact List.cons_ne_nil begun world.begun
            | false =>
                have earlier := RefreshPhase.refreshing.inj again
                rw [Bool.or_false] at earlier
                exact holds.exchanged (Or.inr ⟨begun, earlier ▸ phase⟩)
          · exact RefreshPhase.noConfusion again
  | endRound =>
      obtain ⟨settles, fits⟩ := allowed
      have afterFits := fits after stepped
      simp only [Settles] at settles
      cases phase : world.phase with
      | waiting => simp [RefreshWorld.step, phase] at stepped
      | exchanging synced begun => simp [RefreshWorld.step, phase] at stepped
      | refreshing synced =>
          cases synced with
          | false =>
              simp only [RefreshWorld.step, phase, Option.some.injEq] at stepped
              simp only [phase] at settles
              subst stepped
              refine ⟨holds.digest, holds.sized, ?_, fun _ => settles⟩
              rintro (again | ⟨first, again⟩)
              · exact RefreshPhase.noConfusion again
              · exact RefreshPhase.noConfusion again
          | true =>
              have exchanged := holds.exchanged (Or.inl phase)
              simp only [RefreshWorld.step, phase] at stepped
              cases exported : adapter.exportSnapshot world.state with
              | error error =>
                  simp only [exported, Option.some.injEq] at stepped
                  simp only [phase, exported] at settles
                  subst stepped
                  exact ⟨holds.digest, holds.sized, fun _ => exchanged, fun _ => settles⟩
              | ok entries =>
                  simp only [exported, Option.some.injEq] at stepped
                  simp only [phase, exported] at settles
                  subst stepped
                  refine ⟨rfl, ?_, fun _ => exchanged, ?_⟩
                  · rintro _ ⟨⟩ entry member
                    exact afterFits entry ⟨entries, exported, member⟩
                  · rintro _ _ ⟨⟩ entry member matters
                    obtain ⟨first, rest, begun⟩ := List.exists_cons_of_ne_nil exchanged
                    refine ⟨first, ?_, settles first ?_ entry member matters⟩
                    · exact begun ▸ List.mem_cons_self
                    · rw [begun, List.head?_cons]

end RefreshWorld

section AutoRefresh

open RefreshWorld

/-- If every round settles, an iteration skips its exchanges only when all it exports had been in
the state when an exchange that succeeded began. -/
theorem autoRefresh_keeps_changes {σ D : Type} [DecidableEq D]
    (adapter : ExportingAdapter Bytes σ) (refreshInterval : Option Nat) {sha256 : Bytes → D}
    (injective : Function.Injective sha256) (concerned : Entry Bytes → Prop)
    {state : State Bytes} {store : σ} {world after : RefreshWorld σ D} {elapsed : Nat}
    (reached : Transition.Reaches (step adapter refreshInterval sha256)
      (Allowed adapter refreshInterval sha256 concerned) (start state store) world)
    (ticked : step adapter refreshInterval sha256 world (.tick elapsed) = some after)
    (fits : after.Fits adapter) (skips : after.phase = .waiting) {entry : Entry Bytes}
    (exports : adapter.Exports after.state entry) (matters : concerned entry) :
    ∃ begun ∈ after.begun, adapter.Exports begun entry := by
  have holds : world.Holds adapter sha256 concerned := by
    refine reached.invariant (motive := fun world => world.Holds adapter sha256 concerned)
      (start_holds state store) ?_
    intro before event next kept allowed stepped
    exact kept.step injective allowed stepped
  obtain ⟨kept, recorded⟩ := tick_cases injective holds ticked fits
  obtain ⟨entries, exported, member⟩ := recorded skips entry exports
  exact kept.settled skips entries exported entry member matters

def noteFile : JsonFileAdapter where
  id := "notes"
  path := "notes.json"
  key := "notes"

def noteRefresh : ExportingAdapter Bytes Files := { noteFile.dataAdapter with }

def refreshStep : RefreshWorld Files Bytes → RefreshEvent Files → Option (RefreshWorld Files Bytes) :=
  step noteRefresh none id

def editedDesk : RefreshWorld Files Bytes :=
  start (State.new "desk" "first")
    (Files.ofContents fun path => if path = noteFile.path then some [1] else none)

/-- The next iteration skips its exchanges, with an entry that no exchange that succeeded could
have sent. -/
def Forgotten (events : List (RefreshEvent Files)) : Prop :=
  ∃ world after entry, Transition.run refreshStep editedDesk events = some world ∧
    refreshStep world (.tick 0) = some after ∧ after.phase = .waiting ∧
    noteRefresh.Exports after.state entry ∧
    ¬∃ begun ∈ after.begun, noteRefresh.Exports begun entry

def nobodyNearby : List (RefreshEvent Files) := [.tick 0, .endRound]

def noteState : State Bytes := ((State.new "desk" "first").set "notes" [1]).2

def editedMeanwhile : List (RefreshEvent Files) :=
  [.tick 0, .candidate, .write (noteState.set "notes" [2]).2 editedDesk.store, .finish true, .endRound]

theorem autoRefresh_forgets : Forgotten nobodyNearby ∧ Forgotten editedMeanwhile := by
  constructor
  · refine ⟨_, _, { key := "notes", value := [1], clock := { counter := 1, deviceId := "desk" } },
      rfl, rfl, rfl, ⟨_, rfl, List.mem_singleton.mpr rfl⟩, ?_⟩
    rintro ⟨begun, none, _⟩
    exact List.not_mem_nil none
  · refine ⟨_, _, { key := "notes", value := [2], clock := { counter := 2, deviceId := "desk" } },
      rfl, rfl, rfl, ⟨_, rfl, List.mem_singleton.mpr rfl⟩, ?_⟩
    rintro ⟨begun, first, entries, exported, member⟩
    obtain rfl := List.mem_singleton.mp first
    obtain rfl := Except.ok.inj exported
    exact absurd (List.mem_singleton.mp member) (by decide)

theorem noteState_fits {world : RefreshWorld Files Bytes}
    (same : world.state.snapshot = noteState.snapshot) : world.Fits noteRefresh := by
  rintro entry ⟨entries, exported, member⟩
  obtain rfl := Except.ok.inj exported
  rw [same] at member
  obtain rfl := List.mem_singleton.mp member
  exact ⟨by decide, by decide, by decide, by decide⟩

def syncedDesk : RefreshWorld Files Bytes where
  state := noteState
  store := editedDesk.store
  cache := {}
  lastDigest := some (hashEntries id noteState.snapshot)
  phase := .waiting
  begun := [noteState]
  exported := some noteState.snapshot

theorem syncedDesk_reached : Transition.Reaches refreshStep
    (Allowed noteRefresh none id fun _ => True) editedDesk syncedDesk := by
  have ran : Transition.run refreshStep editedDesk
      [.tick 0, .candidate, .finish true, .endRound] = some syncedDesk := rfl
  refine Transition.reaches_along ran ?_
  intro ticked tick
  obtain rfl := Option.some.inj tick
  refine ⟨⟨trivial, fun _ again => (Option.some.inj again) ▸ noteState_fits rfl⟩, ?_⟩
  intro begun candidate
  obtain rfl := Option.some.inj candidate
  refine ⟨⟨trivial, fun _ again => (Option.some.inj again) ▸ noteState_fits rfl⟩, ?_⟩
  intro finished finish
  obtain rfl := Option.some.inj finish
  refine ⟨⟨trivial, fun _ again => (Option.some.inj again) ▸ noteState_fits rfl⟩, ?_⟩
  intro ended endRound
  refine ⟨⟨?_, fun _ again => (Option.some.inj again) ▸ noteState_fits rfl⟩, trivial⟩
  rintro _ ⟨⟩ entry member _
  exact ⟨_, rfl, member⟩

theorem autoRefresh_keeps_changes_note : ∃ after : RefreshWorld Files Bytes,
    refreshStep syncedDesk (.tick 0) = some after ∧ after.phase = .waiting ∧
    ∀ entry, noteRefresh.Exports after.state entry →
      ∃ begun ∈ after.begun, noteRefresh.Exports begun entry :=
  ⟨_, rfl, rfl, fun _ exports => autoRefresh_keeps_changes noteRefresh none Function.injective_id
    (fun _ => True) syncedDesk_reached rfl (noteState_fits rfl) rfl exports trivial⟩

end AutoRefresh

end LibreSync
