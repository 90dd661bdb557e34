import LibreSync.EngineFiles
import LibreSync.SqliteDelta

/-!
The adapter of a database file: its bytes, or a page delta over them, and the
WAL and shared-memory files beside it.
-/

namespace LibreSync

structure SqliteFileAdapter where
  id : String
  path : String
  key : String
  pageDelta : Option Nat
  paged : ∀ size ∈ pageDelta, 512 ≤ size

/-- A write that an unchanged value skips. -/
def State.setChanged (state : State Bytes) (key : String) (bytes : Bytes) : State Bytes :=
  if state.get key ≠ some bytes then (state.set key bytes).2 else state

theorem get_setChanged (state : State Bytes) (key query : String) (bytes : Bytes) :
    (state.setChanged key bytes).get query = if query = key then some bytes else state.get query := by
  rw [State.setChanged]
  split
  · exact EngineWorld.get_set state key query bytes
  · rename_i same
    split
    · rename_i here
      rw [here, not_not.mp same]
    · rfl

namespace SqliteFileAdapter

def new (id path : String) : SqliteFileAdapter where
  id := id
  path := path
  key := id
  pageDelta := none
  paged := by simp

def withKey (adapter : SqliteFileAdapter) (key : String) : SqliteFileAdapter :=
  { adapter with key := key }

def withPageDelta (adapter : SqliteFileAdapter) (pageSize : Nat) : SqliteFileAdapter :=
  { adapter with
    pageDelta := some (max pageSize 512)
    paged := by simp }

variable (adapter : SqliteFileAdapter)

def walPath : String := adapter.path ++ "-wal"

def shmPath : String := adapter.path ++ "-shm"

def walKey : String := adapter.key ++ ":wal"

def shmKey : String := adapter.key ++ ":shm"

def deltaKey : String := adapter.key ++ ":delta"

def updateState (state : State Bytes) (bytes : Bytes) : Except Error Unit × State Bytes :=
  match adapter.pageDelta, state.get adapter.key with
  | some pageSize, some base =>
      let delta := computePageDelta base bytes pageSize
      if delta.pages = [] then (.ok (), state.setChanged adapter.deltaKey [])
      else match encodeSqliteDelta delta with
        | .error error => (.error error, state)
        | .ok deltaBytes =>
            if deltaBytes.length < bytes.length then
              (.ok (), state.setChanged adapter.deltaKey deltaBytes)
            else (.ok (), (state.setChanged adapter.key bytes).setChanged adapter.deltaKey [])
  | _, _ => (.ok (), state.setChanged adapter.key bytes)

/-- A panic ends the caller as an error does. -/
def outputOf : Option Bytes → Except Error (Option Bytes)
  | some output => .ok (some output)
  | none => .error (.protocol "capacity overflow")

def bytesFromState (state : State Bytes) : Except Error (Option Bytes) :=
  match state.get adapter.key, state.get adapter.deltaKey with
  | some base, some deltaBytes =>
      if deltaBytes = [] then .ok (some base)
      else match decodeSqliteDelta deltaBytes with
        | .ok delta => outputOf (applyPageDelta base delta)
        | .error _ => .ok (some base)
  | base, _ => .ok base

def Survives (state : State Bytes) (bytes : Bytes) : Prop :=
  (adapter.updateState state bytes).1 = .ok () ∧
    adapter.bytesFromState (adapter.updateState state bytes).2 = .ok (some bytes)

instance (state : State Bytes) (bytes : Bytes) : Decidable (adapter.Survives state bytes) :=
  inferInstanceAs (Decidable (_ ∧ _))

/--
Over a base the file is not cut down to whole pages of it; without one, or
without page deltas, a delta that the state already holds repeats the file.
-/
def Kept (state : State Bytes) (bytes : Bytes) : Prop :=
  match adapter.pageDelta, state.get adapter.key with
  | some pageSize, some base => ¬(bytes ≠ base ∧ bytes <+: base ∧ pageSize ∣ bytes.length)
  | _, _ => ∀ stored delta, state.get adapter.deltaKey = some stored →
      decodeSqliteDelta stored = .ok delta → delta.Repeats bytes

/-- The numbers of a page delta of the file, which a `Vec` holds, fit 32 bits. -/
def Narrow (bytes : Bytes) : Prop :=
  bytes.length < 2 ^ 32 ∨ ∀ pageSize ∈ adapter.pageDelta, pageSize < 2 ^ 32 ∧
    bytes.length ≤ (2 ^ 32 - 1) * pageSize ∧ bytes.length ≤ isizeMax

theorem append_ne (key suffix : String) (written : suffix ≠ "") : key ++ suffix ≠ key := by
  intro same
  have sizes := congrArg String.toList same
  rw [String.toList_append, List.append_right_eq_self] at sizes
  exact written (String.toList_eq_nil_iff.mp sizes)

@[simp] theorem deltaKey_ne : adapter.deltaKey ≠ adapter.key :=
  append_ne adapter.key ":delta" (by decide)

variable {adapter} {state : State Bytes} {bytes base : Bytes}

theorem outputOf_ok {output : Option Bytes} : outputOf output = .ok (some bytes) ↔ output = some bytes := by
  cases output <;> simp [outputOf]

theorem bytesFromState_stored (present : state.get adapter.key = some base) {stored : Bytes}
    (held : state.get adapter.deltaKey = some stored) : adapter.bytesFromState state =
      match decodeSqliteDelta stored with
      | .ok delta => outputOf (applyPageDelta base delta)
      | .error _ => .ok (some base) := by
  rw [bytesFromState, present, held]
  simp only
  split
  · rename_i empty
    rw [empty]
    rfl
  · rfl

theorem bytesFromState_plain (present : state.get adapter.key = some base)
    (empty : state.get adapter.deltaKey = none ∨ state.get adapter.deltaKey = some []) :
    adapter.bytesFromState state = .ok (some base) := by
  rcases empty with missing | cleared
  · rw [bytesFromState, present, missing]
  · rw [bytesFromState_stored present cleared]
    rfl

theorem updateState_page {pageSize : Nat} (paging : adapter.pageDelta = some pageSize)
    (present : state.get adapter.key = some base) : adapter.updateState state bytes =
      if (computePageDelta base bytes pageSize).pages = [] then
        (.ok (), state.setChanged adapter.deltaKey [])
      else match encodeSqliteDelta (computePageDelta base bytes pageSize) with
        | .error error => (.error error, state)
        | .ok deltaBytes =>
            if deltaBytes.length < bytes.length then
              (.ok (), state.setChanged adapter.deltaKey deltaBytes)
            else (.ok (), (state.setChanged adapter.key bytes).setChanged adapter.deltaKey []) := by
  rw [updateState, paging, present]

theorem survives_whole (whole : adapter.pageDelta = none ∨ state.get adapter.key = none) :
    adapter.Survives state bytes ↔ ∀ stored delta, state.get adapter.deltaKey = some stored →
      decodeSqliteDelta stored = .ok delta → delta.Repeats bytes := by
  have update : adapter.updateState state bytes = (.ok (), state.setChanged adapter.key bytes) := by
    rw [updateState]
    rcases whole with plain | fresh
    · rw [plain]
    · rw [fresh]
      cases adapter.pageDelta <;> rfl
  have present : (state.setChanged adapter.key bytes).get adapter.key = some bytes := by
    rw [get_setChanged, if_pos rfl]
  have delta : (state.setChanged adapter.key bytes).get adapter.deltaKey =
      state.get adapter.deltaKey := by
    rw [get_setChanged, if_neg adapter.deltaKey_ne]
  rw [Survives, update]
  simp only [true_and]
  cases held : state.get adapter.deltaKey with
  | none =>
      rw [bytesFromState_plain present (Or.inl (delta.trans held))]
      simp
  | some stored =>
      rw [bytesFromState_stored present (delta.trans held)]
      cases decoded : decodeSqliteDelta stored with
      | error error =>
          refine iff_of_true rfl ?_
          intro found delta same read
          rw [← Option.some.inj same, decoded] at read
          simp at read
      | ok delta =>
          have same := applyPageDelta_self_iff (decodeSqliteDelta_within decoded) bytes
          simp only [Option.some.injEq, outputOf_ok, same]
          constructor
          · rintro repeated found again rfl read
            rwa [← Except.ok.inj (decoded.symm.trans read)]
          · intro all
            exact all stored delta rfl decoded

theorem survives_full {pageSize : Nat} (paging : adapter.pageDelta = some pageSize)
    (present : state.get adapter.key = some base)
    (differs : (computePageDelta base bytes pageSize).pages ≠ []) {encoded : Bytes}
    (encodes : encodeSqliteDelta (computePageDelta base bytes pageSize) = .ok encoded)
    (long : ¬encoded.length < bytes.length) : adapter.Survives state bytes := by
  rw [Survives, updateState_page paging present, if_neg differs, encodes]
  simp only [if_neg long, true_and]
  refine bytesFromState_plain ?_ (Or.inr ?_)
  · rw [get_setChanged, if_neg adapter.deltaKey_ne.symm, get_setChanged, if_pos rfl]
  · rw [get_setChanged, if_pos rfl]

theorem survives_delta {pageSize : Nat} (paging : adapter.pageDelta = some pageSize)
    (present : state.get adapter.key = some base)
    (differs : (computePageDelta base bytes pageSize).pages ≠ []) (fits : Fits bytes pageSize)
    (held : bytes.length ≤ isizeMax) : adapter.Survives state bytes := by
  have valid := fits.valid base
  by_cases short : (computePageDelta base bytes pageSize).encoded.length < bytes.length
  · rw [Survives, updateState_page paging present, if_neg differs, valid.encodes]
    simp only [if_pos short, true_and]
    have kept : (state.setChanged adapter.deltaKey (computePageDelta base bytes pageSize).encoded).get
        adapter.key = some base := by
      rw [get_setChanged, if_neg adapter.deltaKey_ne.symm, present]
    have stored : (state.setChanged adapter.deltaKey (computePageDelta base bytes pageSize).encoded).get
        adapter.deltaKey = some (computePageDelta base bytes pageSize).encoded := by
      rw [get_setChanged, if_pos rfl]
    rw [bytesFromState_stored kept stored, valid.decodes]
    simp only [fits.applied held, outputOf]
  · exact survives_full paging present differs valid.encodes short

theorem survives_single {pageSize : Nat} (paging : adapter.pageDelta = some pageSize)
    (present : state.get adapter.key = some base)
    (differs : (computePageDelta base bytes pageSize).pages ≠ [])
    (small : bytes.length < 2 ^ 32) (wide : 2 ^ 32 ≤ pageSize) : adapter.Survives state bytes := by
  have one : (bytes.length + pageSize - 1) / pageSize < 2 := by
    rw [Nat.div_lt_iff_lt_mul (by omega)]
    omega
  have pages : (computePageDelta base bytes pageSize).pages = [{ index := 0, bytes := bytes }] := by
    have page : pageOf bytes pageSize 0 = bytes := by
      rw [pageOf, Nat.zero_mul, List.drop_zero, List.take_of_length_le (by omega)]
    simp only [computePageDelta] at differs ⊢
    generalize (bytes.length + pageSize - 1) / pageSize = count at one differs ⊢
    interval_cases count
    · simp at differs
    · simp only [List.range_one, List.filterMap_cons, List.filterMap_nil, page] at differs ⊢
      split at differs <;> simp_all
  have encodes : encodeSqliteDelta (computePageDelta base bytes pageSize) =
      .ok (computePageDelta base bytes pageSize).encoded := by
    rw [encodeSqliteDelta, pages]
    simp
    omega
  refine survives_full paging present differs encodes ?_
  rw [length_encoded, pages]
  simp [PageDelta.encode]
  omega

/-- With a base, the bytes survive unless the file is a proper run of the base's whole pages. -/
theorem survives_over {pageSize : Nat} (paging : adapter.pageDelta = some pageSize)
    (present : state.get adapter.key = some base) (narrow : adapter.Narrow bytes) :
    adapter.Survives state bytes ↔ ¬(bytes ≠ base ∧ bytes <+: base ∧ pageSize ∣ bytes.length) := by
  have paged := adapter.paged pageSize paging
  by_cases none : (computePageDelta base bytes pageSize).pages = []
  · have update : adapter.updateState state bytes = (.ok (), state.setChanged adapter.deltaKey []) := by
      rw [updateState_page paging present, if_pos none]
    have plain : adapter.bytesFromState (state.setChanged adapter.deltaKey []) = .ok (some base) := by
      refine bytesFromState_plain ?_ (Or.inr ?_)
      · rw [get_setChanged, if_neg adapter.deltaKey_ne.symm, present]
      · rw [get_setChanged, if_pos rfl]
    have shape := (pages_nil_iff (by omega)).mp none
    simp only [Survives, update, plain, Except.ok.injEq, Option.some.injEq, true_and]
    constructor
    · rintro rfl ⟨differs, -⟩
      exact differs rfl
    · intro kept
      rcases shape with same | cut
      · exact same.symm
      · by_contra differs
        exact kept ⟨Ne.symm differs, cut⟩
  · refine iff_of_true ?_ fun cut => none ((pages_nil_iff (by omega)).mpr (Or.inr cut.2))
    by_cases small : pageSize < 2 ^ 32
    · have large : 2 ^ 32 ≤ isizeMax := by norm_num [isizeMax]
      rcases narrow with short | fitting
      · have rows : bytes.length ≤ (2 ^ 32 - 1) * pageSize :=
          (show bytes.length ≤ 2 ^ 32 - 1 by omega).trans (Nat.le_mul_of_pos_right _ (by omega))
        exact survives_delta paging present none ⟨by omega, small, rows⟩ (by omega)
      · obtain ⟨-, rows, held⟩ := fitting pageSize paging
        exact survives_delta paging present none ⟨by omega, small, rows⟩ held
    · rcases narrow with short | fitting
      · exact survives_single paging present none short (not_lt.mp small)
      · exact absurd (fitting pageSize paging).1 small

theorem updateState_survives (adapter : SqliteFileAdapter) (state : State Bytes) (bytes : Bytes)
    (narrow : (state.get adapter.key).isSome = true → adapter.Narrow bytes) :
    adapter.Survives state bytes ↔ adapter.Kept state bytes := by
  rw [Kept]
  cases paging : adapter.pageDelta with
  | none => exact survives_whole (Or.inl paging)
  | some pageSize =>
      cases present : state.get adapter.key with
      | none => exact survives_whole (Or.inr present)
      | some base => exact survives_over paging present (narrow (by rw [present]; rfl))

def notes : SqliteFileAdapter := (new "notes" "notes.db").withPageDelta 512

theorem updateState_survives_notes :
    notes.Survives (notes.updateState (State.new "desk" "first") [7]).2 [7, 8] ↔
      notes.Kept (notes.updateState (State.new "desk" "first") [7]).2 [7, 8] :=
  updateState_survives notes _ _ fun _ => Or.inl (by decide)

/-- Emptied, a file of one byte comes back as it was. -/
theorem notes_emptied : ¬notes.Survives (notes.updateState (State.new "desk" "first") [7]).2 [] := by
  decide +kernel

end SqliteFileAdapter

end LibreSync
