import LibreSync.Adapter

/-! The whole-file adapter, which copies one file into one entry of the state and back. -/

namespace LibreSync

/-- The files of a device, what each has ever held, and which the device may read and write. -/
structure Files where
  contents : String → Option Bytes
  held : String → List Bytes
  readable : String → Bool
  writable : String → Bool

namespace Files

def ofContents (contents : String → Option Bytes) : Files where
  contents := contents
  held path := (contents path).toList
  readable _ := true
  writable _ := true

def put (files : Files) (path : String) (bytes : Bytes) : Files :=
  { files with
    contents := Function.update files.contents path (some bytes)
    held := Function.update files.held path (bytes :: files.held path) }

def write (files : Files) (path : String) (bytes : Bytes) : Except Error Unit × Files :=
  if files.writable path then (.ok (), files.put path bytes)
  else (.error (.io "permission denied"), files)

def read (files : Files) (path : String) : Except Error Bytes :=
  match files.contents path with
  | some bytes => if files.readable path then .ok bytes else .error (.io "permission denied")
  | none => .error (.io "no such file")

theorem read_of_some {files : Files} {path : String} {bytes : Bytes}
    (present : files.contents path = some bytes) : files.read path =
      if files.readable path then .ok bytes else .error (.io "permission denied") := by
  simp only [read, present]

theorem contents_of_read {files : Files} {path : String} {bytes : Bytes}
    (read : files.read path = .ok bytes) : files.contents path = some bytes := by
  simp only [Files.read] at read
  split at read
  · rename_i present
    split at read
    · rw [present, Except.ok.inj read]
    · simp at read
  · simp at read

@[simp] theorem put_contents_self (files : Files) (path : String) (bytes : Bytes) :
    (files.put path bytes).contents path = some bytes := by
  simp [put]

@[simp] theorem put_held_self (files : Files) (path : String) (bytes : Bytes) :
    (files.put path bytes).held path = bytes :: files.held path := by
  simp [put]

theorem put_ne (files : Files) {path other : String} (bytes : Bytes) (distinct : other ≠ path) :
    (files.put path bytes).contents other = files.contents other ∧
      (files.put path bytes).held other = files.held other := by
  simp [put, Function.update_of_ne distinct]

def Recorded (files : Files) : Prop :=
  ∀ path, files.contents path = (files.held path).head?

theorem ofContents_recorded (contents : String → Option Bytes) : (ofContents contents).Recorded := by
  intro path
  simp only [ofContents]
  cases contents path <;> rfl

theorem Recorded.put {files : Files} (recorded : files.Recorded) (path : String) (bytes : Bytes) :
    (files.put path bytes).Recorded := by
  intro other
  by_cases here : other = path
  · subst here
    simp
  · rw [(files.put_ne bytes here).1, (files.put_ne bytes here).2]
    exact recorded other

end Files

structure JsonFileAdapter where
  id : String
  path : String
  key : String
deriving DecidableEq, Repr

def emptyDocument : Bytes := [123, 125]

namespace JsonFileAdapter

variable (adapter : JsonFileAdapter)

def ensureFile (files : Files) : Except Error Unit × Files :=
  if (files.contents adapter.path).isSome then (.ok (), files)
  else files.write adapter.path emptyDocument

def loadIntoState (state : State Bytes) (files : Files) :
    Except Error Unit × State Bytes × Files :=
  match adapter.ensureFile files with
  | (.error error, files) => (.error error, state, files)
  | (.ok (), files) =>
      match files.read adapter.path with
      | .error error => (.error error, state, files)
      | .ok bytes =>
          if state.get adapter.key ≠ some bytes then
            (.ok (), (state.set adapter.key bytes).2, files)
          else (.ok (), state, files)

def applyFromState (state : State Bytes) (files : Files) : Except Error Unit × Files :=
  match state.get adapter.key with
  | none => (.ok (), files)
  | some bytes =>
      match adapter.ensureFile files with
      | (.error error, files) => (.error error, files)
      | (.ok (), files) =>
          match files.read adapter.path with
          | .error error => (.error error, files)
          | .ok existing =>
              if existing ≠ bytes then files.write adapter.path bytes else (.ok (), files)

/-- The first half of `sync_tick`: the state's entry goes to the file unless the cache has it. -/
def tickOut (state : State Bytes) (cache : AdapterCache Bytes) (files : Files) :
    Except Error Unit × AdapterCache Bytes × Files :=
  match state.get adapter.key with
  | none => (.ok (), cache, files)
  | some bytes =>
      if cache.lastBytes ≠ some bytes then
        match files.write adapter.path bytes with
        | (.error error, files) => (.error error, cache, files)
        | (.ok (), files) => (.ok (), { cache with lastBytes := some bytes }, files)
      else (.ok (), cache, files)

def syncTick (state : State Bytes) (cache : AdapterCache Bytes) (files : Files) :
    Except Error Unit × State Bytes × AdapterCache Bytes × Files :=
  match adapter.ensureFile files with
  | (.error error, files) => (.error error, state, cache, files)
  | (.ok (), files) =>
      match adapter.tickOut state cache files with
      | (.error error, cache, files) => (.error error, state, cache, files)
      | (.ok (), cache, files) =>
          match files.read adapter.path with
          | .error error => (.error error, state, cache, files)
          | .ok fileBytes =>
              if state.get adapter.key ≠ some fileBytes then
                (.ok (), (state.set adapter.key fileBytes).2, cache, files)
              else (.ok (), state, cache, files)

def dataAdapter : DataAdapter Bytes Files where
  id := adapter.id
  loadIntoState := adapter.loadIntoState
  applyFromState := adapter.applyFromState
  syncTick := adapter.syncTick
  ownsKey key := key = adapter.key

inductive Copy : State Bytes × Files → State Bytes × Files → Prop where
  | create {state : State Bytes} {files : Files} (absent : files.contents adapter.path = none) :
      Copy (state, files) (state, files.put adapter.path emptyDocument)
  | out {state : State Bytes} {files : Files} {bytes : Bytes}
      (entry : state.get adapter.key = some bytes) :
      Copy (state, files) (state, files.put adapter.path bytes)
  | back {state : State Bytes} {files : Files} {bytes : Bytes}
      (file : files.contents adapter.path = some bytes)
      (differs : state.get adapter.key ≠ some bytes) :
      Copy (state, files) ((state.set adapter.key bytes).2, files)

abbrev Copies : State Bytes × Files → State Bytes × Files → Prop :=
  Relation.ReflTransGen adapter.Copy

variable {adapter} {state : State Bytes} {files : Files} {cache : AdapterCache Bytes}

theorem ensureFile_copies (state : State Bytes) (files : Files) :
    adapter.Copies (state, files) (state, (adapter.ensureFile files).2) := by
  simp only [ensureFile, Files.write]
  split
  · exact Relation.ReflTransGen.refl
  · rename_i absent
    split
    · exact Relation.ReflTransGen.single (Copy.create (by simpa using absent))
    · exact Relation.ReflTransGen.refl

theorem loadIntoState_copies : adapter.Copies (state, files) (adapter.loadIntoState state files).2 := by
  have ensured := adapter.ensureFile_copies state files
  simp only [loadIntoState]
  split
  · rename_i ensure
    rwa [ensure] at ensured
  · rename_i ensure
    rw [ensure] at ensured
    split
    · exact ensured
    · rename_i bytes read
      split
      · rename_i differs
        exact ensured.tail (Copy.back (Files.contents_of_read read) differs)
      · exact ensured

theorem applyFromState_copies :
    adapter.Copies (state, files) (state, (adapter.applyFromState state files).2) := by
  have ensured := adapter.ensureFile_copies state files
  simp only [applyFromState, Files.write]
  split
  · exact Relation.ReflTransGen.refl
  · rename_i bytes entry
    split
    · rename_i ensure
      rwa [ensure] at ensured
    · rename_i ensure
      rw [ensure] at ensured
      split
      · exact ensured
      · split
        · split
          · exact ensured.tail (Copy.out entry)
          · exact ensured
        · exact ensured

variable (cache) in
theorem tickOut_copies :
    adapter.Copies (state, files) (state, (adapter.tickOut state cache files).2.2) := by
  simp only [tickOut]
  cases entry : state.get adapter.key with
  | none => exact Relation.ReflTransGen.refl
  | some bytes =>
      by_cases known : cache.lastBytes = some bytes
      · simp only [known, ne_eq, not_true, if_false]
        exact Relation.ReflTransGen.refl
      · cases writable : files.writable adapter.path with
        | true =>
            simp only [ne_eq, known, not_false_eq_true, if_true, Files.write, writable]
            exact Relation.ReflTransGen.single (Copy.out entry)
        | false =>
            simp only [ne_eq, known, not_false_eq_true, if_true, Files.write, writable,
              Bool.false_eq_true, if_false]
            exact Relation.ReflTransGen.refl

variable (cache) in
theorem syncTick_copies : adapter.Copies (state, files)
    ((adapter.syncTick state cache files).2.1, (adapter.syncTick state cache files).2.2.2) := by
  have ensured := adapter.ensureFile_copies state files
  simp only [syncTick]
  split
  · rename_i ensure
    rwa [ensure] at ensured
  · rename_i opened ensure
    rw [ensure] at ensured
    have written := ensured.trans (adapter.tickOut_copies cache)
    split
    · rename_i out
      rwa [out] at written
    · rename_i out
      rw [out] at written
      split
      · exact written
      · rename_i bytes read
        split
        · rename_i differs
          exact written.tail (Copy.back (Files.contents_of_read read) differs)
        · exact written

def Differs (adapter : JsonFileAdapter) (state : State Bytes) (files : Files) : Prop :=
  files.readable adapter.path = true ∧
    ∃ bytes, files.contents adapter.path = some bytes ∧ state.get adapter.key ≠ some bytes

theorem ensureFile_present {bytes : Bytes} (present : files.contents adapter.path = some bytes) :
    adapter.ensureFile files = (.ok (), files) := by
  simp only [ensureFile, present, Option.isSome_some, if_true]

variable (state) in
theorem loadIntoState_present {bytes : Bytes}
    (present : files.contents adapter.path = some bytes) :
    (adapter.Differs state files ∧
        (adapter.loadIntoState state files).2.1 = (state.set adapter.key bytes).2) ∨
      (¬adapter.Differs state files ∧ (adapter.loadIntoState state files).2.1 = state) := by
  cases readable : files.readable adapter.path with
  | false =>
      refine Or.inr ⟨fun differs => by simp [differs.1] at readable, ?_⟩
      simp [loadIntoState, ensureFile_present present, Files.read, present, readable]
  | true =>
      by_cases same : state.get adapter.key = some bytes
      · refine Or.inr ⟨?_, ?_⟩
        · rintro ⟨-, other, found, differs⟩
          obtain rfl := Option.some.inj (present.symm.trans found)
          exact differs same
        · simp [loadIntoState, ensureFile_present present, Files.read, present, readable, same]
      · refine Or.inl ⟨⟨readable, bytes, present, same⟩, ?_⟩
        simp [loadIntoState, ensureFile_present present, Files.read, present, readable, same]

def Cached (adapter : JsonFileAdapter) (state : State Bytes) (cache : AdapterCache Bytes) : Prop :=
  ∀ entry, state.get adapter.key = some entry → cache.lastBytes = some entry

theorem tickOut_cached (cached : adapter.Cached state cache) :
    adapter.tickOut state cache files = (.ok (), cache, files) := by
  simp only [tickOut]
  cases entry : state.get adapter.key with
  | none => rfl
  | some bytes => simp [cached bytes entry]

variable (state cache) in
theorem syncTick_present {bytes : Bytes} (present : files.contents adapter.path = some bytes) :
    (adapter.Differs state files ∧ adapter.Cached state cache ∧
        (adapter.syncTick state cache files).2.1 = (state.set adapter.key bytes).2) ∨
      (¬(adapter.Differs state files ∧ adapter.Cached state cache) ∧
        (adapter.syncTick state cache files).2.1 = state) := by
  by_cases cached : adapter.Cached state cache
  · have load : (adapter.syncTick state cache files).2.1 =
        (adapter.loadIntoState state files).2.1 := by
      simp only [syncTick, loadIntoState, ensureFile_present present, tickOut_cached cached]
      split
      · rfl
      · split <;> rfl
    rw [load]
    rcases adapter.loadIntoState_present state present with
      ⟨differs, loaded⟩ | ⟨same, loaded⟩
    · exact Or.inl ⟨differs, cached, loaded⟩
    · exact Or.inr ⟨fun both => same both.1, loaded⟩
  · refine Or.inr ⟨fun both => cached both.2, ?_⟩
    simp only [Cached, not_forall] at cached
    obtain ⟨entry, found, unknown⟩ := cached
    -- The write goes through, or it ends the tick; either way nothing is read back.
    cases writable : files.writable adapter.path with
    | false =>
        simp [syncTick, ensureFile_present present, tickOut, found, unknown, Files.write, writable]
    | true =>
        cases readable : files.readable adapter.path with
        | false =>
            simp [syncTick, ensureFile_present present, tickOut, found, unknown, Files.write,
              writable, Files.read, Files.put, readable]
        | true =>
            simp [syncTick, ensureFile_present present, tickOut, found, unknown, Files.write,
              writable, Files.read, Files.put, readable]

end JsonFileAdapter

end LibreSync
