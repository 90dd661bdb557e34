import LibreSync.Lib.Transition
import LibreSync.RecordRouting
import LibreSync.SqliteFile

/-!
A database file with its WAL and shared-memory files, loaded by several devices
into states whose entries are merged one key at a time.
-/

namespace LibreSync

/-- `fs::remove_file`, whose failure is ignored. -/
def Files.remove (files : Files) (path : String) : Files :=
  if files.writable path then { files with contents := Function.update files.contents path none }
  else files

structure Database where
  db : Bytes
  wal : Bytes
  shm : Bytes
deriving DecidableEq

namespace SqliteFileAdapter

variable (adapter : SqliteFileAdapter)

def ensureFile (files : Files) : Except Error Unit × Files :=
  if (files.contents adapter.path).isSome then (.ok (), files) else files.write adapter.path []

def readSidecar (files : Files) (path : String) : Except Error Bytes :=
  if (files.contents path).isSome then files.read path else .ok []

def loadSidecars (state : State Bytes) (files : Files) : Except Error Unit × State Bytes :=
  match readSidecar files adapter.walPath with
  | .error error => (.error error, state)
  | .ok wal =>
      let state := state.setChanged adapter.walKey wal
      match readSidecar files adapter.shmPath with
      | .error error => (.error error, state)
      | .ok shm => (.ok (), state.setChanged adapter.shmKey shm)

def loadIntoState (state : State Bytes) (files : Files) :
    Except Error Unit × State Bytes × Files :=
  match adapter.ensureFile files with
  | (.error error, files) => (.error error, state, files)
  | (.ok (), files) =>
      match files.read adapter.path with
      | .error error => (.error error, state, files)
      | .ok bytes =>
          match adapter.updateState state bytes with
          | (.error error, state) => (.error error, state, files)
          | (.ok (), state) =>
              let (result, state) := adapter.loadSidecars state files
              (result, state, files)

def applySidecar (state : State Bytes) (key path : String) (files : Files) :
    Except Error Unit × Files :=
  match state.get key with
  | none => (.ok (), files)
  | some bytes => if bytes = [] then (.ok (), files.remove path) else files.write path bytes

def applyBytes (state : State Bytes) (files : Files) : Except Error Unit × Files :=
  match adapter.bytesFromState state with
  | .error error => (.error error, files)
  | .ok none => (.ok (), files)
  | .ok (some bytes) =>
      match adapter.ensureFile files with
      | (.error error, files) => (.error error, files)
      | (.ok (), files) =>
          match files.read adapter.path with
          | .error error => (.error error, files)
          | .ok existing =>
              if existing ≠ bytes then files.write adapter.path bytes else (.ok (), files)

def applyFromState (state : State Bytes) (files : Files) : Except Error Unit × Files :=
  match adapter.applyBytes state files with
  | (.error error, files) => (.error error, files)
  | (.ok (), files) =>
      match applySidecar state adapter.walKey adapter.walPath files with
      | (.error error, files) => (.error error, files)
      | (.ok (), files) => applySidecar state adapter.shmKey adapter.shmPath files

def onDisk (files : Files) : Database where
  db := (files.contents adapter.path).getD []
  wal := (files.contents adapter.walPath).getD []
  shm := (files.contents adapter.shmPath).getD []

def reconstructed (state : State Bytes) : Except Error (Option Bytes) × Option Bytes × Option Bytes :=
  (adapter.bytesFromState state, state.get adapter.walKey, state.get adapter.shmKey)

variable {adapter} {state : State Bytes} {files : Files}

variable (adapter files) in
theorem onDisk_ensureFile :
    adapter.onDisk (adapter.ensureFile files).2 = adapter.onDisk files := by
  simp only [ensureFile, Files.write]
  split
  · rfl
  · rename_i absent
    split
    · have missing : files.contents adapter.path = none := by simpa using absent
      have wal : adapter.walPath ≠ adapter.path := append_ne adapter.path "-wal" (by decide)
      have shm : adapter.shmPath ≠ adapter.path := append_ne adapter.path "-shm" (by decide)
      simp only [onDisk, Files.put_contents_self, (files.put_ne [] wal).1, (files.put_ne [] shm).1,
        missing]
      rfl
    · rfl

theorem append_distinct (key : String) {first second : String} (distinct : first ≠ second) :
    key ++ first ≠ key ++ second := by
  intro same
  have texts := congrArg String.toList same
  rw [String.toList_append, String.toList_append, List.append_cancel_left_eq, String.toList_inj] at texts
  exact distinct texts

/-- The keys of a database, the bases and the sidecars apart. -/
structure Apart (adapter : SqliteFileAdapter) : Prop where
  wal_key : adapter.walKey ≠ adapter.key
  wal_delta : adapter.walKey ≠ adapter.deltaKey
  shm_key : adapter.shmKey ≠ adapter.key
  shm_delta : adapter.shmKey ≠ adapter.deltaKey
  shm_wal : adapter.shmKey ≠ adapter.walKey

theorem apart (adapter : SqliteFileAdapter) : adapter.Apart where
  wal_key := append_ne adapter.key ":wal" (by decide)
  wal_delta := append_distinct adapter.key (by decide)
  shm_key := append_ne adapter.key ":shm" (by decide)
  shm_delta := append_distinct adapter.key (by decide)
  shm_wal := append_distinct adapter.key (by decide)

def keys (adapter : SqliteFileAdapter) : List String :=
  [adapter.key, adapter.deltaKey, adapter.walKey, adapter.shmKey]

theorem bytesFromState_congr {other : State Bytes} (base : state.get adapter.key = other.get adapter.key)
    (delta : state.get adapter.deltaKey = other.get adapter.deltaKey) :
    adapter.bytesFromState state = adapter.bytesFromState other := by
  rw [bytesFromState, bytesFromState, base, delta]

theorem reconstructed_congr {other : State Bytes}
    (same : ∀ key ∈ adapter.keys, state.get key = other.get key) :
    adapter.reconstructed state = adapter.reconstructed other := by
  rw [reconstructed, reconstructed, same adapter.walKey (by simp [keys]),
    same adapter.shmKey (by simp [keys]),
    bytesFromState_congr (same adapter.key (by simp [keys])) (same adapter.deltaKey (by simp [keys]))]

def Readable (adapter : SqliteFileAdapter) (files : Files) : Prop :=
  files.readable adapter.walPath = true ∧ files.readable adapter.shmPath = true

theorem readSidecar_ok {path : String} (readable : files.readable path = true) :
    readSidecar files path = .ok ((files.contents path).getD []) := by
  rw [readSidecar]
  cases present : files.contents path with
  | none => rfl
  | some bytes =>
      rw [if_pos (by rfl), Files.read_of_some present, if_pos readable]
      rfl

theorem loadSidecars_ok (readable : adapter.Readable files) :
    adapter.loadSidecars state files = (.ok (),
      (state.setChanged adapter.walKey (adapter.onDisk files).wal).setChanged adapter.shmKey
        (adapter.onDisk files).shm) := by
  rw [loadSidecars, readSidecar_ok readable.1]
  simp only [readSidecar_ok readable.2]
  rfl

theorem reconstructed_sidecars (wal shm : Bytes) : adapter.reconstructed
    ((state.setChanged adapter.walKey wal).setChanged adapter.shmKey shm) =
      (adapter.bytesFromState state, some wal, some shm) := by
  have distinct := adapter.apart
  simp only [reconstructed, get_setChanged]
  rw [if_neg distinct.shm_wal.symm, if_pos trivial, if_pos trivial]
  congr 1
  refine bytesFromState_congr ?_ ?_
  · rw [get_setChanged, get_setChanged, if_neg distinct.shm_key.symm, if_neg distinct.wal_key.symm]
  · rw [get_setChanged, get_setChanged, if_neg distinct.shm_delta.symm, if_neg distinct.wal_delta.symm]

structure Loadable (adapter : SqliteFileAdapter) (state : State Bytes) (files : Files) : Prop where
  readable : adapter.Readable files
  kept : adapter.Kept state (adapter.onDisk files).db
  narrow : (state.get adapter.key).isSome = true → adapter.Narrow (adapter.onDisk files).db

theorem ensureFile_readable : (adapter.ensureFile files).2.readable = files.readable := by
  simp only [ensureFile, Files.write]
  split
  · rfl
  · split <;> rfl

theorem loadIntoState_cases (loadable : adapter.Loadable state files) :
    ((adapter.loadIntoState state files).1 ≠ .ok () ∧
        (adapter.loadIntoState state files).2.1 = state) ∨
      ((adapter.loadIntoState state files).1 = .ok () ∧
        adapter.reconstructed (adapter.loadIntoState state files).2.1 =
          (.ok (some (adapter.onDisk files).db), some (adapter.onDisk files).wal,
            some (adapter.onDisk files).shm)) := by
  have disk := onDisk_ensureFile adapter files
  have readable : adapter.Readable (adapter.ensureFile files).2 := by
    rw [Readable, ensureFile_readable]
    exact loadable.readable
  cases ensured : adapter.ensureFile files with
  | mk result after =>
      rw [ensured] at disk readable
      cases result with
      | error error =>
          refine Or.inl ?_
          simp only [loadIntoState, ensured]
          simp
      | ok =>
          dsimp only at disk
          cases read : after.read adapter.path with
          | error error =>
              refine Or.inl ?_
              simp only [loadIntoState, ensured, read]
              simp
          | ok bytes =>
              refine Or.inr ?_
              have held : (adapter.onDisk files).db = bytes := by
                rw [← disk, onDisk, Files.contents_of_read read]
                rfl
              obtain ⟨updated, survives⟩ :=
                (updateState_survives adapter state _ loadable.narrow).mpr loadable.kept
              rw [held] at updated survives
              cases update : adapter.updateState state bytes with
              | mk result next =>
                  rw [update] at updated survives
                  simp only at updated survives
                  simp only [loadIntoState, ensured, read, update, updated, loadSidecars_ok readable,
                    reconstructed_sidecars, survives, disk, held, and_self]

structure Puts (files after : Files) (path : String) (bytes : Bytes) : Prop where
  readable : after.readable = files.readable
  writable : after.writable = files.writable
  contents : (after.contents path).getD [] = bytes
  others : ∀ other, other ≠ path → after.contents other = files.contents other

theorem put_puts (files : Files) (path : String) (bytes : Bytes) :
    Puts files (files.put path bytes) path bytes where
  readable := rfl
  writable := rfl
  contents := by simp
  others _ distinct := (files.put_ne bytes distinct).1

theorem applySidecar_puts {key : String} (path : String) {bytes : Bytes} (entry : state.get key = some bytes)
    (writable : files.writable path = true) :
    ∃ after, applySidecar state key path files = (.ok (), after) ∧ Puts files after path bytes := by
  rw [applySidecar, entry]
  simp only [Files.write, Files.remove, writable, if_true]
  by_cases empty : bytes = []
  · refine ⟨_, if_pos empty, rfl, rfl, ?_, fun other distinct => Function.update_of_ne distinct _ _⟩
    simp [empty]
  · exact ⟨_, if_neg empty, put_puts files path bytes⟩

theorem applyBytes_puts {bytes : Bytes} (given : adapter.bytesFromState state = .ok (some bytes))
    (writable : files.writable adapter.path = true) (readable : files.readable adapter.path = true) :
    ∃ after, adapter.applyBytes state files = (.ok (), after) ∧ Puts files after adapter.path bytes := by
  simp only [applyBytes, given, ensureFile, Files.write, writable, if_true]
  cases present : files.contents adapter.path with
  | some existing =>
      simp only [Option.isSome_some, if_true, Files.read_of_some present, readable]
      by_cases differs : existing ≠ bytes
      · rw [if_pos differs]
        simp only [writable, if_true]
        exact ⟨_, rfl, put_puts files adapter.path bytes⟩
      · rw [if_neg differs]
        refine ⟨_, rfl, rfl, rfl, ?_, fun _ _ => rfl⟩
        rw [present, ← not_not.mp differs]
        rfl
  | none =>
      simp only [Option.isSome_none, Bool.false_eq_true, if_false]
      have created := files.put_contents_self adapter.path []
      simp only [Files.read_of_some created, show (files.put adapter.path []).readable = files.readable
        from rfl, show (files.put adapter.path []).writable = files.writable from rfl, readable,
        writable, if_true]
      by_cases differs : [] ≠ bytes
      · have again := put_puts (files.put adapter.path []) adapter.path bytes
        rw [if_pos differs]
        refine ⟨_, rfl, rfl, rfl, again.contents, fun other distinct => ?_⟩
        rw [again.others other distinct, (files.put_ne [] distinct).1]
      · rw [if_neg differs, ← not_not.mp differs]
        exact ⟨_, rfl, put_puts files adapter.path []⟩

theorem applyFromState_onDisk {database : Database}
    (given : adapter.reconstructed state =
      (.ok (some database.db), some database.wal, some database.shm))
    (writable : ∀ path, files.writable path = true) (readable : ∀ path, files.readable path = true) :
    ∃ after, adapter.applyFromState state files = (.ok (), after) ∧ adapter.onDisk after = database := by
  simp only [reconstructed, Prod.mk.injEq] at given
  obtain ⟨db, wal, shm⟩ := given
  obtain ⟨first, wrote, puts⟩ := applyBytes_puts db (writable adapter.path) (readable adapter.path)
  have walWritable : first.writable adapter.walPath = true := puts.writable ▸ writable _
  obtain ⟨second, wroteWal, putsWal⟩ := applySidecar_puts adapter.walPath wal walWritable
  have shmWritable : second.writable adapter.shmPath = true :=
    putsWal.writable ▸ puts.writable ▸ writable _
  obtain ⟨third, wroteShm, putsShm⟩ := applySidecar_puts adapter.shmPath shm shmWritable
  refine ⟨third, ?_, ?_⟩
  · simp only [applyFromState, wrote, wroteWal, wroteShm]
  · have walPath : adapter.walPath ≠ adapter.path := append_ne adapter.path "-wal" (by decide)
    have shmPath : adapter.shmPath ≠ adapter.path := append_ne adapter.path "-shm" (by decide)
    have apart : adapter.walPath ≠ adapter.shmPath := append_distinct adapter.path (by decide)
    rw [onDisk, putsShm.others _ shmPath.symm, putsWal.others _ walPath.symm, puts.contents,
      putsShm.others _ apart, putsWal.contents, putsShm.contents]

theorem setChanged_keyed (keyed : state.Keyed) (key : String) (bytes : Bytes) :
    (state.setChanged key bytes).Keyed := by
  rw [State.setChanged]
  split
  · exact State.Keyed.insertEntry keyed _ none
  · exact keyed

variable (adapter) in
theorem updateState_keyed (keyed : state.Keyed) (bytes : Bytes) :
    (adapter.updateState state bytes).2.Keyed := by
  rw [updateState]
  split
  · dsimp only
    split
    · exact setChanged_keyed keyed _ _
    · split
      · exact keyed
      · split
        · exact setChanged_keyed keyed _ _
        · exact setChanged_keyed (setChanged_keyed keyed _ _) _ _
  · exact setChanged_keyed keyed _ _

theorem loadSidecars_keyed (keyed : state.Keyed) (files : Files) :
    (adapter.loadSidecars state files).2.Keyed := by
  rw [loadSidecars]
  split
  · exact keyed
  · dsimp only
    split
    · exact setChanged_keyed keyed _ _
    · exact setChanged_keyed (setChanged_keyed keyed _ _) _ _

theorem loadIntoState_keyed (keyed : state.Keyed) (files : Files) :
    (adapter.loadIntoState state files).2.1.Keyed := by
  rw [loadIntoState]
  split
  · exact keyed
  · split
    · exact keyed
    · rename_i bytes _
      have updated := updateState_keyed adapter keyed bytes
      split
      · rename_i failed
        rwa [failed] at updated
      · rename_i done
        rw [done] at updated
        exact loadSidecars_keyed updated _

end SqliteFileAdapter

section Exchange

variable {D : Type} [DecidableEq D]

structure SharedDatabase (D : Type) where
  key : String
  adapter : D → SqliteFileAdapter
  shared : ∀ device, (adapter device).key = key

structure DatabaseWorld (D : Type) where
  state : D → State Bytes
  captured : List (State Bytes)
  loaded : List Database

inductive DatabaseEvent (D : Type) where
  | load (device : D) (files : Files)
  | capture (device : D)
  | deliver (device : D) (index : Nat) (keys : List String)

def State.pick (state : State Bytes) (keys : List String) : List (Entry Bytes) :=
  keys.filterMap fun key => state.entries[key]?

def DatabaseWorld.start (identity : D → String × String) : DatabaseWorld D where
  state device := State.new (identity device).1 (identity device).2
  captured := []
  loaded := []

namespace SharedDatabase

variable (database : SharedDatabase D)

def step (world : DatabaseWorld D) : DatabaseEvent D → Option (DatabaseWorld D)
  | .load device files =>
      let loaded := (database.adapter device).loadIntoState (world.state device) files
      some {
        state := Function.update world.state device loaded.2.1
        captured := world.captured
        loaded := if loaded.1 = .ok () then (database.adapter device).onDisk files :: world.loaded
          else world.loaded }
  | .capture device => some { world with captured := world.state device :: world.captured }
  | .deliver device index keys =>
      world.captured[index]?.map fun source => { world with
        state := Function.update world.state device
          ((world.state device).mergeSnapshot (source.pick keys)).2 }

end SharedDatabase

def State.Takes (target source : State Bytes) (keys : List String) (key : String) : Prop :=
  key ∈ keys ∧ ∃ entry, source.entries[key]? = some entry ∧
    ∀ existing, target.entries[key]? = some existing → existing.clock < entry.clock

theorem mergeSnapshot_pick {source : State Bytes} (keyed : source.Keyed) (keys : List String)
    (target : State Bytes) (key : String) :
    (target.Takes source keys key →
      (target.mergeSnapshot (source.pick keys)).2.entries[key]? = source.entries[key]?) ∧
    (¬target.Takes source keys key →
      (target.mergeSnapshot (source.pick keys)).2.entries[key]? = target.entries[key]?) := by
  induction keys generalizing target with
  | nil => exact ⟨fun takes => absurd takes.1 List.not_mem_nil, fun _ => rfl⟩
  | cons head rest ih =>
      cases found : source.entries[head]? with
      | none =>
          have same : source.pick (head :: rest) = source.pick rest := by
            simp only [State.pick, List.filterMap_cons, found]
          have takes : target.Takes source (head :: rest) key ↔ target.Takes source rest key := by
            simp only [State.Takes, List.mem_cons]
            constructor
            · rintro ⟨rfl | later, entry, held, newer⟩
              · simp [found] at held
              · exact ⟨later, entry, held, newer⟩
            · rintro ⟨later, entry, held, newer⟩
              exact ⟨Or.inr later, entry, held, newer⟩
          rw [same, takes]
          exact ih target
      | some entry =>
          have named : entry.key = head := keyed head entry found
          have same : source.pick (head :: rest) = entry :: source.pick rest := by
            simp only [State.pick, List.filterMap_cons, found]
          have later := ih (target.applyEntry entry).2
          rw [same, State.mergeSnapshot_cons]
          have applied := State.applyEntry_entries target entry key
          rw [named] at applied
          by_cases here : key = head
          · subst here
            by_cases newer : ∀ existing, target.entries[key]? = some existing →
                existing.clock < entry.clock
            · rw [if_pos ⟨rfl, newer⟩] at applied
              have settled : ¬(target.applyEntry entry).2.Takes source rest key := by
                rintro ⟨_, next, held, above⟩
                rw [found] at held
                obtain rfl := Option.some.inj held
                exact lt_irrefl _ (above _ applied)
              have kept := (later.2 settled).trans applied
              exact ⟨fun _ => kept.trans found.symm,
                fun refused => absurd ⟨List.mem_cons_self, entry, found, newer⟩ refused⟩
            · rw [if_neg fun both => newer both.2] at applied
              have refused : ∀ keys, ∀ state : State Bytes, state.entries[key]? = target.entries[key]? →
                  ¬state.Takes source keys key := by
                rintro keys state same ⟨_, next, held, above⟩
                rw [found] at held
                obtain rfl := Option.some.inj held
                exact newer fun existing present => above existing (same.trans present)
              exact ⟨fun takes => absurd takes (refused _ target rfl),
                fun _ => (later.2 (refused rest _ applied)).trans applied⟩
          · rw [if_neg fun both => here both.1] at applied
            have takes : (target.applyEntry entry).2.Takes source rest key ↔
                target.Takes source (head :: rest) key := by
              simp only [State.Takes, List.mem_cons, applied, here, false_or]
            rw [takes, applied] at later
            exact later

/-- Each key of the database goes over, or each stays, but for equal values. -/
def SqliteFileAdapter.Together (adapter : SqliteFileAdapter) (target source : State Bytes)
    (keys : List String) : Prop :=
  (∀ key ∈ adapter.keys, target.Takes source keys key ∨ source.get key = target.get key) ∨
    ∀ key ∈ adapter.keys, ¬target.Takes source keys key ∨ source.get key = target.get key

theorem reconstructed_deliver {adapter : SqliteFileAdapter} {target source : State Bytes}
    {keys : List String} (keyed : source.Keyed) (together : adapter.Together target source keys) :
    adapter.reconstructed (target.mergeSnapshot (source.pick keys)).2 = adapter.reconstructed source ∨
      adapter.reconstructed (target.mergeSnapshot (source.pick keys)).2 =
        adapter.reconstructed target := by
  have taken : ∀ key, target.Takes source keys key →
      (target.mergeSnapshot (source.pick keys)).2.get key = source.get key := by
    intro key takes
    rw [State.get, (mergeSnapshot_pick keyed keys target key).1 takes, State.get]
  have left : ∀ key, ¬target.Takes source keys key →
      (target.mergeSnapshot (source.pick keys)).2.get key = target.get key := by
    intro key stays
    rw [State.get, (mergeSnapshot_pick keyed keys target key).2 stays, State.get]
  rcases together with all | none
  · refine Or.inl (SqliteFileAdapter.reconstructed_congr fun key member => ?_)
    by_cases takes : target.Takes source keys key
    · exact taken key takes
    · exact (left key takes).trans ((all key member).resolve_left takes).symm
  · refine Or.inr (SqliteFileAdapter.reconstructed_congr fun key member => ?_)
    by_cases takes : target.Takes source keys key
    · exact (taken key takes).trans ((none key member).resolve_left (not_not.mpr takes))
    · exact left key takes

theorem SqliteFileAdapter.together_new (adapter : SqliteFileAdapter) (deviceId epoch : String)
    (source : State Bytes) : adapter.Together (State.new deviceId epoch) source adapter.keys := by
  refine Or.inl fun key member => ?_
  cases found : source.entries[key]? with
  | none => exact Or.inr (by simp [State.get, State.new, found])
  | some entry =>
      exact Or.inl ⟨member, entry, found, fun existing present => by simp [State.new] at present⟩

namespace SharedDatabase

def Whole (loaded : List Database) (adapter : SqliteFileAdapter) (state : State Bytes) : Prop :=
  adapter.reconstructed state = (.ok none, none, none) ∨
    ∃ files ∈ loaded, adapter.reconstructed state =
      (.ok (some files.db), some files.wal, some files.shm)

variable (database : SharedDatabase D)

/-- Loads of files that the state can hold, and deliveries that leave no mixture of two states. -/
def Guarded (world : DatabaseWorld D) : DatabaseEvent D → Prop
  | .load device files => (database.adapter device).Loadable (world.state device) files
  | .capture _ => True
  | .deliver device index keys => ∀ source, world.captured[index]? = some source →
      (database.adapter device).Together (world.state device) source keys

abbrev Reached (identity : D → String × String) : DatabaseWorld D → Prop :=
  Transition.Reaches database.step database.Guarded (DatabaseWorld.start identity)

structure Intact (world : DatabaseWorld D) : Prop where
  keyed : ∀ device, (world.state device).Keyed
  captured_keyed : ∀ state ∈ world.captured, state.Keyed
  whole : ∀ device other, Whole world.loaded (database.adapter other) (world.state device)
  captured_whole : ∀ state ∈ world.captured, ∀ other,
    Whole world.loaded (database.adapter other) state

variable {database}

theorem Whole.grow {loaded : List Database} {adapter : SqliteFileAdapter} {state : State Bytes}
    (whole : Whole loaded adapter state) (files : Database) :
    Whole (files :: loaded) adapter state := by
  rcases whole with none | ⟨found, member, same⟩
  · exact Or.inl none
  · exact Or.inr ⟨found, List.mem_cons_of_mem _ member, same⟩

omit [DecidableEq D] in
theorem reconstructed_shared (first second : D) (state : State Bytes) :
    (database.adapter first).reconstructed state = (database.adapter second).reconstructed state := by
  have same := (database.shared first).trans (database.shared second).symm
  simp only [SqliteFileAdapter.reconstructed, SqliteFileAdapter.bytesFromState,
    SqliteFileAdapter.walKey, SqliteFileAdapter.shmKey, SqliteFileAdapter.deltaKey, same]

omit [DecidableEq D] in
theorem start_intact (identity : D → String × String) :
    database.Intact (DatabaseWorld.start identity) where
  keyed _ key entry present := by simp [DatabaseWorld.start, State.new] at present
  captured_keyed := by simp [DatabaseWorld.start]
  whole _ _ := Or.inl (by
    simp [DatabaseWorld.start, SqliteFileAdapter.reconstructed, SqliteFileAdapter.bytesFromState,
      State.new, State.get])
  captured_whole := by simp [DatabaseWorld.start]

variable {world : DatabaseWorld D}

theorem Intact.load (intact : database.Intact world) {device : D} {files : Files}
    (loadable : (database.adapter device).Loadable (world.state device) files)
    {after : DatabaseWorld D} (stepped : database.step world (.load device files) = some after) :
    database.Intact after := by
  simp only [step, Option.some.injEq] at stepped
  subst stepped
  have grown : ∀ (adapter : SqliteFileAdapter) (state : State Bytes), Whole world.loaded adapter state →
      Whole (if ((database.adapter device).loadIntoState (world.state device) files).1 = .ok ()
        then (database.adapter device).onDisk files :: world.loaded else world.loaded) adapter state := by
    intro adapter state whole
    split
    · exact whole.grow _
    · exact whole
  refine ⟨?_, intact.captured_keyed, ?_, fun state member other =>
    grown _ _ (intact.captured_whole state member other)⟩
  · refine (Function.forall_update_iff _ fun _ => State.Keyed).mpr
      ⟨?_, fun other _ => intact.keyed other⟩
    exact SqliteFileAdapter.loadIntoState_keyed (intact.keyed device) files
  · refine (Function.forall_update_iff _ fun _ state => ∀ other, Whole _ (database.adapter other) state).mpr
      ⟨fun other => ?_, fun holder _ other => grown _ _ (intact.whole holder other)⟩
    rcases SqliteFileAdapter.loadIntoState_cases loadable with ⟨failed, same⟩ | ⟨done, given⟩
    · rw [same]
      exact grown _ _ (intact.whole device other)
    · rw [if_pos done]
      refine Or.inr ⟨_, List.mem_cons_self, ?_⟩
      rw [reconstructed_shared other device, given]

omit [DecidableEq D] in
theorem Intact.capture (intact : database.Intact world) (device : D) :
    database.Intact { world with captured := world.state device :: world.captured } := by
  refine ⟨intact.keyed, ?_, intact.whole, ?_⟩
  · intro state member
    rcases List.mem_cons.mp member with rfl | earlier
    · exact intact.keyed device
    · exact intact.captured_keyed state earlier
  · intro state member other
    rcases List.mem_cons.mp member with rfl | earlier
    · exact intact.whole device other
    · exact intact.captured_whole state earlier other

theorem Intact.deliver (intact : database.Intact world) {device : D} {source : State Bytes}
    (member : source ∈ world.captured) {keys : List String}
    (together : (database.adapter device).Together (world.state device) source keys) :
    database.Intact { world with
      state := Function.update world.state device
        ((world.state device).mergeSnapshot (source.pick keys)).2 } := by
  refine ⟨?_, intact.captured_keyed, ?_, intact.captured_whole⟩
  · refine (Function.forall_update_iff _ fun _ => State.Keyed).mpr
      ⟨?_, fun other _ => intact.keyed other⟩
    exact (mergeSnapshot_merged _ _).keyed (intact.keyed device)
  · refine (Function.forall_update_iff _ fun _ state => ∀ other, Whole _ (database.adapter other) state).mpr
      ⟨fun other => ?_, fun holder _ other => intact.whole holder other⟩
    rw [Whole, reconstructed_shared other device]
    rcases reconstructed_deliver (intact.captured_keyed source member) together with taken | left
    · rw [taken]
      exact intact.captured_whole source member device
    · rw [left]
      exact intact.whole device device

theorem Intact.step (intact : database.Intact world) {event : DatabaseEvent D}
    (guarded : database.Guarded world event) {after : DatabaseWorld D}
    (stepped : database.step world event = some after) : database.Intact after := by
  cases event with
  | load device files => exact intact.load guarded stepped
  | capture device =>
      simp only [SharedDatabase.step, Option.some.injEq] at stepped
      exact stepped ▸ intact.capture device
  | deliver device index keys =>
      simp only [SharedDatabase.step, Option.map_eq_some_iff] at stepped
      obtain ⟨source, found, rfl⟩ := stepped
      exact intact.deliver (List.mem_of_getElem? found) (guarded source found)

/-- What a device writes to its three files is what one device loaded from its own together. -/
theorem reconstructs_whole {identity : D → String × String}
    (reached : database.Reached identity world) (device : D) :
    Whole world.loaded (database.adapter device) (world.state device) :=
  (reached.invariant (motive := database.Intact) (start_intact identity)
    fun _ _ _ intact guarded stepped => intact.step guarded stepped).whole device device

end SharedDatabase

end Exchange

section Sample

def sampleDatabase : SharedDatabase Bool where
  key := "notes"
  adapter _ := SqliteFileAdapter.notes
  shared _ := rfl

def sampleIdentity (device : Bool) : String × String :=
  if device then ("phone", "second") else ("desk", "first")

def databaseFiles (db wal : Bytes) : Files :=
  Files.ofContents fun path =>
    if path = "notes.db" then some db else if path = "notes.db-wal" then some wal else none

def mixedEvents : List (DatabaseEvent Bool) := [
  .load false (databaseFiles [1] [1]),
  .load true (databaseFiles [2] [2]),
  .load false (databaseFiles [1] [1, 1]),
  .capture false,
  .deliver true 0 ["notes", "notes:wal", "notes:shm"]]

def mixedRun : Option (DatabaseWorld Bool) :=
  Transition.run sampleDatabase.step (DatabaseWorld.start sampleIdentity) mixedEvents

theorem mixedRun_ends : mixedRun.any (fun world =>
    SqliteFileAdapter.notes.reconstructed (world.state true) =
      (.ok (some [2]), some [1, 1], some []) ∧
      world.loaded = [⟨[1], [1, 1], []⟩, ⟨[2], [2], []⟩, ⟨[1], [1], []⟩]) = true := by
  decide +kernel

/-- The phone's database under the desk's WAL, which no device loaded. -/
theorem databases_mix : ∃ world : DatabaseWorld Bool,
    Transition.Reaches sampleDatabase.step (fun _ _ => True) (DatabaseWorld.start sampleIdentity) world ∧
      ¬SharedDatabase.Whole world.loaded (sampleDatabase.adapter true) (world.state true) := by
  obtain ⟨world, ran, ends⟩ := (Option.any_eq_true _ _).mp mixedRun_ends
  simp only [decide_eq_true_eq] at ends
  obtain ⟨mixture, loaded⟩ := ends
  refine ⟨world, Transition.reaches_of_run mixedEvents ran, ?_⟩
  rw [SharedDatabase.Whole, show sampleDatabase.adapter true = SqliteFileAdapter.notes from rfl,
    mixture, loaded]
  simp

theorem desk_loadable : SqliteFileAdapter.notes.Loadable
    ((DatabaseWorld.start sampleIdentity).state false) (databaseFiles [1] [1]) where
  readable := ⟨rfl, rfl⟩
  kept := by
    have fresh : ∀ key, ((DatabaseWorld.start sampleIdentity).state false).get key = none := by
      intro key
      simp [DatabaseWorld.start, State.new, State.get]
    simp [SqliteFileAdapter.Kept, fresh]
  narrow _ := Or.inl (by decide)

theorem reconstructs_whole_phone : ∃ world : DatabaseWorld Bool,
    sampleDatabase.Reached sampleIdentity world ∧ world.loaded = [⟨[1], [1], []⟩] ∧
      SqliteFileAdapter.notes.reconstructed (world.state true) =
        (.ok (some [1]), some [1], some []) ∧
      SharedDatabase.Whole world.loaded (sampleDatabase.adapter true) (world.state true) := by
  have loaded : sampleDatabase.Reached sampleIdentity _ := Transition.Reaches.start.next
    (show sampleDatabase.Guarded _ (.load false (databaseFiles [1] [1])) from desk_loadable) rfl
  have captured : sampleDatabase.Reached sampleIdentity _ := loaded.next
    (show sampleDatabase.Guarded _ (.capture false) from trivial) rfl
  have delivered : sampleDatabase.Reached sampleIdentity _ := captured.next
    (show sampleDatabase.Guarded _ (.deliver true 0 SqliteFileAdapter.notes.keys) from
      fun source _ => SqliteFileAdapter.notes.together_new "phone" "second" source) rfl
  exact ⟨_, delivered, by decide +kernel, by decide +kernel,
    SharedDatabase.reconstructs_whole delivered true⟩

end Sample

end LibreSync
