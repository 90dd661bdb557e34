import LibreSync.SqliteExchange

/-!
The periodic tick of the file adapters over files that other programs edit in
between, and when every edit reaches the state.
-/

namespace LibreSync

namespace SqliteFileAdapter

variable (adapter : SqliteFileAdapter)

def tickBytes (state : State Bytes) (cache : AdapterCache Bytes) (files : Files) :
    Except Error Unit × AdapterCache Bytes × Files :=
  match adapter.bytesFromState state with
  | .error error => (.error error, cache, files)
  | .ok none => (.ok (), cache, files)
  | .ok (some bytes) =>
      if cache.lastBytes ≠ some bytes then
        match files.write adapter.path bytes with
        | (.error error, files) => (.error error, cache, files)
        | (.ok (), files) => (.ok (), { cache with lastBytes := some bytes }, files)
      else (.ok (), cache, files)

def tickSidecar (state : State Bytes) (cached : Option Bytes) (key path : String) (files : Files) :
    Except Error Unit × Option Bytes × Files :=
  match state.get key with
  | none => (.ok (), cached, files)
  | some bytes =>
      if cached ≠ some bytes then
        match if bytes = [] then (.ok (), files.remove path) else files.write path bytes with
        | (.error error, files) => (.error error, cached, files)
        | (.ok (), files) => (.ok (), some bytes, files)
      else (.ok (), cached, files)

def tickOut (state : State Bytes) (cache : AdapterCache Bytes) (files : Files) :
    Except Error Unit × AdapterCache Bytes × Files :=
  match adapter.tickBytes state cache files with
  | (.error error, cache, files) => (.error error, cache, files)
  | (.ok (), cache, files) =>
      match tickSidecar state cache.lastWal adapter.walKey adapter.walPath files with
      | (.error error, lastWal, files) => (.error error, { cache with lastWal }, files)
      | (.ok (), lastWal, files) =>
          match tickSidecar state cache.lastShm adapter.shmKey adapter.shmPath files with
          | (.error error, lastShm, files) => (.error error, { cache with lastWal, lastShm }, files)
          | (.ok (), lastShm, files) => (.ok (), { cache with lastWal, lastShm }, files)

def tickSidecars (state : State Bytes) (cache : AdapterCache Bytes) (files : Files) :
    Except Error Unit × State Bytes × AdapterCache Bytes :=
  match readSidecar files adapter.walPath with
  | .error error => (.error error, state, cache)
  | .ok wal =>
      let state := state.setChanged adapter.walKey wal
      let cache := { cache with lastWal := some wal }
      match readSidecar files adapter.shmPath with
      | .error error => (.error error, state, cache)
      | .ok shm =>
          (.ok (), state.setChanged adapter.shmKey shm, { cache with lastShm := some shm })

def tickBack (state : State Bytes) (cache : AdapterCache Bytes) (files : Files) :
    Except Error Unit × State Bytes × AdapterCache Bytes :=
  match files.read adapter.path with
  | .error error => (.error error, state, cache)
  | .ok bytes =>
      match adapter.updateState state bytes with
      | (.error error, state) => (.error error, state, cache)
      | (.ok (), state) => adapter.tickSidecars state cache files

def syncTick (state : State Bytes) (cache : AdapterCache Bytes) (files : Files) :
    Except Error Unit × State Bytes × AdapterCache Bytes × Files :=
  match adapter.ensureFile files with
  | (.error error, files) => (.error error, state, cache, files)
  | (.ok (), files) =>
      match adapter.tickOut state cache files with
      | (.error error, cache, files) => (.error error, state, cache, files)
      | (.ok (), cache, files) =>
          let (result, state, cache) := adapter.tickBack state cache files
          (result, state, cache, files)

def dataAdapter : DataAdapter Bytes Files where
  id := adapter.id
  loadIntoState := adapter.loadIntoState
  applyFromState := adapter.applyFromState
  syncTick := adapter.syncTick
  ownsKey key := key = adapter.key || key = adapter.walKey || key = adapter.shmKey ||
    key = adapter.deltaKey

end SqliteFileAdapter

structure TickWorld where
  state : State Bytes
  cache : AdapterCache Bytes
  files : Files

inductive TickEvent where
  /-- Another program writes a file. -/
  | edit (path : String) (bytes : Bytes)
  /-- The app, a peer or another adapter changes the state. -/
  | elsewhere (state : State Bytes)
  | tick

namespace TickWorld

/-- The watch loop goes on after a failed tick. -/
def tick (adapter : DataAdapter Bytes Files) (world : TickWorld) : TickWorld :=
  match adapter.syncTick world.state world.cache world.files with
  | (_, state, cache, files) => { state, cache, files }

def step (adapter : DataAdapter Bytes Files) (world : TickWorld) : TickEvent → Option TickWorld
  | .edit path bytes => some { world with files := world.files.put path bytes }
  | .elsewhere state => some { world with state }
  | .tick => some (world.tick adapter)

/-- Nothing else writes the entries the adapter owns. -/
def Undisturbed (adapter : DataAdapter Bytes Files) (world : TickWorld) : TickEvent → Prop
  | .elsewhere state => ∀ key, adapter.ownsKey key = true → state.get key = world.state.get key
  | _ => True

/-- The tick leaves the file as it is and its content in the state. -/
def KeepsFile (adapter : DataAdapter Bytes Files) (world : TickWorld) (path : String)
    (content : State Bytes → Option Bytes) : Prop :=
  ∀ bytes, world.files.contents path = some bytes →
    content (world.tick adapter).state = some bytes ∧
      (world.tick adapter).files.contents path = some bytes

end TickWorld

namespace JsonFileAdapter

variable {adapter : JsonFileAdapter} {world : TickWorld}

def Keeps (adapter : JsonFileAdapter) (world : TickWorld) : Prop :=
  world.KeepsFile adapter.dataAdapter adapter.path fun state => state.get adapter.key

/-- The state has what the file holds, or the file is read and the cache has what the state has. -/
def Calm (adapter : JsonFileAdapter) (world : TickWorld) : Prop :=
  ∀ bytes, world.files.contents adapter.path = some bytes →
    world.state.get adapter.key = some bytes ∨
      world.files.readable adapter.path = true ∧ adapter.Cached world.state world.cache

theorem tick_eq (world : TickWorld) : world.tick adapter.dataAdapter = {
    state := (adapter.syncTick world.state world.cache world.files).2.1
    cache := (adapter.syncTick world.state world.cache world.files).2.2.1
    files := (adapter.syncTick world.state world.cache world.files).2.2.2 } := rfl

section Tick

variable {state : State Bytes} {cache : AdapterCache Bytes} {files : Files} {bytes : Bytes}

theorem syncTick_cached (present : files.contents adapter.path = some bytes)
    (cached : adapter.Cached state cache) :
    (adapter.syncTick state cache files).2.2.2 = files ∧
      ((adapter.syncTick state cache files).2.1.get adapter.key = some bytes ↔
        state.get adapter.key = some bytes ∨ files.readable adapter.path = true) := by
  simp only [syncTick, ensureFile_present present, tickOut_cached cached,
    Files.read_of_some present]
  by_cases readable : files.readable adapter.path = true
  · by_cases same : state.get adapter.key = some bytes
    · simp [readable, same]
    · simp [readable, same, EngineWorld.get_set]
  · simp [readable]

theorem syncTick_uncached {stored : Bytes} (present : files.contents adapter.path = some bytes)
    (entry : state.get adapter.key = some stored) (unknown : cache.lastBytes ≠ some stored) :
    (adapter.syncTick state cache files).2.1.get adapter.key = some stored ∧
      (adapter.syncTick state cache files).2.2.2.contents adapter.path =
        if files.writable adapter.path then some stored else some bytes := by
  simp only [syncTick, ensureFile_present present, tickOut, entry, ne_eq, unknown,
    not_false_eq_true, if_true, Files.write]
  by_cases writable : files.writable adapter.path = true
  · have written := files.put_contents_self adapter.path stored
    simp only [writable, if_true, Files.read_of_some written]
    by_cases readable : (files.put adapter.path stored).readable adapter.path = true
    · simp [readable, entry]
    · simp [readable, entry]
  · simp [writable, entry, present]

end Tick

theorem keeps_iff (adapter : JsonFileAdapter) (world : TickWorld) :
    adapter.Keeps world ↔ adapter.Calm world := by
  rw [Keeps, Calm, TickWorld.KeepsFile, tick_eq]
  refine forall₂_congr fun bytes present => ?_
  by_cases cached : adapter.Cached world.state world.cache
  · obtain ⟨files, state⟩ := syncTick_cached present cached
    simp only [files, present, state, and_true, cached]
  · have lacking := cached
    simp only [Cached, not_forall] at lacking
    obtain ⟨stored, entry, unknown⟩ := lacking
    obtain ⟨state, files⟩ := syncTick_uncached present entry unknown
    simp only [state, files, entry, cached, and_false, or_false, Option.some.injEq]
    refine and_iff_left_of_imp fun same => ?_
    rw [same, ite_self]

/-- A tick is calm unless an edit came since the one before it. -/
theorem calm_tick {bytes : Bytes} (present : world.files.contents adapter.path = some bytes)
    (readable : world.files.readable adapter.path = true)
    (writable : world.files.writable adapter.path = true) :
    adapter.Calm (world.tick adapter.dataAdapter) := by
  rw [Calm, tick_eq]
  intro found held
  refine Or.inl ?_
  by_cases cached : adapter.Cached world.state world.cache
  · obtain ⟨files, state⟩ := syncTick_cached present cached
    rw [files, present] at held
    exact held ▸ state.mpr (Or.inr readable)
  · simp only [Cached, not_forall] at cached
    obtain ⟨stored, entry, unknown⟩ := cached
    obtain ⟨state, files⟩ := syncTick_uncached present entry unknown
    rw [files, if_pos writable] at held
    exact held ▸ state

end JsonFileAdapter

namespace SqliteFileAdapter

variable {adapter : SqliteFileAdapter} {state : State Bytes} {cache : AdapterCache Bytes}
  {files : Files}

structure SidecarsCached (adapter : SqliteFileAdapter) (state : State Bytes)
    (cache : AdapterCache Bytes) : Prop where
  wal : ∀ bytes, state.get adapter.walKey = some bytes → cache.lastWal = some bytes
  shm : ∀ bytes, state.get adapter.shmKey = some bytes → cache.lastShm = some bytes

theorem tickSidecar_cached {cached : Option Bytes} {key : String} (path : String)
    (known : ∀ bytes, state.get key = some bytes → cached = some bytes) :
    tickSidecar state cached key path files = (.ok (), cached, files) := by
  rw [tickSidecar]
  cases entry : state.get key with
  | none => rfl
  | some bytes => simp [known bytes entry]

variable (adapter state cache files) in
theorem tickBytes_cache : (adapter.tickBytes state cache files).2.1.lastWal = cache.lastWal ∧
    (adapter.tickBytes state cache files).2.1.lastShm = cache.lastShm := by
  rw [tickBytes]
  split
  · exact ⟨rfl, rfl⟩
  · exact ⟨rfl, rfl⟩
  · split
    · split <;> exact ⟨rfl, rfl⟩
    · exact ⟨rfl, rfl⟩

theorem tickOut_cached (cached : adapter.SidecarsCached state cache) :
    adapter.tickOut state cache files = adapter.tickBytes state cache files := by
  obtain ⟨wal, shm⟩ := adapter.tickBytes_cache state cache files
  rw [tickOut]
  split
  · rename_i stopped
    exact stopped.symm
  · rename_i after next wrote
    rw [wrote] at wal shm
    dsimp only at wal shm
    rw [tickSidecar_cached adapter.walPath (wal.symm ▸ cached.wal)]
    dsimp only
    rw [tickSidecar_cached adapter.shmPath (shm.symm ▸ cached.shm), wrote]

variable (adapter state) in
theorem updateState_get (bytes : Bytes) {other : String} (base : other ≠ adapter.key)
    (delta : other ≠ adapter.deltaKey) :
    (adapter.updateState state bytes).2.get other = state.get other := by
  rw [updateState]
  split
  · dsimp only
    split
    · rw [get_setChanged, if_neg delta]
    · split
      · rfl
      · split
        · rw [get_setChanged, if_neg delta]
        · rw [get_setChanged, if_neg delta, get_setChanged, if_neg base]
  · rw [get_setChanged, if_neg base]

theorem SidecarsCached.congr {other : State Bytes} {next : AdapterCache Bytes}
    (cached : adapter.SidecarsCached state cache)
    (wal : other.get adapter.walKey = state.get adapter.walKey)
    (shm : other.get adapter.shmKey = state.get adapter.shmKey)
    (lastWal : next.lastWal = cache.lastWal) (lastShm : next.lastShm = cache.lastShm) :
    adapter.SidecarsCached other next where
  wal bytes entry := lastWal.trans (cached.wal bytes (wal ▸ entry))
  shm bytes entry := lastShm.trans (cached.shm bytes (shm ▸ entry))

theorem tickSidecars_cached (cached : adapter.SidecarsCached state cache) :
    adapter.SidecarsCached (adapter.tickSidecars state cache files).2.1
      (adapter.tickSidecars state cache files).2.2 := by
  have distinct := adapter.apart
  rw [tickSidecars]
  split
  · exact cached
  · rename_i wal _
    dsimp only
    split
    · refine ⟨fun bytes entry => ?_, fun bytes entry => cached.shm bytes ?_⟩
      · rwa [get_setChanged, if_pos rfl] at entry
      · rwa [get_setChanged, if_neg distinct.shm_wal] at entry
    · rename_i shm _
      refine ⟨fun bytes entry => ?_, fun bytes entry => ?_⟩
      · rwa [get_setChanged, if_neg distinct.shm_wal.symm, get_setChanged, if_pos rfl] at entry
      · rwa [get_setChanged, if_pos rfl] at entry

theorem tickBack_cached (cached : adapter.SidecarsCached state cache) :
    adapter.SidecarsCached (adapter.tickBack state cache files).2.1
      (adapter.tickBack state cache files).2.2 := by
  have distinct := adapter.apart
  rw [tickBack]
  split
  · exact cached
  · rename_i bytes _
    have updated : adapter.SidecarsCached (adapter.updateState state bytes).2 cache :=
      cached.congr (adapter.updateState_get state bytes distinct.wal_key distinct.wal_delta)
        (adapter.updateState_get state bytes distinct.shm_key distinct.shm_delta) rfl rfl
    split
    · rename_i update
      rwa [update] at updated
    · rename_i update
      rw [update] at updated
      exact tickSidecars_cached updated

theorem syncTick_sidecars (cached : adapter.SidecarsCached state cache) :
    adapter.SidecarsCached (adapter.syncTick state cache files).2.1
      (adapter.syncTick state cache files).2.2.1 := by
  rw [syncTick]
  split
  · exact cached
  · rename_i opened _
    rw [tickOut_cached cached]
    obtain ⟨wal, shm⟩ := adapter.tickBytes_cache state cache opened
    split
    · rename_i wrote
      rw [wrote] at wal shm
      exact cached.congr rfl rfl wal shm
    · rename_i wrote
      rw [wrote] at wal shm
      exact tickBack_cached (cached.congr rfl rfl wal shm)

structure Opened (files after : Files) (path : String) (bytes : Bytes) : Prop where
  readable : after.readable = files.readable
  writable : after.writable = files.writable
  contents : after.contents path = some bytes
  others : ∀ other, other ≠ path → after.contents other = files.contents other

theorem Opened.refl {path : String} {bytes : Bytes} (present : files.contents path = some bytes) :
    Opened files files path bytes :=
  ⟨rfl, rfl, present, fun _ _ => rfl⟩

theorem Opened.put (files : Files) (path : String) (bytes : Bytes) :
    Opened files (files.put path bytes) path bytes :=
  ⟨rfl, rfl, files.put_contents_self path bytes, fun _ distinct => (files.put_ne bytes distinct).1⟩

theorem Opened.trans {first second third : Files} {path : String} {bytes again : Bytes}
    (earlier : Opened first second path bytes) (later : Opened second third path again) :
    Opened first third path again where
  readable := later.readable.trans earlier.readable
  writable := later.writable.trans earlier.writable
  contents := later.contents
  others other distinct := (later.others other distinct).trans (earlier.others other distinct)

theorem Opened.stays {after : Files} {path other : String} {bytes held : Bytes}
    (opened : Opened files after path bytes) (same : (files.contents path).getD [] = bytes)
    (present : files.contents other = some held) : after.contents other = some held := by
  by_cases here : other = path
  · subst here
    rw [opened.contents, ← same, present]
    rfl
  · rw [opened.others other here, present]

theorem ensureFile_opened (writable : files.writable adapter.path = true) :
    ∃ opened, adapter.ensureFile files = (.ok (), opened) ∧
      Opened files opened adapter.path (adapter.onDisk files).db := by
  rw [ensureFile, onDisk]
  cases present : files.contents adapter.path with
  | some bytes => exact ⟨files, rfl, Opened.refl present⟩
  | none =>
      refine ⟨files.put adapter.path [], ?_, Opened.put files adapter.path []⟩
      simp [Files.write, writable]

/-- What the state has of the database is in the cache or in the file, the files can be read and
written, and the load that follows keeps what it reads. -/
structure Calm (adapter : SqliteFileAdapter) (world : TickWorld) : Prop where
  settled : ∃ given, adapter.bytesFromState world.state = .ok given ∧ ∀ stored ∈ given,
    world.cache.lastBytes = some stored ∨ world.files.contents adapter.path = some stored
  readable : world.files.readable adapter.path = true
  writable : world.files.writable adapter.path = true
  loadable : adapter.Loadable world.state world.files

def given (adapter : SqliteFileAdapter) (state : State Bytes) : Option Bytes :=
  match adapter.bytesFromState state with
  | .ok bytes => bytes
  | .error _ => none

theorem given_of_ok {bytes : Option Bytes} (read : adapter.bytesFromState state = .ok bytes) :
    adapter.given state = bytes := by
  rw [SqliteFileAdapter.given, read]

structure Keeps (adapter : SqliteFileAdapter) (world : TickWorld) : Prop where
  db : world.KeepsFile adapter.dataAdapter adapter.path adapter.given
  wal : world.KeepsFile adapter.dataAdapter adapter.walPath fun state => state.get adapter.walKey
  shm : world.KeepsFile adapter.dataAdapter adapter.shmPath fun state => state.get adapter.shmKey

theorem tickBytes_opened {opened : Files} (writable : files.writable adapter.path = true)
    (settled : ∃ given, adapter.bytesFromState state = .ok given ∧ ∀ stored ∈ given,
      cache.lastBytes = some stored ∨ files.contents adapter.path = some stored)
    (start : Opened files opened adapter.path (adapter.onDisk files).db) :
    ∃ next wrote, adapter.tickBytes state cache opened = (.ok (), next, wrote) ∧
      Opened files wrote adapter.path (adapter.onDisk files).db := by
  obtain ⟨given, read, settled⟩ := settled
  rw [tickBytes, read]
  cases given with
  | none => exact ⟨cache, opened, rfl, start⟩
  | some stored =>
      by_cases known : cache.lastBytes = some stored
      · exact ⟨cache, opened, by simp [known], start⟩
      · have held : files.contents adapter.path = some stored :=
          (settled stored rfl).resolve_left known
        have same : (adapter.onDisk files).db = stored := by
          rw [onDisk, held]
          rfl
        refine ⟨{ cache with lastBytes := some stored }, opened.put adapter.path stored, ?_, ?_⟩
        · simp [known, Files.write, start.writable, writable]
        · rw [same] at start ⊢
          exact start.trans (Opened.put opened adapter.path stored)

theorem tickSidecars_ok (readable : adapter.Readable files) :
    ∃ next, adapter.tickSidecars state cache files = (.ok (),
      (state.setChanged adapter.walKey (adapter.onDisk files).wal).setChanged adapter.shmKey
        (adapter.onDisk files).shm, next) := by
  rw [tickSidecars, readSidecar_ok readable.1]
  simp only [readSidecar_ok readable.2]
  exact ⟨_, rfl⟩

theorem syncTick_calm (cached : adapter.SidecarsCached state cache)
    (calm : adapter.Calm { state, cache, files }) :
    adapter.reconstructed (adapter.syncTick state cache files).2.1 =
        (.ok (some (adapter.onDisk files).db), some (adapter.onDisk files).wal,
          some (adapter.onDisk files).shm) ∧
      ∀ (path : String) (bytes : Bytes), files.contents path = some bytes →
        (adapter.syncTick state cache files).2.2.2.contents path = some bytes := by
  obtain ⟨opened, ensured, start⟩ := ensureFile_opened calm.writable
  obtain ⟨next, wrote, out, held⟩ := tickBytes_opened calm.writable calm.settled start
  have walPath : adapter.walPath ≠ adapter.path := append_ne adapter.path "-wal" (by decide)
  have shmPath : adapter.shmPath ≠ adapter.path := append_ne adapter.path "-shm" (by decide)
  have disk : adapter.onDisk wrote = adapter.onDisk files := by
    simp only [onDisk, held.contents, held.others _ walPath, held.others _ shmPath]
    rfl
  have readable : adapter.Readable wrote := by
    rw [Readable, held.readable]
    exact calm.loadable.readable
  have read : wrote.read adapter.path = .ok (adapter.onDisk files).db := by
    rw [Files.read_of_some held.contents, held.readable, if_pos calm.readable]
  obtain ⟨updated, survives⟩ :=
    (updateState_survives adapter state _ calm.loadable.narrow).mpr calm.loadable.kept
  cases update : adapter.updateState state (adapter.onDisk files).db with
  | mk result after =>
      rw [update] at updated survives
      dsimp only at updated survives
      have sidecars : ∃ last, adapter.tickSidecars after next wrote = (.ok (),
          (after.setChanged adapter.walKey (adapter.onDisk wrote).wal).setChanged adapter.shmKey
            (adapter.onDisk wrote).shm, last) := tickSidecars_ok readable
      obtain ⟨last, loaded⟩ := sidecars
      have ticked : adapter.syncTick state cache files = (.ok (),
          (after.setChanged adapter.walKey (adapter.onDisk files).wal).setChanged adapter.shmKey
            (adapter.onDisk files).shm, last, wrote) := by
        rw [disk] at loaded
        simp only [syncTick, ensured, tickOut_cached cached, out, tickBack, read, update, updated,
          loaded]
      rw [ticked]
      refine ⟨?_, fun path bytes present => held.stays rfl present⟩
      rw [reconstructed_sidecars, survives]

theorem keeps_of_calm {world : TickWorld}
    (cached : adapter.SidecarsCached world.state world.cache) (calm : adapter.Calm world) :
    adapter.Keeps world := by
  obtain ⟨given, stays⟩ := syncTick_calm cached calm
  simp only [reconstructed, Prod.mk.injEq] at given
  obtain ⟨db, wal, shm⟩ := given
  have present : ∀ {path : String} {bytes : Bytes}, world.files.contents path = some bytes →
      some ((world.files.contents path).getD []) = some bytes := by
    intro path bytes found
    rw [found]
    rfl
  exact {
    db := fun bytes found => ⟨(given_of_ok db).trans (present found), stays _ _ found⟩
    wal := fun bytes found => ⟨wal.trans (present found), stays _ _ found⟩
    shm := fun bytes found => ⟨shm.trans (present found), stays _ _ found⟩ }

theorem reaches_cached {start world : TickWorld}
    (initial : adapter.SidecarsCached start.state start.cache)
    (reached : Transition.Reaches (TickWorld.step adapter.dataAdapter)
      (TickWorld.Undisturbed adapter.dataAdapter) start world) :
    adapter.SidecarsCached world.state world.cache := by
  refine reached.invariant (motive := fun world => adapter.SidecarsCached world.state world.cache)
    initial ?_
  intro before event after cached undisturbed stepped
  cases event with
  | edit path bytes =>
      obtain rfl := Option.some.inj stepped
      exact cached
  | elsewhere state =>
      obtain rfl := Option.some.inj stepped
      refine cached.congr (undisturbed _ ?_) (undisturbed _ ?_) rfl rfl
      · simp [dataAdapter]
      · simp [dataAdapter]
  | tick =>
      obtain rfl := Option.some.inj stepped
      exact syncTick_sidecars cached

end SqliteFileAdapter

/--
In every run from no entry, whatever the cache, a tick keeps the edits of a JSON
file exactly if it is calm, and those of a database and its sidecars if it is.
-/
theorem ticks_keep (json : JsonFileAdapter) (sqlite : SqliteFileAdapter) (start world : TickWorld) :
    (start.state.get json.key = none →
      Transition.Reaches (TickWorld.step json.dataAdapter)
        (TickWorld.Undisturbed json.dataAdapter) start world →
      (json.Keeps world ↔ json.Calm world)) ∧
    (start.state.get sqlite.key = none → start.state.get sqlite.walKey = none →
      start.state.get sqlite.shmKey = none →
      Transition.Reaches (TickWorld.step sqlite.dataAdapter)
        (TickWorld.Undisturbed sqlite.dataAdapter) start world →
      sqlite.Calm world → sqlite.Keeps world) := by
  refine ⟨fun _ _ => json.keeps_iff world, fun _ wal shm reached calm => ?_⟩
  have initial : sqlite.SidecarsCached start.state start.cache := by
    refine ⟨fun bytes entry => ?_, fun bytes entry => ?_⟩
    · rw [wal] at entry
      exact absurd entry (by simp)
    · rw [shm] at entry
      exact absurd entry (by simp)
  exact SqliteFileAdapter.keeps_of_calm (SqliteFileAdapter.reaches_cached initial reached) calm

section Sample

def settings : JsonFileAdapter where
  id := "settings"
  path := "settings.json"
  key := "settings"

def untouched (path : String) (byte : UInt8) : TickWorld where
  state := State.new "desk" "first"
  cache := {}
  files := Files.ofContents fun other => if other = path then some [byte] else none

def edited (adapter : DataAdapter Bytes Files) (path : String) : TickWorld :=
  let world := ((untouched path 1).tick adapter).tick adapter
  { world with files := world.files.put path [2] }

theorem edited_reached (adapter : DataAdapter Bytes Files) (path : String) :
    Transition.Reaches (TickWorld.step adapter) (TickWorld.Undisturbed adapter) (untouched path 1)
      (edited adapter path) := by
  have once : Transition.Reaches (TickWorld.step adapter) (TickWorld.Undisturbed adapter)
      (untouched path 1) ((untouched path 1).tick adapter) :=
    Transition.Reaches.start.next
      (show TickWorld.Undisturbed adapter (untouched path 1) .tick from trivial) rfl
  have twice := once.next
    (show TickWorld.Undisturbed adapter ((untouched path 1).tick adapter) .tick from trivial) rfl
  exact twice.next (show TickWorld.Undisturbed adapter _ (.edit path [2]) from trivial) rfl

theorem ticks_keep_edited :
    settings.Keeps (edited settings.dataAdapter "settings.json") ∧
      SqliteFileAdapter.notes.Keeps (edited SqliteFileAdapter.notes.dataAdapter "notes.db") := by
  constructor
  · have cached : (edited settings.dataAdapter "settings.json").state.get "settings" = some [1] ∧
        (edited settings.dataAdapter "settings.json").cache.lastBytes = some [1] := by decide +kernel
    refine ((ticks_keep settings SqliteFileAdapter.notes (untouched "settings.json" 1) _).1 rfl
      (edited_reached _ _)).mpr fun bytes present => Or.inr ⟨by decide +kernel, fun entry found => ?_⟩
    exact cached.2.trans (cached.1.symm.trans found)
  · have held : SqliteFileAdapter.notes.bytesFromState
        (edited SqliteFileAdapter.notes.dataAdapter "notes.db").state = .ok (some [1]) ∧
        (edited SqliteFileAdapter.notes.dataAdapter "notes.db").state.get "notes" = some [1] ∧
        (edited SqliteFileAdapter.notes.dataAdapter "notes.db").cache.lastBytes = some [1] ∧
        (SqliteFileAdapter.notes.onDisk
          (edited SqliteFileAdapter.notes.dataAdapter "notes.db").files).db = [2] := by decide +kernel
    obtain ⟨given, entry, last, disk⟩ := held
    refine (ticks_keep settings SqliteFileAdapter.notes (untouched "notes.db" 1) _).2 rfl rfl rfl
      (edited_reached _ _) {
        settled := ⟨some [1], given, fun stored member => Or.inl (last.trans member)⟩
        readable := by decide +kernel
        writable := by decide +kernel
        loadable := {
          readable := ⟨by decide +kernel, by decide +kernel⟩
          kept := ?_
          narrow := fun _ => Or.inl (by rw [disk]; decide) } }
    rw [disk, SqliteFileAdapter.Kept, show SqliteFileAdapter.notes.key = "notes" from rfl, entry]
    simp [SqliteFileAdapter.notes, SqliteFileAdapter.withPageDelta]

/-- The second tick writes the first content over the edit that came after the first tick. -/
theorem tick_loses_edit :
    ∃ world, Transition.Reaches (TickWorld.step settings.dataAdapter)
        (TickWorld.Undisturbed settings.dataAdapter) (untouched "settings.json" 1) world ∧
      world.files.contents "settings.json" = some [2] ∧
      (world.tick settings.dataAdapter).files.contents "settings.json" = some [1] ∧
      (world.tick settings.dataAdapter).state.get "settings" = some [1] ∧
      ¬settings.Keeps world := by
  let first := untouched "settings.json" 1
  let second := first.tick settings.dataAdapter
  have loads : TickWorld.Undisturbed settings.dataAdapter first .tick := trivial
  have edits : TickWorld.Undisturbed settings.dataAdapter second (.edit "settings.json" [2]) :=
    trivial
  have loaded : Transition.Reaches (TickWorld.step settings.dataAdapter)
      (TickWorld.Undisturbed settings.dataAdapter) first second :=
    Transition.Reaches.start.next loads rfl
  refine ⟨_, loaded.next edits rfl, by decide +kernel, by decide +kernel, by decide +kernel, fun keeps => ?_⟩
  have kept := (keeps [2] (by decide +kernel)).2
  exact absurd kept (by decide +kernel)

end Sample

end LibreSync
