import LibreSync.Crypto
import LibreSync.Retention
import LibreSync.Lib.Fallible

/-! Backups re-encrypted under a new app key, one file after the other. -/

namespace LibreSync

structure Snapshot where
  metadata : SnapshotMetadata
  entries : List (Entry Bytes)
deriving DecidableEq

def Snapshot.path (snapshot : Snapshot) : String × String :=
  (snapshot.metadata.adapterId, snapshot.metadata.id)

/-- The files in the order in which `read_dir` finds them, and the paths of those that a failed
`fs::write` left empty. -/
structure FileSnapshotStore where
  files : List Snapshot
  torn : List (String × String)
  distinct : (files.map Snapshot.path).Nodup
  apart : ∀ snapshot ∈ files, snapshot.path ∉ torn

namespace FileSnapshotStore

def saveSnapshot (store : FileSnapshotStore) (snapshot : Snapshot) : FileSnapshotStore :=
  if present : snapshot.path ∈ store.files.map Snapshot.path then
    { files := store.files.map fun file => if file.path = snapshot.path then snapshot else file
      torn := store.torn
      distinct := by
        have paths : (store.files.map fun file =>
            if file.path = snapshot.path then snapshot else file).map Snapshot.path =
            store.files.map Snapshot.path := by
          rw [List.map_map]
          refine List.map_congr_left fun file _ => ?_
          simp only [Function.comp]
          split
          · rename_i same
            exact same.symm
          · rfl
        rw [paths]
        exact store.distinct
      apart := by
        intro file member
        obtain ⟨held, listed, rfl⟩ := List.mem_map.mp member
        split
        · rename_i same
          exact same ▸ store.apart held listed
        · exact store.apart held listed }
  else
    { files := store.files ++ [snapshot]
      torn := store.torn.filter (· ≠ snapshot.path)
      distinct := by
        rw [List.map_append, List.nodup_append]
        refine ⟨store.distinct, List.nodup_singleton _, ?_⟩
        rintro path member other last rfl
        exact present (List.mem_singleton.mp last ▸ member)
      apart := by
        intro file member emptied
        obtain ⟨torn, differs⟩ := List.mem_filter.mp emptied
        rcases List.mem_append.mp member with held | last
        · exact store.apart file held torn
        · simp [List.mem_singleton.mp last] at differs }

/-- How serde_json refuses a file without content. -/
def emptyFile : String := "EOF while parsing a value at line 1 column 0"

/-- What a save leaves that fails once `fs::write` has emptied the file. -/
def tear (store : FileSnapshotStore) (path : String × String) : FileSnapshotStore where
  files := store.files.filter fun file => file.path ≠ path
  torn := path :: store.torn
  distinct := store.distinct.sublist (List.filter_sublist.map _)
  apart := by
    intro file member emptied
    obtain ⟨held, differs⟩ := List.mem_filter.mp member
    rcases List.mem_cons.mp emptied with same | earlier
    · simp [same] at differs
    · exact store.apart file held earlier

def file (store : FileSnapshotStore) (adapterId snapshotId : String) : Option Snapshot :=
  store.files.find? fun snapshot => snapshot.path = (adapterId, snapshotId)

def loadSnapshot (store : FileSnapshotStore) (adapterId snapshotId : String) :
    Except Error Snapshot :=
  match store.file adapterId snapshotId with
  | some snapshot => .ok snapshot
  | none => .error (if (adapterId, snapshotId) ∈ store.torn then .serde emptyFile
      else .io "No such file or directory (os error 2)")

def listed (store : FileSnapshotStore) (adapterId : String) : List SnapshotMetadata :=
  Surplus.byAge SnapshotMetadata.createdAtUnixSecs
    ((store.files.map Snapshot.metadata).filter fun metadata => metadata.adapterId = adapterId)

/-- Every file of the directory is parsed, so that an empty one hides the others. -/
def listSnapshots (store : FileSnapshotStore) (adapterId : String) :
    Except Error (List SnapshotMetadata) :=
  if store.torn.any fun path => path.1 = adapterId then .error (.serde emptyFile)
  else .ok (store.listed adapterId)

variable {store : FileSnapshotStore} {adapterId snapshotId : String} {snapshot : Snapshot}

theorem file_some : store.file adapterId snapshotId = some snapshot ↔
    snapshot ∈ store.files ∧ snapshot.path = (adapterId, snapshotId) := by
  rw [file]
  constructor
  · exact fun found => ⟨List.mem_of_find?_eq_some found, by simpa using List.find?_some found⟩
  · rintro ⟨member, path⟩
    cases found : store.files.find? fun file => file.path = (adapterId, snapshotId) with
    | none => simpa [path] using List.find?_eq_none.mp found snapshot member
    | some other =>
        have same : other.path = snapshot.path := by
          rw [path]
          simpa using List.find?_some found
        exact congrArg some (List.inj_on_of_nodup_map store.distinct
          (List.mem_of_find?_eq_some found) member same)

theorem loadSnapshot_ok : store.loadSnapshot adapterId snapshotId = .ok snapshot ↔
    store.file adapterId snapshotId = some snapshot := by
  rw [loadSnapshot]
  cases store.file adapterId snapshotId <;> simp

theorem mem_saveSnapshot {file : Snapshot} : file ∈ (store.saveSnapshot snapshot).files ↔
    file = snapshot ∨ file ∈ store.files ∧ file.path ≠ snapshot.path := by
  rw [saveSnapshot]
  split
  · rename_i present
    obtain ⟨held, member, path⟩ := List.mem_map.mp present
    rw [List.mem_map]
    constructor
    · rintro ⟨other, listed, rfl⟩
      split
      · exact Or.inl rfl
      · rename_i differs
        exact Or.inr ⟨listed, differs⟩
    · rintro (rfl | ⟨listed, differs⟩)
      · exact ⟨held, member, if_pos path⟩
      · exact ⟨file, listed, if_neg differs⟩
  · rename_i absent
    rw [List.mem_append, List.mem_singleton]
    constructor
    · rintro (listed | rfl)
      · exact Or.inr ⟨listed, fun same => absent (same ▸ List.mem_map_of_mem listed)⟩
      · exact Or.inl rfl
    · rintro (rfl | ⟨listed, -⟩)
      · exact Or.inr rfl
      · exact Or.inl listed

theorem file_saveSnapshot : (store.saveSnapshot snapshot).file adapterId snapshotId =
    if snapshot.path = (adapterId, snapshotId) then some snapshot
    else store.file adapterId snapshotId := by
  split
  · rename_i same
    exact file_some.mpr ⟨mem_saveSnapshot.mpr (Or.inl rfl), same⟩
  · rename_i differs
    refine Option.ext fun found => ?_
    rw [file_some, file_some, mem_saveSnapshot]
    constructor
    · rintro ⟨rfl | ⟨member, -⟩, path⟩
      · exact absurd path differs
      · exact ⟨member, path⟩
    · rintro ⟨member, path⟩
      exact ⟨Or.inr ⟨member, fun same => differs (same ▸ path)⟩, path⟩

theorem loadSnapshot_congr {other : FileSnapshotStore} (torn : other.torn = store.torn)
    (same : other.file adapterId snapshotId = store.file adapterId snapshotId) :
    other.loadSnapshot adapterId snapshotId = store.loadSnapshot adapterId snapshotId := by
  rw [loadSnapshot, loadSnapshot, same, torn]

theorem listed_saveSnapshot {older : Snapshot}
    (found : store.file adapterId snapshotId = some older)
    (same : snapshot.metadata = older.metadata) (adapter : String) :
    (store.saveSnapshot snapshot).listed adapter = store.listed adapter := by
  obtain ⟨member, -⟩ := file_some.mp found
  have path : snapshot.path = older.path := by rw [Snapshot.path, Snapshot.path, same]
  have metadata : (store.saveSnapshot snapshot).files.map Snapshot.metadata =
      store.files.map Snapshot.metadata := by
    rw [saveSnapshot, dif_pos (path ▸ List.mem_map_of_mem member)]
    dsimp only
    rw [List.map_map]
    refine List.map_congr_left fun file listed => ?_
    simp only [Function.comp]
    split
    · rename_i equal
      rw [List.inj_on_of_nodup_map store.distinct listed member (equal.trans path), same]
    · rfl
  rw [FileSnapshotStore.listed, FileSnapshotStore.listed, metadata]

theorem torn_saveSnapshot (present : snapshot.path ∈ store.files.map Snapshot.path) :
    (store.saveSnapshot snapshot).torn = store.torn := by
  rw [saveSnapshot, dif_pos present]

theorem listSnapshots_congr {other : FileSnapshotStore} (torn : other.torn = store.torn)
    (same : other.listed adapterId = store.listed adapterId) :
    other.listSnapshots adapterId = store.listSnapshots adapterId := by
  rw [listSnapshots, listSnapshots, torn, same]

theorem listSnapshots_ok {metadata : List SnapshotMetadata}
    (ran : store.listSnapshots adapterId = .ok metadata) : metadata = store.listed adapterId := by
  rw [listSnapshots] at ran
  split at ran
  · simp at ran
  · exact (Except.ok.inj ran).symm

theorem listSnapshots_tear {metadata : List SnapshotMetadata} :
    (store.tear (adapterId, snapshotId)).listSnapshots adapterId ≠ .ok metadata := by
  simp [listSnapshots, tear]

theorem mem_listed {metadata : SnapshotMetadata} :
    metadata ∈ store.listed adapterId ↔ metadata.adapterId = adapterId ∧
      ∃ entries, store.file adapterId metadata.id = some { metadata, entries } := by
  rw [listed, Surplus.byAge_perm.mem_iff, List.mem_filter, List.mem_map]
  constructor
  · rintro ⟨⟨⟨_, entries⟩, member, rfl⟩, matched⟩
    obtain rfl : _ = adapterId := by simpa using matched
    exact ⟨rfl, entries, file_some.mpr ⟨member, rfl⟩⟩
  · rintro ⟨matched, entries, found⟩
    exact ⟨⟨_, (file_some.mp found).1, rfl⟩, by simpa using matched⟩

theorem listed_nodup : ((store.listed adapterId).map (·.id)).Nodup := by
  rw [listed, (Surplus.byAge_perm.map _).nodup_iff]
  have paths : ((store.files.map Snapshot.metadata).map fun metadata =>
      (metadata.adapterId, metadata.id)).Nodup := by
    rw [List.map_map]
    exact store.distinct
  refine List.Nodup.of_map (fun id => (adapterId, id)) ?_
  rw [List.map_map]
  refine (List.map_congr_left fun metadata member => ?_) ▸
    paths.sublist (List.filter_sublist.map _)
  simp only [Function.comp, Prod.mk.injEq, and_true]
  exact by simpa using (List.mem_filter.mp member).2

end FileSnapshotStore

inductive SnapshotAccess where
  | load
  | decrypt
  | encrypt
  | save

def attempt (fault : Option Error) : Except Error Unit :=
  match fault with
  | some error => .error error
  | none => .ok ()

theorem attempt_ok {fault : Option Error} {done : Unit} : attempt fault = .ok done ↔ fault = none := by
  cases fault <;> simp [attempt]

namespace BackupManager

variable (cipher : Cipher) (oldKey newKey : AppKey) (adapterId : String)

def loadSnapshotEntries (appKey : AppKey) (store : FileSnapshotStore) (snapshotId : String) :
    Except Error (SnapshotMetadata × List (Entry Bytes)) := do
  let snapshot ← store.loadSnapshot adapterId snapshotId
  let entries ← Crypto.decryptEntries cipher appKey snapshot.entries
  return (snapshot.metadata, entries)

def reencrypted (faults : SnapshotAccess → Option Error) (nonces : Nat → Nonce)
    (metadata : SnapshotMetadata) (store : FileSnapshotStore) : Except Error Snapshot := do
  attempt (faults .load)
  let snapshot ← store.loadSnapshot adapterId metadata.id
  attempt (faults .decrypt)
  let entries ← Crypto.decryptEntries cipher oldKey snapshot.entries
  attempt (faults .encrypt)
  return { snapshot with entries := Crypto.encryptEntries cipher newKey nonces entries }

/-- One round of the loop over the listed snapshots. An error comes with the files as it leaves
them: a save that fails may have emptied its file before. -/
def reencryptSnapshot (faults : SnapshotAccess → Option Error) (torn : Bool)
    (nonces : Nat → Nonce) (metadata : SnapshotMetadata) (store : FileSnapshotStore) :
    Except (Error × FileSnapshotStore) FileSnapshotStore :=
  match reencrypted cipher oldKey newKey adapterId faults nonces metadata store with
  | .error error => .error (error, store)
  | .ok snapshot =>
      match faults .save with
      | some error => .error (error, if torn then store.tear snapshot.path else store)
      | none => .ok (store.saveSnapshot snapshot)

/-- The rounds of the loop; the faults and the nonces of each go by its position. -/
def reencryptions (faults : Nat → SnapshotAccess → Option Error) (torn : Nat → Bool)
    (nonces : Nat → Nat → Nonce) (listed : List SnapshotMetadata) :
    List (FileSnapshotStore → Except (Error × FileSnapshotStore) FileSnapshotStore) :=
  listed.mapIdx fun position => reencryptSnapshot cipher oldKey newKey adapterId (faults position)
    (torn position) (nonces position)

def reencryptSnapshots (faults : Nat → SnapshotAccess → Option Error) (torn : Nat → Bool)
    (nonces : Nat → Nat → Nonce) (store : FileSnapshotStore) :
    Except Error Nat × FileSnapshotStore :=
  match store.listSnapshots adapterId with
  | .error error => (.error error, store)
  | .ok snapshots =>
      match Fallible.runSteps
        (reencryptions cipher oldKey newKey adapterId faults torn nonces snapshots) store with
      | (.error (error, left), _) => (.error error, left)
      | (.ok (), store) => (.ok snapshots.length, store)

/-- The round comes to its save, which fails once the file is empty. -/
structure Tears (faults : SnapshotAccess → Option Error) (torn : Bool) : Prop where
  torn : torn = true
  reached : ∀ access ≠ .save, faults access = none
  fails : faults .save ≠ none

structure Readable (appKey : AppKey) (store : FileSnapshotStore) : Prop where
  listing : store.listSnapshots adapterId = .ok (store.listed adapterId)
  opens : ∀ metadata ∈ store.listed adapterId, ∃ entries,
    loadSnapshotEntries cipher adapterId appKey store metadata.id = .ok (metadata, entries)

def Rekeyed (store after : FileSnapshotStore) : Prop :=
  after.listSnapshots adapterId = store.listSnapshots adapterId ∧
  ∀ metadata ∈ store.listed adapterId,
    loadSnapshotEntries cipher adapterId newKey after metadata.id =
      loadSnapshotEntries cipher adapterId oldKey store metadata.id

/-- The old key still decrypts everything, or running the loop again finishes the rotation. -/
def Retryable (store after : FileSnapshotStore) : Prop :=
  Readable cipher adapterId oldKey after ∨ ∀ nonces, ∃ count final,
    reencryptSnapshots cipher oldKey newKey adapterId (fun _ _ => none) (fun _ => false) nonces
      after = (.ok count, final) ∧ Rekeyed cipher oldKey newKey adapterId store final

structure Reencrypted (store after : FileSnapshotStore) (ids : List String) : Prop where
  listing : ∀ adapter, after.listed adapter = store.listed adapter
  torn : after.torn = store.torn
  done : ∀ id ∈ ids, ∃ snapshot entries nonces, store.file adapterId id = some snapshot ∧
    Crypto.decryptEntries cipher oldKey snapshot.entries = .ok entries ∧
    after.file adapterId id =
      some { snapshot with entries := Crypto.encryptEntries cipher newKey nonces entries }
  others : ∀ adapter id, ¬(adapter = adapterId ∧ id ∈ ids) →
    after.file adapter id = store.file adapter id

variable {cipher oldKey newKey adapterId} {store after : FileSnapshotStore}

theorem loadSnapshotEntries_ok {appKey : AppKey} {snapshotId : String}
    {metadata : SnapshotMetadata} {entries : List (Entry Bytes)} :
    loadSnapshotEntries cipher adapterId appKey store snapshotId = .ok (metadata, entries) ↔
      ∃ held, store.file adapterId snapshotId = some { metadata, entries := held } ∧
        Crypto.decryptEntries cipher appKey held = .ok entries := by
  simp only [loadSnapshotEntries, FileSnapshotStore.loadSnapshot]
  cases store.file adapterId snapshotId with
  | none => simp [bind, Except.bind]
  | some snapshot =>
      obtain ⟨held, found⟩ := snapshot
      simp only [bind, Except.bind]
      cases decrypted : Crypto.decryptEntries cipher appKey found with
      | error error => simp [decrypted]
      | ok plain => simp [pure, Except.pure, decrypted]

theorem readable_of_files {appKey : AppKey} (whole : store.torn = [])
    (opens : ∀ snapshot ∈ store.files, ∃ entries,
      Crypto.decryptEntries cipher appKey snapshot.entries = .ok entries) :
    Readable cipher adapterId appKey store := by
  refine ⟨by simp [FileSnapshotStore.listSnapshots, whole], fun metadata member => ?_⟩
  obtain ⟨-, held, found⟩ := FileSnapshotStore.mem_listed.mp member
  obtain ⟨entries, plain⟩ := opens _ (FileSnapshotStore.file_some.mp found).1
  exact ⟨entries, loadSnapshotEntries_ok.mpr ⟨held, found, plain⟩⟩

theorem reencrypted_ok {faults : SnapshotAccess → Option Error} {nonces : Nat → Nonce}
    {metadata : SnapshotMetadata} {saved : Snapshot} :
    reencrypted cipher oldKey newKey adapterId faults nonces metadata store = .ok saved ↔
      (∀ access ≠ .save, faults access = none) ∧ ∃ snapshot entries,
        store.file adapterId metadata.id = some snapshot ∧
        Crypto.decryptEntries cipher oldKey snapshot.entries = .ok entries ∧
        { snapshot with entries := Crypto.encryptEntries cipher newKey nonces entries } = saved := by
  simp only [reencrypted, Fallible.bind_ok, attempt_ok, FileSnapshotStore.loadSnapshot_ok]
  constructor
  · rintro ⟨-, load, snapshot, found, -, decrypt, entries, plain, -, encrypt, made⟩
    refine ⟨fun access early => ?_, snapshot, entries, found, plain, Except.ok.inj made⟩
    cases access
    · exact load
    · exact decrypt
    · exact encrypt
    · exact absurd rfl early
  · rintro ⟨sound, snapshot, entries, found, plain, made⟩
    exact ⟨(), sound .load (by simp), snapshot, found, (), sound .decrypt (by simp), entries, plain,
      (), sound .encrypt (by simp), congrArg Except.ok made⟩

theorem reencryptSnapshot_ok_iff {faults : SnapshotAccess → Option Error} {torn : Bool}
    {nonces : Nat → Nonce} {metadata : SnapshotMetadata} :
    reencryptSnapshot cipher oldKey newKey adapterId faults torn nonces metadata store = .ok after ↔
      (∀ access, faults access = none) ∧ ∃ snapshot entries,
        store.file adapterId metadata.id = some snapshot ∧
        Crypto.decryptEntries cipher oldKey snapshot.entries = .ok entries ∧
        store.saveSnapshot { snapshot with
          entries := Crypto.encryptEntries cipher newKey nonces entries } = after := by
  rw [reencryptSnapshot]
  constructor
  · intro ran
    cases made : reencrypted cipher oldKey newKey adapterId faults nonces metadata store with
    | error error => simp [made] at ran
    | ok saved =>
        cases fault : faults .save with
        | some error => simp [made, fault] at ran
        | none =>
            simp only [made, fault, Except.ok.injEq] at ran
            obtain ⟨early, snapshot, entries, found, plain, rfl⟩ := reencrypted_ok.mp made
            refine ⟨fun access => ?_, snapshot, entries, found, plain, ran⟩
            cases access <;> first | exact fault | exact early _ (by simp)
  · rintro ⟨sound, snapshot, entries, found, plain, saved⟩
    rw [reencrypted_ok.mpr ⟨fun access _ => sound access, snapshot, entries, found, plain, rfl⟩]
    simp only [sound, saved]

theorem reencryptSnapshot_error {faults : SnapshotAccess → Option Error} {torn : Bool}
    {nonces : Nat → Nonce} {metadata : SnapshotMetadata} {snapshot : Snapshot}
    {entries : List (Entry Bytes)} (found : store.file adapterId metadata.id = some snapshot)
    (plain : Crypto.decryptEntries cipher oldKey snapshot.entries = .ok entries) {error : Error}
    (failed : reencryptSnapshot cipher oldKey newKey adapterId faults torn nonces metadata store =
      .error (error, after)) :
    (∃ access, faults access ≠ none) ∧ (¬Tears faults torn → after = store) ∧
      (Tears faults torn → after = store.tear (adapterId, metadata.id)) := by
  by_cases early : ∀ access ≠ .save, faults access = none
  · have made : reencrypted cipher oldKey newKey adapterId faults nonces metadata store =
        .ok { snapshot with entries := Crypto.encryptEntries cipher newKey nonces entries } :=
      reencrypted_ok.mpr ⟨early, snapshot, entries, found, plain, rfl⟩
    cases fault : faults .save with
    | none =>
        rw [reencryptSnapshot, made] at failed
        simp [fault] at failed
    | some refused =>
        rw [reencryptSnapshot, made] at failed
        simp only [fault, Except.error.injEq, Prod.mk.injEq] at failed
        obtain ⟨-, rfl⟩ := failed
        have path : snapshot.path = (adapterId, metadata.id) :=
          (FileSnapshotStore.file_some.mp found).2
        have saves : faults .save ≠ none := by simp [fault]
        refine ⟨⟨.save, saves⟩, fun whole => if_neg fun emptied => whole ⟨emptied, early, saves⟩,
          fun tears => ?_⟩
        rw [if_pos tears.torn, ← path]
        rfl
  · have stopped : ∃ error, reencrypted cipher oldKey newKey adapterId faults nonces metadata store =
        .error error := by
      cases made : reencrypted cipher oldKey newKey adapterId faults nonces metadata store with
      | error error => exact ⟨error, rfl⟩
      | ok saved => exact absurd (reencrypted_ok.mp made).1 early
    obtain ⟨refused, made⟩ := stopped
    rw [reencryptSnapshot, made] at failed
    simp only [Except.error.injEq, Prod.mk.injEq] at failed
    obtain ⟨-, rfl⟩ := failed
    refine ⟨?_, fun _ => rfl, fun tears => absurd tears.reached early⟩
    push Not at early
    obtain ⟨access, -, fault⟩ := early
    exact ⟨access, fault⟩

theorem Reencrypted.refl : Reencrypted cipher oldKey newKey adapterId store store [] where
  listing _ := rfl
  torn := rfl
  done _ member := absurd member List.not_mem_nil
  others _ _ _ := rfl

theorem Reencrypted.listSnapshots {ids : List String} (adapter : String)
    (run : Reencrypted cipher oldKey newKey adapterId store after ids) :
    after.listSnapshots adapter = store.listSnapshots adapter :=
  FileSnapshotStore.listSnapshots_congr run.torn (run.listing adapter)

theorem reencryptSnapshot_reencrypted {faults : SnapshotAccess → Option Error} {torn : Bool}
    {nonces : Nat → Nonce} {metadata : SnapshotMetadata}
    (saved : reencryptSnapshot cipher oldKey newKey adapterId faults torn nonces metadata store =
      .ok after) : Reencrypted cipher oldKey newKey adapterId store after [metadata.id] := by
  obtain ⟨-, snapshot, entries, found, plain, rfl⟩ := reencryptSnapshot_ok_iff.mp saved
  obtain ⟨member, path⟩ := FileSnapshotStore.file_some.mp found
  have file : ∀ adapter id, (store.saveSnapshot { snapshot with
      entries := Crypto.encryptEntries cipher newKey nonces entries }).file adapter id =
        if (adapterId, metadata.id) = (adapter, id) then some { snapshot with
          entries := Crypto.encryptEntries cipher newKey nonces entries }
        else store.file adapter id := by
    intro adapter id
    rw [FileSnapshotStore.file_saveSnapshot, ← path]
    rfl
  refine ⟨FileSnapshotStore.listed_saveSnapshot found rfl,
    FileSnapshotStore.torn_saveSnapshot (List.mem_map.mpr ⟨snapshot, member, rfl⟩), ?_, ?_⟩
  · intro id member
    obtain rfl := List.mem_singleton.mp member
    exact ⟨snapshot, entries, nonces, found, plain, by rw [file, if_pos rfl]⟩
  · intro adapter id other
    refine (file adapter id).trans (if_neg fun same => other ?_)
    obtain ⟨rfl, rfl⟩ := Prod.mk.inj same
    exact ⟨rfl, List.mem_singleton_self _⟩

theorem Reencrypted.trans {final : FileSnapshotStore} {first later : List String}
    (before : Reencrypted cipher oldKey newKey adapterId store after first)
    (next : Reencrypted cipher oldKey newKey adapterId after final later)
    (apart : ∀ id ∈ first, id ∉ later) :
    Reencrypted cipher oldKey newKey adapterId store final (first ++ later) where
  listing adapter := (next.listing adapter).trans (before.listing adapter)
  torn := next.torn.trans before.torn
  done id member := by
    by_cases earlier : id ∈ first
    · obtain ⟨snapshot, entries, nonces, found, plain, saved⟩ := before.done id earlier
      exact ⟨snapshot, entries, nonces, found, plain,
        (next.others adapterId id fun both => apart id earlier both.2).trans saved⟩
    · have last := (List.mem_append.mp member).resolve_left earlier
      obtain ⟨snapshot, entries, nonces, found, plain, saved⟩ := next.done id last
      exact ⟨snapshot, entries, nonces,
        (before.others adapterId id fun both => earlier both.2).symm.trans found, plain, saved⟩
  others adapter id absent := (next.others adapter id fun both =>
      absent ⟨both.1, List.mem_append_right _ both.2⟩).trans
    (before.others adapter id fun both => absent ⟨both.1, List.mem_append_left _ both.2⟩)

section Loop

variable {faults : Nat → SnapshotAccess → Option Error} {torn : Nat → Bool}
  {nonces : Nat → Nat → Nonce} {listed : List SnapshotMetadata}

theorem reencryptions_cons {metadata : SnapshotMetadata} {rest : List SnapshotMetadata} :
    reencryptions cipher oldKey newKey adapterId faults torn nonces (metadata :: rest) =
      reencryptSnapshot cipher oldKey newKey adapterId (faults 0) (torn 0) (nonces 0) metadata ::
        reencryptions cipher oldKey newKey adapterId (fun position => faults (position + 1))
          (fun position => torn (position + 1)) (fun position => nonces (position + 1)) rest :=
  List.mapIdx_cons

variable (newKey faults torn nonces) in
theorem runSteps_reencrypted (distinct : (listed.map (·.id)).Nodup)
    (readable : ∀ metadata ∈ listed, ∃ entries,
      loadSnapshotEntries cipher adapterId oldKey store metadata.id = .ok (metadata, entries))
    (run : Except (Error × FileSnapshotStore) Unit × FileSnapshotStore)
    (ran : Fallible.runSteps (reencryptions cipher oldKey newKey adapterId faults torn nonces listed)
      store = run) :
    ∃ count ≤ listed.length,
      Reencrypted cipher oldKey newKey adapterId store run.2 ((listed.take count).map (·.id)) ∧
      (∀ position < count, ∀ access, faults position access = none) ∧
      (run.1 = .ok () ∧ count = listed.length ∨
        count < listed.length ∧ (∃ access, faults count access ≠ none) ∧
          ∃ error left, run.1 = .error (error, left) ∧
            (¬Tears (faults count) (torn count) → left = run.2) ∧
            (Tears (faults count) (torn count) → ∃ id, left = run.2.tear (adapterId, id))) := by
  induction listed generalizing store faults torn nonces with
  | nil =>
      subst ran
      exact ⟨0, Nat.le_refl 0, Reencrypted.refl, by simp, Or.inl ⟨rfl, rfl⟩⟩
  | cons metadata rest ih =>
      obtain ⟨fresh, others⟩ := List.nodup_cons.mp distinct
      obtain ⟨entries, loads⟩ := readable metadata List.mem_cons_self
      obtain ⟨held, found, plain⟩ := loadSnapshotEntries_ok.mp loads
      rw [reencryptions_cons] at ran
      simp only [Fallible.runSteps] at ran
      cases result : reencryptSnapshot cipher oldKey newKey adapterId (faults 0) (torn 0) (nonces 0)
          metadata store with
      | ok next =>
          rw [result] at ran
          have first := reencryptSnapshot_reencrypted result
          have later : ∀ other ∈ rest, ∃ entries, loadSnapshotEntries cipher adapterId oldKey next
              other.id = .ok (other, entries) := by
            intro other member
            obtain ⟨entries, loads⟩ := readable other (List.mem_cons_of_mem _ member)
            obtain ⟨held, found, plain⟩ := loadSnapshotEntries_ok.mp loads
            refine ⟨entries, loadSnapshotEntries_ok.mpr ⟨held, ?_, plain⟩⟩
            have differs : other.id ≠ metadata.id :=
              fun same => fresh (List.mem_map.mpr ⟨other, member, same⟩)
            rw [first.others, found]
            exact fun both => differs (List.mem_singleton.mp both.2)
          obtain ⟨count, within, done, clear, ends⟩ := ih (fun position => faults (position + 1))
            (fun position => torn (position + 1)) (fun position => nonces (position + 1)) others later
            ran
          refine ⟨count + 1, Nat.succ_le_succ within, ?_, ?_, ?_⟩
          · refine first.trans done fun id member => ?_
            obtain rfl := List.mem_singleton.mp member
            exact fun taken => fresh (List.map_subset _ (List.take_subset _ _) taken)
          · intro position below
            cases position with
            | zero => exact (reencryptSnapshot_ok_iff.mp result).1
            | succ position => exact clear position (Nat.lt_of_succ_lt_succ below)
          · rcases ends with ⟨ended, all⟩ | ⟨before, failed⟩
            · exact Or.inl ⟨ended, congrArg (· + 1) all⟩
            · exact Or.inr ⟨Nat.succ_lt_succ before, failed⟩
      | error failure =>
          obtain ⟨error, left⟩ := failure
          rw [result] at ran
          subst ran
          obtain ⟨fault, whole, tears⟩ := reencryptSnapshot_error found plain result
          exact ⟨0, Nat.zero_le _, Reencrypted.refl, by simp, Or.inr ⟨Nat.succ_pos _, fault, error,
            left, rfl, whole, fun torn => ⟨metadata.id, tears torn⟩⟩⟩

theorem runSteps_readable (distinct : (listed.map (·.id)).Nodup)
    (ended : (Fallible.runSteps (reencryptions cipher oldKey newKey adapterId faults torn nonces
      listed) store).1 = .ok ()) : ∀ metadata ∈ listed, ∃ snapshot entries,
        store.file adapterId metadata.id = some snapshot ∧
        Crypto.decryptEntries cipher oldKey snapshot.entries = .ok entries := by
  induction listed generalizing store faults torn nonces with
  | nil => exact fun metadata member => absurd member List.not_mem_nil
  | cons metadata rest ih =>
      obtain ⟨fresh, others⟩ := List.nodup_cons.mp distinct
      rw [reencryptions_cons] at ended
      simp only [Fallible.runSteps] at ended
      cases saved : reencryptSnapshot cipher oldKey newKey adapterId (faults 0) (torn 0) (nonces 0)
          metadata store with
      | error error => simp [saved] at ended
      | ok next =>
          rw [saved] at ended
          have first := reencryptSnapshot_reencrypted saved
          obtain ⟨-, snapshot, entries, found, plain, -⟩ := reencryptSnapshot_ok_iff.mp saved
          intro other member
          rcases List.mem_cons.mp member with rfl | later
          · exact ⟨snapshot, entries, found, plain⟩
          · obtain ⟨held, texts, stored, opens⟩ := ih others ended other later
            refine ⟨held, texts, ?_, opens⟩
            have differs : other.id ≠ metadata.id :=
              fun same => fresh (List.mem_map.mpr ⟨other, later, same⟩)
            rw [← first.others adapterId other.id, stored]
            exact fun both => differs (List.mem_singleton.mp both.2)

theorem reencryptSnapshots_readable {count : Nat}
    (ended : reencryptSnapshots cipher oldKey newKey adapterId faults torn nonces store =
      (.ok count, after)) : Readable cipher adapterId oldKey store := by
  rw [reencryptSnapshots] at ended
  cases listing : store.listSnapshots adapterId with
  | error error => simp [listing] at ended
  | ok snapshots =>
      obtain rfl := FileSnapshotStore.listSnapshots_ok listing
      simp only [listing] at ended
      refine ⟨listing, fun metadata member => ?_⟩
      have result : (Fallible.runSteps (reencryptions cipher oldKey newKey adapterId faults torn
          nonces (store.listed adapterId)) store).1 = .ok () := by
        revert ended
        generalize Fallible.runSteps (reencryptions cipher oldKey newKey adapterId faults torn nonces
          (store.listed adapterId)) store = run
        obtain ⟨failure | done, state⟩ := run
        · simp
        · exact fun _ => rfl
      obtain ⟨snapshot, entries, found, plain⟩ :=
        runSteps_readable FileSnapshotStore.listed_nodup result metadata member
      obtain ⟨-, held, listed⟩ := FileSnapshotStore.mem_listed.mp member
      obtain rfl := Option.some.inj (found.symm.trans listed)
      exact ⟨entries, loadSnapshotEntries_ok.mpr ⟨held, found, plain⟩⟩

end Loop

theorem Retryable.readable (retryable : Retryable cipher oldKey newKey adapterId store after) :
    Readable cipher adapterId oldKey after := by
  rcases retryable with readable | ends
  · exact readable
  · obtain ⟨count, final, ended, -⟩ := ends fun _ _ => ⟨List.replicate 24 0, List.length_replicate⟩
    exact reencryptSnapshots_readable ended

theorem Readable.not_torn {id : String} {appKey : AppKey} :
    ¬Readable cipher adapterId appKey (store.tear (adapterId, id)) :=
  fun readable => FileSnapshotStore.listSnapshots_tear readable.listing

theorem Reencrypted.readable_iff {listed : List SnapshotMetadata}
    (run : Reencrypted cipher oldKey newKey adapterId store after (listed.map (·.id)))
    (within : ∀ metadata ∈ listed, metadata ∈ store.listed adapterId)
    (readable : Readable cipher adapterId oldKey store) :
    Readable cipher adapterId oldKey after ↔ newKey = oldKey ∨ ∀ metadata ∈ listed,
      loadSnapshotEntries cipher adapterId oldKey store metadata.id = .ok (metadata, []) := by
  have loads : ∀ metadata ∈ store.listed adapterId, metadata.id ∈ listed.map (·.id) →
      ∃ entries nonces, loadSnapshotEntries cipher adapterId oldKey store metadata.id =
        .ok (metadata, entries) ∧ after.file adapterId metadata.id =
          some { metadata, entries := Crypto.encryptEntries cipher newKey nonces entries } := by
    intro metadata member taken
    obtain ⟨snapshot, entries, nonces, found, plain, saved⟩ := run.done metadata.id taken
    obtain ⟨-, held, stored⟩ := FileSnapshotStore.mem_listed.mp member
    obtain rfl := Option.some.inj (found.symm.trans stored)
    exact ⟨entries, nonces, loadSnapshotEntries_ok.mpr ⟨held, found, plain⟩, saved⟩
  constructor
  · intro still
    refine or_iff_not_imp_left.mpr fun differs metadata taken => ?_
    have member := within metadata taken
    obtain ⟨entries, nonces, loaded, saved⟩ := loads metadata member (List.mem_map_of_mem taken)
    obtain ⟨found, opens⟩ := still.opens metadata (run.listing adapterId ▸ member)
    obtain ⟨held, stored, plain⟩ := loadSnapshotEntries_ok.mp opens
    obtain ⟨-, rfl⟩ := Snapshot.mk.inj (Option.some.inj (stored.symm.trans saved))
    obtain ⟨rfl, -⟩ := (Crypto.decryptEntries_other_iff (Ne.symm differs)).mp plain
    exact loaded
  · intro either
    refine ⟨by rw [run.listSnapshots, readable.listing, run.listing], fun metadata member => ?_⟩
    rw [run.listing] at member
    by_cases taken : metadata.id ∈ listed.map (·.id)
    · obtain ⟨entries, nonces, loaded, saved⟩ := loads metadata member taken
      refine ⟨entries, loadSnapshotEntries_ok.mpr ⟨_, saved, ?_⟩⟩
      rcases either with rfl | empty
      · exact Crypto.decryptEntries_encryptEntries _ _
      · obtain ⟨other, listed, same⟩ := List.mem_map.mp taken
        have none := empty other listed
        rw [show other.id = metadata.id from same, loaded] at none
        obtain ⟨-, rfl⟩ := Prod.mk.inj (Except.ok.inj none)
        rfl
    · obtain ⟨entries, loaded⟩ := readable.opens metadata member
      obtain ⟨held, found, plain⟩ := loadSnapshotEntries_ok.mp loaded
      exact ⟨entries, loadSnapshotEntries_ok.mpr
        ⟨held, (run.others _ _ fun both => taken both.2).trans found, plain⟩⟩

variable (newKey) in
theorem reencryptSnapshots_reencrypted (faults : Nat → SnapshotAccess → Option Error)
    (torn : Nat → Bool) (nonces : Nat → Nat → Nonce)
    (readable : Readable cipher adapterId oldKey store) :
    ∃ count ≤ (store.listed adapterId).length, ∃ final,
      Reencrypted cipher oldKey newKey adapterId store final
        (((store.listed adapterId).take count).map (·.id)) ∧
      (∀ position < count, ∀ access, faults position access = none) ∧
      (reencryptSnapshots cipher oldKey newKey adapterId faults torn nonces store =
          (.ok (store.listed adapterId).length, final) ∧ count = (store.listed adapterId).length ∨
        count < (store.listed adapterId).length ∧ (∃ access, faults count access ≠ none) ∧
          ∃ error left, reencryptSnapshots cipher oldKey newKey adapterId faults torn nonces store =
              (.error error, left) ∧
            (¬Tears (faults count) (torn count) → left = final) ∧
            (Tears (faults count) (torn count) → ∃ id, left = final.tear (adapterId, id))) := by
  obtain ⟨count, within, done, clear, ends⟩ := runSteps_reencrypted newKey faults torn nonces
    FileSnapshotStore.listed_nodup readable.opens _ rfl
  refine ⟨count, within, _, done, clear, ?_⟩
  rw [reencryptSnapshots, readable.listing]
  dsimp only
  revert done ends
  generalize Fallible.runSteps (reencryptions cipher oldKey newKey adapterId faults torn nonces
    (store.listed adapterId)) store = run
  obtain ⟨outcome, final⟩ := run
  rintro - (⟨rfl, all⟩ | ⟨before, fault, error, left, rfl, whole, tears⟩)
  · exact Or.inl ⟨rfl, all⟩
  · exact Or.inr ⟨before, fault, error, left, rfl, whole, tears⟩

/-- A rotation that fails at a position can be finished, or has left everything under the old
key, exactly if the file saved there was not emptied, and the snapshots before it have no entries
or the keys are the same. -/
theorem reencryptSnapshots_retryable_iff {faults : Nat → SnapshotAccess → Option Error}
    {torn : Nat → Bool} {nonces : Nat → Nat → Nonce} {position : Nat}
    (readable : Readable cipher adapterId oldKey store)
    (within : position < (store.listed adapterId).length)
    (before : ∀ earlier < position, ∀ access, faults earlier access = none)
    {access : SnapshotAccess} {error : Error} (fails : faults position access = some error)
    (run : Except Error Nat × FileSnapshotStore)
    (ran : reencryptSnapshots cipher oldKey newKey adapterId faults torn nonces store = run) :
    (∃ error, run.1 = .error error) ∧
      (Retryable cipher oldKey newKey adapterId store run.2 ↔
        ¬Tears (faults position) (torn position) ∧
          (newKey = oldKey ∨ ∀ metadata ∈ (store.listed adapterId).take position,
            loadSnapshotEntries cipher adapterId oldKey store metadata.id = .ok (metadata, []))) := by
  subst ran
  obtain ⟨count, -, final, done, clear, ends⟩ :=
    reencryptSnapshots_reencrypted newKey faults torn nonces readable
  have reached : ¬position < count := fun below => by simpa [fails] using clear position below access
  rcases ends with ⟨-, all⟩ | ⟨-, ⟨faulty, fault⟩, failure, left, result, whole, tears⟩
  · exact absurd (all ▸ within) reached
  · obtain rfl : count = position := by
      refine Nat.le_antisymm (not_lt.mp reached) (not_lt.mp fun below => ?_)
      exact fault (before count below faulty)
    rw [result]
    refine ⟨⟨failure, rfl⟩, ?_⟩
    have taken : ∀ metadata ∈ (store.listed adapterId).take count,
        metadata ∈ store.listed adapterId := fun metadata => List.mem_of_mem_take
    have iff := done.readable_iff taken readable
    by_cases emptied : Tears (faults count) (torn count)
    · obtain ⟨id, rfl⟩ := tears emptied
      exact ⟨fun retryable => absurd retryable.readable Readable.not_torn,
        fun both => absurd emptied both.1⟩
    · obtain rfl := whole emptied
      exact ⟨fun retryable => ⟨emptied, iff.mp retryable.readable⟩,
        fun both => Or.inl (iff.mpr both.2)⟩

theorem Rekeyed.refl : Rekeyed cipher oldKey oldKey adapterId store store := ⟨rfl, fun _ _ => rfl⟩

theorem Reencrypted.rekeyed {listed : List SnapshotMetadata}
    (run : Reencrypted cipher oldKey newKey adapterId store after (listed.map (·.id)))
    (whole : newKey = oldKey ∨ listed = store.listed adapterId) :
    Rekeyed cipher oldKey newKey adapterId store after := by
  refine ⟨run.listSnapshots adapterId, fun metadata member => ?_⟩
  by_cases taken : metadata.id ∈ listed.map (·.id)
  · obtain ⟨snapshot, entries, nonces, found, plain, saved⟩ := run.done metadata.id taken
    have old := loadSnapshotEntries_ok.mpr ⟨_, found, plain⟩
    have opens : Crypto.decryptEntries cipher newKey
        (Crypto.encryptEntries cipher newKey nonces entries) = .ok entries :=
      Crypto.decryptEntries_encryptEntries _ _
    have new := loadSnapshotEntries_ok.mpr ⟨_, saved, opens⟩
    exact new.trans old.symm
  · rcases whole with rfl | rfl
    · rw [loadSnapshotEntries, loadSnapshotEntries, FileSnapshotStore.loadSnapshot_congr
        run.torn (run.others adapterId metadata.id fun both => taken both.2)]
    · exact absurd (List.mem_map_of_mem member) taken

theorem Reencrypted.elsewhere {ids : List String} {other : String} {key : AppKey}
    (run : Reencrypted cipher oldKey newKey adapterId store after ids) (apart : other ≠ adapterId)
    (readable : Readable cipher other oldKey store) :
    Rekeyed cipher oldKey key other store after ↔ key = oldKey ∨
      ∀ metadata ∈ store.listed other,
        loadSnapshotEntries cipher other oldKey store metadata.id = .ok (metadata, []) := by
  have same : ∀ id, after.file other id = store.file other id :=
    fun id => run.others other id fun both => apart both.1
  constructor
  · rintro ⟨-, loads⟩
    refine or_iff_not_imp_left.mpr fun differs metadata member => ?_
    obtain ⟨entries, loaded⟩ := readable.opens metadata member
    obtain ⟨held, found, plain⟩ := loadSnapshotEntries_ok.mp loaded
    obtain ⟨again, stored, opens⟩ := loadSnapshotEntries_ok.mp ((loads metadata member).trans loaded)
    rw [same, found] at stored
    obtain ⟨-, rfl⟩ := Snapshot.mk.inj (Option.some.inj stored)
    obtain rfl := Crypto.decryptEntries_both differs plain opens
    obtain rfl : entries = [] := (Except.ok.inj plain).symm
    exact loaded
  · intro either
    refine ⟨run.listSnapshots other, fun metadata member => ?_⟩
    rcases either with rfl | empty
    · rw [loadSnapshotEntries, loadSnapshotEntries, FileSnapshotStore.loadSnapshot_congr
        run.torn (same _)]
    · have loaded := empty metadata member
      obtain ⟨held, found, plain⟩ := loadSnapshotEntries_ok.mp loaded
      rw [loaded]
      obtain rfl := Crypto.decryptEntries_nil plain
      exact loadSnapshotEntries_ok.mpr ⟨[], (same _).trans found, rfl⟩

end BackupManager

def namingCipher : Cipher where
  encrypt key nonce message aad := key.bytes ++ (nonce.bytes ++ (hashBytes aad ++ message))
  decrypt key nonce ciphertext aad :=
    let tag := key.bytes ++ (nonce.bytes ++ hashBytes aad)
    if ciphertext.take tag.length = tag then some (ciphertext.drop tag.length) else none
  opens key nonce message aad := by
    have tagged : key.bytes ++ (nonce.bytes ++ (hashBytes aad ++ message)) =
        (key.bytes ++ (nonce.bytes ++ hashBytes aad)) ++ message := by simp
    simp only [tagged, List.take_left', List.drop_left', ↓reduceIte]
  authentic key nonce ciphertext aad message opened := by
    simp only [Option.ite_none_right_eq_some, Option.some.injEq] at opened
    obtain ⟨tagged, rfl⟩ := opened
    have whole := List.take_append_drop (key.bytes ++ (nonce.bytes ++ hashBytes aad)).length ciphertext
    rw [tagged] at whole
    simpa using whole
  rejects key other nonce message aad differs := by
    refine if_neg fun same => differs ?_
    have first := congrArg (List.take 32) same
    rw [List.take_take, min_eq_left (by simp [other.sized]), List.take_left' key.sized,
      List.take_left' other.sized] at first
    cases key
    cases other
    simpa using first.symm

def firstKey : AppKey where
  bytes := List.replicate 32 1
  sized := rfl

def secondKey : AppKey where
  bytes := List.replicate 32 2
  sized := rfl

def zeroNonce : Nonce where
  bytes := List.replicate 24 0
  sized := rfl

def noteEntry : Entry Bytes where
  key := "note"
  value := [104, 105]
  clock := { counter := 1, deviceId := "laptop" }

def backupOf (adapterId id : String) (created : Nat) : Snapshot where
  metadata := {
    id
    adapterId
    createdAtUnixSecs := created
    entryCount := 1
    createdByDeviceId := some "laptop"
    label := none
    note := none }
  entries := Crypto.encryptEntries namingCipher firstKey (fun _ => zeroNonce) [noteEntry]

def twoBackups : FileSnapshotStore where
  files := [backupOf "file" "one" 1, backupOf "file" "two" 2]
  torn := []
  distinct := by decide
  apart := by simp

def fullDisk (position : Nat) (access : SnapshotAccess) : Option Error :=
  match position, access with
  | 1, .save => some (.io "No space left on device (os error 28)")
  | _, _ => none

namespace BackupManager

theorem backupOf_opens {adapter id : String} {created : Nat} : ∃ entries,
    Crypto.decryptEntries namingCipher firstKey (backupOf adapter id created).entries = .ok entries :=
  ⟨[noteEntry], Crypto.decryptEntries_encryptEntries _ _⟩

theorem twoBackups_readable : Readable namingCipher "file" firstKey twoBackups :=
  readable_of_files rfl fun snapshot member => by
    simp only [twoBackups, List.mem_cons, List.not_mem_nil, or_false] at member
    rcases member with rfl | rfl <;> exact backupOf_opens

theorem reencryptSnapshots_retryable_first :
    Retryable namingCipher firstKey secondKey "file" twoBackups
      (reencryptSnapshots namingCipher firstKey secondKey "file"
        (fun position => fullDisk (position + 1)) (fun _ => false) (fun _ _ => zeroNonce)
        twoBackups).2 := by
  have within : 0 < (twoBackups.listed "file").length := by decide +kernel
  have fails : fullDisk (0 + 1) .save = some (.io "No space left on device (os error 28)") := rfl
  exact (reencryptSnapshots_retryable_iff twoBackups_readable within
    (fun earlier below => absurd below (Nat.not_lt_zero _)) fails _ rfl).2.mpr
      ⟨fun tears => absurd tears.torn (by simp), Or.inr (by simp)⟩

/-- Saving the second snapshot fails, and the first one stops every later rotation. -/
theorem reencryptSnapshots_stuck : Readable namingCipher "file" firstKey twoBackups ∧
    (reencryptSnapshots namingCipher firstKey secondKey "file" fullDisk (fun _ => false)
      (fun _ _ => zeroNonce) twoBackups).1 =
        .error (.io "No space left on device (os error 28)") ∧
    ¬Retryable namingCipher firstKey secondKey "file" twoBackups
      (reencryptSnapshots namingCipher firstKey secondKey "file" fullDisk (fun _ => false)
        (fun _ _ => zeroNonce) twoBackups).2 := by
  refine ⟨twoBackups_readable, by decide +kernel, fun retryable => ?_⟩
  obtain ⟨entries, loaded⟩ := retryable.readable.opens (backupOf "file" "one" 1).metadata
    (by decide +kernel)
  have broken : loadSnapshotEntries namingCipher "file" firstKey (reencryptSnapshots namingCipher
      firstKey secondKey "file" fullDisk (fun _ => false) (fun _ _ => zeroNonce) twoBackups).2
        (backupOf "file" "one" 1).metadata.id = .error (.crypto "failed to decrypt entry") := by
    decide +kernel
  rw [broken] at loaded
  exact absurd loaded (by simp)

end BackupManager

end LibreSync
