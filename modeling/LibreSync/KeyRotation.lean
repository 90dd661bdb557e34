import LibreSync.ConfigHandler
import LibreSync.SnapshotKeys
import LibreSync.StateRuns
import LibreSync.Lib.JsonBytes

/-!
The command line tool's rotation and import of the app key: the state file, the
backups and the configuration are rewritten one after the other.
-/

namespace LibreSync

namespace State

section Normalize

variable {V : Type} {state : State V} {epoch : String}

theorem filter_filter_keys {ν μ : Type} {map : BTreeMap String ν} {kept : BTreeMap String μ} :
    (map.filter fun key _ => kept.contains key).filter (fun key _ => kept.contains key) =
      map.filter fun key _ => kept.contains key := by
  refine Std.ExtTreeMap.ext_getElem? fun key => ?_
  simp only [Std.ExtTreeMap.getElem?_filter', Option.filter_filter, Bool.and_self]

structure Normal (state : State V) (epoch : String) : Prop where
  dated : state.epoch = "" → epoch = ""
  started : state.sequence ≠ 0
  assigned : ∀ key, state.entries.contains key = true → state.sequences.contains key = true
  sequences : state.sequences.filter (fun key _ => state.entries.contains key) = state.sequences
  origins : state.origins.filter (fun key _ => state.entries.contains key) = state.origins

theorem Normal.normalize (normal : state.Normal epoch) : state.normalize epoch = state := by
  have dated : (if state.epoch = "" then { state with epoch := epoch } else state) = state := by
    split
    · rename_i empty
      rw [normal.dated empty, ← empty]
    · rfl
  have assigned : ((state.entries.toList.map Prod.fst).filter fun key =>
      !state.sequences.contains key) = [] := by
    rw [List.filter_eq_nil_iff]
    intro key member
    obtain ⟨⟨found, entry⟩, listed, rfl⟩ := List.mem_map.mp member
    rw [Std.ExtTreeMap.mem_toList_iff_getElem?_eq_some] at listed
    have held : state.entries.contains found = true := by
      rw [Std.ExtTreeMap.contains_eq_isSome_getElem?, listed]
      rfl
    simp [normal.assigned found held]
  simp only [State.normalize, dated, if_neg normal.started, assigned, List.foldl_nil,
    normal.sequences, normal.origins]

theorem foldl_assignSequence (keys : List String) (state : State V) :
    (keys.foldl assignSequence state).entries = state.entries ∧
      (keys.foldl assignSequence state).epoch = state.epoch ∧
      (state.sequence ≠ 0 → (keys.foldl assignSequence state).sequence ≠ 0) ∧
      ∀ key, key ∈ keys ∨ state.sequences.contains key = true →
        (keys.foldl assignSequence state).sequences.contains key = true := by
  induction keys generalizing state with
  | nil => exact ⟨rfl, rfl, fun started => started, fun key either => by simpa using either⟩
  | cons key rest ih =>
      obtain ⟨entries, epoch, started, assigned⟩ := ih (state.assignSequence key)
      refine ⟨entries, epoch, fun positive => started ?_, fun other either => assigned other ?_⟩
      · simp only [assignSequence, saturatingSucc, u64Max]
        omega
      · simp only [assignSequence, Std.ExtTreeMap.contains_insert, Bool.or_eq_true]
        rcases either with member | held
        · rcases List.mem_cons.mp member with rfl | later
          · exact Or.inr (Or.inl (by simp))
          · exact Or.inl later
        · exact Or.inr (Or.inr held)

theorem normalize_normal : (state.normalize epoch).Normal epoch := by
  rw [State.normalize]
  generalize first : (if state.epoch = "" then { state with epoch := epoch } else state) = dated
  generalize second : (if dated.sequence = 0 then { dated with sequence := 1 } else dated) = begun
  have empty : dated.epoch = "" → epoch = "" := by
    rw [← first]
    split
    · exact id
    · rename_i given
      exact fun absent => absurd absent given
  have positive : begun.sequence ≠ 0 := by
    rw [← second]
    split
    · exact Nat.one_ne_zero
    · rename_i given
      exact given
  have epochs : begun.epoch = dated.epoch := by
    rw [← second]
    split <;> rfl
  generalize keys : (begun.entries.toList.map Prod.fst).filter (fun key =>
    !begun.sequences.contains key) = missing
  obtain ⟨entries, same, started, assigned⟩ := foldl_assignSequence missing begun
  refine ⟨fun absent => empty (epochs ▸ same ▸ absent), started positive, ?_,
    filter_filter_keys, filter_filter_keys⟩
  intro key held
  have present : (missing.foldl assignSequence begun).sequences.contains key = true := by
    refine assigned key (or_iff_not_imp_right.mpr fun without => ?_)
    simp only [entries, Std.ExtTreeMap.contains_eq_isSome_getElem?] at held
    obtain ⟨entry, found⟩ := Option.isSome_iff_exists.mp held
    rw [← keys]
    refine List.mem_filter.mpr ⟨List.mem_map.mpr ⟨(key, entry), ?_, rfl⟩,
      Bool.not_eq_true' _ ▸ Bool.eq_false_iff.mpr without⟩
    exact Std.ExtTreeMap.mem_toList_iff_getElem?_eq_some.mpr found
  dsimp only at held ⊢
  rw [Std.ExtTreeMap.contains_eq_isSome_getElem?] at present ⊢
  obtain ⟨sequence, numbered⟩ := Option.isSome_iff_exists.mp present
  have kept : (some sequence).filter (fun _ => (missing.foldl assignSequence begun).entries.contains
      key) = some sequence := Option.filter_some_pos held
  rw [Std.ExtTreeMap.getElem?_filter', numbered, kept]
  rfl

theorem normalize_inboundOrigin : (state.normalize epoch).inboundOrigin = state.inboundOrigin := by
  have folded : ∀ (keys : List String) (begun : State V),
      (keys.foldl assignSequence begun).inboundOrigin = begun.inboundOrigin := by
    intro keys
    induction keys with
    | nil => exact fun _ => rfl
    | cons key rest ih => exact fun begun => ih (begun.assignSequence key)
  rw [State.normalize]
  dsimp only
  rw [folded]
  split <;> split <;> rfl

theorem normalize_normalize : (state.normalize epoch).normalize epoch = state.normalize epoch :=
  normalize_normal.normalize

end Normalize

section File

variable [LawfulJsonText Bytes Error recursionLimit] (cipher : Cipher) (key : AppKey)

def saveEncrypted (nonce : Nonce) (state : State Bytes) : Bytes :=
  Crypto.encryptBlob cipher key nonce (save state) (utf8 "libresync-state")

def loadEncrypted (file : Option Bytes) (epoch : String) : Except Error (State Bytes) := do
  let some data := file | .error (.io "No such file or directory (os error 2)")
  let decrypted ← Crypto.decryptBlob cipher key data (utf8 "libresync-state")
  load decrypted epoch

def loadMaybeEncrypted (file : Option Bytes) (epoch : String) : Except Error (State Bytes) := do
  let some data := file | .error (.io "No such file or directory (os error 2)")
  match Crypto.decryptBlob cipher key data (utf8 "libresync-state") with
  | .ok decrypted => load decrypted epoch
  | .error _ => load data epoch

variable {cipher} {key}

theorem loadEncrypted_saveEncrypted (nonce : Nonce) (state : State Bytes) (epoch : String) :
    loadEncrypted cipher key (some (saveEncrypted cipher key nonce state)) epoch =
      .ok ({ state with inboundOrigin := none }.normalize epoch) := by
  simp only [loadEncrypted, saveEncrypted, Crypto.decryptBlob_encryptBlob, bind, Except.bind]
  exact load_save state epoch

theorem loadEncrypted_other {other : AppKey} (differs : other ≠ key) (nonce : Nonce)
    (state loaded : State Bytes) (epoch : String) :
    loadEncrypted cipher other (some (saveEncrypted cipher key nonce state)) epoch ≠ .ok loaded := by
  simp [loadEncrypted, saveEncrypted, Crypto.decryptBlob_other differs, bind, Except.bind]

omit [LawfulJsonText Bytes Error recursionLimit] in
theorem ofJson_inboundOrigin {json : Json} {state : State Bytes} (read : ofJson json = .ok state) :
    state.inboundOrigin = none := by
  have parts : ∀ {deviceId counter entries sequence sequences origins peerCursors epoch},
      ofParts deviceId counter entries sequence sequences origins peerCursors epoch = .ok state →
        state.inboundOrigin = none := by
    intro deviceId counter entries sequence sequences origins peerCursors epoch built
    simp only [ofParts, Fallible.bind_ok] at built
    obtain ⟨_, -, _, -, _, -, _, -, _, -, _, -, _, -, _, -, made⟩ := built
    obtain rfl := Except.ok.inj made
    rfl
  cases json with
  | object members => exact parts read
  | array items =>
      rw [ofJson] at read
      split at read
      · exact parts read
      · simp [FieldValue.invalid] at read
  | null => simp [ofJson, FieldValue.invalid] at read
  | bool value => simp [ofJson, FieldValue.invalid] at read
  | number value => simp [ofJson, FieldValue.invalid] at read
  | string value => simp [ofJson, FieldValue.invalid] at read

theorem loadEncrypted_load {file : Option Bytes} {epoch : String} {state : State Bytes}
    (loaded : loadEncrypted cipher key file epoch = .ok state) : ∃ stored : State Bytes,
      (∀ epoch, loadEncrypted cipher key file epoch = .ok (stored.normalize epoch)) ∧
      (∀ epoch, loadMaybeEncrypted cipher key file epoch = .ok (stored.normalize epoch)) ∧
      stored.inboundOrigin = none := by
  cases file with
  | none => simp [loadEncrypted] at loaded
  | some data =>
      simp only [loadEncrypted, Fallible.bind_ok] at loaded
      obtain ⟨text, decrypted, read⟩ := loaded
      rw [load] at read
      cases parsed : (JsonText.ofText text).bind ofJson with
      | error error => simp [parsed, Except.map] at read
      | ok stored =>
          have loads : ∀ epoch, load text epoch = .ok (stored.normalize epoch) := by
            intro epoch
            rw [load, parsed]
            rfl
          refine ⟨stored, fun epoch => ?_, fun epoch => ?_, ?_⟩
          · simp only [loadEncrypted, decrypted, bind, Except.bind]
            exact loads epoch
          · simp only [loadMaybeEncrypted, decrypted]
            exact loads epoch
          · obtain ⟨json, -, made⟩ := Fallible.bind_ok.mp parsed
            exact ofJson_inboundOrigin made

end File

end State

structure CliConfig extends Config where
  deviceId : String
  backupEnabled : Bool

structure Disk where
  config : CliConfig
  state : Option Bytes
  snapshots : FileSnapshotStore

inductive RotationStep where
  | loadConfig
  | loadState
  | saveState
  | openStore
  | listSnapshots
  | snapshot (position : Nat) (access : SnapshotAccess)
  | saveConfig

/-- What a command meets: where a step fails or the process dies, whether the state file can be
read, and what is drawn at random. -/
structure RotationMoment where
  stops : RotationStep → Option Error
  unreadable : Option Error
  generated : AppKey
  epoch : String
  nonce : Nonce
  nonces : Nat → Nat → Nonce

/-- A command as it was entered, with the key drawn for it or what its input file decodes to. -/
inductive KeyCommand where
  | rotateAppKey (keepAllowlist confirm : Bool) (drawn : AppKey)
  | importAppKey (clearAllowlist confirm : Bool) (input : Except Error Bytes)

namespace KeyRotation

def fileKey : String := "file"

variable [LawfulJsonText Bytes Error recursionLimit] (cipher : Cipher) (moment : RotationMoment)

/-- `load_config`, which gives a configuration without an app key a new one. -/
def loadConfig (disk : Disk) : Except Error CliConfig × Disk :=
  match moment.stops .loadConfig with
  | some error => (.error error, disk)
  | none =>
      match disk.config.appKey with
      | some _ => (.ok disk.config, disk)
      | none =>
          let config := { disk.config with appKey := some moment.generated }
          (.ok config, { disk with config })

def appKey (config : CliConfig) : Except Error AppKey :=
  match config.appKey with
  | some key => .ok key
  | none => .error (.protocol "app key missing; re-run libresync init")

/-- The state that the new key is put on: an empty one in place of one that does not load. -/
def loadState (oldKey : AppKey) (config : CliConfig) (disk : Disk) : State Bytes :=
  let loaded : Except Error (State Bytes) := match moment.unreadable with
    | some error => .error error
    | none => State.loadMaybeEncrypted cipher oldKey disk.state moment.epoch
  match loaded with
  | .ok state => state
  | .error _ => State.new config.deviceId moment.epoch

/-- The snapshots that are encrypted again: those of the adapter `FILE_KEY`. Every file is written
as a whole or not at all. -/
def rotateSnapshots (oldKey newKey : AppKey) (config : CliConfig) (snapshots : FileSnapshotStore) :
    Except Error Nat × FileSnapshotStore :=
  if config.backupEnabled then
    match moment.stops .openStore, moment.stops .listSnapshots with
    | some error, _ => (.error error, snapshots)
    | none, some error => (.error error, snapshots)
    | none, none => BackupManager.reencryptSnapshots cipher oldKey newKey fileKey
        (fun position access => moment.stops (.snapshot position access)) (fun _ => false)
        moment.nonces snapshots
  else (.ok 0, snapshots)

def replaceAppKey (oldKey newKey : AppKey) (clearDevices : Bool) (config : CliConfig)
    (disk : Disk) : Except Error Nat × Disk :=
  match moment.stops .loadState, moment.stops .saveState with
  | some error, _ => (.error error, disk)
  | none, some error => (.error error, disk)
  | none, none =>
      let state := loadState cipher moment oldKey config disk
      let disk := { disk with state := some (state.saveEncrypted cipher newKey moment.nonce) }
      match rotateSnapshots cipher moment oldKey newKey config disk.snapshots with
      | (.error error, snapshots) => (.error error, { disk with snapshots })
      | (.ok rotated, snapshots) =>
          match moment.stops .saveConfig with
          | some error => (.error error, { disk with snapshots })
          | none =>
              let config := { config with
                appKey := some newKey
                devices := if clearDevices then ∅ else config.devices }
              (.ok rotated, { disk with config, snapshots })

def rotateAppKey (keepAllowlist confirm : Bool) (drawn : AppKey) (disk : Disk) :
    Except Error Nat × Disk :=
  if confirm then
    match loadConfig moment disk with
    | (.error error, disk) => (.error error, disk)
    | (.ok config, disk) =>
        match appKey config with
        | .error error => (.error error, disk)
        | .ok oldKey => replaceAppKey cipher moment oldKey drawn (!keepAllowlist) config disk
  else (.error (.protocol "key rotation requires --confirm"), disk)

def importAppKey (clearAllowlist confirm : Bool) (input : Except Error Bytes) (disk : Disk) :
    Except Error Nat × Disk :=
  if confirm then
    match loadConfig moment disk with
    | (.error error, disk) => (.error error, disk)
    | (.ok config, disk) =>
        match appKey config, input.bind AppKey.fromSlice with
        | .error error, _ => (.error error, disk)
        | .ok _, .error error => (.error error, disk)
        | .ok oldKey, .ok newKey =>
            replaceAppKey cipher moment oldKey newKey clearAllowlist config disk
  else (.error (.protocol "app key import requires --confirm"), disk)

def run (command : KeyCommand) (disk : Disk) : Except Error Nat × Disk :=
  match command with
  | .rotateAppKey keepAllowlist confirm drawn =>
      rotateAppKey cipher moment keepAllowlist confirm drawn disk
  | .importAppKey clearAllowlist confirm input =>
      importAppKey cipher moment clearAllowlist confirm input disk

def newKey : KeyCommand → Option AppKey
  | .rotateAppKey _ confirm drawn => if confirm then some drawn else none
  | .importAppKey _ confirm input =>
      if confirm then (input.bind AppKey.fromSlice).toOption else none

structure Consistent (key : AppKey) (disk : Disk) : Prop where
  configured : disk.config.appKey = some key
  enabled : disk.config.backupEnabled = true
  state : ∃ epoch state, State.loadEncrypted cipher key disk.state epoch = .ok state
  snapshots : ∀ adapterId, BackupManager.Readable cipher adapterId key disk.snapshots

def SameState (key current : AppKey) (before after : Option Bytes) : Prop :=
  ∃ epoch state, State.loadEncrypted cipher key before epoch = .ok state ∧
    State.loadEncrypted cipher current after epoch = .ok state

/-- The configured key opens the state and every backup as they were under the old key. -/
def Intact (key : AppKey) (before after : Disk) : Prop :=
  ∃ current, after.config.appKey = some current ∧
    SameState cipher key current before.state after.state ∧
    ∀ adapterId, BackupManager.Rekeyed cipher key current adapterId before.snapshots after.snapshots

structure Writes (command : KeyCommand) (key : AppKey) : Prop where
  key : newKey command = some key
  loadConfig : moment.stops .loadConfig = none
  loadState : moment.stops .loadState = none
  saveState : moment.stops .saveState = none

structure Finishes (disk : Disk) : Prop where
  openStore : moment.stops .openStore = none
  listSnapshots : moment.stops .listSnapshots = none
  snapshots : ∀ position < (disk.snapshots.listed fileKey).length, ∀ access,
    moment.stops (.snapshot position access) = none
  saveConfig : moment.stops .saveConfig = none

def KeepsState (key : AppKey) (disk : Disk) : Prop :=
  moment.unreadable = none ∨ ∃ epoch, State.loadEncrypted cipher key disk.state epoch =
    .ok ((State.new disk.config.deviceId moment.epoch : State Bytes).normalize epoch)

def OnlyFile (key : AppKey) (disk : Disk) : Prop :=
  ∀ adapterId ≠ fileKey, ∀ metadata ∈ disk.snapshots.listed adapterId,
    BackupManager.loadSnapshotEntries cipher adapterId key disk.snapshots metadata.id =
      .ok (metadata, [])

variable {cipher} {moment} {command : KeyCommand} {disk : Disk} {oldKey key : AppKey}

variable (moment key) in
omit [LawfulJsonText Bytes Error recursionLimit] in
theorem rotateSnapshots_reencrypted {config : CliConfig} {snapshots : FileSnapshotStore}
    (enabled : config.backupEnabled = true)
    (readable : BackupManager.Readable cipher fileKey oldKey snapshots) :
    ∃ listed, (∀ metadata ∈ listed, metadata ∈ snapshots.listed fileKey) ∧
      BackupManager.Reencrypted cipher oldKey key fileKey snapshots
        (rotateSnapshots cipher moment oldKey key config snapshots).2 (listed.map (·.id)) ∧
      ((∃ count, (rotateSnapshots cipher moment oldKey key config snapshots).1 = .ok count) ∧
          listed = snapshots.listed fileKey ∧ moment.stops .openStore = none ∧
          moment.stops .listSnapshots = none ∧
          (∀ position < (snapshots.listed fileKey).length, ∀ access,
            moment.stops (.snapshot position access) = none) ∨
        (∃ error, (rotateSnapshots cipher moment oldKey key config snapshots).1 = .error error) ∧
          ¬(moment.stops .openStore = none ∧ moment.stops .listSnapshots = none ∧
            ∀ position < (snapshots.listed fileKey).length, ∀ access,
              moment.stops (.snapshot position access) = none)) := by
  simp only [rotateSnapshots, enabled, if_true]
  cases opened : moment.stops .openStore with
  | some error =>
      exact ⟨[], by simp, .refl, Or.inr ⟨⟨error, rfl⟩, fun all => by simp at all⟩⟩
  | none =>
      cases listing : moment.stops .listSnapshots with
      | some error =>
          exact ⟨[], by simp, .refl, Or.inr ⟨⟨error, rfl⟩, fun all => by simp at all⟩⟩
      | none =>
          obtain ⟨count, within, final, done, clear, ends⟩ :=
            BackupManager.reencryptSnapshots_reencrypted key
              (fun position access => moment.stops (.snapshot position access)) (fun _ => false)
              moment.nonces readable
          refine ⟨(snapshots.listed fileKey).take count, fun metadata => List.mem_of_mem_take, ?_⟩
          dsimp only
          rcases ends with ⟨result, rfl⟩ | ⟨faulty, ⟨access, fault⟩, error, left, result, whole, -⟩
          · rw [result]
            exact ⟨done, Or.inl ⟨⟨_, rfl⟩, List.take_length, rfl, rfl, clear⟩⟩
          · obtain rfl := whole fun tears => absurd tears.torn (by simp)
            rw [result]
            exact ⟨done, Or.inr ⟨⟨error, rfl⟩, fun all => fault (all.2.2 count faulty access)⟩⟩

theorem replaceAppKey_after {clearDevices : Bool} (consistent : Consistent cipher oldKey disk)
    (died : moment.stops .loadState = none) (saveState : moment.stops .saveState = none)
    (after : Disk)
    (ran : (replaceAppKey cipher moment oldKey key clearDevices disk.config disk).2 = after) :
    after.state = some ((loadState cipher moment oldKey disk.config disk).saveEncrypted cipher key
      moment.nonce) ∧ ∃ listed, (∀ metadata ∈ listed, metadata ∈
        disk.snapshots.listed fileKey) ∧
      BackupManager.Reencrypted cipher oldKey key fileKey disk.snapshots after.snapshots
        (listed.map (·.id)) ∧
      (after.config.appKey = some key ∧ listed = disk.snapshots.listed fileKey ∧
          Finishes moment disk ∨
        after.config.appKey = some oldKey ∧ ¬Finishes moment disk) := by
  obtain ⟨listed, within, done, ends⟩ := rotateSnapshots_reencrypted moment key
    consistent.enabled (consistent.snapshots fileKey)
  simp only [replaceAppKey, died, saveState] at ran
  generalize rotated : rotateSnapshots cipher moment oldKey key disk.config disk.snapshots = result
    at ran done ends
  obtain ⟨outcome, snapshots⟩ := result
  rcases ends with ⟨⟨count, rfl⟩, whole, opened, listing, clear⟩ | ⟨⟨error, rfl⟩, stopped⟩
  · cases saved : moment.stops .saveConfig with
    | some error =>
        simp only [saved] at ran
        subst ran
        refine ⟨rfl, listed, within, done, Or.inr ⟨consistent.configured, fun all => ?_⟩⟩
        simpa [saved] using all.saveConfig
    | none =>
        simp only [saved] at ran
        subst ran
        exact ⟨rfl, listed, within, done, Or.inl ⟨rfl, whole, opened, listing, clear, saved⟩⟩
  · subst ran
    refine ⟨rfl, listed, within, done, Or.inr ⟨consistent.configured, fun all => stopped ?_⟩⟩
    exact ⟨all.openStore, all.listSnapshots, all.snapshots⟩

theorem loadConfig_consistent (consistent : Consistent cipher oldKey disk) :
    loadConfig moment disk = match moment.stops .loadConfig with
      | some error => (.error error, disk)
      | none => (.ok disk.config, disk) := by
  simp only [loadConfig, consistent.configured]

variable (moment command) in
theorem run_cases (consistent : Consistent cipher oldKey disk) :
    ((run cipher moment command disk).2 = disk ∧ ∀ key, ¬Writes moment command key) ∨
      ∃ key clearDevices, Writes moment command key ∧ (run cipher moment command disk).2 =
        (replaceAppKey cipher moment oldKey key clearDevices disk.config disk).2 := by
  have held : appKey disk.config = .ok oldKey := by rw [appKey, consistent.configured]
  have goes : ∀ key clearDevices, newKey command = some key → moment.stops .loadConfig = none →
      (run cipher moment command disk).2 =
        (replaceAppKey cipher moment oldKey key clearDevices disk.config disk).2 →
      ((run cipher moment command disk).2 = disk ∧ ∀ key, ¬Writes moment command key) ∨
        ∃ key clearDevices, Writes moment command key ∧ (run cipher moment command disk).2 =
          (replaceAppKey cipher moment oldKey key clearDevices disk.config disk).2 := by
    intro key clearDevices chosen begun same
    cases died : moment.stops .loadState with
    | some error =>
        refine Or.inl ⟨same.trans ?_, fun key writes => by simpa [died] using writes.loadState⟩
        simp only [replaceAppKey, died]
    | none =>
        cases full : moment.stops .saveState with
        | some error =>
            refine Or.inl ⟨same.trans ?_, fun key writes => by simpa [full] using writes.saveState⟩
            simp only [replaceAppKey, died, full]
        | none => exact Or.inr ⟨key, clearDevices, ⟨chosen, begun, died, full⟩, same⟩
  cases stopped : moment.stops .loadConfig with
  | some error =>
      refine Or.inl ⟨?_, fun key writes => by simpa [stopped] using writes.loadConfig⟩
      cases command with
      | rotateAppKey keepAllowlist confirm drawn =>
          cases confirm <;>
            simp [run, rotateAppKey, loadConfig_consistent consistent, stopped]
      | importAppKey clearAllowlist confirm input =>
          cases confirm <;>
            simp [run, importAppKey, loadConfig_consistent consistent, stopped]
  | none =>
      cases command with
      | rotateAppKey keepAllowlist confirm drawn =>
          cases confirm with
          | false =>
              refine Or.inl ⟨rfl, fun key writes => ?_⟩
              simpa [newKey] using writes.key
          | true =>
              refine goes drawn (!keepAllowlist) rfl stopped ?_
              simp [run, rotateAppKey, loadConfig_consistent consistent, stopped, held]
      | importAppKey clearAllowlist confirm input =>
          cases confirm with
          | false =>
              refine Or.inl ⟨rfl, fun key writes => ?_⟩
              simpa [newKey] using writes.key
          | true =>
              cases decoded : input.bind AppKey.fromSlice with
              | error error =>
                  refine Or.inl ⟨?_, fun key writes => ?_⟩
                  · simp [run, importAppKey, loadConfig_consistent consistent, stopped, held, decoded]
                  · simpa [newKey, decoded, Except.toOption] using writes.key
              | ok key =>
                  refine goes key clearAllowlist ?_ stopped ?_
                  · simp [newKey, decoded, Except.toOption]
                  · simp [run, importAppKey, loadConfig_consistent consistent, stopped, held, decoded]

omit [LawfulJsonText Bytes Error recursionLimit] in
theorem Writes.unique {other : AppKey} (first : Writes moment command key)
    (second : Writes moment command other) : key = other :=
  Option.some.inj (first.key.symm.trans second.key)

variable (moment key) in
theorem sameState_iff (consistent : Consistent cipher oldKey disk) :
    SameState cipher oldKey key disk.state (some ((loadState cipher moment oldKey disk.config
        disk).saveEncrypted cipher key moment.nonce)) ↔ KeepsState cipher moment oldKey disk := by
  obtain ⟨_, _, opened⟩ := consistent.state
  obtain ⟨stored, loads, readable, origin⟩ := State.loadEncrypted_load opened
  simp only [SameState, KeepsState, State.loadEncrypted_saveEncrypted]
  cases unreadable : moment.unreadable with
  | none =>
      have loaded : loadState cipher moment oldKey disk.config disk =
          stored.normalize moment.epoch := by
        simp only [loadState, unreadable, readable]
      refine ⟨fun _ => Or.inl rfl, fun _ => ⟨moment.epoch, _, loads moment.epoch, ?_⟩⟩
      rw [loaded]
      have local_ : ({ stored.normalize moment.epoch with inboundOrigin := none } : State Bytes) =
          stored.normalize moment.epoch := by
        rw [← origin, ← (State.normalize_inboundOrigin : (stored.normalize moment.epoch).inboundOrigin =
          stored.inboundOrigin)]
      rw [local_, State.normalize_normalize]
  | some error =>
      have empty : loadState cipher moment oldKey disk.config disk =
          State.new disk.config.deviceId moment.epoch := by
        simp only [loadState, unreadable]
      rw [empty]
      constructor
      · rintro ⟨epoch, state, before, after⟩
        exact Or.inr ⟨epoch, before.trans after.symm⟩
      · rintro (read | ⟨epoch, before⟩)
        · exact absurd read (by simp)
        · exact ⟨epoch, _, before, rfl⟩

theorem replaceAppKey_intact_iff {clearDevices : Bool} (consistent : Consistent cipher oldKey disk)
    (writes : Writes moment command key) :
    Intact cipher oldKey disk
        (replaceAppKey cipher moment oldKey key clearDevices disk.config disk).2 ↔
      KeepsState cipher moment oldKey disk ∧
        (key = oldKey ∨ Finishes moment disk ∧ OnlyFile cipher oldKey disk) := by
  obtain ⟨written, listed, within, done, ends⟩ := replaceAppKey_after consistent writes.loadState
    writes.saveState (replaceAppKey cipher moment oldKey key clearDevices disk.config disk).2 rfl
  generalize (replaceAppKey cipher moment oldKey key clearDevices disk.config disk).2 = after
    at written done ends
  have state := sameState_iff moment key consistent
  rw [← written] at state
  constructor
  · rintro ⟨current, configured, same, rekeyed⟩
    rcases ends with ⟨installed, whole, finishes⟩ | ⟨kept, -⟩
    · obtain rfl := Option.some.inj (installed.symm.trans configured)
      refine ⟨state.mp same, or_iff_not_imp_left.mpr fun differs => ⟨finishes, ?_⟩⟩
      intro adapterId apart
      exact ((done.elsewhere apart (consistent.snapshots adapterId)).mp
        (rekeyed adapterId)).resolve_left differs
    · obtain rfl := Option.some.inj (kept.symm.trans configured)
      by_cases equal : key = oldKey
      · subst equal
        exact ⟨state.mp same, Or.inl rfl⟩
      · obtain ⟨epoch, loaded, -, opened⟩ := same
        rw [written] at opened
        exact absurd opened (State.loadEncrypted_other (Ne.symm equal) _ _ _ _)
  · rintro ⟨keeps, again⟩
    have configured : after.config.appKey = some key := by
      rcases ends with ⟨installed, -⟩ | ⟨kept, stopped⟩
      · exact installed
      · rcases again with rfl | ⟨finishes, -⟩
        · exact kept
        · exact absurd finishes stopped
    refine ⟨key, configured, state.mpr keeps, fun adapterId => ?_⟩
    by_cases file : adapterId = fileKey
    · subst file
      refine done.rekeyed (again.imp_right fun both => ?_)
      rcases ends with ⟨-, whole, -⟩ | ⟨-, stopped⟩
      · exact whole
      · exact absurd both.1 stopped
    · refine (done.elsewhere file (consistent.snapshots adapterId)).mpr (again.imp_right ?_)
      exact fun both => both.2 adapterId file

/-- A command strands nothing exactly if it stops before it writes the state file, or it loads the
state and either keeps the key, or goes through to its end where no other adapter has snapshots
with entries. -/
theorem run_intact_iff (consistent : Consistent cipher oldKey disk) :
    Intact cipher oldKey disk (run cipher moment command disk).2 ↔
      ∀ key, Writes moment command key → KeepsState cipher moment oldKey disk ∧
        (key = oldKey ∨ Finishes moment disk ∧ OnlyFile cipher oldKey disk) := by
  rcases run_cases moment command consistent with
    ⟨same, silent⟩ | ⟨key, clearDevices, writes, same⟩
  · rw [same]
    refine ⟨fun _ key writes => absurd writes (silent key), fun _ => ⟨oldKey,
      consistent.configured, ?_, fun _ => .refl⟩⟩
    obtain ⟨epoch, state, opened⟩ := consistent.state
    exact ⟨epoch, state, opened, opened⟩
  · have others : ∀ other, Writes moment command other ↔ other = key := fun other =>
      ⟨fun again => again.unique writes, fun equal => equal ▸ writes⟩
    simp only [others, forall_eq]
    rw [same]
    exact replaceAppKey_intact_iff consistent writes

end KeyRotation

section Desk

noncomputable local instance : LawfulJsonText Bytes Error recursionLimit :=
  JsonBytes.reading recursionLimit (.serde "recursion limit exceeded")

noncomputable def deskDisk (snapshots : FileSnapshotStore) : Disk where
  config := {
    devices := ∅
    autoApprove := false
    autoApproveUntil := none
    pairingSecret := none
    appKey := some firstKey
    deviceId := "laptop"
    backupEnabled := true }
  state := some ((State.new "laptop" "6f1e").saveEncrypted namingCipher firstKey zeroNonce)
  snapshots := snapshots

def calmMoment : RotationMoment where
  stops _ := none
  unreadable := none
  generated := firstKey
  epoch := "9ab0"
  nonce := zeroNonce
  nonces _ _ := zeroNonce

def twoAdapters : FileSnapshotStore where
  files := [backupOf "file" "one" 1, backupOf "notes" "two" 2]
  torn := []
  distinct := by decide
  apart := by simp

namespace KeyRotation

theorem deskDisk_consistent {snapshots : FileSnapshotStore} (whole : snapshots.torn = [])
    (opens : ∀ snapshot ∈ snapshots.files, ∃ entries,
      Crypto.decryptEntries namingCipher firstKey snapshot.entries = .ok entries) :
    Consistent namingCipher firstKey (deskDisk snapshots) where
  configured := rfl
  enabled := rfl
  state := ⟨"", _, State.loadEncrypted_saveEncrypted _ _ _⟩
  snapshots _ := BackupManager.readable_of_files whole opens

theorem rotateAppKey_intact : Intact namingCipher firstKey (deskDisk twoBackups)
    (run namingCipher calmMoment (.rotateAppKey false true secondKey) (deskDisk twoBackups)).2 := by
  have opens : ∀ snapshot ∈ twoBackups.files, ∃ entries,
      Crypto.decryptEntries namingCipher firstKey snapshot.entries = .ok entries := by
    intro snapshot member
    simp only [twoBackups, List.mem_cons, List.not_mem_nil, or_false] at member
    rcases member with rfl | rfl <;> exact BackupManager.backupOf_opens
  refine (run_intact_iff (deskDisk_consistent rfl opens)).mpr fun key writes => ⟨Or.inl rfl, Or.inr
    ⟨⟨rfl, rfl, fun _ _ _ => rfl, rfl⟩, fun adapterId apart metadata member => absurd ?_ apart⟩⟩
  obtain ⟨owner, held, found⟩ := FileSnapshotStore.mem_listed.mp member
  obtain ⟨listed, path⟩ := FileSnapshotStore.file_some.mp found
  have file : ∀ snapshot ∈ twoBackups.files, snapshot.metadata.adapterId = fileKey := by decide
  exact owner.symm.trans (file _ listed)

/-- A rotation without a fault leaves the other adapter's backup under the lost key. -/
theorem rotateAppKey_strands : Consistent namingCipher firstKey (deskDisk twoAdapters) ∧
    ¬Intact namingCipher firstKey (deskDisk twoAdapters)
      (run namingCipher calmMoment (.rotateAppKey false true secondKey) (deskDisk twoAdapters)).2 := by
  have opens : ∀ snapshot ∈ twoAdapters.files, ∃ entries,
      Crypto.decryptEntries namingCipher firstKey snapshot.entries = .ok entries := by
    intro snapshot member
    simp only [twoAdapters, List.mem_cons, List.not_mem_nil, or_false] at member
    rcases member with rfl | rfl <;> exact BackupManager.backupOf_opens
  have consistent := deskDisk_consistent rfl opens
  refine ⟨consistent, fun intact => ?_⟩
  rcases run_cases calmMoment (.rotateAppKey false true secondKey) consistent
    with ⟨-, silent⟩ | ⟨key, clearDevices, writes, same⟩
  · exact silent secondKey ⟨rfl, rfl, rfl, rfl⟩
  rw [same, replaceAppKey_intact_iff consistent writes] at intact
  obtain ⟨-, equal | ⟨-, only⟩⟩ := intact
  · have chosen : secondKey = key := Option.some.inj writes.key
    exact absurd (chosen.trans equal) (by decide +kernel)
  · have empty := only "notes" (by decide) (backupOf "notes" "two" 2).metadata (by decide +kernel)
    have held : BackupManager.loadSnapshotEntries namingCipher "notes" firstKey twoAdapters
        (backupOf "notes" "two" 2).metadata.id = .ok ((backupOf "notes" "two" 2).metadata,
          [noteEntry]) := by decide +kernel
    rw [deskDisk, held] at empty
    exact absurd empty (by simp)

end KeyRotation

end Desk

end LibreSync
