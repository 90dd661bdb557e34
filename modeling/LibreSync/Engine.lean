import LibreSync.JsonFile
import LibreSync.Sync

/-!
An engine whose adapters are whole files. Calls of `Engine::sync` and loops of
`auto_refresh` run on threads of their own; each takes the lock of the shared
state for one operation at a time.
-/

namespace LibreSync

structure Engine where
  adapters : List JsonFileAdapter
  ordered : adapters.Pairwise fun left right => left.id < right.id

namespace Engine

def adapter (engine : Engine) (adapterId : String) : Option JsonFileAdapter :=
  engine.adapters.find? fun adapter => adapter.id = adapterId

def router (engine : Engine) : AdapterRouter Bytes Files where
  adapters := engine.adapters.map JsonFileAdapter.dataAdapter
  ordered := List.pairwise_map.mpr engine.ordered

end Engine

inductive Task where
  /-- `Engine::sync`, its file loaded; whether the peer's delta is merged. -/
  | syncing (adapter : JsonFileAdapter) (merged : Bool)
  /-- `auto_refresh` between two iterations. -/
  | waiting (adapter : JsonFileAdapter) (cache : AdapterCache Bytes)
  /-- `auto_refresh` between two candidates; whether an exchange succeeded. -/
  | refreshing (adapter : JsonFileAdapter) (cache : AdapterCache Bytes) (synced : Bool)
  /-- `auto_refresh` in an exchange with a candidate. -/
  | exchanging (adapter : JsonFileAdapter) (cache : AdapterCache Bytes) (synced merged : Bool)

def Task.adapter : Task → JsonFileAdapter
  | .syncing adapter _ => adapter
  | .waiting adapter _ => adapter
  | .refreshing adapter _ _ => adapter
  | .exchanging adapter _ _ _ => adapter

structure EngineWorld where
  device : Device Bytes Files
  tasks : Nat → Option Task
  /-- What each adapter's file had held when a peer's content was last merged under its key. -/
  past : JsonFileAdapter → List Bytes

inductive EngineEvent where
  | sync (id : Nat) (adapterId : String)
  | autoRefresh (id : Nat) (adapterId : String)
  /-- `due` says whether the tick leads to a round of exchanges. -/
  | tick (id : Nat) (due : Bool)
  | candidate (id : Nat)
  | merge (id : Nat) (remoteId : String) (delta : Delta Bytes)
  | fail (id : Nat)
  | finish (id : Nat)
  | endIteration (id : Nat)
  | stop (id : Nat)
  | permit (readable writable : String → Bool)

namespace EngineWorld

abbrev state (world : EngineWorld) : State Bytes := world.device.state

abbrev files (world : EngineWorld) : Files := world.device.store

def start (deviceId epoch : String) (contents : String → Option Bytes) : EngineWorld where
  device := { state := State.new deviceId epoch, store := Files.ofContents contents }
  tasks _ := none
  past _ := []

def setTask (world : EngineWorld) (id : Nat) (task : Option Task) : EngineWorld :=
  { world with tasks := Function.update world.tasks id task }

def load (world : EngineWorld) (adapter : JsonFileAdapter) : Except Error Unit × EngineWorld :=
  let (result, state, store) := adapter.loadIntoState world.state world.files
  (result, { world with device := { state, store } })

def apply (world : EngineWorld) (adapter : JsonFileAdapter) : EngineWorld :=
  { world with device := {
      state := world.state
      store := (adapter.applyFromState world.state world.files).2 } }

/-- The merge of a peer's delta, and what the files had held by then. -/
def receive (world : EngineWorld) (engine : Engine) (remoteId : String) (delta : Delta Bytes) :
    Except Error (Delta Bytes) × EngineWorld :=
  let (result, device) := world.device.mergeAsClient engine.router.applier remoteId delta
  (result, { world with
    device
    past := fun adapter =>
      if device.state.entries[adapter.key]? = world.state.entries[adapter.key]? then
        world.past adapter
      else world.files.held adapter.path })

variable (engine : Engine)

def step (world : EngineWorld) : EngineEvent → Option EngineWorld
  | .sync id adapterId =>
      match world.tasks id, engine.adapter adapterId with
      | some _, _ => none
      | none, none => some world
      | none, some adapter =>
          match world.load adapter with
          | (.ok (), world) => some (world.setTask id (some (.syncing adapter false)))
          | (.error _, world) => some world
  | .autoRefresh id adapterId =>
      match world.tasks id, engine.adapter adapterId with
      | some _, _ => none
      | none, none => some world
      | none, some adapter =>
          some (world.setTask id (some (.waiting adapter {})))
  | .tick id due =>
      match world.tasks id with
      | some (.waiting adapter cache) =>
          let (_, state, cache, store) := adapter.syncTick world.state cache world.files
          some ({ world with device := { state, store } }.setTask id
            (some (if due then .refreshing adapter cache false else .waiting adapter cache)))
      | _ => none
  | .candidate id =>
      match world.tasks id with
      | some (.refreshing adapter cache synced) =>
          match world.load adapter with
          | (.ok (), world) => some (world.setTask id (some (.exchanging adapter cache synced false)))
          | (.error _, world) => some world
      | _ => none
  | .merge id remoteId delta =>
      match world.tasks id with
      | some (.syncing adapter false) =>
          match world.receive engine remoteId delta with
          | (.ok _, world) => some (world.setTask id (some (.syncing adapter true)))
          | (.error _, world) => some (world.setTask id none)
      | some (.exchanging adapter cache synced false) =>
          match world.receive engine remoteId delta with
          | (.ok _, world) => some (world.setTask id (some (.exchanging adapter cache synced true)))
          | (.error _, world) => some (world.setTask id (some (.refreshing adapter cache synced)))
      | _ => none
  | .fail id =>
      match world.tasks id with
      | some (.syncing _ _) => some (world.setTask id none)
      | some (.exchanging adapter cache synced _) =>
          some (world.setTask id (some (.refreshing adapter cache synced)))
      | _ => none
  | .finish id =>
      match world.tasks id with
      | some (.syncing adapter true) => some ((world.apply adapter).setTask id none)
      | some (.exchanging adapter cache _ true) =>
          some (world.setTask id (some (.refreshing adapter cache true)))
      | _ => none
  | .endIteration id =>
      match world.tasks id with
      | some (.refreshing adapter cache synced) =>
          some ((if synced then world.apply adapter else world).setTask id
            (some (.waiting adapter cache)))
      | _ => none
  | .stop id =>
      match world.tasks id with
      | some (.waiting _ _) => some (world.setTask id none)
      | _ => none
  | .permit readable writable =>
      some { world with device := { world.device with store := { world.files with
        readable, writable } } }

end EngineWorld

end LibreSync
