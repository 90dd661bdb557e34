import LibreSync.Engine

/-!
When the files of an engine bring back what they held before a peer's content
was merged.
-/

namespace LibreSync

def Engine.Separate (engine : Engine) : Prop :=
  ∀ first ∈ engine.adapters, ∀ second ∈ engine.adapters, first ≠ second →
    first.path ≠ second.path ∧ first.key ≠ second.key

namespace EngineWorld

variable (engine : Engine)

def reads (world : EngineWorld) : EngineEvent → Option (JsonFileAdapter × Option (AdapterCache Bytes))
  | .sync id adapterId =>
      if (world.tasks id).isSome then none else (engine.adapter adapterId).map fun adapter =>
        (adapter, none)
  | .tick id _ =>
      match world.tasks id with
      | some (.waiting adapter cache) => some (adapter, some cache)
      | _ => none
  | .candidate id =>
      match world.tasks id with
      | some (.refreshing adapter _ _) => some (adapter, none)
      | _ => none
  | _ => none

/-- The step writes, under the next local clock, a content that its adapter's file held before a
peer's content was merged under the adapter's key. -/
def Restamps (before : EngineWorld) (event : EngineEvent) (after : EngineWorld) : Prop :=
  ∃ adapter cache entry, before.reads engine event = some (adapter, cache) ∧
    after.state.entries[adapter.key]? = some entry ∧
    before.state.entries[adapter.key]? ≠ some entry ∧
    entry.clock = before.state.nextClock ∧ entry.value ∈ before.past adapter

/-- A file that existed when a peer's content was merged is read back only if it holds what the
state has, or if the tick is about to write it. -/
def Caught (before : EngineWorld) (event : EngineEvent) : Prop :=
  ∀ adapter cache, before.reads engine event = some (adapter, cache) → before.past adapter ≠ [] →
    adapter.Differs before.state before.files →
      ∃ known, cache = some known ∧ ¬adapter.Cached before.state known

structure Kept (world : EngineWorld) : Prop where
  recorded : world.files.Recorded
  existed : ∀ adapter, world.past adapter ≠ [] → (world.files.contents adapter.path).isSome
  registered : ∀ id task, world.tasks id = some task → task.adapter ∈ engine.adapters
  stale : engine.Separate → ∀ adapter ∈ engine.adapters, world.past adapter ≠ [] →
    ∀ bytes, world.files.contents adapter.path = some bytes →
      world.state.get adapter.key ≠ some bytes → bytes ∈ world.past adapter

variable {engine} {before after world : EngineWorld} {adapter : JsonFileAdapter}

theorem mergeAsClient_store {V σ : Type} (applier : InboundApplier V σ) (device : Device V σ)
    (remoteId : String) (delta : Delta V) :
    (device.mergeAsClient applier remoteId delta).2.store = device.store := by
  simp only [Device.mergeAsClient, Device.receive]
  split
  · rename_i failed
    split at failed
    · simp only [Prod.mk.injEq] at failed
      rw [← failed.2]
    · simp at failed
  · rename_i received
    split at received
    · simp at received
    · simp only [Prod.mk.injEq] at received
      rw [← received.2]

theorem start_kept (deviceId epoch : String) (contents : String → Option Bytes) :
    (start deviceId epoch contents).Kept engine where
  recorded := Files.ofContents_recorded contents
  existed := by simp [start]
  registered := by simp [start]
  stale := by simp [start]

theorem Kept.setTask (kept : world.Kept engine) (id : Nat) {task : Option Task}
    (registered : ∀ next, task = some next → next.adapter ∈ engine.adapters) :
    (world.setTask id task).Kept engine := by
  refine ⟨kept.recorded, kept.existed, ?_, kept.stale⟩
  intro query next found
  simp only [EngineWorld.setTask, Function.update_apply] at found
  split at found
  · exact registered next found
  · exact kept.registered query next found

theorem get_set (state : State Bytes) (key query : String) (bytes : Bytes) :
    (state.set key bytes).2.get query = if query = key then some bytes else state.get query := by
  simp only [State.get, State.set, State.insertEntry_entries]
  split <;> rfl

def withCopy (world : EngineWorld) (pair : State Bytes × Files) : EngineWorld :=
  { world with device := { state := pair.1, store := pair.2 } }

theorem Kept.copy {first second : State Bytes × Files} (member : adapter ∈ engine.adapters)
    (kept : (world.withCopy first).Kept engine) (copy : adapter.Copy first second) :
    (world.withCopy second).Kept engine := by
  have put : ∀ (files : Files) (bytes : Bytes) (path : String),
      (files.contents path).isSome → ((files.put adapter.path bytes).contents path).isSome := by
    intro files bytes path present
    by_cases here : path = adapter.path
    · subst here
      simp
    · rw [(files.put_ne bytes here).1]
      exact present
  cases copy with
  | @create state files absent =>
      refine ⟨kept.recorded.put _ _, fun other nonempty => put _ _ _ (kept.existed other nonempty),
        kept.registered, ?_⟩
      intro separate other otherMember nonempty bytes present differs
      by_cases same : other = adapter
      · subst same
        have existed := kept.existed other nonempty
        simp only [withCopy, EngineWorld.files, absent] at existed
        simp at existed
      · have apart := (separate other otherMember adapter member same).1
        refine kept.stale separate other otherMember nonempty bytes ?_ differs
        rw [← present]
        exact (files.put_ne emptyDocument apart).1.symm
  | @out state files entry held =>
      refine ⟨kept.recorded.put _ _, fun other nonempty => put _ _ _ (kept.existed other nonempty),
        kept.registered, ?_⟩
      intro separate other otherMember nonempty bytes present differs
      by_cases same : other = adapter
      · subst same
        simp only [withCopy, EngineWorld.files, Files.put_contents_self] at present
        exact absurd (held.trans present) differs
      · have apart := (separate other otherMember adapter member same).1
        refine kept.stale separate other otherMember nonempty bytes ?_ differs
        rw [← present]
        exact (files.put_ne entry apart).1.symm
  | @back state files copied file _ =>
      refine ⟨kept.recorded, kept.existed, kept.registered, ?_⟩
      intro separate other otherMember nonempty bytes present differs
      simp only [withCopy, EngineWorld.state, get_set] at differs
      by_cases same : other = adapter
      · subst same
        rw [if_pos rfl] at differs
        exact absurd (file.symm.trans present) differs
      · have apart := (separate other otherMember adapter member same).2
        rw [if_neg apart] at differs
        exact kept.stale separate other otherMember nonempty bytes present differs

theorem Kept.copies {pair : State Bytes × Files} (kept : world.Kept engine)
    (member : adapter ∈ engine.adapters)
    (copies : adapter.Copies (world.state, world.files) pair) :
    (world.withCopy pair).Kept engine := by
  induction copies with
  | refl => exact kept
  | tail _ copy ih => exact ih.copy member copy

theorem Kept.receive (kept : world.Kept engine) (remoteId : String) (delta : Delta Bytes) :
    (world.receive engine remoteId delta).2.Kept engine := by
  have store := mergeAsClient_store engine.router.applier world.device remoteId delta
  generalize merged : world.device.mergeAsClient engine.router.applier remoteId delta = result
  rw [merged] at store
  simp only [EngineWorld.receive, merged]
  have held : ∀ path, world.files.held path ≠ [] → (world.files.contents path).isSome := by
    intro path nonempty
    rw [kept.recorded path, List.isSome_head?]
    simpa using nonempty
  refine ⟨?_, ?_, kept.registered, ?_⟩
  · rw [EngineWorld.files, store]
    exact kept.recorded
  · intro adapter nonempty
    rw [EngineWorld.files, store]
    simp only at nonempty
    split at nonempty
    · exact kept.existed adapter nonempty
    · exact held adapter.path nonempty
  · intro separate adapter member nonempty bytes present differs
    rw [EngineWorld.files, store] at present
    simp only at nonempty ⊢
    split
    · rename_i same
      rw [if_pos same] at nonempty
      refine kept.stale separate adapter member nonempty bytes present ?_
      simpa only [State.get, same] using differs
    · have recorded := kept.recorded adapter.path
      rw [present] at recorded
      exact List.mem_of_mem_head? recorded.symm

theorem adapter_mem {adapterId : String} (found : engine.adapter adapterId = some adapter) :
    adapter ∈ engine.adapters :=
  List.mem_of_find?_eq_some found

theorem Kept.load (kept : world.Kept engine) (member : adapter ∈ engine.adapters) :
    (world.load adapter).2.Kept engine :=
  kept.copies member JsonFileAdapter.loadIntoState_copies

theorem Kept.apply (kept : world.Kept engine) (member : adapter ∈ engine.adapters) :
    (world.apply adapter).Kept engine :=
  kept.copies member JsonFileAdapter.applyFromState_copies

theorem Kept.step_sync (kept : world.Kept engine) {id : Nat} {adapterId : String}
    (stepped : world.step engine (.sync id adapterId) = some after) : after.Kept engine := by
  simp only [EngineWorld.step] at stepped
  split at stepped
  · simp at stepped
  · obtain rfl := Option.some.inj stepped
    exact kept
  · rename_i adapter _ found
    have loaded := kept.load (adapter_mem found)
    split at stepped
    · rename_i next load
      obtain rfl := Option.some.inj stepped
      rw [load] at loaded
      exact loaded.setTask id (by rintro _ ⟨⟩; exact adapter_mem found)
    · rename_i next load
      obtain rfl := Option.some.inj stepped
      rwa [load] at loaded

theorem Kept.step_autoRefresh (kept : world.Kept engine) {id : Nat} {adapterId : String}
    (stepped : world.step engine (.autoRefresh id adapterId) = some after) : after.Kept engine := by
  simp only [EngineWorld.step] at stepped
  split at stepped
  · simp at stepped
  · obtain rfl := Option.some.inj stepped
    exact kept
  · rename_i adapter _ found
    obtain rfl := Option.some.inj stepped
    exact kept.setTask id (by rintro _ ⟨⟩; exact adapter_mem found)

theorem Kept.step_tick (kept : world.Kept engine) {id : Nat} {due : Bool}
    (stepped : world.step engine (.tick id due) = some after) : after.Kept engine := by
  simp only [EngineWorld.step] at stepped
  split at stepped
  · rename_i adapter cache task
    have member : adapter ∈ engine.adapters := kept.registered id _ task
    obtain rfl := Option.some.inj stepped
    have ticked := kept.copies member (JsonFileAdapter.syncTick_copies cache)
    refine ticked.setTask id ?_
    rintro _ ⟨⟩
    cases due <;> exact member
  · simp at stepped

theorem Kept.step_candidate (kept : world.Kept engine) {id : Nat}
    (stepped : world.step engine (.candidate id) = some after) : after.Kept engine := by
  simp only [EngineWorld.step] at stepped
  split at stepped
  · rename_i adapter cache synced task
    have member : adapter ∈ engine.adapters := kept.registered id _ task
    have loaded := kept.load member
    split at stepped
    · rename_i next load
      obtain rfl := Option.some.inj stepped
      rw [load] at loaded
      exact loaded.setTask id (by rintro _ ⟨⟩; exact member)
    · rename_i next load
      obtain rfl := Option.some.inj stepped
      rwa [load] at loaded
  · simp at stepped

theorem Kept.step_merge (kept : world.Kept engine) {id : Nat} {remoteId : String} {delta : Delta Bytes}
    (stepped : world.step engine (.merge id remoteId delta) = some after) : after.Kept engine := by
  have received := kept.receive remoteId delta
  simp only [EngineWorld.step] at stepped
  split at stepped
  · rename_i adapter task
    have member : adapter ∈ engine.adapters := kept.registered id _ task
    split at stepped
    · rename_i next merged
      obtain rfl := Option.some.inj stepped
      rw [merged] at received
      exact received.setTask id (by rintro _ ⟨⟩; exact member)
    · rename_i next merged
      obtain rfl := Option.some.inj stepped
      rw [merged] at received
      exact received.setTask id (by simp)
  · rename_i adapter cache synced task
    have member : adapter ∈ engine.adapters := kept.registered id _ task
    split at stepped
    · rename_i next merged
      obtain rfl := Option.some.inj stepped
      rw [merged] at received
      exact received.setTask id (by rintro _ ⟨⟩; exact member)
    · rename_i next merged
      obtain rfl := Option.some.inj stepped
      rw [merged] at received
      exact received.setTask id (by rintro _ ⟨⟩; exact member)
  · simp at stepped

theorem Kept.step_fail (kept : world.Kept engine) {id : Nat}
    (stepped : world.step engine (.fail id) = some after) : after.Kept engine := by
  simp only [EngineWorld.step] at stepped
  split at stepped
  · obtain rfl := Option.some.inj stepped
    exact kept.setTask id (by simp)
  · rename_i adapter cache synced merged task
    have member : adapter ∈ engine.adapters := kept.registered id _ task
    obtain rfl := Option.some.inj stepped
    exact kept.setTask id (by rintro _ ⟨⟩; exact member)
  · simp at stepped

theorem Kept.step_finish (kept : world.Kept engine) {id : Nat}
    (stepped : world.step engine (.finish id) = some after) : after.Kept engine := by
  simp only [EngineWorld.step] at stepped
  split at stepped
  · rename_i adapter task
    obtain rfl := Option.some.inj stepped
    exact (kept.apply (kept.registered id _ task)).setTask id (by simp)
  · rename_i adapter cache synced task
    have member : adapter ∈ engine.adapters := kept.registered id _ task
    obtain rfl := Option.some.inj stepped
    exact kept.setTask id (by rintro _ ⟨⟩; exact member)
  · simp at stepped

theorem Kept.step_endIteration (kept : world.Kept engine) {id : Nat}
    (stepped : world.step engine (.endIteration id) = some after) : after.Kept engine := by
  simp only [EngineWorld.step] at stepped
  split at stepped
  · rename_i adapter cache synced task
    have member : adapter ∈ engine.adapters := kept.registered id _ task
    obtain rfl := Option.some.inj stepped
    refine Kept.setTask ?_ id (by rintro _ ⟨⟩; exact member)
    cases synced
    · exact kept
    · exact kept.apply member
  · simp at stepped

theorem Kept.step (kept : world.Kept engine) {event : EngineEvent}
    (stepped : world.step engine event = some after) : after.Kept engine := by
  cases event with
  | sync => exact kept.step_sync stepped
  | autoRefresh => exact kept.step_autoRefresh stepped
  | tick => exact kept.step_tick stepped
  | candidate => exact kept.step_candidate stepped
  | merge => exact kept.step_merge stepped
  | fail => exact kept.step_fail stepped
  | finish => exact kept.step_finish stepped
  | endIteration => exact kept.step_endIteration stepped
  | stop id =>
      simp only [EngineWorld.step] at stepped
      split at stepped
      · obtain rfl := Option.some.inj stepped
        exact kept.setTask id (by simp)
      · simp at stepped
  | permit readable writable =>
      obtain rfl := Option.some.inj stepped
      exact ⟨kept.recorded, kept.existed, kept.registered, kept.stale⟩

theorem reads_present (kept : before.Kept engine) {event : EngineEvent}
    {cache : Option (AdapterCache Bytes)} (stepped : before.step engine event = some after)
    (read : before.reads engine event = some (adapter, cache)) {bytes : Bytes}
    (present : before.files.contents adapter.path = some bytes) :
    adapter ∈ engine.adapters ∧
      ((adapter.Differs before.state before.files ∧
          (∀ known, cache = some known → adapter.Cached before.state known) ∧
          after.state = (before.state.set adapter.key bytes).2) ∨
        (¬(adapter.Differs before.state before.files ∧
            ∀ known, cache = some known → adapter.Cached before.state known) ∧
          after.state = before.state)) := by
  have load : ∀ next, (before.load adapter).2.state = next →
      (adapter.Differs before.state before.files ∧
          (∀ known, none = some known → adapter.Cached before.state known) ∧
          next = (before.state.set adapter.key bytes).2) ∨
        (¬(adapter.Differs before.state before.files ∧
            ∀ known, none = some known → adapter.Cached before.state known) ∧
          next = before.state) := by
    rintro next rfl
    rcases adapter.loadIntoState_present before.state present with
      ⟨differs, loaded⟩ | ⟨same, loaded⟩
    · exact Or.inl ⟨differs, by simp, loaded⟩
    · exact Or.inr ⟨fun both => same both.1, loaded⟩
  cases event with
  | sync id adapterId =>
      simp only [reads] at read
      split at read
      · simp at read
      · rename_i idle
        obtain ⟨_, found, pair⟩ := Option.map_eq_some_iff.mp read
        simp only [Prod.mk.injEq] at pair
        obtain ⟨rfl, rfl⟩ := pair
        refine ⟨adapter_mem found, load _ ?_⟩
        have free : before.tasks id = none := by simpa using idle
        simp only [EngineWorld.step, free, found] at stepped
        split at stepped
        · rename_i loaded
          rw [← Option.some.inj stepped, loaded]
          rfl
        · rename_i loaded
          rw [← Option.some.inj stepped, loaded]
  | candidate id =>
      simp only [reads] at read
      split at read
      · rename_i adapter _ _ task
        simp only [Option.some.injEq, Prod.mk.injEq] at read
        obtain ⟨rfl, rfl⟩ := read
        refine ⟨kept.registered id _ task, load _ ?_⟩
        simp only [EngineWorld.step, task] at stepped
        split at stepped
        · rename_i loaded
          rw [← Option.some.inj stepped, loaded]
          rfl
        · rename_i loaded
          rw [← Option.some.inj stepped, loaded]
      · simp at read
  | tick id due =>
      simp only [reads] at read
      split at read
      · rename_i adapter known task
        simp only [Option.some.injEq, Prod.mk.injEq] at read
        obtain ⟨rfl, rfl⟩ := read
        refine ⟨kept.registered id _ task, ?_⟩
        simp only [EngineWorld.step, task, Option.some.injEq] at stepped
        have ticked : after.state = (adapter.syncTick before.state known before.files).2.1 := by
          rw [← stepped]
          rfl
        rw [ticked]
        rcases adapter.syncTick_present before.state known present with
          ⟨differs, cached, copied⟩ | ⟨same, left⟩
        · exact Or.inl ⟨differs, by rintro _ ⟨⟩; exact cached, copied⟩
        · exact Or.inr ⟨fun both => same ⟨both.1, both.2 known rfl⟩, left⟩
      · simp at read
  | _ => simp [reads] at read

theorem Caught.not_restamps (kept : before.Kept engine) {event : EngineEvent}
    (stepped : before.step engine event = some after) (caught : before.Caught engine event) :
    ¬before.Restamps engine event after := by
  rintro ⟨adapter, cache, entry, read, now, new, -, old⟩
  have nonempty := List.ne_nil_of_mem old
  obtain ⟨bytes, present⟩ := Option.isSome_iff_exists.mp (kept.existed adapter nonempty)
  obtain ⟨-, ⟨differs, cached, -⟩ | ⟨-, same⟩⟩ := reads_present kept stepped read present
  · obtain ⟨known, given, unknown⟩ := caught adapter cache read nonempty differs
    exact unknown (cached known given)
  · rw [same] at now
    exact new now

theorem caught_of_not_restamps (separate : engine.Separate) (kept : before.Kept engine)
    {event : EngineEvent} (stepped : before.step engine event = some after)
    (never : ¬before.Restamps engine event after) : before.Caught engine event := by
  intro adapter cache read nonempty differs
  by_contra uncaught
  simp only [not_exists, not_and, not_not] at uncaught
  obtain ⟨bytes, present⟩ := Option.isSome_iff_exists.mp (kept.existed adapter nonempty)
  obtain ⟨member, ⟨-, -, copied⟩ | ⟨same, -⟩⟩ := reads_present kept stepped read present
  · obtain ⟨-, other, found, different⟩ := differs
    obtain rfl := Option.some.inj (present.symm.trans found)
    let written : Entry Bytes :=
      { key := adapter.key, value := bytes, clock := before.state.nextClock }
    refine never ⟨adapter, cache, written, read, ?_, ?_, rfl,
      kept.stale separate adapter member nonempty bytes present different⟩
    · rw [copied]
      simp only [State.set, State.insertEntry_entries, if_true]
      rfl
    · intro here
      exact different (by simp only [State.get, here, Option.map_some, written])
  · exact same ⟨differs, uncaught⟩

/-- A run in which every file is caught up with before it is read again never brings an old
content back; where adapters share nothing, those are the only such runs. -/
theorem old_contents_stay_old (engine : Engine) (deviceId epoch : String)
    (contents : String → Option Bytes) (events : List EngineEvent) :
    (Transition.Along (EngineWorld.step engine) (fun before event _ => before.Caught engine event)
        (start deviceId epoch contents) events →
      Transition.Along (EngineWorld.step engine)
        (fun before event after => ¬before.Restamps engine event after)
        (start deviceId epoch contents) events) ∧
    (engine.Separate → Transition.Along (EngineWorld.step engine)
        (fun before event after => ¬before.Restamps engine event after)
        (start deviceId epoch contents) events →
      Transition.Along (EngineWorld.step engine) (fun before event _ => before.Caught engine event)
        (start deviceId epoch contents) events) := by
  have initial : (start deviceId epoch contents).Kept engine := start_kept deviceId epoch contents
  constructor
  · intro along
    exact along.imp initial (fun _ _ _ kept stepped => kept.step stepped)
      fun _ _ _ kept stepped caught => caught.not_restamps kept stepped
  · intro separate along
    exact along.imp initial (fun _ _ _ kept stepped => kept.step stepped)
      fun _ _ _ kept stepped never => caught_of_not_restamps separate kept stepped never

section Stale

def oneFile : Engine where
  adapters := [{ id := "file", path := "data.json", key := "file" }]
  ordered := List.pairwise_singleton _ _

def initialFile : String → Option Bytes :=
  fun path => if path = "data.json" then some [1] else none

def remoteEdit : Delta Bytes where
  entries := [{ key := "file", value := [2], clock := { counter := 5, deviceId := "laptop" } }]
  cursor := { epoch := "laptop1", clock := 2 }
  acked := { epoch := "", clock := 0 }
  full := true

def completed : List EngineEvent :=
  [.sync 0 "file", .merge 0 "laptop" remoteEdit, .finish 0, .sync 1 "file"]

def completedWorld : Option EngineWorld :=
  Transition.run (EngineWorld.step oneFile) (start "phone" "phone1" initialFile) completed

theorem old_contents_stay_old_completed :
    Transition.Along (EngineWorld.step oneFile)
        (fun before event after => ¬before.Restamps oneFile event after)
        (start "phone" "phone1" initialFile) completed ∧
      completedWorld.map (fun world => (world.state.get "file", world.files.contents "data.json",
        world.past { id := "file", path := "data.json", key := "file" })) =
          some (some [2], some [2], [[1]]) := by
  refine ⟨(old_contents_stay_old oneFile "phone" "phone1" initialFile completed).1 ?_,
    by decide +kernel⟩
  rintro _ ⟨⟩
  refine ⟨fun adapter cache _ nonempty => absurd rfl nonempty, ?_⟩
  rintro _ ⟨⟩
  refine ⟨fun adapter cache read => by simp [reads] at read, ?_⟩
  rintro _ ⟨⟩
  refine ⟨fun adapter cache read => by simp [reads] at read, ?_⟩
  rintro _ ⟨⟩
  -- The call before it wrote what was merged, so that the file is not read back.
  refine ⟨fun adapter cache read _ differs => ?_, trivial⟩
  obtain ⟨rfl, rfl⟩ := Prod.mk.inj (Option.some.inj read)
  obtain ⟨-, bytes, present, apart⟩ := differs
  obtain rfl : [2] = bytes := Option.some.inj present
  exact absurd rfl apart

def lostAck : List EngineEvent :=
  [.sync 0 "file", .merge 0 "laptop" remoteEdit, .fail 0, .sync 1 "file"]

/-- The second call stamps the file's old content over the merged one. -/
theorem lostAck_restamps : ¬Transition.Along (EngineWorld.step oneFile)
    (fun before event after => ¬before.Restamps oneFile event after)
    (start "phone" "phone1" initialFile) lostAck := by
  intro never
  obtain ⟨-, never⟩ := never _ rfl
  obtain ⟨-, never⟩ := never _ rfl
  obtain ⟨-, never⟩ := never _ rfl
  obtain ⟨never, -⟩ := never _ rfl
  refine never ⟨{ id := "file", path := "data.json", key := "file" }, none, _, rfl, rfl, ?_, rfl, ?_⟩
  · decide
  · decide

end Stale

end EngineWorld

end LibreSync
