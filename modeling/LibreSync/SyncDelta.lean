import LibreSync.SyncExchange

/-!
Whole-entry last-writer-wins devices that write locally, exchange deltas and are
recreated: when the delta for a stored cursor is worth the full snapshot.
-/

namespace LibreSync

variable {V : Type}

def Dates (entry : Entry V) (clock : LamportClock) : Prop := clock ≤ entry.clock

namespace State

theorem applyEntry_holds (state : State V) (entry : Entry V) (key : String)
    (clock : LamportClock) : (state.applyEntry entry).2.Holds Dates key clock ↔
      state.Holds Dates key clock ∨ entry.key = key ∧ clock ≤ entry.clock := by
  simp only [Holds, Dates, applyEntry_entries]
  constructor
  · rintro ⟨found, present, below⟩
    split at present
    · rename_i newer
      simp only [Option.some.injEq] at present
      exact Or.inr ⟨newer.1.symm, present ▸ below⟩
    · exact Or.inl ⟨found, present, below⟩
  · intro held
    by_cases newer : key = entry.key ∧ ∀ existing, state.entries[key]? = some existing →
        existing.clock < entry.clock
    · rw [if_pos newer]
      rcases held with ⟨found, present, below⟩ | ⟨_, below⟩
      · exact ⟨entry, rfl, below.trans (newer.2 found present).le⟩
      · exact ⟨entry, rfl, below⟩
    · rw [if_neg newer]
      rcases held with held | ⟨same, below⟩
      · exact held
      · simp only [not_and, not_forall, not_lt] at newer
        obtain ⟨existing, present, older⟩ := newer same.symm
        exact ⟨existing, present, below.trans older⟩

theorem mergeSnapshot_holds (state : State V) (entries : List (Entry V)) (key : String)
    (clock : LamportClock) : (state.mergeSnapshot entries).2.Holds Dates key clock ↔
      state.Holds Dates key clock ∨ Carried Dates entries key clock := by
  induction entries generalizing state with
  | nil => simp [mergeSnapshot, Carried]
  | cons entry rest ih =>
      rw [mergeSnapshot_cons, ih, applyEntry_holds]
      simp only [Carried, List.mem_cons, exists_eq_or_imp, Dates, or_assoc]

theorem mergeSnapshot_touched (state : State V) (entries : List (Entry V)) (key : String) :
    Untouched state (state.mergeSnapshot entries).2 key ∨
      ∃ entry ∈ entries, entry.key = key ∧
        (state.mergeSnapshot entries).2.entries[key]? = some entry ∧
        ¬state.Holds Dates key entry.clock := by
  induction entries generalizing state with
  | nil => exact Or.inl (Untouched.refl state key)
  | cons entry rest ih =>
      rw [mergeSnapshot_cons]
      rcases ih (state.applyEntry entry).2 with same | ⟨last, member, keyed, present, newer⟩
      · rcases applyEntry_cases state entry with ⟨_, _, _, applied⟩ | ⟨newer, applied⟩
        · rw [applied, raiseCounter_eq] at same ⊢
          exact Or.inl ⟨same.entry, same.sequence, same.origin⟩
        · by_cases here : key = entry.key
          · refine Or.inr ⟨entry, List.mem_cons_self .., here.symm, ?_, ?_⟩
            · rw [same.entry, applied, insertEntry_entries, if_pos here]
            · rintro ⟨existing, found, below⟩
              exact absurd (newer existing (here ▸ found)) (not_lt.mpr below)
          · have kept : Untouched state (state.applyEntry entry).2 key := by
              rw [applied, raiseCounter_eq]
              refine ⟨?_, ?_, ?_⟩
              · rw [insertEntry_entries, if_neg here]
              · rw [insertEntry_sequences, if_neg here]
              · rw [insertEntry_origins, if_neg here]
            exact Or.inl ⟨same.entry.trans kept.entry, same.sequence.trans kept.sequence,
              same.origin.trans kept.origin⟩
      · refine Or.inr ⟨last, List.mem_cons_of_mem _ member, keyed, present, fun held => newer ?_⟩
        exact (applyEntry_holds state entry key last.clock).mpr (Or.inl held)

theorem mergeSnapshot_filter (wanted : Entry V → Bool) (entries : List (Entry V))
    {state other : State V} (same : state.entries = other.entries)
    (held : ∀ entry ∈ entries, wanted entry = false → state.Holds Dates entry.key entry.clock) :
    (state.mergeSnapshot entries).2.entries =
      (other.mergeSnapshot (entries.filter wanted)).2.entries := by
  induction entries generalizing state other with
  | nil => exact same
  | cons entry rest ih =>
      have later : ∀ item ∈ rest, wanted item = false →
          (state.applyEntry entry).2.Holds Dates item.key item.clock := fun item member left =>
        (applyEntry_holds _ _ _ _).mpr (Or.inl (held item (List.mem_cons_of_mem _ member) left))
      by_cases kept : wanted entry = true
      · rw [List.filter_cons_of_pos kept, mergeSnapshot_cons, mergeSnapshot_cons]
        refine ih (Std.ExtTreeMap.ext_getElem? fun key => ?_) later
        rw [applyEntry_entries, applyEntry_entries, same]
      · rw [List.filter_cons_of_neg kept, mergeSnapshot_cons]
        refine ih ?_ later
        obtain ⟨existing, found, below⟩ := held entry (List.mem_cons_self ..) (by simpa using kept)
        rcases applyEntry_cases state entry with ⟨_, _, _, applied⟩ | ⟨newer, _⟩
        · rw [applied, raiseCounter_eq]
          exact same
        · exact absurd (newer existing found) (not_lt.mpr below)

theorem deltaSince_eq_filter {state : State V} (valid : state.WellFormed) {since : Nat}
    (served : state.isFullSnapshotRequest since = false) (excludeOrigin : Option String) :
    state.deltaSince since excludeOrigin =
      state.snapshot.filter fun entry => state.inDelta since excludeOrigin entry.key := by
  simp only [deltaSince, served, Bool.false_eq_true, if_false,
    snapshot, BTreeMap.valueList, List.filter_map]
  refine congrArg (List.map Prod.snd) (List.filter_congr fun item member => ?_)
  have found := Std.ExtTreeMap.mem_toList_iff_getElem?_eq_some.mp member
  simp only [Function.comp_apply, valid.keyed item.1 item.2 found]

end State

namespace World

variable {σ α : Type} {carries : Entry V → α → Prop} {transit : Prop}

def recreate (world : World V σ) (name epoch : String) : World V σ :=
  { world.setDevice name { state := State.new name epoch, store := (world.devices name).store } with
    epochs := Function.update world.epochs name (epoch :: world.epochs name) }

theorem Synced.recreate {world : World V σ} (synced : world.Synced carries transit)
    {name epoch : String} (fresh : epoch ∉ world.epochs name) :
    (world.recreate name epoch).Synced carries transit := by
  have reset : (world.recreate name epoch).state name = State.new name epoch :=
    setDevice_state_self _ _ _
  have other : ∀ {device}, device ≠ name →
      (world.recreate name epoch).state device = world.state device :=
    fun away => setDevice_state_ne world _ away
  have listed : ∀ {device tag}, tag ∈ world.epochs device →
      tag ∈ (world.recreate name epoch).epochs device := by
    intro device tag member
    simp only [World.recreate, Function.update_apply]
    split
    · rename_i here
      exact List.mem_cons_of_mem _ (here ▸ member)
    · exact member
  have clientStays : ∀ session, session.clientEpoch ∈ world.epochs session.client →
      (world.recreate name epoch).clientAlive session →
        session.client ≠ name ∧ world.clientAlive session := by
    intro session known live
    by_cases here : session.client = name
    · simp only [clientAlive, here, reset] at live
      exact absurd (here ▸ known) (live ▸ fresh)
    · simp only [clientAlive, other here] at live
      exact ⟨here, live⟩
  have listenerStays : ∀ session, session.listenerEpoch ∈ world.epochs session.listener →
      (world.recreate name epoch).listenerAlive session →
        session.listener ≠ name ∧ world.listenerAlive session := by
    intro session known live
    by_cases here : session.listener = name
    · simp only [listenerAlive, here, reset] at live
      exact absurd (here ▸ known) (live ▸ fresh)
    · simp only [listenerAlive, other here] at live
      exact ⟨here, live⟩
  have covered : ∀ sender receiver cursor extra, receiver ≠ name →
      world.Covered carries transit sender receiver cursor extra →
        (world.recreate name epoch).Covered carries transit sender receiver cursor extra := by
    intro sender receiver cursor extra away before
    refine ⟨fun used => listed (before.recorded used), fun usable => ?_⟩
    by_cases here : sender = name
    · -- No cursor handed out before names the new epoch.
      subst here
      have known := before.recorded usable.2
      rw [usable.1, reset] at known
      exact absurd known fresh
    · simp only [Usable, other here] at usable
      refine (before.covers usable).step ?_ ?_ ?_ (fun key item => Or.inr) ?_
      · rw [other here]
      · intro key
        rw [other here]
        exact Or.inl (State.Untouched.refl _ key)
      · intro key item held
        rwa [other away]
      · rintro _ key item _ _ ⟨id, session, delta, found, client, listener, phase, live, has⟩
        refine Or.inr ⟨id, session, delta, found, client, listener, phase, ?_, has⟩
        simpa only [listenerAlive, listener, other away] using live
  refine ⟨?_, ?_, ?_, ?_, ?_⟩
  · intro device
    by_cases here : device = name
    · rw [here, reset]
      exact State.new_wellFormed name epoch
    · rw [other here]
      exact synced.wellFormed device
  · intro device
    by_cases here : device = name
    · rw [here, reset]
      rfl
    · rw [other here]
      exact synced.idle device
  · intro device
    by_cases here : device = name
    · rw [here, reset]
      simp [World.recreate, State.new]
    · rw [other here]
      exact listed (synced.current device)
  · intro sender receiver distinct
    by_cases here : receiver = name
    · rw [here, reset]
      exact ⟨fun used => absurd rfl used, fun usable => absurd rfl usable.2⟩
    · rw [other here]
      exact covered _ _ _ _ here (synced.stored sender receiver distinct)
  · intro id session found
    obtain ⟨⟨distinct, client, listener⟩, phase⟩ := synced.sessions id session found
    refine ⟨⟨distinct, listed client, listed listener⟩, ?_⟩
    have asClient := clientStays session client
    have asListener := listenerStays session listener
    revert phase
    cases session.phase with
    | requested cursor =>
        exact fun phase live => covered _ _ _ _ (asClient live).1 (phase (asClient live).2)
    | answered delta =>
        exact fun phase =>
          ⟨fun live => covered _ _ _ _ (asClient live).1 (phase.1 (asClient live).2),
            fun live => covered _ _ _ _ (asListener live).1 (phase.2 (asListener live).2)⟩
    | merged delta =>
        exact fun phase live => covered _ _ _ _ (asListener live).1 (phase (asListener live).2)

end World

inductive LocalOp (V : Type) where
  | set (key : String) (value : V)
  | applyEntry (entry : Entry V)
  | mergeSnapshot (entries : List (Entry V))

def LocalOp.run : LocalOp V → State V → State V
  | .set key value, state => (state.set key value).2
  | .applyEntry entry, state => (state.applyEntry entry).2
  | .mergeSnapshot entries, state => (state.mergeSnapshot entries).2

inductive DeltaEvent (V : Type) where
  | edit (device : String) (op : LocalOp V)
  | exchange (event : ExchangeEvent)
  | recreate (device epoch : String)

namespace World

def edit {σ : Type} (world : World V σ) (name : String) (op : LocalOp V) : World V σ :=
  world.setDevice name { (world.devices name) with state := op.run (world.state name) }

def deltaStep (world : World V Unit) : DeltaEvent V → Option (World V Unit)
  | .edit device op => some (world.edit device op)
  | .exchange event => world.exchange lwwApplier event
  | .recreate device epoch =>
      if epoch ∈ world.epochs device then none else some (world.recreate device epoch)

def Bounded {σ : Type} (world : World V σ) : Prop :=
  ∀ device, (world.state device).counter < u64Max ∧ (world.state device).sequence < u64Max

/-- The sender still has what the receiver takes over from its delta, or the receiver will not
leave it out of what it sends back. -/
def Attributable (world : World V Unit) (receiver sender : String)
    (entries : List (Entry V)) : Prop :=
  world.Untracked receiver sender ∨
    ∀ entry ∈ entries, ¬(world.state receiver).Holds Dates entry.key entry.clock →
      (world.state sender).Holds Dates entry.key entry.clock

/-- No delta is merged for which its sender no longer answers. -/
def FaithfulStep (world : World V Unit) (event : DeltaEvent V) : Prop :=
  world.Bounded ∧ ∀ id session delta, world.sessions id = some session →
    (event = .exchange (.mergeAsClient id) → session.phase = .answered delta →
      world.Attributable session.client session.listener delta.entries) ∧
    (event = .exchange (.mergeAsListener id) → session.phase = .merged delta →
      world.Attributable session.listener session.client delta.entries)

end World

namespace LocalOp

variable {state : State V} (op : LocalOp V)

theorem run_writes (idle : state.inboundOrigin = none) (room : state.counter < u64Max) :
    State.Writes none state (op.run state) := by
  cases op with
  | set key value => exact State.set_writes state key value room
  | applyEntry entry =>
      have writes := State.applyEntry_writes state entry
      rwa [idle] at writes
  | mergeSnapshot entries =>
      have writes := State.mergeSnapshot_writes state entries
      rwa [idle] at writes

theorem run_wellFormed (valid : state.WellFormed) (room : state.counter < u64Max)
    (below : (op.run state).sequence < u64Max) : (op.run state).WellFormed := by
  cases op with
  | set key value => exact State.set_wellFormed valid key value room below
  | applyEntry entry => exact State.applyEntry_wellFormed valid entry below
  | mergeSnapshot entries => exact State.mergeSnapshot_wellFormed valid entries below

theorem run_holds (valid : state.WellFormed) (room : state.counter < u64Max) {key : String}
    {clock : LamportClock} (held : state.Holds Dates key clock) :
    (op.run state).Holds Dates key clock := by
  cases op with
  | set target value =>
      obtain ⟨existing, found, below⟩ := held
      simp only [run, State.Holds, State.set_entries]
      split
      · refine ⟨_, rfl, ?_⟩
        have counted := valid.counted key existing found
        have newer : existing.clock < (state.set target value).1.clock :=
          LamportClock.lt_of_counter_lt (by
            simp only [State.set, saturatingSucc_eq room]
            omega)
        exact (below.trans_lt newer).le
      · exact ⟨existing, found, below⟩
  | applyEntry entry => exact (State.applyEntry_holds state entry key clock).mpr (Or.inl held)
  | mergeSnapshot entries =>
      exact (State.mergeSnapshot_holds state entries key clock).mpr (Or.inl held)

end LocalOp

namespace World

variable {world after : World V Unit}

theorem lww_received {device : Device V Unit} (valid : device.state.WellFormed)
    (remoteId : String) (entries : List (Entry V))
    (below : (device.state.withInboundOrigin remoteId
      ((lwwApplier : InboundApplier V Unit).applyInbound entries)).2.sequence < u64Max) :
    device.Received lwwApplier Dates remoteId entries (device.state.withInboundOrigin remoteId
      ((lwwApplier : InboundApplier V Unit).applyInbound entries)).2 := by
  let inside : State V := { device.state with inboundOrigin := some remoteId }
  exact Device.Received.of_applied rfl (State.mergeSnapshot_writes inside entries)
    (State.mergeSnapshot_holds inside entries)
    (State.mergeSnapshot_wellFormed (valid.withInbound _) entries below) below

theorem Attributable.known {receiver sender : String} {entries : List (Entry V)}
    (valid : (world.state receiver).WellFormed)
    (attributable : world.Attributable receiver sender entries) {merged : State V}
    (result : merged = ((world.state receiver).withInboundOrigin sender
      ((lwwApplier : InboundApplier V Unit).applyInbound entries)).2) :
    world.Untracked receiver sender ∨
      ∀ key, State.Touched (some sender) (world.state receiver) merged key →
        ∀ clock, merged.Holds Dates key clock → (world.state sender).Holds Dates key clock := by
  rcases attributable with untracked | answered
  · exact Or.inl untracked
  · refine Or.inr fun key touched clock held => ?_
    subst result
    rcases State.mergeSnapshot_touched { world.state receiver with inboundOrigin := some sender }
      entries key with same | ⟨entry, member, rfl, present, newer⟩
    · exact absurd ⟨same.entry, same.sequence, same.origin⟩ (touched.not_untouched valid)
    · obtain ⟨found, holds, below⟩ := held
      obtain rfl : found = entry := Option.some.inj (holds.symm.trans present)
      obtain ⟨existing, there, above⟩ := answered found member newer
      exact ⟨existing, there, below.trans above⟩

theorem Synced.exchange (synced : world.Synced Dates False) {event : ExchangeEvent}
    (faithful : world.FaithfulStep (.exchange event))
    (stepped : world.exchange lwwApplier event = some after) (bounded : after.Bounded) :
    after.Synced Dates False := by
  cases event with
  | connect id client listener =>
      obtain ⟨free, distinct, rfl⟩ := exchange_connect stepped
      exact synced.connect free distinct
  | answer id =>
      obtain ⟨session, cursor, found, phase, -, rfl⟩ := exchange_answer stepped
      exact synced.answer found phase rfl
  | mergeAsClient id =>
      obtain ⟨session, delta, found, phase, alive, rfl⟩ := exchange_mergeAsClient stepped
      have below := (bounded session.client).2
      rw [(mergeAsClient_eq id rfl).choose_spec.2.2, setDevice_state_self] at below
      refine synced.mergeAsClient found phase alive
        (lww_received (synced.wellFormed _) session.listener delta.entries below) ?_
      rcases ((faithful.2 id session delta found).1 rfl phase).known (synced.wellFormed _) rfl with
        untracked | known
      · exact Or.inl untracked
      · exact Or.inr fun key touched clock held => Or.inl (known key touched clock held)
  | mergeAsListener id =>
      obtain ⟨session, delta, found, phase, alive, rfl⟩ := exchange_mergeAsListener stepped
      have below := (bounded session.listener).2
      rw [mergeAsListener_eq id rfl, setSession_state, setDevice_state_self] at below
      refine synced.mergeAsListener found phase alive
        (lww_received (synced.wellFormed _) session.client delta.entries below) ?_
      rcases ((faithful.2 id session delta found).2 rfl phase).known (synced.wellFormed _) rfl with
        untracked | known
      · exact Or.inl untracked
      · exact Or.inr fun key touched clock held => Or.inl (known key touched clock held)
  | cut id =>
      simp only [World.exchange, Option.some.injEq] at stepped
      subst stepped
      exact synced.cut fun absurdity => absurdity.elim
  | load device =>
      simp only [World.exchange, Option.some.injEq] at stepped
      subst stepped
      have same : ((world.devices device).load lwwApplier).2 = world.devices device := rfl
      rwa [same, setDevice_self]
  | writeBack device =>
      simp only [World.exchange, Option.some.injEq] at stepped
      subst stepped
      have same : ((world.devices device).writeBack lwwApplier).2 = world.devices device := rfl
      rwa [same, setDevice_self]

theorem Synced.deltaStep (synced : world.Synced Dates False) {event : DeltaEvent V}
    (faithful : world.FaithfulStep event) (stepped : world.deltaStep event = some after)
    (bounded : after.Bounded) : after.Synced Dates False := by
  cases event with
  | edit device op =>
      simp only [World.deltaStep, Option.some.injEq] at stepped
      subst stepped
      have room := (faithful.1 device).1
      have below := (bounded device).2
      simp only [World.edit, setDevice_state_self] at below
      exact synced.setDevice device _ (op.run_writes (synced.idle device) room) below
        (op.run_wellFormed (synced.wellFormed device) room below)
        (fun _ _ held => op.run_holds (synced.wellFormed device) room held) (by simp)
  | exchange event => exact synced.exchange faithful stepped bounded
  | recreate device epoch =>
      simp only [World.deltaStep, Option.ite_none_left_eq_some, Option.some.injEq] at stepped
      obtain ⟨fresh, rfl⟩ := stepped
      exact synced.recreate fresh

/-- The entries `receiver` reaches by applying what `sender` sent. -/
def reachedEntries (world : World V Unit) (sender receiver : String) (entries : List (Entry V)) :
    BTreeMap String (Entry V) :=
  ((world.state receiver).withInboundOrigin sender
    ((lwwApplier : InboundApplier V Unit).applyInbound entries)).2.entries

theorem Synced.delta_eq_snapshot (synced : world.Synced Dates False) {sender receiver : String}
    (distinct : sender ≠ receiver) {cursor : PeerCursor}
    (presented : cursor = (world.state receiver).peerCursor sender ∨
      cursor.epoch ≠ (world.state sender).epoch ∨
        (world.state sender).sequence < cursor.clock) :
    world.reachedEntries sender receiver ((world.state sender).deltaSince
        ((world.state sender).resolveCursor cursor) (some receiver)) =
      world.reachedEntries sender receiver (world.state sender).snapshot := by
  have valid := synced.wellFormed sender
  cases served : (world.state sender).isFullSnapshotRequest
      ((world.state sender).resolveCursor cursor) with
  | true => simp only [State.deltaSince, served, if_true]
  | false =>
      obtain ⟨resolved, known, used⟩ := State.resolveCursor_of_delta served
      have present : (world.state sender).sequence ≥ cursor.clock := by
        rw [resolved] at served
        simp only [State.isFullSnapshotRequest, Bool.or_eq_false_iff,
          decide_eq_false_iff_not, not_lt] at served
        exact served.2
      rcases presented with rfl | unknown | future
      · have covers := (synced.stored sender receiver distinct).covers ⟨known, used⟩
        rw [State.deltaSince_eq_filter valid served]
        refine (State.mergeSnapshot_filter _ _ rfl fun entry member left => ?_).symm
        obtain ⟨key, found⟩ := BTreeMap.mem_valueList.mp member
        obtain rfl := valid.keyed key entry found
        have holds : (world.state sender).Holds Dates entry.key entry.clock :=
          ⟨entry, found, le_refl entry.clock⟩
        obtain ⟨sequence, numbered⟩ := valid.sequenced entry.key entry found
        by_cases origin : (world.state sender).origins[entry.key]? = some receiver
        · rcases covers.attributed entry.key entry.clock origin holds with
            held | ⟨_, none, _⟩ | ⟨never, _⟩
          · exact held
          · simp at none
          · exact never.elim
        · have past : sequence ≤ ((world.state receiver).peerCursor sender).clock := by
            simpa [State.inDelta, numbered, origin, resolved] using left
          rcases covers.past entry.key entry.clock sequence numbered past origin holds with
            held | ⟨_, none, _⟩
          · exact held
          · simp at none
      · exact absurd known unknown
      · exact absurd future (not_lt.mpr present)

theorem synced_of_reaches {epochs : String → String}
    (reached : Transition.Reaches deltaStep FaithfulStep (start epochs fun _ => ()) world)
    (bounded : world.Bounded) : world.Synced Dates False := by
  refine reached.invariant (motive := fun world => world.Bounded → world.Synced Dates False)
    (fun _ => start_synced epochs _) ?_ bounded
  intro before event after synced faithful stepped
  exact (synced faithful.1).deltaStep faithful stepped

/-- In a run that merges no delta its sender has stopped answering for, applying the delta for
the receiver's cursor gives the entries that applying the full snapshot gives. -/
theorem delta_agrees {epochs : String → String}
    (reached : Transition.Reaches deltaStep FaithfulStep (start epochs fun _ => ()) world)
    (bounded : world.Bounded) {sender receiver : String} (distinct : sender ≠ receiver)
    {cursor : PeerCursor}
    (presented : cursor = (world.state receiver).peerCursor sender ∨
      cursor.epoch ≠ (world.state sender).epoch ∨
        (world.state sender).sequence < cursor.clock) :
    world.reachedEntries sender receiver ((world.state sender).deltaSince
        ((world.state sender).resolveCursor cursor) (some receiver)) =
      world.reachedEntries sender receiver (world.state sender).snapshot :=
  (synced_of_reaches reached bounded).delta_eq_snapshot distinct presented

theorem start_bounded (epochs : String → String) : (start epochs fun _ => () : World V Unit).Bounded :=
  fun _ => by simp [start, State.new, u64Max]

def secondEpoch : String → String := fun device => device ++ "1"

def named (device : String) : Bool := device = "phone" || device = "laptop"

def counters (world : World Nat Unit) (device : String) : Bool :=
  (world.state device).counter < u64Max && (world.state device).sequence < u64Max

def withinPair : DeltaEvent Nat → Bool
  | .edit device _ => named device
  | .exchange (.connect _ client listener) => named client && named listener
  | .exchange (.load device) | .exchange (.writeBack device) => named device
  | .exchange _ => true
  | .recreate .. => false

def answered (world : World Nat Unit) (sender : String) (entries : List (Entry Nat)) : Bool :=
  entries.all fun entry => (world.state sender).entries[entry.key]? = some entry

def answers (world : World Nat Unit) : DeltaEvent Nat → Bool
  | .exchange (.mergeAsClient id) | .exchange (.mergeAsListener id) =>
      (world.sessions id).all fun session =>
        match session.phase with
        | .answered delta => answered world session.listener delta.entries
        | .merged delta => answered world session.client delta.entries
        | .requested _ => true
  | _ => true

def pairStep (world : World Nat Unit) (event : DeltaEvent Nat) : Bool :=
  counters world "phone" && counters world "laptop" && withinPair event && answers world event

def Paired (world : World Nat Unit) : Prop :=
  ∀ device, named device = false → world.Idle device ∧
    world.devices device = (start secondEpoch fun _ => ()).devices device

theorem Paired.bounded {world : World Nat Unit} (paired : Paired world)
    (phone : counters world "phone" = true) (laptop : counters world "laptop" = true) :
    world.Bounded := by
  simp only [counters, Bool.and_eq_true, decide_eq_true_eq] at phone laptop
  intro device
  by_cases other : named device = true
  · simp only [named, Bool.or_eq_true, decide_eq_true_eq] at other
    rcases other with rfl | rfl
    · exact phone
    · exact laptop
  · rw [World.state, (paired device (Bool.eq_false_of_not_eq_true other)).2]
    exact start_bounded secondEpoch device

theorem answered_attributable {world : World Nat Unit} {receiver sender : String}
    {entries : List (Entry Nat)} (all : answered world sender entries = true) :
    world.Attributable receiver sender entries := by
  refine Or.inr fun entry member _ => ?_
  have held := List.all_eq_true.mp all entry member
  exact ⟨entry, of_decide_eq_true held, le_refl entry.clock⟩

theorem Paired.step {world after : World Nat Unit} {event : DeltaEvent Nat} (paired : Paired world)
    (checked : pairStep world event = true) (stepped : world.deltaStep event = some after) :
    world.FaithfulStep event ∧ Paired after := by
  simp only [pairStep, Bool.and_eq_true] at checked
  obtain ⟨⟨⟨phone, laptop⟩, pairs⟩, answers⟩ := checked
  refine ⟨⟨paired.bounded phone laptop, fun id session delta found => ⟨?_, ?_⟩⟩, ?_⟩
  · rintro rfl phase
    simp only [World.answers, found, Option.all_some, phase] at answers
    exact answered_attributable answers
  · rintro rfl phase
    simp only [World.answers, found, Option.all_some, phase] at answers
    exact answered_attributable answers
  · intro device other
    obtain ⟨idle, same⟩ := paired device other
    have apart : ∀ {name : String}, named name = true → name ≠ device := by
      rintro name named rfl
      rw [named] at other
      simp at other
    cases event with
    | edit name op =>
        obtain rfl := Option.some.inj stepped
        exact ⟨idle, (Function.update_of_ne (apart pairs).symm _ _).trans same⟩
    | exchange event =>
        have spared : event.Spares device := by
          cases event with
          | connect id client listener =>
              simp only [withinPair, Bool.and_eq_true] at pairs
              exact ⟨apart pairs.1, apart pairs.2⟩
          | load name => exact apart pairs
          | writeBack name => exact apart pairs
          | _ => trivial
        obtain ⟨kept, still⟩ := exchange_devices stepped idle spared
        exact ⟨still, kept.trans same⟩
    | recreate name epoch => simp [withinPair] at pairs

def draftAfterExchange : List (DeltaEvent Nat) :=
  [.edit "phone" (.set "note" 7),
    .exchange (.connect 0 "phone" "laptop"), .exchange (.answer 0), .exchange (.mergeAsClient 0),
    .exchange (.mergeAsListener 0), .edit "phone" (.set "draft" 8)]

def phoneDelta (world : World Nat Unit) : List (Entry Nat) :=
  (world.state "phone").deltaSince
    ((world.state "phone").resolveCursor ((world.state "laptop").peerCursor "phone")) (some "laptop")

theorem delta_agrees_after_exchange : ∃ world : World Nat Unit,
    Transition.run deltaStep (start secondEpoch fun _ => ()) draftAfterExchange = some world ∧
    (phoneDelta world).map (·.key) = ["draft"] ∧
    (world.state "phone").snapshot.map (·.key) = ["draft", "note"] ∧
    world.reachedEntries "phone" "laptop" (phoneDelta world) =
      world.reachedEntries "phone" "laptop" (world.state "phone").snapshot := by
  have ends : (Transition.run (fun world event => if pairStep world event then
      world.deltaStep event else none) (start secondEpoch fun _ => ()) draftAfterExchange).any
        (fun world => counters world "phone" && counters world "laptop" &&
          (phoneDelta world).map (·.key) = ["draft"] &&
            (world.state "phone").snapshot.map (·.key) = ["draft", "note"]) = true := by
    decide +kernel
  obtain ⟨world, ran, facts⟩ := (Option.any_eq_true _ _).mp ends
  simp only [Bool.and_eq_true, decide_eq_true_eq] at facts
  obtain ⟨⟨⟨phone, laptop⟩, partly⟩, whole⟩ := facts
  have initial : Paired (start secondEpoch fun _ => () : World Nat Unit) :=
    fun device _ => ⟨fun id session found => by simp [start] at found, rfl⟩
  obtain ⟨reached, paired⟩ := (Transition.reaches_guarded ran).refine initial
    fun _ _ _ paired checked stepped => paired.step checked stepped
  exact ⟨world, Transition.run_guarded ran, partly, whole,
    delta_agrees reached (paired.bounded phone laptop) (by decide) (Or.inl rfl)⟩

/-- The phone is recreated between sending a delta and the laptop merging it. -/
def recreatedWhileSending : List (DeltaEvent Nat) :=
  [.edit "phone" (.set "note" 7),
    .exchange (.connect 0 "phone" "laptop"), .exchange (.answer 0), .exchange (.mergeAsClient 0),
    .recreate "phone" "phone2",
    .exchange (.connect 1 "phone" "laptop"), .exchange (.answer 1), .exchange (.mergeAsClient 1),
    .exchange (.mergeAsListener 1),
    .exchange (.mergeAsListener 0)]

theorem recreatedWhileSending_disagrees :
    ∃ world, Transition.run deltaStep (start secondEpoch fun _ => ()) recreatedWhileSending =
        some world ∧
      ((world.state "phone").counter < u64Max ∧ (world.state "laptop").counter < u64Max) ∧
      world.reachedEntries "laptop" "phone" ((world.state "laptop").deltaSince
          ((world.state "laptop").resolveCursor ((world.state "phone").peerCursor "laptop"))
          (some "phone")) ≠
        world.reachedEntries "laptop" "phone" (world.state "laptop").snapshot := by
  refine ⟨_, rfl, by decide, ?_⟩
  intro same
  have here := congrArg (fun entries => (entries["note"]?).isSome) same
  revert here
  decide

end World

end LibreSync
