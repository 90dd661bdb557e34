import LibreSync.Writes
import LibreSync.Logical

/-!
Adapters between the state and app storage of type `σ`, and the appliers that
merge entries received from a peer.
-/

namespace LibreSync

structure AdapterCache (V : Type) where
  lastBytes : Option V := none
  lastWal : Option V := none
  lastShm : Option V := none

structure InboundApplier (V σ : Type) where
  applyInbound : List (Entry V) → State V → Except Error Nat × State V
  beforeExport : State V → σ → Except Error Unit × State V × σ
  afterApply : State V → σ → Except Error Unit × σ

structure DataAdapter (V σ : Type) where
  id : String
  loadIntoState : State V → σ → Except Error Unit × State V × σ
  applyFromState : State V → σ → Except Error Unit × σ
  syncTick : State V → AdapterCache V → σ → Except Error Unit × State V × AdapterCache V × σ :=
    fun state cache store =>
      match loadIntoState state store with
      | (.error error, state, store) => (.error error, state, cache, store)
      | (.ok (), state, store) =>
          let (result, store) := applyFromState state store
          (result, state, cache, store)
  applyEntries : List (Entry V) → State V → Except Error Nat × State V :=
    fun entries state => ((.ok (state.mergeSnapshot entries).1), (state.mergeSnapshot entries).2)
  ownsKey : String → Bool := fun _ => false

variable {V σ : Type}

def lwwApplier : InboundApplier V σ where
  applyInbound entries state :=
    let (applied, state) := state.mergeSnapshot entries
    (.ok applied, state)
  beforeExport state store := (.ok (), state, store)
  afterApply _ store := (.ok (), store)

/-- The registered adapters, in the order of their ids. -/
structure AdapterRouter (V σ : Type) where
  adapters : List (DataAdapter V σ)
  ordered : adapters.Pairwise fun left right => left.id < right.id

namespace AdapterRouter

variable (router : AdapterRouter V σ)

def owner (key : String) : Option Nat :=
  router.adapters.findIdx? fun adapter => adapter.ownsKey key

/-- The entries whose keys the adapter at `index` owns; the unowned ones at `none`. -/
def bucket (entries : List (Entry V)) (index : Option Nat) : List (Entry V) :=
  entries.filter fun entry => router.owner entry.key = index

def applyBuckets (entries : List (Entry V)) :
    List (DataAdapter V σ) → Nat → State V → Except Error Nat × State V
  | [], _, state => (.ok 0, state)
  | adapter :: rest, index, state =>
      let bucket := router.bucket entries (some index)
      if bucket.isEmpty then applyBuckets entries rest (index + 1) state
      else match adapter.applyEntries bucket state with
        | (.error error, state) => (.error error, state)
        | (.ok applied, state) =>
            match applyBuckets entries rest (index + 1) state with
            | (.error error, state) => (.error error, state)
            | (.ok more, state) => (.ok (applied + more), state)

def applyInbound (entries : List (Entry V)) (state : State V) : Except Error Nat × State V :=
  match router.applyBuckets entries router.adapters 0 state with
  | (.error error, state) => (.error error, state)
  | (.ok applied, state) =>
      let (unowned, state) := state.mergeSnapshot (router.bucket entries none)
      (.ok (applied + unowned), state)

def loadAll : List (DataAdapter V σ) → State V → σ → Except Error Unit × State V × σ
  | [], state, store => (.ok (), state, store)
  | adapter :: rest, state, store =>
      match adapter.loadIntoState state store with
      | (.error error, state, store) => (.error error, state, store)
      | (.ok (), state, store) => loadAll rest state store

def writeAll : List (DataAdapter V σ) → State V → σ → Except Error Unit × σ
  | [], _, store => (.ok (), store)
  | adapter :: rest, state, store =>
      match adapter.applyFromState state store with
      | (.error error, store) => (.error error, store)
      | (.ok (), store) => writeAll rest state store

def applier : InboundApplier V σ where
  applyInbound := router.applyInbound
  beforeExport := loadAll router.adapters
  afterApply := writeAll router.adapters

end AdapterRouter

structure LogicalAdapter (V σ : Type) where
  id : String
  keyNamespace : String
  loadRecords : State V → σ → Except Error Unit × State V × σ
  applyRecords : State V → σ → Except Error Unit × σ
  applySnapshot : List SyncRecord → State V → Except Error Nat × State V

section Logical

variable [PayloadCodec V]

def recordsOf (keyNamespace : String) : List (Entry V) → Except Error (List SyncRecord)
  | [] => .ok []
  | entry :: rest =>
      match entryToRecord entry keyNamespace with
      | .error error => .error error
      | .ok none => recordsOf keyNamespace rest
      | .ok (some record) => (recordsOf keyNamespace rest).map (record :: ·)

def LogicalAdapter.wrapper (inner : LogicalAdapter V σ) : DataAdapter V σ where
  id := inner.id
  loadIntoState := inner.loadRecords
  applyFromState := inner.applyRecords
  applyEntries entries state :=
    match recordsOf inner.keyNamespace entries with
    | .error error => (.error error, state)
    | .ok records => inner.applySnapshot records state
  ownsKey key :=
    match Record.parseRecordKey key with
    | .ok (some parts) => parts.keyNamespace = inner.keyNamespace
    | _ => false

abbrev RecordKey := String ×ₗ String ×ₗ String

instance lawfulEqOrdLex {α β : Type} [Ord α] [Ord β] [Std.LawfulEqOrd α] [Std.LawfulEqOrd β] :
    Std.LawfulEqOrd (α ×ₗ β) where
  compare_self := by
    intro value
    have first : compare (ofLex value).1 (ofLex value).1 = .eq := Std.ReflCmp.compare_self
    have second : compare (ofLex value).2 (ofLex value).2 = .eq := Std.ReflCmp.compare_self
    exact Ordering.then_eq_eq.mpr ⟨first, second⟩
  eq_of_compare := by
    intro left right same
    obtain ⟨first, second⟩ : compare (ofLex left).1 (ofLex right).1 = .eq ∧
        compare (ofLex left).2 (ofLex right).2 = .eq := Ordering.then_eq_eq.mp same
    exact ofLex.injective (Prod.ext (Std.LawfulEqCmp.eq_of_compare first)
      (Std.LawfulEqCmp.eq_of_compare second))

instance transOrdRecordKey : Std.TransOrd RecordKey := inferInstance

abbrev RecordStore := BTreeMap RecordKey SyncRecord

def recordKey (record : SyncRecord) : RecordKey :=
  toLex (record.schema, toLex (record.entity, record.id))

structure InMemoryLogicalAdapter where
  id : String
  keyNamespace : String
  mergePolicies : BTreeMap String MergePolicy
  mergeCustom : CustomMerge

namespace InMemoryLogicalAdapter

variable (adapter : InMemoryLogicalAdapter)

def mergePolicy (field : String) : MergePolicy :=
  adapter.mergePolicies[field]?.getD .lastWriterWins

def loadRecords : List SyncRecord → State V → Except Error Unit × State V
  | [], state => (.ok (), state)
  | record :: rest, state =>
      match RecordState.apply adapter.keyNamespace state record with
      | .error error => (.error error, state)
      | .ok (_, state) => loadRecords rest state

def applyRecords (state : State V) (store : RecordStore) : Except Error Unit × RecordStore :=
  match RecordView.snapshot adapter.keyNamespace state with
  | .error error => (.error error, store)
  | .ok records =>
      (.ok (), records.foldl (fun store record => store.insert (recordKey record) record) ∅)

def logical [DecidableEq V] : LogicalAdapter V RecordStore where
  id := adapter.id
  keyNamespace := adapter.keyNamespace
  loadRecords state store :=
    let (result, state) := adapter.loadRecords (BTreeMap.valueList store) state
    (result, state, store)
  applyRecords := adapter.applyRecords
  applySnapshot records state :=
    applySnapshotWithPolicy adapter.keyNamespace adapter.mergePolicy adapter.mergeCustom
      records state

end InMemoryLogicalAdapter

end Logical

end LibreSync
