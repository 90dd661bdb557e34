import LibreSync.Entry

/-!
Local key/value sync state: versions ordered by Lamport clock, a local apply
sequence per key from which deltas are computed, and per peer the cursor into
that peer's own sequence.
-/

namespace LibreSync

structure PeerCursor where
  epoch : String
  clock : Nat
deriving DecidableEq, Repr

/-- `PeerCursor::default()`, the cursor of a peer that was never synced. -/
instance : Inhabited PeerCursor := ⟨{ epoch := "", clock := 0 }⟩

structure State (V : Type) where
  deviceId : String
  counter : Nat
  entries : BTreeMap String (Entry V)
  sequence : Nat
  sequences : BTreeMap String Nat
  origins : BTreeMap String String
  peerCursors : BTreeMap String PeerCursor
  epoch : String
  inboundOrigin : Option String

namespace State

variable {V : Type}

/-- The random epoch is an argument. -/
def new (deviceId epoch : String) : State V where
  deviceId := deviceId
  counter := 0
  entries := ∅
  sequence := 1
  sequences := ∅
  origins := ∅
  peerCursors := ∅
  epoch := epoch
  inboundOrigin := none

def recordWrite (state : State V) (key : String) (origin : Option String) : State V :=
  let sequence := saturatingSucc state.sequence
  { state with
    sequence := sequence
    sequences := state.sequences.insert key sequence
    origins := match origin with
      | some origin => state.origins.insert key origin
      | none => state.origins.erase key }

def insertEntry (state : State V) (entry : Entry V) (origin : Option String) : State V :=
  { state with entries := state.entries.insert entry.key entry }.recordWrite entry.key origin

def set (state : State V) (key : String) (value : V) : Entry V × State V :=
  let state := { state with counter := saturatingSucc state.counter }
  let entry : Entry V :=
    { key := key, value := value, clock := { counter := state.counter, deviceId := state.deviceId } }
  (entry, state.insertEntry entry none)

def nextClock (state : State V) : LamportClock :=
  { counter := saturatingSucc state.counter, deviceId := state.deviceId }

def get (state : State V) (key : String) : Option V :=
  state.entries[key]?.map Entry.value

def remove (state : State V) (key : String) : Option (Entry V) × State V :=
  (state.entries[key]?,
    { state with
      sequences := state.sequences.erase key
      origins := state.origins.erase key
      entries := state.entries.erase key })

def raiseCounter (state : State V) (clock : LamportClock) : State V :=
  if state.counter < clock.counter then { state with counter := clock.counter } else state

def applyEntry (state : State V) (entry : Entry V) : Bool × State V :=
  let state := state.raiseCounter entry.clock
  match state.entries[entry.key]? with
  | some existing =>
      if entry.clock ≤ existing.clock then (false, state)
      else (true, state.insertEntry entry state.inboundOrigin)
  | none => (true, state.insertEntry entry state.inboundOrigin)

def upsertEntry [DecidableEq V] (state : State V) (entry : Entry V) : Bool × State V :=
  let state := state.raiseCounter entry.clock
  if state.entries[entry.key]? = some entry then (false, state)
  else (true, state.insertEntry entry state.inboundOrigin)

def mergeSnapshot (state : State V) (entries : List (Entry V)) : Nat × State V :=
  entries.foldl (fun merged entry =>
    match merged.2.applyEntry entry with
    | (true, state) => (merged.1 + 1, state)
    | (false, state) => (merged.1, state)) (0, state)

def snapshot (state : State V) : List (Entry V) :=
  BTreeMap.valueList state.entries

def withInboundOrigin {α : Type} (state : State V) (origin : String)
    (apply : State V → α × State V) : α × State V :=
  let previous := state.inboundOrigin
  let (result, state) := apply { state with inboundOrigin := some origin }
  (result, { state with inboundOrigin := previous })

def isFullSnapshotRequest (state : State V) (since : Nat) : Bool :=
  since = 0 || since > state.sequence

def inDelta (state : State V) (since : Nat) (excludeOrigin : Option String) (key : String) : Bool :=
  state.sequences[key]?.getD u64Max > since &&
    match excludeOrigin with
    | some origin => state.origins[key]? ≠ some origin
    | none => true

def deltaSince (state : State V) (since : Nat) (excludeOrigin : Option String) : List (Entry V) :=
  if state.isFullSnapshotRequest since then state.snapshot
  else (state.entries.toList.filter fun item => state.inDelta since excludeOrigin item.1).map Prod.snd

def peerCursor (state : State V) (deviceId : String) : PeerCursor :=
  state.peerCursors[deviceId]?.getD default

def setPeerCursor (state : State V) (deviceId : String) (cursor : PeerCursor) : State V :=
  { state with peerCursors := state.peerCursors.insert deviceId cursor }

def resolveCursor (state : State V) (cursor : PeerCursor) : Nat :=
  if cursor.epoch = state.epoch then cursor.clock else 0

def currentCursor (state : State V) : PeerCursor :=
  { epoch := state.epoch, clock := state.sequence }

end State

end LibreSync
