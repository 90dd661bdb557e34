import LibreSync.Adapter
import LibreSync.Lib.Transition

/-!
The version 2 exchange. The client presents the cursor it holds into the
listener's history, the listener answers with a delta, the client merges it and
sends back its own delta, computed before the merge; the listener merges that
and acknowledges it. Any number of exchanges run at once between any devices,
each cut at any point.
-/

namespace LibreSync

structure Device (V σ : Type) where
  state : State V
  store : σ

structure Delta (V : Type) where
  entries : List (Entry V)
  cursor : PeerCursor
  acked : PeerCursor
  full : Bool

section Protocol

variable {V σ : Type}

/-- What a peer that presents `cursor` is sent, and whether that is the full snapshot. -/
def State.outbound (state : State V) (cursor : PeerCursor) (remoteId : String) :
    List (Entry V) × Bool :=
  let since := state.resolveCursor cursor
  let full := state.isFullSnapshotRequest since
  (if full then state.snapshot else state.deltaSince since (some remoteId), full)

variable (applier : InboundApplier V σ)

def Device.load (device : Device V σ) : Except Error Unit × Device V σ :=
  let (result, state, store) := applier.beforeExport device.state device.store
  (result, { state, store })

def Device.writeBack (device : Device V σ) : Except Error Unit × Device V σ :=
  let (result, store) := applier.afterApply device.state device.store
  (result, { device with store })

def Device.answer (device : Device V σ) (remoteId : String) (cursor : PeerCursor) :
    Except Error (Delta V) × Device V σ :=
  match device.load applier with
  | (.error error, device) => (.error error, device)
  | (.ok (), device) =>
      let (entries, full) := device.state.outbound cursor remoteId
      (.ok {
        entries
        cursor := device.state.currentCursor
        acked := device.state.peerCursor remoteId
        full }, device)

/-- Merges inbound entries and records how far the peer's history has been received. -/
def Device.receive (device : Device V σ) (remoteId : String) (entries : List (Entry V))
    (cursor : PeerCursor) : Except Error Nat × Device V σ :=
  match device.state.withInboundOrigin remoteId (applier.applyInbound entries) with
  | (.error error, state) => (.error error, { device with state })
  | (.ok applied, state) =>
      (.ok applied, { device with state := state.setPeerCursor remoteId cursor })

/-- `run_sync_inner` from the listener's delta to its own. -/
def Device.mergeAsClient (device : Device V σ) (remoteId : String) (delta : Delta V) :
    Except Error (Delta V) × Device V σ :=
  let (outbound, full) := device.state.outbound delta.acked remoteId
  let localCursor := device.state.currentCursor
  match device.receive applier remoteId delta.entries delta.cursor with
  | (.error error, device) => (.error error, device)
  | (.ok _, device) =>
      (.ok {
        entries := outbound
        cursor := localCursor
        acked := device.state.peerCursor remoteId
        full }, device)

/-- `handle_connection` from the client's delta to the acknowledgement. -/
def Device.mergeAsListener (device : Device V σ) (remoteId : String) (delta : Delta V) :
    Except Error Unit × Device V σ :=
  match device.receive applier remoteId delta.entries delta.cursor with
  | (.error error, device) => (.error error, device)
  | (.ok _, device) => device.writeBack applier

end Protocol

/-- What an exchange waits for. -/
inductive Phase (V : Type) where
  | requested (cursor : PeerCursor)
  | answered (delta : Delta V)
  | merged (delta : Delta V)

/-- An exchange in progress. The epochs say which incarnation of each device takes part. -/
structure Session (V : Type) where
  client : String
  listener : String
  clientEpoch : String
  listenerEpoch : String
  phase : Phase V

structure World (V σ : Type) where
  devices : String → Device V σ
  sessions : Nat → Option (Session V)
  /-- The epochs each device has had. -/
  epochs : String → List String

inductive ExchangeEvent where
  | connect (id : Nat) (client listener : String)
  | answer (id : Nat)
  | mergeAsClient (id : Nat)
  | mergeAsListener (id : Nat)
  | cut (id : Nat)
  | load (device : String)
  | writeBack (device : String)
deriving DecidableEq

def ExchangeEvent.exchangeId : ExchangeEvent → Option Nat
  | .connect id _ _ => some id
  | .answer id => some id
  | .mergeAsClient id => some id
  | .mergeAsListener id => some id
  | .cut id => some id
  | .load _ => none
  | .writeBack _ => none

def ExchangeEvent.Spares (device : String) : ExchangeEvent → Prop
  | .connect _ client listener => client ≠ device ∧ listener ≠ device
  | .load name => name ≠ device
  | .writeBack name => name ≠ device
  | _ => True

namespace World

variable {V σ : Type}

def start (epochs : String → String) (stores : String → σ) : World V σ where
  devices device := { state := State.new device (epochs device), store := stores device }
  sessions _ := none
  epochs device := [epochs device]

abbrev state (world : World V σ) (device : String) : State V :=
  (world.devices device).state

def setDevice (world : World V σ) (name : String) (device : Device V σ) : World V σ :=
  { world with devices := Function.update world.devices name device }

def setSession (world : World V σ) (id : Nat) (session : Option (Session V)) : World V σ :=
  { world with sessions := Function.update world.sessions id session }

def clientAlive (world : World V σ) (session : Session V) : Prop :=
  (world.state session.client).epoch = session.clientEpoch

def listenerAlive (world : World V σ) (session : Session V) : Prop :=
  (world.state session.listener).epoch = session.listenerEpoch

instance (world : World V σ) (session : Session V) : Decidable (world.clientAlive session) :=
  inferInstanceAs (Decidable (_ = _))

instance (world : World V σ) (session : Session V) : Decidable (world.listenerAlive session) :=
  inferInstanceAs (Decidable (_ = _))

variable (applier : InboundApplier V σ)

def connect (world : World V σ) (id : Nat) (client listener : String) : World V σ :=
  world.setSession id (some {
    client
    listener
    clientEpoch := (world.state client).epoch
    listenerEpoch := (world.state listener).epoch
    phase := .requested ((world.state client).peerCursor listener) })

/-- An error ends the exchange; the device keeps what it had done. -/
def answer (world : World V σ) (id : Nat) (session : Session V) (cursor : PeerCursor) :
    World V σ :=
  match (world.devices session.listener).answer applier session.client cursor with
  | (.ok delta, device) =>
      (world.setDevice session.listener device).setSession id
        (some { session with phase := .answered delta })
  | (.error _, device) => (world.setDevice session.listener device).setSession id none

def mergeAsClient (world : World V σ) (id : Nat) (session : Session V) (delta : Delta V) :
    World V σ :=
  match (world.devices session.client).mergeAsClient applier session.listener delta with
  | (.ok outbound, device) =>
      (world.setDevice session.client device).setSession id
        (some { session with phase := .merged outbound })
  | (.error _, device) => (world.setDevice session.client device).setSession id none

def mergeAsListener (world : World V σ) (id : Nat) (session : Session V) (delta : Delta V) :
    World V σ :=
  (world.setDevice session.listener
    ((world.devices session.listener).mergeAsListener applier session.client delta).2).setSession
      id none

def exchange (world : World V σ) : ExchangeEvent → Option (World V σ)
  | .connect id client listener =>
      if (world.sessions id).isNone ∧ client ≠ listener then
        some (world.connect id client listener)
      else none
  | .answer id =>
      match world.sessions id with
      | some session =>
          match session.phase with
          | .requested cursor =>
              if world.listenerAlive session then some (world.answer applier id session cursor)
              else none
          | _ => none
      | none => none
  | .mergeAsClient id =>
      match world.sessions id with
      | some session =>
          match session.phase with
          | .answered delta =>
              if world.clientAlive session then some (world.mergeAsClient applier id session delta)
              else none
          | _ => none
      | none => none
  | .mergeAsListener id =>
      match world.sessions id with
      | some session =>
          match session.phase with
          | .merged delta =>
              if world.listenerAlive session then
                some (world.mergeAsListener applier id session delta)
              else none
          | _ => none
      | none => none
  | .cut id => some (world.setSession id none)
  | .load device => some (world.setDevice device ((world.devices device).load applier).2)
  | .writeBack device =>
      some (world.setDevice device ((world.devices device).writeBack applier).2)

end World

end LibreSync
