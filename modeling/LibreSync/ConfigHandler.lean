import LibreSync.Handler
import LibreSync.Sync

/-!
The command line tool's device handler behind a listener: which certificate each
linked device is pinned to, and what `LinkRequest` and `Hello` do to the pins and
to the state.
-/

namespace LibreSync

structure DeviceRecord where
  deviceId : String
  userId : String
  appId : String
  fingerprint : Option String
deriving DecidableEq

structure Config where
  devices : BTreeMap String DeviceRecord
  autoApprove : Bool
  autoApproveUntil : Option Nat
  pairingSecret : Option String
  appKey : Option AppKey

namespace Config

def isLinked (config : Config) (deviceId : String) : Bool := config.devices.contains deviceId

def pin (config : Config) (deviceId : String) : Option String :=
  config.devices[deviceId]?.bind DeviceRecord.fingerprint

def upsertDevice (config : Config) (identity : Identity) (fingerprint : Option String) : Config :=
  let entry := config.devices[identity.deviceId]?.getD
    { deviceId := identity.deviceId, userId := identity.userId, appId := identity.appId,
      fingerprint := none }
  let entry := { entry with
    userId := identity.userId
    appId := identity.appId
    fingerprint := fingerprint.or entry.fingerprint }
  { config with devices := config.devices.insert identity.deviceId entry }

/-- Whether links are approved automatically, and whether the deadline was found to be over. -/
def autoApproveState (config : Config) (now : Nat) : (Bool × Bool) × Config :=
  if ¬config.autoApprove then ((false, false), config)
  else if config.autoApproveUntil.any (now > ·) then
    ((false, true), { config with autoApprove := false, autoApproveUntil := none })
  else ((true, false), config)

def setAppKey (config : Config) (key : AppKey) : Config := { config with appKey := some key }

theorem autoApproveState_devices (config : Config) (now : Nat) :
    (config.autoApproveState now).2.devices = config.devices := by
  simp only [autoApproveState]
  split
  · rfl
  · split <;> rfl

theorem pin_upsertDevice (config : Config) (identity : Identity) (fingerprint : Option String)
    (deviceId : String) : (config.upsertDevice identity fingerprint).pin deviceId =
      if deviceId = identity.deviceId then fingerprint.or (config.pin deviceId)
      else config.pin deviceId := by
  simp only [pin, upsertDevice, BTreeMap.get_insert]
  split
  · rename_i same
    rw [same]
    cases config.devices[identity.deviceId]? <;> simp
  · rfl

end Config

/-- The clock, the user's answer and the outcome of the saves while a request is handled. -/
structure Moment where
  now : Nat
  answer : Bool
  savedLink : Except Error Unit
  savedKey : Except Error Unit

structure ConfigHandler where
  appId : String
  autoAccept : Bool

namespace ConfigHandler

variable (handler : ConfigHandler)

/-- No prompt is shown for a request handled now. -/
def automatic (config : Config) (now : Nat) : Bool :=
  handler.autoAccept || (config.autoApproveState now).1.1

def approveLinkWithFingerprint (moment : Moment) (config : Config) (identity : Identity)
    (fingerprint : String) : Except Error Bool × Config :=
  if identity.appId ≠ handler.appId then (.ok false, config)
  else
    let accepted := if handler.automatic config moment.now then true else moment.answer
    let config := (config.autoApproveState moment.now).2
    if ¬accepted then (.ok false, config)
    else
      let config := config.upsertDevice identity (if fingerprint = "" then none else some fingerprint)
      match moment.savedLink with
      | .error error => (.error error, config)
      | .ok () => (.ok true, config)

def isLinkedWithFingerprint (config : Config) (identity : Identity) (fingerprint : String) : Bool :=
  if fingerprint = "" then config.isLinked identity.deviceId
  else config.pin identity.deviceId = some fingerprint

def deviceHandler (moment : Moment) : DeviceHandler Config where
  appId _ := handler.appId
  isLinked config identity := config.isLinked identity.deviceId
  isLinkedWithFingerprint := isLinkedWithFingerprint
  approveLinkWithFingerprint := handler.approveLinkWithFingerprint moment
  appKey config := match config.appKey with
    | some key => .ok key
    | none => .error (.protocol "app key missing; re-run libresync init")
  setAppKey config key := (moment.savedKey, config.setAppKey key)
  pairingSecret := Config.pairingSecret

end ConfigHandler

structure Fingerprint where
  text : String
  sized : text.length = 64

theorem Fingerprint.nonempty (fingerprint : Fingerprint) : fingerprint.text ≠ "" := by
  intro empty
  have sized := fingerprint.sized
  simp [empty] at sized

/-- A connection whose `Hello` was accepted. -/
structure Greeted where
  identity : Identity
  fingerprint : Fingerprint
  /-- What link or prompt had pinned the device to when it said `Hello`. -/
  pinned : Option String

inductive Connection where
  | opened (held : AppKey) (fingerprint : Fingerprint)
  | greeted (peer : Greeted)
  | answered (peer : Greeted)

structure Listener (V σ : Type) where
  handler : ConfigHandler
  identity : Identity
  applier : InboundApplier V σ

structure ListenerWorld (V σ : Type) where
  config : Config
  device : Device V σ
  connections : Nat → Option Connection
  /-- The fingerprint each device had at its first link, or when the user last said yes to it. -/
  pinned : String → Option String

inductive ListenerEvent (V : Type) where
  | connect (id : Nat) (moment : Moment) (fingerprint : Fingerprint)
  | link (id : Nat) (moment : Moment) (request : LinkRequest)
  | hello (id : Nat) (moment : Moment) (identity : Identity)
  | snapshotRequest (id : Nat)
  | snapshot (id : Nat) (entries : List (Entry V))
  | snapshotSince (id : Nat) (cursor : PeerCursor)
  | delta (id : Nat) (delta : Delta V)
  | close (id : Nat)

namespace ListenerWorld

variable {V σ : Type} (listener : Listener V σ)

def start (config : Config) (device : Device V σ) : ListenerWorld V σ where
  config := config
  device := device
  connections _ := none
  pinned := config.pin

def setConnection (world : ListenerWorld V σ) (id : Nat) (connection : Option Connection) :
    ListenerWorld V σ :=
  { world with connections := Function.update world.connections id connection }

def Confirmed (world : ListenerWorld V σ) (moment : Moment) (request : LinkRequest) : Prop :=
  (∃ incoming, (listener.handler.deviceHandler moment).admits world.config request =
    .ok (some incoming)) ∧
  listener.handler.automatic world.config moment.now = false ∧ moment.answer = true

instance (world : ListenerWorld V σ) (moment : Moment) (request : LinkRequest) :
    Decidable (Confirmed listener world moment request) :=
  match admitted : (listener.handler.deviceHandler moment).admits world.config request with
  | .ok (some incoming) =>
      decidable_of_iff (listener.handler.automatic world.config moment.now = false ∧
        moment.answer = true) (by simp [Confirmed, admitted])
  | .ok none => isFalse (by simp [Confirmed, admitted])
  | .error _ => isFalse (by simp [Confirmed, admitted])

def repin (world : ListenerWorld V σ) (moment : Moment) (request : LinkRequest) (config : Config) :
    String → Option String :=
  let deviceId := request.identity.deviceId
  if Confirmed listener world moment request ∨ ¬world.config.isLinked deviceId then
    Function.update world.pinned deviceId (config.pin deviceId)
  else world.pinned

def step (world : ListenerWorld V σ) : ListenerEvent V → Option (ListenerWorld V σ)
  | .connect id moment fingerprint =>
      match world.connections id with
      | some _ => none
      | none =>
          match (listener.handler.deviceHandler moment).appKey world.config with
          | .error _ => some world
          | .ok held => some (world.setConnection id (some (.opened held fingerprint)))
  | .link id moment request =>
      match world.connections id with
      | some (.opened held fingerprint) =>
          let config := ((listener.handler.deviceHandler moment).handleLinkRequest world.config
            listener.identity held request fingerprint.text).2
          some { world.setConnection id none with
            config := config
            pinned := repin listener world moment request config }
      | _ => none
  | .hello id moment identity =>
      match world.connections id with
      | some (.opened _ fingerprint) =>
          let handler := listener.handler.deviceHandler moment
          if handler.allowLegacyLink world.config ∧ identity.matchesApp (handler.appId world.config) ∧
              handler.isLinkedWithFingerprint world.config identity fingerprint.text then
            let pinned := world.pinned identity.deviceId
            some (world.setConnection id (some (.greeted { identity, fingerprint, pinned })))
          else some (world.setConnection id none)
      | _ => none
  | .snapshotRequest id =>
      match world.connections id with
      | some (.greeted _) =>
          some { world.setConnection id none with
            device := (world.device.load listener.applier).2 }
      | _ => none
  | .snapshot id entries =>
      match world.connections id with
      | some (.greeted peer) =>
          let merged := world.device.state.withInboundOrigin peer.identity.deviceId
            (listener.applier.applyInbound entries)
          let device : Device V σ := { world.device with state := merged.2 }
          some { world.setConnection id none with
            device := match merged.1 with
              | .error _ => device
              | .ok _ => (device.writeBack listener.applier).2 }
      | _ => none
  | .snapshotSince id cursor =>
      match world.connections id with
      | some (.greeted peer) =>
          match world.device.answer listener.applier peer.identity.deviceId cursor with
          | (.error _, device) => some { world.setConnection id none with device := device }
          | (.ok _, device) =>
              some { world.setConnection id (some (.answered peer)) with device := device }
      | _ => none
  | .delta id delta =>
      match world.connections id with
      | some (.answered peer) =>
          some { world.setConnection id none with
            device := (world.device.mergeAsListener listener.applier peer.identity.deviceId delta).2 }
      | _ => none
  | .close id =>
      match world.connections id with
      | some _ => some (world.setConnection id none)
      | none => none

/-- The fingerprint of a device that is linked before the step is the same after it, unless the
user said yes to a prompt in this step. -/
def KeepsPins (world : ListenerWorld V σ) (event : ListenerEvent V) (after : ListenerWorld V σ) :
    Prop :=
  (∀ deviceId, world.config.isLinked deviceId = true →
    after.config.pin deviceId = world.config.pin deviceId) ∨
  ∃ id moment request, event = .link id moment request ∧ Confirmed listener world moment request

def merging (world : ListenerWorld V σ) : ListenerEvent V → Option Greeted
  | .snapshot id _ => match world.connections id with
      | some (.greeted peer) => some peer
      | _ => none
  | .delta id _ => match world.connections id with
      | some (.answered peer) => some peer
      | _ => none
  | _ => none

/-- A request that is approved without a prompt for a linked device comes under its pin. -/
def Unforced (world : ListenerWorld V σ) : ListenerEvent V → Prop
  | .link id moment request => ∀ held fingerprint incoming,
      world.connections id = some (.opened held fingerprint) →
      (listener.handler.deviceHandler moment).admits world.config request = .ok (some incoming) →
      listener.handler.automatic world.config moment.now = true →
      world.config.isLinked request.identity.deviceId = true →
      world.config.pin request.identity.deviceId = some fingerprint.text
  | _ => True

def Approved (world : ListenerWorld V σ) (moment : Moment) (request : LinkRequest) : Prop :=
  (∃ incoming, (listener.handler.deviceHandler moment).admits world.config request =
    .ok (some incoming)) ∧
  (listener.handler.automatic world.config moment.now = true ∨ moment.answer = true)

variable {listener} {world : ListenerWorld V σ}

theorem Confirmed.approved {moment : Moment} {request : LinkRequest}
    (confirmed : Confirmed listener world moment request) :
    Approved listener world moment request :=
  ⟨confirmed.1, Or.inr confirmed.2.2⟩

theorem Approved.confirmed {moment : Moment} {request : LinkRequest}
    (approved : Approved listener world moment request)
    (prompts : listener.handler.automatic world.config moment.now = false) :
    Confirmed listener world moment request :=
  ⟨approved.1, prompts, approved.2.resolve_left (by simp [prompts])⟩

theorem pin_congr {config other : Config} (devices : config.devices = other.devices) :
    config.pin = other.pin := by
  funext deviceId
  simp [Config.pin, devices]

theorem approve_pin (handler : ConfigHandler) (moment : Moment) (config : Config)
    (identity : Identity) (fingerprint : Fingerprint) :
    (handler.approveLinkWithFingerprint moment config identity fingerprint.text).2.pin =
      if identity.appId = handler.appId ∧ (handler.automatic config moment.now = true ∨
          moment.answer = true) then
        Function.update config.pin identity.deviceId (some fingerprint.text)
      else config.pin := by
  have expired : (config.autoApproveState moment.now).2.pin = config.pin :=
    pin_congr (config.autoApproveState_devices moment.now)
  have pinned : ((config.autoApproveState moment.now).2.upsertDevice identity
      (some fingerprint.text)).pin =
      Function.update config.pin identity.deviceId (some fingerprint.text) := by
    funext deviceId
    rw [Config.pin_upsertDevice, expired, Function.update_apply]
    split
    · rfl
    · rfl
  simp only [ConfigHandler.approveLinkWithFingerprint, fingerprint.nonempty, if_false]
  by_cases app : identity.appId = handler.appId
  · by_cases accepted : handler.automatic config moment.now = true ∨ moment.answer = true
    · have yes : (if handler.automatic config moment.now = true then true else moment.answer) =
          true := by
        rcases accepted with automatic | answer
        · rw [if_pos automatic]
        · rw [answer, ite_self]
      rw [if_neg (not_not.mpr app), yes, if_neg (by simp), if_pos ⟨app, accepted⟩, ← pinned]
      cases moment.savedLink <;> rfl
    · have no : (if handler.automatic config moment.now = true then true else moment.answer) =
          false := by
        rw [not_or, Bool.not_eq_true, Bool.not_eq_true] at accepted
        rw [if_neg (by simp [accepted.1]), accepted.2]
      rw [if_neg (not_not.mpr app), no, if_pos (by simp), if_neg fun both => accepted both.2]
      exact expired
  · rw [if_pos app, if_neg fun both => app both.1]

theorem adopt_pin (moment : Moment) (config : Config) (held incoming : AppKey)
    (handler : ConfigHandler) :
    ((handler.deviceHandler moment).adopt config held incoming).2.pin = config.pin := by
  simp only [DeviceHandler.adopt]
  split
  · exact pin_congr rfl
  · rfl

variable (listener world) in
theorem handleLinkRequest_pin (moment : Moment) (request : LinkRequest) (held : AppKey)
    (fingerprint : Fingerprint) [Decidable (Approved listener world moment request)] :
    ((listener.handler.deviceHandler moment).handleLinkRequest world.config listener.identity held
      request fingerprint.text).2.pin =
      if Approved listener world moment request then
        Function.update world.config.pin request.identity.deviceId (some fingerprint.text)
      else world.config.pin := by
  have approval := approve_pin listener.handler moment world.config request.identity fingerprint
  simp only [DeviceHandler.handleLinkRequest]
  split
  · rename_i error refused
    rw [if_neg]
    rintro ⟨⟨incoming, admitted⟩, _⟩
    simp [refused] at admitted
  · rename_i refused
    rw [if_neg]
    rintro ⟨⟨incoming, admitted⟩, _⟩
    simp [refused] at admitted
  · rename_i incoming admitted
    have app : request.identity.appId = listener.handler.appId :=
      ((listener.handler.deviceHandler moment).admits_some world.config admitted).2.2.1
    have same : (if request.identity.appId = listener.handler.appId ∧
        (listener.handler.automatic world.config moment.now = true ∨ moment.answer = true) then
          Function.update world.config.pin request.identity.deviceId (some fingerprint.text)
        else world.config.pin) =
        if Approved listener world moment request then
          Function.update world.config.pin request.identity.deviceId (some fingerprint.text)
        else world.config.pin :=
      ite_congr (propext ⟨fun both => ⟨⟨incoming, admitted⟩, both.2⟩, fun both => ⟨app, both.2⟩⟩)
        (fun _ => rfl) (fun _ => rfl)
    rw [← same, ← approval]
    have shown : (listener.handler.deviceHandler moment).approveLinkWithFingerprint world.config
        request.identity fingerprint.text = listener.handler.approveLinkWithFingerprint moment
          world.config request.identity fingerprint.text := rfl
    rw [shown]
    rcases listener.handler.approveLinkWithFingerprint moment world.config request.identity
      fingerprint.text with ⟨error | accepted, config⟩
    · rfl
    · cases accepted with
      | false => rfl
      | true =>
          have adopted := adopt_pin moment config held incoming listener.handler
          dsimp only
          rw [← adopted]
          rcases (listener.handler.deviceHandler moment).adopt config held incoming with
            ⟨error | _, config⟩ <;> rfl

/-- The ghost pins are the stored ones, and no connection was greeted under another pin. -/
structure Pinned (world : ListenerWorld V σ) : Prop where
  pins : world.pinned = world.config.pin
  peers : ∀ id peer, world.connections id = some (.greeted peer) ∨
    world.connections id = some (.answered peer) → peer.pinned = some peer.fingerprint.text

theorem Pinned.setConnection (valid : Pinned world) (id : Nat) {connection : Option Connection}
    (peers : ∀ peer, connection = some (.greeted peer) ∨ connection = some (.answered peer) →
      peer.pinned = some peer.fingerprint.text) : Pinned (world.setConnection id connection) := by
  refine ⟨valid.pins, ?_⟩
  intro other peer present
  by_cases here : other = id
  · subst here
    simp only [ListenerWorld.setConnection, Function.update_self] at present
    exact peers peer present
  · simp only [ListenerWorld.setConnection, Function.update_of_ne here] at present
    exact valid.peers other peer present

theorem Pinned.setDevice (valid : Pinned world) (device : Device V σ) :
    Pinned { world with device := device } :=
  ⟨valid.pins, valid.peers⟩

theorem Pinned.link (valid : Pinned world) {id : Nat} {moment : Moment} {request : LinkRequest}
    {held : AppKey} {fingerprint : Fingerprint}
    (opened : world.connections id = some (.opened held fingerprint))
    (unforced : Unforced listener world (.link id moment request)) {config : Config}
    (handled : ((listener.handler.deviceHandler moment).handleLinkRequest world.config
      listener.identity held request fingerprint.text).2 = config) :
    repin listener world moment request config = config.pin := by
  have := Classical.dec (Approved listener world moment request)
  have pin := handleLinkRequest_pin listener world moment request held
    fingerprint
  rw [handled] at pin
  simp only [repin, valid.pins]
  by_cases approved : Approved listener world moment request
  · rw [if_pos approved] at pin
    split
    · rw [pin, Function.update_self]
    · rename_i silent
      simp only [not_or, not_not] at silent
      have automatic : listener.handler.automatic world.config moment.now = true := by
        by_contra prompts
        exact silent.1 (approved.confirmed (by simpa using prompts))
      obtain ⟨incoming, admitted⟩ := approved.1
      rw [pin, ← unforced held fingerprint incoming opened admitted automatic silent.2,
        Function.update_eq_self]
  · rw [if_neg approved] at pin
    rw [pin, Function.update_eq_self, ite_self]

theorem Pinned.step (valid : Pinned world) {event : ListenerEvent V}
    (unforced : Unforced listener world event) {after : ListenerWorld V σ}
    (stepped : world.step listener event = some after) : Pinned after := by
  cases event with
  | connect id moment fingerprint =>
      simp only [ListenerWorld.step] at stepped
      split at stepped
      · simp at stepped
      · split at stepped
        · exact Option.some.inj stepped ▸ valid
        · exact Option.some.inj stepped ▸ valid.setConnection id (by simp)
  | link id moment request =>
      simp only [ListenerWorld.step] at stepped
      split at stepped
      · rename_i held fingerprint opened
        have closed : Pinned (world.setConnection id none) := valid.setConnection id (by simp)
        rw [← Option.some.inj stepped]
        exact ⟨valid.link opened unforced rfl, closed.peers⟩
      · simp at stepped
  | hello id moment identity =>
      simp only [ListenerWorld.step] at stepped
      split at stepped
      · rename_i held fingerprint opened
        split at stepped
        · rename_i checks
          rw [← Option.some.inj stepped]
          refine valid.setConnection id ?_
          intro peer greeted
          obtain rfl : (⟨identity, fingerprint, world.pinned identity.deviceId⟩ : Greeted) = peer := by
            simpa using greeted
          have linked : ConfigHandler.isLinkedWithFingerprint world.config identity
              fingerprint.text = true := checks.2.2
          simp only [ConfigHandler.isLinkedWithFingerprint, fingerprint.nonempty, if_false,
            decide_eq_true_eq] at linked
          rw [valid.pins, linked]
        · exact Option.some.inj stepped ▸ valid.setConnection id (by simp)
      · simp at stepped
  | snapshotRequest id =>
      simp only [ListenerWorld.step] at stepped
      split at stepped
      · rw [← Option.some.inj stepped]
        exact (valid.setConnection id (by simp)).setDevice _
      · simp at stepped
  | snapshot id entries =>
      simp only [ListenerWorld.step] at stepped
      split at stepped
      · rw [← Option.some.inj stepped]
        exact (valid.setConnection id (by simp)).setDevice _
      · simp at stepped
  | snapshotSince id cursor =>
      simp only [ListenerWorld.step] at stepped
      split at stepped
      · rename_i peer greeted
        split at stepped
        · rw [← Option.some.inj stepped]
          exact (valid.setConnection id (by simp)).setDevice _
        · rw [← Option.some.inj stepped]
          refine (valid.setConnection id ?_).setDevice _
          intro other same
          obtain rfl : peer = other := by simpa using same
          exact valid.peers id peer (Or.inl greeted)
      · simp at stepped
  | delta id delta =>
      simp only [ListenerWorld.step] at stepped
      split at stepped
      · rw [← Option.some.inj stepped]
        exact (valid.setConnection id (by simp)).setDevice _
      · simp at stepped
  | close id =>
      simp only [ListenerWorld.step] at stepped
      split at stepped
      · exact Option.some.inj stepped ▸ valid.setConnection id (by simp)
      · simp at stepped

theorem step_pin {event : ListenerEvent V} {after : ListenerWorld V σ}
    (stepped : world.step listener event = some after)
    (other : ∀ id moment request, event ≠ .link id moment request) :
    after.config = world.config := by
  cases event with
  | link id moment request => exact absurd rfl (other id moment request)
  | connect id moment fingerprint =>
      simp only [ListenerWorld.step] at stepped
      split at stepped
      · simp at stepped
      · split at stepped <;> exact Option.some.inj stepped ▸ rfl
  | hello id moment identity =>
      simp only [ListenerWorld.step] at stepped
      split at stepped
      · split at stepped <;> exact Option.some.inj stepped ▸ rfl
      · simp at stepped
  | snapshotSince id cursor =>
      simp only [ListenerWorld.step] at stepped
      split at stepped
      · split at stepped <;> exact Option.some.inj stepped ▸ rfl
      · simp at stepped
  | snapshotRequest id | snapshot id entries | delta id delta | close id =>
      simp only [ListenerWorld.step] at stepped
      split at stepped
      · exact Option.some.inj stepped ▸ rfl
      · simp at stepped

/-- A step keeps the pins exactly if it does not approve another certificate on its own. -/
theorem keepsPins_iff {event : ListenerEvent V} {after : ListenerWorld V σ}
    (stepped : world.step listener event = some after) :
    KeepsPins listener world event after ↔ Unforced listener world event := by
  by_cases link : ∃ id moment request, event = .link id moment request
  · obtain ⟨id, moment, request, rfl⟩ := link
    simp only [ListenerWorld.step] at stepped
    split at stepped
    · rename_i held fingerprint opened
      have := Classical.dec (Approved listener world moment request)
      have pin := handleLinkRequest_pin listener world moment request held
        fingerprint
      have config : after.config = ((listener.handler.deviceHandler moment).handleLinkRequest
        world.config listener.identity held request fingerprint.text).2 := by
        rw [← Option.some.inj stepped]
      rw [← config] at pin
      constructor
      · rintro (kept | ⟨_, _, _, same, confirmed⟩)
        · intro held' fingerprint' incoming opened' admitted automatic linked
          obtain ⟨rfl, rfl⟩ : held = held' ∧ fingerprint = fingerprint' := by
            simpa using opened.symm.trans opened'
          have approved : Approved listener world moment request :=
            ⟨⟨incoming, admitted⟩, Or.inl automatic⟩
          rw [if_pos approved] at pin
          rw [← kept _ linked, pin, Function.update_self]
        · intro held' fingerprint' incoming opened' admitted automatic linked
          obtain ⟨rfl, rfl, rfl⟩ : _ ∧ _ ∧ _ := by simpa using same
          simp [confirmed.2.1] at automatic
      · intro unforced
        by_cases approved : Approved listener world moment request
        · rw [if_pos approved] at pin
          by_cases confirmed : Confirmed listener world moment request
          · exact Or.inr ⟨id, moment, request, rfl, confirmed⟩
          · left
            intro deviceId linked
            rw [pin, Function.update_apply]
            split
            · rename_i same
              subst same
              have automatic : listener.handler.automatic world.config moment.now = true := by
                by_contra prompts
                exact confirmed (approved.confirmed (by simpa using prompts))
              obtain ⟨incoming, admitted⟩ := approved.1
              exact (unforced held fingerprint incoming opened admitted automatic linked).symm
            · rfl
        · rw [if_neg approved] at pin
          exact Or.inl fun deviceId _ => congrFun pin deviceId
    · simp at stepped
  · simp only [not_exists] at link
    refine iff_of_true (Or.inl fun deviceId _ => ?_) ?_
    · rw [step_pin stepped link]
    · cases event with
      | link id moment request => exact absurd rfl (link id moment request)
      | _ => trivial

/-- In a run without such approvals every pin changes by a prompt only, and entries are merged
only on connections that came under the certificate pinned by link or prompt. -/
theorem pins_kept {config : Config} {device : Device V σ}
    (reached : Transition.Reaches (ListenerWorld.step listener) (Unforced listener)
      (start config device) world) {event : ListenerEvent V} {after : ListenerWorld V σ}
    (stepped : world.step listener event = some after) :
    (KeepsPins listener world event after ↔ Unforced listener world event) ∧
      ∀ peer, merging world event = some peer → peer.pinned = some peer.fingerprint.text := by
  have initial : Pinned (start config device : ListenerWorld V σ) :=
    ⟨rfl, fun id peer present => by simp [start] at present⟩
  have valid := reached.invariant (motive := Pinned) initial
    fun state event after holds unforced stepped => holds.step unforced stepped
  refine ⟨keepsPins_iff stepped, fun peer merges => ?_⟩
  cases event with
  | snapshot id entries =>
      simp only [merging] at merges
      split at merges
      · rename_i other greeted
        exact Option.some.inj merges ▸ valid.peers id other (Or.inl greeted)
      · simp at merges
  | delta id delta =>
      simp only [merging] at merges
      split at merges
      · rename_i other answered
        exact Option.some.inj merges ▸ valid.peers id other (Or.inr answered)
      · simp at merges
  | connect | link | hello | snapshotRequest | snapshotSince | close => simp [merging] at merges

section Forced

def phone : Identity where
  deviceId := "phone"
  appId := "app"
  userId := "user"

def fingerprintOf (digit : Char) : Fingerprint where
  text := String.ofList (List.replicate 64 digit)
  sized := by simp

def autoAccepting : Listener Nat Unit where
  handler := { appId := "app", autoAccept := true }
  identity := { deviceId := "laptop", appId := "app", userId := "user" }
  applier := lwwApplier

def linkedConfig : Config where
  devices := (∅ : BTreeMap String DeviceRecord).insert "phone" {
    deviceId := "phone", userId := "user", appId := "app"
    fingerprint := some (fingerprintOf 'a').text }
  autoApprove := false
  autoApproveUntil := none
  pairingSecret := none
  appKey := some { bytes := List.replicate 32 0, sized := List.length_replicate }

def laptop : Device Nat Unit where
  state := State.new "laptop" "first"
  store := ()

def quiet : Moment where
  now := 0
  answer := false
  savedLink := .ok ()
  savedKey := .ok ()

def phoneRequest : LinkRequest where
  identity := phone
  appKey := some (List.replicate 32 1)
  pairingSecret := none

def relink (fingerprint : Fingerprint) : List (ListenerEvent Nat) :=
  [.connect 0 quiet fingerprint, .link 0 quiet phoneRequest]

def phoneNote : Entry Nat where
  key := "note"
  value := 7
  clock := { counter := 1, deviceId := "phone" }

def greetedAgain : List (ListenerEvent Nat) :=
  relink (fingerprintOf 'a') ++ [.connect 1 quiet (fingerprintOf 'a'), .hello 1 quiet phone]

theorem greetedAgain_runs : (Transition.run (ListenerWorld.step autoAccepting)
    (start linkedConfig laptop) greetedAgain).isSome = true := by
  decide +kernel

def greetedLaptop : ListenerWorld Nat Unit :=
  (Transition.run (ListenerWorld.step autoAccepting) (start linkedConfig laptop) greetedAgain).get
    greetedAgain_runs

theorem relink_unforced {world : ListenerWorld Nat Unit} (stepped : (start linkedConfig laptop).step
    autoAccepting (.connect 0 quiet (fingerprintOf 'a')) = some world) :
    Unforced autoAccepting world (.link 0 quiet phoneRequest) := by
  intro held fingerprint incoming opened _ _ _
  have config : world.config = linkedConfig := step_pin stepped (by simp)
  have present : world.connections 0 = some (.opened
      { bytes := List.replicate 32 0, sized := List.length_replicate } (fingerprintOf 'a')) := by
    rw [← Option.some.inj stepped]
    rfl
  obtain ⟨-, rfl⟩ : _ ∧ fingerprintOf 'a' = fingerprint := by
    simpa using present.symm.trans opened
  rw [config]
  decide +kernel

theorem greetedLaptop_reached : Transition.Reaches (ListenerWorld.step autoAccepting)
    (Unforced autoAccepting) (start linkedConfig laptop) greetedLaptop := by
  refine Transition.reaches_along (Option.some_get greetedAgain_runs).symm ?_
  intro opened connected
  exact ⟨trivial, fun _ _ => ⟨relink_unforced connected,
    fun _ _ => ⟨trivial, fun _ _ => ⟨trivial, trivial⟩⟩⟩⟩

theorem pins_kept_relink : ∃ after peer,
    greetedLaptop.step autoAccepting (.snapshot 1 [phoneNote]) = some after ∧
    merging greetedLaptop (.snapshot 1 [phoneNote]) = some peer ∧
    after.device.state.get "note" = some 7 ∧
    KeepsPins autoAccepting greetedLaptop (.snapshot 1 [phoneNote]) after ∧
    peer.pinned = some peer.fingerprint.text := by
  obtain ⟨after, stepped, merged⟩ : ∃ after,
      greetedLaptop.step autoAccepting (.snapshot 1 [phoneNote]) = some after ∧
        after.device.state.get "note" = some 7 := ⟨_, rfl, by decide +kernel⟩
  obtain ⟨peer, merges⟩ : ∃ peer, merging greetedLaptop (.snapshot 1 [phoneNote]) = some peer :=
    ⟨_, rfl⟩
  obtain ⟨kept, pinned⟩ := pins_kept greetedLaptop_reached stepped
  exact ⟨after, peer, stepped, merges, merged, kept.mpr trivial, pinned peer merges⟩

/-- Another certificate takes over the phone's pin and then merges an entry. -/
theorem autoAccept_replaces_pin :
    linkedConfig.pin "phone" = some (fingerprintOf 'a').text ∧
    ((Transition.run (ListenerWorld.step autoAccepting) (start linkedConfig laptop)
      (relink (fingerprintOf 'b'))).map fun world => world.config.pin "phone") =
      some (some (fingerprintOf 'b').text) ∧
    quiet.answer = false ∧
    ((Transition.run (ListenerWorld.step autoAccepting) (start linkedConfig laptop)
      (relink (fingerprintOf 'b') ++ [.connect 1 quiet (fingerprintOf 'b'), .hello 1 quiet phone,
        .snapshot 1 [phoneNote]])).map fun world => world.device.state.get "note") = some (some 7) := by
  refine ⟨by decide +kernel, by decide +kernel, rfl, by decide +kernel⟩

end Forced

end ListenerWorld

end LibreSync
