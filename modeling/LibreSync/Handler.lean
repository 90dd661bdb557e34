import LibreSync.Base

/-! The device handler that an application supplies, and how a listener answers `LinkRequest`. -/

namespace LibreSync

structure Identity where
  deviceId : String
  appId : String
  userId : String
deriving DecidableEq, Repr

def Identity.matchesApp (identity : Identity) (appId : String) : Bool := identity.appId = appId

structure AppKey where
  bytes : Bytes
  sized : bytes.length = 32
deriving DecidableEq

def AppKey.fromSlice (bytes : Bytes) : Except Error AppKey :=
  if sized : bytes.length = 32 then .ok { bytes, sized }
  else .error (.crypto "app key must be 32 bytes")

@[simp] theorem AppKey.fromSlice_bytes (key : AppKey) : AppKey.fromSlice key.bytes = .ok key := by
  simp [fromSlice, key.sized]

/-- `DeviceHandler` over what the handler stores, as far as legacy links and syncs use it. -/
structure DeviceHandler (H : Type) where
  allowLegacyLink : H → Bool := fun _ => true
  appId : H → String
  isLinked : H → Identity → Bool
  isLinkedWithFingerprint : H → Identity → String → Bool
  approveLinkWithFingerprint : H → Identity → String → Except Error Bool × H
  appKey : H → Except Error AppKey
  setAppKey : H → AppKey → Except Error Unit × H
  pairingSecret : H → Option String

structure LinkRequest where
  identity : Identity
  appKey : Option Bytes
  pairingSecret : Option String
deriving DecidableEq

structure LinkResponse where
  identity : Identity
  accepted : Bool
  appKey : Option Bytes
deriving DecidableEq

def LinkResponse.refusal (identity : Identity) : LinkResponse where
  identity := identity
  accepted := false
  appKey := none

def LinkResponse.remoteKey (response : LinkResponse) (identity : Identity) : Except Error AppKey :=
  if ¬response.accepted then
    .error (.protocol ("linking rejected by " ++ response.identity.deviceId))
  else match response.appKey with
    | none => .error (.protocol "linking response missing app key")
    | some bytes => do
        let remoteKey ← AppKey.fromSlice bytes
        if response.identity.appId ≠ identity.appId then
          throw (.protocol "app id mismatch during linking")
        return remoteKey

namespace DeviceHandler

variable {H : Type} (handler : DeviceHandler H) (store : H)

/-- The checks a request passes before the handler is asked; `none` is a plain refusal. -/
def admits (request : LinkRequest) : Except Error (Option AppKey) :=
  if ¬handler.allowLegacyLink store then .ok none
  else if ¬request.identity.matchesApp (handler.appId store) then .ok none
  else if (handler.pairingSecret store).any (· ≠ request.pairingSecret.getD "") then .ok none
  else match request.appKey with
    | none => .error (.protocol "linking request missing app key")
    | some bytes => (AppKey.fromSlice bytes).map some

/-- The other side's key replaces the stored one if it differs from the one read before. -/
def adopt (held incoming : AppKey) : Except Error Unit × H :=
  if incoming ≠ held then handler.setAppKey store incoming else (.ok (), store)

def response (identity : Identity) : Except Error LinkResponse :=
  (handler.appKey store).map fun key =>
    { identity := identity, accepted := true, appKey := some key.bytes }

/-- `handle_connection` at `LinkRequest`; `held` is the key read when the connection opened. -/
def handleLinkRequest (identity : Identity) (held : AppKey) (request : LinkRequest)
    (fingerprint : String) : Except Error LinkResponse × H :=
  match handler.admits store request with
  | .error error => (.error error, store)
  | .ok none => (.ok (.refusal identity), store)
  | .ok (some incoming) =>
      match handler.approveLinkWithFingerprint store request.identity fingerprint with
      | (.error error, store) => (.error error, store)
      | (.ok false, store) => (.ok (.refusal identity), store)
      | (.ok true, store) =>
          match handler.adopt store held incoming with
          | (.error error, store) => (.error error, store)
          | (.ok (), store) => (handler.response store identity, store)

theorem admits_some {request : LinkRequest} {incoming : AppKey}
    (admitted : handler.admits store request = .ok (some incoming)) :
    handler.allowLegacyLink store = true ∧ request.appKey = some incoming.bytes ∧
      request.identity.appId = handler.appId store ∧
      ∀ secret, handler.pairingSecret store = some secret →
        request.pairingSecret.getD "" = secret := by
  simp only [admits] at admitted
  split at admitted
  · simp at admitted
  · rename_i allowed
    split at admitted
    · simp at admitted
    · rename_i matched
      split at admitted
      · simp at admitted
      · rename_i secrets
        split at admitted
        · simp at admitted
        · rename_i bytes sent
          refine ⟨by simpa using allowed, ?_, by simpa [Identity.matchesApp] using matched, ?_⟩
          · simp only [AppKey.fromSlice] at admitted
            split at admitted
            · simp only [Except.map, Except.ok.injEq, Option.some.injEq] at admitted
              rw [sent, ← admitted]
            · simp [Except.map] at admitted
          · intro secret configured
            simp only [configured, Option.any_some, ne_eq, decide_not, Bool.not_eq_true',
              decide_eq_false_iff_not, not_not] at secrets
            exact secrets.symm

end DeviceHandler

end LibreSync
