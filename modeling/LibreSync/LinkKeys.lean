import LibreSync.Handler
import LibreSync.Lib.Transition

/-!
Legacy links among any number of devices. A link reads, stores and pins keys in
separate steps on both sides, so any number of links run at once.
-/

namespace LibreSync

/-- A handler that stores one app key and the devices it is linked with; `E` is what an
approval depends on besides the request. -/
structure LinkingHandler (E H : Type) where
  handler : E → DeviceHandler H
  /-- The application's record of a device that accepted its request. -/
  pin : H → Identity → String → H
  key : H → AppKey
  lists : H → String → Bool
  appKey_eq : ∀ env store, (handler env).appKey store = .ok (key store)
  setAppKey_eq : ∀ env store new, ∃ after, (handler env).setAppKey store new = (.ok (), after) ∧
    key after = new ∧ lists after = lists store
  approve_key : ∀ env store identity fingerprint result after,
    (handler env).approveLinkWithFingerprint store identity fingerprint = (result, after) →
    key after = key store
  approve_lists : ∀ env store identity fingerprint after,
    (handler env).approveLinkWithFingerprint store identity fingerprint = (.ok true, after) →
    lists after = Function.update (lists store) identity.deviceId true
  decline_lists : ∀ env store identity fingerprint result after,
    (handler env).approveLinkWithFingerprint store identity fingerprint = (result, after) →
    result ≠ .ok true → lists after = lists store
  pin_key : ∀ store identity fingerprint, key (pin store identity fingerprint) = key store
  pin_lists : ∀ store identity fingerprint, lists (pin store identity fingerprint) =
    Function.update (lists store) identity.deviceId true

inductive LinkStage where
  /-- The request is on its way. -/
  | requested
  /-- The listener opened the connection and read its own key. -/
  | connected (held : AppKey)
  | approved (held : AppKey)
  | adopted
  | answered (response : LinkResponse)
deriving DecidableEq

structure Link where
  client : String
  listener : String
  /-- The key the client read before it connected. -/
  sent : AppKey
  pairingSecret : Option String
  stage : LinkStage

structure LinkSystem (E H : Type) where
  linking : LinkingHandler E H
  identity : String → Identity
  named : ∀ name, (identity name).deviceId = name
  fingerprint : String → String

structure LinkWorld (H : Type) where
  store : String → H
  links : Nat → Option Link

inductive LinkEvent (E : Type) where
  | request (id : Nat) (env : E) (client listener : String)
  | connect (id : Nat) (env : E)
  | approve (id : Nat) (env : E)
  | adopt (id : Nat) (env : E)
  | answer (id : Nat) (env : E)
  | finish (id : Nat) (env : E)
  /-- The connection is lost. -/
  | cut (id : Nat)

namespace LinkWorld

variable {E H : Type} (system : LinkSystem E H)

def setStore (world : LinkWorld H) (name : String) (store : H) : LinkWorld H :=
  { world with store := Function.update world.store name store }

def setLink (world : LinkWorld H) (id : Nat) (link : Option Link) : LinkWorld H :=
  { world with links := Function.update world.links id link }

def Link.request (link : Link) : LinkRequest where
  identity := system.identity link.client
  appKey := some link.sent.bytes
  pairingSecret := link.pairingSecret

def step (world : LinkWorld H) : LinkEvent E → Option (LinkWorld H)
  | .request id env client listener =>
      match world.links id with
      | some _ => none
      | none =>
          let handler := system.linking.handler env
          match handler.appKey (world.store client) with
          | .error _ => some world
          | .ok sent =>
              let pairingSecret := handler.pairingSecret (world.store client)
              some (world.setLink id (some
                { client, listener, sent, pairingSecret, stage := .requested }))
  | .connect id env =>
      match world.links id with
      | some link =>
          match link.stage with
          | .requested =>
              match (system.linking.handler env).appKey (world.store link.listener) with
              | .error _ => some (world.setLink id none)
              | .ok held => some (world.setLink id (some { link with stage := .connected held }))
          | _ => none
      | none => none
  | .approve id env =>
      match world.links id with
      | some link =>
          match link.stage with
          | .connected held =>
              let handler := system.linking.handler env
              let request := Link.request system link
              match handler.admits (world.store link.listener) request with
              | .ok (some _) =>
                  match handler.approveLinkWithFingerprint (world.store link.listener)
                      request.identity (system.fingerprint link.client) with
                  | (.ok true, store) => some ((world.setStore link.listener store).setLink id
                      (some { link with stage := .approved held }))
                  | (_, store) => some ((world.setStore link.listener store).setLink id none)
              | _ => some (world.setLink id none)
          | _ => none
      | none => none
  | .adopt id env =>
      match world.links id with
      | some link =>
          match link.stage with
          | .approved held =>
              match (system.linking.handler env).adopt (world.store link.listener) held link.sent with
              | (.ok (), store) => some ((world.setStore link.listener store).setLink id
                  (some { link with stage := .adopted }))
              | (.error _, store) => some ((world.setStore link.listener store).setLink id none)
          | _ => none
      | none => none
  | .answer id env =>
      match world.links id with
      | some link =>
          match link.stage with
          | .adopted =>
              match (system.linking.handler env).response (world.store link.listener)
                  (system.identity link.listener) with
              | .ok response =>
                  some (world.setLink id (some { link with stage := .answered response }))
              | .error _ => some (world.setLink id none)
          | _ => none
      | none => none
  | .finish id env =>
      match world.links id with
      | some link =>
          match link.stage with
          | .answered response =>
              match response.remoteKey (system.identity link.client) with
              | .error _ => some (world.setLink id none)
              | .ok remote =>
                  match (system.linking.handler env).adopt (world.store link.client) link.sent
                      remote with
                  | (.error _, store) => some ((world.setStore link.client store).setLink id none)
                  | (.ok (), store) =>
                      let store := system.linking.pin store response.identity
                        (system.fingerprint link.listener)
                      some ((world.setStore link.client store).setLink id none)
          | _ => none
      | none => none
  | .cut id =>
      match world.links id with
      | some link =>
          match link.stage with
          | .requested | .connected _ | .answered _ => some (world.setLink id none)
          | _ => none
      | none => none

def key (world : LinkWorld H) (name : String) : AppKey := system.linking.key (world.store name)

def Linked (world : LinkWorld H) (left right : String) : Prop :=
  system.linking.lists (world.store left) right = true ∧
    system.linking.lists (world.store right) left = true

/-- No device but the client depends on the key the listener is about to replace. -/
structure Alone (world : LinkWorld H) (id : Nat) (link : Link) : Prop where
  linked : ∀ name, Linked system world link.listener name → name = link.client ∨ name = link.listener
  client : ∀ other found, other ≠ id → world.links other = some found →
    found.client ≠ link.listener
  listener : ∀ other found, other ≠ id → world.links other = some found →
    found.listener = link.listener → found.stage = .requested ∨ found.sent = link.sent

def Guarded (world : LinkWorld H) : LinkEvent E → Prop
  | .adopt id _ => ∀ link, world.links id = some link →
      key system world link.listener = link.sent ∨ Alone system world id link
  | _ => True

def StageHolds (world : LinkWorld H) (link : Link) : Prop :=
  match link.stage with
  | .requested => True
  | .connected held | .approved held =>
      key system world link.listener = held ∨ key system world link.listener = link.sent
  | .adopted => key system world link.listener = link.sent
  | .answered response => key system world link.listener = link.sent ∧
      response = { identity := system.identity link.listener, accepted := true,
                   appKey := some link.sent.bytes }

/-- The listener of a link between the two approved it and did not store the key yet. -/
def Pending (world : LinkWorld H) (left right : String) : Prop :=
  ∃ id link held, world.links id = some link ∧ link.stage = .approved held ∧
    (link.client = left ∧ link.listener = right ∨ link.client = right ∧ link.listener = left)

structure Agreeing (world : LinkWorld H) : Prop where
  linked : ∀ left right, Linked system world left right →
    key system world left = key system world right ∨ Pending world left right
  client : ∀ id link, world.links id = some link → key system world link.client = link.sent
  stage : ∀ id link, world.links id = some link → StageHolds system world link

variable {system} {world : LinkWorld H}

theorem key_setStore (name other : String) (store : H) :
    key system (world.setStore name store) other =
      if other = name then system.linking.key store else key system world other := by
  by_cases same : other = name
  · subst same
    simp [key, setStore]
  · simp [key, setStore, same]

theorem key_setStore_same {name : String} {store : H}
    (same : system.linking.key store = key system world name) (other : String) :
    key system (world.setStore name store) other = key system world other := by
  rw [key_setStore]
  split
  · rename_i here
    rw [here, same]
  · rfl

theorem links_setLink (id other : Nat) (link : Option Link) :
    (world.setLink id link).links other = if other = id then link else world.links other := by
  simp [setLink, Function.update_apply]

theorem Agreeing.setLink (agreeing : Agreeing system world) {id : Nat} {old new : Option Link}
    (found : world.links id = old)
    (settled : ∀ link held, old = some link → link.stage = .approved held →
      key system world link.client = key system world link.listener)
    (client : ∀ link, new = some link → key system world link.client = link.sent)
    (stage : ∀ link, new = some link → StageHolds system world link) :
    Agreeing system (world.setLink id new) := by
  refine ⟨?_, ?_, ?_⟩
  · intro left right both
    rcases agreeing.linked left right both with same | ⟨other, link, held, present, approved, ends⟩
    · exact Or.inl same
    · by_cases here : other = id
      · subst here
        have equal := settled link held (found.symm.trans present) approved
        rcases ends with ⟨rfl, rfl⟩ | ⟨rfl, rfl⟩
        · exact Or.inl equal
        · exact Or.inl equal.symm
      · refine Or.inr ⟨other, link, held, ?_, approved, ends⟩
        rw [links_setLink, if_neg here, present]
  · intro other link present
    rw [links_setLink] at present
    split at present
    · exact client link present
    · exact agreeing.client other link present
  · intro other link present
    rw [links_setLink] at present
    split at present
    · exact stage link present
    · exact agreeing.stage other link present

theorem Agreeing.drop (agreeing : Agreeing system world) {id : Nat} {link : Link}
    (found : world.links id = some link) (stays : ∀ held, link.stage ≠ .approved held) :
    Agreeing system (world.setLink id none) := by
  refine agreeing.setLink found ?_ (by simp) (by simp)
  intro other held same approved
  obtain rfl := Option.some.inj same
  exact absurd approved (stays held)

theorem Agreeing.relist (agreeing : Agreeing system world) {name : String} {store : H}
    (same : system.linking.key store = key system world name)
    (listed : ∀ other, system.linking.lists store other = true →
      system.linking.lists (world.store name) other = true ∨
        key system world name = key system world other ∨ Pending world name other) :
    Agreeing system (world.setStore name store) := by
  have flip : ∀ {left right : String}, Pending world left right → Pending world right left :=
    fun ⟨id, link, held, present, stage, ends⟩ => ⟨id, link, held, present, stage, ends.symm⟩
  have lists : ∀ left right,
      system.linking.lists ((world.setStore name store).store left) right = true →
      system.linking.lists (world.store left) right = true ∨
        key system world left = key system world right ∨ Pending world left right := by
    intro left right present
    by_cases here : left = name
    · subst here
      exact listed right (by simpa [LinkWorld.setStore] using present)
    · left
      simpa [LinkWorld.setStore, here] using present
  refine ⟨?_, ?_, ?_⟩
  · rintro left right ⟨forth, back⟩
    rw [key_setStore_same same, key_setStore_same same]
    rcases lists left right forth with forth | equal | pending
    · rcases lists right left back with back | equal | pending
      · exact agreeing.linked left right ⟨forth, back⟩
      · exact Or.inl equal.symm
      · exact Or.inr (flip pending)
    · exact Or.inl equal
    · exact Or.inr pending
  · intro id link present
    rw [key_setStore_same same]
    exact agreeing.client id link present
  · intro id link present
    have before := agreeing.stage id link present
    simp only [StageHolds, key_setStore_same same] at before ⊢
    exact before

theorem Agreeing.rekey (agreeing : Agreeing system world) {id : Nat} {link : Link}
    (found : world.links id = some link) {store : H} (stored : system.linking.key store = link.sent)
    (lists : system.linking.lists store = system.linking.lists (world.store link.listener))
    (alone : Alone system world id link) :
    Agreeing system (world.setStore link.listener store) := by
  have client : key system world link.client = link.sent := agreeing.client id link found
  have keys : ∀ name, key system (world.setStore link.listener store) name =
      if name = link.listener then link.sent else key system world name := by
    intro name
    rw [key_setStore, stored]
  have kept : ∀ name, system.linking.lists ((world.setStore link.listener store).store name) =
      system.linking.lists (world.store name) := by
    intro name
    by_cases here : name = link.listener
    · subst here
      simpa [LinkWorld.setStore] using lists
    · simp [LinkWorld.setStore, here]
  have atListener : ∀ name, Linked system world link.listener name →
      (if name = link.listener then link.sent else key system world name) = link.sent := by
    intro name pair
    rcases alone.linked name pair with rfl | rfl
    · rw [client, ite_self]
    · rw [if_pos rfl]
  refine ⟨?_, ?_, ?_⟩
  · rintro left right pair
    rw [keys, keys]
    have before : Linked system world left right := by
      simpa only [Linked, kept] using pair
    by_cases leftHere : left = link.listener
    · subst leftHere
      rw [if_pos rfl, atListener right before]
      exact Or.inl rfl
    · by_cases rightHere : right = link.listener
      · subst rightHere
        rw [if_pos rfl, atListener left ⟨before.2, before.1⟩]
        exact Or.inl rfl
      · rw [if_neg leftHere, if_neg rightHere]
        exact agreeing.linked left right before
  · intro other found' present
    rw [keys, agreeing.client other found' present]
    by_cases same : other = id
    · subst same
      rw [Option.some.inj (present.symm.trans found), ite_self]
    · rw [if_neg (alone.client other found' same present)]
  · intro other found' present
    have before := agreeing.stage other found' present
    by_cases here : found'.listener = link.listener
    · simp only [StageHolds, keys, here, if_true] at before ⊢
      have sent : found'.stage = .requested ∨ found'.sent = link.sent := by
        by_cases same : other = id
        · subst same
          exact Or.inr (congrArg Link.sent (Option.some.inj (present.symm.trans found)))
        · exact alone.listener other found' same present here
      cases stage : found'.stage with
      | requested => trivial
      | connected held => exact Or.inr ((sent.resolve_left (by simp [stage])).symm)
      | approved held => exact Or.inr ((sent.resolve_left (by simp [stage])).symm)
      | adopted => exact (sent.resolve_left (by simp [stage])).symm
      | answered response =>
          simp only [stage] at before
          exact ⟨(sent.resolve_left (by simp [stage])).symm, before.2⟩
    · simp only [StageHolds, keys, here, if_false] at before ⊢
      exact before

theorem adopt_key (env : E) {store after : H} {held incoming : AppKey} {result : Except Error Unit}
    (adopted : (system.linking.handler env).adopt store held incoming = (result, after)) :
    result = .ok () ∧ system.linking.lists after = system.linking.lists store ∧
      system.linking.key after = if incoming = held then system.linking.key store else incoming := by
  simp only [DeviceHandler.adopt] at adopted
  split at adopted
  · rename_i different
    obtain ⟨stored, set, key, lists⟩ := system.linking.setAppKey_eq env store incoming
    rw [set, Prod.mk.injEq] at adopted
    obtain ⟨rfl, rfl⟩ := adopted
    exact ⟨rfl, lists, by rw [if_neg different, key]⟩
  · rename_i same
    rw [Prod.mk.injEq] at adopted
    obtain ⟨rfl, rfl⟩ := adopted
    exact ⟨rfl, rfl, by rw [if_pos (not_not.mp same)]⟩

theorem Agreeing.approve (agreeing : Agreeing system world) {id : Nat} {link : Link} {held : AppKey}
    (found : world.links id = some link) (connected : link.stage = .connected held) (env : E)
    {result : Except Error Bool} {store : H}
    (asked : (system.linking.handler env).approveLinkWithFingerprint (world.store link.listener)
      (Link.request system link).identity (system.fingerprint link.client) = (result, store)) :
    Agreeing system ((world.setStore link.listener store).setLink id
      (if result = .ok true then some { link with stage := .approved held } else none)) := by
  have key := system.linking.approve_key env _ _ _ result store asked
  have before := agreeing.stage id link found
  simp only [StageHolds, connected] at before
  by_cases accepted : result = .ok true
  · subst accepted
    rw [if_pos rfl]
    have moved : Agreeing system (world.setLink id (some { link with stage := .approved held })) := by
      refine agreeing.setLink found ?_ ?_ ?_
      · intro other held' same approved
        obtain rfl := Option.some.inj same
        simp [connected] at approved
      · intro other same
        obtain rfl := Option.some.inj same
        exact agreeing.client id link found
      · intro other same
        obtain rfl := Option.some.inj same
        exact before
    refine @Agreeing.relist _ _ _ _ moved link.listener store key ?_
    intro other listed
    rw [system.linking.approve_lists env _ _ _ store asked] at listed
    by_cases same : other = link.client
    · refine Or.inr (Or.inr ⟨id, { link with stage := .approved held }, held, ?_, rfl, Or.inr ⟨same.symm, rfl⟩⟩)
      rw [links_setLink, if_pos rfl]
    · left
      rw [Function.update_of_ne] at listed
      · exact listed
      · rw [Link.request, system.named]
        exact same
  · rw [if_neg accepted]
    have relisted : Agreeing system (world.setStore link.listener store) := by
      refine agreeing.relist key fun other listed => Or.inl ?_
      rwa [system.linking.decline_lists env _ _ _ result store asked accepted] at listed
    have here : (world.setStore link.listener store).links id = some link := found
    exact relisted.drop here (by simp [connected])

theorem Agreeing.finish (agreeing : Agreeing system world) {id : Nat} {link : Link}
    {response : LinkResponse} (found : world.links id = some link)
    (answered : link.stage = .answered response) (env : E) {remote : AppKey}
    (read : response.remoteKey (system.identity link.client) = .ok remote)
    {store : H} (adopted : (system.linking.handler env).adopt (world.store link.client) link.sent
      remote = (.ok (), store)) :
    Agreeing system ((world.setStore link.client (system.linking.pin store response.identity
      (system.fingerprint link.listener))).setLink id none) := by
  have client := agreeing.client id link found
  have before := agreeing.stage id link found
  simp only [StageHolds, answered] at before
  obtain ⟨listener, rfl⟩ := before
  have same : remote = link.sent := by
    simp only [LinkResponse.remoteKey, AppKey.fromSlice_bytes] at read
    simp only [not_true_eq_false, if_false, bind, Except.bind, pure, Except.pure] at read
    split at read
    · simp [throw, throwThe, MonadExceptOf.throw] at read
    · exact (Except.ok.inj read).symm
  obtain ⟨-, lists, key⟩ := adopt_key env adopted
  rw [if_pos same] at key
  have pinned : Agreeing system (world.setStore link.client (system.linking.pin store
      (system.identity link.listener) (system.fingerprint link.listener))) := by
    refine agreeing.relist ((system.linking.pin_key ..).trans key) ?_
    intro other listed
    rw [system.linking.pin_lists, lists, system.named] at listed
    by_cases here : other = link.listener
    · subst here
      exact Or.inr (Or.inl (client.trans listener.symm))
    · rw [Function.update_of_ne here] at listed
      exact Or.inl listed
  have here : (world.setStore link.client (system.linking.pin store (system.identity link.listener)
      (system.fingerprint link.listener))).links id = some link := found
  exact pinned.drop here (by simp [answered])

theorem Agreeing.step_request (agreeing : Agreeing system world) {id : Nat} {env : E}
    {client listener : String} {after : LinkWorld H}
    (stepped : world.step system (.request id env client listener) = some after) :
    Agreeing system after := by
  simp only [LinkWorld.step] at stepped
  split at stepped
  · simp at stepped
  · rename_i vacant
    rw [system.linking.appKey_eq, Option.some.injEq] at stepped
    subst stepped
    refine agreeing.setLink vacant (by simp) ?_ ?_
    · intro link same
      obtain rfl := Option.some.inj same
      rfl
    · intro link same
      obtain rfl := Option.some.inj same
      trivial

theorem Agreeing.step_connect (agreeing : Agreeing system world) {id : Nat} {env : E}
    {after : LinkWorld H} (stepped : world.step system (.connect id env) = some after) :
    Agreeing system after := by
  simp only [LinkWorld.step] at stepped
  split at stepped
  · rename_i link found
    split at stepped
    · rename_i requested
      rw [system.linking.appKey_eq, Option.some.injEq] at stepped
      subst stepped
      refine agreeing.setLink found ?_ ?_ ?_
      · intro other held same approved
        obtain rfl := Option.some.inj same
        simp [requested] at approved
      · intro other same
        obtain rfl := Option.some.inj same
        exact agreeing.client id link found
      · intro other same
        obtain rfl := Option.some.inj same
        exact Or.inl rfl
    · simp at stepped
  · simp at stepped

theorem Agreeing.step_approve (agreeing : Agreeing system world) {id : Nat} {env : E}
    {after : LinkWorld H} (stepped : world.step system (.approve id env) = some after) :
    Agreeing system after := by
  simp only [LinkWorld.step] at stepped
  split at stepped
  · rename_i link found
    split at stepped
    · rename_i held connected
      split at stepped
      · split at stepped
        · rename_i store asked
          have approved := agreeing.approve found connected env asked
          rw [if_pos rfl] at approved
          exact Option.some.inj stepped ▸ approved
        · rename_i result store declined asked
          have dropped := agreeing.approve found connected env asked
          rw [if_neg declined] at dropped
          exact Option.some.inj stepped ▸ dropped
      · exact Option.some.inj stepped ▸ agreeing.drop found (by simp [connected])
    · simp at stepped
  · simp at stepped

theorem Agreeing.step_adopt (agreeing : Agreeing system world) {id : Nat} {env : E}
    (guarded : Guarded system world (.adopt id env))
    {after : LinkWorld H} (stepped : world.step system (.adopt id env) = some after) :
    Agreeing system after := by
  simp only [LinkWorld.step] at stepped
  split at stepped
  · rename_i link found
    split at stepped
    · rename_i held approved
      have before := agreeing.stage id link found
      simp only [StageHolds, approved] at before
      split at stepped
      · rename_i store adopted
        obtain ⟨-, lists, key⟩ := adopt_key env adopted
        have stored : system.linking.key store = link.sent := by
          rw [key]
          split
          · rename_i same
            rcases before with before | before
            · exact before.trans same.symm
            · exact before
          · rfl
        have rekeyed : Agreeing system (world.setStore link.listener store) := by
          rcases guarded link found with same | alone
          · refine agreeing.relist (stored.trans same.symm) fun other listed => Or.inl ?_
            rwa [lists] at listed
          · exact agreeing.rekey found stored lists alone
        have listener : LinkWorld.key system (world.setStore link.listener store)
            link.listener = link.sent := by
          rw [key_setStore, if_pos rfl, stored]
        rw [← Option.some.inj stepped]
        have here : (world.setStore link.listener store).links id = some link := found
        refine rekeyed.setLink here ?_ ?_ ?_
        · intro other _ same _
          obtain rfl := Option.some.inj same
          rw [rekeyed.client id link found, listener]
        · intro other same
          obtain rfl := Option.some.inj same
          exact rekeyed.client id link found
        · intro other same
          obtain rfl := Option.some.inj same
          exact listener
      · rename_i error store failed
        have ok := (adopt_key env failed).1
        simp at ok
    · simp at stepped
  · simp at stepped

theorem Agreeing.step_answer (agreeing : Agreeing system world) {id : Nat} {env : E}
    {after : LinkWorld H} (stepped : world.step system (.answer id env) = some after) :
    Agreeing system after := by
  simp only [LinkWorld.step] at stepped
  split at stepped
  · rename_i link found
    split at stepped
    · rename_i adopted
      have before := agreeing.stage id link found
      simp only [StageHolds, adopted] at before
      simp only [DeviceHandler.response, system.linking.appKey_eq, Except.map,
        Option.some.injEq] at stepped
      subst stepped
      refine agreeing.setLink found ?_ ?_ ?_
      · intro other held same approved
        obtain rfl := Option.some.inj same
        simp [adopted] at approved
      · intro other same
        obtain rfl := Option.some.inj same
        exact agreeing.client id link found
      · intro other same
        obtain rfl := Option.some.inj same
        refine ⟨before, ?_⟩
        rw [show system.linking.key (world.store link.listener) = link.sent from before]
    · simp at stepped
  · simp at stepped

theorem Agreeing.step_finish (agreeing : Agreeing system world) {id : Nat} {env : E}
    {after : LinkWorld H} (stepped : world.step system (.finish id env) = some after) :
    Agreeing system after := by
  simp only [LinkWorld.step] at stepped
  split at stepped
  · rename_i link found
    split at stepped
    · rename_i response answered
      split at stepped
      · exact Option.some.inj stepped ▸ agreeing.drop found (by simp [answered])
      · rename_i remote read
        split at stepped
        · rename_i error store failed
          have ok := (adopt_key env failed).1
          simp at ok
        · rename_i store adopted
          exact Option.some.inj stepped ▸ agreeing.finish found answered env read adopted
    · simp at stepped
  · simp at stepped

theorem Agreeing.step_cut (agreeing : Agreeing system world) {id : Nat}
    {after : LinkWorld H} (stepped : world.step system (.cut id) = some after) :
    Agreeing system after := by
  simp only [LinkWorld.step] at stepped
  split at stepped
  · rename_i link found
    split at stepped
    · rename_i stage
      exact Option.some.inj stepped ▸ agreeing.drop found (by simp [stage])
    · rename_i held stage
      exact Option.some.inj stepped ▸ agreeing.drop found (by simp [stage])
    · rename_i response stage
      exact Option.some.inj stepped ▸ agreeing.drop found (by simp [stage])
    · simp at stepped
  · simp at stepped

theorem Agreeing.step (agreeing : Agreeing system world) {event : LinkEvent E}
    (guarded : Guarded system world event) {after : LinkWorld H}
    (stepped : world.step system event = some after) : Agreeing system after := by
  cases event with
  | request => exact agreeing.step_request stepped
  | connect => exact agreeing.step_connect stepped
  | approve => exact agreeing.step_approve stepped
  | adopt => exact agreeing.step_adopt guarded stepped
  | answer => exact agreeing.step_answer stepped
  | finish => exact agreeing.step_finish stepped
  | cut => exact agreeing.step_cut stepped

/-- With no link in progress, linked devices hold one key, in every run in which listeners
replace a key only while nobody else depends on it. -/
theorem linked_agree {start : LinkWorld H} (vacant : ∀ id, start.links id = none)
    (agreed : ∀ left right, Linked system start left right →
      key system start left = key system start right)
    (reached : Transition.Reaches (LinkWorld.step system) (Guarded system) start world)
    (idle : ∀ id, world.links id = none) {left right : String}
    (linked : Linked system world left right) :
    key system world left = key system world right := by
  have initial : Agreeing system start :=
    ⟨fun left right both => Or.inl (agreed left right both),
      fun id link present => by simp [vacant] at present,
      fun id link present => by simp [vacant] at present⟩
  have agreeing := reached.invariant (motive := Agreeing system) initial
    fun state event after holds guarded stepped => holds.step guarded stepped
  rcases agreeing.linked left right linked with same | ⟨id, link, _, present, _⟩
  · exact same
  · simp [idle] at present

section Stored

structure LinkStore where
  key : AppKey
  linked : List String

theorem contains_cons (name : String) (names : List String) :
    (fun other => (name :: names).contains other) =
      Function.update (fun other => names.contains other) name true := by
  funext other
  by_cases same : other = name
  · simp [same]
  · simp [same]

def LinkStore.linking : LinkingHandler Bool LinkStore where
  handler answer := {
    appId := fun _ => "app"
    isLinked := fun store identity => store.linked.contains identity.deviceId
    isLinkedWithFingerprint := fun store identity _ => store.linked.contains identity.deviceId
    approveLinkWithFingerprint := fun store identity _ =>
      if answer then (.ok true, { store with linked := identity.deviceId :: store.linked })
      else (.ok false, store)
    appKey := fun store => .ok store.key
    setAppKey := fun store key => (.ok (), { store with key := key })
    pairingSecret := fun _ => none }
  pin store identity _ := { store with linked := identity.deviceId :: store.linked }
  key := LinkStore.key
  lists store name := store.linked.contains name
  appKey_eq _ _ := rfl
  setAppKey_eq _ store new := ⟨{ store with key := new }, rfl, rfl, rfl⟩
  approve_key := by
    intro answer store identity fingerprint result after asked
    cases answer <;> cases asked <;> rfl
  approve_lists := by
    intro answer store identity fingerprint after asked
    cases answer
    · simp at asked
    · cases asked
      exact contains_cons identity.deviceId store.linked
  decline_lists := by
    intro answer store identity fingerprint result after asked declined
    cases answer
    · cases asked
      rfl
    · cases asked
      exact absurd rfl declined
  pin_key _ _ _ := rfl
  pin_lists store identity _ := contains_cons identity.deviceId store.linked

def stored : LinkSystem Bool LinkStore where
  linking := LinkStore.linking
  identity name := { deviceId := name, appId := "app", userId := "user" }
  named _ := rfl
  fingerprint name := name

def unlinked : LinkWorld LinkStore where
  store name := {
    key := { bytes := List.replicate 32 (UInt8.ofNat name.length), sized := List.length_replicate }
    linked := [] }
  links _ := none

def linkEvents (id : Nat) (client listener : String) : List (LinkEvent Bool) :=
  [.request id true client listener, .connect id true, .approve id true, .adopt id true,
    .answer id true, .finish id true]

def linking (count : Nat) : LinkWorld LinkStore :=
  (Transition.run (LinkWorld.step stored) unlinked
    ((linkEvents 0 "a" "bb" ++ linkEvents 1 "bb" "ccc").take count)).getD unlinked

theorem linking_guarded {count id : Nat} (link : Link)
    (found : (linking count).links id = some link)
    (only : ∀ name, stored.linking.lists ((linking count).store link.listener) name = true →
      name = link.client)
    (others : ∀ other, other ≠ id → (linking count).links other = none) :
    Guarded stored (linking count) (.adopt id true) := by
  intro current present
  obtain rfl := Option.some.inj (found.symm.trans present)
  refine Or.inr ⟨fun name both => Or.inl (only name both.1), ?_, ?_⟩
  · intro other link elsewhere held
    simp [others other elsewhere] at held
  · intro other link elsewhere held
    simp [others other elsewhere] at held

theorem linked_agree_chain :
    Linked stored (linking 12) "a" "bb" ∧ Linked stored (linking 12) "bb" "ccc" ∧
      key stored (linking 12) "a" = key stored (linking 12) "bb" ∧
      key stored (linking 12) "bb" = key stored (linking 12) "ccc" := by
  have first : Guarded stored (linking 3) (.adopt 0 true) := by
    refine linking_guarded ⟨"a", "bb", (unlinked.store "a").key, none,
      .approved (unlinked.store "bb").key⟩ rfl ?_ ?_
    · intro name listed
      have only : stored.linking.lists ((linking 3).store "bb") name = ["a"].contains name := rfl
      simpa using only.symm.trans listed
    · intro other elsewhere
      match other with
      | 0 => exact absurd rfl elsewhere
      | _ + 1 => rfl
  have second : Guarded stored (linking 9) (.adopt 1 true) := by
    refine linking_guarded ⟨"bb", "ccc", (unlinked.store "a").key, none,
      .approved (unlinked.store "ccc").key⟩ rfl ?_ ?_
    · intro name listed
      have only : stored.linking.lists ((linking 9).store "ccc") name = ["bb"].contains name := rfl
      simpa using only.symm.trans listed
    · intro other elsewhere
      match other with
      | 0 => rfl
      | 1 => exact absurd rfl elsewhere
      | _ + 2 => rfl
  have reached : Transition.Reaches (LinkWorld.step stored) (Guarded stored) unlinked
      (linking 12) := by
    have linked : Transition.Reaches (LinkWorld.step stored) (Guarded stored) unlinked
        (linking 6) := by
      have requested : step stored unlinked (.request 0 true "a" "bb") = some (linking 1) := rfl
      have connected : step stored (linking 1) (.connect 0 true) = some (linking 2) := rfl
      have approved : step stored (linking 2) (.approve 0 true) = some (linking 3) := rfl
      have adopted : step stored (linking 3) (.adopt 0 true) = some (linking 4) := rfl
      have answered : step stored (linking 4) (.answer 0 true) = some (linking 5) := rfl
      have finished : step stored (linking 5) (.finish 0 true) = some (linking 6) := rfl
      refine .next (.next (.next (.next (.next (.next .start ?_ requested) ?_ connected) ?_ approved)
        first adopted) ?_ answered) ?_ finished
      all_goals trivial
    have requested : step stored (linking 6) (.request 1 true "bb" "ccc") = some (linking 7) := rfl
    have connected : step stored (linking 7) (.connect 1 true) = some (linking 8) := rfl
    have approved : step stored (linking 8) (.approve 1 true) = some (linking 9) := rfl
    have adopted : step stored (linking 9) (.adopt 1 true) = some (linking 10) := rfl
    have answered : step stored (linking 10) (.answer 1 true) = some (linking 11) := rfl
    have finished : step stored (linking 11) (.finish 1 true) = some (linking 12) := rfl
    refine .next (.next (.next (.next (.next (.next linked ?_ requested) ?_ connected) ?_ approved)
      second adopted) ?_ answered) ?_ finished
    all_goals trivial
  have idle : ∀ id, (linking 12).links id = none := by
    intro id
    match id with
    | 0 => rfl
    | 1 => rfl
    | _ + 2 => rfl
  have apart : ∀ left right, Linked stored unlinked left right →
      key stored unlinked left = key stored unlinked right := fun left right both =>
    absurd (show false = true from both.1) Bool.false_ne_true
  have whole : Linked stored (linking 12) "a" "bb" ∧ Linked stored (linking 12) "bb" "ccc" :=
    ⟨⟨rfl, rfl⟩, rfl, rfl⟩
  exact ⟨whole.1, whole.2, linked_agree (fun _ => rfl) apart reached idle whole.1,
    linked_agree (fun _ => rfl) apart reached idle whole.2⟩

/-- A second device that links with the same listener replaces the key of the first link. -/
theorem secondClient_replaces_key : ∃ world, Transition.run (LinkWorld.step stored) unlinked
      (linkEvents 0 "a" "bb" ++ linkEvents 1 "ccc" "bb") = some world ∧
    (∀ id, world.links id = none) ∧ Linked stored world "a" "bb" ∧
    key stored world "a" ≠ key stored world "bb" := by
  refine ⟨_, rfl, ?_, ⟨rfl, rfl⟩, by decide +kernel⟩
  intro id
  match id with
  | 0 => rfl
  | 1 => rfl
  | _ + 2 => rfl

end Stored

end LinkWorld

end LibreSync
