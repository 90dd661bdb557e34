import LibreSync.Lib.Transition
import LibreSync.Managed.Envelope

/-!
The table of open invitations: each is claimed by one pairing at a time, five times at most, and
committed once, before it expires.
-/

namespace LibreSync

def pairingVersion : Nat := 2

def maxTtl : Nat := 300 * 10 ^ 9

structure PairingInvitation where
  version : Nat
  invitationId : String
  inviterFingerprint : String
  metadata : DeviceMetadata
  expiresAt : Nat
  secret : String
deriving DecidableEq

def asciiDigit (char : Char) : Bool := '0' ≤ char && char ≤ '9'

def asciiHexDigit (char : Char) : Bool :=
  asciiDigit char || ('a' ≤ char && char ≤ 'f') || ('A' ≤ char && char ≤ 'F')

def asciiText (kind : Char → Bool) (size : Nat) (text : String) : Bool :=
  text.utf8ByteSize = size && text.toList.all kind

def PairingInvitation.validate (invitation : PairingInvitation) : Except Error Unit :=
  if invitation.version ≠ pairingVersion ∨ ¬asciiText asciiHexDigit 32 invitation.invitationId ∨
      ¬asciiText asciiHexDigit 64 invitation.inviterFingerprint then
    .error (.protocol "pairing: invalid invitation")
  else if ¬(asciiText asciiHexDigit 64 invitation.secret ∨
      asciiText asciiDigit 6 invitation.secret) then
    .error (.protocol "pairing: invalid invitation credential")
  else invitation.metadata.validate

structure InvitationState where
  invitation : PairingInvitation
  attempts : Nat
  claimed : Bool
deriving DecidableEq

structure PairingManager where
  invitations : BTreeMap String InvitationState

namespace PairingManager

def empty : PairingManager where
  invitations := ∅

/-- `create`, with the random id and secret, the clock when the expiry was computed and the clock
under the lock. Expired invitations are dropped also where the new one finds no room. -/
def create (manager : PairingManager) (issued time : Nat) (id secret : String)
    (metadata : DeviceMetadata) (fingerprint : String) (ttl : Nat) :
    Except Error PairingInvitation × PairingManager :=
  if ttl = 0 ∨ maxTtl < ttl then
    (.error (.protocol "pairing: invitation lifetime must be at most five minutes"), manager)
  else
    let invitation : PairingInvitation := {
      version := pairingVersion
      invitationId := id
      inviterFingerprint := fingerprint
      metadata
      expiresAt := min (issued + ttl / 10 ^ 9) u64Max
      secret }
    match invitation.validate with
    | .error error => (.error error, manager)
    | .ok () =>
        let entries := manager.invitations.filter fun _ entry => time < entry.invitation.expiresAt
        if 16 ≤ entries.size then
          (.error (.protocol "pairing: too many active invitations"), { invitations := entries })
        else (.ok invitation, { invitations := entries.insert id {
          invitation
          attempts := 0
          claimed := false } })

def revoke (manager : PairingManager) (id : String) : PairingManager where
  invitations := manager.invitations.erase id

def close (_ : PairingManager) : PairingManager := .empty

def InvitationState.available (entry : InvitationState) (time : Nat) : Bool :=
  entry.attempts < 5 && !entry.claimed && time < entry.invitation.expiresAt

def isOpen (manager : PairingManager) (time : Nat) (id : String) : Bool :=
  (manager.invitations[id]?).any fun entry => InvitationState.available entry time

def claim (manager : PairingManager) (time : Nat) (id : String) :
    Except Error (PairingInvitation × PairingManager) :=
  match manager.invitations[id]? with
  | none => .error (.protocol "pairing closed or invitation consumed")
  | some entry =>
      if entry.claimed ∨ 5 ≤ entry.attempts ∨ entry.invitation.expiresAt ≤ time then
        .error (.protocol "pairing: invitation unavailable")
      else .ok (entry.invitation, { invitations := manager.invitations.insert id { entry with
        attempts := entry.attempts + 1
        claimed := true } })

def release (manager : PairingManager) (id : String) : PairingManager where
  invitations :=
    match manager.invitations[id]? with
    | none => manager.invitations
    | some entry => manager.invitations.insert id { entry with claimed := false }

/-- `commit`; the callback runs while the table stays locked. -/
def commit {T : Type} (manager : PairingManager) (time : Nat) (id : String)
    (callback : Except Error T) : Except Error T × PairingManager :=
  match manager.invitations[id]? with
  | none => (.error (.protocol "invitation revoked"), manager)
  | some entry =>
      if ¬entry.claimed ∨ entry.invitation.expiresAt ≤ time then
        (.error (.protocol "pairing: invitation expired"), manager)
      else match callback with
        | .error error => (.error error, manager)
        | .ok value => (.ok value, { invitations := manager.invitations.erase id })

theorem isOpen_iff {manager : PairingManager} {time : Nat} {id : String} :
    manager.isOpen time id = true ↔ ∃ claimed, manager.claim time id = .ok claimed := by
  simp only [isOpen, claim]
  cases manager.invitations[id]? with
  | none => simp
  | some entry =>
      by_cases busy : entry.claimed = true ∨ 5 ≤ entry.attempts ∨ entry.invitation.expiresAt ≤ time
      · simp only [busy, if_true, Option.any_some, InvitationState.available]
        simp only [Bool.and_eq_true, decide_eq_true_eq, Bool.not_eq_true']
        constructor
        · rintro ⟨⟨unspent, unclaimed⟩, early⟩
          rcases busy with claimed | spent | past
          · simp [claimed] at unclaimed
          · omega
          · omega
        · simp
      · simp only [busy, if_false, Option.any_some, InvitationState.available]
        simp only [not_or, not_le, Bool.not_eq_true] at busy
        simp [busy]

section Operations

variable {manager after : PairingManager} {time : Nat} {id : String}

theorem create_ok {issued : Nat} {secret fingerprint : String} {metadata : DeviceMetadata}
    {ttl : Nat} {invitation : PairingInvitation}
    (created : manager.create issued time id secret metadata fingerprint ttl =
      (.ok invitation, after)) :
    invitation.invitationId = id ∧
      ∃ entries : BTreeMap String InvitationState, entries.size < 16 ∧
        (∀ (query : String) (entry : InvitationState), entries[query]? = some entry →
          manager.invitations[query]? = some entry) ∧
        after.invitations = entries.insert id {
          invitation
          attempts := 0
          claimed := false } := by
  simp only [create] at created
  split at created
  · simp at created
  · split at created
    · simp at created
    · split at created
      · simp at created
      · rename_i few
        simp only [Except.ok.injEq, Prod.mk.injEq] at created
        obtain ⟨rfl, rfl⟩ := created
        refine ⟨rfl, _, not_le.mp few, fun query entry found => ?_, rfl⟩
        rw [Std.ExtTreeMap.getElem?_filter'] at found
        exact (Option.filter_eq_some_iff.mp found).1

theorem create_error {issued : Nat} {secret fingerprint : String} {metadata : DeviceMetadata}
    {ttl : Nat} {error : Error}
    (refused : manager.create issued time id secret metadata fingerprint ttl =
      (.error error, after)) :
    after.invitations.size ≤ manager.invitations.size ∧
      ∀ (query : String) (entry : InvitationState), after.invitations[query]? = some entry →
        manager.invitations[query]? = some entry := by
  simp only [create] at refused
  split at refused
  · obtain ⟨-, rfl⟩ := Prod.mk.inj refused
    exact ⟨le_rfl, fun _ _ found => found⟩
  · split at refused
    · obtain ⟨-, rfl⟩ := Prod.mk.inj refused
      exact ⟨le_rfl, fun _ _ found => found⟩
    · split at refused
      · obtain ⟨-, rfl⟩ := Prod.mk.inj refused
        refine ⟨Std.ExtTreeMap.size_filter_le_size, fun query entry found => ?_⟩
        rw [Std.ExtTreeMap.getElem?_filter'] at found
        exact (Option.filter_eq_some_iff.mp found).1
      · simp at refused

theorem claim_ok {invitation : PairingInvitation}
    (claimed : manager.claim time id = .ok (invitation, after)) :
    ∃ entry, manager.invitations[id]? = some entry ∧ entry.claimed = false ∧ entry.attempts < 5 ∧
      time < entry.invitation.expiresAt ∧ after.invitations = manager.invitations.insert id { entry with
        attempts := entry.attempts + 1
        claimed := true } := by
  simp only [claim] at claimed
  split at claimed
  · simp at claimed
  · rename_i entry found
    split at claimed
    · simp at claimed
    · rename_i free
      simp only [not_or, not_le, Bool.not_eq_true] at free
      simp only [Except.ok.injEq, Prod.mk.injEq] at claimed
      obtain ⟨-, rfl⟩ := claimed
      exact ⟨entry, found, free.1, free.2.1, free.2.2, rfl⟩

theorem commit_ok {T : Type} {callback : Except Error T} {value : T}
    (committed : manager.commit time id callback = (.ok value, after)) :
    ∃ entry, manager.invitations[id]? = some entry ∧ entry.claimed = true ∧
      time < entry.invitation.expiresAt ∧ after.invitations = manager.invitations.erase id := by
  simp only [commit] at committed
  split at committed
  · simp at committed
  · rename_i entry found
    split at committed
    · simp at committed
    · rename_i open_
      split at committed
      · simp at committed
      · simp only [not_or, not_not, not_le] at open_
        simp only [Prod.mk.injEq] at committed
        obtain ⟨-, rfl⟩ := committed
        exact ⟨entry, found, open_.1, open_.2, rfl⟩

theorem commit_error {T : Type} {callback : Except Error T} {error : Error}
    (failed : manager.commit time id callback = (.error error, after)) : after = manager := by
  simp only [commit] at failed
  split at failed
  · exact (Prod.mk.inj failed).2.symm
  · split at failed
    · exact (Prod.mk.inj failed).2.symm
    · split at failed
      · exact (Prod.mk.inj failed).2.symm
      · simp at failed

end Operations

end PairingManager

section Registry

/-- What happened to invitations; a claim or commit with the time it was checked at. -/
inductive Occurrence where
  | created (invitation : PairingInvitation)
  | claimed (run : Nat) (id : String) (time : Nat)
  | released (run : Nat) (id : String)
  | committed (run : Nat) (id : String) (time : Nat)
  | revoked (id : String)
  | closed

namespace Occurrence

def creates (id : String) : Occurrence → Bool
  | .created invitation => invitation.invitationId = id
  | _ => false

def claims (id : String) : Occurrence → Bool
  | .claimed _ other _ => other = id
  | _ => false

def commits (id : String) : Occurrence → Bool
  | .committed _ other _ => other = id
  | _ => false

/-- No claim or commit of the invitation may follow. -/
def ends (id : String) : Occurrence → Bool
  | .committed _ other _ => other = id
  | .revoked other => other = id
  | .closed => true
  | _ => false

def uses : Occurrence → Option (String × Nat)
  | .claimed _ id time => some (id, time)
  | .committed _ id time => some (id, time)
  | _ => none

end Occurrence

/-- The table, the clock, the `accept_secure` runs that hold a claim, and what happened so far,
newest first. -/
structure Registry where
  manager : PairingManager
  time : Nat
  claimants : List (Nat × String)
  history : List Occurrence

inductive RegistryEvent where
  | tick (elapsed : Nat)
  | create (issued : Nat) (id secret : String) (metadata : DeviceMetadata) (fingerprint : String)
      (ttl : Nat)
  | claim (run : Nat) (id : String)
  | release (run : Nat) (id : String)
  | commit (run : Nat) (id : String) (outcome : Except Error Unit) (elapsed : Nat)
  | revoke (id : String)
  | close

namespace Registry

def start (time : Nat) : Registry where
  manager := .empty
  time := time
  claimants := []
  history := []

/-- One operation on the table. New ids are random and never drawn twice, a run holds one claim at
a time, and it commits and releases what it claimed. Time passes while a commit's callback runs. -/
def step (s : Registry) : RegistryEvent → Option Registry
  | .tick elapsed => some { s with time := s.time + elapsed }
  | .create issued id secret metadata fingerprint ttl =>
      if issued ≤ s.time ∧ s.history.any (Occurrence.creates id) = false then
        match s.manager.create issued s.time id secret metadata fingerprint ttl with
        | (.error _, manager) => some { s with manager }
        | (.ok invitation, manager) =>
            some { s with manager, history := .created invitation :: s.history }
      else none
  | .claim run id =>
      if run ∈ s.claimants.map Prod.fst then none
      else match s.manager.claim s.time id with
        | .error _ => some s
        | .ok (_, manager) => some { s with
            manager
            claimants := (run, id) :: s.claimants
            history := .claimed run id s.time :: s.history }
  | .release run id =>
      if (run, id) ∈ s.claimants then some { s with
        manager := s.manager.release id
        claimants := s.claimants.erase (run, id)
        history := .released run id :: s.history }
      else none
  | .commit run id outcome elapsed =>
      if (run, id) ∈ s.claimants then
        match s.manager.commit s.time id outcome with
        | (.error _, manager) => some { s with manager, time := s.time + elapsed }
        | (.ok _, manager) => some { s with
            manager
            time := s.time + elapsed
            history := .committed run id s.time :: s.history }
      else none
  | .revoke id => some { s with
      manager := s.manager.revoke id
      history := .revoked id :: s.history }
  | .close => some { s with manager := s.manager.close, history := .closed :: s.history }

end Registry

def Outstanding (invitation : PairingInvitation) (history : List Occurrence) : Prop :=
  ∃ since before, history = since ++ .created invitation :: before ∧
    ∀ occurrence ∈ since, occurrence.ends invitation.invitationId = false

def Usable (id : String) (time : Nat) (history : List Occurrence) : Prop :=
  ∃ invitation, invitation.invitationId = id ∧ Outstanding invitation history ∧
    time < invitation.expiresAt

def Orderly : List Occurrence → Prop
  | [] => True
  | occurrence :: earlier => (∀ id time, occurrence.uses = some (id, time) →
      Usable id time earlier) ∧ Orderly earlier

theorem Outstanding.cons {invitation : PairingInvitation} {history : List Occurrence}
    (outstanding : Outstanding invitation history) {occurrence : Occurrence}
    (goes_on : occurrence.ends invitation.invitationId = false) :
    Outstanding invitation (occurrence :: history) := by
  obtain ⟨since, before, rfl, quiet⟩ := outstanding
  refine ⟨occurrence :: since, before, rfl, fun other member => ?_⟩
  rcases List.mem_cons.mp member with rfl | member
  · exact goes_on
  · exact quiet other member

/-- What the table knows about an open invitation agrees with what happened to it. -/
structure Registry.Open (s : Registry) (id : String) (entry : InvitationState) : Prop where
  named : entry.invitation.invitationId = id
  outstanding : Outstanding entry.invitation s.history
  attempts : s.history.countP (Occurrence.claims id) = entry.attempts
  bounded : entry.attempts ≤ 5
  uncommitted : s.history.countP (Occurrence.commits id) = 0
  unclaimed : entry.claimed = false → id ∉ s.claimants.map Prod.snd

structure Registry.Sound (s : Registry) : Prop where
  few : s.manager.invitations.size ≤ 16
  entries : ∀ (id : String) (entry : InvitationState), s.manager.invitations[id]? = some entry →
    s.Open id entry
  claims : ∀ id, s.history.countP (Occurrence.claims id) ≤ 5
  commits : ∀ id, s.history.countP (Occurrence.commits id) ≤ 1
  unknown : ∀ id, s.history.any (Occurrence.creates id) = false →
    s.history.countP (Occurrence.claims id) = 0 ∧ s.history.countP (Occurrence.commits id) = 0 ∧
      id ∉ s.claimants.map Prod.snd
  single : (s.claimants.map Prod.snd).Nodup
  orderly : Orderly s.history

theorem Occurrence.commits_of_ends {occurrence : Occurrence} {id : String}
    (goes_on : occurrence.ends id = false) : occurrence.commits id = false := by
  cases occurrence <;> simp_all [Occurrence.ends, Occurrence.commits]

theorem Registry.Open.log {s after : Registry} {id : String} {entry : InvitationState}
    {occurrence : Occurrence} (was : s.Open id entry)
    (logged : after.history = occurrence :: s.history) (goes_on : occurrence.ends id = false)
    (elsewhere : occurrence.claims id = false)
    (unclaimed : entry.claimed = false → id ∉ after.claimants.map Prod.snd) :
    after.Open id entry where
  named := was.named
  outstanding := by
    rw [logged]
    exact was.outstanding.cons (was.named ▸ goes_on)
  attempts := by
    rw [logged, List.countP_cons, elsewhere]
    exact was.attempts
  bounded := was.bounded
  uncommitted := by
    rw [logged, List.countP_cons, Occurrence.commits_of_ends goes_on]
    exact was.uncommitted
  unclaimed := unclaimed

theorem not_claimed_erase {claimants : List (Nat × String)} {run : Nat} {id : String}
    (single : (claimants.map Prod.snd).Nodup) (held : (run, id) ∈ claimants) :
    id ∉ (claimants.erase (run, id)).map Prod.snd := by
  induction claimants with
  | nil => simp at held
  | cons first rest ih =>
      simp only [List.map_cons, List.nodup_cons] at single
      by_cases here : first = (run, id)
      · subst here
        rw [List.erase_cons_head]
        exact single.1
      · rcases List.mem_cons.mp held with rfl | member
        · exact absurd rfl here
        · rw [List.erase_cons_tail (by simpa using here), List.map_cons, List.mem_cons, not_or]
          refine ⟨fun same => single.1 ?_, ih single.2 member⟩
          rw [← same]
          exact List.mem_map_of_mem member

theorem size_insert_present {map : BTreeMap String InvitationState} {id : String}
    {entry replaced : InvitationState} (found : map[id]? = some entry) :
    (map.insert id replaced).size = map.size := by
  rw [Std.ExtTreeMap.size_insert, Std.ExtTreeMap.contains_eq_isSome_getElem?, found]
  rfl

namespace Registry.Sound

variable {s after : Registry}

theorem start (time : Nat) : (Registry.start time).Sound where
  few := by simp [Registry.start, PairingManager.empty]
  entries id entry found := by simp [Registry.start, PairingManager.empty] at found
  claims id := by simp [Registry.start]
  commits id := by simp [Registry.start]
  unknown id _ := by simp [Registry.start]
  single := by simp [Registry.start]
  orderly := trivial

theorem known (sound : s.Sound) {id : String} {entry : InvitationState}
    (found : s.manager.invitations[id]? = some entry) :
    s.history.any (Occurrence.creates id) = true := by
  obtain ⟨named, ⟨since, before, same, _⟩, _⟩ := sound.entries id entry found
  rw [same, List.any_append, List.any_cons]
  simp [Occurrence.creates, named]

theorem tick (sound : s.Sound) (elapsed : Nat) :
    Registry.Sound { s with time := s.time + elapsed } :=
  { sound with entries := fun id entry found => { sound.entries id entry found with } }

theorem thin (sound : s.Sound) {manager : PairingManager}
    (few : manager.invitations.size ≤ s.manager.invitations.size)
    (kept : ∀ (id : String) (entry : InvitationState), manager.invitations[id]? = some entry →
      s.manager.invitations[id]? = some entry) : Registry.Sound { s with manager } :=
  { sound with
    few := few.trans sound.few
    entries := fun id entry found => { sound.entries id entry (kept id entry found) with } }

theorem create (sound : s.Sound) {issued ttl : Nat} {id secret fingerprint : String}
    {metadata : DeviceMetadata} {invitation : PairingInvitation} {manager : PairingManager}
    (fresh : s.history.any (Occurrence.creates id) = false)
    (created : s.manager.create issued s.time id secret metadata fingerprint ttl =
      (.ok invitation, manager)) :
    Registry.Sound { s with manager, history := .created invitation :: s.history } := by
  obtain ⟨named, entries, few, subset, inserted⟩ := PairingManager.create_ok created
  obtain ⟨unclaimed, uncommitted, unheld⟩ := sound.unknown id fresh
  refine {
    few := ?_
    entries := fun query entry found => ?_
    claims := fun query => by simpa [Occurrence.claims] using sound.claims query
    commits := fun query => by simpa [Occurrence.commits] using sound.commits query
    unknown := fun query new => ?_
    single := sound.single
    orderly := ⟨by simp [Occurrence.uses], sound.orderly⟩ }
  · simp only [inserted]
    exact (Std.ExtTreeMap.size_insert_le).trans few
  · simp only [inserted, BTreeMap.get_insert] at found
    split at found
    · rename_i here
      subst here
      obtain rfl := Option.some.inj found
      refine ⟨named, ⟨[], s.history, rfl, by simp⟩, ?_, Nat.zero_le _, ?_, fun _ => unheld⟩
      · simpa [Occurrence.claims] using unclaimed
      · simpa [Occurrence.commits] using uncommitted
    · have was := sound.entries query entry (subset query entry found)
      exact was.log rfl rfl rfl was.unclaimed
  · rw [List.any_cons, Bool.or_eq_false_iff] at new
    simpa [Occurrence.claims, Occurrence.commits] using sound.unknown query new.2

theorem claim (sound : s.Sound) {run : Nat} {id : String} {invitation : PairingInvitation}
    {manager : PairingManager}
    (claimed : s.manager.claim s.time id = .ok (invitation, manager)) :
    Registry.Sound { s with
      manager
      claimants := (run, id) :: s.claimants
      history := .claimed run id s.time :: s.history } := by
  obtain ⟨entry, found, unclaimed, few, early, inserted⟩ := PairingManager.claim_ok claimed
  have was := sound.entries id entry found
  have unheld := was.unclaimed unclaimed
  have counted := was.attempts
  refine {
    few := ?_
    entries := fun query other present => ?_
    claims := fun query => ?_
    commits := fun query => by simpa [Occurrence.commits] using sound.commits query
    unknown := fun query new => ?_
    single := by simpa using ⟨by simpa using unheld, sound.single⟩
    orderly := ⟨?_, sound.orderly⟩ }
  · simp only [inserted, size_insert_present found]
    exact sound.few
  · simp only [inserted, BTreeMap.get_insert] at present
    split at present
    · rename_i here
      subst here
      obtain rfl := Option.some.inj present
      refine ⟨was.named, was.outstanding.cons rfl, ?_, few, ?_, by simp⟩
      · simp [Occurrence.claims, counted]
      · simpa [Occurrence.commits] using was.uncommitted
    · rename_i apart
      have kept := sound.entries query other present
      refine kept.log rfl rfl ?_ fun free => ?_
      · simpa [Occurrence.claims] using Ne.symm apart
      · simpa [apart] using kept.unclaimed free
  · rw [List.countP_cons]
    by_cases here : query = id
    · subst here
      simp only [Occurrence.claims, decide_true, if_true]
      omega
    · simpa [Occurrence.claims, Ne.symm here] using sound.claims query
  · rw [List.any_cons, Bool.or_eq_false_iff] at new
    have apart : query ≠ id := by
      rintro rfl
      simp [sound.known found] at new
    obtain ⟨claims, commits, free⟩ := sound.unknown query new.2
    refine ⟨?_, ?_, ?_⟩
    · simpa [Occurrence.claims, Ne.symm apart] using claims
    · simpa [Occurrence.commits] using commits
    · simpa [apart] using free
  · rintro query time used
    simp only [Occurrence.uses, Option.some.injEq, Prod.mk.injEq] at used
    obtain ⟨rfl, rfl⟩ := used
    exact ⟨entry.invitation, was.named, was.outstanding, early⟩

theorem release (sound : s.Sound) {run : Nat} {id : String} (held : (run, id) ∈ s.claimants) :
    Registry.Sound { s with
      manager := s.manager.release id
      claimants := s.claimants.erase (run, id)
      history := .released run id :: s.history } := by
  have unheld := not_claimed_erase sound.single held
  have fewer : ((s.claimants.erase (run, id)).map Prod.snd).Sublist (s.claimants.map Prod.snd) :=
    List.erase_sublist.map _
  refine {
    few := ?_
    entries := fun query entry found => ?_
    claims := fun query => by simpa [Occurrence.claims] using sound.claims query
    commits := fun query => by simpa [Occurrence.commits] using sound.commits query
    unknown := fun query new => ?_
    single := sound.single.sublist fewer
    orderly := ⟨by simp [Occurrence.uses], sound.orderly⟩ }
  · simp only [PairingManager.release]
    split
    · exact sound.few
    · rename_i entry found
      rw [size_insert_present found]
      exact sound.few
  · simp only [PairingManager.release] at found
    split at found
    · have was := sound.entries query entry found
      exact was.log rfl rfl rfl fun free member => was.unclaimed free (fewer.subset member)
    · rename_i open_ present
      rw [BTreeMap.get_insert] at found
      split at found
      · rename_i here
        subst here
        obtain rfl := Option.some.inj found
        have was := sound.entries query open_ present
        refine ⟨was.named, was.outstanding.cons rfl, ?_, was.bounded, ?_, fun _ => unheld⟩
        · simpa [Occurrence.claims] using was.attempts
        · simpa [Occurrence.commits] using was.uncommitted
      · have was := sound.entries query entry found
        exact was.log rfl rfl rfl fun free member => was.unclaimed free (fewer.subset member)
  · rw [List.any_cons, Bool.or_eq_false_iff] at new
    obtain ⟨claims, commits, free⟩ := sound.unknown query new.2
    refine ⟨?_, ?_, fun member => free (fewer.subset member)⟩
    · simpa [Occurrence.claims] using claims
    · simpa [Occurrence.commits] using commits

theorem commit (sound : s.Sound) {run elapsed : Nat} {id : String} {outcome : Except Error Unit}
    {manager : PairingManager}
    (committed : s.manager.commit s.time id outcome = (.ok (), manager)) :
    Registry.Sound { s with
      manager
      time := s.time + elapsed
      history := .committed run id s.time :: s.history } := by
  obtain ⟨entry, found, _, early, erased⟩ := PairingManager.commit_ok committed
  have was := sound.entries id entry found
  have first := was.uncommitted
  refine {
    few := ?_
    entries := fun query other present => ?_
    claims := fun query => by simpa [Occurrence.claims] using sound.claims query
    commits := fun query => ?_
    unknown := fun query new => ?_
    single := sound.single
    orderly := ⟨?_, sound.orderly⟩ }
  · simp only [erased]
    exact (Std.ExtTreeMap.size_erase_le).trans sound.few
  · simp only [erased, BTreeMap.get_erase] at present
    split at present
    · simp at present
    · rename_i apart
      have kept := sound.entries query other present
      refine kept.log rfl ?_ rfl kept.unclaimed
      simpa [Occurrence.ends] using Ne.symm apart
  · rw [List.countP_cons]
    by_cases here : query = id
    · subst here
      simp [Occurrence.commits, first]
    · simpa [Occurrence.commits, Ne.symm here] using sound.commits query
  · rw [List.any_cons, Bool.or_eq_false_iff] at new
    have apart : query ≠ id := by
      rintro rfl
      simp [sound.known found] at new
    obtain ⟨claims, commits, free⟩ := sound.unknown query new.2
    refine ⟨?_, ?_, free⟩
    · simpa [Occurrence.claims] using claims
    · simpa [Occurrence.commits, Ne.symm apart] using commits
  · rintro query time used
    simp only [Occurrence.uses, Option.some.injEq, Prod.mk.injEq] at used
    obtain ⟨rfl, rfl⟩ := used
    exact ⟨entry.invitation, was.named, was.outstanding, early⟩

theorem withdraw (sound : s.Sound) {manager : PairingManager} {occurrence : Occurrence}
    (few : manager.invitations.size ≤ s.manager.invitations.size)
    (kept : ∀ (id : String) (entry : InvitationState), manager.invitations[id]? = some entry →
      s.manager.invitations[id]? = some entry ∧ occurrence.ends id = false)
    (unused : occurrence.uses = none) (uncreated : ∀ id, occurrence.creates id = false)
    (uncommitted : ∀ id, occurrence.commits id = false)
    (unclaimed : ∀ id, occurrence.claims id = false) :
    Registry.Sound { s with manager, history := occurrence :: s.history } where
  few := few.trans sound.few
  entries id entry found := by
    obtain ⟨present, goes_on⟩ := kept id entry found
    have was := sound.entries id entry present
    exact was.log rfl goes_on (unclaimed id) was.unclaimed
  claims id := by
    simpa [unclaimed] using sound.claims id
  commits id := by
    simpa [uncommitted] using sound.commits id
  unknown id new := by
    simp only [List.any_cons, uncreated, Bool.false_or] at new
    simpa [unclaimed, uncommitted] using sound.unknown id new
  single := sound.single
  orderly := ⟨by simp [unused], sound.orderly⟩

theorem step {event : RegistryEvent} (sound : s.Sound) (stepped : s.step event = some after) :
    after.Sound := by
  cases event with
  | tick elapsed =>
      obtain rfl := Option.some.inj stepped
      exact sound.tick elapsed
  | create =>
      simp only [Registry.step] at stepped
      split at stepped
      · rename_i allowed
        split at stepped
        · rename_i refused
          obtain ⟨few, kept⟩ := PairingManager.create_error refused
          exact Option.some.inj stepped ▸ sound.thin few kept
        · rename_i created
          exact Option.some.inj stepped ▸ sound.create allowed.2 created
      · simp at stepped
  | claim =>
      simp only [Registry.step] at stepped
      split at stepped
      · simp at stepped
      · split at stepped
        · exact Option.some.inj stepped ▸ sound
        · rename_i claimed
          exact Option.some.inj stepped ▸ sound.claim claimed
  | release =>
      simp only [Registry.step] at stepped
      split at stepped
      · rename_i held
        exact Option.some.inj stepped ▸ sound.release held
      · simp at stepped
  | commit run id outcome elapsed =>
      simp only [Registry.step] at stepped
      split at stepped
      · split at stepped
        · rename_i failed
          obtain rfl := PairingManager.commit_error failed
          exact Option.some.inj stepped ▸ sound.tick elapsed
        · rename_i committed
          exact Option.some.inj stepped ▸ sound.commit committed
      · simp at stepped
  | revoke id =>
      obtain rfl := Option.some.inj stepped
      refine sound.withdraw Std.ExtTreeMap.size_erase_le (fun query entry found => ?_) rfl
        (fun _ => rfl) (fun _ => rfl) fun _ => rfl
      simp only [PairingManager.revoke, BTreeMap.get_erase] at found
      split at found
      · simp at found
      · rename_i apart
        exact ⟨found, by simpa [Occurrence.ends] using Ne.symm apart⟩
  | close =>
      obtain rfl := Option.some.inj stepped
      refine sound.withdraw (Nat.zero_le _) (fun query entry found => ?_) rfl
        (fun _ => rfl) (fun _ => rfl) fun _ => rfl
      simp [PairingManager.close, PairingManager.empty] at found

end Registry.Sound

structure OneShot (s : Registry) : Prop where
  commits : ∀ id, s.history.countP (Occurrence.commits id) ≤ 1
  claims : ∀ id, s.history.countP (Occurrence.claims id) ≤ 5
  claimant : ∀ (id : String) (first second : Nat), (first, id) ∈ s.claimants →
    (second, id) ∈ s.claimants → first = second
  orderly : Orderly s.history
  unexpired : (s.manager.invitations.filter fun _ entry =>
    s.time < entry.invitation.expiresAt).size ≤ 16

/-- In every interleaving of table operations by any number of pairings: an invitation is
committed once at most, claimed by one pairing at a time and five times at most, and only while
it is neither revoked nor closed, expired or committed. At most sixteen are unexpired. -/
theorem Registry.one_shot {time : Nat} {s : Registry}
    (reached : Transition.Reaches Registry.step (fun _ _ => True) (Registry.start time) s) :
    OneShot s := by
  have sound : s.Sound := reached.invariant (Registry.Sound.start time)
    fun _ _ _ sound _ stepped => sound.step stepped
  refine ⟨sound.commits, sound.claims, fun id first second left right => ?_, sound.orderly, ?_⟩
  · have same := List.inj_on_of_nodup_map sound.single left right rfl
    exact congrArg Prod.fst same
  · exact Std.ExtTreeMap.size_filter_le_size.trans sound.few

section Sample

def inviterMetadata : DeviceMetadata where
  displayName := "Desk"
  deviceKind := "desktop"
  role := "application"
  manifest := {
    appId := "app"
    displayName := "App"
    schemaVersion := 1
    adapters := [{ id := "records", keyNamespace := "app", schema := "kv", transactional := true }] }

def invitationId : String := "00000000000000000000000000000000"

def retriedPairing : List RegistryEvent :=
  [.create 0 invitationId "123456" inviterMetadata
      "0000000000000000000000000000000000000000000000000000000000000000" maxTtl,
    .claim 1 invitationId, .claim 2 invitationId,
    .commit 1 invitationId (.error .cancelled) 3, .release 1 invitationId,
    .claim 2 invitationId, .tick 20, .commit 2 invitationId (.ok ()) 1, .claim 3 invitationId]

theorem retriedPairing_runs :
    (Transition.run Registry.step (Registry.start 0) retriedPairing).isSome = true := by
  decide +kernel

def retriedRegistry : Registry :=
  (Transition.run Registry.step (Registry.start 0) retriedPairing).get retriedPairing_runs

theorem one_shot_retried : retriedRegistry.history.length = 5 ∧ OneShot retriedRegistry :=
  ⟨by decide +kernel, Registry.one_shot
    (Transition.reaches_of_run retriedPairing (Option.some_get retriedPairing_runs).symm)⟩

end Sample

end Registry

end LibreSync
