import LibreSync.Managed.World

/-!
One whole exchange of two sessions, as the caller runs it in `outbound` and the listener in
`inbound`: two hellos, and then a batch with its acknowledgement in each direction.
-/

namespace LibreSync.Managed

structure Attempt where
  change : RandomId
  transaction : RandomId
  saves : Saves

/-- What one side of an exchange brings: the generation it runs in, the certificate it is shown,
and the attempts of its five mutations. -/
structure Party where
  generation : Nat
  fingerprint : String
  addresses : List String
  token : RandomId
  authenticated : Attempt
  exported : Attempt
  transmitted : Attempt
  received : Attempt
  acknowledged : Attempt

section Exchange

variable {Proof : Type} [DecidableEq Proof] [ReceiptMac Proof]

def World.attempt (fleet : Fleet Proof) (w : World Proof) (node : String) (attempt : Attempt)
    (call : Call Proof) : Option (World Proof) :=
  if ((w.nodes node).perform (fleet.member node).inner attempt.change attempt.transaction
      attempt.saves call).1 = .ok () then
    World.step fleet w
      (.session node (.call attempt.change attempt.transaction attempt.saves call))
  else none

/-- The receiver authenticates a hello of the sender: the peer and cursor it goes on with. -/
def World.meet (fleet : Fleet Proof) (w : World Proof) (sender receiver : String)
    (addresses : List String) (party : Party) :
    Option ((Peer Proof × ManagedReceipt Proof) × World Proof) := do
  let greeted ← World.step fleet w (.greet sender receiver addresses)
  let hello ← greeted.hellos.head?
  let met ← greeted.attempt fleet receiver party.authenticated
    (.hello party.generation hello.message party.fingerprint)
  let peer ← (met.nodes receiver).envelope.peers[sender]?
  let cursor ← met.cursors.head?
  some ((peer, cursor.message), met)

/-- The sender's `send_batch` and the receiver's `receive_batch`. -/
def World.push (fleet : Fleet Proof) (w : World Proof) (sender receiver : String)
    (outgoing incoming : Party) (target source : Peer Proof) (cursor : ManagedReceipt Proof) :
    Option (World Proof) := do
  let exported ← w.attempt fleet sender outgoing.exported
    (.exportTo outgoing.generation target cursor)
  let batch ← exported.batches.head?
  let transmitted ← exported.attempt fleet sender outgoing.transmitted
    (.transmit outgoing.generation target batch.message)
  let received ← transmitted.attempt fleet receiver incoming.received
    (.receive incoming.generation incoming.token source batch.message)
  let ack ← received.acks.head?
  received.attempt fleet sender outgoing.acknowledged
    (.acknowledge outgoing.generation target batch.message ack.message .stored)

def World.exchange (fleet : Fleet Proof) (w : World Proof) (caller listener : String)
    (outbound inbound : Party) : Option (World Proof) := do
  let ((source, called), w) ← w.meet fleet caller listener outbound.addresses inbound
  let ((target, answered), w) ← w.meet fleet listener caller inbound.addresses outbound
  let w ← w.push fleet caller listener outbound inbound target source answered
  w.push fleet listener caller inbound outbound source target called

variable {fleet : Fleet Proof} {w after : World Proof} {node sender receiver : String}

theorem World.attempt_ok {attempt : Attempt} {call : Call Proof}
    (ran : w.attempt fleet node attempt call = some after) :
    World.step fleet w
        (.session node (.call attempt.change attempt.transaction attempt.saves call)) =
          some after ∧
      ∃ session, (w.nodes node).perform (fleet.member node).inner attempt.change
        attempt.transaction attempt.saves call = (.ok (), session) := by
  simp only [World.attempt] at ran
  split at ran
  · rename_i performed
    exact ⟨ran, _, Prod.ext performed rfl⟩
  · simp at ran

def Runs (fleet : Fleet Proof) (w after : World Proof) : Prop :=
  Transition.Reaches (World.step fleet) (fun _ _ => True) w after

def WorldEvent.meets : WorldEvent Proof → Bool
  | .greet .. => true
  | .session _ (.call _ _ _ (.hello ..)) => true
  | _ => false

def WorldEvent.pushes : WorldEvent Proof → Bool
  | .session _ (.call _ _ _ (.exportTo ..)) => true
  | .session _ (.call _ _ _ (.transmit ..)) => true
  | .session _ (.call _ _ _ (.receive ..)) => true
  | .session _ (.call _ _ _ (.acknowledge ..)) => true
  | _ => false

theorem World.attempt_reaches {allowed : World Proof → WorldEvent Proof → Prop}
    {attempt : Attempt} {call : Call Proof}
    (permitted : allowed w
      (.session node (.call attempt.change attempt.transaction attempt.saves call)))
    (ran : w.attempt fleet node attempt call = some after) :
    Transition.Reaches (World.step fleet) allowed w after :=
  .next .start permitted (World.attempt_ok ran).1

theorem World.meet_reaches {addresses : List String} {party : Party}
    {found : Peer Proof × ManagedReceipt Proof}
    (ran : w.meet fleet sender receiver addresses party = some (found, after)) :
    Transition.Reaches (World.step fleet) (fun _ event => event.meets = true) w after := by
  simp only [World.meet, Option.bind_eq_bind, Option.bind_eq_some_iff, Option.some.injEq,
    Prod.mk.injEq] at ran
  obtain ⟨greeted, stepped, _, _, met, authenticated, _, _, _, _, _, rfl⟩ := ran
  refine .trans (.next .start ?_ stepped) (World.attempt_reaches ?_ authenticated)
  · rfl
  · rfl

theorem World.push_reaches {outgoing incoming : Party} {target source : Peer Proof}
    {cursor : ManagedReceipt Proof}
    (ran : w.push fleet sender receiver outgoing incoming target source cursor = some after) :
    Transition.Reaches (World.step fleet) (fun _ event => event.pushes = true) w after := by
  simp only [World.push, Option.bind_eq_bind, Option.bind_eq_some_iff] at ran
  obtain ⟨_, exported, _, _, _, transmitted, _, received, _, _, acknowledged⟩ := ran
  refine .trans (.trans (.trans (World.attempt_reaches ?_ exported)
    (World.attempt_reaches ?_ transmitted)) (World.attempt_reaches ?_ received))
    (World.attempt_reaches ?_ acknowledged)
  · rfl
  · rfl
  · rfl
  · rfl

theorem World.attempt_runs {attempt : Attempt} {call : Call Proof}
    (ran : w.attempt fleet node attempt call = some after) : Runs fleet w after :=
  World.attempt_reaches trivial ran

theorem World.meet_runs {addresses : List String} {party : Party}
    {found : Peer Proof × ManagedReceipt Proof}
    (ran : w.meet fleet sender receiver addresses party = some (found, after)) :
    Runs fleet w after :=
  (World.meet_reaches ran).mono fun _ _ _ => trivial

theorem World.push_runs {outgoing incoming : Party} {target source : Peer Proof}
    {cursor : ManagedReceipt Proof}
    (ran : w.push fleet sender receiver outgoing incoming target source cursor = some after) :
    Runs fleet w after :=
  (World.push_reaches ran).mono fun _ _ _ => trivial

theorem World.exchange_runs {caller listener : String} {outbound inbound : Party}
    (ran : w.exchange fleet caller listener outbound inbound = some after) :
    Runs fleet w after := by
  simp only [World.exchange, Option.bind_eq_bind, Option.bind_eq_some_iff, Prod.exists] at ran
  obtain ⟨_, _, _, called, _, _, _, answered, _, pushed, returned⟩ := ran
  exact (((World.meet_runs called).trans (World.meet_runs answered)).trans
    (World.push_runs pushed)).trans (World.push_runs returned)

end Exchange

section Sample

def sampleFleet : Fleet SymbolicProof where
  member id :=
    if id = "desk" then desk.toInstallation
    else (sampleInstallation id (if id = "tablet" then 3 else 2)
      { text := "11111111111111111111111111111111", sized := rfl }).toInstallation
  named id := by
    split
    · rename_i here
      exact here.symm
    · rfl

theorem sampleFleet_uniform (id : String) : (sampleFleet.member id).inner.config.Uniform := by
  simp only [sampleFleet]
  split
  · exact desk.uniform
  · exact SessionConfig.new_uniform _

def deskOutcome : SecurePairingOutcome where
  invitationId := "invitation"
  identity := { deviceId := "desk", appId := "app", userId := "managed" }
  metadata := sampleMetadata
  fingerprint := "desk certificate"

def enrollDesk : List (SessionEvent SymbolicProof) :=
  [sampleCall .start, sampleCall (.commit {
      generation := 2
      expected := none
      addresses := []
      recovering := false
      repair := false } deskOutcome desk.groupKey sampleId fun _ => sampleId)]

def sampleAttempt : Attempt where
  change := sampleId
  transaction := sampleId
  saves := {}

def sampleParty (fingerprint : String) : Party where
  generation := 2
  fingerprint
  addresses := []
  token := sampleId
  authenticated := sampleAttempt
  exported := sampleAttempt
  transmitted := sampleAttempt
  received := sampleAttempt
  acknowledged := sampleAttempt

def bootstrapped : Option (World SymbolicProof) := do
  let w ← Transition.run (World.step sampleFleet) (World.start sampleFleet)
    (enrollPhone.map (.session "desk") ++ enrollDesk.map (.session "phone"))
  w.exchange sampleFleet "desk" "phone" (sampleParty "phone certificate")
    (sampleParty "desk certificate")

def noteBoth : List (WorldEvent SymbolicProof) :=
  [.session "desk" (sampleCall (.write "records" "note" [1] false)),
    .session "phone" (sampleCall (.write "records" "note" [2] false))]

def noted : Option (World SymbolicProof) := do
  let w ← bootstrapped
  Transition.run (World.step sampleFleet) w noteBoth

theorem noted_runs : noted.isSome = true := by
  decide +kernel

def notedWorld : World SymbolicProof := noted.get noted_runs

theorem notedWorld_reached : Runs sampleFleet (World.start sampleFleet) notedWorld := by
  have ran : noted = some notedWorld := (Option.some_get noted_runs).symm
  simp only [noted, bootstrapped, Option.bind_eq_bind, Option.bind_eq_some_iff] at ran
  obtain ⟨_, ⟨_, enrolled, met⟩, wrote⟩ := ran
  exact ((Transition.reaches_of_run _ enrolled).trans (World.exchange_runs met)).trans
    (Transition.reaches_of_run _ wrote)

def synced : Option (World SymbolicProof) :=
  notedWorld.exchange sampleFleet "desk" "phone" (sampleParty "phone certificate")
    (sampleParty "desk certificate")

theorem synced_runs : synced.isSome = true := by
  decide +kernel

def syncedWorld : World SymbolicProof := synced.get synced_runs

theorem syncedWorld_reached : Runs sampleFleet (World.start sampleFleet) syncedWorld :=
  notedWorld_reached.trans (World.exchange_runs (Option.some_get synced_runs).symm)

end Sample

end LibreSync.Managed
