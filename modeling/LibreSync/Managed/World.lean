import LibreSync.Managed.Effect

/-!
Any number of sessions and the messages between them. A message that was sent once may arrive
at any time, any number of times, or never.
-/

namespace LibreSync.Managed

structure Sent (Message : Type) where
  sender : String
  receiver : String
  message : Message
deriving DecidableEq

/-- Honest sessions, each under its own device id. -/
structure Fleet (Proof : Type) where
  member : String → Installation Proof
  named : ∀ id, (member id).identity.deviceId = id

/-- The sessions, what they sent to each other, the cursors they accepted from each other, and
what happened to the applications above them. -/
structure World (Proof : Type) where
  nodes : String → Session Proof
  hellos : List (Sent (Hello Proof))
  cursors : List (Sent (ManagedReceipt Proof))
  batches : List (Sent (ExportBatch Proof))
  acks : List (Sent (ManagedReceipt Proof))
  captured : List (String × Contents Proof)
  acknowledged : List (Sent (ManagedReceipt Proof))
  drawn : List String

inductive WorldEvent (Proof : Type) where
  | greet (node peer : String) (addresses : List String)
  | capture (node : String)
  | session (node : String) (event : SessionEvent Proof)

section Step

variable {Proof : Type}

def World.setNode (w : World Proof) (id : String) (session : Session Proof) : World Proof :=
  { w with nodes := Function.update w.nodes id session }

def World.start (fleet : Fleet Proof) : World Proof where
  nodes id := .opened (fleet.member id).first
  hellos := []
  cursors := []
  batches := []
  acks := []
  captured := []
  acknowledged := []
  drawn := []

def Call.draws (e : Contents Proof) : Call Proof → List String
  | .remove _ incarnation => [incarnation.text]
  | .commit _ _ _ incarnation rekeyed =>
      incarnation.text :: e.peers.keys.map fun id => (rekeyed id).text
  | _ => []

variable [DecidableEq Proof]

/-- What a call takes from the network was sent to the node by the device it names. -/
def World.delivers (w : World Proof) (node : String) : Call Proof → Bool
  | .hello _ message _ =>
      { sender := message.identity.deviceId, receiver := node, message } ∈ w.hellos
  | .exportTo _ peer cursor =>
      { sender := peer.identity.deviceId, receiver := node, message := cursor } ∈ w.cursors
  | .transmit _ peer batch =>
      { sender := node, receiver := peer.identity.deviceId, message := batch } ∈ w.batches
  | .acknowledge _ peer batch receipt disposition => disposition = .stored &&
      decide ({ sender := node, receiver := peer.identity.deviceId, message := batch } ∈
        w.batches) &&
      decide ({ sender := peer.identity.deviceId, receiver := node, message := receipt } ∈ w.acks)
  | .receive _ _ peer batch =>
      { sender := peer.identity.deviceId, receiver := node, message := batch } ∈ w.batches
  | _ => true

variable [ReceiptMac Proof]

/-- What a call hands to the network or to its application, computed on the envelope before. -/
def World.emit (w : World Proof) (node : String) (inner : Inner Proof) (change : String)
    (e : Contents Proof) : Call Proof → World Proof
  | .hello generation message fingerprint =>
      match authenticate inner generation message fingerprint e with
      | .error _ => w
      | .ok ((_, cursor), _) => { w with cursors := {
          sender := message.identity.deviceId
          receiver := node
          message := cursor } :: w.cursors }
  | .exportTo generation peer cursor =>
      match exportBatch inner generation peer cursor e with
      | .error _ => w
      | .ok (batch, _) => { w with batches := {
          sender := node
          receiver := peer.identity.deviceId
          message := batch } :: w.batches }
  | .receive generation token peer batch =>
      match receiveBatch inner generation token.text change peer batch e with
      | .ok (some receipt, _) => { w with acks := {
          sender := node
          receiver := peer.identity.deviceId
          message := receipt } :: w.acks }
      | _ => w
  | .acknowledgeApplied peer receipt => { w with acknowledged := {
      sender := node
      receiver := peer
      message := receipt } :: w.acknowledged }
  | .acknowledgeInbox inbox => { w with acknowledged :=
      (inbox.receipts.toList.map fun (peer, receipt) =>
        { sender := node, receiver := peer, message := receipt }) ++ w.acknowledged }
  | _ => w

def World.step (fleet : Fleet Proof) (w : World Proof) : WorldEvent Proof → Option (World Proof)
  | .greet node peer addresses =>
      let e := (w.nodes node).envelope.toContents
      e.peers[peer]?.map fun p => { w with hellos := {
        sender := node
        receiver := peer
        message := hello (fleet.member node).inner e p addresses } :: w.hellos }
  | .capture node =>
      some { w with captured := (node, (w.nodes node).envelope.toContents) :: w.captured }
  | .session node (.reopen outcome) =>
      ((fleet.member node).step (w.nodes node) (.reopen outcome)).map (w.setNode node)
  | .session node (.call change transaction saves call) =>
      if w.delivers node call then
        let inner := (fleet.member node).inner
        let e := (w.nodes node).envelope.toContents
        let (result, session) := (w.nodes node).perform inner change transaction saves call
        let next := { w.setNode node session with drawn := call.draws e ++ w.drawn }
        match result with
        | .ok () => some (next.emit node inner change.text e call)
        | .error _ => some next
      else none

end Step

section Moves

variable {Proof : Type} [DecidableEq Proof] [ReceiptMac Proof] {fleet : Fleet Proof}
  {w after : World Proof} {node : String} {inner : Inner Proof} {change : String}
  {e : Contents Proof} {call : Call Proof}

inductive Issues (inner : Inner Proof) (change : String) (e : Contents Proof) (node : String) :
    Call Proof → World Proof → World Proof → Prop where
  | nothing {call : Call Proof} {w : World Proof} : Issues inner change e node call w w
  | cursor {w : World Proof} {generation : Nat} {message : Hello Proof} {fingerprint : String}
      {peer : Peer Proof} {cursor : ManagedReceipt Proof} {after : Contents Proof}
      (ran : authenticate inner generation message fingerprint e = .ok ((peer, cursor), after)) :
      Issues inner change e node (.hello generation message fingerprint) w { w with cursors := {
        sender := message.identity.deviceId
        receiver := node
        message := cursor } :: w.cursors }
  | batch {w : World Proof} {generation : Nat} {peer : Peer Proof}
      {cursor : ManagedReceipt Proof} {batch : ExportBatch Proof} {after : Contents Proof}
      (ran : exportBatch inner generation peer cursor e = .ok (batch, after)) :
      Issues inner change e node (.exportTo generation peer cursor) w { w with batches := {
        sender := node
        receiver := peer.identity.deviceId
        message := batch } :: w.batches }
  | ack {w : World Proof} {generation : Nat} {token : RandomId} {peer : Peer Proof}
      {batch : ExportBatch Proof} {receipt : ManagedReceipt Proof} {after : Contents Proof}
      (ran : receiveBatch inner generation token.text change peer batch e =
        .ok (some receipt, after)) :
      Issues inner change e node (.receive generation token peer batch) w { w with acks := {
        sender := node
        receiver := peer.identity.deviceId
        message := receipt } :: w.acks }
  | applied {w : World Proof} {peer : String} {receipt : ManagedReceipt Proof} :
      Issues inner change e node (.acknowledgeApplied peer receipt) w { w with acknowledged := {
        sender := node
        receiver := peer
        message := receipt } :: w.acknowledged }
  | handled {w : World Proof} {inbox : ApplicationInbox Proof} :
      Issues inner change e node (.acknowledgeInbox inbox) w { w with acknowledged :=
        (inbox.receipts.toList.map fun (peer, receipt) =>
          { sender := node, receiver := peer, message := receipt }) ++ w.acknowledged }

theorem World.emit_issues (w : World Proof) (node : String) (inner : Inner Proof)
    (change : String) (e : Contents Proof) (call : Call Proof) :
    Issues inner change e node call w (w.emit node inner change e call) := by
  cases call with
  | hello generation message fingerprint =>
      simp only [World.emit]
      split
      · exact .nothing
      · rename_i ran
        exact .cursor ran
  | exportTo generation peer cursor =>
      simp only [World.emit]
      split
      · exact .nothing
      · rename_i ran
        exact .batch ran
  | receive generation token peer batch =>
      simp only [World.emit]
      split
      · rename_i ran
        exact .ack ran
      · exact .nothing
  | acknowledgeApplied => exact .applied
  | acknowledgeInbox => exact .handled
  | _ => exact .nothing

/-- What an event of one session does to the world: other sessions stay, and only a call that
reports success hands anything out. -/
inductive SessionMove (fleet : Fleet Proof) (w : World Proof) (node : String) :
    SessionEvent Proof → World Proof → Prop where
  | reopened {outcome : SaveOutcome} {session : Session Proof}
      (stepped : (fleet.member node).step (w.nodes node) (.reopen outcome) = some session) :
      SessionMove fleet w node (.reopen outcome) (w.setNode node session)
  | failed {change transaction : RandomId} {saves : Saves} {call : Call Proof} {error : Error}
      {session : Session Proof} (delivered : w.delivers node call = true)
      (performed : (w.nodes node).perform (fleet.member node).inner change transaction saves call =
        (.error error, session)) :
      SessionMove fleet w node (.call change transaction saves call) { w.setNode node session with
        drawn := call.draws (w.nodes node).envelope.toContents ++ w.drawn }
  | succeeded {change transaction : RandomId} {saves : Saves} {call : Call Proof}
      {session : Session Proof} {after : World Proof} (delivered : w.delivers node call = true)
      (performed : (w.nodes node).perform (fleet.member node).inner change transaction saves call =
        (.ok (), session))
      (issued : Issues (fleet.member node).inner change.text (w.nodes node).envelope.toContents
        node call { w.setNode node session with
          drawn := call.draws (w.nodes node).envelope.toContents ++ w.drawn } after) :
      SessionMove fleet w node (.call change transaction saves call) after

theorem World.step_session {event : SessionEvent Proof}
    (moved : World.step fleet w (.session node event) = some after) :
    SessionMove fleet w node event after := by
  cases event with
  | reopen outcome =>
      obtain ⟨session, stepped, rfl⟩ := Option.map_eq_some_iff.mp moved
      exact .reopened stepped
  | call change transaction saves call =>
      simp only [World.step] at moved
      split at moved
      · rename_i delivered
        split at moved
        · rename_i ran
          obtain rfl := Option.some.inj moved
          exact .succeeded delivered (Prod.ext ran rfl) (World.emit_issues ..)
        · rename_i ran
          obtain rfl := Option.some.inj moved
          exact .failed delivered (Prod.ext ran rfl)
      · simp at moved

theorem Issues.nodes (issues : Issues inner change e node call w after) :
    after.nodes = w.nodes := by
  cases issues <;> rfl

theorem Issues.hellos (issues : Issues inner change e node call w after) :
    after.hellos = w.hellos := by
  cases issues <;> rfl

theorem Issues.batches (issues : Issues inner change e node call w after)
    {sent : Sent (ExportBatch Proof)} (member : sent ∈ w.batches) : sent ∈ after.batches := by
  cases issues with
  | batch => exact List.mem_cons_of_mem _ member
  | _ => exact member

namespace SessionMove

variable {event : SessionEvent Proof}

theorem stepped (move : SessionMove fleet w node event after) :
    (fleet.member node).step (w.nodes node) event = some (after.nodes node) := by
  cases move with
  | reopened stepped => simpa [World.setNode] using stepped
  | failed _ performed =>
      simp only [Installation.step, performed]
      simp [World.setNode]
  | succeeded _ performed issued =>
      simp only [Installation.step, performed, issued.nodes]
      simp [World.setNode]

theorem others (move : SessionMove fleet w node event after) {id : String} (apart : id ≠ node) :
    after.nodes id = w.nodes id := by
  cases move with
  | reopened => simp [World.setNode, apart]
  | failed => simp [World.setNode, apart]
  | succeeded _ _ issued =>
      rw [issued.nodes]
      simp [World.setNode, apart]

theorem hellos (move : SessionMove fleet w node event after) : after.hellos = w.hellos := by
  cases move with
  | succeeded _ _ issued => rw [issued.hellos]; rfl
  | _ => rfl

theorem batches (move : SessionMove fleet w node event after) {sent : Sent (ExportBatch Proof)}
    (member : sent ∈ w.batches) : sent ∈ after.batches := by
  cases move with
  | succeeded _ _ issued => exact issued.batches member
  | _ => exact member

theorem delivered {change transaction : RandomId} {saves : Saves}
    (move : SessionMove fleet w node (.call change transaction saves call) after) :
    w.delivers node call = true := by
  cases move with
  | failed delivered => exact delivered
  | succeeded delivered => exact delivered

theorem views (move : SessionMove fleet w node event after)
    (sound : ∀ id, (w.nodes id).Holds (Sound (fleet.member id))) {id : String}
    {view : Contents Proof} (shows : (after.nodes id).Shows view) :
    (∃ old, (w.nodes id).Shows old ∧ Kin old view) ∨ id = node ∧
      ∃ change call candidate, w.delivers node call = true ∧
        (w.nodes node).storageUncertain = false ∧
        operate (fleet.member node).inner change call (w.nodes node).envelope.toContents =
          .ok candidate ∧ Kin candidate view ∧ (after.nodes node).durable = view := by
  by_cases here : id = node
  · subst here
    rcases Installation.shows (sound id) move.stepped shows with kept |
      ⟨change, _, _, call, candidate, rfl, free, _, operated, kin, durable⟩
    · exact Or.inl kept
    · exact Or.inr ⟨rfl, change.text, call, candidate, move.delivered, free, operated, kin, durable⟩
  · rw [move.others here] at shows
    exact Or.inl ⟨view, shows, .refl _⟩

end SessionMove

end Moves

end LibreSync.Managed
