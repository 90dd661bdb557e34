import LibreSync.Managed.Application

/-!
The life of a session and of its peers: start, stop, pause, removal, what the scheduler writes
after a failed exchange, and what discovery learns.
-/

namespace LibreSync.Managed

section Operations

variable {Proof : Type}

def nextGeneration (e : Contents Proof) : Except Error (Contents Proof) :=
  (checkedNext e.generation "generation exhausted").map fun generation => { e with generation }

def start (e : Contents Proof) : Except Error (Unit × Contents Proof) :=
  (nextGeneration e).map fun e => ((), { e with phase := .running })

def stop (phase : SessionPhase) (e : Contents Proof) : Except Error (Unit × Contents Proof) :=
  if e.phase = phase then .ok ((), e)
  else (nextGeneration e).map fun e => ((), { e with phase })

def removePeer (peer incarnation : String) (e : Contents Proof) :
    Except Error (Unit × Contents Proof) :=
  match e.peers[peer]? with
  | none => .error (.protocol "unknown peer")
  | some p =>
      (nextGeneration (e.setPeer peer { p with
        revoked := true
        incarnation
        state := .paused
        pending := none })).map fun e => ((), { e with
          enrollments := e.enrollments.filter fun _ job =>
            job.outcome.identity.deviceId ≠ peer
          preparations := e.preparations.filter fun _ job =>
            job.outcome.identity.deviceId ≠ peer })

def pausePeer (peer : String) (e : Contents Proof) : Except Error (Unit × Contents Proof) :=
  match e.peers[peer]? with
  | none => .error .cancelled
  | some p => (nextGeneration (e.setPeer peer { p with state := .paused })).map fun e => ((), e)

def resumePeer (peer : String) (e : Contents Proof) : Except Error (Unit × Contents Proof) :=
  match e.peers[peer]? with
  | none => .error .cancelled
  | some p =>
      if p.revoked then fail "removed peer requires explicit repair"
      else .ok ((), e.setPeer peer { p with state := .waiting })

def certificateChanged : Error → Bool
  | .fingerprintMismatch .. => true
  | _ => false

/-- The scheduler's mutation after `outbound` failed. -/
def scheduleFailed (peer : String) (error : Error) (e : Contents Proof) :
    Except Error (Unit × Contents Proof) :=
  match e.peers[peer]? with
  | none => .ok ((), e)
  | some p =>
      if p.revoked then .ok ((), e)
      else .ok ((), e.setPeer peer { p with
        state := if certificateChanged error then .needsRepair else .waiting })

/-- What the discovery worker writes about a resolved peer. -/
def discovered (identity : Identity) (addresses : List String) (e : Contents Proof) :
    Except Error (Unit × Contents Proof) :=
  if addresses = [] then .ok ((), e)
  else
    let peers := match e.peers[identity.deviceId]? with
      | none => e.peers
      | some p =>
          if p.revoked ∨ p.identity ≠ identity then e.peers
          else e.peers.insert identity.deviceId { p with addresses }
    .ok ((), { e with
      peers
      preparations := e.preparations.map fun _ pending =>
        if pending.outcome.identity = identity then { pending with addresses } else pending })

end Operations

end LibreSync.Managed
