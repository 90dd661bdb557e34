import LibreSync.Managed.Receipt

/-!
`Inner::mutate`: an operation works on a copy of the envelope, and its candidate reaches the
file through a prepared journal before it replaces the envelope in memory.
-/

namespace LibreSync.Managed

/-- How one `store::save` ends. A save that failed may already have renamed its file. -/
inductive SaveOutcome where
  | saved
  | failed (renamed : Bool) (error : Error)
deriving DecidableEq

structure Saves where
  recovery : SaveOutcome := .saved
  journal : SaveOutcome := .saved
  candidate : SaveOutcome := .saved
deriving DecidableEq

/-- The envelope in memory, the one in `session.enc`, and the fence of a failed save. -/
structure Session (Proof : Type) where
  envelope : Envelope Proof
  file : Envelope Proof
  storageUncertain : Bool

section Operations

variable {Proof : Type} (inner : Inner Proof)

def recoverChange (current target : Contents Proof) (change : PreparedChange) :
    Except Error Unit :=
  if change.expectedRevision ≠ current.revision then fail "recovery revision mismatch"
  else match inner.config.adapters[change.adapter]? with
    | none => .error (.protocol "recovery adapter absent")
    | some adapter =>
        match adapter.recover change with
        | .error error => .error error
        | .ok recovered =>
            if recovered ≠ recordsOf target.records change.adapter then
              fail "adapter recovery did not reproduce committed candidate"
            else .ok ()

def recoverChanges (current target : Contents Proof) : List PreparedChange → Except Error Unit
  | [] => .ok ()
  | change :: rest =>
      match recoverChange inner current target change with
      | .error error => .error error
      | .ok () => recoverChanges current target rest

def recoverTransaction (current : Contents Proof)
    (prepared : PreparedTransaction (Envelope Proof)) : Except Error Unit :=
  match Limits.state inner.sizes prepared.target.toContents with
  | .error error => .error error
  | .ok () =>
      if prepared.target.prepared.isSome ∨ prepared.target.identity ≠ current.identity ∨
          prepared.id = "" then fail "invalid prepared transaction journal"
      else recoverChanges inner current prepared.target.toContents prepared.changes

def bootstraps (current candidate : Contents Proof) : Bool :=
  (BTreeMap.valueList current.peers).any fun peer =>
    !peer.bootstrapped && (candidate.peers[peer.identity.deviceId]?).any Peer.bootstrapped

def retained (recovery : List RecoverySnapshot) : List RecoverySnapshot :=
  recovery.drop (recovery.length - inner.config.recoveryRetention)

def recoveryCopy (id : String) (current : Contents Proof) : RecoverySnapshot where
  id := id
  revision := current.revision
  records := BTreeMap.valueList current.records

def withRecoveryCopy (id : String) (current candidate : Contents Proof) : Contents Proof :=
  let recovery :=
    if bootstraps current candidate ∧ ¬current.records.isEmpty then
      candidate.recovery ++ [recoveryCopy id current]
    else candidate.recovery
  { candidate with recovery := retained inner recovery }

/-- What `mutate` commits of an operation's candidate. -/
def completed (id : String) (current candidate : Contents Proof) :
    Except Error (Contents Proof) :=
  if candidate.records = current.records then .ok candidate
  else match Limits.state inner.sizes candidate with
    | .error error => .error error
    | .ok () => .ok (withRecoveryCopy inner id current candidate)

def changesOf (id : String) (current candidate : Contents Proof) : List PreparedChange :=
  inner.config.adapters.toList.filterMap fun (adapter, _) =>
    let before := recordsOf current.records adapter
    let after := recordsOf candidate.records adapter
    if before = after then none
    else some {
      id
      adapter
      expectedRevision := current.revision
      staged := after
      recovery := before }

def Contents.committed (contents : Contents Proof) : Envelope Proof where
  toContents := contents
  prepared := none

def transaction (id : String) (current candidate : Contents Proof) :
    PreparedTransaction (Envelope Proof) where
  id := id
  changes := changesOf inner id current candidate
  target := candidate.committed

namespace Session

def save (session : Session Proof) (outcome : SaveOutcome) (e : Envelope Proof) :
    Except Error Unit × Session Proof :=
  match outcome with
  | .saved => (.ok (), { session with file := e })
  | .failed renamed error => (.error error, { session with
      file := if renamed then e else session.file
      storageUncertain := true })

def install (session : Session Proof) (outcome : SaveOutcome) (e : Envelope Proof) :
    Except Error Unit × Session Proof :=
  match session.save outcome e with
  | (.error error, session) => (.error error, session)
  | (.ok (), session) => (.ok (), { session with envelope := e })

def recoverPrepared (session : Session Proof) (outcome : SaveOutcome) :
    Except Error Unit × Session Proof :=
  match session.envelope.prepared with
  | none => (.ok (), session)
  | some prepared =>
      match recoverTransaction inner session.envelope.toContents prepared with
      | .error error => (.error error, session)
      | .ok () => session.install outcome prepared.target

/-- The journal is written only for candidates that change the records. -/
def journal (session : Session Proof) (id : String) (outcome : SaveOutcome)
    (candidate : Contents Proof) : Except Error Unit × Session Proof :=
  if candidate.records = session.envelope.records then (.ok (), session)
  else session.install outcome { session.envelope with
    prepared := some (transaction inner id session.envelope.toContents candidate) }

def mutate [DecidableEq Proof] {R : Type} (session : Session Proof) (id : String) (saves : Saves)
    (operation : Contents Proof → Except Error (R × Contents Proof)) :
    Except Error R × Session Proof :=
  if session.storageUncertain then
    (failCode .storageCommitUncertain
      "storage commit outcome uncertain; close and reopen session for recovery", session)
  else match session.recoverPrepared inner saves.recovery with
    | (.error error, session) => (.error error, session)
    | (.ok (), session) =>
        match operation session.envelope.toContents with
        | .error error => (.error error, session)
        | .ok (result, candidate) =>
            if candidate = session.envelope.toContents then (.ok result, session)
            else match completed inner id session.envelope.toContents candidate with
              | .error error => (.error error, session)
              | .ok candidate =>
                  match session.journal inner id saves.journal candidate with
                  | (.error error, session) => (.error error, session)
                  | (.ok (), session) =>
                      match session.install saves.candidate candidate.committed with
                      | (.error error, session) => (.error error, session)
                      | (.ok (), session) => (.ok result, session)

def durable (session : Session Proof) : Contents Proof :=
  match session.file.prepared with
  | none => session.file.toContents
  | some prepared => prepared.target.toContents

/-- Outside a fenced session the file holds the envelope in memory, with no journal. -/
def Settled (session : Session Proof) : Prop :=
  session.storageUncertain = false →
    session.envelope.prepared = none ∧ session.file = session.envelope

def opened (contents : Contents Proof) : Session Proof where
  envelope := contents.committed
  file := contents.committed
  storageUncertain := false

end Session

inductive Written (id : String) (session : Session Proof) (final : Contents Proof) :
    Envelope Proof → Prop where
  | before : Written id session final session.file
  | journal : Written id session final { session.envelope with
      prepared := some (transaction inner id session.envelope.toContents final) }
  | candidate : Written id session final final.committed

inductive Mutated {R : Type} (id : String) (session : Session Proof)
    (operation : Contents Proof → Except Error (R × Contents Proof)) :
    Except Error R × Session Proof → Prop where
  | refused (error : Error) : Mutated id session operation (.error error, session)
  | idle {result : R} (free : session.storageUncertain = false)
      (ran : operation session.envelope.toContents = .ok (result, session.envelope.toContents)) :
      Mutated id session operation (.ok result, session)
  | committed {result : R} {candidate final : Contents Proof}
      (free : session.storageUncertain = false)
      (ran : operation session.envelope.toContents = .ok (result, candidate))
      (finished : completed inner id session.envelope.toContents candidate = .ok final) :
      Mutated id session operation (.ok result, Session.opened final)
  | interrupted {result : R} {candidate final : Contents Proof} {after : Session Proof}
      (error : Error) (free : session.storageUncertain = false)
      (ran : operation session.envelope.toContents = .ok (result, candidate))
      (finished : completed inner id session.envelope.toContents candidate = .ok final)
      (fenced : after.storageUncertain = true)
      (memory : after.envelope.toContents = session.envelope.toContents)
      (disk : after.durable = session.envelope.toContents ∨ after.durable = final)
      (written : Written inner id session final after.file) :
      Mutated id session operation (.error error, after)

variable {inner} {session : Session Proof}

theorem Session.Settled.recoverPrepared (settled : session.Settled)
    (free : session.storageUncertain = false) (outcome : SaveOutcome) :
    session.recoverPrepared inner outcome = (.ok (), session) := by
  simp only [Session.recoverPrepared, (settled free).1]

theorem Session.Settled.durable (settled : session.Settled)
    (free : session.storageUncertain = false) :
    session.durable = session.envelope.toContents := by
  obtain ⟨unprepared, written⟩ := settled free
  simp only [Session.durable, written, unprepared]

theorem Session.opened_settled (contents : Contents Proof) : (opened contents).Settled :=
  fun _ => ⟨rfl, rfl⟩

@[simp] theorem Session.opened_contents (contents : Contents Proof) :
    (opened contents).envelope.toContents = contents := rfl

@[simp] theorem Session.opened_durable (contents : Contents Proof) :
    (opened contents).durable = contents := rfl

theorem Session.install_saved (free : session.storageUncertain = false)
    (contents : Contents Proof) :
    session.install .saved contents.committed = (.ok (), opened contents) := by
  simp only [install, save, opened, free]

variable (inner) in
theorem mutate_cases [DecidableEq Proof] {R : Type} (settled : session.Settled) (id : String) (saves : Saves)
    (operation : Contents Proof → Except Error (R × Contents Proof)) :
    Mutated inner id session operation (session.mutate inner id saves operation) := by
  cases free : session.storageUncertain with
  | true =>
      simp only [Session.mutate, free, if_true]
      exact .refused _
  | false =>
      have durable := settled.durable free
      simp only [Session.mutate, free, Bool.false_eq_true, if_false, settled.recoverPrepared free]
      split
      · exact .refused _
      · rename_i result candidate ran
        split
        · rename_i same
          exact .idle free (same ▸ ran)
        · split
          · exact .refused _
          · rename_i final finished
            by_cases unchanged : final.records = session.envelope.records
            · simp only [Session.journal, unchanged, if_true]
              cases outcome : saves.candidate with
              | saved =>
                  simp only [Session.install_saved free]
                  exact .committed free ran finished
              | failed renamed error =>
                  simp only [Session.install, Session.save]
                  cases renamed with
                  | true => exact .interrupted error free ran finished rfl rfl (Or.inr rfl) .candidate
                  | false => exact .interrupted error free ran finished rfl rfl (Or.inl durable) .before
            · simp only [Session.journal, unchanged, if_false]
              cases journaled : saves.journal with
              | failed renamed error =>
                  simp only [Session.install, Session.save]
                  cases renamed with
                  | true => exact .interrupted error free ran finished rfl rfl (Or.inr rfl) .journal
                  | false => exact .interrupted error free ran finished rfl rfl (Or.inl durable) .before
              | saved =>
                  simp only [Session.install, Session.save]
                  cases outcome : saves.candidate with
                  | saved =>
                      simp only [free]
                      exact .committed free ran finished
                  | failed renamed error =>
                      cases renamed with
                      | true =>
                          exact .interrupted error free ran finished rfl rfl (Or.inr rfl) .candidate
                      | false =>
                          exact .interrupted error free ran finished rfl rfl (Or.inr rfl) .journal

theorem Mutated.settled {R : Type} {id : String}
    {operation : Contents Proof → Except Error (R × Contents Proof)}
    {result : Except Error R × Session Proof} (settled : session.Settled)
    (mutated : Mutated inner id session operation result) : result.2.Settled := by
  cases mutated with
  | refused => exact settled
  | idle => exact settled
  | committed => exact Session.opened_settled _
  | interrupted _ _ _ _ fenced => exact fun free => absurd free (by simp [fenced])

end Operations

end LibreSync.Managed
