import LibreSync.Managed.PairingAgreement
import LibreSync.Managed.Generations

/-!
Whom a session knows. A certificate is in an envelope because a pairing of that session put it
there, and under an invitation whose secret nobody else has it is that of the other side.
-/

namespace LibreSync.Managed

section Names

variable {Proof : Type}

inductive Recorded (e : Contents Proof) : Identity → String → Prop where
  | preparation {id : String} {job : Preparation} (found : e.preparations[id]? = some job) :
      Recorded e job.outcome.identity job.outcome.fingerprint
  | enrollment {id : String} {job : Enrollment} (found : e.enrollments[id]? = some job) :
      Recorded e job.outcome.identity job.outcome.fingerprint
  | peer {id : String} {p : Peer Proof} (found : e.peers[id]? = some p) :
      Recorded e p.identity p.fingerprint

inductive Journaled (e : Contents Proof) : String → SecurePairingOutcome → Prop where
  | preparation {id : String} {job : Preparation} (found : e.preparations[id]? = some job) :
      Journaled e id job.outcome
  | enrollment {id : String} {job : Enrollment} (found : e.enrollments[id]? = some job) :
      Journaled e id job.outcome

/-- The call writes the outcome, under its invitation. -/
def Call.Files (call : Call Proof) (id : String) (outcome : SecurePairingOutcome) : Prop :=
  call.writes = some outcome ∧ outcome.invitationId = id

structure JobStep (e : Contents Proof) (call : Call Proof) (after : Contents Proof) : Prop where
  preparations : ∀ (id : String) (job : Preparation), after.preparations[id]? = some job →
    (∃ (old : Preparation), e.preparations[id]? = some old ∧ old.outcome = job.outcome) ∨
      call.Files id job.outcome
  enrollments : ∀ (id : String) (job : Enrollment), after.enrollments[id]? = some job →
    (∃ (old : Enrollment), e.enrollments[id]? = some old ∧ old.outcome = job.outcome) ∨
      call.Files id job.outcome

variable {inner : Inner Proof} {e after : Contents Proof} {call : Call Proof}

theorem JobStep.same (preparations : after.preparations = e.preparations)
    (enrollments : after.enrollments = e.enrollments) : JobStep e call after where
  preparations _ job found := Or.inl ⟨job, preparations ▸ found, rfl⟩
  enrollments _ job found := Or.inl ⟨job, enrollments ▸ found, rfl⟩

theorem Framed.preparations (framed : Framed e after) : after.preparations = e.preparations := by
  rw [framed.rest]

theorem Framed.enrollments (framed : Framed e after) : after.enrollments = e.enrollments := by
  rw [framed.rest]

theorem removePeer_jobs {peer incarnation : String} {reply : Unit}
    (removed : removePeer peer incarnation e = .ok (reply, after)) : JobStep e call after := by
  obtain ⟨_, _, rfl⟩ := removePeer_ok removed
  refine ⟨fun id job found => ?_, fun id job found => ?_⟩
  · rw [Std.ExtTreeMap.getElem?_filter'] at found
    exact Or.inl ⟨job, (Option.filter_eq_some_iff.mp found).1, rfl⟩
  · rw [Std.ExtTreeMap.getElem?_filter'] at found
    exact Or.inl ⟨job, (Option.filter_eq_some_iff.mp found).1, rfl⟩

theorem discovered_jobs {identity : Identity} {addresses : List String} {reply : Unit}
    (learned : discovered identity addresses e = .ok (reply, after)) : JobStep e call after := by
  simp only [discovered] at learned
  split at learned
  · simp only [Except.ok.injEq, Prod.mk.injEq, true_and] at learned
    exact .same (learned ▸ rfl) (learned ▸ rfl)
  · simp only [Except.ok.injEq, Prod.mk.injEq, true_and] at learned
    subst learned
    refine ⟨fun id job found => ?_, fun id job found => Or.inl ⟨job, found, rfl⟩⟩
    rw [Std.ExtTreeMap.getElem?_map] at found
    obtain ⟨old, before, rfl⟩ := Option.map_eq_some_iff.mp found
    refine Or.inl ⟨old, before, ?_⟩
    split
    · rfl
    · rfl

theorem enroll_jobs [ReceiptMac Proof] {handler : Handler} {outcome : SecurePairingOutcome}
    {key : AppKey} {incarnations : Incarnations} (writes : call.writes = some outcome) :
    JobStep e call (enroll handler outcome key incarnations e) := by
  refine ⟨fun id job found => ?_, fun id job found => ?_⟩
  · simp only [enroll, Std.ExtTreeMap.getElem?_erase] at found
    split at found
    · simp at found
    · exact Or.inl ⟨job, found, rfl⟩
  · simp only [enroll, BTreeMap.get_insert] at found
    split at found
    · rename_i filed
      obtain rfl := Option.some.inj found
      exact Or.inr ⟨writes, filed.symm⟩
    · split at found
      · rw [Std.ExtTreeMap.getElem?_filter'] at found
        exact Or.inl ⟨job, (Option.filter_eq_some_iff.mp found).1, rfl⟩
      · exact Or.inl ⟨job, found, rfl⟩

theorem Journaled.of_kin {e view : Contents Proof} {id : String} {outcome : SecurePairingOutcome}
    (journaled : Journaled view id outcome) (kin : Kin e view) : Journaled e id outcome := by
  cases journaled with
  | preparation found => exact .preparation (by rw [kin] at found; exact found)
  | enrollment found => exact .enrollment (by rw [kin] at found; exact found)

variable [DecidableEq Proof] [ReceiptMac Proof]

theorem operate_jobs {change : String} (operated : operate inner change call e = .ok after) :
    JobStep e call after := by
  cases call with
  | write adapter key value deleted =>
      obtain ⟨reply, ran⟩ := Except.map_snd_ok.mp operated
      obtain ⟨middle, _, committed, rfl⟩ := write_ok ran
      exact .same committed.framed.preparations committed.framed.enrollments
  | importRecords records =>
      obtain ⟨reply, ran⟩ := Except.map_snd_ok.mp operated
      obtain ⟨middle, committed, _, rfl⟩ := importRecords_ok ran
      exact .same committed.framed.preparations committed.framed.enrollments
  | prune retain =>
      simp only [operate, pruneRecoverySnapshots, Except.map, Except.ok.injEq] at operated
      subst operated
      exact .same rfl rfl
  | acknowledgeApplied peer receipt =>
      obtain ⟨reply, ran⟩ := Except.map_snd_ok.mp operated
      obtain ⟨_, _, _, rfl⟩ := acknowledgeApplied_ok ran
      exact .same rfl rfl
  | acknowledgeInbox inbox =>
      obtain ⟨reply, ran⟩ := Except.map_snd_ok.mp operated
      rw [(acknowledgeInbox_ok ran).1]
      exact .same rfl rfl
  | hello generation message fingerprint =>
      obtain ⟨⟨peer, cursor⟩, ran⟩ := Except.map_snd_ok.mp operated
      obtain ⟨_, _, rfl, _⟩ := authenticate_ok ran
      exact .same rfl rfl
  | exportTo generation peer cursor =>
      obtain ⟨batch, ran⟩ := Except.map_snd_ok.mp operated
      obtain ⟨_, _, rfl, _⟩ := exportBatch_ok ran
      exact .same rfl rfl
  | transmit generation peer batch =>
      obtain ⟨reply, ran⟩ := Except.map_snd_ok.mp operated
      obtain ⟨_, _, rfl⟩ := transmit_ok ran
      exact .same rfl rfl
  | acknowledge generation peer batch receipt disposition =>
      obtain ⟨reply, ran⟩ := Except.map_snd_ok.mp operated
      obtain ⟨_, _, rfl, _, rfl⟩ := acknowledge_ok ran
      exact .same rfl rfl
  | receive generation token peer batch =>
      obtain ⟨reply, ran⟩ := Except.map_snd_ok.mp operated
      obtain ⟨_, _, received⟩ := receiveBatch_ok ran
      cases received with
      | already => exact .same rfl rfl
      | staged => exact .same rfl rfl
      | applied _ _ _ committed =>
          exact .same committed.framed.preparations committed.framed.enrollments
  | resolve preview merge =>
      obtain ⟨reply, ran⟩ := Except.map_snd_ok.mp operated
      obtain ⟨_, _, _, _, _, _, _, _, _, ⟨rfl, rfl⟩ | ⟨rfl, _, middle, committed, rfl⟩⟩ :=
        resolveBootstrap_ok ran
      · exact .same rfl rfl
      · exact .same committed.framed.preparations committed.framed.enrollments
  | start =>
      obtain ⟨reply, ran⟩ := Except.map_snd_ok.mp operated
      obtain rfl := start_ok ran
      exact .same rfl rfl
  | stop phase =>
      obtain ⟨reply, ran⟩ := Except.map_snd_ok.mp operated
      rcases stop_ok ran with rfl | rfl
      · exact .same rfl rfl
      · exact .same rfl rfl
  | remove peer incarnation =>
      obtain ⟨reply, ran⟩ := Except.map_snd_ok.mp operated
      exact removePeer_jobs ran
  | pause peer =>
      obtain ⟨reply, ran⟩ := Except.map_snd_ok.mp operated
      obtain ⟨_, _, rfl⟩ := pausePeer_ok ran
      exact .same rfl rfl
  | resume peer =>
      obtain ⟨reply, ran⟩ := Except.map_snd_ok.mp operated
      obtain ⟨_, _, _, rfl⟩ := resumePeer_ok ran
      exact .same rfl rfl
  | scheduleFailed peer error =>
      obtain ⟨reply, ran⟩ := Except.map_snd_ok.mp operated
      rcases scheduleFailed_ok ran with rfl | ⟨_, _, _, rfl⟩
      · exact .same rfl rfl
      · exact .same rfl rfl
  | discovered identity addresses =>
      obtain ⟨reply, ran⟩ := Except.map_snd_ok.mp operated
      exact discovered_jobs ran
  | prepare handler outcome =>
      obtain ⟨reply, ran⟩ := Except.map_snd_ok.mp operated
      obtain ⟨_, rfl⟩ := prepareSecurePairing_ok ran
      refine ⟨fun id job found => ?_, fun id job found => Or.inl ⟨job, found, rfl⟩⟩
      rw [BTreeMap.get_insert] at found
      split at found
      · rename_i filed
        obtain rfl := Option.some.inj found
        exact Or.inr ⟨rfl, filed.symm⟩
      · exact Or.inl ⟨job, found, rfl⟩
  | commit handler outcome key incarnation rekeyed =>
      obtain ⟨reply, ran⟩ := Except.map_snd_ok.mp operated
      obtain ⟨_, _, _, rfl⟩ := commitSecurePairing_ok ran
      exact enroll_jobs rfl
  | settle handler peer addresses =>
      obtain ⟨reply, ran⟩ := Except.map_snd_ok.mp operated
      obtain ⟨_, _, rfl⟩ := settleAddresses_ok ran
      exact .same rfl rfl

theorem Touched.party {id : String} {old new : Peer Proof}
    (touched : Touched inner e id old call new) :
    (new.identity = old.identity ∧ new.fingerprint = old.fingerprint) ∨ ∃ outcome,
      call.writes = some outcome ∧ new.identity = outcome.identity ∧
        new.fingerprint = outcome.fingerprint := by
  cases touched with
  | enrolled => exact Or.inr ⟨_, rfl, rfl, rfl⟩
  | _ => exact Or.inl ⟨rfl, rfl⟩

theorem operate_journaled {change id : String} {outcome : SecurePairingOutcome}
    (operated : operate inner change call e = .ok after) (journaled : Journaled after id outcome) :
    Journaled e id outcome ∨ call.Files id outcome := by
  have jobs := operate_jobs operated
  cases journaled with
  | preparation found =>
      rcases jobs.preparations _ _ found with ⟨old, before, same⟩ | filed
      · exact Or.inl (same ▸ .preparation before)
      · exact Or.inr filed
  | enrollment found =>
      rcases jobs.enrollments _ _ found with ⟨old, before, same⟩ | filed
      · exact Or.inl (same ▸ .enrollment before)
      · exact Or.inr filed

theorem operate_party {change id : String} {p : Peer Proof}
    (operated : operate inner change call e = .ok after) (found : after.peers[id]? = some p) :
    (∃ old : Peer Proof, e.peers[id]? = some old ∧ old.identity = p.identity ∧
      old.fingerprint = p.fingerprint) ∨ ∃ outcome, call.writes = some outcome ∧
        outcome.identity = p.identity ∧ outcome.fingerprint = p.fingerprint := by
  have stepped := operate_peers operated id
  rw [found] at stepped
  generalize was : e.peers[id]? = before at stepped
  cases stepped with
  | @kept old new touched =>
      rcases touched.party with ⟨same, certificate⟩ | ⟨outcome, wrote, same, certificate⟩
      · exact Or.inl ⟨old, rfl, same.symm, certificate.symm⟩
      · exact Or.inr ⟨outcome, wrote, same.symm, certificate.symm⟩
  | enrolled called device =>
      rw [called]
      exact Or.inr ⟨_, rfl, rfl, rfl⟩

end Names

namespace Pairings

section Sponsors

variable {Proof : Type} {devices : Devices Proof} {w after : Pairings Proof}

/-- A run of the node brought the device in, under this invitation, and went by the proof of the
other side that it has the secret. -/
inductive Sponsored (w : Pairings Proof) (node : String) :
    PairingInvitation → Identity → String → Prop where
  | accept {run : Nat} {accept : Accept} (found : w.accepts run = some accept)
      (here : accept.node = node) (proved : accept.stage.proved = true) :
      Sponsored w node accept.invitation accept.outcome.identity accept.outcome.fingerprint
  | link {run : Nat} {link : Link} {keys : Confirmations} (found : w.links run = some link)
      (here : link.node = node) (answered : link.stage.answered = some keys) :
      Sponsored w node link.invitation (link.outcome keys).identity (link.outcome keys).fingerprint

inductive Brought (w : Pairings Proof) (node : String) :
    PairingInvitation → SecurePairingOutcome → Prop where
  | accept {run : Nat} {accept : Accept} (found : w.accepts run = some accept)
      (here : accept.node = node) (proved : accept.stage.proved = true) :
      Brought w node accept.invitation accept.outcome
  | link {run : Nat} {link : Link} {keys : Confirmations} (found : w.links run = some link)
      (here : link.node = node) (answered : link.stage.answered = some keys) :
      Brought w node link.invitation (link.outcome keys)

theorem Brought.sponsored {node : String} {invitation : PairingInvitation}
    {outcome : SecurePairingOutcome} (brought : Brought w node invitation outcome) :
    Sponsored w node invitation outcome.identity outcome.fingerprint := by
  cases brought with
  | accept found here proved => exact .accept found here proved
  | link found here answered => exact .link found here answered

theorem Brought.mono {node : String} {invitation : PairingInvitation}
    {outcome : SecurePairingOutcome} (brought : Brought w node invitation outcome)
    (grown : Grown w after) : Brought after node invitation outcome := by
  cases brought with
  | accept found here proved =>
      obtain ⟨later, kept, extended⟩ := grown.accepts _ _ found
      have bringer := Brought.accept kept (extended.node.trans here) (extended.proved proved)
      simpa only [Accept.outcome, extended.invitation, extended.hello, extended.fingerprint]
        using bringer
  | link found here answered =>
      obtain ⟨later, kept, extended⟩ := grown.links _ _ found
      have bringer := Brought.link kept (extended.node.trans here) (extended.answered _ answered)
      simpa only [Link.outcome, extended.invitation, extended.hello] using bringer

/-- A recovery may have renewed the metadata since. -/
def Known (w : Pairings Proof) (node : String) (outcome : SecurePairingOutcome) : Prop :=
  ∃ invitation metadata, Brought w node invitation { outcome with metadata }

theorem Known.mono {node : String} {outcome : SecurePairingOutcome}
    (known : Known w node outcome) (grown : Grown w after) : Known after node outcome := by
  obtain ⟨invitation, metadata, brought⟩ := known
  exact ⟨invitation, metadata, brought.mono grown⟩

theorem Known.linked {run : Nat} {link : Link} {node : String} {call : Call Proof}
    {outcome : SecurePairingOutcome} (found : w.links run = some link)
    (makes : link.Makes node call) (writes : call.writes = some outcome) :
    Known w node outcome := by
  obtain ⟨rfl, keys, answered, rfl⟩ := makes outcome writes
  exact ⟨link.invitation, (link.outcome keys).metadata, .link found rfl answered⟩

theorem Known.accepted {run : Nat} {accept : Accept} {node : String} {call : Call Proof}
    {outcome : SecurePairingOutcome} (found : w.accepts run = some accept)
    (makes : accept.Makes node call) (writes : call.writes = some outcome) :
    Known w node outcome := by
  obtain ⟨rfl, proved, rfl⟩ := makes outcome writes
  exact ⟨accept.invitation, accept.outcome.metadata, .accept found rfl proved⟩

structure Rooted (devices : Devices Proof) (w : Pairings Proof) : Prop where
  sound : w.Sound devices
  jobs : ∀ (node : String) (view : Contents Proof) (id : String) (outcome : SecurePairingOutcome),
    (w.nodes node).Shows view → Journaled view id outcome →
      Known w node outcome ∧ outcome.invitationId = id
  peers : ∀ (node : String) (view : Contents Proof) (id : String) (p : Peer Proof),
    (w.nodes node).Shows view → view.peers[id]? = some p → ∃ outcome, Known w node outcome ∧
      outcome.identity = p.identity ∧ outcome.fingerprint = p.fingerprint
  recoveries : ∀ (run : Nat) (recovery : Recovery), w.recoveries run = some recovery →
    Known w recovery.node recovery.previous

theorem Rooted.recovering {run : Nat} {recovery : Recovery} {node : String} {call : Call Proof}
    {outcome : SecurePairingOutcome} (rooted : Rooted devices w)
    (found : w.recoveries run = some recovery) (makes : recovery.Makes node call)
    (writes : call.writes = some outcome) : Known w node outcome := by
  obtain ⟨rfl, metadata, rfl⟩ := makes outcome writes
  exact rooted.recoveries run recovery found

theorem Rooted.recorded {node : String} {view : Contents Proof} {identity : Identity}
    {fingerprint : String} (rooted : Rooted devices w) (shows : (w.nodes node).Shows view)
    (recorded : Recorded view identity fingerprint) : ∃ outcome, Known w node outcome ∧
      outcome.identity = identity ∧ outcome.fingerprint = fingerprint := by
  cases recorded with
  | preparation found =>
      exact ⟨_, (rooted.jobs node view _ _ shows (.preparation found)).1, rfl, rfl⟩
  | enrollment found =>
      exact ⟨_, (rooted.jobs node view _ _ shows (.enrollment found)).1, rfl, rfl⟩
  | peer found => exact rooted.peers node view _ _ shows found

theorem Rooted.start [DecidableEq Proof] (devices : Devices Proof) :
    Rooted devices (start devices) where
  sound := (Honest.start devices).sound
  jobs node view id outcome shows journaled := by
    obtain rfl := Session.shows_opened shows
    cases journaled with
    | preparation found => simp [Installation.first, Installation.created] at found
    | enrollment found => simp [Installation.first, Installation.created] at found
  peers node view id p shows found := by
    obtain rfl := Session.shows_opened shows
    simp [Installation.first, Installation.created] at found
  recoveries := by simp [Pairings.start]

theorem recoverSecureLink_ok {e : Contents Proof} {node : String} {preparation : Preparation}
    {recovery : Recovery} (begun : recoverSecureLink devices e node preparation = .ok recovery) :
    recovery.node = node ∧ recovery.previous = preparation.outcome := by
  obtain ⟨_, _, rfl⟩ := Except.map_ok begun
  exact ⟨rfl, rfl⟩

variable [DecidableEq Proof] [ReceiptMac Proof]

/-- What a session shows is old, or made by a call that writes only whom a run brought in. -/
def Backed (devices : Devices Proof) (w after : Pairings Proof) (node : String)
    (view : Contents Proof) : Prop :=
  (∃ old, (w.nodes node).Shows old ∧ Kin old view) ∨ ∃ change call candidate,
    (∀ outcome, call.writes = some outcome → Known after node outcome) ∧
    operate (devices.member node).inner change call (w.envelope node) = .ok candidate ∧
    Kin candidate view

theorem Beside.backed {next : Pairings Proof} {calls : String → Call Proof → Prop} {node : String}
    {view : Contents Proof} (beside : Beside devices calls w next) (sound : w.Sound devices)
    (known : ∀ call outcome, calls node call → call.writes = some outcome →
      Known after node outcome)
    (shows : (next.nodes node).Shows view) : Backed devices w after node view := by
  rcases beside.shown sound node view shows with old |
    ⟨change, call, candidate, made, operated, kin⟩
  · exact Or.inl old
  · exact Or.inr ⟨change, call, candidate, fun outcome => known call outcome made, operated, kin⟩

theorem Moved.backed {event : PairingEvent Proof} {node : String} {view : Contents Proof}
    (moved : Moved devices w event after) (rooted : Rooted devices w)
    (shows : (after.nodes node).Shows view) : Backed devices w after node view := by
  have sound := rooted.sound
  have grown := moved.grown
  have still : (w.nodes node).Shows view → Backed devices w after node view :=
    fun old => Or.inl ⟨view, old, rfl⟩
  cases moved with
  | beside beside =>
      refine beside.backed sound (fun call outcome silent writes => ?_) shows
      simp [writes] at silent
  | @prepared run time mutation link keys next found stage beside =>
      have there := Function.update_self run (some { link with stage := .prepared keys }) next.links
      refine beside.backed sound (fun call outcome makes writes => ?_) shows
      exact Known.linked there (fun outcome writes => makes outcome writes) writes
  | @unprepared run time mutation link keys next found stage beside =>
      have there := Function.update_self run
        (some { link with stage := .readied keys, closed := true }) next.links
      refine beside.backed sound (fun call outcome makes writes => ?_) shows
      exact Known.linked there (fun outcome writes => makes outcome writes) writes
  | @committed run time mutation link keys key next found stage beside =>
      refine beside.backed sound (fun call outcome makes writes => ?_) shows
      exact (Known.linked found makes writes).mono grown
  | endedLink found beside =>
      refine beside.backed sound (fun call outcome makes writes => ?_) shows
      exact (Known.linked found makes writes).mono grown
  | enrolled found stage beside =>
      refine beside.backed sound (fun call outcome makes writes => ?_) shows
      exact (Known.accepted found makes writes).mono grown
  | endedAccept found beside =>
      refine beside.backed sound (fun call outcome makes writes => ?_) shows
      exact (Known.accepted found makes writes).mono grown
  | gaveUp found beside =>
      refine beside.backed sound (fun call outcome makes writes => ?_) shows
      exact (rooted.recovering found makes writes).mono grown
  | recovered found read beside =>
      refine beside.backed sound (fun call outcome makes writes => ?_) shows
      exact (rooted.recovering found makes writes).mono grown
  | _ => exact still shows

theorem Moved.recoveryFrom {event : PairingEvent Proof} {run : Nat} {recovery : Recovery}
    (moved : Moved devices w event after) (listed : after.recoveries run = some recovery) :
    (∃ before, w.recoveries run = some before ∧ recovery.node = before.node ∧
      recovery.previous = before.previous) ∨
    ∃ preparation, preparation ∈ BTreeMap.valueList (w.envelope recovery.node).preparations ∧
      recovery.previous = preparation.outcome := by
  have set : ∀ {next : Pairings Proof} {query : Nat} {new : Recovery},
      next.recoveries = w.recoveries → (next.setRecovery query new).recoveries run = some recovery →
      w.recoveries run = some recovery ∨ run = query ∧ recovery = new := by
    intro next query new same listed
    by_cases here : run = query
    · subst here
      exact Or.inr ⟨rfl, by simpa [setRecovery] using listed.symm⟩
    · exact Or.inl (by simpa [setRecovery, here, same] using listed)
  have same : w.recoveries run = some recovery → (∃ before, w.recoveries run = some before ∧
      recovery.node = before.node ∧ recovery.previous = before.previous) :=
    fun found => ⟨recovery, found, rfl, rfl⟩
  cases moved with
  | beside beside => exact Or.inl (same (beside.recoveries ▸ listed))
  | prepared found stage beside => exact Or.inl (same (beside.recoveries ▸ listed))
  | unprepared found stage beside => exact Or.inl (same (beside.recoveries ▸ listed))
  | committed found stage beside => exact Or.inl (same (beside.recoveries ▸ listed))
  | endedLink found beside => exact Or.inl (same (beside.recoveries ▸ listed))
  | enrolled found stage beside => exact Or.inl (same (beside.recoveries ▸ listed))
  | endedAccept found beside => exact Or.inl (same (beside.recoveries ▸ listed))
  | recovers fresh stored begun =>
      rcases set rfl listed with found | ⟨rfl, rfl⟩
      · exact Or.inl (same found)
      · obtain ⟨rfl, previous⟩ := recoverSecureLink_ok begun
        exact Or.inr ⟨_, stored, previous⟩
  | gaveUp found beside =>
      rcases set beside.recoveries listed with found | ⟨rfl, rfl⟩
      · exact Or.inl (same found)
      · exact Or.inl ⟨_, found, rfl, rfl⟩
  | recovered found read beside =>
      rcases set beside.recoveries listed with found | ⟨rfl, rfl⟩
      · exact Or.inl (same found)
      · exact Or.inl ⟨_, found, rfl, rfl⟩
  | _ => exact Or.inl (same listed)

theorem Rooted.moved {event : PairingEvent Proof} (rooted : Rooted devices w)
    (sound : after.Sound devices) (moved : Moved devices w event after) :
    Rooted devices after := by
  have grown := moved.grown
  refine ⟨sound, fun node view id outcome shows journaled => ?_,
    fun node view id p shows found => ?_, fun run recovery listed => ?_⟩
  · rcases moved.backed rooted shows with ⟨old, was, kin⟩ |
      ⟨change, call, candidate, known, operated, kin⟩
    · obtain ⟨before, filed⟩ := rooted.jobs node old id outcome was (journaled.of_kin kin)
      exact ⟨before.mono grown, filed⟩
    · rcases operate_journaled operated (journaled.of_kin kin) with old | filed
      · obtain ⟨before, filed⟩ := rooted.jobs node _ id outcome (Or.inl rfl) old
        exact ⟨before.mono grown, filed⟩
      · exact ⟨known outcome filed.1, filed.2⟩
  · rcases moved.backed rooted shows with ⟨old, was, kin⟩ |
      ⟨change, call, candidate, known, operated, kin⟩
    · rw [kin] at found
      obtain ⟨outcome, before, party⟩ := rooted.peers node old id p was found
      exact ⟨outcome, before.mono grown, party⟩
    · rw [kin] at found
      rcases operate_party operated found with ⟨old, was, identity, certificate⟩ |
        ⟨outcome, writes, party⟩
      · obtain ⟨outcome, before, same, pinned⟩ := rooted.peers node _ id old (Or.inl rfl) was
        exact ⟨outcome, before.mono grown, same.trans identity, pinned.trans certificate⟩
      · exact ⟨outcome, known outcome writes, party⟩
  · rcases moved.recoveryFrom listed with ⟨before, found, node, previous⟩ |
      ⟨preparation, stored, previous⟩
    · rw [node, previous]
      exact (rooted.recoveries run before found).mono grown
    · obtain ⟨id, found⟩ := BTreeMap.mem_valueList.mp stored
      rw [previous]
      exact (rooted.jobs _ _ id _ (Or.inl rfl) (.preparation found)).1.mono grown

theorem Rooted.reached {allowed : Pairings Proof → PairingEvent Proof → Prop}
    (reached : Transition.Reaches (step devices) allowed (Pairings.start devices) w) :
    Rooted devices w :=
  (reached.invariant (motive := fun w => Honest devices w ∧ Rooted devices w)
    ⟨.start devices, .start devices⟩ fun _ _ _ held _ stepped =>
      have honest := held.1.step stepped
      ⟨honest, held.2.moved honest.sound (step_moved held.1.sound stepped)⟩).2

def Ran (w : Pairings Proof) (node : String) (invitation : PairingInvitation) : Prop :=
  (∃ run link, w.links run = some link ∧ link.node = node ∧
    link.invitation.secret = invitation.secret ∧
    link.invitation.invitationId = invitation.invitationId) ∨
  ∃ run accept, w.accepts run = some accept ∧ accept.node = node ∧
    accept.invitation.secret = invitation.secret ∧
    accept.invitation.invitationId = invitation.invitationId

omit [DecidableEq Proof] [ReceiptMac Proof] in
theorem Brought.other {node : String} {invitation : PairingInvitation}
    {outcome : SecurePairingOutcome} (brought : Brought w node invitation outcome)
    (safe : Safe devices invitation.secret invitation.invitationId w) :
    ∃ other, outcome = party devices other invitation.invitationId ∧ w.Ran other invitation := by
  cases brought with
  | accept found here proved =>
      obtain ⟨joiner, link, there, proof⟩ := safe.joiner found proved
      obtain ⟨_, secret, named, joinerParty, _⟩ := safe.honest.counterpart there found
        (LinkStage.keys_of_answered (LinkStage.answered_of_proof proof))
      exact ⟨link.node, joinerParty, Or.inl ⟨joiner, link, there, rfl, secret, named⟩⟩
  | link found here answered =>
      obtain ⟨inviter, accept, there, rfl, _⟩ := safe.inviter found answered
      obtain ⟨_, secret, named, _, inviterParty⟩ := safe.honest.counterpart found there
        (LinkStage.keys_of_answered answered)
      exact ⟨accept.node, named ▸ inviterParty, Or.inr ⟨inviter, accept, there, rfl, secret.symm,
        named.symm⟩⟩

end Sponsors

end Pairings

section Theorems

variable {Proof : Type} [DecidableEq Proof] [ReceiptMac Proof] (devices : Devices Proof)
  {w : Pairings Proof}

/-- Whatever device and certificate a session prepared, enrolled or lists as a peer, in memory or on
disk, one of its runs brought in under an invitation. Unless that invitation leaked, they are those
of a device that had a run under it too. -/
theorem Devices.recorded_paired {leaked : String → String → Prop} {node : String}
    {view : Contents Proof} {identity : Identity} {fingerprint : String}
    (reached : Transition.Reaches (Pairings.step devices) (Pairings.Overheard leaked)
      (Pairings.start devices) w)
    (shows : (w.nodes node).Shows view) (recorded : Recorded view identity fingerprint) :
    ∃ invitation, w.Sponsored node invitation identity fingerprint ∧
      (¬leaked invitation.secret invitation.invitationId → ∃ other,
        identity = (devices.member other).identity ∧ fingerprint = devices.fingerprint other ∧
        w.Ran other invitation) := by
  obtain ⟨outcome, ⟨invitation, metadata, brought⟩, rfl, rfl⟩ :=
    (Pairings.Rooted.reached reached).recorded shows recorded
  refine ⟨invitation, brought.sponsored, fun kept => ?_⟩
  obtain ⟨other, party, ran⟩ := brought.other (.reached (reached.mono fun _ _ overheard =>
    ⟨overheard.1 _ _ kept, overheard.2⟩))
  exact ⟨other, congrArg SecurePairingOutcome.identity party,
    congrArg SecurePairingOutcome.fingerprint party, ran⟩

theorem recorded_paired_phone : ∃ p other,
    (pairedWorld.nodes "desk").envelope.peers["phone"]? = some p ∧
      p.identity = (sampleDevices.member other).identity ∧
      p.fingerprint = sampleDevices.fingerprint other := by
  obtain ⟨p, found⟩ := pairedWorld_listed
  obtain ⟨_, _, honest⟩ := sampleDevices.recorded_paired
    (pairedWorld_overheard fun _ _ => False) (Or.inl rfl) (.peer found)
  obtain ⟨other, identity, fingerprint, _⟩ := honest id
  exact ⟨p, other, found, identity, fingerprint⟩

end Theorems

end LibreSync.Managed
