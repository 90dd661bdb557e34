import LibreSync.Base
import LibreSync.Lib.Threads
import LibreSync.Lib.Transition

/-!
The background engine: commands queued under tickets, one worker that runs them
in turn, and the calls of other threads, one lock or channel operation at a time.
-/

namespace LibreSync

inductive WorkerPhase where
  | waiting
  | received (ticket : Nat)
  | unskipped (ticket : Nat)
  | running (ticket : Nat)
  | returned
  | stopped
deriving DecidableEq

inductive CallerPhase where
  | idle
  | submitting (ticket : Nat)
  | inserting (ticket : Nat)
  | stopping
deriving DecidableEq

/-- How a command ended; of one that ran, whether a `cancel` had returned and whether its token
was cancelled. -/
inductive Outcome where
  | skipped (ticket : Nat)
  | ran (ticket : Nat) (asked cancelled : Bool)
deriving DecidableEq

def Outcome.ticket : Outcome → Nat
  | .skipped ticket => ticket
  | .ran ticket _ _ => ticket

/-- A command is its ticket; `Command::Shutdown` has none. -/
structure BackgroundEngine where
  nextTicket : Nat
  accepting : Bool
  queue : List (Option Nat)
  cancelled : Finset Nat
  current : Option (Nat × Bool)
  worker : WorkerPhase
  callers : List CallerPhase
  answered : Finset Nat
  outcomes : List Outcome
deriving DecidableEq

inductive BackgroundEvent where
  | reserve (caller : Nat)
  | send (caller : Nat)
  | cancel (caller ticket : Nat)
  | insert (caller : Nat)
  | cancelCurrent (caller : Nat)
  | shutdown (caller : Nat)
  | close (caller : Nat)
  | receive
  | check
  | publish
  | finish
  | clear

namespace BackgroundEngine

def start (count : Nat) : BackgroundEngine where
  nextTicket := 1
  accepting := true
  queue := []
  cancelled := ∅
  current := none
  worker := .waiting
  callers := List.replicate count .idle
  answered := ∅
  outcomes := []

def caller (engine : BackgroundEngine) (index : Nat) : Option CallerPhase := engine.callers[index]?

def setCaller (engine : BackgroundEngine) (index : Nat) (phase : CallerPhase) : BackgroundEngine :=
  { engine with callers := engine.callers.set index phase }

/-- `submit` up to `fetch_add`, which wraps around. -/
def reserve (engine : BackgroundEngine) (index : Nat) : Option BackgroundEngine :=
  if engine.caller index = some .idle then
    some { engine.setCaller index (.submitting engine.nextTicket) with
      nextTicket := (engine.nextTicket + 1) % 2 ^ 64 }
  else none

def send (engine : BackgroundEngine) (index : Nat) : Option BackgroundEngine :=
  match engine.caller index with
  | some (.submitting ticket) =>
      if engine.accepting && engine.worker ≠ .stopped then
        some { engine.setCaller index .idle with queue := engine.queue ++ [some ticket] }
      else some (engine.setCaller index .idle)
  | _ => none

/-- `cancel` under the lock of the current command. -/
def cancel (engine : BackgroundEngine) (index ticket : Nat) : Option BackgroundEngine :=
  if engine.caller index = some .idle then
    match engine.current with
    | some (current, _) =>
        if current = ticket then
          some { engine with
            current := some (current, true)
            answered := insert ticket engine.answered }
        else some (engine.setCaller index (.inserting ticket))
    | none => some (engine.setCaller index (.inserting ticket))
  else none

/-- The rest of `cancel`, under the lock of the cancelled tickets. -/
def insertTicket (engine : BackgroundEngine) (index : Nat) : Option BackgroundEngine :=
  match engine.caller index with
  | some (.inserting ticket) => some { engine.setCaller index .idle with
      cancelled := insert ticket engine.cancelled
      answered := insert ticket engine.answered }
  | _ => none

def cancelCurrent (engine : BackgroundEngine) : BackgroundEngine :=
  { engine with current := engine.current.map fun current => (current.1, true) }

def close (engine : BackgroundEngine) (index : Nat) : Option BackgroundEngine :=
  if engine.caller index = some .stopping then
    some { engine.setCaller index .idle with
      accepting := false
      queue := if engine.accepting then engine.queue ++ [none] else engine.queue }
  else none

def receive (engine : BackgroundEngine) : Option BackgroundEngine :=
  match engine.worker, engine.queue with
  | .waiting, some ticket :: rest => some { engine with
      queue := rest
      worker := .received ticket }
  | .waiting, none :: rest => some { engine with
      queue := rest
      worker := .stopped }
  | _, _ => none

def check (engine : BackgroundEngine) : Option BackgroundEngine :=
  match engine.worker with
  | .received ticket =>
      if ticket ∈ engine.cancelled then some { engine with
        cancelled := engine.cancelled.erase ticket
        worker := .waiting
        outcomes := .skipped ticket :: engine.outcomes }
      else some { engine with worker := .unskipped ticket }
  | _ => none

def publish (engine : BackgroundEngine) : Option BackgroundEngine :=
  match engine.worker with
  | .unskipped ticket => some { engine with
      current := some (ticket, false)
      worker := .running ticket }
  | _ => none

def finish (engine : BackgroundEngine) : Option BackgroundEngine :=
  match engine.worker with
  | .running ticket => some { engine with
      worker := .returned
      outcomes := .ran ticket (decide (ticket ∈ engine.answered))
        (decide (engine.current = some (ticket, true))) :: engine.outcomes }
  | _ => none

def clear (engine : BackgroundEngine) : Option BackgroundEngine :=
  if engine.worker = .returned then some { engine with
    current := none
    worker := .waiting }
  else none

def step (engine : BackgroundEngine) : BackgroundEvent → Option BackgroundEngine
  | .reserve index => engine.reserve index
  | .send index => engine.send index
  | .cancel index ticket => engine.cancel index ticket
  | .insert index => engine.insertTicket index
  | .cancelCurrent index =>
      if engine.caller index = some .idle then some engine.cancelCurrent else none
  | .shutdown index =>
      if engine.caller index = some .idle then
        some (engine.cancelCurrent.setCaller index .stopping)
      else none
  | .close index => engine.close index
  | .receive => engine.receive
  | .check => engine.check
  | .publish => engine.publish
  | .finish => engine.finish
  | .clear => engine.clear

/-- A command on whose ticket a `cancel` had returned ran with a cancelled token, if it ran. -/
def Honoured (engine : BackgroundEngine) : Prop :=
  ∀ ticket asked cancelled, .ran ticket asked cancelled ∈ engine.outcomes →
    asked = true → cancelled = true

/--
A `cancel` that did not find its ticket current enters it among the cancelled
ones before the worker has passed over it, or once its command has returned.
-/
def Timely (engine : BackgroundEngine) : BackgroundEvent → Prop
  | .insert index => ∀ ticket, engine.caller index = some (.inserting ticket) →
      engine.worker ≠ .unskipped ticket ∧
        (engine.worker = .running ticket → engine.current = some (ticket, true))
  | .reserve _ => engine.nextTicket < u64Max
  | _ => True

abbrev Reached (count : Nat) : BackgroundEngine → Prop :=
  Transition.Reaches step Timely (start count)

def held (engine : BackgroundEngine) : List Nat :=
  match engine.worker with
  | .received ticket | .unskipped ticket | .running ticket => [ticket]
  | _ => []

def tally (engine : BackgroundEngine) (ticket : Nat) : Nat :=
  engine.callers.count (.submitting ticket) + engine.queue.count (some ticket) +
    engine.held.count ticket + (engine.outcomes.map Outcome.ticket).count ticket

structure Single (engine : BackgroundEngine) : Prop where
  once : ∀ ticket, engine.tally ticket ≤ 1
  undrawn : ∀ ticket, engine.nextTicket ≤ ticket → engine.tally ticket = 0

structure Pending (engine : BackgroundEngine) : Prop where
  running : ∀ ticket, engine.worker = .running ticket → ∃ cancelled,
    engine.current = some (ticket, cancelled)
  published : ∀ ticket cancelled, engine.current = some (ticket, cancelled) →
    engine.worker = .running ticket ∨ ticket ∈ engine.outcomes.map Outcome.ticket
  kept : ∀ ticket ∈ engine.answered, ticket ∈ engine.outcomes.map Outcome.ticket ∨
    ticket ∈ engine.cancelled ∨ engine.worker = .running ticket
  unskipped : ∀ ticket, engine.worker = .unskipped ticket → ticket ∉ engine.answered
  heard : ∀ ticket, engine.worker = .running ticket → ticket ∈ engine.answered →
    engine.current = some (ticket, true)

variable {engine after : BackgroundEngine} {index ticket : Nat}

theorem start_single (count : Nat) : (start count).Single := by
  constructor <;> intro ticket <;> simp [start, tally, held, List.count_replicate]

theorem count_setCaller {old : CallerPhase} (found : engine.caller index = some old)
    (phase new : CallerPhase) : (engine.setCaller index new).callers.count phase +
      (if old = phase then 1 else 0) =
        engine.callers.count phase + if new = phase then 1 else 0 :=
  Threads.count_set found phase new

theorem Single.mono (single : engine.Single) (same : after.nextTicket = engine.nextTicket)
    (fewer : ∀ ticket, after.tally ticket ≤ engine.tally ticket) : after.Single where
  once ticket := (fewer ticket).trans (single.once ticket)
  undrawn ticket above := Nat.le_zero.mp
    ((fewer ticket).trans (single.undrawn ticket (same ▸ above)).le)

theorem tally_setCaller {old : CallerPhase} (new : CallerPhase) (found : engine.caller index = some old)
    (free : ∀ ticket, new ≠ .submitting ticket) (ticket : Nat) :
    (engine.setCaller index new).tally ticket + (if old = .submitting ticket then 1 else 0) =
      engine.tally ticket := by
  have counted := count_setCaller found (.submitting ticket) new
  rw [if_neg (free ticket)] at counted
  have held : (engine.setCaller index new).held = engine.held := rfl
  simp only [tally, held]
  simp only [setCaller] at counted ⊢
  omega

theorem Single.setCaller {old : CallerPhase} (single : engine.Single) (new : CallerPhase)
    (found : engine.caller index = some old) (free : ∀ ticket, new ≠ .submitting ticket) :
    (engine.setCaller index new).Single :=
  single.mono rfl fun ticket => by
    have moved := tally_setCaller new found free ticket
    omega

theorem Single.reserve (single : engine.Single) (below : engine.nextTicket < u64Max)
    (stepped : engine.reserve index = some after) : after.Single := by
  simp only [BackgroundEngine.reserve] at stepped
  split at stepped
  · rename_i found
    obtain rfl := Option.some.inj stepped
    have next : (engine.nextTicket + 1) % 2 ^ 64 = engine.nextTicket + 1 := by
      have : u64Max = 2 ^ 64 - 1 := rfl
      exact Nat.mod_eq_of_lt (by omega)
    have drawn : ∀ ticket, ({ engine.setCaller index (.submitting engine.nextTicket) with
        nextTicket := (engine.nextTicket + 1) % 2 ^ 64 } : BackgroundEngine).tally ticket =
          engine.tally ticket + if engine.nextTicket = ticket then 1 else 0 := by
      intro ticket
      have counted := count_setCaller found (.submitting ticket) (.submitting engine.nextTicket)
      simp only [CallerPhase.submitting.injEq, reduceCtorEq, if_false, Nat.add_zero] at counted
      simp only [tally, counted]
      simp only [BackgroundEngine.setCaller, held]
      omega
    constructor
    · intro ticket
      rw [drawn]
      split
      · rename_i same
        rw [single.undrawn ticket same.le]
      · exact single.once ticket
    · intro ticket above
      simp only [next] at above
      rw [drawn, single.undrawn ticket (by omega), if_neg (by omega)]
  · simp at stepped

theorem Single.send (single : engine.Single) (stepped : engine.send index = some after) :
    after.Single := by
  simp only [BackgroundEngine.send] at stepped
  split at stepped
  · rename_i sent found
    have moved := tally_setCaller .idle found (by simp)
    split at stepped
    · obtain rfl := Option.some.inj stepped
      refine single.mono rfl fun ticket => ?_
      have before := moved ticket
      have held : (engine.setCaller index .idle).held = engine.held := rfl
      simp only [tally, held, CallerPhase.submitting.injEq] at before ⊢
      simp only [BackgroundEngine.setCaller, List.count_append, List.count_singleton, beq_iff_eq,
        Option.some.injEq] at before ⊢
      simp only [BackgroundEngine.held] at before ⊢
      omega
    · obtain rfl := Option.some.inj stepped
      exact single.setCaller _ found (by simp)
  · simp at stepped

theorem Single.cancel (single : engine.Single) (stepped : engine.cancel index ticket = some after) :
    after.Single := by
  simp only [BackgroundEngine.cancel] at stepped
  split at stepped
  · rename_i found
    split at stepped
    · split at stepped
      · obtain rfl := Option.some.inj stepped
        exact single.mono rfl fun _ => le_rfl
      · obtain rfl := Option.some.inj stepped
        exact single.setCaller _ found (by simp)
    · obtain rfl := Option.some.inj stepped
      exact single.setCaller _ found (by simp)
  · simp at stepped

theorem Single.insertTicket (single : engine.Single)
    (stepped : engine.insertTicket index = some after) : after.Single := by
  simp only [BackgroundEngine.insertTicket] at stepped
  split at stepped
  · rename_i found
    obtain rfl := Option.some.inj stepped
    exact (single.setCaller .idle found (by simp)).mono rfl fun _ => le_rfl
  · simp at stepped

theorem Single.close (single : engine.Single) (stepped : engine.close index = some after) :
    after.Single := by
  simp only [BackgroundEngine.close] at stepped
  split at stepped
  · rename_i found
    obtain rfl := Option.some.inj stepped
    refine (single.setCaller .idle found (by simp)).mono rfl fun ticket => ?_
    have queue : (if engine.accepting then engine.queue ++ [none] else engine.queue).count
        (some ticket) = engine.queue.count (some ticket) := by
      split
      · simp
      · rfl
    exact (congrArg (fun queued => (engine.setCaller index .idle).callers.count (.submitting ticket) +
      queued + engine.held.count ticket + (engine.outcomes.map Outcome.ticket).count ticket) queue).le
  · simp at stepped

theorem Single.receive (single : engine.Single) (stepped : engine.receive = some after) :
    after.Single := by
  simp only [BackgroundEngine.receive] at stepped
  split at stepped
  all_goals first
    | rename_i waiting queued
      obtain rfl := Option.some.inj stepped
      refine single.mono rfl fun ticket => ?_
      simp [tally, held, waiting, queued, List.count_cons]
      try omega
    | simp at stepped

theorem Single.check (single : engine.Single) (stepped : engine.check = some after) :
    after.Single := by
  simp only [BackgroundEngine.check] at stepped
  split at stepped
  · rename_i ticket received
    split at stepped
    all_goals
      obtain rfl := Option.some.inj stepped
      refine single.mono rfl fun other => ?_
      simp [tally, held, received, Outcome.ticket, List.count_cons]
      try omega
  · simp at stepped

theorem Single.publish (single : engine.Single) (stepped : engine.publish = some after) :
    after.Single := by
  simp only [BackgroundEngine.publish] at stepped
  split at stepped
  · rename_i ticket unskipped
    obtain rfl := Option.some.inj stepped
    refine single.mono rfl fun other => ?_
    simp [tally, held, unskipped]
  · simp at stepped

theorem Single.finish (single : engine.Single) (stepped : engine.finish = some after) :
    after.Single := by
  simp only [BackgroundEngine.finish] at stepped
  split at stepped
  · rename_i ticket running
    obtain rfl := Option.some.inj stepped
    refine single.mono rfl fun other => ?_
    simp [tally, held, running, Outcome.ticket, List.count_cons]
    omega
  · simp at stepped

theorem Single.clear (single : engine.Single) (stepped : engine.clear = some after) :
    after.Single := by
  simp only [BackgroundEngine.clear] at stepped
  split at stepped
  · rename_i returned
    obtain rfl := Option.some.inj stepped
    refine single.mono rfl fun other => ?_
    simp [tally, held, returned]
  · simp at stepped

theorem Single.step (single : engine.Single) {event : BackgroundEvent} (timely : engine.Timely event)
    (stepped : engine.step event = some after) : after.Single := by
  cases event with
  | reserve index => exact single.reserve timely stepped
  | send index => exact single.send stepped
  | cancel index ticket => exact single.cancel stepped
  | insert index => exact single.insertTicket stepped
  | cancelCurrent index =>
      simp only [BackgroundEngine.step] at stepped
      split at stepped
      · obtain rfl := Option.some.inj stepped
        exact single.mono rfl fun _ => le_rfl
      · simp at stepped
  | shutdown index =>
      simp only [BackgroundEngine.step] at stepped
      split at stepped
      · rename_i found
        obtain rfl := Option.some.inj stepped
        have cancelled : engine.cancelCurrent.Single := single.mono rfl fun _ => le_rfl
        exact cancelled.setCaller _ found (by simp)
      · simp at stepped
  | close index => exact single.close stepped
  | receive => exact single.receive stepped
  | check => exact single.check stepped
  | publish => exact single.publish stepped
  | finish => exact single.finish stepped
  | clear => exact single.clear stepped

theorem Single.unfinished (single : engine.Single) (holds : ticket ∈ engine.held) :
    ticket ∉ engine.outcomes.map Outcome.ticket := by
  intro done
  have once := single.once ticket
  have held := List.count_pos_iff.mpr holds
  have finished := List.count_pos_iff.mpr done
  simp only [tally] at once
  omega

structure Alike (engine after : BackgroundEngine) : Prop where
  worker : after.worker = engine.worker
  current : after.current = engine.current
  cancelled : after.cancelled = engine.cancelled
  answered : after.answered = engine.answered
  outcomes : after.outcomes = engine.outcomes

theorem Pending.alike (pending : engine.Pending) (alike : engine.Alike after) : after.Pending := by
  obtain ⟨worker, current, cancelled, answered, outcomes⟩ := alike
  constructor
  · rw [worker, current]
    exact pending.running
  · rw [worker, current, outcomes]
    exact pending.published
  · rw [worker, answered, cancelled, outcomes]
    exact pending.kept
  · rw [worker, answered]
    exact pending.unskipped
  · rw [worker, current, answered]
    exact pending.heard

theorem start_pending (count : Nat) : (start count).Pending := by
  constructor <;> simp [start]

theorem Pending.answer (pending : engine.Pending) (single : engine.Single) {cancelled : Bool}
    (found : engine.current = some (ticket, cancelled)) :
    ({ engine with
      current := some (ticket, true)
      answered := insert ticket engine.answered } : BackgroundEngine).Pending := by
  have place := pending.published ticket cancelled found
  constructor
  · intro other running
    obtain ⟨flag, same⟩ := pending.running other running
    obtain rfl := (Prod.mk.inj (Option.some.inj (found.symm.trans same))).1
    exact ⟨true, rfl⟩
  · intro other flag same
    obtain rfl := (Prod.mk.inj (Option.some.inj same)).1
    exact place
  · intro other member
    rcases Finset.mem_insert.mp member with rfl | earlier
    · exact place.symm.imp_right Or.inr
    · exact pending.kept other earlier
  · intro other unskipped member
    rcases Finset.mem_insert.mp member with rfl | earlier
    · rcases place with running | done
      · simp [running] at unskipped
      · have holds : other ∈ engine.held := by
          dsimp only at unskipped
          simp [held, unskipped]
        exact single.unfinished holds done
    · exact pending.unskipped other unskipped earlier
  · intro other running _
    obtain ⟨flag, same⟩ := pending.running other running
    obtain rfl := (Prod.mk.inj (Option.some.inj (found.symm.trans same))).1
    rfl

theorem Pending.cancel (pending : engine.Pending) (single : engine.Single)
    (stepped : engine.cancel index ticket = some after) : after.Pending := by
  simp only [BackgroundEngine.cancel] at stepped
  split at stepped
  · split at stepped
    · rename_i found
      split at stepped
      · rename_i same
        obtain rfl := Option.some.inj stepped
        subst same
        exact pending.answer single found
      · obtain rfl := Option.some.inj stepped
        exact pending.alike ⟨rfl, rfl, rfl, rfl, rfl⟩
    · obtain rfl := Option.some.inj stepped
      exact pending.alike ⟨rfl, rfl, rfl, rfl, rfl⟩
  · simp at stepped

theorem Pending.insertTicket (pending : engine.Pending) (timely : engine.Timely (.insert index))
    (stepped : engine.insertTicket index = some after) : after.Pending := by
  simp only [BackgroundEngine.insertTicket] at stepped
  split at stepped
  · rename_i ticket found
    obtain ⟨unskipped, running⟩ := timely ticket found
    obtain rfl := Option.some.inj stepped
    refine ⟨pending.running, pending.published, ?_, ?_, ?_⟩
    · intro other member
      rcases Finset.mem_insert.mp member with rfl | earlier
      · exact Or.inr (Or.inl (Finset.mem_insert_self _ _))
      · exact (pending.kept other earlier).imp_right
          (Or.imp_left (Finset.mem_insert_of_mem ·))
    · intro other phase member
      rcases Finset.mem_insert.mp member with rfl | earlier
      · exact unskipped phase
      · exact pending.unskipped other phase earlier
    · intro other phase member
      rcases Finset.mem_insert.mp member with rfl | earlier
      · exact running phase
      · exact pending.heard other phase earlier
  · simp at stepped

theorem Pending.cancelCurrent (pending : engine.Pending) : engine.cancelCurrent.Pending := by
  refine ⟨?_, ?_, pending.kept, pending.unskipped, ?_⟩
  · intro ticket running
    obtain ⟨flag, same⟩ := pending.running ticket running
    exact ⟨true, by simp [BackgroundEngine.cancelCurrent, same]⟩
  · intro ticket flag same
    simp only [BackgroundEngine.cancelCurrent, Option.map_eq_some_iff, Prod.mk.injEq] at same
    obtain ⟨⟨current, before⟩, found, rfl, _⟩ := same
    exact pending.published current before found
  · intro ticket running asked
    have same := pending.heard ticket running asked
    simp [BackgroundEngine.cancelCurrent, same]

theorem Pending.receive (pending : engine.Pending) (stepped : engine.receive = some after) :
    after.Pending := by
  simp only [BackgroundEngine.receive] at stepped
  split at stepped
  case h_3 => simp at stepped
  all_goals
    rename_i waiting queued
    obtain rfl := Option.some.inj stepped
    have idle : ∀ ticket, engine.worker ≠ .running ticket := by simp [waiting]
    refine ⟨by simp, ?_, ?_, by simp, by simp⟩
    · intro ticket flag same
      exact Or.inr ((pending.published ticket flag same).resolve_left (idle ticket))
    · intro ticket member
      exact (pending.kept ticket member).imp_right fun cases =>
        Or.inl (cases.resolve_right (idle ticket))

theorem Pending.check (pending : engine.Pending) (single : engine.Single)
    (stepped : engine.check = some after) : after.Pending := by
  simp only [BackgroundEngine.check] at stepped
  split at stepped
  · rename_i ticket received
    have idle : ∀ ticket, engine.worker ≠ .running ticket := by simp [received]
    have done := fun ticket flag same =>
      (pending.published ticket flag same).resolve_left (idle ticket)
    have kept := fun ticket member =>
      (pending.kept ticket member).imp_right fun cases => cases.resolve_right (idle ticket)
    split at stepped
    · obtain rfl := Option.some.inj stepped
      refine ⟨by simp, ?_, ?_, by simp, by simp⟩
      · intro other flag same
        exact Or.inr (List.mem_cons_of_mem _ (done other flag same))
      · intro other member
        rcases kept other member with finished | cancelled
        · exact Or.inl (List.mem_cons_of_mem _ finished)
        · by_cases same : other = ticket
          · exact Or.inl (same ▸ List.mem_cons_self)
          · exact Or.inr (Or.inl (Finset.mem_erase.mpr ⟨same, cancelled⟩))
    · rename_i missing
      obtain rfl := Option.some.inj stepped
      refine ⟨by simp, ?_, ?_, ?_, by simp⟩
      · exact fun other flag same => Or.inr (done other flag same)
      · exact fun other member => (kept other member).imp_right Or.inl
      · intro other unskipped member
        obtain rfl : ticket = other := by simpa using unskipped
        rcases kept ticket member with finished | cancelled
        · exact single.unfinished (by simp [held, received]) finished
        · exact missing cancelled
  · simp at stepped

theorem Pending.publish (pending : engine.Pending) (stepped : engine.publish = some after) :
    after.Pending := by
  simp only [BackgroundEngine.publish] at stepped
  split at stepped
  · rename_i ticket unskipped
    obtain rfl := Option.some.inj stepped
    refine ⟨?_, ?_, ?_, by simp, ?_⟩
    · intro other running
      obtain rfl : ticket = other := by simpa using running
      exact ⟨false, rfl⟩
    · intro other flag same
      obtain rfl : ticket = other := by
        simp only [Option.some.injEq, Prod.mk.injEq] at same
        exact same.1
      exact Or.inl rfl
    · intro other member
      rcases pending.kept other member with finished | cancelled | running
      · exact Or.inl finished
      · exact Or.inr (Or.inl cancelled)
      · simp [unskipped] at running
    · intro other running member
      obtain rfl : ticket = other := by simpa using running
      exact absurd member (pending.unskipped ticket unskipped)
  · simp at stepped

theorem Pending.finish (pending : engine.Pending) (stepped : engine.finish = some after) :
    after.Pending := by
  simp only [BackgroundEngine.finish] at stepped
  split at stepped
  · rename_i ticket running
    obtain rfl := Option.some.inj stepped
    have ends : ∀ other, engine.worker = .running other → other = ticket := by
      intro other same
      simpa using (running.symm.trans same).symm
    refine ⟨by simp, ?_, ?_, by simp, by simp⟩
    · intro other flag same
      rcases pending.published other flag same with phase | finished
      · exact Or.inr (ends other phase ▸ List.mem_cons_self)
      · exact Or.inr (List.mem_cons_of_mem _ finished)
    · intro other member
      rcases pending.kept other member with finished | cancelled | phase
      · exact Or.inl (List.mem_cons_of_mem _ finished)
      · exact Or.inr (Or.inl cancelled)
      · exact Or.inl (ends other phase ▸ List.mem_cons_self)
  · simp at stepped

theorem Pending.clear (pending : engine.Pending) (stepped : engine.clear = some after) :
    after.Pending := by
  simp only [BackgroundEngine.clear] at stepped
  split at stepped
  · rename_i returned
    obtain rfl := Option.some.inj stepped
    refine ⟨by simp, by simp, ?_, by simp, by simp⟩
    intro ticket member
    rcases pending.kept ticket member with finished | cancelled | running
    · exact Or.inl finished
    · exact Or.inr (Or.inl cancelled)
    · simp [returned] at running
  · simp at stepped

theorem Pending.step (pending : engine.Pending) (single : engine.Single) {event : BackgroundEvent}
    (timely : engine.Timely event) (stepped : engine.step event = some after) : after.Pending := by
  cases event with
  | reserve index =>
      simp only [BackgroundEngine.step, BackgroundEngine.reserve] at stepped
      split at stepped
      · obtain rfl := Option.some.inj stepped
        exact pending.alike ⟨rfl, rfl, rfl, rfl, rfl⟩
      · simp at stepped
  | send index =>
      simp only [BackgroundEngine.step, BackgroundEngine.send] at stepped
      split at stepped
      · split at stepped
        all_goals
          obtain rfl := Option.some.inj stepped
          exact pending.alike ⟨rfl, rfl, rfl, rfl, rfl⟩
      · simp at stepped
  | cancel index ticket => exact pending.cancel single stepped
  | insert index => exact pending.insertTicket timely stepped
  | cancelCurrent index =>
      simp only [BackgroundEngine.step] at stepped
      split at stepped
      · obtain rfl := Option.some.inj stepped
        exact pending.cancelCurrent
      · simp at stepped
  | shutdown index =>
      simp only [BackgroundEngine.step] at stepped
      split at stepped
      · obtain rfl := Option.some.inj stepped
        exact pending.cancelCurrent.alike ⟨rfl, rfl, rfl, rfl, rfl⟩
      · simp at stepped
  | close index =>
      simp only [BackgroundEngine.step, BackgroundEngine.close] at stepped
      split at stepped
      · obtain rfl := Option.some.inj stepped
        exact pending.alike ⟨rfl, rfl, rfl, rfl, rfl⟩
      · simp at stepped
  | receive => exact pending.receive stepped
  | check => exact pending.check single stepped
  | publish => exact pending.publish stepped
  | finish => exact pending.finish stepped
  | clear => exact pending.clear stepped

theorem step_outcomes {event : BackgroundEvent} (stepped : engine.step event = some after) :
    after.outcomes = engine.outcomes ∨
      (∃ ticket, after.outcomes = .skipped ticket :: engine.outcomes) ∨
      ∃ ticket, engine.worker = .running ticket ∧
        after.outcomes = .ran ticket (decide (ticket ∈ engine.answered))
          (decide (engine.current = some (ticket, true))) :: engine.outcomes := by
  cases event with
  | finish =>
      simp only [step, finish] at stepped
      split at stepped
      · rename_i ticket running
        obtain rfl := Option.some.inj stepped
        exact Or.inr (Or.inr ⟨ticket, running, rfl⟩)
      · simp at stepped
  | check =>
      simp only [step, check] at stepped
      split at stepped
      · split at stepped
        · obtain rfl := Option.some.inj stepped
          exact Or.inr (Or.inl ⟨_, rfl⟩)
        · obtain rfl := Option.some.inj stepped
          exact Or.inl rfl
      · simp at stepped
  | _ =>
      refine Or.inl ?_
      simp only [step, reserve, send, cancel, insertTicket, close, receive, publish, clear] at stepped
      grind [setCaller, cancelCurrent]

theorem Honoured.step (honoured : engine.Honoured) (pending : engine.Pending)
    {event : BackgroundEvent} (stepped : engine.step event = some after) : after.Honoured := by
  intro ticket asked cancelled member wanted
  rcases step_outcomes stepped with same | ⟨other, skipped⟩ | ⟨other, running, ran⟩
  · exact honoured ticket asked cancelled (same ▸ member) wanted
  · rw [skipped] at member
    refine honoured ticket asked cancelled ?_ wanted
    simpa using member
  · rw [ran] at member
    rcases List.mem_cons.mp member with here | earlier
    · obtain ⟨rfl, rfl, rfl⟩ := Outcome.ran.inj here
      exact decide_eq_true (pending.heard ticket running (of_decide_eq_true wanted))
    · exact honoured ticket asked cancelled earlier wanted

structure Orderly (engine : BackgroundEngine) : Prop where
  single : engine.Single
  pending : engine.Pending
  honoured : engine.Honoured

theorem cancels_honoured {count : Nat} (reached : Reached count engine) : engine.Honoured := by
  have orderly : engine.Orderly := by
    refine reached.invariant ⟨start_single count, start_pending count, by simp [Honoured, start]⟩ ?_
    intro engine event after orderly timely stepped
    exact ⟨orderly.single.step timely stepped, orderly.pending.step orderly.single timely stepped,
      orderly.honoured.step orderly.pending stepped⟩
  exact orderly.honoured

/-- A cancel looks for its command before the worker publishes it, and enters the ticket after the
worker has looked for that. -/
def lostEvents : List BackgroundEvent :=
  [.reserve 0, .send 0, .receive, .cancel 1 1, .check, .publish, .insert 1, .finish]

theorem cancel_lost : ∃ engine : BackgroundEngine,
    Transition.Reaches step (fun _ _ => True) (start 2) engine ∧ ¬engine.Honoured := by
  have ends : (Transition.run step (start 2) lostEvents).map BackgroundEngine.outcomes =
      some [.ran 1 true false] := by decide +kernel
  obtain ⟨engine, ran, outcomes⟩ := Option.map_eq_some_iff.mp ends
  refine ⟨engine, Transition.reaches_of_run lostEvents ran, fun honoured => ?_⟩
  have kept := honoured 1 true false (by rw [outcomes]; simp) rfl
  simp at kept

/-- The first command is cancelled while it runs, the second while it waits. -/
def honouredEvents : List BackgroundEvent :=
  [.reserve 0, .send 0, .reserve 0, .send 0, .receive, .check, .publish, .cancel 1 1, .cancel 1 2,
    .insert 1, .finish, .clear, .receive, .check]

theorem honouredEvents_run : ((Transition.run step (start 2) honouredEvents).map outcomes) =
    some [.skipped 2, .ran 1 true true] := by
  decide +kernel

theorem honouredEvents_timely :
    Transition.Along step (fun engine event _ => engine.Timely event) (start 2) honouredEvents := by
  have first : 1 < u64Max := by decide
  have second : 2 < u64Max := by decide
  rintro _ ⟨⟩
  refine ⟨first, fun _ sent => ⟨trivial, ?_⟩⟩
  obtain rfl := Option.some.inj sent
  rintro _ ⟨⟩
  refine ⟨second, fun _ sent => ⟨trivial, fun _ received => ⟨trivial, fun _ checked =>
    ⟨trivial, fun _ published => ⟨trivial, fun _ stopped => ⟨trivial, fun _ missed =>
      ⟨trivial, ?_⟩⟩⟩⟩⟩⟩⟩
  obtain rfl := Option.some.inj sent
  obtain rfl := Option.some.inj received
  obtain rfl := Option.some.inj checked
  obtain rfl := Option.some.inj published
  obtain rfl := Option.some.inj stopped
  obtain rfl := Option.some.inj missed
  refine fun _ _ => ⟨?_, fun _ _ => ⟨trivial, fun _ _ => ⟨trivial, fun _ _ => ⟨trivial,
    fun _ _ => ⟨trivial, trivial⟩⟩⟩⟩⟩
  -- The worker runs the first command when the second ticket is entered.
  intro ticket inserting
  have same : CallerPhase.inserting 2 = .inserting ticket := Option.some.inj inserting
  obtain rfl := CallerPhase.inserting.inj same
  exact ⟨by rintro ⟨⟩, by rintro ⟨⟩⟩

theorem cancels_honoured_both : ∃ engine : BackgroundEngine,
    engine.outcomes = [.skipped 2, .ran 1 true true] ∧ engine.Honoured := by
  obtain ⟨engine, ran, outcomes⟩ := Option.map_eq_some_iff.mp honouredEvents_run
  exact ⟨engine, outcomes, cancels_honoured (Transition.reaches_along ran honouredEvents_timely)⟩

end BackgroundEngine

end LibreSync
