import Mathlib

/-! Runs of a guarded step function, and the invariants that hold along them. -/

namespace Transition

variable {S E : Type}

/-- The states reached from `start` by steps that `allowed` permits. -/
inductive Reaches (step : S → E → Option S) (allowed : S → E → Prop) (start : S) : S → Prop where
  | start : Reaches step allowed start start
  | next {state after : S} {event : E} (reached : Reaches step allowed start state)
      (permitted : allowed state event) (stepped : step state event = some after) :
      Reaches step allowed start after

def run (step : S → E → Option S) : S → List E → Option S
  | state, [] => some state
  | state, event :: events =>
      match step state event with
      | none => none
      | some after => run step after events

variable {step : S → E → Option S} {allowed : S → E → Prop} {start final : S}

theorem Reaches.invariant {motive : S → Prop} (reached : Reaches step allowed start final)
    (initial : motive start)
    (preserved : ∀ state event after, motive state → allowed state event →
      step state event = some after → motive after) : motive final := by
  induction reached with
  | start => exact initial
  | next _ permitted stepped ih => exact preserved _ _ _ ih permitted stepped

theorem Reaches.mono {weaker : S → E → Prop} (reached : Reaches step allowed start final)
    (implied : ∀ state event, allowed state event → weaker state event) :
    Reaches step weaker start final := by
  induction reached with
  | start => exact Reaches.start
  | next _ permitted stepped ih => exact Reaches.next ih (implied _ _ permitted) stepped

theorem Reaches.trans {middle : S} (earlier : Reaches step allowed start middle)
    (later : Reaches step allowed middle final) : Reaches step allowed start final := by
  induction later with
  | start => exact earlier
  | next _ permitted stepped ih => exact Reaches.next ih permitted stepped

theorem Reaches.refine {motive : S → Prop} {other : S → E → Prop}
    (reached : Reaches step allowed start final) (initial : motive start)
    (preserved : ∀ state event after, motive state → allowed state event →
      step state event = some after → other state event ∧ motive after) :
    Reaches step other start final ∧ motive final := by
  induction reached with
  | start => exact ⟨Reaches.start, initial⟩
  | next _ permitted stepped ih =>
      obtain ⟨reached, holds⟩ := ih
      obtain ⟨allowed, kept⟩ := preserved _ _ _ holds permitted stepped
      exact ⟨Reaches.next reached allowed stepped, kept⟩

/-- A view that every step follows turns runs into runs. -/
theorem Reaches.project {T : Type} {lower : T → E → Option T} {weaker : T → E → Prop}
    {view : S → T} (reached : Reaches step allowed start final)
    (follows : ∀ state event after, step state event = some after →
      lower (view state) event = some (view after))
    (permits : ∀ state event, allowed state event → weaker (view state) event) :
    Reaches lower weaker (view start) (view final) := by
  induction reached with
  | start => exact Reaches.start
  | next _ permitted stepped ih =>
      exact Reaches.next ih (permits _ _ permitted) (follows _ _ _ stepped)

theorem run_cons {event : E} {events : List E}
    (ran : run step start (event :: events) = some final) :
    ∃ after, step start event = some after ∧ run step after events = some final := by
  simp only [run] at ran
  cases stepped : step start event with
  | none => simp [stepped] at ran
  | some after =>
      simp only [stepped] at ran
      exact ⟨after, rfl, ran⟩

theorem run_append {middle : S} {first second : List E}
    (earlier : run step start first = some middle) (later : run step middle second = some final) :
    run step start (first ++ second) = some final := by
  induction first generalizing start with
  | nil =>
      simp only [run, Option.some.injEq] at earlier
      exact earlier ▸ later
  | cons event events ih =>
      obtain ⟨after, stepped, rest⟩ := run_cons earlier
      simp only [List.cons_append, run, stepped]
      exact ih rest

theorem reaches_of_run (events : List E) (ran : run step start events = some final) :
    Reaches step (fun _ _ => True) start final := by
  induction events generalizing start with
  | nil =>
      simp only [run, Option.some.injEq] at ran
      exact ran ▸ Reaches.start
  | cons event events ih =>
      obtain ⟨after, stepped, later⟩ := run_cons ran
      exact (Reaches.next Reaches.start trivial stepped).trans (ih later)

def Along (step : S → E → Option S) (holds : S → E → S → Prop) : S → List E → Prop
  | _, [] => True
  | state, event :: events => ∀ after, step state event = some after →
      holds state event after ∧ Along step holds after events

theorem Along.imp {motive : S → Prop} {first second : S → E → S → Prop} {events : List E}
    (along : Along step first start events) (initial : motive start)
    (preserved : ∀ state event after, motive state → step state event = some after → motive after)
    (implied : ∀ state event after, motive state → step state event = some after →
      first state event after → second state event after) : Along step second start events := by
  induction events generalizing start with
  | nil => trivial
  | cons event events ih =>
      intro after stepped
      obtain ⟨here, later⟩ := along after stepped
      exact ⟨implied _ _ _ initial stepped here, ih later (preserved _ _ _ initial stepped)⟩

theorem reaches_along {events : List E} (ran : run step start events = some final)
    (along : Along step (fun state event _ => allowed state event) start events) :
    Reaches step allowed start final := by
  induction events generalizing start with
  | nil =>
      simp only [run, Option.some.injEq] at ran
      exact ran ▸ Reaches.start
  | cons event events ih =>
      obtain ⟨after, stepped, later⟩ := run_cons ran
      obtain ⟨here, rest⟩ := along after stepped
      exact (Reaches.next Reaches.start here stepped).trans (ih later rest)

theorem reaches_guarded {guard : S → E → Bool} {events : List E}
    (ran : run (fun state event => if guard state event then step state event else none) start
      events = some final) :
    Reaches step (fun state event => guard state event = true) start final := by
  induction events generalizing start with
  | nil =>
      simp only [run, Option.some.injEq] at ran
      exact ran ▸ Reaches.start
  | cons event events ih =>
      obtain ⟨after, stepped, later⟩ := run_cons ran
      split at stepped
      · rename_i permitted
        have first : Reaches step (fun state event => guard state event = true) start after :=
          Reaches.next Reaches.start permitted stepped
        exact first.trans (ih later)
      · simp at stepped

theorem run_guarded {guard : S → E → Bool} {events : List E}
    (ran : run (fun state event => if guard state event then step state event else none) start
      events = some final) : run step start events = some final := by
  induction events generalizing start with
  | nil => exact ran
  | cons event events ih =>
      obtain ⟨after, stepped, later⟩ := run_cons ran
      split at stepped
      · simp only [run, stepped]
        exact ih later
      · simp at stepped

/-- A run whose events are chosen on the way, from the state that is reached. -/
def play (step : S → E → Option S) : S → List (S → Option E) → Option S
  | state, [] => some state
  | state, choose :: script =>
      (choose state).bind fun event => (step state event).bind fun after => play step after script

theorem reaches_of_play {guard : S → E → Bool} {script : List (S → Option E)}
    (played : play (fun state event => if guard state event then step state event else none) start
      script = some final) :
    Reaches step (fun state event => guard state event = true) start final := by
  induction script generalizing start with
  | nil =>
      simp only [play, Option.some.injEq] at played
      exact played ▸ Reaches.start
  | cons choose script ih =>
      simp only [play, Option.bind_eq_some_iff] at played
      obtain ⟨event, _, after, stepped, later⟩ := played
      split at stepped
      · rename_i permitted
        have first : Reaches step (fun state event => guard state event = true) start after :=
          Reaches.next Reaches.start permitted stepped
        exact first.trans (ih later)
      · simp at stepped

end Transition
