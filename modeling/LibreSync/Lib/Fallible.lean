import Mathlib

/-! Runs of fallible steps on a state changed in place: a failing step ends the run, earlier ones stay. -/

namespace Fallible

variable {S E : Type}

theorem bind_ok {α β : Type} {first : Except E α} {next : α → Except E β} {result : β} :
    (first >>= next) = .ok result ↔ ∃ value, first = .ok value ∧ next value = .ok result := by
  cases first <;> simp [bind, Except.bind]

theorem mapM_ok {α β : Type} {f : α → Except E β} {items : List α} {results : List β} :
    items.mapM f = .ok results ↔ List.Forall₂ (fun item result => f item = .ok result) items
      results := by
  induction items generalizing results with
  | nil => simp [pure, Except.pure, eq_comm]
  | cons item rest ih =>
      simp only [List.mapM_cons, bind_ok, pure, Except.pure, Except.ok.injEq]
      constructor
      · rintro ⟨result, first, later, others, rfl⟩
        exact .cons first (ih.mp others)
      · rintro (_ | ⟨first, others⟩)
        exact ⟨_, first, _, ih.mpr others, rfl⟩

theorem mapM_source {α β : Type} {f : α → Except E β} {items : List α} {results : List β}
    (ran : items.mapM f = .ok results) {result : β} (member : result ∈ results) :
    ∃ item ∈ items, f item = .ok result := by
  have related := mapM_ok.mp ran
  clear ran
  induction related with
  | nil => simp at member
  | cons first _ ih =>
      rcases List.mem_cons.mp member with rfl | later
      · exact ⟨_, List.mem_cons_self, first⟩
      · obtain ⟨item, listed, ran⟩ := ih later
        exact ⟨item, List.mem_cons_of_mem _ listed, ran⟩

theorem mapM_total {α β : Type} {f : α → Except E β} {items : List α}
    (each : ∀ item ∈ items, ∃ result, f item = .ok result) :
    ∃ results, items.mapM f = .ok results := by
  induction items with
  | nil => exact ⟨[], rfl⟩
  | cons item rest ih =>
      obtain ⟨result, first⟩ := each item List.mem_cons_self
      obtain ⟨results, others⟩ := ih fun other member => each other (List.mem_cons_of_mem _ member)
      exact ⟨result :: results, mapM_ok.mpr (.cons first (mapM_ok.mp others))⟩

def runSteps : List (S → Except E S) → S → Except E Unit × S
  | [], state => (.ok (), state)
  | step :: rest, state =>
      match step state with
      | .error error => (.error error, state)
      | .ok state => runSteps rest state

theorem runSteps_append (earlier later : List (S → Except E S)) (state : S) :
    runSteps (earlier ++ later) state =
      match runSteps earlier state with
      | (.error error, state) => (.error error, state)
      | (.ok (), state) => runSteps later state := by
  induction earlier generalizing state with
  | nil => rfl
  | cons step rest ih =>
      simp only [List.cons_append, runSteps]
      cases step state with
      | error error => rfl
      | ok after => exact ih after

/-- The first step that fails comes after steps that change nothing. -/
def FailsFirst (steps : List (S → Except E S)) (state : S) : Prop :=
  ∃ earlier failing later, steps = earlier ++ failing :: later ∧
    (∀ step ∈ earlier, step state = .ok state) ∧ ∃ error, failing state = .error error

theorem FailsFirst.unchanged {steps : List (S → Except E S)} {state : S}
    (fails : FailsFirst steps state) : (runSteps steps state).2 = state := by
  obtain ⟨earlier, failing, later, rfl, still, error, failed⟩ := fails
  induction earlier with
  | nil => simp only [List.nil_append, runSteps, failed]
  | cons step rest ih =>
      obtain ⟨first, others⟩ := List.forall_mem_cons.mp still
      simp only [List.cons_append, runSteps, first]
      exact ih others

section Progress

variable {room : Nat → S → Prop} {progress : S → S → Prop}

/-- With room for its steps, a run that has moved on never comes back. -/
theorem runSteps_progress {steps : List (S → Except E S)}
    (trans : ∀ first second third, progress first second → progress second third →
      progress first third)
    (moves : ∀ step ∈ steps, ∀ (count : Nat) (before after : S), room (count + 1) before →
      step before = .ok after → room count after ∧ (after = before ∨ progress before after))
    {start state : S} (enough : room steps.length state) (moved : progress start state) :
    progress start (runSteps steps state).2 := by
  induction steps generalizing state with
  | nil => exact moved
  | cons step rest ih =>
      simp only [runSteps]
      cases result : step state with
      | error error => exact moved
      | ok after =>
          obtain ⟨left, same | further⟩ := moves step List.mem_cons_self _ _ _ enough result
          · exact ih (fun other member => moves other (List.mem_cons_of_mem _ member)) left
              (same ▸ moved)
          · exact ih (fun other member => moves other (List.mem_cons_of_mem _ member)) left
              (trans _ _ _ moved further)

theorem failsFirst_of_unchanged {steps : List (S → Except E S)}
    (irrefl : ∀ state, ¬progress state state)
    (trans : ∀ first second third, progress first second → progress second third →
      progress first third)
    (moves : ∀ step ∈ steps, ∀ (count : Nat) (before after : S), room (count + 1) before →
      step before = .ok after → room count after ∧ (after = before ∨ progress before after))
    {state : S} (enough : room steps.length state) {error : E}
    (failed : (runSteps steps state).1 = .error error) (unchanged : (runSteps steps state).2 = state) :
    FailsFirst steps state := by
  induction steps with
  | nil => exact absurd failed (by simp [runSteps])
  | cons step rest ih =>
      simp only [runSteps] at failed unchanged
      cases result : step state with
      | error refused =>
          exact ⟨[], step, rest, rfl, fun other member => absurd member List.not_mem_nil, refused, result⟩
      | ok after =>
          rw [result] at failed unchanged
          have later := fun other member => moves other (List.mem_cons_of_mem step member)
          obtain ⟨left, same | moved⟩ := moves step List.mem_cons_self _ _ _ enough result
          · subst same
            obtain ⟨earlier, failing, others, rfl, still, refused⟩ := ih later left failed unchanged
            refine ⟨step :: earlier, failing, others, rfl, ?_, refused⟩
            exact List.forall_mem_cons.mpr ⟨result, still⟩
          · have away := runSteps_progress trans later left moved
            rw [unchanged] at away
            exact absurd away (irrefl state)

end Progress

end Fallible
