import Mathlib

/-! Threads by position in a list of their phases, and how many are in a phase as one moves on. -/

namespace Threads

variable {P : Type} {phases : List P} {thread : Nat} {old : P}

theorem count_set [DecidableEq P] (found : phases[thread]? = some old) (phase new : P) :
    (phases.set thread new).count phase + (if old = phase then 1 else 0) =
      phases.count phase + if new = phase then 1 else 0 := by
  obtain ⟨inside, held⟩ := List.getElem?_eq_some_iff.mp found
  rw [List.count_set inside, held]
  have present : old = phase → 0 < phases.count phase := by
    rintro rfl
    exact List.count_pos_iff.mpr (List.mem_of_getElem? found)
  by_cases same : old = phase
  · have := present same
    simp only [same, beq_self_eq_true, if_true, beq_iff_eq]
    omega
  · simp only [same, beq_iff_eq, if_false]
    omega

theorem mem_set (found : phases[thread]? = some old) {phase : P} (busy : old ≠ phase) (new : P)
    (member : phase ∈ phases) : phase ∈ phases.set thread new := by
  obtain ⟨other, held⟩ := List.mem_iff_getElem?.mp member
  have distinct : thread ≠ other := by
    rintro rfl
    exact busy (Option.some.inj (found.symm.trans held))
  exact List.mem_iff_getElem?.mpr ⟨other, by rw [List.getElem?_set_ne distinct, held]⟩

end Threads
