import Mathlib

/-! The oldest items of a list beyond a limit. -/

namespace Surplus

variable {α τ : Type} [LinearOrder τ] (time : α → τ)

/-- Items from the oldest to the newest; items of one time keep their order. -/
def byAge (items : List α) : List α := items.insertionSort fun left right => time left ≤ time right

def surplus (limit : Nat) (items : List α) : List α :=
  (byAge time items).take (items.length - limit)

variable {time} {limit : Nat} {items : List α}

theorem byAge_perm : (byAge time items).Perm items := List.perm_insertionSort _ _

theorem byAge_sorted : (byAge time items).Pairwise fun left right => time left ≤ time right :=
  List.pairwise_insertionSort _ _

theorem byAge_of_sorted (sorted : items.Pairwise fun left right => time left ≤ time right) :
    byAge time items = items :=
  sorted.insertionSort_eq

theorem mem_of_surplus {item : α} (member : item ∈ surplus time limit items) : item ∈ items :=
  byAge_perm.mem_iff.mp (List.mem_of_mem_take member)

theorem length_surplus : (surplus time limit items).length = items.length - limit := by
  rw [surplus, List.length_take, byAge_perm.length_eq]
  omega

theorem surplus_nodup (nodup : items.Nodup) : (surplus time limit items).Nodup :=
  (byAge_perm.nodup_iff.mpr nodup).sublist (List.take_sublist _ _)

theorem surplus_older {old kept : α} (goes : old ∈ surplus time limit items) (member : kept ∈ items)
    (stays : kept ∉ surplus time limit items) : time old ≤ time kept := by
  have split := List.take_append_drop (items.length - limit) (byAge time items)
  have sorted : (byAge time items).Pairwise fun left right => time left ≤ time right := byAge_sorted
  have later : kept ∈ (byAge time items).drop (items.length - limit) := by
    have whole : kept ∈ byAge time items := byAge_perm.mem_iff.mpr member
    rw [← split] at whole
    exact (List.mem_append.mp whole).resolve_left stays
  rw [← split] at sorted
  exact (List.pairwise_append.mp sorted).2.2 old goes kept later

variable (time limit) in
theorem length_retained [DecidableEq α] (nodup : items.Nodup) :
    (items.filter fun item => item ∉ surplus time limit items).length = min limit items.length := by
  have gone : (items.filter fun item => item ∈ surplus time limit items).length =
      items.length - limit := by
    rw [← show (surplus time limit items).length = items.length - limit from length_surplus]
    refine List.Perm.length_eq ((List.perm_ext_iff_of_nodup (nodup.filter _) (surplus_nodup nodup)).mpr ?_)
    intro item
    simp only [List.mem_filter, decide_eq_true_eq]
    exact ⟨And.right, fun member => ⟨mem_of_surplus member, member⟩⟩
  have both := List.length_eq_length_filter_add (l := items)
    (fun item => decide (item ∈ surplus time limit items))
  simp only [decide_not]
  omega

end Surplus
