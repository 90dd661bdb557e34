import Mathlib

/-! Errors, ordered maps and 64-bit counters shared by every layer of the model. -/

namespace LibreSync

inductive SessionErrorCode where
  | invalidOperation
  | invalidConfiguration
  | invalidAdapter
  | invalidRecord
  | incompatibleSchema
  | staleBootstrap
  | groupConflict
  | peerRevoked
  | storageUnavailable
  | storageCommitUncertain
  | busy
deriving DecidableEq, Repr

inductive Error where
  | io (message : String)
  | serde (message : String)
  | protocol (message : String)
  | crypto (message : String)
  | fingerprintMismatch (deviceId expected actual : String)
  | cancelled
  | managed (code : SessionErrorCode) (message : String)
deriving DecidableEq, Repr

abbrev Bytes := List UInt8

/-- `BTreeMap`: iteration follows the order of the keys. -/
abbrev BTreeMap (κ ν : Type) [Ord κ] := Std.ExtTreeMap κ ν compare

def u64Max : Nat := 2 ^ 64 - 1

def saturatingSucc (count : Nat) : Nat := min (count + 1) u64Max

def checkedSucc (count : Nat) : Option Nat :=
  if count < u64Max then some (count + 1) else none

theorem saturatingSucc_eq {count : Nat} (below : count < u64Max) :
    saturatingSucc count = count + 1 := by
  simp only [saturatingSucc]
  omega

theorem le_saturatingSucc {count : Nat} (below : count ≤ u64Max) :
    count ≤ saturatingSucc count := by
  simp only [saturatingSucc]
  omega

theorem checkedSucc_some {count next : Nat} (found : checkedSucc count = some next) :
    count < u64Max ∧ next = count + 1 := by
  simp only [checkedSucc] at found
  split at found
  · rename_i below
    simp only [Option.some.injEq] at found
    exact ⟨below, found.symm⟩
  · simp at found

namespace BTreeMap

variable {κ ν : Type} [Ord κ] [Std.TransOrd κ] [Std.LawfulEqOrd κ]

def valueList (map : BTreeMap κ ν) : List ν := map.toList.map Prod.snd

theorem mem_valueList {map : BTreeMap κ ν} {value : ν} :
    value ∈ valueList map ↔ ∃ key : κ, map[key]? = some value := by
  simp only [valueList, List.mem_map, Prod.exists, exists_eq_right,
    Std.ExtTreeMap.mem_toList_iff_getElem?_eq_some]

theorem get_insert [DecidableEq κ] (map : BTreeMap κ ν) (key query : κ) (value : ν) :
    (map.insert key value)[query]? = if query = key then some value else map[query]? := by
  rw [Std.ExtTreeMap.getElem?_insert]
  by_cases same : query = key
  · subst same
    simp
  · rw [if_neg same, if_neg (fun equal => same (Std.LawfulEqCmp.eq_of_compare equal).symm)]

theorem get_erase [DecidableEq κ] (map : BTreeMap κ ν) (key query : κ) :
    (map.erase key)[query]? = if query = key then none else map[query]? := by
  rw [Std.ExtTreeMap.getElem?_erase]
  by_cases same : query = key
  · subst same
    simp
  · rw [if_neg same, if_neg (fun equal => same (Std.LawfulEqCmp.eq_of_compare equal).symm)]

theorem get_foldl_insert [DecidableEq κ] {μ : Type} (merge : κ → Option μ → ν → μ)
    (map : BTreeMap κ ν) (initial : BTreeMap κ μ) (key : κ) :
    (map.toList.foldl (fun merged item =>
        merged.insert item.1 (merge item.1 merged[item.1]? item.2)) initial)[key]? =
      match map[key]? with
      | none => initial[key]?
      | some value => some (merge key initial[key]? value) := by
  have distinct : (map.toList).Pairwise fun left right => left.1 ≠ right.1 :=
    Std.ExtTreeMap.distinct_keys_toList.imp fun different same => different (by simp [same])
  have member : ∀ value, (key, value) ∈ map.toList ↔ map[key]? = some value :=
    fun value => Std.ExtTreeMap.mem_toList_iff_getElem?_eq_some
  generalize map.toList = items at distinct member
  generalize map[key]? = found at member
  induction items generalizing initial found with
  | nil =>
      cases found with
      | none => rfl
      | some value => exact absurd ((member value).mpr rfl) (by simp)
  | cons item rest ih =>
      obtain ⟨first, later⟩ := List.pairwise_cons.mp distinct
      simp only [List.foldl_cons]
      by_cases visited : key = item.1
      · have here : found = some item.2 := (member item.2).mp (by simp [visited])
        have absent : ∀ value, (key, value) ∈ rest ↔ (none : Option ν) = some value := by
          intro value
          simp only [reduceCtorEq, iff_false]
          exact fun mem => first _ mem visited.symm
        rw [ih _ later none absent, get_insert, if_pos visited, here, ← visited]
      · have unchanged : ∀ value, (key, value) ∈ rest ↔ found = some value := by
          intro value
          rw [← member value, List.mem_cons]
          constructor
          · exact Or.inr
          · rintro (same | mem)
            · exact absurd (congrArg Prod.fst same) visited
            · exact mem
        rw [ih _ later found unchanged, get_insert, if_neg visited]

end BTreeMap

end LibreSync
