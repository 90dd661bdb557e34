import LibreSync.Lib.Json
import LibreSync.Lib.PrefixCode

/-! A plain byte format for JSON trees that is read back below a nesting limit. -/

namespace JsonBytes

def nameTokens (name : String) : List Nat := name.toList.length :: name.toList.map Char.toNat

def numberTokens : JsonNumber → List Nat
  | .int (.ofNat value) => [3, value]
  | .int (.negSucc value) => [4, value]
  | .big value => [5, value]
  | .float value => [6, value.val.toNat]

mutual
def tokens : Json → List Nat
  | .null => [0]
  | .bool false => [1]
  | .bool true => [2]
  | .number value => numberTokens value
  | .string value => 7 :: nameTokens value
  | .array items => 8 :: itemTokens items
  | .object members => 9 :: memberTokens members

def itemTokens : List Json → List Nat
  | [] => [0]
  | item :: rest => 1 :: (tokens item ++ itemTokens rest)

def memberTokens : List (String × Json) → List Nat
  | [] => [0]
  | (name, item) :: rest => 1 :: (nameTokens name ++ (tokens item ++ memberTokens rest))
end

theorem nameTokens_unique : PrefixCode.Unique (fun _ => True) nameTokens := by
  intro left right _ _ first second same
  simp only [nameTokens, List.cons_append, List.cons.injEq] at same
  obtain ⟨chars, rest⟩ := List.append_inj same.2 (by simpa using same.1)
  have codes : Function.Injective Char.toNat := fun one other equal => Char.toNat_inj.mp equal
  exact ⟨String.toList_inj.mp (codes.list_map chars), rest⟩

theorem numberTokens_unique : PrefixCode.Unique (fun _ => True) numberTokens := by
  refine PrefixCode.Unique.of_length 2 ?_ ?_
  · rintro ((value | value) | value | value) <;> rfl
  · rintro ((left | left) | left | ⟨left, small⟩) ((right | right) | right | ⟨right, below⟩) _ _ same
    all_goals simp_all [numberTokens, UInt64.toNat_inj]

theorem numberTokens_head (number : JsonNumber) : ∃ kind value, numberTokens number = [kind, value] ∧
    3 ≤ kind ∧ kind ≤ 6 := by
  rcases number with (value | value) | value | value
  all_goals exact ⟨_, _, rfl, by omega, by omega⟩

mutual
theorem tokens_unique : ∀ (left right : Json) (first second : List Nat),
    tokens left ++ first = tokens right ++ second → left = right ∧ first = second
  | .null, right, first, second, same => by
      rcases right with _ | (_ | _) | number | _ | _ | _
      case number =>
        obtain ⟨kind, value, text, low, high⟩ := numberTokens_head number
        simp [tokens, text] at same
        omega
      all_goals simp_all [tokens]
  | .bool flag, right, first, second, same => by
      rcases right with _ | (_ | _) | number | _ | _ | _
      case number =>
        obtain ⟨kind, value, text, low, high⟩ := numberTokens_head number
        cases flag <;> simp [tokens, text] at same <;> omega
      all_goals cases flag <;> simp_all [tokens]
  | .number number, right, first, second, same => by
      obtain ⟨kind, value, text, low, high⟩ := numberTokens_head number
      rcases right with _ | (_ | _) | other | _ | _ | _
      case number =>
        simp only [tokens] at same
        obtain ⟨rfl, rest⟩ := numberTokens_unique _ _ trivial trivial _ _ same
        exact ⟨rfl, rest⟩
      all_goals
        simp [tokens, text] at same
        omega
  | .string name, right, first, second, same => by
      rcases right with _ | (_ | _) | number | _ | _ | _
      case number =>
        obtain ⟨kind, value, text, low, high⟩ := numberTokens_head number
        simp [tokens, text] at same
        omega
      case string =>
        simp only [tokens, List.cons_append, List.cons.injEq, true_and] at same
        obtain ⟨rfl, rest⟩ := nameTokens_unique _ _ trivial trivial _ _ same
        exact ⟨rfl, rest⟩
      all_goals simp_all [tokens]
  | .array items, right, first, second, same => by
      rcases right with _ | (_ | _) | number | _ | others | _
      case number =>
        obtain ⟨kind, value, text, low, high⟩ := numberTokens_head number
        simp [tokens, text] at same
        omega
      case array =>
        simp only [tokens, List.cons_append, List.cons.injEq, true_and] at same
        obtain ⟨rfl, rest⟩ := itemTokens_unique items others first second same
        exact ⟨rfl, rest⟩
      all_goals simp_all [tokens]
  | .object members, right, first, second, same => by
      rcases right with _ | (_ | _) | number | _ | _ | others
      case number =>
        obtain ⟨kind, value, text, low, high⟩ := numberTokens_head number
        simp [tokens, text] at same
        omega
      case object =>
        simp only [tokens, List.cons_append, List.cons.injEq, true_and] at same
        obtain ⟨rfl, rest⟩ := memberTokens_unique members others first second same
        exact ⟨rfl, rest⟩
      all_goals simp_all [tokens]

theorem itemTokens_unique : ∀ (left right : List Json) (first second : List Nat),
    itemTokens left ++ first = itemTokens right ++ second → left = right ∧ first = second
  | [], [], first, second, same => by simpa [itemTokens] using same
  | [], _ :: _, first, second, same => by simp [itemTokens] at same
  | _ :: _, [], first, second, same => by simp [itemTokens] at same
  | item :: rest, other :: more, first, second, same => by
      simp only [itemTokens, List.cons_append, List.cons.injEq, true_and, List.append_assoc] at same
      obtain ⟨rfl, later⟩ := tokens_unique item other _ _ same
      obtain ⟨rfl, ends⟩ := itemTokens_unique rest more _ _ later
      exact ⟨rfl, ends⟩

theorem memberTokens_unique : ∀ (left right : List (String × Json)) (first second : List Nat),
    memberTokens left ++ first = memberTokens right ++ second → left = right ∧ first = second
  | [], [], first, second, same => by simpa [memberTokens] using same
  | [], _ :: _, first, second, same => by simp [memberTokens] at same
  | _ :: _, [], first, second, same => by simp [memberTokens] at same
  | (name, item) :: rest, (key, other) :: more, first, second, same => by
      simp only [memberTokens, List.cons_append, List.cons.injEq, true_and, List.append_assoc] at same
      obtain ⟨rfl, value⟩ := nameTokens_unique _ _ trivial trivial _ _ same
      obtain ⟨rfl, later⟩ := tokens_unique item other _ _ value
      obtain ⟨rfl, ends⟩ := memberTokens_unique rest more _ _ later
      exact ⟨rfl, ends⟩
end

def unary (number : Nat) : List UInt8 := List.replicate number 1 ++ [0]

theorem unary_unique : PrefixCode.Unique (fun _ => True) unary := by
  intro left right _ _ first second same
  induction left generalizing right with
  | zero =>
      cases right with
      | zero => simpa [unary] using same
      | succ right => simp [unary, List.replicate_succ] at same
  | succ left ih =>
      cases right with
      | zero => simp [unary, List.replicate_succ] at same
      | succ right =>
          have shorter : unary left ++ first = unary right ++ second := by
            simpa [unary, List.replicate_succ] using same
          obtain ⟨rfl, rest⟩ := ih right shorter
          exact ⟨rfl, rest⟩

def print (json : Json) : List UInt8 := (tokens json).flatMap unary

theorem print_injective : Function.Injective print := by
  intro left right same
  have numbers := unary_unique.flatMap (by simp [unary]) (fun _ _ => trivial) (fun _ _ => trivial) same
  exact (tokens_unique left right [] [] (by simpa using numbers)).1

open Classical in
noncomputable abbrev reading {E : Type} (limit : Nat) (deep : E) : LawfulJsonText (List UInt8) E limit where
  toText := print
  ofText text := if printed : ∃ json, print json = text ∧ json.depth < limit
    then .ok printed.choose else .error deep
  readsFloat _ := true
  readsBack json _ := by
    rw [JsonText.ReadsBack]
    split
    · rename_i shallow
      have printed : ∃ other, print other = print json ∧ other.depth < limit := ⟨json, rfl, shallow⟩
      exact (dif_pos printed).trans (congrArg Except.ok (print_injective printed.choose_spec.1))
    · rename_i deep
      refine ⟨_, dif_neg ?_⟩
      rintro ⟨other, same, shallow⟩
      exact deep (print_injective same ▸ shallow)

end JsonBytes
