import Mathlib

/-! Codes whose words are read off the front of a text in one way only. -/

namespace PrefixCode

variable {α γ β : Type}

/-- Texts that start with words of the code agree on the value and on the rest. -/
def Unique (within : α → Prop) (encode : α → List β) : Prop :=
  ∀ left right, within left → within right → ∀ first second : List β,
    encode left ++ first = encode right ++ second → left = right ∧ first = second

variable {within : α → Prop} {encode : α → List β} {others : γ → Prop} {append : γ → List β}

theorem Unique.of_length (size : Nat) (sized : ∀ value, (encode value).length = size)
    (injective : ∀ left right, within left → within right → encode left = encode right →
      left = right) : Unique within encode := by
  intro left right leftWithin rightWithin first second same
  obtain ⟨words, rest⟩ := List.append_inj same ((sized left).trans (sized right).symm)
  exact ⟨injective left right leftWithin rightWithin words, rest⟩

theorem Unique.framed {number : Nat → List β} {small : Nat → Prop} (unique : Unique small number) :
    Unique (fun text : List β => small text.length) fun text => number text.length ++ text := by
  intro left right leftSmall rightSmall first second same
  rw [List.append_assoc, List.append_assoc] at same
  obtain ⟨length, texts⟩ := unique _ _ leftSmall rightSmall _ _ same
  exact List.append_inj texts length

theorem Unique.of_read (read : List β → Option (α × List β))
    (reads : ∀ value rest, within value → read (encode value ++ rest) = some (value, rest)) :
    Unique within encode := by
  intro left right leftWithin rightWithin first second same
  have leftRead := reads left first leftWithin
  rw [same, reads right second rightWithin] at leftRead
  obtain ⟨rfl, rfl⟩ := Prod.mk.inj (Option.some.inj leftRead)
  exact ⟨rfl, rfl⟩

/-- Lists of words before an item that no word begins with. -/
theorem Unique.terminated (unique : Unique within encode) (stop : β)
    (apart : ∀ value, within value → ∃ first rest, encode value = first :: rest ∧ first ≠ stop) :
    Unique (fun values : List α => ∀ value ∈ values, within value)
      fun values : List α => values.flatMap encode ++ [stop] := by
  intro left right leftWithin rightWithin first second same
  induction left generalizing right with
  | nil =>
      cases right with
      | nil =>
          refine ⟨rfl, ?_⟩
          simpa using same
      | cons value rest =>
          obtain ⟨head, tail, word, differs⟩ := apart value (rightWithin value List.mem_cons_self)
          simp only [List.flatMap_nil, List.flatMap_cons, word, List.nil_append, List.cons_append,
            List.cons.injEq] at same
          exact absurd same.1.symm differs
  | cons value rest ih =>
      cases right with
      | nil =>
          obtain ⟨head, tail, word, differs⟩ := apart value (leftWithin value List.mem_cons_self)
          simp only [List.flatMap_nil, List.flatMap_cons, word, List.nil_append, List.cons_append,
            List.cons.injEq] at same
          exact absurd same.1 differs
      | cons other more =>
          obtain ⟨here, later⟩ := List.forall_mem_cons.mp leftWithin
          obtain ⟨there, after⟩ := List.forall_mem_cons.mp rightWithin
          simp only [List.flatMap_cons, List.append_assoc] at same
          obtain ⟨rfl, tails⟩ := unique value other here there _ _ same
          obtain ⟨rfl, ends⟩ := ih more later after (by simpa using tails)
          exact ⟨rfl, ends⟩

theorem Unique.comparable (unique : Unique (fun _ => True) encode) (left right : List α)
    {first second : List β}
    (same : left.flatMap encode ++ first = right.flatMap encode ++ second) :
    (∃ tail, right = left ++ tail ∧ first = tail.flatMap encode ++ second) ∨
      ∃ tail, left = right ++ tail ∧ second = tail.flatMap encode ++ first := by
  induction left generalizing right with
  | nil => exact .inl ⟨right, rfl, same⟩
  | cons value rest ih =>
      cases right with
      | nil => exact .inr ⟨value :: rest, rfl, same.symm⟩
      | cons other more =>
          simp only [List.flatMap_cons, List.append_assoc] at same
          obtain ⟨rfl, tails⟩ := unique value other trivial trivial _ _ same
          rcases ih more tails with ⟨tail, rfl, ends⟩ | ⟨tail, rfl, ends⟩
          · exact .inl ⟨tail, rfl, ends⟩
          · exact .inr ⟨tail, rfl, ends⟩

theorem Unique.composed {code : β → List γ} (letters : Unique (fun _ => True) code)
    (unique : Unique within encode) : Unique within fun value => (encode value).flatMap code := by
  intro left right leftWithin rightWithin first second same
  rcases letters.comparable _ _ same with ⟨tail, longer, ends⟩ | ⟨tail, longer, ends⟩
  · obtain ⟨rfl, rfl⟩ := unique left right leftWithin rightWithin tail [] (by simp [longer])
    exact ⟨rfl, ends⟩
  · obtain ⟨rfl, rfl⟩ := unique left right leftWithin rightWithin [] tail (by simp [longer])
    exact ⟨rfl, ends.symm⟩

theorem Unique.pair (first : Unique within encode) (second : Unique others append) :
    Unique (fun value : α × γ => within value.1 ∧ others value.2)
      fun value => encode value.1 ++ append value.2 := by
  rintro ⟨left, leftNext⟩ ⟨right, rightNext⟩ leftWithin rightWithin rest last same
  rw [List.append_assoc, List.append_assoc] at same
  obtain ⟨rfl, after⟩ := first left right leftWithin.1 rightWithin.1 _ _ same
  obtain ⟨rfl, ends⟩ := second leftNext rightNext leftWithin.2 rightWithin.2 _ _ after
  exact ⟨rfl, ends⟩

theorem Unique.comap (unique : Unique within encode) (view : γ → α)
    (injective : Function.Injective view) :
    Unique (fun value => within (view value)) fun value => encode (view value) := by
  intro left right leftWithin rightWithin first second same
  obtain ⟨views, rest⟩ := unique _ _ leftWithin rightWithin _ _ same
  exact ⟨injective views, rest⟩

theorem Unique.flatMap (unique : Unique within encode) (nonempty : ∀ value, encode value ≠ [])
    {left right : List α} (leftWithin : ∀ value ∈ left, within value)
    (rightWithin : ∀ value ∈ right, within value)
    (same : left.flatMap encode = right.flatMap encode) : left = right := by
  induction left generalizing right with
  | nil =>
      cases right with
      | nil => rfl
      | cons value rest =>
          rw [List.flatMap_nil, List.flatMap_cons] at same
          exact absurd (List.append_eq_nil_iff.mp same.symm).1 (nonempty value)
  | cons value rest ih =>
      cases right with
      | nil =>
          rw [List.flatMap_nil, List.flatMap_cons] at same
          exact absurd (List.append_eq_nil_iff.mp same).1 (nonempty value)
      | cons other more =>
          rw [List.flatMap_cons, List.flatMap_cons] at same
          obtain ⟨rfl, later⟩ := unique value other (leftWithin value List.mem_cons_self)
            (rightWithin other List.mem_cons_self) _ _ same
          rw [ih (fun next member => leftWithin next (List.mem_cons_of_mem _ member))
            (fun next member => rightWithin next (List.mem_cons_of_mem _ member)) later]

end PrefixCode
