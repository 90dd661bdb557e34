import Mathlib

/-!
Registers resolved by the last writer, over any linearly ordered clock, and the
ways a finite collection can be folded with a binary merge.
-/

namespace LastWriter

variable {ι C V : Type} [LinearOrder C]

/-- The later of two registers; the right one wins a tie. -/
def later (left right : Option (C × V)) : Option (C × V) :=
  match left, right with
  | none, right => right
  | some left, none => some left
  | some left, some right => if left.1 ≤ right.1 then some right else some left

/-- `outcome` is a newest one among the writes that the sources in `within` hold. -/
structure Latest (writes : ι → Option (C × V)) (within : Set ι) (outcome : Option (C × V)) :
    Prop where
  held : ∀ write, outcome = some write → ∃ source ∈ within, writes source = some write
  newest : ∀ source ∈ within, ∀ write, writes source = some write →
    ∃ latest, outcome = some latest ∧ write.1 ≤ latest.1

def Consistent (writes : ι → Option (C × V)) (within : Set ι) : Prop :=
  ∀ left ∈ within, ∀ right ∈ within, ∀ leftWrite rightWrite,
    writes left = some leftWrite → writes right = some rightWrite →
      leftWrite.1 = rightWrite.1 → leftWrite = rightWrite

/-- Every write held in `part` is matched by one at least as new in `whole`. -/
def Dominated (writes : ι → Option (C × V)) (part whole : Set ι) : Prop :=
  ∀ source ∈ part, ∀ write, writes source = some write →
    ∃ other ∈ whole, ∃ newer, writes other = some newer ∧ write.1 ≤ newer.1

theorem later_cases (left right : Option (C × V)) :
    later left right = left ∧ (∀ write, right = some write →
        ∃ latest, left = some latest ∧ write.1 ≤ latest.1) ∨
      later left right = right ∧ (∀ write, left = some write →
        ∃ latest, right = some latest ∧ write.1 ≤ latest.1) := by
  cases left with
  | none => exact Or.inr ⟨rfl, by simp⟩
  | some left =>
      cases right with
      | none => exact Or.inl ⟨rfl, by simp⟩
      | some right =>
          by_cases ordered : left.1 ≤ right.1
          · refine Or.inr ⟨by simp [later, ordered], ?_⟩
            rintro write ⟨⟩
            exact ⟨right, rfl, ordered⟩
          · refine Or.inl ⟨by simp [later, ordered], ?_⟩
            rintro write ⟨⟩
            exact ⟨left, rfl, (not_le.mp ordered).le⟩

variable {writes : ι → Option (C × V)} {first second : Set ι} {left right : Option (C × V)}

theorem Latest.of_dominating (leftLatest : Latest writes first left)
    (rightLatest : Latest writes second right)
    (ahead : ∀ write, right = some write → ∃ latest, left = some latest ∧ write.1 ≤ latest.1) :
    Latest writes (first ∪ second) left := by
  constructor
  · intro write found
    obtain ⟨source, member, holds⟩ := leftLatest.held write found
    exact ⟨source, Or.inl member, holds⟩
  · rintro source (member | member) write holds
    · exact leftLatest.newest source member write holds
    · obtain ⟨middle, found, below⟩ := rightLatest.newest source member write holds
      obtain ⟨latest, leftFound, above⟩ := ahead middle found
      exact ⟨latest, leftFound, below.trans above⟩

theorem Latest.later (leftLatest : Latest writes first left)
    (rightLatest : Latest writes second right) :
    Latest writes (first ∪ second) (LastWriter.later left right) := by
  rcases later_cases left right with ⟨chosen, ahead⟩ | ⟨chosen, ahead⟩
  · rw [chosen]
    exact leftLatest.of_dominating rightLatest ahead
  · rw [chosen, Set.union_comm]
    exact rightLatest.of_dominating leftLatest ahead

theorem Latest.single (source : ι) : Latest writes {source} (writes source) := by
  constructor
  · intro write found
    exact ⟨source, rfl, found⟩
  · rintro _ rfl write found
    exact ⟨write, found, le_rfl⟩

theorem Latest.unique (consistent : Consistent writes first)
    (leftLatest : Latest writes first left) (rightLatest : Latest writes first right) :
    left = right := by
  have agree : ∀ {one other : Option (C × V)}, Latest writes first one →
      Latest writes first other → ∀ write, one = some write → other = some write := by
    intro one other oneLatest otherLatest write found
    obtain ⟨source, member, holds⟩ := oneLatest.held write found
    obtain ⟨latest, otherFound, below⟩ := otherLatest.newest source member write holds
    obtain ⟨origin, originMember, originHolds⟩ := otherLatest.held latest otherFound
    obtain ⟨top, oneFound, above⟩ := oneLatest.newest origin originMember latest originHolds
    obtain rfl : write = top := Option.some.inj (found.symm.trans oneFound)
    rw [otherFound, consistent source member origin originMember write latest holds originHolds
      (le_antisymm below above)]
  cases left with
  | some write => exact (agree leftLatest rightLatest write rfl).symm
  | none =>
      cases right with
      | none => rfl
      | some write => exact agree rightLatest leftLatest write rfl

theorem Latest.shrink {whole : Set ι} (consistent : Consistent writes whole)
    (part : first ⊆ whole) (dominated : Dominated writes whole first)
    (latest : Latest writes whole left) : Latest writes first left := by
  constructor
  · intro write found
    obtain ⟨source, member, holds⟩ := latest.held write found
    obtain ⟨other, otherMember, newer, otherHolds, below⟩ := dominated source member write holds
    obtain ⟨top, topFound, above⟩ := latest.newest other (part otherMember) newer otherHolds
    obtain rfl : write = top := Option.some.inj (found.symm.trans topFound)
    have same := consistent source member other (part otherMember) write newer holds otherHolds
      (le_antisymm below above)
    exact ⟨other, otherMember, same ▸ otherHolds⟩
  · intro source member write holds
    exact latest.newest source (part member) write holds

end LastWriter

/-- One way to fold a collection: an order of its items and a grouping of the merges. -/
inductive Grouping (α : Type) where
  | single (item : α)
  | join (left right : Grouping α)

namespace Grouping

variable {α : Type}

def items : Grouping α → List α
  | single item => [item]
  | join left right => left.items ++ right.items

def fold (merge : α → α → α) : Grouping α → α
  | single item => item
  | join left right => merge (left.fold merge) (right.fold merge)

def chain (first : α) (rest : List α) : Grouping α :=
  rest.foldl (fun grouping item => join grouping (single item)) (single first)

theorem items_foldl (rest : List α) (start : Grouping α) :
    (rest.foldl (fun grouping item => join grouping (single item)) start).items =
      start.items ++ rest := by
  induction rest generalizing start with
  | nil => simp
  | cons item rest ih => simp [ih, items]

@[simp] theorem items_chain (first : α) (rest : List α) :
    (chain first rest).items = first :: rest :=
  items_foldl rest (single first)

theorem exists_items_eq (collection : List α) (nonempty : collection ≠ []) :
    ∃ grouping : Grouping α, grouping.items = collection := by
  cases collection with
  | nil => exact absurd rfl nonempty
  | cons first rest => exact ⟨chain first rest, items_chain first rest⟩

end Grouping
