import Mathlib

/-! JSON trees, how deep they nest, and texts that are read back below a nesting limit. -/

abbrev FiniteBits := { bits : UInt64 // decide (bits &&& 0x7FFFFFFFFFFFFFFF < 0x7FF0000000000000) = true }

/-- A number as a reader classifies it: within `i64`, above it within `u64`, or a float. -/
inductive JsonNumber where
  | int (value : Int)
  | big (value : Nat)
  | float (value : FiniteBits)
deriving DecidableEq

/-- The members of an object are in key order, whatever their order in the text. -/
inductive Json where
  | null
  | bool (value : Bool)
  | number (value : JsonNumber)
  | string (value : String)
  | array (items : List Json)
  | object (members : List (String × Json))

namespace Json

mutual
/-- How many containers are open around the innermost one, itself included. -/
def depth : Json → Nat
  | .array items => depthItems items + 1
  | .object members => depthMembers members + 1
  | _ => 0

def depthItems : List Json → Nat
  | [] => 0
  | item :: rest => max (depth item) (depthItems rest)

def depthMembers : List (String × Json) → Nat
  | [] => 0
  | (_, item) :: rest => max (depth item) (depthMembers rest)
end

mutual
def floats (holds : FiniteBits → Bool) : Json → Bool
  | .number (.float value) => holds value
  | .array items => floatsItems holds items
  | .object members => floatsMembers holds members
  | _ => true

def floatsItems (holds : FiniteBits → Bool) : List Json → Bool
  | [] => true
  | item :: rest => floats holds item && floatsItems holds rest

def floatsMembers (holds : FiniteBits → Bool) : List (String × Json) → Bool
  | [] => true
  | (_, item) :: rest => floats holds item && floatsMembers holds rest
end

def nat (value : Nat) : Json :=
  .number (if value < 2 ^ 63 then .int value else .big value)

def asNat : Json → Option Nat
  | .number (.int value) => if 0 ≤ value then some value.toNat else none
  | .number (.big value) => some value
  | _ => none

@[simp] theorem asNat_nat (value : Nat) : asNat (nat value) = some value := by
  rw [nat]
  split
  · simp [asNat]
  · rfl

@[simp] theorem depth_nat (value : Nat) : (nat value).depth = 0 := by
  rw [nat]
  split <;> rfl

theorem depthItems_le {items : List Json} {bound : Nat} :
    depthItems items ≤ bound ↔ ∀ item ∈ items, item.depth ≤ bound := by
  induction items with
  | nil => simp [depthItems]
  | cons item rest ih => simp [depthItems, ih]

theorem depthMembers_le {members : List (String × Json)} {bound : Nat} :
    depthMembers members ≤ bound ↔ ∀ member ∈ members, member.2.depth ≤ bound := by
  induction members with
  | nil => simp [depthMembers]
  | cons member rest ih => simp [depthMembers, ih]

variable {holds : FiniteBits → Bool}

@[simp] theorem floats_nat (value : Nat) : (nat value).floats holds = true := by
  rw [nat]
  split <;> rfl

theorem floatsItems_iff {items : List Json} :
    floatsItems holds items = true ↔ ∀ item ∈ items, item.floats holds = true := by
  induction items with
  | nil => simp [floatsItems]
  | cons item rest ih => simp [floatsItems, ih]

theorem floatsMembers_iff {members : List (String × Json)} :
    floatsMembers holds members = true ↔ ∀ member ∈ members, member.2.floats holds = true := by
  induction members with
  | nil => simp [floatsMembers]
  | cons member rest ih => simp [floatsMembers, ih]

end Json

class JsonText (T : Type) (E : outParam Type) where
  toText : Json → T
  ofText : T → Except E Json

/-- A text is read back as what was printed, unless it nests up to the limit. -/
def JsonText.ReadsBack (T : Type) {E : Type} [JsonText T E] (limit : Nat) (json : Json) : Prop :=
  if json.depth < limit then ofText (toText json : T) = .ok json
  else ∃ error, ofText (toText json : T) = .error error

/-- A tree is read back if each float in it is: a reader that rounds need not give every finite
float as it was printed. -/
class LawfulJsonText (T : Type) (E : outParam Type) (limit : outParam Nat) extends JsonText T E where
  readsFloat : FiniteBits → Bool
  readsBack : ∀ json, json.floats readsFloat = true → JsonText.ReadsBack T limit json
