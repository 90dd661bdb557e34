import LibreSync.Lib.PrefixCode
import LibreSync.Managed.Invitation

/-! The texts that `serde_json` writes are read off the front of any text in one way only. -/

namespace LibreSync.Managed

section Words

def hexDigitValue (char : Char) : Nat :=
  if char.isDigit then char.toNat - 0x30 else char.toNat - 0x57

def readEscape : List Char → Option (Char × List Char)
  | '"' :: rest => some ('"', rest)
  | '\\' :: rest => some ('\\', rest)
  | 'b' :: rest => some (Char.ofNat 0x08, rest)
  | 't' :: rest => some (Char.ofNat 0x09, rest)
  | 'n' :: rest => some (Char.ofNat 0x0A, rest)
  | 'f' :: rest => some (Char.ofNat 0x0C, rest)
  | 'r' :: rest => some (Char.ofNat 0x0D, rest)
  | 'u' :: '0' :: '0' :: high :: low :: rest =>
      some (Char.ofNat (16 * hexDigitValue high + hexDigitValue low), rest)
  | _ => none

def readEscaped : List Char → Option (Char × List Char)
  | [] => none
  | char :: rest => if char = '\\' then readEscape rest else some (char, rest)

theorem readEscaped_escapeChar (char : Char) (rest : List Char) :
    readEscaped ((escapeChar char).toList ++ rest) = some (char, rest) := by
  have known : ∀ code : Nat, char.toNat = code → char = Char.ofNat code := by
    rintro code rfl
    exact (Char.ofNat_toNat char).symm
  have digits : ∀ code < 16, hexDigitValue (Nat.digitChar code) = code := by decide
  simp only [escapeChar]
  split
  case h_8 code quote backslash backspace tab newline feed carriage =>
    split
    · rename_i control
      have high := digits (char.toNat / 16) (by omega)
      have low := digits (char.toNat % 16) (by omega)
      have whole : 16 * (char.toNat / 16) + char.toNat % 16 = char.toNat := by omega
      simp only [String.toList_append, String.toList_singleton]
      change some (Char.ofNat (16 * hexDigitValue (Nat.digitChar (char.toNat / 16)) +
        hexDigitValue (Nat.digitChar (char.toNat % 16))), rest) = _
      rw [high, low, whole, Char.ofNat_toNat]
    · have plain : char ≠ '\\' := by
        rintro rfl
        exact backslash rfl
      simp only [String.toList_singleton, List.cons_append, List.nil_append, readEscaped, plain,
        if_false]
  all_goals
    rename_i code
    rw [known _ code]
    rfl

theorem escapeChar_unique :
    PrefixCode.Unique (fun _ => True) fun char => (escapeChar char).toList :=
  .of_read readEscaped fun char rest _ => readEscaped_escapeChar char rest

theorem escapeChar_head (char : Char) :
    ∃ first rest, (escapeChar char).toList = first :: rest ∧ first ≠ '"' := by
  simp only [escapeChar]
  split
  case h_8 code quote backslash backspace tab newline feed carriage =>
    split
    · exact ⟨'\\', _, by rw [String.toList_append, String.toList_append]; rfl, by decide⟩
    · refine ⟨char, [], String.toList_singleton char, ?_⟩
      rintro rfl
      exact quote rfl
  all_goals exact ⟨'\\', _, rfl, by decide⟩

theorem escapeChars_toList (chars : List Char) :
    (escapeChars chars).toList = chars.flatMap fun char => (escapeChar char).toList := by
  induction chars with
  | nil => rfl
  | cons char rest ih => rw [escapeChars, String.toList_append, ih, List.flatMap_cons]

theorem jsonString_toList (text : String) : (jsonString text).toList =
    '"' :: (text.toList.flatMap (fun char => (escapeChar char).toList) ++ ['"']) := by
  rw [jsonString, String.toList_append, String.toList_append, escapeChars_toList]
  rfl

theorem jsonString_unique :
    PrefixCode.Unique (fun _ => True) fun text => (jsonString text).toList := by
  have chars := escapeChar_unique.terminated '"' fun char _ => escapeChar_head char
  intro left right _ _ first second same
  simp only [jsonString_toList, List.cons_append, List.cons.injEq, true_and] at same
  obtain ⟨text, rest⟩ := chars left.toList right.toList (fun _ _ => trivial) (fun _ _ => trivial)
    first second same
  exact ⟨String.toList_inj.mp text, rest⟩

def Ends (rest : List Char) : Prop := ∀ char ∈ rest.head?, char.isDigit = false

theorem repr_unique {left right : Nat} {first second : List Char} (leftEnds : Ends first)
    (rightEnds : Ends second)
    (same : (Nat.repr left).toList ++ first = (Nat.repr right).toList ++ second) :
    left = right ∧ first = second := by
  have digits : ∀ (number : Nat) (rest : List Char), Ends rest →
      ((Nat.repr number).toList ++ rest).takeWhile Char.isDigit = Nat.toDigits 10 number := by
    intro number rest ends
    have stops : rest.takeWhile Char.isDigit = [] := by
      cases rest with
      | nil => rfl
      | cons char rest => exact List.takeWhile_cons_of_neg (by simp [ends char rfl])
    rw [Nat.repr_eq_ofList_toDigits, String.toList_ofList, List.takeWhile_append_of_pos, stops,
      List.append_nil]
    exact fun char member => Nat.isDigit_of_mem_toDigits (by decide) (by decide) member
  have equal := digits left first leftEnds
  rw [same, digits right second rightEnds] at equal
  have number : ∀ number, Nat.ofDigitChars 10 (Nat.toDigits 10 number) 0 = number :=
    fun number => Nat.ofDigitChars_toDigits (by decide) (by decide)
  have value : left = right := by
    rw [← number left, ← equal, number right]
  subst value
  exact ⟨rfl, List.append_cancel_left same⟩

end Words

structure FieldName where
  text : String
  plain : ∀ char ∈ text.toList, char ≠ '"'
deriving DecidableEq

/-- The values that manifests and transcripts consist of. -/
inductive JsonTree where
  | bool (value : Bool)
  | nat (value : Nat)
  | string (value : String)
  | array (items : List JsonTree)
  | object (fields : List (FieldName × JsonTree))

namespace JsonTree

mutual
def text : JsonTree → String
  | .bool value => jsonBool value
  | .nat value => Nat.repr value
  | .string value => jsonString value
  | .array items => jsonArray (itemTexts items)
  | .object fields => jsonObject (fieldTexts fields)

def itemTexts : List JsonTree → List String
  | [] => []
  | item :: rest => text item :: itemTexts rest

def fieldTexts : List (FieldName × JsonTree) → List (String × String)
  | [] => []
  | (name, value) :: rest => (name.text, text value) :: fieldTexts rest
end

def nameChars (name : FieldName) : List Char := '"' :: (name.text.toList ++ ['"'])

mutual
def chars : JsonTree → List Char
  | .bool value => (jsonBool value).toList
  | .nat value => (Nat.repr value).toList
  | .string value => (jsonString value).toList
  | .array [] => ['[', ']']
  | .array (item :: rest) => '[' :: (chars item ++ moreItems rest)
  | .object [] => ['\x7b', '\x7d']
  | .object ((name, value) :: rest) =>
      '\x7b' :: (nameChars name ++ ':' :: (chars value ++ moreFields rest))

def moreItems : List JsonTree → List Char
  | [] => [']']
  | item :: rest => ',' :: (chars item ++ moreItems rest)

def moreFields : List (FieldName × JsonTree) → List Char
  | [] => ['\x7d']
  | (name, value) :: rest => ',' :: (nameChars name ++ ':' :: (chars value ++ moreFields rest))
end

theorem nameChars_unique : PrefixCode.Unique (fun _ => True) nameChars := by
  have single : PrefixCode.Unique (fun char => char ≠ '"') fun char : Char => [char] := by
    intro left right _ _ first second same
    simpa using same
  have plain := single.terminated '"' fun char other => ⟨char, [], rfl, other⟩
  intro left right _ _ first second same
  simp only [nameChars, List.cons_append, List.cons.injEq, true_and] at same
  obtain ⟨letters, rest⟩ := plain left.text.toList right.text.toList left.plain right.plain first
    second (by simpa using same)
  obtain ⟨leftText, leftPlain⟩ := left
  obtain ⟨rightText, rightPlain⟩ := right
  obtain rfl := String.toList_inj.mp letters
  exact ⟨rfl, rest⟩

def kindOf (char : Char) : Nat :=
  if char = 't' || char = 'f' then 0
  else if char.isDigit then 1
  else if char = '"' then 2
  else if char = '[' then 3
  else if char = '\x7b' then 4
  else 5

def kind : JsonTree → Nat
  | .bool _ => 0
  | .nat _ => 1
  | .string _ => 2
  | .array _ => 3
  | .object _ => 4

theorem chars_head (tree : JsonTree) :
    ∃ first rest, tree.chars = first :: rest ∧ kindOf first = tree.kind := by
  rcases tree with value | value | value | (_ | ⟨item, items⟩) | (_ | ⟨⟨name, value⟩, fields⟩)
  case bool => cases value <;> exact ⟨_, _, rfl, by decide⟩
  case nat =>
    obtain ⟨first, rest, digits⟩ := List.exists_cons_of_ne_nil
      (Nat.toDigits_ne_nil (n := value) (b := 10))
    have digit : first.isDigit = true := by
      refine Nat.isDigit_of_mem_toDigits (b := 10) (n := value) (by decide) (by decide) ?_
      rw [digits]
      exact List.mem_cons_self
    refine ⟨first, rest, ?_, ?_⟩
    · rw [chars, Nat.repr_eq_ofList_toDigits, String.toList_ofList, digits]
    · have other : first ≠ 't' ∧ first ≠ 'f' := by
        constructor <;> rintro rfl <;> exact absurd digit (by decide)
      simp [kindOf, kind, digit, other]
  case string => exact ⟨_, _, jsonString_toList value, rfl⟩
  all_goals
    rw [chars]
    exact ⟨_, _, rfl, rfl⟩

theorem kind_of_chars {left right : JsonTree} {first second : List Char}
    (same : left.chars ++ first = right.chars ++ second) : left.kind = right.kind := by
  obtain ⟨leftHead, leftRest, leftChars, leftKind⟩ := left.chars_head
  obtain ⟨rightHead, rightRest, rightChars, rightKind⟩ := right.chars_head
  rw [leftChars, rightChars, List.cons_append, List.cons_append, List.cons.injEq] at same
  rw [← leftKind, ← rightKind, same.1]

theorem chars_apart (item : JsonTree) (first second : List Char) :
    item.chars ++ first ≠ ']' :: second := by
  obtain ⟨head, rest, chars, kinds⟩ := item.chars_head
  rw [chars, List.cons_append]
  intro same
  rw [(List.cons.inj same).1] at kinds
  cases item <;> simp [kindOf, kind] at kinds

theorem ends_moreItems (items : List JsonTree) (rest : List Char) : Ends (moreItems items ++ rest) := by
  cases items with
  | nil => simp [moreItems, Ends]
  | cons item items => simp [moreItems, Ends]

theorem ends_moreFields (fields : List (FieldName × JsonTree)) (rest : List Char) :
    Ends (moreFields fields ++ rest) := by
  rcases fields with _ | ⟨⟨name, value⟩, fields⟩
  · simp [moreFields, Ends]
  · simp [moreFields, Ends]

mutual
theorem chars_unique : ∀ (left right : JsonTree) (first second : List Char), Ends first →
    Ends second → left.chars ++ first = right.chars ++ second → left = right ∧ first = second
  | .bool value, right, first, second, leftEnds, rightEnds, same => by
      cases right with
      | bool other =>
          simp only [chars] at same
          cases value <;> cases other <;> simp_all [jsonBool]
      | _ => exact absurd (kind_of_chars same) (by simp [kind])
  | .nat value, right, first, second, leftEnds, rightEnds, same => by
      cases right with
      | nat other =>
          simp only [chars] at same
          obtain ⟨rfl, rest⟩ := repr_unique leftEnds rightEnds same
          exact ⟨rfl, rest⟩
      | _ => exact absurd (kind_of_chars same) (by simp [kind])
  | .string value, right, first, second, leftEnds, rightEnds, same => by
      cases right with
      | string other =>
          simp only [chars] at same
          obtain ⟨rfl, rest⟩ := jsonString_unique _ _ trivial trivial _ _ same
          exact ⟨rfl, rest⟩
      | _ => exact absurd (kind_of_chars same) (by simp [kind])
  | .array items, right, first, second, leftEnds, rightEnds, same => by
      cases right with
      | array others =>
          obtain ⟨rfl, rest⟩ := array_unique items others first second same
          exact ⟨rfl, rest⟩
      | _ => exact absurd (kind_of_chars same) (by simp [kind])
  | .object fields, right, first, second, leftEnds, rightEnds, same => by
      cases right with
      | object others =>
          obtain ⟨rfl, rest⟩ := object_unique fields others first second same
          exact ⟨rfl, rest⟩
      | _ => exact absurd (kind_of_chars same) (by simp [kind])

theorem array_unique : ∀ (left right : List JsonTree) (first second : List Char),
    (array left).chars ++ first = (array right).chars ++ second → left = right ∧ first = second
  | [], [], first, second, same => by simpa [chars] using same
  | [], item :: rest, first, second, same => by
      simp only [chars, List.cons_append, List.nil_append, List.cons.injEq, true_and,
        List.append_assoc] at same
      exact absurd same.symm (chars_apart item _ _)
  | item :: rest, [], first, second, same => by
      simp only [chars, List.cons_append, List.nil_append, List.cons.injEq, true_and,
        List.append_assoc] at same
      exact absurd same (chars_apart item _ _)
  | item :: rest, other :: more, first, second, same => by
      simp only [chars, List.cons_append, List.cons.injEq, true_and, List.append_assoc] at same
      obtain ⟨rfl, tails⟩ := chars_unique item other _ _ (ends_moreItems _ _)
        (ends_moreItems _ _) same
      obtain ⟨rfl, ends⟩ := moreItems_unique rest more first second tails
      exact ⟨rfl, ends⟩

theorem object_unique : ∀ (left right : List (FieldName × JsonTree)) (first second : List Char),
    (object left).chars ++ first = (object right).chars ++ second → left = right ∧ first = second
  | [], [], first, second, same => by simpa [chars] using same
  | [], (_, _) :: _, first, second, same => by simp [chars, nameChars] at same
  | (_, _) :: _, [], first, second, same => by simp [chars, nameChars] at same
  | (name, value) :: rest, (key, other) :: more, first, second, same => by
      simp only [chars, List.cons_append, List.cons.injEq, true_and, List.append_assoc] at same
      obtain ⟨rfl, values⟩ := nameChars_unique _ _ trivial trivial _ _ same
      simp only [List.cons.injEq, true_and] at values
      obtain ⟨rfl, tails⟩ := chars_unique value other _ _ (ends_moreFields _ _)
        (ends_moreFields _ _) values
      obtain ⟨rfl, ends⟩ := moreFields_unique rest more first second tails
      exact ⟨rfl, ends⟩

theorem moreItems_unique : ∀ (left right : List JsonTree) (first second : List Char),
    moreItems left ++ first = moreItems right ++ second → left = right ∧ first = second
  | [], [], first, second, same => by simpa [moreItems] using same
  | [], _ :: _, first, second, same => by simp [moreItems] at same
  | _ :: _, [], first, second, same => by simp [moreItems] at same
  | item :: rest, other :: more, first, second, same => by
      simp only [moreItems, List.cons_append, List.cons.injEq, true_and, List.append_assoc] at same
      obtain ⟨rfl, later⟩ := chars_unique item other _ _ (ends_moreItems _ _)
        (ends_moreItems _ _) same
      obtain ⟨rfl, ends⟩ := moreItems_unique rest more _ _ later
      exact ⟨rfl, ends⟩

theorem moreFields_unique : ∀ (left right : List (FieldName × JsonTree)) (first second : List Char),
    moreFields left ++ first = moreFields right ++ second → left = right ∧ first = second
  | [], [], first, second, same => by simpa [moreFields] using same
  | [], (_, _) :: _, first, second, same => by simp [moreFields] at same
  | (_, _) :: _, [], first, second, same => by simp [moreFields] at same
  | (name, value) :: rest, (key, other) :: more, first, second, same => by
      simp only [moreFields, List.cons_append, List.cons.injEq, true_and, List.append_assoc] at same
      obtain ⟨rfl, values⟩ := nameChars_unique _ _ trivial trivial _ _ same
      simp only [List.cons.injEq, true_and] at values
      obtain ⟨rfl, later⟩ := chars_unique value other _ _ (ends_moreFields _ _)
        (ends_moreFields _ _) values
      obtain ⟨rfl, ends⟩ := moreFields_unique rest more _ _ later
      exact ⟨rfl, ends⟩
end

theorem commaJoined_toList (item : String) (rest : List String) :
    (commaJoined (item :: rest)).toList =
      item.toList ++ rest.flatMap fun other => ',' :: other.toList := by
  induction rest generalizing item with
  | nil => simp [commaJoined]
  | cons other rest ih =>
      rw [commaJoined, String.toList_append, String.toList_append, ih, List.flatMap_cons]
      · simp
      · simp

mutual
theorem text_toList : ∀ tree : JsonTree, tree.text.toList = tree.chars
  | .bool _ => by rw [text, chars]
  | .nat _ => by rw [text, chars]
  | .string _ => by rw [text, chars]
  | .array [] => by
      rw [text, chars]
      rfl
  | .array (item :: rest) => by
      rw [text, chars, jsonArray, itemTexts, String.toList_append, String.toList_append,
        commaJoined_toList, text_toList item, List.append_assoc, List.append_assoc,
        show "]".toList = [']'] from rfl, itemTexts_toList rest]
      rfl
  | .object [] => by
      rw [text, chars]
      rfl
  | .object ((name, value) :: rest) => by
      rw [text, chars, jsonObject, fieldTexts, List.map_cons, String.toList_append,
        String.toList_append, commaJoined_toList, List.append_assoc, List.append_assoc,
        show "\x7d".toList = ['\x7d'] from rfl, fieldTexts_toList rest]
      simp [text_toList value, nameChars]

theorem itemTexts_toList : ∀ items : List JsonTree,
    ((itemTexts items).flatMap fun other => ',' :: other.toList) ++ [']'] = moreItems items
  | [] => rfl
  | item :: rest => by
      rw [itemTexts, moreItems, List.flatMap_cons, List.append_assoc, itemTexts_toList rest,
        text_toList item, List.cons_append]

theorem fieldTexts_toList : ∀ fields : List (FieldName × JsonTree),
    (((fieldTexts fields).map fun member => "\"" ++ member.1 ++ "\":" ++ member.2).flatMap
      fun other => ',' :: other.toList) ++ ['\x7d'] = moreFields fields
  | [] => rfl
  | (name, value) :: rest => by
      rw [fieldTexts, moreFields, List.map_cons, List.flatMap_cons, List.append_assoc,
        fieldTexts_toList rest]
      simp [text_toList value, nameChars]
end

theorem text_injective : Function.Injective text := by
  intro left right same
  have chars := congrArg String.toList same
  rw [text_toList, text_toList] at chars
  have ends : Ends [] := by simp [Ends]
  exact (chars_unique left right [] [] ends ends (by rw [chars])).1

/-- A text that begins with the text of an object begins with that of no other. -/
theorem object_text_unique :
    PrefixCode.Unique (fun _ => True) fun fields => (object fields).text.toList := by
  intro left right _ _ first second same
  simp only [text_toList] at same
  exact object_unique left right first second same

end JsonTree

end LibreSync.Managed
