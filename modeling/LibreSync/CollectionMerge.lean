import LibreSync.RecordMerge

/-!
When the merge of a collection field gives the same from both sides: lists as
sets of their items, maps key by key.
-/

namespace LibreSync

namespace FieldValue

/-- The same value, or one that `==` takes for it. -/
def Alike (left right : FieldValue) : Prop := left = right ∨ left.partialEq right = true

theorem Alike.refl (value : FieldValue) : value.Alike value := Or.inl rfl

theorem Alike.symm {left right : FieldValue} (alike : left.Alike right) : right.Alike left :=
  alike.imp Eq.symm partialEq_symm

def AlikeItems (left right : List FieldValue) : Prop :=
  (∀ item ∈ left, ∃ other ∈ right, item.Alike other) ∧
    ∀ item ∈ right, ∃ other ∈ left, item.Alike other

def AlikeOption : Option FieldValue → Option FieldValue → Prop
  | none, none => True
  | some left, some right => left.Alike right
  | _, _ => False

/-- Equal values: lists as sets of items, maps by what they hold under each key. -/
def Agrees : Option FieldValue → Option FieldValue → Prop
  | some (.list left), some (.list right) => AlikeItems left right
  | some (.map left), some (.map right) => ∀ key, AlikeOption (left.lookup key) (right.lookup key)
  | left, right => left = right

def Keyed : Option FieldValue → Prop
  | some (.map items) => (items.map Prod.fst).Nodup
  | _ => True

theorem AlikeItems.refl (items : List FieldValue) : AlikeItems items items :=
  ⟨fun item member => ⟨item, member, Alike.refl item⟩,
    fun item member => ⟨item, member, Alike.refl item⟩⟩

theorem AlikeOption.symm {left right : Option FieldValue} (alike : AlikeOption left right) :
    AlikeOption right left := by
  cases left <;> cases right
  · trivial
  · exact alike
  · exact alike
  · exact Alike.symm alike

theorem Agrees.refl (value : Option FieldValue) : Agrees value value := by
  cases value with
  | none => rfl
  | some value =>
      cases value with
      | list items => exact AlikeItems.refl items
      | map items =>
          intro key
          cases items.lookup key with
          | none => trivial
          | some held => exact Alike.refl held
      | _ => rfl

theorem Agrees.symm {left right : Option FieldValue} (agrees : Agrees left right) :
    Agrees right left := by
  unfold Agrees at agrees
  split at agrees
  · exact ⟨agrees.2, agrees.1⟩
  · exact fun key => (agrees key).symm
  · exact agrees ▸ Agrees.refl left

end FieldValue

open FieldValue

theorem pushMissing_left {left right : List FieldValue} {item : FieldValue} (member : item ∈ left) :
    item ∈ pushMissing left right := by
  induction right generalizing left with
  | nil => exact member
  | cons head rest ih =>
      rw [pushMissing, List.foldl_cons]
      split
      · exact ih member
      · exact ih (List.mem_append_left _ member)

theorem pushMissing_mem {left right : List FieldValue} {item : FieldValue}
    (member : item ∈ pushMissing left right) : item ∈ left ∨ item ∈ right := by
  induction right generalizing left with
  | nil => exact Or.inl member
  | cons head rest ih =>
      rw [pushMissing, List.foldl_cons] at member
      split at member
      · exact (ih member).imp_right (List.mem_cons_of_mem _)
      · rcases ih member with earlier | later
        · rcases List.mem_append.mp earlier with held | here
          · exact Or.inl held
          · exact Or.inr (List.mem_singleton.mp here ▸ List.mem_cons_self)
        · exact Or.inr (List.mem_cons_of_mem _ later)

theorem pushMissing_right {left right : List FieldValue} {item : FieldValue} (member : item ∈ right) :
    ∃ other ∈ pushMissing left right, item.Alike other := by
  induction right generalizing left with
  | nil => simp at member
  | cons head rest ih =>
      rw [pushMissing, List.foldl_cons]
      rcases List.mem_cons.mp member with rfl | later
      · split
        · rename_i present
          obtain ⟨twin, held, equal⟩ := List.any_eq_true.mp present
          exact ⟨twin, pushMissing_left held, Or.inr (partialEq_symm equal)⟩
        · exact ⟨item, pushMissing_left (List.mem_append_right _ List.mem_cons_self), Alike.refl item⟩
      · exact ih later

theorem pushMissing_alike (left right : List FieldValue) :
    AlikeItems (pushMissing left right) (pushMissing right left) := by
  have half : ∀ left right : List FieldValue, ∀ item ∈ pushMissing left right,
      ∃ other ∈ pushMissing right left, item.Alike other := by
    intro left right item member
    rcases pushMissing_mem member with first | second
    · exact pushMissing_right first
    · exact ⟨item, pushMissing_left second, Alike.refl item⟩
  exact ⟨half left right, half right left⟩

theorem pushMissing_nil (items : List FieldValue) : AlikeItems items (pushMissing [] items) :=
  ⟨fun _ member => pushMissing_right member,
    fun item member => ⟨item, (pushMissing_mem member).resolve_left List.not_mem_nil, Alike.refl item⟩⟩

theorem lookup_cons (item : String × FieldValue) (rest : List (String × FieldValue)) (key : String) :
    (item :: rest).lookup key = if key = item.1 then some item.2 else rest.lookup key := by
  rw [List.lookup_cons]
  by_cases same : key = item.1
  · simp [same]
  · rw [beq_eq_false_iff_ne.mpr same, if_neg same]

theorem lookup_insertItem (items : List (String × FieldValue)) (key query : String)
    (value : FieldValue) : (insertItem items key value).lookup query =
      if query = key then some value else items.lookup query := by
  induction items with
  | nil => rw [insertItem, lookup_cons]
  | cons item rest ih =>
      simp only [insertItem]
      split
      · rw [lookup_cons]
      · split
        · rename_i named
          rw [lookup_cons, lookup_cons, named]
          split <;> rfl
        · rename_i distinct
          rw [lookup_cons, lookup_cons, ih]
          by_cases same : query = key
          · rw [if_pos same, if_pos same, same, if_neg distinct]
          · rw [if_neg same, if_neg same]

theorem lookup_union (left right : List (String × FieldValue)) (key : String) :
    (right.foldl (fun left item =>
      match left.lookup item.1 with
      | some _ => left
      | none => insertItem left item.1 item.2) left).lookup key =
        (left.lookup key).or (right.lookup key) := by
  induction right generalizing left with
  | nil => simp
  | cons item rest ih =>
      rw [List.foldl_cons, ih, lookup_cons]
      cases present : left.lookup item.1 with
      | some held =>
          by_cases same : key = item.1
          · simp [same, present]
          · simp [same]
      | none =>
          simp only [lookup_insertItem]
          by_cases same : key = item.1
          · simp [same, present]
          · simp [same]

theorem lookup_counter (incomingNewer : Bool) {left right : List (String × FieldValue)}
    (distinct : (right.map Prod.fst).Nodup) (key : String) :
    (right.foldl (fun left item =>
      insertItem left item.1 (counterItem incomingNewer (left.lookup item.1) item.2)) left).lookup key =
        match right.lookup key with
        | some value => some (counterItem incomingNewer (left.lookup key) value)
        | none => left.lookup key := by
  induction right generalizing left with
  | nil => rfl
  | cons item rest ih =>
      rw [List.map_cons, List.nodup_cons] at distinct
      rw [List.foldl_cons, ih distinct.2, lookup_cons, lookup_insertItem]
      by_cases same : key = item.1
      · have absent : rest.lookup key = none := by
          rw [List.lookup_eq_none_iff]
          intro other member
          rw [bne_iff_ne]
          rintro rfl
          exact distinct.1 (same ▸ List.mem_map_of_mem member)
        rw [absent, if_pos same, if_pos same]
        simp [same]
      · rw [if_neg same, if_neg same]

theorem counterItem_symm (incomingNewer : Bool) (left right : FieldValue) :
    counterItem incomingNewer (some left) right = counterItem (!incomingNewer) (some right) left := by
  cases left <;> cases right <;> cases incomingNewer <;> simp [counterItem, max_comm]

def MergePolicy.Collects : MergePolicy → Prop
  | .setUnion | .counter | .listAppend | .appendOnly => True
  | .lastWriterWins | .custom _ => False

/--
Where two sides settle a field alike: maps under `SetUnion` hold the same under
every key they share, and an op-log that one side lacks is a list.
-/
def Settles : MergePolicy → Option FieldValue → Option FieldValue → Prop
  | .setUnion, some (.map left), some (.map right) => ∀ key first second,
      left.lookup key = some first → right.lookup key = some second → first.Alike second
  | .appendOnly, some value, none | .appendOnly, none, some value => ∃ items, value = .list items
  | _, _, _ => True

section Field

variable (field : String) (mergeCustom : CustomMerge)

theorem newer_agrees (newer : Bool) (left right : FieldValue) :
    Agrees (some (if newer then right else left)) (some (if (!newer) then left else right)) := by
  cases newer <;> exact Agrees.refl _

theorem mergeField_union (newer : Bool) (left right : List (String × FieldValue)) : ∃ merged,
    mergeField .setUnion field (some (.map left)) (.map right) newer mergeCustom = .map merged ∧
      ∀ key, merged.lookup key = (left.lookup key).or (right.lookup key) :=
  ⟨_, rfl, lookup_union left right⟩

theorem union_agrees_iff (newer : Bool) (left right : FieldValue) :
    Agrees (some (mergeField .setUnion field (some left) right newer mergeCustom))
      (some (mergeField .setUnion field (some right) left (!newer) mergeCustom)) ↔
        Settles .setUnion (some left) (some right) := by
  cases left <;> cases right
  case list.list left right => exact iff_of_true (pushMissing_alike left right) trivial
  case map.map left right =>
    obtain ⟨merged, isMap, lookups⟩ := mergeField_union field mergeCustom newer left right
    obtain ⟨other, otherMap, otherLookups⟩ := mergeField_union field mergeCustom (!newer) right left
    rw [isMap, otherMap]
    refine forall_congr' fun key => ?_
    rw [lookups, otherLookups]
    cases left.lookup key with
    | none =>
        refine iff_of_true ?_ (by simp)
        rw [Option.none_or, Option.or_none]
        cases right.lookup key with
        | none => trivial
        | some second => exact Alike.refl second
    | some first =>
        cases right.lookup key with
        | none => exact iff_of_true (Alike.refl first) (by simp)
        | some second => simp [AlikeOption]
  all_goals exact iff_of_true (newer_agrees newer _ _) trivial

theorem counter_agrees (newer : Bool) {left right : FieldValue} (leftKeyed : Keyed (some left))
    (rightKeyed : Keyed (some right)) :
    Agrees (some (mergeField .counter field (some left) right newer mergeCustom))
      (some (mergeField .counter field (some right) left (!newer) mergeCustom)) := by
  cases left <;> cases right
  case i64.i64 left right => cases newer <;> exact Agrees.refl _
  case map.map left right =>
    intro key
    rw [lookup_counter newer rightKeyed, lookup_counter (!newer) leftKeyed]
    cases left.lookup key with
    | none =>
        cases right.lookup key with
        | none => trivial
        | some second => exact Alike.refl second
    | some first =>
        cases right.lookup key with
        | none => exact Alike.refl first
        | some second => exact Or.inl (counterItem_symm newer first second)
  all_goals exact newer_agrees newer _ _

theorem append_agrees (newer : Bool) (left right : FieldValue) :
    Agrees (some (mergeField .listAppend field (some left) right newer mergeCustom))
      (some (mergeField .listAppend field (some right) left (!newer) mergeCustom)) := by
  cases left <;> cases right
  case list.list left right => exact pushMissing_alike left right
  all_goals exact newer_agrees newer _ _

theorem both_agree_iff {policy : MergePolicy} (collects : policy.Collects) (newer : Bool)
    {left right : FieldValue} (leftKeyed : Keyed (some left)) (rightKeyed : Keyed (some right)) :
    Agrees (some (mergeField policy field (some left) right newer mergeCustom))
      (some (mergeField policy field (some right) left (!newer) mergeCustom)) ↔
        Settles policy (some left) (some right) := by
  cases policy with
  | lastWriterWins => exact collects.elim
  | custom name => exact collects.elim
  | setUnion => exact union_agrees_iff field mergeCustom newer left right
  | counter =>
      exact iff_of_true (counter_agrees field mergeCustom newer leftKeyed rightKeyed) trivial
  | listAppend => exact iff_of_true (append_agrees field mergeCustom newer left right) trivial
  | appendOnly =>
      exact iff_of_true (pushMissing_alike (opItems (some left)) (opItems (some right))) trivial

/-- A side that lacks the field takes the value, which an op-log alone makes a list. -/
theorem missing_agrees_iff {policy : MergePolicy} (collects : policy.Collects) (newer : Bool)
    (value : FieldValue) :
    Agrees (some value) (some (mergeField policy field none value newer mergeCustom)) ↔
      Settles policy (some value) none := by
  cases policy with
  | lastWriterWins => exact collects.elim
  | custom name => exact collects.elim
  | appendOnly =>
      cases value
      case list items => exact iff_of_true (pushMissing_nil items) ⟨items, rfl⟩
      all_goals exact iff_of_false (by simp [mergeField, Agrees]) (by simp [Settles])
  | _ => exact iff_of_true (Agrees.refl (some value)) (by simp [Settles])

theorem Settles.symm {policy : MergePolicy} {left right : Option FieldValue}
    (settles : Settles policy left right) : Settles policy right left := by
  unfold Settles at settles
  split at settles
  · exact fun key first second held other => (settles key second first other held).symm
  · exact settles
  · exact settles
  · unfold Settles
    split
    all_goals simp_all

end Field

section Records

variable (policyForField : String → MergePolicy) (mergeCustom : CustomMerge)

/-- Two live records merged from both sides hold the same in a collection field. -/
theorem collections_agree_iff {left right : SyncRecord} (leftLive : left.tombstone = false)
    (rightLive : right.tombstone = false) {field : String}
    (collects : (policyForField field).Collects)
    (apart : left.fieldClock field ≠ right.fieldClock field)
    (leftKeyed : Keyed left.fields[field]?) (rightKeyed : Keyed right.fields[field]?) :
    Agrees (mergeRecords left right policyForField mergeCustom).fields[field]?
        (mergeRecords right left policyForField mergeCustom).fields[field]? ↔
      Settles (policyForField field) left.fields[field]? right.fields[field]? := by
  rw [mergeRecords_field policyForField mergeCustom leftLive rightLive,
    mergeRecords_field policyForField mergeCustom rightLive leftLive]
  cases first : left.fields[field]? with
  | none =>
      cases second : right.fields[field]? with
      | none => exact iff_of_true rfl (by simp [Settles])
      | some value =>
          have settles := missing_agrees_iff field mergeCustom collects
            (fieldNewer left right field) value
          exact ⟨fun agrees => (settles.mp agrees.symm).symm,
            fun holds => (settles.mpr holds.symm).symm⟩
  | some value =>
      cases second : right.fields[field]? with
      | none => exact missing_agrees_iff field mergeCustom collects (fieldNewer right left field) value
      | some other =>
          have flipped : fieldNewer right left field = !fieldNewer left right field := by
            simp only [fieldNewer, first, second]
            rcases lt_or_gt_of_ne apart with older | newer
            · simp [older.le, not_le.mpr older]
            · simp [newer.le, not_le.mpr newer]
          simp only [flipped]
          exact both_agree_iff field mergeCustom collects _ (first ▸ leftKeyed) (second ▸ rightKeyed)

end Records

section Sample

def taggedNote (device : String) (tags : FieldValue) : SyncRecord where
  schema := "notes"
  entity := "note"
  id := "1"
  fields := (∅ : BTreeMap String FieldValue).insert "tags" tags
  tombstone := false
  clock := {
    counter := 1
    deviceId := device }
  updatedAt := none
  fieldClocks := ∅

def coloured (colour : Int) : FieldValue := .map [("colour", .i64 colour)]

def everyField (policy : MergePolicy) : String → MergePolicy := fun _ => policy

theorem collections_agree_tags :
    Agrees (mergeRecords (taggedNote "desk" (.list [.i64 1, .i64 2]))
        (taggedNote "phone" (.list [.i64 2, .i64 3])) (everyField .setUnion) fun _ _ _ _ _ => none).fields["tags"]?
      (mergeRecords (taggedNote "phone" (.list [.i64 2, .i64 3]))
        (taggedNote "desk" (.list [.i64 1, .i64 2])) (everyField .setUnion) fun _ _ _ _ _ => none).fields["tags"]? ↔
    Settles .setUnion (taggedNote "desk" (.list [.i64 1, .i64 2])).fields["tags"]?
      (taggedNote "phone" (.list [.i64 2, .i64 3])).fields["tags"]? :=
  collections_agree_iff (everyField .setUnion) _ rfl rfl trivial (by decide +kernel)
    (by simp [taggedNote, Keyed]) (by simp [taggedNote, Keyed])

/-- A key that both sides set keeps the value of the side merged into. -/
theorem colours_disagree :
    ¬Agrees (mergeRecords (taggedNote "desk" (coloured 1)) (taggedNote "phone" (coloured 2))
        (everyField .setUnion) fun _ _ _ _ _ => none).fields["tags"]?
      (mergeRecords (taggedNote "phone" (coloured 2)) (taggedNote "desk" (coloured 1))
        (everyField .setUnion) fun _ _ _ _ _ => none).fields["tags"]? := by
  have desk : (mergeRecords (taggedNote "desk" (coloured 1)) (taggedNote "phone" (coloured 2))
      (everyField .setUnion) fun _ _ _ _ _ => none).fields["tags"]? = some (coloured 1) := by
    decide +kernel
  have phone : (mergeRecords (taggedNote "phone" (coloured 2)) (taggedNote "desk" (coloured 1))
      (everyField .setUnion) fun _ _ _ _ _ => none).fields["tags"]? = some (coloured 2) := by
    decide +kernel
  rw [desk, phone]
  intro agrees
  have colour := agrees "colour"
  simp [AlikeOption, Alike, FieldValue.partialEq] at colour

end Sample

end LibreSync
