import LibreSync.CollectionMerge
import LibreSync.RecordContent

/-!
Merging a version again into what it was merged into: which fields a second
merge leaves as they are, and what an op-log gains from the first.
-/

namespace LibreSync

namespace FieldValue

def f64Nan (bits : UInt64) : Bool := 0x7FF0000000000000 < bits &&& 0x7FFFFFFFFFFFFFFF

mutual
def noNan : FieldValue → Bool
  | .f64 bits => !f64Nan bits
  | .list items => noNanItems items
  | .map items => noNanMap items
  | _ => true

def noNanItems : List FieldValue → Bool
  | [] => true
  | item :: rest => noNan item && noNanItems rest

def noNanMap : List (String × FieldValue) → Bool
  | [] => true
  | (_, item) :: rest => noNan item && noNanMap rest
end

theorem f64Eq_self {bits : UInt64} (number : f64Nan bits = false) : f64Eq bits bits = true := by
  simp only [f64Nan, decide_eq_false_iff_not, UInt64.not_lt] at number
  simp [f64Eq, number]

mutual
theorem partialEq_self : ∀ {value : FieldValue}, value.noNan = true → value.partialEq value = true
  | .null, _ => rfl
  | .bool _, _ => by simp [partialEq]
  | .i64 _, _ => by simp [partialEq]
  | .f64 _, number => f64Eq_self (by simpa [noNan] using number)
  | .string _, _ => by simp [partialEq]
  | .bytes _, _ => by simp [partialEq]
  | .list _, number => partialEqItems_self number
  | .map _, number => partialEqMap_self number

theorem partialEqItems_self : ∀ {items : List FieldValue}, noNanItems items = true →
    partialEqItems items items = true
  | [], _ => rfl
  | _ :: _, number => by
      simp only [noNanItems, Bool.and_eq_true] at number
      simp only [partialEqItems, Bool.and_eq_true]
      exact ⟨partialEq_self number.1, partialEqItems_self number.2⟩

theorem partialEqMap_self : ∀ {items : List (String × FieldValue)}, noNanMap items = true →
    partialEqMap items items = true
  | [], _ => rfl
  | (_, _) :: _, number => by
      simp only [noNanMap, Bool.and_eq_true] at number
      simp only [partialEqMap, Bool.and_eq_true, beq_self_eq_true, true_and]
      exact ⟨partialEq_self number.1, partialEqMap_self number.2⟩
end

theorem noNanItems_iff (items : List FieldValue) :
    noNanItems items = true ↔ ∀ item ∈ items, item.noNan = true := by
  induction items with
  | nil => simp [noNanItems]
  | cons item rest ih => simp [noNanItems, ih]

def Sorted : FieldValue → Prop
  | .map items => items.Pairwise fun left right => left.1 < right.1
  | _ => True

end FieldValue

open FieldValue

section Lists

theorem pushMissing_cons (left : List FieldValue) (item : FieldValue) (rest : List FieldValue) :
    pushMissing left (item :: rest) =
      pushMissing (if left.any (·.partialEq item) then left else left ++ [item]) rest := rfl

theorem pushMissing_present {left right : List FieldValue}
    (present : ∀ item ∈ right, left.any (·.partialEq item) = true) : pushMissing left right = left := by
  induction right with
  | nil => rfl
  | cons item rest ih =>
      obtain ⟨here, later⟩ := List.forall_mem_cons.mp present
      rw [pushMissing_cons, if_pos here]
      exact ih later

theorem any_self {items : List FieldValue} (numbers : ∀ item ∈ items, item.noNan = true) :
    ∀ item ∈ items, items.any (·.partialEq item) = true :=
  fun item member => List.any_eq_true.mpr ⟨item, member, partialEq_self (numbers item member)⟩

theorem pushMissing_self {items : List FieldValue} (numbers : ∀ item ∈ items, item.noNan = true) :
    pushMissing items items = items :=
  pushMissing_present (any_self numbers)

theorem pushMissing_again (left : List FieldValue) {right : List FieldValue}
    (numbers : ∀ item ∈ right, item.noNan = true) :
    pushMissing (pushMissing left right) right = pushMissing left right :=
  pushMissing_present fun item member =>
    (pushMissing_any left right item).mpr (Or.inr (any_self numbers item member))

theorem pushMissing_split (left right : List FieldValue) : ∃ added,
    pushMissing left right = left ++ added ∧ added.Sublist right ∧
      ∀ earlier item later, added = earlier ++ item :: later →
        (left ++ earlier).any (·.partialEq item) = false := by
  induction right generalizing left with
  | nil =>
      refine ⟨[], by simp [pushMissing], List.Sublist.refl _, fun earlier item later split => ?_⟩
      simp at split
  | cons item rest ih =>
      rw [pushMissing_cons]
      split
      · obtain ⟨added, pushed, listed, absent⟩ := ih left
        exact ⟨added, pushed, listed.cons item, absent⟩
      · rename_i missing
        obtain ⟨added, pushed, listed, absent⟩ := ih (left ++ [item])
        refine ⟨item :: added, by simp [pushed], listed.cons_cons item, ?_⟩
        intro earlier other later split
        cases earlier with
        | nil =>
            obtain ⟨rfl, -⟩ := List.cons.inj split
            simpa using missing
        | cons first before =>
            obtain ⟨rfl, tail⟩ := List.cons.inj split
            simpa using absent before other later tail

end Lists

section Maps

theorem insertItem_head {items : List (String × FieldValue)} {key : String} {value : FieldValue}
    {head : String × FieldValue} (below : head.1 < key)
    (bound : ∀ item ∈ items, head.1 < item.1) : ∀ item ∈ insertItem items key value, head.1 < item.1 := by
  induction items with
  | nil =>
      intro item member
      rw [List.mem_singleton.mp member]
      exact below
  | cons first rest ih =>
      obtain ⟨here, later⟩ := List.forall_mem_cons.mp bound
      simp only [insertItem]
      split
      · exact List.forall_mem_cons.mpr ⟨below, bound⟩
      · split
        · exact List.forall_mem_cons.mpr ⟨below, later⟩
        · exact List.forall_mem_cons.mpr ⟨here, ih later⟩

theorem insertItem_sorted {items : List (String × FieldValue)} (sorted : (FieldValue.map items).Sorted)
    (key : String) (value : FieldValue) : (FieldValue.map (insertItem items key value)).Sorted := by
  simp only [FieldValue.Sorted] at sorted ⊢
  induction items with
  | nil => exact List.pairwise_singleton _ _
  | cons first rest ih =>
      obtain ⟨bound, later⟩ := List.pairwise_cons.mp sorted
      simp only [insertItem]
      split
      · rename_i before
        refine List.pairwise_cons.mpr ⟨?_, sorted⟩
        exact List.forall_mem_cons.mpr ⟨before, fun item member => before.trans (bound item member)⟩
      · split
        · rename_i same
          exact List.pairwise_cons.mpr ⟨fun item member => same ▸ bound item member, later⟩
        · rename_i notBefore different
          have below : first.1 < key := lt_of_le_of_ne (not_lt.mp notBefore) (Ne.symm different)
          exact List.pairwise_cons.mpr ⟨insertItem_head below bound, ih later⟩

theorem insertItem_held {items : List (String × FieldValue)} {key : String} {value : FieldValue}
    (sorted : (FieldValue.map items).Sorted) (held : items.lookup key = some value) :
    insertItem items key value = items := by
  simp only [FieldValue.Sorted] at sorted
  induction items with
  | nil => simp at held
  | cons first rest ih =>
      obtain ⟨bound, later⟩ := List.pairwise_cons.mp sorted
      rw [lookup_cons] at held
      simp only [insertItem]
      by_cases same : key = first.1
      · rw [if_pos same] at held
        obtain rfl := Option.some.inj held
        rw [if_neg (by rw [same]; exact lt_irrefl _), if_pos same, same]
      · rw [if_neg same] at held
        obtain ⟨found, member⟩ : ∃ found, (key, found) ∈ rest := by
          by_contra missing
          have none : rest.lookup key = none := by
            rw [List.lookup_eq_none_iff]
            rintro ⟨other, found⟩ member
            rw [bne_iff_ne]
            rintro rfl
            exact missing ⟨found, member⟩
          rw [none] at held
          simp at held
        rw [if_neg (bound _ member).not_gt, if_neg same, ih later held]

theorem lookup_of_mem {items : List (String × FieldValue)} (sorted : (FieldValue.map items).Sorted)
    {item : String × FieldValue} (member : item ∈ items) : items.lookup item.1 = some item.2 := by
  simp only [FieldValue.Sorted] at sorted
  induction items with
  | nil => simp at member
  | cons first rest ih =>
      obtain ⟨bound, later⟩ := List.pairwise_cons.mp sorted
      rw [lookup_cons]
      rcases List.mem_cons.mp member with rfl | tail
      · rw [if_pos rfl]
      · rw [if_neg (bound item tail).ne', ih later tail]

theorem sorted_nodup {items : List (String × FieldValue)} (sorted : (FieldValue.map items).Sorted) :
    (items.map Prod.fst).Nodup := by
  rw [List.Nodup, List.pairwise_map]
  exact List.Pairwise.imp (fun below => below.ne) sorted

theorem union_held {left right : List (String × FieldValue)}
    (held : ∀ item ∈ right, (left.lookup item.1).isSome = true) :
    right.foldl (fun left item =>
      match left.lookup item.1 with
      | some _ => left
      | none => insertItem left item.1 item.2) left = left := by
  induction right with
  | nil => rfl
  | cons item rest ih =>
      obtain ⟨here, later⟩ := List.forall_mem_cons.mp held
      obtain ⟨value, found⟩ := Option.isSome_iff_exists.mp here
      rw [List.foldl_cons, found]
      exact ih later

theorem counter_held {newer : Bool} {left right : List (String × FieldValue)}
    (sorted : (FieldValue.map left).Sorted)
    (held : ∀ item ∈ right, left.lookup item.1 = some (counterItem newer (left.lookup item.1) item.2)) :
    right.foldl (fun left item =>
      insertItem left item.1 (counterItem newer (left.lookup item.1) item.2)) left = left := by
  induction right with
  | nil => rfl
  | cons item rest ih =>
      obtain ⟨here, later⟩ := List.forall_mem_cons.mp held
      rw [List.foldl_cons, insertItem_held sorted here]
      exact ih later

theorem counter_sorted (newer : Bool) {left : List (String × FieldValue)}
    (right : List (String × FieldValue)) (sorted : (FieldValue.map left).Sorted) :
    (FieldValue.map (right.foldl (fun left item =>
      insertItem left item.1 (counterItem newer (left.lookup item.1) item.2)) left)).Sorted := by
  induction right generalizing left with
  | nil => exact sorted
  | cons item rest ih => exact ih (insertItem_sorted sorted _ _)

theorem counterItem_again (newer : Bool) (existing : Option FieldValue) (incoming : FieldValue) :
    counterItem newer (some (counterItem newer existing incoming)) incoming =
      counterItem newer existing incoming := by
  cases existing with
  | none => cases incoming <;> cases newer <;> simp [counterItem]
  | some existing =>
      cases existing <;> cases incoming <;> cases newer <;> simp [counterItem]

end Maps

section Field

variable (field : String) (mergeCustom : CustomMerge)

def MergePolicy.BuiltIn : MergePolicy → Prop
  | .custom _ => False
  | _ => True

theorem opItems_numbers {value : FieldValue} (numbers : value.noNan = true) :
    ∀ item ∈ opItems (some value), item.noNan = true := by
  cases value with
  | list items => exact (noNanItems_iff items).mp numbers
  | null => simp [opItems]
  | bool _ => simpa [opItems] using numbers
  | i64 _ => simpa [opItems] using numbers
  | f64 _ => simpa [opItems] using numbers
  | string _ => simpa [opItems] using numbers
  | bytes _ => simpa [opItems] using numbers
  | map _ => simpa [opItems] using numbers

/-- A value merged into itself stays, but an op-log is made a list. -/
theorem mergeField_self (policy : MergePolicy) (builtIn : policy.BuiltIn) {value : FieldValue}
    (numbers : value.noNan = true) (sorted : value.Sorted) :
    mergeField policy field (some value) value true mergeCustom =
      if policy = .appendOnly then .list (opItems (some value)) else value := by
  cases policy with
  | custom name => exact builtIn.elim
  | lastWriterWins => rfl
  | appendOnly =>
      exact congrArg FieldValue.list (pushMissing_self (opItems_numbers numbers))
  | setUnion =>
      cases value
      case list items =>
        exact congrArg FieldValue.list (pushMissing_self ((noNanItems_iff items).mp numbers))
      case map items =>
        refine congrArg FieldValue.map (union_held fun item member => ?_)
        rw [lookup_of_mem sorted member]
        rfl
      all_goals rfl
  | listAppend =>
      cases value
      case list items =>
        exact congrArg FieldValue.list (pushMissing_self ((noNanItems_iff items).mp numbers))
      all_goals rfl
  | counter =>
      cases value
      case map items =>
        refine congrArg FieldValue.map (counter_held sorted fun item member => ?_)
        rw [lookup_of_mem sorted member]
        cases item.2 <;> simp [counterItem]
      all_goals rfl

theorem mergeField_both_again {policy : MergePolicy} (builtIn : policy.BuiltIn) (newer : Bool)
    {existing incoming : FieldValue} (numbers : incoming.noNan = true)
    (existingSorted : existing.Sorted) (incomingSorted : incoming.Sorted) :
    mergeField policy field
        (some (mergeField policy field (some existing) incoming newer mergeCustom)) incoming newer
        mergeCustom =
      mergeField policy field (some existing) incoming newer mergeCustom := by
  cases policy with
  | custom name => exact builtIn.elim
  | lastWriterWins => cases newer <;> rfl
  | appendOnly =>
      exact congrArg FieldValue.list (pushMissing_again _ (opItems_numbers numbers))
  | setUnion =>
      have self := mergeField_self field mergeCustom .setUnion trivial numbers
        incomingSorted
      cases existing <;> cases incoming
      case list.list left right =>
        exact congrArg FieldValue.list (pushMissing_again left ((noNanItems_iff right).mp numbers))
      case map.map left right =>
        refine congrArg FieldValue.map (union_held fun item member => ?_)
        refine (congrArg Option.isSome (lookup_union left right item.1)).trans ?_
        rw [lookup_of_mem incomingSorted member]
        cases left.lookup item.1 <;> rfl
      all_goals
        cases newer
        · rfl
        · exact self
  | listAppend =>
      have self := mergeField_self field mergeCustom .listAppend trivial numbers
        incomingSorted
      cases existing <;> cases incoming
      case list.list left right =>
        exact congrArg FieldValue.list (pushMissing_again left ((noNanItems_iff right).mp numbers))
      all_goals
        cases newer
        · rfl
        · exact self
  | counter =>
      have self := mergeField_self field mergeCustom .counter trivial numbers
        incomingSorted
      cases existing <;> cases incoming
      case map.map left right =>
        refine congrArg FieldValue.map (counter_held (counter_sorted newer right existingSorted) ?_)
        intro item member
        rw [lookup_counter newer (sorted_nodup incomingSorted), lookup_of_mem incomingSorted member]
        simp only [counterItem_again]
      all_goals
        cases newer
        · rfl
        · exact self

theorem mergeField_missing_again {policy : MergePolicy} (builtIn : policy.BuiltIn)
    {incoming : FieldValue} (numbers : incoming.noNan = true) (sorted : incoming.Sorted) :
    mergeField policy field (some (mergeField policy field none incoming true mergeCustom)) incoming
        true mergeCustom =
      mergeField policy field none incoming true mergeCustom := by
  by_cases append : policy = .appendOnly
  · subst append
    exact congrArg FieldValue.list (pushMissing_again _ (opItems_numbers numbers))
  · have taken : mergeField policy field none incoming true mergeCustom = incoming := by
      cases policy with
      | custom name => exact builtIn.elim
      | appendOnly => exact absurd rfl append
      | _ => cases incoming <;> rfl
    rw [taken, mergeField_self field mergeCustom _ builtIn numbers sorted, if_neg append]

end Field

section Records

variable {policyForField : String → MergePolicy} (mergeCustom : CustomMerge)
  {existing incoming : SyncRecord}

structure SyncRecord.Same (left right : SyncRecord) : Prop where
  schema : left.schema = right.schema
  entity : left.entity = right.entity
  id : left.id = right.id
  fields : ∀ field : String, left.fields[field]? = right.fields[field]?
  fieldClocks : ∀ field : String, left.fieldClock field = right.fieldClock field
  tombstone : left.tombstone = right.tombstone
  clock : left.clock = right.clock
  updatedAt : left.updatedAt = right.updatedAt

theorem SyncRecord.Same.refl (record : SyncRecord) : record.Same record :=
  ⟨rfl, rfl, rfl, fun _ => rfl, fun _ => rfl, rfl, rfl, rfl⟩

/-- No value is NaN, and maps are in key order. -/
def SyncRecord.Sane (record : SyncRecord) : Prop :=
  ∀ (field : String) (value : FieldValue), record.fields[field]? = some value →
    value.noNan = true ∧ value.Sorted

theorem mergedUpdatedAt_again (existing incoming : Option Nat) :
    mergedUpdatedAt (mergedUpdatedAt existing incoming) incoming =
      mergedUpdatedAt existing incoming := by
  cases existing <;> cases incoming <;> simp [mergedUpdatedAt]

variable (policyForField) in
theorem mergeRecords_updatedAt (existingLive : existing.tombstone = false)
    (incomingLive : incoming.tombstone = false) :
    (mergeRecords existing incoming policyForField mergeCustom).updatedAt =
      mergedUpdatedAt existing.updatedAt incoming.updatedAt := by
  simp [mergeRecords, existingLive, incomingLive]

variable (policyForField) in
theorem mergeRecords_fieldClock (existingLive : existing.tombstone = false)
    (incomingLive : incoming.tombstone = false) {field : String} {value : FieldValue}
    (present : incoming.fields[field]? = some value) :
    (mergeRecords existing incoming policyForField mergeCustom).fieldClock field =
      mergedClock existing incoming field := by
  obtain ⟨-, -, clocks⟩ := mergeRecords_live policyForField mergeCustom existingLive incomingLive
  rw [SyncRecord.fieldClock, clocks, mergedFieldClocks_get, present]
  rfl

theorem mergedClock_of_missing {field : String} (missing : existing.fields[field]? = none) :
    mergedClock existing incoming field = incoming.fieldClock field := by
  rw [mergedClock, Std.ExtTreeMap.contains_eq_isSome_getElem?, missing]
  rfl

theorem mergedClock_of_present {field : String} {value : FieldValue}
    (present : existing.fields[field]? = some value) : mergedClock existing incoming field =
      max (existing.fieldClock field) (incoming.fieldClock field) := by
  rw [mergedClock, Std.ExtTreeMap.contains_eq_isSome_getElem?, present]
  rfl

theorem mergeRecords_settled (existingLive : existing.tombstone = false)
    (incomingLive : incoming.tombstone = false) {field : String}
    (builtIn : (policyForField field).BuiltIn) (existingSane : existing.Sane)
    (incomingSane : incoming.Sane) {value : FieldValue}
    (present : incoming.fields[field]? = some value) :
    mergeField (policyForField field) field
        (mergeRecords existing incoming policyForField mergeCustom).fields[field]? value
        (fieldNewer (mergeRecords existing incoming policyForField mergeCustom) incoming field)
        mergeCustom =
      mergeField (policyForField field) field existing.fields[field]? value
        (fieldNewer existing incoming field) mergeCustom := by
  have dated := mergeRecords_fieldClock policyForField mergeCustom existingLive incomingLive present
  have merged := mergeRecords_field policyForField mergeCustom existingLive incomingLive field
  simp only [present] at merged
  obtain ⟨numbers, sorted⟩ := incomingSane field value present
  simp only [fieldNewer, merged, dated]
  cases held : existing.fields[field]? with
  | none =>
      rw [mergedClock_of_missing held]
      simp only [le_refl, decide_true]
      exact mergeField_missing_again field mergeCustom builtIn numbers sorted
  | some kept =>
      have newer : decide (mergedClock existing incoming field ≤ incoming.fieldClock field) =
          decide (existing.fieldClock field ≤ incoming.fieldClock field) := by
        rw [mergedClock_of_present held]
        simp
      simp only [newer]
      exact mergeField_both_again field mergeCustom builtIn _ numbers (existingSane field kept held).2
        sorted

theorem mergeRecords_live_again (existingLive : existing.tombstone = false)
    (incomingLive : incoming.tombstone = false)
    (builtIn : ∀ field, (policyForField field).BuiltIn) (existingSane : existing.Sane)
    (incomingSane : incoming.Sane) :
    (mergeRecords (mergeRecords existing incoming policyForField mergeCustom) incoming
      policyForField mergeCustom).Same
        (mergeRecords existing incoming policyForField mergeCustom) := by
  have live := (mergeRecords_live policyForField mergeCustom existingLive incomingLive).1
  have clock : (mergeRecords (mergeRecords existing incoming policyForField mergeCustom) incoming
      policyForField mergeCustom).clock =
        (mergeRecords existing incoming policyForField mergeCustom).clock := by
    simp only [mergeRecords_clock, max_assoc, max_self]
  have ids : ∀ left : SyncRecord, left.tombstone = false →
      (mergeRecords left incoming policyForField mergeCustom).schema = left.schema ∧
      (mergeRecords left incoming policyForField mergeCustom).entity = left.entity ∧
      (mergeRecords left incoming policyForField mergeCustom).id = left.id := by
    intro left leftLive
    simp [mergeRecords, leftLive, incomingLive]
  obtain ⟨schema, entity, id⟩ := ids _ live
  refine ⟨schema, entity, id, fun field => ?_, fun field => ?_, ?_, clock, ?_⟩
  · rw [mergeRecords_field policyForField mergeCustom live incomingLive]
    cases present : incoming.fields[field]? with
    | none => rfl
    | some value =>
        have merged := mergeRecords_field policyForField mergeCustom existingLive incomingLive field
        simp only [present] at merged
        dsimp only
        rw [mergeRecords_settled mergeCustom existingLive incomingLive (builtIn field) existingSane
          incomingSane present, merged]
  · cases present : incoming.fields[field]? with
    | none =>
        have clocks := (mergeRecords_live policyForField mergeCustom live incomingLive).2.2
        rw [SyncRecord.fieldClock, clocks, mergedFieldClocks_get, present, clock]
        dsimp only
        cases (mergeRecords existing incoming policyForField mergeCustom).fields[field]? <;> rfl
    | some value =>
        have merged := mergeRecords_field policyForField mergeCustom existingLive incomingLive field
        simp only [present] at merged
        rw [mergeRecords_fieldClock policyForField mergeCustom live incomingLive present,
          mergedClock_of_present merged,
          mergeRecords_fieldClock policyForField mergeCustom existingLive incomingLive present]
        refine max_eq_left ?_
        cases held : existing.fields[field]? with
        | none => exact (mergedClock_of_missing held).ge
        | some kept => exact (mergedClock_of_present held) ▸ le_max_right _ _
  · exact (mergeRecords_live policyForField mergeCustom live incomingLive).1.trans live.symm
  · rw [mergeRecords_updatedAt policyForField mergeCustom live incomingLive,
      mergeRecords_updatedAt policyForField mergeCustom existingLive incomingLive,
      mergedUpdatedAt_again]

variable (existing incoming) in
/-- A deleted record gives way to a live version that is not older. -/
def Revives : Prop :=
  existing.tombstone = true ∧ incoming.tombstone = false ∧ existing.clock ≤ incoming.clock

theorem mergeRecords_self_iff (live : incoming.tombstone = false)
    (builtIn : ∀ field, (policyForField field).BuiltIn) (sane : incoming.Sane) :
    (mergeRecords incoming incoming policyForField mergeCustom).Same incoming ↔
      ∀ (field : String) (value : FieldValue), policyForField field = .appendOnly →
        incoming.fields[field]? = some value → ∃ items, value = .list items := by
  have self : ∀ (field : String) (value : FieldValue), incoming.fields[field]? = some value →
      (mergeRecords incoming incoming policyForField mergeCustom).fields[field]? =
        some (if policyForField field = .appendOnly then .list (opItems (some value)) else value) := by
    intro field value present
    obtain ⟨numbers, sorted⟩ := sane field value present
    rw [mergeRecords_field policyForField mergeCustom live live, present]
    simp only [fieldNewer, present, le_refl, decide_true]
    rw [mergeField_self field mergeCustom _ (builtIn field) numbers sorted]
  constructor
  · intro same field value append present
    have kept := same.fields field
    rw [self field value present, present, if_pos append] at kept
    exact ⟨_, (Option.some.inj kept).symm⟩
  · intro lists
    have facts := mergeRecords_live policyForField mergeCustom live live
    have clock : (mergeRecords incoming incoming policyForField mergeCustom).clock =
        incoming.clock := by
      rw [mergeRecords_clock, max_self]
    have whole : mergeRecords incoming incoming policyForField mergeCustom = {
        schema := incoming.schema
        entity := incoming.entity
        id := incoming.id
        fields := mergedFields incoming incoming policyForField mergeCustom
        tombstone := false
        clock := max incoming.clock incoming.clock
        updatedAt := mergedUpdatedAt incoming.updatedAt incoming.updatedAt
        fieldClocks := mergedFieldClocks incoming incoming } := by
      simp [mergeRecords, live]
    refine ⟨by rw [whole], by rw [whole], by rw [whole], fun field => ?_, fun field => ?_,
      facts.1.trans live.symm, clock, ?_⟩
    · cases present : incoming.fields[field]? with
      | none =>
          rw [mergeRecords_field policyForField mergeCustom live live, present]
      | some value =>
          rw [self field value present]
          split
          · rename_i append
            obtain ⟨items, rfl⟩ := lists field value append present
            rfl
          · rfl
    · cases present : incoming.fields[field]? with
      | none =>
          rw [SyncRecord.fieldClock, facts.2.2, mergedFieldClocks_get, present, clock]
          rfl
      | some value =>
          rw [mergeRecords_fieldClock policyForField mergeCustom live live present,
            mergedClock_of_present present, max_self]
    · rw [mergeRecords_updatedAt policyForField mergeCustom live live]
      cases incoming.updatedAt <;> simp [mergedUpdatedAt]

/-- What an op-log holds after a merge: the items it had, and those of the other it lacked. -/
def Appends (existing incoming merged : Option FieldValue) : Prop :=
  (∃ added, opItems merged = opItems existing ++ added ∧ added.Sublist (opItems incoming) ∧
    ∀ earlier item later, added = earlier ++ item :: later →
      (opItems existing ++ earlier).any (·.partialEq item) = false) ∧
  (∀ item ∈ opItems incoming, (opItems merged).any (·.partialEq item) = true) ∧
  (incoming.isSome = true → ∃ items, merged = some (.list items))

theorem mergeRecords_appends (existingLive : existing.tombstone = false)
    (incomingLive : incoming.tombstone = false) {field : String}
    (append : policyForField field = .appendOnly) (sane : incoming.Sane) :
    Appends existing.fields[field]? incoming.fields[field]?
      (mergeRecords existing incoming policyForField mergeCustom).fields[field]? := by
  have merged := mergeRecords_field policyForField mergeCustom existingLive incomingLive field
  cases present : incoming.fields[field]? with
  | none =>
      rw [present] at merged
      rw [merged]
      refine ⟨⟨[], (List.append_nil _).symm, List.nil_sublist _, ?_⟩, ?_, by simp⟩
      · intro earlier item later split
        simp at split
      · exact fun item member => absurd member List.not_mem_nil
  | some value =>
      simp only [present, append, mergeField] at merged
      rw [merged]
      refine ⟨pushMissing_split _ _, fun item member => ?_, fun _ => ⟨_, rfl⟩⟩
      have number := opItems_numbers (sane field value present).1 item member
      exact (pushMissing_any _ _ item).mpr
        (Or.inr (List.any_eq_true.mpr ⟨item, member, partialEq_self number⟩))

/--
A second merge of the same version changes nothing, unless the first revived a
deleted record with an op-log that is no list; and op-logs lose nothing.
-/
theorem remerge_same_iff (existing incoming : SyncRecord) (mergeCustom : CustomMerge)
    (builtIn : ∀ field, (policyForField field).BuiltIn) (existingSane : existing.Sane)
    (incomingSane : incoming.Sane) :
    ((mergeRecords (mergeRecords existing incoming policyForField mergeCustom) incoming
        policyForField mergeCustom).Same
          (mergeRecords existing incoming policyForField mergeCustom) ↔
      (Revives existing incoming → ∀ (field : String) (value : FieldValue),
        policyForField field = .appendOnly → incoming.fields[field]? = some value →
          ∃ items, value = .list items)) ∧
    (existing.tombstone = false → incoming.tombstone = false → ∀ field,
      policyForField field = .appendOnly →
        Appends existing.fields[field]? incoming.fields[field]?
          (mergeRecords existing incoming policyForField mergeCustom).fields[field]?) := by
  refine ⟨?_, fun existingLive incomingLive field append =>
    mergeRecords_appends mergeCustom existingLive incomingLive append incomingSane⟩
  by_cases live : existing.tombstone = false ∧ incoming.tombstone = false
  · refine iff_of_true (mergeRecords_live_again mergeCustom live.1 live.2 builtIn existingSane
      incomingSane) fun revives => ?_
    exact absurd (live.1.symm.trans revives.1) (by simp)
  · have deleted : existing.tombstone = true ∨ incoming.tombstone = true := by
      simpa [or_iff_not_imp_left] using live
    have first := mergeRecords_deleted policyForField mergeCustom deleted
    by_cases newer : existing.clock ≤ incoming.clock
    · rw [if_pos newer] at first
      rw [first]
      cases incomingDeleted : incoming.tombstone with
      | false =>
          have revives : Revives existing incoming :=
            ⟨deleted.resolve_right (by simp [incomingDeleted]), incomingDeleted, newer⟩
          rw [mergeRecords_self_iff mergeCustom incomingDeleted builtIn incomingSane]
          exact ⟨fun lists _ => lists, fun lists => lists revives⟩
      | true =>
          have again := mergeRecords_deleted policyForField mergeCustom
            (Or.inr incomingDeleted : incoming.tombstone = true ∨ _)
          rw [ite_self] at again
          rw [again]
          refine iff_of_true (SyncRecord.Same.refl incoming) fun revives => ?_
          exact absurd (incomingDeleted.symm.trans revives.2.1) (by simp)
    · rw [if_neg newer] at first
      rw [first, first]
      exact iff_of_true (SyncRecord.Same.refl existing) fun revives => absurd revives.2.2 newer

end Records

section Sample

def logged (counter : Nat) (log : FieldValue) : SyncRecord :=
  { taggedNote "desk" log with clock := {
      counter := counter
      deviceId := "desk" } }

def deletedNote : SyncRecord :=
  { taggedNote "desk" .null with tombstone := true, fields := ∅ }

theorem logged_sane (counter : Nat) {log : FieldValue} (numbers : log.noNan = true)
    (sorted : log.Sorted) : (logged counter log).Sane := by
  intro field value present
  have only : ((∅ : BTreeMap String FieldValue).insert "tags" log)[field]? = some value := present
  rw [BTreeMap.get_insert] at only
  split at only
  · rw [← Option.some.inj only]
    exact ⟨numbers, sorted⟩
  · simp at only

theorem remerge_same_log :
    (mergeRecords (mergeRecords deletedNote (logged 2 (.list [.i64 1])) (everyField .appendOnly)
        fun _ _ _ _ _ => none) (logged 2 (.list [.i64 1])) (everyField .appendOnly)
        fun _ _ _ _ _ => none).Same
      (mergeRecords deletedNote (logged 2 (.list [.i64 1])) (everyField .appendOnly)
        fun _ _ _ _ _ => none) := by
  have bare : deletedNote.Sane := fun field value present => by simp [deletedNote] at present
  have sane : (logged 2 (.list [.i64 1])).Sane := logged_sane 2 rfl trivial
  have builtIn : ∀ field, (everyField .appendOnly field).BuiltIn := fun _ => trivial
  refine (remerge_same_iff deletedNote (logged 2 (.list [.i64 1])) _ builtIn bare sane).1.mpr fun _ field value _ present => ?_
  have only : ((∅ : BTreeMap String FieldValue).insert "tags"
    (.list [.i64 1]))[field]? = some value := present
  rw [BTreeMap.get_insert] at only
  split at only
  · exact ⟨_, (Option.some.inj only).symm⟩
  · simp at only

/-- A log of one item that is no list is taken as it is, and wrapped by the second merge. -/
theorem remerge_wraps :
    (mergeRecords deletedNote (logged 2 (.i64 7)) (everyField .appendOnly)
        fun _ _ _ _ _ => none).fields["tags"]? = some (.i64 7) ∧
      (mergeRecords (mergeRecords deletedNote (logged 2 (.i64 7)) (everyField .appendOnly)
          fun _ _ _ _ _ => none) (logged 2 (.i64 7)) (everyField .appendOnly)
          fun _ _ _ _ _ => none).fields["tags"]? = some (.list [.i64 7]) ∧
      ¬(mergeRecords (mergeRecords deletedNote (logged 2 (.i64 7)) (everyField .appendOnly)
          fun _ _ _ _ _ => none) (logged 2 (.i64 7)) (everyField .appendOnly)
          fun _ _ _ _ _ => none).Same
        (mergeRecords deletedNote (logged 2 (.i64 7)) (everyField .appendOnly)
          fun _ _ _ _ _ => none) := by
  have once : (mergeRecords deletedNote (logged 2 (.i64 7)) (everyField .appendOnly)
      fun _ _ _ _ _ => none).fields["tags"]? = some (.i64 7) := by decide +kernel
  have twice : (mergeRecords (mergeRecords deletedNote (logged 2 (.i64 7))
      (everyField .appendOnly) fun _ _ _ _ _ => none) (logged 2 (.i64 7)) (everyField .appendOnly)
      fun _ _ _ _ _ => none).fields["tags"]? = some (.list [.i64 7]) := by decide +kernel
  refine ⟨once, twice, fun same => ?_⟩
  have kept := same.fields "tags"
  rw [once, twice] at kept
  simp at kept

end Sample

end LibreSync
