import LibreSync.Logical
import LibreSync.Lib.LastWriter

/-!
What one merge of two records does to each field, whatever the policies: its
register of clock and value, its field clock, its items.
-/

namespace LibreSync

open LastWriter

namespace FieldValue

theorem f64Eq_refl {bits : UInt64} (finite : f64Finite bits = true) : f64Eq bits bits = true := by
  simp only [f64Finite, decide_eq_true_eq] at finite
  simp only [f64Eq, beq_self_eq_true, Bool.true_or, Bool.and_true, Bool.and_eq_true, decide_eq_true_eq]
  exact ⟨UInt64.le_of_lt finite, UInt64.le_of_lt finite⟩

theorem f64Eq_symm {left right : UInt64} (same : f64Eq left right = true) :
    f64Eq right left = true := by
  simp only [f64Eq, Bool.and_eq_true, Bool.or_eq_true, decide_eq_true_eq, beq_iff_eq] at same ⊢
  exact ⟨⟨same.1.2, same.1.1⟩, same.2.imp Eq.symm And.symm⟩

theorem f64Eq_trans {first second third : UInt64} (left : f64Eq first second = true)
    (right : f64Eq second third = true) : f64Eq first third = true := by
  simp only [f64Eq, Bool.and_eq_true, Bool.or_eq_true, decide_eq_true_eq, beq_iff_eq] at left right ⊢
  refine ⟨⟨left.1.1, right.1.2⟩, ?_⟩
  rcases left.2 with rfl | ⟨zero, other⟩
  · exact right.2
  · rcases right.2 with rfl | ⟨_, last⟩
    · exact Or.inr ⟨zero, other⟩
    · exact Or.inr ⟨zero, last⟩

mutual
theorem partialEq_refl : ∀ {value : FieldValue}, value.finite = true →
    value.partialEq value = true
  | .null, _ => rfl
  | .bool _, _ => by simp [partialEq]
  | .i64 _, _ => by simp [partialEq]
  | .f64 _, finite => f64Eq_refl finite
  | .string _, _ => by simp [partialEq]
  | .bytes _, _ => by simp [partialEq]
  | .list _, finite => partialEqItems_refl finite
  | .map _, finite => partialEqMap_refl finite

theorem partialEqItems_refl : ∀ {items : List FieldValue}, floatsItems f64Finite items = true →
    partialEqItems items items = true
  | [], _ => rfl
  | _ :: _, finite => by
      simp only [floatsItems, Bool.and_eq_true] at finite
      simp only [partialEqItems, Bool.and_eq_true]
      exact ⟨partialEq_refl finite.1, partialEqItems_refl finite.2⟩

theorem partialEqMap_refl : ∀ {items : List (String × FieldValue)}, floatsMap f64Finite items = true →
    partialEqMap items items = true
  | [], _ => rfl
  | (_, _) :: _, finite => by
      simp only [floatsMap, Bool.and_eq_true] at finite
      simp only [partialEqMap, Bool.and_eq_true, beq_self_eq_true, true_and]
      exact ⟨partialEq_refl finite.1, partialEqMap_refl finite.2⟩
end

mutual
theorem partialEq_symm : ∀ {left right : FieldValue}, left.partialEq right = true →
    right.partialEq left = true
  | .null, .null, _ => rfl
  | .bool _, .bool _, same => by simp only [partialEq, beq_iff_eq] at same ⊢; exact same.symm
  | .i64 _, .i64 _, same => by simp only [partialEq, beq_iff_eq] at same ⊢; exact same.symm
  | .f64 _, .f64 _, same => f64Eq_symm same
  | .string _, .string _, same => by simp only [partialEq, beq_iff_eq] at same ⊢; exact same.symm
  | .bytes _, .bytes _, same => by simp only [partialEq, beq_iff_eq] at same ⊢; exact same.symm
  | .list _, .list _, same => partialEqItems_symm same
  | .map _, .map _, same => partialEqMap_symm same

theorem partialEqItems_symm : ∀ {left right : List FieldValue},
    partialEqItems left right = true → partialEqItems right left = true
  | [], [], _ => rfl
  | _ :: _, _ :: _, same => by
      simp only [partialEqItems, Bool.and_eq_true] at same ⊢
      exact ⟨partialEq_symm same.1, partialEqItems_symm same.2⟩

theorem partialEqMap_symm : ∀ {left right : List (String × FieldValue)},
    partialEqMap left right = true → partialEqMap right left = true
  | [], [], _ => rfl
  | (_, _) :: _, (_, _) :: _, same => by
      simp only [partialEqMap, Bool.and_eq_true, beq_iff_eq] at same ⊢
      exact ⟨⟨same.1.1.symm, partialEq_symm same.1.2⟩, partialEqMap_symm same.2⟩
end

mutual
theorem partialEq_trans : ∀ {first second third : FieldValue}, first.partialEq second = true →
    second.partialEq third = true → first.partialEq third = true
  | .null, .null, .null, _, _ => rfl
  | .bool _, .bool _, .bool _, left, right => by simp_all [partialEq]
  | .i64 _, .i64 _, .i64 _, left, right => by simp_all [partialEq]
  | .f64 _, .f64 _, .f64 _, left, right => f64Eq_trans left right
  | .string _, .string _, .string _, left, right => by simp_all [partialEq]
  | .bytes _, .bytes _, .bytes _, left, right => by simp_all [partialEq]
  | .list _, .list _, .list _, left, right => partialEqItems_trans left right
  | .map _, .map _, .map _, left, right => partialEqMap_trans left right

theorem partialEqItems_trans : ∀ {first second third : List FieldValue},
    partialEqItems first second = true → partialEqItems second third = true →
      partialEqItems first third = true
  | [], [], [], _, _ => rfl
  | _ :: _, _ :: _, _ :: _, left, right => by
      simp only [partialEqItems, Bool.and_eq_true] at left right ⊢
      exact ⟨partialEq_trans left.1 right.1, partialEqItems_trans left.2 right.2⟩

theorem partialEqMap_trans : ∀ {first second third : List (String × FieldValue)},
    partialEqMap first second = true → partialEqMap second third = true →
      partialEqMap first third = true
  | [], [], [], _, _ => rfl
  | (_, _) :: _, (_, _) :: _, (_, _) :: _, left, right => by
      simp only [partialEqMap, Bool.and_eq_true, beq_iff_eq] at left right ⊢
      exact ⟨⟨left.1.1.trans right.1.1, partialEq_trans left.1.2 right.1.2⟩,
        partialEqMap_trans left.2 right.2⟩
end

theorem partialEqOption_cases {left right : Option FieldValue}
    (same : partialEqOption left right = true) :
    left = none ∧ right = none ∨ ∃ leftValue rightValue, left = some leftValue ∧
      right = some rightValue ∧ leftValue.partialEq rightValue = true := by
  cases left <;> cases right <;> simp_all [partialEqOption]

end FieldValue

def SyncRecord.register (field : String) (record : SyncRecord) :
    Option (LamportClock × FieldValue) :=
  record.fields[field]?.map fun value => (record.fieldClock field, value)

/-- A record carries a field clock for each of its fields and for no others. -/
def SyncRecord.Stamped (record : SyncRecord) : Prop :=
  ∀ field : String, record.fieldClocks[field]?.isSome = record.fields[field]?.isSome

section Merge

variable {existing incoming : SyncRecord} (policyForField : String → MergePolicy)
  (mergeCustom : CustomMerge)

theorem mergeRecords_clock (existing incoming : SyncRecord) :
    (mergeRecords existing incoming policyForField mergeCustom).clock =
      max existing.clock incoming.clock := by
  simp only [mergeRecords]
  split
  · split
    · rename_i ordered
      exact (max_eq_right ordered).symm
    · rename_i ordered
      exact (max_eq_left (not_le.mp ordered).le).symm
  · split
    · split
      · rename_i ordered
        exact (max_eq_right ordered).symm
      · rename_i ordered
        exact (max_eq_left (not_le.mp ordered).le).symm
    · rfl

theorem mergeRecords_deleted (deleted : existing.tombstone = true ∨ incoming.tombstone = true) :
    mergeRecords existing incoming policyForField mergeCustom =
      if existing.clock ≤ incoming.clock then incoming else existing := by
  cases existingDeleted : existing.tombstone <;> cases incomingDeleted : incoming.tombstone <;>
    simp_all [mergeRecords]

theorem mergeRecords_live (existingLive : existing.tombstone = false)
    (incomingLive : incoming.tombstone = false) :
    (mergeRecords existing incoming policyForField mergeCustom).tombstone = false ∧
      (mergeRecords existing incoming policyForField mergeCustom).fields =
        mergedFields existing incoming policyForField mergeCustom ∧
      (mergeRecords existing incoming policyForField mergeCustom).fieldClocks =
        mergedFieldClocks existing incoming := by
  simp [mergeRecords, existingLive, incomingLive]

theorem mergeRecords_field (existingLive : existing.tombstone = false)
    (incomingLive : incoming.tombstone = false) (field : String) :
    (mergeRecords existing incoming policyForField mergeCustom).fields[field]? =
      match incoming.fields[field]? with
      | none => existing.fields[field]?
      | some value => some (mergeField (policyForField field) field existing.fields[field]? value
          (fieldNewer existing incoming field) mergeCustom) := by
  obtain ⟨-, fields, -⟩ := mergeRecords_live policyForField mergeCustom existingLive incomingLive
  rw [fields]
  exact mergedFields_get existing incoming policyForField mergeCustom field

/-- Under last-writer-wins an incoming field is taken unless the other side's is dated later. -/
theorem mergeRecords_takes_iff (existingLive : existing.tombstone = false)
    (incomingLive : incoming.tombstone = false) {field : String}
    (policy : policyForField field = .lastWriterWins) {value : FieldValue}
    (present : incoming.fields[field]? = some value) :
    (mergeRecords existing incoming policyForField mergeCustom).fields[field]? = some value ↔
      ((existing.fields[field]?).isSome = true →
        existing.fieldClock field ≤ incoming.fieldClock field ∨
          existing.fields[field]? = some value) := by
  rw [mergeRecords_field policyForField mergeCustom existingLive incomingLive, present]
  simp only [policy, mergeField, Option.some.injEq]
  cases held : existing.fields[field]? with
  | none => simp [fieldNewer, held]
  | some kept =>
      simp only [fieldNewer, held, Option.getD_some, decide_eq_true_eq, Option.isSome_some,
        forall_const, Option.some.injEq]
      split
      · rename_i newer
        exact iff_of_true rfl (Or.inl newer)
      · rename_i older
        exact ⟨Or.inr, fun either => either.resolve_left older⟩

theorem mergeRecords_register (existingLive : existing.tombstone = false)
    (incomingLive : incoming.tombstone = false) {field : String}
    (policy : policyForField field = .lastWriterWins) :
    (mergeRecords existing incoming policyForField mergeCustom).register field =
      later (existing.register field) (incoming.register field) := by
  obtain ⟨-, fields, clocks⟩ :=
    mergeRecords_live policyForField mergeCustom existingLive incomingLive
  simp only [SyncRecord.register, SyncRecord.fieldClock, fields, clocks, mergedFields_get,
    mergedFieldClocks_get, policy]
  cases existingField : existing.fields[field]? with
  | none =>
      cases incomingField : incoming.fields[field]? with
      | none => rfl
      | some value =>
          have absent : existing.fields.contains field = false := by
            rw [Std.ExtTreeMap.contains_eq_isSome_getElem?, existingField]
            rfl
          simp [mergeField, fieldNewer, existingField, mergedClock, absent, later,
            SyncRecord.fieldClock]
  | some existingValue =>
      cases incomingField : incoming.fields[field]? with
      | none => rfl
      | some value =>
          have present : existing.fields.contains field = true := by
            rw [Std.ExtTreeMap.contains_eq_isSome_getElem?, existingField]
            rfl
          by_cases ordered : existing.fieldClock field ≤ incoming.fieldClock field
          · simp only [SyncRecord.fieldClock] at ordered
            simp [mergeField, fieldNewer, existingField, mergedClock, present, later,
              SyncRecord.fieldClock, ordered]
          · simp only [SyncRecord.fieldClock] at ordered
            simp [mergeField, fieldNewer, existingField, mergedClock, present, later,
              SyncRecord.fieldClock, ordered, (not_le.mp ordered).le]

theorem mergeRecords_stamped (existingLive : existing.tombstone = false)
    (incomingLive : incoming.tombstone = false) (existingStamped : existing.Stamped) :
    (mergeRecords existing incoming policyForField mergeCustom).Stamped := by
  obtain ⟨-, fields, clocks⟩ :=
    mergeRecords_live policyForField mergeCustom existingLive incomingLive
  intro field
  rw [fields, clocks, mergedFields_get, mergedFieldClocks_get]
  cases incoming.fields[field]? with
  | some _ => rfl
  | none =>
      cases existingField : existing.fields[field]? with
      | some _ => rfl
      | none => simpa [existingField] using existingStamped field

end Merge

end LibreSync
