import LibreSync.RecordMerge
import LibreSync.RecordKey

/-!
What a live record holds: versions up to its clock, writes of fields up to their
field clocks, and items of append-only fields. A merge holds what either side
holds.
-/

namespace LibreSync

inductive Content where
  | version (clock : LamportClock)
  | write (field : String) (clock : LamportClock)
  | item (field : String) (value : FieldValue)

def FieldValue.Shallow (value : FieldValue) : Prop :=
  ∀ item ∈ opItems (some value), item.depth + 4 < recursionLimit

theorem FieldValue.depthItems_lt {bound : Nat} (positive : 0 < bound) {items : List FieldValue}
    (shallow : ∀ item ∈ items, item.depth < bound) : FieldValue.depthItems items < bound := by
  induction items with
  | nil => exact positive
  | cons item rest ih =>
      rw [List.forall_mem_cons] at shallow
      rw [FieldValue.depthItems]
      exact max_lt shallow.1 (ih shallow.2)

theorem FieldValue.Shallow.depth_lt {value : FieldValue} (shallow : value.Shallow) :
    value.depth + 2 < recursionLimit := by
  have items : ∀ item ∈ opItems (some value), item.depth < 124 := by
    intro item member
    have := shallow item member
    simp only [recursionLimit] at this
    omega
  have own : ∀ {other : FieldValue}, opItems (some other) = [other] →
      (∀ item ∈ opItems (some other), item.depth < 124) → other.depth + 2 < recursionLimit := by
    intro other single below
    have := below other (by simp [single])
    simp only [recursionLimit]
    omega
  cases value with
  | list inner =>
      have below := FieldValue.depthItems_lt (by omega) items
      simp only [opItems] at below
      simp only [FieldValue.depth, recursionLimit]
      omega
  | null => decide
  | bool _ => exact own rfl items
  | i64 _ => exact own rfl items
  | f64 _ => exact own rfl items
  | string _ => exact own rfl items
  | bytes _ => exact own rfl items
  | map _ => exact own rfl items

namespace SyncRecord

def written (record : SyncRecord) (field : String) : Option LamportClock :=
  record.fields[field]?.map fun _ => record.fieldClock field

def Carries (policy : String → MergePolicy) (record : SyncRecord) : Content → Prop
  | .version clock => clock ≤ record.clock
  | .write field clock => ∃ written, record.written field = some written ∧ clock ≤ written
  | .item field value => policy field = .appendOnly ∧
      (opItems record.fields[field]?).any (·.partialEq value) = true

/-- A live record that is read back from its text: each float in it passes `reads`. -/
structure Tidy (reads : UInt64 → Bool) (record : SyncRecord) : Prop where
  live : record.tombstone = false
  stamped : record.Stamped
  finite : ∀ (field : String) (value : FieldValue), record.fields[field]? = some value →
    value.finite = true
  exact : ∀ (field : String) (value : FieldValue), record.fields[field]? = some value →
    value.floats reads = true
  shallow : ∀ (field : String) (value : FieldValue), record.fields[field]? = some value →
    value.Shallow
  dated : ∀ (field : String) (clock : LamportClock), record.fieldClocks[field]? = some clock →
    clock.counter ≤ record.clock.counter

variable {reads : UInt64 → Bool} {record : SyncRecord}

theorem payload_readable_iff : record.payload.readable = true ↔
    ∀ (field : String) (value : FieldValue), record.fields[field]? = some value →
      value.finite = true ∧ value.depth + 2 < recursionLimit := by
  simp only [payload, RecordPayload.readable, RecordPayload.floats, Bool.and_eq_true,
    List.all_eq_true, Prod.forall, Std.ExtTreeMap.mem_toList_iff_getElem?_eq_some,
    decide_eq_true_eq]
  constructor
  · exact fun both field value found => ⟨both.1 field value found, both.2 field value found⟩
  · exact fun each => ⟨fun field value found => (each field value found).1,
      fun field value found => (each field value found).2⟩

theorem payload_floats_iff : record.payload.floats reads = true ↔
    ∀ (field : String) (value : FieldValue), record.fields[field]? = some value →
      value.floats reads = true := by
  simp only [payload, RecordPayload.floats, List.all_eq_true, Prod.forall,
    Std.ExtTreeMap.mem_toList_iff_getElem?_eq_some]

theorem Tidy.payload_readable (tidy : record.Tidy reads) : record.payload.readable = true :=
  payload_readable_iff.mpr fun field value found =>
    ⟨tidy.finite field value found, (tidy.shallow field value found).depth_lt⟩

theorem Tidy.fieldClock_counter (tidy : record.Tidy reads) (field : String) :
    (record.fieldClock field).counter ≤ record.clock.counter := by
  simp only [fieldClock]
  cases found : record.fieldClocks[field]? with
  | none => exact le_rfl
  | some clock => exact tidy.dated field clock found

end SyncRecord

theorem pushMissing_any (left right : List FieldValue) (value : FieldValue) :
    (pushMissing left right).any (·.partialEq value) = true ↔
      left.any (·.partialEq value) = true ∨ right.any (·.partialEq value) = true := by
  induction right generalizing left with
  | nil => simp [pushMissing]
  | cons item rest ih =>
      have step : pushMissing left (item :: rest) =
          pushMissing (if left.any (·.partialEq item) then left else left ++ [item]) rest := rfl
      rw [step, ih]
      simp only [List.any_cons, Bool.or_eq_true]
      split
      · rename_i present
        constructor
        · rintro (inLeft | inRest)
          · exact Or.inl inLeft
          · exact Or.inr (Or.inr inRest)
        · rintro (inLeft | same | inRest)
          · exact Or.inl inLeft
          · obtain ⟨twin, member, equal⟩ := List.any_eq_true.mp present
            exact Or.inl (List.any_eq_true.mpr ⟨twin, member,
              FieldValue.partialEq_trans equal same⟩)
          · exact Or.inr inRest
      · simp only [List.any_append, List.any_cons, List.any_nil, Bool.or_false, Bool.or_eq_true,
          or_assoc]

theorem pushMissing_forall {holds : FieldValue → Prop} {left right : List FieldValue}
    (leftHolds : ∀ item ∈ left, holds item) (rightHolds : ∀ item ∈ right, holds item) :
    ∀ item ∈ pushMissing left right, holds item := by
  induction right generalizing left with
  | nil => exact leftHolds
  | cons item rest ih =>
      have step : pushMissing left (item :: rest) =
          pushMissing (if left.any (·.partialEq item) then left else left ++ [item]) rest := rfl
      rw [step]
      refine ih ?_ fun other member => rightHolds other (List.mem_cons_of_mem _ member)
      split
      · exact leftHolds
      · intro other member
        rcases List.mem_append.mp member with member | member
        · exact leftHolds other member
        · exact rightHolds other (by simpa using Or.inl (List.mem_singleton.mp member))

theorem FieldValue.floatsItems_iff {holds : UInt64 → Bool} (items : List FieldValue) :
    FieldValue.floatsItems holds items = true ↔ ∀ item ∈ items, item.floats holds = true := by
  induction items with
  | nil => simp [FieldValue.floatsItems]
  | cons item rest ih => simp [FieldValue.floatsItems, ih]

theorem opItems_floats {holds : UInt64 → Bool} {value : Option FieldValue}
    (floats : ∀ found, value = some found → found.floats holds = true) :
    ∀ item ∈ opItems value, item.floats holds = true := by
  cases value with
  | none => simp [opItems]
  | some found =>
      have here := floats found rfl
      cases found with
      | list items => exact (FieldValue.floatsItems_iff items).mp here
      | null => simp [opItems]
      | bool _ => simpa [opItems] using here
      | i64 _ => simpa [opItems] using here
      | f64 _ => simpa [opItems] using here
      | string _ => simpa [opItems] using here
      | bytes _ => simpa [opItems] using here
      | map _ => simpa [opItems] using here

section Merge

variable {existing incoming : SyncRecord} {policy : String → MergePolicy}
  {reads : UInt64 → Bool} (mergeCustom : CustomMerge)

/-- The policies of a field-level merge that loses nothing. -/
def KeepsContent (policy : String → MergePolicy) : Prop :=
  ∀ field, policy field = .lastWriterWins ∨ policy field = .appendOnly

theorem mergeRecords_written (existingTidy : existing.Tidy reads) (incomingTidy : incoming.Tidy reads)
    (field : String) :
    (mergeRecords existing incoming policy mergeCustom).written field =
      match existing.written field, incoming.written field with
      | none, incoming => incoming
      | existing, none => existing
      | some existing, some incoming => some (max existing incoming) := by
  obtain ⟨-, fields, clocks⟩ := mergeRecords_live policy mergeCustom existingTidy.live
    incomingTidy.live
  simp only [SyncRecord.written, SyncRecord.fieldClock, fields, clocks, mergedFields_get,
    mergedFieldClocks_get]
  cases incomingField : incoming.fields[field]? with
  | none => cases existingField : existing.fields[field]? <;> rfl
  | some incomingValue =>
      cases existingField : existing.fields[field]? with
      | none =>
          have absent : existing.fields.contains field = false := by
            rw [Std.ExtTreeMap.contains_eq_isSome_getElem?, existingField]
            rfl
          simp [mergedClock, absent, SyncRecord.fieldClock]
      | some existingValue =>
          have present : existing.fields.contains field = true := by
            rw [Std.ExtTreeMap.contains_eq_isSome_getElem?, existingField]
            rfl
          simp [mergedClock, present, SyncRecord.fieldClock]

theorem mergeRecords_fields (existingTidy : existing.Tidy reads) (incomingTidy : incoming.Tidy reads)
    (field : String) :
    (mergeRecords existing incoming policy mergeCustom).fields[field]? =
      match incoming.fields[field]? with
      | none => existing.fields[field]?
      | some value => some (mergeField (policy field) field existing.fields[field]? value
          (fieldNewer existing incoming field) mergeCustom) :=
  mergeRecords_field policy mergeCustom existingTidy.live incomingTidy.live field

theorem mergeRecords_items (existingTidy : existing.Tidy reads) (incomingTidy : incoming.Tidy reads)
    {field : String} (append : policy field = .appendOnly) (value : FieldValue) :
    (opItems (mergeRecords existing incoming policy mergeCustom).fields[field]?).any
        (·.partialEq value) = true ↔
      (opItems existing.fields[field]?).any (·.partialEq value) = true ∨
        (opItems incoming.fields[field]?).any (·.partialEq value) = true := by
  rw [mergeRecords_fields mergeCustom existingTidy incomingTidy]
  cases incoming.fields[field]? with
  | none => simp [opItems]
  | some incomingValue =>
      simp only [append, mergeField]
      exact pushMissing_any _ _ value

theorem mergeRecords_carries (existingTidy : existing.Tidy reads) (incomingTidy : incoming.Tidy reads)
    (content : Content) :
    (mergeRecords existing incoming policy mergeCustom).Carries policy content ↔
      existing.Carries policy content ∨ incoming.Carries policy content := by
  cases content with
  | version clock => simp only [SyncRecord.Carries, mergeRecords_clock, le_max_iff]
  | item field value =>
      simp only [SyncRecord.Carries]
      constructor
      · rintro ⟨append, holds⟩
        rcases (mergeRecords_items mergeCustom existingTidy incomingTidy append value).mp holds with
          here | here
        · exact Or.inl ⟨append, here⟩
        · exact Or.inr ⟨append, here⟩
      · rintro (⟨append, holds⟩ | ⟨append, holds⟩)
        · exact ⟨append, (mergeRecords_items mergeCustom existingTidy incomingTidy append
            value).mpr (Or.inl holds)⟩
        · exact ⟨append, (mergeRecords_items mergeCustom existingTidy incomingTidy append
            value).mpr (Or.inr holds)⟩
  | write field clock =>
      simp only [SyncRecord.Carries, mergeRecords_written mergeCustom existingTidy incomingTidy]
      cases existing.written field <;> cases incoming.written field <;> simp

theorem mergeField_floats (keeps : KeepsContent policy) {holds : UInt64 → Bool} {field : String}
    {existing : Option FieldValue} {incoming : FieldValue} {newer : Bool}
    (existingFloats : ∀ value, existing = some value → value.floats holds = true)
    (incomingFloats : incoming.floats holds = true) :
    (mergeField (policy field) field existing incoming newer mergeCustom).floats holds = true := by
  rcases keeps field with lww | append
  · rw [lww]
    cases newer with
    | true => exact incomingFloats
    | false =>
        cases existing with
        | none => exact incomingFloats
        | some value => exact existingFloats value rfl
  · rw [append]
    refine (FieldValue.floatsItems_iff _).mpr (pushMissing_forall (opItems_floats existingFloats) ?_)
    exact opItems_floats (by rintro found ⟨⟩; exact incomingFloats)

theorem mergeField_shallow (keeps : KeepsContent policy) {field : String}
    {existing : Option FieldValue} {incoming : FieldValue} {newer : Bool}
    (existingShallow : ∀ value, existing = some value → value.Shallow)
    (incomingShallow : incoming.Shallow) :
    (mergeField (policy field) field existing incoming newer mergeCustom).Shallow := by
  rcases keeps field with lww | append
  · rw [lww]
    cases newer with
    | true => exact incomingShallow
    | false =>
        cases existing with
        | none => exact incomingShallow
        | some value => exact existingShallow value rfl
  · rw [append]
    refine pushMissing_forall ?_ incomingShallow
    cases existing with
    | none => simp [opItems]
    | some value => exact existingShallow value rfl

theorem mergeRecords_tidy (keeps : KeepsContent policy) (existingTidy : existing.Tidy reads)
    (incomingTidy : incoming.Tidy reads) :
    (mergeRecords existing incoming policy mergeCustom).Tidy reads := by
  have stamped := mergeRecords_stamped policy mergeCustom existingTidy.live incomingTidy.live
    existingTidy.stamped
  have merged : ∀ holds : FieldValue → Prop,
      (∀ (field : String) (value : FieldValue), existing.fields[field]? = some value →
        holds value) →
      (∀ (field : String) (value : FieldValue), incoming.fields[field]? = some value →
        holds (mergeField (policy field) field existing.fields[field]? value
          (fieldNewer existing incoming field) mergeCustom)) →
      ∀ (field : String) (value : FieldValue),
        (mergeRecords existing incoming policy mergeCustom).fields[field]? = some value →
          holds value := by
    intro holds kept taken field value found
    rw [mergeRecords_fields mergeCustom existingTidy incomingTidy] at found
    cases incomingField : incoming.fields[field]? with
    | none =>
        rw [incomingField] at found
        exact kept field value found
    | some incomingValue =>
        simp only [incomingField, Option.some.injEq] at found
        rw [← found]
        exact taken field incomingValue incomingField
  refine ⟨(mergeRecords_live policy mergeCustom existingTidy.live incomingTidy.live).1, stamped,
    ?_, ?_, ?_, ?_⟩
  · exact merged (fun value => value.finite = true) existingTidy.finite fun field value found =>
      mergeField_floats mergeCustom keeps (existingTidy.finite field)
        (incomingTidy.finite field value found)
  · exact merged (fun value => value.floats reads = true) existingTidy.exact
      fun field value found => mergeField_floats mergeCustom keeps (existingTidy.exact field)
        (incomingTidy.exact field value found)
  · exact merged FieldValue.Shallow existingTidy.shallow fun field value found =>
      mergeField_shallow mergeCustom keeps (existingTidy.shallow field)
        (incomingTidy.shallow field value found)
  · intro field clock found
    rw [mergeRecords_clock]
    have present : (mergeRecords existing incoming policy mergeCustom).fields[field]?.isSome :=
      (stamped field).symm.trans (by rw [found]; rfl)
    obtain ⟨value, held⟩ := Option.isSome_iff_exists.mp present
    have date : (mergeRecords existing incoming policy mergeCustom).written field =
        some clock := by
      simp only [SyncRecord.written, held, SyncRecord.fieldClock, found, Option.map_some,
        Option.getD_some]
    rw [mergeRecords_written mergeCustom existingTidy incomingTidy] at date
    have left : ∀ date, existing.written field = some date →
        date.counter ≤ (max existing.clock incoming.clock).counter := by
      intro date known
      obtain ⟨_, -, rfl⟩ := Option.map_eq_some_iff.mp known
      exact (existingTidy.fieldClock_counter field).trans
        (LamportClock.counter_le (le_max_left _ _))
    have right : ∀ date, incoming.written field = some date →
        date.counter ≤ (max existing.clock incoming.clock).counter := by
      intro date known
      obtain ⟨_, -, rfl⟩ := Option.map_eq_some_iff.mp known
      exact (incomingTidy.fieldClock_counter field).trans
        (LamportClock.counter_le (le_max_right _ _))
    cases existingDate : existing.written field with
    | none =>
        rw [existingDate] at date
        exact right clock date
    | some existingWritten =>
        cases incomingDate : incoming.written field with
        | none =>
            rw [existingDate, incomingDate] at date
            exact left clock (existingDate.trans date)
        | some incomingWritten =>
            simp only [existingDate, incomingDate, Option.some.injEq] at date
            rcases max_choice existingWritten incomingWritten with chosen | chosen
            · rw [← date, chosen]
              exact left _ existingDate
            · rw [← date, chosen]
              exact right _ incomingDate

theorem mergeRecords_id (existingTidy : existing.Tidy reads) (incomingTidy : incoming.Tidy reads) :
    (mergeRecords existing incoming policy mergeCustom).schema = existing.schema ∧
      (mergeRecords existing incoming policy mergeCustom).entity = existing.entity ∧
      (mergeRecords existing incoming policy mergeCustom).id = existing.id := by
  simp [mergeRecords, existingTidy.live, incomingTidy.live]

end Merge

end LibreSync
