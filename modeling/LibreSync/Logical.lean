import LibreSync.Record

/-! Field-level merge of logical records. -/

namespace LibreSync

def insertItem (items : List (String × FieldValue)) (key : String) (value : FieldValue) :
    List (String × FieldValue) :=
  match items with
  | [] => [(key, value)]
  | item :: rest =>
      if key < item.1 then (key, value) :: item :: rest
      else if key = item.1 then (key, value) :: rest
      else item :: insertItem rest key value

def pushMissing (left right : List FieldValue) : List FieldValue :=
  right.foldl (fun left item =>
    if left.any (FieldValue.partialEq · item) then left else left ++ [item]) left

/-- The items an op-log field stands for. -/
def opItems : Option FieldValue → List FieldValue
  | some (.list items) => items
  | some .null => []
  | none => []
  | some other => [other]

abbrev CustomMerge :=
  String → String → Option FieldValue → FieldValue → Bool → Option FieldValue

def counterItem (incomingNewer : Bool) (existing : Option FieldValue) (incoming : FieldValue) :
    FieldValue :=
  match existing, incoming with
  | some (.i64 existing), .i64 incoming => .i64 (max existing incoming)
  | some existing, incoming => if incomingNewer then incoming else existing
  | none, incoming => incoming

def mergeField (policy : MergePolicy) (field : String) (existing : Option FieldValue)
    (incoming : FieldValue) (incomingNewer : Bool) (mergeCustom : CustomMerge) : FieldValue :=
  match policy with
  | .lastWriterWins => if incomingNewer then incoming else existing.getD incoming
  | .setUnion =>
      match existing, incoming with
      | some (.list left), .list right => .list (pushMissing left right)
      | some (.map left), .map right =>
          .map (right.foldl (fun left item =>
            match left.lookup item.1 with
            | some _ => left
            | none => insertItem left item.1 item.2) left)
      | some value, incoming => if incomingNewer then incoming else value
      | none, incoming => incoming
  | .counter =>
      match existing, incoming with
      | some (.map left), .map right =>
          .map (right.foldl (fun left item =>
            insertItem left item.1 (counterItem incomingNewer (left.lookup item.1) item.2)) left)
      | some (.i64 existing), .i64 incoming =>
          if incomingNewer then .i64 incoming else .i64 existing
      | some value, incoming => if incomingNewer then incoming else value
      | none, incoming => incoming
  | .listAppend =>
      match existing, incoming with
      | some (.list left), .list right => .list (pushMissing left right)
      | some value, incoming => if incomingNewer then incoming else value
      | none, incoming => incoming
  | .appendOnly => .list (pushMissing (opItems existing) (opItems (some incoming)))
  | .custom policyName =>
      match mergeCustom policyName field existing incoming incomingNewer with
      | some merged => merged
      | none => if incomingNewer then incoming else existing.getD incoming

section MergeRecords

variable (existing incoming : SyncRecord) (policyForField : String → MergePolicy)
  (mergeCustom : CustomMerge)

def fieldNewer (field : String) : Bool :=
  match existing.fields[field]? with
  | some _ => existing.fieldClock field ≤ incoming.fieldClock field
  | none => true

def mergedClock (field : String) : LamportClock :=
  if existing.fields.contains field then max (existing.fieldClock field) (incoming.fieldClock field)
  else incoming.fieldClock field

def mergedFields : BTreeMap String FieldValue :=
  incoming.fields.toList.foldl (fun fields item =>
    fields.insert item.1 (mergeField (policyForField item.1) item.1 fields[item.1]? item.2
      (fieldNewer existing incoming item.1) mergeCustom)) existing.fields

def mergedFieldClocks : BTreeMap String LamportClock :=
  let fieldClocks := existing.fields.toList.foldl (fun clocks item =>
    clocks.insert item.1 (clocks[item.1]?.getD existing.clock)) existing.fieldClocks
  incoming.fields.toList.foldl (fun clocks item =>
    clocks.insert item.1 (mergedClock existing incoming item.1)) fieldClocks

def mergedUpdatedAt : Option Nat → Option Nat → Option Nat
  | some left, some right => some (max left right)
  | some left, none => some left
  | none, some right => some right
  | none, none => none

def mergeRecords : SyncRecord :=
  let incomingNewer := existing.clock ≤ incoming.clock
  if existing.tombstone ≠ incoming.tombstone then if incomingNewer then incoming else existing
  else if existing.tombstone && incoming.tombstone then
    if incomingNewer then incoming else existing
  else
    { schema := existing.schema
      entity := existing.entity
      id := existing.id
      fields := mergedFields existing incoming policyForField mergeCustom
      tombstone := false
      clock := max existing.clock incoming.clock
      updatedAt := mergedUpdatedAt existing.updatedAt incoming.updatedAt
      fieldClocks := mergedFieldClocks existing incoming }

theorem mergedFields_get (field : String) :
    (mergedFields existing incoming policyForField mergeCustom)[field]? =
      match incoming.fields[field]? with
      | none => existing.fields[field]?
      | some value => some (mergeField (policyForField field) field existing.fields[field]? value
          (fieldNewer existing incoming field) mergeCustom) := by
  have folded := BTreeMap.get_foldl_insert (fun field existingValue value =>
    mergeField (policyForField field) field existingValue value
      (fieldNewer existing incoming field) mergeCustom) incoming.fields existing.fields field
  simp only [mergedFields, folded]
  cases incoming.fields[field]? <;> rfl

theorem mergedFieldClocks_get (field : String) :
    (mergedFieldClocks existing incoming)[field]? =
      match incoming.fields[field]? with
      | none =>
          match existing.fields[field]? with
          | none => existing.fieldClocks[field]?
          | some _ => some (existing.fieldClock field)
      | some _ => some (mergedClock existing incoming field) := by
  simp only [mergedFieldClocks]
  rw [BTreeMap.get_foldl_insert (fun field _ _ => mergedClock existing incoming field),
    BTreeMap.get_foldl_insert (fun _ clock _ => clock.getD existing.clock)]
  cases incoming.fields[field]? <;> cases existing.fields[field]? <;> rfl

end MergeRecords

section ApplySnapshot

variable {V : Type} [DecidableEq V] [PayloadCodec V]

/-- The state keeps what was merged before an error. -/
def applySnapshotWithPolicy (keyNamespace : String) (policyForField : String → MergePolicy)
    (mergeCustom : CustomMerge) :
    List SyncRecord → State V → Except Error Nat × State V
  | [], state => (.ok 0, state)
  | record :: rest, state =>
      match RecordState.get keyNamespace state record.schema record.entity record.id with
      | .error error => (.error error, state)
      | .ok found =>
          let merged := match found with
            | some existing => mergeRecords existing record policyForField mergeCustom
            | none => record
          match RecordState.upsert keyNamespace state merged with
          | .error error => (.error error, state)
          | .ok (changed, state) =>
              match applySnapshotWithPolicy keyNamespace policyForField mergeCustom rest state with
              | (.ok applied, state) => (.ok (applied + changed.toNat), state)
              | (.error error, state) => (.error error, state)

end ApplySnapshot

end LibreSync
