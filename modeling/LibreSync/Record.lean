import LibreSync.State

/-!
Logical records: field values, the field clocks derived on write, the entry
keys under which records are stored, and the record operations over `State`.
-/

namespace LibreSync

/-- A map is its list of items in key order; a float is its bit pattern. -/
inductive FieldValue where
  | null
  | bool (value : Bool)
  | i64 (value : Int)
  | f64 (bits : UInt64)
  | string (value : String)
  | bytes (value : List UInt8)
  | list (items : List FieldValue)
  | map (items : List (String × FieldValue))
deriving Repr, Inhabited

namespace FieldValue

mutual
def decEq : (left right : FieldValue) → Decidable (left = right)
  | .null, .null => isTrue rfl
  | .bool left, .bool right => decidable_of_iff (left = right) (by simp)
  | .i64 left, .i64 right => decidable_of_iff (left = right) (by simp)
  | .f64 left, .f64 right => decidable_of_iff (left = right) (by simp)
  | .string left, .string right => decidable_of_iff (left = right) (by simp)
  | .bytes left, .bytes right => decidable_of_iff (left = right) (by simp)
  | .list left, .list right =>
      have := decEqItems left right
      decidable_of_iff (left = right) (by simp)
  | .map left, .map right =>
      have := decEqMap left right
      decidable_of_iff (left = right) (by simp)
  | .null, .bool _ | .null, .i64 _ | .null, .f64 _ | .null, .string _ | .null, .bytes _
  | .null, .list _ | .null, .map _ | .bool _, .null | .bool _, .i64 _ | .bool _, .f64 _
  | .bool _, .string _ | .bool _, .bytes _ | .bool _, .list _ | .bool _, .map _
  | .i64 _, .null | .i64 _, .bool _ | .i64 _, .f64 _ | .i64 _, .string _ | .i64 _, .bytes _
  | .i64 _, .list _ | .i64 _, .map _ | .f64 _, .null | .f64 _, .bool _ | .f64 _, .i64 _
  | .f64 _, .string _ | .f64 _, .bytes _ | .f64 _, .list _ | .f64 _, .map _
  | .string _, .null | .string _, .bool _ | .string _, .i64 _ | .string _, .f64 _
  | .string _, .bytes _ | .string _, .list _ | .string _, .map _
  | .bytes _, .null | .bytes _, .bool _ | .bytes _, .i64 _ | .bytes _, .f64 _
  | .bytes _, .string _ | .bytes _, .list _ | .bytes _, .map _
  | .list _, .null | .list _, .bool _ | .list _, .i64 _ | .list _, .f64 _
  | .list _, .string _ | .list _, .bytes _ | .list _, .map _
  | .map _, .null | .map _, .bool _ | .map _, .i64 _ | .map _, .f64 _
  | .map _, .string _ | .map _, .bytes _ | .map _, .list _ => isFalse (by simp)

def decEqItems : (left right : List FieldValue) → Decidable (left = right)
  | [], [] => isTrue rfl
  | [], _ :: _ | _ :: _, [] => isFalse (by simp)
  | left :: lefts, right :: rights =>
      have := decEq left right
      have := decEqItems lefts rights
      decidable_of_iff (left = right ∧ lefts = rights) (by simp)

def decEqMap : (left right : List (String × FieldValue)) → Decidable (left = right)
  | [], [] => isTrue rfl
  | [], _ :: _ | _ :: _, [] => isFalse (by simp)
  | (leftKey, left) :: lefts, (rightKey, right) :: rights =>
      have := decEq left right
      have := decEqMap lefts rights
      decidable_of_iff ((leftKey = rightKey ∧ left = right) ∧ lefts = rights) (by simp)
end

instance : DecidableEq FieldValue := decEq

/-- IEEE 754 equality of doubles: no NaN equals anything, both zeros are equal. -/
def f64Eq (left right : UInt64) : Bool :=
  let magnitude := fun bits : UInt64 => bits &&& 0x7FFFFFFFFFFFFFFF
  magnitude left ≤ 0x7FF0000000000000 && magnitude right ≤ 0x7FF0000000000000 &&
    (left == right || magnitude left == 0 && magnitude right == 0)

mutual
def partialEq : FieldValue → FieldValue → Bool
  | .null, .null => true
  | .bool left, .bool right => left == right
  | .i64 left, .i64 right => left == right
  | .f64 left, .f64 right => f64Eq left right
  | .string left, .string right => left == right
  | .bytes left, .bytes right => left == right
  | .list left, .list right => partialEqItems left right
  | .map left, .map right => partialEqMap left right
  | _, _ => false

def partialEqItems : List FieldValue → List FieldValue → Bool
  | [], [] => true
  | left :: lefts, right :: rights => partialEq left right && partialEqItems lefts rights
  | _, _ => false

def partialEqMap : List (String × FieldValue) → List (String × FieldValue) → Bool
  | [], [] => true
  | (leftKey, left) :: lefts, (rightKey, right) :: rights =>
      leftKey == rightKey && partialEq left right && partialEqMap lefts rights
  | _, _ => false
end

def f64Finite (bits : UInt64) : Bool :=
  bits &&& 0x7FFFFFFFFFFFFFFF < 0x7FF0000000000000

mutual
def floats (holds : UInt64 → Bool) : FieldValue → Bool
  | .f64 bits => holds bits
  | .list items => floatsItems holds items
  | .map items => floatsMap holds items
  | _ => true

def floatsItems (holds : UInt64 → Bool) : List FieldValue → Bool
  | [] => true
  | item :: rest => floats holds item && floatsItems holds rest

def floatsMap (holds : UInt64 → Bool) : List (String × FieldValue) → Bool
  | [] => true
  | (_, item) :: rest => floats holds item && floatsMap holds rest
end

abbrev finite (value : FieldValue) : Bool := value.floats f64Finite

mutual
/-- How deep the JSON of the value nests: an object for the tag, and a container for the content. -/
def depth : FieldValue → Nat
  | .bytes _ => 2
  | .list items => depthItems items + 2
  | .map items => depthMap items + 2
  | _ => 1

def depthItems : List FieldValue → Nat
  | [] => 0
  | item :: rest => max (depth item) (depthItems rest)

def depthMap : List (String × FieldValue) → Nat
  | [] => 0
  | (_, item) :: rest => max (depth item) (depthMap rest)
end

def partialEqOption : Option FieldValue → Option FieldValue → Bool
  | none, none => true
  | some left, some right => partialEq left right
  | _, _ => false

end FieldValue

structure SyncRecord where
  schema : String
  entity : String
  id : String
  fields : BTreeMap String FieldValue
  tombstone : Bool
  clock : LamportClock
  updatedAt : Option Nat
  fieldClocks : BTreeMap String LamportClock
deriving DecidableEq

namespace SyncRecord

def fieldClock (record : SyncRecord) (field : String) : LamportClock :=
  record.fieldClocks[field]?.getD record.clock

/-- The clock `stamp_field_clocks` gives a field that carries none. -/
def inheritedClock (record : SyncRecord) (existing : Option SyncRecord) (field : String) :
    LamportClock :=
  match existing with
  | some existing =>
      if existing.tombstone then record.clock
      else if FieldValue.partialEqOption existing.fields[field]? record.fields[field]? then
        existing.fieldClock field
      else record.clock
  | none => record.clock

def stampFieldClocks (record : SyncRecord) (existing : Option SyncRecord) : SyncRecord :=
  let clocks := record.fields.toList.foldl (fun clocks item =>
    clocks.insert item.1 (clocks[item.1]?.getD (record.inheritedClock existing item.1)))
    record.fieldClocks
  { record with fieldClocks := clocks.filter fun field _ => record.fields.contains field }

end SyncRecord

inductive MergePolicy where
  | lastWriterWins
  | setUnion
  | counter
  | listAppend
  | appendOnly
  | custom (name : String)
deriving DecidableEq, Repr

structure RecordPayload where
  fields : BTreeMap String FieldValue
  tombstone : Bool
  updatedAt : Option Nat
  fieldClocks : BTreeMap String LamportClock
deriving DecidableEq

def RecordPayload.floats (holds : UInt64 → Bool) (payload : RecordPayload) : Bool :=
  payload.fields.toList.all fun item => item.2.floats holds

abbrev RecordPayload.finite (payload : RecordPayload) : Bool := payload.floats FieldValue.f64Finite

/-- `serde_json` refuses to read containers that nest this deep. -/
def recursionLimit : Nat := 128

def RecordPayload.readable (payload : RecordPayload) : Bool :=
  payload.finite && payload.fields.toList.all fun item => item.2.depth + 2 < recursionLimit

class PayloadCodec (V : Type) where
  toVec : RecordPayload → V
  fromSlice : V → Except Error RecordPayload

def PayloadCodec.ReadsBack (V : Type) [PayloadCodec V] (payload : RecordPayload) : Prop :=
  fromSlice (toVec payload : V) = .ok payload

/-- A payload that nests below the limit is read back if each float in it is. `serde_json` is built
without its feature `float_roundtrip`, which leaves finite floats that it reads as another. -/
class LawfulPayloadCodec (V : Type) extends PayloadCodec V where
  readsFloat : UInt64 → Bool
  readsBack : ∀ payload, payload.readable = true → payload.floats readsFloat = true →
    PayloadCodec.ReadsBack V payload

structure RecordPayload.Lossless (V : Type) [LawfulPayloadCodec V] (payload : RecordPayload) :
    Prop where
  readable : payload.readable = true
  exact : payload.floats (LawfulPayloadCodec.readsFloat V) = true

theorem RecordPayload.Lossless.readsBack {V : Type} [LawfulPayloadCodec V]
    {payload : RecordPayload} (lossless : payload.Lossless V) : PayloadCodec.ReadsBack V payload :=
  LawfulPayloadCodec.readsBack payload lossless.readable lossless.exact

instance : LawfulPayloadCodec RecordPayload where
  toVec := id
  fromSlice := Except.ok
  readsFloat _ := true
  readsBack _ _ _ := rfl

structure RecordKeyParts where
  keyNamespace : String
  schema : String
  entity : String
  id : String
deriving DecidableEq, Repr

namespace Record

def recordPrefix : String := "record"

def unreserved (byte : UInt8) : Bool :=
  (0x41 ≤ byte && byte ≤ 0x5A) || (0x61 ≤ byte && byte ≤ 0x7A) || (0x30 ≤ byte && byte ≤ 0x39) ||
    byte == 0x2D || byte == 0x5F || byte == 0x2E || byte == 0x7E

def hexDigit (nibble : UInt8) : Char :=
  Char.ofNat (if nibble < 10 then 0x30 + nibble.toNat else 0x37 + nibble.toNat)

def escapeByte (byte : UInt8) : List Char :=
  if unreserved byte then [Char.ofNat byte.toNat]
  else ['%', hexDigit (byte / 16), hexDigit (byte % 16)]

def escapeComponent (input : String) : String :=
  String.ofList (input.toByteArray.data.toList.flatMap escapeByte)

def hexValue (digit : UInt8) : Option UInt8 :=
  if 0x30 ≤ digit && digit ≤ 0x39 then some (digit - 0x30)
  else if 0x41 ≤ digit && digit ≤ 0x46 then some (digit - 0x37)
  else if 0x61 ≤ digit && digit ≤ 0x66 then some (digit - 0x57)
  else none

/-- `u8::from_str_radix` on two bytes, which accepts a leading plus sign. -/
def fromStrRadix (hi lo : UInt8) : Option UInt8 :=
  if hi == 0x2B then hexValue lo
  else match hexValue hi, hexValue lo with
    | some high, some low => some (high * 16 + low)
    | _, _ => none

def unescapeBytes : List UInt8 → Except Error (List UInt8)
  | [] => .ok []
  | 0x25 :: hi :: lo :: rest =>
      match fromStrRadix hi lo with
      | none => .error (.protocol "invalid escape sequence")
      | some value => (unescapeBytes rest).map (value :: ·)
  | byte :: rest =>
      if byte == 0x25 then .error (.protocol "invalid escape sequence")
      else (unescapeBytes rest).map (byte :: ·)

def unescapeComponent (input : String) : Except Error String :=
  match unescapeBytes input.toByteArray.data.toList with
  | .error error => .error error
  | .ok bytes =>
      match String.fromUTF8? ⟨bytes.toArray⟩ with
      | some text => .ok text
      | none => .error (.protocol "invalid utf-8 in record key")

def recordEntryKey (keyNamespace schema entity id : String) : String :=
  String.ofList (recordPrefix.toList ++ ':' :: (escapeComponent keyNamespace).toList ++
    ':' :: (escapeComponent schema).toList ++ ':' :: (escapeComponent entity).toList ++
    ':' :: (escapeComponent id).toList)

/-- `splitn(parts, ':')` on characters. -/
def splitColon : Nat → List Char → List (List Char)
  | 0, _ => []
  | 1, text => [text]
  | parts + 2, text =>
      match text.span (· ≠ ':') with
      | (component, []) => [component]
      | (component, _ :: rest) => component :: splitColon (parts + 1) rest

def parseRecordKey (key : String) : Except Error (Option RecordKeyParts) :=
  if ¬recordPrefix.toList <+: key.toList then .ok none
  else
    match (splitColon 5 key.toList).map String.ofList with
    | [] => .ok none
    | keyPrefix :: components =>
        if keyPrefix ≠ recordPrefix then .ok none
        else match components with
          | [] => .error (.protocol "record key missing namespace")
          | [_] => .error (.protocol "record key missing schema")
          | [_, _] => .error (.protocol "record key missing entity")
          | [_, _, _] => .error (.protocol "record key missing id")
          | keyNamespace :: schema :: entity :: id :: _ => do
              let keyNamespace ← unescapeComponent keyNamespace
              let schema ← unescapeComponent schema
              let entity ← unescapeComponent entity
              let id ← unescapeComponent id
              return some { keyNamespace, schema, entity, id }

end Record

section Operations

open Record

variable {V : Type} [PayloadCodec V]

def SyncRecord.payload (record : SyncRecord) : RecordPayload where
  fields := record.fields
  tombstone := record.tombstone
  updatedAt := record.updatedAt
  fieldClocks := record.fieldClocks

def recordToEntry (keyNamespace : String) (record : SyncRecord) : Entry V where
  key := recordEntryKey keyNamespace record.schema record.entity record.id
  value := PayloadCodec.toVec record.payload
  clock := record.clock

def entryToRecord (entry : Entry V) (keyNamespace : String) : Except Error (Option SyncRecord) :=
  match parseRecordKey entry.key with
  | .error error => .error error
  | .ok none => .ok none
  | .ok (some parts) =>
      if parts.keyNamespace ≠ keyNamespace then .ok none
      else match PayloadCodec.fromSlice entry.value with
        | .error error => .error error
        | .ok payload => .ok (some {
            schema := parts.schema
            entity := parts.entity
            id := parts.id
            fields := payload.fields
            tombstone := payload.tombstone
            updatedAt := payload.updatedAt
            clock := entry.clock
            fieldClocks := payload.fieldClocks })

namespace RecordState

def get (keyNamespace : String) (state : State V) (schema entity id : String) :
    Except Error (Option SyncRecord) :=
  match state.entries[recordEntryKey keyNamespace schema entity id]? with
  | some entry => entryToRecord entry keyNamespace
  | none => .ok none

def set (keyNamespace : String) (state : State V) (record : SyncRecord) :
    Except Error (Entry V × State V) :=
  match get keyNamespace state record.schema record.entity record.id with
  | .error error => .error error
  | .ok existing =>
      let nextClock : LamportClock :=
        { counter := saturatingSucc state.counter, deviceId := state.deviceId }
      let record := { record with clock := nextClock }.stampFieldClocks existing
      .ok (state.set (recordEntryKey keyNamespace record.schema record.entity record.id)
        (PayloadCodec.toVec record.payload))

def apply (keyNamespace : String) (state : State V) (record : SyncRecord) :
    Except Error (Bool × State V) :=
  match get keyNamespace state record.schema record.entity record.id with
  | .error error => .error error
  | .ok existing =>
      if existing.any fun existing => record.clock ≤ existing.clock then .ok (false, state)
      else .ok (state.applyEntry (recordToEntry keyNamespace (record.stampFieldClocks existing)))

def upsert [DecidableEq V] (keyNamespace : String) (state : State V) (record : SyncRecord) :
    Except Error (Bool × State V) :=
  match get keyNamespace state record.schema record.entity record.id with
  | .error error => .error error
  | .ok existing =>
      .ok (state.upsertEntry (recordToEntry keyNamespace (record.stampFieldClocks existing)))

end RecordState

def RecordView.snapshot (keyNamespace : String) (state : State V) :
    Except Error (List SyncRecord) :=
  state.snapshot.foldlM (fun records entry => do
    match ← entryToRecord entry keyNamespace with
    | some record => return records ++ [record]
    | none => return records) []

end Operations

end LibreSync
