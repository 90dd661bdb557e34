import LibreSync.RecordEdit
import LibreSync.Lib.Json

/-!
The JSON of field values and record payloads, as the derived serializers write
it and the derived deserializers read it, and the records that come back.
-/

namespace LibreSync

open Record

def ReadIf {α : Type} (condition : Bool) (result : Except Error α) (value : α) : Prop :=
  if condition then result = .ok value else ∃ error, result = .error error

namespace ReadIf

variable {α β : Type} {first second : Bool} {result : Except Error α} {value : α} {final : β}

theorem bind {next : α → Except Error β} (read : ReadIf first result value)
    (rest : ReadIf second (next value) final) :
    ReadIf (first && second) (result.bind next) final := by
  cases first with
  | true =>
      obtain rfl : result = .ok value := read
      exact rest
  | false =>
      obtain ⟨error, rfl⟩ : ∃ error, result = .error error := read
      exact ⟨error, rfl⟩

theorem map {build : α → β} (read : ReadIf first result value) :
    ReadIf first (result.map build) (build value) := by
  cases first with
  | true =>
      obtain rfl : result = .ok value := read
      rfl
  | false =>
      obtain ⟨error, rfl⟩ : ∃ error, result = .error error := read
      exact ⟨error, rfl⟩

theorem ok_iff (read : ReadIf first result value) : result = .ok value ↔ first = true := by
  cases first with
  | true => exact iff_of_true read rfl
  | false =>
      obtain ⟨error, rfl⟩ : ∃ error, result = .error error := read
      simp

end ReadIf

namespace FieldValue

/-- A variant that holds something, tagged by `type` next to its `value`. -/
def tagged (tag : String) (content : Json) : Json :=
  .object [("type", .string tag), ("value", content)]

/-- `serialize_f64`: a float that is not finite is written as `null`. -/
def floatJson (bits : UInt64) : Json :=
  if finite : f64Finite bits = true then .number (.float ⟨bits, finite⟩) else .null

def byteJson (byte : UInt8) : Json := .number (.int byte.toNat)

mutual
def toJson : FieldValue → Json
  | .null => .object [("type", .string "Null")]
  | .bool value => tagged "Bool" (.bool value)
  | .i64 value => tagged "I64" (.number (.int value))
  | .f64 bits => tagged "F64" (floatJson bits)
  | .string value => tagged "String" (.string value)
  | .bytes value => tagged "Bytes" (.array (value.map byteJson))
  | .list items => tagged "List" (.array (toJsonItems items))
  | .map items => tagged "Map" (.object (toJsonMap items))

def toJsonItems : List FieldValue → List Json
  | [] => []
  | item :: rest => toJson item :: toJsonItems rest

def toJsonMap : List (String × FieldValue) → List (String × Json)
  | [] => []
  | (key, item) :: rest => (key, toJson item) :: toJsonMap rest
end

def invalid {α : Type} (message : String) : Except Error α := .error (.serde message)

def byteOfJson : Json → Except Error UInt8
  | .number (.int value) =>
      if 0 ≤ value ∧ value < 256 then .ok (UInt8.ofNat value.toNat) else invalid "expected u8"
  | _ => invalid "expected u8"

def bytesOfJson : List Json → Except Error (List UInt8)
  | [] => .ok []
  | item :: rest => (byteOfJson item).bind fun byte => (bytesOfJson rest).map (byte :: ·)

def scalarOfJson (tag : String) (content : Json) : Except Error FieldValue :=
  match tag, content with
  | "Null", .null => .ok .null
  | "Bool", .bool value => .ok (.bool value)
  | "I64", .number (.int value) => .ok (.i64 value)
  | "F64", .number (.float bits) => .ok (.f64 bits.1)
  | "F64", .number (.int value) => .ok (.f64 (Float.ofInt value).toBits)
  | "F64", .number (.big value) => .ok (.f64 (Float.ofNat value).toBits)
  | "String", .string value => .ok (.string value)
  | "Bytes", .array items => (bytesOfJson items).map .bytes
  | _, _ => invalid "invalid type"

def tagOf (members : List (String × Json)) : Except Error String :=
  match members.lookup "type" with
  | some (.string tag) => .ok tag
  | some _ => invalid "invalid type, expected variant identifier"
  | none => invalid "missing field type"

mutual
def ofJson : Json → Except Error FieldValue
  | .object members =>
      match tagOf members with
      | .error error => .error error
      | .ok tag => ofMembers tag members
  | .array [.string tag, content] => ofContent tag content
  | _ => invalid "expected adjacently tagged enum FieldValue"

def ofMembers (tag : String) : List (String × Json) → Except Error FieldValue
  | [] => if tag = "Null" then .ok .null else invalid "missing field value"
  | (key, content) :: rest =>
      if key = "value" then ofContent tag content else ofMembers tag rest

def ofContent (tag : String) : Json → Except Error FieldValue
  | .array items =>
      if tag = "List" then (ofItems items).map .list else scalarOfJson tag (.array items)
  | .object members =>
      if tag = "Map" then (ofMap members).map .map else scalarOfJson tag (.object members)
  | content => scalarOfJson tag content

def ofItems : List Json → Except Error (List FieldValue)
  | [] => .ok []
  | item :: rest => (ofJson item).bind fun item => (ofItems rest).map (item :: ·)

def ofMap : List (String × Json) → Except Error (List (String × FieldValue))
  | [] => .ok []
  | (key, item) :: rest => (ofJson item).bind fun item => (ofMap rest).map ((key, item) :: ·)
end

theorem floatJson_finite {bits : UInt64} (finite : f64Finite bits = true) :
    floatJson bits = .number (.float ⟨bits, finite⟩) := dif_pos finite

theorem floatJson_infinite {bits : UInt64} (infinite : f64Finite bits ≠ true) :
    floatJson bits = .null := dif_neg infinite

theorem byteOfJson_byteJson (byte : UInt8) : byteOfJson (byteJson byte) = .ok byte := by
  have small : byte.toNat < 256 := byte.toNat_lt
  simp only [byteJson, byteOfJson]
  rw [if_pos ⟨by omega, by omega⟩]
  simp

theorem bytesOfJson_byteJson (bytes : List UInt8) :
    bytesOfJson (bytes.map byteJson) = .ok bytes := by
  induction bytes with
  | nil => rfl
  | cons byte rest ih =>
      rw [List.map_cons, bytesOfJson, byteOfJson_byteJson, ih]
      rfl

theorem ofJson_tagged (tag : String) (content : Json) :
    ofJson (tagged tag content) = ofContent tag content := by
  simp [tagged, ofJson, tagOf, ofMembers]

mutual
/-- A value is read back from what it was written as if its floats are finite, and refused if not. -/
theorem ofJson_toJson : ∀ value : FieldValue, ReadIf value.finite (ofJson value.toJson) value
  | .null => rfl
  | .bool _ => by
      rw [toJson, ofJson_tagged]
      rfl
  | .i64 _ => by
      rw [toJson, ofJson_tagged]
      rfl
  | .f64 bits => by
      rw [toJson, ofJson_tagged]
      by_cases whole : f64Finite bits = true
      · rw [floatJson_finite whole, finite, floats, whole]
        rfl
      · rw [floatJson_infinite whole, finite, floats, Bool.eq_false_of_not_eq_true whole]
        exact ⟨_, rfl⟩
  | .string _ => by
      rw [toJson, ofJson_tagged]
      rfl
  | .bytes octets => by
      rw [toJson, ofJson_tagged]
      exact congrArg (Except.map FieldValue.bytes) (bytesOfJson_byteJson octets)
  | .list items => by
      rw [toJson, ofJson_tagged]
      exact (ofItems_toJsonItems items).map
  | .map items => by
      rw [toJson, ofJson_tagged]
      exact (ofMap_toJsonMap items).map

theorem ofItems_toJsonItems : ∀ items : List FieldValue,
    ReadIf (floatsItems f64Finite items) (ofItems (toJsonItems items)) items
  | [] => rfl
  | item :: rest => by
      rw [toJsonItems, ofItems]
      exact (ofJson_toJson item).bind (ofItems_toJsonItems rest).map

theorem ofMap_toJsonMap : ∀ items : List (String × FieldValue),
    ReadIf (floatsMap f64Finite items) (ofMap (toJsonMap items)) items
  | [] => rfl
  | (key, item) :: rest => by
      rw [toJsonMap, ofMap]
      exact (ofJson_toJson item).bind (ofMap_toJsonMap rest).map
end

mutual
theorem depth_toJson : ∀ value : FieldValue, value.toJson.depth = value.depth
  | .null => by simp [toJson, Json.depth, Json.depthMembers, depth]
  | .bool _ => by simp [toJson, tagged, Json.depth, Json.depthMembers, depth]
  | .i64 _ => by simp [toJson, tagged, Json.depth, Json.depthMembers, depth]
  | .f64 bits => by
      have flat : (floatJson bits).depth = 0 := by
        rw [floatJson]
        split <;> rfl
      simp [toJson, tagged, Json.depth, Json.depthMembers, depth, flat]
  | .string _ => by simp [toJson, tagged, Json.depth, Json.depthMembers, depth]
  | .bytes octets => by
      have flat : Json.depthItems (octets.map byteJson) = 0 := by
        rw [← Nat.le_zero, Json.depthItems_le]
        intro item member
        obtain ⟨byte, -, rfl⟩ := List.mem_map.mp member
        exact le_rfl
      simp [toJson, tagged, Json.depth, Json.depthMembers, depth, flat]
  | .list items => by
      simp [toJson, tagged, Json.depth, Json.depthMembers, depth, depth_toJsonItems items]
  | .map items => by
      simp [toJson, tagged, Json.depth, Json.depthMembers, depth, depth_toJsonMap items]

theorem depth_toJsonItems : ∀ items : List FieldValue,
    Json.depthItems (toJsonItems items) = depthItems items
  | [] => rfl
  | item :: rest => by
      simp only [toJsonItems, Json.depthItems, depthItems, depth_toJson item, depth_toJsonItems rest]

theorem depth_toJsonMap : ∀ items : List (String × FieldValue),
    Json.depthMembers (toJsonMap items) = depthMap items
  | [] => rfl
  | (key, item) :: rest => by
      simp only [toJsonMap, Json.depthMembers, depthMap, depth_toJson item, depth_toJsonMap rest]
end

section Floats

variable {reads : FiniteBits → Bool}

def passes (reads : FiniteBits → Bool) (bits : UInt64) : Bool :=
  if finite : f64Finite bits = true then reads ⟨bits, finite⟩ else true

theorem floats_floatJson (bits : UInt64) : (floatJson bits).floats reads = passes reads bits := by
  rw [floatJson, passes]
  split <;> rfl

mutual
theorem floats_toJson : ∀ value : FieldValue,
    value.toJson.floats reads = value.floats (passes reads)
  | .null | .bool _ | .i64 _ | .string _ => rfl
  | .f64 bits => by
      simp [toJson, tagged, Json.floats, Json.floatsMembers, floats, floats_floatJson]
  | .bytes octets => by
      have flat : Json.floatsItems reads (octets.map byteJson) = true := by
        rw [Json.floatsItems_iff]
        intro item member
        obtain ⟨byte, -, rfl⟩ := List.mem_map.mp member
        rfl
      simp [toJson, tagged, Json.floats, Json.floatsMembers, floats, flat]
  | .list items => by
      simp [toJson, tagged, Json.floats, Json.floatsMembers, floats, floats_toJsonItems items]
  | .map items => by
      simp [toJson, tagged, Json.floats, Json.floatsMembers, floats, floats_toJsonMap items]

theorem floats_toJsonItems : ∀ items : List FieldValue,
    Json.floatsItems reads (toJsonItems items) = floatsItems (passes reads) items
  | [] => rfl
  | item :: rest => by
      simp only [toJsonItems, Json.floatsItems, floatsItems, floats_toJson item,
        floats_toJsonItems rest]

theorem floats_toJsonMap : ∀ items : List (String × FieldValue),
    Json.floatsMembers reads (toJsonMap items) = floatsMap (passes reads) items
  | [] => rfl
  | (key, item) :: rest => by
      simp only [toJsonMap, Json.floatsMembers, floatsMap, floats_toJson item, floats_toJsonMap rest]
end

end Floats

end FieldValue

namespace LamportClock

def toJson (clock : LamportClock) : Json :=
  .object [("counter", .nat clock.counter), ("device_id", .string clock.deviceId)]

def ofParts : Option Json → Option Json → Except Error LamportClock
  | some counter, some (.string deviceId) =>
      match counter.asNat with
      | some counter => .ok {
          counter := counter
          deviceId := deviceId }
      | none => FieldValue.invalid "expected u64"
  | _, _ => FieldValue.invalid "missing field"

def ofJson : Json → Except Error LamportClock
  | .object members => ofParts (members.lookup "counter") (members.lookup "device_id")
  | .array [counter, deviceId] => ofParts (some counter) (some deviceId)
  | _ => FieldValue.invalid "expected struct LamportClock"

theorem ofJson_toJson (clock : LamportClock) : ofJson clock.toJson = .ok clock := by
  simp [toJson, ofJson, ofParts, List.lookup]

theorem depth_toJson (clock : LamportClock) : clock.toJson.depth = 1 := by
  simp [toJson, Json.depth, Json.depthMembers]

theorem floats_toJson {reads : FiniteBits → Bool} (clock : LamportClock) :
    clock.toJson.floats reads = true := by
  simp [toJson, Json.floats, Json.floatsMembers]

end LamportClock

section Maps

variable {ν : Type}

def mapJson (write : ν → Json) (map : BTreeMap String ν) : Json :=
  .object (map.toList.map fun item => (item.1, write item.2))

def insertMembers (read : Json → Except Error ν) :
    List (String × Json) → BTreeMap String ν → Except Error (BTreeMap String ν)
  | [], map => .ok map
  | (key, content) :: rest, map =>
      (read content).bind fun value => insertMembers read rest (map.insert key value)

def mapOfJson (read : Json → Except Error ν) : Json → Except Error (BTreeMap String ν)
  | .object members => insertMembers read members ∅
  | _ => FieldValue.invalid "expected a map"

theorem insertMembers_read {read : Json → Except Error ν} {write : ν → Json} {sound : ν → Bool}
    (reads : ∀ value, ReadIf (sound value) (read (write value)) value) (items : List (String × ν))
    (initial : BTreeMap String ν) :
    ReadIf (items.all fun item => sound item.2)
      (insertMembers read (items.map fun item => (item.1, write item.2)) initial)
      (items.foldl (fun map item => map.insert item.1 item.2) initial) := by
  induction items generalizing initial with
  | nil => rfl
  | cons item rest ih =>
      rw [List.map_cons, insertMembers, List.all_cons, List.foldl_cons]
      exact (reads item.2).bind (ih (initial.insert item.1 item.2))

theorem mapOfJson_mapJson {read : Json → Except Error ν} {write : ν → Json} {sound : ν → Bool}
    (reads : ∀ value, ReadIf (sound value) (read (write value)) value) (map : BTreeMap String ν) :
    ReadIf (map.toList.all fun item => sound item.2) (mapOfJson read (mapJson write map)) map := by
  have whole : map.toList.foldl (fun map item => map.insert item.1 item.2) ∅ = map := by
    refine Std.ExtTreeMap.ext_getElem? fun key => ?_
    rw [BTreeMap.get_foldl_insert fun _ _ value => value]
    cases map[key]? <;> simp
  have read := insertMembers_read reads map.toList ∅
  rw [whole] at read
  exact read

theorem depth_mapJson_le {write : ν → Json} {map : BTreeMap String ν} {bound : Nat} :
    (mapJson write map).depth ≤ bound + 1 ↔
      ∀ (key : String) (value : ν), map[key]? = some value → (write value).depth ≤ bound := by
  simp only [mapJson, Json.depth, Nat.add_le_add_iff_right, Json.depthMembers_le, List.forall_mem_map,
    Prod.forall, Std.ExtTreeMap.mem_toList_iff_getElem?_eq_some]

theorem floats_mapJson {reads : FiniteBits → Bool} {write : ν → Json} {map : BTreeMap String ν} :
    (mapJson write map).floats reads = map.toList.all fun item => (write item.2).floats reads := by
  rw [Bool.eq_iff_iff, mapJson, Json.floats, Json.floatsMembers_iff, List.forall_mem_map,
    List.all_eq_true]

end Maps

namespace RecordPayload

/-- `Serialize for RecordPayload`, which leaves out a date of `None` and clocks if there are none. -/
def toJson (payload : RecordPayload) : Json :=
  .object ((if payload.fieldClocks.isEmpty then []
      else [("field_clocks", mapJson LamportClock.toJson payload.fieldClocks)]) ++
    ("fields", mapJson FieldValue.toJson payload.fields) :: ("tombstone", .bool payload.tombstone) ::
    (payload.updatedAt.map fun updatedAt => ("updated_at", Json.nat updatedAt)).toList)

def boolOfJson : Json → Except Error Bool
  | .bool value => .ok value
  | _ => FieldValue.invalid "expected a boolean"

def dateOfJson : Json → Except Error (Option Nat)
  | .null => .ok none
  | content =>
      match content.asNat with
      | some value => .ok (some value)
      | none => FieldValue.invalid "expected u64"

def fieldOr {α : Type} (read : Json → Except Error α) (default : α) : Option Json → Except Error α
  | some content => read content
  | none => .ok default

def ofParts (fields tombstone updatedAt fieldClocks : Option Json) : Except Error RecordPayload := do
  let fields ← fieldOr (mapOfJson FieldValue.ofJson) ∅ fields
  let tombstone ← fieldOr boolOfJson false tombstone
  let updatedAt ← fieldOr dateOfJson none updatedAt
  let fieldClocks ← fieldOr (mapOfJson LamportClock.ofJson) ∅ fieldClocks
  return { fields, tombstone, updatedAt, fieldClocks }

def ofJson : Json → Except Error RecordPayload
  | .object members => ofParts (members.lookup "fields") (members.lookup "tombstone")
      (members.lookup "updated_at") (members.lookup "field_clocks")
  | .array items =>
      if items.length ≤ 4 then ofParts items[0]? items[1]? items[2]? items[3]?
      else FieldValue.invalid "expected struct RecordPayload"
  | _ => FieldValue.invalid "expected struct RecordPayload"

theorem toJson_lookup (payload : RecordPayload) : ofJson payload.toJson =
    ofParts (some (mapJson FieldValue.toJson payload.fields)) (some (.bool payload.tombstone))
      (payload.updatedAt.map Json.nat)
      (if payload.fieldClocks.isEmpty then none
        else some (mapJson LamportClock.toJson payload.fieldClocks)) := by
  rw [toJson, ofJson]
  cases payload.updatedAt <;> split <;> simp [List.lookup]

theorem ofJson_toJson (payload : RecordPayload) :
    ReadIf payload.finite (ofJson payload.toJson) payload := by
  have fields := mapOfJson_mapJson FieldValue.ofJson_toJson payload.fields
  have clocks : fieldOr (mapOfJson LamportClock.ofJson) ∅ (if payload.fieldClocks.isEmpty then none
      else some (mapJson LamportClock.toJson payload.fieldClocks)) = .ok payload.fieldClocks := by
    split
    · rename_i empty
      exact congrArg _ (Std.ExtTreeMap.isEmpty_iff.mp empty).symm
    · have each : ∀ clock : LamportClock, ReadIf true (LamportClock.ofJson clock.toJson) clock :=
        LamportClock.ofJson_toJson
      exact (mapOfJson_mapJson each payload.fieldClocks).ok_iff.mpr (by simp)
  have date : fieldOr dateOfJson none (payload.updatedAt.map Json.nat) = .ok payload.updatedAt := by
    cases payload.updatedAt with
    | none => rfl
    | some value =>
        have content : dateOfJson (Json.nat value) = .ok (some value) := by
          rw [dateOfJson]
          · simp
          · simp [Json.nat]
        exact content
  rw [toJson_lookup, ofParts, clocks, date]
  have rest : ReadIf true (Except.ok payload : Except Error RecordPayload) payload := rfl
  rw [← Bool.and_true payload.finite]
  exact fields.bind rest

theorem depth_toJson_lt (payload : RecordPayload) : payload.toJson.depth < recursionLimit ↔
    ∀ (field : String) (value : FieldValue), payload.fields[field]? = some value →
      value.depth + 2 < recursionLimit := by
  have clocks : (mapJson LamportClock.toJson payload.fieldClocks).depth ≤ 126 :=
    (depth_mapJson_le.mpr fun _ clock _ => (LamportClock.depth_toJson clock).le).trans (by omega)
  have date : ∀ content ∈ payload.updatedAt.map Json.nat, content.depth ≤ 126 := by
    intro content member
    obtain ⟨value, -, rfl⟩ := Option.map_eq_some_iff.mp member
    rw [Json.depth_nat]
    omega
  have fields : (mapJson FieldValue.toJson payload.fields).depth ≤ 126 ↔
      ∀ (field : String) (value : FieldValue), payload.fields[field]? = some value →
        value.depth ≤ 125 := by
    rw [depth_mapJson_le]
    simp only [FieldValue.depth_toJson]
  have whole : payload.toJson.depth < recursionLimit ↔
      (mapJson FieldValue.toJson payload.fields).depth ≤ 126 := by
    have below : ∀ depth : Nat, depth + 1 < recursionLimit ↔ depth ≤ 126 := by
      intro depth
      rw [recursionLimit]
      omega
    rw [toJson, Json.depth, below, Json.depthMembers_le]
    constructor
    · intro each
      exact each ("fields", mapJson FieldValue.toJson payload.fields)
        (List.mem_append_right _ List.mem_cons_self)
    · intro shallow member listed
      rw [List.mem_append, List.mem_cons, List.mem_cons] at listed
      rcases listed with first | rfl | rfl | last
      · split at first
        · simp at first
        · rw [List.mem_singleton.mp first]
          exact clocks
      · exact shallow
      · simp [Json.depth]
      · rw [Option.mem_toList, Option.map_eq_some_iff] at last
        obtain ⟨value, known, rfl⟩ := last
        exact date _ (Option.mem_map_of_mem _ known)
  rw [whole, fields, recursionLimit]
  refine forall₃_congr fun field value found => ?_
  omega

theorem floats_toJson {reads : FiniteBits → Bool} (payload : RecordPayload) :
    payload.toJson.floats reads = payload.floats (FieldValue.passes reads) := by
  have clocks : (mapJson LamportClock.toJson payload.fieldClocks).floats reads = true := by
    rw [floats_mapJson, List.all_eq_true]
    exact fun item _ => item.2.floats_toJson
  have fields : (mapJson FieldValue.toJson payload.fields).floats reads =
      payload.floats (FieldValue.passes reads) := by
    rw [floats_mapJson, RecordPayload.floats]
    simp only [FieldValue.floats_toJson]
  rw [← fields, toJson, Json.floats]
  cases payload.updatedAt <;> split <;> simp [Json.floatsMembers, Json.floats, clocks]

end RecordPayload

section Codec

variable {T : Type}

theorem RecordPayload.ofText_toText [JsonText T Error] {payload : RecordPayload}
    (text : JsonText.ReadsBack T recursionLimit payload.toJson) : ReadIf payload.readable
    ((JsonText.ofText (JsonText.toText payload.toJson : T)).bind RecordPayload.ofJson) payload := by
  have shallow : (payload.fields.toList.all fun item => item.2.depth + 2 < recursionLimit) =
      decide (payload.toJson.depth < recursionLimit) := by
    rw [Bool.eq_iff_iff, decide_eq_true_iff, payload.depth_toJson_lt]
    simp only [List.all_eq_true, decide_eq_true_eq, Prod.forall,
      Std.ExtTreeMap.mem_toList_iff_getElem?_eq_some]
  have read : ReadIf (decide (payload.toJson.depth < recursionLimit))
      (JsonText.ofText (JsonText.toText payload.toJson : T)) payload.toJson := by
    rw [ReadIf]
    simp only [decide_eq_true_eq]
    exact text
  rw [RecordPayload.readable, shallow, Bool.and_comm]
  exact read.bind payload.ofJson_toJson

instance (priority := low) textCodec [JsonText T Error] : PayloadCodec T where
  toVec payload := JsonText.toText payload.toJson
  fromSlice bytes := (JsonText.ofText bytes).bind RecordPayload.ofJson

instance (priority := low) lawfulTextCodec [LawfulJsonText T Error recursionLimit] :
    LawfulPayloadCodec T where
  readsFloat := FieldValue.passes (LawfulJsonText.readsFloat T)
  readsBack payload readable exact := by
    have text : JsonText.ReadsBack T recursionLimit payload.toJson :=
      LawfulJsonText.readsBack payload.toJson (payload.floats_toJson.trans exact)
    exact (RecordPayload.ofText_toText text).ok_iff.mpr readable

variable [JsonText T Error]
variable {keyNamespace : String} {state after : State T} {record : SyncRecord}

theorem entryToRecord_readIf (record : SyncRecord)
    (text : JsonText.ReadsBack T recursionLimit record.payload.toJson) : ReadIf record.payload.readable
    (entryToRecord (recordToEntry keyNamespace record : Entry T) keyNamespace) (some record) := by
  have read : ReadIf record.payload.readable
      (PayloadCodec.fromSlice (PayloadCodec.toVec record.payload : T)) record.payload :=
    RecordPayload.ofText_toText text
  simp only [entryToRecord, recordToEntry, parse_recordEntryKey, ne_eq, not_true, if_false]
  cases readable : record.payload.readable with
  | true =>
      rw [readable] at read
      have same : PayloadCodec.fromSlice (PayloadCodec.toVec record.payload : T) =
        .ok record.payload := read
      rw [same]
      rfl
  | false =>
      rw [readable] at read
      obtain ⟨error, refused⟩ : ∃ error, PayloadCodec.fromSlice
        (PayloadCodec.toVec record.payload : T) = .error error := read
      rw [refused]
      exact ⟨error, rfl⟩

/--
What `set` wrote is read back as it was written exactly if its floats are finite
and it nests below the limit, and otherwise no snapshot of the namespace succeeds.
-/
theorem set_reads_back_iff {entry : Entry T}
    (wrote : RecordState.set keyNamespace state record = .ok (entry, after)) :
    ∃ found, RecordState.get keyNamespace state record.schema record.entity record.id = .ok found ∧
      (JsonText.ReadsBack T recursionLimit (record.stored found state.nextClock).payload.toJson →
        (entryToRecord entry keyNamespace = .ok (some (record.stored found state.nextClock)) ↔
          record.payload.readable = true) ∧
        ∀ records, RecordView.snapshot keyNamespace state = .ok records →
          ((∃ records, RecordView.snapshot keyNamespace after = .ok records) ↔
            record.payload.readable = true)) := by
  cases got : RecordState.get keyNamespace state record.schema record.entity record.id with
  | error error => simp [RecordState.set, got] at wrote
  | ok found =>
      rw [set_eq got] at wrote
      obtain ⟨rfl, rfl⟩ := Prod.mk.inj (Except.ok.inj wrote)
      refine ⟨found, rfl, fun text => ?_⟩
      have read : ReadIf record.payload.readable (entryToRecord (recordToEntry keyNamespace
          (record.stored found state.nextClock) : Entry T) keyNamespace) _ :=
        entryToRecord_readIf (record.stored found state.nextClock) text
      refine ⟨read.ok_iff, fun records before => ?_⟩
      rw [snapshot_recordsOf] at before
      have old := recordsOf_ok_iff.mp ⟨records, before⟩
      rw [snapshot_recordsOf, recordsOf_ok_iff]
      constructor
      · intro each
        obtain ⟨other, decoded⟩ := each _ (BTreeMap.mem_valueList.mpr ⟨_, by
          rw [State.insertEntry_entries]
          exact if_pos rfl⟩)
        by_contra unreadable
        rw [Bool.eq_false_of_not_eq_true unreadable] at read
        obtain ⟨error, refused⟩ := read
        exact absurd (refused.symm.trans decoded) (by simp)
      · intro readable other member
        obtain ⟨key, present⟩ := BTreeMap.mem_valueList.mp member
        rw [State.insertEntry_entries] at present
        split at present
        · rw [← Option.some.inj present]
          exact ⟨_, read.ok_iff.mpr readable⟩
        · exact old other (BTreeMap.mem_valueList.mpr ⟨key, present⟩)

end Codec

section Sample

instance : JsonText Json Error where
  toText := id
  ofText json :=
    if json.depth < recursionLimit then .ok json else .error (.serde "recursion limit exceeded")

theorem readsBack_json (json : Json) : JsonText.ReadsBack Json recursionLimit json := by
  rw [JsonText.ReadsBack]
  split
  · rename_i shallow
    exact if_pos shallow
  · rename_i deep
    exact ⟨_, if_neg deep⟩

instance : LawfulJsonText Json Error recursionLimit where
  readsFloat _ := true
  readsBack json _ := readsBack_json json

def measuredNote (weight : UInt64) : SyncRecord where
  schema := "notes"
  entity := "note"
  id := "1"
  fields := (∅ : BTreeMap String FieldValue).insert "weight" (.f64 weight)
  tombstone := false
  clock := {
    counter := 0
    deviceId := "" }
  updatedAt := none
  fieldClocks := ∅

def measured (weight : UInt64) : Except Error (Entry Json × State Json) :=
  RecordState.set "app" (State.new "desk" "first") (measuredNote weight)

def measuredDesk (weight : UInt64) : State Json :=
  match measured weight with
  | .ok (_, state) => state
  | .error _ => State.new "desk" "first"

theorem measured_ok (weight : UInt64) :
    ∃ entry, measured weight = .ok (entry, measuredDesk weight) := ⟨_, rfl⟩

theorem set_reads_back_weight :
    ∃ records, RecordView.snapshot "app" (measuredDesk 0x3FF8000000000000) = .ok records := by
  obtain ⟨entry, wrote⟩ := measured_ok 0x3FF8000000000000
  obtain ⟨found, -, read⟩ := set_reads_back_iff wrote
  exact ((read (readsBack_json _)).2 [] rfl).mpr (by decide +kernel)

/-- A weight that is no number is written as `null`, and the namespace is not read again. -/
theorem set_unreadable : (∃ entry, measured 0x7FF8000000000000 =
    .ok (entry, measuredDesk 0x7FF8000000000000)) ∧
      RecordView.snapshot "app" (measuredDesk 0x7FF8000000000000) = .error (.serde "invalid type") :=
  ⟨measured_ok 0x7FF8000000000000, by decide +kernel⟩

end Sample

end LibreSync
