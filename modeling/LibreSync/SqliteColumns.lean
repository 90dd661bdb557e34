import LibreSync.RecordJson

/-! The columns of a mapped table: field values as SQL values, in one of four encodings, and back. -/

namespace LibreSync

inductive SqlValue where
  | null
  | integer (value : Int)
  | real (bits : UInt64)
  | text (value : String)
  | blob (value : Bytes)
deriving DecidableEq, Repr

inductive SqliteLogicalEncoding where
  | plain
  | bool
  | json
  | jsonValue
deriving DecidableEq, Repr

mutual
def fieldToJsonValue : FieldValue → Json
  | .null => .null
  | .bool value => .bool value
  | .i64 value => .number (.int value)
  | .f64 bits => FieldValue.floatJson bits
  | .string value => .string value
  | .bytes value => .array (value.map FieldValue.byteJson)
  | .list items => .array (fieldsToJsonValues items)
  | .map items => .object (mapToJsonValues items)

def fieldsToJsonValues : List FieldValue → List Json
  | [] => []
  | item :: rest => fieldToJsonValue item :: fieldsToJsonValues rest

def mapToJsonValues : List (String × FieldValue) → List (String × Json)
  | [] => []
  | (key, item) :: rest => (key, fieldToJsonValue item) :: mapToJsonValues rest
end

mutual
def jsonValueToField : Json → FieldValue
  | .null => .null
  | .bool value => .bool value
  | .number (.int value) => .i64 value
  | .number (.big value) => .f64 (Float.ofNat value).toBits
  | .number (.float value) => .f64 value.1
  | .string value => .string value
  | .array items => .list (jsonValuesToFields items)
  | .object members => .map (jsonValuesToMap members)

def jsonValuesToFields : List Json → List FieldValue
  | [] => []
  | item :: rest => jsonValueToField item :: jsonValuesToFields rest

def jsonValuesToMap : List (String × Json) → List (String × FieldValue)
  | [] => []
  | (key, item) :: rest => (key, jsonValueToField item) :: jsonValuesToMap rest
end

def isZero (bits : UInt64) : Bool := bits &&& 0x7FFFFFFFFFFFFFFF == 0

/-- The words that count as true; none of their letters has a lower case beyond ASCII's. -/
def isTrue (text : String) : Bool := text.toLower ∈ ["true", "1", "yes"]

section Columns

variable [JsonText String Error]

def fieldToSqlValue (value : FieldValue) : SqliteLogicalEncoding → SqlValue
  | .plain =>
      match value with
      | .null => .null
      | .bool value => .integer value.toInt
      | .i64 value => .integer value
      | .f64 bits => .real bits
      | .string value => .text value
      | .bytes value => .blob value
      | .list _ | .map _ => .text (JsonText.toText value.toJson)
  | .bool =>
      match value with
      | .null => .null
      | .bool value => .integer value.toInt
      | .i64 value => .integer value
      | .f64 bits => .integer (if isZero bits then 0 else 1)
      | .string value => .integer (isTrue value).toInt
      | .bytes value => .blob value
      | .list _ | .map _ => .text (JsonText.toText value.toJson)
  | .json =>
      match value with
      | .null => .null
      | value => .text (JsonText.toText value.toJson)
  | .jsonValue =>
      match value with
      | .null => .null
      | value => .text (JsonText.toText (fieldToJsonValue value))

variable [JsonText Bytes Error]

def plainToField : SqlValue → FieldValue
  | .null => .null
  | .integer value => .i64 value
  | .real bits => .f64 bits
  | .text value => .string value
  | .blob value => .bytes value

/-- Text or bytes that are not the JSON of a field value are the value themselves. -/
def sqliteValueToField (value : SqlValue) : SqliteLogicalEncoding → FieldValue
  | .plain => plainToField value
  | .bool =>
      match value with
      | .null => .null
      | .integer value => .bool (value ≠ 0)
      | .real bits => .bool (!isZero bits)
      | .text value => .bool (isTrue value)
      | .blob value => .bytes value
  | .json =>
      match value with
      | .text value =>
          match (JsonText.ofText value).bind FieldValue.ofJson with
          | .ok field => field
          | .error _ => .string value
      | .blob value =>
          match (JsonText.ofText value).bind FieldValue.ofJson with
          | .ok field => field
          | .error _ => .bytes value
      | other => plainToField other
  | .jsonValue =>
      match value with
      | .text value =>
          match JsonText.ofText value with
          | .ok json => jsonValueToField json
          | .error _ => .string value
      | .blob value =>
          match JsonText.ofText value with
          | .ok json => jsonValueToField json
          | .error _ => .bytes value
      | other => plainToField other

def ColumnKeeps (encoding : SqliteLogicalEncoding) (value : FieldValue) : Prop :=
  sqliteValueToField (fieldToSqlValue value encoding) encoding = value

end Columns

namespace FieldValue

mutual
def bytesFree : FieldValue → Bool
  | .bytes _ => false
  | .list items => bytesFreeItems items
  | .map items => bytesFreeMap items
  | _ => true

def bytesFreeItems : List FieldValue → Bool
  | [] => true
  | item :: rest => bytesFree item && bytesFreeItems rest

def bytesFreeMap : List (String × FieldValue) → Bool
  | [] => true
  | (_, item) :: rest => bytesFree item && bytesFreeMap rest
end

mutual
def nesting : FieldValue → Nat
  | .list items => nestingItems items + 1
  | .map items => nestingMap items + 1
  | _ => 0

def nestingItems : List FieldValue → Nat
  | [] => 0
  | item :: rest => max (nesting item) (nestingItems rest)

def nestingMap : List (String × FieldValue) → Nat
  | [] => 0
  | (_, item) :: rest => max (nesting item) (nestingMap rest)
end

def Composed : FieldValue → Prop
  | .bool _ | .list _ | .map _ => True
  | _ => False

mutual
theorem jsonValueToField_fieldToJsonValue : ∀ value : FieldValue, value.finite = true →
    value.bytesFree = true → jsonValueToField (fieldToJsonValue value) = value
  | .null, _, _ => rfl
  | .bool _, _, _ => rfl
  | .i64 _, _, _ => rfl
  | .f64 bits, whole, _ => by
      rw [fieldToJsonValue, floatJson_finite whole]
      rfl
  | .string _, _, _ => rfl
  | .list items, whole, free => congrArg list (fields_back items whole free)
  | .map items, whole, free => congrArg map (map_back items whole free)

theorem fields_back : ∀ items : List FieldValue, floatsItems f64Finite items = true →
    bytesFreeItems items = true → jsonValuesToFields (fieldsToJsonValues items) = items
  | [], _, _ => rfl
  | item :: rest, whole, free => by
      simp only [floatsItems, bytesFreeItems, Bool.and_eq_true] at whole free
      rw [fieldsToJsonValues, jsonValuesToFields,
        jsonValueToField_fieldToJsonValue item whole.1 free.1, fields_back rest whole.2 free.2]

theorem map_back : ∀ items : List (String × FieldValue), floatsMap f64Finite items = true →
    bytesFreeMap items = true → jsonValuesToMap (mapToJsonValues items) = items
  | [], _, _ => rfl
  | (key, item) :: rest, whole, free => by
      simp only [floatsMap, bytesFreeMap, Bool.and_eq_true] at whole free
      rw [mapToJsonValues, jsonValuesToMap,
        jsonValueToField_fieldToJsonValue item whole.1 free.1, map_back rest whole.2 free.2]
end

mutual
theorem depth_fieldToJsonValue : ∀ value : FieldValue, value.bytesFree = true →
    (fieldToJsonValue value).depth = value.nesting
  | .null, _ => rfl
  | .bool _, _ => rfl
  | .i64 _, _ => rfl
  | .f64 bits, _ => by
      rw [fieldToJsonValue, floatJson, nesting]
      · split <;> rfl
      all_goals simp
  | .string _, _ => rfl
  | .list items, free => congrArg (· + 1) (depth_fieldsToJsonValues items free)
  | .map items, free => congrArg (· + 1) (depth_mapToJsonValues items free)

theorem depth_fieldsToJsonValues : ∀ items : List FieldValue, bytesFreeItems items = true →
    Json.depthItems (fieldsToJsonValues items) = nestingItems items
  | [], _ => rfl
  | item :: rest, free => by
      simp only [bytesFreeItems, Bool.and_eq_true] at free
      rw [fieldsToJsonValues, Json.depthItems, nestingItems, depth_fieldToJsonValue item free.1,
        depth_fieldsToJsonValues rest free.2]

theorem depth_mapToJsonValues : ∀ items : List (String × FieldValue), bytesFreeMap items = true →
    Json.depthMembers (mapToJsonValues items) = nestingMap items
  | [], _ => rfl
  | (key, item) :: rest, free => by
      simp only [bytesFreeMap, Bool.and_eq_true] at free
      rw [mapToJsonValues, Json.depthMembers, nestingMap, depth_fieldToJsonValue item free.1,
        depth_mapToJsonValues rest free.2]
end

end FieldValue

section RoundTrip

variable [JsonText String Error] [JsonText Bytes Error] {value : FieldValue}

theorem plain_keeps (value : FieldValue) (simple : ¬value.Composed) : ColumnKeeps .plain value := by
  cases value with
  | bool _ => exact absurd trivial simple
  | list _ => exact absurd trivial simple
  | map _ => exact absurd trivial simple
  | null => rfl
  | i64 _ => rfl
  | f64 _ => rfl
  | string _ => rfl
  | bytes _ => rfl

omit [JsonText Bytes Error] in
theorem FieldValue.null_or (value : FieldValue) : value = .null ∨
    fieldToSqlValue value .json = .text (JsonText.toText value.toJson) ∧
      fieldToSqlValue value .jsonValue = .text (JsonText.toText (fieldToJsonValue value)) := by
  cases value with
  | null => exact Or.inl rfl
  | bool _ => exact Or.inr ⟨rfl, rfl⟩
  | i64 _ => exact Or.inr ⟨rfl, rfl⟩
  | f64 _ => exact Or.inr ⟨rfl, rfl⟩
  | string _ => exact Or.inr ⟨rfl, rfl⟩
  | bytes _ => exact Or.inr ⟨rfl, rfl⟩
  | list _ => exact Or.inr ⟨rfl, rfl⟩
  | map _ => exact Or.inr ⟨rfl, rfl⟩

omit [JsonText String Error] [JsonText Bytes Error] in
theorem FieldValue.string_shallow (text : String) : (FieldValue.string text).depth < recursionLimit ∧
    (FieldValue.string text).nesting < recursionLimit := by
  rw [FieldValue.depth, FieldValue.nesting]
  · decide
  all_goals simp

theorem json_keeps_iff (finite : value.finite = true)
    (text : JsonText.ReadsBack String recursionLimit value.toJson) :
    ColumnKeeps .json value ↔ value.depth < recursionLimit := by
  rcases value.null_or with rfl | ⟨stored, -⟩
  · exact iff_of_true rfl (by decide)
  rw [ColumnKeeps, stored, sqliteValueToField]
  rw [JsonText.ReadsBack, FieldValue.depth_toJson] at text
  split at text
  · rename_i shallow
    have back : FieldValue.ofJson value.toJson = .ok value :=
      value.ofJson_toJson.ok_iff.mpr finite
    simp only [text, Except.bind, back, shallow]
  · rename_i deep
    obtain ⟨error, refused⟩ := text
    simp only [refused, Except.bind, deep, iff_false]
    intro same
    have shallow := (FieldValue.string_shallow (JsonText.toText value.toJson)).1
    rw [same] at shallow
    exact deep shallow

theorem jsonValue_keeps_iff (finite : value.finite = true) (bytesFree : value.bytesFree = true)
    (text : JsonText.ReadsBack String recursionLimit (fieldToJsonValue value)) :
    ColumnKeeps .jsonValue value ↔ value.nesting < recursionLimit := by
  rcases value.null_or with rfl | ⟨-, stored⟩
  · exact iff_of_true rfl (by decide)
  rw [ColumnKeeps, stored, sqliteValueToField]
  rw [JsonText.ReadsBack, value.depth_fieldToJsonValue bytesFree] at text
  split at text
  · rename_i shallow
    simp only [text, value.jsonValueToField_fieldToJsonValue finite bytesFree, shallow]
  · rename_i deep
    obtain ⟨error, refused⟩ := text
    simp only [refused, deep, iff_false]
    intro same
    have shallow := (FieldValue.string_shallow (JsonText.toText (fieldToJsonValue value))).2
    rw [same] at shallow
    exact deep shallow

/-- What the columns of each encoding give back of the values they are made for. -/
theorem columns_keep_iff (value : FieldValue)
    (tagged : JsonText.ReadsBack String recursionLimit value.toJson)
    (untagged : JsonText.ReadsBack String recursionLimit (fieldToJsonValue value)) :
    (value.finite = true → (ColumnKeeps .json value ↔ value.depth < recursionLimit)) ∧
      (value.finite = true → value.bytesFree = true →
        (ColumnKeeps .jsonValue value ↔ value.nesting < recursionLimit)) ∧
      (¬value.Composed → ColumnKeeps .plain value) :=
  ⟨fun finite => json_keeps_iff finite tagged,
    fun finite bytesFree => jsonValue_keeps_iff finite bytesFree untagged, plain_keeps value⟩

end RoundTrip

section Sample

def alpha : FieldValue := .list [.string "alpha"]

def alphaTagged : String :=
  "\x7b\"type\":\"List\",\"value\":[\x7b\"type\":\"String\",\"value\":\"alpha\"\x7d]\x7d"

def nested : Nat → FieldValue
  | 0 => .null
  | depth + 1 => .list [nested depth]

def nestedTagged : Nat → String
  | 0 => "\x7b\"type\":\"Null\"\x7d"
  | depth + 1 => "\x7b\"type\":\"List\",\"value\":[" ++ nestedTagged depth ++ "]\x7d"

@[reducible] def sampleTexts : JsonText String Error where
  toText
    | .array _ => "[\"alpha\"]"
    | json => if json.depth < recursionLimit then alphaTagged else nestedTagged 64
  ofText text :=
    if text = "[\"alpha\"]" then .ok (fieldToJsonValue alpha)
    else if text = alphaTagged then .ok alpha.toJson
    else .error (.serde "recursion limit exceeded")

@[reducible] def sampleSlices : JsonText Bytes Error where
  toText _ := []
  ofText _ := .error (.serde "EOF while parsing a value")

attribute [local instance] sampleTexts sampleSlices

theorem columns_keep_alpha : ColumnKeeps .json alpha ∧ ColumnKeeps .jsonValue alpha := by
  have tagged : JsonText.ReadsBack String recursionLimit alpha.toJson := by
    rw [JsonText.ReadsBack, if_pos (by decide)]
    rfl
  have untagged : JsonText.ReadsBack String recursionLimit (fieldToJsonValue alpha) := by
    rw [JsonText.ReadsBack, if_pos (by decide)]
    rfl
  obtain ⟨json, jsonValue, -⟩ := columns_keep_iff alpha tagged untagged
  exact ⟨(json rfl).mpr (by decide), (jsonValue rfl rfl).mpr (by decide)⟩

/-- A null inside 64 lists comes back as the text of its JSON. -/
theorem columns_lose_nested : (nested 64).finite = true ∧ ¬ColumnKeeps .json (nested 64) ∧
    sqliteValueToField (fieldToSqlValue (nested 64) .json) .json = .string (nestedTagged 64) := by
  have deep : ¬(nested 64).toJson.depth < recursionLimit := by decide +kernel
  have stored : fieldToSqlValue (nested 64) .json = .text (nestedTagged 64) :=
    congrArg SqlValue.text (if_neg deep)
  have refused : sampleTexts.ofText (nestedTagged 64) =
      .error (.serde "recursion limit exceeded") := by
    change (if _ then _ else if _ then _ else _) = _
    rw [if_neg (by decide +kernel), if_neg (by decide +kernel)]
  have back : sqliteValueToField (fieldToSqlValue (nested 64) .json) .json =
      .string (nestedTagged 64) := by
    rw [stored]
    simp only [sqliteValueToField, refused, Except.bind]
  refine ⟨by decide +kernel, fun kept => ?_, back⟩
  rw [ColumnKeeps, back] at kept
  exact FieldValue.noConfusion kept

end Sample

end LibreSync
