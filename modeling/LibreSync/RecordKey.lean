import LibreSync.Lib.PrefixCode
import LibreSync.Record

/-!
Record entry keys parse back to the parts they were built from, and the keys
that parse are built from their parts when they are canonical.
-/

namespace LibreSync

def utf8 (text : String) : Bytes := text.toByteArray.data.toList

theorem utf8_injective : Function.Injective utf8 := by
  intro left right same
  exact String.toByteArray_inj.mp (ByteArray.ext (Array.toList_inj.mp same))

theorem utf8_append (first second : String) : utf8 (first ++ second) = utf8 first ++ utf8 second := by
  rw [utf8, String.toByteArray_append, ByteArray.toList_data_append]
  rfl

theorem utf8_chars (text : String) : utf8 text = text.toList.flatMap String.utf8EncodeChar := by
  rw [utf8, ← String.utf8Encode_toList]
  simp [List.utf8Encode]

theorem utf8EncodeChar_unique : PrefixCode.Unique (fun _ => True) String.utf8EncodeChar := by
  refine .of_read (fun bytes => (ByteArray.utf8DecodeChar? bytes.toByteArray 0).map fun char =>
    (char, bytes.drop (String.utf8EncodeChar char).length)) fun char rest _ => ?_
  rw [List.toByteArray_append, ByteArray.utf8DecodeChar?_utf8EncodeChar_append, Option.map_some,
    List.drop_left]

theorem utf8_unique {α : Type} {within : α → Prop} {text : α → String}
    (unique : PrefixCode.Unique within fun value => (text value).toList) :
    PrefixCode.Unique within fun value => utf8 (text value) := by
  have chars := utf8EncodeChar_unique.composed unique
  simpa only [utf8_chars] using chars

namespace Record

def asciiBytes (text : List Char) : List UInt8 := text.map Char.toUInt8

@[simp] theorem asciiBytes_append (left right : List Char) :
    asciiBytes (left ++ right) = asciiBytes left ++ asciiBytes right :=
  List.map_append

theorem toByteArray_ascii (text : List Char) (ascii : ∀ char ∈ text, char.toNat < 128) :
    (String.ofList text).toByteArray.data.toList = asciiBytes text := by
  rw [String.toByteArray_ofList]
  induction text with
  | nil => rfl
  | cons char rest ih =>
      have small : char.toNat < 128 := ascii char (List.mem_cons_self ..)
      have size : char.utf8Size = 1 := by
        rw [Char.utf8Size_eq_one_iff]
        exact Nat.lt_succ_iff.mp small
      rw [List.utf8Encode_cons, List.utf8Encode_singleton, String.utf8EncodeChar_eq_singleton size]
      have tail := ih fun other member => ascii other (List.mem_cons_of_mem _ member)
      simpa [asciiBytes, ByteArray.toList_data_append] using tail

theorem hexDigit_ascii : ∀ nibble : Fin 16, (hexDigit (UInt8.ofNat nibble)).toNat < 128 ∧
    hexDigit (UInt8.ofNat nibble) ≠ ':' := by
  decide

theorem hexValue_hexDigit : ∀ nibble : Fin 16,
    hexValue (hexDigit (UInt8.ofNat nibble)).toUInt8 = some (UInt8.ofNat nibble) ∧
      (hexDigit (UInt8.ofNat nibble)).toUInt8 ≠ 0x2B := by
  decide

theorem nibbles (byte : UInt8) : ∃ high low : Fin 16, byte / 16 = UInt8.ofNat high ∧
    byte % 16 = UInt8.ofNat low ∧ UInt8.ofNat high * 16 + UInt8.ofNat low = byte := by
  have size : byte.toNat < 256 := byte.toNat_lt
  refine ⟨⟨byte.toNat / 16, by omega⟩, ⟨byte.toNat % 16, by omega⟩, ?_, ?_, ?_⟩
  all_goals
    rw [← UInt8.toNat_inj]
    simp
  all_goals omega

theorem unreserved_ascii {byte : UInt8} (plain : unreserved byte = true) :
    byte.toNat < 128 ∧ byte ≠ 0x25 ∧ byte ≠ 0x3A := by
  simp only [unreserved, Bool.or_eq_true, Bool.and_eq_true, decide_eq_true_eq, beq_iff_eq,
    UInt8.le_iff_toNat_le, ← UInt8.toNat_inj] at plain
  simp only [ne_eq, ← UInt8.toNat_inj]
  simp at plain ⊢
  omega

theorem toNat_ofNat_ascii {byte : UInt8} (small : byte.toNat < 128) :
    (Char.ofNat byte.toNat).toNat = byte.toNat := by
  rw [Char.toNat_ofNat, if_pos (Or.inl (by omega))]

theorem toUInt8_ofNat {byte : UInt8} (small : byte.toNat < 128) :
    (Char.ofNat byte.toNat).toUInt8 = byte := by
  have width : (Char.ofNat byte.toNat).toUInt8.toNat = (Char.ofNat byte.toNat).toNat % 256 :=
    UInt32.toNat_toUInt8 _
  rw [← UInt8.toNat_inj, width, toNat_ofNat_ascii small]
  omega

theorem escapeByte_ascii (byte : UInt8) :
    ∀ char ∈ escapeByte byte, char.toNat < 128 ∧ char ≠ ':' := by
  simp only [escapeByte]
  split
  · rename_i plain
    obtain ⟨small, _, colon⟩ := unreserved_ascii plain
    have same := toNat_ofNat_ascii small
    simp only [List.mem_singleton, forall_eq, same]
    refine ⟨small, fun equal => colon ?_⟩
    rw [equal] at same
    exact UInt8.toNat_inj.mp same.symm
  · obtain ⟨high, low, highEq, lowEq, -⟩ := nibbles byte
    rw [highEq, lowEq]
    simp only [List.mem_cons, List.not_mem_nil, or_false, forall_eq_or_imp, forall_eq]
    exact ⟨by decide, hexDigit_ascii high, hexDigit_ascii low⟩

theorem unescapeBytes_plain {byte : UInt8} (plain : byte ≠ 0x25) (rest : List UInt8) :
    unescapeBytes (byte :: rest) = (unescapeBytes rest).map (byte :: ·) := by
  rw [unescapeBytes]
  · simp [plain]
  · rintro hi lo others rfl
    exact absurd rfl plain

theorem unescapeBytes_escapeByte (byte : UInt8) (rest : List UInt8) :
    unescapeBytes (asciiBytes (escapeByte byte) ++ rest) =
      (unescapeBytes rest).map (byte :: ·) := by
  simp only [escapeByte]
  split
  · rename_i plain
    obtain ⟨small, percent, -⟩ := unreserved_ascii plain
    simp only [asciiBytes, List.map_cons, List.map_nil, List.singleton_append, toUInt8_ofNat small]
    exact unescapeBytes_plain percent rest
  · obtain ⟨high, low, highEq, lowEq, joined⟩ := nibbles byte
    rw [highEq, lowEq]
    obtain ⟨highValue, highPlus⟩ := hexValue_hexDigit high
    obtain ⟨lowValue, -⟩ := hexValue_hexDigit low
    have percent : Char.toUInt8 '%' = 0x25 := by decide
    simp only [asciiBytes, List.map_cons, List.map_nil, List.cons_append, List.nil_append, percent]
    rw [unescapeBytes]
    simp only [fromStrRadix, beq_iff_eq, highPlus, if_false, highValue, lowValue, joined]

theorem unescapeBytes_escape (bytes : List UInt8) :
    unescapeBytes (asciiBytes (bytes.flatMap escapeByte)) = .ok bytes := by
  induction bytes with
  | nil => rfl
  | cons byte rest ih =>
      rw [List.flatMap_cons, asciiBytes_append, unescapeBytes_escapeByte, ih]
      rfl

theorem escape_ascii (input : String) :
    ∀ char ∈ (escapeComponent input).toList, char.toNat < 128 ∧ char ≠ ':' := by
  intro char member
  simp only [escapeComponent, String.toList_ofList, List.mem_flatMap] at member
  obtain ⟨byte, -, inside⟩ := member
  exact escapeByte_ascii byte char inside

theorem unescape_escape (input : String) :
    unescapeComponent (escapeComponent input) = .ok input := by
  have ascii := escape_ascii input
  simp only [escapeComponent, String.toList_ofList] at ascii
  simp only [unescapeComponent, escapeComponent,
    toByteArray_ascii _ fun char member => (ascii char member).1, unescapeBytes_escape]
  have whole : (⟨input.toByteArray.data.toList.toArray⟩ : ByteArray) = input.toByteArray := rfl
  rw [whole, String.fromUTF8?, dif_pos input.isValidUTF8]
  rfl

theorem splitColon_component (parts : Nat) {component : List Char}
    (plain : ∀ char ∈ component, char ≠ ':') (rest : List Char) :
    splitColon (parts + 2) (component ++ ':' :: rest) =
      component :: splitColon (parts + 1) rest := by
  have span : (component ++ ':' :: rest).span (· ≠ ':') = (component, ':' :: rest) := by
    rw [List.span_eq_takeWhile_dropWhile]
    rw [List.takeWhile_append_of_pos (by simpa using plain),
      List.dropWhile_append_of_pos (by simpa using plain)]
    simp
  rw [splitColon, span]

theorem splitColon_recordEntryKey (keyNamespace schema entity id : String) :
    splitColon 5 (recordEntryKey keyNamespace schema entity id).toList =
      [recordPrefix.toList, (escapeComponent keyNamespace).toList,
        (escapeComponent schema).toList, (escapeComponent entity).toList,
        (escapeComponent id).toList] := by
  have plain : ∀ input : String, ∀ char ∈ (escapeComponent input).toList, char ≠ ':' :=
    fun input char member => (escape_ascii input char member).2
  simp only [recordEntryKey, String.toList_ofList, List.append_assoc, List.cons_append]
  rw [splitColon_component 3 (by simp [recordPrefix]), splitColon_component 2 (plain _),
    splitColon_component 1 (plain _), splitColon_component 0 (plain _)]
  rfl

theorem parse_recordEntryKey (keyNamespace schema entity id : String) :
    parseRecordKey (recordEntryKey keyNamespace schema entity id) =
      .ok (some { keyNamespace, schema, entity, id }) := by
  have start : recordPrefix.toList <+: (recordEntryKey keyNamespace schema entity id).toList := by
    simp only [recordEntryKey, String.toList_ofList, List.append_assoc]
    exact List.prefix_append _ _
  rw [parseRecordKey, if_neg (not_not.mpr start), splitColon_recordEntryKey]
  simp only [List.map_cons, List.map_nil, String.ofList_toList, ne_eq, not_true, if_false]
  simp only [unescape_escape, bind, Except.bind, pure, Except.pure]

theorem recordEntryKey_injective {keyNamespace schema entity id schema' entity' id' : String}
    (same : recordEntryKey keyNamespace schema entity id =
      recordEntryKey keyNamespace schema' entity' id') :
    schema = schema' ∧ entity = entity' ∧ id = id' := by
  have parsed := congrArg parseRecordKey same
  simp only [parse_recordEntryKey, Except.ok.injEq, Option.some.injEq,
    RecordKeyParts.mk.injEq, true_and] at parsed
  exact parsed

def upperHexDigit (char : Char) : Bool :=
  ('0' ≤ char && char ≤ '9') || ('A' ≤ char && char ≤ 'F')

def hexByte (hi lo : Char) : UInt8 :=
  (hexValue hi.toUInt8).getD 0 * 16 + (hexValue lo.toUInt8).getD 0

/-- Every character is unreserved, or part of the escape of a byte that is not, in upper case. -/
def canonicalComponent : List Char → Bool
  | [] => true
  | '%' :: hi :: lo :: rest =>
      upperHexDigit hi && upperHexDigit lo && !unreserved (hexByte hi lo) && canonicalComponent rest
  | char :: rest => char.toNat < 128 && unreserved char.toUInt8 && canonicalComponent rest

def CanonicalKey (key : String) : Prop :=
  ∀ component ∈ (splitColon 5 key.toList).tail, canonicalComponent component = true

instance (key : String) : Decidable (CanonicalKey key) :=
  inferInstanceAs (Decidable (∀ component ∈ (splitColon 5 key.toList).tail,
    canonicalComponent component = true))

theorem upperHexDigit_code : ∀ code : Fin 128, upperHexDigit (Char.ofNat code) = true →
    ∃ nibble : Fin 16, Char.ofNat code = hexDigit (UInt8.ofNat nibble) := by
  decide

theorem upperHexDigit_iff (char : Char) : upperHexDigit char = true ↔
    ∃ nibble : Fin 16, char = hexDigit (UInt8.ofNat nibble) := by
  constructor
  · intro digit
    have small : char.toNat < 128 := by
      simp only [upperHexDigit, Bool.or_eq_true, Bool.and_eq_true, decide_eq_true_eq, Char.le_def,
        UInt32.le_iff_toNat_le] at digit
      have zero : ('9' : Char).val.toNat = 57 := rfl
      have upper : ('F' : Char).val.toNat = 70 := rfl
      change char.val.toNat < 128
      omega
    have found := upperHexDigit_code ⟨char.toNat, small⟩
    rw [Char.ofNat_toNat] at found
    exact found digit
  · rintro ⟨nibble, rfl⟩
    revert nibble
    decide

theorem hexByte_hexDigit {byte : UInt8} {high low : Fin 16}
    (joined : UInt8.ofNat high * 16 + UInt8.ofNat low = byte) :
    hexByte (hexDigit (UInt8.ofNat high)) (hexDigit (UInt8.ofNat low)) = byte := by
  rw [hexByte, (hexValue_hexDigit high).1, (hexValue_hexDigit low).1]
  exact joined

theorem canonical_plain {char : Char} (plain : char ≠ '%') (rest : List Char) :
    canonicalComponent (char :: rest) =
      (decide (char.toNat < 128) && unreserved char.toUInt8 && canonicalComponent rest) := by
  rw [canonicalComponent]
  rintro hi lo others rfl
  exact absurd rfl plain

theorem canonical_escapeByte (byte : UInt8) (rest : List Char) :
    canonicalComponent (escapeByte byte ++ rest) = canonicalComponent rest := by
  simp only [escapeByte]
  split
  · rename_i plain
    obtain ⟨small, percent, -⟩ := unreserved_ascii plain
    have char : Char.ofNat byte.toNat ≠ '%' := by
      intro same
      refine percent ?_
      rw [← toUInt8_ofNat small, same]
      rfl
    rw [List.singleton_append, canonical_plain char, toNat_ofNat_ascii small, toUInt8_ofNat small,
      plain, decide_eq_true small]
    rfl
  · rename_i reserved
    obtain ⟨high, low, highEq, lowEq, joined⟩ := nibbles byte
    have hi := (upperHexDigit_iff _).mpr ⟨high, rfl⟩
    have lo := (upperHexDigit_iff _).mpr ⟨low, rfl⟩
    rw [highEq, lowEq, List.cons_append, List.cons_append, List.cons_append, canonicalComponent,
      hi, lo, hexByte_hexDigit joined, Bool.eq_false_of_not_eq_true reserved]
    rfl

theorem canonicalComponent_iff (component : List Char) : canonicalComponent component = true ↔
    ∃ bytes : List UInt8, component = bytes.flatMap escapeByte := by
  constructor
  · induction component using canonicalComponent.induct with
    | case1 => exact fun _ => ⟨[], rfl⟩
    | case2 hi lo rest ih =>
        intro canonical
        simp only [canonicalComponent, Bool.and_eq_true, Bool.not_eq_true'] at canonical
        obtain ⟨⟨⟨upperHi, upperLo⟩, reserved⟩, later⟩ := canonical
        obtain ⟨high, rfl⟩ := (upperHexDigit_iff hi).mp upperHi
        obtain ⟨low, rfl⟩ := (upperHexDigit_iff lo).mp upperLo
        obtain ⟨bytes, rfl⟩ := ih later
        refine ⟨(UInt8.ofNat high * 16 + UInt8.ofNat low) :: bytes, ?_⟩
        rw [hexByte_hexDigit rfl] at reserved
        have digits : ∀ high low : Fin 16,
            (UInt8.ofNat high * 16 + UInt8.ofNat low) / 16 = UInt8.ofNat high ∧
              (UInt8.ofNat high * 16 + UInt8.ofNat low) % 16 = UInt8.ofNat low := by decide
        rw [List.flatMap_cons, escapeByte, reserved, (digits high low).1, (digits high low).2]
        rfl
    | case3 char rest escape ih =>
        intro canonical
        rw [canonicalComponent] at canonical
        · simp only [Bool.and_eq_true, decide_eq_true_eq] at canonical
          obtain ⟨⟨small, plain⟩, later⟩ := canonical
          obtain ⟨bytes, rfl⟩ := ih later
          refine ⟨char.toUInt8 :: bytes, ?_⟩
          have width : char.toUInt8.toNat = char.toNat % 256 := UInt32.toNat_toUInt8 _
          have same : Char.ofNat char.toUInt8.toNat = char := by
            rw [width, Nat.mod_eq_of_lt (by omega), Char.ofNat_toNat]
          rw [List.flatMap_cons, escapeByte, plain, same]
          rfl
        · exact escape
  · rintro ⟨bytes, rfl⟩
    induction bytes with
    | nil => rfl
    | cons byte rest ih => rw [List.flatMap_cons, canonical_escapeByte, ih]

/-- A component is the escape of what it unescapes to exactly when it is canonical. -/
theorem escape_unescape_iff {component text : String}
    (unescaped : unescapeComponent component = .ok text) :
    escapeComponent text = component ↔ canonicalComponent component.toList = true := by
  constructor
  · rintro rfl
    rw [canonicalComponent_iff]
    exact ⟨_, String.toList_ofList⟩
  · intro canonical
    obtain ⟨bytes, escaped⟩ := (canonicalComponent_iff _).mp canonical
    have ascii : ∀ char ∈ component.toList, char.toNat < 128 := by
      intro char member
      rw [escaped, List.mem_flatMap] at member
      obtain ⟨byte, -, inside⟩ := member
      exact (escapeByte_ascii byte char inside).1
    have spelled := toByteArray_ascii component.toList ascii
    rw [String.ofList_toList] at spelled
    rw [unescapeComponent, spelled, escaped, unescapeBytes_escape] at unescaped
    simp only at unescaped
    split at unescaped
    · rename_i decoded found
      obtain rfl := Except.ok.inj unescaped
      rw [String.fromUTF8?] at found
      split at found
      · obtain rfl := Option.some.inj found
        exact (congrArg String.ofList escaped.symm).trans String.ofList_toList
      · simp at found
    · simp at unescaped

theorem splitColon_length (parts : Nat) (text : List Char) :
    (splitColon parts text).length ≤ parts := by
  induction parts, text using splitColon.induct with
  | case1 => exact Nat.le_refl 0
  | case2 => exact Nat.le_refl 1
  | case3 parts text component spanned =>
      rw [splitColon, spanned]
      simp
  | case4 parts text component colon rest spanned ih =>
      rw [splitColon, spanned]
      exact Nat.succ_le_succ ih

theorem splitColon_ne_nil (parts : Nat) (text : List Char) : splitColon (parts + 1) text ≠ [] := by
  cases parts with
  | zero => simp [splitColon]
  | succ parts =>
      rw [splitColon]
      split <;> simp

theorem span_colon {text component rest : List Char}
    (spanned : text.span (· ≠ ':') = (component, rest)) :
    text = component ++ rest ∧ ∀ char ∈ rest.head?, char = ':' := by
  rw [List.span_eq_takeWhile_dropWhile] at spanned
  obtain ⟨rfl, rfl⟩ := Prod.mk.inj spanned
  refine ⟨List.takeWhile_append_dropWhile.symm, fun char head => ?_⟩
  have stopped := List.head?_dropWhile_not (· ≠ ':') text
  rw [Option.mem_def.mp head] at stopped
  simpa using stopped

theorem splitColon_join (parts : Nat) (text : List Char) :
    [':'].intercalate (splitColon (parts + 1) text) = text := by
  induction parts generalizing text with
  | zero => simp [splitColon]
  | succ parts ih =>
      rw [splitColon]
      split
      · rename_i component spanned
        obtain ⟨joined, -⟩ := span_colon spanned
        rw [joined]
        simp
      · rename_i component colon rest spanned
        obtain ⟨joined, head⟩ := span_colon spanned
        obtain rfl := head colon rfl
        obtain ⟨first, others, pieces⟩ := List.exists_cons_of_ne_nil (splitColon_ne_nil parts rest)
        have tail := ih rest
        rw [pieces] at tail ⊢
        rw [List.intercalate_cons_cons, tail, joined]
        simp

end Record

open Record

def RecordKeyParts.entryKey (parts : RecordKeyParts) : String :=
  recordEntryKey parts.keyNamespace parts.schema parts.entity parts.id

namespace Record

theorem parseRecordKey_components {key : String} {parts : RecordKeyParts}
    (parsed : parseRecordKey key = .ok (some parts)) :
    ∃ keyNamespace schema entity id : String,
      splitColon 5 key.toList = [recordPrefix.toList, keyNamespace.toList, schema.toList,
        entity.toList, id.toList] ∧
      unescapeComponent keyNamespace = .ok parts.keyNamespace ∧
      unescapeComponent schema = .ok parts.schema ∧
      unescapeComponent entity = .ok parts.entity ∧ unescapeComponent id = .ok parts.id := by
  rw [parseRecordKey] at parsed
  split at parsed
  · simp at parsed
  · split at parsed
    · simp at parsed
    · rename_i keyPrefix components pieces
      split at parsed
      · simp at parsed
      · rename_i prefixed
        split at parsed
        · simp at parsed
        · simp at parsed
        · simp at parsed
        · simp at parsed
        · rename_i keyNamespace schema entity id others
          have whole : splitColon 5 key.toList =
              (keyPrefix :: keyNamespace :: schema :: entity :: id :: others).map String.toList := by
            rw [← pieces, List.map_map]
            simp
          obtain rfl : others = [] := by
            have most := splitColon_length 5 key.toList
            rw [whole, List.length_map] at most
            simp only [List.length_cons] at most
            exact List.length_eq_zero_iff.mp (by omega)
          obtain rfl := not_not.mp prefixed
          refine ⟨keyNamespace, schema, entity, id, whole, ?_⟩
          simp only [bind, Except.bind, pure, Except.pure] at parsed
          split at parsed
          · simp at parsed
          · split at parsed
            · simp at parsed
            · split at parsed
              · simp at parsed
              · split at parsed
                · simp at parsed
                · rename_i _ _ first _ _ second _ _ third _ _ fourth
                  obtain rfl := Option.some.inj (Except.ok.inj parsed)
                  exact ⟨first, second, third, fourth⟩

theorem entryKey_eq_iff {key keyNamespace schema entity id : String} {parts : RecordKeyParts}
    (pieces : splitColon 5 key.toList = [recordPrefix.toList, keyNamespace.toList, schema.toList,
      entity.toList, id.toList]) :
    parts.entryKey = key ↔ escapeComponent parts.keyNamespace = keyNamespace ∧
      escapeComponent parts.schema = schema ∧ escapeComponent parts.entity = entity ∧
      escapeComponent parts.id = id := by
  constructor
  · rintro rfl
    rw [RecordKeyParts.entryKey, splitColon_recordEntryKey] at pieces
    simpa only [List.cons.injEq, true_and, and_true, String.toList_inj] using pieces
  · rintro ⟨rfl, rfl, rfl, rfl⟩
    have joined := splitColon_join 4 key.toList
    rw [pieces] at joined
    rw [← String.toList_inj, ← joined, RecordKeyParts.entryKey, recordEntryKey, String.toList_ofList]
    simp [List.intercalate_cons_cons]

theorem recordKey_round_trip (key : String) (parts : RecordKeyParts) :
    parseRecordKey parts.entryKey = .ok (some parts) ∧
      (∀ other : RecordKeyParts, other.entryKey = parts.entryKey → other = parts) ∧
      (parseRecordKey key = .ok (some parts) → (parts.entryKey = key ↔ CanonicalKey key)) := by
  have back : ∀ parts : RecordKeyParts, parseRecordKey parts.entryKey = .ok (some parts) :=
    fun parts => parse_recordEntryKey ..
  refine ⟨back parts, fun other same => ?_, fun parsed => ?_⟩
  · have parsed := back other
    rw [same, back parts] at parsed
    exact (Option.some.inj (Except.ok.inj parsed)).symm
  · obtain ⟨keyNamespace, schema, entity, id, pieces, first, second, third, fourth⟩ :=
      parseRecordKey_components parsed
    rw [entryKey_eq_iff pieces, CanonicalKey, pieces, escape_unescape_iff first,
      escape_unescape_iff second, escape_unescape_iff third, escape_unescape_iff fourth]
    simp

def noteKey : String := "record:app:schema%2F1:Todo:1"

def noteParts : RecordKeyParts where
  keyNamespace := "app"
  schema := "schema/1"
  entity := "Todo"
  id := "1"

theorem recordKey_round_trip_note : noteParts.entryKey = noteKey := by
  have parsed : parseRecordKey noteKey = .ok (some noteParts) := by decide +kernel
  exact ((recordKey_round_trip noteKey noteParts).2.2 parsed).mpr (by decide +kernel)

/-- A digit of the escape in lower case gives the same record another key. -/
theorem recordKey_alias : ∃ key, parseRecordKey key = .ok (some noteParts) ∧
    noteParts.entryKey ≠ key ∧ parseRecordKey noteParts.entryKey = .ok (some noteParts) :=
  ⟨"record:app:schema%2f1:Todo:1", by decide +kernel, by decide +kernel, by decide +kernel⟩

end Record

end LibreSync
