import LibreSync.Managed.ClockRange

/-!
The JSON text of a batch and its way to a peer: the bounds of the sender leave room for what the
receiver accepts.
-/

namespace LibreSync.Managed

section Text

def escapeChar (char : Char) : String :=
  match char.toNat with
  | 0x22 => "\\\""
  | 0x5C => "\\\\"
  | 0x08 => "\\b"
  | 0x09 => "\\t"
  | 0x0A => "\\n"
  | 0x0C => "\\f"
  | 0x0D => "\\r"
  | code =>
      if code < 0x20 then
        "\\u00" ++ String.singleton (Nat.digitChar (code / 16)) ++
          String.singleton (Nat.digitChar (code % 16))
      else String.singleton char

def escapeChars : List Char → String
  | [] => ""
  | char :: rest => escapeChar char ++ escapeChars rest

def jsonString (text : String) : String := "\"" ++ escapeChars text.toList ++ "\""

def base64Char (sextet : Nat) : Char :=
  if sextet < 26 then Char.ofNat (0x41 + sextet)
  else if sextet < 52 then Char.ofNat (0x61 + (sextet - 26))
  else if sextet < 62 then Char.ofNat (0x30 + (sextet - 52))
  else if sextet = 62 then '+'
  else '/'

def base64Chars : Bytes → List Char
  | [] => []
  | [first] => [base64Char (first.toNat / 4), base64Char (first.toNat % 4 * 16), '=', '=']
  | [first, second] => [base64Char (first.toNat / 4),
      base64Char (first.toNat % 4 * 16 + second.toNat / 16),
      base64Char (second.toNat % 16 * 4), '=']
  | first :: second :: third :: rest => base64Char (first.toNat / 4) ::
      base64Char (first.toNat % 4 * 16 + second.toNat / 16) ::
      base64Char (second.toNat % 16 * 4 + third.toNat / 64) ::
      base64Char (third.toNat % 64) :: base64Chars rest

def base64 (bytes : Bytes) : String := String.ofList (base64Chars bytes)

def jsonBool (value : Bool) : String := if value then "true" else "false"

def commaJoined : List String → String
  | [] => ""
  | [item] => item
  | item :: rest => item ++ "," ++ commaJoined rest

def receiptText (epoch : String) (sequence : Nat) (proof : Bytes) : String :=
  "\x7b\"epoch\":" ++ jsonString epoch ++ ",\"sequence\":" ++ Nat.repr sequence ++
    ",\"proof\":\"" ++ base64 proof ++ "\"\x7d"

def clockText (clock : LamportClock) : String :=
  "\x7b\"counter\":" ++ Nat.repr clock.counter ++ ",\"device_id\":" ++
    jsonString clock.deviceId ++ "\x7d"

def recordText (record : ManagedRecord) : String :=
  "\x7b\"adapter\":" ++ jsonString record.adapter ++ ",\"id\":" ++ jsonString record.id ++
    ",\"value\":\"" ++ base64 record.value ++ "\",\"deleted\":" ++ jsonBool record.deleted ++
    ",\"clock\":" ++ clockText record.clock ++ "\x7d"

def batchText (checkpoint : String) (records : List ManagedRecord) (full : Bool) : String :=
  "\x7b\"checkpoint\":" ++ checkpoint ++ ",\"records\":[" ++ commaJoined (records.map recordText) ++
    "],\"full\":" ++ jsonBool full ++ "\x7d"

end Text

section Size

theorem utf8ByteSize_ofList (chars : List Char) :
    (String.ofList chars).utf8ByteSize = (chars.map Char.utf8Size).sum := by
  induction chars with
  | nil => rfl
  | cons char rest ih =>
      rw [String.ofList_cons, String.utf8ByteSize_append, String.utf8ByteSize_singleton, ih]
      rfl

theorem base64Char_size (sextet : Nat) : (base64Char sextet).utf8Size = 1 := by
  have narrow : ∀ sextet < 64, (base64Char sextet).utf8Size = 1 := by
    decide
  by_cases small : sextet < 64
  · exact narrow sextet small
  · rw [base64Char, if_neg (by omega), if_neg (by omega), if_neg (by omega), if_neg (by omega)]
    rfl

theorem base64_size (bytes : Bytes) : (base64 bytes).utf8ByteSize = base64Size bytes.length := by
  rw [base64, utf8ByteSize_ofList]
  induction bytes using base64Chars.induct with
  | case1 => rfl
  | case2 first => simp [base64Chars, base64Char_size, base64Size]; rfl
  | case3 first second => simp [base64Chars, base64Char_size, base64Size]; rfl
  | case4 first second third rest ih =>
      simp only [base64Chars, List.map_cons, List.sum_cons, base64Char_size, ih, base64Size,
        List.length_cons]
      omega

theorem escapeChar_size (char : Char) : (escapeChar char).utf8ByteSize ≤ 6 * char.utf8Size := by
  have positive := char.utf8Size_pos
  have digit : ∀ code : Nat, code < 16 → (Nat.digitChar code).utf8Size = 1 := by
    decide
  simp only [escapeChar]
  split
  all_goals try
    refine le_trans (b := 6) ?_ (by omega)
    decide
  split
  · rw [String.utf8ByteSize_append, String.utf8ByteSize_append, String.utf8ByteSize_singleton,
      String.utf8ByteSize_singleton, digit _ (by omega), digit _ (by omega)]
    have prefixed : "\\u00".utf8ByteSize = 4 := by decide
    omega
  · rw [String.utf8ByteSize_singleton]
    omega

theorem escapeChars_size (chars : List Char) :
    (escapeChars chars).utf8ByteSize ≤ 6 * (String.ofList chars).utf8ByteSize := by
  rw [utf8ByteSize_ofList]
  induction chars with
  | nil => rfl
  | cons char rest ih =>
      have first := escapeChar_size char
      rw [escapeChars, String.utf8ByteSize_append, List.map_cons, List.sum_cons]
      omega

theorem jsonString_size (text : String) :
    (jsonString text).utf8ByteSize ≤ 2 + 6 * text.utf8ByteSize := by
  have inside := escapeChars_size text.toList
  rw [String.ofList_toList] at inside
  have quote : "\"".utf8ByteSize = 1 := by decide
  rw [jsonString, String.utf8ByteSize_append, String.utf8ByteSize_append, quote]
  omega

/-- The largest epoch: each of its bytes takes six in JSON. -/
def widestEpoch : String := String.ofList (List.replicate 128 (Char.ofNat 0))

theorem escapeNuls_size (count : Nat) :
    (escapeChars (List.replicate count (Char.ofNat 0))).utf8ByteSize = 6 * count := by
  induction count with
  | zero => rfl
  | succ count ih =>
      have first : (escapeChar (Char.ofNat 0)).utf8ByteSize = 6 := by decide
      rw [List.replicate_succ, escapeChars, String.utf8ByteSize_append, ih, first]
      omega

theorem jsonNuls_size (count : Nat) :
    (jsonString (String.ofList (List.replicate count (Char.ofNat 0)))).utf8ByteSize =
      2 + 6 * count := by
  have quote : "\"".utf8ByteSize = 1 := by decide
  rw [jsonString, String.toList_ofList, String.utf8ByteSize_append, String.utf8ByteSize_append,
    escapeNuls_size, quote]
  omega

theorem widestEpoch_size : (jsonString widestEpoch).utf8ByteSize = 2 + 6 * 128 :=
  jsonNuls_size 128

theorem repr_size (count : Nat) :
    (Nat.repr count).utf8ByteSize = (Nat.toDigits 10 count).length := by
  have narrow : ∀ chars : List Char, (∀ char ∈ chars, char.isDigit = true) →
      (chars.map Char.utf8Size).sum = chars.length := by
    intro chars digits
    induction chars with
    | nil => rfl
    | cons char rest ih =>
        have first : char.utf8Size = 1 := by
          have digit := digits char List.mem_cons_self
          simp only [Char.isDigit, Bool.and_eq_true, decide_eq_true_eq] at digit
          rw [Char.utf8Size_eq_one_iff]
          exact UInt32.le_trans digit.2 (by decide)
        have later := ih fun other member => digits other (List.mem_cons_of_mem _ member)
        rw [List.map_cons, List.sum_cons, first, later, List.length_cons, Nat.add_comm]
  rw [Nat.repr_eq_ofList_toDigits, utf8ByteSize_ofList]
  exact narrow _ fun char member => Nat.isDigit_of_mem_toDigits (by decide) (by decide) member

theorem repr_le {count : Nat} (counted : count ≤ u64Max) :
    (Nat.repr count).utf8ByteSize ≤ (Nat.repr u64Max).utf8ByteSize := by
  have widest : (Nat.repr u64Max).utf8ByteSize = 20 := by
    rw [repr_size]
    decide +kernel
  rw [widest, repr_size, Nat.length_toDigits_le_iff (by decide) (by decide)]
  have : u64Max < 10 ^ 20 := by decide
  omega

theorem receiptText_size (epoch : String) (sequence : Nat) (proof : Bytes) :
    (receiptText epoch sequence proof).utf8ByteSize = 33 + (jsonString epoch).utf8ByteSize +
      (Nat.repr sequence).utf8ByteSize + base64Size proof.length := by
  simp only [receiptText, String.utf8ByteSize_append, base64_size]
  have parts : "\x7b\"epoch\":".utf8ByteSize = 9 ∧ ",\"sequence\":".utf8ByteSize = 12 ∧
      ",\"proof\":\"".utf8ByteSize = 10 ∧ "\"\x7d".utf8ByteSize = 2 := by
    decide
  omega

theorem commaJoined_size (items : List String) : (commaJoined items).utf8ByteSize =
    (items.map String.utf8ByteSize).sum + (items.length - 1) := by
  induction items using commaJoined.induct with
  | case1 => rfl
  | case2 item => simp [commaJoined]
  | case3 item rest nonempty ih =>
      have comma : ",".utf8ByteSize = 1 := by decide
      have left : rest.length ≠ 0 := by
        simpa using nonempty
      rw [commaJoined, String.utf8ByteSize_append, String.utf8ByteSize_append, ih, comma,
        List.map_cons, List.sum_cons, List.length_cons]
      · omega
      · exact nonempty

end Size

section Batches

variable {Proof : Type}

def batchJson (bytesOf : Proof → Bytes) (batch : ExportBatch Proof) : String :=
  batchText (receiptText batch.checkpoint.epoch batch.checkpoint.sequence
    (bytesOf batch.checkpoint.proof)) batch.records batch.full

def completeJson (records : List ManagedRecord) : String :=
  batchText (receiptText widestEpoch u64Max (List.replicate 32 255)) records false

/-- `record_bytes` and `proof_bytes` refuse to write longer values. -/
def writable (proof : Bytes) (records : List ManagedRecord) : Bool :=
  proof.length ≤ 32 && records.all fun record => record.value.length ≤ maxRecordBytes

/-- The lengths of the texts that `serde_json` writes; one that it refuses is over the bound. -/
def serdeSizes (bytesOf : Proof → Bytes) : Sizes Proof where
  batch batch :=
    if writable (bytesOf batch.checkpoint.proof) batch.records then
      (batchJson bytesOf batch).utf8ByteSize
    else maxBatchBytes + 1
  complete records :=
    if writable (List.replicate 32 255) records then (completeJson records).utf8ByteSize
    else maxBatchBytes + 1

theorem batchText_size (checkpoint : String) (records : List ManagedRecord) (full : Bool) :
    (batchText checkpoint records full).utf8ByteSize = 36 + checkpoint.utf8ByteSize +
      ((records.map fun record => (recordText record).utf8ByteSize).sum + (records.length - 1)) +
        (jsonBool full).utf8ByteSize := by
  have opening : "\x7b\"checkpoint\":".utf8ByteSize = 14 := by decide
  have between : ",\"records\":[".utf8ByteSize = 12 := by decide
  have after : "],\"full\":".utf8ByteSize = 9 := by decide
  have closing : "\x7d".utf8ByteSize = 1 := by decide
  have joined := commaJoined_size (records.map recordText)
  rw [List.map_map, List.length_map] at joined
  have total : (batchText checkpoint records full).utf8ByteSize =
      14 + checkpoint.utf8ByteSize + 12 + (commaJoined (records.map recordText)).utf8ByteSize + 9 +
        (jsonBool full).utf8ByteSize + 1 := by
    unfold batchText
    simp only [String.utf8ByteSize_append, opening, between, after, closing]
  generalize (batchText checkpoint records full).utf8ByteSize = size at total ⊢
  generalize (jsonBool full).utf8ByteSize = flag at total ⊢
  rw [joined] at total
  simp only [Function.comp_def] at total
  omega

theorem batchText_le {checkpoint widest : String} {records all : List ManagedRecord} {full : Bool}
    (narrower : checkpoint.utf8ByteSize ≤ widest.utf8ByteSize) (distinct : records.Nodup)
    (subset : records ⊆ all) :
    (batchText checkpoint records full).utf8ByteSize ≤
      (batchText widest all false).utf8ByteSize := by
  obtain ⟨chosen, same, part⟩ := List.subperm_of_subset distinct subset
  have fewer : records.length ≤ all.length := same.length_eq ▸ part.length_le
  have lighter : (records.map fun record => (recordText record).utf8ByteSize).sum ≤
      (all.map fun record => (recordText record).utf8ByteSize).sum := by
    rw [← (same.map fun record => (recordText record).utf8ByteSize).sum_eq]
    exact (part.map _).sum_le_sum fun _ _ => Nat.zero_le _
  have flag : (jsonBool full).utf8ByteSize ≤ (jsonBool false).utf8ByteSize := by
    cases full <;> decide
  have left := batchText_size checkpoint records full
  have right := batchText_size widest all false
  omega

theorem receiptText_le {epoch : String} {sequence : Nat} {proof : Bytes}
    (named : epoch.utf8ByteSize ≤ 128) (counted : sequence ≤ u64Max) (sized : proof.length = 32) :
    (receiptText epoch sequence proof).utf8ByteSize ≤
      (receiptText widestEpoch u64Max (List.replicate 32 255)).utf8ByteSize := by
  have texts : (jsonString epoch).utf8ByteSize ≤ 2 + 6 * 128 :=
    (jsonString_size epoch).trans (by omega)
  rw [receiptText_size, receiptText_size, widestEpoch_size, sized, List.length_replicate]
  exact Nat.add_le_add_right (Nat.add_le_add (Nat.add_le_add_left texts 33) (repr_le counted)) _

theorem exportEach_distinct {adapters : List (String × ManagedAdapter)}
    (apart : (adapters.map Prod.fst).Nodup) {records result : List ManagedRecord}
    (ran : exportEach records adapters = .ok result) :
    result ⊆ records ∧ (result.map ManagedRecord.key).Nodup ∧
      ∀ record ∈ result, record.adapter ∈ adapters.map Prod.fst := by
  induction adapters generalizing result with
  | nil =>
      obtain rfl := Except.ok.inj ran
      simp
  | cons item rest ih =>
      obtain ⟨name, adapter⟩ := item
      simp only [List.map_cons, List.nodup_cons] at apart
      simp only [exportEach] at ran
      split at ran
      · simp at ran
      · rename_i mine _
        split at ran
        · simp [fail] at ran
        · rename_i preserved
          simp only [not_not] at preserved
          obtain ⟨chosen, distinct⟩ := preserved
          obtain ⟨later, exported, rfl⟩ := Except.map_ok ran
          obtain ⟨subset, keyed, named⟩ := ih apart.2 exported
          have owned : ∀ record ∈ mine, record ∈ records ∧ record.adapter = name := by
            intro record member
            simpa using chosen member
          refine ⟨List.append_subset.mpr ⟨fun record member => (owned record member).1, subset⟩, ?_,
            fun record member => ?_⟩
          · rw [List.map_append, List.nodup_append]
            refine ⟨?_, keyed, ?_⟩
            · refine List.Nodup.of_map (fun key => (ofLex key).2) ?_
              simpa [ManagedRecord.key, recordKey, Function.comp_def] using distinct
            · rintro key left other right rfl
              obtain ⟨first, member, same⟩ := List.mem_map.mp left
              obtain ⟨second, present, equal⟩ := List.mem_map.mp right
              have parts := same.trans equal.symm
              rw [ManagedRecord.key, ManagedRecord.key, recordKey_inj] at parts
              refine apart.1 ?_
              rw [← (owned first member).2, parts.1]
              exact named second present
          · rcases List.mem_append.mp member with mine | others
            · simp [(owned record mine).2]
            · exact List.mem_cons_of_mem _ (named record others)

theorem exportRecords_distinct {inner : Inner Proof} {records result : List ManagedRecord}
    (ran : exportRecords inner records = .ok result) :
    result ⊆ records ∧ (result.map ManagedRecord.key).Nodup := by
  have apart : (inner.config.adapters.toList.map Prod.fst).Nodup := by
    rw [Std.ExtTreeMap.map_fst_toList_eq_keys]
    exact Std.ExtTreeMap.nodup_keys
  obtain ⟨subset, keyed, _⟩ := exportEach_distinct apart ran
  exact ⟨subset, keyed⟩

structure Admitted (sizes : Sizes Proof) (e : Contents Proof) : Prop where
  named : e.epoch ≠ ""
  epoch : e.epoch.utf8ByteSize ≤ 128
  few : (BTreeMap.valueList e.records).length ≤ 100000
  allowed : ∀ record ∈ BTreeMap.valueList e.records,
    Limits.recordAllowed e.metadata.manifest record = true
  complete : sizes.complete (BTreeMap.valueList e.records) ≤ maxBatchBytes

theorem Limits.state_ok {sizes : Sizes Proof} {e : Contents Proof}
    (admitted : Limits.state sizes e = .ok ()) : Admitted sizes e := by
  simp only [Limits.state] at admitted
  split at admitted
  · simp [failCode] at admitted
  · rename_i named
    split at admitted
    · simp [failCode] at admitted
    · rename_i few
      split at admitted
      · simp [failCode] at admitted
      · rename_i allowed
        split at admitted
        · simp [failCode] at admitted
        · split at admitted
          · simp [failCode] at admitted
          · rename_i complete
            simp only [not_or, not_lt] at named
            simp only [not_not, List.all_eq_true] at allowed
            exact ⟨named.1, named.2, not_lt.mp few, allowed, not_lt.mp complete⟩

end Batches

section Delivery

def maxCiphertextBytes : Nat := maxBatchBytes + 41

def maxMessageBytes : Nat := 256 * 1024 * 1024

def textBytes (text : String) : Bytes := text.toByteArray.data.toList

def blobVersion : UInt8 := 1

/-- `encrypt_blob`; the cipher is keyed, and its nonce and associated data are fixed. -/
def encryptBlob (encrypt : Bytes → Bytes) (nonce plaintext : Bytes) : Bytes :=
  blobVersion :: nonce ++ encrypt plaintext

def managedDelta (encrypted : Bytes) : String :=
  "\x7b\"type\":\"ManagedDelta\",\"payload\":\x7b\"encrypted\":\"" ++ base64 encrypted ++ "\"\x7d\x7d"

/-- The bounds of `compact::deserialize` on the base64 text of these bytes. -/
def decodes (max : Nat) (bytes : Bytes) : Bool :=
  (base64 bytes).utf8ByteSize ≤ (max + 2) / 3 * 4 && bytes.length ≤ max

theorem managedDelta_size (encrypted : Bytes) :
    (managedDelta encrypted).utf8ByteSize = base64Size encrypted.length + 50 := by
  have opening : "\x7b\"type\":\"ManagedDelta\",\"payload\":\x7b\"encrypted\":\"".utf8ByteSize = 47 := by
    decide
  have closing : "\"\x7d\x7d".utf8ByteSize = 3 := by decide
  have total : (managedDelta encrypted).utf8ByteSize = 47 + base64Size encrypted.length + 3 := by
    unfold managedDelta
    simp only [String.utf8ByteSize_append, opening, closing, base64_size]
  generalize (managedDelta encrypted).utf8ByteSize = size at total ⊢
  omega

theorem base64Size_mono {fewer more : Nat} (le : fewer ≤ more) :
    base64Size fewer ≤ base64Size more :=
  Nat.mul_le_mul_left 4 (Nat.div_le_div_right (Nat.add_le_add_right le 2))

theorem decodes_of_length {max : Nat} {bytes : Bytes} (bounded : bytes.length ≤ max) :
    decodes max bytes = true := by
  simp only [decodes, base64_size, base64Size, Bool.and_eq_true, decide_eq_true_eq]
  omega

variable {Proof : Type}

/-- A batch passes every bound between its sender and what a receiver makes of it. -/
structure Accepted [ReceiptMac Proof] (bytesOf : Proof → Bytes) (encrypt : Bytes → Bytes)
    (nonce : Bytes) (batch : ExportBatch Proof) (receiver : Contents Proof) : Prop where
  plaintext : (textBytes (batchJson bytesOf batch)).length ≤ maxBatchBytes
  sealed : (encryptBlob encrypt nonce (textBytes (batchJson bytesOf batch))).length =
    (textBytes (batchJson bytesOf batch)).length + 41
  ciphertext : (encryptBlob encrypt nonce (textBytes (batchJson bytesOf batch))).length ≤
    maxCiphertextBytes
  line : (managedDelta (encryptBlob encrypt nonce
    (textBytes (batchJson bytesOf batch)))).utf8ByteSize + 1 ≤ maxMessageBytes
  encrypted : decodes maxCiphertextBytes
    (encryptBlob encrypt nonce (textBytes (batchJson bytesOf batch))) = true
  proof : decodes 32 (bytesOf batch.checkpoint.proof) = true
  values : ∀ record ∈ batch.records, decodes maxRecordBytes record.value = true
  limits : Limits.batch (serdeSizes bytesOf) batch = .ok ()
  valid : validateBatch receiver batch = .ok ()

theorem accepted_of_fits [ReceiptMac Proof] {bytesOf : Proof → Bytes} {encrypt : Bytes → Bytes}
    {nonce : Bytes} (tagged : ∀ plain, (encrypt plain).length = plain.length + 16)
    (salted : nonce.length = 24) {batch : ExportBatch Proof} {receiver : Contents Proof}
    (fits : (batchJson bytesOf batch).utf8ByteSize ≤ maxBatchBytes)
    (proven : (bytesOf batch.checkpoint.proof).length ≤ 32)
    (values : ∀ record ∈ batch.records, record.value.length ≤ maxRecordBytes)
    (valid : validateBatch receiver batch = .ok ()) :
    Accepted bytesOf encrypt nonce batch receiver := by
  have plain : (textBytes (batchJson bytesOf batch)).length =
      (batchJson bytesOf batch).utf8ByteSize := rfl
  have sealed : (encryptBlob encrypt nonce (textBytes (batchJson bytesOf batch))).length =
      (textBytes (batchJson bytesOf batch)).length + 41 := by
    simp only [encryptBlob, List.cons_append, List.length_cons, List.length_append, salted, tagged]
    omega
  have ciphertext : (encryptBlob encrypt nonce (textBytes (batchJson bytesOf batch))).length ≤
      maxCiphertextBytes := by
    rw [sealed, plain, maxCiphertextBytes]
    omega
  refine ⟨plain ▸ fits, sealed, ciphertext, ?_, decodes_of_length ciphertext,
    decodes_of_length proven, fun record member => decodes_of_length (values record member), ?_,
    valid⟩
  · have line := managedDelta_size (encryptBlob encrypt nonce (textBytes (batchJson bytesOf batch)))
    have room : base64Size maxCiphertextBytes + 51 ≤ maxMessageBytes := by
      decide +kernel
    have wider := base64Size_mono ciphertext
    rw [line]
    exact (Nat.add_le_add_right wider 51).trans room
  · have written : writable (bytesOf batch.checkpoint.proof) batch.records = true := by
      simp only [writable, Bool.and_eq_true, decide_eq_true_eq, List.all_eq_true]
      exact ⟨proven, values⟩
    simp only [Limits.batch, serdeSizes, written, if_true]
    rw [if_neg (not_lt.mpr fits)]

theorem exportEach_total {adapters : List (String × ManagedAdapter)}
    (uniform : ∀ item ∈ adapters, ∃ descriptor, item.2 = recordsAdapter descriptor)
    {records : List ManagedRecord} (distinct : (records.map ManagedRecord.key).Nodup) :
    ∃ result, exportEach records adapters = .ok result := by
  induction adapters with
  | nil => exact ⟨[], rfl⟩
  | cons item rest ih =>
      obtain ⟨name, adapter⟩ := item
      obtain ⟨descriptor, same⟩ := uniform _ List.mem_cons_self
      simp only at same
      subst same
      obtain ⟨later, exported⟩ := ih fun item member => uniform item (List.mem_cons_of_mem _ member)
      have preserved : ((records.filter fun record => record.adapter = name).map
          ManagedRecord.id).Nodup := by
        rw [List.nodup_map_iff_inj_on (List.Nodup.of_map _ distinct |>.filter _)]
        intro first left second right same
        simp only [List.mem_filter, decide_eq_true_eq] at left right
        refine List.inj_on_of_nodup_map distinct left.1 right.1 ?_
        rw [ManagedRecord.key, ManagedRecord.key, left.2, right.2, same]
      refine ⟨(records.filter fun record => record.adapter = name) ++ later, ?_⟩
      simp only [exportEach, recordsAdapter, exported, Except.map]
      rw [if_neg (not_not.mpr ⟨List.Subset.refl _, preserved⟩)]

theorem selected_distinct {e : Contents Proof} (keyed : Keyed e.records) (peer : String)
    (cursor : ManagedReceipt Proof) : ((selected e peer cursor).map ManagedRecord.key).Nodup := by
  have distinct : (e.records.toList.map Prod.fst).Nodup := by
    rw [Std.ExtTreeMap.map_fst_toList_eq_keys]
    exact Std.ExtTreeMap.nodup_keys
  obtain ⟨chosen, selects⟩ : ∃ chosen,
      selected e peer cursor = (e.records.toList.filter chosen).map Prod.snd := ⟨_, rfl⟩
  have same : (selected e peer cursor).map ManagedRecord.key =
      (e.records.toList.filter chosen).map Prod.fst := by
    rw [selects, List.map_map]
    refine List.map_congr_left fun item member => ?_
    exact keyed _ _ (Std.ExtTreeMap.mem_toList_iff_getElem?_eq_some.mp (List.mem_of_mem_filter member))
  rw [same]
  exact distinct.sublist (List.filter_sublist.map _)

theorem selected_subset {e : Contents Proof} (peer : String) (cursor : ManagedReceipt Proof) :
    selected e peer cursor ⊆ BTreeMap.valueList e.records := by
  intro record member
  simp only [selected, List.mem_map] at member
  obtain ⟨item, listed, rfl⟩ := member
  exact List.mem_map_of_mem (List.mem_of_mem_filter listed)

/-- Every admitted envelope can be exported to every peer it is enrolled with, under every cursor,
and whoever has the same manifest accepts the batch. -/
theorem exportBatch_accepted [DecidableEq Proof] [ReceiptMac Proof] {inner : Inner Proof}
    {bytesOf : Proof → Bytes} (written : inner.sizes = serdeSizes bytesOf)
    (lengths : ∀ proof, (bytesOf proof).length = ReceiptMac.length proof) {e : Contents Proof}
    (admitted : Limits.state inner.sizes e = .ok ()) (counted : e.revision ≤ u64Max)
    {generation : Nat} {peer current : Peer Proof}
    (live : check e generation peer.identity peer.fingerprint = .ok current)
    (cursor : ManagedReceipt Proof) :
    (inner.config.Uniform → Keyed e.records → ∃ records,
      exportRecords inner (selected e peer.identity.deviceId cursor) = .ok records) ∧
    ∀ records, exportRecords inner (selected e peer.identity.deviceId cursor) = .ok records →
      ∃ batch, exportBatch inner generation peer cursor e = .ok (batch, e) ∧
        batch.records = records ∧
        ∀ (encrypt : Bytes → Bytes) (nonce : Bytes) (receiver : Contents Proof),
          (∀ plain, (encrypt plain).length = plain.length + 16) → nonce.length = 24 →
            receiver.metadata.manifest = e.metadata.manifest →
              Accepted bytesOf encrypt nonce batch receiver := by
  constructor
  · intro uniform keyed
    refine exportEach_total (fun item member => ?_) (selected_distinct keyed _ cursor)
    obtain ⟨descriptor, _, same⟩ := uniform item.1 item.2
      (Std.ExtTreeMap.mem_toList_iff_getElem?_eq_some.mp member)
    exact ⟨descriptor, same⟩
  · intro records exported
    obtain ⟨chosen, keyed⟩ := exportRecords_distinct exported
    obtain ⟨named, epoch, few, allowed, complete⟩ := Limits.state_ok admitted
    have subset : records ⊆ BTreeMap.valueList e.records :=
      List.Subset.trans chosen (selected_subset _ cursor)
    have distinct := List.Nodup.of_map _ keyed
    have proven : ∀ fields, (bytesOf (ReceiptMac.mac inner.storageKey fields)).length = 32 :=
      fun fields => (lengths _).trans (ReceiptMac.length_mac _ _)
    have permitted : ∀ record ∈ records, record.value.length ≤ maxRecordBytes ∧ record.id ≠ "" ∧
        record.id.utf8ByteSize ≤ 1024 ∧
          e.metadata.manifest.adapters.any (fun adapter => adapter.id = record.adapter) = true := by
      intro record member
      have fine := allowed record (subset member)
      simp only [Limits.recordAllowed, Bool.and_eq_true, decide_eq_true_eq] at fine
      exact ⟨fine.1.1.1.1, fine.1.1.1.2, fine.1.1.2, fine.2⟩
    let batch : ExportBatch Proof := {
      checkpoint := mint inner e current
      records
      full := wantsFull e cursor }
    have fits : (batchJson bytesOf batch).utf8ByteSize ≤ maxBatchBytes := by
      rw [written] at complete
      simp only [serdeSizes] at complete
      split at complete
      · refine le_trans (batchText_le ?_ distinct subset) complete
        exact receiptText_le epoch counted (proven _)
      · omega
    have within : Limits.batch inner.sizes batch = .ok () := by
      have whole : writable (bytesOf batch.checkpoint.proof) batch.records = true := by
        simp only [writable, Bool.and_eq_true, decide_eq_true_eq, List.all_eq_true]
        exact ⟨(proven _).le, fun record member => (permitted record member).1⟩
      rw [written]
      simp only [Limits.batch, serdeSizes, whole, if_true]
      rw [if_neg (not_lt.mpr fits)]
    refine ⟨batch, ?_, rfl, fun encrypt nonce receiver tagged salted same => ?_⟩
    · simp only [exportBatch, live, exported]
      simp only [batch] at within
      rw [within]
    · refine accepted_of_fits tagged salted fits (proven _).le
        (fun record member => (permitted record member).1) ?_
      have short : records.length ≤ 100000 :=
        (List.subperm_of_subset distinct subset).length_le.trans few
      have sized : ReceiptMac.length batch.checkpoint.proof = 32 := ReceiptMac.length_mac _ _
      have header : ¬(batch.checkpoint.epoch = "" ∨ 128 < batch.checkpoint.epoch.utf8ByteSize ∨
          ReceiptMac.length batch.checkpoint.proof ≠ 32 ∨ 100000 < batch.records.length) := by
        rintro (empty | long | short_proof | many)
        · exact named empty
        · exact absurd epoch (not_le.mpr long)
        · exact short_proof sized
        · exact absurd short (not_le.mpr many)
      rw [validateBatch, if_neg header, if_pos]
      refine ⟨?_, keyed⟩
      rw [List.all_eq_true]
      intro record member
      obtain ⟨bounded, present, narrow, registered⟩ := permitted record member
      rw [same, registered]
      simp [bounded, present, narrow]

end Delivery

section Sample

def symbolicBytes : SymbolicProof → Bytes
  | .empty => []
  | .mac .. => List.replicate 32 0

def serdeDesk : Inner SymbolicProof := { desk.inner with sizes := serdeSizes symbolicBytes }

def deskNote : ManagedRecord where
  adapter := "records"
  id := "note"
  value := [1, 2]
  deleted := false
  clock := { counter := 1, deviceId := "desk" }

def notedDesk : Contents SymbolicProof :=
  (deskWithPhone.perform desk.inner sampleId sampleId {}
    (.write "records" "note" [1, 2] false)).2.envelope.toContents

theorem exportBatch_accepted_note :
    ∃ batch, exportBatch serdeDesk 2 phonePeer default notedDesk = .ok (batch, notedDesk) ∧
      batch.records = [deskNote] ∧
      Accepted symbolicBytes (· ++ List.replicate 16 0) (List.replicate 24 0) batch notedDesk := by
  have lengths : ∀ proof, (symbolicBytes proof).length = ReceiptMac.length proof := by
    intro proof
    cases proof <;> rfl
  have listed : BTreeMap.valueList notedDesk.records = [deskNote] := by decide +kernel
  have named : ¬(notedDesk.epoch = "" ∨ 128 < notedDesk.epoch.utf8ByteSize) := by decide +kernel
  have permitted : [deskNote].all (Limits.recordAllowed notedDesk.metadata.manifest) = true := by
    decide +kernel
  -- The sizes of the texts are summed; the texts themselves are not evaluated.
  have light : ¬maxBatchBytes < serdeDesk.sizes.complete [deskNote] := by
    have whole : writable (List.replicate 32 255) [deskNote] = true := by decide
    simp only [serdeDesk, serdeSizes, whole, if_true, completeJson, batchText_size,
      receiptText_size, widestEpoch_size]
    decide +kernel
  have admitted : Limits.state serdeDesk.sizes notedDesk = .ok () := by
    rw [Limits.state, listed, if_neg named, if_neg (by decide), if_neg (not_not.mpr permitted),
      if_neg (by decide), if_neg light]
  have counted : notedDesk.revision ≤ u64Max := by decide +kernel
  have live : check notedDesk 2 phonePeer.identity phonePeer.fingerprint = .ok phonePeer := by
    decide +kernel
  have exported : exportRecords serdeDesk (selected notedDesk phonePeer.identity.deviceId default) =
      .ok [deskNote] := by
    decide +kernel
  obtain ⟨batch, ran, same, accepted⟩ :=
    (exportBatch_accepted rfl lengths admitted counted live default).2 _ exported
  exact ⟨batch, ran, same, accepted _ _ notedDesk (by simp) (by simp) rfl⟩

end Sample

end LibreSync.Managed
