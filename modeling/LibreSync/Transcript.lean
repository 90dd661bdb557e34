import LibreSync.AutoRefresh
import LibreSync.Contract

/-!
What is authenticated, as bytes: the transcript of a pairing, a receipt, the clear part of an
encrypted entry and a list of entries. No two of one kind give the same bytes.
-/

namespace LibreSync

open Managed (JsonTree jsonObject jsonArray jsonString identityText metadataText ReceiptFields)

structure PairHello where
  version : Nat
  invitationId : String
  identity : Identity
  metadata : DeviceMetadata
  clientFingerprint : String
  serverFingerprint : String
  pake : Bytes
deriving DecidableEq

/-- `Transcript`, whose domain is fixed. -/
structure Transcript where
  hello : PairHello
  serverIdentity : Identity
  serverMetadata : DeviceMetadata
  serverPake : Bytes
deriving DecidableEq

def bytesText (bytes : Bytes) : String := jsonArray (bytes.map fun byte => Nat.repr byte.toNat)

def PairHello.text (hello : PairHello) : String :=
  jsonObject [("version", Nat.repr hello.version), ("invitation_id", jsonString hello.invitationId),
    ("identity", identityText hello.identity), ("metadata", metadataText hello.metadata),
    ("client_fingerprint", jsonString hello.clientFingerprint),
    ("server_fingerprint", jsonString hello.serverFingerprint), ("pake", bytesText hello.pake)]

namespace Transcript

def text (transcript : Transcript) : String :=
  jsonObject [("domain", jsonString "libresync-managed-pair-v2"), ("hello", transcript.hello.text),
    ("server_identity", identityText transcript.serverIdentity),
    ("server_metadata", metadataText transcript.serverMetadata),
    ("server_pake", bytesText transcript.serverPake)]

/-- The transcript after its length, which is cast to `u32`. -/
def bytes (transcript : Transcript) : Bytes :=
  let json := utf8 transcript.text
  (Overlay.toBytes 4 (json.length % 2 ^ 32)).reverse ++ json

def macInput (transcript : Transcript) (extra : Bytes) : Bytes := transcript.bytes ++ extra

end Transcript

def receiptMacInput (fields : ReceiptFields) : Bytes :=
  [utf8 "libresync-managed-receipt-v1", utf8 fields.identity.deviceId, utf8 fields.identity.appId,
    utf8 fields.identity.userId, utf8 fields.fingerprint, utf8 fields.incarnation,
    utf8 fields.epoch].flatMap hashBytes ++ hashU64 fields.sequence

section Trees

def identityTree (identity : Identity) : JsonTree :=
  .object [(⟨"device_id", by simp⟩, .string identity.deviceId),
    (⟨"app_id", by simp⟩, .string identity.appId), (⟨"user_id", by simp⟩, .string identity.userId)]

def manifestTree (manifest : AppManifest) : JsonTree :=
  .object [(⟨"app_id", by simp⟩, .string manifest.appId),
    (⟨"display_name", by simp⟩, .string manifest.displayName),
    (⟨"schema_version", by simp⟩, .nat manifest.schemaVersion),
    (⟨"adapters", by simp⟩, .array (manifest.adapters.map adapterTree))]

def metadataTree (metadata : DeviceMetadata) : JsonTree :=
  .object [(⟨"display_name", by simp⟩, .string metadata.displayName),
    (⟨"device_kind", by simp⟩, .string metadata.deviceKind),
    (⟨"role", by simp⟩, .string metadata.role),
    (⟨"manifest", by simp⟩, manifestTree metadata.manifest)]

def bytesTree (bytes : Bytes) : JsonTree := .array (bytes.map fun byte => .nat byte.toNat)

def helloTree (hello : PairHello) : JsonTree :=
  .object [(⟨"version", by simp⟩, .nat hello.version),
    (⟨"invitation_id", by simp⟩, .string hello.invitationId),
    (⟨"identity", by simp⟩, identityTree hello.identity),
    (⟨"metadata", by simp⟩, metadataTree hello.metadata),
    (⟨"client_fingerprint", by simp⟩, .string hello.clientFingerprint),
    (⟨"server_fingerprint", by simp⟩, .string hello.serverFingerprint),
    (⟨"pake", by simp⟩, bytesTree hello.pake)]

def transcriptFields (transcript : Transcript) : List (Managed.FieldName × JsonTree) :=
  [(⟨"domain", by simp⟩, .string "libresync-managed-pair-v2"),
    (⟨"hello", by simp⟩, helloTree transcript.hello),
    (⟨"server_identity", by simp⟩, identityTree transcript.serverIdentity),
    (⟨"server_metadata", by simp⟩, metadataTree transcript.serverMetadata),
    (⟨"server_pake", by simp⟩, bytesTree transcript.serverPake)]

theorem identityTree_text (identity : Identity) :
    (identityTree identity).text = identityText identity := by
  simp only [identityTree, JsonTree.text, JsonTree.fieldTexts, identityText]

theorem metadataTree_text (metadata : DeviceMetadata) :
    (metadataTree metadata).text = metadataText metadata := by
  simp only [metadataTree, manifestTree, JsonTree.text, JsonTree.fieldTexts, metadataText,
    Managed.manifestText, itemTexts_map, adapterTree_text]

theorem bytesTree_text (bytes : Bytes) : (bytesTree bytes).text = bytesText bytes := by
  simp only [bytesTree, JsonTree.text, itemTexts_map, bytesText]

theorem transcriptFields_text (transcript : Transcript) :
    (JsonTree.object (transcriptFields transcript)).text = transcript.text := by
  simp only [transcriptFields, helloTree, JsonTree.text, JsonTree.fieldTexts, Transcript.text,
    PairHello.text, identityTree_text, metadataTree_text, bytesTree_text]

theorem identityTree_injective : Function.Injective identityTree := by
  rintro ⟨⟩ ⟨⟩ same
  simpa [identityTree] using same

theorem manifestTree_injective : Function.Injective manifestTree := by
  rintro ⟨⟩ ⟨⟩ same
  simpa [manifestTree, adapterTree_injective.list_map.eq_iff] using same

theorem metadataTree_injective : Function.Injective metadataTree := by
  rintro ⟨⟩ ⟨⟩ same
  simpa [metadataTree, manifestTree_injective.eq_iff] using same

theorem bytesTree_injective : Function.Injective bytesTree := by
  have byte : Function.Injective fun byte : UInt8 => JsonTree.nat byte.toNat := by
    intro left right same
    exact UInt8.toNat.inj (JsonTree.nat.inj same)
  intro left right same
  exact byte.list_map (JsonTree.array.inj same)

theorem helloTree_injective : Function.Injective helloTree := by
  rintro ⟨⟩ ⟨⟩ same
  simpa [helloTree, identityTree_injective.eq_iff, metadataTree_injective.eq_iff,
    bytesTree_injective.eq_iff] using same

theorem transcriptFields_injective : Function.Injective transcriptFields := by
  rintro ⟨⟩ ⟨⟩ same
  simpa [transcriptFields, helloTree_injective.eq_iff, identityTree_injective.eq_iff,
    metadataTree_injective.eq_iff, bytesTree_injective.eq_iff] using same

end Trees

/-- The length is not needed: the text of an object ends where it is complete. -/
theorem Transcript.bytes_unique : PrefixCode.Unique (fun _ => True) Transcript.bytes := by
  have texts := utf8_unique (JsonTree.object_text_unique.comap transcriptFields
    transcriptFields_injective)
  simp only [transcriptFields_text] at texts
  intro left right _ _ first second same
  simp only [Transcript.bytes, List.append_assoc] at same
  have sizes : ∀ length, (Overlay.toBytes 4 length).reverse.length = 4 := by
    intro length
    rw [List.length_reverse, Overlay.length_toBytes]
  exact texts left right trivial trivial first second
    (List.append_inj same ((sizes _).trans (sizes _).symm)).2

theorem Transcript.macInput_injective :
    Function.Injective fun input : Transcript × Bytes => input.1.macInput input.2 := by
  rintro ⟨left, first⟩ ⟨right, second⟩ same
  obtain ⟨rfl, rfl⟩ := Transcript.bytes_unique left right trivial trivial first second same
  rfl

/-- Every text is shorter than the `u64` of its length can say, and the sequence is one. -/
structure ReceiptSized (fields : ReceiptFields) : Prop where
  texts : ∀ text ∈ [fields.identity.deviceId, fields.identity.appId, fields.identity.userId,
    fields.fingerprint, fields.incarnation, fields.epoch], (utf8 text).length < 2 ^ 64
  sequence : fields.sequence < 2 ^ 64

theorem receiptMacInput_injective : Set.InjOn receiptMacInput {fields | ReceiptSized fields} := by
  have text : PrefixCode.Unique (fun text : String => (utf8 text).length < 2 ^ 64)
      fun text => hashBytes (utf8 text) := hashBytes_unique.comap utf8 utf8_injective
  have unique := text.pair (text.pair (text.pair (text.pair (text.pair (text.pair hashU64_unique)))))
  rintro ⟨⟨deviceId, appId, userId⟩, fingerprint, incarnation, epoch, sequence⟩ leftSized
    ⟨⟨otherDevice, otherApp, otherUser⟩, otherFingerprint, otherIncarnation, otherEpoch, count⟩
    rightSized same
  obtain ⟨leftTexts, leftCount⟩ := leftSized
  obtain ⟨rightTexts, rightCount⟩ := rightSized
  simp only [List.forall_mem_cons, List.not_mem_nil, IsEmpty.forall_iff, implies_true,
    and_true] at leftTexts rightTexts
  simp only [receiptMacInput, List.flatMap_cons, List.flatMap_nil, List.append_assoc,
    List.nil_append] at same
  have fields := List.append_cancel_left same
  obtain ⟨leftDevice, leftApp, leftUser, leftPrint, leftDrawn, leftEpoch⟩ := leftTexts
  obtain ⟨rightDevice, rightApp, rightUser, rightPrint, rightDrawn, rightEpoch⟩ := rightTexts
  have tuples := (unique
    (deviceId, appId, userId, fingerprint, incarnation, epoch, sequence)
    (otherDevice, otherApp, otherUser, otherFingerprint, otherIncarnation, otherEpoch, count)
    ⟨leftDevice, leftApp, leftUser, leftPrint, leftDrawn, leftEpoch, leftCount⟩
    ⟨rightDevice, rightApp, rightUser, rightPrint, rightDrawn, rightEpoch, rightCount⟩ [] []
    (by simpa using fields)).1
  simp only [Prod.mk.injEq] at tuples
  obtain ⟨rfl, rfl, rfl, rfl, rfl, rfl, rfl⟩ := tuples
  rfl

theorem entryAad_injective {left right : Entry Bytes} (leftSized : left.Sized)
    (rightSized : right.Sized) (same : Crypto.entryAad left = Crypto.entryAad right) :
    left.key = right.key ∧ left.clock = right.clock := by
  have unique := hashBytes_unique.pair (hashU64_unique.pair hashBytes_unique)
  simp only [Crypto.entryAad, Crypto.writeLenPrefixed, List.nil_append, List.append_assoc] at same
  have fields := (unique (utf8 left.key, left.clock.counter, utf8 left.clock.deviceId)
    (utf8 right.key, right.clock.counter, utf8 right.clock.deviceId)
    ⟨leftSized.key, leftSized.counter, leftSized.deviceId⟩
    ⟨rightSized.key, rightSized.counter, rightSized.deviceId⟩ [] []
    (by simpa [hashBytes] using same)).1
  simp only [Prod.mk.injEq] at fields
  obtain ⟨keys, counters, devices⟩ := fields
  refine ⟨utf8_injective keys, ?_⟩
  exact LamportClock.lexKey_injective (congrArg toLex (Prod.ext counters (utf8_injective devices)))

section Sorting

theorem sortsBefore_iff {left right : Entry Bytes} : left.sortsBefore right = true ↔
    toLex (left.key, left.clock) ≤ toLex (right.key, right.clock) := by
  rw [Prod.Lex.le_iff]
  simp [Entry.sortsBefore]

theorem sorted_eq {left right : List (Entry Bytes)} (distinct : (left.map Entry.key).Nodup)
    (listed : left.Perm right) :
    left.insertionSort (fun left right => left.sortsBefore right) =
      right.insertionSort fun left right => left.sortsBefore right := by
  have total : Std.Total fun left right : Entry Bytes => left.sortsBefore right = true := by
    constructor
    intro left right
    simp only [sortsBefore_iff]
    exact le_total _ _
  have transitive : IsTrans (Entry Bytes) fun left right => left.sortsBefore right = true := by
    constructor
    intro first second third
    simp only [sortsBefore_iff]
    exact le_trans
  have leftPerm := List.perm_insertionSort (fun left right : Entry Bytes => left.sortsBefore right) left
  have rightPerm := List.perm_insertionSort (fun left right : Entry Bytes => left.sortsBefore right) right
  refine List.Perm.eq_of_pairwise ?_ (List.pairwise_insertionSort _ left)
    (List.pairwise_insertionSort _ right) (leftPerm.trans (listed.trans rightPerm.symm))
  intro first second firstMember secondMember below above
  rw [sortsBefore_iff] at below above
  refine List.inj_on_of_nodup_map distinct (leftPerm.mem_iff.mp firstMember)
    (listed.mem_iff.mpr (rightPerm.mem_iff.mp secondMember)) ?_
  exact congrArg Prod.fst (toLex.injective (le_antisymm below above))

end Sorting

/-- Distinct arguments are authenticated as distinct bytes, and lists of entries are hashed alike
exactly if one is a permutation of the other. -/
theorem authenticated_injective :
    (∀ left right : Entry Bytes, left.Sized → right.Sized →
      Crypto.entryAad left = Crypto.entryAad right →
        left.key = right.key ∧ left.clock = right.clock) ∧
      Set.InjOn receiptMacInput {fields | ReceiptSized fields} ∧
      (Function.Injective fun input : Transcript × Bytes => input.1.macInput input.2) ∧
      ∀ left right : List (Entry Bytes), (∀ entry ∈ left, entry.Sized) →
        (∀ entry ∈ right, entry.Sized) → (left.map Entry.key).Nodup →
          (hashEntries id left = hashEntries id right ↔ left.Perm right) := by
  refine ⟨fun _ _ leftSized rightSized => entryAad_injective leftSized rightSized,
    receiptMacInput_injective, Transcript.macInput_injective, ?_⟩
  intro left right leftSized rightSized distinct
  constructor
  · exact hashEntries_perm Function.injective_id leftSized rightSized
  · intro listed
    rw [hashEntries, hashEntries, sorted_eq distinct listed]

def confusable (key deviceId : String) (value : Bytes) : Entry Bytes where
  key := key
  value := value
  clock := {
    counter := 1
    deviceId := deviceId }

theorem authenticated_injective_confusable :
    Crypto.entryAad (confusable "ab" "" []) ≠ Crypto.entryAad (confusable "a" "b" []) ∧
      receiptMacInput {
          identity := { deviceId := "ab", appId := "", userId := "" }
          fingerprint := ""
          incarnation := ""
          epoch := ""
          sequence := 0 } ≠
        receiptMacInput {
          identity := { deviceId := "a", appId := "b", userId := "" }
          fingerprint := ""
          incarnation := ""
          epoch := ""
          sequence := 0 } ∧
      hashEntries id [confusable "a" "d" [1], confusable "b" "d" [2]] =
        hashEntries id [confusable "b" "d" [2], confusable "a" "d" [1]] := by
  obtain ⟨aad, receipt, -, entries⟩ := authenticated_injective
  have sized : ∀ key ∈ ["ab", "a", "b"], ∀ deviceId ∈ ["", "b", "d"], ∀ value ∈ [[], [1], [2]],
      (confusable key deviceId value).Sized := by
    intro key keyed deviceId drawn value valued
    constructor
    · revert keyed key
      simp only [confusable]
      decide
    · simp only [confusable]
      decide
    · revert drawn deviceId
      simp only [confusable]
      decide
    · revert valued value
      simp only [confusable]
      decide
  refine ⟨fun same => ?_, fun same => ?_, ?_⟩
  · have fields := aad _ _ (sized _ (by simp) _ (by simp) _ (by simp))
      (sized _ (by simp) _ (by simp) _ (by simp)) same
    exact absurd fields.1 (by decide)
  · have fields := receipt ⟨by decide, by decide⟩ ⟨by decide, by decide⟩ same
    exact absurd fields (by decide)
  · refine (entries _ _ ?_ ?_ (by decide)).mpr (by decide)
    · simp only [List.forall_mem_cons]
      exact ⟨sized _ (by simp) _ (by simp) _ (by simp), sized _ (by simp) _ (by simp) _ (by simp),
        by simp⟩
    · simp only [List.forall_mem_cons]
      exact ⟨sized _ (by simp) _ (by simp) _ (by simp), sized _ (by simp) _ (by simp) _ (by simp),
        by simp⟩

end LibreSync
