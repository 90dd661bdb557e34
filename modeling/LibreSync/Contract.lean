import LibreSync.Managed.JsonTree
import LibreSync.RecordKey
import LibreSync.Lib.Fallible

/-!
The contract of an app: which manifests are compatible, the digest that is advertised of one, and
the hints of a peer that is discovered.
-/

namespace LibreSync

open Managed (JsonTree FieldName jsonArray jsonString adapterText)

def AppManifest.sortedAdapters (manifest : AppManifest) : List AdapterDescriptor :=
  manifest.adapters.mergeSort fun first second => first.id ≤ second.id

/-- `serde_json::to_vec` of the app's id, the schema version and the sorted adapters. -/
def AppManifest.contractBytes (manifest : AppManifest) : Bytes :=
  utf8 (jsonArray [jsonString manifest.appId, Nat.repr manifest.schemaVersion,
    jsonArray (manifest.sortedAdapters.map adapterText)])

def hexText (bytes : Bytes) : String :=
  String.ofList (bytes.flatMap fun byte =>
    [Nat.digitChar (byte.toNat / 16), Nat.digitChar (byte.toNat % 16)])

def AppManifest.contractDigest (sha256 : Bytes → Bytes) (manifest : AppManifest) :
    Except Error String :=
  match manifest.validate with
  | .error error => .error error
  | .ok () => .ok (hexText (sha256 manifest.contractBytes))

structure PeerAdvertisement where
  displayName : String
  deviceKind : String
  role : String
  appDisplayName : String
  schemaVersion : Nat
  contractDigest : String
deriving DecidableEq

def PeerAdvertisement.compatibleWith (sha256 : Bytes → Bytes) (advertisement : PeerAdvertisement)
    (manifest : AppManifest) : Except Error Bool :=
  if advertisement.schemaVersion = manifest.schemaVersion then
    match manifest.contractDigest sha256 with
    | .error error => .error error
    | .ok digest => .ok (advertisement.contractDigest = digest)
  else .ok false

def discoveryField (text : String) : Bool :=
  text ≠ "" && text.utf8ByteSize ≤ 128 &&
    !text.toList.any fun char => char.val < 32 || 127 ≤ char.val && char.val < 160

def metadataProperties (sha256 : Bytes → Bytes) (identity : Identity) (metadata : DeviceMetadata) :
    Except Error (List (String × String)) :=
  match metadata.validate with
  | .error error => .error error
  | .ok () =>
      if identity.appId ≠ metadata.manifest.appId then
        .error (.protocol "discovery manifest identity mismatch")
      else match metadata.manifest.contractDigest sha256 with
        | .error error => .error error
        | .ok digest =>
            let properties := [("app_id", identity.appId), ("device_id", identity.deviceId),
              ("user_id", identity.userId), ("name", metadata.displayName),
              ("kind", metadata.deviceKind), ("role", metadata.role),
              ("app_name", metadata.manifest.displayName),
              ("schema", Nat.repr metadata.manifest.schemaVersion), ("contract", digest),
              ("managed", "1")]
            if properties.all fun property => discoveryField property.2 then .ok properties
            else .error (.protocol "invalid discovery field")

/-- `parse` of a `u32`: digits, after a plus sign at most. -/
def parseU32 (text : String) : Option Nat :=
  let digits := match text.toList with
    | '+' :: digits => digits
    | digits => digits
  if digits ≠ [] ∧ digits.all Char.isDigit ∧ Nat.ofDigitChars 10 digits 0 < 2 ^ 32 then
    some (Nat.ofDigitChars 10 digits 0)
  else none

/-- The advertisement of `parse_peer_info`, from the properties of a service. -/
def parseAdvertisement (properties : String → Option String) : Option PeerAdvertisement := do
  let text key := (properties key).filter discoveryField
  return {
    displayName := ← text "name"
    deviceKind := ← text "kind"
    role := ← text "role"
    appDisplayName := ← text "app_name"
    schemaVersion := ← parseU32 (← text "schema")
    contractDigest := ← (text "contract").filter (asciiText asciiHexDigit 64) }

section Text

def adapterTree (adapter : AdapterDescriptor) : JsonTree :=
  .object [(⟨"id", by simp⟩, .string adapter.id), (⟨"namespace", by simp⟩, .string adapter.keyNamespace),
    (⟨"schema", by simp⟩, .string adapter.schema),
    (⟨"transactional", by simp⟩, .bool adapter.transactional)]

theorem adapterTree_text (adapter : AdapterDescriptor) :
    (adapterTree adapter).text = adapterText adapter := by
  simp only [adapterTree, JsonTree.text, JsonTree.fieldTexts, adapterText]

theorem adapterTree_injective : Function.Injective adapterTree := by
  intro left right same
  cases left
  cases right
  simpa [adapterTree] using same

theorem itemTexts_map {α : Type} (tree : α → JsonTree) (items : List α) :
    JsonTree.itemTexts (items.map tree) = items.map fun item => (tree item).text := by
  induction items with
  | nil => rfl
  | cons item rest ih => rw [List.map_cons, JsonTree.itemTexts, ih, List.map_cons]

def contractTree (manifest : AppManifest) : JsonTree :=
  .array [.string manifest.appId, .nat manifest.schemaVersion,
    .array (manifest.sortedAdapters.map adapterTree)]

theorem contractTree_text (manifest : AppManifest) :
    manifest.contractBytes = utf8 (contractTree manifest).text := by
  simp only [AppManifest.contractBytes, contractTree, JsonTree.text, JsonTree.itemTexts,
    itemTexts_map, adapterTree_text]

theorem contractBytes_eq_iff {left right : AppManifest} :
    left.contractBytes = right.contractBytes ↔ left.appId = right.appId ∧
      left.schemaVersion = right.schemaVersion ∧ left.sortedAdapters = right.sortedAdapters := by
  rw [contractTree_text, contractTree_text, utf8_injective.eq_iff, JsonTree.text_injective.eq_iff,
    contractTree, contractTree]
  simp [adapterTree_injective.list_map.eq_iff]

theorem compatibleWith_iff {left right : AppManifest} :
    left.compatibleWith right = true ↔ left.contractBytes = right.contractBytes := by
  rw [contractBytes_eq_iff, AppManifest.compatibleWith]
  simp only [Bool.and_eq_true, decide_eq_true_eq, and_assoc]
  rfl

theorem compatibleWith_equivalence :
    Equivalence fun left right : AppManifest => left.compatibleWith right = true := by
  simp only [compatibleWith_iff]
  exact ⟨fun _ => rfl, fun same => same.symm, fun same next => same.trans next⟩

end Text

section Validity

theorem validateAdapters_distinct {ids : List String} {adapters : List AdapterDescriptor}
    (valid : validateAdapters ids adapters = .ok ()) :
    (adapters.map AdapterDescriptor.id).Nodup ∧ ∀ adapter ∈ adapters, adapter.id ∉ ids := by
  induction adapters generalizing ids with
  | nil => simp
  | cons adapter rest ih =>
      rw [validateAdapters] at valid
      obtain ⟨_, _, valid⟩ := Fallible.bind_ok.mp valid
      obtain ⟨_, _, valid⟩ := Fallible.bind_ok.mp valid
      obtain ⟨_, _, valid⟩ := Fallible.bind_ok.mp valid
      split at valid
      · obtain ⟨_, thrown, _⟩ := Fallible.bind_ok.mp valid
        simp [throw, throwThe, MonadExceptOf.throw] at thrown
      · rename_i fresh
        obtain ⟨distinct, apart⟩ := ih valid
        refine ⟨List.nodup_cons.mpr ⟨?_, distinct⟩, ?_⟩
        · intro again
          obtain ⟨other, member, same⟩ := List.mem_map.mp again
          exact apart other member (same ▸ List.mem_cons_self)
        · refine List.forall_mem_cons.mpr ⟨fresh, fun other member earlier => ?_⟩
          exact apart other member (List.mem_cons_of_mem _ earlier)

theorem AppManifest.validate_distinct {manifest : AppManifest} (valid : manifest.validate = .ok ()) :
    (manifest.adapters.map AdapterDescriptor.id).Nodup := by
  rw [AppManifest.validate] at valid
  obtain ⟨_, _, valid⟩ := Fallible.bind_ok.mp valid
  obtain ⟨_, _, valid⟩ := Fallible.bind_ok.mp valid
  split at valid
  · obtain ⟨_, thrown, _⟩ := Fallible.bind_ok.mp valid
    simp [throw, throwThe, MonadExceptOf.throw] at thrown
  · exact (validateAdapters_distinct valid).1

theorem DeviceMetadata.validate_manifest {metadata : DeviceMetadata}
    (valid : metadata.validate = .ok ()) : metadata.manifest.validate = .ok () := by
  rw [DeviceMetadata.validate] at valid
  obtain ⟨_, _, valid⟩ := Fallible.bind_ok.mp valid
  obtain ⟨_, _, valid⟩ := Fallible.bind_ok.mp valid
  obtain ⟨_, _, valid⟩ := Fallible.bind_ok.mp valid
  exact valid

theorem sortedAdapters_eq {left right : AppManifest}
    (distinct : (left.adapters.map AdapterDescriptor.id).Nodup)
    (listed : left.adapters.Perm right.adapters) : left.sortedAdapters = right.sortedAdapters := by
  have leftPerm : left.sortedAdapters.Perm left.adapters := List.mergeSort_perm _ _
  have rightPerm : right.sortedAdapters.Perm right.adapters := List.mergeSort_perm _ _
  have transitive : ∀ first second third : AdapterDescriptor,
      decide (first.id ≤ second.id) → decide (second.id ≤ third.id) → decide (first.id ≤ third.id) := by
    simp only [decide_eq_true_eq]
    exact fun _ _ _ => le_trans
  have total : ∀ first second : AdapterDescriptor,
      (decide (first.id ≤ second.id) || decide (second.id ≤ first.id)) = true := by
    intro first second
    simpa using le_total first.id second.id
  refine List.Perm.eq_of_pairwise ?_ (List.pairwise_mergeSort transitive total left.adapters)
    (List.pairwise_mergeSort transitive total right.adapters)
    (leftPerm.trans (listed.trans rightPerm.symm))
  intro first second firstMember secondMember below above
  simp only [decide_eq_true_eq] at below above
  exact List.inj_on_of_nodup_map distinct (leftPerm.mem_iff.mp firstMember)
    (listed.mem_iff.mpr (rightPerm.mem_iff.mp secondMember)) (le_antisymm below above)

end Validity

section Hints

theorem hexText_injective : Function.Injective hexText := by
  have digits : ∀ left < 16, ∀ right < 16, Nat.digitChar left = Nat.digitChar right → left = right := by
    decide
  have bytes : PrefixCode.Unique (fun _ : UInt8 => True) fun byte =>
      [Nat.digitChar (byte.toNat / 16), Nat.digitChar (byte.toNat % 16)] := by
    refine .of_length 2 (fun _ => rfl) fun left right _ _ same => ?_
    have leftSmall := UInt8.toNat_lt left
    have rightSmall := UInt8.toNat_lt right
    simp only [List.cons.injEq, and_true] at same
    have high := digits _ (by omega) _ (by omega) same.1
    have low := digits _ (by omega) _ (by omega) same.2
    exact UInt8.toNat.inj (by omega)
  intro left right same
  exact bytes.flatMap (by simp) (fun _ _ => trivial) (fun _ _ => trivial)
    (String.ofList_injective same)

variable {sha256 : Bytes → Bytes} {left right : AppManifest}

theorem contractDigest_eq_iff (leftValid : left.validate = .ok ())
    (rightValid : right.validate = .ok ())
    (collisionFree : sha256 left.contractBytes = sha256 right.contractBytes →
      left.contractBytes = right.contractBytes) :
    left.contractDigest sha256 = right.contractDigest sha256 ↔
      left.contractBytes = right.contractBytes := by
  simp only [AppManifest.contractDigest, leftValid, rightValid, Except.ok.injEq,
    hexText_injective.eq_iff]
  exact ⟨collisionFree, congrArg sha256⟩

theorem parseU32_repr {number : Nat} (narrow : number < 2 ^ 32) :
    parseU32 (Nat.repr number) = some number := by
  have value : Nat.ofDigitChars 10 (Nat.toDigits 10 number) 0 = number :=
    Nat.ofDigitChars_toDigits (by decide) (by decide)
  have digits : ∀ char ∈ Nat.toDigits 10 number, char.isDigit = true :=
    fun char member => Nat.isDigit_of_mem_toDigits (by decide) (by decide) member
  have unsigned : (match (Nat.repr number).toList with
      | '+' :: digits => digits
      | digits => digits) = Nat.toDigits 10 number := by
    rw [Nat.repr_eq_ofList_toDigits, String.toList_ofList]
    split
    · rename_i rest signed
      exact absurd (digits '+' (signed ▸ List.mem_cons_self)) (by decide)
    · rfl
  simp only [parseU32, unsigned, value]
  rw [if_pos]
  exact ⟨Nat.toDigits_ne_nil, List.all_eq_true.mpr digits, narrow⟩

theorem hexText_ascii (bytes : Bytes) :
    asciiText asciiHexDigit (2 * bytes.length) (hexText bytes) = true := by
  have digit : ∀ value < 16, asciiHexDigit (Nat.digitChar value) = true ∧
      (Nat.digitChar value).utf8Size = 1 := by
    decide
  rw [asciiText, hexText, Managed.utf8ByteSize_ofList, String.toList_ofList]
  simp only [Bool.and_eq_true, decide_eq_true_eq]
  induction bytes with
  | nil => exact ⟨rfl, rfl⟩
  | cons byte rest ih =>
      have small := UInt8.toNat_lt byte
      obtain ⟨highHex, highSize⟩ := digit (byte.toNat / 16) (by omega)
      obtain ⟨lowHex, lowSize⟩ := digit (byte.toNat % 16) (by omega)
      simp only [List.flatMap_cons, List.cons_append, List.nil_append, List.map_cons,
        List.sum_cons, List.length_cons, List.all_cons, highHex, highSize, lowHex, lowSize,
        Bool.true_and]
      refine ⟨?_, ih.2⟩
      rw [ih.1]
      omega

theorem parseAdvertisement_metadataProperties {identity : Identity} {metadata : DeviceMetadata}
    {properties : List (String × String)}
    (sized : (sha256 metadata.manifest.contractBytes).length = 32)
    (narrow : metadata.manifest.schemaVersion < 2 ^ 32)
    (published : metadataProperties sha256 identity metadata = .ok properties) :
    ∃ digest, metadata.manifest.contractDigest sha256 = .ok digest ∧
      parseAdvertisement (fun key => properties.lookup key) = some {
        displayName := metadata.displayName
        deviceKind := metadata.deviceKind
        role := metadata.role
        appDisplayName := metadata.manifest.displayName
        schemaVersion := metadata.manifest.schemaVersion
        contractDigest := digest } := by
  rw [metadataProperties] at published
  split at published
  · simp at published
  · rename_i valid
    have digest : metadata.manifest.contractDigest sha256 =
        .ok (hexText (sha256 metadata.manifest.contractBytes)) := by
      rw [AppManifest.contractDigest, DeviceMetadata.validate_manifest valid]
    have hex := hexText_ascii (sha256 metadata.manifest.contractBytes)
    rw [sized] at hex
    split at published
    · simp at published
    · rw [digest] at published
      simp only at published
      split at published
      · rename_i fields
        obtain rfl := Except.ok.inj published
        simp only [List.all_cons, List.all_nil, Bool.and_eq_true, Bool.and_true] at fields
        obtain ⟨-, -, -, name, kind, role, appName, schema, contract, -⟩ := fields
        refine ⟨_, digest, ?_⟩
        simp [parseAdvertisement, List.lookup, Option.filter, name, kind, role, appName, schema,
          contract, parseU32_repr narrow, hex]
      · simp at published

theorem PeerAdvertisement.compatibleWith_hint {advertisement : PeerAdvertisement}
    (leftValid : left.validate = .ok ()) (rightValid : right.validate = .ok ())
    (collisionFree : sha256 left.contractBytes = sha256 right.contractBytes →
      left.contractBytes = right.contractBytes)
    (schema : advertisement.schemaVersion = right.schemaVersion)
    (hint : right.contractDigest sha256 = .ok advertisement.contractDigest) :
    advertisement.compatibleWith sha256 left = .ok (left.compatibleWith right) := by
  have digests := contractDigest_eq_iff leftValid rightValid collisionFree
  have known : left.contractDigest sha256 = .ok (hexText (sha256 left.contractBytes)) := by
    rw [AppManifest.contractDigest, leftValid]
  rw [PeerAdvertisement.compatibleWith, schema, known]
  rw [hint, known, Except.ok.injEq, eq_comm, ← compatibleWith_iff] at digests
  by_cases same : right.schemaVersion = left.schemaVersion
  · rw [if_pos same]
    simp only [Except.ok.injEq]
    rw [Bool.eq_iff_iff, decide_eq_true_iff, digests]
  · rw [if_neg same]
    have apart : left.compatibleWith right = false := by
      rw [← Bool.not_eq_true, compatibleWith_iff, contractBytes_eq_iff]
      exact fun equal => same equal.2.1.symm
    rw [apart]

end Hints

open Managed in
/-- What the checks of a device say about the manifest of a peer. -/
structure Verdict (sha256 : Bytes → Bytes) (own peer : AppManifest) (verdict : Bool) : Prop where
  digest : verdict = true ↔ own.contractDigest sha256 = peer.contractDigest sha256
  discovered : ∀ (identity : Identity) (metadata : DeviceMetadata)
    (properties : List (String × String)), metadata.manifest = peer →
    (sha256 peer.contractBytes).length = 32 → peer.schemaVersion < 2 ^ 32 →
    metadataProperties sha256 identity metadata = .ok properties →
    ∃ advertisement, parseAdvertisement (fun key => properties.lookup key) = some advertisement ∧
      advertisement.compatibleWith sha256 own = .ok verdict
  hello : ∀ (Proof : Type) (inner : Inner Proof) (message : Hello Proof),
    inner.config.metadata.manifest = own → message.metadata.manifest = peer →
    message.addresses.length ≤ 32 → (admitHello inner message = .ok () ↔ verdict = true)
  paired : ∀ (Proof : Type) (inner : Inner Proof) (handler : Handler) (e : Contents Proof)
    (outcome : SecurePairingOutcome), inner.config.metadata.manifest = own →
    outcome.metadata.manifest = peer → handler.validate inner e outcome = .ok () → verdict = true

theorem verdict_of_valid {sha256 : Bytes → Bytes} {left right : AppManifest}
    (leftValid : left.validate = .ok ()) (rightValid : right.validate = .ok ())
    (collisionFree : sha256 left.contractBytes = sha256 right.contractBytes →
      left.contractBytes = right.contractBytes) :
    Verdict sha256 left right (left.compatibleWith right) where
  digest := by
    rw [contractDigest_eq_iff leftValid rightValid collisionFree, compatibleWith_iff]
  discovered := by
    rintro identity metadata properties rfl sized narrow published
    obtain ⟨digest, hint, parsed⟩ := parseAdvertisement_metadataProperties sized narrow published
    exact ⟨_, parsed, PeerAdvertisement.compatibleWith_hint leftValid rightValid collisionFree rfl hint⟩
  hello := by
    rintro Proof inner message rfl rfl few
    simp [Managed.admitHello, not_lt.mpr few, Managed.failCode]
  paired := by
    rintro Proof inner handler e outcome rfl rfl accepted
    rw [Managed.Handler.validate] at accepted
    split at accepted
    · simp at accepted
    · split at accepted
      · simp [Managed.fail] at accepted
      · split at accepted
        · simp [Managed.fail] at accepted
        · rename_i fine
          by_contra apart
          exact fine (.inl apart)

/-- Manifests are compatible when the same bytes are hashed of them, in whatever order they list
their adapters and whatever they are displayed as, and both devices find out the same. -/
theorem contract_agrees {sha256 : Bytes → Bytes} {left right : AppManifest}
    (leftValid : left.validate = .ok ()) (rightValid : right.validate = .ok ())
    (collisionFree : sha256 left.contractBytes = sha256 right.contractBytes →
      left.contractBytes = right.contractBytes) :
    (left.compatibleWith right = true ↔ left.contractBytes = right.contractBytes) ∧
      (∀ other : AppManifest, other.appId = left.appId →
        other.schemaVersion = left.schemaVersion → left.adapters.Perm other.adapters →
        other.contractBytes = left.contractBytes ∧
          other.compatibleWith right = left.compatibleWith right) ∧
      (Equivalence fun first second : AppManifest => first.compatibleWith second = true) ∧
      Verdict sha256 left right (left.compatibleWith right) ∧
      Verdict sha256 right left (left.compatibleWith right) := by
  refine ⟨compatibleWith_iff, ?_, compatibleWith_equivalence, ?_, ?_⟩
  · intro other app schema listed
    have same : other.contractBytes = left.contractBytes := by
      refine contractBytes_eq_iff.mpr ⟨app, schema, ?_⟩
      exact (sortedAdapters_eq (AppManifest.validate_distinct leftValid) listed).symm
    refine ⟨same, ?_⟩
    rw [Bool.eq_iff_iff, compatibleWith_iff, compatibleWith_iff, same]
  · exact verdict_of_valid leftValid rightValid collisionFree
  · have swapped : left.compatibleWith right = right.compatibleWith left := by
      rw [Bool.eq_iff_iff, compatibleWith_iff, compatibleWith_iff, eq_comm]
    rw [swapped]
    exact verdict_of_valid rightValid leftValid fun same => (collisionFree same.symm).symm

def reorderedManifest (displayName : String) (ids : List String) : AppManifest where
  appId := "app"
  displayName := displayName
  schemaVersion := 1
  adapters := ids.map fun id => {
    id
    keyNamespace := "app"
    schema := "kv"
    transactional := true }

def reorderedDigest : Bytes := [
    101, 90, 186, 45, 171, 108, 109, 248, 191, 117, 60, 190, 244, 119, 69, 226,
    29, 206, 87, 110, 150, 199, 97, 57, 200, 228, 146, 95, 43, 113, 48, 233]

theorem contract_agrees_reordered :
    (reorderedManifest "Notes" ["notes", "records"]).compatibleWith
        (reorderedManifest "Notizen" ["records", "notes"]) = true ∧
      Verdict (fun _ => reorderedDigest) (reorderedManifest "Notizen" ["records", "notes"])
        (reorderedManifest "Notes" ["notes", "records"]) true := by
  have same : (reorderedManifest "Notes" ["notes", "records"]).contractBytes =
      (reorderedManifest "Notizen" ["records", "notes"]).contractBytes :=
    contractBytes_eq_iff.mpr ⟨rfl, rfl, sortedAdapters_eq (by decide) (by decide)⟩
  have agrees := @contract_agrees (fun _ => reorderedDigest)
    (reorderedManifest "Notes" ["notes", "records"])
    (reorderedManifest "Notizen" ["records", "notes"]) rfl rfl fun _ => same
  have compatible := agrees.1.mpr same
  refine ⟨compatible, ?_⟩
  rw [← compatible]
  exact agrees.2.2.2.2

end LibreSync
