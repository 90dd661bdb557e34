import LibreSync.Entry
import LibreSync.Handler
import LibreSync.RecordKey
import LibreSync.Lib.Overlay
import LibreSync.Lib.PrefixCode

/-! Entries and blobs encrypted under the app key. -/

namespace LibreSync

def hashU64 (value : Nat) : Bytes := (Overlay.toBytes 8 value).reverse

def hashBytes (bytes : Bytes) : Bytes := hashU64 bytes.length ++ bytes

theorem hashU64_unique : PrefixCode.Unique (fun value => value < 2 ^ 64) hashU64 := by
  refine PrefixCode.Unique.of_length 8 ?_ ?_
  · intro value
    rw [hashU64, List.length_reverse, Overlay.length_toBytes]
  · intro left right leftSmall rightSmall same
    have back : ∀ value < 2 ^ 64, Overlay.fromBytes (Overlay.toBytes 8 value) = value :=
      fun value small => Overlay.fromBytes_toBytes small
    rw [← back left leftSmall, List.reverse_injective same, back right rightSmall]

theorem hashBytes_unique :
    PrefixCode.Unique (fun bytes : Bytes => bytes.length < 2 ^ 64) hashBytes :=
  hashU64_unique.framed

structure Nonce where
  bytes : Bytes
  sized : bytes.length = 24
deriving DecidableEq

/-- `XChaCha20Poly1305` over key, nonce, text and associated data: a ciphertext opens under its
own key, and under no other, and what opens is the ciphertext of what comes out. Only texts beyond
its limit fail to encrypt. -/
structure Cipher where
  encrypt : AppKey → Nonce → Bytes → Bytes → Bytes
  decrypt : AppKey → Nonce → Bytes → Bytes → Option Bytes
  opens : ∀ key nonce message aad, decrypt key nonce (encrypt key nonce message aad) aad = some message
  authentic : ∀ key nonce ciphertext aad message,
    decrypt key nonce ciphertext aad = some message → encrypt key nonce message aad = ciphertext
  rejects : ∀ key other nonce message aad, other ≠ key →
    decrypt other nonce (encrypt key nonce message aad) aad = none

namespace Crypto

variable (cipher : Cipher) (key : AppKey)

def lock (nonce : Nonce) (message aad : Bytes) : Bytes :=
  1 :: (nonce.bytes ++ cipher.encrypt key nonce message aad)

def unlock (short version failed : String) (locked aad : Bytes) : Except Error Bytes :=
  if enough : 1 + 24 ≤ locked.length then
    if locked.head? = some 1 then
      match cipher.decrypt key ⟨(locked.drop 1).take 24, by simp; omega⟩ (locked.drop (1 + 24)) aad with
      | some message => .ok message
      | none => .error (.crypto failed)
    else .error (.crypto version)
  else .error (.crypto short)

def writeLenPrefixed (out bytes : Bytes) : Bytes := out ++ (hashU64 bytes.length ++ bytes)

def entryAad (entry : Entry Bytes) : Bytes :=
  writeLenPrefixed (writeLenPrefixed [] (utf8 entry.key) ++ hashU64 entry.clock.counter)
    (utf8 entry.clock.deviceId)

def encryptEntry (nonce : Nonce) (entry : Entry Bytes) : Entry Bytes :=
  { entry with value := lock cipher key nonce entry.value (entryAad entry) }

def decryptEntry (entry : Entry Bytes) : Except Error (Entry Bytes) :=
  (unlock cipher key "encrypted entry too short" "unsupported encryption version"
    "failed to decrypt entry" entry.value (entryAad entry)).map fun value => { entry with value }

/-- `encrypt_entries`; each entry has a random nonce of its own. -/
def encryptEntries (nonces : Nat → Nonce) (entries : List (Entry Bytes)) : List (Entry Bytes) :=
  entries.mapIdx fun index => encryptEntry cipher key (nonces index)

def decryptEntries (entries : List (Entry Bytes)) : Except Error (List (Entry Bytes)) :=
  entries.mapM (decryptEntry cipher key)

def encryptBlob (nonce : Nonce) (plaintext aad : Bytes) : Bytes :=
  lock cipher key nonce plaintext aad

def decryptBlob (blob aad : Bytes) : Except Error Bytes :=
  unlock cipher key "encrypted blob too short" "unsupported blob version" "failed to decrypt blob"
    blob aad

variable {cipher} {key} {other : AppKey}

theorem unlock_lock {short version failed : String} (nonce : Nonce) (message aad : Bytes) :
    unlock cipher other short version failed (lock cipher key nonce message aad) aad =
      match cipher.decrypt other nonce (cipher.encrypt key nonce message aad) aad with
      | some message => .ok message
      | none => .error (.crypto failed) := by
  have enough : 1 + 24 ≤ (lock cipher key nonce message aad).length := by
    simp [lock, nonce.sized]
  have rest : (lock cipher key nonce message aad).drop (1 + 24) =
      cipher.encrypt key nonce message aad := by
    simp [lock, nonce.sized]
  have drawn : ((lock cipher key nonce message aad).drop 1).take 24 = nonce.bytes := by
    simp [lock, ← nonce.sized]
  simp only [unlock, enough, ↓reduceDIte, rest, drawn]
  rfl

theorem decryptBlob_encryptBlob (nonce : Nonce) (plaintext aad : Bytes) :
    decryptBlob cipher key (encryptBlob cipher key nonce plaintext aad) aad = .ok plaintext := by
  rw [decryptBlob, encryptBlob, unlock_lock, cipher.opens]

theorem decryptBlob_other (differs : other ≠ key) (nonce : Nonce) (plaintext aad : Bytes) :
    decryptBlob cipher other (encryptBlob cipher key nonce plaintext aad) aad =
      .error (.crypto "failed to decrypt blob") := by
  rw [decryptBlob, encryptBlob, unlock_lock, cipher.rejects _ _ _ _ _ differs]

theorem decryptEntry_encryptEntry (nonce : Nonce) (entry : Entry Bytes) :
    decryptEntry cipher key (encryptEntry cipher key nonce entry) = .ok entry := by
  have aad : entryAad (encryptEntry cipher key nonce entry) = entryAad entry := rfl
  rw [decryptEntry, aad, encryptEntry, unlock_lock, cipher.opens]
  rfl

theorem decryptEntry_other (differs : other ≠ key) (nonce : Nonce) (entry : Entry Bytes) :
    decryptEntry cipher other (encryptEntry cipher key nonce entry) =
      .error (.crypto "failed to decrypt entry") := by
  have aad : entryAad (encryptEntry cipher key nonce entry) = entryAad entry := rfl
  rw [decryptEntry, aad, encryptEntry, unlock_lock, cipher.rejects _ _ _ _ _ differs]
  rfl

theorem decryptEntries_encryptEntries (nonces : Nat → Nonce) (entries : List (Entry Bytes)) :
    decryptEntries cipher key (encryptEntries cipher key nonces entries) = .ok entries := by
  induction entries generalizing nonces with
  | nil => rfl
  | cons entry rest ih =>
      have later := ih fun index => nonces (index + 1)
      rw [decryptEntries, encryptEntries] at later
      rw [decryptEntries, encryptEntries, List.mapIdx_cons, List.mapM_cons,
        decryptEntry_encryptEntry, later]
      rfl

theorem decryptEntries_other_iff (differs : other ≠ key) {nonces : Nat → Nonce}
    {entries found : List (Entry Bytes)} :
    decryptEntries cipher other (encryptEntries cipher key nonces entries) = .ok found ↔
      entries = [] ∧ found = [] := by
  cases entries with
  | nil => simp [decryptEntries, encryptEntries, pure, Except.pure, eq_comm]
  | cons entry rest =>
      rw [decryptEntries, encryptEntries, List.mapIdx_cons, List.mapM_cons,
        decryptEntry_other differs]
      simp [bind, Except.bind]

theorem decryptEntries_nil {entries : List (Entry Bytes)}
    (opened : decryptEntries cipher key entries = .ok []) : entries = [] := by
  cases entries with
  | nil => rfl
  | cons entry rest =>
      rw [decryptEntries, List.mapM_cons] at opened
      cases first : decryptEntry cipher key entry with
      | error error => simp [first, bind, Except.bind] at opened
      | ok value =>
          cases later : rest.mapM (decryptEntry cipher key) with
          | error error => simp [first, later, bind, Except.bind] at opened
          | ok values => simp [first, later, bind, Except.bind, pure, Except.pure] at opened

theorem unlock_other {short version failed : String} {locked aad message : Bytes}
    (opened : unlock cipher key short version failed locked aad = .ok message)
    (differs : other ≠ key) : ∃ error, unlock cipher other short version failed locked aad =
      .error error := by
  simp only [unlock] at opened ⊢
  split at opened
  · rename_i enough
    split at opened
    · rename_i known
      split at opened
      · rename_i found decrypted
        have made := cipher.authentic _ _ _ _ _ decrypted
        have rejected := made ▸ cipher.rejects key other
          { bytes := (locked.drop 1).take 24, sized := by simp; omega } found aad differs
        rw [dif_pos enough, if_pos known, rejected]
        exact ⟨_, rfl⟩
      · exact absurd opened (by simp)
    · exact absurd opened (by simp)
  · exact absurd opened (by simp)

theorem decryptEntries_both (differs : other ≠ key) {entries plain found : List (Entry Bytes)}
    (opened : decryptEntries cipher key entries = .ok plain)
    (again : decryptEntries cipher other entries = .ok found) : entries = [] := by
  cases entries with
  | nil => rfl
  | cons entry rest =>
      rw [decryptEntries, List.mapM_cons] at opened again
      cases value : unlock cipher key "encrypted entry too short" "unsupported encryption version"
          "failed to decrypt entry" entry.value (entryAad entry) with
      | error error => simp [decryptEntry, value, bind, Except.bind, Except.map] at opened
      | ok message =>
          obtain ⟨error, rejected⟩ := unlock_other value differs
          simp [decryptEntry, rejected, bind, Except.bind, Except.map] at again

end Crypto

end LibreSync
