import LibreSync.Managed.Adapter

/-! Checkpoint receipts: their source mints them for one enrolment and verifies them against it. -/

namespace LibreSync.Managed

/-- What the receipt MAC covers, each text with its length. -/
structure ReceiptFields where
  identity : Identity
  fingerprint : String
  incarnation : String
  epoch : String
  sequence : Nat
deriving DecidableEq

/-- Proof bytes under an ideal HMAC keyed by the storage key. -/
class ReceiptMac (Proof : Type) where
  empty : Proof
  length : Proof → Nat
  mac : Bytes → ReceiptFields → Proof
  length_empty : length empty = 0
  length_mac : ∀ (key : Bytes) (fields : ReceiptFields), length (mac key fields) = 32
  mac_injective : ∀ (key other : Bytes) (fields query : ReceiptFields),
    mac key fields = mac other query → key = other ∧ fields = query

inductive SymbolicProof where
  | empty
  | mac (key : Bytes) (fields : ReceiptFields)
deriving DecidableEq

instance : ReceiptMac SymbolicProof where
  empty := .empty
  length
    | .empty => 0
    | .mac .. => 32
  mac := .mac
  length_empty := rfl
  length_mac _ _ := rfl
  mac_injective _ _ _ _ same := SymbolicProof.mac.inj same

section Receipts

variable {Proof : Type} [ReceiptMac Proof]

instance : Inhabited (ManagedReceipt Proof) where
  default := { epoch := "", sequence := 0, proof := ReceiptMac.empty }

variable (inner : Inner Proof)

def Peer.mac (peer : Peer Proof) (epoch : String) (sequence : Nat) : Proof :=
  ReceiptMac.mac inner.storageKey {
    identity := peer.identity
    fingerprint := peer.fingerprint
    incarnation := peer.incarnation
    epoch
    sequence }

def mint (e : Contents Proof) (peer : Peer Proof) : ManagedReceipt Proof where
  epoch := e.epoch
  sequence := e.revision
  proof := peer.mac inner e.epoch e.revision

variable [DecidableEq Proof]

def verify (e : Contents Proof) (peer : Peer Proof) (receipt : ManagedReceipt Proof) :
    Except Error Unit :=
  if peer.revoked ∨ peer.incarnation = "" ∨ receipt.epoch ≠ e.epoch ∨
      e.revision < receipt.sequence ∨ ReceiptMac.length receipt.proof ≠ 32 then
    fail "receipt is outside current enrollment history"
  else if receipt.proof ≠ peer.mac inner receipt.epoch receipt.sequence then
    .error (.protocol "checkpoint proof is not authentic for current enrollment")
  else .ok ()

variable {inner} {e : Contents Proof} {peer : Peer Proof} {receipt : ManagedReceipt Proof}

theorem verify_ok : verify inner e peer receipt = .ok () ↔
    peer.revoked = false ∧ peer.incarnation ≠ "" ∧ receipt.epoch = e.epoch ∧
      receipt.sequence ≤ e.revision ∧
      receipt.proof = peer.mac inner receipt.epoch receipt.sequence := by
  simp only [verify, fail]
  constructor
  · intro verified
    split at verified
    · simp at verified
    · rename_i inside
      split at verified
      · simp at verified
      · rename_i authentic
        simp only [not_or, not_not, not_lt, Bool.not_eq_true] at inside
        obtain ⟨current, named, same, past, -⟩ := inside
        exact ⟨current, named, same, past, not_not.mp authentic⟩
  · rintro ⟨current, named, same, past, authentic⟩
    have sized : ReceiptMac.length receipt.proof = 32 := by
      rw [authentic, Peer.mac, ReceiptMac.length_mac]
    rw [if_neg (by simp [current, named, same, past, sized]), if_neg (not_not.mpr authentic)]

theorem verify_mint (current : peer.revoked = false) (named : peer.incarnation ≠ "") :
    verify inner e peer (mint inner e peer) = .ok () :=
  verify_ok.mpr ⟨current, named, rfl, le_rfl, rfl⟩

end Receipts

end LibreSync.Managed
