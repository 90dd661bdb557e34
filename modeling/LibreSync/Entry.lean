import LibreSync.Base

/-! Entries and the Lamport clock that orders their versions. -/

namespace LibreSync

structure LamportClock where
  counter : Nat
  deviceId : String
deriving DecidableEq, Repr, Inhabited

def LamportClock.lexKey (clock : LamportClock) : Nat ×ₗ String :=
  toLex (clock.counter, clock.deviceId)

theorem LamportClock.lexKey_injective : Function.Injective LamportClock.lexKey := by
  intro left right same
  cases left
  cases right
  simpa [LamportClock.lexKey] using same

/-- `Ord for LamportClock`: counters first, device ids break ties. -/
instance : LinearOrder LamportClock :=
  LinearOrder.lift' LamportClock.lexKey LamportClock.lexKey_injective

theorem LamportClock.le_iff {left right : LamportClock} :
    left ≤ right ↔ left.counter < right.counter ∨
      left.counter = right.counter ∧ left.deviceId ≤ right.deviceId :=
  Prod.Lex.le_iff

theorem LamportClock.lt_of_counter_lt {left right : LamportClock}
    (below : left.counter < right.counter) : left < right :=
  Prod.Lex.lt_iff.mpr (Or.inl below)

theorem LamportClock.counter_le {left right : LamportClock} (ordered : left ≤ right) :
    left.counter ≤ right.counter := by
  rcases LamportClock.le_iff.mp ordered with below | ⟨same, _⟩
  · exact below.le
  · exact same.le

/-- `V` is the type of the stored bytes (`Vec<u8>`). -/
structure Entry (V : Type) where
  key : String
  value : V
  clock : LamportClock
deriving DecidableEq, Repr

end LibreSync
