import Mathlib

/-! Segments written over a list, later ones over earlier ones, and numbers as bytes. -/

namespace Overlay

variable {A : Type}

structure Segment (A : Type) where
  start : Nat
  items : List A

def Segment.stop (segment : Segment A) : Nat := segment.start + segment.items.length

def Segment.at (segment : Segment A) (position : Nat) : Option A :=
  if segment.start ≤ position then segment.items[position - segment.start]? else none

def resize (fill : A) (size : Nat) (list : List A) : List A :=
  list.take size ++ List.replicate (size - list.length) fill

/-- The segment copied over the list, which grows where it is too short. -/
def write (fill : A) (list : List A) (segment : Segment A) : List A :=
  let list := if list.length < segment.stop then resize fill segment.stop list else list
  list.take segment.start ++ segment.items ++ list.drop segment.stop

def writeAll (fill : A) (list : List A) (segments : List (Segment A)) : List A :=
  segments.foldl (write fill) list

/-- What the last segment over a position holds there. -/
def latest (segments : List (Segment A)) (position : Nat) : Option A :=
  segments.foldl (fun held segment => (segment.at position).or held) none

variable {fill : A} {list : List A} {segments : List (Segment A)} {segment : Segment A}

@[simp] theorem length_resize (size : Nat) : (resize fill size list).length = size := by
  simp only [resize, List.length_append, List.length_take, List.length_replicate]
  omega

theorem getElem?_resize (size position : Nat) : (resize fill size list)[position]? =
    if position < size then some (list[position]?.getD fill) else none := by
  by_cases inside : position < size
  · rw [if_pos inside, resize]
    by_cases held : position < list.length
    · rw [List.getElem?_append_left (by simp; omega), List.getElem?_take, if_pos inside,
        List.getElem?_eq_getElem held]
      rfl
    · rw [List.getElem?_append_right (by simp; omega), List.getElem?_replicate, if_pos (by simp; omega),
        List.getElem?_eq_none (not_lt.mp held)]
      rfl
  · rw [if_neg inside, List.getElem?_eq_none]
    simpa using inside

theorem resize_self : resize fill list.length list = list := by
  simp [resize]

theorem write_within (within : segment.stop ≤ list.length) :
    write fill list segment =
      list.take segment.start ++ segment.items ++ list.drop segment.stop := by
  simp only [write, if_neg (not_lt.mpr within)]

theorem length_write (within : segment.stop ≤ list.length) :
    (write fill list segment).length = list.length := by
  rw [write_within within]
  simp only [Segment.stop] at within ⊢
  simp
  omega

theorem getElem?_write (within : segment.stop ≤ list.length) (position : Nat) :
    (write fill list segment)[position]? = (segment.at position).or list[position]? := by
  rw [write_within within]
  simp only [Segment.stop] at within ⊢
  have start : (list.take segment.start).length = segment.start := by
    simp
    omega
  simp only [Segment.at]
  by_cases before : position < segment.start
  · rw [if_neg (by omega), List.append_assoc, List.getElem?_append_left (by omega),
      List.getElem?_take, if_pos before]
    rfl
  · rw [if_pos (by omega)]
    by_cases inside : position < segment.start + segment.items.length
    · rw [List.getElem?_append_left (by simp; omega), List.getElem?_append_right (by omega), start,
        List.getElem?_eq_getElem (by omega)]
      rfl
    · rw [List.getElem?_append_right (by simp; omega), List.getElem?_drop,
        List.getElem?_eq_none (l := segment.items) (by omega)]
      simp only [Option.none_or, List.length_append, start]
      congr 1
      omega

theorem latest_append (segments : List (Segment A)) (segment : Segment A) (position : Nat) :
    latest (segments ++ [segment]) position =
      (segment.at position).or (latest segments position) := by
  simp [latest, List.foldl_append]

theorem writeAll_append (segments : List (Segment A)) (segment : Segment A) :
    writeAll fill list (segments ++ [segment]) = write fill (writeAll fill list segments) segment := by
  simp [writeAll, List.foldl_append]

theorem length_writeAll (within : ∀ segment ∈ segments, segment.stop ≤ list.length) :
    (writeAll fill list segments).length = list.length := by
  induction segments using List.reverseRecOn with
  | nil => rfl
  | append_singleton rest last ih =>
      have before := ih fun segment member => within segment (List.mem_append_left _ member)
      have fits := within last (by simp)
      rw [writeAll_append, length_write (before ▸ fits), before]

theorem getElem?_writeAll (within : ∀ segment ∈ segments, segment.stop ≤ list.length)
    (position : Nat) : (writeAll fill list segments)[position]? =
      (latest segments position).or list[position]? := by
  induction segments using List.reverseRecOn with
  | nil => rfl
  | append_singleton rest last ih =>
      have inner := fun segment member => within segment (List.mem_append_left [last] member)
      have fits := within last (by simp)
      rw [writeAll_append, getElem?_write (by rwa [length_writeAll inner]), ih inner,
        latest_append, Option.or_assoc]

theorem latest_some {position : Nat} {item : A} (found : latest segments position = some item) :
    ∃ segment ∈ segments, segment.at position = some item := by
  induction segments using List.reverseRecOn with
  | nil => simp [latest] at found
  | append_singleton rest last ih =>
      rw [latest_append, Option.or_eq_some_iff] at found
      rcases found with here | ⟨_, earlier⟩
      · exact ⟨last, by simp, here⟩
      · obtain ⟨segment, member, at_⟩ := ih earlier
        exact ⟨segment, List.mem_append_left _ member, at_⟩

theorem latest_none {position : Nat} (missing : latest segments position = none) :
    ∀ segment ∈ segments, segment.at position = none := by
  induction segments using List.reverseRecOn with
  | nil => simp
  | append_singleton rest last ih =>
      rw [latest_append, Option.or_eq_none_iff] at missing
      intro segment member
      rcases List.mem_append.mp member with earlier | here
      · exact ih missing.2 segment earlier
      · rw [List.mem_singleton.mp here]
        exact missing.1

def toBytes : Nat → Nat → List UInt8
  | 0, _ => []
  | size + 1, value => UInt8.ofNat value :: toBytes size (value / 256)

def fromBytes : List UInt8 → Nat
  | [] => 0
  | byte :: rest => byte.toNat + 256 * fromBytes rest

@[simp] theorem length_toBytes (size value : Nat) : (toBytes size value).length = size := by
  induction size generalizing value with
  | zero => rfl
  | succ size ih => rw [toBytes, List.length_cons, ih]

theorem fromBytes_toBytes {size value : Nat} (small : value < 256 ^ size) :
    fromBytes (toBytes size value) = value := by
  induction size generalizing value with
  | zero =>
      rw [pow_zero] at small
      rw [toBytes, fromBytes]
      omega
  | succ size ih =>
      have rest : value / 256 < 256 ^ size := by
        rw [pow_succ] at small
        exact Nat.div_lt_of_lt_mul (by rwa [Nat.mul_comm])
      have byte : (UInt8.ofNat value).toNat = value % 256 := UInt8.toNat_ofNat'
      rw [toBytes, fromBytes, ih rest, byte]
      omega

theorem fromBytes_lt (bytes : List UInt8) : fromBytes bytes < 256 ^ bytes.length := by
  induction bytes with
  | nil => simp [fromBytes]
  | cons byte rest ih =>
      have low := UInt8.toNat_lt byte
      rw [fromBytes, List.length_cons, pow_succ]
      omega

theorem toBytes_fromBytes (bytes : List UInt8) : toBytes bytes.length (fromBytes bytes) = bytes := by
  induction bytes with
  | nil => rfl
  | cons byte rest ih =>
      have low := UInt8.toNat_lt byte
      have first : UInt8.ofNat (byte.toNat + 256 * fromBytes rest) = byte := by
        apply UInt8.toNat.inj
        rw [UInt8.toNat_ofNat']
        omega
      have quotient : (byte.toNat + 256 * fromBytes rest) / 256 = fromBytes rest := by omega
      rw [fromBytes, List.length_cons, toBytes, first, quotient, ih]

end Overlay
