import LibreSync.Base
import LibreSync.Lib.Surplus

/-! What a backup manager prunes under a retention policy. -/

namespace LibreSync

structure SnapshotMetadata where
  id : String
  adapterId : String
  createdAtUnixSecs : Nat
  entryCount : Nat
  createdByDeviceId : Option String
  label : Option String
  note : Option String
deriving DecidableEq

structure RetentionPolicy where
  maxSnapshots : Option Nat
  maxAgeSecs : Option Nat

def RetentionPolicy.isEmpty (policy : RetentionPolicy) : Bool :=
  policy.maxSnapshots.isNone && policy.maxAgeSecs.isNone

structure PrunePlan where
  adapterId : String
  total : Nat
  toDelete : List String

namespace BackupManager

/-- `HashSet::insert`, on a list without repetitions. -/
def insertId (ids : List String) (id : String) : List String := if id ∈ ids then ids else id :: ids

def markExpired (cutoff : Nat) (marked : List String) : List SnapshotMetadata → List String
  | [] => marked
  | snapshot :: rest =>
      if snapshot.createdAtUnixSecs < cutoff then markExpired cutoff (insertId marked snapshot.id) rest
      else markExpired cutoff marked rest

/-- The loop over the snapshots while more than `maxKeep` remain. -/
def markSurplus (maxKeep remaining : Nat) (marked : List String) :
    List SnapshotMetadata → List String
  | [] => marked
  | snapshot :: rest =>
      if remaining ≤ maxKeep then marked
      else if snapshot.id ∈ marked then markSurplus maxKeep remaining marked rest
      else markSurplus maxKeep (remaining - 1) (insertId marked snapshot.id) rest

def expiredIds (now : Nat) (policy : RetentionPolicy) (snapshots : List SnapshotMetadata) :
    List String :=
  match policy.maxAgeSecs with
  | none => []
  | some maxAge => markExpired (now - maxAge) [] snapshots

/-- `plan_prune` at this time, with what the store lists. -/
def planPrune (now : Nat) (adapterId : String) (policy : RetentionPolicy)
    (listed : Except Error (List SnapshotMetadata)) : Except Error PrunePlan :=
  listed.map fun snapshots =>
    let snapshots := Surplus.byAge SnapshotMetadata.createdAtUnixSecs snapshots
    let total := snapshots.length
    if total = 0 ∨ policy.isEmpty then { adapterId, total, toDelete := [] }
    else
      let expired := expiredIds now policy snapshots
      let marked := match policy.maxSnapshots with
        | none => expired
        | some maxKeep =>
            if maxKeep < total then markSurplus maxKeep (total - expired.length) expired snapshots
            else expired
      { adapterId, total, toDelete := marked.insertionSort (· ≤ ·) }

def expired (now : Nat) (policy : RetentionPolicy) (snapshot : SnapshotMetadata) : Bool :=
  policy.maxAgeSecs.any fun maxAge => maxAge < now - snapshot.createdAtUnixSecs

section Marks

variable {snapshots : List SnapshotMetadata} {marked : List String} {cutoff : Nat} {id : String}

theorem mem_insertId {other : String} : id ∈ insertId marked other ↔ id ∈ marked ∨ id = other := by
  rw [insertId]
  split
  · rename_i present
    exact ⟨Or.inl, fun either => either.elim (fun member => member) fun same => same ▸ present⟩
  · rw [List.mem_cons]
    exact Or.comm

theorem insertId_nodup {other : String} (nodup : marked.Nodup) : (insertId marked other).Nodup := by
  rw [insertId]
  split
  · exact nodup
  · rename_i absent
    exact List.nodup_cons.mpr ⟨absent, nodup⟩

theorem mem_markExpired : id ∈ markExpired cutoff marked snapshots ↔ id ∈ marked ∨
    ∃ snapshot ∈ snapshots, snapshot.createdAtUnixSecs < cutoff ∧ snapshot.id = id := by
  induction snapshots generalizing marked with
  | nil => simp [markExpired]
  | cons snapshot rest ih =>
      rw [markExpired]
      split
      · rename_i old
        rw [ih, mem_insertId, or_assoc, List.exists_mem_cons_iff]
        simp only [old, true_and, eq_comm]
      · rename_i young
        rw [ih, List.exists_mem_cons_iff]
        simp only [young, false_and, false_or]

theorem markExpired_nodup (nodup : marked.Nodup) :
    (markExpired cutoff marked snapshots).Nodup := by
  induction snapshots generalizing marked with
  | nil => exact nodup
  | cons snapshot rest ih =>
      rw [markExpired]
      split
      · exact ih (insertId_nodup nodup)
      · exact ih nodup

theorem mem_markSurplus {maxKeep remaining : Nat} (distinct : (snapshots.map (·.id)).Nodup) :
    id ∈ markSurplus maxKeep remaining marked snapshots ↔ id ∈ marked ∨
      ∃ snapshot ∈ (snapshots.filter fun snapshot => snapshot.id ∉ marked).take
        (remaining - maxKeep), snapshot.id = id := by
  induction snapshots generalizing marked remaining with
  | nil => simp [markSurplus]
  | cons snapshot rest ih =>
      obtain ⟨fresh, others⟩ := List.nodup_cons.mp distinct
      rw [markSurplus]
      split
      · rename_i enough
        simp [Nat.sub_eq_zero_of_le enough]
      · rename_i many
        split
        · rename_i already
          rw [ih others, List.filter_cons_of_neg (by simpa using already)]
        · rename_i unmarked
          have same : (rest.filter fun other => other.id ∉ insertId marked snapshot.id) =
              rest.filter fun other => other.id ∉ marked := by
            refine List.filter_congr fun other member => ?_
            have apart : other.id ≠ snapshot.id := by
              intro equal
              exact fresh (List.mem_map.mpr ⟨other, member, equal⟩)
            simp [mem_insertId, apart]
          have more : remaining - maxKeep = (remaining - 1 - maxKeep) + 1 := by omega
          rw [ih others, same, List.filter_cons_of_pos (by simpa using unmarked), more,
            List.take_succ_cons, List.exists_mem_cons_iff, mem_insertId, or_assoc]
          simp only [eq_comm]

end Marks

section Plan

variable {now : Nat} {adapterId : String} {policy : RetentionPolicy}
  {listed : List SnapshotMetadata}

def unexpired (now : Nat) (policy : RetentionPolicy) (listed : List SnapshotMetadata) :
    List SnapshotMetadata :=
  (Surplus.byAge SnapshotMetadata.createdAtUnixSecs listed).filter fun snapshot =>
    !expired now policy snapshot

theorem mem_expiredIds {snapshots : List SnapshotMetadata} {id : String} :
    id ∈ expiredIds now policy snapshots ↔
      ∃ snapshot ∈ snapshots, expired now policy snapshot = true ∧ snapshot.id = id := by
  simp only [expiredIds, expired]
  cases policy.maxAgeSecs with
  | none => simp
  | some maxAge =>
      have older : ∀ created : Nat, created < now - maxAge ↔ maxAge < now - created := by
        intro created
        omega
      simp [mem_markExpired, older]

theorem expiredIds_nodup {snapshots : List SnapshotMetadata} :
    (expiredIds now policy snapshots).Nodup := by
  simp only [expiredIds]
  split
  · exact List.nodup_nil
  · exact markExpired_nodup List.nodup_nil

theorem length_expiredIds {snapshots : List SnapshotMetadata}
    (distinct : (snapshots.map (·.id)).Nodup) : (expiredIds now policy snapshots).length =
      (snapshots.filter (expired now policy)).length := by
  have nodup : ((snapshots.filter (expired now policy)).map (·.id)).Nodup :=
    distinct.sublist (List.filter_sublist.map _)
  have same := (List.perm_ext_iff_of_nodup expiredIds_nodup nodup).mpr fun id =>
    show id ∈ expiredIds now policy snapshots ↔ _ by simp [mem_expiredIds, and_assoc]
  rw [same.length_eq, List.length_map]

theorem eq_of_id {snapshots : List SnapshotMetadata} (apart : (snapshots.map (·.id)).Nodup)
    {one other : SnapshotMetadata} (listed : one ∈ snapshots) (present : other ∈ snapshots)
    (same : other.id = one.id) : other = one :=
  List.inj_on_of_nodup_map apart present listed same

theorem id_mem_expiredIds {snapshots : List SnapshotMetadata}
    (apart : (snapshots.map (·.id)).Nodup) {snapshot : SnapshotMetadata}
    (listed : snapshot ∈ snapshots) : snapshot.id ∈ expiredIds now policy snapshots ↔
      expired now policy snapshot = true := by
  rw [mem_expiredIds]
  constructor
  · rintro ⟨other, present, old, same⟩
    exact eq_of_id apart listed present same ▸ old
  · exact fun old => ⟨snapshot, listed, old, rfl⟩

theorem mem_marked {snapshots : List SnapshotMetadata} {maxKeep : Nat}
    (apart : (snapshots.map (·.id)).Nodup) {snapshot : SnapshotMetadata}
    (listed : snapshot ∈ snapshots) :
    snapshot.id ∈ markSurplus maxKeep (snapshots.length - (expiredIds now policy snapshots).length)
        (expiredIds now policy snapshots) snapshots ↔
      expired now policy snapshot = true ∨ snapshot ∈
        (snapshots.filter fun snapshot => !expired now policy snapshot).take
          ((snapshots.filter fun snapshot => !expired now policy snapshot).length - maxKeep) := by
  have fresh : (snapshots.filter fun one => one.id ∉ expiredIds now policy snapshots) =
      snapshots.filter fun one => !expired now policy one :=
    List.filter_congr fun one present => by simp [id_mem_expiredIds apart present]
  have remaining : snapshots.length - (expiredIds now policy snapshots).length =
      (snapshots.filter fun one => !expired now policy one).length := by
    have both := List.length_eq_length_filter_add (l := snapshots) (expired now policy)
    rw [length_expiredIds apart]
    omega
  rw [mem_markSurplus apart, id_mem_expiredIds apart listed, fresh, remaining]
  refine or_congr Iff.rfl ⟨?_, fun taken => ⟨snapshot, taken, rfl⟩⟩
  rintro ⟨other, taken, same⟩
  have present : other ∈ snapshots := (List.mem_filter.mp (List.mem_of_mem_take taken)).1
  exact eq_of_id apart listed present same ▸ taken

def tooMany (now : Nat) (policy : RetentionPolicy) (listed : List SnapshotMetadata) :
    List SnapshotMetadata :=
  match policy.maxSnapshots with
  | none => []
  | some maxKeep =>
      Surplus.surplus SnapshotMetadata.createdAtUnixSecs maxKeep (unexpired now policy listed)

variable (now adapterId) in
theorem planPrune_marks (distinct : (listed.map (·.id)).Nodup) (limits : policy.isEmpty = false) :
    ∃ plan, planPrune now adapterId policy (.ok listed) = .ok plan ∧
      plan.total = listed.length ∧ ∀ snapshot ∈ listed, snapshot.id ∈ plan.toDelete ↔
        expired now policy snapshot = true ∨ snapshot ∈ tooMany now policy listed := by
  have sorted : (unexpired now policy listed).Pairwise fun left right =>
      left.createdAtUnixSecs ≤ right.createdAtUnixSecs := Surplus.byAge_sorted.filter _
  have surplus : ∀ maxKeep, Surplus.surplus SnapshotMetadata.createdAtUnixSecs maxKeep
      (unexpired now policy listed) = (unexpired now policy listed).take
        ((unexpired now policy listed).length - maxKeep) := by
    intro maxKeep
    rw [Surplus.surplus, Surplus.byAge_of_sorted sorted]
  simp only [tooMany, surplus]
  simp only [unexpired, planPrune, Except.map]
  generalize ordered : Surplus.byAge SnapshotMetadata.createdAtUnixSecs listed = snapshots
  have perm : snapshots.Perm listed := ordered ▸ Surplus.byAge_perm
  have apart : (snapshots.map (·.id)).Nodup := (perm.map _).nodup_iff.mpr distinct
  refine ⟨_, rfl, ?_⟩
  simp only [limits, Bool.false_eq_true, or_false]
  split
  · rename_i none
    have empty : listed = [] := List.length_eq_zero_iff.mp (perm.length_eq ▸ none)
    simp [empty, none]
  · refine ⟨perm.length_eq, fun snapshot member => ?_⟩
    have listed := perm.mem_iff.mpr member
    rw [(List.perm_insertionSort _ _).mem_iff]
    cases policy.maxSnapshots with
    | none =>
        rw [id_mem_expiredIds apart listed]
        simp
    | some maxKeep =>
        dsimp only
        split
        · exact mem_marked apart listed
        · rename_i few
          have fresh := List.length_filter_le (fun one => !expired now policy one) snapshots
          rw [id_mem_expiredIds apart listed, Nat.sub_eq_zero_of_le (by omega), List.take_zero]
          simp

theorem older {old young : SnapshotMetadata} (goes : expired now policy old = true)
    (stays : expired now policy young = false) :
    old.createdAtUnixSecs ≤ young.createdAtUnixSecs := by
  obtain ⟨maxAge, limit, late⟩ := (Option.any_eq_true _ _).mp goes
  have within : ¬ maxAge < now - young.createdAtUnixSecs := by
    simpa [expired, limit] using stays
  have late : maxAge < now - old.createdAtUnixSecs := by simpa using late
  omega

/-- Whatever is older than the age limit goes. Under a maximum as many stay as it allows of the
unexpired, and the newest of them; without one every unexpired snapshot stays. -/
theorem planPrune_retains (distinct : (listed.map (·.id)).Nodup)
    (limits : policy.isEmpty = false) :
    ∃ plan, planPrune now adapterId policy (.ok listed) = .ok plan ∧
      plan.total = listed.length ∧
      (∀ snapshot ∈ listed, expired now policy snapshot = true → snapshot.id ∈ plan.toDelete) ∧
      (∀ maxKeep, policy.maxSnapshots = some maxKeep →
        (listed.filter fun snapshot => snapshot.id ∉ plan.toDelete).length =
          min maxKeep (listed.filter fun snapshot => !expired now policy snapshot).length ∧
        ∀ kept ∈ listed, kept.id ∉ plan.toDelete → ∀ deleted ∈ listed,
          deleted.id ∈ plan.toDelete → deleted.createdAtUnixSecs ≤ kept.createdAtUnixSecs) ∧
      (policy.maxSnapshots = none → ∀ snapshot ∈ listed, expired now policy snapshot = false →
        snapshot.id ∉ plan.toDelete) := by
  obtain ⟨plan, planned, total, marks⟩ :=
    planPrune_marks now adapterId distinct limits
  refine ⟨plan, planned, total, ?_, ?_, ?_⟩
  · exact fun snapshot member old => (marks snapshot member).mpr (Or.inl old)
  · intro maxKeep maximum
    simp only [tooMany, maximum] at marks
    have perm : (unexpired now policy listed).Perm
        (listed.filter fun snapshot => !expired now policy snapshot) := Surplus.byAge_perm.filter _
    refine ⟨?_, fun kept member stays deleted listed goes => ?_⟩
    · have stays : (listed.filter fun snapshot => snapshot.id ∉ plan.toDelete) =
          (listed.filter fun snapshot => !expired now policy snapshot).filter fun snapshot =>
            snapshot ∉ Surplus.surplus SnapshotMetadata.createdAtUnixSecs maxKeep
              (unexpired now policy listed) := by
        rw [List.filter_filter]
        exact List.filter_congr fun snapshot member => by
          simp [marks snapshot member, Bool.and_comm]
      rw [stays, ← (perm.filter _).length_eq, ← perm.length_eq]
      exact Surplus.length_retained _ _ (perm.nodup_iff.mpr ((List.Nodup.of_map _ distinct).filter _))
    · have ⟨young, spared⟩ := not_or.mp (mt (marks kept member).mpr stays)
      rcases (marks deleted listed).mp goes with old | surplus
      · exact older old (by simpa using young)
      · exact Surplus.surplus_older surplus (perm.mem_iff.mpr (List.mem_filter.mpr
          ⟨member, by simpa using young⟩)) spared
  · intro unlimited snapshot member young deleted
    simpa [tooMany, unlimited, young] using (marks snapshot member).mp deleted

theorem planPrune_retains_newest :
    ∃ plan, planPrune 10 "kv" ⟨some 1, some 5⟩ (.ok [⟨"b", "kv", 9, 0, none, none, none⟩,
        ⟨"a", "kv", 3, 0, none, none, none⟩, ⟨"c", "kv", 8, 0, none, none, none⟩]) = .ok plan ∧
      plan.total = 3 ∧ plan.toDelete = ["a", "c"] := by
  obtain ⟨plan, planned, total, -⟩ := @planPrune_retains 10 "kv" ⟨some 1, some 5⟩
    [⟨"b", "kv", 9, 0, none, none, none⟩, ⟨"a", "kv", 3, 0, none, none, none⟩,
      ⟨"c", "kv", 8, 0, none, none, none⟩] (by decide) (by decide)
  have chosen : (planPrune 10 "kv" ⟨some 1, some 5⟩ (.ok [⟨"b", "kv", 9, 0, none, none, none⟩,
      ⟨"a", "kv", 3, 0, none, none, none⟩, ⟨"c", "kv", 8, 0, none, none, none⟩])).map
        (·.toDelete) = .ok ["a", "c"] := by decide +kernel
  rw [planned] at chosen
  exact ⟨plan, planned, total, Except.ok.inj chosen⟩

end Plan

end BackupManager

end LibreSync
