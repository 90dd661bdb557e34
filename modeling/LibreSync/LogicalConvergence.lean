import LibreSync.RecordMerge

/-!
Convergence of the record merge when every field is last-writer-wins: which
collections of versions of one record give the same record in every order and
grouping of the merges.
-/

namespace LibreSync

open LastWriter

abbrev lastWriterWins : String → MergePolicy := fun _ => .lastWriterWins

/-- Versions of one record, with equal clocks only for equal writes. -/
structure VersionSet where
  versions : List SyncRecord
  nonempty : versions ≠ []
  nodup : versions.Nodup
  stamped : ∀ version ∈ versions, version.Stamped
  sameRecord : ∀ left ∈ versions, ∀ right ∈ versions,
    left.schema = right.schema ∧ left.entity = right.entity ∧ left.id = right.id
  clockUnique : ∀ left ∈ versions, ∀ right ∈ versions, left.clock = right.clock → left = right
  fieldClockUnique : ∀ field, Consistent (SyncRecord.register field) {version | version ∈ versions}

structure SameRecord (left right : SyncRecord) : Prop where
  fields : left.fields = right.fields
  fieldClocks : left.fieldClocks = right.fieldClocks
  tombstone : left.tombstone = right.tombstone
  clock : left.clock = right.clock

section Merge

variable (mergeCustom : CustomMerge)

abbrev mergeLww (existing incoming : SyncRecord) : SyncRecord :=
  mergeRecords existing incoming lastWriterWins mergeCustom

theorem mergeLww_clock (existing incoming : SyncRecord) :
    (mergeLww mergeCustom existing incoming).clock = max existing.clock incoming.clock :=
  mergeRecords_clock _ _ existing incoming

theorem mergeLww_deleted {existing incoming : SyncRecord}
    (deleted : existing.tombstone = true ∨ incoming.tombstone = true) :
    mergeLww mergeCustom existing incoming =
      if existing.clock ≤ incoming.clock then incoming else existing :=
  mergeRecords_deleted lastWriterWins mergeCustom deleted

theorem mergeLww_live {existing incoming : SyncRecord} (existingLive : existing.tombstone = false)
    (incomingLive : incoming.tombstone = false) :
    (mergeLww mergeCustom existing incoming).tombstone = false :=
  (mergeRecords_live _ _ existingLive incomingLive).1

theorem mergeLww_register {existing incoming : SyncRecord}
    (existingLive : existing.tombstone = false) (incomingLive : incoming.tombstone = false)
    (field : String) :
    (mergeLww mergeCustom existing incoming).register field =
      later (existing.register field) (incoming.register field) :=
  mergeRecords_register _ _ existingLive incomingLive rfl

theorem mergeLww_stamped {existing incoming : SyncRecord} (existingStamped : existing.Stamped)
    (incomingStamped : incoming.Stamped) : (mergeLww mergeCustom existing incoming).Stamped := by
  by_cases deleted : existing.tombstone = true ∨ incoming.tombstone = true
  · rw [mergeLww_deleted mergeCustom deleted]
    split
    · exact incomingStamped
    · exact existingStamped
  · simp only [not_or, Bool.not_eq_true] at deleted
    exact mergeRecords_stamped _ _ deleted.1 deleted.2 existingStamped

end Merge

theorem SyncRecord.Stamped.ext_register {left right : SyncRecord} (leftStamped : left.Stamped)
    (rightStamped : right.Stamped) (same : ∀ field, left.register field = right.register field) :
    left.fields = right.fields ∧ left.fieldClocks = right.fieldClocks := by
  have fields : ∀ field : String, left.fields[field]? = right.fields[field]? := by
    intro field
    have here := congrArg (Option.map Prod.snd) (same field)
    simpa [SyncRecord.register, Function.comp_def] using here
  refine ⟨Std.ExtTreeMap.ext_getElem? fields, Std.ExtTreeMap.ext_getElem? fun field => ?_⟩
  have here := same field
  have leftHas := leftStamped field
  have rightHas := rightStamped field
  simp only [SyncRecord.register, SyncRecord.fieldClock, ← fields field] at here
  rw [← fields field] at rightHas
  cases found : left.fields[field]? with
  | none =>
      rw [found] at leftHas rightHas
      simp only [Option.isSome_none, Option.isSome_eq_false_iff, Option.isNone_iff_eq_none]
        at leftHas rightHas
      rw [leftHas, rightHas]
  | some value =>
      rw [found] at here leftHas rightHas
      obtain ⟨leftClock, leftFound⟩ := Option.isSome_iff_exists.mp leftHas
      obtain ⟨rightClock, rightFound⟩ := Option.isSome_iff_exists.mp rightHas
      simpa [leftFound, rightFound] using here

/-- What a fold over `versions` can be: the newest version when that is a tombstone, and
otherwise the newest fields of some live versions, among them every one that no tombstone follows. -/
structure Folded (versions : List SyncRecord) (value : SyncRecord) : Prop where
  stamped : value.Stamped
  newest : ∀ version ∈ versions, version.clock ≤ value.clock
  latest : ∃ version ∈ versions, version.clock = value.clock ∧ version.tombstone = value.tombstone
  deleted : value.tombstone = true → value ∈ versions
  live : value.tombstone = false → ∃ within : Set SyncRecord,
    (∀ version ∈ within, version ∈ versions ∧ version.tombstone = false) ∧
    (∀ version ∈ versions, version.tombstone = false →
      (∀ tombstone ∈ versions, tombstone.tombstone = true → tombstone.clock < version.clock) →
        version ∈ within) ∧
    ∀ field, Latest (SyncRecord.register field) within (value.register field)

namespace Folded

variable {left right : List SyncRecord} {existing incoming : SyncRecord}

theorem single {version : SyncRecord} (stamped : version.Stamped) : Folded [version] version where
  stamped := stamped
  newest := by simp
  latest := ⟨version, by simp⟩
  deleted := by simp
  live := by
    intro alive
    refine ⟨{version}, ?_, ?_, fun field => Latest.single version⟩
    · rintro _ rfl
      exact ⟨by simp, alive⟩
    · intro other member _ _
      simpa using member

theorem keep (folded : Folded left existing) (other : Folded right incoming)
    (ordered : incoming.clock ≤ existing.clock)
    (deleted : existing.tombstone = true ∨ incoming.tombstone = true) :
    Folded (left ++ right) existing where
  stamped := folded.stamped
  newest := by
    intro version member
    rcases List.mem_append.mp member with member | member
    · exact folded.newest version member
    · exact (other.newest version member).trans ordered
  latest := by
    obtain ⟨version, member, facts⟩ := folded.latest
    exact ⟨version, List.mem_append_left _ member, facts⟩
  deleted := fun gone => List.mem_append_left _ (folded.deleted gone)
  live := by
    intro alive
    obtain ⟨within, inside, covers, latest⟩ := folded.live alive
    refine ⟨within, ?_, ?_, latest⟩
    · intro version member
      exact ⟨List.mem_append_left _ (inside version member).1, (inside version member).2⟩
    · intro version member versionLive after
      have incomingDeleted : incoming.tombstone = true := by
        rcases deleted with gone | gone
        · rw [alive] at gone
          simp at gone
        · exact gone
      rcases List.mem_append.mp member with member | member
      · exact covers version member versionLive fun tombstone inLeft gone =>
          after tombstone (List.mem_append_left _ inLeft) gone
      · -- The other side ends in a tombstone, so none of its live versions is past every tombstone.
        have last := after incoming (List.mem_append_right _ (other.deleted incomingDeleted))
          incomingDeleted
        exact absurd (other.newest version member) (not_le.mpr last)

theorem merge (mergeCustom : CustomMerge) (leftFolded : Folded left existing)
    (rightFolded : Folded right incoming) :
    Folded (left ++ right) (mergeLww mergeCustom existing incoming) := by
  by_cases deleted : existing.tombstone = true ∨ incoming.tombstone = true
  · rw [mergeLww_deleted mergeCustom deleted]
    split
    · rename_i ordered
      have swapped := rightFolded.keep leftFolded ordered deleted.symm
      have members : ∀ version, version ∈ left ++ right ↔ version ∈ right ++ left := by
        simp [or_comm]
      exact {
        stamped := swapped.stamped
        newest := fun version member => swapped.newest version ((members version).mp member)
        latest := by
          obtain ⟨version, member, facts⟩ := swapped.latest
          exact ⟨version, (members version).mpr member, facts⟩
        deleted := fun gone => (members incoming).mpr (swapped.deleted gone)
        live := by
          intro alive
          obtain ⟨within, inside, covers, latest⟩ := swapped.live alive
          refine ⟨within, fun version member => ?_, fun version member live after => ?_, latest⟩
          · exact ⟨(members version).mpr (inside version member).1, (inside version member).2⟩
          · exact covers version ((members version).mp member) live fun tombstone inside gone =>
              after tombstone ((members tombstone).mpr inside) gone }
    · rename_i ordered
      exact leftFolded.keep rightFolded (not_le.mp ordered).le deleted
  · simp only [not_or, Bool.not_eq_true] at deleted
    have alive := mergeLww_live mergeCustom deleted.1 deleted.2
    have clock := mergeLww_clock mergeCustom existing incoming
    refine ⟨mergeLww_stamped mergeCustom leftFolded.stamped rightFolded.stamped, ?_, ?_, ?_, ?_⟩
    · intro version member
      rw [clock]
      rcases List.mem_append.mp member with member | member
      · exact (leftFolded.newest version member).trans (le_max_left _ _)
      · exact (rightFolded.newest version member).trans (le_max_right _ _)
    · rw [clock, alive]
      rcases max_choice existing.clock incoming.clock with chosen | chosen
      · obtain ⟨version, member, same, live⟩ := leftFolded.latest
        exact ⟨version, List.mem_append_left _ member, same.trans chosen.symm,
          live.trans deleted.1⟩
      · obtain ⟨version, member, same, live⟩ := rightFolded.latest
        exact ⟨version, List.mem_append_right _ member, same.trans chosen.symm,
          live.trans deleted.2⟩
    · rw [alive]
      simp
    · intro _
      obtain ⟨first, firstInside, firstCovers, firstLatest⟩ := leftFolded.live deleted.1
      obtain ⟨second, secondInside, secondCovers, secondLatest⟩ := rightFolded.live deleted.2
      refine ⟨first ∪ second, ?_, ?_, ?_⟩
      · rintro version (member | member)
        · exact ⟨List.mem_append_left _ (firstInside version member).1,
            (firstInside version member).2⟩
        · exact ⟨List.mem_append_right _ (secondInside version member).1,
            (secondInside version member).2⟩
      · intro version member live after
        rcases List.mem_append.mp member with member | member
        · exact Or.inl (firstCovers version member live fun tombstone inside gone =>
            after tombstone (List.mem_append_left _ inside) gone)
        · exact Or.inr (secondCovers version member live fun tombstone inside gone =>
            after tombstone (List.mem_append_right _ inside) gone)
      · intro field
        rw [mergeLww_register mergeCustom deleted.1 deleted.2]
        exact (firstLatest field).later (secondLatest field)

theorem congr (folded : Folded left existing)
    (members : ∀ version, version ∈ left ↔ version ∈ right) : Folded right existing where
  stamped := folded.stamped
  newest := fun version member => folded.newest version ((members version).mpr member)
  latest := by
    obtain ⟨version, member, facts⟩ := folded.latest
    exact ⟨version, (members version).mp member, facts⟩
  deleted := fun gone => (members existing).mp (folded.deleted gone)
  live := by
    intro alive
    obtain ⟨within, inside, covers, latest⟩ := folded.live alive
    refine ⟨within, fun version member => ?_, fun version member live after => ?_, latest⟩
    · exact ⟨(members version).mp (inside version member).1, (inside version member).2⟩
    · exact covers version ((members version).mpr member) live fun tombstone inside gone =>
        after tombstone ((members tombstone).mp inside) gone

theorem of_grouping (mergeCustom : CustomMerge) (grouping : Grouping SyncRecord)
    (stamped : ∀ version ∈ grouping.items, version.Stamped) :
    Folded grouping.items (grouping.fold (mergeLww mergeCustom)) := by
  induction grouping with
  | single version => exact single (stamped version (by simp [Grouping.items]))
  | join left right leftIh rightIh =>
      exact merge mergeCustom
        (leftIh fun version member => stamped version (List.mem_append_left _ member))
        (rightIh fun version member => stamped version (List.mem_append_right _ member))

theorem latest_of_live (folded : Folded left existing)
    (alive : ∀ version ∈ left, version.tombstone = false) (field : String) :
    Latest (SyncRecord.register field) {version | version ∈ left} (existing.register field) := by
  obtain ⟨version, member, _, same⟩ := folded.latest
  obtain ⟨within, inside, covers, latest⟩ := folded.live (same ▸ alive version member)
  have everything : within = {version | version ∈ left} := by
    ext version
    constructor
    · exact fun member => (inside version member).1
    · intro member
      refine covers version member (alive version member) fun tombstone inLeft gone => ?_
      rw [alive tombstone inLeft] at gone
      simp at gone
  exact everything ▸ latest field

end Folded

namespace VersionSet

variable (mergeCustom : CustomMerge) (set : VersionSet)

def Converges : Prop :=
  ∀ first second : Grouping SyncRecord,
    first.items.Perm set.versions → second.items.Perm set.versions →
      SameRecord (first.fold (mergeLww mergeCustom)) (second.fold (mergeLww mergeCustom))

def live : Set SyncRecord :=
  {version | version ∈ set.versions ∧ version.tombstone = false}

def current : Set SyncRecord :=
  {version | version ∈ set.live ∧
    ∀ tombstone ∈ set.versions, tombstone.tombstone = true → tombstone.clock < version.clock}

/-- Either no live version is newer than every tombstone, or those that are hold every field of
every live version at least as new. -/
def DeletionCovered : Prop :=
  set.current.Nonempty → ∀ field, Dominated (SyncRecord.register field) set.live set.current

variable {set}

theorem consistent_live (field : String) :
    Consistent (SyncRecord.register field) set.live :=
  fun left leftMember right rightMember =>
    set.fieldClockUnique field left leftMember.1 right rightMember.1

theorem clock_lt_of_le {tombstone version : SyncRecord} (tombstoneMember : tombstone ∈ set.versions)
    (gone : tombstone.tombstone = true) (versionMember : version ∈ set.versions)
    (alive : version.tombstone = false) (ordered : tombstone.clock ≤ version.clock) :
    tombstone.clock < version.clock := by
  refine lt_of_le_of_ne ordered fun same => ?_
  rw [set.clockUnique tombstone tombstoneMember version versionMember same, alive] at gone
  simp at gone

theorem current_nonempty {value : SyncRecord} (folded : Folded set.versions value)
    (alive : value.tombstone = false) : set.current.Nonempty := by
  obtain ⟨version, member, sameClock, sameTombstone⟩ := folded.latest
  have versionLive : version.tombstone = false := sameTombstone.trans alive
  refine ⟨version, ⟨member, versionLive⟩, fun tombstone inside gone => ?_⟩
  exact clock_lt_of_le inside gone member versionLive (sameClock ▸ folded.newest tombstone inside)

theorem latest_current {value : SyncRecord} (covered : set.DeletionCovered)
    (folded : Folded set.versions value) (alive : value.tombstone = false) (field : String) :
    Latest (SyncRecord.register field) set.current (value.register field) := by
  obtain ⟨within, inside, covers, latest⟩ := folded.live alive
  have withinLive : within ⊆ set.live := fun version member => inside version member
  refine (latest field).shrink (fun left leftMember right rightMember =>
    consistent_live field left (withinLive leftMember) right (withinLive rightMember)) ?_ ?_
  · exact fun version member => covers version member.1.1 member.1.2 member.2
  · exact fun version member => covered (current_nonempty folded alive) field version
      (withinLive member)

theorem sameRecord_of_covered (covered : set.DeletionCovered) {first second : SyncRecord}
    (firstFolded : Folded set.versions first) (secondFolded : Folded set.versions second) :
    SameRecord first second := by
  obtain ⟨left, leftMember, leftClock, leftTombstone⟩ := firstFolded.latest
  obtain ⟨right, rightMember, rightClock, rightTombstone⟩ := secondFolded.latest
  have sameClock : first.clock = second.clock := le_antisymm
    (leftClock ▸ secondFolded.newest left leftMember)
    (rightClock ▸ firstFolded.newest right rightMember)
  have sameVersion : left = right := set.clockUnique left leftMember right rightMember
    (leftClock.trans (sameClock.trans rightClock.symm))
  have sameTombstone : first.tombstone = second.tombstone := by
    rw [← leftTombstone, ← rightTombstone, sameVersion]
  cases gone : first.tombstone with
  | true =>
      obtain rfl : first = second := set.clockUnique first (firstFolded.deleted gone) second
        (secondFolded.deleted (sameTombstone ▸ gone)) sameClock
      exact ⟨rfl, rfl, rfl, rfl⟩
  | false =>
      have registers : ∀ field, first.register field = second.register field := fun field =>
        Latest.unique (fun left leftMember right rightMember =>
            consistent_live field left leftMember.1 right rightMember.1)
          (latest_current covered firstFolded gone field)
          (latest_current covered secondFolded (sameTombstone ▸ gone) field)
      obtain ⟨fields, fieldClocks⟩ := firstFolded.stamped.ext_register secondFolded.stamped registers
      exact ⟨fields, fieldClocks, sameTombstone, sameClock⟩

theorem exists_folded (set : VersionSet) (mergeCustom : CustomMerge) (part : SyncRecord → Bool)
    (nonempty : ∃ version ∈ set.versions, part version = true) :
    ∃ grouping : Grouping SyncRecord, grouping.items = set.versions.filter part ∧
      Folded (set.versions.filter part) (grouping.fold (mergeLww mergeCustom)) := by
  obtain ⟨version, member, chosen⟩ := nonempty
  have some : set.versions.filter part ≠ [] :=
    List.ne_nil_of_mem (List.mem_filter.mpr ⟨member, chosen⟩)
  obtain ⟨grouping, items⟩ := Grouping.exists_items_eq _ some
  refine ⟨grouping, items, items ▸ Folded.of_grouping mergeCustom grouping fun version inside => ?_⟩
  rw [items] at inside
  exact set.stamped version (List.mem_filter.mp inside).1

theorem covered_of_converges (converges : set.Converges mergeCustom) : set.DeletionCovered := by
  classical
  rintro ⟨newer, newerCurrent⟩ field
  by_cases deletions : ∃ tombstone ∈ set.versions, tombstone.tombstone = true
  · -- Merging the live versions first keeps every field; merging the superseded ones first
    -- lets the tombstone drop theirs.
    obtain ⟨tombstone, tombstoneMember, gone⟩ := deletions
    have after := newerCurrent.2
    obtain ⟨lives, liveItems, liveFolded⟩ := set.exists_folded mergeCustom
      (fun version => !version.tombstone) ⟨newer, newerCurrent.1.1, by simp [newerCurrent.1.2]⟩
    obtain ⟨dead, deadItems, deadFolded⟩ := set.exists_folded mergeCustom
      (fun version => version.tombstone) ⟨tombstone, tombstoneMember, gone⟩
    obtain ⟨kept, keptItems, keptFolded⟩ := set.exists_folded mergeCustom
      (fun version => decide (version ∈ set.current))
      ⟨newer, newerCurrent.1.1, by simpa using newerCurrent⟩
    obtain ⟨dropped, droppedItems, droppedFolded⟩ := set.exists_folded mergeCustom
      (fun version => !decide (version ∈ set.current)) ⟨tombstone, tombstoneMember, by
        simp only [Bool.not_eq_true', decide_eq_false_iff_not]
        intro inside
        rw [inside.1.2] at gone
        simp at gone⟩
    have liveNewest := liveFolded.newest newer
      (List.mem_filter.mpr ⟨newerCurrent.1.1, by simp [newerCurrent.1.2]⟩)
    have keptNewest := keptFolded.newest newer
      (List.mem_filter.mpr ⟨newerCurrent.1.1, by simpa using newerCurrent⟩)
    obtain ⟨deadTop, deadMember, deadClock, deadTombstone⟩ := deadFolded.latest
    obtain ⟨droppedTop, droppedMember, droppedClock, droppedTombstone⟩ := droppedFolded.latest
    rw [List.mem_filter] at deadMember droppedMember
    have droppedGone : droppedTop.tombstone = true := by
      by_contra alive
      rw [Bool.not_eq_true] at alive
      have outside : droppedTop ∉ set.current := by simpa using droppedMember.2
      refine outside ⟨⟨droppedMember.1, alive⟩, fun other otherMember otherGone => ?_⟩
      refine clock_lt_of_le otherMember otherGone droppedMember.1 alive ?_
      rw [droppedClock]
      refine droppedFolded.newest other (List.mem_filter.mpr ⟨otherMember, ?_⟩)
      simp only [Bool.not_eq_true', decide_eq_false_iff_not]
      intro inside
      rw [inside.1.2] at otherGone
      simp at otherGone
    have deadBelow : (dead.fold (mergeLww mergeCustom)).clock < newer.clock :=
      deadClock ▸ after deadTop deadMember.1 (by simpa using deadMember.2)
    have droppedBelow : (dropped.fold (mergeLww mergeCustom)).clock < newer.clock :=
      droppedClock ▸ after droppedTop droppedMember.1 droppedGone
    have same := converges (.join lives dead) (.join dropped kept)
      (by simpa only [Grouping.items, liveItems, deadItems, Bool.not_not] using
        List.filter_append_perm (fun version => !version.tombstone) set.versions)
      (by simpa only [Grouping.items, droppedItems, keptItems, Bool.not_not] using
        List.filter_append_perm (fun version => !decide (version ∈ set.current)) set.versions)
    simp only [Grouping.fold] at same
    rw [mergeLww_deleted mergeCustom (Or.inr (deadTombstone ▸ by simpa using deadMember.2)),
      if_neg (not_le.mpr (deadBelow.trans_le liveNewest)),
      mergeLww_deleted mergeCustom (Or.inl (droppedTombstone ▸ droppedGone)),
      if_pos (droppedBelow.le.trans keptNewest)] at same
    have registers : (lives.fold (mergeLww mergeCustom)).register field =
        (kept.fold (mergeLww mergeCustom)).register field := by
      simp only [SyncRecord.register, SyncRecord.fieldClock, same.fields, same.fieldClocks,
        same.clock]
    have liveLatest := liveFolded.latest_of_live
      (fun version member => by simpa using (List.mem_filter.mp member).2) field
    have keptLatest := keptFolded.latest_of_live (fun version member => by
      have inside : version ∈ set.current := by simpa using (List.mem_filter.mp member).2
      exact inside.1.2) field
    intro version versionLive write holds
    obtain ⟨latest, found, below⟩ := liveLatest.newest version
      (List.mem_filter.mpr ⟨versionLive.1, by simp [versionLive.2]⟩) write holds
    obtain ⟨source, member, sourceHolds⟩ := keptLatest.held latest (registers ▸ found)
    exact ⟨source, by simpa using (List.mem_filter.mp member).2, latest, sourceHolds, below⟩
  · have everything : set.live ⊆ set.current := fun version member =>
      ⟨member, fun tombstone inside gone => absurd ⟨tombstone, inside, gone⟩ deletions⟩
    exact fun version member write holds => ⟨version, everything member, write, holds, le_rfl⟩

/-- The merge converges on exactly the version sets whose deletions are covered. -/
theorem converges_iff (mergeCustom : CustomMerge) (set : VersionSet) :
    set.Converges mergeCustom ↔ set.DeletionCovered := by
  constructor
  · exact covered_of_converges mergeCustom
  · intro covered first second firstItems secondItems
    have folded : ∀ grouping : Grouping SyncRecord, grouping.items.Perm set.versions →
        Folded set.versions (grouping.fold (mergeLww mergeCustom)) := by
      intro grouping items
      refine (Folded.of_grouping mergeCustom grouping fun version member => ?_).congr
        fun version => items.mem_iff
      exact set.stamped version (items.mem_iff.mp member)
    exact sameRecord_of_covered covered (folded first firstItems) (folded second secondItems)

end VersionSet

section Revival

def noteVersion (counter : Nat) (fields : List (String × FieldValue)) (tombstone : Bool) :
    SyncRecord where
  schema := "notes"
  entity := "Note"
  id := "1"
  fields := .ofList fields
  tombstone := tombstone
  clock := { counter := counter, deviceId := "a" }
  updatedAt := none
  fieldClocks := .ofList (fields.map fun item =>
    (item.1, ({ counter := counter, deviceId := "a" } : LamportClock)))

def rewrittenNote : VersionSet where
  versions := [noteVersion 1 [("title", .string "draft")] false, noteVersion 2 [] true,
    noteVersion 3 [("done", .bool true)] false]
  nonempty := by simp
  nodup := by decide
  stamped := by
    simp only [List.mem_cons, List.not_mem_nil, or_false, forall_eq_or_imp, forall_eq]
    refine ⟨?_, ?_, ?_⟩ <;> intro field <;>
      simp [noteVersion, Std.ExtTreeMap.ofList_singleton, BTreeMap.get_insert, apply_ite]
  sameRecord := by decide
  clockUnique := by decide
  fieldClockUnique := by
    intro field left leftMember right rightMember leftWrite rightWrite leftHolds rightHolds same
    simp only [List.mem_cons, List.not_mem_nil, or_false, Set.mem_ofPred_eq]
      at leftMember rightMember
    rcases leftMember with rfl | rfl | rfl <;> rcases rightMember with rfl | rfl | rfl <;>
      simp only [SyncRecord.register, noteVersion, Std.ExtTreeMap.ofList_singleton, Option.map_eq_some_iff,
        BTreeMap.get_insert] at leftHolds rightHolds <;>
      grind

/-- Merged before the deletion, the old title survives it; merged after, it does not. -/
theorem rewrittenNote_diverges : ¬ rewrittenNote.Converges fun _ _ _ _ _ => none := by
  intro converges
  have same := converges
    (.join (.join (.single (noteVersion 1 [("title", .string "draft")] false))
      (.single (noteVersion 2 [] true))) (.single (noteVersion 3 [("done", .bool true)] false)))
    (.join (.join (.single (noteVersion 1 [("title", .string "draft")] false))
      (.single (noteVersion 3 [("done", .bool true)] false))) (.single (noteVersion 2 [] true)))
    (by decide) (by decide)
  exact absurd same.fields (by decide)

end Revival

end LibreSync
