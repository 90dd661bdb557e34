import LibreSync.RecordMerge
import LibreSync.RecordKey
import LibreSync.Managed.Records

/-!
The companion's policy for Momentum records: live operations are immutable,
operation tombstones stay, and snapshots follow the clock.
-/

namespace LibreSync.Managed

/-- `serde_json`, base64 and gzip, as far as the adapter uses them. No JSON number is NaN or
infinite. -/
structure MomentumCodec where
  syncRecord : Bytes → Except Error SyncRecord
  jsonObject : String → Except Error Bool
  base64 : String → Option Bytes
  /-- The first bytes of the expansion, at most as many as asked for. -/
  gunzip : Bytes → Nat → Except Error Bytes
  expandedObject : Bytes → Except Error Bool
  finite : ∀ bytes record, syncRecord bytes = .ok record → record.payload.finite = true

namespace Momentum

def momentumAppId : String := "io.github.dan_hart.Momentum"

def maxSnapshotCompressed : Nat := 32 * 1024 * 1024

def maxSnapshotExpanded : Nat := 128 * 1024 * 1024

def invalid {α : Type} (message : String) : Except Error α := failCode .invalidRecord message

def sameFields (left right : SyncRecord) : Bool :=
  FieldValue.partialEqMap left.fields.toList right.fields.toList

variable (codec : MomentumCodec)

def validateSnapshot (encoded : String) (compressedLimit expandedLimit : Nat) :
    Except Error Unit :=
  if (compressedLimit + 2) / 3 * 4 < encoded.utf8ByteSize then
    invalid "Momentum snapshot exceeds compressed limit"
  else match codec.base64 encoded with
    | none => .error (.protocol "invalid snapshot base64")
    | some bytes =>
        if compressedLimit < bytes.length then
          invalid "Momentum snapshot exceeds compressed limit"
        else do
          let expanded ← codec.gunzip bytes (expandedLimit + 1)
          if expandedLimit < expanded.length then
            invalid "Momentum snapshot exceeds expanded limit"
          else if ¬(← codec.expandedObject expanded) then
            invalid "Momentum snapshot must contain AppData object"

def checkOperation (record : SyncRecord) : Except Error Unit :=
  ["op", "action"].forM fun name =>
    match record.fields[name]? with
    | some (.string text) => do
        if ¬(← codec.jsonObject text) then invalid "Momentum operation must be an object"
    | _ => invalid "Momentum operation fields absent"

def checkSnapshot (record : SyncRecord) : Except Error Unit :=
  match record.fields["gz_b64"]? with
  | some (.string text) => validateSnapshot codec text maxSnapshotCompressed maxSnapshotExpanded
  | _ => invalid "Momentum snapshot absent"

def checkLive (record : SyncRecord) : Except Error Unit :=
  match record.fields["t"]?, record.fields["origin"]? with
  | some (.i64 _), some (.string origin) =>
      if origin = "" then invalid "Momentum timestamp or origin absent"
      else if record.entity = "Op" then checkOperation codec record
      else checkSnapshot codec record
  | _, _ => invalid "Momentum timestamp or origin absent"

def decode (wire : ManagedRecord) : Except Error SyncRecord :=
  match codec.syncRecord wire.value with
  | .error error => .error error
  | .ok record =>
      if wire.adapter ≠ "ops" ∨ record.schema ≠ "momentum" ∨ record.id = "" ∨
          ¬(record.entity = "Op" ∨ record.entity = "Snapshot") ∨
          (record.entity = "Snapshot" ∧ record.id ≠ "latest") ∨
          wire.id ≠ Record.recordEntryKey momentumAppId record.schema record.entity record.id ∨
          wire.deleted ≠ record.tombstone ∨ wire.clock ≠ record.clock then
        invalid "Momentum record envelope or schema mismatch"
      else if record.tombstone then .ok record
      else (checkLive codec record).map fun () => record

/-- What one incoming record does to the version stored under its id. -/
def resolve (old next : ManagedRecord) : Except Error ManagedRecord :=
  match decode codec next with
  | .error error => .error error
  | .ok decoded =>
      match decode codec old with
      | .error error => .error error
      | .ok previous =>
          if decoded.entity = "Op" ∧ ¬decoded.tombstone ∧ ¬previous.tombstone ∧
              ¬sameFields decoded previous then
            invalid "immutable Momentum operation collision"
          else if old.clock = next.clock ∧ old ≠ next then
            invalid "Momentum collision at equal clock"
          else if previous.entity = "Op" ∧ previous.tombstone ∧ ¬decoded.tombstone then .ok old
          else if next.clock ≤ old.clock then .ok old
          else .ok next

def merge : List ManagedRecord → BTreeMap String ManagedRecord →
    Except Error (BTreeMap String ManagedRecord)
  | [], merged => .ok merged
  | next :: rest, merged =>
      match merged[next.id]? with
      | some old =>
          match resolve codec old next with
          | .error error => .error error
          | .ok kept => merge rest (merged.insert next.id kept)
      | none =>
          match decode codec next with
          | .error error => .error error
          | .ok _ => merge rest (merged.insert next.id next)

def prepare (id : String) (existing incoming : List ManagedRecord) (revision : Nat) :
    Except Error PreparedChange :=
  match existing.forM fun record => (decode codec record).map fun _ => () with
  | .error error => .error error
  | .ok () =>
      match merge codec incoming (RecordsAdapter.index existing) with
      | .error error => .error error
      | .ok merged => .ok {
          id
          adapter := "ops"
          expectedRevision := revision
          staged := BTreeMap.valueList merged
          recovery := existing }

def momentumAdapter : ManagedAdapter where
  descriptor := {
    id := "ops", keyNamespace := momentumAppId, schema := "momentum", transactional := true }
  prepare := prepare codec

structure Delivery where
  changeId : String
  revision : Nat
  incoming : List ManagedRecord

def prepareAll (existing : List ManagedRecord) :
    List Delivery → Except Error (List ManagedRecord)
  | [] => .ok existing
  | delivery :: rest =>
      match (momentumAdapter codec).prepare delivery.changeId existing delivery.incoming
          delivery.revision with
      | .error error => .error error
      | .ok prepared => prepareAll prepared.staged rest

/-- The versions of one id among all that the deliveries bring, in their order. -/
def versionsOf (id : String) (deliveries : List Delivery) : List ManagedRecord :=
  (deliveries.flatMap Delivery.incoming).filter fun record => record.id = id

section Decoded

variable {codec} {wire : ManagedRecord} {record : SyncRecord}

theorem decode_ok (ok : decode codec wire = .ok record) :
    record.payload.finite = true ∧
      wire.id = Record.recordEntryKey momentumAppId record.schema record.entity record.id ∧
      wire.deleted = record.tombstone := by
  simp only [decode] at ok
  split at ok
  · simp at ok
  · rename_i decoded read
    split at ok
    · simp [invalid, failCode] at ok
    · rename_i checks
      simp only [not_or, not_not] at checks
      have same : record = decoded := by
        split at ok
        · exact (Except.ok.inj ok).symm
        · cases checked : checkLive codec decoded with
          | error error => simp [checked, Except.map] at ok
          | ok _ =>
              simp only [checked, Except.map] at ok
              exact (Except.ok.inj ok).symm
      subst same
      exact ⟨codec.finite _ _ read, checks.2.2.2.2.2.1, checks.2.2.2.2.2.2.1⟩

theorem same_entity {other : ManagedRecord} {decoded : SyncRecord}
    (ok : decode codec wire = .ok record) (otherOk : decode codec other = .ok decoded)
    (same : wire.id = other.id) : record.entity = decoded.entity := by
  rw [(decode_ok ok).2.1, (decode_ok otherOk).2.1] at same
  exact (Record.recordEntryKey_injective same).2.1

theorem sameFields_refl (ok : decode codec wire = .ok record) :
    sameFields record record = true := by
  refine FieldValue.partialEqMap_refl ?_
  have finite := (decode_ok ok).1
  simp only [RecordPayload.floats, SyncRecord.payload] at finite
  generalize record.fields.toList = items at finite
  induction items with
  | nil => rfl
  | cons item rest ih =>
      simp only [List.all_cons, Bool.and_eq_true] at finite
      simp only [FieldValue.floatsMap, Bool.and_eq_true]
      exact ⟨finite.1, ih finite.2⟩

theorem sameFields_symm {left right : SyncRecord} (same : sameFields left right = true) :
    sameFields right left = true :=
  FieldValue.partialEqMap_symm same

theorem sameFields_trans {left middle right : SyncRecord} (first : sameFields left middle = true)
    (second : sameFields middle right = true) : sameFields left right = true :=
  FieldValue.partialEqMap_trans first second

theorem resolve_eq {old next : ManagedRecord} {previous decoded : SyncRecord}
    (oldOk : decode codec old = .ok previous) (nextOk : decode codec next = .ok decoded) :
    resolve codec old next =
      if decoded.entity = "Op" ∧ ¬decoded.tombstone ∧ ¬previous.tombstone ∧
          ¬sameFields decoded previous then
        invalid "immutable Momentum operation collision"
      else if old.clock = next.clock ∧ old ≠ next then
        invalid "Momentum collision at equal clock"
      else if previous.entity = "Op" ∧ previous.tombstone ∧ ¬decoded.tombstone then .ok old
      else if next.clock ≤ old.clock then .ok old
      else .ok next := by
  simp only [resolve, nextOk, oldOk]

theorem resolve_ok {old next kept : ManagedRecord} {previous decoded : SyncRecord}
    (oldOk : decode codec old = .ok previous) (nextOk : decode codec next = .ok decoded)
    (resolved : resolve codec old next = .ok kept) :
    (decoded.entity = "Op" → decoded.tombstone = false → previous.tombstone = false →
      sameFields decoded previous = true) ∧
    (previous.entity = "Op" ∧ previous.tombstone = true ∧ decoded.tombstone = false ∧ kept = old ∨
      ¬(previous.entity = "Op" ∧ previous.tombstone = true ∧ decoded.tombstone = false) ∧
        kept = if next.clock ≤ old.clock then old else next) := by
  rw [resolve_eq oldOk nextOk] at resolved
  split at resolved
  · simp [invalid, failCode] at resolved
  · rename_i collision
    have fields : decoded.entity = "Op" → decoded.tombstone = false →
        previous.tombstone = false → sameFields decoded previous = true := by
      intro operation live alive
      by_contra different
      exact collision ⟨operation, by simp [live], by simp [alive], different⟩
    refine ⟨fields, ?_⟩
    split at resolved
    · simp [invalid, failCode] at resolved
    · split at resolved
      · rename_i sticky
        exact Or.inl ⟨sticky.1, sticky.2.1, by simpa using sticky.2.2,
          (Except.ok.inj resolved).symm⟩
      · rename_i loose
        refine Or.inr ⟨fun sticky => loose ⟨sticky.1, sticky.2.1, by simp [sticky.2.2]⟩, ?_⟩
        split at resolved
        · rename_i older
          rw [if_pos older, ← Except.ok.inj resolved]
        · rename_i newer
          rw [if_neg newer, ← Except.ok.inj resolved]

end Decoded

def resolveAll : List ManagedRecord → Option ManagedRecord → Except Error (Option ManagedRecord)
  | [], stored => .ok stored
  | next :: rest, some old =>
      match resolve codec old next with
      | .error error => .error error
      | .ok kept => resolveAll rest (some kept)
  | next :: rest, none =>
      match decode codec next with
      | .error error => .error error
      | .ok _ => resolveAll rest (some next)

theorem resolveAll_first {next : ManagedRecord} {decoded : SyncRecord}
    (ok : decode codec next = .ok decoded) (rest : List ManagedRecord) :
    resolveAll codec (next :: rest) none = resolveAll codec rest (some next) := by
  simp only [resolveAll, ok]

theorem resolveAll_next {old next kept : ManagedRecord}
    (resolved : resolve codec old next = .ok kept) (rest : List ManagedRecord) :
    resolveAll codec (next :: rest) (some old) = resolveAll codec rest (some kept) := by
  simp only [resolveAll, resolved]

structure Versions (id : String) (versions : List ManagedRecord) : Prop where
  about : ∀ version ∈ versions, version.id = id
  decodes : ∀ version ∈ versions, ∃ record, decode codec version = .ok record
  distinct : ∀ left ∈ versions, ∀ right ∈ versions, left.clock = right.clock → left = right

def Sticky (version : ManagedRecord) : Prop :=
  ∃ record, decode codec version = .ok record ∧ record.entity = "Op" ∧ record.tombstone = true

def LiveOp (version : ManagedRecord) (record : SyncRecord) : Prop :=
  decode codec version = .ok record ∧ record.entity = "Op" ∧ record.tombstone = false

/-- No live operation is newer than a tombstone of its id, unless two live versions collide. -/
def Settled (versions : List ManagedRecord) : Prop :=
  ¬∃ newest ∈ versions, ∃ record, LiveOp codec newest record ∧
    (∀ version ∈ versions, version.clock ≤ newest.clock) ∧
    (∃ version ∈ versions, version.deleted = true) ∧
    ∀ version ∈ versions, ∀ other, LiveOp codec version other → sameFields other record = true

section Orders

variable {codec} {id : String} {versions : List ManagedRecord}

/-- What the stored version says about those seen so far. -/
structure Progress (codec : MomentumCodec) (seen : List ManagedRecord) (stored : ManagedRecord) :
    Prop where
  member : stored ∈ seen
  newest : ¬Sticky codec stored → ∀ version ∈ seen, version.clock ≤ stored.clock
  fields : ∀ record, LiveOp codec stored record → ∀ version ∈ seen, ∀ other,
    LiveOp codec version other → sameFields other record = true
  sticky : Sticky codec stored → ∀ version ∈ seen, Sticky codec version →
    version.clock ≤ stored.clock

theorem Progress.first {version : ManagedRecord} : Progress codec [version] version := by
  refine ⟨List.mem_singleton_self version, ?_, ?_, ?_⟩
  · rintro - other member
    exact (List.mem_singleton.mp member) ▸ le_refl _
  · intro record live other member decoded otherLive
    obtain rfl := List.mem_singleton.mp member
    obtain rfl := Except.ok.inj (live.1.symm.trans otherLive.1)
    exact sameFields_refl live.1
  · rintro - other member -
    exact (List.mem_singleton.mp member) ▸ le_refl _

theorem Progress.next {seen : List ManagedRecord} {stored next kept : ManagedRecord}
    (progress : Progress codec seen stored) {previous decoded : SyncRecord}
    (oldOk : decode codec stored = .ok previous) (nextOk : decode codec next = .ok decoded)
    (sameId : stored.id = next.id) (resolved : resolve codec stored next = .ok kept) :
    Progress codec (next :: seen) kept := by
  have entity : previous.entity = decoded.entity := same_entity oldOk nextOk sameId
  obtain ⟨checked, outcome⟩ := resolve_ok oldOk nextOk resolved
  have stickyIff : Sticky codec stored ↔ previous.entity = "Op" ∧ previous.tombstone = true := by
    constructor
    · rintro ⟨record, ok, sticky⟩
      exact Except.ok.inj (ok.symm.trans oldOk) ▸ sticky
    · exact fun sticky => ⟨previous, oldOk, sticky⟩
  have nextSticky : Sticky codec next ↔ decoded.entity = "Op" ∧ decoded.tombstone = true := by
    constructor
    · rintro ⟨record, ok, sticky⟩
      exact Except.ok.inj (ok.symm.trans nextOk) ▸ sticky
    · exact fun sticky => ⟨decoded, nextOk, sticky⟩
  rcases outcome with ⟨operation, dead, live, rfl⟩ | ⟨loose, rfl⟩
  · -- a live version arrives at a tombstone
    have sticky : Sticky codec kept := stickyIff.mpr ⟨operation, dead⟩
    refine ⟨List.mem_cons_of_mem _ progress.member, fun not => absurd sticky not, ?_, ?_⟩
    · intro record alive
      obtain rfl := Except.ok.inj (alive.1.symm.trans oldOk)
      exact absurd alive.2.2 (by simp [dead])
    · intro _ version member other
      rcases List.mem_cons.mp member with rfl | member
      · simp [nextSticky, live] at other
      · exact progress.sticky sticky version member other
  · by_cases older : next.clock ≤ stored.clock
    · rw [if_pos older]
      refine ⟨List.mem_cons_of_mem _ progress.member, ?_, ?_, ?_⟩
      · intro not version member
        rcases List.mem_cons.mp member with rfl | member
        · exact older
        · exact progress.newest not version member
      · intro record alive version member other otherAlive
        rcases List.mem_cons.mp member with rfl | member
        · obtain rfl := Except.ok.inj (alive.1.symm.trans oldOk)
          obtain rfl := Except.ok.inj (otherAlive.1.symm.trans nextOk)
          exact checked otherAlive.2.1 otherAlive.2.2 alive.2.2
        · exact progress.fields record alive version member other otherAlive
      · intro sticky version member other
        rcases List.mem_cons.mp member with rfl | member
        · exact older
        · exact progress.sticky sticky version member other
    · rw [if_neg older]
      have newer : stored.clock < next.clock := not_le.mp older
      refine ⟨List.mem_cons_self .., ?_, ?_, ?_⟩
      · intro not version member
        rcases List.mem_cons.mp member with rfl | member
        · exact le_refl _
        · refine (progress.newest (fun sticky => ?_) version member).trans newer.le
          obtain ⟨operation, dead⟩ := stickyIff.mp sticky
          rw [nextSticky, ← entity] at not
          exact loose ⟨operation, dead, by simpa [operation] using not⟩
      · intro record alive version member other otherAlive
        obtain rfl := Except.ok.inj (alive.1.symm.trans nextOk)
        have storedLive : previous.tombstone = false := by
          by_contra dead
          exact loose ⟨entity.trans alive.2.1, by simpa using dead, alive.2.2⟩
        rcases List.mem_cons.mp member with rfl | member
        · obtain rfl := Except.ok.inj (alive.1.symm.trans otherAlive.1)
          exact sameFields_refl alive.1
        · exact sameFields_trans (progress.fields previous
            ⟨oldOk, entity.trans alive.2.1, storedLive⟩ version member other otherAlive)
            (sameFields_symm (checked alive.2.1 alive.2.2 storedLive))
      · intro _ version member other
        rcases List.mem_cons.mp member with rfl | member
        · exact le_refl _
        · by_cases sticky : Sticky codec stored
          · exact (progress.sticky sticky version member other).trans newer.le
          · exact (progress.newest sticky version member).trans newer.le

theorem Progress.all (valid : Versions codec id versions) {order seen : List ManagedRecord}
    {stored : ManagedRecord} (within : ∀ version ∈ order, version ∈ versions)
    (held : ∀ version ∈ seen, version ∈ versions) (progress : Progress codec seen stored)
    {outcome : Option ManagedRecord} (resolved : resolveAll codec order (some stored) = .ok outcome) :
    ∃ final all, outcome = some final ∧ Progress codec all final ∧
      ∀ version, version ∈ all ↔ version ∈ order ∨ version ∈ seen := by
  induction order generalizing seen stored with
  | nil => exact ⟨stored, seen, (Except.ok.inj resolved).symm, progress, by simp⟩
  | cons next rest ih =>
      have nextIn : next ∈ versions := within next (List.mem_cons_self ..)
      have storedIn : stored ∈ versions := held stored progress.member
      obtain ⟨previous, oldOk⟩ := valid.decodes stored storedIn
      obtain ⟨decoded, nextOk⟩ := valid.decodes next nextIn
      simp only [resolveAll] at resolved
      split at resolved
      · simp at resolved
      · rename_i kept result
        have later := progress.next oldOk nextOk
          ((valid.about stored storedIn).trans (valid.about next nextIn).symm) result
        obtain ⟨final, all, same, reached, members⟩ := ih
          (fun version member => within version (List.mem_cons_of_mem _ member))
          (fun version member => by
            rcases List.mem_cons.mp member with rfl | member
            · exact nextIn
            · exact held version member) later resolved
        refine ⟨final, all, same, reached, fun version => ?_⟩
        rw [members, List.mem_cons, List.mem_cons]
        tauto

theorem resolveAll_progress (valid : Versions codec id versions) {order : List ManagedRecord}
    (members : ∀ version, version ∈ order ↔ version ∈ versions) {outcome : Option ManagedRecord}
    (resolved : resolveAll codec order none = .ok outcome) :
    (versions = [] ∧ outcome = none) ∨ ∃ final all, outcome = some final ∧
      Progress codec all final ∧ ∀ version, version ∈ all ↔ version ∈ versions := by
  cases order with
  | nil =>
      refine Or.inl ⟨List.eq_nil_iff_forall_not_mem.mpr fun version member => ?_,
        (Except.ok.inj resolved).symm⟩
      simpa using (members version).mpr member
  | cons next rest =>
      simp only [resolveAll] at resolved
      split at resolved
      · simp at resolved
      · obtain ⟨final, all, same, reached, seen⟩ := Progress.first.all valid
          (fun version member => (members version).mp (List.mem_cons_of_mem _ member))
          (fun version member => (members version).mp (List.mem_singleton.mp member ▸
            List.mem_cons_self ..)) resolved
        refine Or.inr ⟨final, all, same, reached, fun version => ?_⟩
        rw [seen, ← members, List.mem_singleton, List.mem_cons]
        exact or_comm

theorem Progress.agree (valid : Versions codec id versions) (settled : Settled codec versions)
    {left right : ManagedRecord} {leftSeen rightSeen : List ManagedRecord}
    (leftAll : ∀ version, version ∈ leftSeen ↔ version ∈ versions)
    (rightAll : ∀ version, version ∈ rightSeen ↔ version ∈ versions)
    (leftDone : Progress codec leftSeen left) (rightDone : Progress codec rightSeen right) :
    left = right := by
  have oneSticky : ∀ {live dead : ManagedRecord} {liveSeen deadSeen : List ManagedRecord},
      (∀ version, version ∈ liveSeen ↔ version ∈ versions) →
      (∀ version, version ∈ deadSeen ↔ version ∈ versions) →
      Progress codec liveSeen live → Progress codec deadSeen dead →
      ¬Sticky codec live → Sticky codec dead → False := by
    intro live dead liveSeen deadSeen liveAll deadAll liveDone deadDone loose sticky
    have liveIn : live ∈ versions := (liveAll live).mp liveDone.member
    have deadIn : dead ∈ versions := (deadAll dead).mp deadDone.member
    obtain ⟨record, liveOk⟩ := valid.decodes live liveIn
    obtain ⟨tombstone, deadOk, operation, isDead⟩ := sticky
    have entity : record.entity = "Op" :=
      (same_entity liveOk deadOk ((valid.about live liveIn).trans
        (valid.about dead deadIn).symm)).trans operation
    have alive : record.tombstone = false := by
      by_contra gone
      exact loose ⟨record, liveOk, entity, by simpa using gone⟩
    refine settled ⟨live, liveIn, record, ⟨liveOk, entity, alive⟩, ?_, ?_, ?_⟩
    · exact fun version member => liveDone.newest loose version ((liveAll version).mpr member)
    · exact ⟨dead, deadIn, (decode_ok deadOk).2.2.trans isDead⟩
    · exact fun version member other otherAlive => liveDone.fields record
        ⟨liveOk, entity, alive⟩ version ((liveAll version).mpr member) other otherAlive
  have leftIn : left ∈ versions := (leftAll left).mp leftDone.member
  have rightIn : right ∈ versions := (rightAll right).mp rightDone.member
  refine valid.distinct left leftIn right rightIn (le_antisymm ?_ ?_)
  · by_cases rightSticky : Sticky codec right
    · by_cases leftSticky : Sticky codec left
      · exact rightDone.sticky rightSticky left ((rightAll left).mpr leftIn) leftSticky
      · exact (oneSticky leftAll rightAll leftDone rightDone leftSticky rightSticky).elim
    · exact rightDone.newest rightSticky left ((rightAll left).mpr leftIn)
  · by_cases leftSticky : Sticky codec left
    · by_cases rightSticky : Sticky codec right
      · exact leftDone.sticky leftSticky right ((leftAll right).mpr rightIn) rightSticky
      · exact (oneSticky rightAll leftAll rightDone leftDone rightSticky leftSticky).elim
    · exact leftDone.newest leftSticky right ((leftAll right).mpr rightIn)

theorem resolveAll_newest (valid : Versions codec id versions) {newest : ManagedRecord}
    {record : SyncRecord} (newestIn : newest ∈ versions) (live : LiveOp codec newest record)
    (newer : ∀ version ∈ versions, version.clock ≤ newest.clock)
    (fields : ∀ version ∈ versions, ∀ other, LiveOp codec version other →
      sameFields other record = true) {order : List ManagedRecord}
    (within : ∀ version ∈ order, version ∈ versions) :
    resolveAll codec order (some newest) = .ok (some newest) := by
  induction order with
  | nil => rfl
  | cons next rest ih =>
      have nextIn : next ∈ versions := within next (List.mem_cons_self ..)
      obtain ⟨decoded, nextOk⟩ := valid.decodes next nextIn
      have kept : resolve codec newest next = .ok newest := by
        rw [resolve_eq live.1 nextOk, if_neg, if_neg, if_neg, if_pos (newer next nextIn)]
        · simp [live.2.2]
        · rintro ⟨sameClock, different⟩
          exact different (valid.distinct newest newestIn next nextIn sameClock)
        · rintro ⟨operation, alive, -, different⟩
          exact different (fields next nextIn decoded ⟨nextOk, operation, by simpa using alive⟩)
      rw [resolveAll_next _ kept]
      exact ih fun version member => within version (List.mem_cons_of_mem _ member)

theorem resolveAll_sticky (valid : Versions codec id versions) {order : List ManagedRecord}
    (within : ∀ version ∈ order, version ∈ versions) {stored : ManagedRecord}
    (storedIn : stored ∈ versions) (sticky : Sticky codec stored) :
    ∃ final, resolveAll codec order (some stored) = .ok (some final) ∧ Sticky codec final := by
  induction order generalizing stored with
  | nil => exact ⟨stored, rfl, sticky⟩
  | cons next rest ih =>
      have nextIn : next ∈ versions := within next (List.mem_cons_self ..)
      obtain ⟨decoded, nextOk⟩ := valid.decodes next nextIn
      obtain ⟨previous, oldOk, operation, dead⟩ := sticky
      have entity : previous.entity = decoded.entity := same_entity oldOk nextOk
        ((valid.about stored storedIn).trans (valid.about next nextIn).symm)
      have later := fun version member => within version (List.mem_cons_of_mem _ member)
      have passes : resolve codec stored next = .ok stored ∨
          resolve codec stored next = .ok next ∧ Sticky codec next := by
        rw [resolve_eq oldOk nextOk, if_neg (by simp [dead]), if_neg fun both =>
          both.2 (valid.distinct stored storedIn next nextIn both.1)]
        split
        · exact Or.inl rfl
        · rename_i loose
          split
          · exact Or.inl rfl
          · refine Or.inr ⟨rfl, decoded, nextOk, entity.symm.trans operation, ?_⟩
            by_contra alive
            exact loose ⟨operation, dead, alive⟩
      rcases passes with kept | ⟨taken, nextSticky⟩
      · rw [resolveAll_next _ kept]
        exact ih later storedIn ⟨previous, oldOk, operation, dead⟩
      · rw [resolveAll_next _ taken]
        exact ih later nextIn nextSticky

theorem resolve_mem {old next kept : ManagedRecord} (resolved : resolve codec old next = .ok kept) :
    kept = old ∨ kept = next := by
  simp only [resolve] at resolved
  split at resolved
  · simp at resolved
  · split at resolved
    · simp at resolved
    · split at resolved
      · simp [invalid, failCode] at resolved
      · split at resolved
        · simp [invalid, failCode] at resolved
        · split at resolved
          · exact Or.inl (Except.ok.inj resolved).symm
          · split at resolved
            · exact Or.inl (Except.ok.inj resolved).symm
            · exact Or.inr (Except.ok.inj resolved).symm

theorem merge_resolveAll {incoming : List ManagedRecord}
    (about : ∀ record ∈ incoming, record.id = id) (merged : BTreeMap String ManagedRecord) :
    (merge codec incoming merged).map (fun after => after[id]?) =
      resolveAll codec incoming merged[id]? := by
  induction incoming generalizing merged with
  | nil => rfl
  | cons next rest ih =>
      have here : next.id = id := about next (List.mem_cons_self ..)
      have later := ih fun record member => about record (List.mem_cons_of_mem _ member)
      simp only [merge, here]
      cases merged[id]? with
      | some old =>
          simp only [resolveAll]
          cases resolve codec old next with
          | error error => rfl
          | ok kept =>
              refine (later _).trans ?_
              rw [BTreeMap.get_insert, if_pos rfl]
      | none =>
          simp only [resolveAll]
          cases decode codec next with
          | error error => rfl
          | ok decoded =>
              refine (later _).trans ?_
              rw [BTreeMap.get_insert, if_pos rfl]

/-- Records of other ids between those of the one id make no difference to it. -/
theorem merge_filter {incoming : List ManagedRecord} {merged after : BTreeMap String ManagedRecord}
    (result : merge codec incoming merged = .ok after) :
    resolveAll codec (incoming.filter fun record => record.id = id) merged[id]? =
      .ok after[id]? := by
  induction incoming generalizing merged with
  | nil =>
      obtain rfl := Except.ok.inj result
      rfl
  | cons next rest ih =>
      by_cases here : next.id = id
      · rw [List.filter_cons_of_pos (by simpa using here)]
        simp only [merge, here] at result
        cases found : merged[id]? with
        | some old =>
            rw [found] at result
            cases resolved : resolve codec old next with
            | error error => simp [resolved] at result
            | ok kept =>
                simp only [resolved] at result
                rw [resolveAll_next _ resolved, ← ih result, BTreeMap.get_insert, if_pos rfl]
        | none =>
            rw [found] at result
            cases decoded : decode codec next with
            | error error => simp [decoded] at result
            | ok record =>
                simp only [decoded] at result
                rw [resolveAll_first _ decoded, ← ih result, BTreeMap.get_insert, if_pos rfl]
      · rw [List.filter_cons_of_neg (by simpa using here)]
        simp only [merge] at result
        split at result
        · split at result
          · simp at result
          · rw [← ih result, BTreeMap.get_insert, if_neg (Ne.symm here)]
        · split at result
          · simp at result
          · rw [← ih result, BTreeMap.get_insert, if_neg (Ne.symm here)]

theorem merge_keyed {incoming : List ManagedRecord} {merged after : BTreeMap String ManagedRecord}
    (keyed : KeyedById merged) (result : merge codec incoming merged = .ok after) :
    KeyedById after := by
  induction incoming generalizing merged with
  | nil => exact Except.ok.inj result ▸ keyed
  | cons next rest ih =>
      simp only [merge] at result
      split at result
      · rename_i old found
        split at result
        · simp at result
        · rename_i kept resolved
          refine ih (keyed.insert ?_) result
          rcases resolve_mem resolved with rfl | rfl
          · exact keyed next.id kept found
          · rfl
      · split at result
        · simp at result
        · exact ih (keyed.insert rfl) result

theorem resolveAll_append (first second : List ManagedRecord) (stored : Option ManagedRecord) :
    resolveAll codec (first ++ second) stored =
      (resolveAll codec first stored).bind (resolveAll codec second) := by
  induction first generalizing stored with
  | nil => rfl
  | cons next rest ih =>
      cases stored with
      | some old =>
          simp only [List.cons_append, resolveAll]
          cases resolve codec old next with
          | error error => rfl
          | ok kept => exact ih _
      | none =>
          simp only [List.cons_append, resolveAll]
          cases decode codec next with
          | error error => rfl
          | ok decoded => exact ih _

theorem prepare_resolveAll {existing : List ManagedRecord}
    (nodup : (existing.map ManagedRecord.id).Nodup) {incoming : List ManagedRecord}
    {changeId : String} {revision : Nat} {prepared : PreparedChange}
    (result : (momentumAdapter codec).prepare changeId existing incoming revision = .ok prepared) :
    resolveAll codec (incoming.filter fun record => record.id = id)
        (RecordsAdapter.index existing)[id]? = .ok (RecordsAdapter.index prepared.staged)[id]? ∧
      (prepared.staged.map ManagedRecord.id).Nodup := by
  simp only [momentumAdapter, prepare] at result
  split at result
  · simp at result
  · split at result
    · simp at result
    · rename_i merged outcome
      obtain rfl := Except.ok.inj result
      have keyed := merge_keyed (index_keyed nodup) outcome
      refine ⟨?_, keyed.valueList_nodup⟩
      rw [keyed.index_valueList]
      exact merge_filter outcome

theorem prepareAll_resolveAll {existing final : List ManagedRecord}
    (nodup : (existing.map ManagedRecord.id).Nodup) {deliveries : List Delivery}
    (result : prepareAll codec existing deliveries = .ok final) :
    resolveAll codec (versionsOf id deliveries) (RecordsAdapter.index existing)[id]? =
      .ok (RecordsAdapter.index final)[id]? := by
  induction deliveries generalizing existing with
  | nil =>
      obtain rfl := Except.ok.inj result
      rfl
  | cons delivery rest ih =>
      simp only [prepareAll] at result
      split at result
      · simp at result
      · rename_i prepared first
        obtain ⟨stored, unique⟩ := prepare_resolveAll nodup first
        rw [versionsOf, List.flatMap_cons, List.filter_append, resolveAll_append, stored]
        exact ih unique result

theorem prepareAll_once {existing : List ManagedRecord}
    (nodup : (existing.map ManagedRecord.id).Nodup)
    (decodes : ∀ record ∈ existing, ∃ decoded, decode codec record = .ok decoded)
    {order : List ManagedRecord} (about : ∀ record ∈ order, record.id = id)
    {outcome : Option ManagedRecord}
    (resolved : resolveAll codec order (RecordsAdapter.index existing)[id]? = .ok outcome) :
    ∃ final, prepareAll codec existing [⟨"", 0, order⟩] = .ok final ∧
      (RecordsAdapter.index final)[id]? = outcome := by
  have checked : (existing.forM fun record => (decode codec record).map fun _ => ()) = .ok () := by
    clear nodup resolved
    induction existing with
    | nil => rfl
    | cons record rest ih =>
        obtain ⟨decoded, ok⟩ := decodes record (List.mem_cons_self ..)
        have head : ((record :: rest).forM fun record => (decode codec record).map fun _ => ()) =
            ((decode codec record).map fun _ => ()).bind fun _ =>
              rest.forM fun record => (decode codec record).map fun _ => () := rfl
        rw [head, ok]
        exact ih fun other member => decodes other (List.mem_cons_of_mem _ member)
  rw [← merge_resolveAll about] at resolved
  cases merged : merge codec order (RecordsAdapter.index existing) with
  | error error => simp [merged, Except.map] at resolved
  | ok after =>
      have keyed := merge_keyed (index_keyed nodup) merged
      refine ⟨BTreeMap.valueList after, ?_, ?_⟩
      · simp only [prepareAll, momentumAdapter, prepare, checked, merged]
      · rw [keyed.index_valueList]
        simpa only [merged, Except.map, Except.ok.injEq] using resolved

theorem versionsOf_single {order : List ManagedRecord} (about : ∀ record ∈ order, record.id = id)
    (changeId : String) (revision : Nat) : versionsOf id [⟨changeId, revision, order⟩] = order := by
  simpa [versionsOf] using about

/-- Every order in which the versions are prepared, alone or between records of other ids, ends in
the same record exactly if they are settled. -/
theorem folds_converge_iff {existing : List ManagedRecord}
    (nodup : (existing.map ManagedRecord.id).Nodup)
    (decodes : ∀ record ∈ existing, ∃ decoded, decode codec record = .ok decoded)
    (fresh : ∀ record ∈ existing, record.id ≠ id) (valid : Versions codec id versions) :
    (∀ (first second : List Delivery) (left right : List ManagedRecord),
      (versionsOf id first).Perm versions → (versionsOf id second).Perm versions →
      prepareAll codec existing first = .ok left → prepareAll codec existing second = .ok right →
      (RecordsAdapter.index left)[id]? = (RecordsAdapter.index right)[id]?) ↔
    Settled codec versions := by
  have absent : (RecordsAdapter.index existing)[id]? = none := by
    refine Option.eq_none_iff_forall_ne_some.mpr fun record found => ?_
    obtain ⟨member, same⟩ := (RecordsAdapter.index_get nodup id record).mp found
    exact fresh record member same
  constructor
  · rintro converges ⟨newest, newestIn, record, live, newer, ⟨tombstone, tombstoneIn, deleted⟩,
      fields⟩
    obtain ⟨dead, deadOk⟩ := valid.decodes tombstone tombstoneIn
    have sticky : Sticky codec tombstone :=
      ⟨dead, deadOk, (same_entity deadOk live.1 ((valid.about tombstone tombstoneIn).trans
        (valid.about newest newestIn).symm)).trans live.2.1, (decode_ok deadOk).2.2 ▸ deleted⟩
    have aboutOf : ∀ {order : List ManagedRecord}, order.Perm versions →
        ∀ version ∈ order, version.id = id :=
      fun perm version member => valid.about version (perm.mem_iff.mp member)
    have liveFirst : (newest :: versions.erase newest).Perm versions :=
      (List.perm_cons_erase newestIn).symm
    have deadFirst : (tombstone :: versions.erase tombstone).Perm versions :=
      (List.perm_cons_erase tombstoneIn).symm
    have keptLive : resolveAll codec (newest :: versions.erase newest)
        (RecordsAdapter.index existing)[id]? = .ok (some newest) := by
      rw [absent, resolveAll_first _ live.1]
      exact resolveAll_newest valid newestIn live newer fields
        fun version member => List.mem_of_mem_erase member
    obtain ⟨final, keptDead, finalSticky⟩ := resolveAll_sticky valid
      (fun version member => List.mem_of_mem_erase member) tombstoneIn sticky
    have keptDead : resolveAll codec (tombstone :: versions.erase tombstone)
        (RecordsAdapter.index existing)[id]? = .ok (some final) := by
      rw [absent, resolveAll_first _ deadOk]
      exact keptDead
    obtain ⟨left, leftOk, leftHas⟩ := prepareAll_once nodup decodes (aboutOf liveFirst) keptLive
    obtain ⟨right, rightOk, rightHas⟩ := prepareAll_once nodup decodes (aboutOf deadFirst) keptDead
    have same := converges [⟨"", 0, _⟩] [⟨"", 0, _⟩] left right
      (by rwa [versionsOf_single (aboutOf liveFirst)])
      (by rwa [versionsOf_single (aboutOf deadFirst)]) leftOk rightOk
    rw [leftHas, rightHas] at same
    obtain rfl := Option.some.inj same
    obtain ⟨other, ok, -, isDead⟩ := finalSticky
    obtain rfl := Except.ok.inj (ok.symm.trans live.1)
    simp [live.2.2] at isDead
  · intro settled first second left right firstPerm secondPerm leftOk rightOk
    have resolvedLeft : resolveAll codec (versionsOf id first) _ = _ :=
      prepareAll_resolveAll nodup leftOk
    have resolvedRight : resolveAll codec (versionsOf id second) _ = _ :=
      prepareAll_resolveAll nodup rightOk
    rw [absent] at resolvedLeft resolvedRight
    rcases resolveAll_progress valid (fun version => firstPerm.mem_iff) resolvedLeft with
      ⟨empty, leftNone⟩ | ⟨leftFinal, leftSeen, leftSome, leftDone, leftAll⟩
    · rcases resolveAll_progress valid (fun version => secondPerm.mem_iff) resolvedRight with
        ⟨_, rightNone⟩ | ⟨rightFinal, rightSeen, _, rightDone, rightAll⟩
      · rw [leftNone, rightNone]
      · simpa [empty] using (rightAll _).mp rightDone.member
    · rcases resolveAll_progress valid (fun version => secondPerm.mem_iff) resolvedRight with
        ⟨empty, _⟩ | ⟨rightFinal, rightSeen, rightSome, rightDone, rightAll⟩
      · simpa [empty] using (leftAll _).mp leftDone.member
      · rw [leftSome, rightSome, leftDone.agree valid settled leftAll rightAll rightDone]

end Orders

section Operation

def operation (counter : Nat) (deleted : Bool) : SyncRecord where
  schema := "momentum"
  entity := "Op"
  id := "1"
  fields := if deleted then ∅ else
    (((∅ : BTreeMap String FieldValue).insert "t" (.i64 1)).insert "origin" (.string "phone")
      |>.insert "op" (.string "\x7b\x7d")).insert "action" (.string "\x7b\x7d")
  tombstone := deleted
  clock := { counter, deviceId := "phone" }
  updatedAt := none
  fieldClocks := ∅

def operationText (counter deleted fields : String) : Bytes :=
  Record.asciiBytes
      "\x7b\"schema\":\"momentum\",\"entity\":\"Op\",\"id\":\"1\",\"fields\":\x7b".toList ++
    Record.asciiBytes (fields ++ "\x7d,\"tombstone\":" ++ deleted ++ ",\"clock\":\x7b\"counter\":" ++
      counter ++ ",\"device_id\":\"phone\"\x7d,\"updated_at\":null\x7d").toList

def addedText : Bytes :=
  operationText "2" "false" ("\"t\":\x7b\"type\":\"I64\",\"value\":1\x7d," ++
    "\"origin\":\x7b\"type\":\"String\",\"value\":\"phone\"\x7d," ++
    "\"op\":\x7b\"type\":\"String\",\"value\":\"\x7b\x7d\"\x7d," ++
    "\"action\":\x7b\"type\":\"String\",\"value\":\"\x7b\x7d\"\x7d")

theorem operation_finite (counter : Nat) (deleted : Bool) :
    (operation counter deleted).payload.finite = true := by
  simp only [RecordPayload.floats, List.all_eq_true]
  intro item member
  have found := Std.ExtTreeMap.mem_toList_iff_getElem?_eq_some.mp
    (show (item.1, item.2) ∈ (operation counter deleted).payload.fields.toList from member)
  cases deleted with
  | true => simp [SyncRecord.payload, operation] at found
  | false =>
      simp only [SyncRecord.payload, operation, Bool.false_eq_true, if_false,
        BTreeMap.get_insert] at found
      repeat' split at found
      all_goals first | exact Option.some.inj found ▸ rfl | simp at found

def operationCodec : MomentumCodec where
  syncRecord bytes :=
    if bytes = addedText then .ok (operation 2 false)
    else if bytes = operationText "1" "true" "" then .ok (operation 1 true)
    else if bytes = operationText "3" "true" "" then .ok (operation 3 true)
    else .error (.serde "expected value at line 1 column 1")
  jsonObject text := .ok (text = "\x7b\x7d")
  base64 _ := none
  gunzip _ _ := .error (.io "invalid gzip header")
  expandedObject _ := .ok false
  finite := by
    intro bytes record read
    split at read
    · exact Except.ok.inj read ▸ operation_finite 2 false
    · split at read
      · exact Except.ok.inj read ▸ operation_finite 1 true
      · split at read
        · exact Except.ok.inj read ▸ operation_finite 3 true
        · simp at read

def wireOf (value : Bytes) (record : SyncRecord) : ManagedRecord where
  adapter := "ops"
  id := Record.recordEntryKey momentumAppId "momentum" "Op" "1"
  value := value
  deleted := record.tombstone
  clock := record.clock

def added : ManagedRecord := wireOf addedText (operation 2 false)

def deletedEarlier : ManagedRecord := wireOf (operationText "1" "true" "") (operation 1 true)

def deletedLater : ManagedRecord := wireOf (operationText "3" "true" "") (operation 3 true)

def operationId : String := Record.recordEntryKey momentumAppId "momentum" "Op" "1"

theorem decode_wireOf {value : Bytes} {counter : Nat} {deleted : Bool}
    (read : operationCodec.syncRecord value = .ok (operation counter deleted))
    (live : deleted = true ∨ checkLive operationCodec (operation counter deleted) = .ok ()) :
    decode operationCodec (wireOf value (operation counter deleted)) =
      .ok (operation counter deleted) := by
  have read : operationCodec.syncRecord (wireOf value (operation counter deleted)).value =
      .ok (operation counter deleted) := read
  simp only [decode, read]
  rw [if_neg (by simp [wireOf, operation])]
  rcases live with rfl | live
  · rfl
  · rw [live]
    split <;> rfl

theorem decode_added : decode operationCodec added = .ok (operation 2 false) := by
  refine decode_wireOf (by simp only [operationCodec, if_true]) (Or.inr ?_)
  have timestamp : (operation 2 false).fields["t"]? = some (.i64 1) := by
    simp only [operation, Bool.false_eq_true, if_false, BTreeMap.get_insert, String.reduceEq, if_true]
  have origin : (operation 2 false).fields["origin"]? = some (.string "phone") := by
    simp only [operation, Bool.false_eq_true, if_false, BTreeMap.get_insert, String.reduceEq, if_true]
  have op : (operation 2 false).fields["op"]? = some (.string "\x7b\x7d") := by
    simp only [operation, Bool.false_eq_true, if_false, BTreeMap.get_insert, String.reduceEq, if_true]
  have action : (operation 2 false).fields["action"]? = some (.string "\x7b\x7d") := by
    simp only [operation, Bool.false_eq_true, if_false, BTreeMap.get_insert, String.reduceEq, if_true]
  have entity : (operation 2 false).entity = "Op" := rfl
  simp only [checkLive, timestamp, origin, entity, checkOperation]
  simp [op, action, operationCodec, bind, Except.bind, pure, Except.pure]

theorem deletedText_ne_addedText (counter : String) :
    operationText counter "true" "" ≠ addedText := by
  intro same
  have first := congrArg List.head? (List.append_cancel_left same)
  simp [Record.asciiBytes, -String.reduceAppend, -String.reduceToList] at first
  simp at first
  exact absurd first (by decide)

theorem decode_deletedEarlier : decode operationCodec deletedEarlier = .ok (operation 1 true) := by
  refine decode_wireOf ?_ (Or.inl rfl)
  simp only [operationCodec, if_neg (deletedText_ne_addedText "1"), if_true]

theorem decode_deletedLater : decode operationCodec deletedLater = .ok (operation 3 true) := by
  refine decode_wireOf ?_ (Or.inl rfl)
  have later : operationText "3" "true" "" ≠ operationText "1" "true" "" := by
    intro same
    have rest := List.append_cancel_left same
    simp [Record.asciiBytes, -String.reduceAppend, -String.reduceToList] at rest
    simp at rest
    exact absurd rest (by decide)
  simp only [operationCodec, if_neg (deletedText_ne_addedText "3"), if_neg later, if_true]

theorem resolve_added : resolve operationCodec added deletedEarlier = .ok added := by
  have clocks : added.clock ≠ deletedEarlier.clock := fun same =>
    absurd (congrArg LamportClock.counter same) (by simp [added, deletedEarlier, wireOf, operation])
  have older : deletedEarlier.clock ≤ added.clock :=
    LamportClock.le_iff.mpr (Or.inl (by simp [added, deletedEarlier, wireOf, operation]))
  rw [resolve_eq decode_added decode_deletedEarlier, if_neg (fun both => both.2.1 rfl), if_neg (fun both => clocks both.1),
    if_neg (fun both => absurd both.2.1 (by simp [operation])), if_pos older]

theorem resolve_deletedEarlier :
    resolve operationCodec deletedEarlier added = .ok deletedEarlier := by
  have clocks : deletedEarlier.clock ≠ added.clock := fun same =>
    absurd (congrArg LamportClock.counter same) (by simp [added, deletedEarlier, wireOf, operation])
  rw [resolve_eq decode_deletedEarlier decode_added, if_neg (fun both => both.2.2.1 rfl), if_neg (fun both => clocks both.1),
    if_pos ⟨rfl, rfl, by simp [operation]⟩]

/-- A tombstone older than the live version decides the result by the order of arrival. -/
theorem olderTombstone_diverges : ∃ left right,
    prepareAll operationCodec [] [⟨"", 0, [added, deletedEarlier]⟩] = .ok left ∧
    prepareAll operationCodec [] [⟨"", 0, [deletedEarlier, added]⟩] = .ok right ∧
    (RecordsAdapter.index left)[operationId]? = some added ∧
    (RecordsAdapter.index right)[operationId]? = some deletedEarlier := by
  have absent : (RecordsAdapter.index [])[operationId]? = none := by simp [RecordsAdapter.index]
  have keptAdded : resolveAll operationCodec [added, deletedEarlier]
      (RecordsAdapter.index [])[operationId]? = .ok (some added) := by
    rw [absent, resolveAll_first _ decode_added, resolveAll_next _ resolve_added]
    rfl
  have keptDeleted : resolveAll operationCodec [deletedEarlier, added]
      (RecordsAdapter.index [])[operationId]? = .ok (some deletedEarlier) := by
    rw [absent, resolveAll_first _ decode_deletedEarlier, resolveAll_next _ resolve_deletedEarlier]
    rfl
  have about : ∀ record ∈ [added, deletedEarlier], record.id = operationId := by
    intro record member
    rcases List.mem_pair.mp member with rfl | rfl <;> rfl
  have about' : ∀ record ∈ [deletedEarlier, added], record.id = operationId := by
    intro record member
    rcases List.mem_pair.mp member with rfl | rfl <;> rfl
  obtain ⟨left, leftOk, leftHas⟩ := prepareAll_once (by simp) (by simp) about keptAdded
  obtain ⟨right, rightOk, rightHas⟩ := prepareAll_once (by simp) (by simp) about' keptDeleted
  exact ⟨left, right, leftOk, rightOk, leftHas, rightHas⟩

theorem laterTombstone_converges : Versions operationCodec operationId [added, deletedLater] ∧
    ∀ (first second : List Delivery) (left right : List ManagedRecord),
      (versionsOf operationId first).Perm [added, deletedLater] →
      (versionsOf operationId second).Perm [added, deletedLater] →
      prepareAll operationCodec [] first = .ok left → prepareAll operationCodec [] second = .ok right →
      (RecordsAdapter.index left)[operationId]? = (RecordsAdapter.index right)[operationId]? := by
  have valid : Versions operationCodec operationId [added, deletedLater] := by
    refine ⟨by simp [added, deletedLater, wireOf, operationId], ?_, ?_⟩
    · intro version member
      rcases List.mem_pair.mp member with rfl | rfl
      · exact ⟨_, decode_added⟩
      · exact ⟨_, decode_deletedLater⟩
    · intro left leftIn right rightIn same
      rcases List.mem_pair.mp leftIn with rfl | rfl <;> rcases List.mem_pair.mp rightIn with rfl | rfl
      · rfl
      · simp [added, deletedLater, wireOf, operation] at same
      · simp [added, deletedLater, wireOf, operation] at same
      · rfl
  refine ⟨valid, (folds_converge_iff (by simp) (by simp) (by simp) valid).mpr ?_⟩
  rintro ⟨newest, newestIn, record, live, newer, -⟩
  rcases List.mem_pair.mp newestIn with rfl | rfl
  · have above := LamportClock.counter_le (newer deletedLater (by simp))
    simp [added, deletedLater, wireOf, operation] at above
  · obtain rfl := Except.ok.inj (decode_deletedLater.symm.trans live.1)
    exact absurd live.2.2 (by simp [operation])

end Operation

end Momentum

end LibreSync.Managed
