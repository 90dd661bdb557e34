import LibreSync.Managed.Changes

/-!
The record clock of a session: how many writes the stored counters leave room for, and how many a
received or imported record leaves.
-/

namespace LibreSync.Managed

section Errors

variable {Proof : Type} {inner : Inner Proof}

def clockExhausted : Error := .protocol "clock exhausted"

theorem merge_error {adapter : String} {incoming : List ManagedRecord}
    {before : BTreeMap String ManagedRecord} {error : Error}
    (failed : RecordsAdapter.merge adapter incoming before = .error error) :
    error ≠ clockExhausted := by
  induction incoming generalizing before with
  | nil => simp [RecordsAdapter.merge] at failed
  | cons next rest ih =>
      simp only [RecordsAdapter.merge] at failed
      split at failed
      · simp only [fail, Except.error.injEq] at failed
        simp [← failed, clockExhausted]
      · split at failed
        · split at failed
          · simp only [fail, Except.error.injEq] at failed
            simp [← failed, clockExhausted]
          · split at failed
            · exact ih failed
            · exact ih failed
        · exact ih failed

theorem validateRecords_error {adapter : String} {before after : List ManagedRecord}
    {error : Error} (failed : validateRecords adapter before after = .error error) :
    error ≠ clockExhausted := by
  simp only [validateRecords] at failed
  split at failed
  · simp only [failCode, Except.error.injEq] at failed
    simp [← failed, clockExhausted]
  · split at failed
    · simp only [fail, Except.error.injEq] at failed
      simp [← failed, clockExhausted]
    · simp at failed

theorem prepareEach_error {id : String} {records : BTreeMap RecordKey ManagedRecord}
    {revision : Nat} {incoming : List ManagedRecord} {adapters : List (String × ManagedAdapter)}
    (uniform : ∀ item ∈ adapters, ∃ descriptor, descriptor.id = item.1 ∧
      item.2 = recordsAdapter descriptor) {error : Error}
    (failed : prepareEach id records revision incoming adapters = .error error) :
    error ≠ clockExhausted := by
  induction adapters with
  | nil => simp [prepareEach] at failed
  | cons item rest ih =>
      obtain ⟨name, adapter⟩ := item
      have ih := ih fun item member => uniform item (List.mem_cons_of_mem _ member)
      simp only [prepareEach] at failed
      split at failed
      · exact ih failed
      · split at failed
        · rename_i raised checked
          obtain rfl := Except.error.inj failed
          obtain ⟨descriptor, _, same⟩ := uniform (name, adapter) List.mem_cons_self
          simp only at same
          subst same
          simp only [checkedChange, recordsAdapter, RecordsAdapter.prepare] at checked
          split at checked
          · rename_i cause
            obtain rfl := Except.error.inj checked
            split at cause
            · rename_i merging
              obtain rfl := Except.error.inj cause
              exact merge_error merging
            · simp at cause
          · split at checked
            · simp only [fail, Except.error.injEq] at checked
              simp [← checked, clockExhausted]
            · split at checked
              · rename_i invalid
                obtain rfl := Except.error.inj checked
                exact validateRecords_error invalid
              · simp at checked
        · cases later : prepareEach id records revision incoming rest with
          | ok changes => simp [later, Except.map] at failed
          | error raised =>
              simp only [later, Except.map, Except.error.injEq] at failed
              exact ih (failed ▸ later)

theorem commitEach_error (uniform : inner.config.Uniform) {expected : Nat}
    {changes : List PreparedChange} {error : Error}
    (failed : commitEach inner expected changes = .error error) : error ≠ clockExhausted := by
  induction changes with
  | nil => simp [commitEach] at failed
  | cons change rest ih =>
      simp only [commitEach] at failed
      split at failed
      · simp only [Except.error.injEq] at failed
        simp [← failed, clockExhausted]
      · rename_i adapter found
        obtain ⟨descriptor, _, rfl⟩ := uniform _ _ found
        split at failed
        · rename_i cause
          obtain rfl := Except.error.inj failed
          simp only [recordsAdapter] at cause
          split at cause
          · simp only [fail, Except.error.injEq] at cause
            simp [← cause, clockExhausted]
          · simp at cause
        · split at failed
          · rename_i invalid
            obtain rfl := Except.error.inj failed
            exact validateRecords_error invalid
          · cases later : commitEach inner expected rest with
            | ok results => simp [later, Except.map] at failed
            | error raised =>
                simp only [later, Except.map, Except.error.injEq] at failed
                exact ih (failed ▸ later)

theorem checkedNext_error {count : Nat} {message : String} {error : Error}
    (failed : checkedNext count message = .error error) : error = .protocol message := by
  simp only [checkedNext] at failed
  split at failed
  · simp at failed
  · exact (Except.error.inj failed).symm

theorem storeAll_error {origin : Option String} {records : List ManagedRecord}
    {e : Contents Proof} {error : Error} (failed : storeAll origin records e = .error error) :
    error ≠ clockExhausted := by
  induction records generalizing e with
  | nil => simp [storeAll] at failed
  | cons record rest ih =>
      simp only [storeAll] at failed
      split at failed
      · rename_i raised cause
        obtain rfl := Except.error.inj failed
        simp only [storeRecord] at cause
        split at cause
        · simp at cause
        · split at cause
          · rename_i bound
            obtain rfl := Except.error.inj cause
            simp [checkedNext_error bound, clockExhausted]
          · simp at cause
      · exact ih failed

end Errors

section Counters

theorem foldl_max_lt {counters : List Nat} {initial bound : Nat} :
    counters.foldl max initial < bound ↔ initial < bound ∧ ∀ counter ∈ counters, counter < bound := by
  induction counters generalizing initial with
  | nil => simp
  | cons first rest ih =>
      simp only [List.foldl_cons, ih, max_lt_iff, List.mem_cons, forall_eq_or_imp, and_assoc]

def RoomFor (count : Nat) (records : BTreeMap RecordKey ManagedRecord) : Prop :=
  ∀ (key : RecordKey) (record : ManagedRecord), records[key]? = some record →
    record.clock.counter + count < u64Max

theorem maxCounter_lt {records : BTreeMap RecordKey ManagedRecord} {bound : Nat} :
    maxCounter records < bound ↔ 0 < bound ∧ ∀ (key : RecordKey) (record : ManagedRecord),
      records[key]? = some record → record.clock.counter < bound := by
  simp only [maxCounter, foldl_max_lt, List.mem_map, BTreeMap.mem_valueList]
  refine and_congr_right fun _ => ⟨fun bounded key record found => ?_, ?_⟩
  · exact bounded _ ⟨record, ⟨key, found⟩, rfl⟩
  · rintro bounded _ ⟨record, ⟨key, found⟩, rfl⟩
    exact bounded key record found

theorem maxCounter_add_lt {records : BTreeMap RecordKey ManagedRecord} {count : Nat} :
    maxCounter records + count < u64Max ↔ count < u64Max ∧ RoomFor count records := by
  rw [← Nat.lt_sub_iff_add_lt, maxCounter_lt, Nat.sub_pos_iff_lt, RoomFor]
  simp only [Nat.lt_sub_iff_add_lt]

variable {Proof : Type} {inner : Inner Proof} {e after : Contents Proof}

theorem Committed.room {origin : Option String} {incoming : List ManagedRecord} {count : Nat}
    (committed : Committed inner origin incoming e after)
    (registered : ∀ record ∈ incoming, inner.config.registers record.adapter) :
    RoomFor count after.records ↔
      RoomFor count e.records ∧ ∀ record ∈ incoming, record.clock.counter + count < u64Max := by
  constructor
  · intro room
    refine ⟨fun key old present => ?_, fun record member => ?_⟩
    · rcases committed.entries key with same | ⟨record, _, _, fresh, newer⟩
      · exact room key old (same.record.trans present)
      · have older := LamportClock.counter_le (newer old present).le
        exact (Nat.add_le_add_right older count).trans_lt (room key record fresh.record)
    · obtain ⟨newest, found, rfl | newer⟩ := committed.taken record member (registered record member)
      · exact room _ newest found
      · have older := LamportClock.counter_le newer.le
        exact (Nat.add_le_add_right older count).trans_lt (room _ newest found)
  · rintro ⟨room, bounded⟩ key record found
    rcases committed.entries key with same | ⟨taken, member, _, fresh, _⟩
    · exact room key record (same.record.symm.trans found)
    · obtain rfl := Option.some.inj (fresh.record.symm.trans found)
      exact bounded taken member

theorem Committed.maxCounter {origin : Option String} {record : ManagedRecord}
    (committed : Committed inner origin [record] e after)
    (registered : inner.config.registers record.adapter)
    (next : record.clock.counter = Managed.maxCounter e.records + 1) :
    Managed.maxCounter after.records = Managed.maxCounter e.records + 1 := by
  obtain ⟨-, below⟩ := maxCounter_lt.mp (Nat.lt_succ_self (Managed.maxCounter e.records))
  refine le_antisymm (Nat.lt_succ_iff.mp (maxCounter_lt.mpr ⟨by omega, ?_⟩)) ?_
  · intro key stored found
    rcases committed.entries key with same | ⟨taken, member, _, fresh, _⟩
    · have older := below key stored (same.record.symm.trans found)
      omega
    · obtain rfl := Option.some.inj (fresh.record.symm.trans found)
      obtain rfl := List.mem_singleton.mp member
      omega
  · by_contra lower
    obtain ⟨-, bounded⟩ := maxCounter_lt.mp (not_le.mp lower)
    obtain ⟨newest, found, held⟩ := committed.taken record List.mem_cons_self registered
    have small := bounded _ newest found
    rcases held with rfl | newer
    · omega
    · have older := LamportClock.counter_le newer.le
      omega

def Writable (inner : Inner Proof) (e : Contents Proof) : Prop :=
  ∀ (change adapter id : String) (value : Bytes) (deleted : Bool),
    admitWrite inner adapter id value = .ok () →
      write inner change adapter id value deleted e ≠ .error clockExhausted

theorem SessionConfig.validate_adapters {config : SessionConfig}
    (valid : config.validate = .ok ()) : config.metadata.manifest.adapters ≠ [] := by
  have checked := validate_metadata valid
  intro none
  simp only [DeviceMetadata.validate, AppManifest.validate, none] at checked
  revert checked
  generalize bounded config.metadata.displayName = first
  generalize bounded config.metadata.deviceKind = second
  generalize bounded config.metadata.role = third
  generalize bounded config.metadata.manifest.appId = fourth
  generalize bounded config.metadata.manifest.displayName = fifth
  rcases first with _ | _ <;> rcases second with _ | _ <;> rcases third with _ | _ <;>
    rcases fourth with _ | _ <;> rcases fifth with _ | _ <;>
    simp [bind, Except.bind, throw, throwThe, MonadExceptOf.throw]

theorem writable_iff {installation : RecordsInstallation Proof} :
    Writable installation.inner e ↔ maxCounter e.records < u64Max := by
  constructor
  · intro writable
    obtain ⟨descriptor, rest, listed⟩ :=
      List.exists_cons_of_ne_nil (SessionConfig.validate_adapters installation.valid)
    have admitted : admitWrite installation.inner descriptor.id "record" [] = .ok () := by
      simp only [admitWrite, checkAdapter, listed, List.any_cons, decide_true, Bool.true_or,
        if_true]
      rw [if_neg (by decide)]
    by_contra full
    refine writable "change" descriptor.id "record" [] false admitted ?_
    simp only [write, checkedNext, checkedSucc, if_neg full]
    rfl
  · intro room change adapter id value deleted _ failed
    have counted : checkedNext (maxCounter e.records) "clock exhausted" =
        .ok (maxCounter e.records + 1) := by
      simp only [checkedNext, checkedSucc, if_pos room]
    simp only [write, counted] at failed
    split at failed
    · rename_i error prepared
      refine prepareEach_error (fun item member => ?_) prepared (Except.error.inj failed)
      exact installation.uniform item.1 item.2
        (Std.ExtTreeMap.mem_toList_iff_getElem?_eq_some.mp member)
    · split at failed
      · rename_i error committed
        obtain rfl := Except.error.inj failed
        simp only [commitRecords] at committed
        split at committed
        · rename_i cause
          obtain rfl := Except.error.inj committed
          exact commitEach_error installation.uniform cause rfl
        · exact storeAll_error committed rfl
      · rename_i middle _
        cases bound : checkedNext middle.localRevision "local revision exhausted" with
        | ok next => simp [bound, Except.map] at failed
        | error error =>
            simp only [bound, Except.map, Except.error.injEq] at failed
            have cause := checkedNext_error bound
            rw [failed] at cause
            simp [clockExhausted] at cause

end Counters

section Arrivals

variable {Proof : Type}

def Call.arrives : Call Proof → Bool
  | .receive .. | .importRecords _ | .resolve _ true => true
  | _ => false

def Call.merges (e : Contents Proof) : Call Proof → Bool
  | .receive _ _ peer batch => (e.peers[peer.identity.deviceId]?).any fun current =>
      !(current.received.epoch = batch.checkpoint.epoch &&
        decide (batch.checkpoint.sequence ≤ current.received.sequence)) &&
      (current.bootstrapped || e.records.isEmpty || batch.records.isEmpty)
  | .importRecords _ => true
  | .resolve _ merge => merge
  | _ => false

theorem validateBatch_ok [ReceiptMac Proof] {e : Contents Proof} {batch : ExportBatch Proof}
    (valid : validateBatch e batch = .ok ()) :
    (∀ record ∈ batch.records, e.metadata.manifest.adapters.any fun descriptor =>
      descriptor.id = record.adapter) ∧ (batch.records.map ManagedRecord.key).Nodup := by
  simp only [validateBatch] at valid
  split at valid
  · simp [fail] at valid
  · split at valid
    · rename_i checked
      refine ⟨fun record member => ?_, checked.2⟩
      have facts := List.all_eq_true.mp checked.1 record member
      simp only [decide_eq_true_eq] at facts
      exact facts.2.2.2
    · simp [fail] at valid

theorem forM_ok {α : Type} {items : List α} {action : α → Except Error Unit}
    (ran : items.forM action = .ok ()) : ∀ item ∈ items, action item = .ok () := by
  induction items with
  | nil => simp
  | cons first rest ih =>
      rw [show (first :: rest).forM action = (action first >>= fun _ => rest.forM action)
        from rfl] at ran
      simp only [bind, Except.bind] at ran
      split at ran
      · simp at ran
      · rename_i here
        intro item member
        rcases List.mem_cons.mp member with rfl | member
        · exact here
        · exact ih ran item member

variable [DecidableEq Proof] [ReceiptMac Proof] {e after : Contents Proof} {call : Call Proof}

theorem arrival_data {installation : RecordsInstallation Proof} {change : String}
    (sound : Sound installation.toInstallation e) (arrives : call.arrives = true)
    (admitted : admitCall installation.inner call = .ok ())
    (operated : operate installation.inner change call e = .ok after) :
    if call.merges e = true then
      (∀ record ∈ (call.incoming e).2, installation.inner.config.registers record.adapter) ∧
        ∃ middle, Committed installation.inner (call.incoming e).1 (call.incoming e).2 e middle ∧
          SameData middle after
    else SameData e after := by
  have registered : ∀ {batch : ExportBatch Proof}, validateBatch e batch = .ok () →
      ∀ record ∈ batch.records, installation.inner.config.registers record.adapter :=
    fun valid record member => sound.registered ((validateBatch_ok valid).1 record member)
  cases call with
  | importRecords records =>
      obtain ⟨reply, ran⟩ := Except.map_snd_ok.mp operated
      obtain ⟨middle, merging, _, rfl⟩ := importRecords_ok ran
      simp only [Call.merges, if_true]
      refine ⟨fun record member => ?_, middle, merging.committed installation.uniform sound.keyed, ⟨rfl, rfl, rfl, rfl⟩⟩
      simp only [admitCall, admitImport] at admitted
      split at admitted
      · simp at admitted
      · rename_i checked
        have here := forM_ok checked record member
        simp only [checkAdapter] at here
        split at here
        · rename_i listed
          refine sound.registered ?_
          rw [sound.metadata]
          exact listed
        · simp [fail] at here
  | resolve preview merge =>
      obtain ⟨reply, ran⟩ := Except.map_snd_ok.mp operated
      obtain ⟨_, _, _, _, _, _, _, _, _, ⟨rfl, _⟩ | ⟨rfl, valid, middle, merging, rfl⟩⟩ :=
        resolveBootstrap_ok ran
      · simp [Call.arrives] at arrives
      · simp only [Call.merges, if_true]
        exact ⟨registered valid, middle, merging.committed installation.uniform sound.keyed,
          ⟨rfl, rfl, rfl, rfl⟩⟩
  | receive generation token peer batch =>
      obtain ⟨reply, ran⟩ := Except.map_snd_ok.mp operated
      obtain ⟨current, live, received⟩ := receiveBatch_ok ran
      simp only [Call.merges, live.enrolled, Option.any_some]
      cases received with
      | already epoch covered =>
          rw [if_neg (by simp [epoch, covered])]
          exact .refl _
      | staged unconsented full stored offered =>
          rw [if_neg (by simp [unconsented, stored, offered])]
          exact ⟨rfl, rfl, rfl, rfl⟩
      | applied later valid permitted committed =>
          have merging : (!(current.received.epoch = batch.checkpoint.epoch &&
              decide (batch.checkpoint.sequence ≤ current.received.sequence)) &&
              (current.bootstrapped || e.records.isEmpty || batch.records.isEmpty)) = true := by
            have fresh : (decide (current.received.epoch = batch.checkpoint.epoch) &&
                decide (batch.checkpoint.sequence ≤ current.received.sequence)) = false := by
              simpa using later
            rw [fresh]
            rcases permitted with known | ⟨_, empty | nothing⟩
            · simp [known]
            · simp [empty]
            · simp [nothing]
          rw [if_pos merging]
          exact ⟨registered valid, _, committed.committed installation.uniform sound.keyed,
            ⟨rfl, rfl, rfl, rfl⟩⟩
  | _ => simp [Call.arrives] at arrives

theorem Session.perform_records {inner : Inner Proof} {session final : Session Proof}
    (settled : session.Settled) {change transaction : RandomId} {saves : Saves}
    (performed : session.perform inner change transaction saves call = (.ok (), final)) :
    admitCall inner call = .ok () ∧ ∃ candidate,
      operate inner change.text call session.envelope.toContents = .ok candidate ∧
        final.envelope.records = candidate.records := by
  obtain ⟨admitted, _, candidate, operated, outcome⟩ := Session.perform_ok settled performed
  refine ⟨admitted, candidate, operated, ?_⟩
  rcases outcome with ⟨rfl, rfl⟩ | ⟨contents, finished, rfl⟩
  · rfl
  · rcases completed_ok finished with ⟨_, rfl⟩ | ⟨_, _, rfl⟩
    · rfl
    · rfl

theorem perform_step {installation : Installation Proof} {session final : Session Proof}
    {change transaction : RandomId} {saves : Saves} {result : Except Error Unit}
    (performed : session.perform installation.inner change transaction saves call =
      (result, final)) :
    installation.step session (.call change transaction saves call) = some final := by
  rw [Installation.step, performed]

inductive Wrote (inner : Inner Proof) (session : Session Proof) : Nat → Session Proof → Prop where
  | none : Wrote inner session 0 session
  | accepted {count : Nat} {before after : Session Proof} {change transaction : RandomId}
      {saves : Saves} {adapter id : String} {value : Bytes} {deleted : Bool}
      (earlier : Wrote inner session count before)
      (wrote : before.perform inner change transaction saves (.write adapter id value deleted) =
        (.ok (), after)) : Wrote inner session (count + 1) after
  | refused {count : Nat} {before after : Session Proof} {change transaction : RandomId}
      {saves : Saves} {adapter id : String} {value : Bytes} {deleted : Bool} {error : Error}
      (earlier : Wrote inner session count before)
      (failed : before.perform inner change transaction saves (.write adapter id value deleted) =
        (.error error, after)) : Wrote inner session count after

theorem write_maxCounter {installation : RecordsInstallation Proof} {session after : Session Proof}
    {change transaction : RandomId} {saves : Saves} {adapter id : String} {value : Bytes}
    {deleted : Bool} (holds : session.Holds (Sound installation.toInstallation))
    (wrote : session.perform installation.inner change transaction saves
      (.write adapter id value deleted) = (.ok (), after)) :
    maxCounter after.envelope.records = maxCounter session.envelope.records + 1 := by
  have sound := holds.memory
  obtain ⟨admitted, candidate, operated, records⟩ := Session.perform_records holds.settled wrote
  obtain ⟨reply, ran⟩ := Except.map_snd_ok.mp operated
  obtain ⟨middle, _, merging, rfl⟩ := write_ok ran
  have registered : installation.inner.config.registers adapter := by
    simp only [admitCall, admitWrite] at admitted
    split at admitted
    · simp at admitted
    · rename_i checked
      simp only [checkAdapter] at checked
      split at checked
      · rename_i listed
        refine sound.registered ?_
        rw [sound.metadata]
        exact listed
      · simp [fail] at checked
  rw [records]
  exact (merging.committed installation.uniform sound.keyed).maxCounter registered rfl

theorem Wrote.maxCounter {installation : RecordsInstallation Proof} {session last : Session Proof}
    {count : Nat} (wrote : Wrote installation.inner session count last)
    (holds : session.Holds (Sound installation.toInstallation)) :
    last.Holds (Sound installation.toInstallation) ∧
      Managed.maxCounter last.envelope.records =
        Managed.maxCounter session.envelope.records + count := by
  induction wrote with
  | none => exact ⟨holds, rfl⟩
  | accepted earlier wrote ih =>
      obtain ⟨holds, counted⟩ := ih
      refine ⟨holds.step (perform_step wrote), ?_⟩
      rw [write_maxCounter holds wrote, counted, Nat.add_assoc]
  | refused earlier failed ih =>
      obtain ⟨holds, counted⟩ := ih
      have records := congrArg Contents.records (Session.perform_error holds.settled failed)
      exact ⟨holds.step (perform_step failed), (congrArg Managed.maxCounter records).trans counted⟩

/-- After an accepted arrival and further local writes the record clock still moves, exactly if
neither a stored record nor one that the arrival merged had a counter that the accepted writes
raise to the top of the range. -/
theorem RecordsInstallation.writable_after_iff (installation : RecordsInstallation Proof)
    {session final : Session Proof} {change transaction : RandomId} {saves : Saves}
    (reached : Transition.Reaches installation.step (fun _ _ => True)
      (.opened installation.first) session)
    (arrives : call.arrives = true)
    (accepted : session.perform installation.inner change transaction saves call =
      (.ok (), final))
    {count : Nat} {last : Session Proof} (wrote : Wrote installation.inner final count last) :
    Writable installation.inner last.envelope.toContents ↔
      maxCounter session.envelope.records + count < u64Max ∧
        (call.merges session.envelope.toContents = true →
          ∀ record ∈ (call.incoming session.envelope.toContents).2,
            record.clock.counter + count < u64Max) := by
  have holds := installation.sound reached
  obtain ⟨admitted, candidate, operated, records⟩ :=
    Session.perform_records holds.settled accepted
  have counted := (wrote.maxCounter (holds.step (perform_step accepted))).2
  rw [writable_iff, counted, records, maxCounter_add_lt, maxCounter_add_lt, and_assoc]
  refine and_congr_right fun _ => ?_
  have data := arrival_data holds.memory arrives admitted operated
  by_cases merging : call.merges session.envelope.toContents = true
  · rw [if_pos merging] at data
    obtain ⟨registered, middle, committed, same⟩ := data
    rw [same.records, committed.room registered]
    simp [merging]
  · rw [if_neg merging] at data
    rw [data.records]
    simp [merging]

end Arrivals

def phoneBatch (counter : Nat) : ExportBatch SymbolicProof where
  checkpoint := phoneCheckpoint 1
  records := [phoneRecord "note" counter]
  full := true

def receivePhone (counter : Nat) : Call SymbolicProof :=
  .receive 2 sampleId phonePeer (phoneBatch counter)

theorem enrollPhone_runs :
    (Transition.run desk.step (.opened desk.first) enrollPhone).isSome = true :=
  rfl

def deskWithPhone : Session SymbolicProof :=
  (Transition.run desk.step (.opened desk.first) enrollPhone).get enrollPhone_runs

theorem deskWithPhone_reached : Transition.Reaches desk.step (fun _ _ => True)
    (.opened desk.first) deskWithPhone :=
  Transition.reaches_of_run enrollPhone (Option.some_get enrollPhone_runs).symm

def deskWithNote : Session SymbolicProof :=
  (deskWithPhone.perform desk.inner sampleId sampleId {} (receivePhone 1)).2

def setDraft : Call SymbolicProof := .write "records" "draft" [7] false

theorem writable_after_small : Writable desk.inner
    (deskWithNote.perform desk.inner sampleId sampleId {} setDraft).2.envelope.toContents := by
  have received : (deskWithPhone.perform desk.inner sampleId sampleId {}
      (receivePhone 1)).1 = .ok () := by
    decide +kernel
  have wrote : (deskWithNote.perform desk.inner sampleId sampleId {} setDraft).1 = .ok () := by
    decide +kernel
  have empty : deskWithPhone.envelope.records = ∅ := by decide +kernel
  refine (desk.writable_after_iff deskWithPhone_reached rfl (Prod.ext received rfl)
    (Wrote.none.accepted (Prod.ext wrote rfl))).mpr ⟨?_, fun _ record member => ?_⟩
  · rw [empty]
    decide
  · rw [List.mem_singleton.mp member]
    decide

/-- One accepted record at the top of the range stops every later write. -/
theorem topCounter_blocks_writes : ∃ final : Session SymbolicProof,
    Transition.Reaches desk.step (fun _ _ => True) (.opened desk.first) deskWithPhone ∧
      deskWithPhone.perform desk.inner sampleId sampleId {} (receivePhone u64Max) =
        (.ok (), final) ∧
      ¬Writable desk.inner final.envelope.toContents := by
  have accepted : (deskWithPhone.perform desk.inner sampleId sampleId {}
      (receivePhone u64Max)).1 = .ok () := by
    decide +kernel
  refine ⟨_, deskWithPhone_reached, Prod.ext accepted rfl, fun writable => ?_⟩
  have stored : (deskWithPhone.perform desk.inner sampleId sampleId {}
      (receivePhone u64Max)).2.envelope.records[recordKey "records" "note"]? =
        some (phoneRecord "note" u64Max) := by
    decide +kernel
  exact absurd ((maxCounter_lt.mp (writable_iff.mp writable)).2 _ _ stored) (by decide)

end LibreSync.Managed
