import Fs0.Lib.Outbox
import Fs0.Storage.BundleReporter
import Fs0.Storage.BundleSums
import Fs0.Storage.StoredChunks
import Fs0.Volume.Outbox

/-!
Contract: the bundles of a volume, their pending changes and their replica rows at central
as an outbox.

Owns:
- what each step of a volume, and each report that central handles, does to it;
- that the records read for a report cover the records up to its last event.

Does not own: the calls that read and report.
-/

set_option autoImplicit false

namespace Fs0

open Lib Fallible

/-! ## The outbox of a volume -/

def BundleChangeRecordRow.entry (record : BundleChangeRecordRow) : OutboxEntry HashId where
  key := record.bundleId
  present := record.eventType = .stored
  number := record.eventId

def BundleReplicaEvent.change (event : BundleReplicaEvent) : Change HashId where
  key := event.bundleId
  present := event.kind = .stored

/-- The changes of a volume among those of a report. -/
def changesOf (volumeId : Nat) (events : List BundleReplicaEvent) : List (Change HashId) :=
  (events.filter fun event => event.volumeId = volumeId).map BundleReplicaEvent.change

theorem mem_changesOf {volumeId : Nat} {events : List BundleReplicaEvent} {change : Change HashId} :
    change ∈ changesOf volumeId events ↔
      ∃ event ∈ events, event.volumeId = volumeId ∧ event.change = change := by
  simp [changesOf, List.mem_filter, and_assoc]

namespace VolumeTables

/-- The bundles of a volume, of which its replica rows are the mirror. -/
def outbox (tables : VolumeTables) (replicas : Table BundleReplicaRow.key) (volumeId : Nat) :
    Outbox HashId where
  source := tables.HasBundle
  mirror bundleId := (replicas.find? (bundleId, volumeId)).isSome
  entries := tables.bundleChangeRecords.rows.map BundleChangeRecordRow.entry
  seq := tables.bundleChangeRecords.seq

variable {tables before after : VolumeTables} {replicas : Table BundleReplicaRow.key}
  {volumeId : Nat} {bundleId : HashId} {kind : BundleReplicaEventKind}

theorem outbox_pending : (tables.outbox replicas volumeId).Pending bundleId ↔
    tables.Pending bundleId := by
  unfold Outbox.Pending Pending outbox
  simp [BundleChangeRecordRow.entry]

/-- A change that is recorded changes the outbox. -/
theorem Recorded.changes (recorded : Recorded kind bundleId before after)
    (here : after.HasBundle bundleId ↔ kind = .stored)
    (others : ∀ other, other ≠ bundleId → (after.HasBundle other ↔ before.HasBundle other)) :
    (before.outbox replicas volumeId).Changes ⟨bundleId, kind = .stored⟩
      (after.outbox replicas volumeId) := by
  have bound := before.bundleChangeRecords.le_seq
  cases recorded with
  | changed pending rows seq =>
      have same : ∀ record : BundleChangeRecordRow, record.bundleId ≠ bundleId →
          retyped kind bundleId record = record := fun record differs => if_neg differs
      refine ⟨here.trans decide_eq_true_iff.symm, others, rfl, ?_, ?_, ?_, ?_⟩
      · obtain ⟨record, member, isBundle⟩ := pending
        refine outbox_pending.mpr ⟨retyped kind bundleId record, ?_, ?_⟩
        · rw [rows]
          exact List.mem_map_of_mem member
        · rw [retyped_bundleId, isBundle]
      · intro entry member
        obtain ⟨record, among, rfl⟩ := List.mem_map.mp member
        by_cases isBundle : record.bundleId = bundleId
        · exact .inl isBundle
        · refine .inr (List.mem_map.mpr ⟨record, ?_, rfl⟩)
          rw [rows]
          exact List.mem_map.mpr ⟨record, among, same record isBundle⟩
      · intro entry member
        obtain ⟨after', among, rfl⟩ := List.mem_map.mp member
        rw [rows] at among
        obtain ⟨record, old, rfl⟩ := List.mem_map.mp among
        by_cases isBundle : record.bundleId = bundleId
        · have isRetyped : retyped kind bundleId record = { record with eventType := kind } :=
            if_pos isBundle
          rw [isRetyped]
          refine .inr ⟨?_, .inl ⟨record.entry, List.mem_map_of_mem old, isBundle, rfl⟩⟩
          rw [← isBundle]
          rfl
        · rw [same record isBundle]
          exact .inl ⟨List.mem_map_of_mem old, isBundle⟩
      · show before.bundleChangeRecords.seq ≤ after.bundleChangeRecords.seq
        omega
  | appended isNew rows seq =>
      refine ⟨here.trans decide_eq_true_iff.symm, others, rfl, ?_, ?_, ?_, ?_⟩
      · refine outbox_pending.mpr
          ⟨⟨before.bundleChangeRecords.seq + 1, kind, bundleId⟩, ?_, rfl⟩
        rw [rows]
        exact List.mem_append_right _ (List.mem_singleton.mpr rfl)
      · intro entry member
        obtain ⟨record, among, rfl⟩ := List.mem_map.mp member
        refine .inr (List.mem_map.mpr ⟨record, ?_, rfl⟩)
        rw [rows]
        exact List.mem_append_left _ among
      · intro entry member
        obtain ⟨record, among, rfl⟩ := List.mem_map.mp member
        rw [rows] at among
        rcases List.mem_append.mp among with old | last
        · exact .inl ⟨List.mem_map_of_mem old, fun same => isNew ⟨record, old, same⟩⟩
        · obtain rfl := List.mem_singleton.mp last
          exact .inr ⟨rfl, .inr ⟨Nat.lt_succ_self _, Nat.le_of_eq seq.symm⟩⟩
      · show before.bundleChangeRecords.seq ≤ after.bundleChangeRecords.seq
        omega

end VolumeTables

/-! ## Steps of a volume -/

namespace Volume

open VolumeTables

variable {blake3 : Bytes → HashId} {before after : VolumeTables} {bundleId : HashId}
  {kind : BundleReplicaEventKind} {chunks : List BundleChunkRef}
  {replicas : Table BundleReplicaRow.key} {volumeId : Nat} {e : VolumeEvent}

theorem BundleWritten.changes (written : BundleWritten bundleId chunks kind before after)
    (isKind : chunks ≠ [] ↔ kind = .stored) :
    (before.outbox replicas volumeId).Changes ⟨bundleId, kind = .stored⟩
      (after.outbox replicas volumeId) := by
  refine written.recorded.changes ?_ ?_
  · rw [hasBundle_iff, written.rowsOf_self, ← isKind]
    exact not_congr List.map_eq_nil_iff
  · intro other differs
    rw [hasBundle_iff, hasBundle_iff, written.rowsOf_of_ne differs]

/-- What an event of a volume does to its outbox. -/
inductive OutboxMove (e : VolumeEvent) (before after : Outbox HashId) : Prop where
  | kept (same : after = before)
  | stored (bundleId : HashId) (chunks : List BundleChunkRef) (commit : Option Fs0Error)
      (isCommit : e = .commitBundle bundleId chunks commit)
      (changes : before.Changes ⟨bundleId, true⟩ after)
  | deleted (bundleId : HashId) (isDelete : e = .deleteBundle bundleId none)
      (changes : before.Changes ⟨bundleId, false⟩ after)
  | removed (maxEventId : Nat) (isRemove : e = .removeBundleChangeRecords maxEventId)
      (removes : before.Removes maxEventId after)

theorem outbox_of_step (replicas : Table BundleReplicaRow.key) (volumeId : Nat)
    (step : TableStep blake3 e before after) :
    OutboxMove e (before.outbox replicas volumeId) (after.outbox replicas volumeId) := by
  cases step with
  | kept chunks bundleChunks records =>
      refine .kept ?_
      unfold outbox HasBundle
      rw [bundleChunks, records]
  | inserted chunk chunks appended effect => exact .kept (by rw [effect]; rfl)
  | deleted chunkId isDelete unreferenced effect => exact .kept (by rw [effect]; rfl)
  | stored bundleId chunks commit isCommit stores written =>
      have nonempty := (checkBundle_eq_ok.mp stores.checked).1
      exact .stored bundleId chunks commit isCommit
        (written.changes (iff_of_true nonempty rfl))
  | removed bundleId isDelete written =>
      exact .deleted bundleId isDelete (written.changes (by simp))
  | forgotten maxEventId isRemove effect =>
      refine .removed maxEventId isRemove ⟨by rw [effect]; rfl, by rw [effect]; rfl,
        by rw [effect]; rfl, ?_⟩
      intro entry
      rw [effect]
      constructor
      · intro member
        obtain ⟨record, among, rfl⟩ := List.mem_map.mp member
        obtain ⟨old, late⟩ := SeqTable.mem_delete.mp among
        exact ⟨List.mem_map_of_mem old, Nat.not_le.mp (of_decide_eq_false late)⟩
      · rintro ⟨member, late⟩
        obtain ⟨record, among, rfl⟩ := List.mem_map.mp member
        have late : maxEventId < record.eventId := late
        exact List.mem_map_of_mem (SeqTable.mem_delete.mpr ⟨among, by simpa using late⟩)

end Volume

/-! ## Reports -/

/-- A report that central has handled has delivered its changes. -/
theorem delivers_of_reported {events : List BundleReplicaEvent} {before after : Table BundleReplicaRow.key}
    (reported : ∀ key, ReplicaReported events key (before.find? key) (after.find? key))
    (tables : VolumeTables) (volumeId : Nat) :
    (tables.outbox before volumeId).Delivers (changesOf volumeId events)
      (tables.outbox after volumeId) := by
  refine ⟨rfl, rfl, rfl, ?_⟩
  intro bundleId
  show (_ ∧ ((after.find? (bundleId, volumeId)).isSome ↔ (before.find? (bundleId, volumeId)).isSome)) ∨
    ∃ change ∈ _, _ ∧ ((after.find? (bundleId, volumeId)).isSome ↔ _)
  cases reported (bundleId, volumeId) with
  | untouched foreign same =>
      refine .inl ⟨?_, by rw [same]⟩
      intro change member isKey
      obtain ⟨event, among, isVolume, rfl⟩ := mem_changesOf.mp member
      exact foreign event among (Prod.ext isKey isVolume)
  | stored event row member isKey kind rawLen compressedLen now =>
      obtain ⟨isBundle, isVolume⟩ := Prod.mk.inj isKey
      refine .inr ⟨event.change, mem_changesOf.mpr ⟨event, member, isVolume, rfl⟩, isBundle, ?_⟩
      rw [now]
      exact iff_of_true rfl (decide_eq_true kind)
  | deleted event member isKey kind now =>
      obtain ⟨isBundle, isVolume⟩ := Prod.mk.inj isKey
      refine .inr ⟨event.change, mem_changesOf.mpr ⟨event, member, isVolume, rfl⟩, isBundle, ?_⟩
      rw [now]
      refine iff_of_false nofun ?_
      show ¬ decide (event.kind = .stored) = true
      rw [kind]
      decide

/-! ## Reading -/

namespace VolumeDb

open VolumeTables

/-- The query of `get_bundle_change_records` gives one event for each record. -/
structure ReadsRecord (volumeId : Nat) (record : BundleChangeRecordRow)
    (event : BundleReplicaEvent) : Prop where
  eventId : event.eventId = record.eventId
  kind : event.kind = record.eventType
  volumeId : event.volumeId = volumeId
  bundleId : event.bundleId = record.bundleId

theorem changeRecord_reads {tables : VolumeTables} {volumeId : Nat} {record : BundleChangeRecordRow}
    {event : BundleReplicaEvent} (ran : changeRecord tables volumeId record = .ok event) :
    ReadsRecord volumeId record event := by
  obtain ⟨rawLen, -, ran⟩ := Fs0Result.bind_eq_ok.mp ran
  obtain ⟨compressedLen, -, ran⟩ := Fs0Result.bind_eq_ok.mp ran
  obtain rfl := Except.ok.inj ran
  exact ⟨rfl, rfl, rfl, rfl⟩

theorem changeRecords_ordered (tables : VolumeTables) :
    tables.changeRecords.Pairwise fun left right => left.eventId < right.eventId := by
  have ordered : tables.changeRecords.Pairwise fun left right => left.eventId ≤ right.eventId :=
    List.pairwise_insertionSort _ _
  have perm : tables.changeRecords.Perm tables.bundleChangeRecords.rows :=
    List.perm_insertionSort _ _
  have distinct : (tables.changeRecords.map BundleChangeRecordRow.eventId).Nodup :=
    (perm.map _).nodup_iff.mpr tables.bundleChangeRecords.nodup
  exact ordered.imp₂ (fun _ _ le ne => lt_of_le_of_ne le ne) (List.pairwise_map.mp distinct)

theorem mem_changeRecords {tables : VolumeTables} {record : BundleChangeRecordRow} :
    record ∈ tables.changeRecords ↔ record ∈ tables.bundleChangeRecords.rows :=
  (List.perm_insertionSort _ _).mem_iff

/-- What `get_bundle_change_records` read, and the first records of the table. -/
theorem reads_of_getBundleChangeRecords {limit : Nat} {db db' : VolumeDb}
    {events : List BundleReplicaEvent} (ran : getBundleChangeRecords limit db = .ok events db') :
    List.Forall₂ (ReadsRecord db.2.volumeId) (db.1.changeRecords.take limit) events := by
  obtain ⟨-, mapped, -⟩ := Storage.getBundleChangeRecords_eq_ok.mp ran
  exact (mapM_eq_ok.mp mapped).imp fun _ _ => changeRecord_reads

end VolumeDb

namespace ReportingStorage

open VolumeDb VolumeTables

variable {volumeId : Nat} {records : List BundleChangeRecordRow} {events : List BundleReplicaEvent}

theorem exists_record (reads : List.Forall₂ (ReadsRecord volumeId) records events)
    {event : BundleReplicaEvent} (member : event ∈ events) :
    ∃ record ∈ records, ReadsRecord volumeId record event := by
  obtain ⟨index, bound, rfl⟩ := List.mem_iff_getElem.mp member
  have inRecords : index < records.length := reads.length_eq ▸ bound
  exact ⟨records[index], List.getElem_mem inRecords, reads.get inRecords bound⟩

theorem exists_event (reads : List.Forall₂ (ReadsRecord volumeId) records events)
    {record : BundleChangeRecordRow} (member : record ∈ records) :
    ∃ event ∈ events, ReadsRecord volumeId record event := by
  obtain ⟨index, bound, rfl⟩ := List.mem_iff_getElem.mp member
  have inEvents : index < events.length := reads.length_eq ▸ bound
  exact ⟨events[index], List.getElem_mem inEvents, reads.get bound inEvents⟩

theorem mem_sortEvents {event : BundleReplicaEvent} :
    event ∈ sortEvents events ↔ event ∈ events :=
  (List.perm_insertionSort _ _).mem_iff

/-- The last id of a report is the id of one of its events. -/
theorem exists_maxEventId (nonempty : events ≠ []) :
    ∃ event ∈ events, event.eventId = maxEventId (sortEvents events) := by
  have perm : (sortEvents events).Perm events := List.perm_insertionSort _ _
  have some' : sortEvents events ≠ [] := fun none =>
    nonempty (List.nil_perm.mp (none ▸ perm))
  unfold maxEventId
  rw [List.getLast?_eq_some_getLast some']
  exact ⟨_, mem_sortEvents.mp (List.getLast_mem some'), rfl⟩

/-- A read that gives no events finds no records. -/
theorem no_records_of_reads {tables : VolumeTables} {limit : Nat} (positive : 0 < limit)
    (reads : List.Forall₂ (ReadsRecord volumeId) (tables.changeRecords.take limit) []) :
    tables.bundleChangeRecords.rows = [] := by
  have none := List.forall₂_nil_right_iff.mp reads
  rcases List.take_eq_nil_iff.mp none with isZero | isNil
  · exact absurd isZero (Nat.ne_of_gt positive)
  · apply List.eq_nil_iff_forall_not_mem.mpr
    intro record member
    rw [← mem_changeRecords, isNil] at member
    cases member

/-- The records up to the last event that was read are those that were read. -/
theorem mem_take_of_le {tables : VolumeTables} {limit : Nat}
    (reads : List.Forall₂ (ReadsRecord volumeId) (tables.changeRecords.take limit) events)
    (nonempty : events ≠ []) {record : BundleChangeRecordRow}
    (member : record ∈ tables.bundleChangeRecords.rows)
    (early : record.eventId ≤ maxEventId (sortEvents events)) :
    record ∈ tables.changeRecords.take limit := by
  have among := mem_changeRecords.mpr member
  rw [← List.take_append_drop limit tables.changeRecords] at among
  rcases List.mem_append.mp among with first | later
  · exact first
  · obtain ⟨event, inEvents, isMax⟩ := exists_maxEventId nonempty
    obtain ⟨last, inTake, isLast⟩ := exists_record reads inEvents
    have ordered := changeRecords_ordered tables
    rw [← List.take_append_drop limit tables.changeRecords] at ordered
    have below := (List.pairwise_append.mp ordered).2.2 last inTake record later
    rw [← isMax, isLast.eventId] at early
    exact absurd below (Nat.not_lt.mpr early)

/-- What is read for a report covers the records up to its last event, each bundle once. -/
theorem covers_of_reads {tables : VolumeTables} {limit : Nat}
    (replicas : Table BundleReplicaRow.key)
    (reads : List.Forall₂ (ReadsRecord volumeId) (tables.changeRecords.take limit) events)
    (nonempty : events ≠ []) :
    (tables.outbox replicas volumeId).Covers (changesOf volumeId (sortEvents events))
      (maxEventId (sortEvents events)) := by
  have inRows : ∀ event ∈ events, ∃ record ∈ tables.bundleChangeRecords.rows,
      ReadsRecord volumeId record event := by
    intro event member
    obtain ⟨record, taken, isRecord⟩ := exists_record reads member
    exact ⟨record, mem_changeRecords.mp (List.mem_of_mem_take taken), isRecord⟩
  refine ⟨?_, ?_, ?_⟩
  · obtain ⟨event, member, isMax⟩ := exists_maxEventId nonempty
    obtain ⟨record, inTable, isRecord⟩ := inRows event member
    rw [← isMax, isRecord.eventId]
    exact tables.bundleChangeRecords.le_seq record inTable
  · intro entry member early
    obtain ⟨record, inTable, rfl⟩ := List.mem_map.mp member
    obtain ⟨event, inEvents, isRecord⟩ :=
      exists_event reads (mem_take_of_le reads nonempty inTable early)
    exact ⟨event.change, mem_changesOf.mpr
      ⟨event, mem_sortEvents.mpr inEvents, isRecord.volumeId, rfl⟩, isRecord.bundleId⟩
  · intro change member
    obtain ⟨event, inEvents, -, rfl⟩ := mem_changesOf.mp member
    obtain ⟨record, inTable, isRecord⟩ := inRows event (mem_sortEvents.mp inEvents)
    exact outbox_pending.mpr ⟨record, inTable, isRecord.bundleId.symm⟩

theorem concur_of_reads {tables : VolumeTables} {limit : Nat} (one : tables.OneRecordEach)
    (reads : List.Forall₂ (ReadsRecord volumeId) (tables.changeRecords.take limit) events) :
    Outbox.Concur (changesOf volumeId (sortEvents events)) (changesOf volumeId (sortEvents events)) := by
  intro change member other among same
  obtain ⟨left, inLeft, -, rfl⟩ := mem_changesOf.mp member
  obtain ⟨right, inRight, -, rfl⟩ := mem_changesOf.mp among
  obtain ⟨leftRecord, leftTaken, isLeft⟩ := exists_record reads (mem_sortEvents.mp inLeft)
  obtain ⟨rightRecord, rightTaken, isRight⟩ := exists_record reads (mem_sortEvents.mp inRight)
  have sameBundle : rightRecord.bundleId = leftRecord.bundleId :=
    isRight.bundleId.symm.trans (Eq.trans same isLeft.bundleId)
  have sameRecord : rightRecord = leftRecord := List.inj_on_of_nodup_map one
    (mem_changeRecords.mp (List.mem_of_mem_take rightTaken))
    (mem_changeRecords.mp (List.mem_of_mem_take leftTaken)) sameBundle
  have sameKind : right.kind = left.kind := by
    rw [isRight.kind, isLeft.kind, sameRecord]
  exact congrArg (fun kind => decide (kind = BundleReplicaEventKind.stored)) sameKind

end ReportingStorage

end Fs0
