import Fs0.Volume.Integrity

/-!
Contract: the pending changes of a volume.

Owns:
- what recording a change does to the table of changes;
- that a bundle has one pending change at most, along every run.

Does not own: who reads the changes, and when they are removed.
-/

set_option autoImplicit false

namespace Fs0

open Lib Fallible

namespace VolumeTables

/-- A change of a bundle is pending. -/
def Pending (tables : VolumeTables) (bundleId : HashId) : Prop :=
  ∃ record ∈ tables.bundleChangeRecords.rows, record.bundleId = bundleId

instance (tables : VolumeTables) (bundleId : HashId) : Decidable (tables.Pending bundleId) :=
  inferInstanceAs (Decidable (∃ record ∈ tables.bundleChangeRecords.rows, _))

/-- Every bundle has one pending change at most. -/
def OneRecordEach (tables : VolumeTables) : Prop :=
  (tables.bundleChangeRecords.rows.map BundleChangeRecordRow.bundleId).Nodup

/-- A record as the change of a bundle leaves it. -/
def retyped (kind : BundleReplicaEventKind) (bundleId : HashId) (record : BundleChangeRecordRow) :
    BundleChangeRecordRow :=
  if record.bundleId = bundleId then { record with eventType := kind } else record

theorem retyped_bundleId (kind : BundleReplicaEventKind) (bundleId : HashId)
    (record : BundleChangeRecordRow) :
    (retyped kind bundleId record).bundleId = record.bundleId := by
  unfold retyped
  split <;> rfl

/-- A change is recorded in place, or under a new event id, which is drawn in any case. -/
inductive Recorded (kind : BundleReplicaEventKind) (bundleId : HashId)
    (before after : VolumeTables) : Prop where
  | changed (pending : before.Pending bundleId)
      (rows : after.bundleChangeRecords.rows =
        before.bundleChangeRecords.rows.map (retyped kind bundleId))
      (seq : after.bundleChangeRecords.seq = before.bundleChangeRecords.seq + 1)
  | appended (isNew : ¬ before.Pending bundleId)
      (rows : after.bundleChangeRecords.rows = before.bundleChangeRecords.rows ++
        [⟨before.bundleChangeRecords.seq + 1, kind, bundleId⟩])
      (seq : after.bundleChangeRecords.seq = before.bundleChangeRecords.seq + 1)

namespace Recorded

variable {kind : BundleReplicaEventKind} {bundleId : HashId} {before after : VolumeTables}

theorem one (recorded : Recorded kind bundleId before after)
    (one : before.OneRecordEach) : after.OneRecordEach := by
  unfold OneRecordEach at one ⊢
  cases recorded with
  | changed pending rows =>
      have ids : (before.bundleChangeRecords.rows.map (retyped kind bundleId)).map
          BundleChangeRecordRow.bundleId =
          before.bundleChangeRecords.rows.map BundleChangeRecordRow.bundleId := by
        rw [List.map_map]
        exact List.map_congr_left fun record _ => retyped_bundleId kind bundleId record
      rw [rows, ids]
      exact one
  | appended isNew rows =>
      rw [rows, List.map_append, List.nodup_append]
      refine ⟨one, List.nodup_singleton _, ?_⟩
      intro left among right isLast same
      obtain ⟨record, member, isLeft⟩ := List.mem_map.mp among
      obtain rfl := List.mem_singleton.mp isLast
      exact isNew ⟨record, member, isLeft.trans same⟩

/-- The record of a bundle after its change, and those of the other bundles. -/
theorem filter_eq (recorded : Recorded kind bundleId before after) (one : before.OneRecordEach) :
    (∃ eventId, after.bundleChangeRecords.rows.filter (fun record => record.bundleId = bundleId) =
      [⟨eventId, kind, bundleId⟩]) ∧
    after.bundleChangeRecords.rows.filter (fun record => record.bundleId ≠ bundleId) =
      before.bundleChangeRecords.rows.filter fun record => record.bundleId ≠ bundleId := by
  cases recorded with
  | changed pending rows =>
      obtain ⟨record, member, rfl⟩ := pending
      have isRetyped : retyped kind record.bundleId record = ⟨record.eventId, kind, record.bundleId⟩ :=
        if_pos rfl
      have kept : ∀ other ∈ before.bundleChangeRecords.rows.filter (fun other =>
          other.bundleId ≠ record.bundleId), retyped kind record.bundleId other = other := by
        intro other among
        exact if_neg (of_decide_eq_true (List.mem_filter.mp among).2)
      constructor
      · refine ⟨record.eventId, ?_⟩
        rw [rows, List.filter_map]
        simp only [Function.comp_def, retyped_bundleId]
        rw [filter_key_eq one member, List.map_singleton, isRetyped]
      · rw [rows, List.filter_map]
        simp only [Function.comp_def, retyped_bundleId]
        rw [List.map_congr_left kept, List.map_id']
  | appended isNew rows =>
      have none : before.bundleChangeRecords.rows.filter
          (fun record => record.bundleId = bundleId) = [] :=
        List.filter_eq_nil_iff.mpr fun record member same =>
          isNew ⟨record, member, of_decide_eq_true same⟩
      constructor
      · refine ⟨before.bundleChangeRecords.seq + 1, ?_⟩
        rw [rows, List.filter_append, none]
        simp
      · rw [rows, List.filter_append]
        simp

end Recorded

end VolumeTables

namespace Volume

open VolumeTables

variable {blake3 : Bytes → HashId} {before after : VolumeTables} {bundleId : HashId}
  {kind : BundleReplicaEventKind} {chunks : List BundleChunkRef}

theorem BundleWritten.recorded (written : BundleWritten bundleId chunks kind before after) :
    Recorded kind bundleId before after := by
  have ran := written.records
  unfold upsertBundleChangeRecord at ran
  split at ran
  next room =>
    split at ran
    next pending =>
      have records := congrArg VolumeTables.bundleChangeRecords (Prod.mk.inj (Except.ok.inj ran)).2
      dsimp only at records
      refine .changed pending ?_ ?_
      · rw [← records]
        rfl
      · rw [← records]
        rfl
    next isNew =>
      have records := congrArg VolumeTables.bundleChangeRecords (Prod.mk.inj (Except.ok.inj ran)).2
      dsimp only at records
      refine .appended isNew ?_ ?_
      · rw [← records]
        rfl
      · rw [← records]
        rfl
  next full => cases ran

theorem oneRecordEach_of_step {e : VolumeEvent} (one : before.OneRecordEach)
    (step : TableStep blake3 e before after) : after.OneRecordEach := by
  cases step with
  | kept chunks bundleChunks records =>
      unfold OneRecordEach
      rw [records]
      exact one
  | inserted chunk chunks appended effect =>
      rw [effect]
      exact one
  | deleted chunkId isDelete unreferenced effect =>
      rw [effect]
      exact one
  | stored bundleId chunks commit isCommit stores written => exact written.recorded.one one
  | removed bundleId isDelete written => exact written.recorded.one one
  | forgotten maxEventId isRemove effect =>
      rw [effect]
      exact (List.filter_sublist.map _).nodup one

theorem reachable_oneRecordEach {v : Volume} (reachable : (volume blake3).Reachable v) :
    v.tables.OneRecordEach := by
  refine reachable.invariant (fun v => v.tables.OneRecordEach) ?_ ?_
  · rintro v ⟨tables, files, initialised, rfl⟩
    have rows : tables.bundleChangeRecords.rows = [] := by
      rw [initialised.fresh.records]
      rfl
    show (tables.bundleChangeRecords.rows.map BundleChangeRecordRow.bundleId).Nodup
    rw [rows]
    exact List.nodup_nil
  · exact fun v e v' one taken => oneRecordEach_of_step one (step_tables (step_cases taken))

end Volume

end Fs0
