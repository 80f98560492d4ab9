import Fs0.Central.Effects

/-!
Contract: the committed transactions of central as steps of its tables.

Owns:
- what the operations on bundles, leases and volumes do to the tables;
- the transactions the handlers commit, and for each of them the tables it
  leaves, in terms of the tables before it.

Does not own: the handlers, and what follows for whole runs.
-/

set_option autoImplicit false

namespace Fs0

open Lib Fallible

/-- The bundle rows of a file, numbered from an index. -/
def bundleRowsFrom (fileId : Nat) : Nat → List HashId → List FileBundleRow
  | _, [] => []
  | index, bundleId :: rest => ⟨fileId, index, bundleId⟩ :: bundleRowsFrom fileId (index + 1) rest

theorem bundleRowsFrom_fileId {fileId index : Nat} {bundleIds : List HashId} {row : FileBundleRow}
    (member : row ∈ bundleRowsFrom fileId index bundleIds) : row.fileId = fileId := by
  induction bundleIds generalizing index with
  | nil => cases member
  | cons bundleId rest inductionHypothesis =>
      rcases List.mem_cons.mp member with rfl | member
      · rfl
      · exact inductionHypothesis member

/-- The bundle rows of a file, under the number of another one. -/
def copiedBundleRows (rows : List FileBundleRow) (sourceFileId targetFileId : Nat) :
    List FileBundleRow :=
  (rows.filter fun row => row.fileId = sourceFileId).map fun row =>
    ⟨targetFileId, row.bundleIndex, row.bundleId⟩

theorem copiedBundleRows_fileId {rows : List FileBundleRow} {sourceFileId targetFileId : Nat}
    {row : FileBundleRow} (member : row ∈ copiedBundleRows rows sourceFileId targetFileId) :
    row.fileId = targetFileId := by
  obtain ⟨source, -, rfl⟩ := List.mem_map.mp member
  rfl

namespace CentralTx

variable {α : Type} {db db' : CentralDb}

/-! ## Bundles -/

theorem deleteFileBundlesByFileId_bind_eq_ok {fileId : Nat} {f : Unit → CentralTx α} {a : α}
    (ran : (deleteFileBundlesByFileId fileId >>= f) db = .ok a db') :
    f () ({ db.1 with
      fileBundles := db.1.fileBundles.delete fun row => row.fileId == fileId }, db.2) =
      .ok a db' := by
  obtain ⟨_, db₁, deleted, rest⟩ := bind_eq_ok.mp ran
  obtain ⟨-, executed⟩ := bindU64_bind_eq_ok.mp deleted
  obtain ⟨-, rfl⟩ := EStateM.Result.ok.inj executed
  exact rest

theorem insertFileBundle_eq_ok {tables tables' : CentralTables} {fileId bundleIndex : Nat}
    {bundleId : HashId} {done : Unit}
    (inserted : tables.insertFileBundle fileId bundleIndex bundleId = .ok (done, tables')) :
    tables' = { tables with fileBundles := tables'.fileBundles } ∧
      tables'.fileBundles.rows = tables.fileBundles.rows ++ [⟨fileId, bundleIndex, bundleId⟩] := by
  unfold CentralTables.insertFileBundle at inserted
  split at inserted
  · cases inserted
  · split at inserted
    · cases inserted
    next pushed =>
      cases inserted
      exact ⟨rfl, (Table.insert?_eq_some pushed).1⟩

theorem insertFileBundlesFrom_effect {fileId index : Nat} {bundles : List CommittedBundle}
    (ran : insertFileBundlesFrom fileId index bundles db = .ok () db') :
    db'.1 = { db.1 with fileBundles := db'.1.fileBundles } ∧
      db'.1.fileBundles.rows = db.1.fileBundles.rows ++
        bundleRowsFrom fileId index (bundles.map CommittedBundle.bundleId) := by
  induction bundles generalizing index db with
  | nil =>
      cases ran
      exact ⟨rfl, by simp [bundleRowsFrom]⟩
  | cons bundle rest inductionHypothesis =>
      obtain ⟨-, ran⟩ := bindU64_bind_eq_ok.mp ran
      obtain ⟨-, ran⟩ := bindU64_bind_eq_ok.mp ran
      obtain ⟨_, db₁, inserted, ran⟩ := bind_eq_ok.mp ran
      obtain ⟨inserted, -⟩ := execute_eq_ok.mp inserted
      obtain ⟨others, rows⟩ := insertFileBundle_eq_ok inserted
      obtain ⟨othersRest, rowsRest⟩ := inductionHypothesis ran
      refine ⟨?_, ?_⟩
      · rw [othersRest, others]
      · rw [rowsRest, rows]
        simp [bundleRowsFrom]

theorem upsertFileBundlesByFileId_effect {fileId : Nat} {bundles : List CommittedBundle}
    (ran : upsertFileBundlesByFileId fileId bundles db = .ok () db') :
    db'.1 = { db.1 with fileBundles := db'.1.fileBundles } ∧
      db'.1.fileBundles.rows = (db.1.fileBundles.rows.filter fun row => !row.fileId == fileId) ++
        bundleRowsFrom fileId 0 (bundles.map CommittedBundle.bundleId) := by
  obtain ⟨others, rows⟩ :=
    insertFileBundlesFrom_effect (deleteFileBundlesByFileId_bind_eq_ok ran)
  exact ⟨others, rows⟩

theorem copyFileBundleRows_effect {targetFileId : Nat} {rows : List FileBundleRow}
    {tables tables' : CentralTables} {done : Unit}
    (ran : copyFileBundleRows targetFileId rows tables = .ok (done, tables')) :
    tables' = { tables with fileBundles := tables'.fileBundles } ∧
      tables'.fileBundles.rows = tables.fileBundles.rows ++
        rows.map fun row => ⟨targetFileId, row.bundleIndex, row.bundleId⟩ := by
  induction rows generalizing tables with
  | nil =>
      cases ran
      exact ⟨rfl, by simp⟩
  | cons row rest inductionHypothesis =>
      unfold copyFileBundleRows at ran
      split at ran
      · cases ran
      next inserted =>
        obtain ⟨others, first⟩ := insertFileBundle_eq_ok inserted
        obtain ⟨othersRest, last⟩ := inductionHypothesis ran
        refine ⟨?_, ?_⟩
        · rw [othersRest, others]
        · rw [last, first]
          simp

theorem copyFileBundles_effect {sourceFileId targetFileId : Nat}
    (ran : copyFileBundles sourceFileId targetFileId db = .ok () db') :
    db'.1 = { db.1 with fileBundles := db'.1.fileBundles } ∧
      db'.1.fileBundles.rows = db.1.fileBundles.rows ++
        copiedBundleRows db.1.fileBundles.rows sourceFileId targetFileId := by
  obtain ⟨-, ran⟩ := bindU64_bind_eq_ok.mp ran
  obtain ⟨-, ran⟩ := bindU64_bind_eq_ok.mp ran
  obtain ⟨copied, -⟩ := execute_eq_ok.mp ran
  exact copyFileBundleRows_effect copied

/-! ## Leases -/

theorem deleteExpiredUpdateLeases_bind_eq_ok {now : Nat} {f : Unit → CentralTx α} {a : α}
    (ran : (deleteExpiredUpdateLeases now >>= f) db = .ok a db') :
    f () ({ db.1 with
      updateLeases := db.1.updateLeases.delete fun lease => decide (lease.expiresAtMs ≤ now) },
      db.2) = .ok a db' := by
  obtain ⟨_, db₁, deleted, rest⟩ := bind_eq_ok.mp ran
  obtain ⟨-, executed⟩ := bindU64_bind_eq_ok.mp deleted
  obtain ⟨-, rfl⟩ := EStateM.Result.ok.inj executed
  exact rest

theorem deleteUpdateLease_bind_eq_ok {leaseId : Nat} {f : Unit → CentralTx α} {a : α}
    (ran : (deleteUpdateLease leaseId >>= f) db = .ok a db') :
    f () ({ db.1 with
      updateLeases := db.1.updateLeases.delete fun lease => lease.leaseId == leaseId },
      db.2) = .ok a db' := by
  obtain ⟨_, db₁, deleted, rest⟩ := bind_eq_ok.mp ran
  obtain ⟨-, executed⟩ := bindU64_bind_eq_ok.mp deleted
  obtain ⟨-, rfl⟩ := EStateM.Result.ok.inj executed
  exact rest

theorem deleteUpdateLease_effect {leaseId : Nat} (ran : deleteUpdateLease leaseId db = .ok () db') :
    db'.1 = { db.1 with
      updateLeases := db.1.updateLeases.delete fun lease => lease.leaseId == leaseId } := by
  obtain ⟨-, executed⟩ := bindU64_bind_eq_ok.mp ran
  obtain ⟨-, rfl⟩ := EStateM.Result.ok.inj executed
  rfl

theorem createUpdateLease_effect {create : CreateUpdateLease} {lease : UpdateLease}
    (ran : createUpdateLease create db = .ok lease db') :
    lease = ⟨db.1.updateLeases.seq + 1, create.fileId, create.volumeId, create.baseSizeBytes,
        create.offsetBytes, create.expiresAtMs, create.preferVolumeName⟩ ∧
      (∀ other ∈ db.1.updateLeases.rows, other.fileId ≠ create.fileId) ∧
      db'.1 = { db.1 with
        updateLeases := db.1.updateLeases.push
          (fun leaseId => ⟨leaseId, create.fileId, create.volumeId, create.baseSizeBytes,
            create.offsetBytes, create.preferVolumeName, create.expiresAtMs, create.createdAtMs⟩)
          fun _ => rfl } := by
  obtain ⟨-, ran⟩ := bindU64_bind_eq_ok.mp ran
  obtain ⟨-, ran⟩ := bindU64_bind_eq_ok.mp ran
  obtain ⟨-, ran⟩ := bindU64_bind_eq_ok.mp ran
  obtain ⟨-, ran⟩ := bindU64_bind_eq_ok.mp ran
  obtain ⟨-, ran⟩ := bindU64_bind_eq_ok.mp ran
  obtain ⟨-, ran⟩ := bindU64_bind_eq_ok.mp ran
  obtain ⟨leaseId, db₁, inserted, ended⟩ := bind_eq_ok.mp ran
  obtain ⟨inserted, -⟩ := execute_eq_ok.mp inserted
  cases ended
  unfold CentralTables.insertLease at inserted
  split at inserted
  · cases inserted
  next free =>
    split at inserted
    · cases inserted
    · split at inserted
      · cases inserted
      next pushed =>
        obtain ⟨rfl, tables⟩ := Prod.mk.inj (Except.ok.inj inserted)
        obtain ⟨-, rfl, rfl⟩ := pushRow_eq_ok.mp pushed
        exact ⟨rfl, by simpa using free, tables.symm⟩

theorem activeLease_mem {tables : CentralTables} {leaseId fileId now : Nat} {row : UpdateLeaseRow}
    (found : tables.activeLease leaseId fileId now = some row) :
    row ∈ tables.updateLeases.rows ∧ row.leaseId = leaseId ∧ row.fileId = fileId ∧
      now < row.expiresAtMs := by
  have selected := List.find?_some found
  simp only [decide_eq_true_eq] at selected
  exact ⟨List.mem_of_find?_eq_some found, selected⟩

theorem loadActiveUpdateLease_eq_ok {leaseId fileId now : Nat} {lease : LeaseRecord}
    (loaded : loadActiveUpdateLease leaseId fileId now db = .ok lease db') :
    db' = db ∧ ∃ row ∈ db.1.updateLeases.rows, row.leaseId = leaseId ∧ row.fileId = fileId ∧
      now < row.expiresAtMs ∧ lease = ⟨row.fileId, row.baseSizeBytes, row.offsetBytes⟩ := by
  obtain ⟨-, ran⟩ := bindU64_bind_eq_ok.mp loaded
  obtain ⟨-, ran⟩ := bindU64_bind_eq_ok.mp ran
  obtain ⟨-, ran⟩ := bindU64_bind_eq_ok.mp ran
  rw [query_bind_eq_ok] at ran
  obtain ⟨found, rfl⟩ := lift_eq_ok.mp ran
  obtain ⟨row, isRow, rfl⟩ := Option.map_eq_some_iff.mp (okOr_eq_ok.mp found)
  obtain ⟨member, sameLease, sameFile, active⟩ := activeLease_mem isRow
  exact ⟨rfl, row, member, sameLease, sameFile, active, rfl⟩

theorem activeUpdateLeaseVolume_eq_ok {leaseId fileId now volumeId : Nat}
    (found : activeUpdateLeaseVolume leaseId fileId now db = .ok volumeId db') :
    db' = db ∧ ∃ row ∈ db.1.updateLeases.rows, row.leaseId = leaseId ∧ row.fileId = fileId ∧
      now < row.expiresAtMs ∧ volumeId = row.volumeId := by
  obtain ⟨-, ran⟩ := bindU64_bind_eq_ok.mp found
  obtain ⟨-, ran⟩ := bindU64_bind_eq_ok.mp ran
  obtain ⟨-, ran⟩ := bindU64_bind_eq_ok.mp ran
  rw [query_bind_eq_ok] at ran
  obtain ⟨found, rfl⟩ := lift_eq_ok.mp ran
  obtain ⟨row, isRow, rfl⟩ := Option.map_eq_some_iff.mp (okOr_eq_ok.mp found)
  obtain ⟨member, sameLease, sameFile, active⟩ := activeLease_mem isRow
  exact ⟨rfl, row, member, sameLease, sameFile, active, rfl⟩

/-! ## Replicas and volumes -/

theorem insertBundleReplica_effect {bundleId : HashId} {volumeId rawLen compressedLen : Nat}
    (ran : insertBundleReplica bundleId volumeId rawLen compressedLen db = .ok () db') :
    db'.1 = { db.1 with
      bundleReplicas := db.1.bundleReplicas.put ⟨bundleId, volumeId, rawLen, compressedLen⟩ } := by
  obtain ⟨-, ran⟩ := require_bind_eq_ok.mp ran
  obtain ⟨-, ran⟩ := bindU64_bind_eq_ok.mp ran
  obtain ⟨-, ran⟩ := bindU64_bind_eq_ok.mp ran
  obtain ⟨-, ran⟩ := bindU64_bind_eq_ok.mp ran
  obtain ⟨stored, -⟩ := execute_eq_ok.mp ran
  unfold CentralTables.upsertBundleReplica at stored
  split at stored
  · cases stored
  · exact (Prod.mk.inj (Except.ok.inj stored)).2.symm

theorem deleteBundleReplica_effect {bundleId : HashId} {volumeId : Nat}
    (ran : deleteBundleReplica bundleId volumeId db = .ok () db') :
    db'.1 = { db.1 with
      bundleReplicas := db.1.bundleReplicas.delete fun row => row.key == (bundleId, volumeId) } := by
  obtain ⟨-, ran⟩ := bindU64_bind_eq_ok.mp ran
  obtain ⟨-, rfl⟩ := EStateM.Result.ok.inj ran
  rfl

/-- A volume row with another offset. -/
def offsetTo (volumeId maxVolumeOffset : Nat) (volume : VolumeRow) : VolumeRow :=
  if volume.volumeId = volumeId then { volume with maxVolumeOffset := maxVolumeOffset } else volume

theorem updateVolumeOffset_effect {volumeId maxVolumeOffset : Nat} {info : StorageVolumeInfo}
    (ran : updateVolumeOffset volumeId maxVolumeOffset db = .ok info db') :
    db'.1 = { db.1 with volumes := db'.1.volumes } ∧
      db'.1.volumes.rows = db.1.volumes.rows.map (offsetTo volumeId maxVolumeOffset) ∧
      ∃ row, db'.1.volumes.find? volumeId = some row ∧ info = VolumeInfo row := by
  obtain ⟨-, ran⟩ := bindU64_bind_eq_ok.mp ran
  obtain ⟨-, ran⟩ := bindU64_bind_eq_ok.mp ran
  obtain ⟨changes, db₁, stored, ran⟩ := bind_eq_ok.mp ran
  obtain ⟨stored, -⟩ := execute_eq_ok.mp stored
  obtain ⟨changed, ran⟩ := require_bind_eq_ok.mp ran
  obtain ⟨-, ran⟩ := bindU64_bind_eq_ok.mp ran
  rw [query_bind_eq_ok] at ran
  obtain ⟨found, rfl⟩ := lift_eq_ok.mp ran
  obtain ⟨row, isRow, rfl⟩ := Option.map_eq_some_iff.mp (okOr_eq_ok.mp found)
  unfold CentralTables.setVolumeOffset at stored
  split at stored
  · exact absurd (Prod.mk.inj (Except.ok.inj stored)).1.symm changed
  · obtain ⟨-, tables⟩ := Prod.mk.inj (Except.ok.inj stored)
    refine ⟨by rw [← tables], ?_, row, isRow, rfl⟩
    rw [← tables]
    rfl

theorem getVolume_eq_ok {volumeId : Nat} {info : StorageVolumeInfo}
    (ran : getVolume volumeId db = .ok info db') :
    db' = db ∧ ∃ row, db.1.volumes.find? volumeId = some row ∧ info = VolumeInfo row := by
  obtain ⟨-, ran⟩ := bindU64_bind_eq_ok.mp ran
  rw [query_bind_eq_ok] at ran
  obtain ⟨found, rfl⟩ := lift_eq_ok.mp ran
  obtain ⟨row, isRow, rfl⟩ := Option.map_eq_some_iff.mp (okOr_eq_ok.mp found)
  exact ⟨rfl, row, isRow, rfl⟩

theorem createVolume_effect {name : String} {maxBytes : Nat} {info : StorageVolumeInfo}
    (ran : createVolume name maxBytes db = .ok info db') :
    db'.1 = { db.1 with
      volumes := db.1.volumes.push (fun volumeId => ⟨volumeId, name, maxBytes, 0⟩)
        fun _ => rfl } := by
  obtain ⟨-, ran⟩ := bindU64_bind_eq_ok.mp ran
  obtain ⟨volumeId, db₁, inserted, ran⟩ := bind_eq_ok.mp ran
  obtain ⟨inserted, -⟩ := execute_eq_ok.mp inserted
  obtain ⟨rfl, -⟩ := getVolume_eq_ok ran
  unfold CentralTables.insertVolume at inserted
  split at inserted
  · cases inserted
  next pushed =>
    obtain ⟨-, tables⟩ := Prod.mk.inj (Except.ok.inj inserted)
    obtain ⟨-, -, rfl⟩ := pushRow_eq_ok.mp pushed
    exact tables.symm

end CentralTx

end Fs0
