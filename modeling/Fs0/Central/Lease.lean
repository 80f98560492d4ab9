import Fs0.Central.Bundle

/-!
Contract: the update leases of a central transaction.

Owns: granting a lease, looking up one that has not expired, and deleting leases
by id or by expiry.

Does not own: the copies of a lease that storages keep.
-/

set_option autoImplicit false

namespace Fs0

open Lib

/-! ## Statements -/

namespace CentralTables

/-- `DELETE FROM update_leases WHERE expires_at_ms <= ?`. -/
def deleteExpiredLeases (now : Nat) (tables : CentralTables) : Fs0Result (Unit × CentralTables) :=
  .ok ((), { tables with
    updateLeases := tables.updateLeases.delete fun lease => decide (lease.expiresAtMs ≤ now) })

/-- `DELETE FROM update_leases WHERE lease_id = ?`. -/
def deleteLease (leaseId : Nat) (tables : CentralTables) : Fs0Result (Unit × CentralTables) :=
  .ok ((), { tables with
    updateLeases := tables.updateLeases.delete fun lease => lease.leaseId == leaseId })

/-- `INSERT INTO update_leases`, which has a unique index over the file. -/
def insertLease (fileId volumeId baseSizeBytes offsetBytes : Nat)
    (preferVolumeName : Option String) (expiresAtMs createdAtMs : Nat) (tables : CentralTables) :
    Fs0Result (Nat × CentralTables) :=
  if tables.updateLeases.rows.any fun lease => lease.fileId = fileId then
    .error (uniqueFailed "update_leases.file_id")
  else if (tables.files.find? fileId).isNone ∨ (tables.volumes.find? volumeId).isNone then
    .error foreignKeyFailed
  else
    match pushRow tables.updateLeases
        (fun leaseId => ⟨leaseId, fileId, volumeId, baseSizeBytes, offsetBytes, preferVolumeName,
          expiresAtMs, createdAtMs⟩) (fun _ => rfl) with
    | .error err => .error err
    | .ok (leaseId, updateLeases) => .ok (leaseId, { tables with updateLeases := updateLeases })

/-- `SELECT .. WHERE lease_id = ? AND file_id = ? AND expires_at_ms > ?`. -/
def activeLease (leaseId fileId now : Nat) (tables : CentralTables) : Option UpdateLeaseRow :=
  tables.updateLeases.rows.find? fun lease =>
    lease.leaseId = leaseId ∧ lease.fileId = fileId ∧ now < lease.expiresAtMs

end CentralTables

/-- `CreateUpdateLease`. -/
structure CreateUpdateLease where
  fileId : Nat
  volumeId : Nat
  baseSizeBytes : Nat
  offsetBytes : Nat
  preferVolumeName : Option String
  expiresAtMs : Nat
  createdAtMs : Nat
deriving DecidableEq, Repr

structure LeaseRecord where
  fileId : Nat
  baseSizeBytes : Nat
  offsetBytes : Nat
deriving DecidableEq, Repr

namespace CentralTx

open Fallible

def deleteExpiredUpdateLeases (now : Nat) : CentralTx Unit := do
  let expiresAtMs ← bindU64 now "expires_at_ms"
  execute (CentralTables.deleteExpiredLeases expiresAtMs)

def fileHasActiveUpdateLease (fileId : Nat) : CentralTx Bool := do
  let id ← bindU64 fileId "file_id"
  query fun tables => tables.updateLeases.rows.any fun lease => lease.fileId = id

def createUpdateLease (lease : CreateUpdateLease) : CentralTx UpdateLease := do
  let fileId ← bindU64 lease.fileId "file_id"
  let volumeId ← bindU64 lease.volumeId "volume_id"
  let baseSizeBytes ← bindU64 lease.baseSizeBytes "base_size_bytes"
  let offsetBytes ← bindU64 lease.offsetBytes "offset_bytes"
  let expiresAtMs ← bindU64 lease.expiresAtMs "expires_at_ms"
  let createdAtMs ← bindU64 lease.createdAtMs "created_at_ms"
  let leaseId ← execute (CentralTables.insertLease fileId volumeId baseSizeBytes offsetBytes
    lease.preferVolumeName expiresAtMs createdAtMs)
  pure ⟨leaseId, lease.fileId, lease.volumeId, lease.baseSizeBytes, lease.offsetBytes,
    lease.expiresAtMs, lease.preferVolumeName⟩

def loadActiveUpdateLease (leaseId fileId now : Nat) : CentralTx LeaseRecord := do
  let lease ← bindU64 leaseId "lease_id"
  let file ← bindU64 fileId "file_id"
  let nowMs ← bindU64 now "now_ms"
  let found ← query (CentralTables.activeLease lease file nowMs)
  lift (okOr (found.map fun row => ⟨row.fileId, row.baseSizeBytes, row.offsetBytes⟩) .notFound)

def activeUpdateLeaseVolume (leaseId fileId now : Nat) : CentralTx Nat := do
  let lease ← bindU64 leaseId "lease_id"
  let file ← bindU64 fileId "file_id"
  let nowMs ← bindU64 now "now_ms"
  let found ← query (CentralTables.activeLease lease file nowMs)
  lift (okOr (found.map UpdateLeaseRow.volumeId) .notFound)

def deleteUpdateLease (leaseId : Nat) : CentralTx Unit := do
  let id ← bindU64 leaseId "lease_id"
  execute (CentralTables.deleteLease id)

end CentralTx

end Fs0
