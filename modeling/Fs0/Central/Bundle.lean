import Fs0.Central.File

/-!
Contract: the bundles of files and their replicas in a central transaction.

Owns:
- replacing, copying and listing the bundle rows of a file, and the size derived
  from them;
- recording, deleting and listing bundle replicas;
- the volume rows the replicas refer to.

Does not own: which storage currently mounts a volume.
-/

set_option autoImplicit false

namespace Fs0

open Lib

def bundleIdQueryBatchSize : Nat := 500

/-! ## Statements -/

namespace CentralTables

/-- `INSERT INTO file_bundles`. -/
def insertFileBundle (fileId bundleIndex : Nat) (bundleId : HashId) (tables : CentralTables) :
    Fs0Result (Unit × CentralTables) :=
  if (tables.files.find? fileId).isNone then
    .error foreignKeyFailed
  else
    match tables.fileBundles.insert? ⟨fileId, bundleIndex, bundleId⟩ with
    | none => .error (uniqueFailed "file_bundles.file_id, file_bundles.bundle_index")
    | some fileBundles => .ok ((), { tables with fileBundles := fileBundles })

/-- `DELETE FROM file_bundles WHERE file_id = ?`. -/
def deleteFileBundles (fileId : Nat) (tables : CentralTables) :
    Fs0Result (Unit × CentralTables) :=
  .ok ((), { tables with fileBundles := tables.fileBundles.delete fun row => row.fileId == fileId })

/-- `SELECT .. FROM file_bundles WHERE file_id = ? ORDER BY bundle_index`. -/
def fileBundlesOf (fileId : Nat) (tables : CentralTables) : List FileBundleRow :=
  (tables.fileBundles.rows.filter fun row => row.fileId = fileId).insertionSort fun left right =>
    left.bundleIndex ≤ right.bundleIndex

/-- `INSERT INTO bundle_replicas .. ON CONFLICT DO UPDATE`. -/
def upsertBundleReplica (row : BundleReplicaRow) (tables : CentralTables) :
    Fs0Result (Unit × CentralTables) :=
  if (tables.volumes.find? row.volumeId).isNone then
    .error foreignKeyFailed
  else
    .ok ((), { tables with bundleReplicas := tables.bundleReplicas.put row })

/-- `DELETE FROM bundle_replicas WHERE bundle_id = ? AND volume_id = ?`. -/
def deleteBundleReplica (bundleId : HashId) (volumeId : Nat) (tables : CentralTables) :
    Fs0Result (Unit × CentralTables) :=
  .ok ((), { tables with bundleReplicas := tables.bundleReplicas.delete fun row =>
    row.key == (bundleId, volumeId) })

/-- `SELECT .. FROM bundle_replicas WHERE bundle_id IN (..) ORDER BY bundle_id, volume_id`. -/
def bundleReplicasIn (bundleIds : List HashId) (tables : CentralTables) :
    List BundleReplicaRow :=
  (tables.bundleReplicas.rows.filter fun row => row.bundleId ∈ bundleIds).insertionSort
    fun left right => left.bundleId.bytes < right.bundleId.bytes ∨
      (left.bundleId = right.bundleId ∧ left.volumeId ≤ right.volumeId)

theorem newVolume_volumeId (name : String) (maxBytes : Nat) :
    ∀ volumeId, VolumeRow.volumeId ⟨volumeId, name, maxBytes, 0⟩ = volumeId := fun _ => rfl

/-- `INSERT INTO volumes`. -/
def insertVolume (name : String) (maxBytes : Nat) (tables : CentralTables) :
    Fs0Result (Nat × CentralTables) :=
  match pushRow tables.volumes (fun volumeId => ⟨volumeId, name, maxBytes, 0⟩)
      (newVolume_volumeId name maxBytes) with
  | .error err => .error err
  | .ok (volumeId, volumes) => .ok (volumeId, { tables with volumes := volumes })

/-- `UPDATE volumes SET max_volume_offset`, with the number of rows changed. -/
def setVolumeOffset (volumeId maxVolumeOffset : Nat) (tables : CentralTables) :
    Fs0Result (Nat × CentralTables) :=
  if (tables.volumes.find? volumeId).isNone then
    .ok (0, tables)
  else
    .ok (1, { tables with
      volumes := tables.volumes.update
        (fun volume => if volume.volumeId = volumeId then
          { volume with maxVolumeOffset := maxVolumeOffset } else volume)
        (by intro volume; split <;> rfl) })

end CentralTables

/-- `slice::chunks`: the list cut into pieces of a positive size. -/
def chunksOf {α : Type} (size : Nat) : Nat → List α → List (List α)
  | 0, _ => []
  | fuel + 1, items =>
      if items = [] then [] else items.take size :: chunksOf size fuel (items.drop size)

namespace CentralTx

open Fallible

/-! ## Bundles of a file -/

def deleteFileBundlesByFileId (fileId : Nat) : CentralTx Unit := do
  let id ← bindU64 fileId "file_id"
  execute (CentralTables.deleteFileBundles id)

/-- The loop of `upsert_file_bundles_by_file_id` from an index onwards. -/
def insertFileBundlesFrom (fileId : Nat) : Nat → List CommittedBundle → CentralTx Unit
  | _, [] => pure ()
  | bundleIndex, bundle :: rest => do
      let id ← bindU64 fileId "file_id"
      let index ← bindU64 bundleIndex "bundle_index"
      execute (CentralTables.insertFileBundle id index bundle.bundleId)
      insertFileBundlesFrom fileId (bundleIndex + 1) rest

def upsertFileBundlesByFileId (fileId : Nat) (bundles : List CommittedBundle) :
    CentralTx Unit := do
  deleteFileBundlesByFileId fileId
  insertFileBundlesFrom fileId 0 bundles

/-- The rows `INSERT .. SELECT` copies, one after the other. -/
def copyFileBundleRows (targetFileId : Nat) : List FileBundleRow → CentralTables →
    Fs0Result (Unit × CentralTables)
  | [], tables => .ok ((), tables)
  | row :: rest, tables =>
      match tables.insertFileBundle targetFileId row.bundleIndex row.bundleId with
      | .error err => .error err
      | .ok (_, tables) => copyFileBundleRows targetFileId rest tables

def copyFileBundles (sourceFileId targetFileId : Nat) : CentralTx Unit := do
  let target ← bindU64 targetFileId "target_file_id"
  let source ← bindU64 sourceFileId "source_file_id"
  execute fun tables => copyFileBundleRows target
    (tables.fileBundles.rows.filter fun row => row.fileId = source) tables

def getFileBundlesByFileId (fileId : Nat) : CentralTx (List FileBundleRow) := do
  let id ← bindU64 fileId "file_id"
  query (CentralTables.fileBundlesOf id)

/-! ## Replicas -/

def insertBundleReplica (bundleId : HashId) (volumeId rawLen compressedLen : Nat) :
    CentralTx Unit := do
  require (rawLen ≠ 0 ∧ compressedLen ≠ 0) .invalidRequest
  -- The lengths of the replicas on other volumes are read for a log line only.
  let volume ← bindU64 volumeId "volume_id"
  let raw ← bindU64 rawLen "raw_len"
  let compressed ← bindU64 compressedLen "compressed_len"
  execute (CentralTables.upsertBundleReplica ⟨bundleId, volume, raw, compressed⟩)

def deleteBundleReplica (bundleId : HashId) (volumeId : Nat) : CentralTx Unit := do
  let volume ← bindU64 volumeId "volume_id"
  execute (CentralTables.deleteBundleReplica bundleId volume)

def getBundleReplicasById (bundleIds : List HashId) : CentralTx (List BundleReplicaRow) :=
  query fun tables =>
    (chunksOf bundleIdQueryBatchSize bundleIds.length bundleIds).flatMap fun batch =>
      tables.bundleReplicasIn batch

/-- Adds the sizes of a file's bundles, each taken from its first replica. -/
def sumBundleSizes (replicas : List BundleReplicaRow) :
    List FileBundleRow → Nat → Nat → Fs0Result (Nat × Nat)
  | [], rawSize, compressedSize => .ok (rawSize, compressedSize)
  | fileBundle :: rest, rawSize, compressedSize => do
      let bundle ← okOr (replicas.find? fun row => row.bundleId = fileBundle.bundleId)
        .chunkNotReady
      let rawSize ← okOr (checkedAdd rawSize bundle.rawLen)
        (.integerConversion "file bundle raw size overflow")
      let compressedSize ← okOr (checkedAdd compressedSize bundle.compressedLen)
        (.integerConversion "file bundle compressed size overflow")
      sumBundleSizes replicas rest rawSize compressedSize

def calculateSizeByFileId (fileId : Nat) : CentralTx (Nat × Nat) := do
  let fileBundles ← getFileBundlesByFileId fileId
  let replicas ← getBundleReplicasById (fileBundles.map FileBundleRow.bundleId)
  lift (sumBundleSizes replicas fileBundles 0 0)

/-! ## Volumes -/

def VolumeInfo (row : VolumeRow) : StorageVolumeInfo :=
  ⟨row.volumeId, row.name, row.maxBytes, row.maxVolumeOffset, false⟩

def getVolume (volumeId : Nat) : CentralTx StorageVolumeInfo := do
  let id ← bindU64 volumeId "volume_id"
  let found ← query fun tables => tables.volumes.find? id
  lift (okOr (found.map VolumeInfo) .notFound)

def createVolume (name : String) (maxBytes : Nat) : CentralTx StorageVolumeInfo := do
  let bytes ← bindU64 maxBytes "max_bytes"
  let volumeId ← execute (CentralTables.insertVolume name bytes)
  getVolume volumeId

def updateVolumeOffset (volumeId maxVolumeOffset : Nat) : CentralTx StorageVolumeInfo := do
  let id ← bindU64 volumeId "volume_id"
  let offset ← bindU64 maxVolumeOffset "max_volume_offset"
  let changes ← execute (CentralTables.setVolumeOffset id offset)
  require (changes ≠ 0) .notFound
  getVolume volumeId

end CentralTx

end Fs0
