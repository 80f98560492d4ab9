import Fs0.Core.Protocol
import Fs0.Core.Statement
import Fs0.Lib.Table
import Mathlib.Data.List.Sort

/-!
Contract: the database of a volume and the statements on it.

Owns:
- the rows of chunks, of bundles and of their pending changes, and the metadata of
  the volume, on disk and in memory;
- every function of `VolumeDb` as the code computes it.

Does not own: the data files, and how calls interleave.
-/

set_option autoImplicit false

namespace Fs0

open Lib Fallible

/-! ## Rows -/

structure VolumeMeta where
  volumeId : Nat
  formatVersion : Nat
  maxBytes : Nat
  activeVolumeOffset : Nat
  createdAtMs : Nat
  updatedAtMs : Nat
deriving DecidableEq, Repr

structure ChunkMeta where
  chunkId : HashId
  compressedHash : HashId
  volumeOffset : Nat
  rawLen : Nat
  compressedLen : Nat
deriving DecidableEq, Repr

structure BundleMeta where
  bundleId : HashId
  rawLen : Nat
  compressedLen : Nat
  chunkCount : Nat
deriving DecidableEq, Repr

structure BundleChunkRow where
  bundleId : HashId
  chunkIndex : Nat
  chunkId : HashId
deriving DecidableEq, Repr

def BundleChunkRow.key (row : BundleChunkRow) : HashId × Nat := (row.bundleId, row.chunkIndex)

structure BundleChangeRecordRow where
  eventId : Nat
  eventType : BundleReplicaEventKind
  bundleId : HashId
deriving DecidableEq, Repr

structure VolumeTables where
  /-- The one row of `volume_meta`. -/
  volumeMeta : VolumeMeta
  chunks : Table ChunkMeta.chunkId
  bundleChunks : Table BundleChunkRow.key
  bundleChangeRecords : SeqTable BundleChangeRecordRow.eventId
deriving DecidableEq

/-- `VolumeDb`: the tables are durable, the metadata is also kept in memory. -/
abbrev VolumeDb := VolumeTables × VolumeMeta

abbrev VolumeM (α : Type) := EStateM Fs0Error VolumeDb α

/-! ## Statements -/

namespace VolumeTables

/-- `UPDATE volume_meta SET active_volume_offset = MAX(active_volume_offset, ?), ..`. -/
def raiseActiveOffset (activeVolumeOffset updatedAtMs : Nat) (tables : VolumeTables) :
    Fs0Result (Unit × VolumeTables) :=
  .ok ((), { tables with
    volumeMeta := { tables.volumeMeta with
      activeVolumeOffset := max tables.volumeMeta.activeVolumeOffset activeVolumeOffset
      updatedAtMs := updatedAtMs } })

/-- `UPDATE volume_meta SET volume_id = ?, ..`. -/
def setVolumeId (volumeId updatedAtMs : Nat) (tables : VolumeTables) :
    Fs0Result (Unit × VolumeTables) :=
  .ok ((), { tables with
    volumeMeta := { tables.volumeMeta with volumeId := volumeId, updatedAtMs := updatedAtMs } })

/-- `INSERT INTO chunks .. ON CONFLICT(chunk_id) DO NOTHING`. -/
def insertChunk (chunk : ChunkMeta) (tables : VolumeTables) : Fs0Result (Unit × VolumeTables) :=
  .ok ((), { tables with chunks := (tables.chunks.insert? chunk).getD tables.chunks })

/-- `DELETE FROM chunks`, which the chunks of a bundle refuse. -/
def deleteChunk (chunkId : HashId) (tables : VolumeTables) : Fs0Result (Unit × VolumeTables) :=
  if (∃ row ∈ tables.bundleChunks.rows, row.chunkId = chunkId) ∧
      (tables.chunks.find? chunkId).isSome then
    .error foreignKeyFailed
  else
    .ok ((), { tables with chunks := tables.chunks.delete fun row => row.chunkId == chunkId })

/-- `DELETE FROM bundle_chunks WHERE bundle_id = ?`. -/
def deleteBundleChunks (bundleId : HashId) (tables : VolumeTables) :
    Fs0Result (Unit × VolumeTables) :=
  .ok ((), { tables with
    bundleChunks := tables.bundleChunks.delete fun row => row.bundleId == bundleId })

/-- `INSERT INTO bundle_chunks`. -/
def insertBundleChunk (row : BundleChunkRow) (tables : VolumeTables) :
    Fs0Result (Unit × VolumeTables) :=
  if (tables.chunks.find? row.chunkId).isNone then
    .error foreignKeyFailed
  else
    match tables.bundleChunks.insert? row with
    | none => .error (uniqueFailed "bundle_chunks.bundle_id, bundle_chunks.chunk_index")
    | some bundleChunks => .ok ((), { tables with bundleChunks := bundleChunks })

/-- `INSERT INTO bundle_change_records .. ON CONFLICT(bundle_id) DO UPDATE`. An event id is
drawn first, also where the bundle has a record. -/
def upsertBundleChangeRecord (eventType : BundleReplicaEventKind) (bundleId : HashId)
    (tables : VolumeTables) : Fs0Result (Unit × VolumeTables) :=
  if tables.bundleChangeRecords.seq < i64Max then
    if ∃ row ∈ tables.bundleChangeRecords.rows, row.bundleId = bundleId then
      .ok ((), { tables with
        bundleChangeRecords := tables.bundleChangeRecords.skip.update
          (fun row => if row.bundleId = bundleId then { row with eventType := eventType } else row)
          fun row => by split <;> rfl })
    else
      .ok ((), { tables with
        bundleChangeRecords := tables.bundleChangeRecords.push
          (fun eventId => ⟨eventId, eventType, bundleId⟩) fun _ => rfl })
  else .error (.sqlite "database or disk is full")

/-- `DELETE FROM bundle_change_records WHERE event_id <= ?`. -/
def deleteBundleChangeRecords (maxEventId : Nat) (tables : VolumeTables) :
    Fs0Result (Unit × VolumeTables) :=
  .ok ((), { tables with
    bundleChangeRecords := tables.bundleChangeRecords.delete fun row =>
      row.eventId ≤ maxEventId })

/-- `SELECT .. FROM bundle_chunks WHERE bundle_id = ? ORDER BY chunk_index`. -/
def bundleChunksOf (bundleId : HashId) (tables : VolumeTables) : List BundleChunkRow :=
  (tables.bundleChunks.rows.filter fun row => row.bundleId = bundleId).insertionSort
    fun left right => left.chunkIndex ≤ right.chunkIndex

/-- `bundle_chunks` of a bundle joined with `chunks`. -/
def bundleJoin (bundleId : HashId) (tables : VolumeTables) : List ChunkMeta :=
  (tables.bundleChunks.rows.filter fun row => row.bundleId = bundleId).filterMap fun row =>
    tables.chunks.find? row.chunkId

/-- The pending changes in the order of their event ids. -/
def changeRecords (tables : VolumeTables) : List BundleChangeRecordRow :=
  tables.bundleChangeRecords.rows.insertionSort fun left right => left.eventId ≤ right.eventId

end VolumeTables

/-! ## Functions -/

namespace VolumeDb

open Statement

/-- `VolumeDb::create` on a new file. -/
def create (volumeMeta : VolumeMeta) : Fs0Result VolumeDb := do
  let volumeId ← u64ToI64 volumeMeta.volumeId "volume_id"
  let formatVersion ← u64ToI64 volumeMeta.formatVersion "format_version"
  let maxBytes ← u64ToI64 volumeMeta.maxBytes "max_bytes"
  let activeVolumeOffset ← u64ToI64 volumeMeta.activeVolumeOffset "active_volume_offset"
  let createdAtMs ← u64ToI64 volumeMeta.createdAtMs "created_at_ms"
  let updatedAtMs ← u64ToI64 volumeMeta.updatedAtMs "updated_at_ms"
  let row : VolumeMeta :=
    ⟨volumeId, formatVersion, maxBytes, activeVolumeOffset, createdAtMs, updatedAtMs⟩
  .ok (⟨row, .empty, .empty, .empty⟩, volumeMeta)

/-- `VolumeDb::open`. -/
def open' (tables : VolumeTables) : VolumeDb := (tables, tables.volumeMeta)

def volumeMeta : VolumeM VolumeMeta := fun db => .ok db.2 db

/-- `load_meta_from_conn`, kept in memory. -/
def reloadMeta : VolumeM VolumeMeta := fun db =>
  .ok db.1.volumeMeta (db.1, db.1.volumeMeta)

def assignVolumeId (volumeId updatedAtMs : Nat) : VolumeM VolumeMeta := do
  let known ← volumeMeta
  require (known.volumeId = 0 ∨ known.volumeId = volumeId) (.invalidData <|
    s!"volume already has id {known.volumeId}, cannot assign {volumeId}")
  let id ← bindU64 volumeId "volume_id"
  let now ← bindU64 updatedAtMs "updated_at_ms"
  execute (VolumeTables.setVolumeId id now)
  modify fun db => (db.1, { db.2 with volumeId := volumeId, updatedAtMs := updatedAtMs })
  volumeMeta

def loadChunk (chunkId : HashId) : VolumeM ChunkMeta := do
  let row ← query fun tables => tables.chunks.find? chunkId
  lift (okOr row (.chunkNotFound chunkId))

/-- One statement, with a parameter for each id. -/
def loadChunksByIds (chunkIds : List HashId) : VolumeM (List ChunkMeta) := do
  require (chunkIds.length ≤ sqliteMaxVariableNumber) tooManyVariables
  query fun tables => tables.chunks.rows.filter fun row => row.chunkId ∈ chunkIds

def loadBundle (bundleId : HashId) : VolumeM BundleMeta := do
  let chunks ← query (VolumeTables.bundleJoin bundleId)
  require (chunks ≠ []) (.bundleNotFound bundleId)
  let rawLen ← lift (sqlSum (chunks.map ChunkMeta.rawLen))
  let compressedLen ← lift (sqlSum (chunks.map ChunkMeta.compressedLen))
  pure ⟨bundleId, rawLen, compressedLen, chunks.length⟩

def insertChunk (chunk : ChunkMeta) : VolumeM Unit := do
  let volumeOffset ← bindU64 chunk.volumeOffset "volume offset"
  let rawLen ← bindU64 chunk.rawLen "raw len"
  let compressedLen ← bindU64 chunk.compressedLen "compressed len"
  execute (VolumeTables.insertChunk
    ⟨chunk.chunkId, chunk.compressedHash, volumeOffset, rawLen, compressedLen⟩)

def reserveActiveVolumeOffset (activeVolumeOffset updatedAtMs : Nat) : VolumeM VolumeMeta := do
  let offset ← bindU64 activeVolumeOffset "active volume offset"
  let now ← bindU64 updatedAtMs "updated_at_ms"
  execute (VolumeTables.raiseActiveOffset offset now)
  reloadMeta

def deleteChunk (chunkId : HashId) : VolumeM Unit := execute (VolumeTables.deleteChunk chunkId)

/-- The loop over the committed chunks. -/
def insertBundleChunks (bundleId : HashId) : List BundleChunkRef → VolumeM Unit
  | [] => pure ()
  | chunk :: rest => do
      let chunkIndex ← bindU64 chunk.chunkIndex "chunk_index"
      execute (VolumeTables.insertBundleChunk ⟨bundleId, chunkIndex, chunk.chunkId⟩)
      insertBundleChunks bundleId rest

def insertBundleChangeRecordTx (bundleId : HashId) (kind : BundleReplicaEventKind) :
    VolumeM Unit :=
  execute (VolumeTables.upsertBundleChangeRecord kind bundleId)

/-- The transaction of `commit_bundle`. -/
def commitBundleTx (bundleId : HashId) (chunks : List BundleChunkRef) : VolumeM Unit := do
  execute (VolumeTables.deleteBundleChunks bundleId)
  insertBundleChunks bundleId chunks
  insertBundleChangeRecordTx bundleId .stored

def commitBundle (commit : Option Fs0Error) (bundleId : HashId) (chunks : List BundleChunkRef) :
    VolumeM BundleMeta := do
  transact commit (commitBundleTx bundleId chunks)
  loadBundle bundleId

/-- The transaction of `delete_bundle`. -/
def deleteBundleTx (bundleId : HashId) : VolumeM Unit := do
  execute (VolumeTables.deleteBundleChunks bundleId)
  insertBundleChangeRecordTx bundleId .deleted

def deleteBundle (commit : Option Fs0Error) (bundleId : HashId) : VolumeM Unit :=
  transact commit (deleteBundleTx bundleId)

def listBundleChunks (bundleId : HashId) : VolumeM (List BundleChunkRef) :=
  query fun tables => (tables.bundleChunksOf bundleId).map fun row =>
    ⟨row.chunkIndex, row.chunkId⟩

/-- One row of the query of `get_bundle_change_records`. A bundle without chunks
has the sums 0. -/
def changeRecord (tables : VolumeTables) (volumeId : Nat) (record : BundleChangeRecordRow) :
    Fs0Result BundleReplicaEvent := do
  let chunks := tables.bundleJoin record.bundleId
  let rawLen ← sqlSum (chunks.map ChunkMeta.rawLen)
  let compressedLen ← sqlSum (chunks.map ChunkMeta.compressedLen)
  .ok ⟨record.eventId, record.eventType, volumeId, record.bundleId, some rawLen,
    some compressedLen⟩

def getBundleChangeRecords (limit : Nat) : VolumeM (List BundleReplicaEvent) := do
  let known ← volumeMeta
  let limit ← bindU64 limit "limit"
  let tables ← query id
  lift ((tables.changeRecords.take limit).mapM (changeRecord tables known.volumeId))

def removeBundleChangeRecords (maxEventId : Nat) : VolumeM Unit := do
  let maxEventId ← bindU64 maxEventId "max_event_id"
  execute (VolumeTables.deleteBundleChangeRecords maxEventId)

end VolumeDb

end Fs0
