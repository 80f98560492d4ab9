import Fs0.Central.Dir

/-!
Contract: the file operations and the change log of a central transaction.

Owns:
- creating, finding, copying, renaming, resizing and deleting file rows, with the
  constraints of the table and the cascade of a deletion;
- appending to the change log and reading it.

Does not own: the bundles and leases of a file, beyond the rows a deletion takes
with it.
-/

set_option autoImplicit false

namespace Fs0

open Lib

/-! ## Statements -/

namespace CentralTables

/-- `INSERT INTO files`. -/
def insertFile (dirId : Nat) (name : String) (sizeBytes compressedSizeBytes now : Nat)
    (tables : CentralTables) : Fs0Result (Nat × CentralTables) :=
  if (tables.childFile dirId name).isSome then
    .error (uniqueFailed "files.dir_id, files.name")
  else if (tables.dirs.find? dirId).isNone then
    .error foreignKeyFailed
  else
    match pushRow tables.files
        (fun fileId => ⟨fileId, dirId, name, sizeBytes, compressedSizeBytes, now, now⟩)
        (fun _ => rfl) with
    | .error err => .error err
    | .ok (fileId, files) => .ok (fileId, { tables with files := files })

/-- `UPDATE files SET dir_id, name, updated_at_ms`, with the number of rows changed. -/
def moveFile (fileId dirId : Nat) (name : String) (updatedAtMs : Nat) (tables : CentralTables) :
    Fs0Result (Nat × CentralTables) :=
  if (tables.files.find? fileId).isNone then
    .ok (0, tables)
  else if (tables.childFile dirId name).any fun file => file.fileId ≠ fileId then
    .error (uniqueFailed "files.dir_id, files.name")
  else if (tables.dirs.find? dirId).isNone then
    .error foreignKeyFailed
  else
    .ok (1, { tables with
      files := tables.files.update
        (fun file => if file.fileId = fileId then
          { file with dirId := dirId, name := name, updatedAtMs := updatedAtMs } else file)
        (by intro file; split <;> rfl) })

/-- `UPDATE files SET size_bytes, compressed_size_bytes, updated_at_ms`, with the
number of rows changed. -/
def resizeFile (fileId sizeBytes compressedSizeBytes updatedAtMs : Nat) (tables : CentralTables) :
    Fs0Result (Nat × CentralTables) :=
  if (tables.files.find? fileId).isNone then
    .ok (0, tables)
  else
    .ok (1, { tables with
      files := tables.files.update
        (fun file => if file.fileId = fileId then
          { file with
            sizeBytes := sizeBytes
            compressedSizeBytes := compressedSizeBytes
            updatedAtMs := updatedAtMs } else file)
        (by intro file; split <;> rfl) })

/-- `DELETE FROM files`, with the number of rows changed. The rows that refer to
the file by `ON DELETE CASCADE` go with it. -/
def deleteFile (fileId : Nat) (tables : CentralTables) : Fs0Result (Nat × CentralTables) :=
  if (tables.files.find? fileId).isNone then
    .ok (0, tables)
  else
    .ok (1, { tables with
      files := tables.files.delete fun file => file.fileId == fileId
      fileBundles := tables.fileBundles.delete fun row => row.fileId == fileId
      updateLeases := tables.updateLeases.delete fun lease => lease.fileId == fileId })

/-- `INSERT INTO file_events`. -/
def insertFileEvent (eventType : FileChangeLogKind) (newTarget : Option (String × String))
    (fileId : Option Nat) (createdAtMs : Nat) (tables : CentralTables) :
    Fs0Result (Nat × CentralTables) :=
  match pushRow tables.fileEvents
      (fun eventId => ⟨eventId, eventType, newTarget.map Prod.fst, newTarget.map Prod.snd, fileId,
        createdAtMs⟩) (fun _ => rfl) with
  | .error err => .error err
  | .ok (eventId, fileEvents) => .ok (eventId, { tables with fileEvents := fileEvents })

end CentralTables

/-! ## Files -/

namespace CentralTx

open Fallible

def getFileById (fileId : Nat) : CentralTx FileRow := do
  let id ← bindU64 fileId "file_id"
  let found ← query fun tables => tables.files.find? id
  lift (okOr found .notFound)

def getFileByPath (path : String) : CentralTx FileRow := do
  let (dir, name) ← lift (splitFs0PathDirAndName path)
  let dirId ← getDirIdByPath dir
  let id ← bindU64 dirId "dir_id"
  let found ← query (CentralTables.childFile id name)
  lift (okOr found .notFound)

def createFile (path : String) (now : Nat) : CentralTx FileRow := do
  let (dir, name) ← lift (splitFs0PathDirAndName path)
  let dirId ← createDir dir
  ensureChildNameAvailable dirId name none path
  let id ← bindU64 dirId "dir_id"
  let createdAtMs ← bindU64 now "created_at_ms"
  let fileId ← execute (CentralTables.insertFile id name 0 0 createdAtMs)
  getFileById fileId

def deleteFileById (fileId : Nat) : CentralTx Unit := do
  let id ← bindU64 fileId "file_id"
  let changes ← execute (CentralTables.deleteFile id)
  require (changes ≠ 0) .notFound

def copyFileById (sourceFileId : Nat) (targetPath : String) (now : Nat) : CentralTx FileRow := do
  let (targetDir, targetName) ← lift (splitFs0PathDirAndName targetPath)
  let source ← getFileById sourceFileId
  let targetDirId ← createDir targetDir
  ensureChildNameAvailable targetDirId targetName none targetPath
  let id ← bindU64 targetDirId "target_dir_id"
  let sizeBytes ← bindU64 source.sizeBytes "size_bytes"
  let compressedSizeBytes ← bindU64 source.compressedSizeBytes "compressed_size_bytes"
  let createdAtMs ← bindU64 now "created_at_ms"
  let targetFileId ← execute
    (CentralTables.insertFile id targetName sizeBytes compressedSizeBytes createdAtMs)
  getFileById targetFileId

def renameFileById (fileId : Nat) (targetPath : String) (now : Nat) : CentralTx FileRow := do
  let (targetDir, targetName) ← lift (splitFs0PathDirAndName targetPath)
  let targetDirId ← createDir targetDir
  ensureChildNameAvailable targetDirId targetName (some fileId) targetPath
  let id ← bindU64 fileId "file_id"
  let dirId ← bindU64 targetDirId "target_dir_id"
  let updatedAtMs ← bindU64 now "updated_at_ms"
  let changes ← execute (CentralTables.moveFile id dirId targetName updatedAtMs)
  require (changes ≠ 0) .notFound
  getFileById fileId

def updateFileAfterUpdate (fileId newSize compressedSizeBytes updatedAtMs : Nat) :
    CentralTx FileRow := do
  let id ← bindU64 fileId "file_id"
  let size ← bindU64 newSize "size_bytes"
  let compressedSize ← bindU64 compressedSizeBytes "compressed_size_bytes"
  let updated ← bindU64 updatedAtMs "updated_at_ms"
  let changes ← execute (CentralTables.resizeFile id size compressedSize updated)
  require (changes ≠ 0) .notFound
  getFileById fileId

/-! ## Change log -/

def insertFileChangeLog (kind : FileChangeLogKind) (newTarget : Option (String × String))
    (fileId : Option Nat) (createdAtMs : Nat) : CentralTx Unit := do
  let id ← lift (match fileId with
    | none => .ok none
    | some fileId => (u64ToI64 fileId "file_id").map some)
  let created ← bindU64 createdAtMs "created_at_ms"
  let _ ← execute (CentralTables.insertFileEvent kind newTarget id created)

end CentralTx

structure FileChangeLog where
  eventId : Nat
  kind : FileChangeLogKind
  fileId : Option Nat
  newPath : Option String
  createdAtMs : Nat
deriving DecidableEq, Repr

structure FileChangeLogs where
  operations : List FileChangeLog
  nextEventId : Option Nat
deriving DecidableEq, Repr

/-- `row_to_file_change_log`. -/
def FileEventRow.toFileChangeLog (row : FileEventRow) : Fs0Result FileChangeLog := do
  let newPath ← match row.newDir, row.newName with
    | some dir, some name => (joinFs0Path dir name).map some
    | _, _ => .ok none
  pure ⟨row.eventId, row.eventType, row.fileId, newPath, row.createdAtMs⟩

namespace CentralTx

open Fallible

def getFileChangeLogs (afterEventId limit : Nat) : CentralTx FileChangeLogs := do
  let limit := min (max limit 1) 1024
  let after ← bindU64 afterEventId "after_event_id"
  let rowLimit ← bindU64 (limit + 1) "limit"
  let rows ← query fun tables =>
    (((tables.fileEvents.rows.filter fun event => after < event.eventId).insertionSort
      fun left right => left.eventId ≤ right.eventId).take rowLimit)
  let events ← lift (rows.mapM FileEventRow.toFileChangeLog)
  if limit < events.length then
    pure ⟨events.take limit, ((events.take limit).getLast?).map FileChangeLog.eventId⟩
  else
    pure ⟨events, none⟩

end CentralTx

end Fs0
