import Fs0.Central.Tables

/-!
Contract: the directory operations of a central transaction.

Owns:
- the directory cache: lookups that touch an entry, remembering with its trim,
  and forgetting;
- creating, removing, listing and resolving directories;
- the check that a child name is free.

Does not own: the file operations, which call these.
-/

set_option autoImplicit false

namespace Fs0

open Lib

def dirCacheMaxEntries : Nat := 8192

def dirCacheTrimToEntries : Nat := 6144

/-! ## Directory cache -/

namespace DirCache

/-- The access number to hand out, and the cache with its counter advanced. -/
def bumpAccess (cache : DirCache) : Nat × DirCache :=
  (cache.nextAccess, { cache with nextAccess := min (cache.nextAccess + 1) (u64Modulus - 1) })

def touch (cache : DirCache) (path : String) (lastAccess : Nat) : DirCache :=
  { cache with
    pathToEntry := cache.pathToEntry.update
      (fun entry => if entry.path = path then { entry with lastAccess := lastAccess } else entry)
      (by intro entry; split <;> rfl) }

def getId (path : String) (cache : DirCache) : Option Nat × DirCache :=
  if path = "/" then
    (some rootDirId, cache)
  else
    let (lastAccess, cache) := cache.bumpAccess
    match cache.pathToEntry.find? path with
    | none => (none, cache)
    | some entry => (some entry.dirId, cache.touch path lastAccess)

def getPath (dirId : Nat) (cache : DirCache) : Option String × DirCache :=
  if dirId = rootDirId then
    (some "/", cache)
  else
    match cache.idToPath.find? dirId with
    | none => (none, cache)
    | some known =>
        let (lastAccess, cache) := cache.bumpAccess
        (some known.path, cache.touch known.path lastAccess)

/-- Drops the entries accessed longest ago. -/
def trim (cache : DirCache) : DirCache :=
  if cache.pathToEntry.rows.length ≤ dirCacheMaxEntries then
    cache
  else
    let removeCount := cache.pathToEntry.rows.length - dirCacheTrimToEntries
    let candidates := cache.pathToEntry.rows.insertionSort fun left right =>
      left.lastAccess ≤ right.lastAccess
    let removed := candidates.take removeCount
    { cache with
      pathToEntry := cache.pathToEntry.delete fun entry =>
        removed.any fun candidate => candidate.path == entry.path
      idToPath := cache.idToPath.delete fun known =>
        removed.any fun candidate => candidate.dirId == known.dirId }

def remember (dirId : Nat) (path : String) (cache : DirCache) : DirCache :=
  if dirId = rootDirId ∨ path = "/" then
    cache
  else
    let (lastAccess, cache) := cache.bumpAccess
    trim { cache with
      pathToEntry := cache.pathToEntry.put ⟨path, dirId, lastAccess⟩
      idToPath := cache.idToPath.put ⟨dirId, path⟩ }

def forget (dirId : Nat) (path : String) (cache : DirCache) : DirCache :=
  if dirId = rootDirId ∨ path = "/" then
    cache
  else
    { cache with
      pathToEntry := cache.pathToEntry.delete fun entry => entry.path == path
      idToPath := cache.idToPath.delete fun known => known.dirId == dirId }

end DirCache

/-! ## Statements -/

namespace CentralTables

/-- `SELECT dir_id FROM dirs WHERE parent_dir_id = ? AND name = ?`. -/
def childDir (parentDirId : Nat) (name : String) (tables : CentralTables) : Option Nat :=
  (tables.dirs.rows.find? fun dir => dir.parentDirId = some parentDirId ∧ dir.name = name).map
    DirRow.dirId

/-- `SELECT file_id FROM files WHERE dir_id = ? AND name = ?`. -/
def childFile (dirId : Nat) (name : String) (tables : CentralTables) : Option FileRow :=
  tables.files.rows.find? fun file => file.dirId = dirId ∧ file.name = name

/-- The largest directory id in use. -/
def maxDirId (tables : CentralTables) : Nat :=
  tables.dirs.rows.foldr (fun dir largest => max dir.dirId largest) 0

/-- `INSERT INTO dirs`. The row takes the number after the largest one in use, so
a number is used again once its directory and all later ones are gone. -/
def insertDir (parentDirId : Nat) (name : String) (tables : CentralTables) :
    Fs0Result (Nat × CentralTables) :=
  if name = "" then
    .error (.sqlite "CHECK constraint failed: dirs")
  else if (tables.childDir parentDirId name).isSome then
    .error (uniqueFailed "dirs.parent_dir_id, dirs.name")
  else if (tables.dirs.find? parentDirId).isNone then
    .error foreignKeyFailed
  else if i64Max ≤ tables.maxDirId then
    .error databaseFull
  else
    match tables.dirs.insert? ⟨tables.maxDirId + 1, some parentDirId, name⟩ with
    | none => .error (uniqueFailed "dirs.dir_id")
    | some dirs => .ok (tables.maxDirId + 1, { tables with dirs := dirs })

/-- `DELETE FROM dirs WHERE dir_id = ?`. -/
def deleteDir (dirId : Nat) (tables : CentralTables) : Fs0Result (Unit × CentralTables) :=
  if (tables.dirs.rows.any fun dir => dir.parentDirId = some dirId) ∨
      tables.files.rows.any fun file => file.dirId = dirId then
    .error foreignKeyFailed
  else
    .ok ((), { tables with dirs := tables.dirs.delete fun dir => dir.dirId == dirId })

/-- The rows visited by `get_dir_path_by_id`, read towards the root; `none` when
the root is not among the first `fuel` of them. -/
def parentWalk (tables : CentralTables) : Nat → Nat → Option (Fs0Result (List String))
  | 0, _ => none
  | fuel + 1, dirId =>
      match u64ToI64 dirId "dir_id" with
      | .error err => some (.error err)
      | .ok _ =>
          match tables.dirs.find? dirId with
          | none => some (.error .notFound)
          | some dir =>
              if dir.dirId = rootDirId then
                some (.ok [])
              else
                match dir.parentDirId with
                | none => some (.error (.invalidData s!"dir {dirId} has no parent"))
                | some parent =>
                    (tables.parentWalk fuel parent).map fun names => names.map (· ++ [dir.name])

end CentralTables

/-! ## Operations -/

structure DirectoryEntry where
  fileId : Nat
  name : String
  path : String
  sizeBytes : Nat
  compressedSizeBytes : Nat
  createdAtMs : Nat
  updatedAtMs : Nat
deriving DecidableEq, Repr

structure DirectoryEntries where
  entries : List DirectoryEntry
  nextCursor : Option Nat
deriving DecidableEq, Repr

namespace CentralTx

open Fallible

def cachedId (path : String) : CentralTx (Option Nat) := cached (DirCache.getId path)

def cachedPath (dirId : Nat) : CentralTx (Option String) := cached (DirCache.getPath dirId)

def remember (dirId : Nat) (path : String) : CentralTx Unit :=
  cached fun cache => ((), cache.remember dirId path)

def forget (dirId : Nat) (path : String) : CentralTx Unit :=
  cached fun cache => ((), cache.forget dirId path)

def ensureChildNameAvailable (parentDirId : Nat) (name : String) (existingFileId : Option Nat)
    (path : String) : CentralTx Unit := do
  let parent ← bindU64 parentDirId "parent_dir_id"
  let childDir ← query (CentralTables.childDir parent name)
  require (childDir = none) (.alreadyExists path)
  let childFile ← query (CentralTables.childFile parent name)
  require (∀ file, childFile = some file → some file.fileId = existingFileId)
    (.alreadyExists path)

/-- The loop of `create_dir` from a directory onwards. -/
def createDirBelow : List String → Nat → String → CentralTx Nat
  | [], dirId, _ => pure dirId
  | name :: rest, dirId, parentPath => do
      let currentPath ← lift (joinFs0Path parentPath name)
      match ← cachedId currentPath with
      | some cachedDirId => createDirBelow rest cachedDirId currentPath
      | none =>
          let parent ← bindU64 dirId "parent_dir_id"
          match ← query (CentralTables.childDir parent name) with
          | some existingDirId =>
              remember existingDirId currentPath
              createDirBelow rest existingDirId currentPath
          | none =>
              ensureChildNameAvailable dirId name none currentPath
              let created ← execute (CentralTables.insertDir parent name)
              createDirBelow rest created currentPath

def createDir (path : String) : CentralTx Nat := do
  match ← cachedId path with
  | some dirId => pure dirId
  | none =>
      let names ← lift (splitFs0PathComponents path)
      createDirBelow names rootDirId "/"

/-- The loop of `get_dir_id_by_path` from a directory onwards. -/
def dirIdBelow : List String → Nat → String → CentralTx Nat
  | [], dirId, _ => pure dirId
  | name :: rest, dirId, parentPath => do
      let currentPath ← lift (joinFs0Path parentPath name)
      match ← cachedId currentPath with
      | some cachedDirId => dirIdBelow rest cachedDirId currentPath
      | none =>
          let parent ← bindU64 dirId "parent_dir_id"
          let found ← query (CentralTables.childDir parent name)
          let childDirId ← lift (okOr found .notFound)
          remember childDirId currentPath
          dirIdBelow rest childDirId currentPath

def getDirIdByPath (path : String) : CentralTx Nat := do
  match ← cachedId path with
  | some dirId => pure dirId
  | none =>
      let names ← lift (splitFs0PathComponents path)
      dirIdBelow names rootDirId "/"

/-- A directory is numbered above its parent, so the walk to the root visits at
most `dirId + 1` rows. -/
def getDirPathById (dirId : Nat) : CentralTx String := do
  match ← cachedPath dirId with
  | some path => pure path
  | none =>
      let walked ← query fun tables => tables.parentWalk (dirId + 1) dirId
      let result ← lift (okOr walked (.internal "the walk to the root does not end"))
      let names ← lift result
      remember dirId (pathOf names)
      pure (pathOf names)

def removeDir (path : String) : CentralTx Unit := do
  require (path ≠ "/") .invalidRequest
  let dirId ← getDirIdByPath path
  require (dirId ≠ rootDirId) .invalidRequest
  let id ← bindU64 dirId "dir_id"
  let childDirs ← query fun tables =>
    (tables.dirs.rows.filter fun dir => dir.parentDirId = some id).length
  let childFiles ← query fun tables =>
    (tables.files.rows.filter fun file => file.dirId = id).length
  require (childDirs = 0 ∧ childFiles = 0) .invalidRequest
  execute (CentralTables.deleteDir id)
  forget dirId path

def fileRecord (file : FileRow) : CentralTx FileRecord := do
  let dir ← getDirPathById file.dirId
  let path ← lift (joinFs0Path dir file.name)
  pure ⟨file.fileId, path, file.sizeBytes, file.compressedSizeBytes, file.createdAtMs,
    file.updatedAtMs⟩

def directoryEntry (dir : String) (file : FileRow) : Fs0Result DirectoryEntry := do
  let path ← joinFs0Path dir file.name
  pure ⟨file.fileId, file.name, path, file.sizeBytes, file.compressedSizeBytes,
    file.createdAtMs, file.updatedAtMs⟩

def listDirectory (dir : String) (limit : Nat) (cursor : Option Nat) :
    CentralTx DirectoryEntries := do
  let limit := min (max limit 1) 1024
  let offset := cursor.getD 0
  let dirId ← getDirIdByPath dir
  let id ← bindU64 dirId "dir_id"
  let rowLimit ← bindU64 (limit + 1) "limit"
  let skipped ← bindU64 offset "cursor"
  let files ← query fun tables =>
    (((tables.files.rows.filter fun file => file.dirId = id).insertionSort fun left right =>
      left.name ≤ right.name).drop skipped).take rowLimit
  let entries ← lift (files.mapM (directoryEntry dir))
  if limit < entries.length then
    pure ⟨entries.take limit, some (offset + limit)⟩
  else
    pure ⟨entries, none⟩

end CentralTx

end Fs0
