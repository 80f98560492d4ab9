import Fs0.Central.Connections
import Fs0.Central.Transparency

/-!
Contract: what the transactions of central do to its tables, whatever the
directory cache holds.

Owns:
- the operations that change no table, and those that add directories only;
- for each operation and each transaction that succeeds, the tables it leaves.

Does not own: the paths of the directories it adds, which depend on the cache.
-/

set_option autoImplicit false

namespace Fs0

open Lib Fallible

namespace CentralTx

variable {α β : Type} {db db' : CentralDb}

/-! ## Computations that change no table -/

/-- Changes no table, whether or not it fails. -/
def ReadsOnly (m : CentralTx α) : Prop := ∀ tables, Keeps (fun db => db.1 = tables) m

theorem ReadsOnly.tables_eq {m : CentralTx α} (reads : ReadsOnly m) {a : α}
    (ran : m db = .ok a db') : db'.1 = db.1 :=
  (reads db.1).ok rfl ran

theorem ReadsOnly.endState {m : CentralTx α} (reads : ReadsOnly m) (db : CentralDb) :
    (endState (m db)).1 = db.1 :=
  (reads db.1).endState rfl

theorem ReadsOnly.bind {m : CentralTx α} {f : α → CentralTx β} (first : ReadsOnly m)
    (second : ∀ a, ReadsOnly (f a)) : ReadsOnly (m >>= f) :=
  fun tables => Keeps.bind (first tables) fun a => second a tables

theorem ReadsOnly.pure (a : α) : ReadsOnly (Pure.pure a : CentralTx α) := fun _ => Keeps.pure

theorem ReadsOnly.lift (result : Fs0Result α) : ReadsOnly (Fallible.lift result : CentralTx α) :=
  fun _ => Keeps.lift

theorem ReadsOnly.require (condition : Prop) [Decidable condition] (err : Fs0Error) :
    ReadsOnly (Fallible.require condition err : CentralTx PUnit) :=
  fun _ => Keeps.require

theorem ReadsOnly.mapError {m : CentralTx α} (reads : ReadsOnly m) (f : Fs0Error → Fs0Error) :
    ReadsOnly (Fallible.mapError f m) := by
  intro tables db same
  have kept := reads tables db same
  unfold Fallible.mapError
  cases ran : m db <;> rw [ran] at kept <;> exact kept

theorem query_readsOnly (select : CentralTables → α) : ReadsOnly (query select) :=
  fun _ _ same => same

theorem cached_readsOnly (use : DirCache → α × DirCache) : ReadsOnly (cached use) :=
  fun _ _ same => same

theorem bindU64_readsOnly (value : Nat) (name : String) : ReadsOnly (bindU64 value name) :=
  ReadsOnly.lift _

theorem dirIdBelow_readsOnly (names : List String) (dirId : Nat) (parentPath : String) :
    ReadsOnly (dirIdBelow names dirId parentPath) := by
  induction names generalizing dirId parentPath with
  | nil => exact ReadsOnly.pure dirId
  | cons name rest inductionHypothesis =>
      apply ReadsOnly.bind (ReadsOnly.lift _)
      intro currentPath
      apply ReadsOnly.bind (cached_readsOnly _)
      rintro (_ | found)
      · apply ReadsOnly.bind (bindU64_readsOnly _ _)
        intro parent
        apply ReadsOnly.bind (query_readsOnly _)
        intro child
        apply ReadsOnly.bind (ReadsOnly.lift _)
        intro childDirId
        exact ReadsOnly.bind (cached_readsOnly _) fun _ => inductionHypothesis _ _
      · exact inductionHypothesis _ _

theorem getDirIdByPath_readsOnly (path : String) : ReadsOnly (getDirIdByPath path) := by
  apply ReadsOnly.bind (cached_readsOnly _)
  rintro (_ | found)
  · exact ReadsOnly.bind (ReadsOnly.lift _) fun names => dirIdBelow_readsOnly names _ _
  · exact ReadsOnly.pure found

theorem getDirPathById_readsOnly (dirId : Nat) : ReadsOnly (getDirPathById dirId) := by
  apply ReadsOnly.bind (cached_readsOnly _)
  rintro (_ | found)
  · apply ReadsOnly.bind (query_readsOnly _)
    intro walked
    apply ReadsOnly.bind (ReadsOnly.lift _)
    intro result
    apply ReadsOnly.bind (ReadsOnly.lift _)
    intro names
    exact ReadsOnly.bind (cached_readsOnly _) fun _ => ReadsOnly.pure _
  · exact ReadsOnly.pure found

theorem fileRecord_readsOnly (file : FileRow) : ReadsOnly (fileRecord file) :=
  ReadsOnly.bind (getDirPathById_readsOnly _) fun _ =>
    ReadsOnly.bind (ReadsOnly.lift _) fun _ => ReadsOnly.pure _

theorem fileRecord_eq_ok {file : FileRow} {record : FileRecord}
    (ran : fileRecord file db = .ok record db') :
    record.fileId = file.fileId ∧ record.sizeBytes = file.sizeBytes := by
  obtain ⟨dir, db₁, -, rest⟩ := bind_eq_ok.mp ran
  obtain ⟨path, -, ended⟩ := lift_bind_eq_ok.mp rest
  obtain ⟨rfl, -⟩ := EStateM.Result.ok.inj ended
  exact ⟨rfl, rfl⟩

theorem getFileById_readsOnly (fileId : Nat) : ReadsOnly (getFileById fileId) :=
  ReadsOnly.bind (bindU64_readsOnly _ _) fun _ =>
    ReadsOnly.bind (query_readsOnly _) fun _ => ReadsOnly.lift _

theorem getFileByPath_readsOnly (path : String) : ReadsOnly (getFileByPath path) :=
  ReadsOnly.bind (ReadsOnly.lift _) fun _ =>
    ReadsOnly.bind (getDirIdByPath_readsOnly _) fun _ =>
      ReadsOnly.bind (bindU64_readsOnly _ _) fun _ =>
        ReadsOnly.bind (query_readsOnly _) fun _ => ReadsOnly.lift _

theorem getFileBundlesByFileId_readsOnly (fileId : Nat) :
    ReadsOnly (getFileBundlesByFileId fileId) :=
  ReadsOnly.bind (bindU64_readsOnly _ _) fun _ => query_readsOnly _

theorem getBundleReplicasById_readsOnly (bundleIds : List HashId) :
    ReadsOnly (getBundleReplicasById bundleIds) :=
  query_readsOnly _

theorem calculateSizeByFileId_readsOnly (fileId : Nat) :
    ReadsOnly (calculateSizeByFileId fileId) :=
  ReadsOnly.bind (getFileBundlesByFileId_readsOnly _) fun _ =>
    ReadsOnly.bind (getBundleReplicasById_readsOnly _) fun _ => ReadsOnly.lift _

theorem activeUpdateLeaseVolume_readsOnly (leaseId fileId now : Nat) :
    ReadsOnly (activeUpdateLeaseVolume leaseId fileId now) :=
  ReadsOnly.bind (bindU64_readsOnly _ _) fun _ => ReadsOnly.bind (bindU64_readsOnly _ _) fun _ =>
    ReadsOnly.bind (bindU64_readsOnly _ _) fun _ => ReadsOnly.bind (query_readsOnly _) fun _ =>
      ReadsOnly.lift _

theorem listDirectory_readsOnly (dir : String) (limit : Nat) (cursor : Option Nat) :
    ReadsOnly (listDirectory dir limit cursor) := by
  apply ReadsOnly.bind (getDirIdByPath_readsOnly _)
  intro dirId
  apply ReadsOnly.bind (bindU64_readsOnly _ _)
  intro id
  apply ReadsOnly.bind (bindU64_readsOnly _ _)
  intro rowLimit
  apply ReadsOnly.bind (bindU64_readsOnly _ _)
  intro skipped
  apply ReadsOnly.bind (query_readsOnly _)
  intro files
  apply ReadsOnly.bind (ReadsOnly.lift _)
  intro entries
  split <;> exact ReadsOnly.pure _

/-! ## Computations that add directories -/

/-- Changes no table but the directories, whether or not it fails. -/
def OnlyDirs (m : CentralTx α) : Prop :=
  ∀ tables : CentralTables, Keeps (fun db => ∃ dirs, db.1 = { tables with dirs := dirs }) m

theorem ReadsOnly.onlyDirs {m : CentralTx α} (reads : ReadsOnly m) : OnlyDirs m := by
  rintro tables db ⟨dirs, same⟩
  have kept := reads db.1 db rfl
  cases ran : m db <;> rw [ran] at kept <;> exact ⟨dirs, kept.trans same⟩

theorem OnlyDirs.bind {m : CentralTx α} {f : α → CentralTx β} (first : OnlyDirs m)
    (second : ∀ a, OnlyDirs (f a)) : OnlyDirs (m >>= f) :=
  fun tables => Keeps.bind (first tables) fun a => second a tables

theorem OnlyDirs.tables_eq {m : CentralTx α} (only : OnlyDirs m) {a : α}
    (ran : m db = .ok a db') : ∃ dirs, db'.1 = { db.1 with dirs := dirs } :=
  (only db.1).ok ⟨db.1.dirs, rfl⟩ ran

theorem insertDir_onlyDirs (parentDirId : Nat) (name : String) :
    OnlyDirs (execute (CentralTables.insertDir parentDirId name)) := by
  intro tables
  apply Triple.intro
  · rintro db dirId db' ⟨dirs, same⟩ ran
    obtain ⟨inserted, -⟩ := execute_eq_ok.mp ran
    obtain ⟨-, -, -, -, -, others, -⟩ := CentralTables.insertDir_eq_ok inserted
    exact ⟨db'.1.dirs, by rw [others, same]⟩
  · rintro db err db' kept ran
    obtain ⟨-, rfl⟩ := execute_eq_error.mp ran
    exact kept

theorem ensureChildNameAvailable_readsOnly (parentDirId : Nat) (name : String)
    (existingFileId : Option Nat) (path : String) :
    ReadsOnly (ensureChildNameAvailable parentDirId name existingFileId path) :=
  ReadsOnly.bind (bindU64_readsOnly _ _) fun _ => ReadsOnly.bind (query_readsOnly _) fun _ =>
    ReadsOnly.bind (ReadsOnly.require _ _) fun _ => ReadsOnly.bind (query_readsOnly _) fun _ =>
      ReadsOnly.require _ _

theorem createDirBelow_onlyDirs (names : List String) (dirId : Nat) (parentPath : String) :
    OnlyDirs (createDirBelow names dirId parentPath) := by
  induction names generalizing dirId parentPath with
  | nil => exact (ReadsOnly.pure dirId).onlyDirs
  | cons name rest inductionHypothesis =>
      apply OnlyDirs.bind (ReadsOnly.lift _).onlyDirs
      intro currentPath
      apply OnlyDirs.bind (cached_readsOnly _).onlyDirs
      rintro (_ | found)
      · apply OnlyDirs.bind (bindU64_readsOnly _ _).onlyDirs
        intro parent
        apply OnlyDirs.bind (query_readsOnly _).onlyDirs
        rintro (_ | child)
        · apply OnlyDirs.bind (ensureChildNameAvailable_readsOnly _ _ _ _).onlyDirs
          intro _
          exact OnlyDirs.bind (insertDir_onlyDirs _ _) fun _ => inductionHypothesis _ _
        · exact OnlyDirs.bind (cached_readsOnly _).onlyDirs fun _ => inductionHypothesis _ _
      · exact inductionHypothesis _ _

theorem createDir_onlyDirs (path : String) : OnlyDirs (createDir path) := by
  apply OnlyDirs.bind (cached_readsOnly _).onlyDirs
  rintro (_ | found)
  · exact OnlyDirs.bind (ReadsOnly.lift _).onlyDirs fun names => createDirBelow_onlyDirs names _ _
  · exact (ReadsOnly.pure found).onlyDirs

/-! ## File operations -/

theorem getFileById_bind_eq_ok {fileId : Nat} {f : FileRow → CentralTx α} {a : α} :
    (getFileById fileId >>= f) db = .ok a db' ↔ ∃ file, fileId ≤ i64Max ∧
      db.1.files.find? fileId = some file ∧ f file db = .ok a db' := by
  rw [bind_eq_ok]
  constructor
  · rintro ⟨file, db₁, found, rest⟩
    obtain ⟨fits, isFound, rfl⟩ := getFileById_eq_ok.mp found
    exact ⟨file, fits, isFound, rest⟩
  · rintro ⟨file, fits, isFound, rest⟩
    exact ⟨file, db, getFileById_eq_ok.mpr ⟨fits, isFound, rfl⟩, rest⟩

theorem ensureChildNameAvailable_bind_eq_ok {parentDirId : Nat} {name path : String}
    {existingFileId : Option Nat} {f : Unit → CentralTx α} {a : α}
    (ran : (ensureChildNameAvailable parentDirId name existingFileId path >>= f) db = .ok a db') :
    db.1.childDir parentDirId name = none ∧
      (∀ file, db.1.childFile parentDirId name = some file → some file.fileId = existingFileId) ∧
      f () db = .ok a db' := by
  obtain ⟨_, db₁, ensured, rest⟩ := bind_eq_ok.mp ran
  obtain ⟨rfl, noDir, ownFile⟩ := ensureChildNameAvailable_eq_ok ensured
  exact ⟨noDir, ownFile, rest⟩

theorem getFileByPath_mem {path : String} {file : FileRow}
    (found : getFileByPath path db = .ok file db') : file ∈ db.1.files.rows ∧ db'.1 = db.1 := by
  have same := (getFileByPath_readsOnly path).tables_eq found
  obtain ⟨parts, -, rest⟩ := lift_bind_eq_ok.mp found
  obtain ⟨dirId, db₁, resolved, rest⟩ := bind_eq_ok.mp rest
  obtain ⟨-, rest⟩ := bindU64_bind_eq_ok.mp rest
  rw [query_bind_eq_ok] at rest
  obtain ⟨isFound, rfl⟩ := lift_eq_ok.mp rest
  obtain ⟨member, -⟩ := CentralTables.mem_of_childFile (okOr_eq_ok.mp isFound)
  exact ⟨same ▸ member, same⟩

theorem newFile_fileId (dirId : Nat) (name : String) (sizeBytes compressedSizeBytes now fileId : Nat) :
    (CentralTables.newFile dirId name sizeBytes compressedSizeBytes now fileId).fileId = fileId :=
  rfl

/-- The file table after a row was inserted. -/
def filesWith (files : SeqTable FileRow.fileId) (dirId : Nat) (name : String)
    (sizeBytes compressedSizeBytes now : Nat) : SeqTable FileRow.fileId :=
  files.push (CentralTables.newFile dirId name sizeBytes compressedSizeBytes now)
    (newFile_fileId dirId name sizeBytes compressedSizeBytes now)

theorem find?_filesWith_of_le {files : SeqTable FileRow.fileId} {dirId sizeBytes : Nat}
    {name : String} {compressedSizeBytes now fileId : Nat} (known : fileId ≤ files.seq) :
    (filesWith files dirId name sizeBytes compressedSizeBytes now).find? fileId =
      files.find? fileId :=
  SeqTable.find?_push_of_ne (newFile_fileId dirId name sizeBytes compressedSizeBytes now)
    (by omega)

theorem find?_filesWith_new {files : SeqTable FileRow.fileId} {dirId sizeBytes : Nat}
    {name : String} {compressedSizeBytes now : Nat} :
    (filesWith files dirId name sizeBytes compressedSizeBytes now).find? (files.seq + 1) =
      some (CentralTables.newFile dirId name sizeBytes compressedSizeBytes now (files.seq + 1)) := by
  rw [filesWith, SeqTable.find?_push]

theorem insertFile_effect {dirId sizeBytes compressedSizeBytes now : Nat} {name : String}
    {file : FileRow}
    (ran : (do
      let fileId ← execute (CentralTables.insertFile dirId name sizeBytes compressedSizeBytes now)
      getFileById fileId : CentralTx FileRow) db = .ok file db') :
    file = CentralTables.newFile dirId name sizeBytes compressedSizeBytes now
        (db.1.files.seq + 1) ∧
      db'.1 = { db.1 with
        files := filesWith db.1.files dirId name sizeBytes compressedSizeBytes now } := by
  obtain ⟨fileId, db₁, inserted, found⟩ := bind_eq_ok.mp ran
  obtain ⟨inserted, -⟩ := execute_eq_ok.mp inserted
  obtain ⟨-, -, -, rfl, tables⟩ := CentralTables.insertFile_eq_ok inserted
  obtain ⟨-, isRow, rfl⟩ := getFileById_eq_ok.mp found
  rw [tables] at isRow
  exact ⟨Option.some.inj (isRow.symm.trans find?_filesWith_new), tables⟩

theorem createFile_effect {path : String} {now : Nat} {file : FileRow}
    (ran : createFile path now db = .ok file db') :
    ∃ dirs dirId name,
      file = CentralTables.newFile dirId name 0 0 now (db.1.files.seq + 1) ∧
      db'.1 = { db.1 with
        dirs := dirs
        files := filesWith db.1.files dirId name 0 0 now } := by
  obtain ⟨parts, -, rest⟩ := lift_bind_eq_ok.mp ran
  obtain ⟨dirId, db₂, created, rest⟩ := bind_eq_ok.mp rest
  obtain ⟨-, -, rest⟩ := ensureChildNameAvailable_bind_eq_ok rest
  obtain ⟨-, rest⟩ := bindU64_bind_eq_ok.mp rest
  obtain ⟨-, rest⟩ := bindU64_bind_eq_ok.mp rest
  obtain ⟨dirs, grown⟩ := (createDir_onlyDirs _).tables_eq created
  obtain ⟨isFile, tables⟩ := insertFile_effect rest
  rw [grown] at isFile tables
  exact ⟨dirs, _, _, isFile, tables⟩

theorem copyFileById_effect {sourceFileId now : Nat} {targetPath : String} {file : FileRow}
    (ran : copyFileById sourceFileId targetPath now db = .ok file db') :
    ∃ source dirs dirId name, db.1.files.find? sourceFileId = some source ∧
      file = CentralTables.newFile dirId name source.sizeBytes source.compressedSizeBytes now
        (db.1.files.seq + 1) ∧
      db'.1 = { db.1 with
        dirs := dirs
        files := filesWith db.1.files dirId name source.sizeBytes source.compressedSizeBytes
          now } := by
  obtain ⟨parts, -, rest⟩ := lift_bind_eq_ok.mp ran
  obtain ⟨source, -, isSource, rest⟩ := getFileById_bind_eq_ok.mp rest
  obtain ⟨dirId, db₃, created, rest⟩ := bind_eq_ok.mp rest
  obtain ⟨-, -, rest⟩ := ensureChildNameAvailable_bind_eq_ok rest
  obtain ⟨-, rest⟩ := bindU64_bind_eq_ok.mp rest
  obtain ⟨-, rest⟩ := bindU64_bind_eq_ok.mp rest
  obtain ⟨-, rest⟩ := bindU64_bind_eq_ok.mp rest
  obtain ⟨-, rest⟩ := bindU64_bind_eq_ok.mp rest
  obtain ⟨dirs, grown⟩ := (createDir_onlyDirs _).tables_eq created
  obtain ⟨isFile, tables⟩ := insertFile_effect rest
  rw [grown] at isFile tables
  exact ⟨source, dirs, _, _, isSource, isFile, tables⟩

/-- The file table after a row was moved. -/
def filesMoved (files : SeqTable FileRow.fileId) (fileId dirId : Nat) (name : String)
    (now : Nat) : SeqTable FileRow.fileId :=
  files.update (CentralTables.movedTo fileId dirId name now)
    (CentralTables.movedTo_fileId fileId dirId name now)

theorem find?_filesMoved {files : SeqTable FileRow.fileId} {moved dirId now fileId : Nat}
    {name : String} : (filesMoved files moved dirId name now).find? fileId =
      (files.find? fileId).map (CentralTables.movedTo moved dirId name now) :=
  Table.find?_update (CentralTables.movedTo_fileId moved dirId name now)

theorem renameFileById_effect {fileId now : Nat} {targetPath : String} {file : FileRow}
    (ran : renameFileById fileId targetPath now db = .ok file db') :
    ∃ old dirs dirId name, db.1.files.find? fileId = some old ∧
      db'.1.files.find? fileId = some file ∧
      db'.1 = { db.1 with
        dirs := dirs
        files := filesMoved db.1.files fileId dirId name now } := by
  obtain ⟨parts, -, rest⟩ := lift_bind_eq_ok.mp ran
  obtain ⟨dirId, db₂, created, rest⟩ := bind_eq_ok.mp rest
  obtain ⟨-, -, rest⟩ := ensureChildNameAvailable_bind_eq_ok rest
  obtain ⟨-, rest⟩ := bindU64_bind_eq_ok.mp rest
  obtain ⟨-, rest⟩ := bindU64_bind_eq_ok.mp rest
  obtain ⟨-, rest⟩ := bindU64_bind_eq_ok.mp rest
  obtain ⟨changes, db₄, moved, rest⟩ := bind_eq_ok.mp rest
  obtain ⟨moved, -⟩ := execute_eq_ok.mp moved
  obtain ⟨changed, rest⟩ := require_bind_eq_ok.mp rest
  obtain ⟨-, found, rfl⟩ := getFileById_eq_ok.mp rest
  obtain ⟨dirs, grown⟩ := (createDir_onlyDirs _).tables_eq created
  obtain ⟨⟨old, known⟩, -, -, tables⟩ := CentralTables.moveFile_eq_ok moved changed
  rw [grown] at known tables
  exact ⟨old, dirs, _, _, known, found, tables⟩

theorem deleteFileById_effect {fileId : Nat} (ran : deleteFileById fileId db = .ok () db') :
    (∃ file, db.1.files.find? fileId = some file) ∧
      db'.1 = { db.1 with
        files := db.1.files.delete fun file => file.fileId == fileId
        fileBundles := db.1.fileBundles.delete fun row => row.fileId == fileId
        updateLeases := db.1.updateLeases.delete fun lease => lease.fileId == fileId } := by
  obtain ⟨-, rest⟩ := bindU64_bind_eq_ok.mp ran
  obtain ⟨changes, db₁, deleted, rest⟩ := bind_eq_ok.mp rest
  obtain ⟨deleted, -⟩ := execute_eq_ok.mp deleted
  obtain ⟨changed, rfl⟩ := require_eq_ok.mp rest
  exact CentralTables.deleteFile_eq_ok deleted changed

/-- The file table after a row was resized. -/
def filesResized (files : SeqTable FileRow.fileId) (fileId sizeBytes compressedSizeBytes now : Nat) :
    SeqTable FileRow.fileId :=
  files.update (CentralTables.resizedTo fileId sizeBytes compressedSizeBytes now)
    (CentralTables.resizedTo_fileId fileId sizeBytes compressedSizeBytes now)

theorem find?_filesResized {files : SeqTable FileRow.fileId}
    {resized sizeBytes compressedSizeBytes now fileId : Nat} :
    (filesResized files resized sizeBytes compressedSizeBytes now).find? fileId =
      (files.find? fileId).map
        (CentralTables.resizedTo resized sizeBytes compressedSizeBytes now) :=
  Table.find?_update (CentralTables.resizedTo_fileId resized sizeBytes compressedSizeBytes now)

theorem updateFileAfterUpdate_effect {fileId newSize compressedSizeBytes now : Nat}
    {file : FileRow}
    (ran : updateFileAfterUpdate fileId newSize compressedSizeBytes now db = .ok file db') :
    db'.1.files.find? fileId = some file ∧
      db'.1 = { db.1 with
        files := filesResized db.1.files fileId newSize compressedSizeBytes now } := by
  obtain ⟨-, rest⟩ := bindU64_bind_eq_ok.mp ran
  obtain ⟨-, rest⟩ := bindU64_bind_eq_ok.mp rest
  obtain ⟨-, rest⟩ := bindU64_bind_eq_ok.mp rest
  obtain ⟨-, rest⟩ := bindU64_bind_eq_ok.mp rest
  obtain ⟨changes, db₁, resized, rest⟩ := bind_eq_ok.mp rest
  obtain ⟨resized, -⟩ := execute_eq_ok.mp resized
  obtain ⟨changed, rest⟩ := require_bind_eq_ok.mp rest
  obtain ⟨-, found, rfl⟩ := getFileById_eq_ok.mp rest
  exact ⟨found, (CentralTables.resizeFile_eq_ok resized changed).2⟩

/-- The event log after an event was appended. -/
def eventsWith (events : SeqTable FileEventRow.eventId) (kind : FileChangeLogKind)
    (newTarget : Option (String × String)) (fileId now : Nat) : SeqTable FileEventRow.eventId :=
  events.push (fun eventId => ⟨eventId, kind, newTarget.map Prod.fst, newTarget.map Prod.snd,
    some fileId, now⟩) fun _ => rfl

theorem insertFileChangeLog_effect {kind : FileChangeLogKind}
    {newTarget : Option (String × String)} {fileId now : Nat}
    (ran : insertFileChangeLog kind newTarget (some fileId) now db = .ok () db') :
    db' = ({ db.1 with
      fileEvents := eventsWith db.1.fileEvents kind newTarget fileId now }, db.2) := by
  obtain ⟨id, bound, rest⟩ := lift_bind_eq_ok.mp ran
  dsimp only at bound
  cases fits : u64ToI64 fileId "file_id" with
  | error err =>
      rw [fits] at bound
      cases bound
  | ok value =>
      rw [fits] at bound
      cases bound
      obtain ⟨-, rfl⟩ := u64ToI64_eq_ok.mp fits
      obtain ⟨-, rest⟩ := bindU64_bind_eq_ok.mp rest
      obtain ⟨eventId, db₁, inserted, rest⟩ := bind_eq_ok.mp rest
      obtain ⟨inserted, sameCache⟩ := execute_eq_ok.mp inserted
      cases rest
      exact Prod.ext (CentralTables.insertFileEvent_eq_ok inserted).2 sameCache

end CentralTx

end Fs0
