import Fs0.Lib.Catalog
import Fs0.Lib.Refinement
import Fs0.Central.FileSizes
import Fs0.Central.ReplayedLog

/-!
Contract: central as a catalog of files.

Owns:
- the catalog the tables describe: the path, the size and the bundle list of every file;
- the operation of the catalog that each transaction which commits is, and no other step;
- that every run of central that loses no directory goes alongside a run of the catalog.

Does not own: the change log, the leases and the volumes.
-/

set_option autoImplicit false

namespace Fs0

open Lib Fallible
open CentralTx (filesWith find?_filesWith_new find?_filesMoved find?_filesResized newFile_fileId)

/-! ## Files -/

/-- What a file holds: its size, and the bundles its bytes are in. -/
structure FileContent where
  sizeBytes : Nat
  bundles : List HashId

namespace CentralTables

/-- The content of the tables for a file of a size. -/
def fileContent (tables : CentralTables) (fileId sizeBytes : Nat) : FileContent :=
  ⟨sizeBytes, (tables.fileBundlesOf fileId).map FileBundleRow.bundleId⟩

/-- A file as its users see it: its path and its content. -/
def entry (tables : CentralTables) (fileId : Nat) : Option (Placed String FileContent) :=
  (tables.files.find? fileId).bind fun file => (tables.filePath fileId).toOption.map fun path =>
    ⟨path, tables.fileContent fileId file.sizeBytes⟩

variable {tables before after : CentralTables} {fileId : Nat}

theorem entry_of_absent (absent : tables.files.find? fileId = none) :
    tables.entry fileId = none := by
  rw [entry, absent]
  rfl

theorem Namespace.entry_of_fileAt (laws : tables.Namespace) {file : FileRow}
    (found : tables.files.find? fileId = some file) {path : String}
    (fileAt : tables.FileAt path file) :
    tables.entry fileId = some ⟨path, tables.fileContent fileId file.sizeBytes⟩ := by
  rw [entry, found, Option.bind_some, laws.filePath_eq_ok found fileAt]
  rfl

/-- An entry is that of a row. -/
theorem Namespace.fileAt_of_entry (laws : tables.Namespace) {x : Placed String FileContent}
    (held : tables.entry fileId = some x) : ∃ file, tables.files.find? fileId = some file ∧
      tables.FileAt x.place file ∧ x.content = tables.fileContent fileId file.sizeBytes := by
  cases found : tables.files.find? fileId with
  | none =>
      rw [entry_of_absent found] at held
      cases held
  | some file =>
      obtain ⟨path, fileAt⟩ := laws.exists_fileAt (Table.mem_of_find? found).1
      rw [laws.entry_of_fileAt found fileAt] at held
      obtain rfl := Option.some.inj held
      exact ⟨file, rfl, fileAt, rfl⟩

/-- The catalog of the files in the tables. -/
def catalog (tables : CentralTables) (laws : tables.Namespace) : Catalog String FileContent where
  entry := tables.entry
  used := tables.files.seq
  known fileId x held := by
    obtain ⟨file, found, -⟩ := laws.fileAt_of_entry held
    exact SeqTable.find?_le_seq found
  place_unique left right x y leftHeld rightHeld together := by
    obtain ⟨file, found, fileAt, -⟩ := laws.fileAt_of_entry leftHeld
    obtain ⟨other, otherFound, otherAt, -⟩ := laws.fileAt_of_entry rightHeld
    obtain rfl := laws.fileAt_unique fileAt (together ▸ otherAt)
    exact (Table.mem_of_find? found).2.symm.trans (Table.mem_of_find? otherFound).2

/-! ## Changes -/

/-- A file whose place and content stay has the same entry. -/
theorem entry_kept (laws : before.Namespace) (laws' : after.Namespace)
    (dirs : ∀ names dirId, before.DirAt names dirId → after.DirAt names dirId)
    (place : after.placeOf fileId = before.placeOf fileId)
    (content : after.content fileId = before.content fileId) :
    after.entry fileId = before.entry fileId := by
  obtain ⟨size, bundles⟩ := Prod.mk.inj content
  unfold placeOf at place
  cases found : before.files.find? fileId with
  | none =>
      rw [found, Option.map_none, Option.map_eq_none_iff] at place
      rw [entry_of_absent found, entry_of_absent place]
  | some file =>
      rw [found, Option.map_some] at place size
      obtain ⟨file', found', same⟩ := Option.map_eq_some_iff.mp place
      obtain ⟨sameDir, sameName⟩ := Prod.mk.inj same
      rw [found', Option.map_some, Option.some.injEq] at size
      obtain ⟨path, fileAt⟩ := laws.exists_fileAt (Table.mem_of_find? found).1
      have fileAt' : after.FileAt path file' := by
        obtain ⟨-, names, located, isPath⟩ := fileAt
        refine ⟨(Table.mem_of_find? found').1, names, ?_, sameName ▸ isPath⟩
        exact sameDir ▸ dirs names _ located
      rw [laws.entry_of_fileAt found fileAt, laws'.entry_of_fileAt found' fileAt', fileContent,
        fileContent, bundles, size]

/-- A file whose rows stay has the same entry. -/
theorem entry_of_rows (laws : before.Namespace) (laws' : after.Namespace)
    (dirs : ∀ names dirId, before.DirAt names dirId → after.DirAt names dirId)
    (file : after.files.find? fileId = before.files.find? fileId)
    (bundles : after.fileBundles.rows.filter (fun row => row.fileId = fileId) =
      before.fileBundles.rows.filter fun row => row.fileId = fileId) :
    after.entry fileId = before.entry fileId :=
  entry_kept laws laws' dirs (by rw [placeOf, file, placeOf]) (content_congr file bundles)

end CentralTables

/-- The file whose row a transaction inserts, changes or deletes. -/
def Transaction.Touches (before : CentralTables) (fileId : Nat) : Transaction → Prop
  | .beginUpdate _ _ _ => fileId = before.files.seq + 1
  | .commitUpdate request _ => fileId = request.fileId
  | .deleteFile deleted _ => fileId = deleted
  | .copyFile _ _ _ => fileId = before.files.seq + 1
  | .renameFile renamed _ _ => fileId = renamed
  | _ => False

namespace CentralTables

variable {before after : CentralTables} {fileId : Nat}

/-- A transaction leaves the rows of every other file. -/
theorem rows_of_effect {tx : Transaction} (effect : tx.Effect before after)
    (other : ¬ tx.Touches before fileId) :
    after.files.find? fileId = before.files.find? fileId ∧
      after.fileBundles.rows.filter (fun row => row.fileId = fileId) =
        before.fileBundles.rows.filter fun row => row.fileId = fileId := by
  cases tx with
  | beginUpdate request volumeId now =>
      obtain ⟨granted, file, mid, taken, -, -, -, rfl⟩ := effect
      cases taken with
      | existing member => exact ⟨rfl, rfl⟩
      | created dirs dirId name =>
          exact ⟨SeqTable.find?_push_of_ne (newFile_fileId _ _ _ _ _) other, rfl⟩
  | commitUpdate request now =>
      obtain ⟨lease, file, compressedSize, dir, committed⟩ := effect
      have differs : fileId ≠ request.fileId := other
      have noNew := filter_eq_nil_of_other fileId
        (bundleRowsFrom request.fileId 0 (request.bundles.map CommittedBundle.bundleId))
        fun row member => bundleRowsFrom_fileId member ▸ Ne.symm differs
      constructor
      · rw [committed.others]
        exact filesResized_of_ne differs
      · rw [committed.bundles, List.filter_append, filter_filter_other (Ne.symm differs), noNew,
          List.append_nil]
  | deleteFile deleted now =>
      have differs : fileId ≠ deleted := other
      rw [effect.2]
      exact ⟨find?_deleted differs, filter_filter_other (Ne.symm differs) _⟩
  | copyFile sourceFileId targetPath now =>
      obtain ⟨source, target, dirId, name, copied⟩ := effect
      have differs : fileId ≠ before.files.seq + 1 := other
      have noNew := filter_eq_nil_of_other fileId
        (copiedBundleRows before.fileBundles.rows sourceFileId (before.files.seq + 1))
        fun row member => copiedBundleRows_fileId member ▸ Ne.symm differs
      constructor
      · rw [copied.others]
        exact SeqTable.find?_push_of_ne (newFile_fileId _ _ _ _ _) differs
      · rw [copied.bundles, List.filter_append, noNew, List.append_nil]
  | renameFile renamed targetPath now =>
      obtain ⟨file, target, dirId, name, moved⟩ := effect
      have differs : fileId ≠ renamed := other
      rw [moved.others]
      refine ⟨find?_filesMoved.trans ?_, rfl⟩
      cases present : before.files.find? fileId with
      | none => rfl
      | some row =>
          have isOther : row.fileId ≠ renamed := (Table.mem_of_find? present).2 ▸ differs
          rw [Option.map_some, movedTo, if_neg isOther]
  | dropLease leaseId => rw [show after = _ from effect]; exact ⟨rfl, rfl⟩
  | abortUpdate leaseId aborted => rw [effect.2]; exact ⟨rfl, rfl⟩
  | registerVolumes volumes =>
      rw [show after = { before with volumes := after.volumes } from effect]
      exact ⟨rfl, rfl⟩
  | createVolume name maxBytes => rw [show after = _ from effect]; exact ⟨rfl, rfl⟩
  | reportReplicas events => rw [effect.others]; exact ⟨rfl, rfl⟩
  | updateVolumeOffset volumeId maxVolumeOffset => rw [effect.others]; exact ⟨rfl, rfl⟩

theorem entry_of_effect (laws : before.Namespace) (laws' : after.Namespace)
    (dirs : ∀ names dirId, before.DirAt names dirId → after.DirAt names dirId) {tx : Transaction}
    (effect : tx.Effect before after) (other : ¬ tx.Touches before fileId) :
    after.entry fileId = before.entry fileId := by
  obtain ⟨file, bundles⟩ := rows_of_effect effect other
  exact entry_of_rows laws laws' dirs file bundles

/-- The entries after one of them has changed. -/
theorem entry_eq_update {x : Option (Placed String FileContent)} (own : after.entry fileId = x)
    (others : ∀ other, other ≠ fileId → after.entry other = before.entry other) :
    after.entry = Function.update before.entry fileId x := by
  funext other
  by_cases same : other = fileId
  · rw [same, Function.update_self, own]
  · rw [Function.update_of_ne same, others other same]

theorem putFree_catalog (laws : before.Namespace) (laws' : after.Namespace)
    {x : Placed String FileContent} (own : after.entry fileId = some x)
    (others : ∀ other, other ≠ fileId → after.entry other = before.entry other)
    (seq : after.files.seq = max before.files.seq fileId) :
    (before.catalog laws).putFree fileId x = some (after.catalog laws') :=
  Catalog.putFree_eq_some (entry_eq_update own others) seq

end CentralTables

/-- The operation on the catalog that a transaction is. The beginning of an update creates a file
only where there is none. -/
def Transaction.catalogOp (tables : CentralTables) :
    Transaction → Option (CatalogOp String FileContent)
  | .beginUpdate request _ _ =>
      if (tables.fileByPath request.path).toOption.isSome then none
      else some (.create request.path ⟨0, []⟩)
  | .commitUpdate request _ => some (.write request.fileId
      ⟨request.newSize, request.bundles.map CommittedBundle.bundleId⟩)
  | .deleteFile fileId _ => some (.remove fileId)
  | .copyFile sourceFileId targetPath _ => some (.copy sourceFileId targetPath)
  | .renameFile fileId targetPath _ => some (.move fileId targetPath)
  | _ => none

/-- A transaction changes the catalog by the operation that it is, or leaves it as it is. -/
def CatalogStep (before after : CentralTables) (laws : before.Namespace) (laws' : after.Namespace)
    (tx : Transaction) : Prop :=
  tx.catalogOp before = none ∧ after.catalog laws' = before.catalog laws ∨
    ∃ op, tx.catalogOp before = some op ∧
      (before.catalog laws).apply op = some (after.catalog laws')

namespace CatalogStep

open CentralTables

variable {before after : CentralTables} {laws : before.Namespace} {laws' : after.Namespace}
  {tx : Transaction}

theorem of_kept (silent : tx.catalogOp before = none) (dirs : after.dirs = before.dirs)
    (files : after.files = before.files) (bundles : after.fileBundles = before.fileBundles) :
    CatalogStep before after laws laws' tx := by
  refine .inl ⟨silent, Catalog.ext (funext fun fileId => ?_) (congrArg SeqTable.seq files)⟩
  exact entry_of_rows laws laws' (fun _ _ => (dirAt_congr dirs).mpr) (by rw [files])
    (by rw [bundles])

theorem of_deleted {fileId now : Nat}
    (effect : (Transaction.deleteFile fileId now).Effect before after) :
    CatalogStep before after laws laws' (.deleteFile fileId now) := by
  have others : ∀ other, other ≠ fileId → after.entry other = before.entry other :=
    fun other differs => entry_of_effect laws laws' (fun _ _ =>
      (dirAt_congr (by rw [effect.2])).mpr) effect differs
  obtain ⟨⟨file, found⟩, tables⟩ := effect
  obtain ⟨path, fileAt⟩ := laws.exists_fileAt (Table.mem_of_find? found).1
  refine .inr ⟨_, rfl, ?_⟩
  rw [Catalog.apply, show (before.catalog laws).entry fileId = _ from
    laws.entry_of_fileAt found fileAt, Option.map_some]
  refine congrArg some (Catalog.remove_eq (entry_eq_update ?_ others) ?_)
  · refine entry_of_absent ?_
    rw [tables]
    exact Table.find?_delete_key.trans (if_pos rfl)
  · show after.files.seq = _
    rw [tables]
    rfl

variable {db db' : CentralDb} {laws : db.1.Namespace} {laws' : db'.1.Namespace}

theorem of_begun (consistent : Consistent db) (referring : db.1.Referring)
    {request : BeginUpdateRequest} {volumeId now : Nat} {lease : UpdateLease}
    (ran : UpdateRequest.beginUpdateTx request volumeId now db = .ok lease db')
    (effect : (Transaction.beginUpdate request volumeId now).Effect db.1 db'.1) :
    CatalogStep db.1 db'.1 laws laws' (.beginUpdate request volumeId now) := by
  have dirs := (PlaceStep.of_begun consistent referring ran).dirs
  obtain ⟨⟨file, baseSize⟩, db₁, taken, rest⟩ := bind_eq_ok.mp ran
  have granted := CentralTx.deleteExpiredUpdateLeases_bind_eq_ok rest
  obtain ⟨active, db₂, looked, granted⟩ := bind_eq_ok.mp granted
  obtain ⟨-, looked⟩ := CentralTx.bindU64_bind_eq_ok.mp looked
  obtain ⟨-, rfl⟩ := EStateM.Result.ok.inj looked
  obtain ⟨-, granted⟩ := require_bind_eq_ok.mp granted
  obtain ⟨-, -, tables⟩ := CentralTx.createUpdateLease_effect granted
  have sameDirs : db'.1.dirs = db₁.1.dirs := by rw [tables]
  have sameFiles : db'.1.files = db₁.1.files := by rw [tables]
  have sameBundles : db'.1.fileBundles = db₁.1.fileBundles := by rw [tables]
  obtain ⟨looked', -, -, lookup⟩ := CentralTx.getFileByPath_eq consistent request.path
  rcases UpdateRequest.fileForUpdate_cases taken with
    ⟨looked, found, -, -, same⟩ | ⟨looked, found, sameLooked, -, creating, -⟩
  · rw [same] at sameDirs sameFiles sameBundles
    refine of_kept ?_ sameDirs sameFiles sameBundles
    have isFile : db.1.fileByPath request.path = .ok file := by
      cases resolved : db.1.fileByPath request.path with
      | ok other =>
          rw [found, resolved] at lookup
          exact congrArg Except.ok (EStateM.Result.ok.inj lookup).1.symm
      | error err =>
          rw [found, resolved] at lookup
          cases lookup
    rw [Transaction.catalogOp, isFile]
    rfl
  · have within := ((CentralTx.getFileByPath_steady request.path).keeps db.1.dirs).endState
      ⟨consistent, rfl⟩
    rw [found, endState_error] at within
    obtain ⟨member, names, located, isPath⟩ :=
      ((CentralTx.createFile_agree request.path now).triple.ok (At.refl within.1)
        creating).2.fileAt
    obtain ⟨_, dirId, name, isFile, created⟩ := CentralTx.createFile_effect creating
    rw [sameLooked] at created isFile
    rw [created] at sameFiles sameBundles
    have isFound : db'.1.files.find? (db.1.files.seq + 1) = some file := by
      rw [sameFiles, isFile]
      exact find?_filesWith_new
    have fileAt : db'.1.FileAt request.path file := by
      refine ⟨(Table.mem_of_find? isFound).1, names, (dirAt_congr sameDirs).mpr located, isPath⟩
    have isNew : db.1.fileByPath request.path = .error .notFound := by
      cases resolved : db.1.fileByPath request.path with
      | ok other =>
          rw [found, resolved] at lookup
          cases lookup
      | error err =>
          rw [found, resolved] at lookup
          exact congrArg Except.error (EStateM.Result.error.inj lookup).1.symm
    have creates : (Transaction.beginUpdate request volumeId now).catalogOp db.1 =
        some (.create request.path ⟨0, []⟩) := by
      rw [Transaction.catalogOp, isNew]
      rfl
    refine .inr ⟨_, creates, putFree_catalog laws laws' ?_
      (fun other differs => entry_of_effect laws laws' dirs effect differs) ?_⟩
    · have empty : db'.1.fileContent (db.1.files.seq + 1) file.sizeBytes = ⟨0, []⟩ := by
        rw [fileContent, fileBundlesOf, sameBundles,
          referring.no_bundles (Nat.lt_succ_self _), isFile]
        rfl
      exact (laws'.entry_of_fileAt isFound fileAt).trans (by rw [empty])
    · rw [sameFiles]
      exact (Nat.max_eq_right (Nat.le_succ _)).symm

/-- The bundles of a file after a commit are those of the request. -/
theorem bundles_of_committed {request : CommitUpdateRequest} {now compressedSize : Nat}
    {lease : UpdateLeaseRow} {file : FileRow} {dir : String}
    (effect : UpdateCommitted before after request now lease file compressedSize dir) :
    (after.fileBundlesOf request.fileId).map FileBundleRow.bundleId =
      request.bundles.map CommittedBundle.bundleId := by
  have own := filter_eq_self_of_own request.fileId
    (bundleRowsFrom request.fileId 0 (request.bundles.map CommittedBundle.bundleId))
    fun row member => bundleRowsFrom_fileId member
  rw [fileBundlesOf, effect.bundles, List.filter_append, filter_filter_own, List.nil_append, own,
    (bundleRowsFrom_sorted _ _).insertionSort_eq, bundleRowsFrom_bundleIds]

theorem of_committed (consistent : Consistent db) (referring : db.1.Referring)
    {request : CommitUpdateRequest} {now leaseNow : Nat} {record : FileRecord}
    (ran : UpdateRequest.commitUpdateTx request now leaseNow db = .ok record db')
    (effect : (Transaction.commitUpdate request now).Effect db.1 db'.1) :
    CatalogStep db.1 db'.1 laws laws' (.commitUpdate request now) := by
  have dirs := (PlaceStep.of_committed consistent referring ran).dirs
  have others : ∀ other, other ≠ request.fileId → db'.1.entry other = db.1.entry other :=
    fun other differs => entry_of_effect laws laws' dirs effect differs
  obtain ⟨lease, file, compressedSize, dir, committed⟩ := effect
  have isFiles : db'.1.files = _ := congrArg CentralTables.files committed.others
  obtain ⟨path, fileAt⟩ := laws.exists_fileAt (Table.mem_of_find? committed.file_found).1
  have sameId := (Table.mem_of_find? committed.file_found).2
  have resized : db'.1.files.find? request.fileId =
      some (resizedTo request.fileId request.newSize compressedSize now file) := by
    rw [isFiles]
    exact find?_filesResized.trans (congrArg _ committed.file_found)
  have isRow : resizedTo request.fileId request.newSize compressedSize now file =
      { file with
        sizeBytes := request.newSize
        compressedSizeBytes := compressedSize
        updatedAtMs := now } := if_pos sameId
  rw [isRow] at resized
  have fileAt' : db'.1.FileAt path { file with
      sizeBytes := request.newSize
      compressedSizeBytes := compressedSize
      updatedAtMs := now } := by
    obtain ⟨-, names, located, isPath⟩ := fileAt
    exact ⟨(Table.mem_of_find? resized).1, names, dirs names _ located, isPath⟩
  refine .inr ⟨_, rfl, ?_⟩
  rw [Catalog.apply, show (db.1.catalog laws).entry request.fileId = _ from
    laws.entry_of_fileAt committed.file_found fileAt, Option.bind_some]
  refine putFree_catalog laws laws' ?_ others ?_
  · rw [laws'.entry_of_fileAt resized fileAt', fileContent, bundles_of_committed committed]
  · rw [isFiles]
    exact (Nat.max_eq_left (SeqTable.find?_le_seq committed.file_found)).symm

/-- The bundles of a copy are those of its source. -/
theorem bundles_of_copied (referring : before.Referring) {sourceFileId now dirId : Nat}
    {targetPath name : String} {source : FileRow} {target : String × String}
    (effect : FileCopied before after sourceFileId targetPath now source target dirId name) :
    (after.fileBundlesOf (before.files.seq + 1)).map FileBundleRow.bundleId =
      (before.fileBundlesOf sourceFileId).map FileBundleRow.bundleId := by
  have own := filter_eq_self_of_own (before.files.seq + 1)
    (copiedBundleRows before.fileBundles.rows sourceFileId (before.files.seq + 1))
    fun row member => copiedBundleRows_fileId member
  have copied : copiedBundleRows before.fileBundles.rows sourceFileId (before.files.seq + 1) =
      renumbered (before.files.seq + 1)
        (before.fileBundles.rows.filter fun row => row.fileId = sourceFileId) := rfl
  rw [fileBundlesOf, effect.bundles, List.filter_append,
    referring.no_bundles (Nat.lt_succ_self _), List.nil_append, own, copied,
    ← renumbered_insertionSort, renumbered, List.map_map]
  rfl

/-- The copy is at the target. -/
theorem copied_fileAt (consistent : Consistent db) {sourceFileId now : Nat} {targetPath : String}
    {record : FileRecord}
    (ran : ClientRequest.copyFileByIdTx sourceFileId targetPath now db = .ok record db') :
    ∃ file, db'.1.FileAt targetPath file ∧ file.fileId = db.1.files.seq + 1 := by
  obtain ⟨target, -, rest⟩ := lift_bind_eq_ok.mp ran
  obtain ⟨file, db₁, copied, rest⟩ := bind_eq_ok.mp rest
  obtain ⟨_, db₂, bundled, rest⟩ := bind_eq_ok.mp rest
  obtain ⟨_, db₃, logged, recorded⟩ := bind_eq_ok.mp rest
  obtain ⟨same, known, -, added⟩ := (CentralTx.copyFileById_agree sourceFileId targetPath
    now).triple.ok (At.refl consistent) copied
  obtain ⟨source, dirs, dirId, name, -, isFile, -⟩ := CentralTx.copyFileById_effect copied
  have tables : db'.1 = { db₁.1 with
      fileBundles := db'.1.fileBundles
      fileEvents := db'.1.fileEvents } := by
    rw [(CentralTx.fileRecord_readsOnly file).tables_eq recorded,
      CentralTx.insertFileChangeLog_effect logged, (CentralTx.copyFileBundles_effect bundled).1]
  obtain ⟨member, names, located, isPath⟩ := added.fileAt
  refine ⟨file, ⟨?_, names, ?_, isPath⟩, ?_⟩
  · rw [tables]
    exact member
  · exact (dirAt_congr (by rw [tables])).mpr located
  · rw [isFile]
    rfl

theorem of_copied (consistent : Consistent db) (referring : db.1.Referring)
    {sourceFileId now : Nat} {targetPath : String} {record : FileRecord}
    (ran : ClientRequest.copyFileByIdTx sourceFileId targetPath now db = .ok record db')
    (effect : (Transaction.copyFile sourceFileId targetPath now).Effect db.1 db'.1) :
    CatalogStep db.1 db'.1 laws laws' (.copyFile sourceFileId targetPath now) := by
  have dirs := (PlaceStep.of_copied consistent referring ran).dirs
  have others : ∀ other, other ≠ db.1.files.seq + 1 → db'.1.entry other = db.1.entry other :=
    fun other differs => entry_of_effect laws laws' dirs effect differs
  obtain ⟨source, target, dirId, name, copy⟩ := effect
  have isFiles : db'.1.files = _ := congrArg CentralTables.files copy.others
  obtain ⟨path, fileAt⟩ := laws.exists_fileAt (Table.mem_of_find? copy.source_found).1
  obtain ⟨file, fileAt', isNew⟩ := copied_fileAt consistent ran
  have found : db'.1.files.find? (db.1.files.seq + 1) = some file :=
    isNew ▸ Table.find?_isSome_of_mem fileAt'.1
  have size : file.sizeBytes = source.sizeBytes := by
    rw [Option.some.inj (found.symm.trans copy.copy_found)]
    rfl
  refine .inr ⟨_, rfl, ?_⟩
  rw [Catalog.apply, show (db.1.catalog laws).entry sourceFileId = _ from
    laws.entry_of_fileAt copy.source_found fileAt, Option.bind_some]
  refine putFree_catalog laws laws' ?_ others ?_
  · refine (laws'.entry_of_fileAt found fileAt').trans ?_
    rw [fileContent, bundles_of_copied referring copy, size]
    rfl
  · rw [isFiles]
    exact (Nat.max_eq_right (Nat.le_succ _)).symm

/-- The file that was renamed is at the target. -/
theorem renamed_fileAt (consistent : Consistent db) {fileId now : Nat} {targetPath : String}
    {record : FileRecord}
    (ran : ClientRequest.renameFileByIdTx fileId targetPath now db = .ok record db') :
    ∃ file, db'.1.FileAt targetPath file ∧ file.fileId = fileId := by
  obtain ⟨target, -, rest⟩ := lift_bind_eq_ok.mp ran
  obtain ⟨file, db₁, moving, rest⟩ := bind_eq_ok.mp rest
  obtain ⟨_, db₂, logged, recorded⟩ := bind_eq_ok.mp rest
  have moved := ((CentralTx.renameFileById_agree fileId targetPath now).triple.ok
    (At.refl consistent) moving).2
  obtain ⟨old, dirs, dirId, name, -, found, -⟩ := CentralTx.renameFileById_effect moving
  have tables : db'.1 = { db₁.1 with fileEvents := db'.1.fileEvents } := by
    rw [(CentralTx.fileRecord_readsOnly file).tables_eq recorded,
      CentralTx.insertFileChangeLog_effect logged]
  obtain ⟨member, names, located, isPath⟩ := moved.fileAt
  refine ⟨file, ⟨?_, names, ?_, isPath⟩, (Table.mem_of_find? found).2⟩
  · rw [tables]
    exact member
  · exact (dirAt_congr (by rw [tables])).mpr located

theorem of_renamed (consistent : Consistent db) (referring : db.1.Referring)
    {fileId now : Nat} {targetPath : String} {record : FileRecord}
    (ran : ClientRequest.renameFileByIdTx fileId targetPath now db = .ok record db')
    (effect : (Transaction.renameFile fileId targetPath now).Effect db.1 db'.1) :
    CatalogStep db.1 db'.1 laws laws' (.renameFile fileId targetPath now) := by
  have dirs := (PlaceStep.of_renamed consistent referring ran).dirs
  have others : ∀ other, other ≠ fileId → db'.1.entry other = db.1.entry other :=
    fun other differs => entry_of_effect laws laws' dirs effect differs
  obtain ⟨old, target, dirId, name, moved⟩ := effect
  have isFiles : db'.1.files = _ := congrArg CentralTables.files moved.others
  have sameBundles : db'.1.fileBundles = db.1.fileBundles := by rw [moved.others]
  obtain ⟨path, fileAt⟩ := laws.exists_fileAt (Table.mem_of_find? moved.file_found).1
  have sameId := (Table.mem_of_find? moved.file_found).2
  obtain ⟨file, fileAt', isRenamed⟩ := renamed_fileAt consistent ran
  have found : db'.1.files.find? fileId = some file :=
    isRenamed ▸ Table.find?_isSome_of_mem fileAt'.1
  have size : file.sizeBytes = old.sizeBytes := by
    have isRow : db'.1.files.find? fileId = some (movedTo fileId dirId name now old) := by
      rw [isFiles]
      exact find?_filesMoved.trans (congrArg _ moved.file_found)
    rw [Option.some.inj (found.symm.trans isRow), movedTo, if_pos sameId]
  refine .inr ⟨_, rfl, ?_⟩
  rw [Catalog.apply, show (db.1.catalog laws).entry fileId = _ from
    laws.entry_of_fileAt moved.file_found fileAt, Option.bind_some]
  refine putFree_catalog laws laws' ?_ others ?_
  · rw [laws'.entry_of_fileAt found fileAt', fileContent, fileBundlesOf, sameBundles, size]
    rfl
  · rw [isFiles]
    exact (Nat.max_eq_left (SeqTable.find?_le_seq moved.file_found)).symm

end CatalogStep

/-- A transaction from a consistent database is the operation it asks for, or none. -/
theorem Transaction.Leads.catalogStep {db db' : CentralDb} {tx : Transaction}
    (leads : tx.Leads db db') (consistent : Consistent db) (referring : db.1.Referring)
    (laws : db.1.Namespace) (laws' : db'.1.Namespace) : CatalogStep db.1 db'.1 laws laws' tx := by
  have effect := leads.ran.effect
  cases tx with
  | beginUpdate request volumeId now =>
      obtain ⟨lease, ran⟩ := leads
      exact .of_begun consistent referring ran effect
  | commitUpdate request now =>
      obtain ⟨leaseNow, record, ran⟩ := leads
      exact .of_committed consistent referring ran effect
  | deleteFile fileId now => exact .of_deleted effect
  | copyFile sourceFileId targetPath now =>
      obtain ⟨record, ran⟩ := leads
      exact .of_copied consistent referring ran effect
  | renameFile fileId targetPath now =>
      obtain ⟨record, ran⟩ := leads
      exact .of_renamed consistent referring ran effect
  | dropLease leaseId =>
      have others : db'.1 = _ := effect
      exact .of_kept rfl (by rw [others]) (by rw [others]) (by rw [others])
  | abortUpdate leaseId fileId =>
      have others : db'.1 = _ := effect.2
      exact .of_kept rfl (by rw [others]) (by rw [others]) (by rw [others])
  | registerVolumes volumes =>
      have others : db'.1 = { db.1 with volumes := db'.1.volumes } := effect
      exact .of_kept rfl (by rw [others]) (by rw [others]) (by rw [others])
  | createVolume name maxBytes =>
      have others : db'.1 = _ := effect
      exact .of_kept rfl (by rw [others]) (by rw [others]) (by rw [others])
  | reportReplicas events =>
      have others := effect.others
      exact .of_kept rfl (by rw [others]) (by rw [others]) (by rw [others])
  | updateVolumeOffset volumeId maxVolumeOffset =>
      have others := effect.others
      exact .of_kept rfl (by rw [others]) (by rw [others]) (by rw [others])

/-! ## Sections -/

/-- A transaction on files. -/
def Transaction.OnFiles : Transaction → Prop
  | .beginUpdate _ _ _ => True
  | .commitUpdate _ _ => True
  | .deleteFile _ _ => True
  | .copyFile _ _ _ => True
  | .renameFile _ _ _ => True
  | _ => False

theorem Transaction.catalogOp_of_other {tx : Transaction} (other : ¬ tx.OnFiles)
    (tables : CentralTables) : tx.catalogOp tables = none := by
  cases tx with
  | beginUpdate request volumeId now => exact absurd trivial other
  | commitUpdate request now => exact absurd trivial other
  | deleteFile fileId now => exact absurd trivial other
  | copyFile sourceFileId targetPath now => exact absurd trivial other
  | renameFile fileId targetPath now => exact absurd trivial other
  | _ => rfl

/-- A section that ends with one transaction, which does what is asked for. -/
def Transacts (tx : Transaction) (commit : Option Fs0Error) (m : CentralM Progress) : Prop :=
  ∃ (α : Type) (body : CentralTx α) (next : α → Progress),
    (m = do
      let a ← CentralM.transact commit body
      pure (next a)) ∧
    ∀ before a after, body before = .ok a after → tx.Leads before after

section Sections

variable {config : CentralConfig} {inputs : Inputs} {connection : Nat}
  {identity : ControlConnectionIdentity} {handler : Handler} {tx : Transaction}

theorem transacts_deleteFileById (fileId : Nat) : Transacts (.deleteFile fileId inputs.now)
    inputs.commit (CentralM.responding (ClientRequest.deleteFileById inputs.commit inputs.now fileId)) := by
  refine ⟨_, ClientRequest.deleteFileByIdTx fileId inputs.now, fun _ => .respond .deleteFileById, ?_,
    fun _ _ _ ran => ran⟩
  simp only [CentralM.responding, ClientRequest.deleteFileById, bind_assoc, pure_bind]

theorem transacts_copyFileById (sourceFileId : Nat) (targetPath : String) :
    Transacts (.copyFile sourceFileId targetPath inputs.now) inputs.commit (CentralM.responding
      (ClientRequest.copyFileById inputs.commit inputs.now sourceFileId targetPath)) := by
  refine ⟨_, ClientRequest.copyFileByIdTx sourceFileId targetPath inputs.now,
    fun record => .respond (.copyFileById record), ?_, fun _ record _ ran => ⟨record, ran⟩⟩
  simp only [CentralM.responding, ClientRequest.copyFileById, bind_assoc, pure_bind]

theorem transacts_renameFileById (fileId : Nat) (targetPath : String) :
    Transacts (.renameFile fileId targetPath inputs.now) inputs.commit (CentralM.responding
      (ClientRequest.renameFileById inputs.commit inputs.now fileId targetPath)) := by
  refine ⟨_, ClientRequest.renameFileByIdTx fileId targetPath inputs.now,
    fun record => .respond (.renameFileById record), ?_, fun _ record _ ran => ⟨record, ran⟩⟩
  simp only [CentralM.responding, ClientRequest.renameFileById, bind_assoc, pure_bind]

/-- The section of a transaction on files is that transaction. -/
theorem Handler.transacts (isTx : handler.transaction inputs identity = some tx)
    (onFiles : tx.OnFiles) :
    Transacts tx inputs.commit (handler.resume config inputs connection identity) := by
  cases handler with
  | start request =>
      cases identity with
      | client clientId =>
          cases request with
          | deleteFileById fileId =>
              obtain rfl := Option.some.inj isTx
              exact transacts_deleteFileById fileId
          | copyFileById sourceFileId targetPath =>
              obtain rfl := Option.some.inj isTx
              exact transacts_copyFileById sourceFileId targetPath
          | renameFileById fileId targetPath =>
              obtain rfl := Option.some.inj isTx
              exact transacts_renameFileById fileId targetPath
          | _ => cases isTx <;> exact absurd onFiles id
      | _ => cases request <;> cases isTx <;> exact absurd onFiles id
  | deleteFileById fileId =>
      obtain rfl := Option.some.inj isTx
      exact transacts_deleteFileById fileId
  | copyFileById sourceFileId targetPath =>
      obtain rfl := Option.some.inj isTx
      exact transacts_copyFileById sourceFileId targetPath
  | renameFileById fileId targetPath =>
      obtain rfl := Option.some.inj isTx
      exact transacts_renameFileById fileId targetPath
  | beginUpdate request storageId volumeId =>
      obtain rfl := Option.some.inj isTx
      exact ⟨_, _, _, rfl, fun _ lease _ ran => ⟨lease, ran⟩⟩
  | commitUpdate request storageId =>
      obtain rfl := Option.some.inj isTx
      exact ⟨_, _, _, rfl, fun _ record _ ran => ⟨_, record, ran⟩⟩
  | _ => cases isTx <;> exact absurd onFiles id

/-- A section that succeeds has carried its transaction out, and one that fails has left the
tables as they were. -/
theorem Transacts.ends {commit : Option Fs0Error} {m : CentralM Progress}
    (transacts : Transacts tx commit m) (server : CentralServer) :
    (∃ progress server', m server = .ok progress server' ∧ tx.Leads server.db server'.db) ∨
      ∃ err server', m server = .error err server' ∧ server'.db.1 = server.db.1 := by
  obtain ⟨α, body, next, rfl, leads⟩ := transacts
  cases ran : CentralM.transact commit body server with
  | ok a server' =>
      obtain ⟨-, db, computed, rfl⟩ := CentralM.transact_eq_ok ran
      exact .inl ⟨next a, _, bind_eq_ok.mpr ⟨a, _, ran, rfl⟩, leads _ _ _ computed⟩
  | error err server' =>
      refine .inr ⟨err, server', bind_of_error ran, ?_⟩
      rw [CentralM.transact_eq_error ran]

end Sections

/-! ## Runs -/

/-- The operation that an event carries out on the catalog: that of the transaction of its
section, unless the section fails. -/
def Central.catalogOp (config : CentralConfig) (s : Central) :
    CentralEvent → Option (CatalogOp String FileContent)
  | .run connection inputs => do
      let conn ← s.connections.find? connection
      let handling ← conn.handling
      let tx ← handling.handler.transaction inputs conn.identity
      let _ ← (outcome (handling.handler.resume config inputs connection conn.identity
        s.server)).toOption
      tx.catalogOp s.tables
  | _ => none

/-- The tables of central describe a catalog. -/
structure Describes (s : Central) (c : Catalog String FileContent) : Prop where
  consistent : Consistent s.server.db
  referring : s.tables.Referring
  catalog : c = s.tables.catalog consistent.laws

variable {config : CentralConfig} {s s' : Central} {e : CentralEvent}

/-- The operation of an event whose section succeeds, or fails. -/
theorem Central.Runs.catalogOp_eq {connection : Nat} {inputs : Inputs} {conn : ControlConnection}
    {handling : Handling} {result : EStateM.Result Fs0Error CentralServer Progress}
    (runs : Central.Runs config s connection inputs conn handling result) :
    s.catalogOp config (.run connection inputs) =
      (s.transaction (.run connection inputs)).bind fun tx =>
        (outcome result).toOption.bind fun _ => tx.catalogOp s.tables := by
  rw [runs.transaction_eq, ← runs.ran]
  simp only [Central.catalogOp, runs.found, runs.handles, Option.bind_eq_bind, Option.bind_some]

/-- A step whose event carries no transaction on files out leaves the catalog as it is. -/
theorem Central.catalog_kept (consistent : Consistent s.server.db)
    (kept : ¬ s.LosesDir e) (taken : (central config).step s e = some s')
    (referring : s.tables.Referring)
    (other : ∀ tx, s.transaction e = some tx → ¬ tx.OnFiles) :
    s.catalogOp config e = none ∧ ∃ consistent' : Consistent s'.server.db,
      s'.tables.Referring ∧ s'.tables.catalog consistent'.laws = s.tables.catalog consistent.laws := by
  constructor
  · cases e with
    | run connection inputs =>
        obtain ⟨conn, handling, result, runs, -⟩ := Central.step_run taken
        rw [runs.catalogOp_eq]
        cases isTx : s.transaction (.run connection inputs) with
        | none => rfl
        | some tx =>
            rw [Option.bind_some, Transaction.catalogOp_of_other (other tx isTx)]
            cases (outcome result).toOption <;> rfl
    | _ => rfl
  · obtain ⟨consistent', changed⟩ := Central.step_sound consistent kept taken
    refine ⟨consistent', ?_⟩
    rcases changed with same | ⟨tx, isTx, leads⟩
    · have same : s'.tables = s.tables := same
      refine ⟨same ▸ referring, Catalog.ext (congrArg CentralTables.entry same) ?_⟩
      exact congrArg (fun tables => tables.files.seq) same
    · refine ⟨referring.preserved (CentralTables.fileStep_of_effect leads.ran.effect), ?_⟩
      rcases leads.catalogStep consistent referring consistent.laws consistent'.laws with
        ⟨-, same⟩ | ⟨op, isOp, -⟩
      · exact same
      · rw [Transaction.catalogOp_of_other (other tx isTx)] at isOp
        cases isOp

/-- Central refines the catalog of files, as long as no `COMMIT` fails after its copy or rename
has made a directory. -/
theorem Central.refinement (config : CentralConfig) :
    Refinement (central config) (Lib.catalog String FileContent) (fun s e => ¬ s.LosesDir e)
      (Central.catalogOp config) Describes where
  init := by
    rintro _ rfl
    refine ⟨.empty, rfl, open_consistent, CentralTables.initial_referring, ?_⟩
    exact Catalog.ext rfl rfl
  step := by
    rintro s _ e s' ⟨consistent, referring, rfl⟩ kept taken
    by_cases onFiles : ∃ tx, s.transaction e = some tx ∧ tx.OnFiles
    case neg =>
      obtain ⟨silent, consistent', referring', same⟩ := Central.catalog_kept consistent kept taken
        referring fun tx isTx files => onFiles ⟨tx, isTx, files⟩
      exact ⟨_, ⟨consistent', referring', rfl⟩, .inl ⟨silent, same⟩⟩
    obtain ⟨tx, isTx, files⟩ := onFiles
    obtain ⟨consistent', -⟩ := Central.step_sound consistent kept taken
    cases e with
    | run connection inputs =>
        obtain ⟨conn, handling, result, runs, rfl⟩ := Central.step_run taken
        have label := runs.catalogOp_eq
        rw [isTx, Option.bind_some] at label
        have transacts : Transacts tx inputs.commit
            (handling.handler.resume config inputs connection conn.identity) :=
          Handler.transacts (runs.transaction_eq.symm.trans isTx) files
        rcases transacts.ends s.server with
          ⟨progress, server, ran, leads⟩ | ⟨err, server, ran, same⟩
        · obtain rfl := runs.ran.symm.trans ran
          have after : (s.advance config conn handling.stream (.ok progress server)).server = server :=
            Central.advance_server ..
          rw [← after] at leads
          refine ⟨_, ⟨consistent', referring.preserved
            (CentralTables.fileStep_of_effect leads.ran.effect), rfl⟩, ?_⟩
          rw [label]
          exact leads.catalogStep consistent referring consistent.laws consistent'.laws
        · obtain rfl := runs.ran.symm.trans ran
          have after : (s.advance config conn handling.stream (.error err server)).tables = s.tables :=
            (congrArg (fun server => server.db.1) (Central.advance_server ..)).trans same
          refine ⟨_, ⟨consistent', after ▸ referring, rfl⟩, .inl ⟨label, ?_⟩⟩
          exact Catalog.ext (congrArg CentralTables.entry after)
            (congrArg (fun tables => tables.files.seq) after)
    | _ => cases isTx

/-- A path leads to the file whose entry has it. -/
theorem Describes.lookup {s : Central} {c : Catalog String FileContent} (describes : Describes s c)
    (path : String) (fileId : Nat) :
    (∃ file, outcome (CentralTx.getFileByPath path s.server.db) = .ok file ∧
      file.fileId = fileId) ↔ ∃ x, c.entry fileId = some x ∧ x.place = path := by
  obtain ⟨consistent, -, rfl⟩ := describes
  have laws := consistent.laws
  obtain ⟨db', -, -, looked⟩ := CentralTx.getFileByPath_eq consistent path
  have found {file : FileRow} : outcome (CentralTx.getFileByPath path s.server.db) = .ok file ↔
      s.tables.FileAt path file := by
    refine Iff.trans ?_ laws.fileByPath_eq_ok
    rw [looked]
    cases s.server.db.1.fileByPath path <;> rfl
  constructor
  · rintro ⟨file, isFound, rfl⟩
    have fileAt := found.mp isFound
    exact ⟨_, laws.entry_of_fileAt (Table.find?_isSome_of_mem fileAt.1) fileAt, rfl⟩
  · rintro ⟨x, held, rfl⟩
    obtain ⟨file, isFile, fileAt, -⟩ := laws.fileAt_of_entry held
    exact ⟨file, found.mpr fileAt, (Table.mem_of_find? isFile).2⟩

/-- What central shows of its files is what the catalog holds: the paths, sizes and bundle lists,
the numbers that were given out, and the file that each path leads to. -/
structure Shows (s : Central) (c : Catalog String FileContent) : Prop where
  entry : c.entry = s.tables.entry
  used : c.used = s.tables.files.seq
  lookup : ∀ path fileId, (∃ file, outcome (CentralTx.getFileByPath path s.server.db) = .ok file ∧
    file.fileId = fileId) ↔ ∃ x, c.entry fileId = some x ∧ x.place = path

theorem Describes.shows {s : Central} {c : Catalog String FileContent}
    (describes : Describes s c) : Shows s c := by
  refine ⟨?_, ?_, describes.lookup⟩ <;> rw [describes.catalog] <;> rfl

/-- In every run in which no `COMMIT` fails after its copy or rename has made a directory,
central is a catalog of files: its states go alongside those of one run of the catalog, whose
operations are those of the transactions that commit, each once and in their order; and the
number of a file that is gone names no file again. -/
theorem catalog_of_run {ts : List (Transition Central CentralEvent)}
    (run : (central config).Run ts s) (kept : ∀ t ∈ ts, ¬ t.pre.LosesDir t.event) :
    (∃ us c, (Lib.catalog String FileContent).Run us c ∧
      Alongside (Central.catalogOp config) Shows ts s us c) ∧
    ∀ later t earlier, ts = later ++ t :: earlier → ∀ fileId,
      fileId ≤ t.post.tables.files.seq → t.post.tables.entry fileId = none →
      s.tables.entry fileId = none := by
  obtain ⟨us, c, specRun, described⟩ := (Central.refinement config).run run kept
  have runs := described.mono fun _ _ => Describes.shows
  refine ⟨⟨us, c, specRun, runs⟩, ?_⟩
  rintro later t earlier rfl fileId known absent
  have gone : c.Gone fileId := by
    refine runs.since (P := fun c => c.Gone fileId)
      (fun c op c' isGone isNext => isGone.apply isNext) specRun ?_
    rintro other ⟨entry, used, -⟩
    rw [Catalog.Gone, used, entry]
    exact ⟨known, absent⟩
  rw [← runs.related.entry]
  exact gone.2

namespace Scenario

/-- A file is copied into a new directory and then renamed, the copy is deleted, and another
file is created in its place. -/
def cataloged : List CentralEvent :=
  registered ++ request 1 3 4 2 (.beginUpdate ⟨"/f", 0, none, none⟩) ++
    request 1 4 1 3 (.copyFileById 1 "/a/g") ++ request 1 5 1 4 (.renameFileById 1 "/b/f") ++
    request 1 6 1 5 (.deleteFileById 2) ++
    request 1 7 2 6 (.beginUpdate ⟨"/a/g", 0, none, none⟩)

end Scenario

theorem catalog_of_run_copied : ∃ ts s us c, (central Scenario.config).Run ts s ∧
    (Lib.catalog String FileContent).Run us c ∧
    Alongside (Central.catalogOp Scenario.config) Shows ts s us c ∧
    (∃ x, c.entry 1 = some x ∧ x.place = "/b/f") ∧ (∃ x, c.entry 3 = some x ∧ x.place = "/a/g") ∧
    c.entry 2 = none := by
  obtain ⟨ts, s, run, kept, ends⟩ := Scenario.run_of_execWhile Scenario.keepsDirs
    Scenario.cataloged
    (fun s => ((outcome (CentralTx.getFileByPath "/b/f" s.server.db)).toOption.map
      FileRow.fileId, (outcome (CentralTx.getFileByPath "/a/g" s.server.db)).toOption.map
      FileRow.fileId, (s.tables.files.find? 2).isNone)) (some 1, some 3, true) (by decide +kernel)
  obtain ⟨⟨us, c, specRun, runs⟩, -⟩ := catalog_of_run run fun t member =>
    Scenario.not_losesDir (kept t member)
  have located {path : String} {fileId : Nat}
      (isId : (outcome (CentralTx.getFileByPath path s.server.db)).toOption.map FileRow.fileId =
        some fileId) : ∃ x, c.entry fileId = some x ∧ x.place = path := by
    refine (runs.related.lookup path fileId).mp ?_
    cases looked : outcome (CentralTx.getFileByPath path s.server.db) with
    | error err =>
        rw [looked] at isId
        cases isId
    | ok file =>
        rw [looked] at isId
        exact ⟨file, rfl, Option.some.inj isId⟩
  obtain ⟨first, rest⟩ := Prod.mk.inj ends
  obtain ⟨third, second⟩ := Prod.mk.inj rest
  refine ⟨ts, s, us, c, run, specRun, runs, located first, located third, ?_⟩
  rw [runs.related.entry]
  exact CentralTables.entry_of_absent (Option.isNone_iff_eq_none.mp second)

end Fs0
