import Fs0.Central.NamespaceOps

/-!
Contract: what the operations on files do to the tables and to the namespace.

Owns:
- the rows each operation changes when it succeeds, whatever the cache holds;
- that every operation keeps the laws of the namespace and the validity of the
  cache, whether or not it fails, and cannot tell one valid cache from another.

Does not own: the transactions these operations run in.
-/

set_option autoImplicit false

namespace Fs0

open Lib Fallible

/-! ## Statements on file rows -/

namespace CentralTables

variable {tables tables' : CentralTables}

/-- The row `INSERT INTO files` builds for a number. -/
def newFile (dirId : Nat) (name : String) (sizeBytes compressedSizeBytes now fileId : Nat) :
    FileRow :=
  ⟨fileId, dirId, name, sizeBytes, compressedSizeBytes, now, now⟩

theorem insertFile_eq_ok {dirId sizeBytes compressedSizeBytes now fileId : Nat} {name : String}
    (inserted : tables.insertFile dirId name sizeBytes compressedSizeBytes now =
      .ok (fileId, tables')) :
    tables.childFile dirId name = none ∧ tables.IsDir dirId ∧ tables.files.seq < i64Max ∧
      fileId = tables.files.seq + 1 ∧
      tables' = { tables with
        files := tables.files.push (newFile dirId name sizeBytes compressedSizeBytes now)
          (fun _ => rfl) } := by
  unfold insertFile at inserted
  split at inserted
  · cases inserted
  next free =>
    split at inserted
    · cases inserted
    next present =>
      split at inserted
      · cases inserted
      next pushed =>
        cases inserted
        obtain ⟨room, rfl, rfl⟩ := pushRow_eq_ok.mp pushed
        refine ⟨by simpa using free, ?_, room, rfl, rfl⟩
        obtain ⟨dir, found⟩ := Option.ne_none_iff_exists'.mp (by simpa using present)
        obtain ⟨member, same⟩ := Table.mem_of_find? found
        exact ⟨dir, member, same⟩

/-- A file row under another name. -/
def movedTo (fileId dirId : Nat) (name : String) (updatedAtMs : Nat) (file : FileRow) : FileRow :=
  if file.fileId = fileId then
    { file with dirId := dirId, name := name, updatedAtMs := updatedAtMs }
  else file

theorem movedTo_fileId (fileId dirId : Nat) (name : String) (updatedAtMs : Nat) (file : FileRow) :
    (movedTo fileId dirId name updatedAtMs file).fileId = file.fileId := by
  unfold movedTo
  split <;> rfl

theorem moveFile_eq_ok {fileId dirId updatedAtMs changes : Nat} {name : String}
    (moved : tables.moveFile fileId dirId name updatedAtMs = .ok (changes, tables'))
    (changed : changes ≠ 0) :
    (∃ file, tables.files.find? fileId = some file) ∧
      (∀ file, tables.childFile dirId name = some file → file.fileId = fileId) ∧
      tables.IsDir dirId ∧
      tables' = { tables with
        files := tables.files.update (movedTo fileId dirId name updatedAtMs)
          (movedTo_fileId fileId dirId name updatedAtMs) } := by
  unfold moveFile at moved
  split at moved
  · cases moved
    exact absurd rfl changed
  next known =>
    split at moved
    · cases moved
    next own =>
      split at moved
      · cases moved
      next present =>
        cases moved
        refine ⟨Option.ne_none_iff_exists'.mp (by simpa using known), ?_, ?_, rfl⟩
        · intro file found
          simpa [found] using own
        · obtain ⟨dir, found⟩ := Option.ne_none_iff_exists'.mp (by simpa using present)
          obtain ⟨member, same⟩ := Table.mem_of_find? found
          exact ⟨dir, member, same⟩

theorem moveFile_unchanged {fileId dirId updatedAtMs : Nat} {name : String}
    (moved : tables.moveFile fileId dirId name updatedAtMs = .ok (0, tables')) :
    tables' = tables := by
  unfold moveFile at moved
  split at moved
  · cases moved
    rfl
  · split at moved
    · cases moved
    · split at moved <;> cases moved

/-- A file row of another size. -/
def resizedTo (fileId sizeBytes compressedSizeBytes updatedAtMs : Nat) (file : FileRow) : FileRow :=
  if file.fileId = fileId then
    { file with
      sizeBytes := sizeBytes
      compressedSizeBytes := compressedSizeBytes
      updatedAtMs := updatedAtMs }
  else file

theorem resizedTo_fileId (fileId sizeBytes compressedSizeBytes updatedAtMs : Nat)
    (file : FileRow) :
    (resizedTo fileId sizeBytes compressedSizeBytes updatedAtMs file).fileId = file.fileId := by
  unfold resizedTo
  split <;> rfl

theorem resizeFile_eq_ok {fileId sizeBytes compressedSizeBytes updatedAtMs changes : Nat}
    (resized : tables.resizeFile fileId sizeBytes compressedSizeBytes updatedAtMs =
      .ok (changes, tables')) (changed : changes ≠ 0) :
    (∃ file, tables.files.find? fileId = some file) ∧
      tables' = { tables with
        files := tables.files.update (resizedTo fileId sizeBytes compressedSizeBytes updatedAtMs)
          (resizedTo_fileId fileId sizeBytes compressedSizeBytes updatedAtMs) } := by
  unfold resizeFile at resized
  split at resized
  · cases resized
    exact absurd rfl changed
  next known =>
    cases resized
    exact ⟨Option.ne_none_iff_exists'.mp (by simpa using known), rfl⟩

theorem deleteFile_eq_ok {fileId changes : Nat}
    (deleted : tables.deleteFile fileId = .ok (changes, tables')) (changed : changes ≠ 0) :
    (∃ file, tables.files.find? fileId = some file) ∧
      tables' = { tables with
        files := tables.files.delete fun file => file.fileId == fileId
        fileBundles := tables.fileBundles.delete fun row => row.fileId == fileId
        updateLeases := tables.updateLeases.delete fun lease => lease.fileId == fileId } := by
  unfold deleteFile at deleted
  split at deleted
  · cases deleted
    exact absurd rfl changed
  next known =>
    cases deleted
    exact ⟨Option.ne_none_iff_exists'.mp (by simpa using known), rfl⟩

theorem deleteFile_cases {fileId changes : Nat}
    (deleted : tables.deleteFile fileId = .ok (changes, tables')) :
    tables' = tables ∨ tables' = { tables with
      files := tables.files.delete fun file => file.fileId == fileId
      fileBundles := tables.fileBundles.delete fun row => row.fileId == fileId
      updateLeases := tables.updateLeases.delete fun lease => lease.fileId == fileId } := by
  unfold deleteFile at deleted
  split at deleted <;> cases deleted
  · exact .inl rfl
  · exact .inr rfl

theorem insertFileEvent_eq_ok {eventType : FileChangeLogKind}
    {newTarget : Option (String × String)} {fileId : Option Nat} {createdAtMs eventId : Nat}
    (inserted : tables.insertFileEvent eventType newTarget fileId createdAtMs =
      .ok (eventId, tables')) :
    eventId = tables.fileEvents.seq + 1 ∧
      tables' = { tables with
        fileEvents := tables.fileEvents.push
          (fun eventId => ⟨eventId, eventType, newTarget.map Prod.fst, newTarget.map Prod.snd,
            fileId, createdAtMs⟩) (fun _ => rfl) } := by
  unfold insertFileEvent at inserted
  split at inserted
  · cases inserted
  next pushed =>
    cases inserted
    obtain ⟨-, rfl, rfl⟩ := pushRow_eq_ok.mp pushed
    exact ⟨rfl, rfl⟩

/-! ## The laws of the namespace -/

theorem Namespace.insertFile (laws : tables.Namespace)
    {dirId sizeBytes compressedSizeBytes now fileId : Nat} {name : String} (valid : ValidName name)
    (noDir : tables.childDir dirId name = none)
    (inserted : tables.insertFile dirId name sizeBytes compressedSizeBytes now =
      .ok (fileId, tables')) : tables'.Namespace := by
  obtain ⟨noFile, isDir, room, -, rfl⟩ := insertFile_eq_ok inserted
  have noFile' := childFile_eq_none.mp noFile
  constructor
  case toDirTree =>
      obtain ⟨rootMem, rootOnly, parentMem, parentLt, nameValid, nameUnique, idFits⟩ :=
        laws.toDirTree
      exact ⟨rootMem, rootOnly, parentMem, parentLt, nameValid, nameUnique, idFits⟩
  case file_dir =>
      intro file member
      rcases mem_appended.mp member with old | rfl
      · exact laws.file_dir file old
      · exact isDir
  case file_name_valid =>
      intro file member
      rcases mem_appended.mp member with old | rfl
      · exact laws.file_name_valid file old
      · exact valid
  case file_name_unique =>
      intro left leftMem right rightMem sameDir sameName
      rcases mem_appended.mp leftMem with leftOld | rfl <;>
        rcases mem_appended.mp rightMem with rightOld | rfl
      · exact laws.file_name_unique left leftOld right rightOld sameDir sameName
      · exact absurd sameName (noFile' left leftOld sameDir)
      · exact absurd sameName.symm (noFile' right rightOld sameDir.symm)
      · rfl
  case file_not_dir =>
      intro file member child edge
      rcases mem_appended.mp member with old | rfl
      · exact laws.file_not_dir file old child edge
      · exact laws.childDir_eq_none.mp noDir child edge
  case file_seq_fits => exact room

theorem Namespace.moveFile (laws : tables.Namespace) {fileId dirId updatedAtMs changes : Nat}
    {name : String} (valid : ValidName name) (noDir : tables.childDir dirId name = none)
    (moved : tables.moveFile fileId dirId name updatedAtMs = .ok (changes, tables')) :
    tables'.Namespace := by
  by_cases changed : changes = 0
  · subst changed
    rw [moveFile_unchanged moved]
    exact laws
  obtain ⟨-, own, isDir, rfl⟩ := moveFile_eq_ok moved changed
  have ownName : ∀ file ∈ tables.files.rows, file.dirId = dirId → file.name = name →
      file.fileId = fileId := fun file member inDir named =>
    own file (laws.childFile_eq_some.mpr ⟨member, inDir, named⟩)
  constructor
  case toDirTree =>
      obtain ⟨rootMem, rootOnly, parentMem, parentLt, nameValid, nameUnique, idFits⟩ :=
        laws.toDirTree
      exact ⟨rootMem, rootOnly, parentMem, parentLt, nameValid, nameUnique, idFits⟩
  case file_dir =>
      intro file member
      obtain ⟨old, oldMem, rfl⟩ := List.mem_map.mp member
      unfold movedTo
      split
      · exact isDir
      · exact laws.file_dir old oldMem
  case file_name_valid =>
      intro file member
      obtain ⟨old, oldMem, rfl⟩ := List.mem_map.mp member
      unfold movedTo
      split
      · exact valid
      · exact laws.file_name_valid old oldMem
  case file_name_unique =>
      intro left leftMem right rightMem sameDir sameName
      obtain ⟨l, lMem, rfl⟩ := List.mem_map.mp leftMem
      obtain ⟨r, rMem, rfl⟩ := List.mem_map.mp rightMem
      by_cases lIs : l.fileId = fileId <;> by_cases rIs : r.fileId = fileId
      · rw [Table.eq_of_key_eq lMem rMem (lIs.trans rIs.symm)]
      · simp only [movedTo, lIs, rIs, if_true, if_false] at sameDir sameName
        exact absurd (ownName r rMem sameDir.symm sameName.symm) rIs
      · simp only [movedTo, lIs, rIs, if_true, if_false] at sameDir sameName
        exact absurd (ownName l lMem sameDir sameName) lIs
      · simp only [movedTo, lIs, rIs, if_false] at sameDir sameName ⊢
        exact laws.file_name_unique l lMem r rMem sameDir sameName
  case file_not_dir =>
      intro file member child edge
      obtain ⟨old, oldMem, rfl⟩ := List.mem_map.mp member
      unfold movedTo at edge
      split at edge
      · exact laws.childDir_eq_none.mp noDir child edge
      · exact laws.file_not_dir old oldMem child edge
  case file_seq_fits => exact laws.file_seq_fits

/-- Dropping files and rewriting what is not their place keep the laws. -/
theorem Namespace.filesSubset (laws : tables.Namespace) (dirs : tables'.dirs = tables.dirs)
    (seq : tables'.files.seq ≤ i64Max)
    (files : ∀ file ∈ tables'.files.rows, ∃ old ∈ tables.files.rows,
      old.fileId = file.fileId ∧ old.dirId = file.dirId ∧ old.name = file.name) :
    tables'.Namespace := by
  have edges : tables'.DirEdge = tables.DirEdge := by
    funext parent name child
    simp only [DirEdge, dirs]
  have isDir : tables'.IsDir = tables.IsDir := by
    funext dirId
    simp only [IsDir, dirs]
  constructor
  case toDirTree =>
      obtain ⟨rootMem, rootOnly, parentMem, parentLt, nameValid, nameUnique, idFits⟩ :=
        laws.toDirTree
      constructor <;> (simp only [isDir, dirs] at *; assumption)
  case file_dir =>
      intro file member
      obtain ⟨old, oldMem, -, sameDir, -⟩ := files file member
      rw [isDir, ← sameDir]
      exact laws.file_dir old oldMem
  case file_name_valid =>
      intro file member
      obtain ⟨old, oldMem, -, -, sameName⟩ := files file member
      rw [← sameName]
      exact laws.file_name_valid old oldMem
  case file_name_unique =>
      intro left leftMem right rightMem sameDir sameName
      obtain ⟨l, lMem, lId, lDir, lName⟩ := files left leftMem
      obtain ⟨r, rMem, rId, rDir, rName⟩ := files right rightMem
      have sameOld := laws.file_name_unique l lMem r rMem (by rw [lDir, rDir, sameDir])
        (by rw [lName, rName, sameName])
      exact Table.eq_of_key_eq leftMem rightMem (by rw [← lId, ← rId, sameOld])
  case file_not_dir =>
      intro file member child edge
      obtain ⟨old, oldMem, -, sameDir, sameName⟩ := files file member
      rw [edges, ← sameDir, ← sameName] at edge
      exact laws.file_not_dir old oldMem child edge
  case file_seq_fits => exact seq

theorem Namespace.deleteFile (laws : tables.Namespace) {fileId changes : Nat}
    (deleted : tables.deleteFile fileId = .ok (changes, tables')) : tables'.Namespace := by
  rcases deleteFile_cases deleted with rfl | rfl
  · exact laws
  · exact laws.filesSubset rfl laws.file_seq_fits fun file member =>
      ⟨file, (SeqTable.mem_delete.mp member).1, rfl, rfl, rfl⟩

theorem Namespace.deleteDir (laws : tables.Namespace) {dirId : Nat} {done : Unit}
    (notRoot : dirId ≠ rootDirId) (deleted : tables.deleteDir dirId = .ok (done, tables')) :
    tables'.Namespace := by
  have tree := laws.toDirTree.deleteDir notRoot deleted
  obtain ⟨-, noFiles, rfl⟩ := deleteDir_eq_ok deleted
  constructor
  case toDirTree => exact tree
  case file_dir =>
      intro file member
      obtain ⟨dir, dirMem, same⟩ := laws.file_dir file member
      refine ⟨dir, Table.mem_delete.mpr ⟨dirMem, ?_⟩, same⟩
      simpa [same] using noFiles file member
  case file_name_valid => exact laws.file_name_valid
  case file_name_unique => exact laws.file_name_unique
  case file_not_dir =>
      rintro file member child ⟨dir, dirMem, facts⟩
      exact laws.file_not_dir file member child ⟨dir, (Table.mem_delete.mp dirMem).1, facts⟩
  case file_seq_fits => exact laws.file_seq_fits

end CentralTables

end Fs0
