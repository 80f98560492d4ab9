import Fs0.Central.CacheRuns
import Fs0.Central.Polling

/-!
Contract: the change log of central as a description of its namespace.

Owns:
- replaying the log to the path of every file that has an event;
- what a transaction does to the place of a file and to its events;
- that in the runs that lose no directory the log tells where the files are.

Does not own: how a consumer gets the log.
-/

set_option autoImplicit false

namespace Fs0

open Lib Fallible
open CentralTx (filesWith eventsWith find?_filesWith_of_le find?_filesWith_new find?_filesMoved
  find?_filesResized newFile_fileId)

/-! ## Replaying -/

/-- Applies an event of the log: a deletion takes its file away, and any other event tells
the path of its file. -/
def applyLog (paths : Nat → Option String) (log : FileChangeLog) : Nat → Option String :=
  match log.fileId with
  | none => paths
  | some fileId => Function.update paths fileId (if log.kind = .deleted then none else log.newPath)

/-- The paths of the files after the events of the log. -/
def replay (logs : List FileChangeLog) : Nat → Option String := logs.foldl applyLog fun _ => none

/-- The path an event leaves its file at. -/
def FileEventRow.leavesAt (event : FileEventRow) : Option String :=
  if event.eventType = .deleted then none else event.log.newPath

theorem replay_eq (rows : List FileEventRow) (fileId : Nat) :
    replay (rows.map FileEventRow.log) fileId =
      ((rows.filter fun event => event.fileId = some fileId).getLast?).bind
        FileEventRow.leavesAt := by
  induction rows using List.reverseRecOn with
  | nil => rfl
  | append_singleton rows event inductionHypothesis =>
      have applied : replay ((rows ++ [event]).map FileEventRow.log) =
          applyLog (replay (rows.map FileEventRow.log)) event.log := by simp [replay]
      have sameId : event.log.fileId = event.fileId := rfl
      rw [applied, List.filter_append]
      unfold applyLog
      rw [sameId]
      by_cases own : event.fileId = some fileId
      · rw [own]
        simp only [Function.update_self, List.filter_cons, own, decide_true, ↓reduceIte,
          List.filter_nil, List.getLast?_append, List.getLast?_singleton, Option.some_or,
          Option.bind_some]
        rfl
      · have kept : ([event].filter fun event => decide (event.fileId = some fileId)) = [] := by
          simp [own]
        rw [kept, List.append_nil, ← inductionHypothesis]
        cases isLogged : event.fileId with
        | none => rfl
        | some logged =>
            have other : fileId ≠ logged := fun same => own (same ▸ isLogged)
            exact Function.update_of_ne other _ _

/-! ## The places of files -/

namespace CentralTables

/-- The path of a file, read from the tables. -/
def filePath (tables : CentralTables) (fileId : Nat) : Fs0Result String := do
  let file ← okOr (tables.files.find? fileId) .notFound
  let dir ← tables.dirPathById file.dirId
  joinFs0Path dir file.name

variable {tables before after : CentralTables} {fileId : Nat}

theorem Namespace.filePath_eq_ok (laws : tables.Namespace) {file : FileRow}
    (found : tables.files.find? fileId = some file) {path : String}
    (fileAt : tables.FileAt path file) : tables.filePath fileId = .ok path := by
  obtain ⟨-, names, located, rfl⟩ := fileAt
  unfold filePath
  rw [found, okOr, Fs0Result.ok_bind, laws.dirPathById_eq_ok.mpr ⟨names, rfl, located⟩,
    Fs0Result.ok_bind]
  exact joinFs0Path_pathOf file.name (laws.names_valid located)

/-- The place of a file: its directory and its name. -/
def placeOf (tables : CentralTables) (fileId : Nat) : Option (Nat × String) :=
  (tables.files.find? fileId).map fun file => (file.dirId, file.name)

/-- What a transaction does to the place of a file and to its events. -/
inductive PlaceChange (before after : CentralTables) (fileId : Nat) : Prop where
  | untouched (place : after.placeOf fileId = before.placeOf fileId)
      (events : eventsOf after.fileEvents fileId = eventsOf before.fileEvents fileId)
  | begun (events : eventsOf after.fileEvents fileId = [])
  | logged (event : FileEventRow) (file : FileRow) (path : String)
      (events : eventsOf after.fileEvents fileId = eventsOf before.fileEvents fileId ++ [event])
      (present : event.eventType ≠ .deleted) (found : after.files.find? fileId = some file)
      (isPath : event.log.newPath = some path) (fileAt : after.FileAt path file)
  | deleted (event : FileEventRow)
      (events : eventsOf after.fileEvents fileId = eventsOf before.fileEvents fileId ++ [event])
      (kind : event.eventType = .deleted) (gone : after.files.find? fileId = none)

/-- The last event of a file tells where it is, or that it is gone. -/
def TellsPlace (tables : CentralTables) (fileId : Nat) : Prop :=
  ∀ event, (eventsOf tables.fileEvents fileId).getLast? = some event →
    (event.eventType = .deleted → tables.files.find? fileId = none) ∧
    (event.eventType ≠ .deleted → ∃ file path, tables.files.find? fileId = some file ∧
      event.log.newPath = some path ∧ tables.FileAt path file)

theorem TellsPlace.preserved (tells : before.TellsPlace fileId)
    (dirs : ∀ names dirId, before.DirAt names dirId → after.DirAt names dirId)
    (change : PlaceChange before after fileId) : after.TellsPlace fileId := by
  intro event isLast
  cases change with
  | untouched place events =>
      rw [events] at isLast
      obtain ⟨gone, present⟩ := tells event isLast
      unfold placeOf at place
      constructor
      · intro kind
        rw [gone kind, Option.map_none, Option.map_eq_none_iff] at place
        exact place
      · intro kind
        obtain ⟨file, path, found, isPath, -, names, located, rfl⟩ := present kind
        rw [found, Option.map_some] at place
        obtain ⟨moved, foundMoved, same⟩ := Option.map_eq_some_iff.mp place
        obtain ⟨sameDir, sameName⟩ := Prod.mk.inj same
        refine ⟨moved, _, foundMoved, isPath, (Table.mem_of_find? foundMoved).1, names, ?_, ?_⟩
        · rw [sameDir]
          exact dirs names _ located
        · rw [sameName]
  | begun events =>
      rw [events] at isLast
      cases isLast
  | logged newest file path events present found isPath fileAt =>
      rw [events, List.getLast?_concat] at isLast
      obtain rfl := Option.some.inj isLast
      exact ⟨fun kind => absurd kind present, fun _ => ⟨file, path, found, isPath, fileAt⟩⟩
  | deleted newest events kind gone =>
      rw [events, List.getLast?_concat] at isLast
      obtain rfl := Option.some.inj isLast
      exact ⟨fun _ => gone, fun present => absurd kind present⟩

/-! ## Transactions -/

/-- The files stay where they are and nothing is logged. -/
theorem PlaceChange.of_kept (files : after.files = before.files)
    (events : after.fileEvents = before.fileEvents) : PlaceChange before after fileId :=
  .untouched (by rw [placeOf, files, placeOf]) (by rw [events])

/-- A file that an event does not name stays where it is when its row does. -/
theorem PlaceChange.of_other (referring : before.Referring) {kind : FileChangeLogKind}
    {newTarget : Option (String × String)} {logged now : Nat} (other : fileId ≠ logged)
    (events : after.fileEvents = eventsWith before.fileEvents kind newTarget logged now)
    (place : after.placeOf fileId = before.placeOf fileId) : PlaceChange before after fileId :=
  .untouched place (by rw [events, eventsOf_eventsWith_of_ne referring.ordered other])

/-- The path of an event is its target. -/
theorem log_newPath {eventId now : Nat} {kind : FileChangeLogKind} {dir name path : String}
    {names : List String} {logged : Option Nat} (isDir : dir = pathOf names)
    (isPath : path = pathOf (names ++ [name])) (valid : ∀ other ∈ names, ValidName other) :
    (⟨eventId, kind, some dir, some name, logged, now⟩ : FileEventRow).log.newPath =
      some path := by
  subst isDir isPath
  show (joinFs0Path (pathOf names) name).toOption = _
  rw [joinFs0Path_pathOf name valid]
  rfl

end CentralTables

namespace CentralTx

variable {before after : CentralTables} {path : String} {file : FileRow} {now fileId : Nat}

theorem FileAdded.dirAt_after {sizeBytes compressedSizeBytes : Nat}
    (added : FileAdded before path sizeBytes compressedSizeBytes now file after)
    {names : List String} {dirId : Nat} (located : before.DirAt names dirId) :
    after.DirAt names dirId := by
  obtain ⟨above, name, parent, mid, isPath, valid, grown, placed, inserted, isRow⟩ := added.placed
  obtain ⟨-, -, -, -, rfl⟩ := CentralTables.insertFile_eq_ok inserted
  exact (CentralTables.dirAt_congr rfl).mpr (grown.adds.dirAt located)

theorem FileMoved.dirAt_after (moved : FileMoved before fileId path now file after)
    {names : List String} {dirId : Nat} (located : before.DirAt names dirId) :
    after.DirAt names dirId := by
  obtain ⟨above, name, parent, mid, changes, isPath, valid, grown, placed, ran, changed, found⟩ :=
    moved.placed
  obtain ⟨-, -, -, rfl⟩ := CentralTables.moveFile_eq_ok ran changed
  exact (CentralTables.dirAt_congr rfl).mpr (grown.adds.dirAt located)

end CentralTx

/-- What a transaction does to the places of the files and to the log. -/
structure PlaceStep (before after : CentralTables) : Prop where
  dirs : ∀ names dirId, before.DirAt names dirId → after.DirAt names dirId
  files : ∀ fileId, CentralTables.PlaceChange before after fileId

namespace PlaceStep

open CentralTables

variable {before after : CentralTables} {db db' : CentralDb}

theorem of_kept (dirs : after.dirs = before.dirs) (files : after.files = before.files)
    (events : after.fileEvents = before.fileEvents) : PlaceStep before after :=
  ⟨fun _ _ => (dirAt_congr dirs).mpr, fun _ => .of_kept files events⟩

theorem of_deleted (referring : before.Referring) {deleted now : Nat}
    (effect : FileDeleted before after deleted now) : PlaceStep before after := by
  obtain ⟨-, rfl⟩ := effect
  refine ⟨fun _ _ => (dirAt_congr rfl).mpr, fun fileId => ?_⟩
  by_cases same : fileId = deleted
  · subst same
    refine .deleted _ (eventsOf_eventsWith_self referring.ordered) rfl ?_
    exact Table.find?_delete_key.trans (if_pos rfl)
  · refine .of_other referring same rfl ?_
    unfold placeOf
    exact congrArg (Option.map _) (find?_deleted same)

/-- The file an update creates has no event. -/
theorem of_begun (consistent : Consistent db) (referring : db.1.Referring)
    {request : BeginUpdateRequest} {volumeId now : Nat} {lease : UpdateLease}
    (ran : UpdateRequest.beginUpdateTx request volumeId now db = .ok lease db') :
    PlaceStep db.1 db'.1 := by
  obtain ⟨⟨file, baseSize⟩, db₁, taken, rest⟩ := bind_eq_ok.mp ran
  have granted := CentralTx.deleteExpiredUpdateLeases_bind_eq_ok rest
  obtain ⟨active, db₂, looked, granted⟩ := bind_eq_ok.mp granted
  obtain ⟨-, looked⟩ := CentralTx.bindU64_bind_eq_ok.mp looked
  obtain ⟨-, rfl⟩ := EStateM.Result.ok.inj looked
  obtain ⟨-, granted⟩ := require_bind_eq_ok.mp granted
  obtain ⟨-, -, tables⟩ := CentralTx.createUpdateLease_effect granted
  have sameDirs : db'.1.dirs = db₁.1.dirs := by rw [tables]
  have sameFiles : db'.1.files = db₁.1.files := by rw [tables]
  have sameEvents : db'.1.fileEvents = db₁.1.fileEvents := by rw [tables]
  rcases UpdateRequest.fileForUpdate_cases taken with
    ⟨looked, -, -, -, same⟩ | ⟨looked, found, sameLooked, -, creating, -⟩
  · rw [same] at sameDirs sameFiles sameEvents
    exact of_kept sameDirs sameFiles sameEvents
  · have within := ((CentralTx.getFileByPath_steady request.path).keeps db.1.dirs).endState
      ⟨consistent, rfl⟩
    rw [found, endState_error] at within
    have added := ((CentralTx.createFile_agree request.path now).triple.ok (At.refl within.1)
      creating).2
    obtain ⟨dirs, dirId, name, -, created⟩ := CentralTx.createFile_effect creating
    rw [sameLooked] at added created
    refine ⟨fun names other located => ?_, fun fileId => ?_⟩
    · exact (dirAt_congr sameDirs).mpr (added.dirAt_after located)
    · rw [created] at sameFiles sameEvents
      by_cases isNew : fileId = db.1.files.seq + 1
      · refine .begun ?_
        rw [sameEvents]
        exact referring.no_events (by omega)
      · refine .untouched ?_ (by rw [sameEvents])
        unfold placeOf
        rw [sameFiles]
        exact congrArg (Option.map _) (SeqTable.find?_push_of_ne (newFile_fileId _ _ _ _ _) isNew)

theorem of_copied (consistent : Consistent db) (referring : db.1.Referring)
    {sourceFileId now : Nat} {targetPath : String} {record : FileRecord}
    (ran : ClientRequest.copyFileByIdTx sourceFileId targetPath now db = .ok record db') :
    PlaceStep db.1 db'.1 := by
  obtain ⟨source, ⟨dir, name⟩, dirId, fileName, effect⟩ := ClientRequest.copyFileByIdTx_effect ran
  obtain ⟨target, -, rest⟩ := lift_bind_eq_ok.mp ran
  obtain ⟨file, db₁, copied, rest⟩ := bind_eq_ok.mp rest
  obtain ⟨_, db₂, bundled, rest⟩ := bind_eq_ok.mp rest
  obtain ⟨_, db₃, logged, recorded⟩ := bind_eq_ok.mp rest
  obtain ⟨same, known, -, added⟩ := (CentralTx.copyFileById_agree sourceFileId targetPath
    now).triple.ok (At.refl consistent) copied
  have sameDirs : db'.1.dirs = db₁.1.dirs := by
    rw [(CentralTx.fileRecord_readsOnly file).tables_eq recorded,
      CentralTx.insertFileChangeLog_effect logged, (CentralTx.copyFileBundles_effect bundled).1]
  have sameFiles : db'.1.files = db₁.1.files := by
    rw [(CentralTx.fileRecord_readsOnly file).tables_eq recorded,
      CentralTx.insertFileChangeLog_effect logged, (CentralTx.copyFileBundles_effect bundled).1]
  have others := effect.others
  refine ⟨fun names other located => (dirAt_congr sameDirs).mpr (added.dirAt_after located),
    fun fileId => ?_⟩
  have isEvents := congrArg CentralTables.fileEvents others
  have isFiles := congrArg CentralTables.files others
  by_cases isNew : fileId = db.1.files.seq + 1
  · subst isNew
    obtain ⟨names, valid, -, isPath, isDir⟩ :=
      splitFs0PathDirAndName_eq_ok.mp effect.target_split
    obtain ⟨member, located⟩ := added.fileAt
    obtain ⟨original, dirs, parent, copyName, -, isFile, -⟩ :=
      CentralTx.copyFileById_effect copied
    have isId : file.fileId = db.1.files.seq + 1 := by
      rw [isFile]
      rfl
    have events : eventsOf db'.1.fileEvents (db.1.files.seq + 1) = _ :=
      (congrArg (eventsOf · _) isEvents).trans (eventsOf_eventsWith_self referring.ordered)
    refine .logged _ file targetPath events (by simp) ?_ (log_newPath isDir isPath valid) ?_
    · rw [sameFiles, ← isId]
      exact Table.find?_isSome_of_mem member
    · exact ⟨sameFiles ▸ member, located.imp fun _ => And.imp_left (dirAt_congr sameDirs).mpr⟩
  · refine .of_other referring isNew isEvents ?_
    unfold placeOf
    rw [isFiles]
    exact congrArg (Option.map _) (SeqTable.find?_push_of_ne (newFile_fileId _ _ _ _ _) isNew)

theorem of_renamed (consistent : Consistent db) (referring : db.1.Referring)
    {renamed now : Nat} {targetPath : String} {record : FileRecord}
    (ran : ClientRequest.renameFileByIdTx renamed targetPath now db = .ok record db') :
    PlaceStep db.1 db'.1 := by
  obtain ⟨old, ⟨dir, name⟩, dirId, fileName, effect⟩ := ClientRequest.renameFileByIdTx_effect ran
  obtain ⟨target, -, rest⟩ := lift_bind_eq_ok.mp ran
  obtain ⟨file, db₁, moving, rest⟩ := bind_eq_ok.mp rest
  obtain ⟨_, db₂, logged, recorded⟩ := bind_eq_ok.mp rest
  obtain ⟨same, moved⟩ := (CentralTx.renameFileById_agree renamed targetPath now).triple.ok
    (At.refl consistent) moving
  have sameDirs : db'.1.dirs = db₁.1.dirs := by
    rw [(CentralTx.fileRecord_readsOnly file).tables_eq recorded,
      CentralTx.insertFileChangeLog_effect logged]
  have sameFiles : db'.1.files = db₁.1.files := by
    rw [(CentralTx.fileRecord_readsOnly file).tables_eq recorded,
      CentralTx.insertFileChangeLog_effect logged]
  have others := effect.others
  refine ⟨fun names other located => (dirAt_congr sameDirs).mpr (moved.dirAt_after located),
    fun fileId => ?_⟩
  have isEvents := congrArg CentralTables.fileEvents others
  have isFiles := congrArg CentralTables.files others
  by_cases isRenamed : fileId = renamed
  · subst isRenamed
    obtain ⟨names, valid, -, isPath, isDir⟩ :=
      splitFs0PathDirAndName_eq_ok.mp effect.target_split
    obtain ⟨member, located⟩ := moved.fileAt
    obtain ⟨original, dirs, parent, movedName, -, found, -⟩ :=
      CentralTx.renameFileById_effect moving
    have events : eventsOf db'.1.fileEvents fileId = _ :=
      (congrArg (eventsOf · _) isEvents).trans (eventsOf_eventsWith_self referring.ordered)
    refine .logged _ file targetPath events (by simp) ?_ (log_newPath isDir isPath valid) ?_
    · rw [sameFiles]
      exact found
    · exact ⟨sameFiles ▸ member, located.imp fun _ => And.imp_left (dirAt_congr sameDirs).mpr⟩
  · refine .of_other referring isRenamed isEvents ?_
    unfold placeOf
    rw [isFiles]
    refine (congrArg (Option.map _) find?_filesMoved).trans ?_
    rw [Option.map_map]
    cases found : db.1.files.find? fileId with
    | none => rfl
    | some file =>
        have other : file.fileId ≠ renamed := (Table.mem_of_find? found).2 ▸ isRenamed
        simp [CentralTables.movedTo, other]

/-- The event of a commit carries the directory of the file as the tables have it. -/
theorem committed_dir (consistent : Consistent db) {request : CommitUpdateRequest}
    {now leaseNow : Nat} {record : FileRecord}
    (ran : UpdateRequest.commitUpdateTx request now leaseNow db = .ok record db') :
    ∃ file names, db.1.files.find? request.fileId = some file ∧ db.1.DirAt names file.dirId ∧
      db'.1.fileEvents = eventsWith db.1.fileEvents
        (if file.sizeBytes = 0 then .created else .updated) (some (pathOf names, file.name))
        request.fileId now := by
  obtain ⟨⟨lease, file⟩, db₁, checked, rest⟩ := bind_eq_ok.mp ran
  obtain ⟨rfl, sameFile, isFile, -⟩ := UpdateRequest.commitUpdateChecks_eq_ok checked
  dsimp only at rest
  rw [sameFile] at rest
  obtain ⟨_, db₂, upserted, rest⟩ := bind_eq_ok.mp rest
  obtain ⟨⟨rawSize, compressedSize⟩, db₃, sized, rest⟩ := bind_eq_ok.mp rest
  obtain ⟨-, rest⟩ := require_bind_eq_ok.mp rest
  obtain ⟨updated, db₄, resized, rest⟩ := bind_eq_ok.mp rest
  obtain ⟨_, db₅, dropped, rest⟩ := bind_eq_ok.mp rest
  obtain ⟨dir, db₆, resolved, rest⟩ := bind_eq_ok.mp rest
  obtain ⟨_, db₇, logged, recorded⟩ := bind_eq_ok.mp rest
  -- Up to the lookup of the directory the database stays consistent, with the same directories.
  have within₂ := ((CentralTx.upsertFileBundlesByFileId_steady _ _).keeps db₁.1.dirs).ok
    ⟨consistent, rfl⟩ upserted
  have within₃ := ((CentralTx.calculateSizeByFileId_steady _).keeps db₁.1.dirs).ok within₂ sized
  have within₄ := ((CentralTx.updateFileAfterUpdate_steady _ _ _ _).keeps db₁.1.dirs).ok within₃
    resized
  obtain ⟨consistent₅, sameDirs⟩ := ((CentralTx.deleteUpdateLease_steady _).keeps db₁.1.dirs).ok
    within₄ dropped
  obtain ⟨db', -, -, looked⟩ := CentralTx.getDirPathById_eq consistent₅ file.dirId
  obtain ⟨known, -⟩ := lift_eq_ok.mp (looked.symm.trans resolved)
  obtain ⟨names, rfl, located⟩ := consistent₅.laws.dirPathById_eq_ok.mp known
  refine ⟨file, names, isFile, (dirAt_congr sameDirs).mp located, ?_⟩
  obtain ⟨bundlesOnly, -⟩ := CentralTx.upsertFileBundlesByFileId_effect upserted
  obtain ⟨-, tables₄⟩ := CentralTx.updateFileAfterUpdate_effect resized
  rw [(CentralTx.fileRecord_readsOnly _).tables_eq recorded,
    CentralTx.insertFileChangeLog_effect logged,
    (CentralTx.getDirPathById_readsOnly _).tables_eq resolved,
    CentralTx.deleteUpdateLease_effect dropped, tables₄,
    (CentralTx.calculateSizeByFileId_readsOnly _).tables_eq sized, bundlesOnly]

theorem of_committed (consistent : Consistent db) (referring : db.1.Referring)
    {request : CommitUpdateRequest} {now leaseNow : Nat} {record : FileRecord}
    (ran : UpdateRequest.commitUpdateTx request now leaseNow db = .ok record db') :
    PlaceStep db.1 db'.1 := by
  obtain ⟨lease, known, compressedSize, dir, effect⟩ := UpdateRequest.commitUpdateTx_effect ran
  obtain ⟨file, names, found, located, isEvents⟩ := committed_dir consistent ran
  have others := effect.others
  have sameDirs : db'.1.dirs = db.1.dirs := by rw [others]
  have isFiles := congrArg CentralTables.files others
  refine ⟨fun names other => (dirAt_congr sameDirs).mpr, fun fileId => ?_⟩
  by_cases isCommitted : fileId = request.fileId
  · subst isCommitted
    have events : eventsOf db'.1.fileEvents request.fileId = _ :=
      (congrArg (eventsOf · _) isEvents).trans (eventsOf_eventsWith_self referring.ordered)
    have resized : db'.1.files.find? request.fileId = some (CentralTables.resizedTo request.fileId
        request.newSize compressedSize now file) := by
      rw [isFiles]
      refine find?_filesResized.trans ?_
      rw [found, Option.map_some]
    have sameId := (Table.mem_of_find? found).2
    have sameDir : (CentralTables.resizedTo request.fileId request.newSize compressedSize now
        file).dirId = file.dirId := by simp [CentralTables.resizedTo, sameId]
    have sameName : (CentralTables.resizedTo request.fileId request.newSize compressedSize now
        file).name = file.name := by simp [CentralTables.resizedTo, sameId]
    refine .logged _ _ (pathOf (names ++ [file.name])) events ?_ resized
      (log_newPath rfl rfl (consistent.laws.names_valid located)) ?_
    · by_cases empty : file.sizeBytes = 0 <;> simp [empty]
    · refine ⟨(Table.mem_of_find? resized).1, names, ?_, by rw [sameName]⟩
      rw [sameDir]
      exact (dirAt_congr sameDirs).mpr located
  · refine .of_other referring isCommitted isEvents ?_
    unfold placeOf
    rw [isFiles]
    exact congrArg (Option.map _) (filesResized_of_ne isCommitted)

end PlaceStep

/-- A transaction from a consistent database. -/
theorem Transaction.Leads.placeStep {db db' : CentralDb} {tx : Transaction}
    (leads : tx.Leads db db') (consistent : Consistent db) (referring : db.1.Referring) :
    PlaceStep db.1 db'.1 := by
  have effect := leads.ran.effect
  cases tx with
  | beginUpdate request volumeId now =>
      obtain ⟨lease, ran⟩ := leads
      exact .of_begun consistent referring ran
  | dropLease leaseId =>
      rw [show db'.1 = _ from effect]
      exact .of_kept rfl rfl rfl
  | commitUpdate request now =>
      obtain ⟨leaseNow, record, ran⟩ := leads
      exact .of_committed consistent referring ran
  | abortUpdate leaseId fileId =>
      rw [show db'.1 = _ from effect.2]
      exact .of_kept rfl rfl rfl
  | deleteFile fileId now => exact .of_deleted referring effect
  | copyFile sourceFileId targetPath now =>
      obtain ⟨record, ran⟩ := leads
      exact .of_copied consistent referring ran
  | renameFile fileId targetPath now =>
      obtain ⟨record, ran⟩ := leads
      exact .of_renamed consistent referring ran
  | registerVolumes volumes =>
      rw [show db'.1 = _ from effect]
      exact .of_kept rfl rfl rfl
  | createVolume name maxBytes =>
      rw [show db'.1 = _ from effect]
      exact .of_kept rfl rfl rfl
  | reportReplicas events =>
      rw [effect.others]
      exact .of_kept rfl rfl rfl
  | updateVolumeOffset volumeId maxVolumeOffset =>
      rw [effect.others]
      exact .of_kept rfl rfl rfl

/-! ## Runs -/

/-- The change log, in the order of its event ids. -/
def CentralTables.changeLog (tables : CentralTables) : List FileChangeLog :=
  (tables.fileEvents.rows.insertionSort fun left right => left.eventId ≤ right.eventId).map
    FileEventRow.log

/-- The log tells the path of every file that has an event, and a file without one is empty. -/
structure LogReplays (tables : CentralTables) : Prop where
  deleted : ∀ fileId event, (eventsOf tables.fileEvents fileId).getLast? = some event →
    event.eventType = .deleted → tables.files.find? fileId = none
  located : ∀ fileId event, (eventsOf tables.fileEvents fileId).getLast? = some event →
    event.eventType ≠ .deleted → ∃ path, event.log.newPath = some path ∧
      tables.filePath fileId = .ok path
  unlogged : ∀ file ∈ tables.files.rows, eventsOf tables.fileEvents file.fileId = [] →
    file.sizeBytes = 0 ∧ tables.fileBundlesOf file.fileId = []
  replayed : ∀ fileId, replay tables.changeLog fileId =
    if eventsOf tables.fileEvents fileId = [] then none else (tables.filePath fileId).toOption

theorem filePath_of_absent {tables : CentralTables} {fileId : Nat}
    (absent : tables.files.find? fileId = none) : tables.filePath fileId = .error .notFound := by
  unfold CentralTables.filePath
  rw [absent]
  rfl

theorem replay_changeLog {tables : CentralTables} (ordered : EventsOrdered tables.fileEvents)
    (fileId : Nat) : replay tables.changeLog fileId =
      ((eventsOf tables.fileEvents fileId).getLast?).bind FileEventRow.leavesAt := by
  rw [CentralTables.changeLog, List.Pairwise.insertionSort_eq ordered, replay_eq,
    eventsOf_eq ordered]

theorem logReplays_of_tells {tables : CentralTables} (laws : tables.Namespace)
    (logged : ChangeLog.Logged tables) (tells : ∀ fileId, tables.TellsPlace fileId) :
    LogReplays tables := by
  have located : ∀ fileId event, (eventsOf tables.fileEvents fileId).getLast? = some event →
      event.eventType ≠ .deleted → ∃ path, event.log.newPath = some path ∧
        tables.filePath fileId = .ok path := by
    intro fileId event isLast present
    obtain ⟨file, path, found, isPath, fileAt⟩ := (tells fileId event isLast).2 present
    exact ⟨path, isPath, laws.filePath_eq_ok found fileAt⟩
  constructor
  case deleted => exact fun fileId event isLast => (tells fileId event isLast).1
  case located => exact located
  case unlogged =>
      intro file member noEvents
      have found := Table.find?_isSome_of_mem member
      have content := CentralTables.content_of_find? found
      have committed := (logged.files file.fileId).committed file.sizeBytes content
      have unlogged : ¬ ChangeLog.Committed (ChangeLog.kindsOf tables file.fileId) := by
        intro committed
        have created := committed.mem_created
        rw [ChangeLog.kindsOf, noEvents] at created
        cases created
      constructor
      · by_contra nonzero
        exact unlogged (committed (.inl nonzero))
      · by_contra bundles
        exact unlogged (committed (.inr bundles))
  case replayed =>
      intro fileId
      rw [replay_changeLog logged.referring.ordered]
      cases isLast : (eventsOf tables.fileEvents fileId).getLast? with
      | none =>
          rw [if_pos (List.getLast?_eq_none_iff.mp isLast)]
          rfl
      | some event =>
          have nonempty : eventsOf tables.fileEvents fileId ≠ [] := by
            intro empty
            rw [empty] at isLast
            cases isLast
          rw [if_neg nonempty]
          unfold FileEventRow.leavesAt
          by_cases kind : event.eventType = .deleted
          · rw [filePath_of_absent ((tells fileId event isLast).1 kind)]
            exact if_pos kind
          · obtain ⟨path, isPath, isAt⟩ := located fileId event isLast kind
            rw [isAt]
            exact (if_neg kind).trans isPath

variable {config : CentralConfig} {s : Central}

/-- In every run in which no `COMMIT` fails after its copy or rename has made a directory, the
log tells in every state where the files are. -/
theorem logReplays_of_run {ts : List (Transition Central CentralEvent)}
    (run : (central config).Run ts s) (kept : ∀ t ∈ ts, ¬ t.pre.LosesDir t.event) :
    ∀ x ∈ visited ts s, LogReplays x.tables := by
  have holds : ∀ x ∈ visited ts s, Consistent x.server.db ∧ ChangeLog.Logged x.tables ∧
      ∀ fileId, x.tables.TellsPlace fileId := by
    apply run.invariant_of_guard (fun s => Consistent s.server.db ∧ ChangeLog.Logged s.tables ∧
      ∀ fileId, s.tables.TellsPlace fileId) (fun s e => ¬ s.LosesDir e) _ _ kept
    · rintro _ rfl
      refine ⟨open_consistent, ChangeLog.initial_logged, fun fileId event isLast => ?_⟩
      cases isLast
    · rintro s e s' ⟨consistent, logged, tells⟩ kept taken
      obtain ⟨consistent', changed⟩ := Central.step_sound consistent kept taken
      rcases changed with same | ⟨tx, -, leads⟩
      · rw [same]
        exact ⟨consistent', logged, tells⟩
      · have step := leads.placeStep consistent logged.referring
        exact ⟨consistent', logged.preserved leads.ran.effect, fun fileId =>
          (tells fileId).preserved step.dirs (step.files fileId)⟩
  intro x member
  obtain ⟨consistent, logged, tells⟩ := holds x member
  exact logReplays_of_tells consistent.laws logged tells

namespace Scenario

/-- An update is begun on `/f`, and copying the file to a path fails at its `COMMIT`. -/
def failedCopy (targetPath : String) : List CentralEvent :=
  registered ++ request 1 3 4 2 (.beginUpdate ⟨"/f", 0, none, none⟩) ++
    [.receive 1 (.control (.copyFileById 1 targetPath)), .lockIdentity 1 4,
      .run 1 { inputs 3 with commit := some (.sqlite "disk I/O error") }]

/-- A section whose `COMMIT` goes through, or that has no target in a new directory. -/
def keepsDirs (s : Central) : CentralEvent → Bool
  | .run connection inputs => inputs.commit.isNone ||
      ((s.transaction (.run connection inputs)).bind Transaction.target).all fun path =>
        (do
          let target ← splitFs0PathDirAndName path
          s.tables.dirIdByPath target.1 : Fs0Result Nat).toOption.isSome
  | _ => true

theorem not_losesDir {s : Central} {e : CentralEvent} (keeps : keepsDirs s e = true) :
    ¬ s.LosesDir e := by
  rintro ⟨connection, inputs, tx, rfl, isTx, fails, path, after, isTarget,
    ⟨dir, name, split, new⟩, -⟩
  dsimp only [keepsDirs] at keeps
  rw [isTx, Option.bind_some, isTarget] at keeps
  rcases Bool.or_eq_true_iff.mp keeps with none | old
  · exact fails (Option.isNone_iff_eq_none.mp none)
  · rw [Option.all_some, split, Fs0Result.ok_bind] at old
    cases resolved : s.tables.dirIdByPath dir with
    | ok dirId => exact new dirId resolved
    | error err =>
        rw [resolved] at old
        cases old

end Scenario

/-- A copy into the root fails at its `COMMIT`, and the file is then renamed into a directory
made for it. -/
theorem logReplays_of_run_failedCopy :
    ∃ ts s, (central Scenario.config).Run ts s ∧ s.tables.filePath 1 = .ok "/b/f" ∧
      ∀ x ∈ visited ts s, LogReplays x.tables := by
  obtain ⟨ts, s, run, kept, isPath⟩ := Scenario.run_of_execWhile Scenario.keepsDirs
    (Scenario.failedCopy "/g" ++ Scenario.request 1 5 1 4 (.renameFileById 1 "/b/f"))
    (fun s => s.tables.filePath 1) (.ok "/b/f") (by decide +kernel)
  exact ⟨ts, s, run, isPath, logReplays_of_run run fun t member =>
    Scenario.not_losesDir (kept t member)⟩

/-- After a copy into `/a` has failed at its `COMMIT`, the cache gives the number of `/b` for
`/a`: a rename to `/a/h` moves the file to `/b/h`. -/
theorem logReplays_not_after_failedCopy :
    ¬ ∀ s, (central Scenario.config).Reachable s → LogReplays s.tables := by
  intro claimed
  obtain ⟨ts, s, run, -, ends⟩ := Scenario.run_of_exec
    (Scenario.failedCopy "/a/g" ++ Scenario.request 1 5 1 4 (.renameFileById 1 "/b/f") ++
      Scenario.request 1 6 1 5 (.renameFileById 1 "/a/h"))
    (fun s => ((eventsOf s.tables.fileEvents 1).getLast?, s.tables.filePath 1))
    (some ⟨2, .moved, some "/a", some "h", some 1, 5⟩, .ok "/b/h") (by decide +kernel)
  obtain ⟨isLast, isPath⟩ := Prod.mk.inj ends
  obtain ⟨path, logged, isAt⟩ := (claimed s run.reachable).located 1 _ isLast (by decide)
  rw [isPath] at isAt
  obtain rfl := Except.ok.inj isAt
  exact absurd logged (by decide)

end Fs0
