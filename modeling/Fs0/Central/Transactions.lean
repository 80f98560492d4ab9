import Fs0.Central.TableSteps

/-!
Contract: the committed transactions of central as steps of its tables.

Owns:
- the transactions the handlers commit, and for each of them the tables it
  leaves, in terms of the tables before it;
- that a section of a handler changes the tables by its transaction or not at
  all.

Does not own: what follows for whole runs.
-/

set_option autoImplicit false

namespace Fs0

open Lib Fallible
open CentralTx (filesWith filesMoved filesResized eventsWith offsetTo)

/-- The transactions that handlers commit. -/
inductive Transaction where
  | beginUpdate (request : BeginUpdateRequest) (volumeId now : Nat)
  | dropLease (leaseId : Nat)
  | commitUpdate (request : CommitUpdateRequest) (now : Nat)
  | abortUpdate (leaseId fileId : Nat)
  | deleteFile (fileId now : Nat)
  | copyFile (sourceFileId : Nat) (targetPath : String) (now : Nat)
  | renameFile (fileId : Nat) (targetPath : String) (now : Nat)
  | registerVolumes (volumes : List StorageVolumeInfo)
  | createVolume (name : String) (maxBytes : Nat)
  | reportReplicas (events : List BundleReplicaEvent)
  | updateVolumeOffset (volumeId maxVolumeOffset : Nat)
deriving DecidableEq

/-! ## Effects -/

section Effects

variable (before after : CentralTables)

/-- The file an update is begun on: one of the rows, or the empty one inserted for it. -/
inductive FileTaken (now : Nat) : FileRow → CentralTables → Prop where
  | existing {file : FileRow} (member : file ∈ before.files.rows) : FileTaken now file before
  | created (dirs : Table DirRow.dirId) (dirId : Nat) (name : String) :
      FileTaken now (CentralTables.newFile dirId name 0 0 now (before.files.seq + 1))
        { before with
          dirs := dirs
          files := filesWith before.files dirId name 0 0 now }

/-- The row of a lease granted at a time. -/
def leaseRow (lease : UpdateLease) (now leaseId : Nat) : UpdateLeaseRow :=
  ⟨leaseId, lease.fileId, lease.volumeId, lease.baseSize, lease.offset, lease.preferVolumeName,
    lease.expiresAtMs, now⟩

def UpdateBegun (request : BeginUpdateRequest) (volumeId now : Nat) (lease : UpdateLease) : Prop :=
  ∃ file mid, FileTaken before now file mid ∧ request.offset ≤ file.sizeBytes ∧
    lease = ⟨before.updateLeases.seq + 1, file.fileId, volumeId, file.sizeBytes, request.offset,
      wrappingAdd now updateLeaseTtlMs, request.preferVolumeName⟩ ∧
    (∀ other ∈ before.updateLeases.rows, now < other.expiresAtMs → other.fileId ≠ file.fileId) ∧
    after = { mid with
      updateLeases := (before.updateLeases.delete fun other =>
        decide (other.expiresAtMs ≤ now)).push (leaseRow lease now) fun _ => rfl }

def LeaseDropped (leaseId : Nat) : Prop :=
  after = { before with
    updateLeases := before.updateLeases.delete fun lease => lease.leaseId == leaseId }

/-- What the second transaction of a commit has checked, and what it writes. -/
structure UpdateCommitted (request : CommitUpdateRequest) (now : Nat) (lease : UpdateLeaseRow)
    (file : FileRow) (compressedSize : Nat) (dir : String) : Prop where
  lease_mem : lease ∈ before.updateLeases.rows
  lease_id : lease.leaseId = request.leaseId
  lease_file : lease.fileId = request.fileId
  base_size : lease.baseSizeBytes = request.baseSize
  file_found : before.files.find? request.fileId = some file
  file_size : file.sizeBytes = request.baseSize
  submitted : ∃ replicas, (∀ row ∈ replicas, row ∈ before.bundleReplicas.rows) ∧
    UpdateRequest.submittedRawSize replicas request.bundles 0 = .ok request.newSize
  bundles : after.fileBundles.rows =
    (before.fileBundles.rows.filter fun row => !row.fileId == request.fileId) ++
      bundleRowsFrom request.fileId 0 (request.bundles.map CommittedBundle.bundleId)
  others : after = { before with
    files := filesResized before.files request.fileId request.newSize compressedSize now
    fileBundles := after.fileBundles
    updateLeases := before.updateLeases.delete fun other => other.leaseId == request.leaseId
    fileEvents := eventsWith before.fileEvents
      (if file.sizeBytes = 0 then .created else .updated) (some (dir, file.name))
      request.fileId now }

def UpdateAborted (leaseId fileId : Nat) : Prop :=
  (∃ lease ∈ before.updateLeases.rows, lease.leaseId = leaseId ∧ lease.fileId = fileId) ∧
    LeaseDropped before after leaseId

def FileDeleted (fileId now : Nat) : Prop :=
  (∃ file, before.files.find? fileId = some file) ∧
    after = { before with
      files := before.files.delete fun file => file.fileId == fileId
      fileBundles := before.fileBundles.delete fun row => row.fileId == fileId
      updateLeases := before.updateLeases.delete fun lease => lease.fileId == fileId
      fileEvents := eventsWith before.fileEvents .deleted none fileId now }

/-- The copy has the size and the bundles of the source. -/
structure FileCopied (sourceFileId : Nat) (targetPath : String) (now : Nat) (source : FileRow)
    (target : String × String) (dirId : Nat) (name : String) : Prop where
  source_found : before.files.find? sourceFileId = some source
  target_split : splitFs0PathDirAndName targetPath = .ok target
  bundles : after.fileBundles.rows = before.fileBundles.rows ++
    copiedBundleRows before.fileBundles.rows sourceFileId (before.files.seq + 1)
  others : after = { before with
    dirs := after.dirs
    files := filesWith before.files dirId name source.sizeBytes source.compressedSizeBytes now
    fileBundles := after.fileBundles
    fileEvents := eventsWith before.fileEvents .created (some target)
      (before.files.seq + 1) now }

structure FileRenamed (fileId : Nat) (targetPath : String) (now : Nat) (file : FileRow)
    (target : String × String) (dirId : Nat) (name : String) : Prop where
  file_found : before.files.find? fileId = some file
  target_split : splitFs0PathDirAndName targetPath = .ok target
  others : after = { before with
    dirs := after.dirs
    files := filesMoved before.files fileId dirId name now
    fileEvents := eventsWith before.fileEvents .moved (some target) fileId now }

/-- Only rows of the reported volumes change, to what the events say. -/
structure ReplicasReported (events : List BundleReplicaEvent) : Prop where
  stored : ∀ row ∈ after.bundleReplicas.rows, row ∈ before.bundleReplicas.rows ∨
    ∃ event ∈ events, event.kind = .stored ∧ event.bundleId = row.bundleId ∧
      event.volumeId = row.volumeId ∧ event.rawLen = some row.rawLen ∧
      event.compressedLen = some row.compressedLen
  frame : ∀ row : BundleReplicaRow, (∀ event ∈ events, event.volumeId ≠ row.volumeId) →
    (row ∈ after.bundleReplicas.rows ↔ row ∈ before.bundleReplicas.rows)
  others : after = { before with bundleReplicas := after.bundleReplicas }

/-- Only the row of the volume changes, and there is one. -/
structure VolumeOffsetUpdated (volumeId maxVolumeOffset : Nat) : Prop where
  found : ∃ row, before.volumes.find? volumeId = some row
  rows : after.volumes.rows = before.volumes.rows.map (offsetTo volumeId maxVolumeOffset)
  others : after = { before with volumes := after.volumes }

/-- What a transaction does to the tables when it commits. -/
def Transaction.Effect : Transaction → Prop
  | .beginUpdate request volumeId now => ∃ lease, UpdateBegun before after request volumeId now lease
  | .dropLease leaseId => LeaseDropped before after leaseId
  | .commitUpdate request now => ∃ lease file compressedSize dir,
      UpdateCommitted before after request now lease file compressedSize dir
  | .abortUpdate leaseId fileId => UpdateAborted before after leaseId fileId
  | .deleteFile fileId now => FileDeleted before after fileId now
  | .copyFile sourceFileId targetPath now => ∃ source target dirId name,
      FileCopied before after sourceFileId targetPath now source target dirId name
  | .renameFile fileId targetPath now => ∃ file target dirId name,
      FileRenamed before after fileId targetPath now file target dirId name
  | .registerVolumes _ => after = { before with volumes := after.volumes }
  | .createVolume name maxBytes => after = { before with
      volumes := before.volumes.push (fun volumeId => ⟨volumeId, name, maxBytes, 0⟩)
        (CentralTables.newVolume_volumeId name maxBytes) }
  | .reportReplicas events => ReplicasReported before after events
  | .updateVolumeOffset volumeId maxVolumeOffset =>
      VolumeOffsetUpdated before after volumeId maxVolumeOffset

end Effects

theorem FileTaken.updateLeases {before mid : CentralTables} {now : Nat} {file : FileRow}
    (taken : FileTaken before now file mid) : mid.updateLeases = before.updateLeases := by
  cases taken <;> rfl

/-! ## The transactions of the handlers -/

namespace UpdateRequest

open CentralTx

variable {db db' : CentralDb}

/-- The file to update is the one that is found, or a new one when none is. -/
theorem fileForUpdate_cases {request : BeginUpdateRequest} {now baseSize : Nat} {file : FileRow}
    (ran : fileForUpdate request now db = .ok (file, baseSize) db') :
    (∃ looked, getFileByPath request.path db = .ok file looked ∧
      request.offset ≤ file.sizeBytes ∧ baseSize = file.sizeBytes ∧ db'.1 = db.1) ∨
    ∃ looked, getFileByPath request.path db = .error .notFound looked ∧ looked.1 = db.1 ∧
      request.offset = 0 ∧ createFile request.path now looked = .ok file db' ∧ baseSize = 0 := by
  obtain ⟨found, db₁, attempted, rest⟩ := bind_eq_ok.mp ran
  rw [attempt_apply] at attempted
  obtain ⟨isFound, rfl⟩ := EStateM.Result.ok.inj attempted
  have same := (getFileByPath_readsOnly request.path).endState db
  cases looked : getFileByPath request.path db with
  | ok known db₂ =>
      rw [looked] at isFound rest same
      subst isFound
      obtain ⟨within, ended⟩ := require_bind_eq_ok.mp rest
      obtain ⟨sameFile, rfl⟩ := EStateM.Result.ok.inj ended
      obtain ⟨rfl, rfl⟩ := Prod.mk.inj sameFile
      exact .inl ⟨db₂, rfl, within, rfl, same⟩
  | error err db₂ =>
      rw [looked] at isFound rest same
      subst isFound
      rw [endState_error] at same rest
      by_cases missing : err = .notFound
      · subst missing
        obtain ⟨fromStart, rest⟩ := require_bind_eq_ok.mp rest
        obtain ⟨created, db₃, creating, ended⟩ := bind_eq_ok.mp rest
        obtain ⟨sameFile, rfl⟩ := EStateM.Result.ok.inj ended
        obtain ⟨rfl, rfl⟩ := Prod.mk.inj sameFile
        exact .inr ⟨db₂, rfl, same, fromStart, creating, rfl⟩
      · cases err <;> first | cases rest | exact absurd rfl missing

theorem fileForUpdate_effect {request : BeginUpdateRequest} {now baseSize : Nat} {file : FileRow}
    (ran : fileForUpdate request now db = .ok (file, baseSize) db') :
    FileTaken db.1 now file db'.1 ∧ baseSize = file.sizeBytes ∧ request.offset ≤ file.sizeBytes := by
  rcases fileForUpdate_cases ran with
    ⟨looked, found, within, rfl, same⟩ | ⟨looked, -, same, fromStart, creating, rfl⟩
  · rw [same]
    exact ⟨.existing (getFileByPath_mem found).1, rfl, within⟩
  · obtain ⟨dirs, dirId, name, rfl, tables⟩ := createFile_effect creating
    rw [tables, same]
    exact ⟨.created dirs dirId name, rfl, Nat.le_of_eq fromStart⟩

theorem beginUpdateTx_effect {request : BeginUpdateRequest} {volumeId now : Nat}
    {lease : UpdateLease} (ran : beginUpdateTx request volumeId now db = .ok lease db') :
    UpdateBegun db.1 db'.1 request volumeId now lease := by
  obtain ⟨⟨file, baseSize⟩, db₁, taken, rest⟩ := bind_eq_ok.mp ran
  obtain ⟨isTaken, rfl, within⟩ := fileForUpdate_effect taken
  have rest := deleteExpiredUpdateLeases_bind_eq_ok rest
  obtain ⟨active, db₂, looked, rest⟩ := bind_eq_ok.mp rest
  obtain ⟨-, looked⟩ := bindU64_bind_eq_ok.mp looked
  obtain ⟨-, rfl⟩ := EStateM.Result.ok.inj looked
  obtain ⟨-, rest⟩ := require_bind_eq_ok.mp rest
  obtain ⟨isLease, free, tables⟩ := createUpdateLease_effect rest
  have sameLeases := isTaken.updateLeases
  refine ⟨file, db₁.1, isTaken, within, ?_, ?_, ?_⟩
  · rw [isLease, ← sameLeases]
    rfl
  · intro other member unexpired
    apply free other
    rw [← sameLeases] at member
    exact SeqTable.mem_delete.mpr ⟨member, by simpa using unexpired⟩
  · rw [tables, isLease, ← sameLeases]
    rfl

theorem commitUpdateChecks_eq_ok {request : CommitUpdateRequest} {leaseNow : Nat}
    {lease : LeaseRecord} {file : FileRow}
    (ran : commitUpdateChecks request leaseNow db = .ok (lease, file) db') :
    db' = db ∧ lease.fileId = request.fileId ∧
      db.1.files.find? request.fileId = some file ∧ file.sizeBytes = request.baseSize ∧
      (∃ row ∈ db.1.updateLeases.rows, row.leaseId = request.leaseId ∧
        row.fileId = request.fileId ∧ row.baseSizeBytes = request.baseSize) ∧
      ∃ replicas, (∀ row ∈ replicas, row ∈ db.1.bundleReplicas.rows) ∧
        submittedRawSize replicas request.bundles 0 = .ok request.newSize := by
  obtain ⟨loaded, db₁, ran, rest⟩ := bind_eq_ok.mp ran
  obtain ⟨rfl, row, member, sameLease, sameFile, -, rfl⟩ :=
    loadActiveUpdateLease_eq_ok (mapError_eq_ok.mp ran)
  obtain ⟨sameBase, rest⟩ := require_bind_eq_ok.mp rest
  obtain ⟨-, rest⟩ := require_bind_eq_ok.mp rest
  obtain ⟨found, -, isFile, rest⟩ := getFileById_bind_eq_ok.mp rest
  obtain ⟨sameSize, rest⟩ := require_bind_eq_ok.mp rest
  rw [getBundleReplicasById, query_bind_eq_ok] at rest
  obtain ⟨submitted, isSubmitted, rest⟩ := lift_bind_eq_ok.mp rest
  obtain ⟨rfl, ended⟩ := require_bind_eq_ok.mp rest
  obtain ⟨same, rfl⟩ := EStateM.Result.ok.inj ended
  obtain ⟨rfl, rfl⟩ := Prod.mk.inj same
  refine ⟨rfl, sameFile, sameFile ▸ isFile, sameSize, ⟨row, member, sameLease, sameFile, sameBase⟩,
    _, ?_, isSubmitted⟩
  intro replica selected
  obtain ⟨batch, -, inBatch⟩ := List.mem_flatMap.mp selected
  exact (List.mem_filter.mp ((List.mem_insertionSort _).mp inBatch)).1

/-- The steps of a commit that succeeded, with the file and the size they found. -/
structure CommitSteps (request : CommitUpdateRequest) (now leaseNow : Nat) (db : CentralDb)
    (file : FileRow) (compressedSize : Nat) : Prop where
  checked : ∃ lease, commitUpdateChecks request leaseNow db = .ok (lease, file) db
  sized : ∃ mid done, upsertFileBundlesByFileId request.fileId request.bundles db = .ok () mid ∧
    calculateSizeByFileId request.fileId mid = .ok (request.newSize, compressedSize) done
  resized : ∃ mid updated done, updateFileAfterUpdate request.fileId request.newSize
    compressedSize now mid = .ok updated done
  logged : ∃ mid kind target done, mid.1.fileEvents = db.1.fileEvents ∧
    insertFileChangeLog kind target (some request.fileId) now mid = .ok () done

theorem commitUpdateTx_steps {request : CommitUpdateRequest} {now leaseNow : Nat}
    {record : FileRecord} (ran : commitUpdateTx request now leaseNow db = .ok record db') :
    ∃ lease file compressedSize dir, CommitSteps request now leaseNow db file compressedSize ∧
      UpdateCommitted db.1 db'.1 request now lease file compressedSize dir := by
  obtain ⟨⟨lease, file⟩, db₁, checked, rest⟩ := bind_eq_ok.mp ran
  obtain ⟨rfl, sameFile, isFile, sameSize, ⟨row, member, rowId, rowFile, rowBase⟩, replicas, known,
    submitted⟩ := commitUpdateChecks_eq_ok checked
  dsimp only at rest
  rw [sameFile] at rest
  obtain ⟨_, db₂, upserted, rest⟩ := bind_eq_ok.mp rest
  obtain ⟨bundlesOnly, bundles⟩ := upsertFileBundlesByFileId_effect upserted
  obtain ⟨⟨rawSize, compressedSize⟩, db₃, sized, rest⟩ := bind_eq_ok.mp rest
  have tables₃ := (calculateSizeByFileId_readsOnly _).tables_eq sized
  obtain ⟨rfl, rest⟩ := require_bind_eq_ok.mp rest
  obtain ⟨updated, db₄, resized, rest⟩ := bind_eq_ok.mp rest
  obtain ⟨-, tables₄⟩ := updateFileAfterUpdate_effect resized
  have rest := deleteUpdateLease_bind_eq_ok rest
  obtain ⟨dir, db₅, resolved, rest⟩ := bind_eq_ok.mp rest
  have tables₅ := (getDirPathById_readsOnly _).tables_eq resolved
  obtain ⟨_, db₆, logged, recorded⟩ := bind_eq_ok.mp rest
  have tables₆ := congrArg Prod.fst (insertFileChangeLog_effect logged)
  have tables₇ := (fileRecord_readsOnly _).tables_eq recorded
  refine ⟨row, file, compressedSize, dir, ⟨⟨lease, checked⟩, ⟨_, _, upserted, sized⟩,
    ⟨_, _, _, resized⟩, ⟨_, _, _, _, ?_, logged⟩⟩, member, rowId, rowFile, rowBase, isFile, sameSize,
    ⟨replicas, known, submitted⟩, ?_, ?_⟩
  · rw [tables₅, tables₄, tables₃, bundlesOnly]
  · rw [tables₇, tables₆, tables₅, tables₄, tables₃, bundles]
  · rw [tables₇, tables₆, tables₅, tables₄, tables₃, bundlesOnly]

theorem commitUpdateTx_effect {request : CommitUpdateRequest} {now leaseNow : Nat}
    {record : FileRecord} (ran : commitUpdateTx request now leaseNow db = .ok record db') :
    ∃ lease file compressedSize dir,
      UpdateCommitted db.1 db'.1 request now lease file compressedSize dir := by
  obtain ⟨lease, file, compressedSize, dir, -, committed⟩ := commitUpdateTx_steps ran
  exact ⟨lease, file, compressedSize, dir, committed⟩

theorem abortUpdateTx_effect {leaseId fileId now volumeId : Nat}
    (ran : abortUpdateTx leaseId fileId now db = .ok volumeId db') :
    UpdateAborted db.1 db'.1 leaseId fileId := by
  obtain ⟨volume, db₁, found, rest⟩ := bind_eq_ok.mp ran
  obtain ⟨rfl, row, member, sameLease, sameFile, -, -⟩ := activeUpdateLeaseVolume_eq_ok found
  have ended := deleteUpdateLease_bind_eq_ok rest
  obtain ⟨-, rfl⟩ := EStateM.Result.ok.inj ended
  exact ⟨⟨row, member, sameLease, sameFile⟩, rfl⟩

end UpdateRequest

namespace ClientRequest

open CentralTx

variable {db db' : CentralDb}

theorem deleteFileByIdTx_effect {fileId now : Nat}
    (ran : deleteFileByIdTx fileId now db = .ok () db') : FileDeleted db.1 db'.1 fileId now := by
  have rest := deleteFileBundlesByFileId_bind_eq_ok ran
  obtain ⟨_, db₁, deleted, logged⟩ := bind_eq_ok.mp rest
  obtain ⟨known, tables⟩ := deleteFileById_effect deleted
  refine ⟨known, ?_⟩
  rw [insertFileChangeLog_effect logged, tables]
  simp

theorem copyFileByIdTx_effect {sourceFileId now : Nat} {targetPath : String} {record : FileRecord}
    (ran : copyFileByIdTx sourceFileId targetPath now db = .ok record db') :
    ∃ source target dirId name,
      FileCopied db.1 db'.1 sourceFileId targetPath now source target dirId name := by
  obtain ⟨target, isTarget, rest⟩ := lift_bind_eq_ok.mp ran
  obtain ⟨file, db₁, copied, rest⟩ := bind_eq_ok.mp rest
  obtain ⟨source, dirs, dirId, name, isSource, rfl, tables₁⟩ := copyFileById_effect copied
  obtain ⟨_, db₂, bundled, rest⟩ := bind_eq_ok.mp rest
  obtain ⟨bundlesOnly, bundles⟩ := copyFileBundles_effect bundled
  obtain ⟨_, db₃, logged, recorded⟩ := bind_eq_ok.mp rest
  have tables₃ := congrArg Prod.fst (insertFileChangeLog_effect logged)
  have tables₄ := (fileRecord_readsOnly _).tables_eq recorded
  refine ⟨source, target, dirId, name, isSource, isTarget, ?_, ?_⟩
  · rw [tables₄, tables₃, bundles, tables₁]
    rfl
  · rw [tables₄, tables₃, bundlesOnly, tables₁]
    rfl

theorem renameFileByIdTx_effect {fileId now : Nat} {targetPath : String} {record : FileRecord}
    (ran : renameFileByIdTx fileId targetPath now db = .ok record db') :
    ∃ file target dirId name,
      FileRenamed db.1 db'.1 fileId targetPath now file target dirId name := by
  obtain ⟨target, isTarget, rest⟩ := lift_bind_eq_ok.mp ran
  obtain ⟨moved, db₁, renamed, rest⟩ := bind_eq_ok.mp rest
  obtain ⟨file, dirs, dirId, name, isFile, -, tables₁⟩ := renameFileById_effect renamed
  obtain ⟨_, db₂, logged, recorded⟩ := bind_eq_ok.mp rest
  have tables₂ := congrArg Prod.fst (insertFileChangeLog_effect logged)
  have tables₃ := (fileRecord_readsOnly _).tables_eq recorded
  refine ⟨file, target, dirId, name, isFile, isTarget, ?_⟩
  rw [tables₃, tables₂, tables₁]

end ClientRequest

namespace StorageRequest

open CentralTx

variable {db db' : CentralDb}

theorem reported_cons {first second third : CentralTables} {event : BundleReplicaEvent}
    {rest : List BundleReplicaEvent} (head : ReplicasReported first second [event])
    (tail : ReplicasReported second third rest) : ReplicasReported first third (event :: rest) := by
  constructor
  case stored =>
      intro row member
      rcases tail.stored row member with earlier | ⟨other, otherMem, facts⟩
      · rcases head.stored row earlier with old | ⟨other, otherMem, facts⟩
        · exact .inl old
        · obtain rfl := List.mem_singleton.mp otherMem
          exact .inr ⟨other, List.mem_cons_self, facts⟩
      · exact .inr ⟨other, List.mem_cons_of_mem _ otherMem, facts⟩
  case frame =>
      intro row foreign
      rw [tail.frame row fun other member => foreign other (List.mem_cons_of_mem _ member)]
      apply head.frame row
      intro other member
      obtain rfl := List.mem_singleton.mp member
      exact foreign other List.mem_cons_self
  case others => rw [tail.others, head.others]

theorem applyReplicaEvents_effect {events : List BundleReplicaEvent}
    (ran : applyReplicaEvents events db = .ok () db') : ReplicasReported db.1 db'.1 events := by
  induction events generalizing db with
  | nil =>
      cases ran
      exact ⟨fun _ => .inl, fun _ _ => Iff.rfl, rfl⟩
  | cons event rest inductionHypothesis =>
      unfold applyReplicaEvents at ran
      cases kind : event.kind with
      | stored =>
          rw [kind] at ran
          obtain ⟨rawLen, isRaw, ran⟩ := lift_bind_eq_ok.mp ran
          obtain ⟨compressedLen, isCompressed, ran⟩ := lift_bind_eq_ok.mp ran
          obtain ⟨_, db₁, stored, ran⟩ := bind_eq_ok.mp ran
          have tables := insertBundleReplica_effect stored
          apply reported_cons ?_ (inductionHypothesis ran)
          rw [tables]
          constructor
          case stored =>
              intro row member
              rcases Table.mem_put.mp member with rfl | ⟨old, -⟩
              · exact .inr ⟨event, List.mem_cons_self, kind, rfl, rfl, okOr_eq_ok.mp isRaw,
                  okOr_eq_ok.mp isCompressed⟩
              · exact .inl old
          case frame =>
              intro row foreign
              have other := foreign event List.mem_cons_self
              have otherKey : row.key ≠ (event.bundleId, event.volumeId) :=
                fun same => other (Prod.mk.inj same).2.symm
              constructor
              · intro member
                rcases Table.mem_put.mp member with rfl | ⟨old, -⟩
                · exact absurd rfl otherKey
                · exact old
              · exact fun old => Table.mem_put.mpr (.inr ⟨old, otherKey⟩)
          case others => rfl
      | deleted =>
          rw [kind] at ran
          obtain ⟨_, db₁, deleted, ran⟩ := bind_eq_ok.mp ran
          have tables := deleteBundleReplica_effect deleted
          apply reported_cons ?_ (inductionHypothesis ran)
          rw [tables]
          constructor
          case stored => exact fun row member => .inl (Table.mem_delete.mp member).1
          case frame =>
              intro row foreign
              have other := foreign event List.mem_cons_self
              have otherKey : row.key ≠ (event.bundleId, event.volumeId) :=
                fun same => other (Prod.mk.inj same).2.symm
              rw [Table.mem_delete]
              simp [otherKey]
          case others => rfl

theorem updateVolumeOffset_rows {volumeId maxVolumeOffset : Nat} {info : StorageVolumeInfo}
    (ran : CentralTx.updateVolumeOffset volumeId maxVolumeOffset db = .ok info db') :
    VolumeOffsetUpdated db.1 db'.1 volumeId maxVolumeOffset := by
  obtain ⟨others, rows, row, found, -⟩ := updateVolumeOffset_effect ran
  refine ⟨?_, rows, others⟩
  obtain ⟨member, sameId⟩ := Table.mem_of_find? found
  rw [rows] at member
  obtain ⟨old, oldMem, rfl⟩ := List.mem_map.mp member
  have sameOld : old.volumeId = volumeId := by
    rw [← sameId]
    unfold offsetTo
    split <;> rfl
  exact ⟨old, Table.find?_eq_some.mpr ⟨oldMem, sameOld⟩⟩

end StorageRequest

namespace Registration

open CentralTx

variable {db db' : CentralDb}

theorem registerVolume_effect {volume registered : StorageVolumeInfo}
    (ran : registerVolume volume db = .ok registered db') :
    db'.1 = { db.1 with volumes := db'.1.volumes } := by
  obtain ⟨known, db₁, found, rest⟩ := bind_eq_ok.mp ran
  obtain ⟨rfl, -⟩ := getVolume_eq_ok found
  dsimp only at rest
  split at rest
  · obtain ⟨updated, db₂, stored, rest⟩ := bind_eq_ok.mp rest
    obtain ⟨others, -⟩ := updateVolumeOffset_effect stored
    obtain ⟨-, ended⟩ := require_bind_eq_ok.mp rest
    obtain ⟨-, rfl⟩ := EStateM.Result.ok.inj ended
    exact others
  · obtain ⟨-, ended⟩ := require_bind_eq_ok.mp rest
    obtain ⟨-, rfl⟩ := EStateM.Result.ok.inj ended
    rfl

theorem registerVolumes_effect {volumes registered : List StorageVolumeInfo}
    (ran : registerVolumes volumes db = .ok registered db') :
    db'.1 = { db.1 with volumes := db'.1.volumes } := by
  induction volumes generalizing db registered with
  | nil =>
      cases ran
      rfl
  | cons volume rest inductionHypothesis =>
      obtain ⟨first, db₁, head, tail⟩ := bind_eq_ok.mp ran
      obtain ⟨others, db₂, ranRest, ended⟩ := bind_eq_ok.mp tail
      obtain ⟨-, rfl⟩ := EStateM.Result.ok.inj ended
      rw [inductionHypothesis ranRest, registerVolume_effect head]

end Registration

/-! ## Runs of transactions -/

/-- The computation leads from the first tables to the second, with some cache beside them. -/
def CentralTx.RanOn {α : Type} (m : CentralTx α) (before after : CentralTables) : Prop :=
  ∃ cache a cache', m (before, cache) = .ok a (after, cache')

/-- The computation of a transaction leads from the first tables to the second. -/
def Transaction.Ran (before after : CentralTables) : Transaction → Prop
  | .beginUpdate request volumeId now =>
      (UpdateRequest.beginUpdateTx request volumeId now).RanOn before after
  | .dropLease leaseId => (CentralTx.deleteUpdateLease leaseId).RanOn before after
  | .commitUpdate request now =>
      ∃ leaseNow, (UpdateRequest.commitUpdateTx request now leaseNow).RanOn before after
  | .abortUpdate leaseId fileId =>
      ∃ now, (UpdateRequest.abortUpdateTx leaseId fileId now).RanOn before after
  | .deleteFile fileId now => (ClientRequest.deleteFileByIdTx fileId now).RanOn before after
  | .copyFile sourceFileId targetPath now =>
      (ClientRequest.copyFileByIdTx sourceFileId targetPath now).RanOn before after
  | .renameFile fileId targetPath now =>
      (ClientRequest.renameFileByIdTx fileId targetPath now).RanOn before after
  | .registerVolumes volumes => (Registration.registerVolumes volumes).RanOn before after
  | .createVolume name maxBytes => (CentralTx.createVolume name maxBytes).RanOn before after
  | .reportReplicas events => (StorageRequest.applyReplicaEvents events).RanOn before after
  | .updateVolumeOffset volumeId maxVolumeOffset =>
      (CentralTx.updateVolumeOffset volumeId maxVolumeOffset).RanOn before after

theorem Transaction.Ran.effect {before after : CentralTables} {tx : Transaction}
    (ran : tx.Ran before after) : tx.Effect before after := by
  cases tx with
  | beginUpdate request volumeId now =>
      obtain ⟨_, lease, _, ran⟩ := ran
      exact ⟨lease, UpdateRequest.beginUpdateTx_effect ran⟩
  | dropLease leaseId =>
      obtain ⟨_, _, _, ran⟩ := ran
      exact CentralTx.deleteUpdateLease_effect ran
  | commitUpdate request now =>
      obtain ⟨_, _, _, _, ran⟩ := ran
      exact UpdateRequest.commitUpdateTx_effect ran
  | abortUpdate leaseId fileId =>
      obtain ⟨_, _, _, _, ran⟩ := ran
      exact UpdateRequest.abortUpdateTx_effect ran
  | deleteFile fileId now =>
      obtain ⟨_, _, _, ran⟩ := ran
      exact ClientRequest.deleteFileByIdTx_effect ran
  | copyFile sourceFileId targetPath now =>
      obtain ⟨_, _, _, ran⟩ := ran
      exact ClientRequest.copyFileByIdTx_effect ran
  | renameFile fileId targetPath now =>
      obtain ⟨_, _, _, ran⟩ := ran
      exact ClientRequest.renameFileByIdTx_effect ran
  | registerVolumes volumes =>
      obtain ⟨_, _, _, ran⟩ := ran
      exact Registration.registerVolumes_effect ran
  | createVolume name maxBytes =>
      obtain ⟨_, _, _, ran⟩ := ran
      exact CentralTx.createVolume_effect ran
  | reportReplicas events =>
      obtain ⟨_, _, _, ran⟩ := ran
      exact StorageRequest.applyReplicaEvents_effect ran
  | updateVolumeOffset volumeId maxVolumeOffset =>
      obtain ⟨_, _, _, ran⟩ := ran
      exact StorageRequest.updateVolumeOffset_rows ran

/-! ## Sections -/

namespace CentralM

variable {α β : Type} {P : CentralTables → CentralTables → Prop}

/-- Leaves the tables as they are, whether or not it fails. -/
def KeepsTables (m : CentralM α) : Prop :=
  ∀ server, (endState (m server)).db.1 = server.db.1

/-- Leaves the tables as they are or changes them as allowed. -/
def Changes (P : CentralTables → CentralTables → Prop) (m : CentralM α) : Prop :=
  ∀ server, (endState (m server)).db.1 = server.db.1 ∨
    P server.db.1 (endState (m server)).db.1

theorem KeepsTables.changes {m : CentralM α} (keeps : KeepsTables m) : Changes P m :=
  fun server => .inl (keeps server)

theorem KeepsTables.pure (a : α) : KeepsTables (Pure.pure a : CentralM α) := fun _ => rfl

theorem KeepsTables.throw (err : Fs0Error) :
    KeepsTables (MonadExcept.throw err : CentralM α) := fun _ => rfl

theorem KeepsTables.lift (result : Fs0Result α) :
    KeepsTables (Fallible.lift result : CentralM α) := by
  intro server
  cases result <;> rfl

theorem KeepsTables.require (condition : Prop) [Decidable condition] (err : Fs0Error) :
    KeepsTables (Fallible.require condition err : CentralM PUnit) := by
  intro server
  unfold Fallible.require
  split <;> rfl

theorem KeepsTables.bind {m : CentralM α} {f : α → CentralM β} (first : KeepsTables m)
    (second : ∀ a, KeepsTables (f a)) : KeepsTables (m >>= f) := by
  intro server
  have kept := first server
  rw [bind_apply]
  cases ran : m server with
  | ok a server' =>
      rw [ran] at kept
      exact (second a server').trans kept
  | error err server' =>
      rw [ran] at kept
      exact kept

theorem read_keepsTables (select : CentralServer → α) : KeepsTables (read select) := fun _ => rfl

theorem storagePeersSnapshot_keepsTables : KeepsTables storagePeersSnapshot := fun _ => rfl

theorem nextId_keepsTables : KeepsTables nextId := fun _ => rfl

theorem inspect_keepsTables (m : CentralTx α) : KeepsTables (inspect m) := by
  intro server
  have rolledBack := congrArg Prod.fst (inspect_endState m server.db)
  unfold inspect locked
  cases ran : Fallible.inspect m server.db <;> rw [ran] at rolledBack <;> exact rolledBack

theorem inspect_eq_ok {m : CentralTx α} {server server' : CentralServer} {a : α}
    (ran : inspect m server = .ok a server') : ∃ db, m server.db = .ok a db ∧
      server' = { server with db := (server.db.1, db.2) } := by
  unfold inspect locked Fallible.inspect at ran
  cases body : m server.db with
  | ok b db =>
      rw [body] at ran
      obtain ⟨rfl, rfl⟩ := EStateM.Result.ok.inj ran
      exact ⟨db, rfl, rfl⟩
  | error err db =>
      rw [body] at ran
      cases ran

theorem inspect_of_ok {m : CentralTx α} {server : CentralServer} {a : α} {db : CentralDb}
    (body : m server.db = .ok a db) :
    inspect m server = .ok a { server with db := (server.db.1, db.2) } := by
  unfold inspect locked Fallible.inspect
  rw [body]

theorem transact_eq_ok {commit : Option Fs0Error} {m : CentralTx α}
    {server server' : CentralServer} {a : α} (ran : transact commit m server = .ok a server') :
    commit = none ∧ ∃ db, m server.db = .ok a db ∧ server' = { server with db := db } := by
  unfold transact locked at ran
  split at ran
  next db committed =>
    obtain ⟨rfl, rfl⟩ := EStateM.Result.ok.inj ran
    obtain ⟨body, noError⟩ := Fallible.transact_eq_ok.mp committed
    exact ⟨noError, db, body, rfl⟩
  · cases ran

theorem transact_eq_error {commit : Option Fs0Error} {m : CentralTx α}
    {server server' : CentralServer} {err : Fs0Error}
    (ran : transact commit m server = .error err server') :
    server' = { server with db := (server.db.1, (endState (m server.db)).2) } := by
  unfold transact locked at ran
  split at ran
  · cases ran
  next failed =>
    obtain ⟨rfl, rfl⟩ := EStateM.Result.error.inj ran
    rw [Fallible.transact_eq_error failed]

theorem transact_of_ok {m : CentralTx α} {server : CentralServer} {a : α} {db : CentralDb}
    (ran : m server.db = .ok a db) :
    transact none m server = .ok a { server with db := db } := by
  unfold transact locked
  rw [Fallible.transact_eq_ok.mpr ⟨ran, rfl⟩]

theorem transact_changes {commit : Option Fs0Error} {m : CentralTx α}
    (effect : ∀ db a db', m db = .ok a db' → P db.1 db'.1) : Changes P (transact commit m) := by
  intro server
  cases ran : transact commit m server with
  | ok a server' =>
      obtain ⟨-, db, body, rfl⟩ := transact_eq_ok ran
      exact .inr (effect _ _ _ body)
  | error err server' =>
      rw [transact_eq_error ran]
      exact .inl rfl

theorem Changes.bind_left {m : CentralM α} {f : α → CentralM β} (first : Changes P m)
    (second : ∀ a, KeepsTables (f a)) : Changes P (m >>= f) := by
  intro server
  have changed := first server
  rw [bind_apply]
  cases ran : m server with
  | ok a server' =>
      rw [ran, endState_ok] at changed
      dsimp only
      rw [second a server']
      exact changed
  | error err server' =>
      rw [ran] at changed
      exact changed

theorem Changes.bind_right {m : CentralM α} {f : α → CentralM β} (first : KeepsTables m)
    (second : ∀ a, Changes P (f a)) : Changes P (m >>= f) := by
  intro server
  have kept := first server
  rw [bind_apply]
  cases ran : m server with
  | ok a server' =>
      rw [ran, endState_ok] at kept
      have changed := second a server'
      rw [kept] at changed
      exact changed
  | error err server' =>
      rw [ran] at kept
      exact .inl kept

end CentralM

end Fs0
