import Fs0.Central.Origins
import Fs0.Central.Polling

/-!
Contract: what those who call central make of its answers.

Owns:
- the methods of the client's session and of the storage's connection, from the answer on;
- what the answer to each request tells the caller;
- that in every run a caller that is sent no error takes the answer it gets, and that the
  answer tells of what was asked.

Does not own: how the calls reach central.
-/

set_option autoImplicit false

namespace Fs0

open Lib Fallible CentralM

/-! ## The calling sides -/

/-! A method sends its request, and then goes on from the answer. Central answers a request for
a path like the one for an id, so there are no responses of the kinds for paths. -/

namespace CentralSession

/-- `CentralSession::request`, once the call is over. -/
def request : ProtocolResponse → Fs0Result ControlResponse
  | .error err => .error err
  | .control response => .ok response

def unexpected (response : ControlResponse) : Fs0Error :=
  .invalidFrame s!"unexpected control response: {repr response}"

/-- A method that takes the responses of one kind. -/
def call {α : Type} (select : ControlResponse → Option α) (answer : ProtocolResponse) :
    Fs0Result α := do
  let response ← request answer
  okOr (select response) (unexpected response)

/-- The registration in `ensure_connected`. -/
def ensureConnected : ProtocolResponse → Fs0Result (Nat × List StoragePeerInfo) :=
  call fun response => match response with
    | .registerClient clientId storages => some (clientId, storages)
    | _ => none

def centralStatus : ProtocolResponse → Fs0Result (Nat × List StoragePeerInfo) :=
  call fun response => match response with
    | .centralStatus clientsCount storages => some (clientsCount, storages)
    | _ => none

def createVolume : ProtocolResponse → Fs0Result Nat :=
  call fun response => match response with
    | .createVolume volumeId => some volumeId
    | _ => none

def listDirectory : ProtocolResponse → Fs0Result DirectoryEntries :=
  call fun response => match response with
    | .listDirectory entries => some entries
    | _ => none

def getFileReadPlan : ProtocolResponse → Fs0Result FileReadPlan :=
  call fun response => match response with
    | .getFileReadPlanById plan => some plan
    | _ => none

def hasBundle : ProtocolResponse → Fs0Result Bool :=
  call fun response => match response with
    | .hasBundle exists' => some exists'
    | _ => none

def deleteFile : ProtocolResponse → Fs0Result Unit :=
  call fun response => match response with
    | .deleteFileById => some ()
    | _ => none

def deleteFileById : ProtocolResponse → Fs0Result Unit := deleteFile

def copyFile : ProtocolResponse → Fs0Result FileRecord :=
  call fun response => match response with
    | .copyFileById file => some file
    | _ => none

def copyFileById : ProtocolResponse → Fs0Result FileRecord := copyFile

def renameFile : ProtocolResponse → Fs0Result FileRecord :=
  call fun response => match response with
    | .renameFileById file => some file
    | _ => none

def renameFileById : ProtocolResponse → Fs0Result FileRecord := renameFile

def beginUpdate : ProtocolResponse → Fs0Result UpdateLease :=
  call fun response => match response with
    | .beginUpdate lease => some lease
    | _ => none

def commitUpdate : ProtocolResponse → Fs0Result FileRecord :=
  call fun response => match response with
    | .commitUpdate file => some file
    | _ => none

def abortUpdate : ProtocolResponse → Fs0Result Unit :=
  call fun response => match response with
    | .abortUpdate => some ()
    | _ => none

def getFileChangeLogs : ProtocolResponse → Fs0Result FileChangeLogs :=
  call fun response => match response with
    | .getFileChangeLogs logs => some logs
    | _ => none

end CentralSession

namespace CentralConnection

/-- A method of the connection of a storage, which matches the answer as a whole. -/
def call {α : Type} (name : String) (select : ControlResponse → Option α) :
    ProtocolResponse → Fs0Result α
  | .error err => .error err
  | .control response =>
      okOr (select response)
        (.invalidFrame s!"unexpected {name} response: {repr (ProtocolResponse.control response)}")

def registerStorage : ProtocolResponse → Fs0Result (Nat × List StoragePeerInfo) :=
  call "storage registration" fun response => match response with
    | .registerStorage storageId storages => some (storageId, storages)
    | _ => none

def validateClientAuth : ProtocolResponse → Fs0Result Unit :=
  call "validate client auth" fun response => match response with
    | .validateClientAuth _ => some ()
    | _ => none

def updateStorageEndpoint : ProtocolResponse → Fs0Result Unit :=
  call "update storage endpoint" fun response => match response with
    | .updateStorageEndpoint => some ()
    | _ => none

def reportBundleReplica : ProtocolResponse → Fs0Result Unit :=
  call "report bundle replica" fun response => match response with
    | .reportBundleReplica => some ()
    | _ => none

def updateStorageVolumeOffset : ProtocolResponse → Fs0Result Unit :=
  call "update storage volume offset" fun response => match response with
    | .updateStorageVolumeOffset => some ()
    | _ => none

end CentralConnection

/-! ## What an answer tells -/

/-- The caller fails with the error it was sent, or takes a value with a property. -/
def Taken {α : Type} (method : ProtocolResponse → Fs0Result α) (tells : α → Prop)
    (answer : ProtocolResponse) : Prop :=
  (∃ err, answer = .error err ∧ method answer = .error err) ∨
    ∃ value, method answer = .ok value ∧ tells value

/-- A page of a listing is within the limit, and the next one begins where it ends. -/
def DirectoryEntries.Answers (limit : Nat) (cursor : Option Nat) (page : DirectoryEntries) :
    Prop :=
  page.entries.length ≤ min (max limit 1) 1024 ∧
    ∀ next, page.nextCursor = some next → next = cursor.getD 0 + page.entries.length

/-- A page of the log is within the limit, and after the event the caller has got to. -/
def FileChangeLogs.Answers (afterEventId limit : Nat) (page : FileChangeLogs) : Prop :=
  page.operations.length ≤ min (max limit 1) 1024 ∧
    (∀ log ∈ page.operations, afterEventId < log.eventId) ∧
    ∀ next, page.nextEventId = some next →
      page.operations.getLast?.map FileChangeLog.eventId = some next

/-- The answer is taken by the caller of the request, and tells of what was asked. A request
that only storages get is refused. -/
def ControlRequest.TakenBy : ControlRequest → ProtocolResponse → Prop
  | .registerClient _ _ _ => Taken CentralSession.ensureConnected fun _ => True
  | .registerStorage _ _ _ _ _ => Taken CentralConnection.registerStorage fun _ => True
  | .updateStorageEndpoint _ _ => Taken CentralConnection.updateStorageEndpoint fun _ => True
  | .createVolume _ _ => Taken CentralSession.createVolume fun _ => True
  | .centralStatus => Taken CentralSession.centralStatus fun _ => True
  | .listDirectory _ limit cursor =>
      Taken CentralSession.listDirectory fun page => page.Answers limit cursor
  | .getFileReadPlan _ => Taken CentralSession.getFileReadPlan fun _ => True
  | .getFileReadPlanById fileId =>
      Taken CentralSession.getFileReadPlan fun plan => plan.fileId = fileId
  | .hasBundle _ _ => Taken CentralSession.hasBundle fun _ => True
  | .deleteFile _ => Taken CentralSession.deleteFile fun _ => True
  | .deleteFileById _ => Taken CentralSession.deleteFileById fun _ => True
  | .copyFile _ _ => Taken CentralSession.copyFile fun _ => True
  | .copyFileById sourceFileId _ =>
      Taken CentralSession.copyFileById fun file => sourceFileId < file.fileId
  | .renameFile _ _ => Taken CentralSession.renameFile fun _ => True
  | .renameFileById fileId _ =>
      Taken CentralSession.renameFileById fun file => file.fileId = fileId
  | .getFileChangeLogs afterEventId limit =>
      Taken CentralSession.getFileChangeLogs fun page => page.Answers afterEventId limit
  | .beginUpdate request => Taken CentralSession.beginUpdate fun lease =>
      lease.offset = request.offset ∧ lease.preferVolumeName = request.preferVolumeName ∧
        request.offset ≤ lease.baseSize
  | .commitUpdate request => Taken CentralSession.commitUpdate fun file =>
      file.fileId = request.fileId ∧ file.sizeBytes = request.newSize
  | .abortUpdate _ _ => Taken CentralSession.abortUpdate fun _ => True
  | .grantUploadLease _ => fun answer => ∃ err, answer = .error err
  | .revokeUploadLease _ => fun answer => ∃ err, answer = .error err
  | .reportBundleReplica _ => Taken CentralConnection.reportBundleReplica fun _ => True
  | .updateStorageVolumeOffset _ _ =>
      Taken CentralConnection.updateStorageVolumeOffset fun _ => True
  | .validateClientAuth _ _ => Taken CentralConnection.validateClientAuth fun _ => True

/-- A frame of another kind is refused. -/
def ProtocolRequest.TakenBy : ProtocolRequest → ProtocolResponse → Prop
  | .control request => request.TakenBy
  | .other => fun answer => answer = .error .invalidRequest

/-- Every caller passes an error on. -/
theorem ControlRequest.takenBy_error (request : ControlRequest) (err : Fs0Error) :
    request.TakenBy (.error err) := by
  cases request with
  | grantUploadLease request => exact ⟨err, rfl⟩
  | revokeUploadLease leaseId => exact ⟨err, rfl⟩
  | _ => exact .inl ⟨err, rfl, rfl⟩

/-- A response that fits a request. -/
def ControlRequest.Fits (request : ControlRequest) (response : ControlResponse) : Prop :=
  request.TakenBy (.control response)

/-! ## Sections -/

theorem listDirectory_answers {dir : String} {limit : Nat} {cursor : Option Nat}
    {db db' : CentralDb} {page : DirectoryEntries}
    (listed : CentralTx.listDirectory dir limit cursor db = .ok page db') :
    page.Answers limit cursor := by
  unfold CentralTx.listDirectory at listed
  unfold DirectoryEntries.Answers
  generalize min (max limit 1) 1024 = bound at listed ⊢
  obtain ⟨dirId, db₁, -, listed⟩ := bind_eq_ok.mp listed
  obtain ⟨-, listed⟩ := CentralTx.bindU64_bind_eq_ok.mp listed
  obtain ⟨-, listed⟩ := CentralTx.bindU64_bind_eq_ok.mp listed
  obtain ⟨-, listed⟩ := CentralTx.bindU64_bind_eq_ok.mp listed
  rw [CentralTx.query_bind_eq_ok] at listed
  obtain ⟨entries, -, listed⟩ := lift_bind_eq_ok.mp listed
  split at listed
  · next more =>
    obtain ⟨rfl, -⟩ := EStateM.Result.ok.inj listed
    have full : (entries.take bound).length = bound := by
      rw [List.length_take]
      omega
    refine ⟨Nat.le_of_eq full, fun next isNext => ?_⟩
    rw [full]
    exact (Option.some.inj isNext).symm
  · next noMore =>
    obtain ⟨rfl, -⟩ := EStateM.Result.ok.inj listed
    exact ⟨Nat.le_of_not_lt noMore, fun next isNext => by cases isNext⟩

theorem getFileChangeLogs_answers {afterEventId limit : Nat} {db db' : CentralDb}
    {page : FileChangeLogs}
    (read : CentralTx.getFileChangeLogs afterEventId limit db = .ok page db') :
    page.Answers afterEventId limit := by
  unfold CentralTx.getFileChangeLogs at read
  unfold FileChangeLogs.Answers
  generalize min (max limit 1) 1024 = bound at read ⊢
  obtain ⟨-, read⟩ := CentralTx.bindU64_bind_eq_ok.mp read
  obtain ⟨-, read⟩ := CentralTx.bindU64_bind_eq_ok.mp read
  rw [CentralTx.query_bind_eq_ok] at read
  obtain ⟨events, mapped, read⟩ := lift_bind_eq_ok.mp read
  have later : ∀ log ∈ events, afterEventId < log.eventId := by
    rw [mapM_toFileChangeLog] at mapped
    obtain rfl := Except.ok.inj mapped
    intro log member
    obtain ⟨row, isRow, rfl⟩ := List.mem_map.mp member
    have selected := (List.mem_insertionSort _).mp (List.mem_of_mem_take isRow)
    exact of_decide_eq_true (List.mem_filter.mp selected).2
  split at read
  · next more =>
    obtain ⟨rfl, -⟩ := EStateM.Result.ok.inj read
    refine ⟨?_, fun log member => later log (List.mem_of_mem_take member), fun next => id⟩
    rw [List.length_take]
    exact Nat.min_le_left _ _
  · next noMore =>
    obtain ⟨rfl, -⟩ := EStateM.Result.ok.inj read
    exact ⟨Nat.le_of_not_lt noMore, later, fun next isNext => by cases isNext⟩

theorem getFileReadPlanById_fileId {fileId : Nat} {server server' : CentralServer}
    {response : ControlResponse}
    (ran : ClientRequest.getFileReadPlanById fileId server = .ok response server') :
    ∃ plan, response = .getFileReadPlanById plan ∧ plan.fileId = fileId := by
  obtain ⟨⟨record, rows, replicas⟩, server₁, inspected, ran⟩ := bind_eq_ok.mp ran
  obtain ⟨db, read, rfl⟩ := inspect_eq_ok inspected
  obtain ⟨onlineVolumes, server₂, -, ran⟩ := bind_eq_ok.mp ran
  obtain ⟨bundles, -, ended⟩ := lift_bind_eq_ok.mp ran
  obtain ⟨rfl, -⟩ := EStateM.Result.ok.inj ended
  refine ⟨_, rfl, ?_⟩
  obtain ⟨file, -, found, read⟩ := CentralTx.getFileById_bind_eq_ok.mp read
  obtain ⟨record', db₁, recorded, read⟩ := bind_eq_ok.mp read
  obtain ⟨rows', db₂, -, read⟩ := bind_eq_ok.mp read
  obtain ⟨replicas', db₃, -, ended⟩ := bind_eq_ok.mp read
  obtain ⟨same, -⟩ := EStateM.Result.ok.inj ended
  obtain ⟨rfl, -⟩ := Prod.mk.inj same
  exact (CentralTx.fileRecord_eq_ok recorded).1.trans (Table.mem_of_find? found).2

theorem copyFileByIdTx_fileId {sourceFileId now : Nat} {targetPath : String}
    {db db' : CentralDb} {record : FileRecord}
    (ran : ClientRequest.copyFileByIdTx sourceFileId targetPath now db = .ok record db') :
    sourceFileId < record.fileId := by
  obtain ⟨target, -, rest⟩ := lift_bind_eq_ok.mp ran
  obtain ⟨file, db₁, copied, rest⟩ := bind_eq_ok.mp rest
  obtain ⟨source, dirs, dirId, name, isSource, rfl, -⟩ := CentralTx.copyFileById_effect copied
  obtain ⟨_, db₂, -, rest⟩ := bind_eq_ok.mp rest
  obtain ⟨_, db₃, -, recorded⟩ := bind_eq_ok.mp rest
  rw [(CentralTx.fileRecord_eq_ok recorded).1]
  exact Nat.lt_succ_of_le (SeqTable.find?_le_seq isSource)

theorem renameFileByIdTx_fileId {fileId now : Nat} {targetPath : String} {db db' : CentralDb}
    {record : FileRecord}
    (ran : ClientRequest.renameFileByIdTx fileId targetPath now db = .ok record db') :
    record.fileId = fileId := by
  obtain ⟨target, -, rest⟩ := lift_bind_eq_ok.mp ran
  obtain ⟨file, db₁, renamed, rest⟩ := bind_eq_ok.mp rest
  obtain ⟨_, db₂, -, recorded⟩ := bind_eq_ok.mp rest
  obtain ⟨old, dirs, dirId, name, -, found, -⟩ := CentralTx.renameFileById_effect renamed
  exact (CentralTx.fileRecord_eq_ok recorded).1.trans (Table.mem_of_find? found).2

theorem commitUpdateTx_record {request : CommitUpdateRequest} {now leaseNow : Nat}
    {db db' : CentralDb} {record : FileRecord}
    (ran : UpdateRequest.commitUpdateTx request now leaseNow db = .ok record db') :
    record.fileId = request.fileId ∧ record.sizeBytes = request.newSize := by
  obtain ⟨⟨lease, file⟩, db₁, checked, rest⟩ := bind_eq_ok.mp ran
  obtain ⟨-, sameFile, -⟩ := UpdateRequest.commitUpdateChecks_eq_ok checked
  obtain ⟨_, db₂, -, rest⟩ := bind_eq_ok.mp rest
  obtain ⟨_, db₃, -, rest⟩ := bind_eq_ok.mp rest
  obtain ⟨-, rest⟩ := require_bind_eq_ok.mp rest
  obtain ⟨updated, db₄, resized, rest⟩ := bind_eq_ok.mp rest
  have rest := CentralTx.deleteUpdateLease_bind_eq_ok rest
  obtain ⟨dir, db₅, -, rest⟩ := bind_eq_ok.mp rest
  obtain ⟨_, db₆, -, recorded⟩ := bind_eq_ok.mp rest
  obtain ⟨found, tables⟩ := CentralTx.updateFileAfterUpdate_effect resized
  obtain ⟨sameId, sameSize⟩ := CentralTx.fileRecord_eq_ok recorded
  rw [tables, CentralTx.find?_filesResized] at found
  obtain ⟨old, isOld, rfl⟩ := Option.map_eq_some_iff.mp found
  have isFile := (Table.mem_of_find? isOld).2
  rw [CentralTables.resizedTo, if_pos isFile] at sameId sameSize
  exact ⟨sameId.trans (isFile.trans sameFile), sameSize⟩

theorem beginUpdateTx_lease {request : BeginUpdateRequest} {volumeId now : Nat}
    {db db' : CentralDb} {lease : UpdateLease}
    (ran : UpdateRequest.beginUpdateTx request volumeId now db = .ok lease db') :
    lease.offset = request.offset ∧ lease.preferVolumeName = request.preferVolumeName ∧
      request.offset ≤ lease.baseSize := by
  obtain ⟨file, mid, -, within, rfl, -⟩ := UpdateRequest.beginUpdateTx_effect ran
  exact ⟨rfl, rfl, within⟩

/-! ## Handlers -/

/-- A handler that works on a request: what it still has to know of the request, and a response
it carries. -/
def Handler.Serves (request : ControlRequest) : Handler → Prop
  | .start other => other = request
  | .insertClient _ _ => ∃ name token version, request = .registerClient name token version
  | .clientInserted _ => ∃ name token version, request = .registerClient name token version
  | .volumesRegistered _ _ _ => ∃ name token version volumes irohEndpoint,
      request = .registerStorage name token version volumes irohEndpoint
  | .mountVolumes _ => ∃ name token version volumes irohEndpoint,
      request = .registerStorage name token version volumes irohEndpoint
  | .insertStorage _ => ∃ name token version volumes irohEndpoint,
      request = .registerStorage name token version volumes irohEndpoint
  | .storageInserted _ => ∃ name token version volumes irohEndpoint,
      request = .registerStorage name token version volumes irohEndpoint
  | .centralStatus _ => request = .centralStatus
  | .getFileReadPlanById _ => ∃ path, request = .getFileReadPlan path
  | .deleteFileById _ => ∃ path, request = .deleteFile path
  | .copyFileById _ targetPath => ∃ sourcePath, request = .copyFile sourcePath targetPath
  | .renameFileById _ targetPath => ∃ sourcePath, request = .renameFile sourcePath targetPath
  | .beginUpdate update _ _ => request = .beginUpdate update
  | .grantLease _ lease => request.Fits (.beginUpdate lease)
  | .awaitGrant lease => request.Fits (.beginUpdate lease)
  | .dropLease _ _ => True
  | .commitUpdate update _ => request = .commitUpdate update
  | .revokeLease _ _ response => request.Fits response
  | .awaitRevoke response => request.Fits response
  | .storeVolumeOffset _ _ _ => ∃ volumeId maxVolumeOffset,
      request = .updateStorageVolumeOffset volumeId maxVolumeOffset
  | .broadcast response => request.Fits response
  | .answer response => request.Fits response

def Progress.Serves (request : ControlRequest) : Progress → Prop
  | .next handler => handler.Serves request
  | .identify _ handler => handler.Serves request
  | .respond response => request.Fits response

section Sections

variable (config : CentralConfig) (inputs : Inputs)

/-- A section that computes the response. -/
theorem responding_serves {request : ControlRequest} {m : CentralM ControlResponse}
    (fits : Returns request.Fits m) : Yields (Progress.Serves request) (responding m) := by
  intro server progress server' ran
  obtain ⟨response, server₁, responds, ended⟩ := bind_eq_ok.mp ran
  obtain ⟨rfl, -⟩ := EStateM.Result.ok.inj ended
  exact fits server response server₁ responds

/-- A section whose response is made from the result of a transaction. -/
theorem transacting_serves {α : Type} {request : ControlRequest} {tx : CentralTx α}
    {answer : α → ControlResponse}
    (fits : ∀ db a db', tx db = .ok a db' → request.Fits (answer a)) :
    Yields (Progress.Serves request)
      (responding (CentralM.transact inputs.commit tx >>= fun a => pure (answer a))) := by
  apply responding_serves
  intro server response server' ran
  obtain ⟨a, server₁, transacted, ended⟩ := bind_eq_ok.mp ran
  obtain ⟨rfl, -⟩ := EStateM.Result.ok.inj ended
  obtain ⟨-, db, body, -⟩ := transact_eq_ok transacted
  exact fits _ a db body

theorem Returns.answer {α : Type} {request : ControlRequest} {m : CentralM α}
    {answer : α → ControlResponse} (fits : ∀ a, request.Fits (answer a)) :
    Returns request.Fits (m >>= fun a => pure (answer a)) :=
  Returns.bind fun a => Returns.pure (fits a)

theorem getFileReadPlanById_serves {request : ControlRequest} {fileId : Nat}
    (asks : request = .getFileReadPlanById fileId ∨ ∃ path, request = .getFileReadPlan path) :
    Yields (Progress.Serves request) (responding (ClientRequest.getFileReadPlanById fileId)) := by
  apply responding_serves
  intro server response server' ran
  obtain ⟨plan, rfl, isId⟩ := getFileReadPlanById_fileId ran
  rcases asks with rfl | ⟨path, rfl⟩
  · exact .inr ⟨plan, rfl, isId⟩
  · exact .inr ⟨plan, rfl, trivial⟩

theorem revokeIfOnline_serves {request : ControlRequest} {response : ControlResponse}
    (fits : request.Fits response) (storageId : Option Nat) (leaseId : Nat) :
    (revokeIfOnline storageId leaseId response).Serves request := by
  cases storageId with
  | none => exact fits
  | some storageId => exact fits

theorem handleClientRequest_serves (request : ControlRequest) :
    Yields (Progress.Serves request) (handleClientRequest config inputs request) := by
  cases request with
  | centralStatus => exact Yields.bind fun _ => Yields.pure rfl
  | createVolume name maxBytes =>
      exact responding_serves (Returns.answer fun _ => .inr ⟨_, rfl, trivial⟩)
  | listDirectory dir limit cursor =>
      exact transacting_serves inputs fun db page db' listed =>
        .inr ⟨page, rfl, listDirectory_answers listed⟩
  | getFileReadPlan path => exact Yields.bind fun _ => Yields.pure ⟨path, rfl⟩
  | getFileReadPlanById fileId => exact getFileReadPlanById_serves (.inl rfl)
  | hasBundle bundleId volumeId =>
      exact responding_serves (Returns.answer fun _ => .inr ⟨_, rfl, trivial⟩)
  | deleteFile path => exact Yields.bind fun _ => Yields.pure ⟨path, rfl⟩
  | deleteFileById fileId =>
      exact responding_serves (Returns.answer fun _ => .inr ⟨_, rfl, trivial⟩)
  | copyFile sourcePath targetPath => exact Yields.bind fun _ => Yields.pure ⟨sourcePath, rfl⟩
  | copyFileById sourceFileId targetPath =>
      exact transacting_serves inputs fun db record db' copied =>
        .inr ⟨record, rfl, copyFileByIdTx_fileId copied⟩
  | renameFile sourcePath targetPath => exact Yields.bind fun _ => Yields.pure ⟨sourcePath, rfl⟩
  | renameFileById fileId targetPath =>
      exact transacting_serves inputs fun db record db' renamed =>
        .inr ⟨record, rfl, renameFileByIdTx_fileId renamed⟩
  | getFileChangeLogs afterEventId limit =>
      apply responding_serves
      intro server response server' ran
      obtain ⟨page, server₁, inspected, ended⟩ := bind_eq_ok.mp ran
      obtain ⟨rfl, -⟩ := EStateM.Result.ok.inj ended
      obtain ⟨db, read, -⟩ := inspect_eq_ok inspected
      exact .inr ⟨page, rfl, getFileChangeLogs_answers read⟩
  | beginUpdate update => exact Yields.bind fun _ => Yields.pure rfl
  | commitUpdate update => exact Yields.bind fun _ => Yields.pure rfl
  | abortUpdate leaseId fileId =>
      have fits : (ControlRequest.abortUpdate leaseId fileId).Fits .abortUpdate :=
        .inr ⟨(), rfl, trivial⟩
      exact Yields.bind fun _ => Yields.pure (revokeIfOnline_serves fits _ _)
  | _ => exact Yields.throw _

theorem handleStorageRequest_serves (storageId : Nat) (request : ControlRequest) :
    Yields (Progress.Serves request) (handleStorageRequest inputs storageId request) := by
  cases request with
  | createVolume name maxBytes =>
      exact responding_serves (Returns.answer fun _ => .inr ⟨_, rfl, trivial⟩)
  | validateClientAuth clientId clientToken =>
      exact responding_serves (Returns.bind fun _ => Returns.bind fun _ => Returns.bind fun _ =>
        Returns.pure (.inr ⟨(), rfl, trivial⟩))
  | reportBundleReplica events =>
      exact responding_serves (Returns.bind fun _ => Returns.bind fun _ => Returns.bind fun _ =>
        Returns.pure (.inr ⟨(), rfl, trivial⟩))
  | updateStorageEndpoint requestStorageId irohEndpoint =>
      apply Yields.bind
      intro _
      have fits : Returns (ControlRequest.updateStorageEndpoint requestStorageId irohEndpoint).Fits
          (StorageRequest.updateStorageEndpoint storageId irohEndpoint) :=
        Returns.bind fun _ => Returns.bind fun _ => Returns.bind fun _ =>
          Returns.pure (.inr ⟨(), rfl, trivial⟩)
      intro server progress server' ran
      obtain ⟨response, server₁, updated, ended⟩ := bind_eq_ok.mp ran
      obtain ⟨rfl, -⟩ := EStateM.Result.ok.inj ended
      exact fits server response server₁ updated
  | updateStorageVolumeOffset volumeId maxVolumeOffset =>
      exact Yields.bind fun _ => Yields.pure ⟨volumeId, maxVolumeOffset, rfl⟩
  | _ => exact Yields.throw _

theorem handleControlRequest_serves (identity : ControlConnectionIdentity)
    (request : ControlRequest) :
    Yields (Progress.Serves request) (handleControlRequest config inputs identity request) := by
  rcases handleControlRequest_dispatch config inputs identity request with
    ⟨name, token, version, rfl⟩ | ⟨name, token, version, volumes, irohEndpoint, rfl⟩ |
    ⟨handled, -⟩
  · exact Yields.bind fun _ => Yields.bind fun _ => Yields.bind fun _ =>
      Yields.pure ⟨name, token, version, rfl⟩
  · exact Yields.bind fun _ => Yields.bind fun _ => Yields.bind fun _ =>
      Yields.pure ⟨name, token, version, volumes, irohEndpoint, rfl⟩
  · rw [handled]
    cases identity with
    | anonymous => exact Yields.throw _
    | client clientId => exact handleClientRequest_serves config inputs request
    | storage storageId => exact handleStorageRequest_serves inputs storageId request

/-- A handler goes on with the request it works on, and answers with what fits it. -/
theorem Handler.resume_serves (connection : Nat) (identity : ControlConnectionIdentity)
    {request : ControlRequest} {handler : Handler} (serves : handler.Serves request) :
    Yields (Progress.Serves request) (handler.resume config inputs connection identity) := by
  cases handler with
  | start other =>
      obtain rfl : other = request := serves
      exact handleControlRequest_serves config inputs identity other
  | insertClient clientId token => exact Yields.bind fun _ => Yields.pure serves
  | clientInserted clientId =>
      obtain ⟨name, token, version, rfl⟩ := serves
      exact Yields.bind fun storages => Yields.pure (.inr ⟨(clientId, storages), rfl, trivial⟩)
  | volumesRegistered name volumes irohEndpoint => exact Yields.bind fun _ => Yields.pure serves
  | mountVolumes peer => exact Yields.bind fun _ => Yields.pure serves
  | insertStorage peer => exact Yields.bind fun _ => Yields.pure serves
  | storageInserted storageId =>
      obtain ⟨name, token, version, volumes, irohEndpoint, rfl⟩ := serves
      exact Yields.bind fun storages => Yields.pure (.inr ⟨(storageId, storages), rfl, trivial⟩)
  | centralStatus clientsCount =>
      obtain rfl : request = .centralStatus := serves
      exact Yields.bind fun storages => Yields.pure (.inr ⟨(clientsCount, storages), rfl, trivial⟩)
  | getFileReadPlanById fileId => exact getFileReadPlanById_serves (.inr serves)
  | deleteFileById fileId =>
      obtain ⟨path, rfl⟩ := serves
      exact responding_serves (Returns.answer fun _ => .inr ⟨(), rfl, trivial⟩)
  | copyFileById sourceFileId targetPath =>
      obtain ⟨sourcePath, rfl⟩ := serves
      exact responding_serves (Returns.answer fun file => .inr ⟨file, rfl, trivial⟩)
  | renameFileById fileId targetPath =>
      obtain ⟨sourcePath, rfl⟩ := serves
      exact responding_serves (Returns.answer fun file => .inr ⟨file, rfl, trivial⟩)
  | beginUpdate update storageId volumeId =>
      obtain rfl : request = .beginUpdate update := serves
      intro server progress server' ran
      obtain ⟨lease, server₁, begun, ended⟩ := bind_eq_ok.mp ran
      obtain ⟨rfl, -⟩ := EStateM.Result.ok.inj ended
      obtain ⟨-, db, body, -⟩ := transact_eq_ok begun
      exact .inr ⟨lease, rfl, beginUpdateTx_lease body⟩
  | grantLease storageId lease =>
      intro server progress server' ran
      rcases Handler.grantLease_eq_ok ran with rfl | rfl
      · exact serves
      · trivial
  | awaitGrant lease =>
      intro server progress server' ran
      rcases Handler.awaitGrant_eq_ok ran with ⟨rfl, -⟩ | ⟨err, rfl⟩
      · exact serves
      · trivial
  | dropLease leaseId err => exact Yields.bind fun _ => Yields.throw _
  | commitUpdate update storageId =>
      obtain rfl : request = .commitUpdate update := serves
      intro server progress server' ran
      obtain ⟨file, server₁, committed, ended⟩ := bind_eq_ok.mp ran
      obtain ⟨rfl, -⟩ := EStateM.Result.ok.inj ended
      obtain ⟨-, db, body, -⟩ := transact_eq_ok committed
      have fits : (ControlRequest.commitUpdate update).Fits (.commitUpdate file) :=
        .inr ⟨file, rfl, commitUpdateTx_record body⟩
      exact revokeIfOnline_serves fits _ _
  | revokeLease storageId leaseId response =>
      apply Yields.bind
      intro storages
      cases storages.find? storageId with
      | none => exact Yields.pure serves
      | some storage => exact Yields.pure serves
  | awaitRevoke response => exact Yields.pure serves
  | storeVolumeOffset storageId volumeId registered =>
      obtain ⟨isVolume, maxVolumeOffset, rfl⟩ := serves
      exact responding_serves (Returns.bind fun _ => Returns.bind fun _ => Returns.bind fun _ =>
        Returns.bind fun _ => Returns.pure (.inr ⟨(), rfl, trivial⟩))
  | broadcast response => exact Yields.pure serves
  | answer response => exact Yields.pure serves

end Sections

/-! ## Runs -/

/-- Of the items with a property there is at most one. -/
theorem eq_of_countP_le_one {α : Type} {p : α → Bool} {items : List α} (once : items.countP p ≤ 1)
    {left right : α} (isLeft : left ∈ items) (isRight : right ∈ items) (hasLeft : p left)
    (hasRight : p right) : left = right := by
  rw [List.countP_eq_length_filter] at once
  have inLeft : left ∈ items.filter p := List.mem_filter.mpr ⟨isLeft, hasLeft⟩
  have inRight : right ∈ items.filter p := List.mem_filter.mpr ⟨isRight, hasRight⟩
  generalize items.filter p = held at once inLeft inRight
  cases held with
  | nil => cases inLeft
  | cons only rest =>
      cases rest with
      | nil => rw [List.mem_singleton.mp inLeft, List.mem_singleton.mp inRight]
      | cons other rest => simp at once

/-- What a connection waits with has arrived, and its handler works on what has arrived. -/
structure ControlConnection.Serves (conn : ControlConnection) (exchanges : List Exchange) :
    Prop where
  waiting : ∀ task ∈ conn.waiting, .arrived task.stream task.request ∈ exchanges
  handling : ∀ stream handler, conn.handling = some ⟨stream, handler⟩ →
    ∃ request, .arrived stream (.control request) ∈ exchanges ∧ handler.Serves request

namespace Central

variable {config : CentralConfig} {s s' : Central} {e : CentralEvent}
  {ts : List (Transition Central CentralEvent)} {conn conn' : ControlConnection}

/-- Every answer is one to a request that arrived on its stream, and is taken. -/
def AnswersTaken (exchanges : List Exchange) : Prop :=
  ∀ stream answer, .answered stream answer ∈ exchanges →
    ∃ request, .arrived stream request ∈ exchanges ∧ request.TakenBy answer

theorem AnswersTaken.arrived {exchanges : List Exchange} (taken : AnswersTaken exchanges)
    (stream : Nat) (request : ProtocolRequest) :
    AnswersTaken (.arrived stream request :: exchanges) := by
  intro other answer member
  rcases List.mem_cons.mp member with same | member
  · cases same
  · obtain ⟨request', arrived, takes⟩ := taken other answer member
    exact ⟨request', List.mem_cons_of_mem _ arrived, takes⟩

theorem AnswersTaken.answered {exchanges : List Exchange} (taken : AnswersTaken exchanges)
    {stream : Nat} {request : ProtocolRequest} {answer : ProtocolResponse}
    (arrived : .arrived stream request ∈ exchanges) (takes : request.TakenBy answer) :
    AnswersTaken (reply config stream answer :: exchanges) := by
  intro other answer' member
  rcases List.mem_cons.mp member with same | member
  · obtain ⟨-, rfl, rfl⟩ := reply_eq_answered.mp same.symm
    exact ⟨request, List.mem_cons_of_mem _ arrived, takes⟩
  · obtain ⟨request', arrived', takes'⟩ := taken other answer' member
    exact ⟨request', List.mem_cons_of_mem _ arrived', takes'⟩

/-- The connection serves what has arrived, with the same or fewer tasks and no new handler. -/
theorem serves_of_idle {exchanges later : List Exchange} (serves : conn.Serves exchanges)
    (grown : ∀ message ∈ exchanges, message ∈ later)
    (waiting : ∀ task ∈ conn'.waiting, task ∈ conn.waiting)
    (handling : conn'.handling = conn.handling ∨ conn'.handling = none) : conn'.Serves later where
  waiting task member := grown _ (serves.waiting task (waiting task member))
  handling stream handler handles := by
    rcases handling with same | none
    · obtain ⟨request, arrived, fits⟩ := serves.handling stream handler (same ▸ handles)
      exact ⟨request, grown _ arrived, fits⟩
    · cases none.symm.trans handles

theorem serves_of_handling {exchanges : List Exchange} (serves : conn.Serves exchanges)
    (waiting : ∀ task ∈ conn'.waiting, task ∈ conn.waiting) {stream : Nat} {handler : Handler}
    (handling : conn'.handling = some ⟨stream, handler⟩) {request : ControlRequest}
    (arrived : .arrived stream (.control request) ∈ exchanges) (fits : handler.Serves request) :
    conn'.Serves exchanges where
  waiting task member := serves.waiting task (waiting task member)
  handling stream' handler' handles := by
    obtain ⟨rfl, rfl⟩ := Handling.mk.inj (Option.some.inj (handling.symm.trans handles))
    exact ⟨request, arrived, fits⟩

/-- What a step of a connection leaves behind. -/
structure StepServes (s : Central) (conn' : ControlConnection) (s' : Central) : Prop where
  connections : s'.connections = s.connections.replace conn'
  grown : ∀ message ∈ s.exchanges, message ∈ s'.exchanges
  serves : conn'.Serves s'.exchanges
  taken : AnswersTaken s'.exchanges

theorem serves_of_step (step : ConnectionStep config s conn e s')
    (serves : conn.Serves s.exchanges) (taken : AnswersTaken s.exchanges) :
    ∃ conn', StepServes s conn' s' := by
  have same : ∀ message ∈ s.exchanges, message ∈ s.exchanges := fun _ => id
  have fewer := withoutTask_waiting conn
  cases step with
  | receive request accepting =>
      refine ⟨_, rfl, fun _ => List.mem_cons_of_mem _, ⟨?_, ?_⟩, taken.arrived _ _⟩
      · intro task member
        rcases List.mem_cons.mp member with rfl | member
        · exact List.mem_cons_self
        · exact List.mem_cons_of_mem _ (serves.waiting task member)
      · intro stream handler handles
        obtain ⟨request', arrived, fits⟩ := serves.handling stream handler handles
        exact ⟨request', List.mem_cons_of_mem _ arrived, fits⟩
  | start stream request waits unlocked =>
      exact ⟨_, rfl, same, serves_of_handling serves (fewer stream) rfl (serves.waiting _ waits) rfl,
        taken⟩
  | refuse stream waits unlocked =>
      exact ⟨_, rfl, fun _ => List.mem_cons_of_mem _,
        serves_of_idle serves (fun _ => List.mem_cons_of_mem _) (fewer stream) (.inr rfl),
        taken.answered (serves.waiting _ waits) rfl⟩
  | next inputs stream handler handler' server handles ran =>
      obtain ⟨request, arrived, fits⟩ := serves.handling stream handler handles
      have goesOn := Handler.resume_serves config inputs _ _ fits _ _ _ ran
      exact ⟨_, rfl, same, serves_of_handling serves (fun _ => id) rfl arrived goesOn, taken⟩
  | identify inputs stream handler handler' identity server handles ran =>
      obtain ⟨request, arrived, fits⟩ := serves.handling stream handler handles
      have goesOn := Handler.resume_serves config inputs _ _ fits _ _ _ ran
      exact ⟨_, rfl, same, serves_of_handling serves (fun _ => id) rfl arrived goesOn, taken⟩
  | respond inputs stream handler response server handles ran =>
      obtain ⟨request, arrived, fits⟩ := serves.handling stream handler handles
      have answers := Handler.resume_serves config inputs _ _ fits _ _ _ ran
      exact ⟨_, rfl, fun _ => List.mem_cons_of_mem _,
        serves_of_idle serves (fun _ => List.mem_cons_of_mem _) (fun _ => id) (.inr rfl),
        taken.answered arrived answers⟩
  | fail inputs stream handler err server handles ran =>
      obtain ⟨request, arrived, -⟩ := serves.handling stream handler handles
      exact ⟨_, rfl, fun _ => List.mem_cons_of_mem _,
        serves_of_idle serves (fun _ => List.mem_cons_of_mem _) (fun _ => id) (.inr rfl),
        taken.answered arrived (request.takenBy_error err)⟩
  | acceptEnds accepting =>
      exact ⟨_, rfl, same, serves_of_idle serves same (fun _ => id) (.inl rfl), taken⟩
  | dropWaiting stream ended =>
      exact ⟨_, rfl, same, serves_of_idle serves same (fewer stream) (.inl rfl), taken⟩
  | abortHandler stream handler ended handles awaits =>
      exact ⟨_, rfl, same, serves_of_idle serves same (fun _ => id) (.inr rfl), taken⟩
  | unregister ending idle =>
      unfold unregister
      cases conn.identity with
      | anonymous =>
          exact ⟨_, rfl, same, serves_of_idle serves same (fun _ => id) (.inl rfl), taken⟩
      | client clientId =>
          exact ⟨_, rfl, same, serves_of_idle serves same (fun _ => id) (.inl rfl), taken⟩
      | storage storageId =>
          exact ⟨_, rfl, same, serves_of_idle serves same (fun _ => id) (.inl rfl), taken⟩
  | unmount storageId unmounting =>
      exact ⟨_, rfl, same, serves_of_idle serves same (fun _ => id) (.inl rfl), taken⟩
  | finish unregistered =>
      exact ⟨_, rfl, same, serves_of_idle serves same (fun _ => id) (.inl rfl), taken⟩

theorem serves_of_run (run : (central config).Run ts s) :
    (∀ conn ∈ s.connections.rows, conn.Serves s.exchanges) ∧ AnswersTaken s.exchanges := by
  induction run with
  | init initial =>
      obtain rfl := initial
      constructor
      · simp [Central.initial, SeqTable.empty]
      · intro stream answer member
        cases member
  | @step ts s s' e run step inductionHypothesis =>
      obtain ⟨serves, taken⟩ := inductionHypothesis
      cases step_cases step with
      | connect =>
          refine ⟨fun other member => ?_, taken⟩
          rcases mem_appended.mp member with old | rfl
          · exact serves other old
          · exact ⟨by simp [ControlConnection.new], by simp [ControlConnection.new]⟩
      | restart => exact ⟨by simp, taken⟩
      | connection conn found step =>
          obtain ⟨conn', after⟩ := serves_of_step step (serves conn (Table.mem_of_find? found).1) taken
          refine ⟨fun other member => ?_, after.taken⟩
          rw [after.connections] at member
          rcases SeqTable.mem_replace member with rfl | ⟨old, -⟩
          · exact after.serves
          · exact serves_of_idle (serves other old) after.grown (fun _ => id) (.inl rfl)

/-- At most one request arrives on a stream. -/
theorem arrived_unique (run : (central config).Run ts s) {stream : Nat}
    {left right : ProtocolRequest} (isLeft : .arrived stream left ∈ s.exchanges)
    (isRight : .arrived stream right ∈ s.exchanges) : left = right := by
  have once : s.exchanges.countP (Exchange.arrives stream) ≤ 1 := by
    have counted := (arrivals_of_run run stream).1
    unfold arrivals at counted
    rw [counted]
    split <;> omega
  have same := eq_of_countP_le_one once isLeft isRight (decide_eq_true rfl) (decide_eq_true rfl)
  exact (Exchange.arrived.inj same).2

end Central

/-- In every run of central, the caller of a request takes the answer that comes on its stream
(it fails with the error it was sent, and with no other), and what it takes tells of what it
asked: the file, the lease or the part of a listing that the request was about. -/
theorem answers_taken {config : CentralConfig} {ts : List (Transition Central CentralEvent)}
    {s : Central} (run : (central config).Run ts s) {stream : Nat} {request : ProtocolRequest}
    {answer : ProtocolResponse} (arrived : .arrived stream request ∈ s.exchanges)
    (answered : .answered stream answer ∈ s.exchanges) : request.TakenBy answer := by
  obtain ⟨request', arrived', takes⟩ := (Central.serves_of_run run).2 stream answer answered
  rw [Central.arrived_unique run arrived arrived']
  exact takes

/-- A client that creates a file for an update, and takes the update back. -/
def Scenario.takenBack : List CentralEvent :=
  Scenario.registered ++ Scenario.request 1 3 4 2 (.beginUpdate ⟨"/a/b", 0, none, none⟩) ++
    Scenario.request 1 4 3 2 (.abortUpdate 1 1)

theorem answers_taken_takenBack : ∃ ts s lease, (central Scenario.config).Run ts s ∧
    .answered 4 (.control .abortUpdate) ∈ s.exchanges ∧
    CentralSession.beginUpdate (.control (.beginUpdate lease)) = .ok lease ∧
    (ProtocolRequest.control (.beginUpdate ⟨"/a/b", 0, none, none⟩)).TakenBy
      (.control (.beginUpdate lease)) := by
  obtain ⟨ts, s, run, -, exchanged⟩ := Scenario.run_of_exec Scenario.takenBack
    (fun s => s.exchanges.take 4)
    [.answered 4 (.control .abortUpdate), .arrived 4 (.control (.abortUpdate 1 1)),
      .answered 3 (.control (.beginUpdate ⟨1, 1, 1, 0, 0, 60002, none⟩)),
      .arrived 3 (.control (.beginUpdate ⟨"/a/b", 0, none, none⟩))] (by decide +kernel)
  have held : ∀ message ∈ s.exchanges.take 4, message ∈ s.exchanges :=
    fun _ => List.mem_of_mem_take
  rw [exchanged] at held
  have arrived : .arrived 3 (.control (.beginUpdate ⟨"/a/b", 0, none, none⟩)) ∈ s.exchanges :=
    held _ (by simp)
  have answered : .answered 3 (.control (.beginUpdate ⟨1, 1, 1, 0, 0, 60002, none⟩)) ∈
      s.exchanges := held _ (by simp)
  exact ⟨ts, s, _, run, held _ List.mem_cons_self, rfl, answers_taken run arrived answered⟩

end Fs0
