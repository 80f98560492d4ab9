import Fs0.Central.Control

/-!
Contract: the critical sections of central's request handlers.

Owns:
- the transaction each handler runs, and the reading of the maps that belongs to
  the same section;
- the steps of registering clients and storages, and of taking them out again.

Does not own: how a handler goes on from one section to the next.
-/

set_option autoImplicit false

namespace Fs0

open Lib Fallible

/-! ## Client requests -/

namespace ClientRequest

open CentralTx

/-- The transaction of `file_id_by_path`. -/
def fileIdByPathTx (path : String) : CentralTx Nat := do
  let file ← getFileByPath path
  pure file.fileId

def fileIdByPath (path : String) : CentralM Nat := CentralM.inspect (fileIdByPathTx path)

def listDirectory (commit : Option Fs0Error) (dir : String) (limit : Nat) (cursor : Option Nat) :
    CentralM ControlResponse := do
  let entries ← CentralM.transact commit (CentralTx.listDirectory dir limit cursor)
  pure (.listDirectory entries)

structure BundleReadTarget where
  rawLen : Nat
  compressedLen : Nat
  replicas : List ReplicaLocation
deriving DecidableEq, Repr

/-- The entry of a bundle in `bundle_replicas`: the lengths of the first replica
on an online volume, and where all of them are. -/
def bundleReadTarget (onlineVolumes : Table OnlineVolume.volumeId)
    (replicas : List BundleReplicaRow) (bundleId : HashId) : Option BundleReadTarget :=
  let online := replicas.filterMap fun replica =>
    if replica.bundleId = bundleId then
      (onlineVolumes.find? replica.volumeId).map fun mounted => (replica, mounted.storageId)
    else none
  online.head?.map fun first =>
    ⟨first.1.rawLen, first.1.compressedLen,
      online.map fun entry => ⟨entry.2, entry.1.volumeId⟩⟩

def fileBundleRef (onlineVolumes : Table OnlineVolume.volumeId)
    (replicas : List BundleReplicaRow) (fileBundle : FileBundleRow) : Fs0Result FileBundleRef := do
  let bundle ← okOr (bundleReadTarget onlineVolumes replicas fileBundle.bundleId) .chunkNotReady
  pure ⟨fileBundle.bundleIndex, bundle.rawLen, bundle.compressedLen, fileBundle.bundleId,
    bundle.replicas⟩

/-- What the transaction of `get_file_read_plan_by_id` reads. The bundle ids come
from a set, so each is looked up in one batch. -/
def readPlanTx (fileId : Nat) : CentralTx (FileRecord × List FileBundleRow × List BundleReplicaRow) :=
  do
    let file ← getFileById fileId
    let record ← fileRecord file
    let fileBundles ← getFileBundlesByFileId fileId
    let replicas ← getBundleReplicasById (fileBundles.map FileBundleRow.bundleId).dedup
    pure (record, fileBundles, replicas)

/-- The transaction stays open while the online volumes are read. -/
def getFileReadPlanById (fileId : Nat) : CentralM ControlResponse := do
  let (record, fileBundles, replicas) ← CentralM.inspect (readPlanTx fileId)
  let onlineVolumes ← CentralM.read CentralServer.onlineVolumes
  let bundles ← lift (fileBundles.mapM (fileBundleRef onlineVolumes replicas))
  pure (.getFileReadPlanById ⟨record.fileId, record.path, record.sizeBytes, bundles⟩)

def hasBundle (bundleId : HashId) (volumeId : Option Nat) : CentralM ControlResponse := do
  let replicas ← CentralM.inspect (getBundleReplicasById [bundleId])
  pure (.hasBundle (replicas.any fun replica =>
    volumeId.all fun volumeId => replica.volumeId == volumeId))

def deleteFileByIdTx (fileId now : Nat) : CentralTx Unit := do
  deleteFileBundlesByFileId fileId
  CentralTx.deleteFileById fileId
  insertFileChangeLog .deleted none (some fileId) now

def deleteFileById (commit : Option Fs0Error) (now fileId : Nat) : CentralM ControlResponse := do
  CentralM.transact commit (deleteFileByIdTx fileId now)
  pure .deleteFileById

def copyFileByIdTx (sourceFileId : Nat) (targetPath : String) (now : Nat) :
    CentralTx FileRecord := do
  let (targetDir, targetName) ← lift (splitFs0PathDirAndName targetPath)
  let file ← CentralTx.copyFileById sourceFileId targetPath now
  copyFileBundles sourceFileId file.fileId
  insertFileChangeLog .created (some (targetDir, targetName)) (some file.fileId) now
  fileRecord file

def copyFileById (commit : Option Fs0Error) (now sourceFileId : Nat) (targetPath : String) :
    CentralM ControlResponse := do
  let record ← CentralM.transact commit (copyFileByIdTx sourceFileId targetPath now)
  pure (.copyFileById record)

def renameFileByIdTx (fileId : Nat) (targetPath : String) (now : Nat) : CentralTx FileRecord := do
  let (targetDir, targetName) ← lift (splitFs0PathDirAndName targetPath)
  let file ← CentralTx.renameFileById fileId targetPath now
  insertFileChangeLog .moved (some (targetDir, targetName)) (some fileId) now
  fileRecord file

def renameFileById (commit : Option Fs0Error) (now fileId : Nat) (targetPath : String) :
    CentralM ControlResponse := do
  let record ← CentralM.transact commit (renameFileByIdTx fileId targetPath now)
  pure (.renameFileById record)

def getFileChangeLogs (afterEventId limit : Nat) : CentralM ControlResponse := do
  let logs ← CentralM.inspect (CentralTx.getFileChangeLogs afterEventId limit)
  pure (.getFileChangeLogs logs)

end ClientRequest

/-! ## Updates -/

namespace UpdateRequest

open CentralTx

/-- The two loops over the snapshot of the peers: the first volume with room, or
the one of the preferred name. -/
def chooseVolume (config : CentralConfig) (request : BeginUpdateRequest) :
    List (Nat × StorageVolumeInfo) → Option (Nat × Nat) → Option (Nat × Nat)
  | [], candidate => candidate
  | (storageId, volume) :: rest, candidate =>
      if volume.readOnly ∨ volume.maxBytes = 0 then
        chooseVolume config request rest candidate
      else if config.usageOverThreshold volume.maxVolumeOffset volume.maxBytes then
        chooseVolume config request rest candidate
      else if request.updateSizeHint.any fun size =>
          volume.maxBytes - volume.maxVolumeOffset < size then
        chooseVolume config request rest candidate
      else if request.preferVolumeName = some volume.name then
        some (storageId, volume.volumeId)
      else
        chooseVolume config request rest (candidate.or (some (storageId, volume.volumeId)))

def candidateVolume (config : CentralConfig) (request : BeginUpdateRequest) :
    CentralM (Nat × Nat) := do
  let peers ← CentralM.storagePeersSnapshot
  let volumes := peers.flatMap fun peer => peer.volumes.map fun volume => (peer.storageId, volume)
  lift (okOr (chooseVolume config request volumes none)
    (.noAvailableVolume request.preferVolumeName request.updateSizeHint))

/-- The file to update and its base size. A path that names no file gets an
empty one. -/
def fileForUpdate (request : BeginUpdateRequest) (now : Nat) : CentralTx (FileRow × Nat) := do
  match ← attempt (getFileByPath request.path) with
  | .ok file =>
      require (request.offset ≤ file.sizeBytes) .invalidRequest
      pure (file, file.sizeBytes)
  | .error .notFound =>
      require (request.offset = 0) .notFound
      let file ← createFile request.path now
      pure (file, 0)
  | .error err => throw err

def beginUpdateTx (request : BeginUpdateRequest) (volumeId now : Nat) : CentralTx UpdateLease := do
  let expiresAtMs := wrappingAdd now updateLeaseTtlMs
  let (file, baseSize) ← fileForUpdate request now
  deleteExpiredUpdateLeases now
  let active ← fileHasActiveUpdateLease file.fileId
  require (active = false) (.alreadyExists request.path)
  createUpdateLease ⟨file.fileId, volumeId, baseSize, request.offset, request.preferVolumeName,
    expiresAtMs, now⟩

/-- A lease that is gone is reported as a conflict. -/
def leaseExpired (leaseId fileId : Nat) (err : Fs0Error) : Fs0Error :=
  if err = .notFound then
    .versionConflict s!"update lease {leaseId} for file {fileId} expired before commit"
  else err

def fileChanged : Fs0Error := .versionConflict "file changed while update lease was active"

/-- The loop over the submitted bundles. -/
def submittedRawSize (replicas : List BundleReplicaRow) :
    List CommittedBundle → Nat → Fs0Result Nat
  | [], total => .ok total
  | bundle :: rest, total => do
      let ready ← okOr (replicas.find? fun row => row.bundleId = bundle.bundleId) .chunkNotReady
      if ready.rawLen ≠ bundle.rawLen then
        .error .invalidRequest
      else
        let total ← okOr (checkedAdd total bundle.rawLen)
          (.integerConversion "submitted bundle raw size overflow")
        submittedRawSize replicas rest total

/-- The first transaction of `commit_update`. -/
def commitUpdateVolume (commit : Option Fs0Error) (now : Nat) (request : CommitUpdateRequest) :
    CentralM (Option Nat) := do
  let volumeId ← CentralM.transact commit (mapError (leaseExpired request.leaseId request.fileId)
    (activeUpdateLeaseVolume request.leaseId request.fileId now))
  let onlineVolumes ← CentralM.read CentralServer.onlineVolumes
  pure ((onlineVolumes.find? volumeId).map OnlineVolume.storageId)

/-- The checks of the second transaction, and the file as they found it. -/
def commitUpdateChecks (request : CommitUpdateRequest) (leaseNow : Nat) :
    CentralTx (LeaseRecord × FileRow) := do
  let lease ← mapError (leaseExpired request.leaseId request.fileId)
    (loadActiveUpdateLease request.leaseId request.fileId leaseNow)
  require (lease.baseSizeBytes = request.baseSize) fileChanged
  require (lease.offsetBytes ≤ request.newSize) .invalidRequest
  let file ← getFileById lease.fileId
  require (file.sizeBytes = request.baseSize) fileChanged
  let replicas ← getBundleReplicasById (request.bundles.map CommittedBundle.bundleId)
  let submitted ← lift (submittedRawSize replicas request.bundles 0)
  require (submitted = request.newSize) .invalidRequest
  pure (lease, file)

/-- The second transaction of `commit_update`. -/
def commitUpdateTx (request : CommitUpdateRequest) (now leaseNow : Nat) : CentralTx FileRecord := do
  let (lease, file) ← commitUpdateChecks request leaseNow
  upsertFileBundlesByFileId lease.fileId request.bundles
  let (finalRawSize, finalCompressedSize) ← calculateSizeByFileId lease.fileId
  require (finalRawSize = request.newSize) .invalidRequest
  let updatedFile ← updateFileAfterUpdate lease.fileId request.newSize finalCompressedSize now
  deleteUpdateLease request.leaseId
  let fileDir ← getDirPathById file.dirId
  insertFileChangeLog (if file.sizeBytes = 0 then .created else .updated)
    (some (fileDir, file.name)) (some lease.fileId) now
  fileRecord updatedFile

def abortUpdateTx (leaseId fileId now : Nat) : CentralTx Nat := do
  let volumeId ← activeUpdateLeaseVolume leaseId fileId now
  deleteUpdateLease leaseId
  pure volumeId

/-- The online volumes are read before the database is unlocked. -/
def abortUpdate (commit : Option Fs0Error) (now leaseId fileId : Nat) :
    CentralM (Option Nat) := do
  let volumeId ← CentralM.transact commit (abortUpdateTx leaseId fileId now)
  let onlineVolumes ← CentralM.read CentralServer.onlineVolumes
  pure ((onlineVolumes.find? volumeId).map OnlineVolume.storageId)

end UpdateRequest

/-! ## Storage requests -/

namespace StorageRequest

open CentralTx

def validateClientAuth (clientId : Nat) (clientToken : String) : CentralM ControlResponse := do
  let clients ← CentralM.read CentralServer.clients
  let client ← lift (okOr (clients.find? clientId) .unauthorized)
  require (client.token = clientToken) .unauthorized
  pure (.validateClientAuth clientId)

def createVolume (commit : Option Fs0Error) (name : String) (maxBytes : Nat) :
    CentralM ControlResponse := do
  let volume ← CentralM.transact commit (CentralTx.createVolume name maxBytes)
  pure (.createVolume volume.volumeId)

/-- The loop over the reported events. -/
def applyReplicaEvents : List BundleReplicaEvent → CentralTx Unit
  | [] => pure ()
  | event :: rest => do
      match event.kind with
      | .stored =>
          let rawLen ← lift (okOr event.rawLen .invalidRequest)
          let compressedLen ← lift (okOr event.compressedLen .invalidRequest)
          insertBundleReplica event.bundleId event.volumeId rawLen compressedLen
      | .deleted => deleteBundleReplica event.bundleId event.volumeId
      applyReplicaEvents rest

/-- The online volumes stay locked while the transaction runs. -/
def reportBundleReplica (commit : Option Fs0Error) (storageId : Nat)
    (events : List BundleReplicaEvent) : CentralM ControlResponse := do
  let onlineVolumes ← CentralM.read CentralServer.onlineVolumes
  require (∀ event ∈ events,
    (onlineVolumes.find? event.volumeId).map OnlineVolume.storageId = some storageId)
    .invalidRequest
  CentralM.transact commit (applyReplicaEvents events)
  pure .reportBundleReplica

def updateStorageEndpoint (storageId : Nat) (irohEndpoint : Bytes) : CentralM ControlResponse := do
  let storages ← CentralM.read CentralServer.storages
  let storage ← lift (okOr (storages.find? storageId) .notFound)
  modify fun server => { server with
    storages := server.storages.put
      { storage with peer := { storage.peer with irohEndpoint := irohEndpoint } } }
  pure .updateStorageEndpoint

/-- The entry of a volume rewritten in place, the first one if there are several. -/
def storeRegistered (volumeId : Nat) (registered : StorageVolumeInfo) :
    List StorageVolumeInfo → List StorageVolumeInfo
  | [] => []
  | volume :: rest =>
      if volume.volumeId = volumeId then
        { volume with
          name := registered.name
          maxBytes := registered.maxBytes
          maxVolumeOffset := registered.maxVolumeOffset } :: rest
      else volume :: storeRegistered volumeId registered rest

/-- The second section of `update_storage_volume_offset`. -/
def storeVolumeOffset (storageId volumeId : Nat) (registered : StorageVolumeInfo) :
    CentralM ControlResponse := do
  let storages ← CentralM.read CentralServer.storages
  let storage ← lift (okOr (storages.find? storageId) .notFound)
  require (∃ volume ∈ storage.peer.volumes, volume.volumeId = volumeId) .notFound
  modify fun server => { server with
    storages := server.storages.put
      { storage with peer := { storage.peer with
          volumes := storeRegistered volumeId registered storage.peer.volumes } } }
  pure .updateStorageVolumeOffset

end StorageRequest

/-! ## Registration -/

namespace Registration

open CentralTx

def fs0Version : String := "0.2.4"

def validateRegistrationVersion (version : String) : Fs0Result Unit :=
  if version = fs0Version then .ok () else .error (.fs0Version fs0Version version)

/-- One volume of a storage that registers, completed by what central knows of it. -/
def registerVolume (volume : StorageVolumeInfo) : CentralTx StorageVolumeInfo := do
  let registered ← getVolume volume.volumeId
  let maxVolumeOffset := max registered.maxVolumeOffset volume.maxVolumeOffset
  if maxVolumeOffset ≠ registered.maxVolumeOffset then
    let _ ← updateVolumeOffset volume.volumeId maxVolumeOffset
  require (registered.maxBytes = volume.maxBytes) .invalidRequest
  pure { volume with name := registered.name, maxVolumeOffset := maxVolumeOffset }

def registerVolumes : List StorageVolumeInfo → CentralTx (List StorageVolumeInfo)
  | [] => pure []
  | volume :: rest => do
      let registered ← registerVolume volume
      let others ← registerVolumes rest
      pure (registered :: others)

/-- The section of `register_storage` under the lock of the online volumes. -/
def mountVolumes (peer : StoragePeerInfo) : CentralM Unit := do
  let onlineVolumes ← CentralM.read CentralServer.onlineVolumes
  require (∀ volume ∈ peer.volumes, onlineVolumes.find? volume.volumeId = none)
    .volumeAlreadyMounted
  modify fun server => { server with
    onlineVolumes := peer.volumes.foldl
      (fun mounted volume => mounted.put ⟨volume.volumeId, peer.storageId⟩) server.onlineVolumes }

def insertStorage (peer : StoragePeerInfo) (connection : Nat) : CentralM Unit :=
  modify fun server => { server with storages := server.storages.put ⟨peer, connection⟩ }

def insertClient (clientId : Nat) (token : String) (connection : Nat) : CentralM Unit :=
  modify fun server => { server with clients := server.clients.put ⟨clientId, token, connection⟩ }

end Registration

/-! ## Taking registrations out -/

namespace CentralServer

def unregisterClient (clientId : Nat) (server : CentralServer) : CentralServer :=
  { server with clients := server.clients.delete fun client => client.clientId == clientId }

/-- The first section of `unregister_storage`. -/
def removeStorage (storageId : Nat) (server : CentralServer) : CentralServer :=
  { server with storages := server.storages.delete fun storage => storage.storageId == storageId }

/-- The second section of `unregister_storage`. -/
def unmountStorage (storageId : Nat) (server : CentralServer) : CentralServer :=
  { server with
    onlineVolumes := server.onlineVolumes.delete fun mounted => mounted.storageId == storageId }

end CentralServer

end Fs0
