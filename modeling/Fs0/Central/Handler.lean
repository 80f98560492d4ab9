import Fs0.Central.Requests

/-!
Contract: the handler of a control request, one critical section after another.

Owns:
- the places at which a handler lets other handlers run, and what it carries
  from one section to the next;
- the dispatch of a request by the identity of its connection;
- the variant in which a request for a path is one section.

Does not own: the connections whose requests these handlers answer.
-/

set_option autoImplicit false

namespace Fs0

open Lib Fallible

/-- The answer of a storage to a lease grant. -/
inductive GrantReply where
  | granted (leaseId : Nat)
  | refused (err : Fs0Error)
  | unexpected (response : String)
deriving DecidableEq, Repr

/-- What a section reads from outside the process. -/
structure Inputs where
  /-- `now_ms` of the handler. -/
  now : Nat
  /-- `now_ms` of the lease lookup. -/
  leaseNow : Nat
  /-- The error of `COMMIT`, if it fails. -/
  commit : Option Fs0Error
  /-- The result of the grant call. -/
  grant : Fs0Result GrantReply
deriving DecidableEq

/-- Where a handler stands between two of its sections. -/
inductive Handler where
  | start (request : ControlRequest)
  | insertClient (clientId : Nat) (token : String)
  | clientInserted (clientId : Nat)
  | volumesRegistered (name : String) (volumes : List StorageVolumeInfo) (irohEndpoint : Bytes)
  | mountVolumes (peer : StoragePeerInfo)
  | insertStorage (peer : StoragePeerInfo)
  | storageInserted (storageId : Nat)
  | centralStatus (clientsCount : Nat)
  | getFileReadPlanById (fileId : Nat)
  | deleteFileById (fileId : Nat)
  | copyFileById (sourceFileId : Nat) (targetPath : String)
  | renameFileById (fileId : Nat) (targetPath : String)
  | beginUpdate (request : BeginUpdateRequest) (storageId volumeId : Nat)
  | grantLease (storageId : Nat) (lease : UpdateLease)
  | awaitGrant (lease : UpdateLease)
  | dropLease (leaseId : Nat) (err : Fs0Error)
  | commitUpdate (request : CommitUpdateRequest) (storageId : Option Nat)
  | revokeLease (storageId leaseId : Nat) (response : ControlResponse)
  | awaitRevoke (response : ControlResponse)
  | storeVolumeOffset (storageId volumeId : Nat) (registered : StorageVolumeInfo)
  | broadcast (response : ControlResponse)
  | answer (response : ControlResponse)
deriving DecidableEq

/-- Whether a handler waits for the network, so that its task can be aborted. -/
def Handler.awaits : Handler → Bool
  | .awaitGrant _ => true
  | .awaitRevoke _ => true
  | .broadcast _ => true
  | _ => false

/-- How a section ends. -/
inductive Progress where
  | next (handler : Handler)
  | identify (identity : ControlConnectionIdentity) (handler : Handler)
  | respond (response : ControlResponse)
deriving DecidableEq

/-- A section that computes the response. -/
def CentralM.responding (m : CentralM ControlResponse) : CentralM Progress := do
  let response ← m
  pure (.respond response)

/-- A section that resolves a path for the next one. -/
def CentralM.resolving (path : String) (next : Nat → Handler) : CentralM Progress := do
  let fileId ← ClientRequest.fileIdByPath path
  pure (.next (next fileId))

/-- The revocation that follows an update, when its volume is online. -/
def revokeIfOnline (storageId : Option Nat) (leaseId : Nat) (response : ControlResponse) :
    Progress :=
  match storageId with
  | some storageId => .next (.revokeLease storageId leaseId response)
  | none => .respond response

/-- The first section of a request of a registered client. -/
def handleClientRequest (config : CentralConfig) (inputs : Inputs) :
    ControlRequest → CentralM Progress
  | .centralStatus => do
      let clients ← CentralM.read CentralServer.clients
      pure (.next (.centralStatus (clients.rows.length % 2 ^ 32)))
  | .createVolume name maxBytes =>
      CentralM.responding (StorageRequest.createVolume inputs.commit name maxBytes)
  | .listDirectory dir limit cursor =>
      CentralM.responding (ClientRequest.listDirectory inputs.commit dir limit cursor)
  | .getFileReadPlan path => CentralM.resolving path .getFileReadPlanById
  | .getFileReadPlanById fileId =>
      CentralM.responding (ClientRequest.getFileReadPlanById fileId)
  | .hasBundle bundleId volumeId =>
      CentralM.responding (ClientRequest.hasBundle bundleId volumeId)
  | .deleteFile path => CentralM.resolving path .deleteFileById
  | .deleteFileById fileId =>
      CentralM.responding (ClientRequest.deleteFileById inputs.commit inputs.now fileId)
  | .copyFile sourcePath targetPath =>
      CentralM.resolving sourcePath fun fileId => .copyFileById fileId targetPath
  | .copyFileById sourceFileId targetPath =>
      CentralM.responding
        (ClientRequest.copyFileById inputs.commit inputs.now sourceFileId targetPath)
  | .renameFile sourcePath targetPath =>
      CentralM.resolving sourcePath fun fileId => .renameFileById fileId targetPath
  | .renameFileById fileId targetPath =>
      CentralM.responding (ClientRequest.renameFileById inputs.commit inputs.now fileId targetPath)
  | .getFileChangeLogs afterEventId limit =>
      CentralM.responding (ClientRequest.getFileChangeLogs afterEventId limit)
  | .beginUpdate request => do
      let (storageId, volumeId) ← UpdateRequest.candidateVolume config request
      pure (.next (.beginUpdate request storageId volumeId))
  | .commitUpdate request => do
      let storageId ← UpdateRequest.commitUpdateVolume inputs.commit inputs.now request
      pure (.next (.commitUpdate request storageId))
  | .abortUpdate leaseId fileId => do
      let storageId ← UpdateRequest.abortUpdate inputs.commit inputs.now leaseId fileId
      pure (revokeIfOnline storageId leaseId .abortUpdate)
  | _ => throw .unauthorized

/-- The first section of a request of a registered storage. -/
def handleStorageRequest (inputs : Inputs) (storageId : Nat) : ControlRequest → CentralM Progress
  | .createVolume name maxBytes =>
      CentralM.responding (StorageRequest.createVolume inputs.commit name maxBytes)
  | .validateClientAuth clientId clientToken =>
      CentralM.responding (StorageRequest.validateClientAuth clientId clientToken)
  | .reportBundleReplica events =>
      CentralM.responding (StorageRequest.reportBundleReplica inputs.commit storageId events)
  | .updateStorageEndpoint requestStorageId irohEndpoint => do
      require (requestStorageId = storageId) .unauthorized
      let response ← StorageRequest.updateStorageEndpoint storageId irohEndpoint
      pure (.next (.broadcast response))
  | .updateStorageVolumeOffset volumeId maxVolumeOffset => do
      let registered ← CentralM.transact inputs.commit
        (CentralTx.updateVolumeOffset volumeId maxVolumeOffset)
      pure (.next (.storeVolumeOffset storageId volumeId registered))
  | _ => throw .unauthorized

/-- The first section of a request. -/
def handleControlRequest (config : CentralConfig) (inputs : Inputs)
    (identity : ControlConnectionIdentity) : ControlRequest → CentralM Progress
  | .registerClient _ token version => do
      lift (Registration.validateRegistrationVersion version)
      require (config.tokenAllowed token) .unauthorized
      let clientId ← CentralM.nextId
      pure (.next (.insertClient clientId token))
  | .registerStorage name token version volumes irohEndpoint => do
      lift (Registration.validateRegistrationVersion version)
      require (config.tokenAllowed token) .unauthorized
      let volumes ← CentralM.transact inputs.commit (Registration.registerVolumes volumes)
      pure (.next (.volumesRegistered name volumes irohEndpoint))
  | request =>
      match identity with
      | .client _ => handleClientRequest config inputs request
      | .storage storageId => handleStorageRequest inputs storageId request
      | .anonymous => throw .unauthorized

/-- The result of `grant_upload_lease_to_specific_storage` once its call is over. -/
def grantResult (lease : UpdateLease) (reply : Fs0Result GrantReply) : Fs0Result Unit := do
  match ← reply with
  | .granted leaseId =>
      if leaseId = lease.leaseId then .ok ()
      else .error (.invalidFrame <| "unexpected grant upload lease response: " ++
        s!"Control(GrantUploadLease \x7b lease_id: {leaseId} \x7d)")
  | .refused err => .error err
  | .unexpected response =>
      .error (.invalidFrame s!"unexpected grant upload lease response: {response}")

/-- Runs the next section of a handler. -/
def Handler.resume (config : CentralConfig) (inputs : Inputs) (connection : Nat)
    (identity : ControlConnectionIdentity) : Handler → CentralM Progress
  | .start request => handleControlRequest config inputs identity request
  | .insertClient clientId token => do
      Registration.insertClient clientId token connection
      pure (.next (.clientInserted clientId))
  | .clientInserted clientId => do
      let storages ← CentralM.storagePeersSnapshot
      pure (.identify (.client clientId) (.answer (.registerClient clientId storages)))
  | .volumesRegistered name volumes irohEndpoint => do
      let storageId ← CentralM.nextId
      pure (.next (.mountVolumes ⟨storageId, name, volumes, irohEndpoint⟩))
  | .mountVolumes peer => do
      Registration.mountVolumes peer
      pure (.next (.insertStorage peer))
  | .insertStorage peer => do
      Registration.insertStorage peer connection
      pure (.next (.storageInserted peer.storageId))
  | .storageInserted storageId => do
      let storages ← CentralM.storagePeersSnapshot
      pure (.identify (.storage storageId) (.broadcast (.registerStorage storageId storages)))
  | .centralStatus clientsCount => do
      let storages ← CentralM.storagePeersSnapshot
      pure (.respond (.centralStatus clientsCount storages))
  | .getFileReadPlanById fileId =>
      CentralM.responding (ClientRequest.getFileReadPlanById fileId)
  | .deleteFileById fileId =>
      CentralM.responding (ClientRequest.deleteFileById inputs.commit inputs.now fileId)
  | .copyFileById sourceFileId targetPath =>
      CentralM.responding
        (ClientRequest.copyFileById inputs.commit inputs.now sourceFileId targetPath)
  | .renameFileById fileId targetPath =>
      CentralM.responding (ClientRequest.renameFileById inputs.commit inputs.now fileId targetPath)
  | .beginUpdate request storageId volumeId => do
      let lease ← CentralM.transact inputs.commit
        (UpdateRequest.beginUpdateTx request volumeId inputs.now)
      pure (.next (.grantLease storageId lease))
  | .grantLease storageId lease => do
      let storages ← CentralM.read CentralServer.storages
      match storages.find? storageId with
      | some _ => pure (.next (.awaitGrant lease))
      | none => pure (.next (.dropLease lease.leaseId .notFound))
  | .awaitGrant lease =>
      match grantResult lease inputs.grant with
      | .ok _ => pure (.respond (.beginUpdate lease))
      | .error err => pure (.next (.dropLease lease.leaseId err))
  | .dropLease leaseId err => do
      CentralM.transact inputs.commit (CentralTx.deleteUpdateLease leaseId)
      throw err
  | .commitUpdate request storageId => do
      let file ← CentralM.transact inputs.commit
        (UpdateRequest.commitUpdateTx request inputs.now inputs.leaseNow)
      pure (revokeIfOnline storageId request.leaseId (.commitUpdate file))
  | .revokeLease storageId _ response => do
      let storages ← CentralM.read CentralServer.storages
      match storages.find? storageId with
      | some _ => pure (.next (.awaitRevoke response))
      | none => pure (.respond response)
  | .awaitRevoke response => pure (.respond response)
  | .storeVolumeOffset storageId volumeId registered =>
      CentralM.responding (StorageRequest.storeVolumeOffset storageId volumeId registered)
  | .broadcast response => pure (.respond response)
  | .answer response => pure (.respond response)

end Fs0
