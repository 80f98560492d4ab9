import Fs0.Central.Lease

/-!
Contract: the control protocol of central and the memory its handlers share.

Owns:
- the control requests and responses;
- the maps of clients, storages and online volumes, and the id counter;
- the computations of one critical section, over the database and these maps.

Does not own: the handlers, and the order in which their sections run.
-/

set_option autoImplicit false

namespace Fs0

open Lib

/-! ## Messages -/

inductive ControlRequest where
  | registerClient (name : Option String) (token version : String)
  | registerStorage (name token version : String) (volumes : List StorageVolumeInfo)
      (irohEndpoint : Bytes)
  | updateStorageEndpoint (storageId : Nat) (irohEndpoint : Bytes)
  | createVolume (name : String) (maxBytes : Nat)
  | centralStatus
  | listDirectory (dir : String) (limit : Nat) (cursor : Option Nat)
  | getFileReadPlan (path : String)
  | getFileReadPlanById (fileId : Nat)
  | hasBundle (bundleId : HashId) (volumeId : Option Nat)
  | deleteFile (path : String)
  | deleteFileById (fileId : Nat)
  | copyFile (sourcePath targetPath : String)
  | copyFileById (sourceFileId : Nat) (targetPath : String)
  | renameFile (sourcePath targetPath : String)
  | renameFileById (fileId : Nat) (targetPath : String)
  | getFileChangeLogs (afterEventId limit : Nat)
  | beginUpdate (request : BeginUpdateRequest)
  | commitUpdate (request : CommitUpdateRequest)
  | abortUpdate (leaseId fileId : Nat)
  | grantUploadLease (request : GrantUploadLeaseRequest)
  | revokeUploadLease (leaseId : Nat)
  | reportBundleReplica (events : List BundleReplicaEvent)
  | updateStorageVolumeOffset (volumeId maxVolumeOffset : Nat)
  | validateClientAuth (clientId : Nat) (clientToken : String)
deriving DecidableEq, Repr

inductive ControlResponse where
  | registerClient (clientId : Nat) (storages : List StoragePeerInfo)
  | registerStorage (storageId : Nat) (storages : List StoragePeerInfo)
  | updateStorageEndpoint
  | createVolume (volumeId : Nat)
  | centralStatus (clientsCount : Nat) (storages : List StoragePeerInfo)
  | listDirectory (entries : DirectoryEntries)
  | getFileReadPlanById (plan : FileReadPlan)
  | hasBundle (exists' : Bool)
  | deleteFileById
  | copyFileById (file : FileRecord)
  | renameFileById (file : FileRecord)
  | getFileChangeLogs (logs : FileChangeLogs)
  | beginUpdate (lease : UpdateLease)
  | commitUpdate (file : FileRecord)
  | abortUpdate
  | reportBundleReplica
  | updateStorageVolumeOffset
  | validateClientAuth (clientId : Nat)
deriving DecidableEq, Repr

/-- A frame on a control connection. Every other kind of request is answered alike. -/
inductive ProtocolRequest where
  | control (request : ControlRequest)
  | other
deriving DecidableEq, Repr

inductive ProtocolResponse where
  | error (err : Fs0Error)
  | control (response : ControlResponse)
deriving DecidableEq, Repr

/-! ## Shared memory -/

/-- The configuration the handlers read. Comparing the usage of a volume with the
threshold is floating point arithmetic and stays a parameter, as does the length of
what postcard makes of a response. -/
structure CentralConfig where
  authTokens : List String
  usageOverThreshold : (maxVolumeOffset maxBytes : Nat) → Bool
  encodedLen : ProtocolResponse → Nat

inductive ControlConnectionIdentity where
  | anonymous
  | client (clientId : Nat)
  | storage (storageId : Nat)
deriving DecidableEq, Repr

structure ClientControlConnection where
  clientId : Nat
  token : String
  connection : Nat
deriving DecidableEq, Repr

structure StorageControlConnection where
  peer : StoragePeerInfo
  connection : Nat
deriving DecidableEq, Repr

def StorageControlConnection.storageId (storage : StorageControlConnection) : Nat :=
  storage.peer.storageId

structure OnlineVolume where
  volumeId : Nat
  storageId : Nat
deriving DecidableEq, Repr

/-- `CentralServer`. The database and each of the maps are behind their own lock. -/
structure CentralServer where
  db : CentralDb
  nextId : Nat
  clients : Table ClientControlConnection.clientId
  storages : Table StorageControlConnection.storageId
  onlineVolumes : Table OnlineVolume.volumeId
deriving DecidableEq

/-- A server that has just opened its database. -/
def CentralServer.run (db : CentralDb) : CentralServer := ⟨db, 1, .empty, .empty, .empty⟩

/-- One critical section of a handler. -/
abbrev CentralM (α : Type) := EStateM Fs0Error CentralServer α

namespace CentralM

/-- Uses the database under its lock. -/
def locked {α : Type} (m : EStateM Fs0Error CentralDb α) : CentralM α := fun server =>
  match m server.db with
  | .ok a db => .ok a { server with db := db }
  | .error err db => .error err { server with db := db }

/-- `db.tx()`, its operations, and `commit()`, which may fail. -/
def transact {α : Type} (commit : Option Fs0Error) (m : CentralTx α) : CentralM α :=
  locked (Fallible.transact commit m)

/-- A transaction that is dropped once it has been read from. -/
def inspect {α : Type} (m : CentralTx α) : CentralM α := locked (Fallible.inspect m)

def nextId : CentralM Nat := fun server =>
  .ok server.nextId { server with nextId := server.nextId + 1 }

/-- Reads the server under the locks that protect what is read. -/
def read {α : Type} (select : CentralServer → α) : CentralM α := fun server =>
  .ok (select server) server

def storagePeersSnapshot : CentralM (List StoragePeerInfo) :=
  read fun server => (server.storages.rows.map StorageControlConnection.peer).insertionSort
    fun left right => left.storageId ≤ right.storageId

end CentralM

/-- `token_allowed`. -/
def CentralConfig.tokenAllowed (config : CentralConfig) (token : String) : Bool :=
  config.authTokens.any fun allowed => allowed == token

end Fs0
