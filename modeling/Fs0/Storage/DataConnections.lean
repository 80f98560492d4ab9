import Fs0.Storage.Server
import Fs0.Central.Connections

/-!
Contract: the data connections of a storage.

Owns:
- the tasks of a data connection, one for each request, and the client the connection is
  authenticated for;
- how a storage handles a data request, and a control request of central.

Does not own: how central answers a storage.
-/

set_option autoImplicit false

namespace Fs0

open Lib

/-! ## Requests -/

inductive DataRequest where
  | authenticate (clientId : Nat) (clientToken : String)
  | hasChunk (volumeId : Nat) (chunkId : HashId)
  | uploadChunk (request : UploadChunkRequest)
  | downloadChunk (request : DownloadChunkRequest)
  | hasBundle (volumeId : Nat) (bundleId : HashId)
  | commitBundle (request : CommitBundleRequest)
  | listBundleChunks (volumeId : Nat) (bundleId : HashId)
deriving DecidableEq, Repr

/-- A frame on a data connection. Every other kind of request is answered alike. -/
inductive DataFrame where
  | data (request : DataRequest)
  | other
deriving DecidableEq, Repr

/-- What a request is handled with beside itself: the clocks, and the error of a `COMMIT`. -/
structure DataInputs where
  leaseNow : Nat
  now : Nat
  commit : Option Fs0Error
deriving DecidableEq

namespace StorageServer

/-- `handle_data_request`, up to its answer: looking something up changes nothing. -/
def handleDataRequest (blake3 : Bytes → HashId) (zstdDecompress : Bytes → Nat → Fs0Result Bytes)
    (inputs : DataInputs) (s : StorageServer) : DataRequest → Option StorageServer
  | .authenticate _ _ => some s
  | .hasChunk _ _ => some s
  | .uploadChunk request =>
      s.step blake3 zstdDecompress (.uploadChunk request inputs.leaseNow inputs.now)
  | .downloadChunk request =>
      match s.volume request.volumeId with
      | .ok _ => s.step blake3 zstdDecompress (.volume request.volumeId (.readChunk request.chunkId))
      | .error _ => some s
  | .hasBundle _ _ => some s
  | .commitBundle request =>
      s.step blake3 zstdDecompress (.commitBundle request inputs.leaseNow inputs.commit)
  | .listBundleChunks _ _ => some s

/-- `handle_control_request`, with what it answers to a grant. -/
def handleControlRequest (s : StorageServer) : ControlRequest → StorageServer × Option GrantReply
  | .grantUploadLease request =>
      (s.grantUploadLease request, some <|
        if (s.volumes.find? request.volumeId).isSome then .granted request.leaseId
        else .refused .unknownVolume)
  | .revokeUploadLease leaseId => (s.revokeUploadLease leaseId, none)
  | _ => (s, some (.refused .invalidRequest))

end StorageServer

/-! ## Connections -/

/-- Where the task of a request stands. -/
inductive DataStage where
  | received (frame : DataFrame)
  | authenticating (clientId : Nat) (clientToken : String)
  /-- Central has been asked to validate the client, on a stream. -/
  | validating (clientId call : Nat)
  | handling (request : DataRequest)
deriving DecidableEq, Repr

structure DataTask where
  stream : Nat
  stage : DataStage
deriving DecidableEq, Repr

structure DataConnection where
  connection : Nat
  authenticatedClientId : Option Nat
  tasks : SeqTable DataTask.stream
deriving DecidableEq

def DataConnection.new (connection : Nat) : DataConnection := ⟨connection, none, .empty⟩

/-- What a task does with its request once it has looked at the authenticated client. -/
def DataStage.admit (authenticatedClientId : Option Nat) : DataFrame → Fs0Result DataStage
  | .data (.authenticate clientId clientToken) =>
      if authenticatedClientId.isSome then .error .invalidRequest
      else .ok (.authenticating clientId clientToken)
  | .data request =>
      if authenticatedClientId.isSome then .ok (.handling request) else .error .unauthorized
  | .other => .error (if authenticatedClientId.isSome then .invalidRequest else .unauthorized)

namespace DataConnection

def setTask (conn : DataConnection) (task : DataTask) : DataConnection :=
  { conn with tasks := conn.tasks.replace task }

def endTask (conn : DataConnection) (stream : Nat) : DataConnection :=
  { conn with tasks := conn.tasks.delete fun task => task.stream == stream }

/-- The task takes note of the authenticated client, and goes on or is refused. -/
def look (conn : DataConnection) (stream : Nat) (frame : DataFrame) : DataConnection :=
  match DataStage.admit conn.authenticatedClientId frame with
  | .ok stage => conn.setTask ⟨stream, stage⟩
  | .error _ => conn.endTask stream

end DataConnection

/-! ## Storages -/

/-- A storage process: its server, its data connections, and its connection to central. -/
structure StorageProcess where
  name : Nat
  server : StorageServer
  connections : SeqTable DataConnection.connection
  centralConnection : Option Nat

namespace StorageProcess

def setConnection (p : StorageProcess) (conn : DataConnection) : StorageProcess :=
  { p with connections := p.connections.replace conn }

end StorageProcess

end Fs0
