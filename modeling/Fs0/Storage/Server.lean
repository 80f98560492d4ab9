import Fs0.Storage.Data
import Fs0.Volume.Sections

/-!
Contract: a storage as a system of requests on its volumes.

Owns:
- the upload leases, and the checks of a request against them;
- the events of a storage in any order, restarts among them.

Does not own: central, and the answers to the clients.
-/

set_option autoImplicit false

namespace Fs0

open Lib Fallible

/-- `UploadLeaseState` under its lease id. -/
structure UploadLeaseState where
  leaseId : Nat
  fileId : Nat
  volumeId : Nat
  expiresAtMs : Nat
deriving DecidableEq, Repr

/-- A volume under its id. -/
structure StorageVolume where
  volumeId : Nat
  volume : Volume

structure StorageServer where
  checkHashBeforeWrite : Bool
  volumes : Table StorageVolume.volumeId
  uploadLeases : Table UploadLeaseState.leaseId

inductive StorageEvent where
  | grantUploadLease (request : GrantUploadLeaseRequest)
  | revokeUploadLease (leaseId : Nat)
  | uploadChunk (request : UploadChunkRequest) (leaseNow now : Nat)
  | commitBundle (request : CommitBundleRequest) (leaseNow : Nat) (commit : Option Fs0Error)
  /-- A step of a call under way, or a call that needs no lease. -/
  | volume (volumeId : Nat) (e : VolumeEvent)
  /-- The process crashes and starts again. -/
  | restart (torn : Nat → DataFiles)

/-- The calls on a volume that only a request with a lease makes. -/
def VolumeEvent.needsLease : VolumeEvent → Bool
  | .putChunk _ _ _ _ => true
  | .commitBundle _ _ _ => true
  | _ => false

namespace StorageServer

/-- `StorageServer::volume`. -/
def volume (s : StorageServer) (volumeId : Nat) : Fs0Result Volume :=
  match s.volumes.find? volumeId with
  | some row => .ok row.volume
  | none => .error .unknownVolume

/-- The leases a request finds, the expired ones retained no longer. -/
def retainLeases (s : StorageServer) (now : Nat) : StorageServer :=
  { s with uploadLeases := s.uploadLeases.delete fun lease => lease.expiresAtMs ≤ now }

/-- A request holds a lease for its file and its volume. -/
def checkLease (s : StorageServer) (leaseId fileId volumeId : Nat) : Fs0Result Unit :=
  match s.uploadLeases.find? leaseId with
  | some lease =>
      if lease.fileId = fileId ∧ lease.volumeId = volumeId then .ok () else .error .unauthorized
  | none => .error .unauthorized

def grantUploadLease (s : StorageServer) (request : GrantUploadLeaseRequest) : StorageServer :=
  let lease : UploadLeaseState :=
    ⟨request.leaseId, request.fileId, request.volumeId, request.expiresAtMs⟩
  if (s.volumes.find? request.volumeId).isSome then
    { s with uploadLeases := s.uploadLeases.put lease }
  else s

def revokeUploadLease (s : StorageServer) (leaseId : Nat) : StorageServer :=
  { s with uploadLeases := s.uploadLeases.delete fun lease => lease.leaseId == leaseId }

/-- The check of the content, where the configuration asks for it. -/
def checkHash (blake3 : Bytes → HashId) (zstdDecompress : Bytes → Nat → Fs0Result Bytes)
    (s : StorageServer) (request : UploadChunkRequest) : Fs0Result Unit :=
  if s.checkHashBeforeWrite then Storage.checkHash blake3 zstdDecompress request else .ok ()

/-- The checks of `upload_chunk` before `put_chunk`. -/
def checkUpload (blake3 : Bytes → HashId) (zstdDecompress : Bytes → Nat → Fs0Result Bytes)
    (s : StorageServer) (request : UploadChunkRequest) : Fs0Result Volume := do
  s.checkLease request.leaseId request.fileId request.volumeId
  s.checkHash blake3 zstdDecompress request
  s.volume request.volumeId

/-- The checks of `commit_bundle` before it commits. -/
def checkCommit (s : StorageServer) (request : CommitBundleRequest) : Fs0Result Volume := do
  s.checkLease request.leaseId request.fileId request.volumeId
  s.volume request.volumeId

/-- Takes a step of one volume. -/
def onVolume (blake3 : Bytes → HashId) (s : StorageServer) (volumeId : Nat) (v : Volume)
    (e : VolumeEvent) : Option StorageServer :=
  (Volume.step blake3 v e).map fun v => { s with volumes := s.volumes.put ⟨volumeId, v⟩ }

def step (blake3 : Bytes → HashId) (zstdDecompress : Bytes → Nat → Fs0Result Bytes)
    (s : StorageServer) : StorageEvent → Option StorageServer
  | .grantUploadLease request => some (s.grantUploadLease request)
  | .revokeUploadLease leaseId => some (s.revokeUploadLease leaseId)
  | .uploadChunk request leaseNow now =>
      let s := s.retainLeases leaseNow
      match s.checkUpload blake3 zstdDecompress request with
      | .ok v =>
          s.onVolume blake3 request.volumeId v
            (.putChunk request.chunkId request.rawLen request.compressedBytes now)
      | .error _ => some s
  | .commitBundle request leaseNow commit =>
      let s := s.retainLeases leaseNow
      match s.checkCommit request with
      | .ok v =>
          s.onVolume blake3 request.volumeId v
            (.commitBundle request.bundleId request.chunks commit)
      | .error _ => some s
  | .volume volumeId e =>
      (s.volumes.find? volumeId).bind fun row =>
        if e.needsLease then none else s.onVolume blake3 volumeId row.volume e
  | .restart torn =>
      some { s with
        volumes := s.volumes.update
          (fun row => { row with volume := row.volume.reopen (torn row.volumeId) }) fun _ => rfl
        uploadLeases := .empty }

end StorageServer

/-- A storage over volumes that were just initialised. -/
def storage (blake3 : Bytes → HashId) (zstdDecompress : Bytes → Nat → Fs0Result Bytes) :
    System StorageServer StorageEvent where
  Init s := s.uploadLeases = .empty ∧ ∀ row ∈ s.volumes.rows, (volume blake3).Init row.volume
  step := StorageServer.step blake3 zstdDecompress

namespace StorageServer

variable {blake3 : Bytes → HashId} {zstdDecompress : Bytes → Nat → Fs0Result Bytes}
  {s s' : StorageServer} {leaseNow : Nat}

/-- An upload either is refused or puts the chunk into its volume. -/
theorem step_uploadChunk {request : UploadChunkRequest} {now : Nat}
    (taken : (storage blake3 zstdDecompress).step s (.uploadChunk request leaseNow now) = some s') :
    (∃ v, (s.retainLeases leaseNow).checkUpload blake3 zstdDecompress request = .ok v ∧
      (s.retainLeases leaseNow).onVolume blake3 request.volumeId v
        (.putChunk request.chunkId request.rawLen request.compressedBytes now) = some s') ∨
    s' = s.retainLeases leaseNow := by
  unfold storage step at taken
  dsimp only at taken
  split at taken
  next v passed => exact .inl ⟨v, passed, taken⟩
  next => exact .inr (Option.some.inj taken).symm

/-- A commit either is refused or commits the bundle to its volume. -/
theorem step_commitBundle {request : CommitBundleRequest} {commit : Option Fs0Error}
    (taken : (storage blake3 zstdDecompress).step s (.commitBundle request leaseNow commit) = some s') :
    (∃ v, (s.retainLeases leaseNow).checkCommit request = .ok v ∧
      (s.retainLeases leaseNow).onVolume blake3 request.volumeId v
        (.commitBundle request.bundleId request.chunks commit) = some s') ∨
    s' = s.retainLeases leaseNow := by
  unfold storage step at taken
  dsimp only at taken
  split at taken
  next v passed => exact .inl ⟨v, passed, taken⟩
  next => exact .inr (Option.some.inj taken).symm

theorem step_commitBundle_of_ok {request : CommitBundleRequest} {commit : Option Fs0Error}
    {v : Volume} (checked : (s.retainLeases leaseNow).checkCommit request = .ok v) :
    (storage blake3 zstdDecompress).step s (.commitBundle request leaseNow commit) =
      (s.retainLeases leaseNow).onVolume blake3 request.volumeId v
        (.commitBundle request.bundleId request.chunks commit) := by
  unfold storage step
  dsimp only
  rw [checked]

end StorageServer

end Fs0
