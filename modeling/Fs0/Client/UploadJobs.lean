import Fs0.Client.SharedResults
import Fs0.Client.Upload
import Fs0.Storage.StoredChunks

/-!
Contract: the chunk jobs of a session with one storage.

Owns:
- `upload_chunk_job`, one request after another, with the answers of the storage at
  the time it handles them;
- a session as its scheduler, the jobs it executes, the storage and the files they
  read, in any order of their steps.

Does not own: the connection. A request may fail on its way with any error the
connection reports.
-/

set_option autoImplicit false

namespace Fs0

open Lib Fallible

/-- What the job of a session calls, and the errors of its connection. -/
structure UploadCodec where
  blake3 : Bytes → HashId
  zstdCompress : Bytes → Fs0Result Bytes
  zstdDecompress : Bytes → Nat → Fs0Result Bytes
  connectionError : Fs0Error → Bool

/-- What opening a file, seeking to an offset and reading exactly some bytes gives. -/
abbrev SourceFiles := String → Nat → Nat → Fs0Result Bytes

/-! ## Requests -/

/-- `has_chunk` on the volume of the request. -/
def Storage.hasChunk (chunkId : HashId) : VolumeM DataResponse := do
  match ← attempt (VolumeDb.loadChunk chunkId) with
  | .ok known => pure (.hasChunk true (some known.rawLen) (some known.compressedLen))
  | .error (.chunkNotFound _) => pure (.hasChunk false none none)
  | .error err => throw err

def StorageServer.hasChunk (s : StorageServer) (volumeId : Nat) (chunkId : HashId) :
    Fs0Result DataResponse := do
  let v ← s.volume volumeId
  outcome (Storage.hasChunk chunkId v.db)

/-- What the client reads from an answer to `HasChunk`: the lengths of the chunk. -/
def DataResponse.chunkLens : DataResponse → Fs0Result (Option (Nat × Nat))
  | .hasChunk true (some rawLen) (some compressedLen) => .ok (some (rawLen, compressedLen))
  | .hasChunk false _ _ => .ok none
  | response => .error (.invalidFrame s!"unexpected data response: {repr response}")

/-! ## One job -/

/-- Where the execution of a job stands. -/
inductive JobProgress where
  /-- `HasChunk` is under way. -/
  | asking
  | reading
  /-- `UploadChunk` is under way. -/
  | sending (compressedBytes : Bytes)
  /-- The storage puts the chunk. So many calls of the volume had returned before. -/
  | storing (compressedBytes : Bytes) (returned : Nat)
  | done (result : Fs0Result UploadChunkResponse)
deriving DecidableEq

/-- A request is under way. -/
def JobProgress.requesting : JobProgress → Bool
  | .asking => true
  | .sending _ => true
  | .storing _ _ => true
  | _ => false

inductive JobEvent where
  /-- The request under way fails on its way. -/
  | fail (err : Fs0Error)
  | hasChunk
  | readChunk
  | uploadChunk (leaseNow now : Nat)
  /-- The answer to a call of `put_chunk`, by the number of calls that returned since. -/
  | stored (index : Nat)
deriving DecidableEq

namespace UploadChunkJob

def request (job : UploadChunkJob) (compressedBytes : Bytes) : UploadChunkRequest :=
  ⟨job.leaseId, job.fileId, job.volumeId, job.chunkId, job.rawLen, compressedBytes⟩

/-- What the job makes of the answer to `HasChunk`. -/
def onLens (job : UploadChunkJob) : Fs0Result (Option (Nat × Nat)) → JobProgress
  | .ok (some (existingRawLen, compressedLen)) =>
      if existingRawLen ≠ job.rawLen then
        .done (.error (.invalidData "existing chunk raw_len does not match upload job"))
      else .done (.ok ⟨job.chunkId, job.rawLen, compressedLen⟩)
  | .ok none => .reading
  | .error err => .done (.error err)

/-- `read_chunk_from_file`. -/
def readChunkFromFile (files : SourceFiles) (job : UploadChunkJob) : Fs0Result Bytes :=
  if volumeRawChunkSize < job.rawLen then
    .error (.invalidData s!"chunk raw_len {job.rawLen} exceeds maximum")
  else files job.sourcePath job.sourceOffset job.rawLen

/-- The bytes of the job, checked and compressed. -/
def compressedBytes (codec : UploadCodec) (files : SourceFiles) (job : UploadChunkJob) :
    Fs0Result Bytes := do
  let rawBytes ← job.readChunkFromFile files
  if codec.blake3 rawBytes ≠ job.chunkId then .error (.hashMismatch job.sourceOffset)
  else codec.zstdCompress rawBytes

/-- What a call of `put_chunk` with the arguments of the job returned. -/
def answer (job : UploadChunkJob) (bytes : Bytes) : VolumeReturn → Option (Fs0Result ChunkMeta)
  | .putChunk chunkId rawLen compressedBytes result =>
      if chunkId = job.chunkId ∧ rawLen = job.rawLen ∧ compressedBytes = bytes then some result
      else none
  | _ => none

/-- `upload_chunk_job`, from one await point to the next. -/
def step (codec : UploadCodec) (files : SourceFiles) (job : UploadChunkJob) (s : StorageServer) :
    JobProgress → JobEvent → Option (StorageServer × JobProgress)
  | progress, .fail err =>
      if progress.requesting ∧ codec.connectionError err then some (s, .done (.error err)) else none
  | .asking, .hasChunk =>
      some (s, job.onLens (s.hasChunk job.volumeId job.chunkId >>= DataResponse.chunkLens))
  | .reading, .readChunk =>
      match job.compressedBytes codec files with
      | .ok bytes => some (s, .sending bytes)
      | .error err => some (s, .done (.error err))
  | .sending bytes, .uploadChunk leaseNow now =>
      let request := job.request bytes
      (StorageServer.step codec.blake3 codec.zstdDecompress s
        (.uploadChunk request leaseNow now)).map fun s' =>
          match (s.retainLeases leaseNow).checkUpload codec.blake3 codec.zstdDecompress request with
          | .ok v => (s', .storing bytes v.returns.length)
          | .error err => (s', .done (.error err))
  | .storing bytes returned, .stored index =>
      (s.volumes.find? job.volumeId).bind fun row =>
        ((row.volume.returns.take (row.volume.returns.length - returned))[index]?).bind fun r =>
          (job.answer bytes r).map fun result =>
            (s, .done (result.map fun known => ⟨job.chunkId, known.rawLen, known.compressedLen⟩))
  | _, _ => none

end UploadChunkJob

/-! ## A session -/

structure UploadSession where
  scheduler : HashRequestScheduler HashId UploadChunkJob UploadChunkResponse
  /-- Where the executions stand, by their slots. -/
  progress : Nat → JobProgress
  storage : StorageServer
  files : SourceFiles

inductive SessionEvent where
  | enqueueUpload (job : UploadChunkJob)
  /-- A step of a call of `enqueue_blocking` or of a task it spawned. -/
  | scheduler (e : SchedulerEvent HashId UploadChunkJob UploadChunkResponse)
  | job (slotId : Nat) (e : JobEvent)
  /-- A job returns. -/
  | complete (slotId : Nat)
  /-- What else happens at the storage. -/
  | storage (e : StorageEvent)
  | setFiles (files : SourceFiles)

/-- The steps of the scheduler that are no calls of its own. -/
def SchedulerEvent.internal {κ Req Res : Type} : SchedulerEvent κ Req Res → Bool
  | .enqueue _ _ => false
  | .complete _ _ => false
  | _ => true

namespace UploadSession

def onScheduler (s : UploadSession)
    (e : SchedulerEvent HashId UploadChunkJob UploadChunkResponse) : Option UploadSession :=
  (s.scheduler.step e).map fun scheduler => { s with scheduler := scheduler }

def setProgress (s : UploadSession) (slotId : Nat) (progress : JobProgress) : UploadSession :=
  { s with progress := fun other => if other = slotId then progress else s.progress other }

def step (codec : UploadCodec) (s : UploadSession) : SessionEvent → Option UploadSession
  | .enqueueUpload job => s.onScheduler (.enqueue job.chunkId job)
  | .scheduler e => if e.internal then s.onScheduler e else none
  | .job slotId e =>
      (s.scheduler.slots.find? slotId).bind fun slot =>
        if slot.task = .running then
          (slot.request.step codec s.files s.storage (s.progress slotId) e).map fun next =>
            { s with storage := next.1 }.setProgress slotId next.2
        else none
  | .complete slotId =>
      match s.progress slotId with
      | .done result => s.onScheduler (.complete slotId result)
      | _ => none
  | .storage e =>
      if e.deletesChunk then none
      else (StorageServer.step codec.blake3 codec.zstdDecompress s.storage e).map fun storage =>
        { s with storage := storage }
  | .setFiles files => some { s with files := files }

end UploadSession

/-- A session that is created for a storage which is running. -/
def uploadSession (codec : UploadCodec) (uploadConcurrency : Nat) :
    System UploadSession SessionEvent where
  Init s := s.scheduler = .new uploadConcurrency ∧ (∀ slotId, s.progress slotId = .asking) ∧
    (storage codec.blake3 codec.zstdDecompress).Init s.storage
  step := UploadSession.step codec

end Fs0
