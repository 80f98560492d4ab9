import Fs0.Core.Protocol
import Fs0.Lib.Extent
import Fs0.Lib.Transition
import Mathlib.Data.List.Sort

/-!
Contract: `Fs0Client::download_file`, the scheduling loop of
`download_file_chunks`, the completion callbacks it shares its state with, and
the writer task.

Owns:
- the checks made on each bundle and chunk, and the request each chunk leads to;
- `InternalDownloadState` and the two places that finish a transfer;
- the transition system of one download, in which a callback may run at any point
  after its chunk was enqueued and the writer may fail at any point.

Does not own: what a storage answers. Listings and chunk results are events.
-/

set_option autoImplicit false

namespace Fs0

open Fs0.Lib

/-! ## Checks of the scheduling loop -/

/-- The replica to read a bundle from: the first one whose storage is known. -/
def findReplica (storages : List StoragePeerInfo) (replicas : List ReplicaLocation) :
    Option (ReplicaLocation × StoragePeerInfo) :=
  replicas.findSome? fun replica =>
    (storages.find? fun storage => storage.storageId = replica.storageId).map fun storage =>
      (replica, storage)

/-- The locals of the loop over the chunks of one bundle. -/
structure BundleDownload where
  bundle : FileBundleRef
  bundleOffset : Nat
  replica : ReplicaLocation
  storage : StoragePeerInfo
deriving DecidableEq, Repr

def startBundle (storages : List StoragePeerInfo) (bundle : FileBundleRef) :
    Fs0Result BundleDownload := do
  let bundleOffset ← okOr (checkedMul bundle.bundleIndex volumeBundleRawSize)
    (.integerConversion "download bundle offset overflow")
  let (replica, storage) ← okOr (findReplica storages bundle.replicas) .notFound
  return ⟨bundle, bundleOffset, replica, storage⟩

/-- What `enqueue_download` is given for one chunk: the storage and request it is
sent to, and what its callback captures. -/
structure ChunkDownload where
  storageId : Nat
  request : DownloadChunkRequest
  rawLen : Nat
  rawOffset : Nat
deriving DecidableEq, Repr

def chunkDownload (plan : FileReadPlan) (current : BundleDownload) (chunk : BundleChunkRef) :
    Fs0Result ChunkDownload := do
  let chunkOffset ← okOr (checkedMul chunk.chunkIndex volumeRawChunkSize)
    (.integerConversion "download chunk offset overflow")
  if current.bundle.rawLen ≤ chunkOffset then
    .error (.invalidData "download chunk offset exceeds bundle raw_len")
  else
    let rawLen := min volumeRawChunkSize (current.bundle.rawLen - chunkOffset)
    let rawOffset ← okOr (checkedAdd current.bundleOffset chunkOffset)
      (.integerConversion "download file offset overflow")
    if (checkedAdd rawOffset rawLen).all fun stop => plan.size < stop then
      .error (.invalidData "download chunk exceeds file size")
    else
      return ⟨current.storage.storageId, ⟨current.replica.volumeId, chunk.chunkId⟩, rawLen, rawOffset⟩

/-- `sort_by_key` on the chunk index, which is stable. -/
def sortChunks (chunks : List BundleChunkRef) : List BundleChunkRef :=
  chunks.insertionSort fun left right => left.chunkIndex ≤ right.chunkIndex

/-! ## The state shared with the callbacks -/

structure DownloadChunkResult where
  chunkId : HashId
  rawBytes : Bytes
deriving DecidableEq, Repr

structure DownloadWriteJob where
  rawOffset : Nat
  rawBytes : Bytes
deriving DecidableEq, Repr

/-- `doneTx` tells whether the sender of the completion channel is still there to take. -/
structure InternalDownloadState where
  remainChunks : Nat
  totalChunks : Nat
  schedulingDone : Bool
  firstError : Option Fs0Error
  doneTx : Bool
deriving DecidableEq, Repr

namespace InternalDownloadState

def initial : InternalDownloadState := ⟨0, 0, false, none, true⟩

/-- The first error is the one that is kept. -/
def recordError (state : InternalDownloadState) (err : Fs0Error) : InternalDownloadState :=
  if state.firstError.isNone then { state with firstError := some err } else state

/-- The `match result` of a callback, and the write job it sends. -/
def receive (state : InternalDownloadState) (chunk : ChunkDownload) (writerOpen : Bool) :
    Fs0Result DownloadChunkResult → InternalDownloadState × Option DownloadWriteJob
  | .ok response =>
      if response.chunkId ≠ chunk.request.chunkId ∨ response.rawBytes.length ≠ chunk.rawLen then
        (state.recordError (.invalidData "downloaded chunk metadata does not match request"), none)
      else if writerOpen then
        (state, some ⟨chunk.rawOffset, response.rawBytes⟩)
      else
        (state.recordError (.internal "download writer task closed"), none)
  | .error err => (state.recordError err, none)

/-- The `match state.first_error.take()` before a result is sent. -/
def transferResult : Option Fs0Error → Fs0Result Unit
  | some err => .error err
  | none => .ok ()

/-- Takes the sender and the first error, and sends the result of the transfer. -/
def sendDone (state : InternalDownloadState) :
    InternalDownloadState × Option (Fs0Result Unit) :=
  if state.doneTx then
    ({ state with doneTx := false, firstError := none }, some (transferResult state.firstError))
  else
    (state, none)

/-- The rest of a callback: the chunk is counted, and the last one to complete
after scheduling finishes the transfer. -/
def complete (state : InternalDownloadState) : InternalDownloadState × Option (Fs0Result Unit) :=
  let counted := { state with remainChunks := state.remainChunks - 1 }
  if counted.schedulingDone ∧ counted.remainChunks = 0 then counted.sendDone else (counted, none)

/-- The block after the scheduling loop, with `should_wait`. -/
def finishScheduling (state : InternalDownloadState) :
    InternalDownloadState × Option (Fs0Result Unit) × Bool :=
  let done := { state with schedulingDone := true }
  if done.remainChunks = 0 then
    let (after, sent) := done.sendDone
    (after, sent, false)
  else
    (done, none, true)

end InternalDownloadState

/-! ## One download -/

/-- Where `download_file_chunks` stands. -/
inductive DownloadPhase where
  | bundles (rest : List FileBundleRef)
  | chunks (current : BundleDownload) (chunks : List BundleChunkRef) (rest : List FileBundleRef)
  | enqueuing (current : BundleDownload) (chunks : List BundleChunkRef) (rest : List FileBundleRef)
  | waiting
  | returned (result : Fs0Result Unit)

/-- The file the writer task owns. -/
structure LocalFile where
  length : Nat
  bytes : Nat → UInt8

namespace LocalFile

/-- `File::create` and `set_len`. -/
def create (size : Nat) : LocalFile := ⟨size, fun _ => 0⟩

/-- `seek` and `write_all`. -/
def write (file : LocalFile) (offset : Nat) (bytes : Bytes) : LocalFile :=
  ⟨max file.length (offset + bytes.length), overwrite file.bytes offset bytes⟩

def contents (file : LocalFile) : Bytes := slice file.bytes 0 file.length

end LocalFile

inductive WriterTask where
  | running
  | ended (result : Fs0Result Unit)
deriving DecidableEq

/-- A callback that has run: its chunk, what it received and what it sent. -/
structure CompletedChunk where
  chunk : ChunkDownload
  result : Fs0Result DownloadChunkResult
  sent : Option DownloadWriteJob

/-- The last two fields are history: the sorted listings the loop went through, and
the callbacks that have run, oldest first. -/
structure Download where
  phase : DownloadPhase
  shared : InternalDownloadState
  doneRx : Option (Fs0Result Unit)
  pending : List ChunkDownload
  writeRx : List DownloadWriteJob
  writer : WriterTask
  output : LocalFile
  listed : List (FileBundleRef × List BundleChunkRef)
  completed : List CompletedChunk

inductive DownloadEvent where
  /-- The next bundle is started and its chunks are listed. -/
  | listBundle (listing : Fs0Result (List BundleChunkRef))
  /-- The next chunk is checked, counted and handed to `enqueue_download`. -/
  | scheduleChunk
  /-- `enqueue_download` returns. -/
  | enqueued (result : Fs0Result Unit)
  /-- The callback of a pending chunk runs. -/
  | callback (index : Nat) (result : Fs0Result DownloadChunkResult)
  /-- The block after the loop runs. -/
  | finishScheduling
  /-- `done_rx.await` returns. -/
  | receiveDone
  /-- The writer task writes its next job. -/
  | writeJob
  /-- A write fails after some of its bytes. -/
  | writeFails (torn : Nat) (err : Fs0Error)
  /-- Every sender is gone, and the writer flushes and ends. -/
  | writerEnds (flush : Fs0Result Unit)

namespace Download

/-- The rest of the body of the loop over bundles, after its checks. -/
def bundleListed (s : Download) (bundle : FileBundleRef) (rest : List FileBundleRef) :
    Fs0Result BundleDownload → Fs0Result (List BundleChunkRef) → Download
  | .error err, _ => { s with phase := .returned (.error err) }
  | .ok _, .error err => { s with phase := .returned (.error err) }
  | .ok current, .ok chunks =>
      { s with
        phase := .chunks current (sortChunks chunks) rest
        listed := s.listed ++ [(bundle, sortChunks chunks)] }

def listBundle (storages : List StoragePeerInfo) (s : Download)
    (listing : Fs0Result (List BundleChunkRef)) : Option Download :=
  match s.phase with
  | .bundles (bundle :: rest) =>
      some (s.bundleListed bundle rest (startBundle storages bundle) listing)
  | _ => none

/-- The rest of the body of the loop over chunks, after its checks. -/
def chunkScheduled (s : Download) (current : BundleDownload) (chunks : List BundleChunkRef)
    (rest : List FileBundleRef) : Fs0Result ChunkDownload → Download
  | .error err => { s with phase := .returned (.error err) }
  | .ok job =>
      { s with
        phase := .enqueuing current chunks rest
        shared :=
          { s.shared with
            remainChunks := s.shared.remainChunks + 1
            totalChunks := s.shared.totalChunks + 1 }
        pending := s.pending ++ [job] }

def scheduleChunk (plan : FileReadPlan) (s : Download) : Option Download :=
  match s.phase with
  | .chunks _ [] rest => some { s with phase := .bundles rest }
  | .chunks current (chunk :: chunks) rest =>
      some (s.chunkScheduled current chunks rest (chunkDownload plan current chunk))
  | _ => none

def enqueued (s : Download) (result : Fs0Result Unit) : Option Download :=
  match s.phase with
  | .enqueuing current chunks rest =>
      match result with
      | .error err => some { s with phase := .returned (.error err) }
      | .ok () => some { s with phase := .chunks current chunks rest }
  | _ => none

def callback (s : Download) (index : Nat) (result : Fs0Result DownloadChunkResult) :
    Option Download :=
  match s.pending[index]? with
  | none => none
  | some chunk =>
      let (received, job) := s.shared.receive chunk (s.writer = .running) result
      let (after, done) := received.complete
      some { s with
        shared := after
        doneRx := done.or s.doneRx
        pending := s.pending.eraseIdx index
        writeRx := s.writeRx ++ job.toList
        completed := s.completed ++ [⟨chunk, result, job⟩] }

def finishScheduling (s : Download) : Option Download :=
  match s.phase with
  | .bundles [] =>
      let (after, done, shouldWait) := s.shared.finishScheduling
      some { s with
        shared := after
        doneRx := done.or s.doneRx
        phase := if shouldWait then .waiting else .returned (.ok ()) }
  | _ => none

def receiveDone (s : Download) : Option Download :=
  match s.phase, s.doneRx with
  | .waiting, some result => some { s with phase := .returned result }
  | _, _ => none

def writeJob (s : Download) : Option Download :=
  match s.writer, s.writeRx with
  | .running, job :: jobs =>
      some { s with writeRx := jobs, output := s.output.write job.rawOffset job.rawBytes }
  | _, _ => none

def writeFails (s : Download) (torn : Nat) (err : Fs0Error) : Option Download :=
  match s.writer, s.writeRx with
  | .running, job :: jobs =>
      some { s with
        writeRx := jobs
        writer := .ended (.error err)
        output := s.output.write job.rawOffset (job.rawBytes.take torn) }
  | _, _ => none

/-- A pending callback still holds a sender, and so does the loop until it returns. -/
def writerEnds (s : Download) (flush : Fs0Result Unit) : Option Download :=
  match s.writer, s.writeRx, s.pending, s.phase with
  | .running, [], [], .returned _ => some { s with writer := .ended flush }
  | _, _, _, _ => none

def step (plan : FileReadPlan) (storages : List StoragePeerInfo) (s : Download) :
    DownloadEvent → Option Download
  | .listBundle listing => s.listBundle storages listing
  | .scheduleChunk => s.scheduleChunk plan
  | .enqueued result => s.enqueued result
  | .callback index result => s.callback index result
  | .finishScheduling => s.finishScheduling
  | .receiveDone => s.receiveDone
  | .writeJob => s.writeJob
  | .writeFails torn err => s.writeFails torn err
  | .writerEnds flush => s.writerEnds flush

/-- The state in which `download_file` calls `download_file_chunks`. -/
def initial (plan : FileReadPlan) : Download where
  phase := .bundles plan.bundles
  shared := .initial
  doneRx := none
  pending := []
  writeRx := []
  writer := .running
  output := .create plan.size
  listed := []
  completed := []

end Download

def downloadSystem (plan : FileReadPlan) (storages : List StoragePeerInfo) :
    System Download DownloadEvent where
  Init s := s = Download.initial plan
  step := Download.step plan storages

structure TransferStats where
  chunks : Nat
  size : Nat
deriving DecidableEq, Repr

/-- What `download_file` returns once both the loop and the writer task have. -/
def Download.result? (plan : FileReadPlan) (s : Download) : Option (Fs0Result TransferStats) :=
  match s.phase, s.writer with
  | .returned result, .ended written =>
      some do
        result
        written
        return ⟨(plan.size + volumeRawChunkSize - 1) / volumeRawChunkSize, plan.size⟩
  | _, _ => none

/-! ## What each event does -/

namespace Download

variable {plan : FileReadPlan} {storages : List StoragePeerInfo} {s s' : Download}

theorem bundleListed_cases (s : Download) (bundle : FileBundleRef) (rest : List FileBundleRef)
    (outcome : Fs0Result BundleDownload) (listing : Fs0Result (List BundleChunkRef)) :
    (∃ err, s.bundleListed bundle rest outcome listing =
        { s with phase := .returned (.error err) }) ∨
      ∃ current chunks, outcome = .ok current ∧ listing = .ok chunks ∧
        s.bundleListed bundle rest outcome listing =
          { s with
            phase := .chunks current (sortChunks chunks) rest
            listed := s.listed ++ [(bundle, sortChunks chunks)] } := by
  cases outcome with
  | error err => exact .inl ⟨err, rfl⟩
  | ok current =>
      cases listing with
      | error err => exact .inl ⟨err, rfl⟩
      | ok chunks => exact .inr ⟨current, chunks, rfl, rfl, rfl⟩

theorem listBundle_cases {listing : Fs0Result (List BundleChunkRef)}
    (taken : s.listBundle storages listing = some s') :
    ∃ bundle rest, s.phase = .bundles (bundle :: rest) ∧
      ((∃ err, s' = { s with phase := .returned (.error err) }) ∨
        ∃ current chunks, startBundle storages bundle = .ok current ∧ listing = .ok chunks ∧
          s' = { s with
            phase := .chunks current (sortChunks chunks) rest
            listed := s.listed ++ [(bundle, sortChunks chunks)] }) := by
  unfold listBundle at taken
  split at taken
  · next bundle rest here =>
      obtain rfl := Option.some.inj taken
      exact ⟨bundle, rest, here, bundleListed_cases s bundle rest _ listing⟩
  · cases taken

theorem chunkScheduled_cases (s : Download) (current : BundleDownload)
    (chunks : List BundleChunkRef) (rest : List FileBundleRef) (outcome : Fs0Result ChunkDownload) :
    (∃ err, s.chunkScheduled current chunks rest outcome =
        { s with phase := .returned (.error err) }) ∨
      ∃ job, outcome = .ok job ∧ s.chunkScheduled current chunks rest outcome =
        { s with
          phase := .enqueuing current chunks rest
          shared :=
            { s.shared with
              remainChunks := s.shared.remainChunks + 1
              totalChunks := s.shared.totalChunks + 1 }
          pending := s.pending ++ [job] } := by
  cases outcome with
  | error err => exact .inl ⟨err, rfl⟩
  | ok job => exact .inr ⟨job, rfl, rfl⟩

theorem scheduleChunk_cases (taken : s.scheduleChunk plan = some s') :
    (∃ current rest, s.phase = .chunks current [] rest ∧ s' = { s with phase := .bundles rest }) ∨
      ∃ current chunk chunks rest, s.phase = .chunks current (chunk :: chunks) rest ∧
        ((∃ err, s' = { s with phase := .returned (.error err) }) ∨
          ∃ job, chunkDownload plan current chunk = .ok job ∧
            s' = { s with
              phase := .enqueuing current chunks rest
              shared :=
                { s.shared with
                  remainChunks := s.shared.remainChunks + 1
                  totalChunks := s.shared.totalChunks + 1 }
              pending := s.pending ++ [job] }) := by
  unfold scheduleChunk at taken
  split at taken
  · next current rest here => exact .inl ⟨current, rest, here, (Option.some.inj taken).symm⟩
  · next current chunk chunks rest here =>
      obtain rfl := Option.some.inj taken
      exact .inr ⟨current, chunk, chunks, rest, here, chunkScheduled_cases s current chunks rest _⟩
  · cases taken

theorem enqueued_cases {result : Fs0Result Unit} (taken : s.enqueued result = some s') :
    ∃ current chunks rest, s.phase = .enqueuing current chunks rest ∧
      ((∃ err, s' = { s with phase := .returned (.error err) }) ∨
        s' = { s with phase := .chunks current chunks rest }) := by
  unfold enqueued at taken
  split at taken
  · next current chunks rest here =>
      refine ⟨current, chunks, rest, here, ?_⟩
      cases result with
      | error err => exact .inl ⟨err, (Option.some.inj taken).symm⟩
      | ok => exact .inr (Option.some.inj taken).symm
  · cases taken

theorem callback_cases {index : Nat} {result : Fs0Result DownloadChunkResult}
    (taken : s.callback index result = some s') :
    ∃ chunk, s.pending[index]? = some chunk ∧
      s' = { s with
        shared := (s.shared.receive chunk (s.writer = .running) result).1.complete.1
        doneRx := (s.shared.receive chunk (s.writer = .running) result).1.complete.2.or s.doneRx
        pending := s.pending.eraseIdx index
        writeRx := s.writeRx ++ (s.shared.receive chunk (s.writer = .running) result).2.toList
        completed := s.completed ++
          [⟨chunk, result, (s.shared.receive chunk (s.writer = .running) result).2⟩] } := by
  unfold callback at taken
  split at taken
  · cases taken
  · next chunk found => exact ⟨chunk, found, (Option.some.inj taken).symm⟩

theorem finishScheduling_cases (taken : s.finishScheduling = some s') :
    s.phase = .bundles [] ∧
      s' = { s with
        shared := s.shared.finishScheduling.1
        doneRx := s.shared.finishScheduling.2.1.or s.doneRx
        phase := if s.shared.finishScheduling.2.2 then .waiting else .returned (.ok ()) } := by
  unfold finishScheduling at taken
  split at taken
  · next here => exact ⟨here, (Option.some.inj taken).symm⟩
  · cases taken

theorem receiveDone_cases (taken : s.receiveDone = some s') :
    ∃ result, s.phase = .waiting ∧ s.doneRx = some result ∧
      s' = { s with phase := .returned result } := by
  unfold receiveDone at taken
  split at taken
  · next result here received => exact ⟨result, here, received, (Option.some.inj taken).symm⟩
  · cases taken

/-- The writer task changes only its queue, its own state and the file. -/
theorem writer_cases {e : DownloadEvent}
    (writer : e = .writeJob ∨ (∃ torn err, e = .writeFails torn err) ∨ ∃ flush, e = .writerEnds flush)
    (taken : s.step plan storages e = some s') :
    ∃ writeRx writer output,
      s' = { s with writeRx := writeRx, writer := writer, output := output } := by
  rcases writer with rfl | ⟨torn, err, rfl⟩ | ⟨flush, rfl⟩
  · simp only [step, writeJob] at taken
    split at taken
    · exact ⟨_, _, _, (Option.some.inj taken).symm⟩
    · cases taken
  · simp only [step, writeFails] at taken
    split at taken
    · exact ⟨_, _, _, (Option.some.inj taken).symm⟩
    · cases taken
  · simp only [step, writerEnds] at taken
    split at taken
    · exact ⟨_, _, _, (Option.some.inj taken).symm⟩
    · cases taken

end Download

end Fs0
