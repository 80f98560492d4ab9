import Fs0.Client.BundleShortcut
import Fs0.Client.DownloadCompletion
import Fs0.Client.UploadLayout

/-!
Contract: `Fs0Client::upload_file_inner` from its first await to its last.

Owns:
- the lease it asks for, the scan of the file with its chunk jobs, the completion callbacks,
  the loop over the bundles, and the commit or the abort at its end;
- the requests it sends to central, in their order;
- that an upload that returns has committed what it has read, or has given its lease back.

Does not own: what central and the storages answer. Their answers are events.
-/

set_option autoImplicit false

namespace Fs0

open Lib

/-! ## The state shared with the callbacks -/

/-- `InternalUploadState` has the fields of `InternalDownloadState`, and the same blocks count
its chunks and finish it. -/
abbrev InternalUploadState := InternalDownloadState

/-- The `match result` of a callback. -/
def InternalUploadState.receive (state : InternalUploadState) (job : UploadChunkJob) :
    Fs0Result UploadChunkResponse → InternalUploadState
  | .ok response =>
      if response.chunkId ≠ job.chunkId ∨ response.rawLen ≠ job.rawLen then
        state.recordError (.invalidData "uploaded chunk metadata does not match request")
      else state
  | .error err => state.recordError err

/-- A callback that has run. -/
structure UploadedChunk where
  job : UploadChunkJob
  result : Fs0Result UploadChunkResponse
deriving DecidableEq

/-- The storage took the chunk of the job. -/
def UploadedChunk.Delivered (c : UploadedChunk) : Prop :=
  ∃ response, c.result = .ok response ∧ response.chunkId = c.job.chunkId ∧
    response.rawLen = c.job.rawLen

/-! ## One upload -/

/-- What `upload_file` is called with, and the length that `metadata` tells. -/
structure UploadArgs where
  remotePath : String
  localPath : String
  preferVolumeName : Option String
  len : Nat
deriving DecidableEq

namespace UploadArgs

def beginUpdate (args : UploadArgs) : BeginUpdateRequest :=
  ⟨args.remotePath, 0, args.preferVolumeName, some args.len⟩

/-- What the chunk jobs share once the lease is there. -/
def target (args : UploadArgs) (lease : UpdateLease) : UploadTarget :=
  ⟨lease.leaseId, lease.fileId, lease.volumeId, args.localPath⟩

end UploadArgs

/-- Where `upload_file_inner` stands. -/
inductive UploadPhase where
  /-- The length of the file is read, and it is opened. -/
  | opening
  | beginning
  /-- The storage of the lease is looked up. -/
  | finding (lease : UpdateLease)
  | scanning (lease : UpdateLease)
  | enqueuing (lease : UpdateLease)
  | waiting (lease : UpdateLease)
  | committingBundles (upload : BundleUpload)
  | committing (lease : UpdateLease) (request : CommitUpdateRequest)
  | aborting (lease : UpdateLease) (err : Fs0Error)
  | returned (result : Fs0Result FileRecord)
  /-- The future was dropped. -/
  | dropped

/-- An upload. The last three fields are history: the lease it was granted, the callbacks that
have run, oldest first, and its requests to central, newest first. -/
structure FileUpload where
  phase : UploadPhase
  scan : UploadScan
  shared : InternalUploadState
  doneRx : Option (Fs0Result Unit)
  pending : List UploadChunkJob
  granted : Option UpdateLease
  completed : List UploadedChunk
  requests : List ControlRequest

inductive UploadEvent where
  | opened (result : Fs0Result Unit)
  /-- The answer to `BeginUpdate`. -/
  | begun (answer : Fs0Result UpdateLease)
  | findStorage (storages : List StoragePeerInfo)
  /-- `reader.read` returns so many bytes, and a chunk is handed to `enqueue_upload`. -/
  | read (count : Nat)
  | readFails (err : Fs0Error)
  /-- `enqueue_upload` returns. -/
  | enqueued (result : Fs0Result Unit)
  /-- The callback of a pending chunk runs. -/
  | callback (index : Nat) (result : Fs0Result UploadChunkResponse)
  /-- A size of the scan has overflown. -/
  | scanFails
  /-- The block after the loop runs. -/
  | finishScheduling
  /-- `done_rx.await` returns. -/
  | receiveDone
  | hasBundle (answer : Fs0Result (Option (Nat × Nat)))
  | commitBundle (answer : Fs0Result CommitBundleResponse)
  /-- The loop over the bundles is over, and the update is committed. -/
  | commitUpdate
  /-- The answer to `CommitUpdate`. -/
  | committed (answer : Fs0Result FileRecord)
  /-- The answer to `AbortUpdate`. -/
  | aborted (answer : Fs0Result Unit)
  | drop

namespace FileUpload

/-- The storage that has mounted the volume of a lease. -/
def findVolume (storages : List StoragePeerInfo) (volumeId : Nat) :
    Option (StoragePeerInfo × Nat) :=
  storages.findSome? fun storage =>
    (storage.volumes.find? fun volume => volume.volumeId = volumeId).map fun volume =>
      (storage, volume.volumeId)

/-- `abort_update`, whose answer does not matter. -/
def abort (s : FileUpload) (lease : UpdateLease) (err : Fs0Error) : FileUpload :=
  { s with
    phase := .aborting lease err
    requests := .abortUpdate lease.leaseId lease.fileId :: s.requests }

def opened (args : UploadArgs) (s : FileUpload) (result : Fs0Result Unit) : Option FileUpload :=
  match s.phase, result with
  | .opening, .ok () =>
      some { s with phase := .beginning, requests := .beginUpdate args.beginUpdate :: s.requests }
  | .opening, .error err => some { s with phase := .returned (.error err) }
  | _, _ => none

def begun (s : FileUpload) (answer : Fs0Result UpdateLease) : Option FileUpload :=
  match s.phase, answer with
  | .beginning, .ok lease => some { s with phase := .finding lease, granted := some lease }
  | .beginning, .error err => some { s with phase := .returned (.error err) }
  | _, _ => none

def findStorage (s : FileUpload) (storages : List StoragePeerInfo) : Option FileUpload :=
  match s.phase with
  | .finding lease =>
      match findVolume storages lease.volumeId with
      | some _ => some { s with phase := .scanning lease }
      | none => some (s.abort lease .notFound)
  | _ => none

/-- The scan after a `read` call, with the jobs that it adds. -/
def scanned (s : FileUpload) (lease : UpdateLease) (scan : UploadScan) : FileUpload :=
  let jobs := scan.enqueued.drop s.scan.enqueued.length
  { s with
    phase := if jobs = [] then .scanning lease else .enqueuing lease
    scan := scan
    shared :=
      { s.shared with
        remainChunks := s.shared.remainChunks + jobs.length
        totalChunks := s.shared.totalChunks + jobs.length }
    pending := s.pending ++ jobs }

def read (blake3 : Bytes → HashId) (args : UploadArgs) (s : FileUpload) (count : Nat) :
    Option FileUpload :=
  match s.phase with
  | .scanning lease =>
      (s.scan.step blake3 (args.target lease) count).map fun scan => s.scanned lease scan
  | _ => none

def readFails (s : FileUpload) (err : Fs0Error) : Option FileUpload :=
  match s.phase, s.scan.result with
  | .scanning lease, none => some (s.abort lease err)
  | _, _ => none

def enqueued (s : FileUpload) (result : Fs0Result Unit) : Option FileUpload :=
  match s.phase, result with
  | .enqueuing lease, .ok () => some { s with phase := .scanning lease }
  | .enqueuing lease, .error err => some (s.abort lease err)
  | _, _ => none

def callback (s : FileUpload) (index : Nat) (result : Fs0Result UploadChunkResponse) :
    Option FileUpload :=
  s.pending[index]?.map fun job =>
    let done := (InternalUploadState.receive s.shared job result).complete
    { s with
      shared := done.1
      doneRx := done.2.or s.doneRx
      pending := s.pending.eraseIdx index
      completed := s.completed ++ [⟨job, result⟩] }

def scanFails (s : FileUpload) : Option FileUpload :=
  match s.phase, s.scan.result with
  | .scanning lease, some (.error err) => some (s.abort lease err)
  | _, _ => none

/-- The loop over the bundles starts. -/
def bundleUpload (s : FileUpload) (lease : UpdateLease) : BundleUpload :=
  ⟨0, lease, s.scan.newSize, s.scan.uploadBundles, [], [], [], .asking⟩

def finishScheduling (s : FileUpload) : Option FileUpload :=
  match s.phase, s.scan.result with
  | .scanning lease, some (.ok ()) =>
      let (after, done, shouldWait) := s.shared.finishScheduling
      some { s with
        shared := after
        doneRx := done.or s.doneRx
        phase := if shouldWait then .waiting lease else .committingBundles (s.bundleUpload lease) }
  | _, _ => none

def receiveDone (s : FileUpload) : Option FileUpload :=
  match s.phase, s.doneRx with
  | .waiting lease, some (.ok ()) =>
      some { s with phase := .committingBundles (s.bundleUpload lease) }
  | .waiting lease, some (.error err) => some (s.abort lease err)
  | _, _ => none

/-- The loop over the bundles goes on, or returns its error. -/
def goOn (s : FileUpload) (upload : BundleUpload) : FileUpload :=
  match upload.stage with
  | .finished (.error err) => s.abort upload.lease err
  | _ => { s with phase := .committingBundles upload }

def hasBundle (s : FileUpload) (answer : Fs0Result (Option (Nat × Nat))) : Option FileUpload :=
  match s.phase with
  | .committingBundles upload =>
      match upload.stage, upload.uploadBundles with
      | .asking, bundle :: rest => some (s.goOn (upload.asked bundle rest answer))
      | _, _ => none
  | _ => none

def commitBundle (s : FileUpload) (answer : Fs0Result CommitBundleResponse) :
    Option FileUpload :=
  match s.phase with
  | .committingBundles upload =>
      match upload.stage, upload.uploadBundles with
      | .sending, bundle :: rest => some (s.goOn (upload.replied bundle rest answer))
      | _, _ => none
  | _ => none

def commitUpdate (s : FileUpload) : Option FileUpload :=
  match s.phase with
  | .committingBundles upload =>
      match upload.stage, upload.uploadBundles with
      | .asking, [] =>
          some { s with
            phase := .committing upload.lease upload.commitUpdateRequest
            requests := .commitUpdate upload.commitUpdateRequest :: s.requests }
      | _, _ => none
  | _ => none

def committed (s : FileUpload) (answer : Fs0Result FileRecord) : Option FileUpload :=
  match s.phase, answer with
  | .committing _ _, .ok file => some { s with phase := .returned (.ok file) }
  | .committing lease _, .error err => some (s.abort lease err)
  | _, _ => none

def aborted (s : FileUpload) : Option FileUpload :=
  match s.phase with
  | .aborting _ err => some { s with phase := .returned (.error err) }
  | _ => none

def drop (s : FileUpload) : Option FileUpload :=
  match s.phase with
  | .returned _ => none
  | _ => some { s with phase := .dropped }

def step (blake3 : Bytes → HashId) (args : UploadArgs) (s : FileUpload) :
    UploadEvent → Option FileUpload
  | .opened result => s.opened args result
  | .begun answer => s.begun answer
  | .findStorage storages => s.findStorage storages
  | .read count => s.read blake3 args count
  | .readFails err => s.readFails err
  | .enqueued result => s.enqueued result
  | .callback index result => s.callback index result
  | .scanFails => s.scanFails
  | .finishScheduling => s.finishScheduling
  | .receiveDone => s.receiveDone
  | .hasBundle answer => s.hasBundle answer
  | .commitBundle answer => s.commitBundle answer
  | .commitUpdate => s.commitUpdate
  | .committed answer => s.committed answer
  | .aborted _ => s.aborted
  | .drop => s.drop

/-- The state in which `upload_file` calls `upload_file_inner`, for a file of this content. -/
def initial (content : Bytes) : FileUpload where
  phase := .opening
  scan := .initial content
  shared := .initial
  doneRx := none
  pending := []
  granted := none
  completed := []
  requests := []

end FileUpload

def fileUpload (blake3 : Bytes → HashId) (args : UploadArgs) (content : Bytes) :
    System FileUpload UploadEvent where
  Init s := s = FileUpload.initial content
  step := FileUpload.step blake3 args

/-! ## Steps -/

namespace BundleUpload

variable {upload : BundleUpload} {bundle : UploadBundle} {rest : List UploadBundle}

/-- What the loop over the bundles has made of the first bundles, and what is left. -/
def bundles (upload : BundleUpload) : List (HashId × Nat) :=
  upload.committedBundles.map (fun bundle => (bundle.bundleId, bundle.rawLen)) ++
    upload.uploadBundles.map fun bundle => (bundle.bundleId, bundle.rawLen)

/-- The loop goes on with the same bundles. -/
structure GoesOn (before after : BundleUpload) : Prop where
  lease : after.lease = before.lease
  newSize : after.newSize = before.newSize
  bundles : after.bundles = before.bundles
  running : after.stage = .asking ∨ after.stage = .sending

theorem GoesOn.push (here : upload.uploadBundles = bundle :: rest) {after : BundleUpload}
    {compressedLen : Nat} (lease : after.lease = upload.lease)
    (newSize : after.newSize = upload.newSize) (uploadBundles : after.uploadBundles = rest)
    (committed : after.committedBundles =
      upload.committedBundles ++ [⟨bundle.bundleId, bundle.rawLen, compressedLen⟩])
    (stage : after.stage = .asking) : GoesOn upload after := by
  refine ⟨lease, newSize, ?_, .inl stage⟩
  rw [BundleUpload.bundles, BundleUpload.bundles, committed, uploadBundles, here]
  simp

theorem asked_cases (here : upload.uploadBundles = bundle :: rest)
    (answer : Fs0Result (Option (Nat × Nat))) :
    (∃ err, upload.asked bundle rest answer = upload.fail err) ∨
      GoesOn upload (upload.asked bundle rest answer) := by
  cases answer with
  | error err => exact .inl ⟨err, rfl⟩
  | ok lens =>
      cases lens with
      | none => exact .inr ⟨rfl, rfl, rfl, .inr rfl⟩
      | some lens =>
          obtain ⟨rawLen, compressedLen⟩ := lens
          by_cases differs : rawLen ≠ bundle.rawLen
          · exact .inl ⟨_, if_pos differs⟩
          · obtain rfl := not_not.mp differs
            rw [asked, if_neg differs]
            exact .inr (.push here rfl rfl rfl rfl rfl)

theorem replied_cases (here : upload.uploadBundles = bundle :: rest)
    (answer : Fs0Result CommitBundleResponse) :
    (∃ err, upload.replied bundle rest answer = upload.fail err) ∨
      GoesOn upload (upload.replied bundle rest answer) := by
  cases answer with
  | error err => exact .inl ⟨err, rfl⟩
  | ok response =>
      obtain ⟨bundleId, rawLen, compressedLen⟩ := response
      by_cases differs : rawLen ≠ bundle.rawLen
      · exact .inl ⟨_, if_pos differs⟩
      · obtain rfl := not_not.mp differs
        rw [replied, if_neg differs]
        exact .inr (.push here rfl rfl rfl rfl rfl)

end BundleUpload

/-- The lease that the upload has to give back if it fails here. -/
def UploadPhase.lease? : UploadPhase → Option UpdateLease
  | .finding lease => some lease
  | .scanning lease => some lease
  | .enqueuing lease => some lease
  | .waiting lease => some lease
  | .committingBundles upload => some upload.lease
  | .committing lease _ => some lease
  | _ => none

namespace FileUpload

/-- What an event does. Every error after the lease was granted is one kind of step. -/
inductive UploadStep (blake3 : Bytes → HashId) (args : UploadArgs) (s : FileUpload) :
    UploadEvent → FileUpload → Prop where
  | opens (here : s.phase = .opening) : UploadStep blake3 args s (.opened (.ok ()))
      { s with phase := .beginning, requests := .beginUpdate args.beginUpdate :: s.requests }
  | fails {e : UploadEvent} (err : Fs0Error) (here : s.phase = .opening ∨ s.phase = .beginning) :
      UploadStep blake3 args s e { s with phase := .returned (.error err) }
  | begins (lease : UpdateLease) (here : s.phase = .beginning) :
      UploadStep blake3 args s (.begun (.ok lease))
        { s with phase := .finding lease, granted := some lease }
  | finds (lease : UpdateLease) (storages : List StoragePeerInfo)
      (here : s.phase = .finding lease) :
      UploadStep blake3 args s (.findStorage storages) { s with phase := .scanning lease }
  | reads (lease : UpdateLease) (count : Nat) (scan : UploadScan) (here : s.phase = .scanning lease)
      (stepped : s.scan.step blake3 (args.target lease) count = some scan) :
      UploadStep blake3 args s (.read count) (s.scanned lease scan)
  | enqueues (lease : UpdateLease) (here : s.phase = .enqueuing lease) :
      UploadStep blake3 args s (.enqueued (.ok ())) { s with phase := .scanning lease }
  | calls (index : Nat) (job : UploadChunkJob) (result : Fs0Result UploadChunkResponse)
      (isJob : s.pending[index]? = some job) :
      UploadStep blake3 args s (.callback index result)
        { s with
          shared := (InternalUploadState.receive s.shared job result).complete.1
          doneRx := (InternalUploadState.receive s.shared job result).complete.2.or s.doneRx
          pending := s.pending.eraseIdx index
          completed := s.completed ++ [⟨job, result⟩] }
  | finishes (lease : UpdateLease) (here : s.phase = .scanning lease)
      (whole : s.scan.result = some (.ok ())) :
      UploadStep blake3 args s .finishScheduling
        { s with
          shared := s.shared.finishScheduling.1
          doneRx := s.shared.finishScheduling.2.1.or s.doneRx
          phase := if s.shared.finishScheduling.2.2 then .waiting lease
            else .committingBundles (s.bundleUpload lease) }
  | receives (lease : UpdateLease) (here : s.phase = .waiting lease)
      (done : s.doneRx = some (.ok ())) :
      UploadStep blake3 args s .receiveDone
        { s with phase := .committingBundles (s.bundleUpload lease) }
  | goesOn {e : UploadEvent} (upload after : BundleUpload)
      (here : s.phase = .committingBundles upload) (bundles : upload.GoesOn after) :
      UploadStep blake3 args s e { s with phase := .committingBundles after }
  | commits (upload : BundleUpload) (here : s.phase = .committingBundles upload)
      (done : upload.uploadBundles = []) :
      UploadStep blake3 args s .commitUpdate
        { s with
          phase := .committing upload.lease upload.commitUpdateRequest
          requests := .commitUpdate upload.commitUpdateRequest :: s.requests }
  | returns (lease : UpdateLease) (request : CommitUpdateRequest) (file : FileRecord)
      (here : s.phase = .committing lease request) :
      UploadStep blake3 args s (.committed (.ok file)) { s with phase := .returned (.ok file) }
  | aborts {e : UploadEvent} (lease : UpdateLease) (err : Fs0Error)
      (holds : s.phase.lease? = some lease) : UploadStep blake3 args s e (s.abort lease err)
  | gaveBack (lease : UpdateLease) (err : Fs0Error) (answer : Fs0Result Unit)
      (here : s.phase = .aborting lease err) :
      UploadStep blake3 args s (.aborted answer) { s with phase := .returned (.error err) }
  | drops : UploadStep blake3 args s .drop { s with phase := .dropped }

variable {blake3 : Bytes → HashId} {args : UploadArgs} {content : Bytes} {s s' : FileUpload}
  {e : UploadEvent}

theorem goOn_step {upload after : BundleUpload} (here : s.phase = .committingBundles upload)
    (outcome : (∃ err, after = upload.fail err) ∨ upload.GoesOn after) :
    UploadStep blake3 args s e (s.goOn after) := by
  rcases outcome with ⟨err, rfl⟩ | goesOn
  · exact .aborts upload.lease err (by rw [here]; rfl)
  · have isPhase : s.goOn after = { s with phase := .committingBundles after } := by
      unfold goOn
      rcases goesOn.running with stage | stage <;> rw [stage]
    rw [isPhase]
    exact .goesOn upload after here goesOn

theorem step_cases (taken : (fileUpload blake3 args content).step s e = some s') :
    UploadStep blake3 args s e s' := by
  cases e with
  | opened result =>
      simp only [fileUpload, step, opened] at taken
      split at taken
      · next here => exact Option.some.inj taken ▸ .opens here
      · next err here => exact Option.some.inj taken ▸ .fails err (.inl here)
      · cases taken
  | begun answer =>
      simp only [fileUpload, step, begun] at taken
      split at taken
      · next lease here => exact Option.some.inj taken ▸ .begins lease here
      · next err here => exact Option.some.inj taken ▸ .fails err (.inr here)
      · cases taken
  | findStorage storages =>
      simp only [fileUpload, step, findStorage] at taken
      split at taken
      · next lease here =>
        split at taken
        · exact Option.some.inj taken ▸ .finds lease storages here
        · exact Option.some.inj taken ▸ .aborts lease _ (by rw [here]; rfl)
      · cases taken
  | read count =>
      simp only [fileUpload, step, read] at taken
      split at taken
      · next lease here =>
        obtain ⟨scan, stepped, rfl⟩ := Option.map_eq_some_iff.mp taken
        exact .reads lease count scan here stepped
      · cases taken
  | readFails err =>
      simp only [fileUpload, step, readFails] at taken
      split at taken
      · next lease here _ => exact Option.some.inj taken ▸ .aborts lease err (by rw [here]; rfl)
      · cases taken
  | enqueued result =>
      simp only [fileUpload, step, enqueued] at taken
      split at taken
      · next lease here => exact Option.some.inj taken ▸ .enqueues lease here
      · next lease err here =>
        exact Option.some.inj taken ▸ .aborts lease err (by rw [here]; rfl)
      · cases taken
  | callback index result =>
      obtain ⟨job, isJob, rfl⟩ := Option.map_eq_some_iff.mp taken
      exact .calls index job result isJob
  | scanFails =>
      simp only [fileUpload, step, scanFails] at taken
      split at taken
      · next lease err here _ =>
        exact Option.some.inj taken ▸ .aborts lease err (by rw [here]; rfl)
      · cases taken
  | finishScheduling =>
      simp only [fileUpload, step, finishScheduling] at taken
      split at taken
      · next lease here whole => exact Option.some.inj taken ▸ .finishes lease here whole
      · cases taken
  | receiveDone =>
      simp only [fileUpload, step, receiveDone] at taken
      split at taken
      · next lease here done => exact Option.some.inj taken ▸ .receives lease here done
      · next lease err here _ =>
        exact Option.some.inj taken ▸ .aborts lease err (by rw [here]; rfl)
      · cases taken
  | hasBundle answer =>
      simp only [fileUpload, step, hasBundle] at taken
      split at taken
      · next upload here =>
        split at taken
        · next bundle rest _ bundles =>
          exact Option.some.inj taken ▸ goOn_step here (upload.asked_cases bundles answer)
        · cases taken
      · cases taken
  | commitBundle answer =>
      simp only [fileUpload, step, commitBundle] at taken
      split at taken
      · next upload here =>
        split at taken
        · next bundle rest _ bundles =>
          exact Option.some.inj taken ▸ goOn_step here (upload.replied_cases bundles answer)
        · cases taken
      · cases taken
  | commitUpdate =>
      simp only [fileUpload, step, commitUpdate] at taken
      split at taken
      · next upload here =>
        split at taken
        · next _ done => exact Option.some.inj taken ▸ .commits upload here done
        · cases taken
      · cases taken
  | committed answer =>
      simp only [fileUpload, step, committed] at taken
      split at taken
      · next lease request file here =>
        exact Option.some.inj taken ▸ .returns lease request file here
      · next lease request err here =>
        exact Option.some.inj taken ▸ .aborts lease err (by rw [here]; rfl)
      · cases taken
  | aborted answer =>
      simp only [fileUpload, step, aborted] at taken
      split at taken
      · next lease err here => exact Option.some.inj taken ▸ .gaveBack lease err answer here
      · cases taken
  | drop =>
      simp only [fileUpload, step, FileUpload.drop] at taken
      split at taken
      · cases taken
      · exact Option.some.inj taken ▸ .drops

/-! ## Callbacks -/

/-- A callback touches only the error field. Either its chunk was delivered and it leaves that
alone too, or an error is recorded after it. -/
theorem receive_cases (state : InternalUploadState) (job : UploadChunkJob)
    (result : Fs0Result UploadChunkResponse) :
    ∃ firstError, InternalUploadState.receive state job result =
        { state with firstError := firstError } ∧
      ((firstError = state.firstError ∧ UploadedChunk.Delivered ⟨job, result⟩) ∨
        (firstError ≠ none ∧ ¬ UploadedChunk.Delivered ⟨job, result⟩)) := by
  cases result with
  | error err =>
      obtain ⟨first, recorded⟩ := InternalDownloadState.recordError_eq state err
      refine ⟨some first, recorded, .inr ⟨by simp, ?_⟩⟩
      rintro ⟨response, received, -⟩
      cases received
  | ok response =>
      by_cases mismatch : response.chunkId ≠ job.chunkId ∨ response.rawLen ≠ job.rawLen
      · obtain ⟨first, recorded⟩ := InternalDownloadState.recordError_eq state
          (.invalidData "uploaded chunk metadata does not match request")
        refine ⟨some first, (if_pos mismatch).trans recorded, .inr ⟨by simp, ?_⟩⟩
        rintro ⟨other, received, sameId, sameLen⟩
        obtain rfl := Except.ok.inj received
        exact mismatch.elim (absurd sameId) (absurd sameLen)
      · refine ⟨state.firstError, if_neg mismatch, .inl ⟨rfl, response, rfl, ?_⟩⟩
        push Not at mismatch
        exact mismatch

def AllDelivered (s : FileUpload) : Prop := ∀ c ∈ s.completed, c.Delivered

/-- Every job is called back at most once. While the sender is there, the recorded error speaks
for all callbacks that have run. Once it is taken every callback has run, and the channel holds
their verdict. -/
structure SharedInv (s : FileUpload) : Prop where
  jobs : (s.pending ++ s.completed.map UploadedChunk.job).Perm s.scan.enqueued
  remain : s.shared.remainChunks = s.pending.length
  held : s.shared.doneTx = true →
    (s.shared.firstError = none ↔ s.AllDelivered) ∧ s.doneRx = none
  taken : s.shared.doneTx = false → s.shared.schedulingDone = true ∧ s.pending = [] ∧
    ∃ result, s.doneRx = some result ∧ (result = .ok () ↔ s.AllDelivered)

theorem sharedInv_initial (content : Bytes) : (initial content).SharedInv where
  jobs := .nil
  remain := rfl
  held := by simp [initial, InternalDownloadState.initial, AllDelivered]
  taken := by simp [initial, InternalDownloadState.initial]

/-- The steps that leave the scan, the shared state and the callbacks alone. -/
theorem SharedInv.of_same (inv : s.SharedInv) (scan : s'.scan = s.scan)
    (shared : s'.shared = s.shared) (doneRx : s'.doneRx = s.doneRx)
    (pending : s'.pending = s.pending) (completed : s'.completed = s.completed) : s'.SharedInv where
  jobs := by
    rw [pending, completed, scan]
    exact inv.jobs
  remain := by
    rw [shared, pending]
    exact inv.remain
  held := by
    rw [shared, doneRx, AllDelivered, completed]
    exact inv.held
  taken := by
    rw [shared, pending, doneRx, AllDelivered, completed]
    exact inv.taken

/-- The sender is there until scheduling is done. -/
theorem SharedInv.sender (inv : s.SharedInv) (scheduling : s.shared.schedulingDone = false) :
    s.shared.doneTx = true := by
  cases tx : s.shared.doneTx with
  | true => rfl
  | false =>
      have done := (inv.taken tx).1
      rw [scheduling] at done
      cases done

/-- A `read` call only adds jobs. -/
theorem enqueued_of_step {target : UploadTarget} {scan scan' : UploadScan} {count : Nat}
    (stepped : scan.step blake3 target count = some scan') :
    ∃ jobs, scan'.enqueued = scan.enqueued ++ jobs := by
  have closed (scan : UploadScan) : (scan.closeBundle blake3).enqueued = scan.enqueued := by
    unfold UploadScan.closeBundle
    split
    · rfl
    · split <;> rfl
  have taken (scan : UploadScan) (count : Nat) :
      ∃ jobs, (scan.takeChunk blake3 target count).enqueued = scan.enqueued ++ jobs := by
    unfold UploadScan.takeChunk
    split
    · exact ⟨[], (List.append_nil _).symm⟩
    · exact ⟨_, rfl⟩
  unfold UploadScan.step at stepped
  split at stepped
  · split at stepped
    · obtain rfl := Option.some.inj stepped
      exact ⟨[], (closed scan).trans (List.append_nil _).symm⟩
    · obtain rfl := Option.some.inj stepped
      split
      · rw [closed]
        exact taken scan count
      · exact taken scan count
  · cases stepped

theorem sharedInv_reads {lease : UpdateLease} {target : UploadTarget} {count : Nat}
    {scan : UploadScan} (inv : s.SharedInv) (scheduling : s.shared.schedulingDone = false)
    (stepped : s.scan.step blake3 target count = some scan) : (s.scanned lease scan).SharedInv := by
  obtain ⟨jobs, grown⟩ := enqueued_of_step stepped
  have isNew : scan.enqueued.drop s.scan.enqueued.length = jobs := by
    rw [grown, List.drop_left]
  unfold scanned
  rw [isNew]
  refine ⟨?_, ?_, inv.held, ?_⟩
  · have same := (inv.jobs.append_right jobs)
    rw [← grown, List.append_assoc] at same
    refine List.Perm.trans ?_ same
    rw [List.append_assoc]
    exact (List.perm_append_comm).append_left _
  · simp only [List.length_append, inv.remain]
  · intro gone
    have sender : s.shared.doneTx = false := gone
    rw [inv.sender scheduling] at sender
    cases sender

/-- The block after the loop takes the sender when no callback is pending. -/
theorem sharedInv_finishes (inv : s.SharedInv) (scheduling : s.shared.schedulingDone = false)
    (phase : UploadPhase) :
    ({ s with
      shared := s.shared.finishScheduling.1
      doneRx := s.shared.finishScheduling.2.1.or s.doneRx
      phase := phase } : FileUpload).SharedInv := by
  have sender := inv.sender scheduling
  obtain ⟨errors, unsent⟩ := inv.held sender
  by_cases last : s.shared.remainChunks = 0
  · have empty : s.pending = [] := by
      rw [← List.length_eq_zero_iff, ← inv.remain]
      exact last
    rw [InternalDownloadState.finishScheduling_last sender last]
    refine ⟨inv.jobs, inv.remain, by simp, fun _ => ⟨rfl, empty, _, rfl, ?_⟩⟩
    rw [InternalDownloadState.transferResult_eq_ok]
    exact errors
  · rw [InternalDownloadState.finishScheduling_waits last]
    exact ⟨inv.jobs, inv.remain, inv.held, by simp [sender]⟩

theorem sharedInv_calls {index : Nat} {job : UploadChunkJob}
    {result : Fs0Result UploadChunkResponse} (inv : s.SharedInv)
    (isJob : s.pending[index]? = some job) :
    ({ s with
      shared := (InternalUploadState.receive s.shared job result).complete.1
      doneRx := (InternalUploadState.receive s.shared job result).complete.2.or s.doneRx
      pending := s.pending.eraseIdx index
      completed := s.completed ++ [⟨job, result⟩] } : FileUpload).SharedInv := by
  obtain ⟨below, isAt⟩ := List.getElem?_eq_some_iff.mp isJob
  have sender : s.shared.doneTx = true := by
    cases tx : s.shared.doneTx with
    | true => rfl
    | false =>
        rw [(inv.taken tx).2.1] at below
        cases below
  obtain ⟨errors, unsent⟩ := inv.held sender
  obtain ⟨firstError, received, outcome⟩ := receive_cases s.shared job result
  have verdict : firstError = none ↔
      ∀ c ∈ s.completed ++ [⟨job, result⟩], UploadedChunk.Delivered c := by
    rw [List.forall_mem_append, List.forall_mem_singleton]
    rcases outcome with ⟨same, delivered⟩ | ⟨recorded, lost⟩
    · rw [same, errors]
      exact ⟨fun all => ⟨all, delivered⟩, fun both => both.1⟩
    · exact ⟨fun none => absurd none recorded, fun both => absurd both.2 lost⟩
  have remain : s.shared.remainChunks - 1 = (s.pending.eraseIdx index).length := by
    rw [List.length_eraseIdx_of_lt below, inv.remain]
  have jobs : (s.pending.eraseIdx index ++
      (s.completed ++ [(⟨job, result⟩ : UploadedChunk)]).map UploadedChunk.job).Perm
        s.scan.enqueued := by
    refine List.Perm.trans ?_ inv.jobs
    rw [List.map_append, List.map_singleton, ← List.append_assoc]
    have moved : (job :: s.pending.eraseIdx index).Perm s.pending := by
      rw [← isAt]
      exact List.getElem_cons_eraseIdx_perm below
    exact List.perm_append_comm.trans ((moved.append_right _))
  rw [received]
  by_cases last : s.shared.schedulingDone = true ∧ s.shared.remainChunks - 1 = 0
  · have empty : s.pending.eraseIdx index = [] := by
      rw [← List.length_eq_zero_iff, ← remain, last.2]
    have finished :
        ({ s.shared with firstError := firstError } : InternalDownloadState).complete = _ :=
      InternalDownloadState.complete_last sender last.1 last.2
    rw [finished]
    refine ⟨jobs, ?_, by simp, fun _ => ⟨last.1, empty, _, rfl, ?_⟩⟩
    · rw [empty, List.length_nil]
    · rw [InternalDownloadState.transferResult_eq_ok]
      exact verdict
  · have counted :
        ({ s.shared with firstError := firstError } : InternalDownloadState).complete = _ :=
      InternalDownloadState.complete_counts last
    rw [counted]
    exact ⟨jobs, remain, fun _ => ⟨verdict, unsent⟩, by simp [sender]⟩

theorem sharedInv_step (inv : s.SharedInv)
    (scheduling : ∀ lease, s.phase = .scanning lease → s.shared.schedulingDone = false)
    (step : UploadStep blake3 args s e s') : s'.SharedInv := by
  cases step with
  | reads lease count scan here stepped => exact sharedInv_reads inv (scheduling lease here) stepped
  | calls index job result isJob => exact sharedInv_calls inv isJob
  | finishes lease here whole => exact sharedInv_finishes inv (scheduling lease here) _
  | _ => exact inv.of_same rfl rfl rfl rfl rfl

/-! ## Phases -/

/-- The block after the loop runs when a callback has failed and no other is pending. -/
def FinishesUnread (s : FileUpload) (e : UploadEvent) : Prop :=
  e = .finishScheduling ∧ s.pending = [] ∧ ¬ s.AllDelivered

/-- The lease was asked for and granted, and nothing else was asked of central. -/
structure Leased (args : UploadArgs) (s : FileUpload) (lease : UpdateLease) : Prop where
  granted : s.granted = some lease
  requests : s.requests = [.beginUpdate args.beginUpdate]

/-- The scan is one of this file, for this lease. -/
def Scans (blake3 : Bytes → HashId) (args : UploadArgs) (content : Bytes) (s : FileUpload)
    (lease : UpdateLease) : Prop :=
  ∃ reads, (uploadScanSystem blake3 (args.target lease) content).Run reads s.scan

/-- The whole file was read, and every callback has run. They all tell of success, unless the
block after the loop ran over an error that nobody had read. -/
structure Read (blake3 : Bytes → HashId) (args : UploadArgs) (content : Bytes)
    (ts : List (Transition FileUpload UploadEvent)) (s : FileUpload) (lease : UpdateLease) :
    Prop where
  scans : s.Scans blake3 args content lease
  whole : s.scan.result = some (.ok ())
  called : s.pending = []
  delivered : s.AllDelivered ∨ ∃ t ∈ ts, t.pre.FinishesUnread t.event

/-- The bundles that the loop has are those of the scan. -/
structure Carries (s : FileUpload) (upload : BundleUpload) : Prop where
  newSize : upload.newSize = s.scan.newSize
  bundles : upload.bundles =
    s.scan.uploadBundles.map fun bundle => (bundle.bundleId, bundle.rawLen)

/-- The commit was sent after the lease, and tells of what was read. -/
structure Submitted (args : UploadArgs) (s : FileUpload) (lease : UpdateLease)
    (request : CommitUpdateRequest) : Prop where
  granted : s.granted = some lease
  requests : s.requests = [.commitUpdate request, .beginUpdate args.beginUpdate]
  lease_id : request.leaseId = lease.leaseId
  file_id : request.fileId = lease.fileId
  base_size : request.baseSize = lease.baseSize
  new_size : request.newSize = s.scan.newSize
  bundles : request.bundles.map (fun bundle => (bundle.bundleId, bundle.rawLen)) =
    s.scan.uploadBundles.map fun bundle => (bundle.bundleId, bundle.rawLen)

/-- The last thing that was asked of central is to abort the update of the lease. -/
structure GaveBack (args : UploadArgs) (s : FileUpload) (lease : UpdateLease) : Prop where
  granted : s.granted = some lease
  requests : s.requests =
      [.abortUpdate lease.leaseId lease.fileId, .beginUpdate args.beginUpdate] ∨
    ∃ request, s.requests = [.abortUpdate lease.leaseId lease.fileId, .commitUpdate request,
      .beginUpdate args.beginUpdate]

/-- What each phase knows. -/
def PhaseInv (blake3 : Bytes → HashId) (args : UploadArgs) (content : Bytes)
    (ts : List (Transition FileUpload UploadEvent)) (s : FileUpload) : Prop :=
  match s.phase with
  | .opening => s = initial content
  | .beginning => s.granted = none ∧ s.requests = [.beginUpdate args.beginUpdate] ∧
      s.scan = .initial content ∧ s.shared.schedulingDone = false
  | .finding lease => s.Leased args lease ∧ s.scan = .initial content ∧
      s.shared.schedulingDone = false
  | .scanning lease => s.Leased args lease ∧ s.Scans blake3 args content lease ∧
      s.shared.schedulingDone = false
  | .enqueuing lease => s.Leased args lease ∧ s.Scans blake3 args content lease ∧
      s.shared.schedulingDone = false
  | .waiting lease => s.Leased args lease ∧ s.Scans blake3 args content lease ∧
      s.scan.result = some (.ok ()) ∧ s.shared.schedulingDone = true ∧
      (s.pending = [] → s.shared.doneTx = false)
  | .committingBundles upload => s.Leased args upload.lease ∧
      s.Read blake3 args content ts upload.lease ∧ s.Carries upload
  | .committing lease request => s.Submitted args lease request ∧
      s.Read blake3 args content ts lease
  | .aborting lease _ => s.GaveBack args lease
  | .returned (.ok _) => ∃ lease request, s.Submitted args lease request ∧
      s.Read blake3 args content ts lease
  | .returned (.error _) => s.granted = none ∨ ∃ lease, s.GaveBack args lease
  | .dropped => True

structure Inv (blake3 : Bytes → HashId) (args : UploadArgs) (content : Bytes)
    (ts : List (Transition FileUpload UploadEvent)) (s : FileUpload) : Prop
    extends SharedInv s where
  phase : s.PhaseInv blake3 args content ts

variable {ts : List (Transition FileUpload UploadEvent)} {t : Transition FileUpload UploadEvent}
  {lease : UpdateLease}

theorem inv_initial : (initial content).Inv blake3 args content ts :=
  ⟨sharedInv_initial content, rfl⟩

theorem scans_initial (scan : s.scan = .initial content) : s.Scans blake3 args content lease :=
  ⟨[], scan ▸ .init rfl⟩

theorem Read.of_same (read : s.Read blake3 args content ts lease) (scan : s'.scan = s.scan)
    (pending : s'.pending = s.pending) (completed : s'.completed = s.completed) :
    s'.Read blake3 args content (t :: ts) lease where
  scans := by
    rw [Scans, scan]
    exact read.scans
  whole := scan ▸ read.whole
  called := pending ▸ read.called
  delivered := by
    rcases read.delivered with delivered | ⟨t, member, unread⟩
    · left
      rw [AllDelivered, completed]
      exact delivered
    · exact .inr ⟨t, List.mem_cons_of_mem _ member, unread⟩

/-- A lease that was granted is given back by an abort, whether or not a commit was sent. -/
theorem gaveBack_abort (inv : s.PhaseInv blake3 args content ts)
    (holds : s.phase.lease? = some lease) (err : Fs0Error) :
    (s.abort lease err).GaveBack args lease := by
  rw [PhaseInv] at inv
  have of_leased (leased : s.Leased args lease) : (s.abort lease err).GaveBack args lease :=
    ⟨leased.granted, .inl (congrArg _ leased.requests)⟩
  cases here : s.phase with
  | finding other =>
      rw [here] at inv holds
      obtain rfl := Option.some.inj holds
      exact of_leased inv.1
  | scanning other =>
      rw [here] at inv holds
      obtain rfl := Option.some.inj holds
      exact of_leased inv.1
  | enqueuing other =>
      rw [here] at inv holds
      obtain rfl := Option.some.inj holds
      exact of_leased inv.1
  | waiting other =>
      rw [here] at inv holds
      obtain rfl := Option.some.inj holds
      exact of_leased inv.1
  | committingBundles upload =>
      rw [here] at inv holds
      obtain rfl := Option.some.inj holds
      exact of_leased inv.1
  | committing other request =>
      rw [here] at inv holds
      obtain rfl := Option.some.inj holds
      exact ⟨inv.1.granted, .inr ⟨request, congrArg _ inv.1.requests⟩⟩
  | _ =>
      rw [here] at holds
      cases holds

/-- The loop over the bundles starts with those of the scan, once the callbacks have run. -/
theorem read_of_finished (inv : s.Inv blake3 args content ts) {lease : UpdateLease}
    (here : s.phase = .scanning lease) (whole : s.scan.result = some (.ok ()))
    (last : s.pending = []) (shared : InternalUploadState) (doneRx : Option (Fs0Result Unit))
    (phase : UploadPhase) :
    ({ s with shared := shared, doneRx := doneRx, phase := phase } : FileUpload).Read blake3 args
      content (⟨s, .finishScheduling, s'⟩ :: ts) lease := by
  have known := inv.phase
  rw [PhaseInv, here] at known
  refine ⟨known.2.1, whole, last, ?_⟩
  by_cases all : s.AllDelivered
  · exact .inl all
  · exact .inr ⟨_, List.mem_cons_self, rfl, last, all⟩

theorem phase_finishes (inv : s.Inv blake3 args content ts) {lease : UpdateLease}
    (here : s.phase = .scanning lease) (whole : s.scan.result = some (.ok ())) :
    ({ s with
      shared := s.shared.finishScheduling.1
      doneRx := s.shared.finishScheduling.2.1.or s.doneRx
      phase := if s.shared.finishScheduling.2.2 then .waiting lease
        else .committingBundles (s.bundleUpload lease) } : FileUpload).PhaseInv blake3 args content
      (⟨s, .finishScheduling, s'⟩ :: ts) := by
  have known := inv.phase
  rw [PhaseInv, here] at known
  obtain ⟨leased, scans, scheduling⟩ := known
  by_cases last : s.shared.remainChunks = 0
  · rw [InternalDownloadState.finishScheduling_last (inv.sender scheduling) last]
    have empty : s.pending = [] := by
      rw [← List.length_eq_zero_iff, ← inv.remain]
      exact last
    exact ⟨⟨leased.granted, leased.requests⟩, read_of_finished inv here whole empty _ _ _, rfl, rfl⟩
  · rw [InternalDownloadState.finishScheduling_waits last]
    refine ⟨⟨leased.granted, leased.requests⟩, scans, whole, rfl, fun empty => absurd ?_ last⟩
    rw [inv.remain]
    exact List.length_eq_zero_iff.mpr empty

theorem phase_receives (inv : s.Inv blake3 args content ts) {lease : UpdateLease}
    (here : s.phase = .waiting lease) (done : s.doneRx = some (.ok ())) :
    ({ s with phase := .committingBundles (s.bundleUpload lease) } : FileUpload).PhaseInv blake3
      args content (t :: ts) := by
  have known := inv.phase
  rw [PhaseInv, here] at known
  obtain ⟨leased, scans, whole, -, -⟩ := known
  have gone : s.shared.doneTx = false := by
    cases tx : s.shared.doneTx with
    | false => rfl
    | true => cases done.symm.trans (inv.held tx).2
  obtain ⟨-, empty, result, isResult, verdict⟩ := inv.taken gone
  have delivered : s.AllDelivered := verdict.mp (Option.some.inj (isResult.symm.trans done))
  exact ⟨⟨leased.granted, leased.requests⟩, ⟨scans, whole, empty, .inl delivered⟩, rfl, rfl⟩

theorem phase_commits (inv : s.PhaseInv blake3 args content ts) {upload : BundleUpload}
    (here : s.phase = .committingBundles upload) (done : upload.uploadBundles = []) :
    ({ s with
      phase := .committing upload.lease upload.commitUpdateRequest
      requests := .commitUpdate upload.commitUpdateRequest :: s.requests } : FileUpload).PhaseInv
        blake3 args content (t :: ts) := by
  rw [PhaseInv, here] at inv
  obtain ⟨leased, read, carries⟩ := inv
  have bundles := carries.bundles
  rw [BundleUpload.bundles, done, List.map_nil, List.append_nil] at bundles
  exact ⟨⟨leased.granted, congrArg _ leased.requests, rfl, rfl, rfl, carries.newSize, bundles⟩,
    read.of_same rfl rfl rfl⟩

/-- A callback does not move the upload. -/
theorem phase_calls (inv : s.Inv blake3 args content ts) {index : Nat} {job : UploadChunkJob}
    {result : Fs0Result UploadChunkResponse} (isJob : s.pending[index]? = some job) :
    ({ s with
      shared := (InternalUploadState.receive s.shared job result).complete.1
      doneRx := (InternalUploadState.receive s.shared job result).complete.2.or s.doneRx
      pending := s.pending.eraseIdx index
      completed := s.completed ++ [⟨job, result⟩] } : FileUpload).PhaseInv blake3 args content
        (t :: ts) := by
  have waits : s.pending ≠ [] := by
    intro empty
    rw [empty] at isJob
    cases isJob
  obtain ⟨below, -⟩ := List.getElem?_eq_some_iff.mp isJob
  obtain ⟨firstError, received, -⟩ := receive_cases s.shared job result
  have scheduling : (InternalUploadState.receive s.shared job result).complete.1.schedulingDone =
      s.shared.schedulingDone := by
    rw [received]
    unfold InternalDownloadState.complete InternalDownloadState.sendDone
    dsimp only
    split
    · split <;> rfl
    · rfl
  have known := inv.phase
  unfold PhaseInv at known ⊢
  dsimp only
  cases here : s.phase with
  | opening =>
      rw [here] at known
      dsimp only at known
      rw [known] at waits
      exact absurd rfl waits
  | beginning =>
      rw [here] at known
      obtain ⟨granted, requests, scan, before⟩ := known
      exact ⟨granted, requests, scan, scheduling.trans before⟩
  | finding lease =>
      rw [here] at known
      obtain ⟨leased, scan, before⟩ := known
      exact ⟨⟨leased.granted, leased.requests⟩, scan, scheduling.trans before⟩
  | scanning lease =>
      rw [here] at known
      obtain ⟨leased, scans, before⟩ := known
      exact ⟨⟨leased.granted, leased.requests⟩, scans, scheduling.trans before⟩
  | enqueuing lease =>
      rw [here] at known
      obtain ⟨leased, scans, before⟩ := known
      exact ⟨⟨leased.granted, leased.requests⟩, scans, scheduling.trans before⟩
  | waiting lease =>
      rw [here] at known
      obtain ⟨leased, scans, whole, before, -⟩ := known
      refine ⟨⟨leased.granted, leased.requests⟩, scans, whole, scheduling.trans before, ?_⟩
      intro empty
      have sender : s.shared.doneTx = true := by
        cases tx : s.shared.doneTx with
        | true => rfl
        | false => exact absurd (inv.taken tx).2.1 waits
      have last : s.shared.remainChunks - 1 = 0 := by
        have fewer := List.length_eraseIdx_of_lt below
        rw [inv.remain, ← fewer]
        exact List.length_eq_zero_iff.mpr empty
      have finished :
          ({ s.shared with firstError := firstError } : InternalDownloadState).complete = _ :=
        InternalDownloadState.complete_last sender before last
      rw [received, finished]
  | committingBundles upload =>
      rw [here] at known
      exact absurd known.2.1.called waits
  | committing lease request =>
      rw [here] at known
      exact absurd known.2.called waits
  | aborting lease err =>
      rw [here] at known
      exact ⟨known.granted, known.requests⟩
  | returned result =>
      rw [here] at known
      cases result with
      | ok file =>
          obtain ⟨lease, request, -, read⟩ := known
          exact absurd read.called waits
      | error err =>
          rcases known with none | ⟨lease, gaveBack⟩
          · exact .inl none
          · exact .inr ⟨lease, gaveBack.granted, gaveBack.requests⟩
  | dropped => trivial

theorem scanned_phase (s : FileUpload) (lease : UpdateLease) (scan : UploadScan) :
    (s.scanned lease scan).phase = .scanning lease ∨
      (s.scanned lease scan).phase = .enqueuing lease := by
  unfold scanned
  dsimp only
  split
  · exact .inl rfl
  · exact .inr rfl

theorem phase_step (inv : s.Inv blake3 args content ts) (step : UploadStep blake3 args s e s') :
    s'.PhaseInv blake3 args content (⟨s, e, s'⟩ :: ts) := by
  have known := inv.phase
  cases step with
  | opens here =>
      rw [PhaseInv, here] at known
      dsimp only at known
      subst known
      exact ⟨rfl, rfl, rfl, rfl⟩
  | fails err here =>
      rcases here with here | here
      · rw [PhaseInv, here] at known
        dsimp only at known
        subst known
        exact .inl rfl
      · rw [PhaseInv, here] at known
        exact .inl known.1
  | begins lease here =>
      rw [PhaseInv, here] at known
      obtain ⟨-, requests, scan, scheduling⟩ := known
      exact ⟨⟨rfl, requests⟩, scan, scheduling⟩
  | finds lease storages here =>
      rw [PhaseInv, here] at known
      obtain ⟨leased, scan, scheduling⟩ := known
      exact ⟨⟨leased.granted, leased.requests⟩, scans_initial scan, scheduling⟩
  | reads lease count scan here stepped =>
      rw [PhaseInv, here] at known
      obtain ⟨leased, ⟨reads, run⟩, scheduling⟩ := known
      have scans : (s.scanned lease scan).Scans blake3 args content lease :=
        ⟨_ :: reads, run.step stepped⟩
      rw [PhaseInv]
      rcases scanned_phase s lease scan with isPhase | isPhase <;> rw [isPhase] <;>
        exact ⟨⟨leased.granted, leased.requests⟩, scans, scheduling⟩
  | enqueues lease here =>
      rw [PhaseInv, here] at known
      obtain ⟨leased, scans, scheduling⟩ := known
      exact ⟨⟨leased.granted, leased.requests⟩, scans, scheduling⟩
  | calls index job result isJob => exact phase_calls inv isJob
  | finishes lease here whole => exact phase_finishes inv here whole
  | receives lease here done => exact phase_receives inv here done
  | goesOn upload after here bundles =>
      rw [PhaseInv, here] at known
      obtain ⟨leased, read, carries⟩ := known
      have same := bundles.lease
      refine ⟨?_, ?_, bundles.newSize.trans carries.newSize, bundles.bundles.trans carries.bundles⟩
      · rw [same]
        exact ⟨leased.granted, leased.requests⟩
      · rw [same]
        exact read.of_same rfl rfl rfl
  | commits upload here done => exact phase_commits known here done
  | returns lease request file here =>
      rw [PhaseInv, here] at known
      obtain ⟨⟨granted, requests, leaseId, fileId, baseSize, newSize, bundles⟩, read⟩ := known
      exact ⟨lease, request, ⟨granted, requests, leaseId, fileId, baseSize, newSize, bundles⟩,
        read.of_same rfl rfl rfl⟩
  | aborts lease err holds => exact gaveBack_abort known holds err
  | gaveBack lease err answer here =>
      rw [PhaseInv, here] at known
      exact .inr ⟨lease, known.granted, known.requests⟩
  | drops => trivial

/-! ## Runs -/

theorem inv_run (run : (fileUpload blake3 args content).Run ts s) :
    s.Inv blake3 args content ts := by
  induction run with
  | init start =>
      obtain rfl := start
      exact inv_initial
  | step _ taken inv =>
      have step := step_cases taken
      refine ⟨sharedInv_step inv.toSharedInv ?_ step, phase_step inv step⟩
      intro lease here
      have known := inv.phase
      rw [PhaseInv, here] at known
      exact known.2.2

/-- A callback that has run stays among those that have. -/
theorem completed_subset (step : UploadStep blake3 args s e s') : s.completed ⊆ s'.completed := by
  cases step with
  | calls index job result isJob => exact List.subset_append_left _ _
  | _ => exact List.Subset.refl _

theorem completed_subset_run (run : (fileUpload blake3 args content).Run ts s) :
    ∀ t ∈ ts, t.pre.completed ⊆ s.completed := by
  induction run with
  | init start => simp
  | step _ taken earlier =>
      have grown := completed_subset (step_cases taken)
      rw [List.forall_mem_cons]
      exact ⟨grown, fun t member => List.Subset.trans (earlier t member) grown⟩

/-- The upload has sent the commit of this file, cut into these bundles of chunks. -/
structure Committed (blake3 : Bytes → HashId) (args : UploadArgs) (content : Bytes)
    (ts : List (Transition FileUpload UploadEvent)) (s : FileUpload) (lease : UpdateLease)
    (request : CommitUpdateRequest) (closed : List (List Bytes)) : Prop where
  granted : s.granted = some lease
  requests : s.requests = [.commitUpdate request, .beginUpdate args.beginUpdate]
  ids : request.leaseId = lease.leaseId ∧ request.fileId = lease.fileId ∧
    request.baseSize = lease.baseSize
  whole : content = closed.flatten.flatten
  newSize : request.newSize = content.length
  bundles : request.bundles.map (fun bundle => (bundle.bundleId, bundle.rawLen)) =
    closed.map fun pieces => ((bundleOfPieces blake3 pieces).bundleId, totalLength pieces)
  called : (s.completed.map UploadedChunk.job).Perm
    (jobsOfPieces blake3 (args.target lease) 0 closed.flatten)
  delivered : s.AllDelivered ↔ ∀ t ∈ ts, ¬ t.pre.FinishesUnread t.event

theorem committed_of_read (run : (fileUpload blake3 args content).Run ts s)
    {request : CommitUpdateRequest} (submitted : s.Submitted args lease request)
    (read : s.Read blake3 args content ts lease) :
    ∃ closed, s.Committed blake3 args content ts lease request closed := by
  obtain ⟨reads, scan⟩ := read.scans
  obtain ⟨closed, whole, newSize, bundles, jobs, -⟩ := exists_pieces_of_finished scan read.whole
  have once := (inv_run run).jobs
  rw [read.called, List.nil_append, jobs] at once
  refine ⟨closed, submitted.granted, submitted.requests,
    ⟨submitted.lease_id, submitted.file_id, submitted.base_size⟩, whole,
    submitted.new_size.trans newSize, ?_, once, ?_, ?_⟩
  · rw [submitted.bundles, bundles, List.map_map]
    rfl
  · intro all t member unread
    have earlier := completed_subset_run run t member
    exact unread.2.2 fun c done => all c (earlier done)
  · intro none
    rcases read.delivered with all | ⟨t, member, unread⟩
    · exact all
    · exact absurd unread (none t member)

end FileUpload

/-! ## What an upload that has ended has done -/

/-- An upload that returns a file has asked for the commit of the whole file under its lease,
after every chunk has called back. One that returns an error has given its lease back. One
that waits is woken. -/
theorem upload_settles {blake3 : Bytes → HashId} {args : UploadArgs} {content : Bytes}
    {ts : List (Transition FileUpload UploadEvent)} {s : FileUpload}
    (run : (fileUpload blake3 args content).Run ts s) :
    (∀ file, s.phase = .returned (.ok file) → ∃ lease request closed,
      s.Committed blake3 args content ts lease request closed) ∧
    (∀ err, s.phase = .returned (.error err) →
      s.granted = none ∨ ∃ lease, s.GaveBack args lease) ∧
    ∀ lease, s.phase = .waiting lease → s.pending ≠ [] ∨ ∃ result, s.doneRx = some result := by
  have inv := FileUpload.inv_run run
  have known := inv.phase
  refine ⟨fun file here => ?_, fun err here => ?_, fun lease here => ?_⟩
  · rw [FileUpload.PhaseInv, here] at known
    obtain ⟨lease, request, submitted, read⟩ := known
    exact ⟨lease, request, FileUpload.committed_of_read run submitted read⟩
  · rw [FileUpload.PhaseInv, here] at known
    exact known
  · rw [FileUpload.PhaseInv, here] at known
    obtain ⟨-, -, -, -, taken⟩ := known
    by_cases empty : s.pending = []
    · obtain ⟨-, -, result, sent, -⟩ := inv.taken (taken empty)
      exact .inr ⟨result, sent⟩
    · exact .inl empty

/-! ### An upload of three bytes -/

namespace FileUpload.ThreeBytes

def args : UploadArgs := ⟨"/a", "a", none, 3⟩

def lease : UpdateLease := ⟨1, 1, 1, 0, 0, 60000, none⟩

def chunkId : HashId := lengthHash [1, 2, 3]

def file : FileRecord := ⟨1, "/a", 3, 9, 0, 0⟩

/-- Both reads, then the chunk is taken while the upload waits for it. -/
def events : List UploadEvent :=
  [.opened (.ok ()), .begun (.ok lease), .findStorage [⟨2, "storage", [⟨1, "a", 9, 0, false⟩], []⟩],
    .read 3, .enqueued (.ok ()), .read 0, .read 0, .finishScheduling,
    .callback 0 (.ok ⟨chunkId, 3, 9⟩), .receiveDone, .hasBundle (.ok none),
    .commitBundle (.ok ⟨chunkId, 3, 9⟩), .commitUpdate, .committed (.ok file)]

end FileUpload.ThreeBytes

open FileUpload.ThreeBytes in
theorem upload_settles_three :
    ∃ ts s, (fileUpload lengthHash args [1, 2, 3]).Run ts s ∧ s.phase = .returned (.ok file) ∧
      ∃ lease request closed, s.Committed lengthHash args [1, 2, 3] ts lease request closed := by
  have start : (fileUpload lengthHash args [1, 2, 3]).Run [] (.initial [1, 2, 3]) := .init rfl
  obtain ⟨ts, run, -⟩ := start.exec events rfl
  exact ⟨_, _, run, rfl, (upload_settles run).1 file rfl⟩

end Fs0
