import Fs0.Central.CommitUpdate
import Fs0.Client.UploadJobs
import Fs0.Client.Upload
import Fs0.Storage.CarriedReports

/-!
Contract: the loop of `Fs0Client::upload_file_inner` over the bundles of a file, for several
clients, a storage that reports to central, and central.

Owns:
- the requests `HasBundle` and `CommitBundle` of the loop and the `CommitUpdate` after it,
  with everything that storage and central do in between;
- that a bundle which was committed has its replica row when the update is committed;
- that a bundle which was skipped has it exactly when the storage has reported it by then.

Does not own: the chunks of a bundle, and whether the update is committed.
-/

set_option autoImplicit false

namespace Fs0

open Lib Fallible

/-! ## Requests -/

def StorageServer.hasBundle (s : StorageServer) (volumeId : Nat) (bundleId : HashId) :
    Fs0Result DataResponse := do
  let v ← s.volume volumeId
  outcome (Storage.hasBundle bundleId v.db)

/-- What the client reads from an answer to `HasBundle`: the lengths of the bundle. -/
def DataResponse.bundleLens : DataResponse → Fs0Result (Option (Nat × Nat))
  | .hasBundle true (some rawLen) (some compressedLen) => .ok (some (rawLen, compressedLen))
  | .hasBundle false _ _ => .ok none
  | response => .error (.invalidFrame s!"unexpected data response: {repr response}")

/-! ## One upload -/

/-- Where an upload stands with the first of its remaining bundles. -/
inductive UploadStage where
  | asking
  /-- `HasBundle` has told that the bundle is missing. -/
  | sending
  /-- `CommitBundle` has started this call at the storage. -/
  | waiting (syncId : Nat)
  | finished (result : Fs0Result Unit)
deriving DecidableEq

/-- An upload whose chunks are stored. -/
structure BundleUpload where
  uploadId : Nat
  lease : UpdateLease
  newSize : Nat
  uploadBundles : List UploadBundle
  committedBundles : List CommittedBundle
  /-- The bundles that `HasBundle` reported. -/
  skipped : List HashId
  /-- The bundles that `CommitBundle` acknowledged. -/
  acknowledged : List HashId
  stage : UploadStage

namespace BundleUpload

def fail (upload : BundleUpload) (err : Fs0Error) : BundleUpload :=
  { upload with stage := .finished (.error err) }

/-- Goes on to the next bundle. -/
def push (upload : BundleUpload) (bundle : CommittedBundle) (rest : List UploadBundle) :
    BundleUpload :=
  { upload with
    uploadBundles := rest
    committedBundles := upload.committedBundles ++ [bundle]
    stage := .asking }

/-- What the loop makes of an answer to `HasBundle`. -/
def asked (upload : BundleUpload) (bundle : UploadBundle) (rest : List UploadBundle) :
    Fs0Result (Option (Nat × Nat)) → BundleUpload
  | .error err => upload.fail err
  | .ok none => { upload with stage := .sending }
  | .ok (some (rawLen, compressedLen)) =>
      if rawLen ≠ bundle.rawLen then
        upload.fail (.invalidData "existing bundle raw_len does not match uploaded bundle")
      else
        let skipped := upload.skipped ++ [bundle.bundleId]
        { upload.push ⟨bundle.bundleId, rawLen, compressedLen⟩ rest with skipped := skipped }

def commitBundleRequest (upload : BundleUpload) (bundle : UploadBundle) : CommitBundleRequest :=
  ⟨upload.lease.leaseId, upload.lease.fileId, upload.lease.volumeId, bundle.bundleId, bundle.chunks⟩

/-- What the loop makes of an answer to `CommitBundle`. -/
def replied (upload : BundleUpload) (bundle : UploadBundle) (rest : List UploadBundle) :
    Fs0Result CommitBundleResponse → BundleUpload
  | .error err => upload.fail err
  | .ok response =>
      if response.rawLen ≠ bundle.rawLen then
        upload.fail (.invalidData "committed bundle raw_len does not match uploaded bundle")
      else
        let acknowledged := upload.acknowledged ++ [bundle.bundleId]
        { upload.push ⟨bundle.bundleId, response.rawLen, response.compressedLen⟩ rest with
          acknowledged := acknowledged }

def commitUpdateRequest (upload : BundleUpload) : CommitUpdateRequest :=
  ⟨upload.lease.leaseId, upload.lease.fileId, upload.lease.baseSize, upload.newSize,
    upload.committedBundles⟩

end BundleUpload

/-! ## Events -/

structure UploadingClients where
  reporting : ReportingStorage
  uploads : SeqTable BundleUpload.uploadId

inductive BundleUploadEvent where
  /-- A client has stored the chunks of these bundles. -/
  | begin (lease : UpdateLease) (newSize : Nat) (uploadBundles : List UploadBundle)
  | hasBundle (uploadId : Nat)
  | commitBundle (uploadId leaseNow : Nat) (commit : Option Fs0Error)
  /-- The answer to `CommitBundle` arrives. -/
  | reply (uploadId : Nat)
  /-- A request fails on its way, whatever the storage makes of it. -/
  | fail (uploadId : Nat) (err : Fs0Error)
  /-- Central carries out the `CommitUpdate` of an upload. -/
  | commitUpdate (uploadId connection clientId : Nat) (storageId : Option Nat) (inputs : Inputs)
  /-- Anything else that happens at the storage or at central. -/
  | reporting (e : ReportingEvent)

/-- The events that no request brings about: `delete_bundle`, and a report about a volume that
another storage has mounted. -/
def ReportingEvent.foreign (s : ReportingStorage) : ReportingEvent → Bool
  | .storage (.volume _ (.deleteBundle _ _)) => true
  | .central action =>
      action.reported.any fun event => (s.storage.volumes.find? event.volumeId).isSome
  | _ => false

namespace ReportingStorage

/-- What the handler of `CommitBundle` has when it starts to synchronise the volume. -/
def commitResult (blake3 : Bytes → HashId) (s : ReportingStorage) (request : CommitBundleRequest)
    (leaseNow : Nat) (commit : Option Fs0Error) : Fs0Result BundleMeta := do
  let v ← (s.storage.retainLeases leaseNow).checkCommit request
  outcome (Volume.commitBundle blake3 commit request.bundleId request.chunks v.db)

end ReportingStorage

namespace UploadingClients

def moveTo (s : UploadingClients) (upload : BundleUpload) : UploadingClients :=
  { s with uploads := s.uploads.replace upload }

/-- The storage starts to handle a `CommitBundle`. -/
def commitBundle (blake3 : Bytes → HashId) (zstdDecompress : Bytes → Nat → Fs0Result Bytes)
    (s : UploadingClients) (upload : BundleUpload) (bundle : UploadBundle) (leaseNow : Nat)
    (commit : Option Fs0Error) : Option UploadingClients :=
  let request := upload.commitBundleRequest bundle
  let stage : UploadStage := match s.reporting.commitResult blake3 request leaseNow commit with
    | .ok _ => .waiting (s.reporting.calls.seq + 1)
    | .error err => .finished (.error err)
  (s.reporting.commitBundle blake3 zstdDecompress request leaseNow commit).map fun reporting =>
    { s.moveTo { upload with stage := stage } with reporting := reporting }

/-- The second section of `commit_update` for an upload. -/
def commitUpdate (config : CentralConfig) (s : UploadingClients) (upload : BundleUpload)
    (connection clientId : Nat) (storageId : Option Nat) (inputs : Inputs) : UploadingClients :=
  let handler : Handler := .commitUpdate upload.commitUpdateRequest storageId
  let ran := handler.resume config inputs connection (.client clientId) s.reporting.central
  let stage : UploadStage := .finished ((outcome ran).map fun _ => ())
  { s.moveTo { upload with stage := stage } with
    reporting := { s.reporting with central := endState ran } }

def step (config : CentralConfig) (blake3 : Bytes → HashId)
    (zstdDecompress : Bytes → Nat → Fs0Result Bytes) (s : UploadingClients) :
    BundleUploadEvent → Option UploadingClients
  | .begin lease newSize uploadBundles =>
      let uploads := s.uploads.push
        (fun uploadId => ⟨uploadId, lease, newSize, uploadBundles, [], [], [], .asking⟩) fun _ => rfl
      some { s with uploads := uploads }
  | .hasBundle uploadId =>
      (s.uploads.find? uploadId).bind fun upload =>
        match upload.stage, upload.uploadBundles with
        | .asking, bundle :: rest =>
            let known := s.reporting.storage.hasBundle upload.lease.volumeId bundle.bundleId
            some (s.moveTo (upload.asked bundle rest (known.bind DataResponse.bundleLens)))
        | _, _ => none
  | .commitBundle uploadId leaseNow commit =>
      (s.uploads.find? uploadId).bind fun upload =>
        match upload.stage, upload.uploadBundles with
        | .sending, bundle :: _ =>
            s.commitBundle blake3 zstdDecompress upload bundle leaseNow commit
        | _, _ => none
  | .reply uploadId =>
      (s.uploads.find? uploadId).bind fun upload =>
        match upload.stage, upload.uploadBundles with
        | .waiting syncId, bundle :: rest =>
            (s.reporting.calls.find? syncId).bind fun call =>
              match call.phase, call.response with
              | .done (.ok _), some response =>
                  some (s.moveTo (upload.replied bundle rest (.ok response)))
              | .done (.error err), _ =>
                  some (s.moveTo (upload.replied bundle rest (.error err)))
              | _, _ => none
        | _, _ => none
  | .fail uploadId err =>
      (s.uploads.find? uploadId).bind fun upload =>
        match upload.stage with
        | .finished _ => none
        | _ => some (s.moveTo (upload.fail err))
  | .commitUpdate uploadId connection clientId storageId inputs =>
      (s.uploads.find? uploadId).bind fun upload =>
        match upload.stage, upload.uploadBundles with
        | .asking, [] => some (s.commitUpdate config upload connection clientId storageId inputs)
        | _, _ => none
  | .reporting e =>
      if e.foreign s.reporting then none
      else (s.reporting.step config blake3 zstdDecompress e).map fun reporting =>
        { s with reporting := reporting }

end UploadingClients

/-- No upload has begun. -/
def uploadingClients (config : CentralConfig) (blake3 : Bytes → HashId)
    (zstdDecompress : Bytes → Nat → Fs0Result Bytes) :
    System UploadingClients BundleUploadEvent where
  Init s := (reporting config blake3 zstdDecompress).Init s.reporting ∧ s.uploads = .empty
  step := UploadingClients.step config blake3 zstdDecompress


/-! ## Answers of the storage -/

/-- The volume of a bundle that `HasBundle` reports stores it. -/
theorem Storage.has_of_hasBundle {bundleId : HashId} {db db' : VolumeDb}
    {rawLen compressedLen : Option Nat}
    (ran : Storage.hasBundle bundleId db = .ok (.hasBundle true rawLen compressedLen) db') :
    db.1.HasBundle bundleId := by
  by_contra without
  have noRows : db.1.chunkList bundleId = [] := by
    rw [VolumeTables.hasBundle_iff, not_not] at without
    unfold VolumeTables.chunkList VolumeTables.bundleChunksOf
    rw [show db.1.bundleChunks.rows.filter (fun row => row.bundleId = bundleId) = [] from without]
    rfl
  have missing : Volume.listBundleChunks bundleId db = .error (.bundleNotFound bundleId) db := by
    have unfolded : Volume.listBundleChunks bundleId db =
        (require (db.1.chunkList bundleId ≠ []) (.bundleNotFound bundleId) >>= fun _ =>
          pure (db.1.chunkList bundleId)) db := rfl
    rw [unfolded, bind_apply, require, if_neg (not_not.mpr noRows)]
  unfold Storage.hasBundle at ran
  rw [bind_apply, attempt_apply, missing] at ran
  cases ran

theorem StorageServer.has_of_bundleLens {s : StorageServer} {volumeId : Nat} {bundleId : HashId}
    {lens : Nat × Nat}
    (told : (s.hasBundle volumeId bundleId).bind DataResponse.bundleLens = .ok (some lens)) :
    ∃ row, s.volumes.find? volumeId = some row ∧ row.volume.tables.HasBundle bundleId := by
  obtain ⟨response, answered, isLens⟩ := Fs0Result.bind_eq_ok.mp told
  obtain ⟨v, mounted, ran⟩ := Fs0Result.bind_eq_ok.mp answered
  unfold DataResponse.bundleLens at isLens
  split at isLens
  next rawLen compressedLen =>
    unfold StorageServer.volume at mounted
    split at mounted
    next row found =>
      obtain rfl := Except.ok.inj mounted
      exact ⟨row, found, Storage.has_of_hasBundle (eq_ok_of_outcome ran)⟩
    · cases mounted
  · cases Except.ok.inj isLens
  · cases isLens

namespace ReportingStorage

variable {config : CentralConfig} {blake3 : Bytes → HashId}
  {zstdDecompress : Bytes → Nat → Fs0Result Bytes} {s s' : ReportingStorage} {e : ReportingEvent}
  {volumeId : Nat}

theorem commitBundle_begun {request : CommitBundleRequest} {leaseNow : Nat}
    {commit : Option Fs0Error} {bundle : BundleMeta}
    (result : s.commitResult blake3 request leaseNow commit = .ok bundle)
    (taken : s.commitBundle blake3 zstdDecompress request leaseNow commit = some s') :
    ∃ stored, s' = { s with storage := stored }.begin request.volumeId []
        (some (responseOf request.bundleId bundle)) ∧
      (stored.volumes.find? request.volumeId).isSome := by
  obtain ⟨v, checked, ran⟩ := Fs0Result.bind_eq_ok.mp result
  obtain ⟨stored, written, rfl⟩ := Option.map_eq_some_iff.mp taken
  have step : (Fs0.storage blake3 zstdDecompress).step s.storage
      (.commitBundle request leaseNow commit) = some stored := written
  obtain ⟨row, found, -⟩ := hasLens_of_commit step checked ran
  refine ⟨stored, ?_, by rw [found]; rfl⟩
  dsimp only
  rw [checked]
  dsimp only
  rw [ran]
  rfl

theorem alone_of_native (native : e.foreign s = false)
    (mounted : (s.storage.volumes.find? volumeId).isSome) : e.Alone volumeId := by
  cases e with
  | storage e =>
      cases e with
      | volume other e =>
          cases e with
          | deleteBundle bundleId commit => cases native
          | _ => trivial
      | _ => trivial
  | central action =>
      rintro event member rfl
      exact absurd mounted (List.any_eq_false.mp native event member)
  | _ => trivial

end ReportingStorage

/-! ## Invariants -/

namespace UploadingClients

open ReportingStorage VolumeTables

variable {config : CentralConfig} {blake3 : Bytes → HashId}
  {zstdDecompress : Bytes → Nat → Fs0Result Bytes} {s s' : UploadingClients}
  {e : BundleUploadEvent} {upload : BundleUpload}

/-- A call with a response for a bundle. -/
def Commits (call : SyncCall) (volumeId : Nat) (bundleId : HashId) : Prop :=
  call.volumeId = volumeId ∧ ∃ response, call.response = some response ∧
    response.bundleId = bundleId

/-- The storage has started a call for the first bundle of an upload. -/
structure Waits (s : ReportingStorage) (upload : BundleUpload) (syncId : Nat) : Prop where
  started : syncId ≤ s.calls.seq
  mounted : (s.storage.volumes.find? upload.lease.volumeId).isSome
  commits : ∀ bundle rest, upload.uploadBundles = bundle :: rest → ∀ call ∈ s.calls.rows,
    call.syncId = syncId → Commits call upload.lease.volumeId bundle.bundleId

/-- What an upload knows of its bundles is true. -/
structure Backed (s : ReportingStorage) (upload : BundleUpload) : Prop where
  skipped : ∀ bundleId ∈ upload.skipped, ∃ row,
    s.storage.volumes.find? upload.lease.volumeId = some row ∧
      row.volume.tables.HasBundle bundleId
  acknowledged : ∀ bundleId ∈ upload.acknowledged,
    (s.storage.volumes.find? upload.lease.volumeId).isSome ∧
      (s.central.db.1.bundleReplicas.find? (bundleId, upload.lease.volumeId)).isSome
  waiting : ∀ syncId, upload.stage = .waiting syncId → Waits s upload syncId
  committed : ∀ bundle ∈ upload.committedBundles,
    bundle.bundleId ∈ upload.skipped ∨ bundle.bundleId ∈ upload.acknowledged

namespace Backed

variable {s s' : ReportingStorage}

/-- The storage and central go on. -/
theorem advanced (backed : Backed s upload) (calls : CallsFrom s.calls s'.calls)
    (advances : (s.storage.volumes.find? upload.lease.volumeId).isSome →
      Advances upload.lease.volumeId s s') : Backed s' upload := by
  constructor
  · intro bundleId member
    obtain ⟨row, found, has⟩ := backed.skipped bundleId member
    obtain ⟨row', found', grows⟩ := (advances (by rw [found]; rfl)).volumes row found
    exact ⟨row', found', (grows.same bundleId has).hasBundle has⟩
  · intro bundleId member
    obtain ⟨mounted, known⟩ := backed.acknowledged bundleId member
    obtain ⟨row, found⟩ := Option.isSome_iff_exists.mp mounted
    obtain ⟨row', found', -⟩ := (advances mounted).volumes row found
    exact ⟨by rw [found']; rfl, (advances mounted).replicas bundleId known⟩
  · intro syncId waiting
    obtain ⟨early, mounted, commits⟩ := backed.waiting syncId waiting
    obtain ⟨row, found⟩ := Option.isSome_iff_exists.mp mounted
    obtain ⟨row', found', -⟩ := (advances mounted).volumes row found
    refine ⟨early.trans calls.seq, by rw [found']; rfl, fun bundle rest isFirst call member isId => ?_⟩
    rcases (calls.calls call member).2 with isNew | ⟨old, among, keeps⟩
    · omega
    · obtain ⟨isVolume, response, isResponse, isBundle⟩ :=
        commits bundle rest isFirst old among (keeps.syncId.symm.trans isId)
      exact ⟨(keeps.volume response isResponse).trans isVolume, response,
        keeps.response.trans isResponse, isBundle⟩
  · exact backed.committed

theorem begun (uploadId : Nat) (lease : UpdateLease) (newSize : Nat)
    (uploadBundles : List UploadBundle) :
    Backed s ⟨uploadId, lease, newSize, uploadBundles, [], [], [], .asking⟩ :=
  ⟨nofun, nofun, nofun, nofun⟩

/-- An upload that waits for no call. -/
theorem staged (backed : Backed s upload) (stage : UploadStage)
    (waiting : ∀ syncId, stage = .waiting syncId → Waits s upload syncId) :
    Backed s { upload with stage := stage } := by
  refine ⟨backed.skipped, backed.acknowledged, fun syncId isStage => ?_, backed.committed⟩
  obtain ⟨started, mounted, commits⟩ := waiting syncId isStage
  exact ⟨started, mounted, commits⟩

theorem asked (backed : Backed s upload) (bundle : UploadBundle) (rest : List UploadBundle) :
    Backed s (upload.asked bundle rest
      ((s.storage.hasBundle upload.lease.volumeId bundle.bundleId).bind
        DataResponse.bundleLens)) := by
  generalize told : (s.storage.hasBundle upload.lease.volumeId bundle.bundleId).bind
    DataResponse.bundleLens = answer
  rcases answer with err | (_ | ⟨rawLen, compressedLen⟩)
  · exact backed.staged _ nofun
  · exact backed.staged _ nofun
  · unfold BundleUpload.asked
    dsimp only
    split
    · exact backed.staged _ nofun
    · refine ⟨fun bundleId member => ?_, backed.acknowledged, nofun, fun other member => ?_⟩
      · rcases mem_appended.mp member with old | rfl
        · exact backed.skipped bundleId old
        · exact StorageServer.has_of_bundleLens told
      · rcases mem_appended.mp member with old | rfl
        · exact (backed.committed other old).imp_left fun skipped => mem_appended.mpr (.inl skipped)
        · exact .inl (mem_appended.mpr (.inr rfl))

theorem replied (backed : Backed s upload) (bundle : UploadBundle) (rest : List UploadBundle)
    (response : CommitBundleResponse)
    (known : (s.storage.volumes.find? upload.lease.volumeId).isSome ∧
      (s.central.db.1.bundleReplicas.find? (bundle.bundleId, upload.lease.volumeId)).isSome) :
    Backed s (upload.replied bundle rest (.ok response)) := by
  unfold BundleUpload.replied
  dsimp only
  split
  · exact backed.staged _ nofun
  · refine ⟨backed.skipped, fun bundleId member => ?_, nofun, fun other member => ?_⟩
    · rcases mem_appended.mp member with old | rfl
      · exact backed.acknowledged bundleId old
      · exact known
    · rcases mem_appended.mp member with old | rfl
      · exact (backed.committed other old).imp_right fun among => mem_appended.mpr (.inl among)
      · exact .inr (mem_appended.mpr (.inr rfl))

end Backed

/-- Every volume of the storage accounts for what central has of it, and every upload knows the
truth. -/
structure Kept (config : CentralConfig) (blake3 : Bytes → HashId)
    (zstdDecompress : Bytes → Nat → Fs0Result Bytes) (s : UploadingClients) : Prop where
  reachable : (Fs0.reporting config blake3 zstdDecompress).Reachable s.reporting
  volumes : ∀ volumeId, (s.reporting.storage.volumes.find? volumeId).isSome →
    Accounted volumeId s.reporting ∧ Faithful volumeId s.reporting ∧ Sourced volumeId s.reporting
  single : ∀ call ∈ s.reporting.calls.rows, call.Single
  uploads : ∀ upload ∈ s.uploads.rows, Backed s.reporting upload

namespace Kept

theorem reported (kept : Kept config blake3 zstdDecompress s) {e : ReportingEvent}
    (native : e.foreign s.reporting = false) {reporting : ReportingStorage}
    (taken : (Fs0.reporting config blake3 zstdDecompress).step s.reporting e = some reporting) :
    Kept config blake3 zstdDecompress { s with reporting := reporting } := by
  have step := step_cases taken
  have orderly := reachable_orderly kept.reachable
  have reachable : ∀ other row, s.reporting.storage.volumes.find? other = some row →
      (Fs0.volume blake3).Reachable row.volume := fun _ _ found =>
    reachable_volume kept.reachable found
  have bundled := fun other row found => Volume.reachable_bundled (reachable other row found)
  have calls := calls_of_step kept.single step
  refine ⟨kept.reachable.step taken, fun volumeId mounted' => ?_,
    fun call member => (calls.calls call member).1, fun upload member => ?_⟩
  · have mounted := mounted_of_step step mounted'
    have alone := alone_of_native native mounted
    obtain ⟨accounted, faithful, sourced⟩ := kept.volumes volumeId mounted
    exact ⟨accounted.of_step orderly
        (fun other row found => Volume.reachable_oneRecordEach (reachable other row found))
        (faithful.admits accounted alone) step,
      faithful.of_step accounted orderly bundled alone step,
      (replicas_of_step faithful mounted alone step).1 sourced⟩
  · refine (kept.uploads upload member).advanced calls fun mounted => ?_
    exact .of_step (kept.volumes _ mounted).2.1 bundled mounted (alone_of_native native mounted) step

theorem moved (kept : Kept config blake3 zstdDecompress s) (backed : Backed s.reporting upload) :
    Kept config blake3 zstdDecompress (s.moveTo upload) := by
  refine ⟨kept.reachable, kept.volumes, kept.single, fun other among => ?_⟩
  rcases SeqTable.mem_replace among with rfl | ⟨old, -⟩
  · exact backed
  · exact kept.uploads other old

end Kept

theorem kept_init (initial : (uploadingClients config blake3 zstdDecompress).Init s) :
    Kept config blake3 zstdDecompress s := by
  obtain ⟨start, uploads⟩ := initial
  refine ⟨.init start, fun volumeId _ => ⟨accounted_init start, faithful_init start,
    sourced_init start⟩, ?_, ?_⟩
  · intro call member
    rw [start.2.2.2.1] at member
    cases member
  · intro upload member
    rw [uploads] at member
    cases member

/-- The call that a `CommitBundle` has started commits the bundle of the upload. -/
theorem Kept.sent (kept : Kept config blake3 zstdDecompress s)
    (member : upload ∈ s.uploads.rows) (bundle : UploadBundle) {leaseNow : Nat}
    {commit : Option Fs0Error}
    (taken : s.commitBundle blake3 zstdDecompress upload bundle leaseNow commit = some s')
    {rest : List UploadBundle} (first : upload.uploadBundles = bundle :: rest) :
    Kept config blake3 zstdDecompress s' := by
  obtain ⟨reporting, started, rfl⟩ := Option.map_eq_some_iff.mp taken
  have after : Kept config blake3 zstdDecompress { s with reporting := reporting } :=
    kept.reported (e := .commitBundle (upload.commitBundleRequest bundle) leaseNow commit) rfl started
  refine after.moved ((after.uploads upload member).staged _ fun syncId waiting => ?_)
  split at waiting
  next stored result =>
    obtain rfl := UploadStage.waiting.inj waiting
    obtain ⟨storage, rfl, mounted⟩ := commitBundle_begun result started
    refine ⟨Nat.le_refl _, mounted, fun other others isFirst call among isId => ?_⟩
    obtain ⟨rfl, -⟩ := List.cons.inj (first.symm.trans isFirst)
    rcases mem_appended.mp among with old | rfl
    · have early := s.reporting.calls.le_seq call old
      omega
    · exact ⟨rfl, _, rfl, rfl⟩
  · cases waiting

/-- A `CommitBundle` that was answered without an error. -/
theorem Kept.replied (kept : Kept config blake3 zstdDecompress s)
    (member : upload ∈ s.uploads.rows) {bundle : UploadBundle} {rest : List UploadBundle}
    (first : upload.uploadBundles = bundle :: rest) {call : SyncCall}
    (waiting : upload.stage = .waiting call.syncId) (among : call ∈ s.reporting.calls.rows)
    (isDone : call.phase = .done (.ok ())) {response : CommitBundleResponse}
    (isResponse : call.response = some response) :
    Kept config blake3 zstdDecompress (s.moveTo (upload.replied bundle rest (.ok response))) := by
  have backed := kept.uploads upload member
  obtain ⟨-, mounted, commits⟩ := backed.waiting call.syncId waiting
  obtain ⟨isVolume, known, isKnown, isBundle⟩ := commits bundle rest first call among rfl
  obtain rfl := Option.some.inj (isKnown.symm.trans isResponse)
  obtain ⟨row, found⟩ := Option.isSome_iff_exists.mp mounted
  have acknowledges := (kept.volumes _ mounted).2.1.calls row found call among isVolume known isKnown
  refine kept.moved (backed.replied bundle rest known ⟨mounted, ?_⟩)
  rw [← isBundle]
  exact acknowledges.known (.inr isDone)

theorem Kept.of_step (kept : Kept config blake3 zstdDecompress s)
    (taken : (uploadingClients config blake3 zstdDecompress).step s e = some s') :
    Kept config blake3 zstdDecompress s' := by
  cases e with
  | begin lease newSize uploadBundles =>
      obtain rfl := Option.some.inj taken
      refine ⟨kept.reachable, kept.volumes, kept.single, fun upload member => ?_⟩
      rcases mem_appended.mp member with old | rfl
      · exact kept.uploads upload old
      · exact .begun _ lease newSize uploadBundles
  | hasBundle uploadId =>
      obtain ⟨upload, found, ran⟩ := Option.bind_eq_some_iff.mp taken
      split at ran
      next bundle rest asking first =>
        obtain rfl := Option.some.inj ran
        exact kept.moved ((kept.uploads upload (Table.mem_of_find? found).1).asked bundle rest)
      · cases ran
  | commitBundle uploadId leaseNow commit =>
      obtain ⟨upload, found, ran⟩ := Option.bind_eq_some_iff.mp taken
      split at ran
      next bundle rest sending first =>
        exact kept.sent (Table.mem_of_find? found).1 bundle ran first
      · cases ran
  | reply uploadId =>
      obtain ⟨upload, found, ran⟩ := Option.bind_eq_some_iff.mp taken
      have member := (Table.mem_of_find? found).1
      split at ran
      next syncId bundle rest waiting first =>
        obtain ⟨call, isCall, answered⟩ := Option.bind_eq_some_iff.mp ran
        obtain ⟨among, rfl⟩ := Table.mem_of_find? isCall
        split at answered
        next response isDone isResponse =>
          obtain rfl := Option.some.inj answered
          exact kept.replied member first waiting among isDone isResponse
        next err _ =>
          obtain rfl := Option.some.inj answered
          exact kept.moved ((kept.uploads upload member).staged _ nofun)
        · cases answered
      · cases ran
  | fail uploadId err =>
      obtain ⟨upload, found, ran⟩ := Option.bind_eq_some_iff.mp taken
      split at ran
      · cases ran
      · obtain rfl := Option.some.inj ran
        exact kept.moved ((kept.uploads upload (Table.mem_of_find? found).1).staged _ nofun)
  | commitUpdate uploadId connection clientId storageId inputs =>
      obtain ⟨upload, found, ran⟩ := Option.bind_eq_some_iff.mp taken
      split at ran
      · obtain rfl := Option.some.inj ran
        let action : CentralAction := .run connection (.client clientId)
          (.commitUpdate upload.commitUpdateRequest storageId) inputs
        have acted : Kept config blake3 zstdDecompress
            { s with reporting := { s.reporting with central := s.reporting.central.act config action } } :=
          kept.reported (e := .central action) rfl rfl
        exact acted.moved ((acted.uploads upload (Table.mem_of_find? found).1).staged _ nofun)
      · cases ran
  | reporting e =>
      have ran : (if e.foreign s.reporting then none
        else (s.reporting.step config blake3 zstdDecompress e).map fun reporting =>
          { s with reporting := reporting }) = some s' := taken
      split at ran
      · cases ran
      next native =>
        obtain ⟨reporting, stepped, rfl⟩ := Option.map_eq_some_iff.mp ran
        exact kept.reported (by simpa using native) stepped

/-! ## Skipped bundles -/

/-- The volume has nothing to tell of a bundle, or central carried out a report that tells of
it. -/
def Reported (s : ReportingStorage) (volumeId : Nat) (bundleId : HashId) : Prop :=
  (∀ row, s.storage.volumes.find? volumeId = some row → ¬ row.volume.tables.Pending bundleId) ∨
    s.CarriedOut volumeId bundleId

/-- Central has a replica row of each of these bundles on the volume. -/
def KnownBundles (s : ReportingStorage) (volumeId : Nat) (bundleIds : List HashId) : Prop :=
  ∀ bundleId ∈ bundleIds, (s.central.db.1.bundleReplicas.find? (bundleId, volumeId)).isSome

theorem Kept.knownBundles_iff (kept : Kept config blake3 zstdDecompress s)
    (backed : Backed s.reporting upload) :
    KnownBundles s.reporting upload.lease.volumeId upload.skipped ↔
      ∀ bundleId ∈ upload.skipped, Reported s.reporting upload.lease.volumeId bundleId := by
  refine forall₂_congr fun bundleId member => ?_
  obtain ⟨row, found, has⟩ := backed.skipped bundleId member
  obtain ⟨accounted, -, sourced⟩ := kept.volumes upload.lease.volumeId (by rw [found]; rfl)
  constructor
  · exact fun known => .inr ((sourced bundleId).mp known)
  · rintro (untold | carriedOut)
    · rcases accounted.told row found bundleId with pending | agrees
      · exact absurd pending (untold row found)
      · exact Option.isSome_iff_exists.mpr (agrees.mpr has)
    · exact (sourced bundleId).mpr carriedOut

/-! ## The commit of an update -/

/-- The lookup of a commit finds the replicas of bundles that have one. -/
theorem isSome_of_getBundleReplicasById {db db' : CentralDb} {bundleIds : List HashId}
    {replicas : List BundleReplicaRow}
    (ran : CentralTx.getBundleReplicasById bundleIds db = .ok replicas db') {bundleId : HashId}
    (member : bundleId ∈ bundleIds) (volumeId : Nat)
    (known : (db.1.bundleReplicas.find? (bundleId, volumeId)).isSome) :
    (replicas.find? fun row => row.bundleId = bundleId).isSome := by
  obtain ⟨row, found⟩ := Option.isSome_iff_exists.mp known
  obtain ⟨inTable, isKey⟩ := Table.mem_of_find? found
  have isBundle : row.bundleId = bundleId := (Prod.mk.inj isKey).1
  have positive : 0 < bundleIdQueryBatchSize := by decide
  have all := flatten_chunksOf positive (Nat.le_refl bundleIds.length)
  rw [← all, List.mem_flatten] at member
  obtain ⟨batch, isBatch, member⟩ := member
  have isReplicas : (chunksOf bundleIdQueryBatchSize bundleIds.length bundleIds).flatMap
      (fun batch => db.1.bundleReplicasIn batch) = replicas := (EStateM.Result.ok.inj ran).1
  rw [← isReplicas, List.find?_isSome]
  exact ⟨row, List.mem_flatMap.mpr ⟨batch, isBatch, mem_bundleReplicasIn.mpr
    ⟨inTable, isBundle ▸ member⟩⟩, decide_eq_true isBundle⟩

/-- The loop over the submitted bundles finds them all. -/
theorem submittedRawSize_ready {replicas : List BundleReplicaRow} {bundles : List CommittedBundle}
    (ready : ∀ bundle ∈ bundles, (replicas.find? fun row => row.bundleId = bundle.bundleId).isSome)
    (total : Nat) : UpdateRequest.submittedRawSize replicas bundles total ≠ .error .chunkNotReady := by
  induction bundles generalizing total with
  | nil =>
      intro impossible
      cases impossible
  | cons bundle rest inductionHypothesis =>
      obtain ⟨row, found⟩ := Option.isSome_iff_exists.mp (ready bundle List.mem_cons_self)
      have later := inductionHypothesis fun other member => ready other (List.mem_cons_of_mem _ member)
      rw [UpdateRequest.submittedRawSize, found, okOr, Fs0Result.ok_bind]
      split
      · simp
      · cases checkedAdd total bundle.rawLen with
        | none =>
            intro impossible
            cases impossible
        | some sum => exact later sum

end UploadingClients

open UploadingClients

/-- When central commits an update, it knows the bundles of the upload that were committed. It
knows those that were skipped exactly when the storage has reported each of them, and the commit
then finds all its bundles ready. -/
theorem skipped_bundles_known {config : CentralConfig} {blake3 : Bytes → HashId}
    {zstdDecompress : Bytes → Nat → Fs0Result Bytes} {s : UploadingClients}
    {ts : List (Transition UploadingClients BundleUploadEvent)}
    (run : (uploadingClients config blake3 zstdDecompress).Run ts s) :
    ∀ t ∈ ts, ∀ uploadId connection clientId storageId inputs,
      t.event = .commitUpdate uploadId connection clientId storageId inputs →
      ∀ upload, t.pre.uploads.find? uploadId = some upload →
        KnownBundles t.pre.reporting upload.lease.volumeId upload.acknowledged ∧
        (KnownBundles t.pre.reporting upload.lease.volumeId upload.skipped ↔
          ∀ bundleId ∈ upload.skipped, Reported t.pre.reporting upload.lease.volumeId bundleId) ∧
        ((∀ bundleId ∈ upload.skipped, Reported t.pre.reporting upload.lease.volumeId bundleId) →
          ∀ replicas db, CentralTx.getBundleReplicasById
              (upload.committedBundles.map CommittedBundle.bundleId) t.pre.reporting.central.db =
            .ok replicas db →
          UpdateRequest.submittedRawSize replicas upload.committedBundles 0 ≠
            .error .chunkNotReady) := by
  intro t member uploadId connection clientId storageId inputs _ upload found
  have kept : ∀ x ∈ visited ts s, Kept config blake3 zstdDecompress x :=
    run.invariant_of_guard _ (fun _ _ => True) (fun _ => kept_init)
      (fun _ _ _ kept _ taken => kept.of_step taken) fun _ _ => trivial
  have here := kept t.pre (List.mem_cons_of_mem _ (List.mem_map_of_mem member))
  have backed := here.uploads upload (Table.mem_of_find? found).1
  have acknowledged : KnownBundles t.pre.reporting upload.lease.volumeId upload.acknowledged :=
    fun bundleId among => (backed.acknowledged bundleId among).2
  refine ⟨acknowledged, here.knownBundles_iff backed, fun reported replicas db ran => ?_⟩
  have skipped := (here.knownBundles_iff backed).mpr reported
  refine submittedRawSize_ready (fun bundle among => ?_) 0
  refine isSome_of_getBundleReplicasById ran (List.mem_map_of_mem among) upload.lease.volumeId ?_
  rcases backed.committed bundle among with isSkipped | isAcknowledged
  · exact skipped bundle.bundleId isSkipped
  · exact acknowledged bundle.bundleId isAcknowledged

/-! ## Scenarios -/

namespace UploadingClients.Scenario

open ReportingStorage.Scenario

def initial : UploadingClients := ⟨ReportingStorage.Scenario.initial, .empty⟩

def system : System UploadingClients BundleUploadEvent :=
  uploadingClients Fs0.Scenario.config Volume.Scenario.blake3 zstdDecompress

theorem initial_init : system.Init initial := ⟨ReportingStorage.Scenario.initial_init, rfl⟩

/-- A bundle of one chunk of 3 bytes. -/
def bundle : UploadBundle := ⟨Volume.Scenario.hash 7, 3, [⟨0, Volume.Scenario.hash 7⟩]⟩

/-- Two clients may update a file each, with the same content, and have stored its chunk. -/
def begun : List BundleUploadEvent :=
  let first : UpdateLease := ⟨1, 1, 1, 0, 0, 60001, none⟩
  let second : UpdateLease := ⟨2, 2, 1, 0, 0, 60001, none⟩
  let chunk : UploadChunkRequest := ⟨1, 1, 1, Volume.Scenario.hash 7, 3, [7, 2, 3]⟩
  (registered ++ [ReportingStorage.Scenario.run 1 (.client 1) (.beginUpdate ⟨"/a", 0, none, none⟩ 2 1),
    ReportingStorage.Scenario.run 1 (.client 1) (.beginUpdate ⟨"/b", 0, none, none⟩ 2 1),
    .storage (.grantUploadLease ⟨1, 1, 1, 0, 60001, none⟩), .storage (.uploadChunk chunk 1 1),
    .storage (.volume 1 (.write 1 3)), .storage (.volume 1 (.storeChunk 1))]).map
      BundleUploadEvent.reporting ++ [.begin first 3 [bundle], .begin second 3 [bundle]]

/-- The bundle is committed for the first client, whose call waits for the lock. -/
def committed : List BundleUploadEvent :=
  begun ++ [.hasBundle 1, .commitBundle 1 1 none, .reporting (.lock 1), .reporting (.readRecords 1)]

/-- The second client commits its update. -/
def commit : BundleUploadEvent := .commitUpdate 2 1 1 (some 2) (Fs0.Scenario.inputs 1)

/-- The bundle is reported before the second client asks. -/
def reported : List BundleUploadEvent :=
  committed ++ [.reporting (.report 1 2 none), .reporting (.reply 1),
    .reporting (.removeRecords 1), .hasBundle 2]

/-- The report fails before the second client asks. -/
def unreported : List BundleUploadEvent :=
  committed ++ [.reporting (.failReport 1 .centralUnavailable), .reply 1, .hasBundle 2]

end UploadingClients.Scenario

open UploadingClients.Scenario

/-- The bundle was reported before the second client asked for it. -/
theorem skipped_bundles_known_reported : ∃ s upload, system.Reachable s ∧
    s.uploads.find? 2 = some upload ∧ upload.skipped = [Volume.Scenario.hash 7] ∧
    KnownBundles s.reporting upload.lease.volumeId upload.skipped := by
  obtain ⟨s, ends, facts⟩ := Option.bind_eq_some_iff.mp
    (show ((system.exec initial reported).bind fun s => (system.step s commit).bind fun _ =>
        (s.uploads.find? 2).map fun upload =>
          (upload.lease.volumeId, upload.skipped, s.reporting.reports.rows.any fun report =>
            decide (report.answer = some (.ok ())) && report.events.any fun event =>
              decide (event.volumeId = 1 ∧ event.bundleId = Volume.Scenario.hash 7))) =
      some (1, [Volume.Scenario.hash 7], true) by decide +kernel)
  obtain ⟨s', taken, facts⟩ := Option.bind_eq_some_iff.mp facts
  obtain ⟨upload, found, facts⟩ := Option.map_eq_some_iff.mp facts
  obtain ⟨isVolume, isSkipped, carried⟩ := Prod.mk.inj facts |>.imp_right Prod.mk.inj
  obtain ⟨ts, run, -⟩ := (System.Run.init initial_init).exec _ ends
  have carriedOut : s.reporting.CarriedOut 1 (Volume.Scenario.hash 7) := by
    obtain ⟨report, member, carried⟩ := List.any_eq_true.mp carried
    obtain ⟨answered, events⟩ := Bool.and_eq_true_iff.mp carried
    obtain ⟨event, among, about⟩ := List.any_eq_true.mp events
    exact ⟨report, member, of_decide_eq_true answered, event, among, of_decide_eq_true about⟩
  have known := (skipped_bundles_known (run.step taken) ⟨s, commit, s'⟩ List.mem_cons_self
    2 1 1 (some 2) _ rfl upload found).2.1
  refine ⟨s, upload, run.reachable, found, isSkipped, known.mpr fun bundleId member => ?_⟩
  rw [isSkipped, List.mem_singleton] at member
  rw [member, isVolume]
  exact .inr carriedOut

/-- The report of a bundle failed. `HasBundle` reports the bundle all the same, and the update that
skips it is refused. -/
theorem skipped_bundle_unknown : ∃ s s' upload, system.Reachable s ∧
    system.step s commit = some s' ∧ s.uploads.find? 2 = some upload ∧
    upload.skipped = [Volume.Scenario.hash 7] ∧
    ¬ KnownBundles s.reporting upload.lease.volumeId upload.skipped ∧
    (s'.uploads.find? 2).map BundleUpload.stage = some (.finished (.error .chunkNotReady)) := by
  obtain ⟨s, ends, facts⟩ := Option.bind_eq_some_iff.mp
    (show ((system.exec initial unreported).bind fun s => (system.step s commit).bind fun s' =>
        (s.uploads.find? 2).map fun upload => (upload.lease.volumeId, upload.skipped,
          (s.reporting.central.db.1.bundleReplicas.find? (Volume.Scenario.hash 7, 1)).isSome,
          (s'.uploads.find? 2).map BundleUpload.stage)) =
      some (1, [Volume.Scenario.hash 7], false, some (.finished (.error .chunkNotReady))) by
        decide +kernel)
  obtain ⟨s', taken, facts⟩ := Option.bind_eq_some_iff.mp facts
  obtain ⟨upload, found, facts⟩ := Option.map_eq_some_iff.mp facts
  obtain ⟨isVolume, isSkipped, unknown, stage⟩ :=
    Prod.mk.inj facts |>.imp_right fun rest => Prod.mk.inj rest |>.imp_right Prod.mk.inj
  refine ⟨s, s', upload, System.exec_reachable _ initial_init ends, taken, found, isSkipped,
    fun known => ?_, stage⟩
  have isKnown := known (Volume.Scenario.hash 7) (by rw [isSkipped]; exact List.mem_singleton.mpr rfl)
  rw [isVolume, unknown] at isKnown
  cases isKnown

end Fs0
