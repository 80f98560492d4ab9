import Fs0.Client.DownloadLayout

/-!
Contract: which downloads assemble the file they were asked for.

Owns:
- the local file a finished download leaves, as the patches of its chunks;
- the exact plans of central for which a download that returned `Ok` assembles the file;
- a schedule that completes every download whose checks pass.

Does not own: the listings and contents, which a storage supplies.
-/

set_option autoImplicit false

namespace Fs0

open Fs0.Lib

/-! ## Downloads without a failed callback -/

/-- Every callback delivered the contents of the chunk it asked for, and every listing was
honest about them. -/
structure HonestDownload (content : HashId → Bytes) (s : Download) : Prop where
  delivered : s.AllDelivered
  contents : ∀ c ∈ s.completed,
    c.result = .ok ⟨c.chunk.request.chunkId, content c.chunk.request.chunkId⟩
  listed : ∀ entry ∈ s.listed, HonestListing content entry

/-- The intervals of the file that were written. -/
def Download.writtenExtents (s : Download) : List Extent :=
  s.sentJobs.map fun job => ⟨job.rawOffset, job.rawBytes.length⟩

/-- The chunk contents in the order of the bundles, and of the chunks in each of them. -/
def Download.listedBytes (content : HashId → Bytes) (s : Download) : Bytes :=
  s.listed.flatMap (listingBytes content)

/-- The written intervals partition the file, and it holds the chunk contents in order. -/
def Download.Assembled (content : HashId → Bytes) (plan : FileReadPlan) (s : Download) : Prop :=
  Partitions s.writtenExtents 0 plan.size ∧ s.output.contents = s.listedBytes content

section Assembly

variable {plan : FileReadPlan} {storages : List StoragePeerInfo} {content : HashId → Bytes}
  {ts : List (Transition Download DownloadEvent)} {s : Download}

/-- What a finished download without a failed callback has scheduled and written. -/
structure Finished (content : HashId → Bytes) (plan : FileReadPlan) (s : Download)
    (jobs : List (List ChunkDownload)) : Prop where
  bundles : plan.bundles = s.listed.map Prod.fst
  tiles : List.Forall₂ (TilesBundle content volumeBundleRawSize) plan.bundles jobs
  fits : ∀ bundle ∈ plan.bundles, 0 < bundle.rawLen →
    bundle.bundleIndex * volumeBundleRawSize + bundle.rawLen ≤ plan.size
  values : (jobs.flatten.map (ChunkDownload.patch content)).flatMap Patch.values =
    s.listedBytes content
  within : ∀ job ∈ jobs.flatten, (job.patch content).extent.stop ≤ plan.size
  sent : (s.sentJobs.map fun job => (⟨job.rawOffset, job.rawBytes⟩ : Patch UInt8)).Perm
    (jobs.flatten.map (ChunkDownload.patch content))

theorem sentJobs_patches (honest : HonestDownload content s) :
    s.sentJobs.map (fun job => (⟨job.rawOffset, job.rawBytes⟩ : Patch UInt8)) =
      (s.completed.map CompletedChunk.chunk).map (ChunkDownload.patch content) := by
  have each : ∀ completed : List CompletedChunk,
      (∀ c ∈ completed, c.sent = some ⟨c.chunk.rawOffset, content c.chunk.request.chunkId⟩) →
      (completed.filterMap CompletedChunk.sent).map
          (fun job => (⟨job.rawOffset, job.rawBytes⟩ : Patch UInt8)) =
        (completed.map CompletedChunk.chunk).map (ChunkDownload.patch content) := by
    intro completed all
    induction completed with
    | nil => rfl
    | cons c completed inductionHypothesis =>
        rw [List.filterMap_cons_some (all c List.mem_cons_self), List.map_cons, List.map_cons,
          List.map_cons, inductionHypothesis fun c member => all c (List.mem_cons_of_mem _ member)]
        rfl
  refine each s.completed fun c member => ?_
  obtain ⟨bytes, received, -, sent⟩ := honest.delivered c member
  rw [honest.contents c member] at received
  have same : content c.chunk.request.chunkId = bytes := congrArg DownloadChunkResult.rawBytes
    (Except.ok.inj received)
  rw [sent, same]

theorem bundles_values {listed : List (FileBundleRef × List BundleChunkRef)}
    {jobs : List (List ChunkDownload)}
    (values : List.Forall₂ (fun entry first =>
      (first.map (ChunkDownload.patch content)).flatMap Patch.values = listingBytes content entry)
      listed jobs) :
    (jobs.flatten.map (ChunkDownload.patch content)).flatMap Patch.values =
      listed.flatMap (listingBytes content) := by
  induction values with
  | nil => rfl
  | cons here _ inductionHypothesis =>
      rw [List.flatten_cons, List.map_append, List.flatMap_append, List.flatMap_cons,
        inductionHypothesis, here]

theorem finished_of_run (run : (downloadSystem plan storages).Run ts s)
    (returned : s.phase = .returned (.ok ())) (honest : HonestDownload content s) :
    ∃ jobs, Finished content plan s jobs := by
  have empty := ((Download.inv_of_allDelivered run honest.delivered).okIsComplete returned).1
  have scheduled := Download.scheduled_run run
  rw [Download.Scheduled, returned] at scheduled
  obtain ⟨jobs, bundles, checked, same⟩ := scheduled
  rw [List.append_nil] at bundles
  rw [Download.jobs, empty, List.nil_append] at same
  have lengths : ∀ job ∈ jobs.flatten, job.LengthOk content := by
    intro job member
    obtain ⟨c, inCompleted, rfl⟩ := List.mem_map.mp (same.mem_iff.mpr member)
    obtain ⟨bytes, received, length, -⟩ := honest.delivered c inCompleted
    rw [honest.contents c inCompleted] at received
    rw [ChunkDownload.LengthOk, ← length]
    exact congrArg (fun response => response.rawBytes.length) (Except.ok.inj received)
  have each : List.Forall₂ (fun entry first => TilesBundle content volumeBundleRawSize entry.1 first ∧
      (0 < entry.1.rawLen →
        entry.1.bundleIndex * volumeBundleRawSize + entry.1.rawLen ≤ plan.size) ∧
      (first.map (ChunkDownload.patch content)).flatMap Patch.values = listingBytes content entry ∧
      ∀ job ∈ first, (job.patch content).extent.stop ≤ plan.size) s.listed jobs := by
    obtain ⟨length, zipped⟩ := List.forall₂_iff_zip.mp checked
    refine List.forall₂_iff_zip.mpr ⟨length, fun {entry first} member => ?_⟩
    obtain ⟨inListed, inJobs⟩ := List.of_mem_zip member
    have jobsOk : ∀ job ∈ first, job.LengthOk content :=
      fun job inside => lengths job (List.mem_flatten.mpr ⟨first, inJobs, inside⟩)
    have passed := zipped member
    refine ⟨bundle_tile passed (honest.listed entry inListed) jobsOk,
      bundle_fits passed (honest.listed entry inListed) jobsOk, ?_, ?_⟩
    · obtain ⟨-, current, -, ok⟩ := passed
      exact patches_values ok
    · exact bundleJobs_within passed jobsOk
  refine ⟨jobs, bundles, ?_, ?_, ?_, ?_, ?_⟩
  · rw [bundles, List.forall₂_map_left_iff]
    exact each.imp fun _ _ facts => facts.1
  · intro bundle member nonempty
    rw [bundles] at member
    obtain ⟨entry, inListed, rfl⟩ := List.mem_map.mp member
    obtain ⟨first, -, facts⟩ := exists_of_forall₂_left each inListed
    exact facts.2.1 nonempty
  · exact bundles_values (each.imp fun _ _ facts => facts.2.2.1)
  · intro job member
    obtain ⟨first, inJobs, inside⟩ := List.mem_flatten.mp member
    obtain ⟨entry, -, facts⟩ := exists_of_forall₂_left each.flip inJobs
    exact facts.2.2.2 job inside
  · rw [sentJobs_patches honest]
    exact same.map _

/-- Writes within the file keep its length and change its bytes only. -/
theorem writeAll_eq {plan : FileReadPlan} {jobs : List DownloadWriteJob}
    (within : ∀ job ∈ jobs, job.rawOffset + job.rawBytes.length ≤ plan.size) :
    Download.writeAll plan jobs =
      ⟨plan.size, applyAll (fun _ => 0) (jobs.map fun job => ⟨job.rawOffset, job.rawBytes⟩)⟩ := by
  have each : ∀ (jobs : List DownloadWriteJob) (bytes : Nat → UInt8),
      (∀ job ∈ jobs, job.rawOffset + job.rawBytes.length ≤ plan.size) →
      jobs.foldl (fun file job => file.write job.rawOffset job.rawBytes) ⟨plan.size, bytes⟩ =
        (⟨plan.size, applyAll bytes (jobs.map fun job => ⟨job.rawOffset, job.rawBytes⟩)⟩ :
          LocalFile) := by
    intro jobs
    induction jobs with
    | nil => exact fun bytes _ => rfl
    | cons job jobs inductionHypothesis =>
        intro bytes within
        have here := within job List.mem_cons_self
        rw [List.foldl_cons, LocalFile.write, Nat.max_eq_left here,
          inductionHypothesis _ fun job member => within job (List.mem_cons_of_mem _ member)]
        rfl
  exact each jobs _ within

/-- Every bundle but the last is exactly as long as the stride, once all are checked to end
within the file and none but the last is longer. -/
theorem bundles_full (central : CentralPlan plan) (fit : BundlesFitStride plan)
    (fits : ∀ bundle ∈ plan.bundles, 0 < bundle.rawLen →
      bundle.bundleIndex * volumeBundleRawSize + bundle.rawLen ≤ plan.size) :
    ∀ bundle ∈ plan.bundles.dropLast, bundle.rawLen = volumeBundleRawSize := by
  obtain ⟨indices, size, nonempty⟩ := central
  rw [BundlesFitStride] at fit
  generalize volumeBundleRawSize = stride at fit fits ⊢
  rcases List.eq_nil_or_concat plan.bundles with none | ⟨init, last, split⟩
  · simp [none]
  · rw [split] at indices size fit fits nonempty ⊢
    rw [List.concat_eq_append] at *
    rw [List.dropLast_concat] at fit ⊢
    have lastIndex : last.bundleIndex = init.length := by
      rw [List.map_append, List.length_append, List.length_singleton, List.range_succ] at indices
      exact List.singleton_inj.mp (List.append_inj_right' indices (by simp))
    have ends := fits last (by simp) (nonempty last (by simp))
    rw [List.map_append, List.sum_append] at size
    simp only [List.map_cons, List.map_nil, List.sum_cons, List.sum_nil] at size
    have bounded : ∀ len ∈ init.map FileBundleRef.rawLen, len ≤ stride := by simpa using fit
    have lens := eq_of_mul_length_le_sum bounded (by
      rw [List.length_map, ← lastIndex]
      omega)
    simpa using lens

theorem Finished.assembled {jobs : List (List ChunkDownload)} (finished : Finished content plan s jobs)
    (central : CentralPlan plan) (written : s.output = Download.writeAll plan s.sentJobs)
    (fit : BundlesFitStride plan) : s.Assembled content plan := by
  have full := bundles_full central fit finished.fits
  have tiles := bundles_tile finished.tiles (by rw [central.indices, List.range_eq_range']) full
  rw [central.size, Nat.zero_mul, Nat.zero_add] at tiles
  constructor
  · have parts := tiles.partitions.perm (finished.sent.map Patch.extent)
    rwa [List.map_map] at parts
  · have within : ∀ job ∈ s.sentJobs, job.rawOffset + job.rawBytes.length ≤ plan.size := by
      intro job member
      exact (tiles.extent_bounds ⟨job.rawOffset, job.rawBytes⟩
        (finished.sent.mem_iff.mp (List.mem_map.mpr ⟨job, member, rfl⟩))).2
    rw [written, writeAll_eq within, LocalFile.contents, ← finished.values]
    exact tiles.slice_applyAll_perm finished.sent _

theorem Finished.fit_of_partitions {jobs : List (List ChunkDownload)}
    (finished : Finished content plan s jobs) (central : CentralPlan plan)
    (parts : Partitions s.writtenExtents 0 plan.size) : BundlesFitStride plan := by
  have same : (jobs.flatten.map fun job => (job.patch content).extent).Perm s.writtenExtents := by
    have extents := (finished.sent.map Patch.extent).symm
    rwa [List.map_map, List.map_map] at extents
  exact overlap_of_long finished.tiles (by rw [central.indices, List.range_eq_range'])
    central.nonempty (parts.perm same).disjoint

theorem result?_eq_ok {stats : TransferStats} (ok : s.result? plan = some (.ok stats)) :
    s.phase = .returned (.ok ()) ∧ s.writer = .ended (.ok ()) := by
  unfold Download.result? at ok
  split at ok
  · next result written returned ended =>
      have ok := Option.some.inj ok
      obtain ⟨⟨⟩, looped, ok⟩ := Fs0Result.bind_eq_ok.mp ok
      obtain ⟨⟨⟩, wrote, -⟩ := Fs0Result.bind_eq_ok.mp ok
      exact ⟨by rw [returned, looped], by rw [ended, wrote]⟩
  · cases ok

end Assembly

/-! ## A schedule that completes -/

/-- Between two chunks, everything scheduled so far has been delivered and written. -/
structure Idle (content : HashId → Bytes) (s : Download) : Prop where
  pending : s.pending = []
  writeRx : s.writeRx = []
  writer : s.writer = .running
  shared : ∃ total, s.shared = ⟨0, total, false, none, true⟩
  delivered : s.AllDelivered
  contents : ∀ c ∈ s.completed,
    c.result = .ok ⟨c.chunk.request.chunkId, content c.chunk.request.chunkId⟩

section Schedule

variable {plan : FileReadPlan} {storages : List StoragePeerInfo} {content : HashId → Bytes}
  {s : Download}

/-- A delivered callback of a chunk in flight alone. -/
theorem callback_alone {job : ChunkDownload} (total : Nat)
    (shared : s.shared = ⟨1, total, false, none, true⟩) (pending : s.pending = [job])
    (writer : s.writer = .running) (length : job.LengthOk content) :
    s.callback 0 (.ok ⟨job.request.chunkId, content job.request.chunkId⟩) =
      some { s with
        shared := ⟨0, total, false, none, true⟩
        pending := []
        writeRx := s.writeRx ++ [⟨job.rawOffset, content job.request.chunkId⟩]
        completed := s.completed ++
          [⟨job, .ok ⟨job.request.chunkId, content job.request.chunkId⟩,
            some ⟨job.rawOffset, content job.request.chunkId⟩⟩] } := by
  have length : (content job.request.chunkId).length = job.rawLen := length
  simp [Download.callback, pending, shared, writer, length, InternalDownloadState.receive,
    InternalDownloadState.complete]

theorem writeJob_alone {job : DownloadWriteJob} (writer : s.writer = .running)
    (queue : s.writeRx = [job]) :
    s.writeJob =
      some { s with writeRx := [], output := s.output.write job.rawOffset job.rawBytes } := by
  rw [Download.writeJob, writer, queue]

/-- One chunk is scheduled, served at once, and written. -/
theorem exists_chunk_done {current : BundleDownload} {chunk : BundleChunkRef}
    {chunks : List BundleChunkRef} {rest : List FileBundleRef} {job : ChunkDownload}
    (reachable : (downloadSystem plan storages).Reachable s) (idle : Idle content s)
    (here : s.phase = .chunks current (chunk :: chunks) rest)
    (passed : chunkDownload plan current chunk = .ok job) (length : job.LengthOk content) :
    ∃ s', (downloadSystem plan storages).Reachable s' ∧ Idle content s' ∧
      s'.phase = .chunks current chunks rest ∧ s'.listed = s.listed := by
  obtain ⟨pending, writeRx, writer, ⟨total, shared⟩, delivered, contents⟩ := idle
  have step : s.scheduleChunk plan = some (s.chunkScheduled current chunks rest (.ok job)) := by
    rw [Download.scheduleChunk, here, ← passed]
  have scheduled := reachable.step (e := DownloadEvent.scheduleChunk) step
  have alone := callback_alone (s := s.chunkScheduled current chunks rest (.ok job)) (total + 1)
    (by simp [Download.chunkScheduled, shared]) (by simp [Download.chunkScheduled, pending])
    writer length
  have received := scheduled.step
    (e := DownloadEvent.callback 0 (.ok ⟨job.request.chunkId, content job.request.chunkId⟩)) alone
  have enqueued := received.step (e := DownloadEvent.enqueued (.ok ())) rfl
  have written := enqueued.step (e := DownloadEvent.writeJob)
    (writeJob_alone writer (congrArg (· ++ [_]) writeRx))
  refine ⟨_, written, ⟨rfl, rfl, writer, ⟨_, rfl⟩, ?_, ?_⟩, rfl, rfl⟩
  · exact List.forall_mem_append.mpr ⟨delivered, List.forall_mem_singleton.mpr
      ⟨_, rfl, length, rfl⟩⟩
  · exact List.forall_mem_append.mpr ⟨contents, List.forall_mem_singleton.mpr rfl⟩

/-- All chunks of a listing are scheduled, served and written. -/
theorem exists_bundle_done {current : BundleDownload} {chunks : List BundleChunkRef}
    {rest : List FileBundleRef}
    (reachable : (downloadSystem plan storages).Reachable s) (idle : Idle content s)
    (here : s.phase = .chunks current chunks rest)
    (checks : ∀ chunk ∈ chunks, ∃ job, chunkDownload plan current chunk = .ok job ∧
      job.LengthOk content) :
    ∃ s', (downloadSystem plan storages).Reachable s' ∧ Idle content s' ∧
      s'.phase = .bundles rest ∧ s'.listed = s.listed := by
  induction chunks generalizing s with
  | nil =>
      have step : s.scheduleChunk plan = some { s with phase := .bundles rest } := by
        rw [Download.scheduleChunk, here]
      exact ⟨_, reachable.step (e := DownloadEvent.scheduleChunk) step,
        ⟨idle.pending, idle.writeRx, idle.writer, idle.shared, idle.delivered, idle.contents⟩, rfl, rfl⟩
  | cons chunk chunks inductionHypothesis =>
      obtain ⟨job, passed, length⟩ := checks chunk List.mem_cons_self
      obtain ⟨next, reached, idle, there, listed⟩ :=
        exists_chunk_done reachable idle here passed length
      obtain ⟨last, reached, idle, there, listed'⟩ := inductionHypothesis reached idle there
        fun chunk member => checks chunk (List.mem_cons_of_mem _ member)
      exact ⟨last, reached, idle, there, listed'.trans listed⟩

/-- The bundles still to come are all listed, and their chunks served and written. -/
theorem exists_bundles_done {rest : List FileBundleRef} (listing : FileBundleRef → List BundleChunkRef)
    (reachable : (downloadSystem plan storages).Reachable s) (idle : Idle content s)
    (here : s.phase = .bundles rest)
    (checks : ∀ bundle ∈ rest, ∃ current, startBundle storages bundle = .ok current ∧
      ∀ chunk ∈ listing bundle, ∃ job, chunkDownload plan current chunk = .ok job ∧
        job.LengthOk content) :
    ∃ s', (downloadSystem plan storages).Reachable s' ∧ Idle content s' ∧ s'.phase = .bundles [] ∧
      s'.listed = s.listed ++ rest.map fun bundle => (bundle, sortChunks (listing bundle)) := by
  induction rest generalizing s with
  | nil => exact ⟨s, reachable, idle, here, by simp⟩
  | cons bundle rest inductionHypothesis =>
      obtain ⟨current, started, passed⟩ := checks bundle List.mem_cons_self
      have step : s.listBundle storages (.ok (listing bundle)) =
          some (s.bundleListed bundle rest (.ok current) (.ok (listing bundle))) := by
        rw [Download.listBundle, here, ← started]
      have listed := reachable.step (e := DownloadEvent.listBundle (.ok (listing bundle))) step
      have still : Idle content (s.bundleListed bundle rest (.ok current) (.ok (listing bundle))) :=
        ⟨idle.pending, idle.writeRx, idle.writer, idle.shared, idle.delivered, idle.contents⟩
      obtain ⟨next, reached, nextIdle, there, same⟩ := exists_bundle_done listed still rfl
        fun chunk member => passed chunk ((sortChunks_perm _).mem_iff.mp member)
      obtain ⟨last, reached, lastIdle, there, all⟩ := inductionHypothesis reached nextIdle there
        fun bundle member => checks bundle (List.mem_cons_of_mem _ member)
      refine ⟨last, reached, lastIdle, there, ?_⟩
      rw [all, same, List.map_cons, Download.bundleListed, List.append_assoc]
      rfl

/-- Where every check passes there is a run in which `download_file` returns `Ok`. -/
theorem exists_download_ok (content : HashId → Bytes)
    (listing : FileBundleRef → List BundleChunkRef)
    (checks : ∀ bundle ∈ plan.bundles, ∃ current, startBundle storages bundle = .ok current ∧
      ∀ chunk ∈ listing bundle, ∃ job, chunkDownload plan current chunk = .ok job ∧
        job.LengthOk content) :
    ∃ s stats, (downloadSystem plan storages).Reachable s ∧ s.result? plan = some (.ok stats) ∧
      s.AllDelivered ∧
      (∀ c ∈ s.completed,
        c.result = .ok ⟨c.chunk.request.chunkId, content c.chunk.request.chunkId⟩) ∧
      s.listed = plan.bundles.map fun bundle => (bundle, sortChunks (listing bundle)) := by
  have start : (downloadSystem plan storages).Reachable (.initial plan) := .init rfl
  have idle : Idle content (.initial plan) :=
    ⟨rfl, rfl, rfl, ⟨0, rfl⟩, by simp [Download.AllDelivered, Download.initial],
      by simp [Download.initial]⟩
  obtain ⟨s, reached, idle, here, listed⟩ := exists_bundles_done listing start idle rfl checks
  obtain ⟨phase, shared, doneRx, pending, writeRx, writer, output, listed', completed⟩ := s
  obtain ⟨rfl, rfl, rfl, ⟨total, rfl⟩, delivered, contents⟩ := idle
  obtain rfl := here
  have finished := reached.step (e := DownloadEvent.finishScheduling) rfl
  have ended := finished.step (e := DownloadEvent.writerEnds (.ok ())) rfl
  exact ⟨_, _, ended, rfl, delivered, contents, listed⟩

end Schedule

/-! ## Two bundles -/

/-- Storage 1 holds every bundle in volume 1. -/
def exampleBundle (index rawLen : Nat) : FileBundleRef where
  bundleIndex := index
  rawLen := rawLen
  compressedLen := 9
  bundleId := .repeating 2
  replicas := [⟨1, 1⟩]

/-- A bundle of so many full chunks, and one of one chunk. -/
def twoBundlesPlan (count : Nat) : FileReadPlan where
  fileId := 1
  path := "/a"
  size := (count + 1) * volumeRawChunkSize
  bundles := [exampleBundle 0 (count * volumeRawChunkSize), exampleBundle 1 volumeRawChunkSize]

/-- Every chunk is the same full one. -/
def fullListing (count : Nat) : List BundleChunkRef :=
  (List.range count).map fun index => ⟨index, .repeating 1⟩

/-- The two bundles have as many chunks as their lengths say. -/
def twoBundlesListing (count : Nat) (bundle : FileBundleRef) : List BundleChunkRef :=
  fullListing (if bundle.bundleIndex = 0 then count else 1)

theorem twoBundlesPlan_central {count : Nat} (nonempty : 0 < count) :
    CentralPlan (twoBundlesPlan count) where
  indices := rfl
  size := by
    simp only [twoBundlesPlan, exampleBundle, List.map_cons, List.map_nil, List.sum_cons,
      List.sum_nil]
    rw [Nat.succ_mul]
    rfl
  nonempty := by
    have positive : 0 < volumeRawChunkSize := by decide
    simp only [twoBundlesPlan, exampleBundle, List.mem_cons, List.not_mem_nil, or_false,
      forall_eq_or_imp, forall_eq]
    exact ⟨Nat.mul_pos nonempty positive, positive⟩

theorem listingBytes_full {content : HashId → Bytes} {bundle : FileBundleRef} {stride : Nat}
    (full : ∀ id, (content id).length = stride) (chunks : List BundleChunkRef) :
    (listingBytes content (bundle, chunks)).length = chunks.length * stride := by
  unfold listingBytes
  induction chunks with
  | nil => simp
  | cons chunk chunks inductionHypothesis =>
      rw [List.flatMap_cons, List.length_append, inductionHypothesis, full, List.length_cons,
        Nat.succ_mul, Nat.add_comm]

/-- A listing of full chunks is honest about a bundle of their total length. -/
theorem fullListing_honest {content : HashId → Bytes} {bundle : FileBundleRef} {stride : Nat}
    (count : Nat) (full : ∀ id, (content id).length = stride) (rawLen : bundle.rawLen = count * stride) :
    HonestListing content (bundle, sortChunks (fullListing count)) := by
  have same := sortChunks_perm (fullListing count)
  have length : (sortChunks (fullListing count)).length = count := by
    rw [same.length_eq, fullListing, List.length_map, List.length_range]
  constructor
  · rw [length]
    refine (same.map _).trans ?_
    rw [fullListing, List.map_map]
    exact .of_eq (List.map_id _)
  · rw [listingBytes_full full, length, rawLen]

/-- The chunks of a bundle that ends within the file pass every check. -/
theorem fullListing_checked {content : HashId → Bytes} {plan : FileReadPlan}
    {current : BundleDownload} (count : Nat)
    (full : ∀ id, (content id).length = volumeRawChunkSize)
    (rawLen : current.bundle.rawLen = count * volumeRawChunkSize)
    (fits : current.bundleOffset + current.bundle.rawLen ≤ plan.size) (small : plan.size < u64Modulus) :
    ∀ chunk ∈ fullListing count,
      ∃ job, chunkDownload plan current chunk = .ok job ∧ job.LengthOk content := by
  have passes : ∀ chunk : BundleChunkRef,
      chunk.chunkIndex * volumeRawChunkSize < current.bundle.rawLen →
      current.bundleOffset + chunk.chunkIndex * volumeRawChunkSize +
        min volumeRawChunkSize (current.bundle.rawLen - chunk.chunkIndex * volumeRawChunkSize) ≤
          plan.size →
      ∃ job, chunkDownload plan current chunk = .ok job ∧ job.PlacedAt volumeRawChunkSize
        current.bundleOffset current.bundle.rawLen chunk.chunkIndex := by
    intro chunk inside within
    obtain ⟨job, passed⟩ := exists_chunkDownload inside within small
    exact ⟨job, passed, (chunkDownload_eq_ok passed).1⟩
  have positive : 0 < volumeRawChunkSize := by decide
  generalize volumeRawChunkSize = stride at full rawLen passes positive
  intro chunk member
  obtain ⟨index, inRange, rfl⟩ := List.mem_map.mp member
  have room : index * stride + stride ≤ current.bundle.rawLen := by
    rw [rawLen, ← Nat.succ_mul]
    exact Nat.mul_le_mul_right _ (List.mem_range.mp inRange)
  obtain ⟨job, passed, place⟩ := passes ⟨index, .repeating 1⟩
    (by dsimp only; omega) (by dsimp only; omega)
  refine ⟨job, passed, ?_⟩
  rw [ChunkDownload.LengthOk, full, place.length]
  dsimp only
  omega

theorem startBundle_example {index rawLen : Nat} (small : index * volumeBundleRawSize < u64Modulus) :
    startBundle oneChunkStorages (exampleBundle index rawLen) =
      .ok ⟨exampleBundle index rawLen, index * volumeBundleRawSize, ⟨1, 1⟩, ⟨1, "storage", [], []⟩⟩ := by
  have product : checkedMul (exampleBundle index rawLen).bundleIndex volumeBundleRawSize =
      some (index * volumeBundleRawSize) := checkedMul_eq_some.mpr ⟨small, rfl⟩
  rw [startBundle, product, okOr, Fs0Result.ok_bind]
  rfl

/-- When the first bundle is as long as the stride or one chunk longer, all checks pass, every
request succeeds and `Ok` is returned. -/
theorem exists_twoBundles_ok {count : Nat} (lower : 128 ≤ count) (upper : count ≤ 129) :
    ∃ (content : HashId → Bytes) (s : Download) (stats : TransferStats),
      (downloadSystem (twoBundlesPlan count) oneChunkStorages).Reachable s ∧
      HonestDownload content s ∧ s.result? (twoBundlesPlan count) = some (.ok stats) := by
  obtain ⟨content, full⟩ : ∃ content : HashId → Bytes,
      ∀ id, (content id).length = volumeRawChunkSize :=
    ⟨fun _ => List.replicate volumeRawChunkSize 7, fun _ => List.length_replicate⟩
  have sizes : volumeBundleRawSize = 128 * volumeRawChunkSize := by
    unfold volumeBundleRawSize volumeRawChunkSize
    omega
  have small : (twoBundlesPlan count).size < u64Modulus := by
    simp only [twoBundlesPlan, volumeRawChunkSize, u64Modulus]
    omega
  have starts : ∀ index ≤ 1, index * volumeBundleRawSize < u64Modulus := by
    simp only [volumeBundleRawSize, u64Modulus]
    omega
  have checks : ∀ bundle ∈ (twoBundlesPlan count).bundles, ∃ current,
      startBundle oneChunkStorages bundle = .ok current ∧
      ∀ chunk ∈ twoBundlesListing count bundle, ∃ job,
        chunkDownload (twoBundlesPlan count) current chunk = .ok job ∧ job.LengthOk content := by
    intro bundle member
    rcases List.mem_pair.mp member with rfl | rfl
    · refine ⟨_, startBundle_example (starts 0 (by omega)), ?_⟩
      exact fullListing_checked count full rfl (by
        simp only [exampleBundle, twoBundlesPlan, Nat.succ_mul]
        omega) small
    · refine ⟨_, startBundle_example (starts 1 (by omega)), ?_⟩
      have room : 128 * volumeRawChunkSize ≤ count * volumeRawChunkSize :=
        Nat.mul_le_mul_right _ lower
      exact fullListing_checked 1 full (Nat.one_mul _).symm (by
        simp only [exampleBundle, twoBundlesPlan, Nat.succ_mul]
        omega) small
  obtain ⟨s, stats, reachable, ok, delivered, contents, listed⟩ :=
    exists_download_ok content (twoBundlesListing count) checks
  refine ⟨content, s, stats, reachable, ⟨delivered, contents, fun entry member => ?_⟩, ok⟩
  rw [listed] at member
  obtain ⟨bundle, inPlan, rfl⟩ := List.mem_map.mp member
  rcases List.mem_pair.mp inPlan with rfl | rfl
  · exact fullListing_honest count full rfl
  · exact fullListing_honest 1 full (Nat.one_mul _).symm

section Claim

variable {plan : FileReadPlan} {storages : List StoragePeerInfo} {content : HashId → Bytes}
  {ts : List (Transition Download DownloadEvent)} {s : Download}

/-- Bundles of the stride of their offsets are assembled, each in its place. -/
theorem assembled_of_fit {stats : TransferStats} (run : (downloadSystem plan storages).Run ts s)
    (central : CentralPlan plan) (honest : HonestDownload content s)
    (ok : s.result? plan = some (.ok stats)) (fit : BundlesFitStride plan) :
    s.Assembled content plan := by
  obtain ⟨returned, ended⟩ := result?_eq_ok ok
  obtain ⟨jobs, finished⟩ := finished_of_run run returned honest
  have written := Download.written_run run
  rw [Download.Written, ended] at written
  exact finished.assembled central written.2.2 fit

/-- A download that returned `Ok` for a plan of central, with honest listings and every
callback served, assembles the file exactly when no bundle but the last is longer than the
stride of the bundle offsets. -/
theorem download_assembled_iff {stats : TransferStats}
    (run : (downloadSystem plan storages).Run ts s) (central : CentralPlan plan)
    (honest : HonestDownload content s) (ok : s.result? plan = some (.ok stats)) :
    s.Assembled content plan ↔ BundlesFitStride plan := by
  constructor
  · intro assembled
    obtain ⟨returned, -⟩ := result?_eq_ok ok
    obtain ⟨jobs, finished⟩ := finished_of_run run returned honest
    exact finished.fit_of_partitions central assembled.1
  · exact assembled_of_fit run central honest ok

end Claim

/-- A file of a bundle that is as long as the stride, and one chunk more. -/
theorem download_assembled_iff_twoBundles : ∃ content s,
    (downloadSystem (twoBundlesPlan 128) oneChunkStorages).Reachable s ∧
    (s.Assembled content (twoBundlesPlan 128) ↔ BundlesFitStride (twoBundlesPlan 128)) ∧
    s.Assembled content (twoBundlesPlan 128) := by
  obtain ⟨content, s, stats, ⟨ts, run⟩, honest, ok⟩ :=
    exists_twoBundles_ok (Nat.le_refl 128) (by decide)
  have assembles := download_assembled_iff run (twoBundlesPlan_central (by decide)) honest ok
  refine ⟨content, s, ⟨ts, run⟩, assembles, assembles.mpr fun bundle member => ?_⟩
  rw [List.mem_singleton.mp (show bundle ∈ [exampleBundle 0 (128 * volumeRawChunkSize)] from member)]
  show 128 * volumeRawChunkSize ≤ volumeBundleRawSize
  decide

/-- All checks pass, every request succeeds and `Ok` is returned, but the chunks of the long
bundle overlap those of the next one and the end of the file is never written. -/
theorem download_overlaps_silently :
    ∃ (content : HashId → Bytes) (s : Download) (stats : TransferStats),
      CentralPlan (twoBundlesPlan 129) ∧
      (downloadSystem (twoBundlesPlan 129) oneChunkStorages).Reachable s ∧
      HonestDownload content s ∧ s.result? (twoBundlesPlan 129) = some (.ok stats) ∧
      ¬ s.Assembled content (twoBundlesPlan 129) := by
  obtain ⟨content, s, stats, ⟨ts, run⟩, honest, ok⟩ :=
    exists_twoBundles_ok (by decide) (Nat.le_refl 129)
  have central : CentralPlan (twoBundlesPlan 129) := twoBundlesPlan_central (by decide)
  refine ⟨content, s, stats, central, ⟨ts, run⟩, honest, ok, fun assembled => ?_⟩
  obtain ⟨jobs, finished⟩ := finished_of_run run (result?_eq_ok ok).1 honest
  have fit := finished.fit_of_partitions central assembled.1
  have long : 129 * volumeRawChunkSize ≤ volumeBundleRawSize := fit _ List.mem_cons_self
  have positive : 0 < volumeRawChunkSize := by decide
  have sizes : volumeBundleRawSize = 128 * volumeRawChunkSize := by
    unfold volumeBundleRawSize volumeRawChunkSize
    omega
  omega

end Fs0
