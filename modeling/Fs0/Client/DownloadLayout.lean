import Fs0.Client.DownloadSchedule

/-!
Contract: where the chunks of a download lie in the local file.

Owns:
- the tiling of one bundle by the chunks of an honest listing;
- the tiling of the file by bundles of exactly the stride their offsets are computed
  from, and the overlap a longer bundle leads to.

Does not own: who answers the requests. The contents of the chunks are a parameter.
-/

set_option autoImplicit false

namespace Fs0

open Fs0.Lib

theorem exists_of_forall₂_left {α β : Type} {R : α → β → Prop} {left : List α} {right : List β}
    (related : List.Forall₂ R left right) {a : α} (member : a ∈ left) : ∃ b ∈ right, R a b := by
  induction related with
  | nil => cases member
  | cons here _ inductionHypothesis =>
      rcases List.mem_cons.mp member with rfl | member
      · exact ⟨_, List.mem_cons_self, here⟩
      · obtain ⟨b, inside, holds⟩ := inductionHypothesis member
        exact ⟨b, List.mem_cons_of_mem _ inside, holds⟩

/-! ## What a passed check says -/

/-- The job of chunk `index` of a bundle that starts at `offset`. -/
structure ChunkDownload.PlacedAt (job : ChunkDownload) (stride offset rawLen index : Nat) : Prop where
  inside : index * stride < rawLen
  length : job.rawLen = min stride (rawLen - index * stride)
  start : job.rawOffset = offset + index * stride

theorem chunkDownload_eq_ok {plan : FileReadPlan} {current : BundleDownload} {chunk : BundleChunkRef}
    {job : ChunkDownload} (passed : chunkDownload plan current chunk = .ok job) :
    job.PlacedAt volumeRawChunkSize current.bundleOffset current.bundle.rawLen chunk.chunkIndex ∧
      job.rawOffset + job.rawLen ≤ plan.size ∧
      job.storageId = current.storage.storageId ∧
      job.request = ⟨current.replica.volumeId, chunk.chunkId⟩ := by
  unfold chunkDownload at passed
  -- the size of a chunk plays no part below, and a literal would be unfolded
  generalize volumeRawChunkSize = stride at passed ⊢
  obtain ⟨chunkOffset, offset, passed⟩ := Fs0Result.bind_eq_ok.mp passed
  obtain ⟨-, rfl⟩ := checkedMul_eq_some.mp (okOr_eq_ok.mp offset)
  split at passed
  · cases passed
  · next inside =>
      obtain ⟨rawOffset, start, passed⟩ := Fs0Result.bind_eq_ok.mp passed
      obtain ⟨-, rfl⟩ := checkedAdd_eq_some.mp (okOr_eq_ok.mp start)
      split at passed
      · cases passed
      · next fits =>
          obtain rfl := Except.ok.inj passed
          exact ⟨⟨Nat.lt_of_not_le inside, rfl, rfl⟩,
            (checkedAdd_all_gt.mp (Bool.not_eq_true _ ▸ fits)).2, rfl, rfl⟩

/-- A chunk that starts inside its bundle and ends within the file passes every check. -/
theorem exists_chunkDownload {plan : FileReadPlan} {current : BundleDownload} {chunk : BundleChunkRef}
    (inside : chunk.chunkIndex * volumeRawChunkSize < current.bundle.rawLen)
    (fits : current.bundleOffset + chunk.chunkIndex * volumeRawChunkSize +
      min volumeRawChunkSize (current.bundle.rawLen - chunk.chunkIndex * volumeRawChunkSize) ≤ plan.size)
    (small : plan.size < u64Modulus) : ∃ job, chunkDownload plan current chunk = .ok job := by
  unfold chunkDownload
  generalize volumeRawChunkSize = stride at inside fits ⊢
  have product : checkedMul chunk.chunkIndex stride = some (chunk.chunkIndex * stride) :=
    checkedMul_eq_some.mpr ⟨by omega, rfl⟩
  have start : checkedAdd current.bundleOffset (chunk.chunkIndex * stride) =
      some (current.bundleOffset + chunk.chunkIndex * stride) :=
    checkedAdd_eq_some.mpr ⟨by omega, rfl⟩
  have within := checkedAdd_all_gt.mpr ⟨Nat.lt_of_le_of_lt fits small, fits⟩
  rw [product, okOr, Fs0Result.ok_bind, if_neg (Nat.not_le.mpr inside), start, okOr, Fs0Result.ok_bind]
  rw [within]
  exact ⟨_, rfl⟩

/-! ## Whose chunks are asked for -/

namespace Download

variable {plan : FileReadPlan} {storages : List StoragePeerInfo} {s : Download}

/-- A job asks for a chunk of a bundle that was listed. -/
theorem exists_listed {entries : List (FileBundleRef × List BundleChunkRef)}
    {jobs : List (List ChunkDownload)}
    (checked : List.Forall₂ (BundleJobs plan storages) entries jobs) {job : ChunkDownload}
    (member : job ∈ jobs.flatten) :
    ∃ entry ∈ entries, ∃ chunk ∈ entry.2, job.request.chunkId = chunk.chunkId := by
  obtain ⟨bundleJobs, among, inside⟩ := List.mem_flatten.mp member
  obtain ⟨entry, isEntry, passed⟩ := exists_of_forall₂_left checked.flip among
  obtain ⟨current, -, each⟩ := passed.checked
  obtain ⟨chunk, isChunk, checkedChunk⟩ := exists_of_forall₂_left each.flip inside
  obtain ⟨-, -, -, request⟩ := chunkDownload_eq_ok checkedChunk
  exact ⟨entry, isEntry, chunk, isChunk, by rw [request]⟩

theorem AtBundles.listed {rest : List FileBundleRef} (here : s.AtBundles plan storages rest)
    {job : ChunkDownload} (member : job ∈ s.jobs) : ∃ entry ∈ s.listed,
    entry.1 ∈ plan.bundles ∧ ∃ chunk ∈ entry.2, job.request.chunkId = chunk.chunkId := by
  obtain ⟨jobs, bundles, checked, same⟩ := here
  obtain ⟨entry, isEntry, asks⟩ := exists_listed checked (same.mem_iff.mp member)
  refine ⟨entry, isEntry, ?_, asks⟩
  rw [bundles]
  exact List.mem_append_left _ (List.mem_map_of_mem isEntry)

theorem AtChunks.listed {current : BundleDownload} {chunks : List BundleChunkRef}
    {rest : List FileBundleRef} (here : s.AtChunks plan storages current chunks rest)
    {job : ChunkDownload} (member : job ∈ s.jobs) : ∃ entry ∈ s.listed,
    entry.1 ∈ plan.bundles ∧ ∃ chunk ∈ entry.2, job.request.chunkId = chunk.chunkId := by
  obtain ⟨listed, scheduled, jobs, last, isListed, bundles, -, -, checked, each, same⟩ := here
  have inPlan : ∀ entry ∈ s.listed, entry.1 ∈ plan.bundles := by
    intro entry isEntry
    rw [bundles]
    exact List.mem_append_left _ (List.mem_map_of_mem isEntry)
  rcases List.mem_append.mp (same.mem_iff.mp member) with before | inLast
  · obtain ⟨entry, isEntry, asks⟩ := exists_listed checked before
    have among : entry ∈ s.listed := isListed ▸ List.mem_append_left _ isEntry
    exact ⟨entry, among, inPlan entry among, asks⟩
  · obtain ⟨chunk, isChunk, checkedChunk⟩ := exists_of_forall₂_left each.flip inLast
    obtain ⟨-, -, -, request⟩ := chunkDownload_eq_ok checkedChunk
    have among : (current.bundle, scheduled ++ chunks) ∈ s.listed :=
      isListed ▸ List.mem_append_right _ (List.mem_singleton_self _)
    exact ⟨_, among, inPlan _ among, chunk, List.mem_append_left _ isChunk, by rw [request]⟩

/-- Unless the loop was left with an error, a job asks for a chunk of a bundle that was listed. -/
theorem Scheduled.listed (scheduled : s.Scheduled plan storages)
    (clean : ∀ err, s.phase ≠ .returned (.error err)) {job : ChunkDownload}
    (member : job ∈ s.jobs) : ∃ entry ∈ s.listed,
    entry.1 ∈ plan.bundles ∧ ∃ chunk ∈ entry.2, job.request.chunkId = chunk.chunkId := by
  unfold Scheduled at scheduled
  split at scheduled
  · exact scheduled.listed member
  · exact scheduled.listed member
  · exact scheduled.listed member
  · exact scheduled.listed member
  · exact scheduled.listed member
  next err here => exact absurd here (clean err)

end Download

/-! ## One bundle -/

/-- The write a chunk leads to when the chunk with an id has these contents. -/
def ChunkDownload.patch (content : HashId → Bytes) (job : ChunkDownload) : Patch UInt8 :=
  ⟨job.rawOffset, content job.request.chunkId⟩

/-- The bytes of the chunks of a bundle, in the order of the listing. -/
def listingBytes (content : HashId → Bytes) (entry : FileBundleRef × List BundleChunkRef) : Bytes :=
  entry.2.flatMap fun chunk => content chunk.chunkId

/-- The listing numbers its chunks from zero, and their lengths add up to the bundle's. -/
structure HonestListing (content : HashId → Bytes) (entry : FileBundleRef × List BundleChunkRef) :
    Prop where
  indices : (entry.2.map BundleChunkRef.chunkIndex).Perm (List.range entry.2.length)
  rawLen : (listingBytes content entry).length = entry.1.rawLen

/-- The request for the chunk was answered with bytes of the length it was checked for. -/
def ChunkDownload.LengthOk (content : HashId → Bytes) (job : ChunkDownload) : Prop :=
  (content job.request.chunkId).length = job.rawLen

section Bundle

variable {plan : FileReadPlan} {storages : List StoragePeerInfo} {content : HashId → Bytes}

theorem patches_values {current : BundleDownload} {chunks : List BundleChunkRef}
    {jobs : List ChunkDownload}
    (checked : List.Forall₂ (fun chunk job => chunkDownload plan current chunk = .ok job) chunks jobs) :
    (jobs.map (ChunkDownload.patch content)).flatMap Patch.values =
      chunks.flatMap fun chunk => content chunk.chunkId := by
  induction checked with
  | nil => rfl
  | @cons chunk job chunks jobs passed _ inductionHypothesis =>
      obtain ⟨-, -, -, request⟩ := chunkDownload_eq_ok passed
      rw [List.map_cons, List.flatMap_cons, List.flatMap_cons, inductionHypothesis,
        ChunkDownload.patch, request]

/-- Chunks numbered from `index` tile the bundle from where `index` starts. -/
theorem chunks_tile {stride offset rawLen index : Nat} {chunks : List BundleChunkRef}
    {jobs : List ChunkDownload}
    (placed : List.Forall₂ (fun chunk job => job.PlacedAt stride offset rawLen chunk.chunkIndex)
      chunks jobs)
    (indices : chunks.map BundleChunkRef.chunkIndex = List.range' index chunks.length)
    (lengths : ∀ job ∈ jobs, job.LengthOk content) :
    Tiles (offset + min (index * stride) rawLen) (jobs.map (ChunkDownload.patch content))
      (offset + min ((index + chunks.length) * stride) rawLen) := by
  induction placed generalizing index with
  | nil => exact rfl
  | @cons chunk job chunks jobs place _ inductionHypothesis =>
      rw [List.map_cons, List.length_cons, List.range'_succ, List.cons.injEq] at indices
      obtain ⟨rfl, indices⟩ := indices
      have length : (content job.request.chunkId).length = job.rawLen :=
        lengths job List.mem_cons_self
      have rest := inductionHypothesis indices fun job member =>
        lengths job (List.mem_cons_of_mem _ member)
      have step : (chunk.chunkIndex + 1) * stride = chunk.chunkIndex * stride + stride :=
        Nat.succ_mul _ _
      have inside := place.inside
      rw [List.map_cons, List.length_cons]
      refine ⟨?_, ?_⟩
      · rw [ChunkDownload.patch, place.start, Nat.min_eq_left inside.le]
      · rw [show chunk.chunkIndex + (chunks.length + 1) = chunk.chunkIndex + 1 + chunks.length by omega]
        convert rest using 1
        rw [ChunkDownload.patch, length, place.length, step]
        omega

/-- The chunks of an honest listing that passed their checks tile their bundle. -/
theorem bundle_tile {entry : FileBundleRef × List BundleChunkRef} {jobs : List ChunkDownload}
    (checked : BundleJobs plan storages entry jobs) (honest : HonestListing content entry)
    (lengths : ∀ job ∈ jobs, job.LengthOk content) :
    Tiles (entry.1.bundleIndex * volumeBundleRawSize) (jobs.map (ChunkDownload.patch content))
      (entry.1.bundleIndex * volumeBundleRawSize + entry.1.rawLen) := by
  obtain ⟨sorted, current, started, passed⟩ := checked
  obtain ⟨sameBundle, offset, -⟩ := startBundle_bundle started
  have indices : entry.2.map BundleChunkRef.chunkIndex = List.range' 0 entry.2.length := by
    rw [← List.range_eq_range']
    refine honest.indices.eq_of_pairwise (fun a b _ _ => Nat.le_antisymm) ?_ ?_
    · exact List.pairwise_map.mpr sorted
    · exact List.pairwise_le_range
  have placed : List.Forall₂ (fun chunk job => ChunkDownload.PlacedAt job volumeRawChunkSize
      current.bundleOffset current.bundle.rawLen chunk.chunkIndex) entry.2 jobs :=
    passed.imp fun _ _ ok => (chunkDownload_eq_ok ok).1
  have tiles := chunks_tile placed indices lengths
  have stop := tiles.stop_eq
  rw [patches_values passed, show List.flatMap _ entry.2 = listingBytes content entry from rfl,
    honest.rawLen] at stop
  rw [stop, sameBundle, offset] at tiles
  simpa using tiles

/-- Each job of a listed bundle was checked to end within the file. -/
theorem bundleJobs_within {entry : FileBundleRef × List BundleChunkRef} {jobs : List ChunkDownload}
    (checked : BundleJobs plan storages entry jobs) (lengths : ∀ job ∈ jobs, job.LengthOk content) :
    ∀ job ∈ jobs, (job.patch content).extent.stop ≤ plan.size := by
  intro job member
  obtain ⟨-, current, -, passed⟩ := checked
  obtain ⟨index, below, rfl⟩ := List.getElem_of_mem member
  have length := passed.length_eq
  obtain ⟨-, fits, -⟩ := chunkDownload_eq_ok (passed.get (by omega) below)
  have exact := lengths _ member
  rw [ChunkDownload.LengthOk] at exact
  rw [List.get_eq_getElem] at fits
  rw [ChunkDownload.patch, Patch.extent, Extent.stop, exact]
  exact fits

/-- A bundle that is not empty was checked to end within the file. -/
theorem bundle_fits {entry : FileBundleRef × List BundleChunkRef} {jobs : List ChunkDownload}
    (checked : BundleJobs plan storages entry jobs) (honest : HonestListing content entry)
    (lengths : ∀ job ∈ jobs, job.LengthOk content) (nonempty : 0 < entry.1.rawLen) :
    entry.1.bundleIndex * volumeBundleRawSize + entry.1.rawLen ≤ plan.size := by
  have tiles := bundle_tile checked honest lengths
  obtain ⟨e, member, -, upper⟩ := (tiles.partitions.covers
    (entry.1.bundleIndex * volumeBundleRawSize + entry.1.rawLen - 1)).mp (by omega)
  obtain ⟨w, inPatches, rfl⟩ := List.mem_map.mp member
  obtain ⟨job, inJobs, rfl⟩ := List.mem_map.mp inPatches
  have within := bundleJobs_within checked lengths job inJobs
  omega

end Bundle

/-! ## All bundles -/

/-- What central guarantees of a read plan: the bundles are numbered from zero in order,
their lengths add up to the file's, and none of them is empty. -/
structure CentralPlan (plan : FileReadPlan) : Prop where
  indices : plan.bundles.map FileBundleRef.bundleIndex = List.range plan.bundles.length
  size : (plan.bundles.map FileBundleRef.rawLen).sum = plan.size
  nonempty : ∀ bundle ∈ plan.bundles, 0 < bundle.rawLen

/-- Only the last bundle may be longer than the stride of the bundle offsets. -/
def BundlesFitStride (plan : FileReadPlan) : Prop :=
  ∀ bundle ∈ plan.bundles.dropLast, bundle.rawLen ≤ volumeBundleRawSize

section Bundles

variable {content : HashId → Bytes} {stride : Nat}

/-- The jobs of a bundle tile it, wherever it starts. -/
def TilesBundle (content : HashId → Bytes) (stride : Nat) (bundle : FileBundleRef)
    (jobs : List ChunkDownload) : Prop :=
  Tiles (bundle.bundleIndex * stride) (jobs.map (ChunkDownload.patch content))
    (bundle.bundleIndex * stride + bundle.rawLen)

theorem sum_le_length_mul {lens : List Nat} (bounded : ∀ len ∈ lens, len ≤ stride) :
    lens.sum ≤ lens.length * stride := by
  induction lens with
  | nil => simp
  | cons len lens inductionHypothesis =>
      have head := bounded len List.mem_cons_self
      have tail := inductionHypothesis fun len member => bounded len (List.mem_cons_of_mem _ member)
      rw [List.sum_cons, List.length_cons, Nat.succ_mul]
      omega

/-- Summands bounded by their average are all equal to it. -/
theorem eq_of_mul_length_le_sum {lens : List Nat} (bounded : ∀ len ∈ lens, len ≤ stride)
    (total : lens.length * stride ≤ lens.sum) : ∀ len ∈ lens, len = stride := by
  induction lens with
  | nil => simp
  | cons len lens inductionHypothesis =>
      have head : len ≤ stride := bounded len List.mem_cons_self
      have tail : ∀ len ∈ lens, len ≤ stride := fun len member =>
        bounded len (List.mem_cons_of_mem _ member)
      have rest := sum_le_length_mul tail
      rw [List.length_cons, List.sum_cons, Nat.succ_mul] at total
      intro x member
      rcases List.mem_cons.mp member with rfl | member
      · omega
      · exact inductionHypothesis tail (by omega) x member

/-- Bundles of exactly the stride, but the last, tile the file. -/
theorem bundles_tile {bundles : List FileBundleRef} {jobs : List (List ChunkDownload)} {index : Nat}
    (tiles : List.Forall₂ (TilesBundle content stride) bundles jobs)
    (indices : bundles.map FileBundleRef.bundleIndex = List.range' index bundles.length)
    (full : ∀ bundle ∈ bundles.dropLast, bundle.rawLen = stride) :
    Tiles (index * stride) (jobs.flatten.map (ChunkDownload.patch content))
      (index * stride + (bundles.map FileBundleRef.rawLen).sum) := by
  induction tiles generalizing index with
  | nil => exact rfl
  | @cons bundle first bundles jobs here rest inductionHypothesis =>
      rw [List.map_cons, List.length_cons, List.range'_succ, List.cons.injEq] at indices
      obtain ⟨rfl, indices⟩ := indices
      rw [List.flatten_cons, List.map_append, List.map_cons, List.sum_cons, ← Nat.add_assoc]
      refine Tiles.append here ?_
      cases rest with
      | nil => exact rfl
      | @cons next second bundles jobs _ _ =>
          have length : bundle.rawLen = stride := full bundle List.mem_cons_self
          have tail := inductionHypothesis indices fun bundle member =>
            full bundle (List.mem_cons_of_mem _ member)
          rw [Nat.succ_mul] at tail
          rw [length]
          exact tail

/-- A bundle longer than the stride overlaps the next one. -/
theorem overlap_of_long {bundles : List FileBundleRef} {jobs : List (List ChunkDownload)} {index : Nat}
    (tiles : List.Forall₂ (TilesBundle content stride) bundles jobs)
    (indices : bundles.map FileBundleRef.bundleIndex = List.range' index bundles.length)
    (nonempty : ∀ bundle ∈ bundles, 0 < bundle.rawLen)
    (disjoint : (jobs.flatten.map fun job => (job.patch content).extent).Pairwise Extent.Disjoint) :
    ∀ bundle ∈ bundles.dropLast, bundle.rawLen ≤ stride := by
  induction tiles generalizing index with
  | nil => simp
  | @cons bundle first bundles jobs here rest inductionHypothesis =>
      rw [List.map_cons, List.length_cons, List.range'_succ, List.cons.injEq] at indices
      obtain ⟨rfl, indices⟩ := indices
      rw [List.flatten_cons, List.map_append, List.pairwise_append] at disjoint
      obtain ⟨-, later, apart⟩ := disjoint
      have tail := inductionHypothesis indices
        (fun bundle member => nonempty bundle (List.mem_cons_of_mem _ member)) later
      cases rest with
      | nil => simp
      | @cons next second bundles jobs there _ =>
          rw [List.map_cons, List.length_cons, List.range'_succ, List.cons.injEq] at indices
          have nextNonempty := nonempty next (by simp)
          intro member inside
          rw [List.dropLast_cons_of_ne_nil (by simp), List.mem_cons] at inside
          rcases inside with rfl | inside
          · by_contra long
            -- the first address of the next bundle belongs to chunks of both
            have stop : next.bundleIndex * stride = member.bundleIndex * stride + stride := by
              rw [indices.1, Nat.succ_mul]
            obtain ⟨e, inFirst, containsFirst⟩ :=
              (here.partitions.covers (next.bundleIndex * stride)).mp (by omega)
            obtain ⟨e', inSecond, containsSecond⟩ :=
              (there.partitions.covers (next.bundleIndex * stride)).mp (by omega)
            rw [List.map_map] at inFirst inSecond
            have distinct := apart e inFirst e' (by
              rw [List.flatten_cons, List.map_append]
              exact List.mem_append_left _ inSecond)
            exact distinct.not_contains containsFirst containsSecond
          · exact tail member inside

end Bundles

end Fs0
