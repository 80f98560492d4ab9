import Fs0.Client.CutFiles
import Fs0.Client.ServedDownloads
import Fs0.Volume.Integrity
import Mathlib.Data.Set.Function

/-!
Contract: what is uploaded is what is downloaded.

Owns:
- `decompress_chunk` and `download_chunk_job`, and what a chunk that passes them is;
- that a hash without collisions determines the chunks of a bundle and their bytes;
- that a download of the plan of an upload, all of whose requests succeed, returns `Ok` and
  leaves the bytes that were uploaded.

Does not own: the plan, which central answers, and the storages.
-/

set_option autoImplicit false

namespace Fs0

open Fs0.Lib Fallible

/-! ## Chunk requests -/

section Jobs

variable (blake3 : Bytes → HashId) (zstdDecompress : Bytes → Nat → Fs0Result Bytes)

/-- `decompress_chunk`. -/
def decompressChunk (chunkId : HashId) (compressedBytes : Bytes) : Fs0Result Bytes := do
  let raw ← zstdDecompress compressedBytes volumeRawChunkSize
  if volumeRawChunkSize < raw.length ∨ blake3 raw ≠ chunkId then .error (.hashMismatch 0)
  else return raw

/-- `download_chunk_job`, for what the storage answered. -/
def downloadChunkJob (request : DownloadChunkRequest) (answer : Fs0Result Bytes) :
    Fs0Result DownloadChunkResult := do
  let compressedBytes ← answer
  let rawBytes ← decompressChunk blake3 zstdDecompress request.chunkId compressedBytes
  return ⟨request.chunkId, rawBytes⟩

end Jobs

section Checked

variable {blake3 : Bytes → HashId} {zstdDecompress : Bytes → Nat → Fs0Result Bytes}

theorem decompressChunk_eq_ok {chunkId : HashId} {compressedBytes raw : Bytes} :
    decompressChunk blake3 zstdDecompress chunkId compressedBytes = .ok raw ↔
      zstdDecompress compressedBytes volumeRawChunkSize = .ok raw ∧
        raw.length ≤ volumeRawChunkSize ∧ blake3 raw = chunkId := by
  unfold decompressChunk
  rw [Fs0Result.bind_eq_ok]
  constructor
  · rintro ⟨bytes, decompressed, checked⟩
    split at checked
    · cases checked
    · next passed =>
        obtain rfl := Except.ok.inj checked
        obtain ⟨short, same⟩ := not_or.mp passed
        exact ⟨decompressed, Nat.not_lt.mp short, not_not.mp same⟩
  · rintro ⟨decompressed, short, same⟩
    refine ⟨raw, decompressed, ?_⟩
    rw [if_neg (not_or.mpr ⟨Nat.not_lt.mpr short, not_not.mpr same⟩)]
    rfl

/-- Whatever the storage answered, a chunk that is returned has the hash it was asked for. -/
theorem downloadChunkJob_eq_ok {request : DownloadChunkRequest} {answer : Fs0Result Bytes}
    {result : DownloadChunkResult}
    (returned : downloadChunkJob blake3 zstdDecompress request answer = .ok result) :
    result.chunkId = request.chunkId ∧ blake3 result.rawBytes = request.chunkId ∧
      result.rawBytes.length ≤ volumeRawChunkSize := by
  obtain ⟨compressedBytes, -, returned⟩ := Fs0Result.bind_eq_ok.mp returned
  obtain ⟨rawBytes, decompressed, returned⟩ := Fs0Result.bind_eq_ok.mp returned
  obtain rfl := Except.ok.inj returned
  obtain ⟨-, short, same⟩ := decompressChunk_eq_ok.mp decompressed
  exact ⟨rfl, same, short⟩

end Checked

/-! ## Bundles and their hashes -/

/-- What `bundle_hash_from_chunks` hashes. -/
def chunkIdBytes (chunks : List BundleChunkRef) : Bytes :=
  chunks.flatMap fun chunk => chunk.chunkId.bytes

/-- Ids are of one length, so a list of chunks is determined by the bytes of its ids. -/
theorem chunks_of_chunkIdBytes {start : Nat} {left right : List BundleChunkRef}
    (leftIndexes : Volume.contiguousFrom start left = true)
    (rightIndexes : Volume.contiguousFrom start right = true)
    (same : chunkIdBytes left = chunkIdBytes right) : left = right := by
  have idLength : ∀ chunk : BundleChunkRef, chunk.chunkId.bytes.length = 32 :=
    fun chunk => chunk.chunkId.length_bytes
  induction left generalizing start right with
  | nil =>
      cases right with
      | nil => rfl
      | cons chunk rest =>
          have lengths := congrArg List.length same
          rw [chunkIdBytes, chunkIdBytes, List.flatMap_nil, List.flatMap_cons, List.length_append,
            idLength, List.length_nil] at lengths
          omega
  | cons chunk rest inductionHypothesis =>
      cases right with
      | nil =>
          have lengths := congrArg List.length same
          rw [chunkIdBytes, chunkIdBytes, List.flatMap_nil, List.flatMap_cons, List.length_append,
            idLength, List.length_nil] at lengths
          omega
      | cons other others =>
          rw [Volume.contiguousFrom, Bool.and_eq_true, beq_iff_eq] at leftIndexes rightIndexes
          obtain ⟨leftIndex, leftRest⟩ := leftIndexes
          obtain ⟨rightIndex, rightRest⟩ := rightIndexes
          obtain ⟨sameId, sameRest⟩ := List.append_inj same ((idLength chunk).trans (idLength other).symm)
          obtain rfl := inductionHypothesis leftRest rightRest sameRest
          obtain ⟨index, id⟩ := chunk
          obtain ⟨otherIndex, otherId⟩ := other
          obtain rfl : index = otherIndex := leftIndex.trans rightIndex.symm
          obtain rfl : id = otherId := HashId.ext_bytes sameId
          rfl

theorem contiguousFrom_chunkRefs (blake3 : Bytes → HashId) (pieces : List Bytes) :
    Volume.contiguousFrom 0 (chunkRefs blake3 pieces) = true := by
  rw [Volume.contiguousFrom_eq_true, chunkRefs_length, chunkRefs]
  refine List.ext_getElem (by simp) fun index _ _ => ?_
  simp

/-! ## The plan of an upload -/

/-- A plan lists the bundles of an upload in their order. -/
structure FileReadPlan.Lists (plan : FileReadPlan) (scan : UploadScan) : Prop where
  size : plan.size = scan.newSize
  bundles : plan.bundles.map (fun bundle => (bundle.bundleIndex, bundle.bundleId, bundle.rawLen)) =
    scan.uploadBundles.mapIdx fun index bundle => (index, bundle.bundleId, bundle.rawLen)

/-- The pieces of a bundle, by its number. -/
def piecesOf (closed : List (List Bytes)) (bundle : FileBundleRef) : List Bytes :=
  closed[bundle.bundleIndex]?.getD []

section Plan

variable {blake3 : Bytes → HashId} {target : UploadTarget} {content : Bytes} {scan : UploadScan}
  {closed : List (List Bytes)} {plan : FileReadPlan} {storages : List StoragePeerInfo}

theorem Cut.planned (cut : Cut blake3 target content scan closed) (lists : plan.Lists scan)
    {bundle : FileBundleRef} (member : bundle ∈ plan.bundles) :
    closed[bundle.bundleIndex]? = some (piecesOf closed bundle) ∧
      bundle.bundleId = bundleHashFromChunks blake3 (chunkRefs blake3 (piecesOf closed bundle)) ∧
      bundle.rawLen = totalLength (piecesOf closed bundle) := by
  have among := List.mem_map_of_mem
    (f := fun bundle => (bundle.bundleIndex, bundle.bundleId, bundle.rawLen)) member
  rw [lists.bundles, cut.bundles] at among
  obtain ⟨index, below, same⟩ := List.mem_mapIdx.mp among
  rw [List.length_map] at below
  rw [List.getElem_map] at same
  obtain ⟨isIndex, same⟩ := Prod.mk.inj same
  obtain ⟨isId, isLen⟩ := Prod.mk.inj same
  have here : closed[bundle.bundleIndex]? = some closed[index] := by
    rw [← isIndex]
    exact List.getElem?_eq_getElem below
  have pieces : piecesOf closed bundle = closed[index] := by
    rw [piecesOf, here]
    rfl
  rw [pieces]
  exact ⟨here, isId.symm, isLen.symm⟩

theorem Cut.mem_uploadBundles (cut : Cut blake3 target content scan closed)
    (lists : plan.Lists scan) {bundle : FileBundleRef} (member : bundle ∈ plan.bundles) :
    bundleOfPieces blake3 (piecesOf closed bundle) ∈ scan.uploadBundles := by
  rw [cut.bundles]
  exact List.mem_map_of_mem (List.mem_of_getElem? (cut.planned lists member).1)

/-- The bundles of the plan have the pieces of the file. -/
theorem Cut.pieces_eq (cut : Cut blake3 target content scan closed) (lists : plan.Lists scan) :
    plan.bundles.map (piecesOf closed) = closed := by
  have indexes : plan.bundles.map FileBundleRef.bundleIndex = List.range closed.length := by
    have firsts := congrArg (List.map Prod.fst) lists.bundles
    rw [List.map_map] at firsts
    refine firsts.trans (List.ext_getElem (by simp [cut.bundles]) fun index _ _ => ?_)
    simp
  have byIndex : plan.bundles.map (piecesOf closed) =
      (plan.bundles.map FileBundleRef.bundleIndex).map fun index => closed[index]?.getD [] := by
    rw [List.map_map]
    rfl
  rw [byIndex, indexes]
  refine List.ext_getElem (by simp) fun index _ below => ?_
  simp [List.getElem?_eq_getElem below]

theorem mem_chunkRefs {pieces : List Bytes} {chunk : BundleChunkRef}
    (member : chunk ∈ chunkRefs blake3 pieces) :
    ∃ piece, pieces[chunk.chunkIndex]? = some piece ∧ chunk.chunkId = blake3 piece := by
  obtain ⟨index, below, rfl⟩ := List.mem_mapIdx.mp member
  exact ⟨pieces[index], List.getElem?_eq_getElem below, rfl⟩

/-- Every check of the download passes for the bundles of the upload. -/
theorem Cut.bundleChecked (cut : Cut blake3 target content scan closed) (lists : plan.Lists scan)
    (known : ∀ bundle ∈ plan.bundles, (findReplica storages bundle.replicas).isSome)
    {stored : HashId → Bytes}
    (contents : ∀ pieces ∈ closed, ∀ piece ∈ pieces, stored (blake3 piece) = piece) :
    ∀ bundle ∈ plan.bundles, BundleChecked plan storages stored
      (fun bundle => chunkRefs blake3 (piecesOf closed bundle)) bundle := by
  intro bundle member
  obtain ⟨here, -, rawLen⟩ := cut.planned lists member
  have among := List.mem_of_getElem? here
  have ends := bundle_placed cut.bundleLens here
  have size : plan.size = totalLength closed.flatten := by
    rw [lists.size, cut.newSize, cut.whole, length_flatten_pieces]
  have small : plan.size < u64Modulus := by
    rw [lists.size, cut.newSize]
    exact cut.small
  obtain ⟨⟨replica, storage⟩, found⟩ := Option.isSome_iff_exists.mp (known bundle member)
  have started : startBundle storages bundle =
      .ok ⟨bundle, bundle.bundleIndex * volumeBundleRawSize, replica, storage⟩ := by
    have product : checkedMul bundle.bundleIndex volumeBundleRawSize =
        some (bundle.bundleIndex * volumeBundleRawSize) :=
      checkedMul_eq_some.mpr ⟨by omega, rfl⟩
    rw [startBundle, product, found]
    rfl
  refine ⟨_, started, fun chunk inside => ?_⟩
  obtain ⟨piece, isPiece, isId⟩ := mem_chunkRefs inside
  have pieceMember := List.mem_of_getElem? isPiece
  obtain ⟨inBundle, length⟩ := (cut.chunkLens _ among).placed isPiece
  rw [← rawLen] at inBundle length ends
  have fits : bundle.bundleIndex * volumeBundleRawSize + chunk.chunkIndex * volumeRawChunkSize +
      min volumeRawChunkSize (bundle.rawLen - chunk.chunkIndex * volumeRawChunkSize) ≤ plan.size := by
    have within := Nat.min_le_right volumeRawChunkSize
      (bundle.rawLen - chunk.chunkIndex * volumeRawChunkSize)
    rw [size]
    omega
  have passes : ∃ job, chunkDownload plan
      ⟨bundle, bundle.bundleIndex * volumeBundleRawSize, replica, storage⟩ chunk = .ok job :=
    exists_chunkDownload inBundle fits small
  obtain ⟨job, passed⟩ := passes
  obtain ⟨placed, -, -, request⟩ := chunkDownload_eq_ok passed
  refine ⟨job, passed, ?_⟩
  rw [ChunkDownload.LengthOk, request, isId, contents _ among piece pieceMember, placed.length, length]

end Plan

/-! ## Answers -/

/-- What a volume lists for a bundle has passed the checks of `commit_bundle`. -/
theorem Volume.listed_checked {blake3 : Bytes → HashId} {v : Volume} {bundleId : HashId}
    {chunks : List BundleChunkRef} (reachable : (volume blake3).Reachable v)
    (listed : outcome (Volume.listBundleChunks bundleId v.db) = .ok chunks) :
    Volume.checkBundle blake3 bundleId chunks = .ok () := by
  have unfolded : Volume.listBundleChunks bundleId v.db =
      (require (v.tables.chunkList bundleId ≠ []) (.bundleNotFound bundleId) >>= fun _ =>
        pure (v.tables.chunkList bundleId)) v.db := rfl
  have ran := eq_ok_of_outcome listed
  rw [unfolded, require_bind_eq_ok] at ran
  obtain ⟨nonempty, same⟩ := ran
  have isList : v.tables.chunkList bundleId = chunks := (EStateM.Result.ok.inj same).1
  have has : v.tables.HasBundle bundleId := by
    rw [VolumeTables.hasBundle_iff]
    intro none
    refine nonempty ?_
    unfold VolumeTables.chunkList VolumeTables.bundleChunksOf
    rw [show v.tables.bundleChunks.rows.filter (fun row => row.bundleId = bundleId) = [] from none]
    rfl
  rw [← isList]
  exact ((Volume.reachable_bundled reachable).chunkList_eq has).2

section Answers

variable (blake3 : Bytes → HashId) (zstdDecompress : Bytes → Nat → Fs0Result Bytes)
  (strings : Set Bytes)

/-- Every request succeeds, whatever the answer is: a bundle is listed by a volume, in some state
of a run of it, and a chunk passes the checks of the session. No write of the local file fails.
What is hashed is among the strings. -/
def DownloadEvent.Succeeds (s : Download) : DownloadEvent → Prop
  | .listBundle result => ∀ bundle rest, s.phase = .bundles (bundle :: rest) →
      ∃ v chunks, (volume blake3).Reachable v ∧ result = .ok chunks ∧
        outcome (Volume.listBundleChunks bundle.bundleId v.db) = .ok chunks ∧
        chunkIdBytes chunks ∈ strings
  | .enqueued result => result = .ok ()
  | .callback index result => ∀ job, s.pending[index]? = some job →
      ∃ request answer chunk, request.chunkId = job.request.chunkId ∧ result = .ok chunk ∧
        downloadChunkJob blake3 zstdDecompress request answer = .ok chunk ∧
        chunk.rawBytes ∈ strings
  | .writeFails _ _ => False
  | .writerEnds flush => flush = .ok ()
  | _ => True

end Answers

section RoundTrip

variable {blake3 : Bytes → HashId} {zstdDecompress : Bytes → Nat → Fs0Result Bytes}
  {strings : Set Bytes} {target : UploadTarget} {content : Bytes} {scan : UploadScan}
  {closed : List (List Bytes)} {plan : FileReadPlan} {storages : List StoragePeerInfo}

/-- What a successful answer is, when no two of the strings have the same hash. -/
theorem Cut.served (cut : Cut blake3 target content scan closed) (lists : plan.Lists scan)
    (hashed : scan.HashedIn content strings) (free : Set.InjOn blake3 strings)
    {s : Download} {e : DownloadEvent} (scheduled : s.Scheduled plan storages)
    (succeeds : e.Succeeds blake3 zstdDecompress strings s) :
    e.Served (Function.invFunOn blake3 strings)
      (fun bundle => chunkRefs blake3 (piecesOf closed bundle)) s := by
  cases e with
  | listBundle result =>
      intro bundle rest here
      obtain ⟨v, chunks, reachable, rfl, listed, among⟩ := succeeds bundle rest here
      refine ⟨chunks, rfl, ?_⟩
      obtain ⟨-, contiguous, isHash⟩ :=
        Volume.checkBundle_eq_ok.mp (Volume.listed_checked reachable listed)
      have planned : bundle ∈ plan.bundles := by
        rw [Download.Scheduled, here] at scheduled
        obtain ⟨jobs, bundles, -⟩ := scheduled
        rw [bundles]
        exact List.mem_append_right _ List.mem_cons_self
      obtain ⟨-, isId, -⟩ := cut.planned lists planned
      have ours : chunkIdBytes (chunkRefs blake3 (piecesOf closed bundle)) ∈ strings :=
        hashed.bundles _ (cut.mem_uploadBundles lists planned)
      have sameBytes := free among ours (isHash.trans isId)
      rw [chunks_of_chunkIdBytes contiguous (contiguousFrom_chunkRefs blake3 _) sameBytes]
  | callback index result =>
      intro job found
      obtain ⟨request, answer, chunk, same, rfl, checked, among⟩ := succeeds job found
      obtain ⟨isId, isHash, -⟩ := downloadChunkJob_eq_ok checked
      have bytes := free.leftInvOn_invFunOn among
      rw [isHash, same] at bytes
      rw [same] at isId
      obtain ⟨chunkId, rawBytes⟩ := chunk
      obtain rfl : chunkId = job.request.chunkId := isId
      rw [bytes]
  | writeFails torn err => cases succeeds
  | enqueued result => exact succeeds
  | writerEnds flush => exact succeeds
  | _ => trivial

/-- The events of a download, from the chunks of the upload. -/
theorem Cut.bundlesWork_eq (cut : Cut blake3 target content scan closed)
    (lists : plan.Lists scan) :
    Download.bundlesWork (fun bundle => chunkRefs blake3 (piecesOf closed bundle)) plan.bundles =
      2 * plan.bundles.length + 4 * scan.enqueued.length := by
  have jobs : scan.enqueued.length = (closed.map List.length).sum := by
    have lens : scan.enqueued.map UploadChunkJob.rawLen = closed.flatten.map List.length := by
      rw [cut.enqueued, jobsOfPieces_rawLen]
    have lengths := congrArg List.length lens
    rw [List.length_map, List.length_map, List.length_flatten] at lengths
    exact lengths
  have count : ∀ bundles : List FileBundleRef,
      Download.bundlesWork (fun bundle => chunkRefs blake3 (piecesOf closed bundle)) bundles =
        2 * bundles.length + 4 * ((bundles.map (piecesOf closed)).map List.length).sum := by
    intro bundles
    induction bundles with
    | nil => rfl
    | cons bundle rest inductionHypothesis =>
        rw [Download.bundlesWork] at inductionHypothesis ⊢
        rw [List.map_cons, List.sum_cons, inductionHypothesis, Download.bundleWork,
          chunkRefs_length, List.length_cons, List.map_cons, List.map_cons, List.sum_cons]
        omega
  rw [count, cut.pieces_eq lists, jobs]

/-- A sorted listing of a bundle of the upload is the listing of its pieces. -/
theorem listing_eq {pieces : List Bytes} {chunks : List BundleChunkRef}
    (sorted : chunks.Pairwise fun left right => left.chunkIndex ≤ right.chunkIndex)
    (same : chunks.Perm (chunkRefs blake3 pieces)) : chunks = chunkRefs blake3 pieces := by
  refine same.eq_of_pairwise ?_ sorted ?_
  · intro left right inLeft inRight first second
    obtain ⟨leftPiece, isLeft, leftId⟩ := mem_chunkRefs (same.mem_iff.mp inLeft)
    obtain ⟨rightPiece, isRight, rightId⟩ := mem_chunkRefs inRight
    have sameIndex := Nat.le_antisymm first second
    rw [sameIndex, isRight] at isLeft
    obtain rfl := Option.some.inj isLeft
    obtain ⟨leftIndex, leftChunk⟩ := left
    obtain ⟨rightIndex, rightChunk⟩ := right
    obtain rfl : leftIndex = rightIndex := sameIndex
    obtain rfl : leftChunk = rightChunk := leftId.trans rightId.symm
    rfl
  · have indexes := Volume.contiguousFrom_eq_true.mp (contiguousFrom_chunkRefs blake3 pieces)
    have upward : ((chunkRefs blake3 pieces).map BundleChunkRef.chunkIndex).Pairwise (· ≤ ·) := by
      rw [indexes]
      exact (List.pairwise_lt_range' 1).imp fun less => le_of_lt less
    exact List.pairwise_map.mp upward

theorem listingBytes_chunkRefs {stored : HashId → Bytes} {pieces : List Bytes}
    (contents : ∀ piece ∈ pieces, stored (blake3 piece) = piece) (bundle : FileBundleRef) :
    listingBytes stored (bundle, chunkRefs blake3 pieces) = pieces.flatten := by
  have ids : (chunkRefs blake3 pieces).map BundleChunkRef.chunkId = pieces.map blake3 := by
    refine List.ext_getElem (by simp) fun index _ _ => ?_
    simp [chunkRefs]
  have byId : listingBytes stored (bundle, chunkRefs blake3 pieces) =
      (((chunkRefs blake3 pieces).map BundleChunkRef.chunkId).map stored).flatten := by
    rw [listingBytes, List.flatMap_def, List.map_map]
    rfl
  have same : pieces.map (stored ∘ blake3) = pieces.map id := List.map_congr_left contents
  rw [byId, ids, List.map_map, same, List.map_id]

/-- What a finished download has listed, and what it takes the chunks for. -/
theorem Cut.honest (cut : Cut blake3 target content scan closed) (lists : plan.Lists scan)
    {stored : HashId → Bytes}
    (contents : ∀ pieces ∈ closed, ∀ piece ∈ pieces, stored (blake3 piece) = piece)
    {s : Download} (smooth : s.Smooth plan storages stored
      fun bundle => chunkRefs blake3 (piecesOf closed bundle))
    (scheduled : s.AtBundles plan storages []) :
    HonestDownload stored s ∧ s.listedBytes stored = content := by
  obtain ⟨jobs, bundles, checked, -⟩ := scheduled
  rw [List.append_nil] at bundles
  have each : ∀ entry ∈ s.listed, entry.1 ∈ plan.bundles ∧
      entry = (entry.1, chunkRefs blake3 (piecesOf closed entry.1)) := by
    intro entry member
    obtain ⟨_, -, passed⟩ := exists_of_forall₂_left checked member
    refine ⟨bundles ▸ List.mem_map_of_mem member, ?_⟩
    exact Prod.ext rfl (listing_eq passed.sorted (smooth.listings entry member))
  have bytes : ∀ entry ∈ s.listed,
      listingBytes stored entry = (piecesOf closed entry.1).flatten := by
    intro entry member
    obtain ⟨planned, same⟩ := each entry member
    have among := List.mem_of_getElem? (cut.planned lists planned).1
    rw [same]
    exact listingBytes_chunkRefs (contents _ among) entry.1
  refine ⟨⟨smooth.delivered, smooth.contents, fun entry member => ⟨?_, ?_⟩⟩, ?_⟩
  · obtain ⟨-, same⟩ := each entry member
    have indexes := Volume.contiguousFrom_eq_true.mp
      (contiguousFrom_chunkRefs blake3 (piecesOf closed entry.1))
    rw [same, indexes, List.range_eq_range']
  · obtain ⟨planned, -⟩ := each entry member
    rw [bytes entry member, (cut.planned lists planned).2.2, length_flatten_pieces]
  · have parts : s.listed.map (listingBytes stored) =
        (plan.bundles.map (piecesOf closed)).map List.flatten := by
      rw [bundles, List.map_map, List.map_map]
      exact List.map_congr_left bytes
    rw [Download.listedBytes, List.flatMap_def, parts, cut.pieces_eq lists, cut.whole,
      List.flatten_flatten]

end RoundTrip

section Uploaded

variable {blake3 : Bytes → HashId} {zstdDecompress : Bytes → Nat → Fs0Result Bytes}
  {strings : Set Bytes} {target : UploadTarget} {content : Bytes} {scan : UploadScan}
  {closed : List (List Bytes)} {plan : FileReadPlan} {storages : List StoragePeerInfo}

theorem Cut.checked (cut : Cut blake3 target content scan closed) (lists : plan.Lists scan)
    (known : ∀ bundle ∈ plan.bundles, (findReplica storages bundle.replicas).isSome)
    (hashed : scan.HashedIn content strings) (free : Set.InjOn blake3 strings) :
    ∀ bundle ∈ plan.bundles, BundleChecked plan storages (Function.invFunOn blake3 strings)
      (fun bundle => chunkRefs blake3 (piecesOf closed bundle)) bundle :=
  cut.bundleChecked lists known fun _ member _ inside =>
    free.leftInvOn_invFunOn (cut.piece_mem hashed member inside)

theorem Cut.served_run (cut : Cut blake3 target content scan closed) (lists : plan.Lists scan)
    (hashed : scan.HashedIn content strings) (free : Set.InjOn blake3 strings)
    {ts : List (Transition Download DownloadEvent)} {s : Download}
    (run : (downloadSystem plan storages).Run ts s)
    (succeeds : ∀ t ∈ ts, t.event.Succeeds blake3 zstdDecompress strings t.pre) :
    ∀ t ∈ ts, t.event.Served (Function.invFunOn blake3 strings)
      (fun bundle => chunkRefs blake3 (piecesOf closed bundle)) t.pre := by
  intro t member
  obtain ⟨⟨_, before⟩, -⟩ := run.of_mem member
  exact cut.served lists hashed free (Download.scheduled_run before) (succeeds t member)

variable {ts : List (Transition Download DownloadEvent)} {s : Download}

/-- A download has no more events than the bundles and chunks of the upload lead to. -/
theorem Cut.length_le (cut : Cut blake3 target content scan closed) (lists : plan.Lists scan)
    (known : ∀ bundle ∈ plan.bundles, (findReplica storages bundle.replicas).isSome)
    (hashed : scan.HashedIn content strings) (free : Set.InjOn blake3 strings)
    (run : (downloadSystem plan storages).Run ts s)
    (succeeds : ∀ t ∈ ts, t.event.Succeeds blake3 zstdDecompress strings t.pre) :
    ts.length ≤ 2 * plan.bundles.length + 4 * scan.enqueued.length + 3 := by
  have bounded := Download.work_run run (cut.checked lists known hashed free)
    (cut.served_run lists hashed free run succeeds)
  rw [cut.bundlesWork_eq lists] at bounded
  omega

end Uploaded

namespace RoundTripScenario

open TwoChunks

def bundleId : HashId := bundle.bundleId

/-- Storage 2 holds the bundle in volume 1. -/
def plan : FileReadPlan where
  fileId := 1
  path := "/a"
  size := volumeRawChunkSize + 3
  bundles := [⟨0, volumeRawChunkSize + 3, 9, bundleId, [⟨2, 1⟩]⟩]

def storages : List StoragePeerInfo := [⟨2, "s", [], []⟩]

/-- The chunks are put and the bundle is committed. The full chunk was compressed to one byte. -/
def storing : List VolumeEvent :=
  Volume.Scenario.stored 1 (.repeating 0) volumeRawChunkSize [1] ++
    Volume.Scenario.stored 2 (lengthHash [1, 2, 3]) 3 [1, 2, 3] ++
    [.commitBundle bundleId bundle.chunks none]

/-- The two chunks and the ids of the bundle. -/
def strings (first : Bytes) : Set Bytes := {first, [1, 2, 3], chunkIdBytes bundle.chunks}

variable {first : Bytes}

theorem free (isChunk : first.length = volumeRawChunkSize) :
    Set.InjOn lengthHash (strings first) := by
  have isFirst := lengthHash_of_full isChunk
  have firstLast : HashId.repeating 0 ≠ lengthHash [1, 2, 3] := by decide
  have firstIds : HashId.repeating 0 ≠ lengthHash (chunkIdBytes bundle.chunks) := by decide
  have lastIds : lengthHash [1, 2, 3] ≠ lengthHash (chunkIdBytes bundle.chunks) := by decide
  rintro left (rfl | rfl | rfl) right (rfl | rfl | rfl) same
  · rfl
  · exact absurd (isFirst.symm.trans same) firstLast
  · exact absurd (isFirst.symm.trans same) firstIds
  · exact absurd (same.trans isFirst).symm firstLast
  · rfl
  · exact absurd same lastIds
  · exact absurd (same.trans isFirst).symm firstIds
  · exact absurd same.symm lastIds
  · rfl

end RoundTripScenario

end Fs0
