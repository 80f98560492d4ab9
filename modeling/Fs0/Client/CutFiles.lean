import Fs0.Client.UploadLayout

/-!
Contract: what an upload with full reads makes of a file, piece by piece.

Owns:
- the bounds of every chunk and bundle of a scan;
- the pieces of a finished scan, each where its number puts it.

Does not own: who reads the pieces again.
-/

set_option autoImplicit false

namespace Fs0

open Fs0.Lib

variable {blake3 : Bytes → HashId} {target : UploadTarget} {content : Bytes}
  {ts : List (Transition UploadScan Nat)} {s s' : UploadScan}

/-! ## Bounds -/

/-- Only the last piece may be shorter than the stride, and none is empty. -/
structure FullPieces (stride : Nat) (pieces : List Bytes) : Prop where
  bounds : ∀ piece ∈ pieces, 0 < piece.length ∧ piece.length ≤ stride
  full : ∀ piece ∈ pieces.dropLast, piece.length = stride

theorem FullPieces.tail {stride : Nat} {piece : Bytes} {pieces : List Bytes}
    (full : FullPieces stride (piece :: pieces)) : FullPieces stride pieces := by
  constructor
  · exact fun piece member => full.bounds piece (List.mem_cons_of_mem _ member)
  · intro other member
    cases pieces with
    | nil => cases member
    | cons next rest =>
        exact full.full other (by
          rw [List.dropLast_cons_cons]
          exact List.mem_cons_of_mem _ member)

theorem totalLength_cons (piece : Bytes) (pieces : List Bytes) :
    totalLength (piece :: pieces) = piece.length + totalLength pieces := by
  rw [totalLength, totalLength, List.map_cons, List.sum_cons]

/-- A piece starts at a multiple of the stride, and is as long as the stride and the rest of
its bundle allow. -/
theorem FullPieces.placed {stride : Nat} {pieces : List Bytes} (full : FullPieces stride pieces)
    {index : Nat} {piece : Bytes} (here : pieces[index]? = some piece) :
    index * stride < totalLength pieces ∧
      min stride (totalLength pieces - index * stride) = piece.length := by
  induction pieces generalizing index with
  | nil => simp at here
  | cons first rest inductionHypothesis =>
      obtain ⟨positive, atMost⟩ := full.bounds first List.mem_cons_self
      rw [totalLength_cons]
      cases index with
      | zero =>
          obtain rfl := Option.some.inj here
          rw [Nat.zero_mul, Nat.sub_zero]
          refine ⟨by omega, ?_⟩
          cases rest with
          | nil =>
              rw [totalLength_nil, Nat.add_zero]
              exact Nat.min_eq_right atMost
          | cons next others =>
              have isFull : first.length = stride := full.full first (by simp)
              rw [isFull]
              exact Nat.min_eq_left (Nat.le_add_right _ _)
      | succ index =>
          rw [List.getElem?_cons_succ] at here
          obtain ⟨inside, length⟩ := inductionHypothesis full.tail here
          have isFull : first.length = stride := by
            cases rest with
            | nil => simp at here
            | cons next others => exact full.full first (by simp)
          rw [isFull, Nat.succ_mul, Nat.add_comm (index * stride) stride, Nat.add_sub_add_left]
          exact ⟨by omega, length⟩

/-- A bundle that follows full ones starts at a multiple of their length, inside the file. -/
theorem bundle_placed {stride : Nat} {closed : List (List Bytes)}
    (full : ∀ pieces ∈ closed.dropLast, totalLength pieces = stride) {index : Nat}
    {pieces : List Bytes} (here : closed[index]? = some pieces) :
    index * stride + totalLength pieces ≤ totalLength closed.flatten := by
  induction closed generalizing index with
  | nil => simp at here
  | cons first rest inductionHypothesis =>
      rw [List.flatten_cons, totalLength_append]
      cases index with
      | zero =>
          obtain rfl := Option.some.inj here
          omega
      | succ index =>
          rw [List.getElem?_cons_succ] at here
          cases rest with
          | nil => simp at here
          | cons next others =>
              have isFull : totalLength first = stride := full first (by simp)
              have later := inductionHypothesis (fun pieces member => full pieces (by
                rw [List.dropLast_cons_cons]
                exact List.mem_cons_of_mem _ member)) here
              rw [isFull, Nat.succ_mul]
              omega

/-! ## A finished scan -/

/-- The pieces that a scan with full reads has cut a file into. -/
structure Cut (blake3 : Bytes → HashId) (target : UploadTarget) (content : Bytes)
    (s : UploadScan) (closed : List (List Bytes)) : Prop where
  whole : content = closed.flatten.flatten
  newSize : s.newSize = content.length
  small : content.length < u64Modulus
  bundles : s.uploadBundles = closed.map (bundleOfPieces blake3)
  enqueued : s.enqueued = jobsOfPieces blake3 target 0 closed.flatten
  nonempty : ∀ pieces ∈ closed, pieces ≠ []
  chunkLens : ∀ pieces ∈ closed, FullPieces volumeRawChunkSize pieces
  bundleLens : ∀ pieces ∈ closed.dropLast, totalLength pieces = volumeBundleRawSize

/-- Each piece is what the job for it reads. -/
theorem exists_job (before : Bytes) {pieces : List Bytes} {piece : Bytes} (member : piece ∈ pieces) :
    ∃ job ∈ jobsOfPieces blake3 target before.length pieces,
      ((before ++ pieces.flatten).drop job.sourceOffset).take job.rawLen = piece := by
  induction pieces generalizing before with
  | nil => cases member
  | cons first rest inductionHypothesis =>
      rcases List.mem_cons.mp member with rfl | later
      · refine ⟨target.job (blake3 piece) piece.length before.length, List.mem_cons_self, ?_⟩
        rw [UploadTarget.job, List.drop_left, List.flatten_cons, List.take_left]
      · obtain ⟨job, inside, reads⟩ := inductionHypothesis (before ++ first) later
        rw [List.append_assoc, ← List.flatten_cons] at reads
        refine ⟨job, ?_, reads⟩
        rw [jobsOfPieces, ← List.length_append]
        exact List.mem_cons_of_mem _ inside

/-- The byte strings that an upload hashes: its chunks, and the chunk ids of its bundles. -/
structure UploadScan.HashedIn (content : Bytes) (s : UploadScan) (strings : Set Bytes) : Prop where
  chunks : ∀ job ∈ s.enqueued, (content.drop job.sourceOffset).take job.rawLen ∈ strings
  bundles : ∀ bundle ∈ s.uploadBundles,
    bundle.chunks.flatMap (fun chunk => chunk.chunkId.bytes) ∈ strings

theorem Cut.piece_mem {closed : List (List Bytes)} (cut : Cut blake3 target content s closed)
    {strings : Set Bytes} (hashed : s.HashedIn content strings) {pieces : List Bytes}
    (member : pieces ∈ closed) {piece : Bytes} (inside : piece ∈ pieces) : piece ∈ strings := by
  have read : ∃ job ∈ s.enqueued, (content.drop job.sourceOffset).take job.rawLen = piece := by
    rw [cut.enqueued, cut.whole]
    exact exists_job [] (List.mem_flatten.mpr ⟨pieces, member, inside⟩)
  obtain ⟨job, enqueued, reads⟩ := read
  exact reads ▸ hashed.chunks job enqueued

end Fs0
