import Fs0.Client.Upload

/-!
Contract: the layout of the chunks and bundles an upload cuts a file into.

Owns:
- the invariant of a scan for arbitrary read results, and for full reads;
- the fixed layout that the offsets of a download rely on;
- the exact read results for which a finished scan has that layout.

Does not own: the requests made for the chunks and bundles.
-/

set_option autoImplicit false

namespace Fs0

open Fs0.Lib

variable {blake3 : Bytes → HashId} {target : UploadTarget} {content : Bytes}
  {ts : List (Transition UploadScan Nat)} {s s' : UploadScan}

/-! ## Arbitrary reads -/

/-- The scan failed, or its state is that of some pieces. -/
def ScanInv (blake3 : Bytes → HashId) (target : UploadTarget) (content : Bytes) (s : UploadScan) :
    Prop :=
  (∃ err, s.result = some (.error err)) ∨
    ∃ closed current, ScanFacts blake3 target content s closed current

theorem scanInv_initial : ScanInv blake3 target content (.initial content) := by
  refine .inr ⟨[], [], ⟨ScanOf.initial, by decide, .inl (by simp), ?_⟩⟩
  intro ended
  cases ended

theorem result_none_of_step {read : Nat} (taken : s.step blake3 target read = some s') :
    s.result = none := by
  unfold UploadScan.step at taken
  split at taken
  · next running => exact running.1
  · cases taken

/-- The piece one `read` call adds, if it returned any bytes. -/
def readPiece (s : UploadScan) (read : Nat) : List Bytes :=
  if read = 0 then [] else [s.reader.take read]

theorem scanFacts_step {read : Nat} {closed : List (List Bytes)} {current : List Bytes}
    (facts : ScanFacts blake3 target content s closed current)
    (taken : s.step blake3 target read = some s') :
    s.ReadAllowed read ∧
      ((∃ err, s'.result = some (.error err)) ∨
        ∃ closed' current', ScanFacts blake3 target content s' closed' current' ∧
          s'.reader = s.reader.drop read ∧
          closed'.flatten ++ current' = closed.flatten ++ current ++ readPiece s read) := by
  obtain ⟨allowed, outcome⟩ := read_cases facts taken
  refine ⟨allowed, ?_⟩
  have positive : 0 < volumeBundleRawSize := by decide
  have unfilled : read ≠ 0 → ∀ pieces ∈ closed, totalLength pieces = volumeBundleRawSize := by
    intro more
    rcases facts.full with all | ⟨drained, -, -⟩
    · exact all
    · have limit := allowed.1
      rw [drained, List.length_nil, Nat.min_zero] at limit
      exact absurd (Nat.le_zero.mp limit) more
  rcases outcome with failed | ⟨eof, empty, rfl⟩ | ⟨eof, some', reader, open', scan⟩ |
    ⟨more, room, reader, open', scan⟩ | ⟨more, total, reader, open', scan⟩
  · exact .inl failed
  · refine .inr ⟨closed, current, ⟨⟨facts.content, facts.newSize, facts.rawLen, facts.chunks,
      facts.bundles, facts.enqueued⟩, facts.room, facts.full, fun _ => ⟨allowed.2 eof, empty⟩⟩, ?_, ?_⟩
    · rw [eof, List.drop_zero]
    · rw [readPiece, if_pos eof, List.append_nil]
  · refine .inr ⟨_, _, ⟨scan, by simpa using positive, .inr ⟨reader, rfl, ?_⟩, ?_⟩, ?_, ?_⟩
    · rw [List.dropLast_concat]
      rcases facts.full with all | ⟨-, none, -⟩
      · exact all
      · exact absurd none some'
    · exact fun _ => ⟨reader, rfl⟩
    · rw [reader, allowed.2 eof, List.drop_nil]
    · rw [readPiece, if_pos eof]
      simp
  · refine .inr ⟨_, _, ⟨scan, room, .inl (unfilled more), ?_⟩, reader, ?_⟩
    · intro ended
      rw [open'] at ended
      cases ended
    · rw [readPiece, if_neg more, List.append_assoc]
  · refine .inr ⟨_, _, ⟨scan, by simpa using positive, .inl ?_, ?_⟩, reader, ?_⟩
    · exact List.forall_mem_append.mpr ⟨unfilled more, List.forall_mem_singleton.mpr total⟩
    · intro ended
      rw [open'] at ended
      cases ended
    · rw [readPiece, if_neg more]
      simp

theorem scanInv_step {read : Nat} (inv : ScanInv blake3 target content s)
    (taken : s.step blake3 target read = some s') : ScanInv blake3 target content s' := by
  rcases inv with ⟨err, failed⟩ | ⟨closed, current, facts⟩
  · rw [result_none_of_step taken] at failed
    cases failed
  · obtain ⟨-, failed | ⟨closed', current', facts', -⟩⟩ := scanFacts_step facts taken
    · exact .inl failed
    · exact .inr ⟨closed', current', facts'⟩

theorem scanInv_run (run : (uploadScanSystem blake3 target content).Run ts s) :
    ScanInv blake3 target content s := by
  refine run.invariant (ScanInv blake3 target content) ?_ fun _ _ _ inv taken => scanInv_step inv taken
  rintro s rfl
  exact scanInv_initial

/-- A finished scan has cut the whole file into bundles that are full up to the last. -/
theorem exists_pieces_of_finished (run : (uploadScanSystem blake3 target content).Run ts s)
    (finished : s.result = some (.ok ())) :
    ∃ closed : List (List Bytes), content = closed.flatten.flatten ∧
      s.newSize = content.length ∧
      s.uploadBundles = closed.map (bundleOfPieces blake3) ∧
      s.enqueued = jobsOfPieces blake3 target 0 closed.flatten ∧
      ∀ pieces ∈ closed.dropLast, totalLength pieces = volumeBundleRawSize := by
  rcases scanInv_run run with ⟨err, failed⟩ | ⟨closed, current, facts⟩
  · rw [finished] at failed
    cases failed
  · obtain ⟨drained, rfl⟩ := facts.ended finished
    have whole := facts.content
    have jobs := facts.enqueued
    rw [drained, List.append_nil, List.append_nil] at whole
    rw [List.append_nil] at jobs
    refine ⟨closed, whole, ?_, facts.bundles, jobs, ?_⟩
    · rw [facts.newSize, whole, length_flatten_pieces]
    · rcases facts.full with all | ⟨-, -, all⟩
      · exact fun pieces member => all pieces (List.dropLast_subset _ member)
      · exact all

/-! ## The fixed layout -/

/-- The chunk ids and source offsets a download assumes of the bundles from `index` on. -/
def layoutJobs : Nat → List UploadBundle → List (HashId × Nat)
  | _, [] => []
  | index, bundle :: bundles =>
      (bundle.chunks.map fun chunk =>
        (chunk.chunkId, index * volumeBundleRawSize + chunk.chunkIndex * volumeRawChunkSize)) ++
      layoutJobs (index + 1) bundles

structure FixedLayout (bundles : List UploadBundle) (jobs : List UploadChunkJob) : Prop where
  chunkLens : ∀ job ∈ jobs.dropLast, job.rawLen = volumeRawChunkSize
  bundleLens : ∀ bundle ∈ bundles.dropLast, bundle.rawLen = volumeBundleRawSize
  offsets : jobs.map (fun job => (job.chunkId, job.sourceOffset)) = layoutJobs 0 bundles

@[simp] theorem jobsOfPieces_rawLen (offset : Nat) (pieces : List Bytes) :
    (jobsOfPieces blake3 target offset pieces).map UploadChunkJob.rawLen =
      pieces.map List.length := by
  induction pieces generalizing offset with
  | nil => rfl
  | cons piece pieces inductionHypothesis =>
      rw [jobsOfPieces, List.map_cons, List.map_cons, inductionHypothesis]
      rfl

/-- Pieces of one length, up to the last, follow one another at multiples of it. -/
theorem jobsOfPieces_offsets (blake3 : Bytes → HashId) (target : UploadTarget)
    {stride : Nat} (offset : Nat) {pieces : List Bytes}
    (full : ∀ piece ∈ pieces.dropLast, piece.length = stride) (index : Nat) :
    (jobsOfPieces blake3 target (offset + index * stride) pieces).map
        (fun job => (job.chunkId, job.sourceOffset)) =
      (pieces.mapIdx fun i piece => (blake3 piece, offset + (index + i) * stride)) := by
  induction pieces generalizing index with
  | nil => rfl
  | cons piece pieces inductionHypothesis =>
      rw [jobsOfPieces, List.map_cons, List.mapIdx_cons]
      congr 1
      cases pieces with
      | nil => rfl
      | cons next rest =>
          have length : piece.length = stride := full piece List.mem_cons_self
          have tail := inductionHypothesis (fun piece member => full piece (List.mem_cons_of_mem _ member))
            (index + 1)
          rw [Nat.succ_mul, ← Nat.add_assoc] at tail
          rw [length, tail]
          congr 1
          funext i piece
          rw [Nat.add_assoc, Nat.add_comm 1 i]

/-- Full pieces in full bundles lie where a download looks for them. -/
theorem jobsOfPieces_layout (blake3 : Bytes → HashId) (target : UploadTarget) (index : Nat)
    {closed : List (List Bytes)}
    (chunks : ∀ piece ∈ closed.flatten.dropLast, piece.length = volumeRawChunkSize)
    (bundles : ∀ pieces ∈ closed.dropLast, totalLength pieces = volumeBundleRawSize) :
    (jobsOfPieces blake3 target (index * volumeBundleRawSize) closed.flatten).map
        (fun job => (job.chunkId, job.sourceOffset)) =
      layoutJobs index (closed.map (bundleOfPieces blake3)) := by
  induction closed generalizing index with
  | nil => rfl
  | cons pieces closed inductionHypothesis =>
      have here : ∀ piece ∈ pieces.dropLast, piece.length = volumeRawChunkSize := by
        intro piece member
        refine chunks piece ?_
        rw [List.flatten_cons]
        by_cases last : closed.flatten = []
        · rw [last, List.append_nil]
          exact member
        · rw [List.dropLast_append_of_ne_nil last]
          exact List.mem_append_left _ (List.dropLast_subset _ member)
      have first := jobsOfPieces_offsets blake3 target
        (index * volumeBundleRawSize) here 0
      rw [Nat.zero_mul, Nat.add_zero] at first
      rw [List.flatten_cons, jobsOfPieces_append, List.map_append, first, List.map_cons, layoutJobs]
      refine congrArg₂ (· ++ ·) ?_ ?_
      · refine List.ext_getElem (by simp [bundleOfPieces, chunkRefs]) fun i _ _ => ?_
        simp [bundleOfPieces, chunkRefs]
      · cases closed with
        | nil => rfl
        | cons next rest =>
            have total : totalLength pieces = volumeBundleRawSize := bundles pieces List.mem_cons_self
            rw [total, ← Nat.succ_mul]
            refine inductionHypothesis (index + 1) ?_ fun pieces member =>
              bundles pieces (List.mem_cons_of_mem _ member)
            intro piece member
            refine chunks piece ?_
            rw [List.flatten_cons, List.dropLast_append_of_ne_nil (by
              rintro none
              rw [none] at member
              cases member)]
            exact List.mem_append_right _ member

/-! ## Full reads -/

/-- The scan failed, or all its pieces are full, but the last at the end of the file. -/
def FullInv (blake3 : Bytes → HashId) (target : UploadTarget) (content : Bytes) (s : UploadScan) :
    Prop :=
  (∃ err, s.result = some (.error err)) ∨
    ∃ closed current, ScanFacts blake3 target content s closed current ∧
      ((∀ piece ∈ closed.flatten ++ current, piece.length = volumeRawChunkSize) ∨
        (s.reader = [] ∧
          ∀ piece ∈ (closed.flatten ++ current).dropLast, piece.length = volumeRawChunkSize))

/-- The call returned as many bytes as its buffer and the file allowed. -/
def FullRead (s : UploadScan) (read : Nat) : Prop := read = min s.readLimit s.reader.length

theorem bundle_is_chunks : volumeBundleRawSize = 128 * volumeRawChunkSize := by
  unfold volumeBundleRawSize volumeRawChunkSize
  omega

theorem totalLength_of_full {stride : Nat} {pieces : List Bytes}
    (full : ∀ piece ∈ pieces, piece.length = stride) : totalLength pieces = pieces.length * stride := by
  induction pieces with
  | nil => simp
  | cons piece pieces inductionHypothesis =>
      have tail := inductionHypothesis fun piece member => full piece (List.mem_cons_of_mem _ member)
      rw [totalLength] at tail ⊢
      rw [List.map_cons, List.sum_cons, tail, full piece List.mem_cons_self, List.length_cons,
        Nat.succ_mul, Nat.add_comm]

/-- Inside a bundle of full chunks there is room for a full chunk. -/
theorem readLimit_of_full {closed : List (List Bytes)} {current : List Bytes}
    (facts : ScanFacts blake3 target content s closed current)
    (full : ∀ piece ∈ current, piece.length = volumeRawChunkSize) :
    s.readLimit = volumeRawChunkSize := by
  have total := totalLength_of_full full
  have room := facts.room
  rw [UploadScan.readLimit, facts.rawLen]
  rw [bundle_is_chunks] at room ⊢
  generalize volumeRawChunkSize = stride at total room ⊢
  have fewer : current.length < 128 := by
    by_contra many
    have atLeast := Nat.mul_le_mul_right stride (Nat.not_lt.mp many)
    omega
  have next := Nat.mul_le_mul_right stride fewer
  rw [Nat.succ_mul] at next
  omega

theorem fullInv_initial : FullInv blake3 target content (.initial content) := by
  refine .inr ⟨[], [], ⟨ScanOf.initial, by decide, .inl (by simp), ?_⟩, .inl (by simp)⟩
  intro ended
  cases ended

theorem fullInv_step {read : Nat} (inv : FullInv blake3 target content s) (full : FullRead s read)
    (taken : s.step blake3 target read = some s') : FullInv blake3 target content s' := by
  rcases inv with ⟨err, failed⟩ | ⟨closed, current, facts, pieces⟩
  · rw [result_none_of_step taken] at failed
    cases failed
  · obtain ⟨allowed, failed | ⟨closed', current', facts', reader, grown⟩⟩ := scanFacts_step facts taken
    · exact .inl failed
    · refine .inr ⟨closed', current', facts', ?_⟩
      rw [grown, reader]
      by_cases eof : read = 0
      · rw [readPiece, if_pos eof, List.append_nil, eof, List.drop_zero]
        exact pieces
      · rw [readPiece, if_neg eof]
        rcases pieces with all | ⟨drained, -⟩
        · have limit := readLimit_of_full facts fun piece member =>
            all piece (List.mem_append_right _ member)
          rw [FullRead, limit] at full
          by_cases enough : volumeRawChunkSize ≤ s.reader.length
          · left
            rw [Nat.min_eq_left enough] at full
            refine List.forall_mem_append.mpr ⟨all, List.forall_mem_singleton.mpr ?_⟩
            rw [full]
            exact List.length_take_of_le enough
          · right
            rw [Nat.min_eq_right (Nat.le_of_not_le enough)] at full
            rw [full, List.drop_length, List.dropLast_concat]
            exact ⟨rfl, all⟩
        · have none := allowed.1
          rw [drained, List.length_nil, Nat.min_zero] at none
          exact absurd (Nat.le_zero.mp none) eof

theorem fullInv_run (run : (uploadScanSystem blake3 target content).Run ts s)
    (full : ∀ t ∈ ts, FullRead t.pre t.event) : FullInv blake3 target content s := by
  refine run.invariant_of_guard (FullInv blake3 target content) FullRead ?_ ?_ full s List.mem_cons_self
  · rintro s rfl
    exact fullInv_initial
  · exact fun s read s' inv full taken => fullInv_step inv full taken

theorem fixedLayout_of_fullReads (run : (uploadScanSystem blake3 target content).Run ts s)
    (finished : s.result = some (.ok ())) (full : ∀ t ∈ ts, FullRead t.pre t.event) :
    FixedLayout s.uploadBundles s.enqueued := by
  rcases fullInv_run run full with ⟨err, failed⟩ | ⟨closed, current, facts, pieces⟩
  · rw [finished] at failed
    cases failed
  · obtain ⟨drained, rfl⟩ := facts.ended finished
    have jobs := facts.enqueued
    rw [List.append_nil] at pieces jobs
    have chunks : ∀ piece ∈ closed.flatten.dropLast, piece.length = volumeRawChunkSize := by
      rcases pieces with all | ⟨-, all⟩
      · exact fun piece member => all piece (List.dropLast_subset _ member)
      · exact all
    have bundles : ∀ pieces ∈ closed.dropLast, totalLength pieces = volumeBundleRawSize := by
      rcases facts.full with all | ⟨-, -, all⟩
      · exact fun pieces member => all pieces (List.dropLast_subset _ member)
      · exact all
    constructor
    · have lens : ∀ len ∈ (s.enqueued.map UploadChunkJob.rawLen).dropLast, len = volumeRawChunkSize := by
        rw [jobs, jobsOfPieces_rawLen, ← List.map_dropLast]
        exact List.forall_mem_map.mpr chunks
      rw [← List.map_dropLast] at lens
      exact List.forall_mem_map.mp lens
    · rw [facts.bundles, ← List.map_dropLast]
      exact List.forall_mem_map.mpr bundles
    · have layout := jobsOfPieces_layout blake3 target 0 chunks bundles
      rw [Nat.zero_mul] at layout
      rw [jobs, facts.bundles]
      exact layout

/-! ## Short reads -/

theorem enqueued_grows {read : Nat} (taken : s.step blake3 target read = some s') :
    s.enqueued <+: s'.enqueued := by
  have closed : ∀ s : UploadScan, (s.closeBundle blake3).enqueued = s.enqueued := by
    intro s
    unfold UploadScan.closeBundle
    split
    · rfl
    · split
      · rfl
      · rfl
  have taken' : s.enqueued <+: (s.takeChunk blake3 target read).enqueued := by
    unfold UploadScan.takeChunk
    split
    · exact List.prefix_refl _
    · exact List.prefix_append _ _
  unfold UploadScan.step at taken
  split at taken
  · split at taken
    · obtain rfl := Option.some.inj taken
      exact (closed s).symm ▸ List.prefix_refl s.enqueued
    · obtain rfl := Option.some.inj taken
      split
      · rw [closed]
        exact taken'
      · exact taken'
  · cases taken

/-- The lengths of the jobs and what is left add up to the file. -/
theorem enqueued_total (inv : ScanInv blake3 target content s)
    (running : ∀ err, s.result ≠ some (.error err)) :
    (s.enqueued.map UploadChunkJob.rawLen).sum + s.reader.length = content.length := by
  rcases inv with ⟨err, failed⟩ | ⟨closed, current, facts⟩
  · exact absurd failed (running err)
  · rw [facts.enqueued, jobsOfPieces_rawLen, facts.content, List.length_append, length_flatten_pieces,
      totalLength]

theorem failed_stays {later earlier : List (Transition UploadScan Nat)} {t : Transition UploadScan Nat}
    (run : (uploadScanSystem blake3 target content).Run (later ++ t :: earlier) s)
    (failed : ∃ err, t.post.result = some (.error err)) : ∃ err, s.result = some (.error err) := by
  refine run.since (fun x => ∃ err, x.result = some (.error err)) failed ?_
  rintro x - - ⟨err, failed⟩ taken
  rw [result_none_of_step taken] at failed
  cases failed

/-- A call that returned less than it could leaves a chunk that is short but not the last. -/
theorem fullReads_of_fixedLayout (run : (uploadScanSystem blake3 target content).Run ts s)
    (finished : s.result = some (.ok ())) (layout : FixedLayout s.uploadBundles s.enqueued) :
    ∀ t ∈ ts, FullRead t.pre t.event := by
  intro t member
  obtain ⟨later, earlier, rfl⟩ := List.append_of_mem member
  have running : ∀ err, s.result ≠ some (.error err) := by simp [finished]
  obtain ⟨before, taken⟩ := run.before
  rcases scanInv_run before with ⟨err, failed⟩ | ⟨closed, current, facts⟩
  · have open' : t.pre.result = none := result_none_of_step taken
    rw [open'] at failed
    cases failed
  obtain ⟨allowed, failed | ⟨closed', current', facts', reader, grown⟩⟩ := scanFacts_step facts taken
  · obtain ⟨err, failed⟩ := failed_stays run failed
    exact absurd failed (running err)
  by_contra short
  have bounds := allowed.1
  have less : t.event < min t.pre.readLimit t.pre.reader.length := Nat.lt_of_le_of_ne bounds short
  have more : t.event ≠ 0 := by
    intro eof
    rw [allowed.2 eof, List.length_nil, Nat.min_zero] at less
    exact absurd less (Nat.not_lt_zero _)
  have enough : t.event ≤ t.pre.reader.length := Nat.le_trans bounds (Nat.min_le_right _ _)
  have piece : (t.pre.reader.take t.event).length = t.event := List.length_take_of_le enough
  have prefix' : t.post.enqueued <+: s.enqueued := by
    refine run.since (fun x => t.post.enqueued <+: x.enqueued) (List.prefix_refl _) ?_
    exact fun x _ _ grows taken => grows.trans (enqueued_grows taken)
  obtain ⟨rest, split⟩ := prefix'
  have total := enqueued_total (scanInv_run run) running
  have totalThen := enqueued_total (.inr ⟨closed', current', facts'⟩)
    (fun err failed => absurd (failed_stays run ⟨err, failed⟩) (by simp [finished]))
  rcases scanInv_run run with ⟨err, failed⟩ | ⟨_, _, factsEnd⟩
  · exact absurd failed (running err)
  rw [← split, List.map_append, List.sum_append, (factsEnd.ended finished).1, List.length_nil] at total
  rw [reader, List.length_drop] at totalThen
  have someRest : rest ≠ [] := by
    rintro rfl
    rw [List.map_nil, List.sum_nil] at total
    omega
  have jobs : t.post.enqueued = t.pre.enqueued ++
      jobsOfPieces blake3 target (totalLength (closed.flatten ++ current)) [t.pre.reader.take t.event] := by
    rw [facts'.enqueued, facts.enqueued, grown, readPiece, if_neg more, jobsOfPieces_append, Nat.zero_add]
  have inside : target.job (blake3 (t.pre.reader.take t.event)) (t.pre.reader.take t.event).length
      (totalLength (closed.flatten ++ current)) ∈ s.enqueued.dropLast := by
    rw [← split, List.dropLast_append_of_ne_nil someRest, jobs]
    exact List.mem_append_left _ (List.mem_append_right _ List.mem_cons_self)
  have length : (t.pre.reader.take t.event).length = volumeRawChunkSize := layout.chunkLens _ inside
  have limit : t.pre.readLimit ≤ volumeRawChunkSize := Nat.min_le_left _ _
  omega

/-- A finished scan has the layout a download relies on exactly when every `read` call
returned as many bytes as its buffer and the file allowed. -/
theorem fixedLayout_iff_fullReads (run : (uploadScanSystem blake3 target content).Run ts s)
    (finished : s.result = some (.ok ())) :
    FixedLayout s.uploadBundles s.enqueued ↔ ∀ t ∈ ts, FullRead t.pre t.event := by
  constructor
  · exact fullReads_of_fixedLayout run finished
  · exact fixedLayout_of_fullReads run finished

/-- A stand-in for the hash, for runs on fixed inputs. -/
def lengthHash (bytes : Bytes) : HashId := ⟨List.replicate 32 bytes.length.toUInt8, List.length_replicate⟩

def exampleTarget : UploadTarget := ⟨1, 1, 1, "a"⟩

namespace TwoChunks

/-- As many bytes as one chunk takes. -/
def fullChunk : Bytes := List.replicate volumeRawChunkSize 7

theorem length_fullChunk : fullChunk.length = volumeRawChunkSize := List.length_replicate

theorem lengthHash_of_full {bytes : Bytes} (full : bytes.length = volumeRawChunkSize) :
    lengthHash bytes = .repeating 0 := by
  unfold lengthHash
  rw [HashId.mk.injEq, full]
  rfl

def bundle : UploadBundle :=
  let chunks := [⟨0, .repeating 0⟩, ⟨1, lengthHash [1, 2, 3]⟩]
  ⟨bundleHashFromChunks lengthHash chunks, volumeRawChunkSize + 3, chunks⟩

/-- The state after the first `read` call. -/
def afterFull (rest : Bytes) : UploadScan :=
  ⟨rest, 0, volumeRawChunkSize, [⟨0, .repeating 0⟩], [],
    [exampleTarget.job (.repeating 0) volumeRawChunkSize 0], none⟩

-- the bytes of the chunk are a variable, so that none of them is ever computed with
theorem full_taken {first rest : Bytes} (full : first.length = volumeRawChunkSize) :
    (UploadScan.initial (first ++ rest)).step lengthHash exampleTarget volumeRawChunkSize =
      some (afterFull rest) ∧ FullRead (.initial (first ++ rest)) volumeRawChunkSize := by
  have most : volumeRawChunkSize = min (min volumeRawChunkSize (volumeBundleRawSize - 0))
      (first ++ rest).length := by
    have smaller : volumeRawChunkSize ≤ volumeBundleRawSize := by decide
    rw [List.length_append, full, Nat.sub_zero, Nat.min_eq_left smaller,
      Nat.min_eq_left (Nat.le_add_right _ _)]
  have allowed : (UploadScan.initial (first ++ rest)).ReadAllowed volumeRawChunkSize :=
    ⟨Nat.le_of_eq most, fun none => absurd none (by decide)⟩
  have taken : (UploadScan.initial (first ++ rest)).takeChunk lengthHash exampleTarget
      volumeRawChunkSize = afterFull rest := by
    have start : checkedAdd 0 0 = some 0 := by decide
    simp only [UploadScan.takeChunk, UploadScan.initial, start, List.take_left' full,
      List.drop_left' full, lengthHash_of_full full]
    rfl
  rw [UploadScan.step, if_pos ⟨rfl, allowed⟩, if_neg (by decide), taken]
  exact ⟨rfl, most⟩

/-- The call returns as much as it can. -/
def readsAll (s : UploadScan) (read : Nat) : Bool := read = min s.readLimit s.reader.length

/-- The scan of a full chunk and three bytes, with full reads. -/
theorem exists_scan {first : Bytes} (isChunk : first.length = volumeRawChunkSize) : ∃ reads scan,
    (uploadScanSystem lengthHash exampleTarget (first ++ [1, 2, 3])).Run reads scan ∧
      scan.result = some (.ok ()) ∧ (∀ t ∈ reads, FullRead t.pre t.event) ∧
      scan.newSize = volumeRawChunkSize + 3 ∧ scan.uploadBundles = [bundle] ∧
      scan.enqueued = [exampleTarget.job (.repeating 0) volumeRawChunkSize 0,
        exampleTarget.job (lengthHash [1, 2, 3]) 3 volumeRawChunkSize] := by
  obtain ⟨taken, isFull⟩ := full_taken isChunk
  have begun : (uploadScanSystem lengthHash exampleTarget (first ++ [1, 2, 3])).Run
      [⟨.initial (first ++ [1, 2, 3]), volumeRawChunkSize, afterFull [1, 2, 3]⟩]
      (afterFull [1, 2, 3]) := .step (.init rfl) taken
  have scanned : (uploadScanSystem lengthHash exampleTarget (first ++ [1, 2, 3])).execWhile
      readsAll (afterFull [1, 2, 3]) [3, 0, 0] = some _ := rfl
  obtain ⟨reads, uploaded, full⟩ := begun.execWhile _ scanned
  refine ⟨_, _, uploaded, rfl, ?_, rfl, rfl, rfl⟩
  intro t member
  rcases List.mem_append.mp member with later | isFirst
  · have all : t.event = min t.pre.readLimit t.pre.reader.length := of_decide_eq_true (full t later)
    exact all
  · rw [List.mem_singleton.mp isFirst]
    exact isFull

end TwoChunks

/-- A full chunk and three bytes, each read at once, are laid out as a download expects. -/
theorem fixedLayout_iff_fullReads_twoChunks : ∃ ts s,
    (uploadScanSystem lengthHash exampleTarget (TwoChunks.fullChunk ++ [1, 2, 3])).Run ts s ∧
      s.enqueued.length = 2 ∧ FixedLayout s.uploadBundles s.enqueued := by
  obtain ⟨ts, s, run, finished, full, -, -, enqueued⟩ :=
    TwoChunks.exists_scan TwoChunks.length_fullChunk
  exact ⟨ts, s, run, by rw [enqueued]; rfl, (fixedLayout_iff_fullReads run finished).mpr full⟩

/-- The first `read` call returns one of the three bytes: the first chunk has one byte, and
the second chunk starts at offset 1 and not at the chunk size. -/
theorem short_read_breaks_layout :
    ∃ ts s, (uploadScanSystem lengthHash exampleTarget [1, 2, 3]).Run ts s ∧
      s.result = some (.ok ()) ∧ ¬ FixedLayout s.uploadBundles s.enqueued := by
  have start : (uploadScanSystem lengthHash exampleTarget [1, 2, 3]).Run [] (.initial [1, 2, 3]) :=
    .init rfl
  obtain ⟨ts, run, -⟩ := start.exec [1, 2, 0, 0] rfl
  refine ⟨_, _, run, rfl, fun layout => ?_⟩
  have short : 1 = volumeRawChunkSize := layout.chunkLens _ List.mem_cons_self
  exact absurd short (by decide)

end Fs0
