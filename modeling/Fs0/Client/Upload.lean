import Fs0.Core.Protocol
import Fs0.Lib.Transition

/-!
Contract: the loop of `Fs0Client::upload_file_inner` that cuts a file into chunks and
bundles.

Owns:
- one `reader.read` call after another, each returning any number of bytes up to its
  limit, and what the loop makes of each;
- the pieces the file was cut into, and that the bundle list and the chunk jobs are
  determined by them;
- the exact read results for which the cut has the fixed layout a download relies on.

Does not own: the chunk jobs once they are enqueued, nor the requests that follow.
-/

set_option autoImplicit false

namespace Fs0

open Fs0.Lib

/-! ## The scanning loop -/

structure UploadBundle where
  bundleId : HashId
  rawLen : Nat
  chunks : List BundleChunkRef
deriving DecidableEq, Repr

structure UploadChunkJob where
  leaseId : Nat
  fileId : Nat
  volumeId : Nat
  chunkId : HashId
  rawLen : Nat
  sourcePath : String
  sourceOffset : Nat
deriving DecidableEq, Repr

/-- What every job of one upload shares. -/
structure UploadTarget where
  leaseId : Nat
  fileId : Nat
  volumeId : Nat
  sourcePath : String
deriving DecidableEq, Repr

def UploadTarget.job (target : UploadTarget) (chunkId : HashId) (rawLen sourceOffset : Nat) :
    UploadChunkJob :=
  ⟨target.leaseId, target.fileId, target.volumeId, chunkId, rawLen, target.sourcePath, sourceOffset⟩

/-- `reader` is what is left of the file, `rawLen` and `chunks` belong to the bundle being
read, and `result` is set once the outer loop has ended. -/
structure UploadScan where
  reader : Bytes
  newSize : Nat
  rawLen : Nat
  chunks : List BundleChunkRef
  uploadBundles : List UploadBundle
  enqueued : List UploadChunkJob
  result : Option (Fs0Result Unit)

namespace UploadScan

def initial (content : Bytes) : UploadScan := ⟨content, 0, 0, [], [], [], none⟩

/-- `read_limit`: the length of the buffer the next `read` call is given. -/
def readLimit (s : UploadScan) : Nat := min volumeRawChunkSize (volumeBundleRawSize - s.rawLen)

/-- `AsyncRead`: at most as many bytes as the buffer holds, and none only at the end. -/
def ReadAllowed (s : UploadScan) (read : Nat) : Prop :=
  read ≤ min s.readLimit s.reader.length ∧ (read = 0 → s.reader = [])

instance (s : UploadScan) (read : Nat) : Decidable (s.ReadAllowed read) :=
  inferInstanceAs (Decidable (_ ∧ _))

/-- What follows the inner loop. -/
def closeBundle (blake3 : Bytes → HashId) (s : UploadScan) : UploadScan :=
  if s.chunks = [] then { s with result := some (.ok ()) }
  else
    match checkedAdd s.newSize s.rawLen with
    | none =>
        { s with result := some (.error (.integerConversion "uploaded file size overflow")) }
    | some newSize =>
        { s with
          newSize := newSize
          rawLen := 0
          chunks := []
          uploadBundles := s.uploadBundles ++
            [⟨bundleHashFromChunks blake3 s.chunks, s.rawLen, s.chunks⟩] }

/-- The body of the inner loop for the bytes one `read` call returned. -/
def takeChunk (blake3 : Bytes → HashId) (target : UploadTarget) (s : UploadScan) (read : Nat) :
    UploadScan :=
  match checkedAdd s.newSize s.rawLen with
  | none =>
      { s with result := some (.error (.integerConversion "uploaded chunk offset overflow")) }
  | some chunkOffset =>
      { s with
        reader := s.reader.drop read
        rawLen := s.rawLen + read
        chunks := s.chunks ++ [⟨s.chunks.length, blake3 (s.reader.take read)⟩]
        enqueued := s.enqueued ++
          [target.job (blake3 (s.reader.take read)) read chunkOffset] }

/-- One `read` call that returns `read` bytes, up to the next one. -/
def step (blake3 : Bytes → HashId) (target : UploadTarget) (s : UploadScan) (read : Nat) :
    Option UploadScan :=
  if s.result = none ∧ s.ReadAllowed read then
    if read = 0 then
      some (s.closeBundle blake3)
    else
      let taken := s.takeChunk blake3 target read
      some (if taken.result = none ∧ volumeBundleRawSize ≤ taken.rawLen then
        taken.closeBundle blake3
      else
        taken)
  else
    none

end UploadScan

def uploadScanSystem (blake3 : Bytes → HashId) (target : UploadTarget) (content : Bytes) :
    System UploadScan Nat where
  Init s := s = UploadScan.initial content
  step := UploadScan.step blake3 target

/-! ## The pieces of the file -/

/-- The chunk list of a bundle cut into these pieces. -/
def chunkRefs (blake3 : Bytes → HashId) (pieces : List Bytes) : List BundleChunkRef :=
  pieces.mapIdx fun index piece => ⟨index, blake3 piece⟩

def totalLength (pieces : List Bytes) : Nat := (pieces.map List.length).sum

def bundleOfPieces (blake3 : Bytes → HashId) (pieces : List Bytes) : UploadBundle :=
  ⟨bundleHashFromChunks blake3 (chunkRefs blake3 pieces), totalLength pieces, chunkRefs blake3 pieces⟩

/-- The chunk jobs of pieces that follow one another from an offset of the file. -/
def jobsOfPieces (blake3 : Bytes → HashId) (target : UploadTarget) : Nat → List Bytes →
    List UploadChunkJob
  | _, [] => []
  | offset, piece :: pieces =>
      target.job (blake3 piece) piece.length offset ::
        jobsOfPieces blake3 target (offset + piece.length) pieces

section Pieces

variable {blake3 : Bytes → HashId} {target : UploadTarget} {content : Bytes}

@[simp] theorem totalLength_nil : totalLength [] = 0 := rfl

@[simp] theorem totalLength_append (left right : List Bytes) :
    totalLength (left ++ right) = totalLength left + totalLength right := by
  simp [totalLength]

@[simp] theorem totalLength_singleton (piece : Bytes) : totalLength [piece] = piece.length := by
  simp [totalLength]

theorem length_flatten_pieces (pieces : List Bytes) : pieces.flatten.length = totalLength pieces := by
  rw [List.length_flatten, totalLength]

@[simp] theorem chunkRefs_length (pieces : List Bytes) :
    (chunkRefs blake3 pieces).length = pieces.length := List.length_mapIdx

theorem chunkRefs_append_singleton (pieces : List Bytes) (piece : Bytes) :
    chunkRefs blake3 (pieces ++ [piece]) =
      chunkRefs blake3 pieces ++ [⟨pieces.length, blake3 piece⟩] := by
  simp [chunkRefs, List.mapIdx_append]

theorem chunkRefs_eq_nil {pieces : List Bytes} : chunkRefs blake3 pieces = [] ↔ pieces = [] := by
  rw [← List.length_eq_zero_iff, chunkRefs_length, List.length_eq_zero_iff]

theorem jobsOfPieces_append (offset : Nat) (left right : List Bytes) :
    jobsOfPieces blake3 target offset (left ++ right) =
      jobsOfPieces blake3 target offset left ++
        jobsOfPieces blake3 target (offset + totalLength left) right := by
  induction left generalizing offset with
  | nil => rfl
  | cons piece pieces inductionHypothesis =>
      rw [List.cons_append, jobsOfPieces, jobsOfPieces, inductionHypothesis, List.cons_append,
        totalLength, totalLength, List.map_cons, List.sum_cons, Nat.add_assoc]

/-- The state of the scan is determined by the pieces of the closed bundles and of the
current one. -/
structure ScanOf (blake3 : Bytes → HashId) (target : UploadTarget) (content : Bytes)
    (s : UploadScan) (closed : List (List Bytes)) (current : List Bytes) : Prop where
  content : content = (closed.flatten ++ current).flatten ++ s.reader
  newSize : s.newSize = totalLength closed.flatten
  rawLen : s.rawLen = totalLength current
  chunks : s.chunks = chunkRefs blake3 current
  bundles : s.uploadBundles = closed.map (bundleOfPieces blake3)
  enqueued : s.enqueued = jobsOfPieces blake3 target 0 (closed.flatten ++ current)

variable {s s' : UploadScan} {closed : List (List Bytes)} {current : List Bytes}

theorem ScanOf.initial : ScanOf blake3 target content (.initial content) [] [] := by
  constructor
  · rfl
  · rfl
  · rfl
  · rfl
  · rfl
  · rfl

/-- Closing a bundle ends the scan when the bundle is empty, and turns its pieces into a
bundle otherwise. -/
theorem closeBundle_cases (scan : ScanOf blake3 target content s closed current) :
    (current = [] ∧ s.closeBundle blake3 = { s with result := some (.ok ()) }) ∨
      (∃ err, (s.closeBundle blake3).result = some (.error err)) ∨
      (current ≠ [] ∧ (s.closeBundle blake3).result = s.result ∧
        (s.closeBundle blake3).reader = s.reader ∧
        ScanOf blake3 target content (s.closeBundle blake3) (closed ++ [current]) []) := by
  unfold UploadScan.closeBundle
  by_cases empty : s.chunks = []
  · left
    rw [scan.chunks, chunkRefs_eq_nil] at empty
    rw [if_pos (by rw [scan.chunks, empty]; rfl)]
    exact ⟨empty, rfl⟩
  · right
    rw [if_neg empty]
    cases added : checkedAdd s.newSize s.rawLen with
    | none => exact .inl ⟨_, rfl⟩
    | some newSize =>
        right
        obtain ⟨-, rfl⟩ := checkedAdd_eq_some.mp added
        refine ⟨?_, rfl, rfl, ?_⟩
        · rintro rfl
          exact empty scan.chunks
        · have flat : (closed ++ [current]).flatten = closed.flatten ++ current := by simp
          constructor
          · rw [flat, List.append_nil]
            exact scan.content
          · rw [flat, totalLength_append, ← scan.newSize, ← scan.rawLen]
          · rfl
          · rfl
          · rw [List.map_append, ← scan.bundles, List.map_singleton, bundleOfPieces, ← scan.chunks,
              ← scan.rawLen]
          · rw [flat, List.append_nil]
            exact scan.enqueued

/-- Taking a chunk appends the bytes that were read as one piece. -/
theorem takeChunk_cases (target : UploadTarget) {read : Nat}
    (scan : ScanOf blake3 target content s closed current)
    (enough : read ≤ s.reader.length) :
    (∃ err, (s.takeChunk blake3 target read).result = some (.error err)) ∨
      ((s.takeChunk blake3 target read).result = s.result ∧
        (s.takeChunk blake3 target read).reader = s.reader.drop read ∧
        ScanOf blake3 target content (s.takeChunk blake3 target read) closed
          (current ++ [s.reader.take read])) := by
  unfold UploadScan.takeChunk
  have length : (s.reader.take read).length = read := List.length_take_of_le enough
  cases added : checkedAdd s.newSize s.rawLen with
  | none => exact .inl ⟨_, rfl⟩
  | some chunkOffset =>
      right
      obtain ⟨-, rfl⟩ := checkedAdd_eq_some.mp added
      refine ⟨rfl, rfl, ?_⟩
      constructor
      · have whole := scan.content
        rw [← List.take_append_drop read s.reader] at whole
        simpa using whole
      · exact scan.newSize
      · rw [totalLength_append, totalLength_singleton, length, ← scan.rawLen]
      · rw [chunkRefs_append_singleton, ← scan.chunks, scan.chunks, chunkRefs_length]
      · exact scan.bundles
      · rw [← List.append_assoc, jobsOfPieces_append, ← scan.enqueued, Nat.zero_add,
          totalLength_append, ← scan.newSize, ← scan.rawLen, jobsOfPieces, jobsOfPieces, length]

/-- What holds of the pieces between two `read` calls, however the reads are split. -/
structure ScanFacts (blake3 : Bytes → HashId) (target : UploadTarget) (content : Bytes)
    (s : UploadScan) (closed : List (List Bytes)) (current : List Bytes) : Prop
    extends ScanOf blake3 target content s closed current where
  room : totalLength current < volumeBundleRawSize
  full : (∀ pieces ∈ closed, totalLength pieces = volumeBundleRawSize) ∨
    (s.reader = [] ∧ current = [] ∧ ∀ pieces ∈ closed.dropLast, totalLength pieces = volumeBundleRawSize)
  ended : s.result = some (.ok ()) → s.reader = [] ∧ current = []

/-- What one `read` call does, as long as no size overflows. -/
theorem read_cases {read : Nat} (facts : ScanFacts blake3 target content s closed current)
    (taken : s.step blake3 target read = some s') :
    s.ReadAllowed read ∧
      ((∃ err, s'.result = some (.error err)) ∨
        (read = 0 ∧ current = [] ∧ s' = { s with result := some (.ok ()) }) ∨
        (read = 0 ∧ current ≠ [] ∧ s'.reader = [] ∧ s'.result = none ∧
          ScanOf blake3 target content s' (closed ++ [current]) []) ∨
        (read ≠ 0 ∧ totalLength (current ++ [s.reader.take read]) < volumeBundleRawSize ∧
          s'.reader = s.reader.drop read ∧ s'.result = none ∧
          ScanOf blake3 target content s' closed (current ++ [s.reader.take read])) ∨
        (read ≠ 0 ∧ totalLength (current ++ [s.reader.take read]) = volumeBundleRawSize ∧
          s'.reader = s.reader.drop read ∧ s'.result = none ∧
          ScanOf blake3 target content s' (closed ++ [current ++ [s.reader.take read]]) [])) := by
  unfold UploadScan.step at taken
  split at taken
  · next running =>
      obtain ⟨open', allowed⟩ := running
      refine ⟨allowed, ?_⟩
      by_cases eof : read = 0
      · rw [if_pos eof] at taken
        obtain rfl := Option.some.inj taken
        have drained := allowed.2 eof
        rcases closeBundle_cases facts.toScanOf with ⟨empty, ended⟩ | failed | ⟨some', result, reader, scan⟩
        · exact .inr (.inl ⟨eof, empty, ended⟩)
        · exact .inl failed
        · exact .inr (.inr (.inl ⟨eof, some', by rw [reader, drained], by rw [result, open'], scan⟩))
      · rw [if_neg eof] at taken
        have enough : read ≤ s.reader.length := Nat.le_trans allowed.1 (Nat.min_le_right _ _)
        have within : read ≤ s.readLimit := Nat.le_trans allowed.1 (Nat.min_le_left _ _)
        have room := facts.room
        have rawLen := facts.rawLen
        have grown : totalLength (current ++ [s.reader.take read]) = totalLength current + read := by
          rw [totalLength_append, totalLength_singleton, List.length_take_of_le enough]
        obtain rfl := Option.some.inj taken
        rcases takeChunk_cases target facts.toScanOf enough with ⟨err, failed⟩ | ⟨result, reader, scan⟩
        · left
          refine ⟨err, ?_⟩
          rw [if_neg (by rw [failed]; simp)]
          exact failed
        · have limit : s.readLimit ≤ volumeBundleRawSize - s.rawLen := Nat.min_le_right _ _
          have sameLen := scan.rawLen
          by_cases last : volumeBundleRawSize ≤ (s.takeChunk blake3 target read).rawLen
          · rw [if_pos ⟨by rw [result, open'], last⟩]
            rcases closeBundle_cases scan with ⟨empty, -⟩ | failed | ⟨-, result', reader', closedScan⟩
            · simp at empty
            · exact .inl failed
            · refine .inr (.inr (.inr (.inr ⟨eof, ?_, by rw [reader', reader], by rw [result', result, open'],
                closedScan⟩)))
              omega
          · rw [if_neg fun both => last both.2]
            refine .inr (.inr (.inr (.inl ⟨eof, ?_, reader, by rw [result, open'], scan⟩)))
            omega
  · cases taken

end Pieces

end Fs0
