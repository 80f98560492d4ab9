import Fs0.Volume.Allocation

/-!
Contract: the data files hold what the rows of the chunks promise.

Owns:
- that the range of a chunk keeps the bytes of the call that inserted its row;
- that a read returns these bytes.

Does not own: what the bytes decompress to.
-/

set_option autoImplicit false

namespace Fs0

open Lib

/-! ## Bytes of a chunk -/

namespace ChunkMeta

/-- A byte of the data files is in the range of a chunk. -/
def Covers (chunk : ChunkMeta) (file offset : Nat) : Prop :=
  chunk.fileIndex = file ∧ chunk.fileOffset ≤ offset ∧
    offset < chunk.fileOffset + chunk.compressedLen

theorem volumeOffset_eq (chunk : ChunkMeta) :
    chunk.volumeOffset = volumeDefaultDataFileSize * chunk.fileIndex + chunk.fileOffset :=
  (Nat.div_add_mod chunk.volumeOffset volumeDefaultDataFileSize).symm

theorem Covers.contains {chunk : ChunkMeta} {file offset : Nat}
    (covers : chunk.Covers file offset) :
    chunk.extent.Contains (volumeDefaultDataFileSize * file + offset) := by
  obtain ⟨rfl, lower, upper⟩ := covers
  have split := chunk.volumeOffset_eq
  unfold Extent.Contains Extent.stop extent
  dsimp only
  omega

/-- Disjoint chunks share no byte of a data file. -/
theorem Covers.unique {left right : ChunkMeta} {file offset : Nat}
    (covers : left.Covers file offset) (apart : left.extent.Disjoint right.extent) :
    ¬ right.Covers file offset :=
  fun also => apart.not_contains covers.contains also.contains

/-- The content of a chunk depends on the bytes it covers only. -/
theorem readAt_congr {chunk : ChunkMeta} {files files' : DataFiles} {len : Nat}
    (fits : len ≤ chunk.compressedLen)
    (same : ∀ file offset, chunk.Covers file offset → files' file offset = files file offset) :
    files'.readAt chunk.fileIndex chunk.fileOffset len =
      files.readAt chunk.fileIndex chunk.fileOffset len := by
  apply slice_congr
  intro offset lower upper
  exact same chunk.fileIndex offset ⟨rfl, lower, by omega⟩

end ChunkMeta

/-- A write touches the bytes it is given for only. -/
theorem DataFiles.writeAt_of_not_covered {files : DataFiles} {chunk : ChunkMeta} {skip : Nat}
    {bytes : Bytes} (fits : skip + bytes.length ≤ chunk.compressedLen) {file offset : Nat}
    (outside : ¬ chunk.Covers file offset) :
    files.writeAt chunk.fileIndex (chunk.fileOffset + skip) bytes file offset =
      files file offset := by
  unfold DataFiles.writeAt
  split
  next same =>
    apply overwrite_outside
    by_contra inside
    exact outside ⟨same.symm, by omega, by omega⟩
  next => rfl

/-! ## Contents -/

/-- A call that writes the bytes it was given. -/
structure PutCall.Sound (blake3 : Bytes → HashId) (put : PutCall) : Prop where
  len : put.insert.compressedLen = put.bytes.length
  hash : put.insert.compressedHash = blake3 put.bytes

namespace Volume

/-- What the data files hold for the rows and for the calls under way. -/
structure Holds (blake3 : Bytes → HashId) (v : Volume) : Prop where
  inserted : ∀ put ∈ v.inserted, put.Sound blake3 ∧ put.insert.content v.files = put.bytes
  puts : ∀ put ∈ v.puts.rows, put.Sound blake3 ∧ put.written ≤ put.bytes.length ∧
    v.files.readAt put.insert.fileIndex put.insert.fileOffset put.written =
      put.bytes.take put.written
  reads : ∀ read ∈ v.reads.rows, read.got.length ≤ read.chunk.compressedLen ∧
    ∃ put ∈ v.inserted, put.insert = read.chunk ∧ read.got = put.bytes.take read.got.length
  returns : ∀ chunkId chunk bytes, .readChunk chunkId (.ok (chunk, bytes)) ∈ v.returns →
    chunk.chunkId = chunkId ∧ ∃ put ∈ v.inserted, put.insert = chunk ∧ put.bytes = bytes

namespace Holds

variable {blake3 : Bytes → HashId} {v v' : Volume} {e : VolumeEvent}

/-- Nothing but the calls under way has changed. -/
theorem of_calls (holds : v.Holds blake3) (files : v'.files = v.files)
    (inserted : v'.inserted = v.inserted) (puts : ∀ put ∈ v'.puts.rows, put ∈ v.puts.rows)
    (reads : ∀ read ∈ v'.reads.rows, read ∈ v.reads.rows)
    (returns : ∀ chunkId chunk bytes, .readChunk chunkId (.ok (chunk, bytes)) ∈ v'.returns →
      .readChunk chunkId (.ok (chunk, bytes)) ∈ v.returns ∨ chunk.chunkId = chunkId ∧
        ∃ put ∈ v.inserted, put.insert = chunk ∧ put.bytes = bytes) : v'.Holds blake3 := by
  refine ⟨?_, ?_, ?_, ?_⟩
  · rw [inserted, files]
    exact holds.inserted
  · rw [files]
    exact fun put member => holds.puts put (puts put member)
  · rw [inserted]
    exact fun read member => holds.reads read (reads read member)
  · rw [inserted]
    intro chunkId chunk bytes member
    rcases returns chunkId chunk bytes member with old | isNew
    · exact holds.returns chunkId chunk bytes old
    · exact isNew

theorem returns_of_cons {returns : List VolumeReturn} {r : VolumeReturn} {chunkId : HashId}
    {chunk : ChunkMeta} {bytes : Bytes}
    (member : .readChunk chunkId (.ok (chunk, bytes)) ∈ r :: returns)
    (other : r ≠ .readChunk chunkId (.ok (chunk, bytes))) :
    .readChunk chunkId (.ok (chunk, bytes)) ∈ returns :=
  (List.mem_cons.mp member).resolve_left fun same => other same.symm

/-- A call that is over after one section. -/
theorem of_returned (holds : v.Holds blake3) {db : VolumeDb} {r : VolumeReturn}
    (other : ∀ chunkId chunk bytes, r ≠ .readChunk chunkId (.ok (chunk, bytes))) :
    Holds blake3 ({ v with db := db }.returned r) :=
  holds.of_calls rfl rfl (fun _ => id) (fun _ => id) fun chunkId chunk bytes member =>
    .inl (returns_of_cons member (other chunkId chunk bytes))

theorem of_endPut (holds : v.Holds blake3) (put : PutCall) (result : Fs0Result ChunkMeta) :
    Holds blake3 (v.endPut put result) :=
  holds.of_calls rfl rfl (fun _ member => (SeqTable.mem_delete.mp member).1) (fun _ => id)
    fun _ _ _ member => .inl (returns_of_cons member nofun)

/-- The data files have changed outside the ranges of the rows and the prefixes written. -/
theorem of_files (holds : v.Holds blake3) {files : DataFiles}
    (inserted : ∀ put ∈ v.inserted, ∀ file offset, put.insert.Covers file offset →
      files file offset = v.files file offset)
    {puts : SeqTable PutCall.call}
    (written : ∀ put ∈ puts.rows, put.Sound blake3 ∧ put.written ≤ put.bytes.length ∧
      files.readAt put.insert.fileIndex put.insert.fileOffset put.written =
        put.bytes.take put.written) :
    Holds blake3 { v with files := files, puts := puts } := by
  refine ⟨?_, written, holds.reads, holds.returns⟩
  intro put member
  obtain ⟨sound, content⟩ := holds.inserted put member
  exact ⟨sound, (ChunkMeta.readAt_congr le_rfl (inserted put member)).trans content⟩

/-- The ranges of two calls under way are disjoint. -/
theorem puts_apart (allocates : v.Allocates) {put other : PutCall} (member : put ∈ v.puts.rows)
    (also : other ∈ v.puts.rows) (differs : put ≠ other) :
    put.insert.extent.Disjoint other.insert.extent := by
  have : Std.Symm fun left right : PutCall => left.insert.extent.Disjoint right.insert.extent :=
    ⟨fun _ _ disjoint => disjoint.symm⟩
  have writing := List.pairwise_map.mp (List.pairwise_append.mp allocates.apart).2.1
  exact writing.forall member also differs

/-- The range of a row is disjoint from the range of a call under way. -/
theorem inserted_apart (allocates : v.Allocates) {put other : PutCall}
    (member : put ∈ v.inserted) (also : other ∈ v.puts.rows) :
    put.insert.extent.Disjoint other.insert.extent :=
  (List.pairwise_append.mp allocates.apart).2.2 _ (List.mem_map_of_mem member) _
    (List.mem_map_of_mem also)

theorem of_write (holds : v.Holds blake3) (allocates : v.Allocates) {put : PutCall} {count : Nat}
    (found : v.puts.find? put.call = some put)
    (fits : put.written + count ≤ put.bytes.length) :
    Holds blake3 { v with
      files := v.files.writeAt put.insert.fileIndex (put.insert.fileOffset + put.written)
        ((put.bytes.drop put.written).take count)
      puts := v.puts.replace { put with written := put.written + count } } := by
  obtain ⟨member, -⟩ := Table.mem_of_find? found
  obtain ⟨sound, bound, written⟩ := holds.puts put member
  have taken : ((put.bytes.drop put.written).take count).length = count := by
    rw [List.length_take, List.length_drop]
    omega
  have inRange : put.written + ((put.bytes.drop put.written).take count).length ≤
      put.insert.compressedLen := by
    rw [taken, sound.len]
    exact fits
  apply holds.of_files
  · intro earlier among file offset covers
    exact DataFiles.writeAt_of_not_covered inRange
      (covers.unique (inserted_apart allocates among member))
  · intro other among
    rcases SeqTable.mem_replace among with rfl | ⟨old, differs⟩
    · refine ⟨⟨sound.len, sound.hash⟩, fits, ?_⟩
      unfold DataFiles.readAt DataFiles.writeAt
      dsimp only
      rw [if_pos rfl]
      have appended := slice_overwrite_append (v.files put.insert.fileIndex)
        put.insert.fileOffset put.written ((put.bytes.drop put.written).take count)
      rw [taken] at appended
      rw [appended, List.take_add]
      exact congrArg (· ++ (put.bytes.drop put.written).take count) written
    · obtain ⟨otherSound, otherBound, otherWritten⟩ := holds.puts other old
      refine ⟨otherSound, otherBound, (ChunkMeta.readAt_congr ?_ ?_).trans otherWritten⟩
      · exact otherSound.len ▸ otherBound
      · intro file offset covers
        apply DataFiles.writeAt_of_not_covered inRange
        apply covers.unique (puts_apart allocates old member ?_)
        rintro rfl
        exact differs rfl

theorem of_inserted (holds : v.Holds blake3) {put : PutCall} {chunks : Table ChunkMeta.chunkId}
    (found : v.puts.find? put.call = some put) (complete : put.written = put.bytes.length) :
    Holds blake3 ({ v with
      db := ({ v.tables with chunks := chunks }, v.db.2)
      inserted := put :: v.inserted }.endPut put (.ok put.insert)) := by
  obtain ⟨sound, -, written⟩ := holds.puts put (Table.mem_of_find? found).1
  refine ⟨?_, ?_, ?_, ?_⟩
  · intro other member
    rcases List.mem_cons.mp member with rfl | old
    · refine ⟨sound, ?_⟩
      unfold ChunkMeta.content
      rw [sound.len, ← complete]
      refine written.trans ?_
      rw [complete, List.take_length]
    · exact holds.inserted other old
  · exact fun other member => holds.puts other (SeqTable.mem_delete.mp member).1
  · intro read member
    obtain ⟨bound, earlier, among, isGot⟩ := holds.reads read member
    exact ⟨bound, earlier, List.mem_cons_of_mem _ among, isGot⟩
  · intro chunkId chunk bytes member
    obtain ⟨isId, earlier, among, isBytes⟩ :=
      holds.returns chunkId chunk bytes (returns_of_cons member nofun)
    exact ⟨isId, earlier, List.mem_cons_of_mem _ among, isBytes⟩

theorem of_read (holds : v.Holds blake3) {read : ReadCall} {count : Nat}
    (found : v.reads.find? read.call = some read)
    (fits : read.got.length + count ≤ read.chunk.compressedLen) :
    Holds blake3 { v with
      reads := v.reads.replace { read with
        got := read.got ++ v.files.readAt read.chunk.fileIndex
          (read.chunk.fileOffset + read.got.length) count } } := by
  obtain ⟨-, put, inserted, isChunk, got⟩ := holds.reads read (Table.mem_of_find? found).1
  obtain ⟨-, content⟩ := holds.inserted put inserted
  rw [isChunk] at content
  have part : v.files.readAt read.chunk.fileIndex (read.chunk.fileOffset + read.got.length) count =
      (put.bytes.drop read.got.length).take count := by
    rw [← content]
    exact (slice_drop_take _ _ _ _ _ fits).symm
  have len : (read.got ++ v.files.readAt read.chunk.fileIndex
      (read.chunk.fileOffset + read.got.length) count).length = read.got.length + count := by
    rw [List.length_append]
    exact congrArg _ (slice_length _ _ _)
  refine ⟨holds.inserted, holds.puts, ?_, holds.returns⟩
  intro other member
  rcases SeqTable.mem_replace member with rfl | ⟨old, -⟩
  · refine ⟨len.trans_le fits, put, inserted, isChunk, ?_⟩
    rw [len, List.take_add, ← got, part]
  · exact holds.reads other old

theorem of_reopen (holds : v.Holds blake3) (allocates : v.Allocates) (torn : DataFiles) :
    Holds blake3 (v.reopen torn) := by
  refine ⟨?_, ?_, ?_, holds.returns⟩
  · intro put member
    obtain ⟨sound, content⟩ := holds.inserted put member
    refine ⟨sound, (ChunkMeta.readAt_congr le_rfl fun file offset covers => ?_).trans content⟩
    apply if_neg
    rintro ⟨other, among, inFile, lower, upper⟩
    exact covers.unique (inserted_apart allocates member among) ⟨inFile, lower, upper⟩
  · simp [Volume.reopen]
  · simp [Volume.reopen]

theorem of_step (holds : v.Holds blake3) (allocates : v.Allocates)
    (step : VolumeStep blake3 v e v') : v'.Holds blake3 := by
  cases step with
  | stored chunkId rawLen bytes now existing checked found same => exact holds.of_returned nofun
  | refused chunkId rawLen bytes now err ran => exact holds.of_returned nofun
  | reserved chunkId rawLen bytes now insert db reserved =>
      refine ⟨holds.inserted, ?_, holds.reads, holds.returns⟩
      intro put member
      rcases mem_appended.mp member with old | rfl
      · exact holds.puts put old
      · exact ⟨by rw [reserved.insert_eq]; exact ⟨rfl, rfl⟩, Nat.zero_le _, rfl⟩
  | write put count found fits slot => exact holds.of_write allocates found fits
  | failWrite put err found => exact holds.of_endPut put _
  | inserted put chunks found complete fits appended => exact holds.of_inserted found complete
  | known put existing found complete fits row => exact holds.of_endPut put _
  | unfit put err found complete unfit => exact holds.of_endPut put _
  | readChunk chunk found =>
      refine ⟨holds.inserted, holds.puts, ?_, holds.returns⟩
      intro read member
      rcases mem_appended.mp member with old | rfl
      · exact holds.reads read old
      · obtain ⟨put, inserted, isChunk⟩ := allocates.rows chunk (Table.mem_of_find? found).1
        exact ⟨Nat.zero_le _, put, inserted, isChunk, rfl⟩
  | readMissing chunkId err absent => exact holds.of_returned nofun
  | read read count found fits => exact holds.of_read found fits
  | failRead read err found =>
      exact holds.of_calls rfl rfl (fun _ => id) (fun _ member => (SeqTable.mem_delete.mp member).1)
        fun _ _ _ member => .inl (returns_of_cons member nofun)
  | endRead read found complete =>
      refine holds.of_calls rfl rfl (fun _ => id)
        (fun _ member => (SeqTable.mem_delete.mp member).1) ?_
      intro chunkId chunk bytes member
      rcases List.mem_cons.mp member with same | old
      · obtain ⟨rfl, isResult⟩ := VolumeReturn.readChunk.inj same
        obtain ⟨rfl, rfl⟩ := Prod.mk.inj (Except.ok.inj isResult)
        obtain ⟨-, put, inserted, isChunk, got⟩ :=
          holds.reads read (Table.mem_of_find? found).1
        obtain ⟨sound, -⟩ := holds.inserted put inserted
        refine .inr ⟨rfl, put, inserted, isChunk, ?_⟩
        rw [got, complete, ← isChunk, sound.len, List.take_length]
      · exact .inl old
  | deleteChunk chunkId => exact holds.of_returned nofun
  | commitBundle bundleId chunks commit => exact holds.of_returned nofun
  | deleteBundle bundleId commit => exact holds.of_returned nofun
  | removeBundleChangeRecords maxEventId => exact holds.of_returned nofun
  | reopen torn => exact holds.of_reopen allocates torn

end Holds

/-! ## Rows that were read -/

section Reads

variable {blake3 : Bytes → HashId} {v v' : Volume} {e : VolumeEvent}
  {ts : List (Transition Volume VolumeEvent)}

/-- A row was loaded by a call of `read_chunk`. -/
def Loaded (ts : List (Transition Volume VolumeEvent)) (chunkId : HashId) (chunk : ChunkMeta) :
    Prop :=
  ∃ t ∈ ts, t.event = .readChunk chunkId ∧ t.pre.tables.chunks.find? chunkId = some chunk

theorem step_reads (step : VolumeStep blake3 v e v') : ∀ read ∈ v'.reads.rows,
    (∃ old ∈ v.reads.rows, old.chunk = read.chunk) ∨ e = .readChunk read.chunk.chunkId ∧
      v.tables.chunks.find? read.chunk.chunkId = some read.chunk := by
  cases step with
  | readChunk chunk found =>
      intro read member
      rcases mem_appended.mp member with old | rfl
      · exact .inl ⟨read, old, rfl⟩
      · exact .inr ⟨rfl, found⟩
  | read read count found fits =>
      intro other member
      rcases SeqTable.mem_replace member with rfl | ⟨old, -⟩
      · exact .inl ⟨read, (Table.mem_of_find? found).1, rfl⟩
      · exact .inl ⟨other, old, rfl⟩
  | failRead read err found =>
      exact fun other member => .inl ⟨other, (SeqTable.mem_delete.mp member).1, rfl⟩
  | endRead read found complete =>
      exact fun other member => .inl ⟨other, (SeqTable.mem_delete.mp member).1, rfl⟩
  | reopen torn =>
      intro read member
      simp [Volume.reopen] at member
  | _ => exact fun read member => .inl ⟨read, member, rfl⟩

theorem step_returns {chunkId : HashId} {chunk : ChunkMeta} {bytes : Bytes}
    (step : VolumeStep blake3 v e v')
    (member : .readChunk chunkId (.ok (chunk, bytes)) ∈ v'.returns) :
    .readChunk chunkId (.ok (chunk, bytes)) ∈ v.returns ∨
      ∃ read ∈ v.reads.rows, read.chunk = chunk ∧ chunk.chunkId = chunkId := by
  cases step with
  | endRead read found complete =>
      rcases List.mem_cons.mp member with same | old
      · obtain ⟨rfl, isResult⟩ := VolumeReturn.readChunk.inj same
        obtain ⟨rfl, -⟩ := Prod.mk.inj (Except.ok.inj isResult)
        exact .inr ⟨read, (Table.mem_of_find? found).1, rfl, rfl⟩
      · exact .inl old
  | reserved chunkId rawLen bytes now insert db reserved => exact .inl member
  | write put count found fits slot => exact .inl member
  | readChunk chunk found => exact .inl member
  | read read count found fits => exact .inl member
  | reopen torn => exact .inl member
  | _ => exact .inl (Holds.returns_of_cons member nofun)

theorem loaded_of_run (run : (volume blake3).Run ts v) :
    (∀ read ∈ v.reads.rows, Loaded ts read.chunk.chunkId read.chunk) ∧
    ∀ chunkId chunk bytes, .readChunk chunkId (.ok (chunk, bytes)) ∈ v.returns →
      Loaded ts chunkId chunk := by
  induction run with
  | init initial =>
      obtain ⟨tables, files, -, rfl⟩ := initial
      exact ⟨fun read member => absurd member List.not_mem_nil,
        fun chunkId chunk bytes member => absurd member List.not_mem_nil⟩
  | @step ts v v' e run taken inductionHypothesis =>
      obtain ⟨reads, returns⟩ := inductionHypothesis
      have step := step_cases taken
      have later : ∀ {chunkId chunk}, Loaded ts chunkId chunk →
          Loaded (⟨v, e, v'⟩ :: ts) chunkId chunk :=
        fun ⟨t, member, loaded⟩ => ⟨t, List.mem_cons_of_mem _ member, loaded⟩
      constructor
      · intro read member
        rcases step_reads step read member with ⟨old, among, same⟩ | ⟨isRead, found⟩
        · exact later (same ▸ reads old among)
        · exact ⟨_, List.mem_cons_self, isRead, found⟩
      · intro chunkId chunk bytes member
        rcases step_returns step member with old | ⟨read, among, rfl, rfl⟩
        · exact later (returns chunkId chunk bytes old)
        · exact later (reads read among)

theorem reachable_holds (reachable : (volume blake3).Reachable v) : v.Holds blake3 := by
  have both := reachable.invariant (fun v => v.Allocates ∧ v.Holds blake3) ?_ ?_
  · exact both.2
  · intro v initial
    refine ⟨allocates_init initial, ?_⟩
    obtain ⟨tables, files, -, rfl⟩ := initial
    exact ⟨fun put member => absurd member List.not_mem_nil,
      fun put member => absurd member List.not_mem_nil,
      fun read member => absurd member List.not_mem_nil,
      fun chunkId chunk bytes member => absurd member List.not_mem_nil⟩
  · rintro v e v' ⟨allocates, holds⟩ taken
    have step := step_cases taken
    exact ⟨allocates.of_step step, holds.of_step allocates step⟩

/-- Every row describes the bytes in its range, and a read that succeeds returns the
bytes of the call that inserted the row it loaded. -/
theorem chunk_contents (run : (volume blake3).Run ts v) :
    (∀ chunk ∈ v.tables.chunks.rows, blake3 (chunk.content v.files) = chunk.compressedHash ∧
      (chunk.content v.files).length = chunk.compressedLen) ∧
    ∀ chunkId chunk bytes, .readChunk chunkId (.ok (chunk, bytes)) ∈ v.returns →
      Loaded ts chunkId chunk ∧ (∃ put ∈ v.inserted, put.insert = chunk) ∧
        ∀ put ∈ v.inserted, put.insert = chunk → bytes = put.bytes := by
  have holds := reachable_holds run.reachable
  constructor
  · intro chunk member
    obtain ⟨put, inserted, rfl⟩ := (reachable_allocates run.reachable).rows chunk member
    obtain ⟨sound, content⟩ := holds.inserted put inserted
    rw [content]
    exact ⟨sound.hash.symm, sound.len.symm⟩
  · intro chunkId chunk bytes member
    obtain ⟨-, put, inserted, isChunk, rfl⟩ := holds.returns chunkId chunk bytes member
    refine ⟨(loaded_of_run run).2 chunkId chunk _ member, ⟨put, inserted, isChunk⟩, ?_⟩
    intro other among same
    rw [← (holds.inserted put inserted).2, ← (holds.inserted other among).2, isChunk, same]

theorem chunk_contents_read : ∃ ts v, (volume Scenario.blake3).Run ts v ∧
    .readChunk (Scenario.hash 7) (.ok (⟨Scenario.hash 7, Scenario.hash 1, 0, 5, 3⟩, [1, 2, 3])) ∈
      v.returns ∧
    ∀ chunk ∈ v.tables.chunks.rows,
      Scenario.blake3 (chunk.content v.files) = chunk.compressedHash ∧
      (chunk.content v.files).length = chunk.compressedLen := by
  obtain ⟨ts, v, run, returned⟩ := Scenario.run_of_exec
    (Scenario.stored 1 (Scenario.hash 7) 5 [1, 2, 3] ++
      [.readChunk (Scenario.hash 7), .read 1 2, .deleteChunk (Scenario.hash 7), .read 1 1,
        .endRead 1])
    (fun v => decide (VolumeReturn.readChunk (Scenario.hash 7)
      (.ok (⟨Scenario.hash 7, Scenario.hash 1, 0, 5, 3⟩, [1, 2, 3])) ∈ v.returns))
    true (by decide +kernel)
  exact ⟨ts, v, run, of_decide_eq_true returned, (chunk_contents run).1⟩

end Reads

end Volume

end Fs0
