import Fs0.Volume.Sections
import Fs0.Lib.Page

/-!
Contract: the ranges of a volume never overlap and never leave the data files.

Owns:
- the ranges of the rows and of the calls under way;
- that ranges are taken above all earlier ones, within one data file and within the
  volume, and that the offset arithmetic is exact.

Does not own: the bytes in the ranges.
-/

set_option autoImplicit false

namespace Fs0

open Lib

/-! ## Offsets -/

namespace Volume

theorem dataFileSize_bounds : 0 < volumeDefaultDataFileSize ∧
    i64Max + 2 * volumeDefaultDataFileSize + 1 < u64Modulus := by
  decide

/-- The next data file that `put_chunk` computes is the exact one. -/
theorem chunkOffset_eq_place {activeVolumeOffset compressedLen : Nat}
    (active : activeVolumeOffset ≤ i64Max) (len : compressedLen ≤ volumeDefaultDataFileSize) :
    chunkOffset activeVolumeOffset compressedLen =
        Page.place volumeDefaultDataFileSize activeVolumeOffset compressedLen ∧
      activeVolumeOffset % volumeDefaultDataFileSize + compressedLen < u64Modulus ∧
      activeVolumeOffset / volumeDefaultDataFileSize + 1 < u64Modulus ∧
      (activeVolumeOffset / volumeDefaultDataFileSize + 1) * volumeDefaultDataFileSize <
        u64Modulus := by
  obtain ⟨positive, room⟩ := dataFileSize_bounds
  unfold chunkOffset Page.place
  generalize volumeDefaultDataFileSize = size at *
  have below := Nat.mod_lt activeVolumeOffset positive
  have split := Nat.div_add_mod activeVolumeOffset size
  have quotient : activeVolumeOffset / size ≤ activeVolumeOffset := Nat.div_le_self _ _
  have next : (activeVolumeOffset / size + 1) * size =
      size * (activeVolumeOffset / size) + size := by ring
  have sum : activeVolumeOffset % size + compressedLen < u64Modulus := by omega
  have index : activeVolumeOffset / size + 1 < u64Modulus := by omega
  have product : (activeVolumeOffset / size + 1) * size < u64Modulus := by omega
  rw [wrappingAdd_of_lt sum, wrappingAdd_of_lt index, wrappingMul_of_lt product]
  exact ⟨rfl, sum, index, product⟩

theorem lt_divCeil {value divisor position : Nat} (inside : position < value) :
    position / divisor < divCeil value divisor := by
  rcases Nat.eq_zero_or_pos divisor with rfl | positive
  · unfold divCeil
    rw [Nat.mod_zero, if_neg (by omega), Nat.div_zero]
    omega
  · have ordered : position / divisor ≤ value / divisor := Nat.div_le_div_right inside.le
    unfold divCeil
    split
    next whole =>
      apply (Nat.div_lt_iff_lt_mul positive).mpr
      have split := Nat.div_add_mod value divisor
      rw [whole, Nat.add_zero, Nat.mul_comm] at split
      omega
    next => omega

end Volume

/-! ## Ranges -/

namespace Volume

/-- The chunks that have or had a row, and the ones calls are writing. -/
def claims (v : Volume) : List ChunkMeta :=
  v.inserted.map PutCall.insert ++ v.puts.rows.map PutCall.insert

/-- The ranges of the stored chunks and of the reservations under way. -/
def ranges (v : Volume) : List Extent :=
  v.tables.chunks.rows.map ChunkMeta.extent ++
    v.puts.rows.map fun put => put.insert.extent

/-- A range that a chunk may take. -/
structure Placed (active : Nat) (chunk : ChunkMeta) : Prop where
  nonempty : 0 < chunk.compressedLen
  inFile : chunk.volumeOffset % volumeDefaultDataFileSize + chunk.compressedLen ≤
    volumeDefaultDataFileSize
  below : chunk.volumeOffset + chunk.compressedLen ≤ active

/-- The allocator of a volume: every claim was placed above the ones before it. -/
structure Allocates (v : Volume) : Prop where
  known : v.db.2 = v.tables.volumeMeta
  slots : v.slots = divCeil v.tables.volumeMeta.maxBytes volumeDefaultDataFileSize
  active : v.tables.volumeMeta.activeVolumeOffset ≤ v.tables.volumeMeta.maxBytes
  maxBytes : v.tables.volumeMeta.maxBytes ≤ i64Max
  rows : ∀ chunk ∈ v.tables.chunks.rows, ∃ put ∈ v.inserted, put.insert = chunk
  reads : ∀ read ∈ v.reads.rows, ∃ put ∈ v.inserted, put.insert = read.chunk
  placed : ∀ chunk ∈ v.claims, Placed v.tables.volumeMeta.activeVolumeOffset chunk
  apart : v.claims.Pairwise fun left right => left.extent.Disjoint right.extent

theorem Placed.mono {active active' : Nat} {chunk : ChunkMeta} (placed : Placed active chunk)
    (raised : active ≤ active') : Placed active' chunk :=
  ⟨placed.nonempty, placed.inFile, placed.below.trans raised⟩

namespace Allocates

variable {blake3 : Bytes → HashId} {v v' : Volume} {e : VolumeEvent}

/-- Fewer or reordered claims on the same metadata. -/
theorem of_claims (allocates : v.Allocates) (known : v'.db.2 = v.db.2)
    (volumeMeta : v'.tables.volumeMeta = v.tables.volumeMeta) (slots : v'.slots = v.slots)
    (rows : ∀ chunk ∈ v'.tables.chunks.rows, ∃ put ∈ v'.inserted, put.insert = chunk)
    (reads : ∀ read ∈ v'.reads.rows, ∃ put ∈ v'.inserted, put.insert = read.chunk)
    (claims : ∃ kept, List.Perm v'.claims kept ∧ List.Sublist kept v.claims) :
    v'.Allocates := by
  obtain ⟨kept, perm, sublist⟩ := claims
  refine ⟨?_, ?_, ?_, ?_, rows, reads, ?_, ?_⟩
  · rw [known, allocates.known, volumeMeta]
  · rw [slots, allocates.slots, volumeMeta]
  · rw [volumeMeta]
    exact allocates.active
  · rw [volumeMeta]
    exact allocates.maxBytes
  · intro chunk member
    rw [volumeMeta]
    exact allocates.placed chunk (sublist.subset (perm.mem_iff.mp member))
  · exact perm.symm.pairwise (allocates.apart.sublist sublist) fun apart => apart.symm

theorem endPut_claims (v : Volume) (put : PutCall) (result : Fs0Result ChunkMeta) :
    List.Sublist (v.endPut put result).claims v.claims :=
  List.Sublist.append_left (List.filter_sublist.map _) _

/-- A reservation begins where the last one stopped or later, and has a length. -/
theorem reserved_above {chunkId : HashId} {rawLen now : Nat} {bytes : Bytes} {insert : ChunkMeta}
    {db : VolumeDb} (allocates : v.Allocates)
    (reserved : Reserved blake3 v.db chunkId rawLen bytes now insert db) :
    0 < bytes.length ∧ bytes.length ≤ volumeDefaultDataFileSize ∧
      insert.volumeOffset = Page.place volumeDefaultDataFileSize
        v.tables.volumeMeta.activeVolumeOffset bytes.length ∧
      v.tables.volumeMeta.activeVolumeOffset ≤ insert.volumeOffset := by
  obtain ⟨nonempty, inFile⟩ : 0 < bytes.length ∧ bytes.length ≤ volumeDefaultDataFileSize := by
    have checked := reserved.checked
    unfold checkChunk at checked
    split at checked
    · cases checked
    · split at checked
      · cases checked
      · split at checked
        · cases checked
        · exact ⟨List.length_pos_iff.mpr ‹_›, by omega⟩
  have offset : insert.volumeOffset = Page.place volumeDefaultDataFileSize
      v.tables.volumeMeta.activeVolumeOffset bytes.length := by
    rw [reserved.insert_eq, ← allocates.known]
    apply (chunkOffset_eq_place ?_ inFile).1
    rw [allocates.known]
    exact allocates.active.trans allocates.maxBytes
  exact ⟨nonempty, inFile, offset, offset ▸ Page.le_place dataFileSize_bounds.1⟩

theorem of_reserved {chunkId : HashId} {rawLen now : Nat} {bytes : Bytes} {insert : ChunkMeta}
    {db : VolumeDb} (allocates : v.Allocates)
    (reserved : Reserved blake3 v.db chunkId rawLen bytes now insert db) :
    Allocates { v with
      db := db
      puts := v.puts.push (fun call => ⟨call, insert, bytes, 0⟩) fun _ => rfl } := by
  obtain ⟨nonempty, inFile, offset, above⟩ := allocates.reserved_above reserved
  obtain ⟨checked, absent, insertEq, fits, room, bound, nowFits, known, rfl, isKnown⟩ := reserved
  have maxBytes := allocates.maxBytes
  have len : insert.compressedLen = bytes.length := by rw [insertEq]
  have isActive : known.activeVolumeOffset = insert.volumeOffset + bytes.length := by
    rw [isKnown]
    exact max_eq_right (above.trans (Nat.le_add_right _ _))
  have isMax : known.maxBytes = v.tables.volumeMeta.maxBytes := by rw [isKnown]; rfl
  rw [allocates.known] at room
  have claims : Volume.claims { v with
      db := ({ v.db.1 with volumeMeta := known }, known)
      puts := v.puts.push (fun call => ⟨call, insert, bytes, 0⟩) fun _ => rfl } =
      v.claims ++ [insert] := by
    simp [Volume.claims]
  refine ⟨rfl, ?_, ?_, ?_, allocates.rows, allocates.reads, ?_, ?_⟩
  · exact allocates.slots.trans (by rw [← isMax]; rfl)
  · exact isActive ▸ isMax ▸ room
  · exact isMax ▸ maxBytes
  · intro chunk member
    rw [claims] at member
    rcases mem_appended.mp member with old | rfl
    · refine (allocates.placed chunk old).mono ?_
      exact above.trans ((Nat.le_add_right _ _).trans isActive.ge)
    · refine ⟨len ▸ nonempty, ?_, ?_⟩
      · rw [offset, len]
        exact Page.place_fits inFile
      · rw [len]
        exact isActive.ge
  · rw [claims]
    refine List.pairwise_append.mpr ⟨allocates.apart, List.pairwise_singleton _ _, ?_⟩
    intro old oldMem new newMem
    rw [List.mem_singleton.mp newMem]
    exact .inl ((allocates.placed old oldMem).below.trans above)

theorem of_sameChunks (allocates : v.Allocates) {db : VolumeDb} {r : VolumeReturn}
    (same : SameChunks v.db db) : Allocates ({ v with db := db }.returned r) := by
  refine allocates.of_claims same.known same.volumeMeta rfl ?_ allocates.reads
    ⟨v.claims, .refl _, .refl _⟩
  intro chunk member
  exact allocates.rows chunk (same.chunks ▸ member)

theorem of_step (allocates : v.Allocates) (step : VolumeStep blake3 v e v') : v'.Allocates := by
  cases step with
  | stored chunkId rawLen bytes now existing checked found same =>
      exact allocates.of_sameChunks (.refl v.db)
  | refused chunkId rawLen bytes now err ran => exact allocates.of_sameChunks (.refl v.db)
  | reserved chunkId rawLen bytes now insert db reserved => exact allocates.of_reserved reserved
  | write put count found fits slot =>
      have kept : (v.puts.replace { put with written := put.written + count }).rows.map
          PutCall.insert = v.puts.rows.map PutCall.insert :=
        SeqTable.map_replace (Table.mem_of_find? found).1 rfl rfl
      exact allocates.of_claims rfl rfl rfl allocates.rows allocates.reads
        ⟨v.claims, .of_eq (congrArg (v.inserted.map PutCall.insert ++ ·) kept), .refl _⟩
  | failWrite put err found =>
      exact allocates.of_claims rfl rfl rfl allocates.rows allocates.reads
        ⟨_, .refl _, endPut_claims v put _⟩
  | inserted put chunks found complete fits appended =>
      obtain ⟨rows, -⟩ := Table.insert?_eq_some appended
      refine allocates.of_claims rfl rfl rfl ?_ ?_ ⟨v.claims, ?_, .refl _⟩
      · intro chunk member
        rcases mem_appended.mp (rows ▸ member) with old | rfl
        · obtain ⟨earlier, among, isChunk⟩ := allocates.rows chunk old
          exact ⟨earlier, List.mem_cons_of_mem _ among, isChunk⟩
        · exact ⟨put, List.mem_cons_self, rfl⟩
      · intro read member
        obtain ⟨earlier, among, isChunk⟩ := allocates.reads read member
        exact ⟨earlier, List.mem_cons_of_mem _ among, isChunk⟩
      · have perm := (Table.perm_delete (Table.mem_of_find? found).1).map PutCall.insert
        exact (List.perm_middle.symm.trans (List.Perm.append_left _ perm.symm) : _)
  | known put existing found complete fits row =>
      exact allocates.of_claims rfl rfl rfl allocates.rows allocates.reads
        ⟨_, .refl _, endPut_claims v put _⟩
  | unfit put err found complete unfit =>
      exact allocates.of_claims rfl rfl rfl allocates.rows allocates.reads
        ⟨_, .refl _, endPut_claims v put _⟩
  | readChunk chunk found =>
      refine allocates.of_claims rfl rfl rfl allocates.rows ?_ ⟨v.claims, .refl _, .refl _⟩
      intro read member
      rcases mem_appended.mp member with old | rfl
      · exact allocates.reads read old
      · exact allocates.rows chunk (Table.mem_of_find? found).1
  | readMissing chunkId err absent => exact allocates.of_sameChunks (.refl v.db)
  | read read count found fits =>
      refine allocates.of_claims rfl rfl rfl allocates.rows ?_ ⟨v.claims, .refl _, .refl _⟩
      intro other member
      rcases SeqTable.mem_replace member with rfl | ⟨old, -⟩
      · exact allocates.reads read (Table.mem_of_find? found).1
      · exact allocates.reads other old
  | failRead read err found =>
      exact allocates.of_claims rfl rfl rfl allocates.rows
        (fun other member => allocates.reads other (SeqTable.mem_delete.mp member).1)
        ⟨v.claims, .refl _, .refl _⟩
  | endRead read found complete =>
      exact allocates.of_claims rfl rfl rfl allocates.rows
        (fun other member => allocates.reads other (SeqTable.mem_delete.mp member).1)
        ⟨v.claims, .refl _, .refl _⟩
  | deleteChunk chunkId =>
      rcases deleteChunk_cases chunkId v.db with same | ⟨-, deleted⟩
      · unfold ran
        rw [same]
        exact allocates.of_sameChunks (.refl v.db)
      · unfold ran
        rw [deleted]
        exact allocates.of_claims rfl rfl rfl
          (fun chunk member => allocates.rows chunk (Table.mem_delete.mp member).1)
          allocates.reads ⟨v.claims, .refl _, .refl _⟩
  | commitBundle bundleId chunks commit =>
      exact allocates.of_sameChunks (commitBundle_keepsChunks commit bundleId chunks v.db)
  | deleteBundle bundleId commit =>
      exact allocates.of_sameChunks (deleteBundle_keepsChunks commit bundleId v.db)
  | removeBundleChangeRecords maxEventId =>
      exact allocates.of_sameChunks (removeBundleChangeRecords_keepsChunks maxEventId v.db)
  | reopen torn =>
      refine ⟨rfl, rfl, allocates.active, allocates.maxBytes, allocates.rows, ?_, ?_, ?_⟩
      · simp [Volume.reopen]
      · intro chunk member
        have kept : chunk ∈ v.inserted.map PutCall.insert := by
          simpa [claims, Volume.reopen] using member
        exact allocates.placed chunk (List.mem_append_left _ kept)
      · have kept : Volume.claims (v.reopen torn) = v.inserted.map PutCall.insert := by
          simp [claims, Volume.reopen]
        rw [kept]
        exact (List.pairwise_append.mp allocates.apart).1

end Allocates

/-! ## Initialised volumes -/

/-- The tables of a volume nothing was put into. -/
structure Fresh (tables : VolumeTables) : Prop where
  chunks : tables.chunks = .empty
  bundleChunks : tables.bundleChunks = .empty
  records : tables.bundleChangeRecords = .empty
  active : tables.volumeMeta.activeVolumeOffset = 0
  minBytes : volumeDefaultDataFileSize ≤ tables.volumeMeta.maxBytes
  maxBytes : tables.volumeMeta.maxBytes ≤ i64Max

theorem initFs_eq_ok {maxBytes now : Nat} {db : VolumeDb} (ran : initFs maxBytes now = .ok db) :
    Fresh db.1 := by
  unfold initFs at ran
  split at ran
  · cases ran
  next large =>
    obtain ⟨volumeId, -, ran⟩ := Fs0Result.bind_eq_ok.mp ran
    obtain ⟨formatVersion, -, ran⟩ := Fs0Result.bind_eq_ok.mp ran
    obtain ⟨bytes, bound, ran⟩ := Fs0Result.bind_eq_ok.mp ran
    obtain ⟨active, zero, ran⟩ := Fs0Result.bind_eq_ok.mp ran
    obtain ⟨created, -, ran⟩ := Fs0Result.bind_eq_ok.mp ran
    obtain ⟨updated, -, ran⟩ := Fs0Result.bind_eq_ok.mp ran
    obtain rfl := Except.ok.inj ran
    obtain ⟨fits, rfl⟩ := u64ToI64_eq_ok.mp bound
    obtain ⟨-, rfl⟩ := u64ToI64_eq_ok.mp zero
    exact ⟨rfl, rfl, rfl, rfl, not_lt.mp large, fits⟩

theorem Initialised.fresh {tables : VolumeTables} (initialised : Initialised tables) :
    Fresh tables := by
  induction initialised with
  | created ran => exact initFs_eq_ok ran
  | @assigned tables volumeId now known db before ran inductionHypothesis =>
      obtain ⟨earlier, db₁, first, ran⟩ := Fallible.bind_eq_ok.mp ran
      obtain ⟨rfl, rfl⟩ := EStateM.Result.ok.inj first
      obtain ⟨-, ran⟩ := Fallible.require_bind_eq_ok.mp ran
      obtain ⟨-, ran⟩ := Statement.bindU64_bind_eq_ok.mp ran
      obtain ⟨-, ran⟩ := Statement.bindU64_bind_eq_ok.mp ran
      obtain ⟨done, db₂, executed, ran⟩ := Fallible.bind_eq_ok.mp ran
      obtain ⟨updated, -⟩ := Statement.execute_eq_ok.mp executed
      obtain ⟨-, isTables⟩ := Prod.mk.inj (Except.ok.inj updated)
      obtain ⟨-, rfl⟩ := EStateM.Result.ok.inj ran
      rw [← show _ = db₂.1 from isTables]
      exact ⟨inductionHypothesis.chunks, inductionHypothesis.bundleChunks,
        inductionHypothesis.records, inductionHypothesis.active, inductionHypothesis.minBytes,
        inductionHypothesis.maxBytes⟩

theorem allocates_init {blake3 : Bytes → HashId} {v : Volume} (initial : (volume blake3).Init v) :
    v.Allocates := by
  obtain ⟨tables, files, initialised, rfl⟩ := initial
  have fresh := initialised.fresh
  refine ⟨rfl, rfl, ?_, fresh.maxBytes, ?_, ?_, ?_, List.Pairwise.nil⟩
  · exact fresh.active.trans_le (Nat.zero_le _)
  · intro chunk member
    have none : chunk ∈ (Table.empty : Table ChunkMeta.chunkId).rows := fresh.chunks ▸ member
    cases none
  · exact fun read member => absurd member List.not_mem_nil
  · exact fun chunk member => absurd member List.not_mem_nil

/-! ## Layout -/

/-- The offsets of a volume: within its capacity, disjoint, each in one data file. -/
structure Layout (v : Volume) : Prop where
  known : v.db.2 = v.tables.volumeMeta
  active : v.tables.volumeMeta.activeVolumeOffset ≤ v.tables.volumeMeta.maxBytes
  disjoint : v.ranges.Pairwise Extent.Disjoint
  below : ∀ range ∈ v.ranges, range.stop ≤ v.tables.volumeMeta.activeVolumeOffset
  inFile : ∀ range ∈ v.ranges, ∀ position, range.Contains position →
    position / volumeDefaultDataFileSize = range.start / volumeDefaultDataFileSize
  slot : ∀ range ∈ v.ranges, range.start / volumeDefaultDataFileSize < v.slots
  /-- The sums and products of the next `put_chunk` stay below `2 ^ 64`. -/
  arithmetic : ∀ compressedLen ≤ volumeDefaultDataFileSize,
    v.db.2.activeVolumeOffset % volumeDefaultDataFileSize + compressedLen < u64Modulus ∧
    v.db.2.activeVolumeOffset / volumeDefaultDataFileSize + 1 < u64Modulus ∧
    (v.db.2.activeVolumeOffset / volumeDefaultDataFileSize + 1) * volumeDefaultDataFileSize <
      u64Modulus ∧
    chunkOffset v.db.2.activeVolumeOffset compressedLen + compressedLen < u64Modulus

theorem Allocates.range_placed {v : Volume} (allocates : v.Allocates) {range : Extent}
    (member : range ∈ v.ranges) : ∃ chunk ∈ v.claims, chunk.extent = range := by
  rcases List.mem_append.mp member with stored | writing
  · obtain ⟨chunk, row, rfl⟩ := List.mem_map.mp stored
    obtain ⟨put, inserted, rfl⟩ := allocates.rows chunk row
    exact ⟨_, List.mem_append_left _ (List.mem_map_of_mem inserted), rfl⟩
  · obtain ⟨put, row, rfl⟩ := List.mem_map.mp writing
    exact ⟨_, List.mem_append_right _ (List.mem_map_of_mem row), rfl⟩

theorem Allocates.disjoint {v : Volume} (allocates : v.Allocates) :
    v.ranges.Pairwise Extent.Disjoint := by
  obtain ⟨inserted, writing, across⟩ := List.pairwise_append.mp allocates.apart
  have : Std.Symm fun left right : ChunkMeta => left.extent.Disjoint right.extent :=
    ⟨fun _ _ disjoint => disjoint.symm⟩
  have stored : ∀ chunk ∈ v.tables.chunks.rows, chunk ∈ v.inserted.map PutCall.insert := by
    intro chunk row
    obtain ⟨put, among, rfl⟩ := allocates.rows chunk row
    exact List.mem_map_of_mem among
  refine List.pairwise_append.mpr ⟨?_, ?_, ?_⟩
  · apply List.pairwise_map.mpr
    have distinct : v.tables.chunks.rows.Nodup := v.tables.chunks.nodup.of_map
    refine distinct.imp_of_mem ?_
    intro left right leftMem rightMem differs
    exact inserted.forall (stored left leftMem) (stored right rightMem) differs
  · have paired := List.pairwise_map.mp writing
    exact List.pairwise_map.mpr paired
  · intro left leftMem right rightMem
    obtain ⟨chunk, row, rfl⟩ := List.mem_map.mp leftMem
    obtain ⟨put, putRow, rfl⟩ := List.mem_map.mp rightMem
    exact across chunk (stored chunk row) put.insert (List.mem_map_of_mem putRow)

theorem Allocates.layout {v : Volume} (allocates : v.Allocates) : v.Layout := by
  have placed : ∀ range ∈ v.ranges, 0 < range.len ∧
      range.start % volumeDefaultDataFileSize + range.len ≤ volumeDefaultDataFileSize ∧
      range.stop ≤ v.tables.volumeMeta.activeVolumeOffset := by
    intro range member
    obtain ⟨chunk, claimed, rfl⟩ := allocates.range_placed member
    obtain ⟨nonempty, inFile, below⟩ := allocates.placed chunk claimed
    exact ⟨nonempty, inFile, below⟩
  have active := allocates.active.trans allocates.maxBytes
  refine ⟨allocates.known, allocates.active, allocates.disjoint,
    fun range member => (placed range member).2.2, ?_, ?_, ?_⟩
  · intro range member position ⟨lower, upper⟩
    have inside : position - range.start < range.len := by
      unfold Extent.stop at upper
      omega
    have same := (Page.div_of_fits (placed range member).2.1 inside).1
    rwa [Nat.add_sub_cancel' lower] at same
  · intro range member
    obtain ⟨nonempty, -, below⟩ := placed range member
    rw [allocates.slots]
    apply lt_divCeil
    have := allocates.active
    unfold Extent.stop at below
    omega
  · intro compressedLen len
    rw [allocates.known]
    obtain ⟨offset, sum, index, product⟩ := chunkOffset_eq_place active len
    refine ⟨sum, index, product, ?_⟩
    rw [offset]
    have near : Page.place volumeDefaultDataFileSize v.tables.volumeMeta.activeVolumeOffset
      compressedLen ≤ v.tables.volumeMeta.activeVolumeOffset + volumeDefaultDataFileSize :=
      Page.place_le
    obtain ⟨-, room⟩ := dataFileSize_bounds
    generalize volumeDefaultDataFileSize = size at *
    omega

theorem reachable_allocates {blake3 : Bytes → HashId} {v : Volume}
    (reachable : (volume blake3).Reachable v) : v.Allocates :=
  reachable.invariant Allocates (fun _ => allocates_init)
    fun _ _ _ allocates taken => allocates.of_step (step_cases taken)

/-- Ranges are disjoint, within one data file and within the volume, in every
reachable state. -/
theorem layout_of_reachable {blake3 : Bytes → HashId} {v : Volume}
    (reachable : (volume blake3).Reachable v) : v.Layout :=
  (reachable_allocates reachable).layout

theorem layout_of_stored : ∃ v : Volume, v.ranges = [⟨0, 3⟩, ⟨3, 2⟩] ∧ v.Layout := by
  obtain ⟨ts, v, run, isRanges⟩ := Scenario.run_of_exec
    (Scenario.stored 1 (Scenario.hash 7) 5 [1, 2, 3] ++
      [.putChunk (Scenario.hash 8) 5 [1, 2] 1])
    ranges [⟨0, 3⟩, ⟨3, 2⟩] (by decide +kernel)
  exact ⟨v, isRanges, layout_of_reachable run.reachable⟩

end Volume

end Fs0
