import Fs0.Storage.BundleSums
import Fs0.Storage.Server
import Fs0.Volume.Contents

/-!
Contract: what a storage that checks hashes stores.

Owns:
- that every call of `put_chunk` on its volumes was checked;
- that every row describes bytes which decompress to its chunk, and that the
  lengths reported for a bundle are those of its real content.

Does not own: how the bytes are compressed.
-/

set_option autoImplicit false

namespace Fs0

open Lib Fallible

/-- Bytes that decompress to a chunk of the given length and name. -/
def Decompresses (blake3 : Bytes → HashId) (zstdDecompress : Bytes → Nat → Fs0Result Bytes)
    (bytes : Bytes) (rawLen : Nat) (chunkId : HashId) (raw : Bytes) : Prop :=
  zstdDecompress bytes rawLen = .ok raw ∧ raw.length = rawLen ∧ blake3 raw = chunkId

/-! ## Calls of a volume -/

namespace Volume

variable {blake3 : Bytes → HashId} {v v' : Volume} {e : VolumeEvent}

/-- Every call under way and every call that inserted a row meets a condition on its
arguments. -/
def Calls (P : HashId → Nat → Bytes → Prop) (v : Volume) : Prop :=
  ∀ put, put ∈ v.puts.rows ∨ put ∈ v.inserted → P put.insert.chunkId put.insert.rawLen put.bytes

variable {P : HashId → Nat → Bytes → Prop}

/-- A condition on the arguments of `put_chunk` holds of every call. -/
theorem Calls.of_step (calls : v.Calls P) (step : VolumeStep blake3 v e v')
    (admitted : ∀ chunkId rawLen bytes now, e = .putChunk chunkId rawLen bytes now →
      P chunkId rawLen bytes) : v'.Calls P := by
  cases step with
  | reserved chunkId rawLen bytes now insert db reserved =>
      rintro put (member | member)
      · rcases mem_appended.mp member with old | rfl
        · exact calls put (.inl old)
        · rw [reserved.insert_eq]
          exact admitted chunkId rawLen bytes now rfl
      · exact calls put (.inr member)
  | write put count found fits slot =>
      rintro other (member | member)
      · rcases SeqTable.mem_replace member with rfl | ⟨old, -⟩
        · exact calls put (.inl (Table.mem_of_find? found).1)
        · exact calls other (.inl old)
      · exact calls other (.inr member)
  | failWrite put err found =>
      exact fun other member =>
        calls other (member.imp_left fun kept => (SeqTable.mem_delete.mp kept).1)
  | inserted put chunks found complete fits appended =>
      rintro other (member | member)
      · exact calls other (.inl (SeqTable.mem_delete.mp member).1)
      · rcases List.mem_cons.mp member with rfl | old
        · exact calls _ (.inl (Table.mem_of_find? found).1)
        · exact calls other (.inr old)
  | known put existing found complete fits row =>
      exact fun other member =>
        calls other (member.imp_left fun kept => (SeqTable.mem_delete.mp kept).1)
  | unfit put err found complete unfit =>
      exact fun other member =>
        calls other (member.imp_left fun kept => (SeqTable.mem_delete.mp kept).1)
  | reopen torn =>
      exact fun other member =>
        calls other (member.imp_left fun kept => (SeqTable.mem_delete.mp kept).1)
  | _ => exact calls

end Volume

/-! ## Runs of a storage -/

namespace StorageServer

variable {blake3 : Bytes → HashId} {zstdDecompress : Bytes → Nat → Fs0Result Bytes}
  {s s' : StorageServer}

/-- The arguments of a call that was checked. -/
def Checked (blake3 : Bytes → HashId) (zstdDecompress : Bytes → Nat → Fs0Result Bytes)
    (chunkId : HashId) (rawLen : Nat) (bytes : Bytes) : Prop :=
  ∃ raw, Decompresses blake3 zstdDecompress bytes rawLen chunkId raw

theorem checkHash_eq_ok {request : UploadChunkRequest}
    (passed : Storage.checkHash blake3 zstdDecompress request = .ok ()) :
    Checked blake3 zstdDecompress request.chunkId request.rawLen request.compressedBytes := by
  obtain ⟨raw, decompressed, passed⟩ := Fs0Result.bind_eq_ok.mp passed
  by_cases len : raw.length = request.rawLen
  · by_cases isChunk : blake3 raw = request.chunkId
    · exact ⟨raw, decompressed, len, isChunk⟩
    · simp [len, isChunk] at passed
  · simp [len] at passed

theorem checkUpload_eq_ok {request : UploadChunkRequest} {v : Volume}
    (passed : s.checkUpload blake3 zstdDecompress request = .ok v) :
    (s.checkHashBeforeWrite = true → Checked blake3 zstdDecompress request.chunkId request.rawLen
      request.compressedBytes) ∧ s.volume request.volumeId = .ok v := by
  obtain ⟨leased, -, passed⟩ := Fs0Result.bind_eq_ok.mp passed
  obtain ⟨checked, hash, passed⟩ := Fs0Result.bind_eq_ok.mp passed
  refine ⟨fun check => ?_, passed⟩
  unfold StorageServer.checkHash at hash
  rw [if_pos check] at hash
  exact checkHash_eq_ok hash

theorem volume_eq_ok {volumeId : Nat} {v : Volume} (found : s.volume volumeId = .ok v) :
    ⟨volumeId, v⟩ ∈ s.volumes.rows := by
  unfold StorageServer.volume at found
  cases row : s.volumes.find? volumeId with
  | none =>
      rw [row] at found
      cases found
  | some row' =>
      rw [row] at found
      obtain rfl := Except.ok.inj found
      obtain ⟨member, rfl⟩ := Table.mem_of_find? row
      exact member

/-- What holds of the volumes of a storage along its runs. -/
structure Serves (blake3 : Bytes → HashId) (zstdDecompress : Bytes → Nat → Fs0Result Bytes)
    (s : StorageServer) : Prop where
  reachable : ∀ row ∈ s.volumes.rows, (Fs0.volume blake3).Reachable row.volume
  checked : s.checkHashBeforeWrite = true → ∀ row ∈ s.volumes.rows,
    row.volume.Calls (Checked blake3 zstdDecompress)

namespace Serves

/-- One volume has taken a step. -/
theorem of_volume (serves : s.Serves blake3 zstdDecompress) {volumeId : Nat} {v : Volume}
    {e : VolumeEvent} (row : ⟨volumeId, v⟩ ∈ s.volumes.rows)
    (admitted : s.checkHashBeforeWrite = true → ∀ chunkId rawLen bytes now,
      e = .putChunk chunkId rawLen bytes now → Checked blake3 zstdDecompress chunkId rawLen bytes)
    (taken : s.onVolume blake3 volumeId v e = some s') : s'.Serves blake3 zstdDecompress := by
  obtain ⟨v', stepped, rfl⟩ := Option.map_eq_some_iff.mp taken
  have before := serves.reachable _ row
  constructor
  · intro other member
    rcases Table.mem_put.mp member with rfl | ⟨old, -⟩
    · exact before.step stepped
    · exact serves.reachable other old
  · intro check other member
    rcases Table.mem_put.mp member with rfl | ⟨old, -⟩
    · exact (serves.checked check _ row).of_step (Volume.step_cases stepped) (admitted check)
    · exact serves.checked check other old

theorem of_step (serves : s.Serves blake3 zstdDecompress) {e : StorageEvent}
    (taken : (storage blake3 zstdDecompress).step s e = some s') :
    s'.Serves blake3 zstdDecompress := by
  cases e with
  | grantUploadLease request =>
      obtain rfl := Option.some.inj taken
      unfold grantUploadLease
      split
      · exact ⟨serves.reachable, serves.checked⟩
      · exact serves
  | revokeUploadLease leaseId =>
      obtain rfl := Option.some.inj taken
      exact ⟨serves.reachable, serves.checked⟩
  | uploadChunk request leaseNow now =>
      have retained : (s.retainLeases leaseNow).Serves blake3 zstdDecompress :=
        ⟨serves.reachable, serves.checked⟩
      rcases step_uploadChunk taken with ⟨v, passed, ran⟩ | rfl
      · obtain ⟨checked, found⟩ := checkUpload_eq_ok passed
        refine retained.of_volume (volume_eq_ok found) ?_ ran
        rintro check chunkId rawLen bytes at_ isPut
        obtain ⟨rfl, rfl, rfl, -⟩ := VolumeEvent.putChunk.inj isPut
        exact checked check
      · exact retained
  | commitBundle request leaseNow commit =>
      have retained : (s.retainLeases leaseNow).Serves blake3 zstdDecompress :=
        ⟨serves.reachable, serves.checked⟩
      rcases step_commitBundle taken with ⟨v, passed, ran⟩ | rfl
      · obtain ⟨leased, -, found⟩ := Fs0Result.bind_eq_ok.mp passed
        refine retained.of_volume (volume_eq_ok found) ?_ ran
        intro check chunkId rawLen bytes now isPut
        cases isPut
      · exact retained
  | volume volumeId e =>
      obtain ⟨row, found, ran⟩ := Option.bind_eq_some_iff.mp taken
      obtain ⟨member, rfl⟩ := Table.mem_of_find? found
      split at ran
      · cases ran
      next free =>
        refine serves.of_volume member ?_ ran
        rintro check chunkId rawLen bytes now rfl
        exact absurd rfl free
  | restart torn =>
      obtain rfl := Option.some.inj taken
      constructor
      · intro row member
        obtain ⟨old, among, rfl⟩ := List.mem_map.mp member
        have reopened : (Fs0.volume blake3).step old.volume (.reopen (torn old.volumeId)) =
            some (old.volume.reopen (torn old.volumeId)) := rfl
        exact (serves.reachable old among).step reopened
      · intro check row member
        obtain ⟨old, among, rfl⟩ := List.mem_map.mp member
        have step : VolumeStep blake3 old.volume _ _ := .reopen (torn old.volumeId)
        refine (serves.checked check old among).of_step step ?_
        intro chunkId rawLen bytes now isPut
        cases isPut

end Serves

theorem reachable_serves (reachable : (storage blake3 zstdDecompress).Reachable s) :
    s.Serves blake3 zstdDecompress := by
  refine reachable.invariant (Serves blake3 zstdDecompress) ?_ ?_
  · rintro s ⟨-, initial⟩
    refine ⟨fun row member => .init (initial row member), ?_⟩
    intro check row member
    obtain ⟨tables, files, -, isVolume⟩ := initial row member
    rw [isVolume]
    rintro put (none | none)
    · exact absurd none List.not_mem_nil
    · exact absurd none List.not_mem_nil
  · exact fun s e s' serves taken => serves.of_step taken

/-- A row of a storage that checks hashes describes bytes that decompress to its chunk. -/
theorem chunk_checked (reachable : (storage blake3 zstdDecompress).Reachable s)
    (check : s.checkHashBeforeWrite = true) {row : StorageVolume} (member : row ∈ s.volumes.rows)
    {chunk : ChunkMeta} (stored : chunk ∈ row.volume.tables.chunks.rows) :
    ∃ raw, Decompresses blake3 zstdDecompress (chunk.content row.volume.files) chunk.rawLen
      chunk.chunkId raw := by
  have serves := reachable_serves reachable
  have volumeReachable := serves.reachable row member
  obtain ⟨put, inserted, rfl⟩ := (Volume.reachable_allocates volumeReachable).rows chunk stored
  obtain ⟨-, content⟩ := (Volume.reachable_holds volumeReachable).inserted put inserted
  rw [content]
  exact serves.checked check row member put (.inr inserted)

/-- The real content of the chunks of a bundle. -/
theorem exists_raws {files : DataFiles} {chunks : List ChunkMeta}
    (checked : ∀ chunk ∈ chunks, ∃ raw,
      Decompresses blake3 zstdDecompress (chunk.content files) chunk.rawLen chunk.chunkId raw) :
    ∃ raws, List.Forall₂ (fun chunk raw => Decompresses blake3 zstdDecompress
        (chunk.content files) chunk.rawLen chunk.chunkId raw) chunks raws ∧
      (chunks.map ChunkMeta.rawLen).sum = (raws.map List.length).sum := by
  induction chunks with
  | nil => exact ⟨[], .nil, rfl⟩
  | cons chunk rest inductionHypothesis =>
      obtain ⟨raw, decompresses⟩ := checked chunk List.mem_cons_self
      obtain ⟨raws, paired, sum⟩ := inductionHypothesis fun other member =>
        checked other (List.mem_cons_of_mem _ member)
      refine ⟨raw :: raws, .cons decompresses paired, ?_⟩
      rw [List.map_cons, List.sum_cons, List.map_cons, List.sum_cons, sum, decompresses.2.1]

/-- With hashes checked, every row of every volume describes bytes that decompress to
`raw_len` bytes whose hash names the chunk, and the lengths of every bundle change are
those of the real content. -/
theorem content_verified (reachable : (storage blake3 zstdDecompress).Reachable s)
    (check : s.checkHashBeforeWrite = true) : ∀ row ∈ s.volumes.rows,
    (∀ chunk ∈ row.volume.tables.chunks.rows, ∃ raw, Decompresses blake3 zstdDecompress
      (chunk.content row.volume.files) chunk.rawLen chunk.chunkId raw) ∧
    ∀ limit events, VolumeDb.getBundleChangeRecords limit row.volume.db =
        .ok events row.volume.db → ∀ event ∈ events, ∃ raws,
      List.Forall₂ (fun chunk raw => Decompresses blake3 zstdDecompress
          (chunk.content row.volume.files) chunk.rawLen chunk.chunkId raw)
        (row.volume.tables.bundleJoin event.bundleId) raws ∧
      event.rawLen = some (raws.map List.length).sum ∧
      event.compressedLen = some ((row.volume.tables.bundleJoin event.bundleId).map fun chunk =>
        (chunk.content row.volume.files).length).sum := by
  intro row member
  have checked : ∀ chunk ∈ row.volume.tables.chunks.rows, ∃ raw,
      Decompresses blake3 zstdDecompress (chunk.content row.volume.files) chunk.rawLen
        chunk.chunkId raw := fun chunk => chunk_checked reachable check member
  refine ⟨checked, ?_⟩
  intro limit events ran event among
  obtain ⟨rawLen, compressedLen⟩ := Storage.getBundleChangeRecords_carriesSums ran event among
  have joined : ∀ chunk ∈ row.volume.tables.bundleJoin event.bundleId,
      chunk ∈ row.volume.tables.chunks.rows := by
    intro chunk inBundle
    obtain ⟨entry, -, found⟩ := List.mem_filterMap.mp inBundle
    exact (Table.mem_of_find? found).1
  obtain ⟨raws, paired, sum⟩ := exists_raws fun chunk inBundle => checked chunk (joined chunk inBundle)
  refine ⟨raws, paired, rawLen.trans (congrArg some sum), compressedLen.trans ?_⟩
  have contents := (Volume.reachable_holds ((reachable_serves reachable).reachable row member))
  refine congrArg (fun lens => some (List.sum lens)) (List.map_congr_left fun chunk inBundle => ?_)
  obtain ⟨put, inserted, rfl⟩ := (Volume.reachable_allocates
    ((reachable_serves reachable).reachable row member)).rows chunk (joined chunk inBundle)
  obtain ⟨sound, content⟩ := contents.inserted put inserted
  rw [content]
  exact sound.len

/-- A storage of one volume, whose compression is the identity. -/
theorem content_verified_uploaded : ∃ s : StorageServer,
    (s.volumes.rows.map fun row => row.volume.tables.chunks.rows.length) = [1] ∧
    ∀ row ∈ s.volumes.rows, ∀ chunk ∈ row.volume.tables.chunks.rows, ∃ raw,
      Decompresses Volume.Scenario.blake3 (fun bytes _ => .ok bytes)
        (chunk.content row.volume.files) chunk.rawLen chunk.chunkId raw := by
  let initial : StorageServer := ⟨true, ⟨[⟨1, Volume.Scenario.initial⟩], by simp⟩, .empty⟩
  have init : (storage Volume.Scenario.blake3 fun bytes _ => .ok bytes).Init initial := by
    refine ⟨rfl, fun row member => ?_⟩
    rw [List.mem_singleton.mp member]
    exact Volume.Scenario.initial_init
  obtain ⟨s, ends, facts⟩ := Option.map_eq_some_iff.mp
    (show ((storage Volume.Scenario.blake3 fun bytes _ => .ok bytes).exec initial
        [.grantUploadLease ⟨4, 2, 1, 0, 9, none⟩,
          .uploadChunk ⟨4, 2, 1, Volume.Scenario.hash 7, 3, [7, 2, 3]⟩ 1 1,
          .volume 1 (.write 1 3), .volume 1 (.storeChunk 1)]).map
        (fun s => (s.checkHashBeforeWrite,
          s.volumes.rows.map fun row => row.volume.tables.chunks.rows.length)) =
      some (true, [1]) from by decide +kernel)
  obtain ⟨check, rows⟩ := Prod.mk.inj facts
  have reachable := System.exec_reachable _ init ends
  exact ⟨s, rows, fun row member => (content_verified reachable check row member).1⟩

end StorageServer

end Fs0
