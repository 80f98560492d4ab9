import Fs0.Storage.BundleSums
import Fs0.Volume.Outbox

/-!
Contract: what a call on a volume leaves behind when it fails.

Owns:
- that `commit_bundle` stores all of a bundle or nothing, unless it reads back lengths that
  do not add up;
- that `put_chunk` reserves nothing for a chunk it rejects, unless the row of the chunk is
  refused after the reservation.

Does not own: calls that overlap, and data files that fail.
-/

set_option autoImplicit false

namespace Fs0

open Lib Fallible

namespace Volume

open VolumeTables VolumeDb

variable {blake3 : Bytes → HashId} {v : Volume}

/-! ## Commit bundle -/

/-- The rows of a bundle and its one pending change were added. -/
structure BundleAdded (bundleId : HashId) (chunks : List BundleChunkRef)
    (before after : VolumeTables) : Prop where
  rows : after.bundleChunks.rows = before.bundleChunks.rows ++ bundleRows bundleId chunks
  record : ∃ eventId, after.bundleChangeRecords.rows.filter
    (fun record => record.bundleId = bundleId) = [⟨eventId, .stored, bundleId⟩]
  records : after.bundleChangeRecords.rows.filter (fun record => record.bundleId ≠ bundleId) =
    before.bundleChangeRecords.rows.filter fun record => record.bundleId ≠ bundleId

/-- A commit that fails keeps the bundles and their changes; one that succeeds for a new
bundle has added it. -/
structure CommitAtomic (before : VolumeDb) (bundleId : HashId) (chunks : List BundleChunkRef)
    (result : EStateM.Result Fs0Error VolumeDb BundleMeta) : Prop where
  failed : ∀ err db, result = .error err db → db.1.bundleChunks = before.1.bundleChunks ∧
    db.1.bundleChangeRecords = before.1.bundleChangeRecords
  stored : ∀ bundle db, result = .ok bundle db → ¬ before.1.HasBundle bundleId →
    BundleAdded bundleId chunks before.1 db.1

theorem bundleAdded_of_written {before after : VolumeTables} {bundleId : HashId}
    {chunks : List BundleChunkRef} (written : BundleWritten bundleId chunks .stored before after)
    (isNew : ¬ before.HasBundle bundleId) (one : before.OneRecordEach) :
    BundleAdded bundleId chunks before after := by
  obtain ⟨record, records⟩ := written.recorded.filter_eq one
  refine ⟨?_, record, records⟩
  have others : before.bundleChunks.rows.filter (fun row => row.bundleId ≠ bundleId) =
      before.bundleChunks.rows :=
    List.filter_eq_self.mpr fun row member => decide_eq_true fun same => isNew ⟨row, member, same⟩
  rw [written.bundleChunks, others]

/-- In every state of a volume, a commit is atomic exactly when it does not store a bundle
whose recorded lengths leave `i64`. -/
theorem commitBundle_atomic_iff (reachable : (volume blake3).Reachable v)
    (commit : Option Fs0Error) (bundleId : HashId) (chunks : List BundleChunkRef) :
    CommitAtomic v.db bundleId chunks (commitBundle blake3 commit bundleId chunks v.db) ↔
      (Stores blake3 v.tables bundleId chunks commit → SumsFit (v.tables.chunksOf chunks)) := by
  have bundled := reachable_bundled reachable
  have ended : CommitOutcome blake3 _ _ _ _ _ :=
    commitBundle_outcome commit bundleId chunks v.db
  generalize commitBundle blake3 commit bundleId chunks v.db = result at ended
  cases ended with
  | existing bundle checked loaded =>
      have has : v.tables.bundleJoin bundleId ≠ [] := (loadBundle_eq_ok.mp loaded).1
      refine iff_of_true ⟨fun err db failed => ?_, fun other db stored isNew => ?_⟩
        fun stores => absurd stores.isNew has
      · cases failed
      · have none : v.tables.rowsOf bundleId = [] := by
          by_contra rows
          exact isNew (hasBundle_iff.mpr rows)
        rw [bundleJoin_eq, none] at has
        exact absurd rfl has
  | refused err refuses =>
      refine iff_of_true ⟨fun other db failed => ?_, fun bundle db stored => ?_⟩
        fun stores => absurd stores refuses
      · obtain ⟨-, rfl⟩ := EStateM.Result.error.inj failed
        exact ⟨rfl, rfl⟩
      · cases stored
  | stored after stores written =>
      have isNew : ¬ v.tables.HasBundle bundleId := fun has =>
        bundled.bundleJoin_ne_nil has stores.isNew
      have has : after.HasBundle bundleId := by
        rw [hasBundle_iff, written.rowsOf_self]
        exact fun none => (checkBundle_eq_ok.mp stores.checked).1 (List.map_eq_nil_iff.mp none)
      have join : after.bundleJoin bundleId = v.tables.chunksOf chunks :=
        Storage.bundleJoin_of_written written
      have nonempty : after.bundleJoin bundleId ≠ [] :=
        (bundled.of_written written (fun _ => stores.checked) stores.stored).bundleJoin_ne_nil has
      by_cases fits : SumsFit (v.tables.chunksOf chunks)
      · have loaded := loadBundle_of_sums (show (after, v.db.2).1.bundleJoin bundleId ≠ [] from nonempty)
          (join ▸ fits.1) (join ▸ fits.2)
        rw [loaded]
        refine iff_of_true ⟨fun err db failed => ?_, fun bundle db stored _ => ?_⟩ fun _ => fits
        · cases failed
        · obtain ⟨-, rfl⟩ := EStateM.Result.ok.inj stored
          exact bundleAdded_of_written written isNew (reachable_oneRecordEach reachable)
      · have overflows := loadBundle_of_overflow
          (show (after, v.db.2).1.bundleJoin bundleId ≠ [] from nonempty) fun both => fits (join ▸ both)
        rw [overflows]
        refine iff_of_false (fun atomic => ?_) fun within => fits (within stores)
        obtain ⟨same, -⟩ := atomic.failed _ _ rfl
        have same : after.bundleChunks = v.tables.bundleChunks := same
        unfold HasBundle at has isNew
        exact isNew (same ▸ has)

/-- A bundle of one chunk twice is stored when the length of the chunk is small. -/
theorem commitBundle_atomic_small : ∃ v, (volume Scenario.blake3).Reachable v ∧
    CommitAtomic v.db (Scenario.hash 7) [⟨0, Scenario.hash 7⟩, ⟨1, Scenario.hash 7⟩]
      (commitBundle Scenario.blake3 none (Scenario.hash 7)
        [⟨0, Scenario.hash 7⟩, ⟨1, Scenario.hash 7⟩] v.db) := by
  obtain ⟨ts, v, run, fits⟩ := Scenario.run_of_exec (Scenario.stored 1 (Scenario.hash 7) 5 [1, 2, 3])
    (fun v => decide (SumsFit (v.tables.chunksOf [⟨0, Scenario.hash 7⟩, ⟨1, Scenario.hash 7⟩]))) true
    (by decide +kernel)
  exact ⟨v, run.reachable, (commitBundle_atomic_iff run.reachable none _ _).mpr fun _ =>
    of_decide_eq_true fits⟩

/-- The chunk of a bundle of one chunk twice has the largest length that is stored. -/
theorem commitBundle_not_atomic : ¬ ∀ v, (volume Scenario.blake3).Reachable v →
    ∀ commit bundleId chunks, CommitAtomic v.db bundleId chunks
      (commitBundle Scenario.blake3 commit bundleId chunks v.db) := by
  intro atomic
  obtain ⟨ts, v, run, facts⟩ := Scenario.run_of_exec
    (Scenario.stored 1 (Scenario.hash 7) i64Max [1, 2, 3])
    (fun v => (v.tables.bundleChunks.rows,
      match commitBundle Scenario.blake3 none (Scenario.hash 7)
          [⟨0, Scenario.hash 7⟩, ⟨1, Scenario.hash 7⟩] v.db with
      | .error err db => (some err, db.1.bundleChunks.rows)
      | .ok _ _ => (none, [])))
    ([], some (.sqlite "integer overflow"),
      [⟨Scenario.hash 7, 0, Scenario.hash 7⟩, ⟨Scenario.hash 7, 1, Scenario.hash 7⟩])
    (by decide +kernel)
  obtain ⟨before, ends⟩ := Prod.mk.inj facts
  split at ends
  next err db failed =>
    obtain ⟨same, -⟩ := (atomic v run.reachable none _ _).failed err db failed
    obtain ⟨-, after⟩ := Prod.mk.inj ends
    have before : v.db.1.bundleChunks.rows = [] := before
    rw [same, before] at after
    cases after
  next => cases (Prod.mk.inj ends).1

/-! ## Put chunk -/

/-- `put_chunk` when nothing comes between its sections and the data file takes the bytes. -/
def putChunkAlone (blake3 : Bytes → HashId) (now : Nat) (chunkId : HashId) (rawLen : Nat)
    (compressedBytes : Bytes) : VolumeM ChunkMeta := do
  match ← putChunk blake3 now chunkId rawLen compressedBytes with
  | .stored existing => pure existing
  | .reserved insert => storeChunk insert

theorem putChunkAlone_apply (now : Nat) (chunkId : HashId) (rawLen : Nat)
    (compressedBytes : Bytes) (db : VolumeDb) :
    putChunkAlone blake3 now chunkId rawLen compressedBytes db =
      match putChunk blake3 now chunkId rawLen compressedBytes db with
      | .ok (.stored existing) db' => .ok existing db'
      | .ok (.reserved insert) db' => storeChunk insert db'
      | .error err db' => .error err db' := by
  unfold putChunkAlone
  rw [bind_apply]
  cases putChunk blake3 now chunkId rawLen compressedBytes db with
  | ok ended db' => cases ended <;> rfl
  | error err db' => rfl

/-- The chunks and the offset up to which the data files are allocated are as before. -/
structure Untouched (before after : VolumeDb) : Prop where
  chunks : after.1.chunks = before.1.chunks
  active : after.1.volumeMeta.activeVolumeOffset = before.1.volumeMeta.activeVolumeOffset
  known : after.2.activeVolumeOffset = before.2.activeVolumeOffset

/-- In every state of a volume, a call of `put_chunk` whose write succeeds costs nothing when
it fails, exactly when it does not reserve room for a chunk whose length leaves `i64`. -/
theorem putChunk_untouched_iff (reachable : (volume blake3).Reachable v) (now : Nat)
    (chunkId : HashId) (rawLen : Nat) (compressedBytes : Bytes) :
    (∀ err db, putChunkAlone blake3 now chunkId rawLen compressedBytes v.db = .error err db →
      Untouched v.db db) ↔
    (checkChunk rawLen compressedBytes = .ok () → v.tables.chunks.find? chunkId = none →
      HasRoom v.db.2 compressedBytes.length now → rawLen ≤ i64Max) := by
  have allocates := reachable_allocates reachable
  have ended : PutOutcome blake3 _ _ _ _ _ _ :=
    putChunk_outcome v.db now chunkId rawLen compressedBytes
  rw [putChunkAlone_apply]
  generalize putChunk blake3 now chunkId rawLen compressedBytes v.db = result at ended
  cases ended with
  | stored existing checked found same =>
      refine iff_of_true (fun err db failed => nomatch failed) fun _ absent => ?_
      cases found.symm.trans absent
  | differs existing checked found other =>
      refine iff_of_true (fun err db failed => ?_) fun _ absent => ?_
      · obtain ⟨-, rfl⟩ := EStateM.Result.error.inj failed
        exact ⟨rfl, rfl, rfl⟩
      · cases found.symm.trans absent
  | unchecked err refused =>
      refine iff_of_true (fun err db failed => ?_) fun checked => ?_
      · obtain ⟨-, rfl⟩ := EStateM.Result.error.inj failed
        exact ⟨rfl, rfl, rfl⟩
      · rw [refused] at checked
        cases checked
  | noRoom err checked absent refused =>
      refine iff_of_true (fun err db failed => ?_) fun _ _ room => ?_
      · obtain ⟨-, rfl⟩ := EStateM.Result.error.inj failed
        exact ⟨rfl, rfl, rfl⟩
      · rcases reserveChunk_cases v.db.2 now chunkId (blake3 compressedBytes) rawLen
          compressedBytes.length with ⟨full, -⟩ | ⟨-, reserves⟩
        · exact absurd room full
        · obtain ⟨known, -, ran⟩ := reserves v.db.1
          have failed : reserveChunk now chunkId (blake3 compressedBytes) rawLen
            compressedBytes.length (v.db.1, v.db.2) = .error err v.db := refused
          rw [ran] at failed
          cases failed
  | reserved insert db' reserved =>
      obtain ⟨nonempty, -, -, above⟩ := allocates.reserved_above reserved
      obtain ⟨checked, absent, insertEq, fits, room, bound, nowFits, known, rfl, isKnown⟩ := reserved
      have offset : insert.volumeOffset =
          chunkOffset v.db.2.activeVolumeOffset compressedBytes.length := by rw [insertEq]
      have hasRoom : HasRoom v.db.2 compressedBytes.length now :=
        ⟨offset ▸ fits, offset ▸ room, offset ▸ bound, nowFits⟩
      have isRaw : insert.rawLen = rawLen := by rw [insertEq]
      have isCompressed : insert.compressedLen = compressedBytes.length := by rw [insertEq]
      by_cases rawFits : rawLen ≤ i64Max
      · have insertFits : insert.Fits := ⟨by omega, by omega, by omega⟩
        refine iff_of_true (fun err db failed => ?_) fun _ _ _ => rawFits
        have outcome := storeChunk_outcome insert ({ v.db.1 with volumeMeta := known }, known)
        dsimp only at failed
        rw [failed] at outcome
        cases outcome with
        | unfit _ unfit => exact absurd insertFits unfit
      · have unfit : ¬ insert.Fits := fun insertFits => rawFits (isRaw ▸ insertFits.rawLen)
        obtain ⟨err, failed⟩ := storeChunk_of_unfit unfit
        refine iff_of_false (fun untouched => ?_) fun within => rawFits (within checked absent hasRoom)
        have same : known.activeVolumeOffset = v.tables.volumeMeta.activeVolumeOffset :=
          (untouched err _ (failed _)).active
        have raised : known.activeVolumeOffset = max v.tables.volumeMeta.activeVolumeOffset
          (insert.volumeOffset + compressedBytes.length) := by rw [isKnown]; rfl
        omega

/-- A chunk that is put once more with another length is rejected. -/
theorem putChunk_untouched_rejected : ∃ v err db, (volume Scenario.blake3).Reachable v ∧
    putChunkAlone Scenario.blake3 2 (Scenario.hash 7) 6 [1, 2, 3] v.db = .error err db ∧
    Untouched v.db db := by
  obtain ⟨ts, v, run, rejected⟩ := Scenario.run_of_exec
    (Scenario.stored 1 (Scenario.hash 7) 5 [1, 2, 3])
    (fun v => match putChunkAlone Scenario.blake3 2 (Scenario.hash 7) 6 [1, 2, 3] v.db with
      | .error err _ => some err
      | .ok _ _ => none) (some (.hashMismatch 0)) (by decide +kernel)
  split at rejected
  next err db failed =>
    have untouched := (putChunk_untouched_iff run.reachable 2 (Scenario.hash 7) 6 [1, 2, 3]).mpr
      fun _ _ _ => by decide
    exact ⟨v, err, db, run.reachable, failed, untouched err db failed⟩
  next => cases rejected

/-- The row of a chunk of `2^63` bytes is refused after its bytes were written. -/
theorem putChunk_reserves_and_fails : ¬ ∀ v, (volume Scenario.blake3).Reachable v →
    ∀ now chunkId rawLen compressedBytes err db, rawLen < u64Modulus →
      putChunkAlone Scenario.blake3 now chunkId rawLen compressedBytes v.db = .error err db →
        Untouched v.db db := by
  intro untouched
  have computed : (match putChunkAlone Scenario.blake3 1 (Scenario.hash 7) (i64Max + 1) [7, 2, 3]
      Scenario.initial.db with
    | .error _ db => some db.1.volumeMeta.activeVolumeOffset
    | .ok _ _ => none) = some 3 := by decide +kernel
  split at computed
  next err db failed =>
    have same := (untouched Scenario.initial (.init Scenario.initial_init) _ _ _ _ err db (by decide)
      failed).active
    rw [Option.some.inj computed] at same
    exact absurd same (by decide)
  next => cases computed

end Volume

end Fs0
