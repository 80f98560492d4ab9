import Fs0.Volume.Sections

/-!
Contract: what committing, deleting and loading a bundle does.

Owns:
- the condition under which `commit_bundle` stores the rows of a bundle, and what
  the tables hold afterwards;
- every way the calls on a bundle end.

Does not own: what holds of the bundles along the runs of a volume.
-/

set_option autoImplicit false

namespace Fs0

open Lib Fallible Statement

/-! ## Chunk lists -/

namespace VolumeTables

/-- The rows that list the chunks of a bundle. -/
def bundleRows (bundleId : HashId) (chunks : List BundleChunkRef) : List BundleChunkRow :=
  chunks.map fun chunk => ⟨bundleId, chunk.chunkIndex, chunk.chunkId⟩

/-- The chunk list of a bundle, as `list_bundle_chunks` reads it. -/
def chunkList (tables : VolumeTables) (bundleId : HashId) : List BundleChunkRef :=
  (tables.bundleChunksOf bundleId).map fun row => ⟨row.chunkIndex, row.chunkId⟩

/-- A bundle has rows. -/
def HasBundle (tables : VolumeTables) (bundleId : HashId) : Prop :=
  ∃ row ∈ tables.bundleChunks.rows, row.bundleId = bundleId

instance (tables : VolumeTables) (bundleId : HashId) : Decidable (tables.HasBundle bundleId) :=
  inferInstanceAs (Decidable (∃ row ∈ tables.bundleChunks.rows, _))

theorem mem_bundleRows {bundleId : HashId} {chunks : List BundleChunkRef} {row : BundleChunkRow} :
    row ∈ bundleRows bundleId chunks ↔
      row.bundleId = bundleId ∧ ⟨row.chunkIndex, row.chunkId⟩ ∈ chunks := by
  unfold bundleRows
  rw [List.mem_map]
  constructor
  · rintro ⟨chunk, member, rfl⟩
    exact ⟨rfl, member⟩
  · rintro ⟨rfl, member⟩
    exact ⟨_, member, rfl⟩

end VolumeTables

namespace Volume

/-- What the indexes of a chunk list that counts up from a number are. -/
theorem contiguousFrom_eq_true {start : Nat} {chunks : List BundleChunkRef} :
    contiguousFrom start chunks = true ↔
      chunks.map BundleChunkRef.chunkIndex = List.range' start chunks.length := by
  induction chunks generalizing start with
  | nil => simp [contiguousFrom]
  | cons chunk rest inductionHypothesis =>
      simp [contiguousFrom, inductionHypothesis, List.range'_succ]

theorem checkBundle_eq_ok {blake3 : Bytes → HashId} {bundleId : HashId}
    {chunks : List BundleChunkRef} : checkBundle blake3 bundleId chunks = .ok () ↔
      chunks ≠ [] ∧ contiguousFrom 0 chunks = true ∧
        bundleHashFromChunks blake3 chunks = bundleId := by
  unfold checkBundle
  by_cases empty : chunks = []
  · simp [empty]
  by_cases contiguous : contiguousFrom 0 chunks = false
  · simp [empty, contiguous]
  · by_cases same : bundleHashFromChunks blake3 chunks = bundleId
    · simp [empty, contiguous, same]
    · simp [empty, contiguous, same]

theorem requireLoaded_eq_ok {loaded : List ChunkMeta} {chunks : List BundleChunkRef} :
    requireLoaded loaded chunks = .ok () ↔
      ∀ chunk ∈ chunks, ∃ known ∈ loaded, known.chunkId = chunk.chunkId := by
  induction chunks with
  | nil => simp [requireLoaded]
  | cons chunk rest inductionHypothesis =>
      unfold requireLoaded
      rw [List.forall_mem_cons, ← inductionHypothesis]
      split
      next present => simp [present]
      next absent => simp [absent]

/-- The chunks of a list are loaded exactly when each of them is stored. -/
theorem requireLoaded_eq_ok_iff_stored {chunkTable : Table ChunkMeta.chunkId}
    {chunks : List BundleChunkRef} :
    requireLoaded (chunkTable.rows.filter fun row =>
        row.chunkId ∈ chunks.map BundleChunkRef.chunkId) chunks = .ok () ↔
      ∀ chunk ∈ chunks, ∃ known, chunkTable.find? chunk.chunkId = some known := by
  rw [requireLoaded_eq_ok]
  constructor
  · intro loaded chunk member
    obtain ⟨known, among, same⟩ := loaded chunk member
    exact ⟨known, Table.find?_eq_some.mpr ⟨(List.mem_filter.mp among).1, same⟩⟩
  · intro stored chunk member
    obtain ⟨known, found⟩ := stored chunk member
    obtain ⟨row, same⟩ := Table.mem_of_find? found
    refine ⟨known, List.mem_filter.mpr ⟨row, ?_⟩, same⟩
    rw [same]
    exact decide_eq_true (List.mem_map_of_mem member)

end Volume

/-! ## Statements on bundles -/

namespace VolumeDb

variable {db : VolumeDb} {bundleId : HashId}

/-- Loading a bundle that joins no chunk. -/
theorem loadBundle_of_nil (absent : db.1.bundleJoin bundleId = []) :
    loadBundle bundleId db = .error (.bundleNotFound bundleId) db := by
  unfold loadBundle
  rw [query_bind_apply, absent, bind_apply, require, if_neg (by simp)]

/-- Loading a bundle whose lengths add up within `i64`. -/
theorem loadBundle_of_sums (present : db.1.bundleJoin bundleId ≠ [])
    (rawLen : ((db.1.bundleJoin bundleId).map ChunkMeta.rawLen).sum ≤ i64Max)
    (compressedLen : ((db.1.bundleJoin bundleId).map ChunkMeta.compressedLen).sum ≤ i64Max) :
    loadBundle bundleId db = .ok ⟨bundleId, ((db.1.bundleJoin bundleId).map ChunkMeta.rawLen).sum,
      ((db.1.bundleJoin bundleId).map ChunkMeta.compressedLen).sum,
      (db.1.bundleJoin bundleId).length⟩ db := by
  unfold loadBundle
  rw [query_bind_apply, bind_apply, require, if_pos present]
  dsimp only
  rw [sqlSum, if_pos rawLen, bind_of_ok (lift_ok_apply _ _), sqlSum, if_pos compressedLen,
    bind_of_ok (lift_ok_apply _ _)]
  rfl

/-- Loading a bundle one of whose sums leaves `i64`. -/
theorem loadBundle_of_overflow (present : db.1.bundleJoin bundleId ≠ [])
    (overflows : ¬ (((db.1.bundleJoin bundleId).map ChunkMeta.rawLen).sum ≤ i64Max ∧
      ((db.1.bundleJoin bundleId).map ChunkMeta.compressedLen).sum ≤ i64Max)) :
    loadBundle bundleId db = .error (.sqlite "integer overflow") db := by
  unfold loadBundle
  rw [query_bind_apply, bind_apply, require, if_pos present]
  dsimp only
  by_cases rawLen : ((db.1.bundleJoin bundleId).map ChunkMeta.rawLen).sum ≤ i64Max
  · have late : ¬ ((db.1.bundleJoin bundleId).map ChunkMeta.compressedLen).sum ≤ i64Max :=
      fun compressedLen => overflows ⟨rawLen, compressedLen⟩
    rw [sqlSum, if_pos rawLen, bind_of_ok (lift_ok_apply _ _), sqlSum, if_neg late]
    rfl
  · rw [sqlSum, if_neg rawLen]
    rfl

theorem loadBundle_eq_ok {bundle : BundleMeta} {db' : VolumeDb} :
    loadBundle bundleId db = .ok bundle db' ↔ db.1.bundleJoin bundleId ≠ [] ∧
      ((db.1.bundleJoin bundleId).map ChunkMeta.rawLen).sum ≤ i64Max ∧
      ((db.1.bundleJoin bundleId).map ChunkMeta.compressedLen).sum ≤ i64Max ∧
      bundle = ⟨bundleId, ((db.1.bundleJoin bundleId).map ChunkMeta.rawLen).sum,
        ((db.1.bundleJoin bundleId).map ChunkMeta.compressedLen).sum,
        (db.1.bundleJoin bundleId).length⟩ ∧ db' = db := by
  by_cases absent : db.1.bundleJoin bundleId = []
  · simp [loadBundle_of_nil absent, absent]
  by_cases fits : ((db.1.bundleJoin bundleId).map ChunkMeta.rawLen).sum ≤ i64Max ∧
      ((db.1.bundleJoin bundleId).map ChunkMeta.compressedLen).sum ≤ i64Max
  · rw [loadBundle_of_sums absent fits.1 fits.2, EStateM.Result.ok.injEq]
    exact ⟨fun ⟨isBundle, isDb⟩ => ⟨absent, fits.1, fits.2, isBundle.symm, isDb.symm⟩,
      fun ⟨_, _, _, isBundle, isDb⟩ => ⟨isBundle.symm, isDb.symm⟩⟩
  · rw [loadBundle_of_overflow absent fits]
    exact ⟨nofun, fun ⟨_, rawLen, compressedLen, _⟩ => absurd ⟨rawLen, compressedLen⟩ fits⟩

theorem loadChunksByIds_of_le {chunkIds : List HashId}
    (bound : chunkIds.length ≤ sqliteMaxVariableNumber) (db : VolumeDb) :
    loadChunksByIds chunkIds db =
      .ok (db.1.chunks.rows.filter fun row => row.chunkId ∈ chunkIds) db := by
  unfold loadChunksByIds
  rw [bind_apply, require, if_pos bound]
  rfl

theorem loadChunksByIds_of_gt {chunkIds : List HashId}
    (unbound : ¬ chunkIds.length ≤ sqliteMaxVariableNumber) (db : VolumeDb) :
    loadChunksByIds chunkIds db = .error tooManyVariables db := by
  unfold loadChunksByIds
  rw [bind_apply, require, if_neg unbound]

/-- The chunks of a list go into the table in order, when their indexes are new and
fit `i64`. -/
theorem insertBundleChunks_of_fits (db : VolumeDb) {chunks : List BundleChunkRef} {start : Nat}
    (contiguous : Volume.contiguousFrom start chunks = true)
    (indexes : ∀ chunk ∈ chunks, chunk.chunkIndex ≤ i64Max)
    (stored : ∀ chunk ∈ chunks, ∃ known, db.1.chunks.find? chunk.chunkId = some known)
    (below : ∀ row ∈ db.1.bundleChunks.rows, row.bundleId = bundleId → row.chunkIndex < start) :
    ∃ bundleChunks : Table BundleChunkRow.key,
      bundleChunks.rows = db.1.bundleChunks.rows ++ VolumeTables.bundleRows bundleId chunks ∧
      insertBundleChunks bundleId chunks db =
        .ok () ({ db.1 with bundleChunks := bundleChunks }, db.2) := by
  induction chunks generalizing start db with
  | nil => exact ⟨db.1.bundleChunks, (List.append_nil _).symm, rfl⟩
  | cons chunk rest inductionHypothesis =>
      simp only [Volume.contiguousFrom, Bool.and_eq_true, beq_iff_eq] at contiguous
      obtain ⟨rfl, contiguous⟩ := contiguous
      obtain ⟨known, found⟩ := stored chunk List.mem_cons_self
      have fresh : ∀ row ∈ db.1.bundleChunks.rows,
          row.key ≠ (⟨bundleId, chunk.chunkIndex, chunk.chunkId⟩ : BundleChunkRow).key := by
        intro row member same
        obtain ⟨isBundle, isIndex⟩ := Prod.mk.inj same
        exact absurd (below row member isBundle) (isIndex ▸ lt_irrefl _)
      obtain ⟨extended, inserted⟩ := Table.insert?_isSome fresh
      obtain ⟨rows, -⟩ := Table.insert?_eq_some inserted
      have executed : (Statement.execute (VolumeTables.insertBundleChunk
          ⟨bundleId, chunk.chunkIndex, chunk.chunkId⟩) : VolumeM Unit) db =
          .ok () ({ db.1 with bundleChunks := extended }, db.2) := by
        apply execute_eq_ok.mpr
        refine ⟨?_, rfl⟩
        unfold VolumeTables.insertBundleChunk
        simp only [found, Option.isNone_some, Bool.false_eq_true, if_false, inserted]
      have later : ∀ row ∈ extended.rows, row.bundleId = bundleId →
          row.chunkIndex < chunk.chunkIndex + 1 := by
        intro row member isBundle
        rcases mem_appended.mp (rows ▸ member) with old | rfl
        · exact Nat.lt_succ_of_lt (below row old isBundle)
        · exact Nat.lt_succ_self _
      obtain ⟨bundleChunks, isRows, ran⟩ := inductionHypothesis
        ({ db.1 with bundleChunks := extended }, db.2) contiguous
        (fun other member => indexes other (List.mem_cons_of_mem _ member))
        (fun other member => stored other (List.mem_cons_of_mem _ member)) later
      refine ⟨bundleChunks, ?_, ?_⟩
      · rw [isRows, rows]
        simp [VolumeTables.bundleRows]
      · unfold insertBundleChunks
        rw [bind_of_ok (bindU64_of_le (indexes chunk List.mem_cons_self)), bind_of_ok executed]
        exact ran

/-- An index that does not fit `i64` fails the loop. -/
theorem insertBundleChunks_of_unfit {chunks : List BundleChunkRef}
    (unfit : ∃ chunk ∈ chunks, ¬ chunk.chunkIndex ≤ i64Max) (db : VolumeDb) :
    ∃ err db', insertBundleChunks bundleId chunks db = .error err db' := by
  induction chunks generalizing db with
  | nil => simp at unfit
  | cons chunk rest inductionHypothesis =>
      unfold insertBundleChunks
      by_cases fits : chunk.chunkIndex ≤ i64Max
      · rw [bind_of_ok (bindU64_of_le fits)]
        have rest : ∃ chunk ∈ rest, ¬ chunk.chunkIndex ≤ i64Max := by
          obtain ⟨other, member, late⟩ := unfit
          rcases List.mem_cons.mp member with rfl | member
          · exact absurd fits late
          · exact ⟨other, member, late⟩
        rw [bind_apply]
        cases (Statement.execute (VolumeTables.insertBundleChunk
          ⟨bundleId, chunk.chunkIndex, chunk.chunkId⟩) : VolumeM Unit) db with
        | ok _ next => exact inductionHypothesis rest next
        | error err next => exact ⟨err, next, rfl⟩
      · exact ⟨_, db, by rw [bind_apply, bindU64, u64ToI64, if_neg fits]; rfl⟩

end VolumeDb

/-! ## Outcomes -/

namespace Volume

open VolumeDb

variable {blake3 : Bytes → HashId} {db : VolumeDb}

/-- When `commit_bundle` stores the rows of a bundle. -/
structure Stores (blake3 : Bytes → HashId) (tables : VolumeTables) (bundleId : HashId)
    (chunks : List BundleChunkRef) (commit : Option Fs0Error) : Prop where
  checked : checkBundle blake3 bundleId chunks = .ok ()
  isNew : tables.bundleJoin bundleId = []
  stored : ∀ chunk ∈ chunks, ∃ known, tables.chunks.find? chunk.chunkId = some known
  /-- The chunks are looked up in one statement. -/
  bound : chunks.length ≤ sqliteMaxVariableNumber
  indexes : ∀ chunk ∈ chunks, chunk.chunkIndex ≤ i64Max
  record : tables.bundleChangeRecords.seq < i64Max
  commits : commit = none

/-- The tables before and after the rows of a bundle and its change are written. -/
structure BundleWritten (bundleId : HashId) (chunks : List BundleChunkRef)
    (kind : BundleReplicaEventKind) (before after : VolumeTables) : Prop where
  chunkRows : after.chunks = before.chunks
  volumeMeta : after.volumeMeta = before.volumeMeta
  bundleChunks : after.bundleChunks.rows =
    (before.bundleChunks.rows.filter fun row => row.bundleId ≠ bundleId) ++
      VolumeTables.bundleRows bundleId chunks
  records : before.upsertBundleChangeRecord kind bundleId =
    .ok ((), { before with bundleChangeRecords := after.bundleChangeRecords })

/-- How `commit_bundle` ends. -/
inductive CommitOutcome (blake3 : Bytes → HashId) (db : VolumeDb) (bundleId : HashId)
    (chunks : List BundleChunkRef) (commit : Option Fs0Error) :
    EStateM.Result Fs0Error VolumeDb BundleMeta → Prop where
  | existing (bundle : BundleMeta) (checked : checkBundle blake3 bundleId chunks = .ok ())
      (loaded : loadBundle bundleId db = .ok bundle db) :
      CommitOutcome blake3 db bundleId chunks commit (.ok bundle db)
  | refused (err : Fs0Error) (stores : ¬ Stores blake3 db.1 bundleId chunks commit) :
      CommitOutcome blake3 db bundleId chunks commit (.error err db)
  | stored (after : VolumeTables) (stores : Stores blake3 db.1 bundleId chunks commit)
      (written : BundleWritten bundleId chunks .stored db.1 after) :
      CommitOutcome blake3 db bundleId chunks commit (loadBundle bundleId (after, db.2))

theorem upsertBundleChangeRecord_cases (kind : BundleReplicaEventKind) (bundleId : HashId)
    (tables : VolumeTables) :
    (∃ records, tables.upsertBundleChangeRecord kind bundleId =
      .ok ((), { tables with bundleChangeRecords := records }) ∧
      tables.bundleChangeRecords.seq < i64Max) ∨
    (∃ err, tables.upsertBundleChangeRecord kind bundleId = .error err ∧
      ¬ tables.bundleChangeRecords.seq < i64Max) := by
  unfold VolumeTables.upsertBundleChangeRecord
  split
  next room =>
    split
    next => exact .inl ⟨_, rfl, room⟩
    next => exact .inl ⟨_, rfl, room⟩
  next full => exact .inr ⟨_, rfl, full⟩

/-- Recording a change depends on the records only. -/
theorem upsertBundleChangeRecord_congr {kind : BundleReplicaEventKind} {bundleId : HashId}
    {tables tables' : VolumeTables}
    (same : tables'.bundleChangeRecords = tables.bundleChangeRecords) :
    tables'.upsertBundleChangeRecord kind bundleId =
      (tables.upsertBundleChangeRecord kind bundleId).map fun result =>
        ((), { tables' with bundleChangeRecords := result.2.bundleChangeRecords }) := by
  unfold VolumeTables.upsertBundleChangeRecord
  rw [same]
  split
  · split <;> rfl
  · rfl

/-- The transaction of `commit_bundle` on chunks that are stored. -/
theorem commitBundleTx_cases (db : VolumeDb) {bundleId : HashId} {chunks : List BundleChunkRef}
    (contiguous : contiguousFrom 0 chunks = true)
    (stored : ∀ chunk ∈ chunks, ∃ known, db.1.chunks.find? chunk.chunkId = some known) :
    (∃ after, BundleWritten bundleId chunks .stored db.1 after ∧
      commitBundleTx bundleId chunks db = .ok () (after, db.2) ∧
      (∀ chunk ∈ chunks, chunk.chunkIndex ≤ i64Max) ∧
      db.1.bundleChangeRecords.seq < i64Max) ∨
    (∃ err db', commitBundleTx bundleId chunks db = .error err db' ∧
      ¬ ((∀ chunk ∈ chunks, chunk.chunkIndex ≤ i64Max) ∧
        db.1.bundleChangeRecords.seq < i64Max)) := by
  -- Deleting the old rows first makes room for every index.
  let emptied : VolumeDb := ({ db.1 with
    bundleChunks := db.1.bundleChunks.delete fun row => row.bundleId == bundleId }, db.2)
  have unfolded : commitBundleTx bundleId chunks db =
      (insertBundleChunks bundleId chunks >>= fun _ =>
        insertBundleChangeRecordTx bundleId .stored) emptied := rfl
  rw [unfolded]
  by_cases indexes : ∀ chunk ∈ chunks, chunk.chunkIndex ≤ i64Max
  · have below : ∀ row ∈ emptied.1.bundleChunks.rows, row.bundleId = bundleId →
        row.chunkIndex < 0 := by
      intro row member isBundle
      have kept := (Table.mem_delete.mp member).2
      simp [isBundle] at kept
    obtain ⟨bundleChunks, isRows, ran⟩ :=
      insertBundleChunks_of_fits emptied contiguous indexes stored below
    have sameRecords : ({ emptied.1 with bundleChunks := bundleChunks } :
        VolumeTables).bundleChangeRecords = db.1.bundleChangeRecords := rfl
    rw [bind_of_ok ran]
    rcases upsertBundleChangeRecord_cases .stored bundleId db.1 with
      ⟨records, upserted, room⟩ | ⟨err, failed, full⟩
    · refine .inl ⟨{ db.1 with bundleChunks := bundleChunks, bundleChangeRecords := records },
        ⟨rfl, rfl, ?_, upserted⟩, ?_, indexes, room⟩
      · rw [isRows]
        refine congrArg (· ++ _) ?_
        apply List.filter_congr
        intro row member
        by_cases isBundle : row.bundleId = bundleId <;> simp [isBundle]
      · apply execute_eq_ok.mpr
        rw [upsertBundleChangeRecord_congr sameRecords, upserted]
        exact ⟨rfl, rfl⟩
    · refine .inr ⟨err, _, execute_eq_error.mpr ⟨?_, rfl⟩, fun both => full both.2⟩
      rw [upsertBundleChangeRecord_congr sameRecords, failed]
      rfl
  · obtain ⟨err, db', failed⟩ := insertBundleChunks_of_unfit (by simpa using indexes) emptied
    exact .inr ⟨err, db', bind_of_error failed, fun both => indexes both.1⟩

theorem commitBundle_outcome (commit : Option Fs0Error) (bundleId : HashId)
    (chunks : List BundleChunkRef) (db : VolumeDb) :
    CommitOutcome blake3 db bundleId chunks commit
      (commitBundle blake3 commit bundleId chunks db) := by
  unfold commitBundle
  cases checked : checkBundle blake3 bundleId chunks with
  | error err =>
      refine .refused err fun stores => ?_
      rw [stores.checked] at checked
      cases checked
  | ok valid =>
      obtain ⟨-, contiguous, -⟩ := checkBundle_eq_ok.mp checked
      rw [bind_of_ok (lift_ok_apply _ _), bind_apply, attempt_apply]
      by_cases isNew : db.1.bundleJoin bundleId = []
      · rw [loadBundle_of_nil isNew]
        simp only [outcome_error, endState_error]
        have length : (chunks.map BundleChunkRef.chunkId).length = chunks.length :=
          List.length_map _
        by_cases bound : chunks.length ≤ sqliteMaxVariableNumber
        swap
        · rw [bind_of_error (loadChunksByIds_of_gt (length ▸ bound) db)]
          exact .refused _ fun stores => bound stores.bound
        rw [bind_of_ok (loadChunksByIds_of_le (length ▸ bound) db)]
        cases loaded : requireLoaded (db.1.chunks.rows.filter fun row =>
            row.chunkId ∈ chunks.map BundleChunkRef.chunkId) chunks with
        | error err =>
            refine .refused err fun stores => ?_
            rw [requireLoaded_eq_ok_iff_stored.mpr stores.stored] at loaded
            cases loaded
        | ok present =>
            have stored := requireLoaded_eq_ok_iff_stored.mp loaded
            rw [bind_of_ok (lift_ok_apply _ _)]
            unfold VolumeDb.commitBundle
            rcases commitBundleTx_cases db contiguous stored with
              ⟨after, written, ran, indexes, record⟩ | ⟨err, db', ran, unfit⟩
            · cases commit with
              | none =>
                  have committed : transact none (commitBundleTx bundleId chunks) db =
                      .ok () (after, db.2) := transact_eq_ok.mpr ⟨ran, rfl⟩
                  rw [bind_of_ok committed]
                  exact .stored after ⟨checked, isNew, stored, bound, indexes, record, rfl⟩ written
              | some err =>
                  have rolledBack : transact (some err) (commitBundleTx bundleId chunks) db =
                      .error err db := by
                    unfold transact
                    rw [ran]
                  rw [bind_of_error rolledBack]
                  exact .refused err fun stores => nomatch stores.commits
            · have kept := commitBundleTx_keepsChunks bundleId chunks db
              rw [ran] at kept
              have rolledBack : transact commit (commitBundleTx bundleId chunks) db =
                  .error err db := by
                unfold transact
                rw [ran]
                exact congrArg (EStateM.Result.error err) (Prod.ext rfl kept.known)
              rw [bind_of_error rolledBack]
              exact .refused err fun stores => unfit ⟨stores.indexes, stores.record⟩
      · by_cases fits : ((db.1.bundleJoin bundleId).map ChunkMeta.rawLen).sum ≤ i64Max ∧
            ((db.1.bundleJoin bundleId).map ChunkMeta.compressedLen).sum ≤ i64Max
        · have loaded := loadBundle_of_sums isNew fits.1 fits.2
          rw [loaded]
          exact .existing _ checked loaded
        · rw [loadBundle_of_overflow isNew fits]
          exact .refused _ fun stores => isNew stores.isNew

theorem loadBundle_endState (bundleId : HashId) (db : VolumeDb) :
    endState (loadBundle bundleId db) = db := by
  by_cases absent : db.1.bundleJoin bundleId = []
  · rw [loadBundle_of_nil absent]
    rfl
  · by_cases fits : ((db.1.bundleJoin bundleId).map ChunkMeta.rawLen).sum ≤ i64Max ∧
        ((db.1.bundleJoin bundleId).map ChunkMeta.compressedLen).sum ≤ i64Max
    · rw [loadBundle_of_sums absent fits.1 fits.2]
      rfl
    · rw [loadBundle_of_overflow absent fits]
      rfl

/-- How `delete_bundle` ends. -/
inductive DeleteOutcome (db : VolumeDb) (bundleId : HashId) (commit : Option Fs0Error) :
    EStateM.Result Fs0Error VolumeDb Unit → Prop where
  | deleted (after : VolumeTables) (commits : commit = none)
      (written : BundleWritten bundleId [] .deleted db.1 after) :
      DeleteOutcome db bundleId commit (.ok () (after, db.2))
  | refused (err : Fs0Error) (refuses : commit = none → ∀ records,
        db.1.upsertBundleChangeRecord .deleted bundleId ≠
          .ok ((), { db.1 with bundleChangeRecords := records })) :
      DeleteOutcome db bundleId commit (.error err db)

theorem deleteBundle_outcome (commit : Option Fs0Error) (bundleId : HashId) (db : VolumeDb) :
    DeleteOutcome db bundleId commit (VolumeDb.deleteBundle commit bundleId db) := by
  let emptied : VolumeDb := ({ db.1 with
    bundleChunks := db.1.bundleChunks.delete fun row => row.bundleId == bundleId }, db.2)
  have unfolded : deleteBundleTx bundleId db =
      insertBundleChangeRecordTx bundleId .deleted emptied := rfl
  have sameRecords : emptied.1.bundleChangeRecords = db.1.bundleChangeRecords := rfl
  unfold VolumeDb.deleteBundle transact
  rw [unfolded]
  unfold insertBundleChangeRecordTx Statement.execute
  rw [upsertBundleChangeRecord_congr sameRecords]
  rcases upsertBundleChangeRecord_cases .deleted bundleId db.1 with
    ⟨records, upserted, -⟩ | ⟨err, failed, -⟩
  · rw [upserted]
    cases commit with
    | none =>
        refine .deleted _ rfl ⟨rfl, rfl, ?_, upserted⟩
        simp only [VolumeTables.bundleRows, List.map_nil, List.append_nil]
        apply List.filter_congr
        intro row member
        by_cases isBundle : row.bundleId = bundleId <;> simp [isBundle]
    | some err => exact .refused err nofun
  · rw [failed]
    exact .refused err fun commits records upserted => nomatch failed.symm.trans upserted

/-- A change of the records that succeeds lets the bundle be deleted. -/
theorem deleteBundle_of_written {bundleId : HashId} {after : VolumeTables}
    (written : BundleWritten bundleId [] .deleted db.1 after) :
    outcome (VolumeDb.deleteBundle none bundleId db) = .ok () := by
  have ended := deleteBundle_outcome none bundleId db
  generalize VolumeDb.deleteBundle none bundleId db = result at ended
  cases ended with
  | deleted after commits written => rfl
  | refused err refuses => exact absurd written.records (refuses rfl _)

/-- A bundle that was committed is loaded with the lengths returned. -/
theorem commitBundle_eq_ok {commit : Option Fs0Error} {bundleId : HashId}
    {chunks : List BundleChunkRef} {bundle : BundleMeta} {db' : VolumeDb}
    (ran : commitBundle blake3 commit bundleId chunks db = .ok bundle db') :
    checkBundle blake3 bundleId chunks = .ok () ∧ loadBundle bundleId db' = .ok bundle db' := by
  have ended : CommitOutcome blake3 _ _ _ _ _ := commitBundle_outcome commit bundleId chunks db
  rw [ran] at ended
  generalize result : EStateM.Result.ok bundle db' = r at ended
  cases ended with
  | existing known checked loaded =>
      obtain ⟨rfl, rfl⟩ := EStateM.Result.ok.inj result
      exact ⟨checked, loaded⟩
  | refused err stores => cases result
  | stored after stores written =>
      refine ⟨stores.checked, ?_⟩
      have kept := loadBundle_endState bundleId (after, db.2)
      rw [← result] at kept
      obtain rfl : db' = (after, db.2) := kept
      rfl

end Volume

end Fs0
