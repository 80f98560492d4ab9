import Fs0.Storage.Data
import Fs0.Volume.Integrity

/-!
Contract: the lengths of a bundle that a storage reports.

Owns:
- the sums of `load_bundle`, of `has_bundle` and of the change records, which are
  the same while they stay within `i64`;
- the commits after which they no longer do.

Does not own: what central makes of them.
-/

set_option autoImplicit false

namespace Fs0

open Lib Fallible

namespace VolumeTables

/-- The lengths of the chunks of a bundle add up within `i64`. -/
def SumsFit (chunks : List ChunkMeta) : Prop :=
  (chunks.map ChunkMeta.rawLen).sum ≤ i64Max ∧ (chunks.map ChunkMeta.compressedLen).sum ≤ i64Max

instance (chunks : List ChunkMeta) : Decidable (SumsFit chunks) :=
  inferInstanceAs (Decidable (_ ∧ _))

/-- The rows of the chunks that a list names. -/
def chunksOf (tables : VolumeTables) (chunks : List BundleChunkRef) : List ChunkMeta :=
  chunks.filterMap fun chunk => tables.chunks.find? chunk.chunkId

theorem sumsFit_nil : SumsFit [] := ⟨Nat.zero_le _, Nat.zero_le _⟩

end VolumeTables

namespace Storage

open VolumeTables VolumeDb Volume

variable {blake3 : Bytes → HashId} {db : VolumeDb} {bundleId : HashId}

/-- Checked addition does not overflow while the sums fit `i64`. -/
theorem addChunkLens_of_fits {chunks : List BundleChunkRef} {joined : List ChunkMeta}
    {rawLen compressedLen : Nat}
    (found : chunks.map (fun chunk => db.1.chunks.find? chunk.chunkId) = joined.map some)
    (rawFits : rawLen + (joined.map ChunkMeta.rawLen).sum ≤ i64Max)
    (compressedFits : compressedLen + (joined.map ChunkMeta.compressedLen).sum ≤ i64Max) :
    addChunkLens chunks rawLen compressedLen db =
      .ok (rawLen + (joined.map ChunkMeta.rawLen).sum,
        compressedLen + (joined.map ChunkMeta.compressedLen).sum) db := by
  induction chunks generalizing joined rawLen compressedLen with
  | nil =>
      obtain rfl : joined = [] := List.map_eq_nil_iff.mp found.symm
      rfl
  | cons chunk rest inductionHypothesis =>
      cases joined with
      | nil => cases found
      | cons known joined =>
          obtain ⟨isKnown, later⟩ := List.cons.inj found
          rw [List.map_cons, List.sum_cons] at rawFits compressedFits ⊢
          rw [List.map_cons, List.sum_cons]
          have u64 : i64Max < u64Modulus := by decide
          unfold addChunkLens
          rw [bind_of_ok (loadChunk_of_some isKnown), checkedAdd, if_pos (by omega), okOr,
            bind_of_ok (lift_ok_apply _ _), checkedAdd, if_pos (by omega), okOr,
            bind_of_ok (lift_ok_apply _ _),
            inductionHypothesis later (by omega) (by omega), Nat.add_assoc, Nat.add_assoc]

theorem hasBundle_of_fits (bundled : Bundled blake3 db.1) (has : db.1.HasBundle bundleId)
    (fits : SumsFit (db.1.bundleJoin bundleId)) : hasBundle bundleId db =
      .ok (.hasBundle true (some ((db.1.bundleJoin bundleId).map ChunkMeta.rawLen).sum)
        (some ((db.1.bundleJoin bundleId).map ChunkMeta.compressedLen).sum)) db := by
  obtain ⟨joined, isJoin, found⟩ := bundled.bundleJoin_eq has
  obtain ⟨-, valid⟩ := bundled.chunkList_eq has
  rw [isJoin] at fits ⊢
  have added := addChunkLens_of_fits found (by rw [Nat.zero_add]; exact fits.1)
    (by rw [Nat.zero_add]; exact fits.2)
  rw [Nat.zero_add, Nat.zero_add] at added
  unfold hasBundle
  rw [bind_apply, attempt_apply, listBundleChunks_eq (checkBundle_eq_ok.mp valid).1]
  simp only [outcome_ok, endState_ok]
  rw [bind_of_ok added]
  rfl

/-! ## Change records -/

/-- An event carries the sums of its bundle. -/
def CarriesSums (tables : VolumeTables) (event : BundleReplicaEvent) : Prop :=
  event.rawLen = some ((tables.bundleJoin event.bundleId).map ChunkMeta.rawLen).sum ∧
    event.compressedLen = some ((tables.bundleJoin event.bundleId).map ChunkMeta.compressedLen).sum

theorem changeRecord_of_fits {tables : VolumeTables} (volumeId : Nat)
    {record : BundleChangeRecordRow} (fits : SumsFit (tables.bundleJoin record.bundleId)) :
    ∃ event, changeRecord tables volumeId record = .ok event := by
  have rawLen := sqlSum_eq_ok.mpr ⟨fits.1, rfl⟩
  have compressedLen := sqlSum_eq_ok.mpr ⟨fits.2, rfl⟩
  exact ⟨_, Fs0Result.bind_eq_ok.mpr ⟨_, rawLen, Fs0Result.bind_eq_ok.mpr
    ⟨_, compressedLen, rfl⟩⟩⟩

theorem changeRecord_carriesSums {tables : VolumeTables} {volumeId : Nat}
    {record : BundleChangeRecordRow} {event : BundleReplicaEvent}
    (ran : changeRecord tables volumeId record = .ok event) : CarriesSums tables event := by
  obtain ⟨rawLen, rawSum, ran⟩ := Fs0Result.bind_eq_ok.mp ran
  obtain ⟨compressedLen, compressedSum, ran⟩ := Fs0Result.bind_eq_ok.mp ran
  obtain ⟨-, rfl⟩ := sqlSum_eq_ok.mp rawSum
  obtain ⟨-, rfl⟩ := sqlSum_eq_ok.mp compressedSum
  obtain rfl := Except.ok.inj ran
  exact ⟨rfl, rfl⟩

/-- A list of changes is read when the sums of each of its bundles fit. -/
theorem mapM_changeRecord {tables : VolumeTables} (volumeId : Nat)
    {records : List BundleChangeRecordRow}
    (fits : ∀ record ∈ records, SumsFit (tables.bundleJoin record.bundleId)) :
    ∃ events, records.mapM (changeRecord tables volumeId) = .ok events := by
  induction records with
  | nil => exact ⟨[], rfl⟩
  | cons record rest inductionHypothesis =>
      obtain ⟨event, first⟩ := changeRecord_of_fits volumeId (fits record List.mem_cons_self)
      obtain ⟨events, ran⟩ := inductionHypothesis fun other member =>
        fits other (List.mem_cons_of_mem _ member)
      exact ⟨event :: events, by rw [List.mapM_cons, first, Fs0Result.ok_bind, ran]; rfl⟩

theorem getBundleChangeRecords_eq_ok {limit : Nat} {events : List BundleReplicaEvent}
    {db' : VolumeDb} : getBundleChangeRecords limit db = .ok events db' ↔ limit ≤ i64Max ∧
      (db.1.changeRecords.take limit).mapM (changeRecord db.1 db.2.volumeId) = .ok events ∧
      db' = db := by
  have unfolded : getBundleChangeRecords limit db =
      (Statement.bindU64 limit "limit" >>= fun limit => Statement.query id >>= fun tables =>
        lift ((tables.changeRecords.take limit).mapM (changeRecord tables db.2.volumeId))) db := rfl
  rw [unfolded, Statement.bindU64_bind_eq_ok, Statement.query_bind_apply, lift_eq_ok]
  rfl

theorem getBundleChangeRecords_carriesSums {limit : Nat} {events : List BundleReplicaEvent}
    {db' : VolumeDb} (ran : getBundleChangeRecords limit db = .ok events db') :
    ∀ event ∈ events, CarriesSums db.1 event := by
  obtain ⟨-, mapped, -⟩ := getBundleChangeRecords_eq_ok.mp ran
  intro event member
  obtain ⟨record, -, isEvent⟩ := mapM_mem mapped member
  exact changeRecord_carriesSums isEvent

/-! ## Agreement -/

/-- The changes are read, and every bundle has one pair of lengths. -/
structure Reported (db : VolumeDb) : Prop where
  reads : ∀ limit ≤ i64Max, ∃ events, getBundleChangeRecords limit db = .ok events db
  agree : ∀ bundleId, db.1.HasBundle bundleId → ∃ rawLen compressedLen chunkCount,
    rawLen = ((db.1.bundleJoin bundleId).map ChunkMeta.rawLen).sum ∧
    compressedLen = ((db.1.bundleJoin bundleId).map ChunkMeta.compressedLen).sum ∧
    loadBundle bundleId db = .ok ⟨bundleId, rawLen, compressedLen, chunkCount⟩ db ∧
    hasBundle bundleId db = .ok (.hasBundle true (some rawLen) (some compressedLen)) db ∧
    ∀ limit events, getBundleChangeRecords limit db = .ok events db →
      ∀ event ∈ events, event.bundleId = bundleId →
        event.rawLen = some rawLen ∧ event.compressedLen = some compressedLen

/-- The bundles add up within `i64`. -/
structure Summed (blake3 : Bytes → HashId) (tables : VolumeTables) : Prop where
  bundled : Bundled blake3 tables
  sums : ∀ bundleId, tables.HasBundle bundleId → SumsFit (tables.bundleJoin bundleId)

namespace Summed

variable {tables after : VolumeTables}

theorem sumsFit (summed : Summed blake3 tables) (bundleId : HashId) :
    SumsFit (tables.bundleJoin bundleId) := by
  by_cases has : tables.HasBundle bundleId
  · exact summed.sums bundleId has
  · have none : tables.rowsOf bundleId = [] := by
      by_contra rows
      exact has (hasBundle_iff.mpr rows)
    rw [bundleJoin_eq, none]
    exact sumsFit_nil

theorem reported (summed : Summed blake3 db.1) : Reported db := by
  constructor
  · intro limit fits
    obtain ⟨events, mapped⟩ : ∃ events, (db.1.changeRecords.take limit).mapM
        (changeRecord db.1 db.2.volumeId) = .ok events :=
      mapM_changeRecord db.2.volumeId fun record _ => summed.sumsFit record.bundleId
    exact ⟨events, getBundleChangeRecords_eq_ok.mpr ⟨fits, mapped, rfl⟩⟩
  · intro bundleId has
    have fits := summed.sums bundleId has
    refine ⟨_, _, _, rfl, rfl,
      loadBundle_of_sums (summed.bundled.bundleJoin_ne_nil has) fits.1 fits.2,
      hasBundle_of_fits summed.bundled has fits, ?_⟩
    rintro limit events ran event member rfl
    exact getBundleChangeRecords_carriesSums ran event member

end Summed

/-- A commit that stores a bundle whose lengths add up within `i64`. -/
def KeepsSums (blake3 : Bytes → HashId) (v : Volume) (e : VolumeEvent) : Prop :=
  ∀ bundleId chunks commit, e = .commitBundle bundleId chunks commit →
    Stores blake3 v.tables bundleId chunks commit → SumsFit (v.tables.chunksOf chunks)

theorem bundleJoin_of_written {before after : VolumeTables} {chunks : List BundleChunkRef}
    {kind : BundleReplicaEventKind} (written : BundleWritten bundleId chunks kind before after) :
    after.bundleJoin bundleId = before.chunksOf chunks := by
  rw [bundleJoin_eq, written.rowsOf_self, written.chunkRows]
  unfold bundleRows VolumeTables.chunksOf
  rw [List.filterMap_map]
  rfl

theorem Summed.of_step {v v' : Volume} {e : VolumeEvent} (summed : Summed blake3 v.tables)
    (keeps : KeepsSums blake3 v e) (step : TableStep blake3 e v.tables v'.tables) :
    Summed blake3 v'.tables := by
  refine ⟨summed.bundled.of_step step, ?_⟩
  intro bundleId has
  rcases hasBundle_of_step summed.bundled step has with
    ⟨had, same⟩ | ⟨chunks, commit, isCommit, stores, written⟩
  · rw [same.bundleJoin]
    exact summed.sums bundleId had
  · rw [bundleJoin_of_written written]
    exact keeps bundleId chunks commit isCommit stores

/-- A commit that stores a bundle whose lengths do not add up is not reported. -/
theorem not_reported_of_step {v v' : Volume} {e : VolumeEvent}
    (broken : ¬ KeepsSums blake3 v e) (taken : (volume blake3).step v e = some v') :
    ¬ Reported v'.db := by
  intro reported
  apply broken
  rintro bundleId chunks commit rfl stores
  have ended : CommitOutcome blake3 _ _ _ _ _ :=
    commitBundle_outcome commit bundleId chunks v.db
  obtain rfl := Option.some.inj taken
  unfold ran at reported
  generalize commitBundle blake3 commit bundleId chunks v.db = result at ended reported
  cases ended with
  | existing bundle checked loaded =>
      rw [loadBundle_of_nil stores.isNew] at loaded
      cases loaded
  | refused err refuses => exact absurd stores refuses
  | stored after stores written =>
      rw [loadBundle_endState] at reported
      have has : after.HasBundle bundleId := by
        rw [hasBundle_iff, written.rowsOf_self]
        exact fun none => (checkBundle_eq_ok.mp stores.checked).1 (List.map_eq_nil_iff.mp none)
      obtain ⟨rawLen, compressedLen, chunkCount, -, -, loaded, -⟩ := reported.agree bundleId has
      obtain ⟨-, rawFits, compressedFits, -⟩ := loadBundle_eq_ok.mp loaded
      have join : after.bundleJoin bundleId = v.tables.chunksOf chunks :=
        bundleJoin_of_written written
      exact join ▸ ⟨rawFits, compressedFits⟩

/-- The lengths of the bundles are reported throughout a run exactly when no commit stores
a bundle whose lengths leave `i64`. -/
theorem reported_iff_keepsSums {v : Volume} {ts : List (Transition Volume VolumeEvent)}
    (run : (volume blake3).Run ts v) :
    (∀ x ∈ visited ts v, Reported x.db) ↔ ∀ t ∈ ts, KeepsSums blake3 t.pre t.event := by
  refine run.all_visited_iff_guard (fun v => Summed blake3 v.tables) (fun v => Reported v.db)
    (KeepsSums blake3) ?_ ?_ ?_ ?_
  · intro v initial
    have bundled := reachable_bundled (System.Reachable.init initial)
    refine ⟨bundled, ?_⟩
    obtain ⟨tables, files, initialised, rfl⟩ := initial
    rintro bundleId ⟨row, member, -⟩
    have rows : tables.bundleChunks.rows = [] := by
      rw [initialised.fresh.bundleChunks]
      rfl
    exact absurd (rows ▸ member) List.not_mem_nil
  · exact fun v e v' summed keeps taken => summed.of_step keeps (step_tables (step_cases taken))
  · exact fun v summed => summed.reported
  · exact fun v e v' _ broken taken => not_reported_of_step broken taken

theorem reported_iff_keepsSums_committed : ∃ ts v, (volume Volume.Scenario.blake3).Run ts v ∧
    v.tables.HasBundle (Volume.Scenario.hash 7) ∧ ∀ x ∈ visited ts v, Reported x.db := by
  let fits : Volume → VolumeEvent → Bool := fun v e =>
    match e with
    | .commitBundle _ chunks _ => decide (SumsFit (v.tables.chunksOf chunks))
    | _ => true
  obtain ⟨ts, v, run, admitted, has⟩ := Volume.Scenario.run_of_execWhile fits
    (Volume.Scenario.stored 1 (Volume.Scenario.hash 7) 5 [1, 2, 3] ++
      [.commitBundle (Volume.Scenario.hash 7) [⟨0, Volume.Scenario.hash 7⟩, ⟨1, Volume.Scenario.hash 7⟩] none])
    (fun v => decide (v.tables.HasBundle (Volume.Scenario.hash 7))) true (by decide +kernel)
  refine ⟨ts, v, run, of_decide_eq_true has, (reported_iff_keepsSums run).mpr ?_⟩
  rintro ⟨pre, event, post⟩ member bundleId chunks commit rfl stores
  exact of_decide_eq_true (admitted _ member)

/-- A bundle of one chunk twice, whose length is the largest that is stored. -/
theorem not_reported_of_largest : ∃ ts v, (volume Volume.Scenario.blake3).Run ts v ∧
    ¬ Reported v.db := by
  obtain ⟨ts, v, run, failed⟩ := Volume.Scenario.run_of_exec
    (Volume.Scenario.stored 1 (Volume.Scenario.hash 7) i64Max [1, 2, 3] ++
      [.commitBundle (Volume.Scenario.hash 7) [⟨0, Volume.Scenario.hash 7⟩, ⟨1, Volume.Scenario.hash 7⟩] none])
    (fun v => (outcome (getBundleChangeRecords 128 v.db)).isOk) false (by decide +kernel)
  refine ⟨ts, v, run, fun reported => ?_⟩
  obtain ⟨events, read⟩ := reported.reads 128 (by decide)
  rw [read] at failed
  cases failed

end Storage

end Fs0
