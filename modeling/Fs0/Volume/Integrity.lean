import Fs0.Volume.Allocation
import Fs0.Volume.Bundles

/-!
Contract: bundles keep the chunks they list.

Owns:
- the changes of the tables of a volume, one constructor for each kind;
- that every bundle lists stored chunks under the indexes from 0 on, and that its
  list and its chunks stay the same until it is deleted;
- that committing a bundle again changes nothing.

Does not own: the bytes of the chunks, and what central is told about the bundle.
-/

set_option autoImplicit false

namespace Fs0

open Lib Fallible

/-! ## Changes of the tables -/

namespace Volume

/-- What an event does to the tables of a volume. -/
inductive TableStep (blake3 : Bytes → HashId) (e : VolumeEvent) (before after : VolumeTables) :
    Prop where
  | kept (chunks : after.chunks = before.chunks) (bundleChunks : after.bundleChunks = before.bundleChunks)
      (records : after.bundleChangeRecords = before.bundleChangeRecords)
  | inserted (chunk : ChunkMeta) (chunks : Table ChunkMeta.chunkId)
      (appended : before.chunks.insert? chunk = some chunks)
      (effect : after = { before with chunks := chunks })
  | deleted (chunkId : HashId) (isDelete : e = .deleteChunk chunkId)
      (unreferenced : ∀ row ∈ before.bundleChunks.rows, row.chunkId = chunkId →
        before.chunks.find? chunkId = none)
      (effect : after = { before with
        chunks := before.chunks.delete fun row => row.chunkId == chunkId })
  | stored (bundleId : HashId) (chunks : List BundleChunkRef) (commit : Option Fs0Error)
      (isCommit : e = .commitBundle bundleId chunks commit)
      (stores : Stores blake3 before bundleId chunks commit)
      (written : BundleWritten bundleId chunks .stored before after)
  | removed (bundleId : HashId) (isDelete : e = .deleteBundle bundleId none)
      (written : BundleWritten bundleId [] .deleted before after)
  | forgotten (maxEventId : Nat) (isRemove : e = .removeBundleChangeRecords maxEventId)
      (effect : after = { before with
        bundleChangeRecords := before.bundleChangeRecords.delete fun row =>
          row.eventId ≤ maxEventId })

variable {blake3 : Bytes → HashId} {v v' : Volume} {e : VolumeEvent}

theorem removeBundleChangeRecords_cases (maxEventId : Nat) (db : VolumeDb) :
    endState (VolumeDb.removeBundleChangeRecords maxEventId db) = db ∨
      endState (VolumeDb.removeBundleChangeRecords maxEventId db) = ({ db.1 with
        bundleChangeRecords := db.1.bundleChangeRecords.delete fun row =>
          row.eventId ≤ maxEventId }, db.2) := by
  unfold VolumeDb.removeBundleChangeRecords
  by_cases fits : maxEventId ≤ i64Max
  · rw [bind_of_ok (Statement.bindU64_of_le fits)]
    exact .inr rfl
  · rw [bind_apply, Statement.bindU64, u64ToI64, if_neg fits]
    exact .inl rfl

theorem step_tables (step : VolumeStep blake3 v e v') :
    TableStep blake3 e v.tables v'.tables := by
  cases step with
  | reserved chunkId rawLen bytes now insert db reserved =>
      obtain ⟨known, rfl, -⟩ := reserved.after
      exact .kept rfl rfl rfl
  | inserted put chunks found complete fits appended => exact .inserted put.insert chunks appended rfl
  | deleteChunk chunkId =>
      unfold ran
      rcases deleteChunk_cases chunkId v.db with same | ⟨unreferenced, deleted⟩
      · rw [same]
        exact .kept rfl rfl rfl
      · rw [deleted]
        exact .deleted chunkId rfl unreferenced rfl
  | commitBundle bundleId chunks commit =>
      unfold ran
      have outcome : CommitOutcome blake3 _ _ _ _ _ :=
        commitBundle_outcome commit bundleId chunks v.db
      generalize Volume.commitBundle blake3 commit bundleId chunks v.db = result at outcome
      cases outcome with
      | existing bundle checked loaded => exact .kept rfl rfl rfl
      | refused err stores => exact .kept rfl rfl rfl
      | stored after stores written =>
          rw [loadBundle_endState]
          exact .stored bundleId chunks commit rfl stores written
  | deleteBundle bundleId commit =>
      unfold ran
      have outcome := deleteBundle_outcome commit bundleId v.db
      generalize VolumeDb.deleteBundle commit bundleId v.db = result at outcome
      cases outcome with
      | deleted after commits written =>
          obtain rfl := commits
          exact .removed bundleId rfl written
      | refused err => exact .kept rfl rfl rfl
  | removeBundleChangeRecords maxEventId =>
      unfold ran
      rcases removeBundleChangeRecords_cases maxEventId v.db with same | removed
      · rw [same]
        exact .kept rfl rfl rfl
      · rw [removed]
        exact .forgotten maxEventId rfl rfl
  | _ => exact .kept rfl rfl rfl

end Volume

/-! ## Rows of a bundle -/

namespace VolumeTables

/-- The rows of a bundle in the order of the table. -/
def rowsOf (tables : VolumeTables) (bundleId : HashId) : List BundleChunkRow :=
  tables.bundleChunks.rows.filter fun row => row.bundleId = bundleId

theorem hasBundle_iff {tables : VolumeTables} {bundleId : HashId} :
    tables.HasBundle bundleId ↔ tables.rowsOf bundleId ≠ [] := by
  unfold HasBundle rowsOf
  rw [Ne, List.filter_eq_nil_iff]
  simp

theorem chunkList_of_rowsOf {tables : VolumeTables} {bundleId : HashId}
    {chunks : List BundleChunkRef} (contiguous : Volume.contiguousFrom 0 chunks = true)
    (rows : tables.rowsOf bundleId = bundleRows bundleId chunks) :
    tables.chunkList bundleId = chunks := by
  have indexes := Volume.contiguousFrom_eq_true.mp contiguous
  have sorted : (bundleRows bundleId chunks).Pairwise fun left right =>
      left.chunkIndex ≤ right.chunkIndex := by
    have upward : (chunks.map BundleChunkRef.chunkIndex).Pairwise (· ≤ ·) := by
      rw [indexes]
      exact (List.pairwise_lt_range' 1).imp fun less => le_of_lt less
    exact List.pairwise_map.mpr (List.pairwise_map.mp upward)
  unfold chunkList bundleChunksOf
  rw [show tables.bundleChunks.rows.filter _ = _ from rows, sorted.insertionSort_eq]
  unfold bundleRows
  rw [List.map_map]
  exact List.map_id chunks

/-- The chunks a bundle joins are those of its rows. -/
theorem bundleJoin_eq {tables : VolumeTables} {bundleId : HashId} :
    tables.bundleJoin bundleId =
      (tables.rowsOf bundleId).filterMap fun row => tables.chunks.find? row.chunkId := rfl

end VolumeTables

namespace Volume

open VolumeTables

variable {blake3 : Bytes → HashId} {before after : VolumeTables} {bundleId : HashId}
  {chunks : List BundleChunkRef} {kind : BundleReplicaEventKind}

namespace BundleWritten

theorem rowsOf_self (written : BundleWritten bundleId chunks kind before after) :
    after.rowsOf bundleId = bundleRows bundleId chunks := by
  unfold rowsOf
  rw [written.bundleChunks, List.filter_append, List.filter_filter]
  have others : (before.bundleChunks.rows.filter fun row =>
      decide (row.bundleId = bundleId) && decide (row.bundleId ≠ bundleId)) = [] := by
    apply List.filter_eq_nil_iff.mpr
    intro row member
    by_cases isBundle : row.bundleId = bundleId <;> simp [isBundle]
  rw [others, List.nil_append]
  apply List.filter_eq_self.mpr
  intro row member
  exact decide_eq_true (mem_bundleRows.mp member).1

theorem rowsOf_of_ne (written : BundleWritten bundleId chunks kind before after) {other : HashId}
    (differs : other ≠ bundleId) : after.rowsOf other = before.rowsOf other := by
  unfold rowsOf
  rw [written.bundleChunks, List.filter_append, List.filter_filter]
  have rows : (bundleRows bundleId chunks).filter (fun row => decide (row.bundleId = other)) =
      [] := by
    apply List.filter_eq_nil_iff.mpr
    intro row member isOther
    exact differs ((of_decide_eq_true isOther).symm.trans (mem_bundleRows.mp member).1)
  rw [rows, List.append_nil]
  apply List.filter_congr
  intro row member
  by_cases isOther : row.bundleId = other
  · simp [isOther, differs]
  · simp [isOther]

theorem mem_bundleChunks (written : BundleWritten bundleId chunks kind before after)
    {row : BundleChunkRow} (member : row ∈ after.bundleChunks.rows) :
    row ∈ before.bundleChunks.rows ∨ ⟨row.chunkIndex, row.chunkId⟩ ∈ chunks := by
  rw [written.bundleChunks] at member
  rcases List.mem_append.mp member with old | isNew
  · exact .inl (List.mem_filter.mp old).1
  · exact .inr (mem_bundleRows.mp isNew).2

end BundleWritten

/-! ## Integrity -/

/-- Every bundle lists stored chunks, as `commit_bundle` checks them. -/
structure Bundled (blake3 : Bytes → HashId) (tables : VolumeTables) : Prop where
  listed : ∀ bundleId, tables.HasBundle bundleId → ∃ chunks,
    tables.rowsOf bundleId = bundleRows bundleId chunks ∧
      checkBundle blake3 bundleId chunks = .ok ()
  stored : ∀ row ∈ tables.bundleChunks.rows, ∃ chunk,
    tables.chunks.find? row.chunkId = some chunk

/-- The chunks of the bundles are still where they were. -/
theorem TableStep.find? {e : VolumeEvent} (step : TableStep blake3 e before after)
    {row : BundleChunkRow} (member : row ∈ before.bundleChunks.rows)
    {chunk : ChunkMeta} (found : before.chunks.find? row.chunkId = some chunk) :
    after.chunks.find? row.chunkId = some chunk := by
  cases step with
  | kept chunks bundleChunks records => rw [chunks, found]
  | inserted new chunks appended effect =>
      obtain rfl := effect
      obtain ⟨rows, -⟩ := Table.insert?_eq_some appended
      obtain ⟨among, same⟩ := Table.mem_of_find? found
      apply Table.find?_eq_some.mpr
      exact ⟨by rw [rows]; exact List.mem_append_left _ among, same⟩
  | deleted chunkId isDelete unreferenced effect =>
      obtain rfl := effect
      rw [← found]
      apply Table.find?_delete_of_false
      intro other keyed
      by_contra isDeleted
      have same : row.chunkId = chunkId := by
        rw [← keyed]
        simpa using isDeleted
      rw [same, unreferenced row member same] at found
      cases found
  | stored bundleId chunks commit isCommit stores written => rw [written.chunkRows, found]
  | removed bundleId isDelete written => rw [written.chunkRows, found]
  | forgotten maxEventId isRemove effect =>
      obtain rfl := effect
      exact found

namespace Bundled

variable {e : VolumeEvent}

theorem of_written (bundled : Bundled blake3 before)
    (written : BundleWritten bundleId chunks kind before after)
    (valid : chunks ≠ [] → checkBundle blake3 bundleId chunks = .ok ())
    (present : ∀ chunk ∈ chunks, ∃ known, before.chunks.find? chunk.chunkId = some known) :
    Bundled blake3 after := by
  constructor
  · intro other has
    by_cases isBundle : other = bundleId
    · obtain rfl := isBundle
      refine ⟨chunks, written.rowsOf_self, valid ?_⟩
      rintro rfl
      exact hasBundle_iff.mp has written.rowsOf_self
    · rw [hasBundle_iff, written.rowsOf_of_ne isBundle, ← hasBundle_iff] at has
      rw [written.rowsOf_of_ne isBundle]
      exact bundled.listed other has
  · intro row member
    rw [written.chunkRows]
    rcases written.mem_bundleChunks member with old | isNew
    · exact bundled.stored row old
    · exact present _ isNew

theorem of_step (bundled : Bundled blake3 before) (step : TableStep blake3 e before after) :
    Bundled blake3 after := by
  have same : after.bundleChunks = before.bundleChunks → Bundled blake3 after := by
    intro bundleChunks
    constructor
    · unfold HasBundle rowsOf
      rw [bundleChunks]
      exact bundled.listed
    · rw [bundleChunks]
      intro row member
      obtain ⟨chunk, found⟩ := bundled.stored row member
      exact ⟨chunk, step.find? member found⟩
  cases step with
  | kept chunks bundleChunks records => exact same bundleChunks
  | inserted chunk chunks appended effect => exact same (effect ▸ rfl)
  | deleted chunkId isDelete unreferenced effect => exact same (effect ▸ rfl)
  | stored bundleId chunks commit isCommit stores written =>
      exact bundled.of_written written (fun _ => stores.checked) stores.stored
  | removed bundleId isDelete written =>
      exact bundled.of_written written (fun nonempty => absurd rfl nonempty)
        fun chunk member => absurd member List.not_mem_nil
  | forgotten maxEventId isRemove effect => exact same (effect ▸ rfl)

theorem chunkList_eq (bundled : Bundled blake3 before) (has : before.HasBundle bundleId) :
    before.rowsOf bundleId = bundleRows bundleId (before.chunkList bundleId) ∧
      checkBundle blake3 bundleId (before.chunkList bundleId) = .ok () := by
  obtain ⟨chunks, rows, valid⟩ := bundled.listed bundleId has
  have contiguous := (checkBundle_eq_ok.mp valid).2.1
  rw [chunkList_of_rowsOf contiguous rows]
  exact ⟨rows, valid⟩

/-- A bundle joins one chunk for each entry of its list. -/
theorem bundleJoin_eq (bundled : Bundled blake3 before) (has : before.HasBundle bundleId) :
    ∃ joined, before.bundleJoin bundleId = joined ∧
      (before.chunkList bundleId).map (fun chunk => before.chunks.find? chunk.chunkId) =
        joined.map some := by
  obtain ⟨rows, -⟩ := bundled.chunkList_eq has
  have stored : ∀ row ∈ before.rowsOf bundleId, ∃ chunk,
      before.chunks.find? row.chunkId = some chunk :=
    fun row member => bundled.stored row (List.mem_filter.mp member).1
  refine ⟨_, rfl, ?_⟩
  rw [VolumeTables.bundleJoin_eq, rows]
  rw [rows] at stored
  generalize before.chunkList bundleId = chunks at stored
  induction chunks with
  | nil => rfl
  | cons chunk rest inductionHypothesis =>
      obtain ⟨known, found⟩ := stored ⟨bundleId, chunk.chunkIndex, chunk.chunkId⟩ (by
        simp [bundleRows])
      have later := inductionHypothesis fun row member => stored row (by
        unfold bundleRows at member ⊢
        exact List.mem_cons_of_mem _ member)
      unfold bundleRows at later ⊢
      rw [List.map_cons, List.map_cons, List.filterMap_cons, found]
      simp only [List.map_cons]
      rw [later]

theorem bundleJoin_ne_nil (bundled : Bundled blake3 before) (has : before.HasBundle bundleId) :
    before.bundleJoin bundleId ≠ [] := by
  obtain ⟨-, valid⟩ := bundled.chunkList_eq has
  obtain ⟨joined, isJoin, chunks⟩ := bundled.bundleJoin_eq has
  rw [isJoin]
  rintro rfl
  exact (checkBundle_eq_ok.mp valid).1 (List.map_eq_nil_iff.mp chunks)

/-- A change that does not delete a bundle keeps its rows. -/
theorem rowsOf_of_step (bundled : Bundled blake3 before) (step : TableStep blake3 e before after)
    (has : before.HasBundle bundleId)
    (stays : e = .deleteBundle bundleId none → ¬ BundleWritten bundleId [] .deleted before after) :
    after.rowsOf bundleId = before.rowsOf bundleId := by
  have same : after.bundleChunks = before.bundleChunks →
      after.rowsOf bundleId = before.rowsOf bundleId := by
    intro bundleChunks
    unfold rowsOf
    rw [bundleChunks]
  cases step with
  | kept chunks bundleChunks records => exact same bundleChunks
  | inserted chunk chunks appended effect => exact same (effect ▸ rfl)
  | deleted chunkId isDelete unreferenced effect => exact same (effect ▸ rfl)
  | stored other chunks commit isCommit stores written =>
      apply written.rowsOf_of_ne
      rintro rfl
      exact bundled.bundleJoin_ne_nil has stores.isNew
  | removed other isDelete written =>
      apply written.rowsOf_of_ne
      rintro rfl
      exact stays isDelete written
  | forgotten maxEventId isRemove effect => exact same (effect ▸ rfl)

end Bundled

/-! ## Bundles that stay -/

/-- A bundle lists the same chunks, and these are where they were. -/
structure SameBundle (bundleId : HashId) (before after : VolumeTables) : Prop where
  rows : after.rowsOf bundleId = before.rowsOf bundleId
  chunks : ∀ row ∈ before.rowsOf bundleId,
    after.chunks.find? row.chunkId = before.chunks.find? row.chunkId

namespace SameBundle

theorem refl (bundleId : HashId) (tables : VolumeTables) : SameBundle bundleId tables tables :=
  ⟨rfl, fun _ _ => rfl⟩

theorem trans {middle : VolumeTables} (first : SameBundle bundleId before middle)
    (second : SameBundle bundleId middle after) : SameBundle bundleId before after :=
  ⟨second.rows.trans first.rows, fun row member =>
    (second.chunks row (first.rows ▸ member)).trans (first.chunks row member)⟩

theorem hasBundle (same : SameBundle bundleId before after) (has : before.HasBundle bundleId) :
    after.HasBundle bundleId := by
  rw [hasBundle_iff, same.rows, ← hasBundle_iff]
  exact has

theorem chunkList (same : SameBundle bundleId before after) :
    after.chunkList bundleId = before.chunkList bundleId := by
  have rows : after.bundleChunks.rows.filter (fun row => decide (row.bundleId = bundleId)) =
      before.bundleChunks.rows.filter fun row => decide (row.bundleId = bundleId) := same.rows
  unfold VolumeTables.chunkList bundleChunksOf
  rw [rows]

theorem bundleJoin (same : SameBundle bundleId before after) :
    after.bundleJoin bundleId = before.bundleJoin bundleId := by
  rw [bundleJoin_eq, bundleJoin_eq, same.rows]
  exact List.filterMap_congr same.chunks

end SameBundle

theorem sameBundle_of_step {e : VolumeEvent} (bundled : Bundled blake3 before)
    (step : TableStep blake3 e before after) (has : before.HasBundle bundleId)
    (stays : e = .deleteBundle bundleId none → ¬ BundleWritten bundleId [] .deleted before after) :
    SameBundle bundleId before after := by
  refine ⟨bundled.rowsOf_of_step step has stays, ?_⟩
  intro row among
  have isRow := (List.mem_filter.mp among).1
  obtain ⟨chunk, found⟩ := bundled.stored row isRow
  rw [found]
  exact step.find? isRow found

/-- A bundle after a change was there before, or the change is its commit. -/
theorem hasBundle_of_step {e : VolumeEvent} (bundled : Bundled blake3 before)
    (step : TableStep blake3 e before after) (has : after.HasBundle bundleId) :
    (before.HasBundle bundleId ∧ SameBundle bundleId before after) ∨
    ∃ chunks commit, e = .commitBundle bundleId chunks commit ∧
      Stores blake3 before bundleId chunks commit ∧
      BundleWritten bundleId chunks .stored before after := by
  by_cases had : before.HasBundle bundleId
  · refine .inl ⟨had, sameBundle_of_step bundled step had fun isDelete written => ?_⟩
    exact hasBundle_iff.mp has written.rowsOf_self
  · have same : after.bundleChunks ≠ before.bundleChunks := by
      intro bundleChunks
      unfold HasBundle at has had
      exact had (bundleChunks ▸ has)
    have written_other : ∀ {other chunks kind},
        BundleWritten other chunks kind before after → other = bundleId := by
      intro other chunks kind written
      by_contra differs
      rw [hasBundle_iff, written.rowsOf_of_ne (Ne.symm differs), ← hasBundle_iff] at has
      exact had has
    cases step with
    | kept chunks bundleChunks records => exact absurd bundleChunks same
    | inserted chunk chunks appended effect => exact absurd (effect ▸ rfl) same
    | deleted chunkId isDelete unreferenced effect => exact absurd (effect ▸ rfl) same
    | stored other chunks commit isCommit stores written =>
        obtain rfl := written_other written
        exact .inr ⟨chunks, commit, isCommit, stores, written⟩
    | removed other isDelete written =>
        obtain rfl := written_other written
        exact absurd written.rowsOf_self (hasBundle_iff.mp has)
    | forgotten maxEventId isRemove effect => exact absurd (effect ▸ rfl) same

/-! ## Runs -/

section Runs

variable {v : Volume} {ts later earlier : List (Transition Volume VolumeEvent)}
  {t : Transition Volume VolumeEvent}

theorem reachable_bundled (reachable : (volume blake3).Reachable v) : Bundled blake3 v.tables := by
  refine reachable.invariant (fun v => Bundled blake3 v.tables) ?_ ?_
  · rintro v ⟨tables, files, initialised, rfl⟩
    have rows : tables.bundleChunks.rows = [] := by
      rw [initialised.fresh.bundleChunks]
      rfl
    constructor
    · rintro bundleId ⟨row, member, -⟩
      exact absurd (rows ▸ member) List.not_mem_nil
    · intro row member
      exact absurd (rows ▸ member) List.not_mem_nil
  · intro v e v' bundled taken
    exact bundled.of_step (step_tables (step_cases taken))

/-- A transition that deletes a bundle. -/
def Deletes (bundleId : HashId) (t : Transition Volume VolumeEvent) : Prop :=
  ∃ commit, t.event = .deleteBundle bundleId commit ∧
    outcome (VolumeDb.deleteBundle commit bundleId t.pre.db) = .ok ()

/-- A bundle stays as it is until it is deleted. -/
theorem sameBundle_of_run (run : (volume blake3).Run (later ++ t :: earlier) v)
    (has : t.post.tables.HasBundle bundleId) (stays : ∀ x ∈ later, ¬ Deletes bundleId x) :
    SameBundle bundleId t.post.tables v.tables := by
  refine run.since (fun s => SameBundle bundleId t.post.tables s.tables) (.refl _ _) ?_
  intro x member reachable same taken
  have bundled := reachable_bundled reachable
  refine same.trans (sameBundle_of_step bundled (step_tables (step_cases taken))
    (same.hasBundle has) ?_)
  intro isDelete written
  exact stays x member ⟨none, isDelete, deleteBundle_of_written written⟩

/-- Committing a bundle that is stored returns its lengths and changes nothing. -/
theorem commitBundle_again {db : VolumeDb} {chunks : List BundleChunkRef}
    (bundled : Bundled blake3 db.1) (has : db.1.HasBundle bundleId)
    (checked : checkBundle blake3 bundleId chunks = .ok ())
    (rawLen : ((db.1.bundleJoin bundleId).map ChunkMeta.rawLen).sum ≤ i64Max)
    (compressedLen : ((db.1.bundleJoin bundleId).map ChunkMeta.compressedLen).sum ≤ i64Max)
    (commit : Option Fs0Error) : commitBundle blake3 commit bundleId chunks db =
      .ok ⟨bundleId, ((db.1.bundleJoin bundleId).map ChunkMeta.rawLen).sum,
        ((db.1.bundleJoin bundleId).map ChunkMeta.compressedLen).sum,
        (db.1.chunkList bundleId).length⟩ db := by
  obtain ⟨joined, isJoin, found⟩ := bundled.bundleJoin_eq has
  have count : (db.1.bundleJoin bundleId).length = (db.1.chunkList bundleId).length := by
    rw [isJoin, ← List.length_map (f := some), ← found, List.length_map]
  unfold commitBundle
  rw [checked, bind_of_ok (lift_ok_apply _ _), bind_apply, attempt_apply,
    VolumeDb.loadBundle_of_sums (bundled.bundleJoin_ne_nil has) rawLen compressedLen, count]
  rfl

/-- What holds of a bundle that has rows. -/
structure Intact (blake3 : Bytes → HashId) (db : VolumeDb) (bundleId : HashId) : Prop where
  list : ∃ chunks, listBundleChunks bundleId db = .ok chunks db ∧ 1 ≤ chunks.length ∧
    chunks.map BundleChunkRef.chunkIndex = List.range chunks.length ∧
    bundleHashFromChunks blake3 chunks = bundleId ∧
    ∀ chunk ∈ chunks, ∃ known, db.1.chunks.find? chunk.chunkId = some known
  again : ∀ commit chunks, checkBundle blake3 bundleId chunks = .ok () →
    ((db.1.bundleJoin bundleId).map ChunkMeta.rawLen).sum ≤ i64Max →
    ((db.1.bundleJoin bundleId).map ChunkMeta.compressedLen).sum ≤ i64Max →
    commitBundle blake3 commit bundleId chunks db =
      .ok ⟨bundleId, ((db.1.bundleJoin bundleId).map ChunkMeta.rawLen).sum,
        ((db.1.bundleJoin bundleId).map ChunkMeta.compressedLen).sum,
        (db.1.chunkList bundleId).length⟩ db

theorem listBundleChunks_eq {db : VolumeDb} (nonempty : db.1.chunkList bundleId ≠ []) :
    listBundleChunks bundleId db = .ok (db.1.chunkList bundleId) db := by
  have unfolded : listBundleChunks bundleId db =
      (require (db.1.chunkList bundleId ≠ []) (.bundleNotFound bundleId) >>= fun _ =>
        pure (db.1.chunkList bundleId)) db := rfl
  rw [unfolded, bind_apply, require, if_pos nonempty]
  rfl

theorem Bundled.intact {db : VolumeDb} (bundled : Bundled blake3 db.1)
    (has : db.1.HasBundle bundleId) : Intact blake3 db bundleId := by
  obtain ⟨rows, valid⟩ := bundled.chunkList_eq has
  obtain ⟨nonempty, contiguous, isHash⟩ := checkBundle_eq_ok.mp valid
  refine ⟨⟨_, listBundleChunks_eq nonempty, List.length_pos_iff.mpr nonempty, ?_, isHash, ?_⟩,
    fun commit chunks checked rawLen compressedLen =>
      commitBundle_again bundled has checked rawLen compressedLen commit⟩
  · rw [contiguousFrom_eq_true.mp contiguous, List.range_eq_range']
  · intro chunk member
    have row : ⟨bundleId, chunk.chunkIndex, chunk.chunkId⟩ ∈ db.1.rowsOf bundleId := by
      rw [rows]
      exact mem_bundleRows.mpr ⟨rfl, member⟩
    exact bundled.stored _ (List.mem_filter.mp row).1

/-- Every bundle with rows is intact, and from one state to a later one it lists the same
chunks, stored where they were, and is committed again with the same result, unless it was
deleted in between. -/
theorem bundles_intact (run : (volume blake3).Run ts v) :
    (∀ bundleId, v.tables.HasBundle bundleId → Intact blake3 v.db bundleId) ∧
    ∀ later t earlier, ts = later ++ t :: earlier → ∀ bundleId,
      t.post.tables.HasBundle bundleId → (∀ x ∈ later, ¬ Deletes bundleId x) →
      v.tables.HasBundle bundleId ∧
      v.tables.chunkList bundleId = t.post.tables.chunkList bundleId ∧
      (∀ chunk ∈ t.post.tables.chunkList bundleId,
        v.tables.chunks.find? chunk.chunkId = t.post.tables.chunks.find? chunk.chunkId) ∧
      ∀ commit chunks bundle, t.event = .commitBundle bundleId chunks commit →
        outcome (commitBundle blake3 commit bundleId chunks t.pre.db) = .ok bundle →
        ∀ again, commitBundle blake3 again bundleId chunks v.db = .ok bundle v.db := by
  refine ⟨fun bundleId => (reachable_bundled run.reachable).intact, ?_⟩
  rintro later t earlier rfl bundleId has stays
  have same := sameBundle_of_run run has stays
  obtain ⟨before, taken⟩ := run.before
  have bundled := reachable_bundled (before.reachable.step taken)
  refine ⟨same.hasBundle has, same.chunkList, ?_, ?_⟩
  · intro chunk member
    apply same.chunks ⟨bundleId, chunk.chunkIndex, chunk.chunkId⟩
    rw [(bundled.chunkList_eq has).1]
    exact mem_bundleRows.mpr ⟨rfl, member⟩
  · intro commit chunks bundle isCommit returned again
    obtain ⟨pre, event, post⟩ := t
    obtain rfl : event = .commitBundle bundleId chunks commit := isCommit
    have post_db : post.db = endState (commitBundle blake3 commit bundleId chunks pre.db) :=
      congrArg Volume.db (Option.some.inj taken).symm
    have ran : commitBundle blake3 commit bundleId chunks pre.db = .ok bundle post.db := by
      rw [post_db]
      exact eq_ok_of_outcome returned
    obtain ⟨checked, loaded⟩ := commitBundle_eq_ok ran
    obtain ⟨nonempty, rawLen, compressedLen, isBundle, -⟩ := VolumeDb.loadBundle_eq_ok.mp loaded
    have sameJoin : v.db.1.bundleJoin bundleId = post.db.1.bundleJoin bundleId := same.bundleJoin
    rw [← sameJoin] at nonempty rawLen compressedLen isBundle
    have reloaded := VolumeDb.loadBundle_of_sums nonempty rawLen compressedLen
    unfold commitBundle
    rw [checked, bind_of_ok (lift_ok_apply _ _), bind_apply, attempt_apply, reloaded, isBundle]
    rfl

/-- A bundle that lists one chunk twice, before and after calls that leave it alone. -/
theorem bundles_intact_committed : ∃ later t earlier v,
    (volume Scenario.blake3).Run (later ++ t :: earlier) v ∧
    later.reverse.map Transition.event = [.deleteChunk (Scenario.hash 7),
      .deleteBundle (Scenario.hash 8) none, .putChunk (Scenario.hash 7) 5 [1, 2, 3] 2] ∧
    Intact Scenario.blake3 v.db (Scenario.hash 7) ∧
    v.tables.chunkList (Scenario.hash 7) = [⟨0, Scenario.hash 7⟩, ⟨1, Scenario.hash 7⟩] ∧
    v.tables.chunks.find? (Scenario.hash 7) = t.post.tables.chunks.find? (Scenario.hash 7) ∧
    commitBundle Scenario.blake3 none (Scenario.hash 7)
        [⟨0, Scenario.hash 7⟩, ⟨1, Scenario.hash 7⟩] v.db =
      .ok ⟨Scenario.hash 7, 10, 6, 2⟩ v.db := by
  let sys := volume Scenario.blake3
  let chunks : List BundleChunkRef := [⟨0, Scenario.hash 7⟩, ⟨1, Scenario.hash 7⟩]
  obtain ⟨s₀, stored, rest⟩ := Option.bind_eq_some_iff.mp
    (show ((sys.exec Scenario.initial (Scenario.stored 1 (Scenario.hash 7) 5 [1, 2, 3])).bind
        fun s₀ => (sys.step s₀ (.commitBundle (Scenario.hash 7) chunks none)).bind fun s₁ =>
          (sys.exec s₁ [.deleteChunk (Scenario.hash 7), .deleteBundle (Scenario.hash 8) none,
            .putChunk (Scenario.hash 7) 5 [1, 2, 3] 2]).map fun _ =>
              (decide (outcome (commitBundle Scenario.blake3 none (Scenario.hash 7) chunks s₀.db) =
                  .ok ⟨Scenario.hash 7, 10, 6, 2⟩),
                decide (s₁.tables.HasBundle (Scenario.hash 7)),
                decide (s₁.tables.chunkList (Scenario.hash 7) = chunks))) =
      some (true, true, true) from by decide +kernel)
  obtain ⟨s₁, commits, rest⟩ := Option.bind_eq_some_iff.mp rest
  obtain ⟨v, ends, facts⟩ := Option.map_eq_some_iff.mp rest
  obtain ⟨returned, facts⟩ := Prod.mk.inj facts
  obtain ⟨has, isList⟩ := Prod.mk.inj facts
  obtain ⟨earlier, run, -⟩ := (System.Run.init Scenario.initial_init).exec _ stored
  obtain ⟨later, whole, events⟩ := (run.step commits).exec _ ends
  have stays : ∀ x ∈ later, ¬ Deletes (Scenario.hash 7) x := by
    rintro x member ⟨commit, isDelete, -⟩
    have among : x.event ∈ later.reverse.map Transition.event :=
      List.mem_map_of_mem (List.mem_reverse.mpr member)
    have differs : Scenario.hash 7 ≠ Scenario.hash 8 := by decide
    rw [events, isDelete] at among
    simp [differs] at among
  obtain ⟨intact, since⟩ := bundles_intact whole
  obtain ⟨present, sameList, sameChunks, again⟩ :=
    since later _ _ rfl _ (of_decide_eq_true has) stays
  have listed := of_decide_eq_true isList
  have first : ⟨0, Scenario.hash 7⟩ ∈ s₁.tables.chunkList (Scenario.hash 7) := by
    rw [listed]
    exact List.mem_cons_self
  exact ⟨later, _, _, v, whole, events, intact _ present, sameList.trans listed,
    sameChunks ⟨0, Scenario.hash 7⟩ first,
    again none chunks _ rfl (of_decide_eq_true returned) none⟩

end Runs

end Volume

end Fs0
