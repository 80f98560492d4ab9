import Fs0.Central.DirCacheRuns
import Fs0.Central.Rooted

/-!
Contract: the transactions of central and the directory cache.

Owns:
- the transactions that create no directory: they keep the database consistent, and do the
  same under every cache that agrees with the tables;
- for each transaction of a handler, that from a consistent database it commits to a
  consistent one, and when it fails leaves a cache for the tables it rolls back to;
- when the cache is one for these tables even though the transaction succeeds.

Does not own: the sections of the handlers, which commit them or not.
-/

set_option autoImplicit false

namespace Fs0

open Lib Fallible

/-! ## Transactions that create no directory -/

namespace CentralTx

/-- A consistent database with the given directories. -/
def WithDirs (dirs : Table DirRow.dirId) (db : CentralDb) : Prop := Consistent db ∧ db.1.dirs = dirs

/-- Keeps the database consistent and its directories as they are, whether or not it fails,
and does the same under every cache that agrees with the tables. -/
structure Steady {α : Type} (m : CentralTx α) : Prop where
  keeps : ∀ dirs, Keeps (WithDirs dirs) m
  respects : Respects SameTables m

section Rules

variable {α β : Type}

theorem Steady.bind {m : CentralTx α} {f : α → CentralTx β} (first : Steady m)
    (second : ∀ a, Steady (f a)) : Steady (m >>= f) :=
  ⟨fun dirs => Keeps.bind (first.keeps dirs) fun a => (second a).keeps dirs,
    first.respects.bind fun a => (second a).respects⟩

theorem Steady.pure (a : α) : Steady (Pure.pure a : CentralTx α) :=
  ⟨fun _ => Keeps.pure, Respects.pure⟩

theorem Steady.throw (err : Fs0Error) : Steady (MonadExcept.throw err : CentralTx α) :=
  ⟨fun _ => Keeps.throw, fun _ _ same => ⟨rfl, same⟩⟩

theorem Steady.lift (result : Fs0Result α) : Steady (Fallible.lift result : CentralTx α) :=
  ⟨fun _ => Keeps.lift, Respects.lift⟩

theorem Steady.require (condition : Prop) [Decidable condition] (err : Fs0Error) :
    Steady (Fallible.require condition err : CentralTx PUnit) :=
  ⟨fun _ => Keeps.require, Respects.require⟩

theorem Steady.mapError {m : CentralTx α} (steady : Steady m) (f : Fs0Error → Fs0Error) :
    Steady (Fallible.mapError f m) := by
  constructor
  case keeps =>
      intro dirs db within
      have kept := steady.keeps dirs db within
      unfold Fallible.mapError
      cases ran : m db <;> rw [ran] at kept <;> exact kept
  case respects =>
      intro left right same
      have ends := steady.respects left right same
      unfold Fallible.mapError
      cases ranLeft : m left <;> cases ranRight : m right <;> rw [ranLeft, ranRight] at ends
      · exact ends
      · exact ends.elim
      · exact ends.elim
      · exact ⟨congrArg f ends.1, ends.2⟩

theorem query_steady (select : CentralTables → α) : Steady (query select) :=
  ⟨fun _ _ within => within, (query_agree SameTables (fun _ _ same => same.tables) select).weaken
    (fun _ _ same => same) (fun _ _ _ ends => ends.1) fun _ _ same => same⟩

theorem bindU64_steady (value : Nat) (name : String) : Steady (bindU64 value name) :=
  Steady.lift _

theorem execute_steady {statement : CentralTables → Fs0Result (α × CentralTables)}
    (kept : ∀ tables a tables', tables.Namespace → statement tables = .ok (a, tables') →
      tables'.Namespace ∧ tables'.dirs = tables.dirs) : Steady (execute statement) := by
  refine ⟨fun dirs => ?_, execute_respects kept⟩
  apply Triple.intro
  · rintro db a ⟨tables', cache'⟩ ⟨consistent, rfl⟩ ran
    obtain ⟨executed, rfl⟩ := execute_eq_ok.mp ran
    obtain ⟨laws, sameDirs⟩ := kept _ _ _ consistent.laws executed
    refine ⟨⟨laws, consistent.cache.mono fun _ _ => ?_⟩, sameDirs⟩
    exact (CentralTables.dirAt_congr sameDirs).mpr
  · intro db err db' within ran
    obtain ⟨-, rfl⟩ := execute_eq_error.mp ran
    exact within

/-- A statement on the other tables. -/
theorem execute_others_steady {statement : CentralTables → Fs0Result (α × CentralTables)}
    (kept : ∀ tables a tables', statement tables = .ok (a, tables') →
      tables'.dirs = tables.dirs ∧ tables'.files = tables.files) : Steady (execute statement) :=
  execute_steady fun tables a tables' laws ran =>
    ⟨laws.congr (kept tables a tables' ran).1 (kept tables a tables' ran).2,
      (kept tables a tables' ran).1⟩

/-- A lookup that returns what the tables say. -/
theorem lookup_steady {m : CentralTx α} (result : CentralTables → Fs0Result α)
    (eq : ∀ db, Consistent db → ∃ db', db'.1 = db.1 ∧ Consistent db' ∧
      m db = Fallible.lift (result db.1) db') : Steady m := by
  constructor
  case keeps =>
      rintro dirs db ⟨consistent, rfl⟩
      obtain ⟨db', same, consistent', ran⟩ := eq db consistent
      rw [ran]
      cases result db.1 with
      | ok a => exact ⟨consistent', by rw [same]⟩
      | error err => exact ⟨consistent', by rw [same]⟩
  case respects =>
      intro left right same
      have agree : Agree (At left.1) m (fun a left' right' => At left.1 left' right' ∧
          result left.1 = .ok a) (At left.1) :=
        agree_of_lift fun db consistent isTables => isTables ▸ eq db consistent
      exact (agree.weaken (fun _ _ at' => at') (fun _ _ _ ends => ends.1.same)
        fun _ _ at' => at'.same) left right ⟨same, rfl⟩

/-- Such a transaction leaves a cache that agrees with the tables it began with. -/
theorem Steady.rolledBack {m : CentralTx α} (steady : Steady m) {db : CentralDb}
    (consistent : Consistent db) : (endState (m db)).2.Valid db.1 := by
  obtain ⟨consistent', sameDirs⟩ := (steady.keeps db.1.dirs).endState ⟨consistent, rfl⟩
  exact consistent'.cache.mono fun _ _ => (CentralTables.dirAt_congr sameDirs).mp

end Rules

/-! ### Lookups -/

theorem getDirIdByPath_steady (path : String) : Steady (getDirIdByPath path) :=
  lookup_steady (·.dirIdByPath path) fun _ consistent => getDirIdByPath_eq consistent path

theorem getDirPathById_steady (dirId : Nat) : Steady (getDirPathById dirId) :=
  lookup_steady (·.dirPathById dirId) fun _ consistent => getDirPathById_eq consistent dirId

theorem getFileByPath_steady (path : String) : Steady (getFileByPath path) :=
  lookup_steady (·.fileByPath path) fun _ consistent => getFileByPath_eq consistent path

theorem getFileById_steady (fileId : Nat) : Steady (getFileById fileId) :=
  (bindU64_steady _ _).bind fun _ => (query_steady _).bind fun _ => Steady.lift _

theorem fileRecord_steady (file : FileRow) : Steady (fileRecord file) :=
  (getDirPathById_steady _).bind fun _ => (Steady.lift _).bind fun _ => Steady.pure _

theorem listDirectory_steady (dir : String) (limit : Nat) (cursor : Option Nat) :
    Steady (listDirectory dir limit cursor) := by
  refine (getDirIdByPath_steady _).bind fun _ => (bindU64_steady _ _).bind fun _ =>
    (bindU64_steady _ _).bind fun _ => (bindU64_steady _ _).bind fun _ =>
      (query_steady _).bind fun _ => (Steady.lift _).bind fun entries => ?_
  split
  · exact Steady.pure _
  · exact Steady.pure _

theorem getFileBundlesByFileId_steady (fileId : Nat) :
    Steady (getFileBundlesByFileId fileId) :=
  (bindU64_steady _ _).bind fun _ => query_steady _

theorem calculateSizeByFileId_steady (fileId : Nat) :
    Steady (calculateSizeByFileId fileId) :=
  (getFileBundlesByFileId_steady _).bind fun _ => (query_steady _).bind fun _ =>
    Steady.lift _

theorem getVolume_steady (volumeId : Nat) : Steady (getVolume volumeId) :=
  (bindU64_steady _ _).bind fun _ => (query_steady _).bind fun _ => Steady.lift _

theorem loadActiveUpdateLease_steady (leaseId fileId now : Nat) :
    Steady (loadActiveUpdateLease leaseId fileId now) :=
  (bindU64_steady _ _).bind fun _ => (bindU64_steady _ _).bind fun _ =>
    (bindU64_steady _ _).bind fun _ => (query_steady _).bind fun _ => Steady.lift _

theorem activeUpdateLeaseVolume_steady (leaseId fileId now : Nat) :
    Steady (activeUpdateLeaseVolume leaseId fileId now) :=
  (bindU64_steady _ _).bind fun _ => (bindU64_steady _ _).bind fun _ =>
    (bindU64_steady _ _).bind fun _ => (query_steady _).bind fun _ => Steady.lift _

theorem getFileChangeLogs_steady (afterEventId limit : Nat) :
    Steady (getFileChangeLogs afterEventId limit) := by
  refine (bindU64_steady _ _).bind fun _ => (bindU64_steady _ _).bind fun _ =>
    (query_steady _).bind fun _ => (Steady.lift _).bind fun events => ?_
  split
  · exact Steady.pure _
  · exact Steady.pure _

/-! ### Statements on the other tables -/

theorem insertFileBundle_others {tables tables' : CentralTables} {fileId bundleIndex : Nat}
    {bundleId : HashId} {done : Unit}
    (ran : tables.insertFileBundle fileId bundleIndex bundleId = .ok (done, tables')) :
    tables'.dirs = tables.dirs ∧ tables'.files = tables.files := by
  rw [(insertFileBundle_eq_ok ran).1]
  exact ⟨rfl, rfl⟩

theorem deleteFileBundlesByFileId_steady (fileId : Nat) :
    Steady (deleteFileBundlesByFileId fileId) := by
  refine (bindU64_steady _ _).bind fun id => execute_others_steady fun tables done _ ran => ?_
  cases ran
  exact ⟨rfl, rfl⟩

theorem insertFileBundlesFrom_steady (fileId index : Nat) (bundles : List CommittedBundle) :
    Steady (insertFileBundlesFrom fileId index bundles) := by
  induction bundles generalizing index with
  | nil => exact Steady.pure _
  | cons bundle rest inductionHypothesis =>
      refine (bindU64_steady _ _).bind fun id => (bindU64_steady _ _).bind fun bound => ?_
      exact (execute_others_steady fun _ _ _ => insertFileBundle_others).bind fun _ =>
        inductionHypothesis (index + 1)

theorem upsertFileBundlesByFileId_steady (fileId : Nat) (bundles : List CommittedBundle) :
    Steady (upsertFileBundlesByFileId fileId bundles) :=
  (deleteFileBundlesByFileId_steady _).bind fun _ => insertFileBundlesFrom_steady _ _ _

theorem insertBundleReplica_steady (bundleId : HashId) (volumeId rawLen compressedLen : Nat) :
    Steady (insertBundleReplica bundleId volumeId rawLen compressedLen) := by
  refine (Steady.require _ _).bind fun _ => (bindU64_steady _ _).bind fun volume =>
    (bindU64_steady _ _).bind fun raw => (bindU64_steady _ _).bind fun compressed =>
      execute_others_steady fun tables done tables' ran => ?_
  unfold CentralTables.upsertBundleReplica at ran
  split at ran
  · cases ran
  · cases ran
    exact ⟨rfl, rfl⟩

theorem deleteBundleReplica_steady (bundleId : HashId) (volumeId : Nat) :
    Steady (deleteBundleReplica bundleId volumeId) := by
  refine (bindU64_steady _ _).bind fun id => execute_others_steady fun tables done _ ran => ?_
  cases ran
  exact ⟨rfl, rfl⟩

theorem createVolume_steady (name : String) (maxBytes : Nat) :
    Steady (createVolume name maxBytes) := by
  refine (bindU64_steady _ _).bind fun bytes => Steady.bind (execute_others_steady
    fun tables volumeId tables' ran => ?_) fun _ => getVolume_steady _
  unfold CentralTables.insertVolume at ran
  split at ran
  · cases ran
  · cases ran
    exact ⟨rfl, rfl⟩

theorem updateVolumeOffset_steady (volumeId maxVolumeOffset : Nat) :
    Steady (updateVolumeOffset volumeId maxVolumeOffset) := by
  refine (bindU64_steady _ _).bind fun id => (bindU64_steady _ _).bind fun offset =>
    Steady.bind (execute_others_steady fun tables changes tables' ran => ?_) fun _ =>
      (Steady.require _ _).bind fun _ => getVolume_steady _
  unfold CentralTables.setVolumeOffset at ran
  split at ran
  · cases ran
    exact ⟨rfl, rfl⟩
  · cases ran
    exact ⟨rfl, rfl⟩

theorem deleteExpiredUpdateLeases_steady (now : Nat) :
    Steady (deleteExpiredUpdateLeases now) := by
  refine (bindU64_steady _ _).bind fun id => execute_others_steady fun tables done _ ran => ?_
  cases ran
  exact ⟨rfl, rfl⟩

theorem deleteUpdateLease_steady (leaseId : Nat) : Steady (deleteUpdateLease leaseId) := by
  refine (bindU64_steady _ _).bind fun id => execute_others_steady fun tables done _ ran => ?_
  cases ran
  exact ⟨rfl, rfl⟩

theorem createUpdateLease_steady (lease : CreateUpdateLease) :
    Steady (createUpdateLease lease) := by
  refine (bindU64_steady _ _).bind fun _ => (bindU64_steady _ _).bind fun _ =>
    (bindU64_steady _ _).bind fun _ => (bindU64_steady _ _).bind fun _ =>
      (bindU64_steady _ _).bind fun _ => (bindU64_steady _ _).bind fun _ =>
        Steady.bind (execute_others_steady fun tables leaseId tables' ran => ?_) fun _ =>
          Steady.pure _
  unfold CentralTables.insertLease at ran
  split at ran
  · cases ran
  · split at ran
    · cases ran
    · split at ran
      · cases ran
      · cases ran
        exact ⟨rfl, rfl⟩

theorem insertFileChangeLog_steady (kind : FileChangeLogKind)
    (newTarget : Option (String × String)) (fileId : Option Nat) (createdAtMs : Nat) :
    Steady (insertFileChangeLog kind newTarget fileId createdAtMs) := by
  refine (Steady.lift _).bind fun id => (bindU64_steady _ _).bind fun created =>
    Steady.bind (execute_others_steady fun tables eventId tables' ran => ?_) fun _ =>
      Steady.pure _
  unfold CentralTables.insertFileEvent at ran
  split at ran
  · cases ran
  · cases ran
    exact ⟨rfl, rfl⟩

/-! ### Statements on files -/

theorem updateFileAfterUpdate_steady (fileId newSize compressedSizeBytes updatedAtMs : Nat) :
    Steady (updateFileAfterUpdate fileId newSize compressedSizeBytes updatedAtMs) := by
  refine (bindU64_steady _ _).bind fun id => (bindU64_steady _ _).bind fun size =>
    (bindU64_steady _ _).bind fun compressed => (bindU64_steady _ _).bind fun updated =>
      Steady.bind (execute_steady fun tables changes tables' laws ran => ?_) fun _ =>
        (Steady.require _ _).bind fun _ => getFileById_steady _
  unfold CentralTables.resizeFile at ran
  split at ran
  · cases ran
    exact ⟨laws, rfl⟩
  · cases ran
    refine ⟨laws.filesSubset rfl laws.file_seq_fits fun file member => ?_, rfl⟩
    obtain ⟨old, oldMem, rfl⟩ := List.mem_map.mp member
    refine ⟨old, oldMem, ?_⟩
    split <;> exact ⟨rfl, rfl, rfl⟩

theorem deleteFileById_steady (fileId : Nat) : Steady (deleteFileById fileId) := by
  refine (bindU64_steady _ _).bind fun id => Steady.bind (execute_steady
    fun tables changes tables' laws ran => ⟨laws.deleteFile ran, ?_⟩) fun _ => Steady.require _ _
  rcases CentralTables.deleteFile_cases ran with rfl | rfl <;> rfl

/-! ## Creating directories -/

/-- A directory just inserted has no child. -/
theorem childDir_insertDir {tables tables' : CentralTables} (tree : tables.DirTree)
    {parent dirId : Nat} {name : String}
    (inserted : tables.insertDir parent name = .ok (dirId, tables')) (child : String) :
    tables'.childDir dirId child = none := by
  obtain ⟨-, -, isDir, -, rfl, -, rows⟩ := CentralTables.insertDir_eq_ok inserted
  have below : ∀ dir ∈ tables'.dirs.rows, ∀ above, dir.parentDirId = some above →
      above ≤ tables.maxDirId := by
    intro dir member above isParent
    rw [rows] at member
    rcases List.mem_append.mp member with old | new
    · obtain ⟨row, rowMem, rfl⟩ := tree.parent_mem dir old above isParent
      exact CentralTables.le_maxDirId rowMem
    · rw [List.mem_singleton.mp new] at isParent
      obtain ⟨row, rowMem, sameId⟩ := isDir
      obtain rfl := Option.some.inj isParent
      exact sameId ▸ CentralTables.le_maxDirId rowMem
  unfold CentralTables.childDir
  rw [Option.map_eq_none_iff, List.find?_eq_none]
  intro dir member
  simp only [decide_eq_true_eq, not_and]
  intro isParent
  have small := below dir member _ isParent
  omega

/-- Until a directory is inserted the cache holds what the tables say, and the
directories below an inserted one are not looked for in it. -/
theorem createDirBelow_rolledBack {before : CentralTables} (rest : List String)
    (valid : ∀ name ∈ rest, ValidName name) {db : CentralDb} {done : List String} {dirId : Nat}
    (consistent : Consistent db) (located : db.1.DirAt done dirId) (cached : db.2.Valid before)
    (stage : db.1 = before ∨ ∀ name, db.1.childDir dirId name = none) :
    (endState (createDirBelow rest dirId (pathOf done) db)).2.Valid before := by
  induction rest generalizing db done dirId with
  | nil => exact cached
  | cons name rest inductionHypothesis =>
      have nameValid := valid name List.mem_cons_self
      have restValid := fun other member => valid other (List.mem_cons_of_mem _ member)
      have tree := consistent.laws.toDirTree
      cases child : db.1.childDir dirId name with
      | some found =>
          rcases stage with unchanged | childless
          · obtain ⟨db₁, same₁, consistent₁, eq⟩ :=
              createDirBelow_existing consistent rest located nameValid child
            have unchanged₁ : db₁.1 = before := same₁.trans unchanged
            rw [eq]
            apply inductionHypothesis restValid consistent₁ _ (unchanged₁ ▸ consistent₁.cache)
              (.inl unchanged₁)
            rw [same₁]
            exact located.child (tree.childDir_eq_some.mp child)
          · cases (childless name).symm.trans child
      | none =>
          obtain ⟨⟨tables₁, cache₁⟩, same₁, consistent₁, kept, eq⟩ :=
            createDirBelow_missing consistent rest located nameValid child
          obtain rfl : tables₁ = db.1 := same₁
          have cached₁ := kept before cached
          obtain ⟨result, ensured, facts⟩ :=
            ensureChildNameAvailable_eq db.1 dirId name none (pathOf (done ++ [name]))
          rw [eq]
          cases result with
          | error err =>
              rw [bind_of_error (ensured cache₁)]
              exact cached₁
          | ok done' =>
              obtain ⟨-, noFile⟩ := facts rfl
              rw [bind_of_ok (ensured cache₁)]
              cases inserted : db.1.insertDir dirId name with
              | error err =>
                  have failed : execute (CentralTables.insertDir dirId name) (db.1, cache₁) =
                    .error err (db.1, cache₁) := execute_eq_error.mpr ⟨inserted, rfl⟩
                  rw [bind_of_error failed]
                  exact cached₁
              | ok result =>
                  obtain ⟨created, tables₂⟩ := result
                  have ran : execute (CentralTables.insertDir dirId name) (db.1, cache₁) =
                    .ok created (tables₂, cache₁) := execute_eq_ok.mpr ⟨inserted, rfl⟩
                  have adds := CentralTables.insertDir_addsDirs inserted
                  have free : db.1.childFile dirId name = none := by
                    cases found : db.1.childFile dirId name with
                    | none => rfl
                    | some file => cases noFile file found
                  rw [bind_of_ok ran]
                  apply inductionHypothesis restValid
                  · exact ⟨consistent.laws.insertDir nameValid free inserted,
                      consistent₁.cache.mono fun _ _ => adds.dirAt⟩
                  · exact (adds.dirAt located).child (CentralTables.insertDir_edge inserted)
                  · exact cached₁
                  · exact .inr (childDir_insertDir tree inserted)

/-- Creating a directory leaves a cache that agrees with the tables it began with. -/
theorem createDir_rolledBack {db : CentralDb} (consistent : Consistent db) (path : String) :
    (endState (createDir path db)).2.Valid db.1 := by
  obtain ⟨hit, db₁, looked, same₁, consistent₁, -⟩ := cachedId_spec consistent path
  have cached₁ : db₁.2.Valid db.1 := same₁ ▸ consistent₁.cache
  rw [createDir, bind_of_ok looked]
  cases hit with
  | some found => exact cached₁
  | none =>
      simp only
      cases split : splitFs0PathComponents path with
      | error err => exact cached₁
      | ok names =>
          obtain ⟨-, valid⟩ := splitFs0PathComponents_eq_ok.mp split
          rw [bind_of_ok (lift_ok_apply _ _)]
          exact createDirBelow_rolledBack names valid consistent₁ .root cached₁ (.inl same₁)

/-! ## Transactions that create directories -/

/-- Leaves the directory cache as it is, whether or not it fails. -/
def KeepsCache {α : Type} (m : CentralTx α) : Prop := ∀ db, (endState (m db)).2 = db.2

section Cache

variable {α β : Type}

theorem KeepsCache.bind {m : CentralTx α} {f : α → CentralTx β} (first : KeepsCache m)
    (second : ∀ a, KeepsCache (f a)) : KeepsCache (m >>= f) := by
  intro db
  have kept := first db
  cases ran : m db with
  | ok a db₁ =>
      rw [ran] at kept
      rw [bind_of_ok ran]
      exact (second a db₁).trans kept
  | error err db₁ =>
      rw [ran] at kept
      rw [bind_of_error ran]
      exact kept

theorem KeepsCache.pure (a : α) : KeepsCache (Pure.pure a : CentralTx α) := fun _ => rfl

theorem KeepsCache.lift (result : Fs0Result α) :
    KeepsCache (Fallible.lift result : CentralTx α) := by
  intro db
  cases result <;> rfl

theorem KeepsCache.require (condition : Prop) [Decidable condition] (err : Fs0Error) :
    KeepsCache (Fallible.require condition err : CentralTx PUnit) := by
  intro db
  unfold Fallible.require
  split <;> rfl

theorem query_keepsCache (select : CentralTables → α) : KeepsCache (query select) := fun _ => rfl

theorem bindU64_keepsCache (value : Nat) (name : String) : KeepsCache (bindU64 value name) :=
  KeepsCache.lift _

theorem execute_keepsCache (statement : CentralTables → Fs0Result (α × CentralTables)) :
    KeepsCache (execute statement) := by
  intro db
  unfold execute
  split <;> rfl

/-- What follows a computation without using the cache leaves the one it ended with. -/
theorem rolledBack_bind {m : CentralTx α} {f : α → CentralTx β} {db : CentralDb}
    {tables : CentralTables} (first : (endState (m db)).2.Valid tables)
    (second : ∀ a, KeepsCache (f a)) : (endState ((m >>= f) db)).2.Valid tables := by
  cases ran : m db with
  | ok a db₁ =>
      rw [ran] at first
      rw [bind_of_ok ran, second a db₁]
      exact first
  | error err db₁ =>
      rw [ran] at first
      rw [bind_of_error ran]
      exact first

end Cache

theorem getFileById_keepsCache (fileId : Nat) : KeepsCache (getFileById fileId) :=
  (bindU64_keepsCache _ _).bind fun _ => (query_keepsCache _).bind fun _ => KeepsCache.lift _

theorem ensureChildNameAvailable_keepsCache (parentDirId : Nat) (name : String)
    (existingFileId : Option Nat) (path : String) :
    KeepsCache (ensureChildNameAvailable parentDirId name existingFileId path) :=
  (bindU64_keepsCache _ _).bind fun _ => (query_keepsCache _).bind fun _ =>
    (KeepsCache.require _ _).bind fun _ => (query_keepsCache _).bind fun _ => KeepsCache.require _ _

theorem insertFileChangeLog_keepsCache (kind : FileChangeLogKind)
    (newTarget : Option (String × String)) (fileId : Option Nat) (createdAtMs : Nat) :
    KeepsCache (insertFileChangeLog kind newTarget fileId createdAtMs) :=
  (KeepsCache.lift _).bind fun _ => (bindU64_keepsCache _ _).bind fun _ =>
    (execute_keepsCache _).bind fun _ => KeepsCache.pure _

theorem copyFileBundles_keepsCache (sourceFileId targetFileId : Nat) :
    KeepsCache (copyFileBundles sourceFileId targetFileId) :=
  (bindU64_keepsCache _ _).bind fun _ => (bindU64_keepsCache _ _).bind fun _ =>
    execute_keepsCache _

theorem createFile_rolledBack {db : CentralDb} (consistent : Consistent db) (path : String)
    (now : Nat) : (endState (createFile path now db)).2.Valid db.1 := by
  unfold createFile
  cases split : splitFs0PathDirAndName path with
  | error err => exact consistent.cache
  | ok parts =>
      rw [bind_of_ok (lift_ok_apply _ _)]
      refine rolledBack_bind (createDir_rolledBack consistent parts.1) fun dirId => ?_
      exact (ensureChildNameAvailable_keepsCache _ _ _ _).bind fun _ =>
        (bindU64_keepsCache _ _).bind fun _ => (bindU64_keepsCache _ _).bind fun _ =>
          (execute_keepsCache _).bind fun _ => getFileById_keepsCache _

theorem copyFileById_rolledBack {db : CentralDb} (consistent : Consistent db)
    (sourceFileId : Nat) (targetPath : String) (now : Nat) :
    (endState (copyFileById sourceFileId targetPath now db)).2.Valid db.1 := by
  unfold copyFileById
  cases split : splitFs0PathDirAndName targetPath with
  | error err => exact consistent.cache
  | ok parts =>
      rw [bind_of_ok (lift_ok_apply _ _)]
      obtain ⟨targetDir, targetName⟩ := parts
      have kept := getFileById_keepsCache sourceFileId db
      dsimp only
      cases found : getFileById sourceFileId db with
      | error err db₁ =>
          rw [found, endState_error] at kept
          rw [bind_of_error found, endState_error, kept]
          exact consistent.cache
      | ok source db₁ =>
          obtain ⟨-, -, rfl⟩ := getFileById_eq_ok.mp found
          rw [bind_of_ok found]
          refine rolledBack_bind (createDir_rolledBack consistent targetDir) fun dirId => ?_
          exact (ensureChildNameAvailable_keepsCache _ _ _ _).bind fun _ =>
            (bindU64_keepsCache _ _).bind fun _ => (bindU64_keepsCache _ _).bind fun _ =>
              (bindU64_keepsCache _ _).bind fun _ => (bindU64_keepsCache _ _).bind fun _ =>
                (execute_keepsCache _).bind fun _ => getFileById_keepsCache _

theorem renameFileById_rolledBack {db : CentralDb} (consistent : Consistent db) (fileId : Nat)
    (targetPath : String) (now : Nat) :
    (endState (renameFileById fileId targetPath now db)).2.Valid db.1 := by
  unfold renameFileById
  cases split : splitFs0PathDirAndName targetPath with
  | error err => exact consistent.cache
  | ok parts =>
      rw [bind_of_ok (lift_ok_apply _ _)]
      refine rolledBack_bind (createDir_rolledBack consistent parts.1) fun dirId => ?_
      exact (ensureChildNameAvailable_keepsCache _ _ _ _).bind fun _ =>
        (bindU64_keepsCache _ _).bind fun _ => (bindU64_keepsCache _ _).bind fun _ =>
          (bindU64_keepsCache _ _).bind fun _ => (execute_keepsCache _).bind fun _ =>
            (KeepsCache.require _ _).bind fun _ => getFileById_keepsCache _

theorem copyFileBundles_steady (sourceFileId targetFileId : Nat) :
    Steady (copyFileBundles sourceFileId targetFileId) := by
  refine (bindU64_steady _ _).bind fun target => (bindU64_steady _ _).bind fun source =>
    execute_others_steady fun tables done tables' ran => ?_
  rw [(copyFileBundleRows_effect ran).1]
  exact ⟨rfl, rfl⟩

end CentralTx

/-! ## The transactions of the handlers -/

/-- A path in a directory that does not exist. -/
def CentralTables.NewDir (tables : CentralTables) (path : String) : Prop :=
  ∃ dir name, splitFs0PathDirAndName path = .ok (dir, name) ∧
    ∀ dirId, tables.dirIdByPath dir ≠ .ok dirId

namespace CentralTables

variable {before mid after : CentralTables}

/-- Growing towards a directory that exists adds nothing. -/
theorem Grown.dirAt_before {names others : List String} {dirId otherId : Nat}
    (grown : before.Grown names mid) (tree : mid.DirTree) (laws : before.DirTree)
    (located : before.DirAt names dirId) (otherAt : mid.DirAt others otherId) :
    before.DirAt others otherId := by
  induction otherAt with
  | root => exact .root
  | child above edge inductionHypothesis =>
      obtain ⟨dir, member, sameId, isParent, isName⟩ := edge
      refine inductionHypothesis.child ⟨dir, ?_, sameId, isParent, isName⟩
      rcases grown.fresh dir member with old | ⟨part, ⟨rest, rfl⟩, partAt⟩
      · exact old
      · obtain ⟨known, knownAt⟩ := located.exists_prefix
        obtain rfl := tree.id_unique (grown.adds.dirAt knownAt) partAt
        obtain ⟨row, rowMem, sameRow⟩ := laws.isDir knownAt
        have rowMid := grown.adds.mem rowMem
        obtain rfl := Table.eq_of_key_eq rowMid member sameRow
        exact rowMem

/-- A path that is not in a new directory is in one that exists. -/
theorem DirTree.exists_dirAt (tree : before.DirTree) {names : List String} {name : String}
    (valid : ∀ other ∈ names ++ [name], ValidName other)
    (old : ¬ before.NewDir (pathOf (names ++ [name]))) : ∃ dirId, before.DirAt names dirId := by
  have namesValid := fun other member => valid other (List.mem_append_left [name] member)
  by_contra absent
  refine old ⟨pathOf names, name, splitFs0PathDirAndName_eq_ok.mpr
    ⟨names, namesValid, valid name (by simp), rfl, rfl⟩, fun dirId resolved => ?_⟩
  obtain ⟨others, samePath, located⟩ := tree.dirIdByPath_eq_ok.mp resolved
  obtain rfl := pathOf_inj namesValid (tree.names_valid located) samePath
  exact absent ⟨dirId, located⟩

end CentralTables

namespace CentralTx

variable {before after : CentralTables} {path : String} {file : FileRow} {now : Nat}

theorem FileAdded.dirAt_before {sizeBytes compressedSizeBytes : Nat}
    (added : FileAdded before path sizeBytes compressedSizeBytes now file after)
    (laws : before.DirTree) (tree : after.DirTree) (old : ¬ before.NewDir path)
    {names : List String} {dirId : Nat} (located : after.DirAt names dirId) :
    before.DirAt names dirId := by
  obtain ⟨above, name, parent, mid, rfl, valid, grown, -, inserted, -⟩ := added.placed
  obtain ⟨found, foundAt⟩ := laws.exists_dirAt valid old
  obtain ⟨-, -, -, -, rfl⟩ := CentralTables.insertFile_eq_ok inserted
  have midTree : mid.DirTree := tree.of_dirs rfl
  exact grown.dirAt_before midTree laws foundAt ((CentralTables.dirAt_congr rfl).mpr located)

theorem FileMoved.dirAt_before {fileId : Nat}
    (moved : FileMoved before fileId path now file after)
    (laws : before.DirTree) (tree : after.DirTree) (old : ¬ before.NewDir path)
    {names : List String} {dirId : Nat} (located : after.DirAt names dirId) :
    before.DirAt names dirId := by
  obtain ⟨above, name, parent, mid, changes, rfl, valid, grown, -, ran, changed, -⟩ := moved.placed
  obtain ⟨found, foundAt⟩ := laws.exists_dirAt valid old
  obtain ⟨-, -, -, rfl⟩ := CentralTables.moveFile_eq_ok ran changed
  have midTree : mid.DirTree := tree.of_dirs rfl
  exact grown.dirAt_before midTree laws foundAt ((CentralTables.dirAt_congr rfl).mpr located)

end CentralTx

/-- The path of a copy or a rename. -/
def Transaction.target : Transaction → Option String
  | .copyFile _ targetPath _ => some targetPath
  | .renameFile _ targetPath _ => some targetPath
  | _ => none

namespace CentralTx

variable {α β : Type} {before : CentralTables} {db : CentralDb}

/-- A successful transaction leaves a consistent database, and a failed one a cache that
agrees with the tables it began with. -/
def Settled (before : CentralTables) : EStateM.Result Fs0Error CentralDb α → Prop
  | .ok _ db => Consistent db
  | .error _ db => db.2.Valid before

theorem Steady.settled {m : CentralTx α} (steady : Steady m) (consistent : Consistent db) :
    Settled db.1 (m db) := by
  have rolledBack := steady.rolledBack consistent
  have kept := (steady.keeps db.1.dirs).endState ⟨consistent, rfl⟩
  cases ran : m db with
  | ok a db' =>
      rw [ran] at kept
      exact kept.1
  | error err db' =>
      rw [ran] at rolledBack
      exact rolledBack

theorem settled_bind {m : CentralTx α} {f : α → CentralTx β}
    (rolledBack : (endState (m db)).2.Valid before)
    (next : ∀ a db', m db = .ok a db' → db'.2.Valid before → Settled before (f a db')) :
    Settled before ((m >>= f) db) := by
  cases ran : m db with
  | ok a db' =>
      rw [ran] at rolledBack
      rw [bind_of_ok ran]
      exact next a db' ran rolledBack
  | error err db' =>
      rw [ran] at rolledBack
      rw [bind_of_error ran]
      exact rolledBack

/-- A step that uses no cache and keeps the directories. -/
theorem settled_step {m : CentralTx α} {f : α → CentralTx β} (steady : Steady m)
    (keepsCache : KeepsCache m) (consistent : Consistent db) (cached : db.2.Valid before)
    (next : ∀ a db', m db = .ok a db' → Consistent db' → db'.2.Valid before →
      Settled before (f a db')) : Settled before ((m >>= f) db) := by
  apply settled_bind
  · rw [keepsCache db]
    exact cached
  · intro a db' ran cached'
    exact next a db' ran ((steady.keeps db.1.dirs).ok ⟨consistent, rfl⟩ ran).1 cached'

/-- A computation that uses no cache and keeps the directories. -/
theorem settled_rest {m : CentralTx α} (steady : Steady m) (keepsCache : KeepsCache m)
    (consistent : Consistent db) (cached : db.2.Valid before) :
    Settled before (m db) ∧ (endState (m db)).2.Valid before := by
  have kept := (steady.keeps db.1.dirs).endState ⟨consistent, rfl⟩
  have valid : (endState (m db)).2.Valid before := by
    rw [keepsCache db]
    exact cached
  refine ⟨?_, valid⟩
  cases ran : m db with
  | ok a db' =>
      rw [ran] at kept
      exact kept.1
  | error err db' =>
      rw [ran] at valid
      exact valid

theorem fileRecord_settled (consistent : Consistent db) {file : FileRow}
    (member : file ∈ db.1.files.rows) : Settled before (fileRecord file db) := by
  obtain ⟨record, db', ran, at', -⟩ := fileRecord_ok consistent member
  rw [ran]
  exact at'.same.left

end CentralTx

namespace ClientRequest

open CentralTx

variable {db : CentralDb}

theorem copyFileByIdTx_settled (consistent : Consistent db) (sourceFileId : Nat)
    (targetPath : String) (now : Nat) :
    Settled db.1 (copyFileByIdTx sourceFileId targetPath now db) := by
  unfold copyFileByIdTx
  apply settled_step (Steady.lift _) (KeepsCache.lift _) consistent consistent.cache
  rintro ⟨dir, name⟩ db₁ ran - -
  obtain ⟨-, rfl⟩ := lift_eq_ok.mp ran
  apply settled_bind (copyFileById_rolledBack consistent sourceFileId targetPath now)
  intro file db₁ copied cached₁
  obtain ⟨same, source, -, added⟩ := (copyFileById_agree sourceFileId targetPath now).triple.ok
    (At.refl consistent) copied
  apply settled_step (copyFileBundles_steady _ _) (copyFileBundles_keepsCache _ _) same.left
    cached₁
  intro _ db₂ bundled consistent₂ cached₂
  apply settled_step (insertFileChangeLog_steady _ _ _ _) (insertFileChangeLog_keepsCache _ _ _ _)
    consistent₂ cached₂
  intro _ db₃ logged consistent₃ _
  apply fileRecord_settled consistent₃
  rw [insertFileChangeLog_effect logged, (copyFileBundles_effect bundled).1]
  exact added.fileAt.1

theorem renameFileByIdTx_settled (consistent : Consistent db) (fileId : Nat)
    (targetPath : String) (now : Nat) :
    Settled db.1 (renameFileByIdTx fileId targetPath now db) := by
  unfold renameFileByIdTx
  apply settled_step (Steady.lift _) (KeepsCache.lift _) consistent consistent.cache
  rintro ⟨dir, name⟩ db₁ ran - -
  obtain ⟨-, rfl⟩ := lift_eq_ok.mp ran
  apply settled_bind (renameFileById_rolledBack consistent fileId targetPath now)
  intro file db₁ renamed cached₁
  obtain ⟨same, moved⟩ := (renameFileById_agree fileId targetPath now).triple.ok
    (At.refl consistent) renamed
  apply settled_step (insertFileChangeLog_steady _ _ _ _) (insertFileChangeLog_keepsCache _ _ _ _)
    same.left cached₁
  intro _ db₂ logged consistent₂ _
  apply fileRecord_settled consistent₂
  rw [insertFileChangeLog_effect logged]
  exact moved.fileAt.1

/-- A file copied into a directory that exists leaves a cache for the tables before. -/
theorem copyFileByIdTx_dropped (consistent : Consistent db) {sourceFileId now : Nat}
    {targetPath : String} {record : FileRecord} {db' : CentralDb}
    (old : ¬ db.1.NewDir targetPath)
    (ran : copyFileByIdTx sourceFileId targetPath now db = .ok record db') :
    db'.2.Valid db.1 := by
  have settled := copyFileByIdTx_settled consistent sourceFileId targetPath now
  rw [ran] at settled
  obtain ⟨target, -, rest⟩ := lift_bind_eq_ok.mp ran
  obtain ⟨file, db₁, copied, rest⟩ := bind_eq_ok.mp rest
  obtain ⟨_, db₂, bundled, rest⟩ := bind_eq_ok.mp rest
  obtain ⟨_, db₃, logged, recorded⟩ := bind_eq_ok.mp rest
  obtain ⟨same, source, -, added⟩ := (copyFileById_agree sourceFileId targetPath now).triple.ok
    (At.refl consistent) copied
  have sameDirs : db'.1.dirs = db₁.1.dirs := by
    rw [(fileRecord_readsOnly file).tables_eq recorded, insertFileChangeLog_effect logged,
      (copyFileBundles_effect bundled).1]
  apply settled.cache.mono
  intro names dirId located
  exact added.dirAt_before consistent.laws.toDirTree same.left.laws.toDirTree old
    ((CentralTables.dirAt_congr sameDirs).mp located)

theorem renameFileByIdTx_dropped (consistent : Consistent db) {fileId now : Nat}
    {targetPath : String} {record : FileRecord} {db' : CentralDb}
    (old : ¬ db.1.NewDir targetPath)
    (ran : renameFileByIdTx fileId targetPath now db = .ok record db') :
    db'.2.Valid db.1 := by
  have settled := renameFileByIdTx_settled consistent fileId targetPath now
  rw [ran] at settled
  obtain ⟨target, -, rest⟩ := lift_bind_eq_ok.mp ran
  obtain ⟨file, db₁, renamed, rest⟩ := bind_eq_ok.mp rest
  obtain ⟨_, db₂, logged, recorded⟩ := bind_eq_ok.mp rest
  obtain ⟨same, moved⟩ := (renameFileById_agree fileId targetPath now).triple.ok
    (At.refl consistent) renamed
  have sameDirs : db'.1.dirs = db₁.1.dirs := by
    rw [(fileRecord_readsOnly file).tables_eq recorded, insertFileChangeLog_effect logged]
  apply settled.cache.mono
  intro names dirId located
  exact moved.dirAt_before consistent.laws.toDirTree same.left.laws.toDirTree old
    ((CentralTables.dirAt_congr sameDirs).mp located)

theorem fileIdByPathTx_steady (path : String) : Steady (fileIdByPathTx path) :=
  (getFileByPath_steady _).bind fun _ => Steady.pure _

theorem readPlanTx_steady (fileId : Nat) : Steady (readPlanTx fileId) :=
  (getFileById_steady _).bind fun _ => (fileRecord_steady _).bind fun _ =>
    (getFileBundlesByFileId_steady _).bind fun _ => (query_steady _).bind fun _ =>
      Steady.pure _

theorem deleteFileByIdTx_steady (fileId now : Nat) : Steady (deleteFileByIdTx fileId now) :=
  (deleteFileBundlesByFileId_steady _).bind fun _ => (deleteFileById_steady _).bind fun _ =>
    insertFileChangeLog_steady _ _ _ _

end ClientRequest

namespace UpdateRequest

open CentralTx

variable {db : CentralDb}

theorem commitUpdateChecks_steady (request : CommitUpdateRequest) (leaseNow : Nat) :
    Steady (commitUpdateChecks request leaseNow) :=
  ((loadActiveUpdateLease_steady _ _ _).mapError _).bind fun _ =>
    (Steady.require _ _).bind fun _ => (Steady.require _ _).bind fun _ =>
      (getFileById_steady _).bind fun _ => (Steady.require _ _).bind fun _ =>
        (query_steady _).bind fun _ => (Steady.lift _).bind fun _ =>
          (Steady.require _ _).bind fun _ => Steady.pure _

theorem commitUpdateTx_steady (request : CommitUpdateRequest) (now leaseNow : Nat) :
    Steady (commitUpdateTx request now leaseNow) :=
  (commitUpdateChecks_steady _ _).bind fun _ =>
    (upsertFileBundlesByFileId_steady _ _).bind fun _ =>
      (calculateSizeByFileId_steady _).bind fun _ => (Steady.require _ _).bind fun _ =>
        (updateFileAfterUpdate_steady _ _ _ _).bind fun _ =>
          (deleteUpdateLease_steady _).bind fun _ => (getDirPathById_steady _).bind fun _ =>
            (insertFileChangeLog_steady _ _ _ _).bind fun _ => fileRecord_steady _

theorem abortUpdateTx_steady (leaseId fileId now : Nat) :
    Steady (abortUpdateTx leaseId fileId now) :=
  (activeUpdateLeaseVolume_steady _ _ _).bind fun _ => (deleteUpdateLease_steady _).bind
    fun _ => Steady.pure _

/-- The file of an update may be created; its new directories are not in the cache yet. -/
theorem fileForUpdate_settled (consistent : Consistent db) (request : BeginUpdateRequest)
    (now : Nat) : Settled db.1 (fileForUpdate request now db) ∧
      (endState (fileForUpdate request now db)).2.Valid db.1 := by
  obtain ⟨db₁, same₁, consistent₁, looked⟩ := getFileByPath_eq consistent request.path
  have attempted : attempt (getFileByPath request.path) db =
      .ok (db.1.fileByPath request.path) db₁ := by
    rw [attempt_apply, looked]
    cases db.1.fileByPath request.path <;> rfl
  unfold fileForUpdate
  rw [bind_of_ok attempted, ← same₁]
  rcases db₁.1.fileByPath request.path with err | file
  · by_cases missing : err = .notFound
    · subst missing
      have rolledBack : (endState ((do
          require (request.offset = 0) Fs0Error.notFound
          let file ← createFile request.path now
          pure (file, 0) : CentralTx (FileRow × Nat)) db₁)).2.Valid db₁.1 := by
        by_cases fromStart : request.offset = 0
        · have met : (require (request.offset = 0) Fs0Error.notFound : CentralTx PUnit) db₁ =
              .ok ⟨⟩ db₁ := require_eq_ok.mpr ⟨fromStart, rfl⟩
          rw [bind_of_ok met]
          exact rolledBack_bind (createFile_rolledBack consistent₁ _ _) fun _ => KeepsCache.pure _
        · simpa [require, fromStart, bind_apply] using consistent₁.cache
      refine ⟨?_, rolledBack⟩
      dsimp only
      apply settled_step (Steady.require _ _) (KeepsCache.require _ _) consistent₁
        consistent₁.cache
      intro _ db₂ met consistent₂ _
      obtain ⟨-, rfl⟩ := require_eq_ok.mp met
      apply settled_bind (createFile_rolledBack consistent₁ _ _)
      intro file db₃ created _
      exact ((createFile_agree request.path now).triple.ok (At.refl consistent₁) created).1.left
    · have steady : Steady (throw err : CentralTx (FileRow × Nat)) := Steady.throw err
      cases err <;> first
        | exact absurd rfl missing
        | exact ⟨steady.settled consistent₁, steady.rolledBack consistent₁⟩
  · have steady : Steady (do
        require (request.offset ≤ file.sizeBytes) Fs0Error.invalidRequest
        pure (file, file.sizeBytes) : CentralTx (FileRow × Nat)) :=
      (Steady.require _ _).bind fun _ => Steady.pure _
    exact ⟨steady.settled consistent₁, steady.rolledBack consistent₁⟩

theorem fileHasActiveUpdateLease_steady (fileId : Nat) :
    Steady (fileHasActiveUpdateLease fileId) :=
  (bindU64_steady _ _).bind fun _ => query_steady _

theorem createUpdateLease_keepsCache (lease : CreateUpdateLease) :
    KeepsCache (createUpdateLease lease) :=
  (bindU64_keepsCache _ _).bind fun _ => (bindU64_keepsCache _ _).bind fun _ =>
    (bindU64_keepsCache _ _).bind fun _ => (bindU64_keepsCache _ _).bind fun _ =>
      (bindU64_keepsCache _ _).bind fun _ => (bindU64_keepsCache _ _).bind fun _ =>
        (execute_keepsCache _).bind fun _ => KeepsCache.pure _

theorem beginUpdateTx_settled (consistent : Consistent db) (request : BeginUpdateRequest)
    (volumeId now : Nat) : Settled db.1 (beginUpdateTx request volumeId now db) ∧
      (endState (beginUpdateTx request volumeId now db)).2.Valid db.1 := by
  obtain ⟨settled, rolledBack⟩ := fileForUpdate_settled consistent request now
  unfold beginUpdateTx
  cases found : fileForUpdate request now db with
  | error err db₁ =>
      rw [found] at rolledBack
      rw [bind_of_error found]
      exact ⟨rolledBack, rolledBack⟩
  | ok taken db₁ =>
      obtain ⟨file, baseSize⟩ := taken
      rw [found] at settled rolledBack
      rw [bind_of_ok found]
      refine settled_rest ?_ ?_ settled rolledBack
      · exact (deleteExpiredUpdateLeases_steady _).bind fun _ =>
          (fileHasActiveUpdateLease_steady _).bind fun _ => (Steady.require _ _).bind
            fun _ => createUpdateLease_steady _
      · exact ((bindU64_keepsCache _ _).bind fun _ => execute_keepsCache _).bind fun _ =>
          ((bindU64_keepsCache _ _).bind fun _ => query_keepsCache _).bind fun _ =>
            (KeepsCache.require _ _).bind fun _ => createUpdateLease_keepsCache _

end UpdateRequest

theorem applyReplicaEvents_steady (events : List BundleReplicaEvent) :
    CentralTx.Steady (StorageRequest.applyReplicaEvents events) := by
  induction events with
  | nil => exact CentralTx.Steady.pure _
  | cons event rest inductionHypothesis =>
      unfold StorageRequest.applyReplicaEvents
      cases event.kind with
      | stored =>
          exact (CentralTx.Steady.lift _).bind fun _ => (CentralTx.Steady.lift _).bind fun _ =>
            (CentralTx.insertBundleReplica_steady _ _ _ _).bind fun _ => inductionHypothesis
      | deleted =>
          exact (CentralTx.deleteBundleReplica_steady _ _).bind fun _ => inductionHypothesis

theorem registerVolumes_steady (volumes : List StorageVolumeInfo) :
    CentralTx.Steady (Registration.registerVolumes volumes) := by
  induction volumes with
  | nil => exact CentralTx.Steady.pure _
  | cons volume rest inductionHypothesis =>
      have first : CentralTx.Steady (Registration.registerVolume volume) := by
        refine (CentralTx.getVolume_steady _).bind fun registered => ?_
        dsimp only
        split
        · exact (CentralTx.updateVolumeOffset_steady _ _).bind fun _ =>
            (CentralTx.Steady.require _ _).bind fun _ => CentralTx.Steady.pure _
        · exact (CentralTx.Steady.require _ _).bind fun _ => CentralTx.Steady.pure _
      exact first.bind fun _ => inductionHypothesis.bind fun _ => CentralTx.Steady.pure _

end Fs0
