import Fs0.Central.DirTree
import Fs0.Central.File

/-!
Contract: the namespace of central and the directory cache in front of it.

Owns:
- the laws the rows of `dirs` and `files` obey together;
- the validity of the cache, and that under it every cached lookup returns what
  the SQL walk returns;
- what creating the directories of a path does to the tables.

Does not own: the operations on files.
-/

set_option autoImplicit false

namespace Fs0

open Lib Fallible

theorem pathOf_inj {left right : List String} (leftValid : ∀ name ∈ left, ValidName name)
    (rightValid : ∀ name ∈ right, ValidName name) (same : pathOf left = pathOf right) :
    left = right := by
  have leftSplit := splitFs0PathComponents_eq_ok.mpr ⟨rfl, leftValid⟩
  have rightSplit := splitFs0PathComponents_eq_ok.mpr ⟨rfl, rightValid⟩
  rw [same, rightSplit] at leftSplit
  exact (Except.ok.inj leftSplit).symm

/-! ## Laws -/

namespace CentralTables

/-- The laws of `dirs` and `files`. A child name of a directory names one
directory or one file. -/
structure Namespace (tables : CentralTables) : Prop extends tables.DirTree where
  file_dir : ∀ file ∈ tables.files.rows, tables.IsDir file.dirId
  file_name_valid : ∀ file ∈ tables.files.rows, ValidName file.name
  file_name_unique : ∀ left ∈ tables.files.rows, ∀ right ∈ tables.files.rows,
    left.dirId = right.dirId → left.name = right.name → left = right
  file_not_dir : ∀ file ∈ tables.files.rows, ∀ child, ¬ tables.DirEdge file.dirId file.name child
  file_seq_fits : tables.files.seq ≤ i64Max

theorem initial_namespace : CentralTables.initial.Namespace where
  toDirTree := initial_dirTree
  file_dir := by simp [initial, SeqTable.empty]
  file_name_valid := by simp [initial, SeqTable.empty]
  file_name_unique := by simp [initial, SeqTable.empty]
  file_not_dir := by simp [initial, SeqTable.empty]
  file_seq_fits := Nat.zero_le _

end CentralTables

/-! ## Validity of the cache -/

namespace DirCache

/-- The pairs of a path and a directory id the cache holds, in either map. -/
def Holds (cache : DirCache) (path : String) (dirId : Nat) : Prop :=
  (∃ entry ∈ cache.pathToEntry.rows, entry.path = path ∧ entry.dirId = dirId) ∨
    ∃ known ∈ cache.idToPath.rows, known.dirId = dirId ∧ known.path = path

variable {cache : DirCache} {path other : String} {dirId otherId : Nat}

theorem holds_touch {lastAccess : Nat} :
    (cache.touch other lastAccess).Holds path dirId ↔ cache.Holds path dirId := by
  unfold Holds touch
  simp only [Table.rows_update, List.mem_map]
  apply or_congr_left
  constructor
  · rintro ⟨_, ⟨entry, member, rfl⟩, samePath, sameId⟩
    refine ⟨entry, member, ?_⟩
    split at samePath <;> split at sameId <;> exact ⟨samePath, sameId⟩
  · rintro ⟨entry, member, samePath, sameId⟩
    refine ⟨_, ⟨entry, member, rfl⟩, ?_⟩
    split <;> exact ⟨samePath, sameId⟩

theorem holds_getId : (cache.getId other).2.Holds path dirId ↔ cache.Holds path dirId := by
  unfold getId
  split
  · rfl
  · simp only [bumpAccess]
    split
    · rfl
    · exact holds_touch

theorem holds_getPath : (cache.getPath otherId).2.Holds path dirId ↔ cache.Holds path dirId := by
  unfold getPath
  split
  · rfl
  · split
    · rfl
    · exact holds_touch

theorem getId_eq_some (found : (cache.getId path).1 = some dirId) :
    (path = "/" ∧ dirId = rootDirId) ∨ cache.Holds path dirId := by
  unfold getId at found
  split at found
  · next isRoot => exact .inl ⟨isRoot, (Option.some.inj found).symm⟩
  · simp only [bumpAccess] at found
    split at found
    · cases found
    · next entry known =>
        obtain ⟨member, samePath⟩ := Table.mem_of_find? known
        exact .inr (.inl ⟨entry, member, samePath, Option.some.inj found⟩)

theorem getPath_eq_some (found : (cache.getPath dirId).1 = some path) :
    (path = "/" ∧ dirId = rootDirId) ∨ cache.Holds path dirId := by
  unfold getPath at found
  split at found
  · next isRoot => exact .inl ⟨(Option.some.inj found).symm, isRoot⟩
  · split at found
    · cases found
    · next known entry =>
        obtain ⟨member, sameId⟩ := Table.mem_of_find? entry
        exact .inr (.inr ⟨known, member, sameId, Option.some.inj found⟩)

theorem holds_of_trim (held : cache.trim.Holds path dirId) : cache.Holds path dirId := by
  unfold trim at held
  split at held
  · exact held
  · rcases held with ⟨entry, member, facts⟩ | ⟨known, member, facts⟩
    · exact .inl ⟨entry, (Table.mem_delete.mp member).1, facts⟩
    · exact .inr ⟨known, (Table.mem_delete.mp member).1, facts⟩

theorem holds_of_remember (held : (cache.remember otherId other).Holds path dirId) :
    cache.Holds path dirId ∨ (path = other ∧ dirId = otherId) := by
  unfold remember at held
  split at held
  · exact .inl held
  · rcases holds_of_trim held with ⟨entry, member, samePath, sameId⟩ | ⟨known, member, sameId, samePath⟩
    · rcases Table.mem_put.mp member with rfl | ⟨old, -⟩
      · exact .inr ⟨samePath.symm, sameId.symm⟩
      · exact .inl (.inl ⟨entry, old, samePath, sameId⟩)
    · rcases Table.mem_put.mp member with rfl | ⟨old, -⟩
      · exact .inr ⟨samePath.symm, sameId.symm⟩
      · exact .inl (.inr ⟨known, old, sameId, samePath⟩)

theorem holds_of_forget (notRoot : otherId ≠ rootDirId) (notRootPath : other ≠ "/")
    (held : (cache.forget otherId other).Holds path dirId) :
    cache.Holds path dirId ∧ ¬(path = other ∧ dirId = otherId) := by
  unfold forget at held
  rw [if_neg (by simp [notRoot, notRootPath])] at held
  rcases held with ⟨entry, member, samePath, sameId⟩ | ⟨known, member, sameId, samePath⟩
  · obtain ⟨old, kept⟩ := Table.mem_delete.mp member
    refine ⟨.inl ⟨entry, old, samePath, sameId⟩, fun both => ?_⟩
    simp [samePath, both.1] at kept
  · obtain ⟨old, kept⟩ := Table.mem_delete.mp member
    refine ⟨.inr ⟨known, old, sameId, samePath⟩, fun both => ?_⟩
    simp [sameId, both.2] at kept

/-- Every pair the cache holds names a directory of the table. -/
def Valid (cache : DirCache) (tables : CentralTables) : Prop :=
  ∀ path dirId, cache.Holds path dirId →
    ∃ names, path = pathOf names ∧ tables.DirAt names dirId

theorem new_valid (tables : CentralTables) : DirCache.new.Valid tables := by
  rintro path dirId (⟨entry, member, -⟩ | ⟨known, member, -⟩)
  · cases member
  · cases member

theorem Valid.getId {tables : CentralTables} (valid : cache.Valid tables) :
    (cache.getId path).2.Valid tables :=
  fun path dirId held => valid path dirId (holds_getId.mp held)

theorem Valid.getPath {tables : CentralTables} (valid : cache.Valid tables) :
    (cache.getPath dirId).2.Valid tables :=
  fun path dirId held => valid path dirId (holds_getPath.mp held)

theorem Valid.remember {tables : CentralTables} {names : List String} (valid : cache.Valid tables)
    (located : tables.DirAt names dirId) : (cache.remember dirId (pathOf names)).Valid tables := by
  intro path otherId held
  rcases holds_of_remember held with old | ⟨rfl, rfl⟩
  · exact valid path otherId old
  · exact ⟨names, rfl, located⟩

theorem Valid.mono {before after : CentralTables} (valid : cache.Valid before)
    (sub : ∀ names dirId, before.DirAt names dirId → after.DirAt names dirId) :
    cache.Valid after := by
  intro path dirId held
  obtain ⟨names, samePath, located⟩ := valid path dirId held
  exact ⟨names, samePath, sub names dirId located⟩

end DirCache

/-- The tables obey the laws of the namespace and the cache agrees with them. -/
structure Consistent (db : CentralDb) : Prop where
  laws : db.1.Namespace
  cache : db.2.Valid db.1

theorem open_consistent : Consistent CentralDb.open' :=
  ⟨CentralTables.initial_namespace, DirCache.new_valid _⟩

/-- The same tables, each with a cache that agrees with them. -/
structure SameTables (left right : CentralDb) : Prop where
  tables : left.1 = right.1
  left : Consistent left
  right : Consistent right

theorem SameTables.refl {db : CentralDb} (consistent : Consistent db) : SameTables db db :=
  ⟨rfl, consistent, consistent⟩

namespace CentralTx

variable {db : CentralDb}

/-! ## Lookups through the cache -/

theorem cachedId_spec (consistent : Consistent db) (path : String) :
    ∃ found db', cachedId path db = .ok found db' ∧ db'.1 = db.1 ∧ Consistent db' ∧
      ∀ dirId, found = some dirId → ∃ names, path = pathOf names ∧ db.1.DirAt names dirId := by
  refine ⟨_, _, rfl, rfl, ⟨consistent.laws, consistent.cache.getId⟩, ?_⟩
  intro dirId found
  rcases DirCache.getId_eq_some found with ⟨rfl, rfl⟩ | held
  · exact ⟨[], by simp, .root⟩
  · exact consistent.cache path dirId held

theorem cachedPath_spec (consistent : Consistent db) (dirId : Nat) :
    ∃ found db', cachedPath dirId db = .ok found db' ∧ db'.1 = db.1 ∧ Consistent db' ∧
      ∀ path, found = some path → ∃ names, path = pathOf names ∧ db.1.DirAt names dirId := by
  refine ⟨_, _, rfl, rfl, ⟨consistent.laws, consistent.cache.getPath⟩, ?_⟩
  intro path found
  rcases DirCache.getPath_eq_some found with ⟨rfl, rfl⟩ | held
  · exact ⟨[], by simp, .root⟩
  · exact consistent.cache path dirId held

theorem remember_spec (consistent : Consistent db) {names : List String} {dirId : Nat}
    (located : db.1.DirAt names dirId) :
    ∃ db', remember dirId (pathOf names) db = .ok () db' ∧ db'.1 = db.1 ∧ Consistent db' :=
  ⟨_, rfl, rfl, consistent.laws, consistent.cache.remember located⟩

/-- A hit for the path of a child is the child of the table. -/
theorem childDir_of_hit (consistent : Consistent db) {done names : List String} {name : String}
    {parent found : Nat} (located : db.1.DirAt done parent) (valid : ValidName name)
    (samePath : pathOf (done ++ [name]) = pathOf names) (foundAt : db.1.DirAt names found) :
    db.1.childDir parent name = some found := by
  have tree := consistent.laws.toDirTree
  have doneValid : ∀ other ∈ done ++ [name], ValidName other := by
    intro other member
    rcases List.mem_append.mp member with member | member
    · exact tree.names_valid located other member
    · rwa [List.mem_singleton.mp member]
  obtain rfl := pathOf_inj doneValid (tree.names_valid foundAt) samePath
  obtain ⟨other, otherAt, edge⟩ := foundAt.last
  rw [tree.id_unique otherAt located] at edge
  exact tree.childDir_eq_some.mpr edge

theorem dirIdBelow_eq (consistent : Consistent db) {done rest : List String} {dirId : Nat}
    (located : db.1.DirAt done dirId) (valid : ∀ name ∈ rest, ValidName name) :
    ∃ db', db'.1 = db.1 ∧ Consistent db' ∧
      dirIdBelow rest dirId (pathOf done) db = lift (db.1.walkDown rest dirId) db' := by
  induction rest generalizing done dirId db with
  | nil => exact ⟨db, rfl, consistent, rfl⟩
  | cons name rest inductionHypothesis =>
      have tree := consistent.laws.toDirTree
      have nameValid := valid name List.mem_cons_self
      have restValid := fun other member => valid other (List.mem_cons_of_mem _ member)
      have joined := joinFs0Path_pathOf name (tree.names_valid located)
      have bound : u64ToI64 dirId "parent_dir_id" = .ok dirId :=
        u64ToI64_eq_ok.mpr ⟨tree.fits (tree.isDir located), rfl⟩
      obtain ⟨hit, db₁, looked, same₁, consistent₁, hitAt⟩ :=
        cachedId_spec consistent (pathOf (done ++ [name]))
      rw [dirIdBelow, joined, bind_of_ok (lift_ok_apply _ _), bind_of_ok looked]
      rw [CentralTables.walkDown, bound, Fs0Result.ok_bind]
      cases hit with
      | some found =>
          obtain ⟨names, samePath, foundAt⟩ := hitAt found rfl
          have child := childDir_of_hit consistent located nameValid samePath foundAt
          have childAt := located.child (tree.childDir_eq_some.mp child)
          obtain ⟨db₂, same₂, consistent₂, ends⟩ :=
            inductionHypothesis consistent₁ (same₁ ▸ childAt) restValid
          exact ⟨db₂, same₂.trans same₁, consistent₂, by
            rw [child]
            simpa [okOr, same₁] using ends⟩
      | none =>
          have query₁ : query (CentralTables.childDir dirId name) db₁ =
              .ok (db.1.childDir dirId name) db₁ := by rw [query_apply, same₁]
          have bind₁ : bindU64 dirId "parent_dir_id" db₁ = .ok dirId db₁ := by
            rw [bindU64, bound, lift_ok_apply]
          simp only
          rw [bind_of_ok bind₁, bind_of_ok query₁]
          cases child : db.1.childDir dirId name with
          | none => exact ⟨db₁, same₁, consistent₁, rfl⟩
          | some found =>
              have childAt := located.child (tree.childDir_eq_some.mp child)
              obtain ⟨db₂, remembered, same₂, consistent₂⟩ :=
                remember_spec consistent₁ (same₁ ▸ childAt)
              have same₂' := same₂.trans same₁
              obtain ⟨db₃, same₃, consistent₃, ends⟩ :=
                inductionHypothesis consistent₂ (same₂' ▸ childAt) restValid
              refine ⟨db₃, same₃.trans same₂', consistent₃, ?_⟩
              simp only [okOr]
              rw [bind_of_ok (lift_ok_apply _ _), bind_of_ok remembered, ends, same₂']
              rfl

/-- Resolving a path through the cache returns what the SQL walk returns. -/
theorem getDirIdByPath_eq (consistent : Consistent db) (path : String) :
    ∃ db', db'.1 = db.1 ∧ Consistent db' ∧
      getDirIdByPath path db = lift (db.1.dirIdByPath path) db' := by
  have tree := consistent.laws.toDirTree
  obtain ⟨hit, db₁, looked, same₁, consistent₁, hitAt⟩ := cachedId_spec consistent path
  rw [getDirIdByPath, bind_of_ok looked]
  cases hit with
  | some found =>
      refine ⟨db₁, same₁, consistent₁, ?_⟩
      rw [tree.dirIdByPath_eq_ok.mpr (hitAt found rfl)]
      rfl
  | none =>
      simp only
      rw [CentralTables.dirIdByPath]
      cases split : splitFs0PathComponents path with
      | error err => exact ⟨db₁, same₁, consistent₁, rfl⟩
      | ok names =>
          rw [bind_of_ok (lift_ok_apply _ _), Fs0Result.ok_bind]
          obtain ⟨-, valid⟩ := splitFs0PathComponents_eq_ok.mp split
          have rootAt : db₁.1.DirAt [] rootDirId := .root
          obtain ⟨db₂, same₂, consistent₂, ends⟩ := dirIdBelow_eq consistent₁ rootAt valid
          exact ⟨db₂, same₂.trans same₁, consistent₂, by simpa [same₁] using ends⟩

/-- Reading a directory's path through the cache returns what the SQL walk returns. -/
theorem getDirPathById_eq (consistent : Consistent db) (dirId : Nat) :
    ∃ db', db'.1 = db.1 ∧ Consistent db' ∧
      getDirPathById dirId db = lift (db.1.dirPathById dirId) db' := by
  have tree := consistent.laws.toDirTree
  obtain ⟨hit, db₁, looked, same₁, consistent₁, hitAt⟩ := cachedPath_spec consistent dirId
  rw [getDirPathById, bind_of_ok looked]
  cases hit with
  | some path =>
      refine ⟨db₁, same₁, consistent₁, ?_⟩
      rw [tree.dirPathById_eq_ok.mpr (hitAt path rfl)]
      rfl
  | none =>
      have walked : query (fun tables => tables.parentWalk (dirId + 1) dirId) db₁ =
          .ok (db.1.parentWalk (dirId + 1) dirId) db₁ := by rw [query_apply, same₁]
      simp only
      rw [bind_of_ok walked, CentralTables.dirPathById]
      cases walk : db.1.parentWalk (dirId + 1) dirId with
      | none =>
          have ends := tree.parentWalk_isSome dirId
          rw [walk] at ends
          cases ends
      | some result =>
          simp only [okOr]
          rw [bind_of_ok (lift_ok_apply _ _)]
          cases result with
          | error err => exact ⟨db₁, same₁, consistent₁, rfl⟩
          | ok names =>
              rw [bind_of_ok (lift_ok_apply _ _)]
              have isOk : db.1.dirPathById dirId = .ok (pathOf names) := by
                rw [CentralTables.dirPathById, walk]
                rfl
              obtain ⟨others, samePath, located⟩ := tree.dirPathById_eq_ok.mp isOk
              obtain ⟨db₂, remembered, same₂, consistent₂⟩ :=
                remember_spec consistent₁ (same₁ ▸ located)
              refine ⟨db₂, same₂.trans same₁, consistent₂, ?_⟩
              rw [samePath, bind_of_ok remembered]
              simp [Except.map, samePath]

end CentralTx

end Fs0
