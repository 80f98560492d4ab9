import Fs0.Central.Namespace

/-!
Contract: what the operations on directories and files do to the namespace.

Owns:
- creating the directories of a path: the rows it adds and where they lie;
- that creating, copying, renaming and deleting files and removing directories
  keep the laws of the namespace and the validity of the cache, whether or not
  they fail, and cannot tell one valid cache from another.

Does not own: the transactions these operations run in.
-/

set_option autoImplicit false

namespace Fs0

open Lib Fallible

namespace CentralTables

variable {tables tables' : CentralTables}

theorem mem_of_childFile {dirId : Nat} {name : String} {file : FileRow}
    (found : tables.childFile dirId name = some file) :
    file ∈ tables.files.rows ∧ file.dirId = dirId ∧ file.name = name := by
  have selected := List.find?_some found
  simp only [decide_eq_true_eq] at selected
  exact ⟨List.mem_of_find?_eq_some found, selected⟩

theorem childFile_eq_none {dirId : Nat} {name : String} :
    tables.childFile dirId name = none ↔
      ∀ file ∈ tables.files.rows, file.dirId = dirId → file.name ≠ name := by
  simp [childFile, List.find?_eq_none]

theorem Namespace.childFile_eq_some (laws : tables.Namespace) {dirId : Nat} {name : String}
    {file : FileRow} : tables.childFile dirId name = some file ↔
      file ∈ tables.files.rows ∧ file.dirId = dirId ∧ file.name = name := by
  refine ⟨mem_of_childFile, fun ⟨member, inDir, named⟩ => ?_⟩
  cases found : tables.childFile dirId name with
  | none => exact absurd named (childFile_eq_none.mp found file member inDir)
  | some other =>
      obtain ⟨otherMem, otherDir, otherName⟩ := mem_of_childFile found
      rw [laws.file_name_unique other otherMem file member (otherDir.trans inDir.symm)
        (otherName.trans named.symm)]

/-- The laws only mention directories and files. -/
theorem Namespace.congr (laws : tables.Namespace) (dirs : tables'.dirs = tables.dirs)
    (files : tables'.files = tables.files) : tables'.Namespace := by
  obtain ⟨⟨rootMem, rootOnly, parentMem, parentLt, nameValid, nameUnique, idFits⟩, fileDir,
    fileNameValid, fileNameUnique, fileNotDir, fileSeqFits⟩ := laws
  constructor
  · constructor <;> (simp only [IsDir, dirs] at *; assumption)
  all_goals
    simp only [IsDir, DirEdge, dirs, files] at *
    assumption

theorem dirAt_congr (dirs : tables'.dirs = tables.dirs) {names : List String} {dirId : Nat} :
    tables'.DirAt names dirId ↔ tables.DirAt names dirId := by
  have edges : tables'.DirEdge = tables.DirEdge := by
    funext parent name child
    simp only [DirEdge, dirs]
  rw [DirAt, DirAt, edges]

theorem Namespace.insertDir (laws : tables.Namespace) {parent dirId : Nat} {name : String}
    (valid : ValidName name) (noFile : tables.childFile parent name = none)
    (inserted : tables.insertDir parent name = .ok (dirId, tables')) : tables'.Namespace := by
  have adds := insertDir_addsDirs inserted
  obtain ⟨-, -, -, -, isNext, others, rows⟩ := insertDir_eq_ok inserted
  have files : tables'.files = tables.files := by rw [others]
  constructor
  case toDirTree => exact laws.toDirTree.insertDir valid inserted
  case file_dir =>
      rw [files]
      intro file member
      obtain ⟨dir, dirMem, same⟩ := laws.file_dir file member
      exact ⟨dir, adds.mem dirMem, same⟩
  case file_name_valid => exact files ▸ laws.file_name_valid
  case file_name_unique => exact files ▸ laws.file_name_unique
  case file_not_dir =>
      rw [files]
      rintro file member child ⟨dir, dirMem, same, hasParent, named⟩
      rw [rows] at dirMem
      rcases List.mem_append.mp dirMem with old | last
      · exact laws.file_not_dir file member child ⟨dir, old, same, hasParent, named⟩
      · obtain rfl := List.mem_singleton.mp last
        exact childFile_eq_none.mp noFile file member (Option.some.inj hasParent).symm named.symm
  case file_seq_fits => exact files ▸ laws.file_seq_fits

/-- From one table to another, directories were added on the way to a path. -/
structure Grown (before : CentralTables) (names : List String) (after : CentralTables) : Prop where
  adds : AddsDirs before after
  fresh : ∀ dir ∈ after.dirs.rows, dir ∈ before.dirs.rows ∨
    ∃ part, part <+: names ∧ after.DirAt part dir.dirId

theorem Grown.refl (tables : CentralTables) (names : List String) : Grown tables names tables :=
  ⟨.refl tables, fun _ member => .inl member⟩

theorem Grown.insertDir {before : CentralTables} {done rest : List String} {parent dirId : Nat}
    {name : String} (grown : Grown before (done ++ name :: rest) tables)
    (located : tables.DirAt done parent)
    (inserted : tables.insertDir parent name = .ok (dirId, tables')) :
    Grown before (done ++ name :: rest) tables' := by
  have adds := insertDir_addsDirs inserted
  obtain ⟨-, -, -, -, -, -, rows⟩ := insertDir_eq_ok inserted
  refine ⟨grown.adds.trans adds, fun dir member => ?_⟩
  rw [rows] at member
  rcases List.mem_append.mp member with old | last
  · rcases grown.fresh dir old with known | ⟨part, isPrefix, partAt⟩
    · exact .inl known
    · exact .inr ⟨part, isPrefix, adds.dirAt partAt⟩
  · obtain rfl := List.mem_singleton.mp last
    have childAt := (adds.dirAt located).child (insertDir_edge inserted)
    exact .inr ⟨done ++ [name], ⟨rest, by simp⟩, childAt⟩

end CentralTables

theorem Consistent.congr {db db' : CentralDb} (consistent : Consistent db)
    (dirs : db'.1.dirs = db.1.dirs) (files : db'.1.files = db.1.files) (cache : db'.2 = db.2) :
    Consistent db' where
  laws := consistent.laws.congr dirs files
  cache := by
    rw [cache]
    exact consistent.cache.mono fun _ _ => (CentralTables.dirAt_congr dirs).mpr

namespace CentralTx

variable {db : CentralDb}

/-- The check of a child name reads the tables only. On success the name is free,
or it is the name of the file it is checked for. -/
theorem ensureChildNameAvailable_eq (tables : CentralTables) (parentDirId : Nat) (name : String)
    (existingFileId : Option Nat) (path : String) :
    ∃ result, (∀ cache, ensureChildNameAvailable parentDirId name existingFileId path
        (tables, cache) = lift result (tables, cache)) ∧
      (result = .ok () → tables.childDir parentDirId name = none ∧
        ∀ file, tables.childFile parentDirId name = some file →
          some file.fileId = existingFileId) := by
  cases bound : u64ToI64 parentDirId "parent_dir_id" with
  | error err =>
      refine ⟨.error err, fun cache => ?_, fun ok => by cases ok⟩
      rw [ensureChildNameAvailable, bindU64, bound]
      rfl
  | ok parent =>
      obtain ⟨-, rfl⟩ := u64ToI64_eq_ok.mp bound
      by_cases noDir : tables.childDir parent name = none
      · by_cases ownFile : ∀ file, tables.childFile parent name = some file →
          some file.fileId = existingFileId
        · refine ⟨.ok (), fun cache => ?_, fun _ => ⟨noDir, ownFile⟩⟩
          rw [ensureChildNameAvailable, bindU64, bound]
          simp only [bind_apply, lift_ok_apply, query_apply, noDir, require, if_true]
          rw [if_pos ownFile]
        · refine ⟨.error (.alreadyExists path), fun cache => ?_, fun ok => by cases ok⟩
          rw [ensureChildNameAvailable, bindU64, bound]
          simp [bind_apply, require, noDir, ownFile]
      · refine ⟨.error (.alreadyExists path), fun cache => ?_, fun ok => by cases ok⟩
        rw [ensureChildNameAvailable, bindU64, bound]
        simp [bind_apply, require, noDir]

theorem ensureChildNameAvailable_eq_ok {parentDirId : Nat} {name : String}
    {existingFileId : Option Nat} {path : String} {db' : CentralDb}
    (ensured : ensureChildNameAvailable parentDirId name existingFileId path db = .ok () db') :
    db' = db ∧ db.1.childDir parentDirId name = none ∧
      ∀ file, db.1.childFile parentDirId name = some file → some file.fileId = existingFileId := by
  obtain ⟨tables, cache⟩ := db
  obtain ⟨result, eq, facts⟩ :=
    ensureChildNameAvailable_eq tables parentDirId name existingFileId path
  rw [eq] at ensured
  obtain ⟨isOk, same⟩ := lift_eq_ok.mp ensured
  exact ⟨same, facts isOk⟩

theorem ensureChildNameAvailable_agree (R : CentralDb → CentralDb → Prop)
    (same : ∀ left right, R left right → left.1 = right.1) (parentDirId : Nat) (name : String)
    (existingFileId : Option Nat) (path : String) :
    Agree R (ensureChildNameAvailable parentDirId name existingFileId path)
      (fun _ left right => R left right ∧ left.1.childDir parentDirId name = none ∧
        ∀ file, left.1.childFile parentDirId name = some file →
          some file.fileId = existingFileId) R := by
  rintro ⟨tables, cache⟩ ⟨tables', cache'⟩ related
  obtain rfl : tables = tables' := same _ _ related
  obtain ⟨result, eq, facts⟩ :=
    ensureChildNameAvailable_eq tables parentDirId name existingFileId path
  rw [eq, eq]
  cases result with
  | error err => exact ⟨rfl, related⟩
  | ok done => exact ⟨rfl, related, facts rfl⟩

/-! ## Creating the directories of a path -/

theorem createDirBelow_existing (consistent : Consistent db) (rest : List String)
    {done : List String} {name : String} {dirId child : Nat} (located : db.1.DirAt done dirId) (valid : ValidName name)
    (exists' : db.1.childDir dirId name = some child) :
    ∃ db', db'.1 = db.1 ∧ Consistent db' ∧
      createDirBelow (name :: rest) dirId (pathOf done) db =
        createDirBelow rest child (pathOf (done ++ [name])) db' := by
  have tree := consistent.laws.toDirTree
  have joined := joinFs0Path_pathOf name (tree.names_valid located)
  obtain ⟨hit, db₁, looked, same₁, consistent₁, hitAt⟩ :=
    cachedId_spec consistent (pathOf (done ++ [name]))
  rw [createDirBelow, joined, bind_of_ok (lift_ok_apply _ _), bind_of_ok looked]
  cases hit with
  | some found =>
      obtain ⟨names, samePath, foundAt⟩ := hitAt found rfl
      have isChild := childDir_of_hit consistent located valid samePath foundAt
      obtain rfl : child = found := Option.some.inj (exists'.symm.trans isChild)
      exact ⟨db₁, same₁, consistent₁, rfl⟩
  | none =>
      have bound : bindU64 dirId "parent_dir_id" db₁ = .ok dirId db₁ :=
        bindU64_eq_ok.mpr ⟨tree.fits (tree.isDir located), rfl, rfl⟩
      have query₁ : query (CentralTables.childDir dirId name) db₁ = .ok (some child) db₁ := by
        rw [query_apply, same₁, exists']
      have childAt := located.child (tree.childDir_eq_some.mp exists')
      obtain ⟨db₂, remembered, same₂, consistent₂⟩ :=
        remember_spec consistent₁ (same₁ ▸ childAt)
      refine ⟨db₂, same₂.trans same₁, consistent₂, ?_⟩
      simp only
      rw [bind_of_ok bound, bind_of_ok query₁]
      simp only
      rw [bind_of_ok remembered]

theorem createDirBelow_missing (consistent : Consistent db) (rest : List String)
    {done : List String} {name : String} {dirId : Nat} (located : db.1.DirAt done dirId) (valid : ValidName name)
    (missing : db.1.childDir dirId name = none) :
    ∃ db', db'.1 = db.1 ∧ Consistent db' ∧
      (∀ tables, db.2.Valid tables → db'.2.Valid tables) ∧
      createDirBelow (name :: rest) dirId (pathOf done) db = (do
        ensureChildNameAvailable dirId name none (pathOf (done ++ [name]))
        let created ← execute (CentralTables.insertDir dirId name)
        createDirBelow rest created (pathOf (done ++ [name])) : CentralTx Nat) db' := by
  have tree := consistent.laws.toDirTree
  have joined := joinFs0Path_pathOf name (tree.names_valid located)
  obtain ⟨hit, db₁, looked, same₁, consistent₁, hitAt⟩ :=
    cachedId_spec consistent (pathOf (done ++ [name]))
  have cached₁ : ∀ tables, db.2.Valid tables → db₁.2.Valid tables := by
    intro tables valid
    cases looked
    exact valid.getId
  rw [createDirBelow, joined, bind_of_ok (lift_ok_apply _ _), bind_of_ok looked]
  cases hit with
  | some found =>
      obtain ⟨names, samePath, foundAt⟩ := hitAt found rfl
      have isChild := childDir_of_hit consistent located valid samePath foundAt
      rw [missing] at isChild
      cases isChild
  | none =>
      have bound : bindU64 dirId "parent_dir_id" db₁ = .ok dirId db₁ :=
        bindU64_eq_ok.mpr ⟨tree.fits (tree.isDir located), rfl, rfl⟩
      have query₁ : query (CentralTables.childDir dirId name) db₁ = .ok none db₁ := by
        rw [query_apply, same₁, missing]
      refine ⟨db₁, same₁, consistent₁, cached₁, ?_⟩
      simp only
      rw [bind_of_ok bound, bind_of_ok query₁]

/-- Two databases with the same tables, grown from the same tables towards a path. -/
structure Growing (before : CentralTables) (names : List String) (left right : CentralDb) :
    Prop where
  same : SameTables left right
  grown : before.Grown names left.1

theorem insertDir_agree {before : CentralTables} {done rest : List String} {name : String}
    (valid : ValidName name) (parent : Nat) :
    Agree (fun left right => (Growing before (done ++ name :: rest) left right ∧
        left.1.DirAt done parent) ∧ left.1.childFile parent name = none)
      (execute (CentralTables.insertDir parent name))
      (fun dirId left right => Growing before (done ++ name :: rest) left right ∧
        left.1.DirAt (done ++ [name]) dirId)
      (fun left right => Growing before (done ++ name :: rest) left right) := by
  rintro ⟨tables, cache⟩ ⟨tables', cache'⟩ ⟨⟨growing, located⟩, noFile⟩
  obtain rfl : tables = tables' := growing.same.tables
  unfold execute
  cases inserted : tables.insertDir parent name with
  | error err => exact ⟨rfl, growing⟩
  | ok result =>
      obtain ⟨dirId, tables'⟩ := result
      have adds := CentralTables.insertDir_addsDirs inserted
      have laws := growing.same.left.laws.insertDir valid noFile inserted
      have moved : ∀ names dirId, tables.DirAt names dirId → tables'.DirAt names dirId :=
        fun _ _ => adds.dirAt
      exact ⟨rfl, ⟨⟨rfl, ⟨laws, growing.same.left.cache.mono moved⟩,
        ⟨laws, growing.same.right.cache.mono moved⟩⟩, growing.grown.insertDir located inserted⟩,
        (adds.dirAt located).child (CentralTables.insertDir_edge inserted)⟩

/-- Creating directories below one that lies at `done`. -/
theorem createDirBelow_agree {before : CentralTables} (rest : List String)
    (valid : ∀ name ∈ rest, ValidName name) (done : List String) (dirId : Nat) :
    Agree (fun left right => Growing before (done ++ rest) left right ∧ left.1.DirAt done dirId)
      (createDirBelow rest dirId (pathOf done))
      (fun created left right => Growing before (done ++ rest) left right ∧
        left.1.DirAt (done ++ rest) created)
      (fun left right => Growing before (done ++ rest) left right) := by
  induction rest generalizing done dirId with
  | nil =>
      simp only [List.append_nil]
      exact Agree.pure fun _ _ => id
  | cons name rest inductionHypothesis =>
      have nameValid := valid name List.mem_cons_self
      have restValid := fun other member => valid other (List.mem_cons_of_mem _ member)
      have next := inductionHypothesis restValid (done ++ [name])
      simp only [List.append_assoc, List.singleton_append] at next
      rintro left right ⟨growing, located⟩
      have same := growing.same.tables
      have tree := growing.same.left.laws.toDirTree
      cases child : left.1.childDir dirId name with
      | some found =>
          obtain ⟨left', sameLeft, consistentLeft, leftEq⟩ :=
            createDirBelow_existing growing.same.left rest located nameValid child
          obtain ⟨right', sameRight, consistentRight, rightEq⟩ :=
            createDirBelow_existing growing.same.right rest (same ▸ located) nameValid
              (same ▸ child)
          rw [leftEq, rightEq]
          apply next found
          refine ⟨⟨⟨?_, consistentLeft, consistentRight⟩, ?_⟩, ?_⟩
          · rw [sameLeft, sameRight, same]
          · rw [sameLeft]
            exact growing.grown
          · rw [sameLeft]
            exact located.child (tree.childDir_eq_some.mp child)
      | none =>
          obtain ⟨left', sameLeft, consistentLeft, -, leftEq⟩ :=
            createDirBelow_missing growing.same.left rest located nameValid child
          obtain ⟨right', sameRight, consistentRight, -, rightEq⟩ :=
            createDirBelow_missing growing.same.right rest (same ▸ located) nameValid
              (same ▸ child)
          rw [leftEq, rightEq]
          have start : Growing before (done ++ name :: rest) left' right' ∧
              left'.1.DirAt done dirId := by
            refine ⟨⟨⟨?_, consistentLeft, consistentRight⟩, ?_⟩, ?_⟩
            · rw [sameLeft, sameRight, same]
            · rw [sameLeft]
              exact growing.grown
            · rw [sameLeft]
              exact located
          have ensured := ensureChildNameAvailable_agree
            (fun left right => Growing before (done ++ name :: rest) left right ∧
              left.1.DirAt done dirId) (fun _ _ related => related.1.same.tables) dirId name none
            (pathOf (done ++ [name]))
          have inserted := fun _ : Unit => Agree.bind (insertDir_agree nameValid dirId) next
          refine Agree.bind (ensured.weaken (fun _ _ => id) ?_ fun _ _ related => related.1)
            inserted left' right' start
          rintro _ mid mid' ⟨related, -, noFile⟩
          refine ⟨related, ?_⟩
          cases found : mid.1.childFile dirId name with
          | none => rfl
          | some file => cases noFile file found

/-- Creating below a directory what is there already changes nothing. -/
theorem createDirBelow_of_dirAt (consistent : Consistent db) {rest done : List String}
    {dirId found : Nat} (located : db.1.DirAt done dirId)
    (foundAt : db.1.DirAt (done ++ rest) found) :
    ∃ db', db'.1 = db.1 ∧ Consistent db' ∧
      createDirBelow rest dirId (pathOf done) db = .ok found db' := by
  induction rest generalizing done dirId db with
  | nil =>
      rw [List.append_nil] at foundAt
      rw [consistent.laws.id_unique foundAt located]
      exact ⟨db, rfl, consistent, rfl⟩
  | cons name rest inductionHypothesis =>
      have tree := consistent.laws.toDirTree
      have nameValid := tree.names_valid foundAt name (by simp)
      have split : done ++ name :: rest = (done ++ [name]) ++ rest := by simp
      rw [split] at foundAt
      obtain ⟨child, childAt⟩ := foundAt.exists_prefix
      obtain ⟨parent, parentAt, edge⟩ := childAt.last
      rw [tree.id_unique parentAt located] at edge
      obtain ⟨db₁, same₁, consistent₁, first⟩ := createDirBelow_existing consistent rest located
        nameValid (tree.childDir_eq_some.mpr edge)
      obtain ⟨db₂, same₂, consistent₂, second⟩ :=
        inductionHypothesis consistent₁ (same₁ ▸ childAt) (same₁ ▸ foundAt)
      exact ⟨db₂, same₂.trans same₁, consistent₂, first.trans second⟩

/-- A directory that exists is returned as it is. -/
theorem createDir_of_dirAt (consistent : Consistent db) {names : List String} {found : Nat}
    (foundAt : db.1.DirAt names found) :
    ∃ db', db'.1 = db.1 ∧ Consistent db' ∧ createDir (pathOf names) db = .ok found db' := by
  have tree := consistent.laws.toDirTree
  obtain ⟨hit, db₁, looked, same₁, consistent₁, hitAt⟩ := cachedId_spec consistent (pathOf names)
  rw [createDir, bind_of_ok looked]
  cases hit with
  | some other =>
      obtain ⟨names', samePath, otherAt⟩ := hitAt other rfl
      obtain rfl := pathOf_inj (tree.names_valid foundAt) (tree.names_valid otherAt) samePath
      rw [tree.id_unique foundAt otherAt]
      exact ⟨db₁, same₁, consistent₁, rfl⟩
  | none =>
      have split := splitFs0PathComponents_eq_ok.mpr ⟨rfl, tree.names_valid foundAt⟩
      have rootAt : db₁.1.DirAt [] rootDirId := .root
      have foundAt₁ : db₁.1.DirAt ([] ++ names) found := by simpa [same₁] using foundAt
      obtain ⟨db₂, same₂, consistent₂, ends⟩ :=
        createDirBelow_of_dirAt consistent₁ rootAt foundAt₁
      refine ⟨db₂, same₂.trans same₁, consistent₂, ?_⟩
      simp only
      rw [split, bind_of_ok (lift_ok_apply _ _)]
      simpa using ends

theorem createDir_of_not_dirAt (consistent : Consistent db) {names : List String}
    (valid : ∀ name ∈ names, ValidName name) (absent : ∀ found, ¬ db.1.DirAt names found) :
    ∃ db', db'.1 = db.1 ∧ Consistent db' ∧
      createDir (pathOf names) db = createDirBelow names rootDirId (pathOf []) db' := by
  obtain ⟨hit, db₁, looked, same₁, consistent₁, hitAt⟩ := cachedId_spec consistent (pathOf names)
  rw [createDir, bind_of_ok looked]
  cases hit with
  | some other =>
      obtain ⟨names', samePath, otherAt⟩ := hitAt other rfl
      obtain rfl := pathOf_inj valid (consistent.laws.names_valid otherAt) samePath
      exact absurd otherAt (absent other)
  | none =>
      refine ⟨db₁, same₁, consistent₁, ?_⟩
      simp only
      rw [splitFs0PathComponents_eq_ok.mpr ⟨rfl, valid⟩, bind_of_ok (lift_ok_apply _ _), pathOf_nil]

/-- Creating the directories of a path adds rows on the way to it only, and ends
at the directory of the path. -/
theorem createDir_agree (before : CentralTables) {names : List String}
    (valid : ∀ name ∈ names, ValidName name) :
    Agree (Growing before names) (createDir (pathOf names))
      (fun created left right => Growing before names left right ∧ left.1.DirAt names created)
      (Growing before names) := by
  intro left right growing
  have same := growing.same.tables
  by_cases present : ∃ found, left.1.DirAt names found
  · obtain ⟨found, foundAt⟩ := present
    obtain ⟨left', sameLeft, consistentLeft, leftEq⟩ := createDir_of_dirAt growing.same.left foundAt
    obtain ⟨right', sameRight, consistentRight, rightEq⟩ :=
      createDir_of_dirAt growing.same.right (same ▸ foundAt)
    rw [leftEq, rightEq]
    refine ⟨rfl, ⟨⟨?_, consistentLeft, consistentRight⟩, ?_⟩, ?_⟩
    · rw [sameLeft, sameRight, same]
    · rw [sameLeft]
      exact growing.grown
    · rw [sameLeft]
      exact foundAt
  · have absent : ∀ found, ¬ left.1.DirAt names found := fun found at' => present ⟨found, at'⟩
    obtain ⟨left', sameLeft, consistentLeft, leftEq⟩ :=
      createDir_of_not_dirAt growing.same.left valid absent
    obtain ⟨right', sameRight, consistentRight, rightEq⟩ :=
      createDir_of_not_dirAt growing.same.right valid (same ▸ absent)
    rw [leftEq, rightEq]
    have start : Growing before names left' right' := by
      refine ⟨⟨?_, consistentLeft, consistentRight⟩, ?_⟩
      · rw [sameLeft, sameRight, same]
      · rw [sameLeft]
        exact growing.grown
    exact createDirBelow_agree names valid [] rootDirId left' right' ⟨start, .root⟩

end CentralTx

end Fs0
