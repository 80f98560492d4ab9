import Fs0.Central.FileOps

/-!
Contract: every operation on directories and files behaves the same under every
cache that agrees with the tables.

Owns:
- the agreement rules of the primitive steps of a transaction;
- for each operation, that two runs over the same tables end alike, keep both
  caches valid, and what the tables they end in are.

Does not own: the operations on bundles, leases and volumes, which use no cache.
-/

set_option autoImplicit false

namespace Fs0

open Lib Fallible

/-- Two databases with the given tables, each with a cache that agrees with them. -/
structure At (tables : CentralTables) (left right : CentralDb) : Prop where
  same : SameTables left right
  tables : left.1 = tables

theorem At.refl {db : CentralDb} (consistent : Consistent db) : At db.1 db db :=
  ⟨.refl consistent, rfl⟩

theorem At.growing {tables : CentralTables} {left right : CentralDb} (at' : At tables left right)
    (names : List String) : CentralTx.Growing tables names left right :=
  ⟨at'.same, at'.tables ▸ .refl _ _⟩

theorem At.of_eq {tables : CentralTables} {left right left' right' : CentralDb}
    (at' : At tables left right) (sameLeft : left'.1 = left.1) (sameRight : right'.1 = right.1)
    (consistentLeft : Consistent left') (consistentRight : Consistent right') :
    At tables left' right' :=
  ⟨⟨by rw [sameLeft, sameRight, at'.same.tables], consistentLeft, consistentRight⟩,
    by rw [sameLeft, at'.tables]⟩

namespace CentralTables

/-- The file a path names, found by the SQL walk. -/
def fileByPath (tables : CentralTables) (path : String) : Fs0Result FileRow := do
  let (dir, name) ← splitFs0PathDirAndName path
  let dirId ← tables.dirIdByPath dir
  okOr (tables.childFile dirId name) .notFound

/-- A file lies at a path. -/
def FileAt (tables : CentralTables) (path : String) (file : FileRow) : Prop :=
  file ∈ tables.files.rows ∧
    ∃ names, tables.DirAt names file.dirId ∧ path = pathOf (names ++ [file.name])

variable {tables : CentralTables}

theorem Namespace.fileByPath_eq_ok (laws : tables.Namespace) {path : String} {file : FileRow} :
    tables.fileByPath path = .ok file ↔ tables.FileAt path file := by
  unfold fileByPath FileAt
  rw [Fs0Result.bind_eq_ok]
  constructor
  · rintro ⟨⟨dir, name⟩, split, rest⟩
    obtain ⟨dirId, resolved, found⟩ := Fs0Result.bind_eq_ok.mp rest
    obtain ⟨names, valid, -, rfl, rfl⟩ := splitFs0PathDirAndName_eq_ok.mp split
    obtain ⟨others, samePath, located⟩ := laws.dirIdByPath_eq_ok.mp resolved
    obtain rfl := pathOf_inj valid (laws.names_valid located) samePath
    obtain ⟨member, rfl, rfl⟩ := mem_of_childFile (okOr_eq_ok.mp found)
    exact ⟨member, names, located, rfl⟩
  · rintro ⟨member, names, located, rfl⟩
    refine ⟨(pathOf names, file.name), splitFs0PathDirAndName_eq_ok.mpr
      ⟨names, laws.names_valid located, laws.file_name_valid file member, rfl, rfl⟩, ?_⟩
    exact Fs0Result.bind_eq_ok.mpr ⟨file.dirId, laws.dirIdByPath_eq_ok.mpr ⟨names, rfl, located⟩,
      okOr_eq_ok.mpr (laws.childFile_eq_some.mpr ⟨member, rfl, rfl⟩)⟩

theorem Namespace.exists_fileAt (laws : tables.Namespace) {file : FileRow}
    (member : file ∈ tables.files.rows) : ∃ path, tables.FileAt path file := by
  obtain ⟨names, located⟩ := laws.exists_path (laws.file_dir file member)
  exact ⟨_, member, names, located, rfl⟩

theorem Namespace.fileAt_unique (laws : tables.Namespace) {path : String} {left right : FileRow}
    (leftAt : tables.FileAt path left) (rightAt : tables.FileAt path right) : left = right := by
  have leftIs := laws.fileByPath_eq_ok.mpr leftAt
  have rightIs := laws.fileByPath_eq_ok.mpr rightAt
  exact Except.ok.inj (leftIs.symm.trans rightIs)

end CentralTables

namespace CentralTx

/-! ## Primitive steps -/

section Primitive

variable {α : Type} {R E : CentralDb → CentralDb → Prop}

theorem query_agree (R : CentralDb → CentralDb → Prop)
    (same : ∀ left right, R left right → left.1 = right.1) (select : CentralTables → α) :
    Agree R (query select) (fun a left right => R left right ∧ a = select left.1) R := by
  intro left right related
  rw [query_apply, query_apply, ← same left right related]
  exact ⟨rfl, related, rfl⟩

theorem bindU64_agree (R : CentralDb → CentralDb → Prop) (value : Nat) (name : String) :
    Agree R (bindU64 value name)
      (fun bound left right => R left right ∧ bound = value ∧ value ≤ i64Max) R := by
  apply Agree.lift
  · intro left right bound related ok
    obtain ⟨fits, same⟩ := u64ToI64_eq_ok.mp ok
    exact ⟨related, same, fits⟩
  · exact fun _ _ => id

theorem execute_agree {Q : α → CentralDb → CentralDb → Prop}
    {statement : CentralTables → Fs0Result (α × CentralTables)}
    (same : ∀ left right, R left right → left.1 = right.1)
    (ok : ∀ left right a tables, R left right → statement left.1 = .ok (a, tables) →
      Q a (tables, left.2) (tables, right.2))
    (error : ∀ left right, R left right → E left right) :
    Agree R (execute statement) Q E := by
  intro left right related
  unfold execute
  rw [← same left right related]
  cases ran : statement left.1 with
  | error err => exact ⟨rfl, error left right related⟩
  | ok result => exact ⟨rfl, ok left right result.1 result.2 related ran⟩

theorem At.tables_eq {tables : CentralTables} (left right : CentralDb)
    (at' : At tables left right) : left.1 = right.1 :=
  at'.same.tables

end Primitive

/-- A computation that reads the tables as a function of them. -/
theorem agree_of_lift {α : Type} {tables : CentralTables} {m : CentralTx α} {result : Fs0Result α}
    (eq : ∀ db, Consistent db → db.1 = tables →
      ∃ db', db'.1 = db.1 ∧ Consistent db' ∧ m db = lift result db') :
    Agree (At tables) m (fun a left right => At tables left right ∧ result = .ok a)
      (At tables) := by
  intro left right at'
  obtain ⟨left', sameLeft, consistentLeft, leftEq⟩ := eq left at'.same.left at'.tables
  obtain ⟨right', sameRight, consistentRight, rightEq⟩ :=
    eq right at'.same.right (by rw [← at'.same.tables, at'.tables])
  rw [leftEq, rightEq]
  have ends := at'.of_eq sameLeft sameRight consistentLeft consistentRight
  cases result with
  | ok a => exact ⟨rfl, ends, rfl⟩
  | error err => exact ⟨rfl, ends⟩

variable {db : CentralDb} {tables : CentralTables}

/-! ## Lookups -/

theorem getDirIdByPath_agree (path : String) :
    Agree (At tables) (getDirIdByPath path)
      (fun dirId left right => At tables left right ∧ tables.dirIdByPath path = .ok dirId)
      (At tables) :=
  agree_of_lift fun _ consistent same => same ▸ getDirIdByPath_eq consistent path

theorem getDirPathById_agree (dirId : Nat) :
    Agree (At tables) (getDirPathById dirId)
      (fun path left right => At tables left right ∧ tables.dirPathById dirId = .ok path)
      (At tables) :=
  agree_of_lift fun _ consistent same => same ▸ getDirPathById_eq consistent dirId

theorem getFileById_eq (fileId : Nat) (db : CentralDb) :
    getFileById fileId db = lift (do
      let id ← u64ToI64 fileId "file_id"
      okOr (db.1.files.find? id) .notFound) db := by
  unfold getFileById bindU64
  cases u64ToI64 fileId "file_id" <;> rfl

theorem getFileById_eq_ok {fileId : Nat} {file : FileRow} {db' : CentralDb} :
    getFileById fileId db = .ok file db' ↔
      fileId ≤ i64Max ∧ db.1.files.find? fileId = some file ∧ db' = db := by
  rw [getFileById_eq, lift_eq_ok, Fs0Result.bind_eq_ok]
  constructor
  · rintro ⟨⟨id, bound, found⟩, rfl⟩
    obtain ⟨fits, rfl⟩ := u64ToI64_eq_ok.mp bound
    exact ⟨fits, okOr_eq_ok.mp found, rfl⟩
  · rintro ⟨fits, found, rfl⟩
    exact ⟨⟨fileId, u64ToI64_eq_ok.mpr ⟨fits, rfl⟩, okOr_eq_ok.mpr found⟩, rfl⟩

theorem getFileById_agree (R : CentralDb → CentralDb → Prop)
    (same : ∀ left right, R left right → left.1 = right.1) (fileId : Nat) :
    Agree R (getFileById fileId)
      (fun file left right => R left right ∧ left.1.files.find? fileId = some file) R := by
  intro left right related
  have ran := getFileById_eq fileId left
  rw [ran, getFileById_eq fileId right, ← same left right related]
  cases result : (do
      let id ← u64ToI64 fileId "file_id"
      okOr (left.1.files.find? id) .notFound : Fs0Result FileRow) with
  | error err => exact ⟨rfl, related⟩
  | ok file =>
      rw [result] at ran
      exact ⟨rfl, related, (getFileById_eq_ok.mp ran).2.1⟩

/-- Finding a file by its path returns what the SQL walk finds. -/
theorem getFileByPath_eq (consistent : Consistent db) (path : String) :
    ∃ db', db'.1 = db.1 ∧ Consistent db' ∧
      getFileByPath path db = lift (db.1.fileByPath path) db' := by
  unfold getFileByPath CentralTables.fileByPath
  cases split : splitFs0PathDirAndName path with
  | error err => exact ⟨db, rfl, consistent, rfl⟩
  | ok parts =>
      obtain ⟨dir, name⟩ := parts
      obtain ⟨db₁, same₁, consistent₁, resolved⟩ := getDirIdByPath_eq consistent dir
      rw [bind_of_ok (lift_ok_apply _ _), Fs0Result.ok_bind]
      simp only
      cases result : db.1.dirIdByPath dir with
      | error err =>
          rw [result] at resolved
          exact ⟨db₁, same₁, consistent₁, bind_of_error resolved⟩
      | ok dirId =>
          rw [result] at resolved
          obtain ⟨names, -, located⟩ := consistent.laws.dirIdByPath_eq_ok.mp result
          have fits := consistent.laws.fits (consistent.laws.isDir located)
          have bound : bindU64 dirId "dir_id" db₁ = .ok dirId db₁ :=
            bindU64_eq_ok.mpr ⟨fits, rfl, rfl⟩
          refine ⟨db₁, same₁, consistent₁, ?_⟩
          rw [bind_of_ok resolved, bind_of_ok bound, bind_of_ok (query_apply _ _), same₁,
            Fs0Result.ok_bind]

/-- The record of a file carries the path it lies at. -/
theorem fileRecord_agree (file : FileRow) :
    Agree (At tables) (fileRecord file)
      (fun record left right => At tables left right ∧
        (file ∈ tables.files.rows → tables.FileAt record.path file) ∧
        record = ⟨file.fileId, record.path, file.sizeBytes, file.compressedSizeBytes,
          file.createdAtMs, file.updatedAtMs⟩)
      (At tables) := by
  refine Agree.bind (getDirPathById_agree file.dirId) fun dir => ?_
  have joined : Agree (fun left right => At tables left right ∧
      tables.dirPathById file.dirId = .ok dir) (lift (joinFs0Path dir file.name))
      (fun path left right => At tables left right ∧
        (file ∈ tables.files.rows → tables.FileAt path file)) (At tables) := by
    apply Agree.lift
    · rintro left right path ⟨at', resolved⟩ ok
      refine ⟨at', fun member => ?_⟩
      have laws := at'.tables ▸ at'.same.left.laws
      obtain ⟨names, rfl, located⟩ := laws.dirPathById_eq_ok.mp resolved
      rw [joinFs0Path_pathOf _ (laws.names_valid located)] at ok
      cases ok
      exact ⟨member, names, located, rfl⟩
    · exact fun _ _ related => related.1
  refine Agree.bind joined fun path => Agree.pure ?_
  exact fun left right related => ⟨related.1, related.2, rfl⟩

/-! ## Creating, copying and renaming files -/

/-- A directory made ready to take a name. -/
structure Placed (before : CentralTables) (names : List String) (name : String)
    (existingFileId : Option Nat) (dirId : Nat) (left right : CentralDb) : Prop where
  growing : Growing before names left right
  located : left.1.DirAt names dirId
  noDir : left.1.childDir dirId name = none
  ownFile : ∀ file, left.1.childFile dirId name = some file → some file.fileId = existingFileId

/-- Creating the directory of a name and checking the name, before going on. -/
theorem place_agree {α : Type} {names : List String} {name : String}
    (valid : ∀ other ∈ names, ValidName other) (existingFileId : Option Nat) (path : String)
    {next : Nat → CentralTx α} {Q : α → CentralDb → CentralDb → Prop}
    (rest : ∀ dirId, Agree (Placed tables names name existingFileId dirId) (next dirId) Q
      SameTables) :
    Agree (Growing tables names) (do
        let dirId ← createDir (pathOf names)
        ensureChildNameAvailable dirId name existingFileId path
        next dirId) Q SameTables := by
  have created := (createDir_agree tables valid).weaken (fun _ _ => id)
    (fun _ _ _ => id) fun _ _ growing => growing.same
  refine Agree.bind created fun dirId => ?_
  have ensured := ensureChildNameAvailable_agree
    (fun left right => Growing tables names left right ∧ left.1.DirAt names dirId)
    (fun _ _ related => related.1.same.tables) dirId name existingFileId path
  refine Agree.bind (ensured.weaken (fun _ _ => id) (fun _ _ _ => id)
    fun _ _ related => related.1.same) fun _ => (rest dirId).weaken ?_ (fun _ _ _ => id)
    fun _ _ => id
  exact fun left right related => ⟨related.1.1, related.1.2, related.2.1, related.2.2⟩

theorem Placed.tables_eq {before : CentralTables} {names : List String} {name : String}
    {existingFileId : Option Nat} {dirId : Nat} (left right : CentralDb)
    (placed : Placed before names name existingFileId dirId left right) : left.1 = right.1 :=
  placed.growing.same.tables

theorem placed_bindU64 {names : List String} {name : String} {existingFileId : Option Nat}
    {dirId : Nat} (value : Nat) (parameter : String) :
    Agree (Placed tables names name existingFileId dirId) (bindU64 value parameter)
      (fun bound left right => Placed tables names name existingFileId dirId left right ∧
        bound = value) SameTables :=
  (bindU64_agree _ value parameter).weaken (fun _ _ => id)
    (fun _ _ _ related => ⟨related.1, related.2.1⟩) fun _ _ placed => placed.growing.same

/-- What creating or copying a file at a path does to the tables. -/
structure FileAdded (before : CentralTables) (path : String)
    (sizeBytes compressedSizeBytes now : Nat) (file : FileRow) (after : CentralTables) : Prop where
  placed : ∃ names name dirId mid, path = pathOf (names ++ [name]) ∧
    (∀ other ∈ names ++ [name], ValidName other) ∧ before.Grown names mid ∧
    mid.DirAt names dirId ∧
    mid.insertFile dirId name sizeBytes compressedSizeBytes now = .ok (file.fileId, after) ∧
    file = CentralTables.newFile dirId name sizeBytes compressedSizeBytes now file.fileId

theorem FileAdded.fileAt {before after : CentralTables} {path : String}
    {sizeBytes compressedSizeBytes now : Nat} {file : FileRow}
    (added : FileAdded before path sizeBytes compressedSizeBytes now file after) :
    after.FileAt path file := by
  obtain ⟨names, name, dirId, mid, rfl, -, -, located, inserted, isRow⟩ := added.placed
  obtain ⟨-, -, -, isNext, rfl⟩ := CentralTables.insertFile_eq_ok inserted
  refine ⟨mem_appended.mpr (.inr (isRow.trans (by rw [isNext]))), names, ?_, by rw [isRow]; rfl⟩
  rw [isRow]
  exact (CentralTables.dirAt_congr rfl).mpr located

/-- Inserting the row of a placed name and reading it back. -/
theorem insertFile_agree {names : List String} {name path : String}
    (valid : ∀ other ∈ names ++ [name], ValidName other) (samePath : path = pathOf (names ++ [name]))
    (dirId sizeBytes compressedSizeBytes now : Nat) :
    Agree (Placed tables names name none dirId) (do
        let fileId ← execute
          (CentralTables.insertFile dirId name sizeBytes compressedSizeBytes now)
        getFileById fileId)
      (fun file left right => SameTables left right ∧
        FileAdded tables path sizeBytes compressedSizeBytes now file left.1) SameTables := by
  have inserted : Agree (Placed tables names name none dirId)
      (execute (CentralTables.insertFile dirId name sizeBytes compressedSizeBytes now))
      (fun fileId left right => SameTables left right ∧
        FileAdded tables path sizeBytes compressedSizeBytes now
          (CentralTables.newFile dirId name sizeBytes compressedSizeBytes now fileId) left.1)
      SameTables := by
    apply execute_agree Placed.tables_eq
    · intro left right fileId tables' placed ran
      have nameValid := valid name (by simp)
      have laws := placed.growing.same.left.laws.insertFile nameValid placed.noDir ran
      have sameDirs : tables'.dirs = left.1.dirs := by
        obtain ⟨-, -, -, -, rfl⟩ := CentralTables.insertFile_eq_ok ran
        rfl
      have moved : ∀ names dirId, left.1.DirAt names dirId → tables'.DirAt names dirId :=
        fun _ _ => (CentralTables.dirAt_congr sameDirs).mpr
      have rightCache := placed.growing.same.right.cache
      rw [← placed.growing.same.tables] at rightCache
      exact ⟨⟨rfl, ⟨laws, placed.growing.same.left.cache.mono moved⟩,
        ⟨laws, rightCache.mono moved⟩⟩, names, name, dirId, left.1, samePath, valid,
        placed.growing.grown, placed.located, ran, rfl⟩
    · exact fun _ _ placed => placed.growing.same
  refine Agree.bind inserted fun fileId => ?_
  have found := getFileById_agree (fun left right => SameTables left right ∧
    FileAdded tables path sizeBytes compressedSizeBytes now
      (CentralTables.newFile dirId name sizeBytes compressedSizeBytes now fileId) left.1)
    (fun _ _ related => related.1.tables) fileId
  refine found.weaken (fun _ _ => id) ?_ fun _ _ related => related.1
  rintro file left right ⟨⟨same, added⟩, isFound⟩
  refine ⟨same, ?_⟩
  have member := added.fileAt.1
  have isRow := Table.find?_isSome_of_mem member
  obtain rfl := Option.some.inj (isFound.symm.trans isRow)
  exact added

theorem createFile_agree (path : String) (now : Nat) :
    Agree (At tables) (createFile path now)
      (fun file left right => SameTables left right ∧ FileAdded tables path 0 0 now file left.1)
      SameTables := by
  have split : Agree (At tables) (lift (splitFs0PathDirAndName path) : CentralTx _)
      (fun parts left right => At tables left right ∧
        splitFs0PathDirAndName path = .ok parts) SameTables :=
    Agree.lift (fun _ _ _ at' ok => ⟨at', ok⟩) fun _ _ at' => at'.same
  refine Agree.bind split fun parts => ?_
  obtain ⟨dir, name⟩ := parts
  rintro left right ⟨at', ok⟩
  obtain ⟨names, valid, nameValid, samePath, rfl⟩ := splitFs0PathDirAndName_eq_ok.mp ok
  have allValid : ∀ other ∈ names ++ [name], ValidName other := by
    simpa [or_imp, forall_and] using ⟨valid, nameValid⟩
  refine place_agree valid none path (fun dirId => ?_) left right (at'.growing names)
  refine Agree.bind (placed_bindU64 dirId "dir_id") fun id => ?_
  rintro left right ⟨placed, rfl⟩
  refine Agree.bind (placed_bindU64 now "created_at_ms") (fun createdAtMs => ?_) left right placed
  rintro left right ⟨placed, rfl⟩
  exact insertFile_agree allValid samePath id 0 0 createdAtMs left right placed

theorem copyFileById_agree (sourceFileId : Nat) (targetPath : String) (now : Nat) :
    Agree (At tables) (copyFileById sourceFileId targetPath now)
      (fun file left right => SameTables left right ∧ ∃ source,
        tables.files.find? sourceFileId = some source ∧
        FileAdded tables targetPath source.sizeBytes source.compressedSizeBytes now file left.1)
      SameTables := by
  have split : Agree (At tables) (lift (splitFs0PathDirAndName targetPath) : CentralTx _)
      (fun parts left right => At tables left right ∧
        splitFs0PathDirAndName targetPath = .ok parts) SameTables :=
    Agree.lift (fun _ _ _ at' ok => ⟨at', ok⟩) fun _ _ at' => at'.same
  refine Agree.bind split fun parts => ?_
  obtain ⟨dir, name⟩ := parts
  rintro left right ⟨at', ok⟩
  obtain ⟨names, valid, nameValid, samePath, rfl⟩ := splitFs0PathDirAndName_eq_ok.mp ok
  have allValid : ∀ other ∈ names ++ [name], ValidName other := by
    simpa [or_imp, forall_and] using ⟨valid, nameValid⟩
  have found := (getFileById_agree (At tables) At.tables_eq sourceFileId).weaken
    (fun _ _ => id) (fun _ _ _ => id) fun _ _ at' => at'.same
  refine Agree.bind found (fun source => ?_) left right at'
  rintro left right ⟨at', isSource⟩
  rw [at'.tables] at isSource
  refine place_agree valid none targetPath (fun dirId => ?_) left right (at'.growing names)
  refine Agree.bind (placed_bindU64 dirId "target_dir_id") fun id => ?_
  rintro left right ⟨placed, rfl⟩
  refine Agree.bind (placed_bindU64 _ "size_bytes") (fun sizeBytes => ?_) left right placed
  rintro left right ⟨placed, rfl⟩
  refine Agree.bind (placed_bindU64 _ "compressed_size_bytes") (fun compressed => ?_) left right
    placed
  rintro left right ⟨placed, rfl⟩
  refine Agree.bind (placed_bindU64 now "created_at_ms") (fun createdAtMs => ?_) left right placed
  rintro left right ⟨placed, rfl⟩
  refine (insertFile_agree allValid samePath id source.sizeBytes source.compressedSizeBytes
    createdAtMs).weaken (fun _ _ related => related) ?_ (fun _ _ related => related) left right
    placed
  exact fun file left right added => ⟨added.1, source, isSource, added.2⟩

/-- What renaming a file to a path does to the tables. -/
structure FileMoved (before : CentralTables) (fileId : Nat) (path : String) (now : Nat)
    (file : FileRow) (after : CentralTables) : Prop where
  placed : ∃ names name dirId mid changes, path = pathOf (names ++ [name]) ∧
    (∀ other ∈ names ++ [name], ValidName other) ∧ before.Grown names mid ∧
    mid.DirAt names dirId ∧ mid.moveFile fileId dirId name now = .ok (changes, after) ∧
    changes ≠ 0 ∧ after.files.find? fileId = some file

theorem FileMoved.fileAt {before after : CentralTables} {fileId now : Nat} {path : String}
    {file : FileRow} (moved : FileMoved before fileId path now file after) :
    after.FileAt path file := by
  obtain ⟨names, name, dirId, mid, changes, rfl, -, -, located, ran, changed, found⟩ := moved.placed
  obtain ⟨-, -, -, rfl⟩ := CentralTables.moveFile_eq_ok ran changed
  obtain ⟨member, sameId⟩ := Table.mem_of_find? found
  obtain ⟨old, -, isMoved⟩ := List.mem_map.mp member
  rw [← isMoved, CentralTables.movedTo_fileId] at sameId
  rw [CentralTables.movedTo, if_pos sameId] at isMoved
  refine ⟨member, names, ?_, ?_⟩
  · rw [← isMoved]
    exact (CentralTables.dirAt_congr rfl).mpr located
  · rw [← isMoved]

theorem renameFileById_agree (fileId : Nat) (targetPath : String) (now : Nat) :
    Agree (At tables) (renameFileById fileId targetPath now)
      (fun file left right => SameTables left right ∧
        FileMoved tables fileId targetPath now file left.1)
      SameTables := by
  have split : Agree (At tables) (lift (splitFs0PathDirAndName targetPath) : CentralTx _)
      (fun parts left right => At tables left right ∧
        splitFs0PathDirAndName targetPath = .ok parts) SameTables :=
    Agree.lift (fun _ _ _ at' ok => ⟨at', ok⟩) fun _ _ at' => at'.same
  refine Agree.bind split fun parts => ?_
  obtain ⟨dir, name⟩ := parts
  rintro left right ⟨at', ok⟩
  obtain ⟨names, valid, nameValid, samePath, rfl⟩ := splitFs0PathDirAndName_eq_ok.mp ok
  have allValid : ∀ other ∈ names ++ [name], ValidName other := by
    simpa [or_imp, forall_and] using ⟨valid, nameValid⟩
  refine place_agree valid (some fileId) targetPath (fun dirId => ?_) left right
    (at'.growing names)
  refine Agree.bind (placed_bindU64 fileId "file_id") fun id => ?_
  rintro left right ⟨placed, rfl⟩
  refine Agree.bind (placed_bindU64 dirId "target_dir_id") (fun dir => ?_) left right placed
  rintro left right ⟨placed, rfl⟩
  refine Agree.bind (placed_bindU64 now "updated_at_ms") (fun updatedAtMs => ?_) left right placed
  rintro left right ⟨placed, rfl⟩
  have moved : Agree (Placed tables names name (some id) dir)
      (execute (CentralTables.moveFile id dir name updatedAtMs))
      (fun changes left right => SameTables left right ∧ ∃ mid, tables.Grown names mid ∧
        mid.DirAt names dir ∧ mid.moveFile id dir name updatedAtMs = .ok (changes, left.1))
      SameTables := by
    apply execute_agree Placed.tables_eq
    · intro left right changes tables' placed ran
      have laws := placed.growing.same.left.laws.moveFile nameValid placed.noDir ran
      have sameDirs : tables'.dirs = left.1.dirs := by
        by_cases changed : changes = 0
        · subst changed
          rw [CentralTables.moveFile_unchanged ran]
        · obtain ⟨-, -, -, rfl⟩ := CentralTables.moveFile_eq_ok ran changed
          rfl
      have moved : ∀ names dirId, left.1.DirAt names dirId → tables'.DirAt names dirId :=
        fun _ _ => (CentralTables.dirAt_congr sameDirs).mpr
      have rightCache := placed.growing.same.right.cache
      rw [← placed.growing.same.tables] at rightCache
      exact ⟨⟨rfl, ⟨laws, placed.growing.same.left.cache.mono moved⟩,
        ⟨laws, rightCache.mono moved⟩⟩, left.1, placed.growing.grown, placed.located, ran⟩
    · exact fun _ _ placed => placed.growing.same
  refine Agree.bind moved (fun changes => ?_) left right placed
  have required : Agree (fun left right => SameTables left right ∧ ∃ mid, tables.Grown names mid ∧
        mid.DirAt names dir ∧ mid.moveFile id dir name updatedAtMs = .ok (changes, left.1))
      (require (changes ≠ 0) Fs0Error.notFound)
      (fun _ left right => (SameTables left right ∧ ∃ mid, tables.Grown names mid ∧
        mid.DirAt names dir ∧ mid.moveFile id dir name updatedAtMs = .ok (changes, left.1)) ∧
        changes ≠ 0) SameTables := by
    intro left right related
    by_cases changed : changes = 0
    · simp [require, changed, related.1]
    · simpa [require, changed] using related
  refine Agree.bind required fun _ => ?_
  have found := getFileById_agree (fun left right => (SameTables left right ∧
    ∃ mid, tables.Grown names mid ∧ mid.DirAt names dir ∧
      mid.moveFile id dir name updatedAtMs = .ok (changes, left.1)) ∧ changes ≠ 0)
    (fun _ _ related => related.1.1.tables) id
  refine found.weaken (fun _ _ related => related) ?_ fun _ _ related => related.1.1
  rintro file left right ⟨⟨⟨same, mid, grown, located, ran⟩, changed⟩, isFound⟩
  exact ⟨same, names, name, dir, mid, changes, samePath, allValid, grown, located, ran, changed,
    isFound⟩

/-! ## Deleting -/

/-- A statement that leaves the directories alone and keeps the laws. -/
theorem execute_respects {α : Type} {statement : CentralTables → Fs0Result (α × CentralTables)}
    (keeps : ∀ tables a tables', tables.Namespace → statement tables = .ok (a, tables') →
      tables'.Namespace ∧ tables'.dirs = tables.dirs) :
    Respects SameTables (execute statement) := by
  apply execute_agree fun _ _ same => same.tables
  · intro left right a tables' same ran
    obtain ⟨laws, sameDirs⟩ := keeps left.1 a tables' same.left.laws ran
    have moved : ∀ names dirId, left.1.DirAt names dirId → tables'.DirAt names dirId :=
      fun _ _ => (CentralTables.dirAt_congr sameDirs).mpr
    have rightCache := same.right.cache
    rw [← same.tables] at rightCache
    exact ⟨rfl, ⟨laws, same.left.cache.mono moved⟩, ⟨laws, rightCache.mono moved⟩⟩
  · exact fun _ _ => id

theorem bindU64_respects (value : Nat) (name : String) :
    Respects SameTables (bindU64 value name) :=
  Respects.lift

theorem deleteFileById_respects (fileId : Nat) : Respects SameTables (deleteFileById fileId) := by
  refine Respects.bind (bindU64_respects _ _) fun id => Respects.bind ?_ fun _ => Respects.require
  apply execute_respects
  intro tables changes tables' laws ran
  refine ⟨laws.deleteFile ran, ?_⟩
  rcases CentralTables.deleteFile_cases ran with rfl | rfl <;> rfl

/-- Forgetting a directory just deleted leaves a valid cache. -/
theorem forget_valid {tables' : CentralTables} {cache : DirCache} {names : List String}
    {dirId : Nat} {done : Unit} (tree : tables.DirTree) (valid : cache.Valid tables)
    (notRoot : dirId ≠ rootDirId) (notRootPath : pathOf names ≠ "/")
    (located : tables.DirAt names dirId)
    (deleted : tables.deleteDir dirId = .ok (done, tables')) :
    (cache.forget dirId (pathOf names)).Valid tables' := by
  intro path other held
  obtain ⟨old, differs⟩ := DirCache.holds_of_forget notRoot notRootPath held
  obtain ⟨otherNames, rfl, otherAt⟩ := valid path other old
  have kept : other ≠ dirId := by
    rintro rfl
    exact differs ⟨by rw [tree.path_unique otherAt located], rfl⟩
  exact ⟨otherNames, rfl, CentralTables.dirAt_deleteDir deleted otherAt kept⟩

theorem deleteDir_agree {names : List String} {dirId : Nat} (notRoot : dirId ≠ rootDirId)
    (notRootPath : pathOf names ≠ "/") :
    Agree (fun left right => At tables left right ∧ tables.DirAt names dirId)
      (do
        execute (CentralTables.deleteDir dirId)
        forget dirId (pathOf names))
      (fun _ => SameTables) SameTables := by
  rintro ⟨left, cache⟩ ⟨right, cache'⟩ ⟨at', located⟩
  obtain rfl : left = tables := at'.tables
  obtain rfl : left = right := at'.same.tables
  have tree := at'.same.left.laws.toDirTree
  cases ran : CentralTables.deleteDir dirId left with
  | error err =>
      have failed : ∀ cache : DirCache, execute (CentralTables.deleteDir dirId) (left, cache) =
          .error err (left, cache) := fun cache => execute_eq_error.mpr ⟨ran, rfl⟩
      rw [bind_of_error (failed cache), bind_of_error (failed cache')]
      exact ⟨rfl, at'.same⟩
  | ok result =>
      obtain ⟨done, tables'⟩ := result
      have succeeded : ∀ cache : DirCache, execute (CentralTables.deleteDir dirId) (left, cache) =
          .ok done (tables', cache) := fun cache => execute_eq_ok.mpr ⟨ran, rfl⟩
      rw [bind_of_ok (succeeded cache), bind_of_ok (succeeded cache')]
      have laws := at'.same.left.laws.deleteDir notRoot ran
      exact ⟨rfl, rfl,
        ⟨laws, forget_valid tree at'.same.left.cache notRoot notRootPath located ran⟩,
        ⟨laws, forget_valid tree at'.same.right.cache notRoot notRootPath located ran⟩⟩

theorem removeDir_agree (path : String) :
    Agree (At tables) (removeDir path) (fun _ => SameTables) SameTables := by
  by_cases rootPath : path = "/"
  · intro left right at'
    simp [removeDir, bind_apply, require, rootPath, at'.same]
  have notRootPath : Agree (At tables) (require (path ≠ "/") Fs0Error.invalidRequest)
      (fun _ => At tables) SameTables := by
    intro left right at'
    simpa [require, rootPath] using at'
  refine Agree.bind notRootPath fun _ => ?_
  refine Agree.bind ((getDirIdByPath_agree path).weaken (fun _ _ => id) (fun _ _ _ => id)
    fun _ _ at' => at'.same) fun dirId => ?_
  rintro left right ⟨at', resolved⟩
  have laws : tables.Namespace := at'.tables ▸ at'.same.left.laws
  obtain ⟨names, rfl, located⟩ := laws.dirIdByPath_eq_ok.mp resolved
  by_cases isRoot : dirId = rootDirId
  · simp [bind_apply, require, isRoot, at'.same]
  have fits := laws.fits (laws.isDir located)
  have notRoot : Agree (At tables) (require (dirId ≠ rootDirId) Fs0Error.invalidRequest)
      (fun _ => At tables) SameTables := by
    intro left right at'
    simpa [require, isRoot] using at'
  refine Agree.bind notRoot (fun _ => ?_) left right at'
  refine Agree.bind ((bindU64_agree (At tables) dirId "dir_id").weaken (fun _ _ => id)
    (fun _ _ _ => id) fun _ _ at' => at'.same) fun id => ?_
  rintro left right ⟨at', rfl, -⟩
  refine Agree.bind ((query_agree (At tables) At.tables_eq _).weaken (fun _ _ related => related)
    (fun _ _ _ related => related.1) fun _ _ at' => at'.same) (fun childDirs => ?_) left right at'
  refine Agree.bind ((query_agree (At tables) At.tables_eq _).weaken (fun _ _ related => related)
    (fun _ _ _ related => related.1) fun _ _ at' => at'.same) fun childFiles => ?_
  have unused : Agree (At tables)
      (require (childDirs = 0 ∧ childFiles = 0) Fs0Error.invalidRequest)
      (fun _ left right => At tables left right ∧ tables.DirAt names id) SameTables :=
    (Respects.require (R := At tables)).weaken (fun _ _ related => related)
      (fun _ _ _ at' => ⟨at', located⟩) fun _ _ at' => at'.same
  exact Agree.bind unused fun _ => deleteDir_agree isRoot rootPath

end CentralTx

end Fs0
