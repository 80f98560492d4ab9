import Fs0.Central.FileOps
import Fs0.Central.Runs

/-!
Contract: the laws of directories and files in every state central reaches.

Owns:
- that a law each statement over the directories and files keeps holds in every state
  central reaches, whatever the directory cache holds;
- that the directories form a tree and every file is in one of them, that the files of
  a directory have different names, and that the numbers of files can be bound;
- that the path of a file can therefore be read in every state.

Does not own: that the path read through the cache is the right one.
-/

set_option autoImplicit false

namespace Fs0

open Lib Fallible

/-- The directories form a tree, and every file is in one of them. -/
structure CentralTables.Rooted (tables : CentralTables) : Prop extends tables.DirTree where
  file_dir : ∀ file ∈ tables.files.rows, tables.IsDir file.dirId

namespace CentralTables

variable {before after : CentralTables}

theorem initial_rooted : initial.Rooted :=
  ⟨initial_dirTree, initial_namespace.file_dir⟩

theorem DirTree.of_dirs (tree : before.DirTree) (same : after.dirs = before.dirs) :
    after.DirTree := by
  constructor <;> (try unfold IsDir) <;> rw [same]
  case root_mem => exact tree.root_mem
  case root_only => exact tree.root_only
  case parent_mem => exact tree.parent_mem
  case parent_lt => exact tree.parent_lt
  case name_valid => exact tree.name_valid
  case name_unique => exact tree.name_unique
  case id_fits => exact tree.id_fits

/-- Files stay where they are, go, or come into a directory that is there. -/
theorem Rooted.of_sub (rooted : before.Rooted) (sameDirs : after.dirs = before.dirs)
    (sub : ∀ file ∈ after.files.rows,
      (∃ old ∈ before.files.rows, old.dirId = file.dirId) ∨ before.IsDir file.dirId) :
    after.Rooted := by
  refine ⟨rooted.toDirTree.of_dirs sameDirs, fun file member => ?_⟩
  have isDir : before.IsDir file.dirId := by
    rcases sub file member with ⟨old, oldMem, sameDir⟩ | isDir
    · rw [← sameDir]
      exact rooted.file_dir old oldMem
    · exact isDir
  unfold IsDir at isDir ⊢
  rwa [sameDirs]

theorem Rooted.of_files (rooted : before.Rooted) (sameDirs : after.dirs = before.dirs)
    (sameFiles : after.files = before.files) : after.Rooted :=
  rooted.of_sub sameDirs fun file member => .inl ⟨file, by rwa [sameFiles] at member, rfl⟩

theorem Rooted.insertDir {parent dirId : Nat} {name : String} (rooted : before.Rooted)
    (valid : ValidName name) (inserted : before.insertDir parent name = .ok (dirId, after)) :
    after.Rooted := by
  refine ⟨rooted.toDirTree.insertDir valid inserted, fun file member => ?_⟩
  have adds := insertDir_addsDirs inserted
  rw [adds.others] at member
  obtain ⟨dir, dirMem, same⟩ := rooted.file_dir file member
  exact ⟨dir, adds.mem dirMem, same⟩

theorem isDir_of_find? {tables : CentralTables} {dirId : Nat}
    (found : ¬ (tables.dirs.find? dirId).isNone) : tables.IsDir dirId := by
  cases looked : tables.dirs.find? dirId with
  | none =>
      rw [looked] at found
      exact absurd rfl found
  | some dir =>
      obtain ⟨member, same⟩ := Table.mem_of_find? looked
      exact ⟨dir, member, same⟩

theorem Rooted.insertFile {dirId sizeBytes compressedSizeBytes now fileId : Nat} {name : String}
    (rooted : before.Rooted)
    (inserted : before.insertFile dirId name sizeBytes compressedSizeBytes now = .ok (fileId, after)) :
    after.Rooted := by
  unfold CentralTables.insertFile at inserted
  split at inserted
  · cases inserted
  split at inserted
  · cases inserted
  next present =>
    cases pushed : pushRow before.files (fun fileId => ⟨fileId, dirId, name, sizeBytes,
        compressedSizeBytes, now, now⟩) (fun _ => rfl) with
    | error err =>
        rw [pushed] at inserted
        cases inserted
    | ok result =>
        obtain ⟨id, files⟩ := result
        rw [pushed] at inserted
        cases inserted
        obtain ⟨-, -, rfl⟩ := pushRow_eq_ok.mp pushed
        refine rooted.of_sub ?_ fun file member => ?_
        · rfl
        rcases List.mem_append.mp member with old | new
        · exact .inl ⟨file, old, rfl⟩
        · obtain rfl := List.mem_singleton.mp new
          exact .inr (isDir_of_find? present)

theorem Rooted.moveFile {fileId dirId now changes : Nat} {name : String} (rooted : before.Rooted)
    (moved : before.moveFile fileId dirId name now = .ok (changes, after)) : after.Rooted := by
  unfold CentralTables.moveFile at moved
  split at moved
  · cases moved
    exact rooted
  split at moved
  · cases moved
  split at moved
  · cases moved
  next present =>
    cases moved
    refine rooted.of_sub ?_ fun file member => ?_
    · rfl
    obtain ⟨old, oldMem, rfl⟩ := List.mem_map.mp member
    split
    · exact .inr (isDir_of_find? present)
    · exact .inl ⟨old, oldMem, rfl⟩

end CentralTables

/-! ## Laws -/

/-- A law of the directories and files that every statement over them keeps. -/
structure StatementLaw (I : CentralTables → Prop) : Prop where
  initial : I CentralTables.initial
  insertDir : ∀ before parent name dirId after, I before → ValidName name →
    before.insertDir parent name = .ok (dirId, after) → I after
  insertFile : ∀ before dirId name sizeBytes compressedSizeBytes now fileId after, I before →
    before.insertFile dirId name sizeBytes compressedSizeBytes now = .ok (fileId, after) → I after
  moveFile : ∀ before fileId dirId name now changes after, I before →
    before.moveFile fileId dirId name now = .ok (changes, after) → I after
  /-- Files change in nothing but their sizes and times, or go. -/
  others : ∀ before after : CentralTables, I before → after.dirs = before.dirs →
    after.files.seq = before.files.seq →
    (∀ file ∈ after.files.rows, ∃ old ∈ before.files.rows, old.fileId = file.fileId ∧
      old.dirId = file.dirId ∧ old.name = file.name) → I after

theorem StatementLaw.of_files {I : CentralTables → Prop} (law : StatementLaw I)
    {before after : CentralTables} (holds : I before) (sameDirs : after.dirs = before.dirs)
    (sameFiles : after.files = before.files) : I after :=
  law.others before after holds sameDirs (by rw [sameFiles]) fun file member =>
    ⟨file, by rwa [sameFiles] at member, rfl, rfl, rfl⟩

/-! ## Operations -/

namespace CentralTx

variable {α : Type} {I : CentralTables → Prop}

theorem ReadsOnly.keeps {m : CentralTx α} (reads : ReadsOnly m) : Keeps (fun db => I db.1) m := by
  apply Triple.intro
  · intro db a db' holds ran
    rw [reads.tables_eq ran]
    exact holds
  · intro db err db' holds ran
    have same := reads.endState db
    rw [ran] at same
    rw [endState_error] at same
    rwa [same]

theorem execute_keeps {statement : CentralTables → Fs0Result (α × CentralTables)}
    (kept : ∀ tables a tables', I tables → statement tables = .ok (a, tables') → I tables') :
    Keeps (fun db => I db.1) (execute statement : CentralTx α) := by
  apply Triple.intro
  · intro db a db' holds ran
    exact kept db.1 a db'.1 holds (execute_eq_ok.mp ran).1
  · intro db err db' holds ran
    obtain ⟨-, rfl⟩ := execute_eq_error.mp ran
    exact holds

theorem createDirBelow_lawful (law : StatementLaw I) {names : List String}
    (valid : ∀ name ∈ names, ValidName name) (dirId : Nat) (parentPath : String) :
    Keeps (fun db => I db.1) (createDirBelow names dirId parentPath) := by
  induction names generalizing dirId parentPath with
  | nil => exact Keeps.pure
  | cons name rest inductionHypothesis =>
      have restValid := fun other member => valid other (List.mem_cons_of_mem _ member)
      apply Keeps.bind Keeps.lift
      intro currentPath
      apply Keeps.bind (cached_readsOnly _).keeps
      rintro (_ | found)
      · apply Keeps.bind (bindU64_readsOnly _ _).keeps
        intro parent
        apply Keeps.bind (query_readsOnly _).keeps
        rintro (_ | existing)
        · apply Keeps.bind (ensureChildNameAvailable_readsOnly _ _ _ _).keeps
          intro _
          apply Keeps.bind
          · exact execute_keeps fun _ _ _ holds inserted =>
              law.insertDir _ _ _ _ _ holds (valid name List.mem_cons_self) inserted
          · exact fun created => inductionHypothesis restValid _ _
        · apply Keeps.bind (cached_readsOnly _).keeps
          exact fun _ => inductionHypothesis restValid _ _
      · exact inductionHypothesis restValid _ _

theorem createDir_lawful (law : StatementLaw I) (path : String) :
    Keeps (fun db => I db.1) (createDir path) := by
  apply Keeps.bind (cached_readsOnly _).keeps
  rintro (_ | found)
  · cases split : splitFs0PathComponents path with
    | error err => exact fun _ holds => holds
    | ok names =>
        have valid := (splitFs0PathComponents_eq_ok.mp split).2
        exact createDirBelow_lawful law valid _ _
  · exact Keeps.pure

theorem getFileById_keeps (fileId : Nat) : Keeps (fun db => I db.1) (getFileById fileId) :=
  (getFileById_readsOnly fileId).keeps

theorem createFile_lawful (law : StatementLaw I) (path : String) (now : Nat) :
    Keeps (fun db => I db.1) (createFile path now) := by
  apply Keeps.bind Keeps.lift
  rintro ⟨dir, name⟩
  apply Keeps.bind (createDir_lawful law dir)
  intro dirId
  apply Keeps.bind (ensureChildNameAvailable_readsOnly _ _ _ _).keeps
  intro _
  apply Keeps.bind (bindU64_readsOnly _ _).keeps
  intro id
  apply Keeps.bind (bindU64_readsOnly _ _).keeps
  intro createdAtMs
  apply Keeps.bind (execute_keeps fun _ _ _ holds inserted =>
    law.insertFile _ _ _ _ _ _ _ _ holds inserted)
  exact fun fileId => getFileById_keeps fileId

theorem copyFileById_lawful (law : StatementLaw I) (sourceFileId : Nat) (targetPath : String)
    (now : Nat) :
    Keeps (fun db => I db.1) (copyFileById sourceFileId targetPath now) := by
  apply Keeps.bind Keeps.lift
  rintro ⟨targetDir, targetName⟩
  apply Keeps.bind (getFileById_keeps sourceFileId)
  intro source
  apply Keeps.bind (createDir_lawful law targetDir)
  intro dirId
  apply Keeps.bind (ensureChildNameAvailable_readsOnly _ _ _ _).keeps
  intro _
  apply Keeps.bind (bindU64_readsOnly _ _).keeps
  intro id
  apply Keeps.bind (bindU64_readsOnly _ _).keeps
  intro sizeBytes
  apply Keeps.bind (bindU64_readsOnly _ _).keeps
  intro compressedSizeBytes
  apply Keeps.bind (bindU64_readsOnly _ _).keeps
  intro createdAtMs
  apply Keeps.bind (execute_keeps fun _ _ _ holds inserted =>
    law.insertFile _ _ _ _ _ _ _ _ holds inserted)
  exact fun fileId => getFileById_keeps fileId

theorem renameFileById_lawful (law : StatementLaw I) (fileId : Nat) (targetPath : String)
    (now : Nat) :
    Keeps (fun db => I db.1) (renameFileById fileId targetPath now) := by
  apply Keeps.bind Keeps.lift
  rintro ⟨targetDir, targetName⟩
  apply Keeps.bind (createDir_lawful law targetDir)
  intro dirId
  apply Keeps.bind (ensureChildNameAvailable_readsOnly _ _ _ _).keeps
  intro _
  apply Keeps.bind (bindU64_readsOnly _ _).keeps
  intro id
  apply Keeps.bind (bindU64_readsOnly _ _).keeps
  intro dir
  apply Keeps.bind (bindU64_readsOnly _ _).keeps
  intro updatedAtMs
  apply Keeps.bind (execute_keeps fun _ _ _ holds moved =>
    law.moveFile _ _ _ _ _ _ _ holds moved)
  intro changes
  apply Keeps.bind Keeps.require
  exact fun _ => getFileById_keeps fileId

end CentralTx

/-! ## Transactions -/

namespace StatementLaw

open CentralTx CentralTables

variable {before after : CentralTables} {I : CentralTables → Prop}

theorem of_begun (law : StatementLaw I) {request : BeginUpdateRequest} {volumeId now : Nat}
    (holds : I before)
    (ran : (UpdateRequest.beginUpdateTx request volumeId now).RanOn before after) :
    I after := by
  obtain ⟨cache, lease, cache', ran⟩ := ran
  obtain ⟨⟨file, baseSize⟩, db₁, taken, rest⟩ := bind_eq_ok.mp ran
  have holds₁ : I db₁.1 := by
    obtain ⟨found, db₀, attempted, rest⟩ := bind_eq_ok.mp taken
    rw [attempt_apply] at attempted
    obtain ⟨-, rfl⟩ := EStateM.Result.ok.inj attempted
    have looked := (getFileByPath_readsOnly request.path).keeps.endState (s := (before, cache)) holds
    cases found with
    | ok file =>
        obtain ⟨-, ended⟩ := require_bind_eq_ok.mp rest
        obtain ⟨-, rfl⟩ := EStateM.Result.ok.inj ended
        exact looked
    | error err =>
        by_cases missing : err = .notFound
        · subst missing
          obtain ⟨-, rest⟩ := require_bind_eq_ok.mp rest
          obtain ⟨created, db₂, creating, ended⟩ := bind_eq_ok.mp rest
          obtain ⟨-, rfl⟩ := EStateM.Result.ok.inj ended
          exact (createFile_lawful law request.path now).ok looked creating
        · cases err <;> first | cases rest | exact absurd rfl missing
  have rest := deleteExpiredUpdateLeases_bind_eq_ok rest
  obtain ⟨active, db₂, looked, rest⟩ := bind_eq_ok.mp rest
  obtain ⟨-, looked⟩ := bindU64_bind_eq_ok.mp looked
  obtain ⟨-, rfl⟩ := EStateM.Result.ok.inj looked
  obtain ⟨-, rest⟩ := require_bind_eq_ok.mp rest
  obtain ⟨-, -, tables⟩ := createUpdateLease_effect rest
  have sameDirs := congrArg CentralTables.dirs tables
  have sameFiles := congrArg CentralTables.files tables
  exact law.of_files holds₁ sameDirs sameFiles

theorem of_copied (law : StatementLaw I) {sourceFileId now : Nat} {targetPath : String}
    (holds : I before)
    (ran : (ClientRequest.copyFileByIdTx sourceFileId targetPath now).RanOn before after) :
    I after := by
  obtain ⟨cache, record, cache', ran⟩ := ran
  obtain ⟨target, -, rest⟩ := lift_bind_eq_ok.mp ran
  obtain ⟨file, db₁, copied, rest⟩ := bind_eq_ok.mp rest
  have holds₁ := (copyFileById_lawful law _ _ _).ok holds copied
  obtain ⟨_, db₂, bundled, rest⟩ := bind_eq_ok.mp rest
  obtain ⟨bundlesOnly, -⟩ := copyFileBundles_effect bundled
  obtain ⟨_, db₃, logged, recorded⟩ := bind_eq_ok.mp rest
  have tables₃ := congrArg Prod.fst (insertFileChangeLog_effect logged)
  have tables₄ : after = db₃.1 := (fileRecord_readsOnly _).tables_eq recorded
  apply law.of_files holds₁
  · rw [tables₄, tables₃, bundlesOnly]
  · rw [tables₄, tables₃, bundlesOnly]

theorem of_renamed (law : StatementLaw I) {fileId now : Nat} {targetPath : String}
    (holds : I before)
    (ran : (ClientRequest.renameFileByIdTx fileId targetPath now).RanOn before after) :
    I after := by
  obtain ⟨cache, record, cache', ran⟩ := ran
  obtain ⟨target, -, rest⟩ := lift_bind_eq_ok.mp ran
  obtain ⟨file, db₁, renamed, rest⟩ := bind_eq_ok.mp rest
  have holds₁ := (renameFileById_lawful law _ _ _).ok holds renamed
  obtain ⟨_, db₂, logged, recorded⟩ := bind_eq_ok.mp rest
  have tables₂ := congrArg Prod.fst (insertFileChangeLog_effect logged)
  have tables₃ : after = db₂.1 := (fileRecord_readsOnly _).tables_eq recorded
  apply law.of_files holds₁
  · rw [tables₃, tables₂]
  · rw [tables₃, tables₂]

/-- Every transaction keeps a law of the statements. -/
theorem of_ran (law : StatementLaw I) {tx : Transaction} (holds : I before)
    (ran : tx.Ran before after) : I after := by
  have effect := ran.effect
  cases tx with
  | beginUpdate request volumeId now => exact law.of_begun holds ran
  | copyFile sourceFileId targetPath now => exact law.of_copied holds ran
  | renameFile fileId targetPath now => exact law.of_renamed holds ran
  | dropLease leaseId =>
      rw [show after = _ from effect]
      exact law.of_files holds rfl rfl
  | commitUpdate request now =>
      obtain ⟨lease, file, compressedSize, dir, committed⟩ := effect
      rw [committed.others]
      refine law.others before _ holds rfl rfl fun row member => ?_
      obtain ⟨old, oldMem, rfl⟩ := List.mem_map.mp member
      refine ⟨old, oldMem, ?_⟩
      unfold resizedTo
      split <;> exact ⟨rfl, rfl, rfl⟩
  | abortUpdate leaseId fileId =>
      rw [effect.2]
      exact law.of_files holds rfl rfl
  | deleteFile fileId now =>
      rw [effect.2]
      refine law.others before _ holds rfl rfl fun row member => ?_
      exact ⟨row, (SeqTable.mem_delete.mp member).1, rfl, rfl, rfl⟩
  | registerVolumes volumes =>
      rw [show after = { before with volumes := after.volumes } from effect]
      exact law.of_files holds rfl rfl
  | createVolume name maxBytes =>
      rw [show after = _ from effect]
      exact law.of_files holds rfl rfl
  | reportReplicas events =>
      rw [effect.others]
      exact law.of_files holds rfl rfl
  | updateVolumeOffset volumeId maxVolumeOffset =>
      rw [effect.others]
      exact law.of_files holds rfl rfl

/-- A law of the statements holds in every state central reaches. -/
theorem reachable (law : StatementLaw I) {config : CentralConfig} {s : Central}
    (reachable : (central config).Reachable s) : I s.tables := by
  apply reachable.invariant (fun s => I s.tables)
  · rintro _ rfl
    exact law.initial
  · intro s e s' holds taken
    rcases Central.step_ran taken with same | ⟨tx, -, ran⟩
    · rwa [same]
    · exact law.of_ran holds ran

end StatementLaw

namespace CentralTables

theorem rooted_law : StatementLaw Rooted where
  initial := initial_rooted
  insertDir _ _ _ _ _ rooted valid inserted := rooted.insertDir valid inserted
  insertFile _ _ _ _ _ _ _ _ rooted inserted := rooted.insertFile inserted
  moveFile _ _ _ _ _ _ _ rooted moved := rooted.moveFile moved
  others _ _ rooted sameDirs _ sub := rooted.of_sub sameDirs fun file member =>
    let ⟨old, oldMem, _, sameDir, _⟩ := sub file member
    .inl ⟨old, oldMem, sameDir⟩

/-! ## Names and numbers -/

/-- The files of a directory have different names. -/
def NamesDiffer (tables : CentralTables) : Prop :=
  ∀ left ∈ tables.files.rows, ∀ right ∈ tables.files.rows,
    left.dirId = right.dirId → left.name = right.name → left = right

theorem childFile_free {tables : CentralTables} {dirId : Nat} {name : String}
    (free : tables.childFile dirId name = none) :
    ∀ file ∈ tables.files.rows, ¬ (file.dirId = dirId ∧ file.name = name) := by
  intro file member
  have differs := List.find?_eq_none.mp free file member
  simpa using differs

variable {before after : CentralTables}

theorem NamesDiffer.insertFile {dirId sizeBytes compressedSizeBytes now fileId : Nat}
    {name : String} (differ : before.NamesDiffer) (inserted : before.insertFile dirId name sizeBytes
      compressedSizeBytes now = .ok (fileId, after)) : after.NamesDiffer := by
  obtain ⟨free, -, -, -, rfl⟩ := insertFile_eq_ok inserted
  have others := childFile_free free
  intro left leftMem right rightMem sameDir sameName
  rcases List.mem_append.mp leftMem with leftOld | leftNew
  · rcases List.mem_append.mp rightMem with rightOld | rightNew
    · exact differ left leftOld right rightOld sameDir sameName
    · obtain rfl := List.mem_singleton.mp rightNew
      exact absurd ⟨sameDir, sameName⟩ (others left leftOld)
  · obtain rfl := List.mem_singleton.mp leftNew
    rcases List.mem_append.mp rightMem with rightOld | rightNew
    · exact absurd ⟨sameDir.symm, sameName.symm⟩ (others right rightOld)
    · exact (List.mem_singleton.mp rightNew).symm

theorem NamesDiffer.moveFile {fileId dirId now changes : Nat} {name : String}
    (differ : before.NamesDiffer)
    (moved : before.moveFile fileId dirId name now = .ok (changes, after)) : after.NamesDiffer := by
  by_cases unchanged : changes = 0
  · subst unchanged
    rw [moveFile_unchanged moved]
    exact differ
  obtain ⟨-, own, -, rfl⟩ := moveFile_eq_ok moved unchanged
  -- the name is free in the directory, or the file's own
  have others : ∀ file ∈ before.files.rows, file.dirId = dirId → file.name = name →
      file.fileId = fileId := by
    intro file member inDir named
    cases looked : before.childFile dirId name with
    | none => exact absurd ⟨inDir, named⟩ (childFile_free looked file member)
    | some found =>
        obtain ⟨foundMem, foundDir, foundName⟩ := mem_of_childFile looked
        rw [differ file member found foundMem (inDir.trans foundDir.symm)
          (named.trans foundName.symm)]
        exact own found looked
  intro left leftMem right rightMem sameDir sameName
  obtain ⟨leftOld, leftOldMem, rfl⟩ := List.mem_map.mp leftMem
  obtain ⟨rightOld, rightOldMem, rfl⟩ := List.mem_map.mp rightMem
  have same : leftOld = rightOld := by
    unfold movedTo at sameDir sameName
    split at sameDir
    · next leftId =>
      rw [if_pos leftId] at sameName
      split at sameDir
      · next rightId =>
        exact Table.eq_of_key_eq leftOldMem rightOldMem (leftId.trans rightId.symm)
      · next differs =>
        rw [if_neg differs] at sameName
        exact absurd (others rightOld rightOldMem sameDir.symm sameName.symm) differs
    · next leftDiffers =>
      rw [if_neg leftDiffers] at sameName
      split at sameDir
      · next rightId =>
        rw [if_pos rightId] at sameName
        exact absurd (others leftOld leftOldMem sameDir sameName) leftDiffers
      · next rightDiffers =>
        rw [if_neg rightDiffers] at sameName
        exact differ leftOld leftOldMem rightOld rightOldMem sameDir sameName
  rw [same]

theorem namesDiffer_law : StatementLaw NamesDiffer where
  initial := by simp [NamesDiffer, CentralTables.initial, SeqTable.empty]
  insertDir := by
    intro before parent name dirId after differ _ inserted
    have adds := insertDir_addsDirs inserted
    rw [adds.others]
    exact differ
  insertFile _ _ _ _ _ _ _ _ differ inserted := differ.insertFile inserted
  moveFile _ _ _ _ _ _ _ differ moved := differ.moveFile moved
  others := by
    intro before after differ _ _ sub left leftMem right rightMem sameDir sameName
    obtain ⟨leftOld, leftOldMem, leftId, leftDir, leftName⟩ := sub left leftMem
    obtain ⟨rightOld, rightOldMem, rightId, rightDir, rightName⟩ := sub right rightMem
    have same := differ leftOld leftOldMem rightOld rightOldMem
      (leftDir.trans (sameDir.trans rightDir.symm)) (leftName.trans (sameName.trans rightName.symm))
    apply Table.eq_of_key_eq leftMem rightMem
    rw [← leftId, ← rightId, same]

theorem filesFit_law : StatementLaw fun tables => tables.files.seq ≤ i64Max where
  initial := Nat.zero_le _
  insertDir := by
    intro before parent name dirId after fits _ inserted
    have adds := insertDir_addsDirs inserted
    rw [adds.others]
    exact fits
  insertFile := by
    intro before dirId name sizeBytes compressedSizeBytes now fileId after _ inserted
    obtain ⟨-, -, room, -, rfl⟩ := insertFile_eq_ok inserted
    exact room
  moveFile := by
    intro before fileId dirId name now changes after fits moved
    by_cases unchanged : changes = 0
    · subst unchanged
      rwa [moveFile_unchanged moved]
    · obtain ⟨-, -, -, rfl⟩ := moveFile_eq_ok moved unchanged
      exact fits
  others := by
    intro before after fits _ sameSeq _
    rwa [sameSeq]

end CentralTables

/-- In every state central reaches, every file is in a directory of the tree. -/
theorem Central.reachable_rooted {config : CentralConfig} {s : Central}
    (reachable : (central config).Reachable s) : s.tables.Rooted :=
  CentralTables.rooted_law.reachable reachable

/-- In every state central reaches, the number of a file can be bound to a statement. -/
theorem Central.reachable_file_fits {config : CentralConfig} {s : Central} {file : FileRow}
    (reachable : (central config).Reachable s) (member : file ∈ s.tables.files.rows) :
    file.fileId ≤ i64Max :=
  Nat.le_trans (s.tables.files.le_seq file member) (CentralTables.filesFit_law.reachable reachable)

/-! ## Reading paths -/

namespace CentralTx

/-- Whatever the cache holds, the path of a directory can be read. -/
theorem getDirPathById_succeeds {db : CentralDb} (tree : db.1.DirTree) {dirId : Nat}
    (isDir : db.1.IsDir dirId) :
    ∃ path db', getDirPathById dirId db = .ok path db' ∧ db'.1 = db.1 := by
  unfold getDirPathById
  cases looked : (db.2.getPath dirId).1 with
  | some path =>
      have hit : cachedPath dirId db = .ok (some path) (db.1, (db.2.getPath dirId).2) := by
        rw [cachedPath, cached_apply, looked]
      refine ⟨path, (db.1, (db.2.getPath dirId).2), ?_, rfl⟩
      rw [bind_of_ok hit]
      rfl
  | none =>
      have missed : cachedPath dirId db = .ok none (db.1, (db.2.getPath dirId).2) := by
        rw [cachedPath, cached_apply, looked]
      obtain ⟨names, located⟩ := tree.exists_path isDir
      have walked := tree.parentWalk_of_dirAt located (Nat.lt_succ_self _)
      refine ⟨pathOf names, (db.1, (db.2.getPath dirId).2.remember dirId (pathOf names)), ?_, rfl⟩
      rw [bind_of_ok missed]
      dsimp only
      rw [query_bind_eq_ok, walked]
      rfl

/-- Whatever the cache holds, a file has a record. -/
theorem fileRecord_succeeds {db : CentralDb} (tree : db.1.DirTree) {file : FileRow}
    (isDir : db.1.IsDir file.dirId) :
    ∃ path db', fileRecord file db = .ok ⟨file.fileId, path, file.sizeBytes,
      file.compressedSizeBytes, file.createdAtMs, file.updatedAtMs⟩ db' ∧ db'.1 = db.1 := by
  obtain ⟨dir, db₁, found, same⟩ := getDirPathById_succeeds tree isDir
  obtain ⟨path, joined⟩ : ∃ path, joinFs0Path dir file.name = .ok path := by
    unfold joinFs0Path
    split <;> exact ⟨_, rfl⟩
  refine ⟨path, db₁, ?_, same⟩
  rw [fileRecord, bind_of_ok found, joined]
  rfl

end CentralTx

end Fs0
