import Fs0.Central.Dir
import Fs0.Lib.NameTree

/-!
Contract: the directory rows as a tree, and the lookups in it without a cache.

Owns:
- the laws of the `dirs` table, and that they make it a tree rooted at id 0;
- the SQL walk from a path to an id and from an id to a path, and that each is
  the tree's walk;
- the effect of inserting and deleting a directory on the tree.

Does not own: the directory cache.
-/

set_option autoImplicit false

namespace Fs0

open Lib

namespace CentralTables

variable {tables tables' : CentralTables}

/-- `child` is the directory called `name` inside `parent`. -/
def DirEdge (tables : CentralTables) (parent : Nat) (name : String) (child : Nat) : Prop :=
  ∃ dir ∈ tables.dirs.rows, dir.dirId = child ∧ dir.parentDirId = some parent ∧ dir.name = name

def IsDir (tables : CentralTables) (dirId : Nat) : Prop :=
  ∃ dir ∈ tables.dirs.rows, dir.dirId = dirId

/-- Following `names` from the root leads to `dirId`. -/
def DirAt (tables : CentralTables) : List String → Nat → Prop :=
  Walk tables.DirEdge rootDirId

/-- The laws of the `dirs` table. -/
structure DirTree (tables : CentralTables) : Prop where
  root_mem : ⟨rootDirId, none, ""⟩ ∈ tables.dirs.rows
  root_only : ∀ dir ∈ tables.dirs.rows, dir.parentDirId = none → dir.dirId = rootDirId
  parent_mem : ∀ dir ∈ tables.dirs.rows, ∀ parent, dir.parentDirId = some parent →
    tables.IsDir parent
  parent_lt : ∀ dir ∈ tables.dirs.rows, ∀ parent, dir.parentDirId = some parent →
    parent < dir.dirId
  name_valid : ∀ dir ∈ tables.dirs.rows, ∀ parent, dir.parentDirId = some parent →
    ValidName dir.name
  name_unique : ∀ left ∈ tables.dirs.rows, ∀ right ∈ tables.dirs.rows, ∀ parent,
    left.parentDirId = some parent → right.parentDirId = some parent → left.name = right.name →
    left = right
  id_fits : ∀ dir ∈ tables.dirs.rows, dir.dirId ≤ i64Max

theorem initial_dirTree : CentralTables.initial.DirTree where
  root_mem := by simp [initial]
  root_only := by simp [initial]
  parent_mem := by simp [initial]
  parent_lt := by simp [initial]
  name_valid := by simp [initial]
  name_unique := by simp [initial]
  id_fits := by simp [initial, rootDirId]

namespace DirTree

/-- The directories form a tree, ranked by their ids. -/
theorem isTree (tree : tables.DirTree) : IsTree tables.IsDir tables.DirEdge rootDirId id where
  root_mem := ⟨_, tree.root_mem, rfl⟩
  child_unique := by
    rintro parent name left right ⟨l, lMem, rfl, lParent, lName⟩ ⟨r, rMem, rfl, rParent, rName⟩
    rw [tree.name_unique l lMem r rMem parent lParent rParent (lName.trans rName.symm)]
  edge_unique := by
    rintro left right child leftName rightName ⟨l, lMem, lId, lParent, rfl⟩
      ⟨r, rMem, rId, rParent, rfl⟩
    obtain rfl := Table.eq_of_key_eq lMem rMem (lId.trans rId.symm)
    exact ⟨Option.some.inj (lParent.symm.trans rParent), rfl⟩
  root_no_parent := by
    rintro parent name ⟨dir, member, isRoot, hasParent, -⟩
    obtain rfl := Table.eq_of_key_eq member tree.root_mem isRoot
    cases hasParent
  has_parent := by
    rintro node ⟨dir, member, rfl⟩ notRoot
    cases hasParent : dir.parentDirId with
    | none => exact absurd (tree.root_only dir member hasParent) notRoot
    | some parent =>
        exact ⟨parent, dir.name, tree.parent_mem dir member parent hasParent,
          tree.parent_lt dir member parent hasParent, dir, member, rfl, hasParent, rfl⟩

theorem names_valid (tree : tables.DirTree) {names : List String} {dirId : Nat}
    (located : tables.DirAt names dirId) : ∀ name ∈ names, ValidName name := by
  induction located with
  | root => simp
  | child _ edge inductionHypothesis =>
      obtain ⟨dir, member, -, hasParent, rfl⟩ := edge
      intro name nameMem
      rcases List.mem_append.mp nameMem with nameMem | nameMem
      · exact inductionHypothesis name nameMem
      · rw [List.mem_singleton.mp nameMem]
        exact tree.name_valid dir member _ hasParent

theorem isDir (tree : tables.DirTree) {names : List String} {dirId : Nat}
    (located : tables.DirAt names dirId) : tables.IsDir dirId := by
  cases located with
  | root => exact ⟨_, tree.root_mem, rfl⟩
  | child _ edge =>
      obtain ⟨dir, member, same, -⟩ := edge
      exact ⟨dir, member, same⟩

theorem fits (tree : tables.DirTree) {dirId : Nat} (member : tables.IsDir dirId) :
    dirId ≤ i64Max := by
  obtain ⟨dir, dirMem, rfl⟩ := member
  exact tree.id_fits dir dirMem

theorem path_unique (tree : tables.DirTree) {left right : List String} {dirId : Nat}
    (leftAt : tables.DirAt left dirId) (rightAt : tables.DirAt right dirId) : left = right :=
  tree.isTree.names_unique leftAt rightAt

theorem id_unique (tree : tables.DirTree) {names : List String} {left right : Nat}
    (leftAt : tables.DirAt names left) (rightAt : tables.DirAt names right) : left = right :=
  tree.isTree.end_unique leftAt rightAt

theorem exists_path (tree : tables.DirTree) {dirId : Nat} (member : tables.IsDir dirId) :
    ∃ names, tables.DirAt names dirId :=
  tree.isTree.exists_walk member

theorem childDir_eq_some (tree : tables.DirTree) {parent child : Nat} {name : String} :
    tables.childDir parent name = some child ↔ tables.DirEdge parent name child := by
  unfold childDir DirEdge
  rw [Option.map_eq_some_iff]
  constructor
  · rintro ⟨dir, found, rfl⟩
    have selected := List.find?_some found
    simp only [decide_eq_true_eq] at selected
    exact ⟨dir, List.mem_of_find?_eq_some found, rfl, selected.1, selected.2⟩
  · rintro ⟨dir, member, rfl, hasParent, rfl⟩
    cases found : tables.dirs.rows.find? fun other =>
        decide (other.parentDirId = some parent ∧ other.name = dir.name) with
    | none =>
        have absent := List.find?_eq_none.mp found dir member
        simp [hasParent] at absent
    | some other =>
        have selected := List.find?_some found
        simp only [decide_eq_true_eq] at selected
        exact ⟨other, rfl, by rw [tree.name_unique other (List.mem_of_find?_eq_some found) dir
          member parent selected.1 hasParent selected.2]⟩

theorem childDir_eq_none (tree : tables.DirTree) {parent : Nat} {name : String} :
    tables.childDir parent name = none ↔ ∀ child, ¬ tables.DirEdge parent name child := by
  rw [Option.eq_none_iff_forall_ne_some]
  exact forall_congr' fun child => (tree.childDir_eq_some).not

end DirTree

/-! ## Lookups without a cache -/

/-- The walk of `get_dir_id_by_path` when every step is answered by the table. -/
def walkDown (tables : CentralTables) : List String → Nat → Fs0Result Nat
  | [], dirId => .ok dirId
  | name :: rest, dirId => do
      let parent ← u64ToI64 dirId "parent_dir_id"
      let child ← okOr (tables.childDir parent name) .notFound
      tables.walkDown rest child

/-- What the SQL walk returns for a path. -/
def dirIdByPath (tables : CentralTables) (path : String) : Fs0Result Nat := do
  let names ← splitFs0PathComponents path
  tables.walkDown names rootDirId

/-- What the SQL walk returns for a directory id. -/
def dirPathById (tables : CentralTables) (dirId : Nat) : Fs0Result String :=
  match tables.parentWalk (dirId + 1) dirId with
  | none => .error (.internal "the walk to the root does not end")
  | some result => result.map pathOf

namespace DirTree

theorem walkDown_eq_ok (tree : tables.DirTree) {done rest : List String} {dirId found : Nat}
    (located : tables.DirAt done dirId) :
    tables.walkDown rest dirId = .ok found ↔ tables.DirAt (done ++ rest) found := by
  induction rest generalizing done dirId with
  | nil =>
      rw [List.append_nil]
      constructor
      · intro same
        cases same
        exact located
      · intro foundAt
        rw [tree.id_unique foundAt located]
        rfl
  | cons name rest inductionHypothesis =>
      have bound : u64ToI64 dirId "parent_dir_id" = .ok dirId :=
        u64ToI64_eq_ok.mpr ⟨tree.fits (tree.isDir located), rfl⟩
      have split : done ++ name :: rest = (done ++ [name]) ++ rest := by simp
      rw [walkDown, bound, Fs0Result.ok_bind, split]
      cases next : tables.childDir dirId name with
      | none =>
          constructor
          · intro failed
            cases failed
          · intro foundAt
            obtain ⟨child, childAt⟩ := foundAt.exists_prefix
            obtain ⟨parent, parentAt, edge⟩ := childAt.last
            rw [tree.id_unique parentAt located] at edge
            exact absurd edge (tree.childDir_eq_none.mp next child)
      | some child =>
          have childAt : tables.DirAt (done ++ [name]) child :=
            located.child (tree.childDir_eq_some.mp next)
          exact inductionHypothesis childAt

/-- A path resolves to the directory its names lead to. -/
theorem dirIdByPath_eq_ok (tree : tables.DirTree) {path : String} {dirId : Nat} :
    tables.dirIdByPath path = .ok dirId ↔
      ∃ names, path = pathOf names ∧ tables.DirAt names dirId := by
  unfold dirIdByPath
  rw [Fs0Result.bind_eq_ok]
  constructor
  · rintro ⟨names, accepted, walked⟩
    obtain ⟨rfl, -⟩ := splitFs0PathComponents_eq_ok.mp accepted
    exact ⟨names, rfl, (tree.walkDown_eq_ok .root).mp walked⟩
  · rintro ⟨names, rfl, located⟩
    exact ⟨names, splitFs0PathComponents_eq_ok.mpr ⟨rfl, tree.names_valid located⟩,
      (tree.walkDown_eq_ok .root).mpr located⟩

theorem parentWalk_of_dirAt (tree : tables.DirTree) {names : List String} {dirId fuel : Nat}
    (located : tables.DirAt names dirId) (enough : dirId < fuel) :
    tables.parentWalk fuel dirId = some (.ok names) := by
  induction located generalizing fuel with
  | root =>
      obtain ⟨fuel, rfl⟩ := Nat.exists_eq_succ_of_ne_zero (Nat.ne_of_gt (Nat.zero_lt_of_lt enough))
      have found : tables.dirs.find? rootDirId = some ⟨rootDirId, none, ""⟩ :=
        Table.find?_eq_some.mpr ⟨tree.root_mem, rfl⟩
      have bound : u64ToI64 rootDirId "dir_id" = .ok rootDirId :=
        u64ToI64_eq_ok.mpr ⟨Nat.zero_le _, rfl⟩
      simp only [parentWalk, bound, found, if_true]
  | @child names parent child name above edge inductionHypothesis =>
      obtain ⟨fuel, rfl⟩ := Nat.exists_eq_succ_of_ne_zero (Nat.ne_of_gt (Nat.zero_lt_of_lt enough))
      obtain ⟨dir, member, rfl, hasParent, rfl⟩ := edge
      have lower := tree.parent_lt dir member parent hasParent
      have notRoot : dir.dirId ≠ rootDirId := Nat.ne_of_gt (Nat.zero_lt_of_lt lower)
      have bound : u64ToI64 dir.dirId "dir_id" = .ok dir.dirId :=
        u64ToI64_eq_ok.mpr ⟨tree.id_fits dir member, rfl⟩
      have found := Table.find?_isSome_of_mem member
      have walked : tables.parentWalk fuel parent = some (.ok names) :=
        inductionHypothesis (by omega)
      simp only [parentWalk, bound, found, notRoot, if_false, hasParent, walked]
      rfl

/-- The walk to the root ends for every id. -/
theorem parentWalk_isSome (tree : tables.DirTree) (dirId : Nat) :
    (tables.parentWalk (dirId + 1) dirId).isSome := by
  by_cases member : tables.IsDir dirId
  · obtain ⟨names, located⟩ := tree.exists_path member
    rw [tree.parentWalk_of_dirAt located (Nat.lt_succ_self _)]
    rfl
  · have absent : tables.dirs.find? dirId = none := by
      rw [Table.find?_eq_none]
      exact fun dir dirMem same => member ⟨dir, dirMem, same⟩
    rw [parentWalk, absent]
    cases u64ToI64 dirId "dir_id" <;> rfl

/-- A directory id has the path of the names that lead to it. -/
theorem dirPathById_eq_ok (tree : tables.DirTree) {path : String} {dirId : Nat} :
    tables.dirPathById dirId = .ok path ↔
      ∃ names, path = pathOf names ∧ tables.DirAt names dirId := by
  unfold dirPathById
  by_cases member : tables.IsDir dirId
  · obtain ⟨names, located⟩ := tree.exists_path member
    rw [tree.parentWalk_of_dirAt located (Nat.lt_succ_self _)]
    constructor
    · intro same
      cases same
      exact ⟨names, rfl, located⟩
    · rintro ⟨others, rfl, otherAt⟩
      rw [tree.path_unique otherAt located]
      rfl
  · have absent : tables.dirs.find? dirId = none := by
      rw [Table.find?_eq_none]
      exact fun dir dirMem same => member ⟨dir, dirMem, same⟩
    rw [parentWalk, absent]
    constructor
    · cases u64ToI64 dirId "dir_id" <;> intro failed <;> cases failed
    · rintro ⟨names, rfl, located⟩
      exact absurd (tree.isDir located) member

end DirTree

/-! ## Inserting and deleting directories -/

theorem le_maxDirId {dir : DirRow} (member : dir ∈ tables.dirs.rows) :
    dir.dirId ≤ tables.maxDirId := by
  unfold maxDirId
  generalize tables.dirs.rows = rows at member
  induction rows with
  | nil => cases member
  | cons head tail inductionHypothesis =>
      rw [List.foldr_cons]
      rcases List.mem_cons.mp member with rfl | member
      · exact Nat.le_max_left _ _
      · exact Nat.le_trans (inductionHypothesis member) (Nat.le_max_right _ _)

/-- Only the directory rows differ, and they have grown at the end. -/
structure AddsDirs (before after : CentralTables) : Prop where
  others : after = { before with dirs := after.dirs }
  rows : ∃ added, after.dirs.rows = before.dirs.rows ++ added

theorem AddsDirs.refl (tables : CentralTables) : AddsDirs tables tables :=
  ⟨rfl, [], by simp⟩

theorem AddsDirs.trans {first second third : CentralTables} (left : AddsDirs first second)
    (right : AddsDirs second third) : AddsDirs first third where
  others := by rw [right.others, left.others]
  rows := by
    obtain ⟨early, earlyRows⟩ := left.rows
    obtain ⟨late, lateRows⟩ := right.rows
    exact ⟨early ++ late, by rw [lateRows, earlyRows, List.append_assoc]⟩

theorem AddsDirs.mem {before after : CentralTables} (adds : AddsDirs before after) {dir : DirRow}
    (member : dir ∈ before.dirs.rows) : dir ∈ after.dirs.rows := by
  obtain ⟨added, rows⟩ := adds.rows
  rw [rows]
  exact List.mem_append_left _ member

theorem AddsDirs.edge {before after : CentralTables} (adds : AddsDirs before after)
    {parent child : Nat} {name : String} (edge : before.DirEdge parent name child) :
    after.DirEdge parent name child := by
  obtain ⟨dir, member, facts⟩ := edge
  exact ⟨dir, adds.mem member, facts⟩

theorem AddsDirs.dirAt {before after : CentralTables} (adds : AddsDirs before after)
    {names : List String} {dirId : Nat} (located : before.DirAt names dirId) :
    after.DirAt names dirId :=
  located.mono fun _ _ _ => adds.edge

theorem insertDir_eq_ok {parent dirId : Nat} {name : String}
    (inserted : tables.insertDir parent name = .ok (dirId, tables')) :
    name ≠ "" ∧ tables.childDir parent name = none ∧ tables.IsDir parent ∧
      tables.maxDirId < i64Max ∧ dirId = tables.maxDirId + 1 ∧
      tables' = { tables with dirs := tables'.dirs } ∧
      tables'.dirs.rows = tables.dirs.rows ++ [⟨dirId, some parent, name⟩] := by
  unfold insertDir at inserted
  split at inserted
  · cases inserted
  next named =>
    split at inserted
    · cases inserted
    next free =>
      split at inserted
      · cases inserted
      next present =>
        split at inserted
        · cases inserted
        next room =>
          split at inserted
          · cases inserted
          next dirs added =>
            cases inserted
            obtain ⟨rows, -⟩ := Table.insert?_eq_some added
            refine ⟨named, by simpa using free, ?_, Nat.lt_of_not_le room, rfl, rfl, rows⟩
            obtain ⟨dir, found⟩ := Option.ne_none_iff_exists'.mp (by simpa using present)
            obtain ⟨member, same⟩ := Table.mem_of_find? found
            exact ⟨dir, member, same⟩

theorem insertDir_addsDirs {parent dirId : Nat} {name : String}
    (inserted : tables.insertDir parent name = .ok (dirId, tables')) : AddsDirs tables tables' := by
  obtain ⟨-, -, -, -, -, others, rows⟩ := insertDir_eq_ok inserted
  exact ⟨others, _, rows⟩

theorem insertDir_edge {parent dirId : Nat} {name : String}
    (inserted : tables.insertDir parent name = .ok (dirId, tables')) :
    tables'.DirEdge parent name dirId := by
  obtain ⟨-, -, -, -, -, -, rows⟩ := insertDir_eq_ok inserted
  exact ⟨⟨dirId, some parent, name⟩, by simp [rows], rfl, rfl, rfl⟩

namespace DirTree

/-- Inserting a directory under a valid name keeps the tree. -/
theorem insertDir (tree : tables.DirTree) {parent dirId : Nat} {name : String}
    (valid : ValidName name) (inserted : tables.insertDir parent name = .ok (dirId, tables')) :
    tables'.DirTree := by
  have adds := insertDir_addsDirs inserted
  obtain ⟨-, free, parentIsDir, room, isNext, -, rows⟩ := insertDir_eq_ok inserted
  have noSibling := tree.childDir_eq_none.mp free
  have cases' : ∀ dir ∈ tables'.dirs.rows,
      dir ∈ tables.dirs.rows ∨ dir = ⟨dirId, some parent, name⟩ := by
    intro dir member
    rw [rows] at member
    simpa using member
  have parentLt : parent < dirId := by
    obtain ⟨dir, member, rfl⟩ := parentIsDir
    rw [isNext]
    exact Nat.lt_succ_of_le (le_maxDirId member)
  constructor
  case root_mem => exact adds.mem tree.root_mem
  case root_only =>
      intro dir member noParent
      rcases cases' dir member with old | rfl
      · exact tree.root_only dir old noParent
      · cases noParent
  case parent_mem =>
      intro dir member p hasParent
      obtain ⟨row, rowMem, same⟩ : tables.IsDir p := by
        rcases cases' dir member with old | rfl
        · exact tree.parent_mem dir old p hasParent
        · rw [← Option.some.inj hasParent]
          exact parentIsDir
      exact ⟨row, adds.mem rowMem, same⟩
  case parent_lt =>
      intro dir member p hasParent
      rcases cases' dir member with old | rfl
      · exact tree.parent_lt dir old p hasParent
      · rw [← Option.some.inj hasParent]
        exact parentLt
  case name_valid =>
      intro dir member p hasParent
      rcases cases' dir member with old | rfl
      · exact tree.name_valid dir old p hasParent
      · exact valid
  case name_unique =>
      intro left leftMem right rightMem p leftParent rightParent same
      rcases cases' left leftMem with leftOld | rfl <;> rcases cases' right rightMem with rightOld | rfl
      · exact tree.name_unique left leftOld right rightOld p leftParent rightParent same
      · rw [← Option.some.inj rightParent] at leftParent
        exact absurd ⟨left, leftOld, rfl, leftParent, same⟩ (noSibling left.dirId)
      · rw [← Option.some.inj leftParent] at rightParent
        exact absurd ⟨right, rightOld, rfl, rightParent, same.symm⟩ (noSibling right.dirId)
      · rfl
  case id_fits =>
      intro dir member
      rcases cases' dir member with old | rfl
      · exact tree.id_fits dir old
      · exact isNext ▸ room

end DirTree

theorem deleteDir_eq_ok {dirId : Nat} {done : Unit}
    (deleted : tables.deleteDir dirId = .ok (done, tables')) :
    (∀ dir ∈ tables.dirs.rows, dir.parentDirId ≠ some dirId) ∧
      (∀ file ∈ tables.files.rows, file.dirId ≠ dirId) ∧
      tables' = { tables with dirs := tables.dirs.delete fun dir => dir.dirId == dirId } := by
  unfold deleteDir at deleted
  split at deleted
  · cases deleted
  next unused =>
    cases deleted
    simp only [List.any_eq_true, decide_eq_true_eq, not_or, not_exists, not_and] at unused
    exact ⟨unused.1, unused.2, rfl⟩

/-- Deleting a childless directory other than the root keeps the tree. -/
theorem DirTree.deleteDir (tree : tables.DirTree) {dirId : Nat} {done : Unit} (notRoot : dirId ≠ rootDirId)
    (deleted : tables.deleteDir dirId = .ok (done, tables')) : tables'.DirTree := by
  obtain ⟨noDirs, -, rfl⟩ := deleteDir_eq_ok deleted
  have kept : ∀ dir, dir ∈ tables.dirs.rows ∧ dir.dirId ≠ dirId ↔
      dir ∈ (tables.dirs.delete fun dir => dir.dirId == dirId).rows := by
    intro dir
    rw [Table.mem_delete]
    simp
  constructor
  case root_mem => exact (kept _).mp ⟨tree.root_mem, fun same => notRoot same.symm⟩
  case root_only => exact fun dir member => tree.root_only dir ((kept dir).mpr member).1
  case parent_mem =>
      intro dir member parent hasParent
      have old := ((kept dir).mpr member).1
      obtain ⟨row, rowMem, rfl⟩ := tree.parent_mem dir old parent hasParent
      exact ⟨row, (kept row).mp ⟨rowMem, fun same => noDirs dir old (same ▸ hasParent)⟩, rfl⟩
  case parent_lt => exact fun dir member => tree.parent_lt dir ((kept dir).mpr member).1
  case name_valid => exact fun dir member => tree.name_valid dir ((kept dir).mpr member).1
  case name_unique =>
      intro left leftMem right rightMem
      exact tree.name_unique left ((kept left).mpr leftMem).1 right ((kept right).mpr rightMem).1
  case id_fits => exact fun dir member => tree.id_fits dir ((kept dir).mpr member).1

/-- Deleting a directory leaves every other one at its path. -/
theorem dirAt_deleteDir {dirId other : Nat} {done : Unit} {names : List String}
    (deleted : tables.deleteDir dirId = .ok (done, tables'))
    (located : tables.DirAt names other) (kept : other ≠ dirId) : tables'.DirAt names other := by
  obtain ⟨noDirs, -, rfl⟩ := deleteDir_eq_ok deleted
  induction located with
  | root => exact .root
  | @child names parent child name above edge inductionHypothesis =>
      obtain ⟨dir, member, rfl, hasParent, rfl⟩ := edge
      have parentKept : parent ≠ dirId := fun same => noDirs dir member (same ▸ hasParent)
      have here : dir ∈ (tables.dirs.delete fun dir => dir.dirId == dirId).rows :=
        Table.mem_delete.mpr ⟨member, by simpa using kept⟩
      exact .child (inductionHypothesis parentKept) ⟨dir, here, rfl, hasParent, rfl⟩

end CentralTables

end Fs0
