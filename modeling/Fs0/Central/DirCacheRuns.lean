import Fs0.Central.Transparency
import Fs0.Lib.Transition

/-!
Contract: sequences of transactions over directories and files.

Owns:
- the operations a transaction is made of, and the system in which every
  transaction is committed;
- the tree, the correspondence of directory ids and paths, and the single use of
  every name in each of its states;
- the system in which a transaction may also be dropped or fail to commit, and
  the condition on those ends under which the directory cache stays transparent.

Does not own: the requests that run these operations.
-/

set_option autoImplicit false

namespace Fs0

open Lib Fallible

/-- The operations on the namespace. -/
inductive NamespaceOp where
  | createDir (path : String)
  | removeDir (path : String)
  | createFile (path : String) (now : Nat)
  | copyFileById (sourceFileId : Nat) (targetPath : String) (now : Nat)
  | renameFileById (fileId : Nat) (targetPath : String) (now : Nat)
  | deleteFileById (fileId : Nat)
  | getDirIdByPath (path : String)
  | getDirPathById (dirId : Nat)
  | fileRecord (file : FileRow)
deriving DecidableEq

/-- Runs an operation for its effect. A caller may go on after a failed one. -/
def NamespaceOp.run (op : NamespaceOp) (db : CentralDb) : CentralDb :=
  match op with
  | .createDir path => endState (CentralTx.createDir path db)
  | .removeDir path => endState (CentralTx.removeDir path db)
  | .createFile path now => endState (CentralTx.createFile path now db)
  | .copyFileById source target now => endState (CentralTx.copyFileById source target now db)
  | .renameFileById fileId target now => endState (CentralTx.renameFileById fileId target now db)
  | .deleteFileById fileId => endState (CentralTx.deleteFileById fileId db)
  | .getDirIdByPath path => endState (CentralTx.getDirIdByPath path db)
  | .getDirPathById dirId => endState (CentralTx.getDirPathById dirId db)
  | .fileRecord file => endState (CentralTx.fileRecord file db)

theorem consistent_of_agree {α : Type} {m : CentralTx α} {db : CentralDb}
    {Q : α → CentralDb → CentralDb → Prop} {E : CentralDb → CentralDb → Prop}
    (agree : Agree (At db.1) m Q E) (consistent : Consistent db)
    (ok : ∀ a left right, Q a left right → SameTables left right)
    (error : ∀ left right, E left right → SameTables left right) : Consistent (endState (m db)) := by
  have ends := agree.triple db (At.refl consistent)
  cases ran : m db with
  | ok a db' =>
      rw [ran] at ends
      exact (ok a db' db' ends).left
  | error err db' =>
      rw [ran] at ends
      exact (error db' db' ends).left

theorem createDir_consistent {db : CentralDb} (consistent : Consistent db) (path : String) :
    Consistent (endState (CentralTx.createDir path db)) := by
  cases split : splitFs0PathComponents path with
  | ok names =>
      obtain ⟨rfl, valid⟩ := splitFs0PathComponents_eq_ok.mp split
      have created := (CentralTx.createDir_agree db.1 valid).triple db
        ((At.refl consistent).growing names)
      cases ran : CentralTx.createDir (pathOf names) db <;> rw [ran] at created
      · exact created.1.same.left
      · exact created.same.left
  | error err =>
      obtain ⟨hit, db', looked, -, consistent', -⟩ := CentralTx.cachedId_spec consistent path
      rw [CentralTx.createDir, bind_of_ok looked]
      cases hit with
      | some found => exact consistent'
      | none =>
          simp only [split]
          exact consistent'

theorem NamespaceOp.run_consistent {db : CentralDb} (consistent : Consistent db)
    (op : NamespaceOp) : Consistent (op.run db) := by
  cases op with
  | createDir path => exact createDir_consistent consistent path
  | removeDir path =>
      exact consistent_of_agree (CentralTx.removeDir_agree path) consistent
        (fun _ _ _ same => same) fun _ _ same => same
  | createFile path now =>
      exact consistent_of_agree (CentralTx.createFile_agree path now) consistent
        (fun _ _ _ ends => ends.1) fun _ _ same => same
  | copyFileById source target now =>
      exact consistent_of_agree (CentralTx.copyFileById_agree source target now) consistent
        (fun _ _ _ ends => ends.1) fun _ _ same => same
  | renameFileById fileId target now =>
      exact consistent_of_agree (CentralTx.renameFileById_agree fileId target now) consistent
        (fun _ _ _ ends => ends.1) fun _ _ same => same
  | deleteFileById fileId =>
      have ends := (CentralTx.deleteFileById_respects fileId).triple db (SameTables.refl consistent)
      show Consistent (endState (CentralTx.deleteFileById fileId db))
      cases ran : CentralTx.deleteFileById fileId db <;> rw [ran] at ends
      · exact ends.left
      · exact ends.left
  | getDirIdByPath path =>
      exact consistent_of_agree (CentralTx.getDirIdByPath_agree path) consistent
        (fun _ _ _ ends => ends.1.same) fun _ _ at' => at'.same
  | getDirPathById dirId =>
      exact consistent_of_agree (CentralTx.getDirPathById_agree dirId) consistent
        (fun _ _ _ ends => ends.1.same) fun _ _ at' => at'.same
  | fileRecord file =>
      exact consistent_of_agree (CentralTx.fileRecord_agree file) consistent
        (fun _ _ _ ends => ends.1.same) fun _ _ at' => at'.same

/-! ## Committed transactions -/

/-- Every transaction runs its operations and is committed. -/
def committedTransactions : System CentralDb (List NamespaceOp) where
  Init db := db = CentralDb.open'
  step db ops := some (ops.foldl (fun db op => op.run db) db)

theorem committedTransactions_consistent {db : CentralDb}
    (reachable : committedTransactions.Reachable db) : Consistent db := by
  apply reachable.invariant Consistent
  · rintro _ rfl
    exact open_consistent
  · intro db ops db' consistent taken
    obtain rfl := Option.some.inj taken
    induction ops generalizing db with
    | nil => exact consistent
    | cons op ops inductionHypothesis =>
        exact inductionHypothesis (op.run db) (op.run_consistent consistent) rfl

/-- The laws the namespace obeys, as its lookups show them. -/
structure NamespaceLaws (db : CentralDb) : Prop where
  tree : IsTree db.1.IsDir db.1.DirEdge rootDirId id
  walk_ends : ∀ dirId, (db.1.parentWalk (dirId + 1) dirId).isSome
  inverse : ∀ path dirId, outcome (CentralTx.getDirIdByPath path db) = .ok dirId ↔
    outcome (CentralTx.getDirPathById dirId db) = .ok path
  dir_has_path : ∀ dir ∈ db.1.dirs.rows, ∃ path,
    outcome (CentralTx.getDirPathById dir.dirId db) = .ok path
  file_not_dir : ∀ file ∈ db.1.files.rows, ∀ child, ¬ db.1.DirEdge file.dirId file.name child
  file_unique : ∀ left ∈ db.1.files.rows, ∀ right ∈ db.1.files.rows,
    left.dirId = right.dirId → left.name = right.name → left = right
  file_found : ∀ file ∈ db.1.files.rows, ∃ record,
    outcome (CentralTx.fileRecord file db) = .ok record ∧
      outcome ((do
        let record ← CentralTx.fileRecord file
        CentralTx.getFileByPath record.path) db) = .ok file

theorem outcome_getDirIdByPath {db : CentralDb} (consistent : Consistent db) (path : String) :
    outcome (CentralTx.getDirIdByPath path db) = db.1.dirIdByPath path := by
  obtain ⟨db', -, -, eq⟩ := CentralTx.getDirIdByPath_eq consistent path
  rw [eq]
  cases db.1.dirIdByPath path <;> rfl

theorem outcome_getDirPathById {db : CentralDb} (consistent : Consistent db) (dirId : Nat) :
    outcome (CentralTx.getDirPathById dirId db) = db.1.dirPathById dirId := by
  obtain ⟨db', -, -, eq⟩ := CentralTx.getDirPathById_eq consistent dirId
  rw [eq]
  cases db.1.dirPathById dirId <;> rfl

/-- The record of a stored file is built, and its path finds the file. -/
theorem fileRecord_ok {db : CentralDb} (consistent : Consistent db) {file : FileRow}
    (member : file ∈ db.1.files.rows) :
    ∃ record db', CentralTx.fileRecord file db = .ok record db' ∧ At db.1 db' db' ∧
      db.1.FileAt record.path file := by
  have laws := consistent.laws
  obtain ⟨names, located⟩ := laws.exists_path (laws.file_dir file member)
  obtain ⟨db', same, consistent', eq⟩ := CentralTx.getDirPathById_eq consistent file.dirId
  rw [laws.dirPathById_eq_ok.mpr ⟨names, rfl, located⟩] at eq
  have joined := joinFs0Path_pathOf file.name (laws.names_valid located)
  refine ⟨⟨file.fileId, pathOf (names ++ [file.name]), file.sizeBytes, file.compressedSizeBytes,
    file.createdAtMs, file.updatedAtMs⟩, db', ?_, same ▸ At.refl consistent',
    member, names, located, rfl⟩
  rw [CentralTx.fileRecord, bind_of_ok eq, joined, bind_of_ok (lift_ok_apply _ _), pure_apply]

theorem Consistent.namespaceLaws {db : CentralDb} (consistent : Consistent db) :
    NamespaceLaws db := by
  have laws := consistent.laws
  constructor
  case tree => exact laws.isTree
  case walk_ends => exact laws.parentWalk_isSome
  case inverse =>
      intro path dirId
      rw [outcome_getDirIdByPath consistent, outcome_getDirPathById consistent,
        laws.dirIdByPath_eq_ok, laws.dirPathById_eq_ok]
  case dir_has_path =>
      intro dir member
      obtain ⟨names, located⟩ := laws.exists_path ⟨dir, member, rfl⟩
      exact ⟨pathOf names, by
        rw [outcome_getDirPathById consistent, laws.dirPathById_eq_ok]
        exact ⟨names, rfl, located⟩⟩
  case file_not_dir => exact laws.file_not_dir
  case file_unique => exact laws.file_name_unique
  case file_found =>
      intro file member
      obtain ⟨record, db', built, at', fileAt⟩ := fileRecord_ok consistent member
      refine ⟨record, by rw [built, outcome_ok], ?_⟩
      obtain ⟨db'', -, -, found⟩ := CentralTx.getFileByPath_eq at'.same.left record.path
      rw [at'.tables, laws.fileByPath_eq_ok.mpr fileAt] at found
      rw [bind_of_ok built, found, lift_ok_apply, outcome_ok]

/-- In every state reached by committed transactions the directories form a tree
whose ids and paths correspond, every child name is used once, and every file is
found at the path of its record. -/
theorem namespaceLaws_of_committed {db : CentralDb}
    (reachable : committedTransactions.Reachable db) : NamespaceLaws db :=
  (committedTransactions_consistent reachable).namespaceLaws

/-- A file in a directory created on its way, found again by its record. -/
theorem namespaceLaws_of_committed_nested :
    ∃ db file, committedTransactions.Reachable db ∧ file ∈ db.1.files.rows ∧
      outcome ((do
        let record ← CentralTx.fileRecord file
        CentralTx.getFileByPath record.path) db) = .ok file := by
  have initial : committedTransactions.Reachable CentralDb.open' := .init rfl
  have reachable := initial.step (e := [.createFile "/a/f" 1]) rfl
  have member : (⟨1, 1, "f", 0, 0, 1, 1⟩ : FileRow) ∈
      (NamespaceOp.run (.createFile "/a/f" 1) CentralDb.open').1.files.rows := by decide
  obtain ⟨record, -, found⟩ := (namespaceLaws_of_committed reachable).file_found _ member
  exact ⟨_, _, reachable, member, found⟩

/-! ## Transactions that end in any way -/

/-- The tables of the last commit, and the tables and cache as the open
transaction, if there is one, sees them. -/
structure TxSession where
  committed : CentralTables
  db : CentralDb
  isOpen : Bool
deriving DecidableEq

inductive TxEvent where
  /-- An operation, in the open transaction or in one opened for it. -/
  | operate (op : NamespaceOp)
  | commit
  /-- `rollback`, or the transaction is dropped. -/
  | rollback
  | commitFails
deriving DecidableEq

namespace TxSession

/-- The transaction ends without a commit. The cache stays as it is. -/
def abort (s : TxSession) : TxSession := ⟨s.committed, (s.committed, s.db.2), false⟩

def step (s : TxSession) : TxEvent → Option TxSession
  | .operate op => some { s with db := op.run s.db, isOpen := true }
  | .commit => if s.isOpen then some ⟨s.db.1, s.db, false⟩ else none
  | .rollback => if s.isOpen then some s.abort else none
  | .commitFails => if s.isOpen then some s.abort else none

/-- A path the cache holds leads through a directory the open transaction has
inserted itself. -/
def CachesInserted (s : TxSession) : Prop :=
  ∃ names dirId part, s.db.2.Holds (pathOf names) dirId ∧ s.db.1.DirAt names dirId ∧
    part <+: names ∧ ∃ dir ∈ s.db.1.dirs.rows, s.db.1.DirAt part dir.dirId ∧
      dir ∉ s.committed.dirs.rows

/-- The end of a transaction leaves no path in the cache that the transaction
made up. -/
def EndsClean (s : TxSession) : TxEvent → Prop
  | .operate _ => True
  | .commit => True
  | .rollback => ¬ s.CachesInserted
  | .commitFails => ¬ s.CachesInserted

/-- With no transaction open, every pair the cache holds is a directory of the
committed table, and every lookup returns what the SQL walk returns. -/
def Transparent (s : TxSession) : Prop :=
  s.isOpen = false →
    (∀ path dirId, s.db.2.Holds path dirId →
      s.committed.dirIdByPath path = .ok dirId ∧ s.committed.dirPathById dirId = .ok path) ∧
    (∀ path, outcome (CentralTx.getDirIdByPath path s.db) = s.committed.dirIdByPath path) ∧
    ∀ dirId, outcome (CentralTx.getDirPathById dirId s.db) = s.committed.dirPathById dirId

structure Inv (s : TxSession) : Prop where
  consistent : Consistent s.db
  committed : s.committed.Namespace
  closed : s.isOpen = false → s.db.1 = s.committed

/-- A path all of whose directories are committed rows leads to the same
directory in the committed table. -/
theorem dirAt_committed {s : TxSession} {names : List String} {dirId : Nat}
    (located : s.db.1.DirAt names dirId)
    (old : ∀ part, part <+: names → ∀ dir ∈ s.db.1.dirs.rows, s.db.1.DirAt part dir.dirId →
      dir ∈ s.committed.dirs.rows) : s.committed.DirAt names dirId := by
  induction located with
  | root => exact .root
  | @child names parent child name above edge inductionHypothesis =>
      have whole := above.child edge
      obtain ⟨dir, member, rfl, hasParent, rfl⟩ := edge
      have shorter : ∀ part, part <+: names → ∀ dir ∈ s.db.1.dirs.rows,
          s.db.1.DirAt part dir.dirId → dir ∈ s.committed.dirs.rows :=
        fun part isPrefix => old part (isPrefix.trans (List.prefix_append _ _))
      have isOld := old _ List.prefix_rfl dir member whole
      exact (inductionHypothesis shorter).child ⟨dir, isOld, rfl, hasParent, rfl⟩

theorem abort_inv {s : TxSession} (inv : s.Inv) (clean : ¬ s.CachesInserted) : s.abort.Inv where
  committed := inv.committed
  closed _ := rfl
  consistent := by
    refine ⟨inv.committed, fun path dirId held => ?_⟩
    obtain ⟨names, rfl, located⟩ := inv.consistent.cache path dirId held
    refine ⟨names, rfl, dirAt_committed located ?_⟩
    intro part isPrefix dir member partAt
    by_contra inserted
    exact clean ⟨names, dirId, part, held, located, isPrefix, dir, member, partAt, inserted⟩

theorem inv_step {s s' : TxSession} {e : TxEvent} (inv : s.Inv) (clean : s.EndsClean e)
    (taken : s.step e = some s') : s'.Inv := by
  cases e with
  | operate op =>
      obtain rfl := Option.some.inj taken
      exact ⟨op.run_consistent inv.consistent, inv.committed, fun closed => by cases closed⟩
  | commit =>
      simp only [step] at taken
      split at taken
      · obtain rfl := Option.some.inj taken
        exact ⟨inv.consistent, inv.consistent.laws, fun _ => rfl⟩
      · cases taken
  | rollback =>
      simp only [step] at taken
      split at taken
      · obtain rfl := Option.some.inj taken
        exact abort_inv inv clean
      · cases taken
  | commitFails =>
      simp only [step] at taken
      split at taken
      · obtain rfl := Option.some.inj taken
        exact abort_inv inv clean
      · cases taken

theorem Inv.transparent {s : TxSession} (inv : s.Inv) : s.Transparent := by
  intro closed
  have same := inv.closed closed
  refine ⟨fun path dirId held => ?_, fun path => ?_, fun dirId => ?_⟩
  · have located := inv.consistent.cache path dirId held
    rw [same] at located
    exact ⟨inv.committed.dirIdByPath_eq_ok.mpr located, inv.committed.dirPathById_eq_ok.mpr located⟩
  · rw [outcome_getDirIdByPath inv.consistent, same]
  · rw [outcome_getDirPathById inv.consistent, same]

end TxSession

/-- Transactions over a new database, each ended in any way. -/
def transactions : System TxSession TxEvent where
  Init s := s = ⟨.initial, CentralDb.open', false⟩
  step := TxSession.step

theorem transactions_init {s : TxSession} (initial : transactions.Init s) : s.Inv := by
  obtain rfl := initial
  exact ⟨open_consistent, CentralTables.initial_namespace, fun _ => rfl⟩

/-- In every run whose transactions all end clean, the cache is transparent
whenever no transaction is open. -/
theorem dirCache_transparent_of_endsClean {ts : List (Transition TxSession TxEvent)}
    {s : TxSession} (run : transactions.Run ts s) (clean : ∀ t ∈ ts, t.pre.EndsClean t.event) :
    ∀ x ∈ visited ts s, x.Transparent := by
  intro x member
  exact (run.invariant_of_guard TxSession.Inv TxSession.EndsClean (fun _ => transactions_init)
    (fun _ _ _ => TxSession.inv_step) clean x member).transparent

/-- Two directories are created, and one that was committed before is looked up
in a transaction that is then dropped. -/
theorem dirCache_transparent_of_endsClean_lookup :
    ∃ ts s, transactions.Run ts s ∧ s.isOpen = false ∧ s.db.2.Holds "/a" 1 ∧ s.Transparent := by
  have initial : transactions.Run [] ⟨.initial, CentralDb.open', false⟩ := .init rfl
  have run := (((initial.step (e := .operate (.createDir "/a/b")) rfl).step (e := .commit) rfl).step
    (e := .operate (.getDirIdByPath "/a")) rfl).step (e := .rollback) rfl
  refine ⟨_, _, run, rfl, .inl ⟨⟨"/a", 1, 6⟩, by decide, rfl, rfl⟩, ?_⟩
  apply dirCache_transparent_of_endsClean run _ _ List.mem_cons_self
  intro t member
  simp only [List.mem_cons, List.not_mem_nil, or_false] at member
  rcases member with rfl | rfl | rfl | rfl
  case inl =>
      rintro ⟨_, _, _, -, -, -, dir, dirMem, -, inserted⟩
      exact inserted dirMem
  all_goals trivial

/-- A directory is created and looked up in a transaction that is then dropped.
The cache keeps its path, which the committed table does not have. -/
theorem dirCache_keeps_dropped_dir :
    ∃ s, transactions.Reachable s ∧ s.isOpen = false ∧ s.db.2.Holds "/a" 1 ∧
      s.committed.dirIdByPath "/a" = .error .notFound ∧ ¬ s.Transparent := by
  have initial : transactions.Reachable ⟨.initial, CentralDb.open', false⟩ := .init rfl
  have reachable := ((initial.step (e := .operate (.createDir "/a")) rfl).step
    (e := .operate (.getDirIdByPath "/a")) rfl).step (e := .rollback) rfl
  have missing : CentralTables.initial.dirIdByPath "/a" = .error .notFound := by decide
  refine ⟨_, reachable, rfl, .inl ⟨⟨"/a", 1, 5⟩, by decide, rfl, rfl⟩, missing, ?_⟩
  intro transparent
  have held := ((transparent rfl).1 "/a" 1 (.inl ⟨⟨"/a", 1, 5⟩, by decide, rfl, rfl⟩)).1
  cases missing.symm.trans held

end Fs0
