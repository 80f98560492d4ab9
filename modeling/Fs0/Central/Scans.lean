import Mathlib.Data.String.Basic
import Fs0.Lib.Listing
import Fs0.Central.ChangeLog
import Fs0.Central.Rooted

/-!
Contract: listing a directory page by page while central goes on.

Owns:
- a page of a listing as a part of the files of the directory in the order of their names;
- the scan that follows the cursors, with any steps of central between two pages;
- that it lists every file that stays exactly once, in order, if as many files as before
  are listed up to the last name returned when the next page is read;
- a scan that misses a file, since the cursor is a number of files.

Does not own: the directory a path leads to.
-/

set_option autoImplicit false

namespace Fs0

open Lib Fallible Listing

/-! ## Files of a directory -/

namespace CentralTables

/-- The files of a directory in the order of their names. -/
def filesIn (tables : CentralTables) (dirId : Nat) : List FileRow :=
  (tables.files.rows.filter fun file => file.dirId = dirId).insertionSort fun left right =>
    left.name ≤ right.name

/-- How many files of a directory are listed up to a name. -/
def countUpTo (tables : CentralTables) (dirId : Nat) (name : String) : Nat :=
  (tables.files.rows.filter fun file => file.dirId = dirId ∧ file.name ≤ name).length

variable {tables : CentralTables} {dirId : Nat}

theorem mem_filesIn {file : FileRow} :
    file ∈ tables.filesIn dirId ↔ file ∈ tables.files.rows ∧ file.dirId = dirId := by
  unfold filesIn
  rw [List.mem_insertionSort, List.mem_filter, decide_eq_true_eq]

theorem filesIn_ordered (differ : tables.NamesDiffer) (dirId : Nat) :
    (tables.filesIn dirId).Pairwise fun left right => left.name < right.name := by
  have total : Std.Total fun left right : FileRow => left.name ≤ right.name :=
    ⟨fun left right => le_total left.name right.name⟩
  have trans : IsTrans FileRow fun left right => left.name ≤ right.name :=
    ⟨fun _ _ _ first second => le_trans first second⟩
  have sorted : (tables.filesIn dirId).Pairwise fun left right => left.name ≤ right.name :=
    List.pairwise_insertionSort _ _
  have perm := List.perm_insertionSort (fun left right : FileRow => left.name ≤ right.name)
    (tables.files.rows.filter fun file => file.dirId = dirId)
  have distinct : (tables.filesIn dirId).Pairwise fun left right => left ≠ right :=
    perm.nodup_iff.mpr ((List.Nodup.of_map _ tables.files.nodup).filter _)
  refine (sorted.and distinct).imp_of_mem fun {left right} leftMem rightMem both => ?_
  apply lt_of_le_of_ne both.1
  intro sameName
  obtain ⟨leftRow, leftDir⟩ := mem_filesIn.mp leftMem
  obtain ⟨rightRow, rightDir⟩ := mem_filesIn.mp rightMem
  exact both.2 (differ left leftRow right rightRow (leftDir.trans rightDir.symm) sameName)

theorem countUpTo_eq (name : String) :
    tables.countUpTo dirId name =
      (tables.filesIn dirId).countP fun file => ¬ name < file.name := by
  have perm := List.perm_insertionSort (fun left right : FileRow => left.name ≤ right.name)
    (tables.files.rows.filter fun file => file.dirId = dirId)
  unfold countUpTo filesIn
  rw [perm.countP_eq, List.countP_eq_length_filter, List.filter_filter]
  congr 1
  apply List.filter_congr
  intro file _
  rw [Bool.eq_iff_iff]
  simp only [Bool.and_eq_true, decide_eq_true_eq, not_lt, and_comm]

end CentralTables

/-! ## Pages -/

/-- The entry of a listing for a file. -/
def entryOf (dir : String) (file : FileRow) : DirectoryEntry :=
  ⟨file.fileId, file.name, (joinFs0Path dir file.name).toOption.getD "", file.sizeBytes,
    file.compressedSizeBytes, file.createdAtMs, file.updatedAtMs⟩

theorem directoryEntry_eq (dir : String) (file : FileRow) :
    CentralTx.directoryEntry dir file = .ok (entryOf dir file) := by
  unfold CentralTx.directoryEntry entryOf joinFs0Path
  split <;> rfl

theorem mapM_directoryEntry (dir : String) (files : List FileRow) :
    files.mapM (CentralTx.directoryEntry dir) = .ok (files.map (entryOf dir)) := by
  rw [mapM_eq_ok, List.forall₂_map_right_iff]
  exact List.forall₂_same.mpr fun file _ => directoryEntry_eq dir file

/-- The page of a listing at an offset. -/
def listingPage (limit offset : Nat) (entries : List DirectoryEntry) : DirectoryEntries :=
  if limit < (entries.drop offset).length then
    ⟨(entries.drop offset).take limit, some (offset + limit)⟩
  else ⟨entries.drop offset, none⟩

theorem listDirectory_eq_ok {dir : String} {limit dirId : Nat} {cursor : Option Nat}
    {db db' : CentralDb} {page : DirectoryEntries}
    (leads : outcome (CentralTx.getDirIdByPath dir db) = .ok dirId)
    (listed : CentralTx.listDirectory dir limit cursor db = .ok page db') :
    page = listingPage (min (max limit 1) 1024) (cursor.getD 0)
      ((db.1.filesIn dirId).map (entryOf dir)) := by
  unfold CentralTx.listDirectory at listed
  generalize min (max limit 1) 1024 = bound at listed ⊢
  obtain ⟨found, db₁, resolved, listed⟩ := bind_eq_ok.mp listed
  have same := (CentralTx.getDirIdByPath_readsOnly dir).tables_eq resolved
  rw [resolved, outcome_ok] at leads
  obtain rfl := Except.ok.inj leads
  obtain ⟨-, listed⟩ := CentralTx.bindU64_bind_eq_ok.mp listed
  obtain ⟨-, listed⟩ := CentralTx.bindU64_bind_eq_ok.mp listed
  obtain ⟨-, listed⟩ := CentralTx.bindU64_bind_eq_ok.mp listed
  rw [CentralTx.query_bind_eq_ok] at listed
  obtain ⟨entries, mapped, listed⟩ := lift_bind_eq_ok.mp listed
  rw [mapM_directoryEntry, same] at mapped
  have isEntries : ((((db.1.filesIn found).map (entryOf dir)).drop (cursor.getD 0)).take
      (bound + 1)) = entries := by
    rw [← List.map_drop, ← List.map_take]
    exact Except.ok.inj mapped
  subst isEntries
  generalize (db.1.filesIn found).map (entryOf dir) = all at listed ⊢
  obtain ⟨more_iff, first, whole⟩ := take_lookahead bound (all.drop (cursor.getD 0))
  unfold listingPage
  rw [first] at listed
  split at listed
  · next more =>
    rw [if_pos (more_iff.mp more)]
    exact (EStateM.Result.ok.inj listed).1.symm
  · next noMore =>
    rw [more_iff] at noMore
    rw [if_neg noMore]
    rw [whole noMore] at listed
    exact (EStateM.Result.ok.inj listed).1.symm

/-! ## Scans -/

/-- A page of a scan, with the tables it was read from. -/
structure ListedPage where
  tables : CentralTables
  page : DirectoryEntries

/-- Central answers a request for a page of the directory the path leads to. -/
def ListsPage (s : Central) (dir : String) (dirId limit : Nat) (cursor : Option Nat)
    (page : DirectoryEntries) : Prop :=
  outcome (CentralTx.getDirIdByPath dir s.server.db) = .ok dirId ∧
    ∃ commit server, ClientRequest.listDirectory commit dir limit cursor s.server =
      .ok (.listDirectory page) server

/-- The pages a client gets that follows the cursors, with the states central goes through
until the last of them. -/
inductive DirectoryScan (config : CentralConfig) (dir : String) (dirId : Nat) :
    Central → Option Nat → List Central → List ListedPage → Prop where
  | last {s : Central} {limit : Nat} {cursor : Option Nat} {page : DirectoryEntries}
      (listed : ListsPage s dir dirId limit cursor page) (final : page.nextCursor = none) :
      DirectoryScan config dir dirId s cursor [s] [⟨s.tables, page⟩]
  | more {s : Central} {limit next : Nat} {cursor : Option Nat} {page : DirectoryEntries}
      {states : List Central} {pages : List ListedPage}
      (listed : ListsPage s dir dirId limit cursor page) (goesOn : page.nextCursor = some next)
      (rest : DirectoryScan config dir dirId s (some next) states pages) :
      DirectoryScan config dir dirId s cursor (s :: states) (⟨s.tables, page⟩ :: pages)
  | step {s s' : Central} {e : CentralEvent} {cursor : Option Nat} {states : List Central}
      {pages : List ListedPage} (taken : (central config).step s e = some s')
      (rest : DirectoryScan config dir dirId s' cursor states pages) :
      DirectoryScan config dir dirId s cursor (s :: states) pages

/-- All entries a scan returns. -/
def entriesOf (pages : List ListedPage) : List DirectoryEntry :=
  pages.flatMap fun listed => listed.page.entries

/-- The file is in the directory under the same name all the time. -/
def Stays (dirId fileId : Nat) (name : String) (states : List Central) : Prop :=
  ∀ s ∈ states, ∃ file, s.tables.files.find? fileId = some file ∧ file.dirId = dirId ∧
    file.name = name

/-- When the next page is read, as many files are listed up to the last name returned as
when it was returned. -/
def Steady (dirId : Nat) : List ListedPage → Prop
  | first :: second :: rest =>
      (∀ last, first.page.entries.getLast? = some last →
        second.tables.countUpTo dirId last.name = first.tables.countUpTo dirId last.name) ∧
      Steady dirId (second :: rest)
  | _ => True

/-- Whether a name comes after the last one returned, if there is one. -/
def Beyond : Option String → String → Prop
  | none, _ => True
  | some last, name => last < name

instance (last : Option String) : DecidablePred (Beyond last) := fun name =>
  match last with
  | none => isTrue trivial
  | some last => inferInstanceAs (Decidable (last < name))

/-- The cursor is the number of files up to the last name returned. -/
def Passed (tables : CentralTables) (dirId : Nat) (last : Option String) (cursor : Option Nat) :
    Prop :=
  cursor.getD 0 = (tables.filesIn dirId).countP fun file => ¬ Beyond last file.name

section Scans

variable {config : CentralConfig} {dir : String} {dirId : Nat} {s : Central}
  {cursor : Option Nat} {states : List Central} {pages : List ListedPage}
  {tables : CentralTables}

theorem Stays.of_cons {fileId : Nat} {name : String}
    (stays : Stays dirId fileId name (s :: states)) : Stays dirId fileId name states :=
  fun x member => stays x (List.mem_cons_of_mem _ member)

/-- Where the cursor has got to, the files that are left come after the last name returned. -/
theorem Passed.drop (differ : tables.NamesDiffer) {last : Option String}
    (passed : Passed tables dirId last cursor) :
    (tables.filesIn dirId).drop (cursor.getD 0) =
      (tables.filesIn dirId).filter fun file => Beyond last file.name := by
  have closed : (tables.filesIn dirId).Pairwise fun left right =>
      ¬ Beyond last right.name → ¬ Beyond last left.name := by
    refine (CentralTables.filesIn_ordered differ dirId).imp ?_
    intro left right less notBeyond beyond
    apply notBeyond
    cases last with
    | none => trivial
    | some last => exact lt_trans beyond less
  rw [passed, (split_at_count closed).2]
  simp only [not_not]

theorem ListsPage.page_eq {limit : Nat} {page : DirectoryEntries}
    (listed : ListsPage s dir dirId limit cursor page) :
    page = listingPage (min (max limit 1) 1024) (cursor.getD 0)
      ((s.tables.filesIn dirId).map (entryOf dir)) := by
  obtain ⟨leads, commit, server, answered⟩ := listed
  obtain ⟨entries, server₁, transacted, ended⟩ := bind_eq_ok.mp answered
  obtain ⟨-, db, body, -⟩ := CentralM.transact_eq_ok transacted
  obtain ⟨same, -⟩ := EStateM.Result.ok.inj ended
  obtain rfl := ControlResponse.listDirectory.inj same
  exact listDirectory_eq_ok leads body

/-- The files a page lists: the next ones, up to the limit if there are more. -/
inductive PageOf (dir : String) (limit offset : Nat) (files : List FileRow) :
    DirectoryEntries → Prop where
  | whole (short : (files.drop offset).length ≤ limit) :
      PageOf dir limit offset files ⟨(files.drop offset).map (entryOf dir), none⟩
  | part (long : limit < (files.drop offset).length) :
      PageOf dir limit offset files
        ⟨((files.drop offset).take limit).map (entryOf dir), some (offset + limit)⟩

theorem listingPage_pageOf (dir : String) (limit offset : Nat) (files : List FileRow) :
    PageOf dir limit offset files (listingPage limit offset (files.map (entryOf dir))) := by
  unfold listingPage
  rw [← List.map_drop, List.length_map]
  split
  · next long =>
    rw [← List.map_take]
    exact .part long
  · next short => exact .whole (Nat.le_of_not_lt short)

theorem ListsPage.pageOf {limit : Nat} {page : DirectoryEntries}
    (listed : ListsPage s dir dirId limit cursor page) :
    PageOf dir (min (max limit 1) 1024) (cursor.getD 0) (s.tables.filesIn dirId) page := by
  rw [listed.page_eq]
  exact listingPage_pageOf dir _ _ _

theorem ListsPage.entry_file {limit : Nat} {page : DirectoryEntries}
    (listed : ListsPage s dir dirId limit cursor page) {entry : DirectoryEntry}
    (member : entry ∈ page.entries) :
    ∃ file ∈ s.tables.filesIn dirId, entry = entryOf dir file := by
  have inDrop : entry ∈ ((s.tables.filesIn dirId).drop (cursor.getD 0)).map (entryOf dir) := by
    cases listed.pageOf with
    | whole short => exact member
    | part long => exact ((List.take_sublist _ _).map _).subset member
  obtain ⟨file, isFile, rfl⟩ := List.mem_map.mp inDrop
  exact ⟨file, List.mem_of_mem_drop isFile, rfl⟩

theorem ListsPage.name_of_stays {limit fileId : Nat} {name : String} {page : DirectoryEntries}
    (listed : ListsPage s dir dirId limit cursor page)
    (stays : ∃ file, s.tables.files.find? fileId = some file ∧ file.dirId = dirId ∧
      file.name = name) {entry : DirectoryEntry} (member : entry ∈ page.entries)
    (sameId : entry.fileId = fileId) : entry.name = name := by
  obtain ⟨file, isFile, rfl⟩ := listed.entry_file member
  obtain ⟨known, found, -, rfl⟩ := stays
  have same := Table.find?_isSome_of_mem (CentralTables.mem_filesIn.mp isFile).1
  rw [show file.fileId = fileId from sameId, found] at same
  rw [Option.some.inj same]
  rfl

/-- What a scan returns of a file that stays has the name of the file. -/
theorem DirectoryScan.name_of_stays (scan : DirectoryScan config dir dirId s cursor states pages)
    {fileId : Nat} {name : String} (stays : Stays dirId fileId name states) :
    ∀ entry ∈ entriesOf pages, entry.fileId = fileId → entry.name = name := by
  induction scan with
  | last listed final =>
      intro entry member sameId
      rw [entriesOf, List.flatMap_singleton] at member
      exact listed.name_of_stays (stays _ List.mem_cons_self) member sameId
  | more listed goesOn rest inductionHypothesis =>
      intro entry member sameId
      rw [entriesOf, List.flatMap_cons] at member
      rcases List.mem_append.mp member with here | later
      · exact listed.name_of_stays (stays _ List.mem_cons_self) here sameId
      · exact inductionHypothesis stays.of_cons entry later sameId
  | step taken rest inductionHypothesis => exact inductionHypothesis stays.of_cons

/-- The pages that are left list the files that come after the last name returned. -/
structure Completes (dirId : Nat) (last : Option String) (states : List Central)
    (pages : List ListedPage) : Prop where
  ordered : (entriesOf pages).Pairwise fun left right => left.name < right.name
  beyond : ∀ entry ∈ entriesOf pages, Beyond last entry.name
  lists : ∀ fileId name, Stays dirId fileId name states → Beyond last name →
    ∃ entry ∈ entriesOf pages, entry.fileId = fileId

variable {limit : Nat} {page : DirectoryEntries} {last : Option String}

theorem completes_last (differ : s.tables.NamesDiffer)
    (listed : ListsPage s dir dirId limit cursor page) (final : page.nextCursor = none)
    (passed : Passed s.tables dirId last cursor) :
    Completes dirId last [s] [⟨s.tables, page⟩] := by
  have isPage := listed.pageOf
  generalize min (max limit 1) 1024 = bound at isPage
  cases isPage with
  | part long => cases final
  | whole short =>
      have left := passed.drop differ
      refine ⟨?_, ?_, ?_⟩ <;> rw [entriesOf, List.flatMap_singleton] <;> dsimp only
      · exact List.pairwise_map.mpr
          ((CentralTables.filesIn_ordered differ dirId).sublist (List.drop_sublist _ _))
      · intro entry member
        rw [left] at member
        obtain ⟨file, isFile, rfl⟩ := List.mem_map.mp member
        exact of_decide_eq_true (List.mem_filter.mp isFile).2
      · intro fileId name stays beyond
        obtain ⟨file, found, inDir, rfl⟩ := stays s List.mem_cons_self
        obtain ⟨isRow, sameId⟩ := Table.mem_of_find? found
        refine ⟨entryOf dir file, List.mem_map.mpr ⟨file, ?_, rfl⟩, sameId⟩
        rw [left]
        exact List.mem_filter.mpr
          ⟨CentralTables.mem_filesIn.mpr ⟨isRow, inDir⟩, decide_eq_true beyond⟩

/-- The last file of a page that is not the last one: the cursor after it is the number of
files up to its name, and the files that are left come later. -/
structure EndsPage (tables : CentralTables) (dirId offset bound : Nat) (file : FileRow) : Prop where
  isLast : (((tables.filesIn dirId).drop offset).take bound).getLast? = some file
  count : tables.countUpTo dirId file.name = offset + bound
  upTo : ∀ other ∈ ((tables.filesIn dirId).drop offset).take bound, other.name ≤ file.name
  later : ∀ other ∈ (tables.filesIn dirId).drop offset,
    other ∉ ((tables.filesIn dirId).drop offset).take bound → file.name < other.name

theorem exists_endsPage (differ : tables.NamesDiffer) {offset bound : Nat} (positive : 0 < bound)
    (long : bound < ((tables.filesIn dirId).drop offset).length) :
    ∃ file, EndsPage tables dirId offset bound file := by
  have ordered := CentralTables.filesIn_ordered differ dirId
  rw [List.length_drop] at long
  have split : (tables.filesIn dirId).take (offset + bound) =
      (tables.filesIn dirId).take offset ++ ((tables.filesIn dirId).drop offset).take bound :=
    List.take_add
  have nonempty : ((tables.filesIn dirId).drop offset).take bound ≠ [] := by
    intro empty
    have len := congrArg List.length empty
    rw [List.length_take, List.length_drop, List.length_nil] at len
    omega
  obtain ⟨file, isLast⟩ := Option.ne_none_iff_exists'.mp fun none =>
    nonempty (List.getLast?_eq_none_iff.mp none)
  have isLastOfAll : ((tables.filesIn dirId).take (offset + bound)).getLast? = some file := by
    rw [split, List.getLast?_append, isLast]
    rfl
  rw [← List.take_append_drop (offset + bound) (tables.filesIn dirId)] at ordered
  refine ⟨file, isLast, ?_, ?_, ?_⟩
  · have count := countP_upTo_last ordered isLastOfAll
    rw [List.take_append_drop, List.length_take] at count
    rw [CentralTables.countUpTo_eq, count]
    omega
  · obtain ⟨init, isInit⟩ := List.getLast?_eq_some_iff.mp isLast
    have inner := (List.pairwise_append.mp ordered).1
    rw [split, isInit] at inner
    intro other member
    rw [isInit] at member
    rcases List.mem_append.mp member with earlier | same
    · have less := (List.pairwise_append.mp (List.pairwise_append.mp inner).2.1).2.2
      exact le_of_lt (less other earlier file List.mem_cons_self)
    · rw [List.mem_singleton.mp same]
  · intro other member noMember
    have dropped : other ∈ (tables.filesIn dirId).drop (offset + bound) := by
      rw [← List.take_append_drop bound ((tables.filesIn dirId).drop offset), List.drop_drop]
        at member
      exact (List.mem_append.mp member).resolve_left noMember
    have isFirst := List.mem_of_getLast? isLastOfAll
    exact (List.pairwise_append.mp ordered).2.2 file isFirst other dropped

theorem Beyond.trans {name later : String} (beyond : Beyond last name) (less : name < later) :
    Beyond last later := by
  cases last with
  | none => trivial
  | some last => exact lt_trans beyond less

theorem completes_more {next : Nat} (differ : s.tables.NamesDiffer)
    (listed : ListsPage s dir dirId limit cursor page) (goesOn : page.nextCursor = some next)
    (passed : Passed s.tables dirId last cursor)
    (rest : ∀ final, page.entries.getLast? = some final →
      s.tables.countUpTo dirId final.name = next →
      Completes dirId (some final.name) states pages) :
    Completes dirId last (s :: states) (⟨s.tables, page⟩ :: pages) := by
  have isPage := listed.pageOf
  have positive : 0 < min (max limit 1) 1024 := by omega
  generalize min (max limit 1) 1024 = bound at isPage positive
  cases isPage with
  | whole short => cases goesOn
  | part long =>
      obtain rfl := Option.some.inj goesOn
      obtain ⟨file, ends⟩ := exists_endsPage differ positive long
      have left := passed.drop differ
      have completes : Completes dirId (some file.name) states pages := by
        apply rest (entryOf dir file) _ ends.count
        rw [List.getLast?_map, ends.isLast]
        rfl
      have fileBeyond : Beyond last file.name := by
        have member := List.mem_of_mem_take (List.mem_of_getLast? ends.isLast)
        rw [left] at member
        exact of_decide_eq_true (List.mem_filter.mp member).2
      refine ⟨?_, ?_, ?_⟩ <;> rw [entriesOf, List.flatMap_cons] <;> dsimp only
      · refine List.pairwise_append.mpr ⟨?_, completes.ordered, ?_⟩
        · exact List.pairwise_map.mpr ((CentralTables.filesIn_ordered differ dirId).sublist
            ((List.take_sublist _ _).trans (List.drop_sublist _ _)))
        · intro entry member other later
          obtain ⟨listedFile, isFile, rfl⟩ := List.mem_map.mp member
          exact lt_of_le_of_lt (ends.upTo listedFile isFile) (completes.beyond other later)
      · intro entry member
        rcases List.mem_append.mp member with here | later
        · obtain ⟨listedFile, isFile, rfl⟩ := List.mem_map.mp here
          have inLeft := List.mem_of_mem_take isFile
          rw [left] at inLeft
          exact of_decide_eq_true (List.mem_filter.mp inLeft).2
        · exact fileBeyond.trans (completes.beyond entry later)
      · intro fileId name stays beyond
        obtain ⟨known, found, inDir, rfl⟩ := stays s List.mem_cons_self
        obtain ⟨isRow, sameId⟩ := Table.mem_of_find? found
        have inLeft : known ∈ (s.tables.filesIn dirId).drop (cursor.getD 0) := by
          rw [left]
          exact List.mem_filter.mpr
            ⟨CentralTables.mem_filesIn.mpr ⟨isRow, inDir⟩, decide_eq_true beyond⟩
        by_cases here : known ∈ ((s.tables.filesIn dirId).drop (cursor.getD 0)).take bound
        · exact ⟨entryOf dir known,
            List.mem_append_left _ (List.mem_map.mpr ⟨known, here, rfl⟩), sameId⟩
        · obtain ⟨entry, member, same⟩ :=
            completes.lists fileId known.name stays.of_cons (ends.later known inLeft here)
          exact ⟨entry, List.mem_append_right _ member, same⟩

theorem DirectoryScan.pages_ne_nil
    (scan : DirectoryScan config dir dirId s cursor states pages) : pages ≠ [] := by
  induction scan with
  | last listed final => exact List.cons_ne_nil _ _
  | more listed goesOn rest inductionHypothesis => exact List.cons_ne_nil _ _
  | step taken rest inductionHypothesis => exact inductionHypothesis

theorem DirectoryScan.completes (scan : DirectoryScan config dir dirId s cursor states pages)
    (reachable : (central config).Reachable s) (steady : Steady dirId pages) {last : Option String}
    (passed : ∀ first, pages.head? = some first → Passed first.tables dirId last cursor) :
    Completes dirId last states pages := by
  induction scan generalizing last with
  | last listed final =>
      have differ := CentralTables.namesDiffer_law.reachable reachable
      exact completes_last differ listed final (passed _ rfl)
  | @more s limit next cursor page states pages listed goesOn rest inductionHypothesis =>
      have differ := CentralTables.namesDiffer_law.reachable reachable
      refine completes_more differ listed goesOn (passed _ rfl) fun final isFinal count => ?_
      cases pages with
      | nil => exact absurd rfl rest.pages_ne_nil
      | cons second pages =>
          obtain ⟨unmoved, steadyRest⟩ := steady
          apply inductionHypothesis reachable steadyRest
          intro first isFirst
          obtain rfl := Option.some.inj isFirst
          have same := unmoved final isFinal
          rw [count, CentralTables.countUpTo_eq] at same
          exact same.symm
  | step taken rest inductionHypothesis =>
      obtain ⟨ordered, beyond, lists⟩ :=
        inductionHypothesis (reachable.step taken) steady passed
      exact ⟨ordered, beyond, fun fileId name stays => lists fileId name stays.of_cons⟩

/-- Ascending names that are all the same are one name. -/
theorem map_name_of_ordered {entries : List DirectoryEntry} {name : String}
    (ordered : entries.Pairwise fun left right => left.name < right.name)
    (named : ∀ entry ∈ entries, entry.name = name) (nonempty : entries ≠ []) :
    entries.map DirectoryEntry.name = [name] := by
  match entries with
  | [] => exact absurd rfl nonempty
  | [entry] => rw [List.map_singleton, named entry List.mem_cons_self]
  | first :: second :: rest =>
      have less := (List.pairwise_cons.mp ordered).1 second List.mem_cons_self
      rw [named first List.mem_cons_self,
        named second (List.mem_cons_of_mem _ List.mem_cons_self)] at less
      exact absurd less (lt_irrefl name)

end Scans

/-- A scan of a directory returns the names in ascending order, and every file that stays in
the directory under its name exactly once, if between two pages the number of files up to the
last name returned does not change. -/
theorem scan_of_steady {config : CentralConfig} {dir : String} {dirId : Nat} {s : Central}
    {states : List Central} {pages : List ListedPage}
    (reachable : (central config).Reachable s)
    (scan : DirectoryScan config dir dirId s none states pages) (steady : Steady dirId pages) :
    (entriesOf pages).Pairwise (fun left right => left.name < right.name) ∧
    ∀ fileId name, Stays dirId fileId name states →
      ((entriesOf pages).filter fun entry => entry.fileId = fileId).map DirectoryEntry.name =
        [name] := by
  have completes : Completes dirId none states pages := by
    apply scan.completes reachable steady
    intro first _
    unfold Passed
    simp [Beyond]
  refine ⟨completes.ordered, fun fileId name stays => ?_⟩
  obtain ⟨entry, member, sameId⟩ := completes.lists fileId name stays trivial
  apply map_name_of_ordered (completes.ordered.filter _)
  · intro other otherMem
    obtain ⟨listed, otherId⟩ := List.mem_filter.mp otherMem
    exact scan.name_of_stays stays other listed (of_decide_eq_true otherId)
  · exact List.ne_nil_of_mem (List.mem_filter.mpr ⟨member, decide_eq_true sameId⟩)

/-! ## Scans of three files -/

/-- States passed on the way extend a scan. -/
theorem DirectoryScan.execWhile {config : CentralConfig} {dir : String} {dirId : Nat}
    {cursor : Option Nat} {pages : List ListedPage} {admits : Central → CentralEvent → Bool}
    (es : List CentralEvent) {s s' : Central} {states : List Central}
    (ends : (central config).execWhile admits s es = some s')
    (rest : DirectoryScan config dir dirId s' cursor states pages) :
    ∃ passed, DirectoryScan config dir dirId s cursor (passed ++ states) pages ∧
      ∀ x ∈ passed, ∃ e, admits x e := by
  induction es generalizing s with
  | nil =>
      obtain rfl := Option.some.inj ends
      exact ⟨[], rest, nofun⟩
  | cons e es inductionHypothesis =>
      unfold System.execWhile at ends
      split at ends
      next admitted =>
        obtain ⟨next, taken, ends⟩ := Option.bind_eq_some_iff.mp ends
        obtain ⟨passed, scan, others⟩ := inductionHypothesis ends
        refine ⟨s :: passed, .step taken scan, ?_⟩
        intro x member
        rcases List.mem_cons.mp member with rfl | later
        · exact ⟨e, admitted⟩
        · exact others x later
      · cases ends

namespace Scenario

/-- The files "/a", "/b" and "/c" are created. -/
def threeFiles : List CentralEvent :=
  registered ++ request 1 3 4 2 (.beginUpdate ⟨"/a", 0, none, none⟩) ++
    request 1 4 5 2 (.beginUpdate ⟨"/b", 0, none, none⟩) ++
    request 1 5 5 2 (.beginUpdate ⟨"/c", 0, none, none⟩)

/-- The page of one file at a cursor, if the path leads to the root. -/
def rootPage (cursor : Option Nat) (s : Central) : Option DirectoryEntries :=
  match outcome (CentralTx.getDirIdByPath "/" s.server.db),
    ClientRequest.listDirectory none "/" 1 cursor s.server with
  | .ok 0, .ok (.listDirectory page) _ => some page
  | _, _ => none

theorem rootPage_lists {cursor : Option Nat} {s : Central} {page : DirectoryEntries}
    (isPage : rootPage cursor s = some page) : ListsPage s "/" 0 1 cursor page := by
  unfold rootPage at isPage
  split at isPage
  · next found server leads answered =>
    obtain rfl := Option.some.inj isPage
    exact ⟨leads, none, server, answered⟩
  · cases isPage

/-- The file "b" has the second id and is in the root. -/
def holdsB (s : Central) : Bool :=
  decide ((s.tables.files.find? 2).map (fun file => (file.dirId, file.name)) = some (0, "b"))

theorem holdsB_stays {states : List Central} (holds : ∀ s ∈ states, holdsB s) :
    Stays 0 2 "b" states := by
  intro s member
  obtain ⟨file, found, same⟩ := Option.map_eq_some_iff.mp (of_decide_eq_true (holds s member))
  obtain ⟨inRoot, isB⟩ := Prod.mk.inj same
  exact ⟨file, found, inRoot, isB⟩

/-- What two pages of one file show when a file is deleted between them: the pages, and how
many files are listed up to "a". -/
def twoPages (path : String) (s : Central) :
    Option ((DirectoryEntries × Nat) × (DirectoryEntries × Nat)) := do
  let first ← rootPage none s
  let s' ← (central config).execWhile (fun s _ => holdsB s) s (request 1 6 2 2 (.deleteFile path))
  let second ← rootPage first.nextCursor s'
  if holdsB s ∧ holdsB s' then
    some ((first, s.tables.countUpTo 0 "a"), (second, s'.tables.countUpTo 0 "a"))
  else none

theorem twoPages_scan {path : String} {first second : DirectoryEntries} {before after next : Nat}
    (computed : ((central config).exec .initial threeFiles).bind (twoPages path) =
      some ((first, before), (second, after)))
    (goesOn : first.nextCursor = some next) (final : second.nextCursor = none) :
    ∃ (s s' : Central) (states : List Central), (central config).Reachable s ∧
      DirectoryScan config "/" 0 s none states [⟨s.tables, first⟩, ⟨s'.tables, second⟩] ∧
      Stays 0 2 "b" states ∧ s.tables.countUpTo 0 "a" = before ∧
      s'.tables.countUpTo 0 "a" = after := by
  obtain ⟨s, ends, computed⟩ := Option.bind_eq_some_iff.mp computed
  obtain ⟨page₁, isFirst, computed⟩ := Option.bind_eq_some_iff.mp computed
  obtain ⟨s', goes, computed⟩ := Option.bind_eq_some_iff.mp computed
  obtain ⟨page₂, isSecond, computed⟩ := Option.bind_eq_some_iff.mp computed
  obtain ⟨⟨holdsFirst, holdsLast⟩, computed⟩ := Option.ite_none_right_eq_some.mp computed
  obtain ⟨same₁, same₂⟩ := Prod.mk.inj (Option.some.inj computed)
  obtain ⟨rfl, rfl⟩ := Prod.mk.inj same₁
  obtain ⟨rfl, rfl⟩ := Prod.mk.inj same₂
  rw [goesOn] at isSecond
  have last : DirectoryScan config "/" 0 s' (some next) [s'] [⟨s'.tables, page₂⟩] :=
    .last (rootPage_lists isSecond) final
  obtain ⟨passed, scan, admitted⟩ := last.execWhile _ goes
  have initial : (central config).Init .initial := rfl
  refine ⟨s, s', s :: (passed ++ [s']), System.exec_reachable _ initial ends,
    .more (rootPage_lists isFirst) goesOn scan, holdsB_stays ?_, rfl, rfl⟩
  intro x member
  rcases List.mem_cons.mp member with rfl | member
  · exact holdsFirst
  · rcases List.mem_append.mp member with between | atEnd
    · obtain ⟨e, admitted⟩ := admitted x between
      exact admitted
    · rw [List.mem_singleton.mp atEnd]
      exact holdsLast

end Scenario

/-- Once "a" is deleted, the second page starts after "b". -/
theorem scan_misses : ¬ ∀ (config : CentralConfig) (dir : String) (dirId : Nat) (s : Central)
    (states : List Central) (pages : List ListedPage), (central config).Reachable s →
    DirectoryScan config dir dirId s none states pages →
    (entriesOf pages).Pairwise (fun left right => left.name < right.name) ∧
    ∀ fileId name, Stays dirId fileId name states →
      ((entriesOf pages).filter fun entry => entry.fileId = fileId).map DirectoryEntry.name =
        [name] := by
  intro claimed
  have computed : ((central Scenario.config).exec .initial Scenario.threeFiles).bind
      (Scenario.twoPages "/a") =
        some ((⟨[⟨1, "a", "/a", 0, 0, 2, 2⟩], some 1⟩, 1),
          (⟨[⟨3, "c", "/c", 0, 0, 2, 2⟩], none⟩, 0)) := by decide +kernel
  obtain ⟨s, s', states, reachable, scan, stays, -, -⟩ :=
    Scenario.twoPages_scan computed rfl rfl
  have once := (claimed _ _ _ _ _ _ reachable scan).2 2 "b" stays
  simp [entriesOf] at once

/-- Deleting "c" leaves the number of files up to "a" as it is. -/
theorem scan_of_steady_deleted : ∃ (s s' : Central) (states : List Central)
    (first second : DirectoryEntries), (central Scenario.config).Reachable s ∧
    DirectoryScan Scenario.config "/" 0 s none states [⟨s.tables, first⟩, ⟨s'.tables, second⟩] ∧
    Stays 0 2 "b" states ∧
    (first.entries ++ second.entries).map DirectoryEntry.name = ["a", "b"] ∧
    (entriesOf [⟨s.tables, first⟩, ⟨s'.tables, second⟩]).Pairwise
      (fun left right => left.name < right.name) ∧
    ∀ fileId name, Stays 0 fileId name states →
      ((entriesOf [⟨s.tables, first⟩, ⟨s'.tables, second⟩]).filter
        fun entry => entry.fileId = fileId).map DirectoryEntry.name = [name] := by
  have computed : ((central Scenario.config).exec .initial Scenario.threeFiles).bind
      (Scenario.twoPages "/c") =
        some ((⟨[⟨1, "a", "/a", 0, 0, 2, 2⟩], some 1⟩, 1),
          (⟨[⟨2, "b", "/b", 0, 0, 2, 2⟩], none⟩, 1)) := by decide +kernel
  obtain ⟨s, s', states, reachable, scan, stays, before, after⟩ :=
    Scenario.twoPages_scan computed rfl rfl
  have steady : Steady 0 [⟨s.tables, ⟨[⟨1, "a", "/a", 0, 0, 2, 2⟩], some 1⟩⟩,
      ⟨s'.tables, ⟨[⟨2, "b", "/b", 0, 0, 2, 2⟩], none⟩⟩] := by
    refine ⟨fun last isLast => ?_, trivial⟩
    obtain rfl := Option.some.inj isLast
    exact after.trans before.symm
  exact ⟨s, s', states, _, _, reachable, scan, stays, rfl, scan_of_steady reachable scan steady⟩

end Fs0
