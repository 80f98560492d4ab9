import Fs0.Central.FileSteps
import Fs0.Central.LeaseRuns

/-!
Contract: the change log of central along its runs.

Owns:
- the events of a file in their order, and the words their kinds form;
- that only moves come before the first commit of a file is logged, and nothing
  after its deletion;
- that the creation of a file is logged once, unless a commit finds it empty again;
- that a listed file without a logged commit is the empty file of an update that
  was begun and never committed.

Does not own: the paths the events carry.
-/

set_option autoImplicit false

namespace Fs0

open Lib Fallible
open CentralTx (filesWith filesMoved filesResized eventsWith newFile_fileId find?_filesWith_of_le
  find?_filesWith_new find?_filesMoved find?_filesResized)

namespace ChangeLog

/-! ## Words -/

/-- `Created (Updated | Moved)* Deleted?`. -/
def OneCreation (word : List FileChangeLogKind) : Prop :=
  ∃ body ending, word = .created :: (body ++ ending) ∧
    (∀ kind ∈ body, kind = .updated ∨ kind = .moved) ∧ (ending = [] ∨ ending = [.deleted])

def Uncommitted (word : List FileChangeLogKind) : Prop := ∀ kind ∈ word, kind = .moved

def Committed (word : List FileChangeLogKind) : Prop :=
  ∃ moves rest, word = moves ++ .created :: rest ∧ Uncommitted moves ∧ .deleted ∉ rest

/-- The word of a file that is present. -/
def Alive (word : List FileChangeLogKind) : Prop := Uncommitted word ∨ Committed word

/-- The word of any file: that of a present one, and at most a deletion after it. -/
def Life (word : List FileChangeLogKind) : Prop :=
  Alive word ∨ ∃ earlier, word = earlier ++ [.deleted] ∧ Alive earlier

/-- `Moved* (Created (Updated | Moved)*)? Deleted?`. -/
def CreatedOnce (word : List FileChangeLogKind) : Prop :=
  ∃ moves rest, word = moves ++ rest ∧ Uncommitted moves ∧
    (rest = [] ∨ rest = [.deleted] ∨ OneCreation rest)

variable {word : List FileChangeLogKind} {kind : FileChangeLogKind}

theorem uncommitted_nil : Uncommitted [] := by simp [Uncommitted]

theorem Uncommitted.created (moves : Uncommitted word) : Committed (word ++ [.created]) :=
  ⟨word, [], rfl, moves, List.not_mem_nil⟩

theorem Uncommitted.moved (moves : Uncommitted word) : Uncommitted (word ++ [.moved]) := by
  intro kind member
  rcases List.mem_append.mp member with old | new
  · exact moves kind old
  · exact List.mem_singleton.mp new

theorem Committed.append (committed : Committed word) (present : kind ≠ .deleted) :
    Committed (word ++ [kind]) := by
  obtain ⟨moves, rest, rfl, isMoves, noDeletion⟩ := committed
  refine ⟨moves, rest ++ [kind], by simp, isMoves, ?_⟩
  intro member
  rcases List.mem_append.mp member with old | new
  · exact noDeletion old
  · exact present (List.mem_singleton.mp new).symm

theorem Committed.mem_created (committed : Committed word) : .created ∈ word := by
  obtain ⟨moves, rest, rfl, -⟩ := committed
  simp

theorem Alive.moved (alive : Alive word) : Alive (word ++ [.moved]) := by
  rcases alive with moves | committed
  · exact .inl moves.moved
  · exact .inr (committed.append (by decide))

theorem Committed.createdOnce (committed : Committed word) (once : word.count .created ≤ 1)
    {ending : List FileChangeLogKind} (ends : ending = [] ∨ ending = [.deleted]) :
    CreatedOnce (word ++ ending) := by
  obtain ⟨moves, rest, rfl, isMoves, noDeletion⟩ := committed
  rw [List.count_append, List.count_cons_self] at once
  have noCreation : .created ∉ rest := List.count_eq_zero.mp (by omega)
  refine ⟨moves, .created :: (rest ++ ending), by simp, isMoves, .inr (.inr ?_)⟩
  refine ⟨rest, ending, rfl, fun kind member => ?_, ends⟩
  cases kind with
  | created => exact absurd member noCreation
  | deleted => exact absurd member noDeletion
  | updated => exact .inl rfl
  | moved => exact .inr rfl

/-- A word with one creation is of the grammar. -/
theorem Life.createdOnce (life : Life word) (once : word.count .created ≤ 1) :
    CreatedOnce word := by
  rcases life with (moves | committed) | ⟨earlier, rfl, moves | committed⟩
  · exact ⟨word, [], (List.append_nil _).symm, moves, .inl rfl⟩
  · exact List.append_nil word ▸ committed.createdOnce once (.inl rfl)
  · exact ⟨earlier, [.deleted], rfl, moves, .inr (.inl rfl)⟩
  · refine committed.createdOnce ?_ (.inr rfl)
    rw [List.count_append] at once
    exact (Nat.le_add_right _ _).trans once

/-! ## Files and their words -/

def kindsOf (tables : CentralTables) (fileId : Nat) : List FileChangeLogKind :=
  (eventsOf tables.fileEvents fileId).map FileEventRow.eventType

/-- What the word of a file says about its content. -/
structure FileLogged (word : List FileChangeLogKind) (content : Option Nat × List FileBundleRow) :
    Prop where
  life : Life word
  alive : ∀ size, content.1 = some size → Alive word
  committed : ∀ size, content.1 = some size → size ≠ 0 ∨ content.2 ≠ [] → Committed word

variable {before after : CentralTables} {fileId : Nat}

theorem FileLogged.preserved (logged : FileLogged (kindsOf before fileId) (before.content fileId))
    (change : CentralTables.FileChange before after fileId) :
    FileLogged (kindsOf after fileId) (after.content fileId) := by
  unfold kindsOf at logged ⊢
  cases change with
  | untouched content events =>
      rw [content, events]
      exact logged
  | begun new content events =>
      rw [content, events]
      refine ⟨.inl (.inl uncommitted_nil), fun _ _ => .inl uncommitted_nil, ?_⟩
      rintro size isSize (nonzero | bundles)
      · exact absurd (Option.some.inj isSize).symm nonzero
      · exact absurd rfl bundles
  | committed request replicas size event known submitted old content kind events =>
      have committed : Committed ((eventsOf before.fileEvents fileId).map FileEventRow.eventType ++
          [event.eventType]) := by
        rw [kind]
        by_cases empty : size = 0
        · rw [if_pos empty]
          rcases logged.alive size old with moves | committed
          · exact moves.created
          · exact committed.append (by decide)
        · rw [if_neg empty]
          exact (logged.committed size old (.inl empty)).append (by decide)
      rw [events, List.map_append, List.map_singleton]
      exact ⟨.inl (.inr committed), fun _ _ => .inr committed, fun _ _ _ => committed⟩
  | deleted event size old content kind events =>
      rw [content, events, List.map_append, List.map_singleton, kind]
      exact ⟨.inr ⟨_, rfl, logged.alive size old⟩, by simp, by simp⟩
  | copied new sourceFileId size event source content kind events =>
      rw [events, List.map_singleton, kind]
      have committed : Committed [.created] := uncommitted_nil.created
      exact ⟨.inl (.inr committed), fun _ _ => .inr committed, fun _ _ _ => committed⟩
  | renamed event size old content kind events =>
      rw [content, events, List.map_append, List.map_singleton, kind]
      refine ⟨.inl (logged.alive size old).moved, fun size old => (logged.alive size old).moved, ?_⟩
      exact fun size old nonempty => (logged.committed size old nonempty).append (by decide)

/-- A commit appends to the word of its file by the size it finds. -/
theorem kindsOf_committed (referring : before.Referring) {request : CommitUpdateRequest}
    {now compressedSize : Nat} {lease : UpdateLeaseRow} {file : FileRow} {dir : String}
    (effect : UpdateCommitted before after request now lease file compressedSize dir) :
    kindsOf after request.fileId = kindsOf before request.fileId ++
      [if file.sizeBytes = 0 then .created else .updated] := by
  unfold kindsOf
  rw [effect.others, eventsOf_eventsWith_self referring.ordered, List.map_append]
  rfl

/-- A creation is logged for a new file, or by a commit that finds its file empty. -/
theorem creation_of_effect {tx : Transaction} (effect : tx.Effect before after) :
    after.fileEvents = before.fileEvents ∨ ∃ kind newTarget logged now,
      after.fileEvents = eventsWith before.fileEvents kind newTarget logged now ∧
      (kind = .created → before.files.seq < logged ∨ (before.content logged).1 = some 0 ∧
        ∃ request now, tx = .commitUpdate request now ∧ request.fileId = logged) := by
  cases tx with
  | commitUpdate request now =>
      obtain ⟨lease, file, compressedSize, dir, committed⟩ := effect
      have events := congrArg CentralTables.fileEvents committed.others
      refine .inr ⟨_, _, _, _, events, fun isCreated => .inr ⟨?_, request, now, rfl, rfl⟩⟩
      by_cases empty : file.sizeBytes = 0
      · exact empty ▸ CentralTables.content_of_find? committed.file_found
      · rw [if_neg empty] at isCreated
        cases isCreated
  | deleteFile deleted now =>
      exact .inr ⟨_, _, _, _, congrArg CentralTables.fileEvents effect.2, nofun⟩
  | copyFile sourceFileId targetPath now =>
      obtain ⟨source, target, dirId, name, copied⟩ := effect
      have events := congrArg CentralTables.fileEvents copied.others
      exact .inr ⟨_, _, _, _, events, fun _ => .inl (Nat.lt_succ_self _)⟩
  | renameFile renamed targetPath now =>
      obtain ⟨file, target, dirId, name, moved⟩ := effect
      exact .inr ⟨_, _, _, _, congrArg CentralTables.fileEvents moved.others, nofun⟩
  | beginUpdate request volumeId now =>
      obtain ⟨granted, file, mid, taken, -, -, -, rfl⟩ := effect
      cases taken <;> exact .inl rfl
  | dropLease leaseId => exact .inl (by rw [show after = _ from effect])
  | abortUpdate leaseId aborted => exact .inl (by rw [effect.2])
  | registerVolumes volumes =>
      exact .inl (by rw [show after = { before with volumes := after.volumes } from effect])
  | createVolume name maxBytes => exact .inl (by rw [show after = _ from effect])
  | reportReplicas events => exact .inl (by rw [effect.others])
  | updateVolumeOffset volumeId maxVolumeOffset => exact .inl (by rw [effect.others])

/-- A transaction logs the creation of a file a second time only when it commits to the file
and finds it empty. -/
theorem created_count_le (referring : before.Referring) {tx : Transaction}
    (effect : tx.Effect before after) (once : (kindsOf before fileId).count .created ≤ 1)
    (fresh : (before.content fileId).1 = some 0 →
      (∃ request now, tx = .commitUpdate request now ∧ request.fileId = fileId) →
      .created ∉ kindsOf before fileId) :
    (kindsOf after fileId).count .created ≤ 1 := by
  rcases creation_of_effect effect with same | ⟨kind, newTarget, logged, now, grown, created⟩
  · rw [kindsOf, same]
    exact once
  by_cases own : fileId = logged
  · subst own
    have word : kindsOf after fileId = kindsOf before fileId ++ [kind] := by
      rw [kindsOf, grown, eventsOf_eventsWith_self referring.ordered, List.map_append]
      rfl
    rw [word, List.count_append]
    by_cases isCreated : kind = .created
    · have none : (kindsOf before fileId).count .created = 0 := by
        rcases created isCreated with new | ⟨empty, commits⟩
        · rw [kindsOf, referring.no_events new]
          rfl
        · exact List.count_eq_zero.mpr (fresh empty commits)
      rw [none, isCreated]
      exact Nat.le_refl 1
    · rw [List.count_singleton, if_neg (by simpa using isCreated)]
      exact once
  · rw [kindsOf, grown, eventsOf_eventsWith_of_ne referring.ordered own]
    exact once

/-- A transaction appends to the word of a file. -/
theorem kindsOf_prefix (referring : before.Referring) {tx : Transaction}
    (effect : tx.Effect before after) (fileId : Nat) : kindsOf before fileId <+: kindsOf after fileId := by
  unfold kindsOf
  cases CentralTables.change_of_step referring (CentralTables.fileStep_of_effect effect) fileId with
  | untouched content events => exact events.symm ▸ List.prefix_refl _
  | begun new content events =>
      rw [referring.no_events new]
      exact List.nil_prefix
  | copied new sourceFileId size event source content kind events =>
      rw [referring.no_events new]
      exact List.nil_prefix
  | committed _ _ _ _ _ _ _ _ _ events =>
      rw [events, List.map_append]
      exact List.prefix_append _ _
  | deleted _ _ _ _ _ events =>
      rw [events, List.map_append]
      exact List.prefix_append _ _
  | renamed _ _ _ _ _ events =>
      rw [events, List.map_append]
      exact List.prefix_append _ _

/-- The creation of a copy is logged. -/
theorem FileCopied.logged (referring : before.Referring) {sourceFileId now dirId : Nat}
    {targetPath name : String} {source file : FileRow} {target : String × String}
    (effect : FileCopied before after sourceFileId targetPath now source target dirId name)
    (absent : before.files.find? fileId = none) (present : after.files.find? fileId = some file) :
    .created ∈ kindsOf after fileId := by
  have others := effect.others
  by_cases new : fileId = before.files.seq + 1
  · subst new
    unfold kindsOf
    rw [others, eventsOf_eventsWith_self referring.ordered, List.map_append]
    exact List.mem_append_right _ List.mem_cons_self
  · rw [others] at present
    have same := SeqTable.find?_push_of_ne (t := before.files)
      (newFile_fileId dirId name source.sizeBytes source.compressedSizeBytes now) new
    cases absent.symm.trans (same.symm.trans present)

/-- What the log of the tables says about their files. -/
structure Logged (tables : CentralTables) : Prop where
  referring : tables.Referring
  files : ∀ fileId, FileLogged (kindsOf tables fileId) (tables.content fileId)

theorem initial_logged : Logged CentralTables.initial where
  referring := CentralTables.initial_referring
  files fileId := ⟨.inl (.inl uncommitted_nil), fun _ _ => .inl uncommitted_nil, by
    intro size present
    cases present⟩

theorem Logged.preserved (logged : Logged before) {tx : Transaction}
    (effect : tx.Effect before after) : Logged after := by
  have step := CentralTables.fileStep_of_effect effect
  refine ⟨logged.referring.preserved step, fun fileId => ?_⟩
  exact (logged.files fileId).preserved (CentralTables.change_of_step logged.referring step fileId)

end ChangeLog

open ChangeLog

/-! ## Runs -/

variable {config : CentralConfig} {s : Central}

theorem reachable_logged (reachable : (central config).Reachable s) : Logged s.tables :=
  Central.tables_invariant Logged initial_logged (fun _ _ _ logged effect => logged.preserved effect)
    reachable

theorem kindsOf_prefix_of_step {s' : Central} {e : CentralEvent}
    (reachable : (central config).Reachable s) (taken : (central config).step s e = some s')
    (fileId : Nat) : kindsOf s.tables fileId <+: kindsOf s'.tables fileId := by
  rcases Central.step_tables taken with same | ⟨tx, -, effect⟩
  · exact same.symm ▸ List.prefix_refl _
  · exact kindsOf_prefix (reachable_logged reachable).referring effect fileId

/-- A commit leaves the creation of its file logged. -/
theorem Commits.logged {t : Transition Central CentralEvent} {leaseId fileId : Nat}
    (commits : Commits config t leaseId fileId) (reachable : (central config).Reachable t.pre)
    (taken : (central config).step t.pre t.event = some t.post) :
    .created ∈ kindsOf t.post.tables fileId := by
  have logged := reachable_logged reachable
  obtain ⟨request, now, lease, file, compressedSize, dir, -, rfl, effect⟩ := commits.effect taken
  have known := CentralTables.content_of_find? effect.file_found
  rw [kindsOf_committed logged.referring effect]
  by_cases empty : file.sizeBytes = 0
  · simp [empty]
  · have earlier := (logged.files request.fileId).committed file.sizeBytes known (.inl empty)
    exact List.mem_append_left _ earlier.mem_created

/-- A file is inserted for an update in this step. -/
def BeginsFile (t : Transition Central CentralEvent) (fileId : Nat) : Prop :=
  (∃ request volumeId now, t.pre.transaction t.event = some (.beginUpdate request volumeId now)) ∧
    t.pre.tables.files.find? fileId = none ∧ ∃ file, t.post.tables.files.find? fileId = some file

/-- A commit finds the file empty although its creation is logged. -/
def RecommitsEmpty (config : CentralConfig) (t : Transition Central CentralEvent)
    (fileId : Nat) : Prop :=
  (∃ leaseId, Commits config t leaseId fileId) ∧ (t.pre.tables.content fileId).1 = some 0 ∧
    .created ∈ kindsOf t.pre.tables fileId

/-- In a run without such a commit, the creation of the file is logged once. -/
theorem created_once_of_run {ts : List (Transition Central CentralEvent)}
    (run : (central config).Run ts s) {fileId : Nat}
    (fresh : ∀ t ∈ ts, ¬ RecommitsEmpty config t fileId) :
    (kindsOf s.tables fileId).count .created ≤ 1 := by
  induction run with
  | init initial =>
      obtain rfl := initial
      exact Nat.zero_le 1
  | @step ts s s' e run taken inductionHypothesis =>
      have once := inductionHypothesis fun t member => fresh t (List.mem_cons_of_mem _ member)
      rcases Central.step_tables taken with same | ⟨tx, isTx, effect⟩
      · rw [same]
        exact once
      · refine created_count_le (reachable_logged run.reachable).referring effect once ?_
        rintro empty ⟨request, now, rfl, rfl⟩ logged
        exact fresh _ List.mem_cons_self ⟨⟨_, commits_of_effect taken isTx effect⟩, empty, logged⟩

/-- A file whose creation is not logged was inserted for an update in the run. -/
theorem exists_begins {ts : List (Transition Central CentralEvent)}
    (run : (central config).Run ts s) {fileId : Nat} {file : FileRow}
    (found : s.tables.files.find? fileId = some file)
    (unlogged : .created ∉ kindsOf s.tables fileId) : ∃ t ∈ ts, BeginsFile t fileId := by
  induction run generalizing file with
  | init initial =>
      obtain rfl := initial
      cases found
  | @step ts s s' e run taken inductionHypothesis =>
      have before : .created ∉ kindsOf s.tables fileId := fun logged =>
        unlogged ((kindsOf_prefix_of_step run.reachable taken fileId).subset logged)
      cases known : s.tables.files.find? fileId with
      | some old =>
          obtain ⟨t, member, begins⟩ := inductionHypothesis known before
          exact ⟨t, List.mem_cons_of_mem _ member, begins⟩
      | none =>
          refine ⟨_, List.mem_cons_self, ?_, known, file, found⟩
          rcases Central.step_tables taken with same | ⟨tx, isTx, effect⟩
          · rw [same, known] at found
            cases found
          · rcases CentralTables.inserts_of_effect effect known found with
              ⟨request, volumeId, now, rfl⟩ | ⟨sourceFileId, targetPath, now, rfl⟩
            · exact ⟨request, volumeId, now, isTx⟩
            · obtain ⟨source, target, dirId, name, copied⟩ := effect
              exact absurd (ChangeLog.FileCopied.logged (reachable_logged run.reachable).referring copied known
                found) unlogged

/-- Every entry of a listing is a file. -/
theorem listDirectory_entry {db db' : CentralDb} {dir : String} {limit : Nat}
    {cursor : Option Nat} {entries : DirectoryEntries}
    (listed : CentralTx.listDirectory dir limit cursor db = .ok entries db')
    {entry : DirectoryEntry} (member : entry ∈ entries.entries) :
    ∃ file ∈ db.1.files.rows, entry.fileId = file.fileId ∧ entry.sizeBytes = file.sizeBytes := by
  obtain ⟨dirId, db₁, resolved, rest⟩ := bind_eq_ok.mp listed
  have same := (CentralTx.getDirIdByPath_readsOnly dir).tables_eq resolved
  obtain ⟨-, rest⟩ := CentralTx.bindU64_bind_eq_ok.mp rest
  obtain ⟨-, rest⟩ := CentralTx.bindU64_bind_eq_ok.mp rest
  obtain ⟨-, rest⟩ := CentralTx.bindU64_bind_eq_ok.mp rest
  rw [CentralTx.query_bind_eq_ok] at rest
  obtain ⟨all, mapped, rest⟩ := lift_bind_eq_ok.mp rest
  have listed : entry ∈ all := by
    split at rest
    · obtain ⟨rfl, -⟩ := EStateM.Result.ok.inj rest
      exact List.mem_of_mem_take member
    · obtain ⟨rfl, -⟩ := EStateM.Result.ok.inj rest
      exact member
  obtain ⟨file, selected, isEntry⟩ := mapM_mem mapped listed
  obtain ⟨path, -, ended⟩ := Fs0Result.bind_eq_ok.mp isEntry
  obtain rfl := Except.ok.inj ended
  have sorted := List.mem_of_mem_drop (List.mem_of_mem_take selected)
  have known := (List.mem_filter.mp ((List.mem_insertionSort _).mp sorted)).1
  exact ⟨file, same ▸ known, rfl, rfl⟩

/-- The creation that a commit has logged stays in the log. -/
theorem created_since_commit {ts : List (Transition Central CentralEvent)}
    (run : (central config).Run ts s) {t : Transition Central CentralEvent} (member : t ∈ ts)
    {leaseId fileId : Nat} (commits : Commits config t leaseId fileId) :
    .created ∈ kindsOf s.tables fileId := by
  obtain ⟨later, earlier, rfl⟩ := List.append_of_mem member
  obtain ⟨runT, takenT⟩ := run.before
  apply run.since (fun s => .created ∈ kindsOf s.tables fileId)
  · exact commits.logged runT.reachable takenT
  · intro u _ reachable logged taken
    exact (kindsOf_prefix_of_step reachable taken fileId).subset logged

/-- In every run, the word of a file is that of a present file, with at most a
deletion after it; its creation is logged once, unless a commit finds it empty after that;
and a listed file whose creation is not logged is the empty file of an update that was begun
and never committed. -/
theorem changeLog_life {ts : List (Transition Central CentralEvent)}
    (run : (central config).Run ts s) (fileId : Nat) :
    Life (kindsOf s.tables fileId) ∧
    ((∀ t ∈ ts, ¬ RecommitsEmpty config t fileId) → CreatedOnce (kindsOf s.tables fileId)) ∧
    ∀ dir limit cursor entries db',
      CentralTx.listDirectory dir limit cursor s.server.db = .ok entries db' →
      ∀ entry ∈ entries.entries, entry.fileId = fileId →
        Alive (kindsOf s.tables fileId) ∧
        (.created ∉ kindsOf s.tables fileId →
          entry.sizeBytes = 0 ∧ s.tables.fileBundlesOf fileId = [] ∧
          (∃ t ∈ ts, BeginsFile t fileId) ∧
          ∀ t ∈ ts, ∀ leaseId, ¬ Commits config t leaseId fileId) := by
  have logged := (reachable_logged run.reachable).files fileId
  refine ⟨logged.life, fun fresh => logged.life.createdOnce (created_once_of_run run fresh), ?_⟩
  rintro dir limit cursor entries db' listed entry member rfl
  obtain ⟨file, fileMem, isFile, size⟩ := listDirectory_entry listed member
  have found : s.tables.files.find? entry.fileId = some file :=
    isFile ▸ Table.find?_isSome_of_mem fileMem
  have present := CentralTables.content_of_find? found
  refine ⟨logged.alive _ present, fun unlogged => ⟨?_, ?_, ?_, ?_⟩⟩
  · by_contra nonzero
    exact unlogged (logged.committed _ present (.inl (size ▸ nonzero))).mem_created
  · by_contra bundles
    exact unlogged (logged.committed _ present (.inr bundles)).mem_created
  · exact exists_begins run found unlogged
  · intro t member leaseId commits
    exact unlogged (created_since_commit run member commits)

/-- A file that is renamed while its first update is under way. -/
def Scenario.renamedFirst : List CentralEvent :=
  registered ++ request 1 3 4 2 (.beginUpdate ⟨"/f", 0, none, none⟩) ++
    request 1 4 2 3 (.renameFile "/f" "/g")

/-- A renamed file gets its data in two updates and is deleted. -/
def Scenario.renamedAndCommitted : List CentralEvent :=
  renamedFirst ++
    request 2 5 1 2 (.reportBundleReplica [⟨1, .stored, 1, bundle, some 5, some 3⟩]) ++
    request 1 6 4 3 (.commitUpdate ⟨1, 1, 0, 5, [⟨bundle, 5, 3⟩]⟩) ++
    request 1 7 3 4 (.beginUpdate ⟨"/g", 0, none, none⟩) ++
    [.run 1 ⟨4, 4, none, .ok (.granted 2)⟩] ++
    request 1 8 4 5 (.commitUpdate ⟨2, 1, 5, 5, [⟨bundle, 5, 3⟩]⟩)

/-- The file 1 is not empty once its creation is logged. -/
def Scenario.filled (s : Central) (_ : CentralEvent) : Bool :=
  decide ((s.tables.content 1).1 ≠ some 0 ∨ .created ∉ kindsOf s.tables 1)

theorem changeLog_life_renamedFirst :
    ∃ ts s, (central Scenario.config).Run ts s ∧
      kindsOf s.tables 1 = [.moved, .created, .updated, .deleted] ∧
      (∀ t ∈ ts, ¬ RecommitsEmpty Scenario.config t 1) ∧
      Life (kindsOf s.tables 1) ∧
      ((∀ t ∈ ts, ¬ RecommitsEmpty Scenario.config t 1) → CreatedOnce (kindsOf s.tables 1)) ∧
      ∀ dir limit cursor entries db',
        CentralTx.listDirectory dir limit cursor s.server.db = .ok entries db' →
        ∀ entry ∈ entries.entries, entry.fileId = 1 →
          Alive (kindsOf s.tables 1) ∧
          (.created ∉ kindsOf s.tables 1 →
            entry.sizeBytes = 0 ∧ s.tables.fileBundlesOf 1 = [] ∧
            (∃ t ∈ ts, BeginsFile t 1) ∧
            ∀ t ∈ ts, ∀ leaseId, ¬ Commits Scenario.config t leaseId 1) := by
  obtain ⟨ts, s, run, filled, kinds⟩ := Scenario.run_of_execWhile Scenario.filled
    (Scenario.renamedAndCommitted ++ Scenario.request 1 9 1 6 (.deleteFileById 1))
    (fun s => kindsOf s.tables 1) [.moved, .created, .updated, .deleted] (by decide +kernel)
  refine ⟨ts, s, run, kinds, ?_, changeLog_life run 1⟩
  rintro t member ⟨-, empty, logged⟩
  rcases of_decide_eq_true (filled t member) with nonempty | unlogged
  · exact nonempty empty
  · exact unlogged logged

/-- The first event of a file may be a move, and a listed file may have no event. -/
theorem changeLog_moved_first :
    ¬ ∀ s, (central Scenario.config).Reachable s →
      (∀ fileId, kindsOf s.tables fileId ≠ [] → OneCreation (kindsOf s.tables fileId)) ∧
      ∀ dir limit cursor entries db',
        CentralTx.listDirectory dir limit cursor s.server.db = .ok entries db' →
        ∀ entry ∈ entries.entries, .created ∈ kindsOf s.tables entry.fileId := by
  intro claimed
  obtain ⟨ts, s, run, -, kinds⟩ := Scenario.run_of_exec Scenario.renamedFirst
    (fun s => kindsOf s.tables 1) [.moved] (by decide +kernel)
  obtain ⟨body, ending, word, -⟩ := (claimed s run.reachable).1 1 (by rw [kinds]; simp)
  rw [kinds] at word
  cases word

end Fs0
