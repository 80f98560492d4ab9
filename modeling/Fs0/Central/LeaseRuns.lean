import Fs0.Central.FileSteps

/-!
Contract: update leases along the runs of central.

Owns:
- that a file has at most one lease row, and that a lease row keeps the size and
  the bundles of its file as they were when it was created;
- that a commit under a lease is the only one and loses no update.

Does not own: the leases storages hold.
-/

set_option autoImplicit false

namespace Fs0

open Lib Fallible
open CentralTx (find?_filesWith_of_le find?_filesMoved find?_filesResized)

namespace CentralTables

/-- What the leases of a table obey. -/
structure Leases (tables : CentralTables) : Prop where
  unique : ∀ left ∈ tables.updateLeases.rows, ∀ right ∈ tables.updateLeases.rows,
    left.fileId = right.fileId → left = right
  file_exists : ∀ lease ∈ tables.updateLeases.rows, ∃ file,
    tables.files.find? lease.fileId = some file

theorem initial_leases : CentralTables.initial.Leases where
  unique := by simp [initial, SeqTable.empty]
  file_exists := by simp [initial, SeqTable.empty]

variable {before after : CentralTables}

/-- A lease row a transaction leaves in the table, with its file as it was. -/
structure LeaseKept (before after : CentralTables) (lease : UpdateLeaseRow) : Prop where
  mem : lease ∈ before.updateLeases.rows
  content : after.content lease.fileId = before.content lease.fileId

variable {lease : UpdateLeaseRow} {tx : Transaction}

theorem FileTaken.content {now : Nat} {file : FileRow} {mid : CentralTables}
    (taken : FileTaken before now file mid) {fileId : Nat} (known : fileId ≤ before.files.seq) :
    mid.content fileId = before.content fileId := by
  cases taken with
  | existing => rfl
  | created dirs dirId name =>
      apply content_congr
      · exact find?_filesWith_of_le known
      · rfl

/-- Every lease row that is not new is one of the rows before, and its file has
kept its size and its bundles. -/
theorem leaseKept_of_effect (leases : before.Leases) (effect : tx.Effect before after)
    (member : lease ∈ after.updateLeases.rows) (old : lease.leaseId ≤ before.updateLeases.seq) :
    LeaseKept before after lease := by
  have known : lease ∈ before.updateLeases.rows → lease.fileId ≤ before.files.seq := by
    intro leaseMem
    obtain ⟨file, found⟩ := leases.file_exists lease leaseMem
    exact SeqTable.find?_le_seq found
  cases tx with
  | beginUpdate request volumeId now =>
      obtain ⟨granted, file, mid, taken, -, -, -, rfl⟩ := effect
      rcases mem_appended.mp member with kept | rfl
      · have leaseMem := (SeqTable.mem_delete.mp kept).1
        exact ⟨leaseMem, FileTaken.content taken (known leaseMem)⟩
      · exact absurd old (by simp [leaseRow])
  | dropLease leaseId =>
      obtain rfl := effect
      exact ⟨(SeqTable.mem_delete.mp member).1, rfl⟩
  | commitUpdate request now =>
      obtain ⟨row, file, compressedSize, dir, committed⟩ := effect
      have bundles := committed.bundles
      rw [committed.others] at member
      obtain ⟨leaseMem, other⟩ := SeqTable.mem_delete.mp member
      have otherFile : lease.fileId ≠ request.fileId := by
        intro same
        have isRow := leases.unique lease leaseMem row committed.lease_mem
          (same.trans committed.lease_file.symm)
        simp [isRow, committed.lease_id] at other
      refine ⟨leaseMem, content_congr ?_ ?_⟩
      · rw [committed.others, find?_filesResized]
        cases found : before.files.find? lease.fileId with
        | none => rfl
        | some row =>
            have rowId := (Table.mem_of_find? found).2
            rw [Option.map_some, resizedTo, if_neg (rowId ▸ otherFile)]
      · have noNew := filter_eq_nil_of_other lease.fileId
          (bundleRowsFrom request.fileId 0 (request.bundles.map CommittedBundle.bundleId))
          fun row rowMem => bundleRowsFrom_fileId rowMem ▸ otherFile.symm
        rw [bundles, List.filter_append, filter_filter_other otherFile.symm, noNew,
          List.append_nil]
  | abortUpdate leaseId fileId =>
      obtain ⟨-, rfl⟩ := effect
      exact ⟨(SeqTable.mem_delete.mp member).1, rfl⟩
  | deleteFile fileId now =>
      obtain ⟨-, rfl⟩ := effect
      obtain ⟨leaseMem, other⟩ := SeqTable.mem_delete.mp member
      have otherFile : lease.fileId ≠ fileId := by simpa using other
      refine ⟨leaseMem, content_congr ?_ ?_⟩
      · apply Table.find?_delete_of_false
        intro file sameId
        simpa [sameId] using otherFile
      · exact filter_filter_other otherFile.symm _
  | copyFile sourceFileId targetPath now =>
      obtain ⟨source, target, dirId, name, copied⟩ := effect
      have bundles := copied.bundles
      rw [copied.others] at member
      have older := known member
      refine ⟨member, content_congr ?_ ?_⟩
      · rw [copied.others]
        exact find?_filesWith_of_le older
      · have noNew := filter_eq_nil_of_other lease.fileId
          (copiedBundleRows before.fileBundles.rows sourceFileId (before.files.seq + 1))
          fun row rowMem => by rw [copiedBundleRows_fileId rowMem]; omega
        rw [bundles, List.filter_append, noNew, List.append_nil]
  | renameFile fileId targetPath now =>
      obtain ⟨file, target, dirId, name, renamed⟩ := effect
      rw [renamed.others] at member
      refine ⟨member, ?_⟩
      unfold content fileBundlesOf
      rw [renamed.others]
      dsimp only
      rw [find?_filesMoved, Option.map_map]
      congr 2
      funext row
      simp only [Function.comp_apply, movedTo]
      split <;> rfl
  | registerVolumes volumes =>
      rw [show after = { before with volumes := after.volumes } from effect] at member ⊢
      exact ⟨member, rfl⟩
  | createVolume name maxBytes =>
      obtain rfl := effect
      exact ⟨member, rfl⟩
  | reportReplicas events =>
      rw [effect.others] at member ⊢
      exact ⟨member, rfl⟩
  | updateVolumeOffset volumeId maxVolumeOffset =>
      rw [effect.others] at member ⊢
      exact ⟨member, rfl⟩

theorem updateLeases_seq_le (effect : tx.Effect before after) :
    before.updateLeases.seq ≤ after.updateLeases.seq := by
  cases tx with
  | beginUpdate request volumeId now =>
      obtain ⟨granted, file, mid, -, -, -, -, rfl⟩ := effect
      exact Nat.le_succ _
  | dropLease leaseId => exact Nat.le_of_eq (by rw [show after = _ from effect]; rfl)
  | commitUpdate request now =>
      obtain ⟨row, file, compressedSize, dir, committed⟩ := effect
      exact Nat.le_of_eq (by rw [committed.others]; rfl)
  | abortUpdate leaseId fileId => exact Nat.le_of_eq (by rw [effect.2]; rfl)
  | deleteFile fileId now => exact Nat.le_of_eq (by rw [effect.2]; rfl)
  | copyFile sourceFileId targetPath now =>
      obtain ⟨source, target, dirId, name, copied⟩ := effect
      exact Nat.le_of_eq (by rw [copied.others])
  | renameFile fileId targetPath now =>
      obtain ⟨file, target, dirId, name, renamed⟩ := effect
      exact Nat.le_of_eq (by rw [renamed.others])
  | registerVolumes volumes =>
      exact Nat.le_of_eq (by rw [show after = { before with volumes := after.volumes } from effect])
  | createVolume name maxBytes => exact Nat.le_of_eq (by rw [show after = _ from effect])
  | reportReplicas events => exact Nat.le_of_eq (by rw [effect.others])
  | updateVolumeOffset volumeId maxVolumeOffset => exact Nat.le_of_eq (by rw [effect.others])

/-- A new lease row is the only one of its file, and its file exists. -/
theorem newLease_of_effect (effect : tx.Effect before after)
    (member : lease ∈ after.updateLeases.rows) (new : before.updateLeases.seq < lease.leaseId) :
    (∀ other ∈ after.updateLeases.rows, other.fileId = lease.fileId → other = lease) ∧
      ∃ file, after.files.find? lease.fileId = some file := by
  have notOld : lease ∉ before.updateLeases.rows :=
    fun old => Nat.not_lt.mpr (before.updateLeases.le_seq lease old) new
  cases tx with
  | beginUpdate request volumeId now =>
      obtain ⟨granted, file, mid, taken, -, rfl, free, rfl⟩ := effect
      rcases mem_appended.mp member with kept | rfl
      · exact absurd (SeqTable.mem_delete.mp kept).1 notOld
      refine ⟨?_, ?_⟩
      · intro other otherMem same
        rcases mem_appended.mp otherMem with kept | rfl
        · obtain ⟨old, unexpired⟩ := SeqTable.mem_delete.mp kept
          exact absurd same (free other old (by simpa using unexpired))
        · rfl
      · cases taken with
        | existing fileMem => exact ⟨file, Table.find?_isSome_of_mem fileMem⟩
        | created dirs dirId name => exact ⟨_, CentralTx.find?_filesWith_new⟩
  | dropLease leaseId =>
      rw [show after = _ from effect] at member
      exact absurd (SeqTable.mem_delete.mp member).1 notOld
  | commitUpdate request now =>
      obtain ⟨row, file, compressedSize, dir, committed⟩ := effect
      rw [committed.others] at member
      exact absurd (SeqTable.mem_delete.mp member).1 notOld
  | abortUpdate leaseId fileId =>
      rw [effect.2] at member
      exact absurd (SeqTable.mem_delete.mp member).1 notOld
  | deleteFile fileId now =>
      rw [effect.2] at member
      exact absurd (SeqTable.mem_delete.mp member).1 notOld
  | copyFile sourceFileId targetPath now =>
      obtain ⟨source, target, dirId, name, copied⟩ := effect
      rw [copied.others] at member
      exact absurd member notOld
  | renameFile fileId targetPath now =>
      obtain ⟨file, target, dirId, name, renamed⟩ := effect
      rw [renamed.others] at member
      exact absurd member notOld
  | registerVolumes volumes =>
      rw [show after = { before with volumes := after.volumes } from effect] at member
      exact absurd member notOld
  | createVolume name maxBytes =>
      rw [show after = _ from effect] at member
      exact absurd member notOld
  | reportReplicas events =>
      rw [effect.others] at member
      exact absurd member notOld
  | updateVolumeOffset volumeId maxVolumeOffset =>
      rw [effect.others] at member
      exact absurd member notOld

theorem Leases.preserved (leases : before.Leases) (effect : tx.Effect before after) :
    after.Leases := by
  constructor
  case unique =>
      intro left leftMem right rightMem same
      by_cases leftNew : before.updateLeases.seq < left.leaseId
      · exact ((newLease_of_effect effect leftMem leftNew).1 right rightMem same.symm).symm
      by_cases rightNew : before.updateLeases.seq < right.leaseId
      · exact (newLease_of_effect effect rightMem rightNew).1 left leftMem same
      have leftKept := leaseKept_of_effect leases effect leftMem (Nat.not_lt.mp leftNew)
      have rightKept := leaseKept_of_effect leases effect rightMem (Nat.not_lt.mp rightNew)
      exact leases.unique left leftKept.mem right rightKept.mem same
  case file_exists =>
      intro lease member
      by_cases new : before.updateLeases.seq < lease.leaseId
      · exact (newLease_of_effect effect member new).2
      · have kept := leaseKept_of_effect leases effect member (Nat.not_lt.mp new)
        obtain ⟨file, found⟩ := leases.file_exists lease kept.mem
        have sameSize := congrArg Prod.fst kept.content
        unfold content at sameSize
        rw [found] at sameSize
        obtain ⟨file', found', -⟩ := Option.map_eq_some_iff.mp sameSize
        exact ⟨file', found'⟩

end CentralTables

/-! ## Runs -/

variable {config : CentralConfig}

/-- `CommitUpdate` under a lease on a file succeeds in this step. -/
def Commits (config : CentralConfig) (t : Transition Central CentralEvent)
    (leaseId fileId : Nat) : Prop :=
  ∃ c inputs conn handling request storageId progress server,
    t.event = .run c inputs ∧
    Central.Runs config t.pre c inputs conn handling (.ok progress server) ∧
    handling.handler = .commitUpdate request storageId ∧
    request.leaseId = leaseId ∧ request.fileId = fileId

/-- The row of a lease on a file is created in this step. -/
def CreatesLease (t : Transition Central CentralEvent) (leaseId fileId : Nat) : Prop :=
  (∀ row ∈ t.pre.tables.updateLeases.rows, row.leaseId ≠ leaseId) ∧
    ∃ row ∈ t.post.tables.updateLeases.rows, row.leaseId = leaseId ∧ row.fileId = fileId

theorem reachable_leases {s : Central} (reachable : (central config).Reachable s) :
    s.tables.Leases :=
  Central.tables_invariant CentralTables.Leases CentralTables.initial_leases
    (fun _ _ _ leases effect => leases.preserved effect) reachable

/-- What a commit does to the tables. -/
theorem Commits.effect {t : Transition Central CentralEvent} {leaseId fileId : Nat}
    (commits : Commits config t leaseId fileId)
    (taken : (central config).step t.pre t.event = some t.post) :
    ∃ request now lease file compressedSize dir, request.leaseId = leaseId ∧
      request.fileId = fileId ∧ UpdateCommitted t.pre.tables t.post.tables request now lease file
        compressedSize dir := by
  obtain ⟨c, inputs, conn, handling, request, storageId, progress, server, isRun, runs, isCommit,
    sameLease, sameFile⟩ := commits
  rw [isRun] at taken
  obtain ⟨conn', handling', result, runs', post⟩ := Central.step_run taken
  obtain rfl := Option.some.inj (runs.found.symm.trans runs'.found)
  obtain rfl := Option.some.inj (runs.handles.symm.trans runs'.handles)
  have ran := runs.ran
  obtain rfl := ran.symm.trans runs'.ran
  rw [isCommit] at ran
  obtain ⟨record, server', committed, ended⟩ := Fallible.bind_eq_ok.mp ran
  obtain ⟨-, rfl⟩ := EStateM.Result.ok.inj ended
  obtain ⟨-, db, body, rfl⟩ := CentralM.transact_eq_ok committed
  obtain ⟨lease, file, compressedSize, dir, effect⟩ := UpdateRequest.commitUpdateTx_effect body
  refine ⟨request, inputs.now, lease, file, compressedSize, dir, sameLease, sameFile, ?_⟩
  rw [post, Central.tables, Central.tables, Central.advance_server, endState_ok]
  exact effect

/-- The transaction of a commit takes effect only when the commit succeeds. -/
theorem commits_of_effect {s s' : Central} {e : CentralEvent} {request : CommitUpdateRequest}
    {now : Nat} (taken : (central config).step s e = some s')
    (isTx : s.transaction e = some (.commitUpdate request now))
    (effect : (Transaction.commitUpdate request now).Effect s.tables s'.tables) :
    Commits config ⟨s, e, s'⟩ request.leaseId request.fileId := by
  cases e with
  | run c inputs =>
      obtain ⟨conn, handling, result, runs, rfl⟩ := Central.step_run taken
      obtain ⟨storageId, isCommit⟩ := Handler.commitUpdate_of_transaction
        (runs.transaction_eq.symm.trans isTx)
      cases result with
      | ok progress server =>
          exact ⟨c, inputs, conn, handling, request, storageId, progress, server, rfl, runs,
            isCommit, rfl, rfl⟩
      | error err server =>
          have ran := runs.ran
          rw [isCommit] at ran
          rcases Fallible.bind_eq_error.mp ran with failed | ⟨record, committed, -, ended⟩
          case inr => cases ended
          rw [Central.tables, Central.tables, Central.advance_server, endState_error,
            CentralM.transact_eq_error failed] at effect
          obtain ⟨lease, file, compressedSize, dir, committed⟩ := effect
          have events := congrArg CentralTables.fileEvents committed.others
          exact absurd (congrArg SeqTable.seq events) (Nat.ne_of_lt (Nat.lt_succ_self _))
  | _ => cases isTx

/-- A commit finds the row of its lease and takes it out of the table. -/
theorem Commits.lease {t : Transition Central CentralEvent} {leaseId fileId : Nat}
    (commits : Commits config t leaseId fileId)
    (taken : (central config).step t.pre t.event = some t.post) :
    (∃ row ∈ t.pre.tables.updateLeases.rows, row.leaseId = leaseId ∧ row.fileId = fileId) ∧
      ∀ row ∈ t.post.tables.updateLeases.rows, row.leaseId ≠ leaseId := by
  obtain ⟨request, now, row, file, compressedSize, dir, rfl, rfl, effect⟩ := commits.effect taken
  refine ⟨⟨row, effect.lease_mem, effect.lease_id, effect.lease_file⟩, ?_⟩
  intro other member
  rw [effect.others] at member
  simpa using (SeqTable.mem_delete.mp member).2

section Steps

variable {s s' : Central} {e : CentralEvent}

theorem step_lease_seq_le (taken : (central config).step s e = some s') :
    s.tables.updateLeases.seq ≤ s'.tables.updateLeases.seq := by
  rcases Central.step_tables taken with same | ⟨tx, -, effect⟩
  · rw [same]
  · exact CentralTables.updateLeases_seq_le effect

theorem step_leaseKept (reachable : (central config).Reachable s)
    (taken : (central config).step s e = some s') {lease : UpdateLeaseRow}
    (member : lease ∈ s'.tables.updateLeases.rows)
    (old : lease.leaseId ≤ s.tables.updateLeases.seq) :
    CentralTables.LeaseKept s.tables s'.tables lease := by
  rcases Central.step_tables taken with same | ⟨tx, -, effect⟩
  · rw [same] at member ⊢
    exact ⟨member, rfl⟩
  · exact CentralTables.leaseKept_of_effect (reachable_leases reachable) effect member old

end Steps

/-- Every lease row was created in the run. -/
theorem exists_creates {ts : List (Transition Central CentralEvent)} {s : Central}
    (run : (central config).Run ts s) {lease : UpdateLeaseRow}
    (member : lease ∈ s.tables.updateLeases.rows) :
    ∃ g ∈ ts, CreatesLease g lease.leaseId lease.fileId := by
  induction run with
  | init initial =>
      obtain rfl := initial
      cases member
  | @step ts s s' e run taken inductionHypothesis =>
      by_cases old : lease.leaseId ≤ s.tables.updateLeases.seq
      · have kept := step_leaseKept run.reachable taken member old
        obtain ⟨g, gMem, creates⟩ := inductionHypothesis kept.mem
        exact ⟨g, List.mem_cons_of_mem _ gMem, creates⟩
      · refine ⟨_, List.mem_cons_self, ?_, lease, member, rfl, rfl⟩
        intro row rowMem same
        exact old (same ▸ s.tables.updateLeases.le_seq row rowMem)

/-- After a lease was created, its row, as long as it is in the table, is the row
created, and its file has kept its size and its bundles. -/
theorem content_since_created {later earlier : List (Transition Central CentralEvent)}
    {g : Transition Central CentralEvent} {s : Central}
    (run : (central config).Run (later ++ g :: earlier) s) {leaseId fileId : Nat}
    (creates : CreatesLease g leaseId fileId) :
    leaseId ≤ s.tables.updateLeases.seq ∧
      ∀ row ∈ s.tables.updateLeases.rows, row.leaseId = leaseId →
        row.fileId = fileId ∧ s.tables.content fileId = g.post.tables.content fileId := by
  obtain ⟨-, created, createdMem, rfl, rfl⟩ := creates
  apply run.since (fun s => created.leaseId ≤ s.tables.updateLeases.seq ∧
    ∀ row ∈ s.tables.updateLeases.rows, row.leaseId = created.leaseId →
      row.fileId = created.fileId ∧
        s.tables.content created.fileId = g.post.tables.content created.fileId)
  · refine ⟨g.post.tables.updateLeases.le_seq _ createdMem, ?_⟩
    intro row member same
    rw [Table.eq_of_key_eq member createdMem same]
    exact ⟨rfl, rfl⟩
  · rintro t - reachable ⟨known, since⟩ taken
    refine ⟨known.trans (step_lease_seq_le taken), ?_⟩
    intro row member same
    have kept := step_leaseKept reachable taken member (same ▸ known)
    obtain ⟨sameFile, content⟩ := since row kept.mem same
    exact ⟨sameFile, by rw [← sameFile, kept.content, sameFile, content]⟩

/-- Once a lease row is gone it does not come back. -/
theorem lease_gone {later earlier : List (Transition Central CentralEvent)}
    {t : Transition Central CentralEvent} {s : Central}
    (run : (central config).Run (later ++ t :: earlier) s) {leaseId : Nat}
    (known : leaseId ≤ t.post.tables.updateLeases.seq)
    (gone : ∀ row ∈ t.post.tables.updateLeases.rows, row.leaseId ≠ leaseId) :
    ∀ row ∈ s.tables.updateLeases.rows, row.leaseId ≠ leaseId := by
  refine (run.since (fun s => leaseId ≤ s.tables.updateLeases.seq ∧
    ∀ row ∈ s.tables.updateLeases.rows, row.leaseId ≠ leaseId) ⟨known, gone⟩ ?_).2
  rintro x - reachable ⟨known, gone⟩ taken
  refine ⟨known.trans (step_lease_seq_le taken), ?_⟩
  intro row member same
  exact gone row (step_leaseKept reachable taken member (same ▸ known)).mem same

/-- A commit excludes any later commit under the same lease. -/
theorem Commits.not_later {later earlier : List (Transition Central CentralEvent)}
    {t u : Transition Central CentralEvent} {s : Central}
    (run : (central config).Run (later ++ t :: earlier) s) {leaseId fileId otherFileId : Nat}
    (commits : Commits config t leaseId fileId) (member : u ∈ later) :
    ¬ Commits config u leaseId otherFileId := by
  intro again
  obtain ⟨last, first, rfl⟩ := List.append_of_mem member
  rw [List.append_assoc] at run
  obtain ⟨runU, takenU⟩ := run.before
  obtain ⟨-, takenT⟩ := runU.before
  obtain ⟨⟨row, rowMem, rfl, -⟩, gone⟩ := commits.lease takenT
  have known := (t.pre.tables.updateLeases.le_seq row rowMem).trans (step_lease_seq_le takenT)
  obtain ⟨⟨other, otherMem, same, -⟩, -⟩ := again.lease takenU
  exact lease_gone runU known gone other otherMem same

/-- In every run, every file has at most one lease row; and a commit under a lease
finds the file with the size and the bundles it had when the lease was created,
and is the only commit under that lease. -/
theorem commit_loses_no_update {ts : List (Transition Central CentralEvent)} {s : Central}
    (run : (central config).Run ts s) :
    (∀ x ∈ visited ts s, ∀ left ∈ x.tables.updateLeases.rows,
      ∀ right ∈ x.tables.updateLeases.rows, left.fileId = right.fileId → left = right) ∧
    ∀ later t earlier leaseId fileId, ts = later ++ t :: earlier →
      Commits config t leaseId fileId →
      (∃ g ∈ earlier, CreatesLease g leaseId fileId) ∧
      (∀ g ∈ earlier, CreatesLease g leaseId fileId →
        t.pre.tables.content fileId = g.post.tables.content fileId) ∧
      ∀ u ∈ later ++ earlier, ∀ other, ¬ Commits config u leaseId other := by
  constructor
  · have leases := run.invariant_of_guard (fun s => s.tables.Leases) (fun _ _ => True)
      (by rintro _ rfl; exact CentralTables.initial_leases) ?_ (fun _ _ => trivial)
    · exact fun x member => (leases x member).unique
    · intro s e s' leases _ taken
      rcases Central.step_tables taken with same | ⟨tx, -, effect⟩
      · rw [same]
        exact leases
      · exact leases.preserved effect
  · rintro later t earlier leaseId fileId rfl commits
    obtain ⟨runT, takenT⟩ := run.before
    obtain ⟨⟨row, rowMem, rfl, rfl⟩, -⟩ := commits.lease takenT
    refine ⟨exists_creates runT rowMem, ?_, ?_⟩
    · intro g gMem creates
      obtain ⟨between, before, rfl⟩ := List.append_of_mem gMem
      exact ((content_since_created runT creates).2 row rowMem rfl).2
    · intro u member other again
      rcases List.mem_append.mp member with afterwards | beforehand
      · exact Commits.not_later run commits afterwards again
      · obtain ⟨between, before, rfl⟩ := List.append_of_mem beforehand
        have runAll := run
        rw [show later ++ t :: (between ++ u :: before) = (later ++ t :: between) ++ u :: before by
          simp] at runAll
        exact Commits.not_later runAll again (by simp) commits

/-- The run of a first update, whose lease is gone at its end. -/
theorem commit_loses_no_update_updated :
    ∃ ts s, (central Scenario.config).Run ts s ∧
      ts.reverse.map Transition.event = Scenario.registered ++ Scenario.updated 3 "/f" ∧
      s.tables.fileEvents.rows.map FileEventRow.eventType = [.created] ∧
      (∀ x ∈ visited ts s, ∀ left ∈ x.tables.updateLeases.rows,
        ∀ right ∈ x.tables.updateLeases.rows, left.fileId = right.fileId → left = right) ∧
      ∀ later t earlier leaseId fileId, ts = later ++ t :: earlier →
        Commits Scenario.config t leaseId fileId →
        (∃ g ∈ earlier, CreatesLease g leaseId fileId) ∧
        (∀ g ∈ earlier, CreatesLease g leaseId fileId →
          t.pre.tables.content fileId = g.post.tables.content fileId) ∧
        ∀ u ∈ later ++ earlier, ∀ other, ¬ Commits Scenario.config u leaseId other := by
  obtain ⟨ts, s, run, events, logged⟩ := Scenario.run_of_exec
    (Scenario.registered ++ Scenario.updated 3 "/f")
    (fun s => s.tables.fileEvents.rows.map FileEventRow.eventType) [.created] (by decide +kernel)
  exact ⟨ts, s, run, events, logged, commit_loses_no_update run⟩

end Fs0
