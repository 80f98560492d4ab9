import Fs0.Central.Runs

/-!
Contract: what the transactions of central do to files, their bundles, and their
events.

Owns:
- the content of a file, its events in their order, and the kinds of steps of the
  tables they are in;
- that bundles and events belong to files that were inserted;
- what a step does to a single file.

Does not own: the directories the files are in, and the leases on them.
-/

set_option autoImplicit false

namespace Fs0

open Lib Fallible
open CentralTx (filesWith filesMoved filesResized eventsWith newFile_fileId find?_filesWith_of_le
  find?_filesWith_new find?_filesMoved find?_filesResized)

theorem bundleRowsFrom_index {fileId index : Nat} {bundleIds : List HashId} {row : FileBundleRow}
    (member : row ∈ bundleRowsFrom fileId index bundleIds) : index ≤ row.bundleIndex := by
  induction bundleIds generalizing index with
  | nil => cases member
  | cons bundleId rest inductionHypothesis =>
      rcases List.mem_cons.mp member with rfl | member
      · exact Nat.le_refl index
      · exact Nat.le_of_succ_le (inductionHypothesis member)

/-- The copy is in the table under the next number. -/
theorem FileCopied.copy_found {before after : CentralTables} {sourceFileId now dirId : Nat}
    {targetPath name : String} {source : FileRow} {target : String × String}
    (effect : FileCopied before after sourceFileId targetPath now source target dirId name) :
    after.files.find? (before.files.seq + 1) = some
      (CentralTables.newFile dirId name source.sizeBytes source.compressedSizeBytes now
        (before.files.seq + 1)) := by
  rw [effect.others]
  exact find?_filesWith_new

/-! ## Events -/

section Events

/-- The events of a file in the order of their numbers. -/
def eventsOf (events : SeqTable FileEventRow.eventId) (fileId : Nat) : List FileEventRow :=
  (events.rows.filter fun event => event.fileId = some fileId).insertionSort fun left right =>
    left.eventId ≤ right.eventId

/-- The rows of the log are in the order of their numbers. -/
def EventsOrdered (events : SeqTable FileEventRow.eventId) : Prop :=
  events.rows.Pairwise fun left right => left.eventId ≤ right.eventId

variable {events : SeqTable FileEventRow.eventId} {kind : FileChangeLogKind}
  {newTarget : Option (String × String)} {fileId logged now : Nat}

theorem eventsOf_eq (ordered : EventsOrdered events) :
    eventsOf events fileId = events.rows.filter fun event => event.fileId = some fileId :=
  (ordered.filter _).insertionSort_eq

theorem eventsWith_ordered (ordered : EventsOrdered events) :
    EventsOrdered (eventsWith events kind newTarget logged now) := by
  refine List.pairwise_append.mpr ⟨ordered, List.pairwise_singleton _ _, ?_⟩
  intro old oldMem new newMem
  rw [List.mem_singleton.mp newMem]
  exact Nat.le_succ_of_le (events.le_seq old oldMem)

theorem eventsOf_eventsWith_self (ordered : EventsOrdered events) :
    eventsOf (eventsWith events kind newTarget logged now) logged = eventsOf events logged ++
      [⟨events.seq + 1, kind, newTarget.map Prod.fst, newTarget.map Prod.snd, some logged, now⟩] := by
  rw [eventsOf_eq (eventsWith_ordered ordered), eventsOf_eq ordered, eventsWith,
    SeqTable.rows_push, List.filter_append]
  simp

theorem eventsOf_eventsWith_of_ne (ordered : EventsOrdered events) (other : fileId ≠ logged) :
    eventsOf (eventsWith events kind newTarget logged now) fileId = eventsOf events fileId := by
  rw [eventsOf_eq (eventsWith_ordered ordered), eventsOf_eq ordered, eventsWith,
    SeqTable.rows_push, List.filter_append]
  simp [other.symm]

end Events

namespace CentralTables

/-! ## Steps -/

/-- What a transaction does to the files, their bundles and their events. -/
inductive FileStep (before after : CentralTables) : Prop where
  | kept (files : after.files = before.files) (bundles : after.fileBundles = before.fileBundles)
      (events : after.fileEvents = before.fileEvents)
  | begun (dirId : Nat) (name : String) (now : Nat)
      (files : after.files = filesWith before.files dirId name 0 0 now)
      (bundles : after.fileBundles = before.fileBundles)
      (events : after.fileEvents = before.fileEvents)
  | committed (request : CommitUpdateRequest) (now : Nat) (lease : UpdateLeaseRow)
      (file : FileRow) (compressedSize : Nat) (dir : String)
      (effect : UpdateCommitted before after request now lease file compressedSize dir)
  | deleted (fileId now : Nat) (effect : FileDeleted before after fileId now)
  | copied (sourceFileId : Nat) (targetPath : String) (now : Nat) (source : FileRow)
      (target : String × String) (dirId : Nat) (name : String)
      (effect : FileCopied before after sourceFileId targetPath now source target dirId name)
  | renamed (fileId : Nat) (targetPath : String) (now : Nat) (file : FileRow)
      (target : String × String) (dirId : Nat) (name : String)
      (effect : FileRenamed before after fileId targetPath now file target dirId name)

variable {before after : CentralTables} {tx : Transaction}

theorem fileStep_of_effect (effect : tx.Effect before after) : FileStep before after := by
  cases tx with
  | beginUpdate request volumeId now =>
      obtain ⟨granted, file, mid, taken, -, -, -, rfl⟩ := effect
      cases taken with
      | existing member => exact .kept rfl rfl rfl
      | created dirs dirId name => exact .begun dirId name now rfl rfl rfl
  | dropLease leaseId =>
      obtain rfl : after = _ := effect
      exact .kept rfl rfl rfl
  | commitUpdate request now =>
      obtain ⟨row, file, compressedSize, dir, committed⟩ := effect
      exact .committed request now row file compressedSize dir committed
  | abortUpdate leaseId fileId =>
      obtain ⟨-, dropped⟩ := effect
      obtain rfl : after = _ := dropped
      exact .kept rfl rfl rfl
  | deleteFile fileId now => exact .deleted fileId now effect
  | copyFile sourceFileId targetPath now =>
      obtain ⟨source, target, dirId, name, copied⟩ := effect
      exact .copied sourceFileId targetPath now source target dirId name copied
  | renameFile fileId targetPath now =>
      obtain ⟨file, target, dirId, name, renamed⟩ := effect
      exact .renamed fileId targetPath now file target dirId name renamed
  | registerVolumes volumes =>
      have others : after = { before with volumes := after.volumes } := effect
      exact .kept (by rw [others]) (by rw [others]) (by rw [others])
  | createVolume name maxBytes =>
      obtain rfl : after = _ := effect
      exact .kept rfl rfl rfl
  | reportReplicas events =>
      have others := effect.others
      exact .kept (by rw [others]) (by rw [others]) (by rw [others])
  | updateVolumeOffset volumeId maxVolumeOffset =>
      have others := effect.others
      exact .kept (by rw [others]) (by rw [others]) (by rw [others])

/-- Only the beginning of an update and a copy insert files. -/
theorem inserts_of_effect (effect : tx.Effect before after) {fileId : Nat} {file : FileRow}
    (absent : before.files.find? fileId = none) (present : after.files.find? fileId = some file) :
    (∃ request volumeId now, tx = .beginUpdate request volumeId now) ∨
      ∃ sourceFileId targetPath now, tx = .copyFile sourceFileId targetPath now := by
  have kept : after.files ≠ before.files := by
    intro same
    rw [same, absent] at present
    cases present
  cases tx with
  | beginUpdate request volumeId now => exact .inl ⟨_, _, _, rfl⟩
  | copyFile sourceFileId targetPath now => exact .inr ⟨_, _, _, rfl⟩
  | commitUpdate request now =>
      obtain ⟨row, old, compressedSize, dir, committed⟩ := effect
      rw [committed.others] at present
      have none := present.symm.trans find?_filesResized
      rw [absent] at none
      cases none
  | deleteFile deleted now =>
      rw [effect.2] at present
      obtain ⟨member, isFile⟩ := Table.mem_of_find? present
      exact absurd isFile (Table.find?_eq_none.mp absent file (SeqTable.mem_delete.mp member).1)
  | renameFile renamed targetPath now =>
      obtain ⟨old, target, dirId, name, moved⟩ := effect
      rw [moved.others] at present
      have none := present.symm.trans find?_filesMoved
      rw [absent] at none
      cases none
  | dropLease leaseId => exact absurd (by rw [show after = _ from effect]) kept
  | abortUpdate leaseId aborted => exact absurd (by rw [effect.2]) kept
  | registerVolumes volumes =>
      exact absurd (by rw [show after = { before with volumes := after.volumes } from effect]) kept
  | createVolume name maxBytes => exact absurd (by rw [show after = _ from effect]) kept
  | reportReplicas events => exact absurd (by rw [effect.others]) kept
  | updateVolumeOffset volumeId maxVolumeOffset => exact absurd (by rw [effect.others]) kept

/-! ## References -/

/-- The rows of the other tables refer to files that exist or have existed. -/
structure Referring (tables : CentralTables) : Prop where
  bundles : ∀ row ∈ tables.fileBundles.rows, ∃ file, tables.files.find? row.fileId = some file
  events : ∀ event ∈ tables.fileEvents.rows, ∃ fileId,
    event.fileId = some fileId ∧ fileId ≤ tables.files.seq
  ordered : EventsOrdered tables.fileEvents

theorem initial_referring : CentralTables.initial.Referring where
  bundles := by simp [initial, Table.empty]
  events := by simp [initial, SeqTable.empty]
  ordered := List.Pairwise.nil

/-- A step inserts at most the file with the next number. -/
theorem files_seq_le (step : FileStep before after) : before.files.seq ≤ after.files.seq := by
  cases step with
  | kept files => exact Nat.le_of_eq (by rw [files])
  | begun dirId name now files => rw [files]; exact Nat.le_succ _
  | committed request now lease file compressedSize dir effect =>
      exact Nat.le_of_eq (by rw [effect.others]; rfl)
  | deleted fileId now effect => exact Nat.le_of_eq (by rw [effect.2]; rfl)
  | copied sourceFileId targetPath now source target dirId name effect =>
      rw [effect.others]
      exact Nat.le_succ _
  | renamed fileId targetPath now file target dirId name effect =>
      exact Nat.le_of_eq (by rw [effect.others]; rfl)

theorem find?_deleted {files : SeqTable FileRow.fileId} {fileId other : Nat}
    (differ : other ≠ fileId) :
    (files.delete fun file => file.fileId == fileId).find? other = files.find? other :=
  Table.find?_delete_of_false fun file same => by simpa [same] using differ

/-- Only a deletion takes a file away. -/
theorem file_of_step (step : FileStep before after) {fileId : Nat} {file : FileRow}
    (found : before.files.find? fileId = some file) :
    (∃ file', after.files.find? fileId = some file') ∨ ∃ now, FileDeleted before after fileId now := by
  have inSeq := SeqTable.find?_le_seq found
  cases step with
  | kept files => exact .inl ⟨file, by rw [files, found]⟩
  | begun dirId name now files =>
      exact .inl ⟨file, by rw [files, find?_filesWith_of_le inSeq, found]⟩
  | committed request now lease old compressedSize dir effect =>
      left
      rw [effect.others]
      exact ⟨_, find?_filesResized.trans (congrArg _ found)⟩
  | deleted deletedId now effect =>
      by_cases same : fileId = deletedId
      · exact .inr ⟨now, same ▸ effect⟩
      · left
        rw [effect.2]
        exact ⟨file, (find?_deleted same).trans found⟩
  | copied sourceFileId targetPath now source target dirId name effect =>
      left
      rw [effect.others]
      exact ⟨file, (find?_filesWith_of_le inSeq).trans found⟩
  | renamed movedId targetPath now old target dirId name effect =>
      left
      rw [effect.others]
      exact ⟨_, find?_filesMoved.trans (congrArg _ found)⟩

/-- A bundle row after a step was there before, or belongs to a file there is. -/
theorem bundle_of_step (step : FileStep before after) {row : FileBundleRow}
    (member : row ∈ after.fileBundles.rows) :
    row ∈ before.fileBundles.rows ∨ ∃ file, after.files.find? row.fileId = some file := by
  cases step with
  | kept files bundles => exact .inl (bundles ▸ member)
  | begun dirId name now files bundles => exact .inl (bundles ▸ member)
  | committed request now lease file compressedSize dir effect =>
      rw [effect.bundles] at member
      rcases List.mem_append.mp member with old | new
      · exact .inl (List.mem_filter.mp old).1
      · right
        rw [bundleRowsFrom_fileId new, effect.others]
        exact ⟨_, find?_filesResized.trans (congrArg _ effect.file_found)⟩
  | deleted fileId now effect =>
      rw [effect.2] at member
      exact .inl (Table.mem_delete.mp member).1
  | copied sourceFileId targetPath now source target dirId name effect =>
      rw [effect.bundles] at member
      rcases List.mem_append.mp member with old | new
      · exact .inl old
      · right
        rw [copiedBundleRows_fileId new]
        exact ⟨_, effect.copy_found⟩
  | renamed fileId targetPath now file target dirId name effect =>
      rw [effect.others] at member
      exact .inl member

theorem Referring.preserved (referring : before.Referring) (step : FileStep before after) :
    after.Referring := by
  constructor
  case bundles =>
      intro row member
      rcases bundle_of_step step member with old | found
      · obtain ⟨file, known⟩ := referring.bundles row old
        rcases file_of_step step known with found | ⟨now, -, others⟩
        · exact found
        · rw [others] at member
          have kept := (Table.mem_delete.mp member).2
          simp at kept
      · exact found
  case events =>
      have grown := files_seq_le step
      intro event member
      have old : event ∈ before.fileEvents.rows → ∃ fileId, event.fileId = some fileId ∧
          fileId ≤ after.files.seq := by
        intro member
        obtain ⟨fileId, isFile, inSeq⟩ := referring.events event member
        exact ⟨fileId, isFile, inSeq.trans grown⟩
      cases step with
      | kept _ _ events => exact old (events ▸ member)
      | begun _ _ _ _ _ events => exact old (events ▸ member)
      | committed request now lease file compressedSize dir effect =>
          rw [effect.others] at member
          rcases mem_appended.mp member with member | rfl
          · exact old member
          · exact ⟨_, rfl, (SeqTable.find?_le_seq effect.file_found).trans grown⟩
      | deleted fileId now effect =>
          obtain ⟨⟨file, found⟩, others⟩ := effect
          rw [others] at member
          rcases mem_appended.mp member with member | rfl
          · exact old member
          · exact ⟨_, rfl, (SeqTable.find?_le_seq found).trans grown⟩
      | copied sourceFileId targetPath now source target dirId name effect =>
          have new := SeqTable.find?_le_seq effect.copy_found
          rw [effect.others] at member
          rcases mem_appended.mp member with member | rfl
          · exact old member
          · exact ⟨_, rfl, new⟩
      | renamed fileId targetPath now file target dirId name effect =>
          rw [effect.others] at member
          rcases mem_appended.mp member with member | rfl
          · exact old member
          · exact ⟨_, rfl, (SeqTable.find?_le_seq effect.file_found).trans grown⟩

  case ordered =>
      have kept := referring.ordered
      cases step with
      | kept _ _ events => exact events ▸ kept
      | begun _ _ _ _ _ events => exact events ▸ kept
      | committed request now lease file compressedSize dir effect =>
          rw [effect.others]
          exact eventsWith_ordered kept
      | deleted fileId now effect =>
          rw [effect.2]
          exact eventsWith_ordered kept
      | copied sourceFileId targetPath now source target dirId name effect =>
          rw [effect.others]
          exact eventsWith_ordered kept
      | renamed fileId targetPath now file target dirId name effect =>
          rw [effect.others]
          exact eventsWith_ordered kept

/-! ## One file -/

/-- The size and the bundle list of a file. -/
def content (tables : CentralTables) (fileId : Nat) : Option Nat × List FileBundleRow :=
  ((tables.files.find? fileId).map FileRow.sizeBytes, tables.fileBundlesOf fileId)

theorem content_congr {fileId : Nat} (file : after.files.find? fileId = before.files.find? fileId)
    (bundles : after.fileBundles.rows.filter (fun row => row.fileId = fileId) =
      before.fileBundles.rows.filter fun row => row.fileId = fileId) :
    after.content fileId = before.content fileId := by
  unfold content fileBundlesOf
  rw [file, bundles]

/-- Rows of other files are not selected. -/
theorem filter_eq_nil_of_other (fileId : Nat) (rows : List FileBundleRow)
    (other : ∀ row ∈ rows, row.fileId ≠ fileId) :
    rows.filter (fun row => row.fileId = fileId) = [] :=
  List.filter_eq_nil_iff.mpr fun row member => by simpa using other row member

/-- Rows of the file itself all are. -/
theorem filter_eq_self_of_own (fileId : Nat) (rows : List FileBundleRow)
    (own : ∀ row ∈ rows, row.fileId = fileId) :
    rows.filter (fun row => row.fileId = fileId) = rows :=
  List.filter_eq_self.mpr fun row member => by simpa using own row member

theorem filter_filter_other {fileId other : Nat} (differ : other ≠ fileId)
    (rows : List FileBundleRow) :
    (rows.filter fun row => !row.fileId == other).filter (fun row => row.fileId = fileId) =
      rows.filter fun row => row.fileId = fileId := by
  rw [List.filter_filter]
  apply List.filter_congr
  intro row _
  by_cases same : row.fileId = fileId
  · simp [same, differ.symm]
  · simp [same]

theorem filter_filter_own (fileId : Nat) (rows : List FileBundleRow) :
    (rows.filter fun row => !row.fileId == fileId).filter (fun row => row.fileId = fileId) = [] := by
  apply filter_eq_nil_of_other
  intro row member
  simpa using (List.mem_filter.mp member).2

/-- The bundle rows of a file, under the number of its copy. -/
def renumbered (fileId : Nat) (rows : List FileBundleRow) : List FileBundleRow :=
  rows.map fun row => ⟨fileId, row.bundleIndex, row.bundleId⟩

theorem renumbered_insertionSort (fileId : Nat) (rows : List FileBundleRow) :
    renumbered fileId (rows.insertionSort fun left right => left.bundleIndex ≤ right.bundleIndex) =
      (renumbered fileId rows).insertionSort fun left right =>
        left.bundleIndex ≤ right.bundleIndex :=
  List.map_insertionSort _ _ _ _ fun _ _ _ _ => Iff.rfl

/-- What a step does to one file: its content, and the events logged for it. -/
inductive FileChange (before after : CentralTables) (fileId : Nat) : Prop where
  | untouched (content : after.content fileId = before.content fileId)
      (events : eventsOf after.fileEvents fileId = eventsOf before.fileEvents fileId)
  | begun (new : before.files.seq < fileId) (content : after.content fileId = (some 0, []))
      (events : eventsOf after.fileEvents fileId = [])
  | committed (request : CommitUpdateRequest) (replicas : List BundleReplicaRow) (size : Nat)
      (event : FileEventRow)
      (known : ∀ row ∈ replicas, row ∈ before.bundleReplicas.rows)
      (submitted : UpdateRequest.submittedRawSize replicas request.bundles 0 = .ok request.newSize)
      (old : (before.content fileId).1 = some size)
      (content : after.content fileId = (some request.newSize,
        bundleRowsFrom fileId 0 (request.bundles.map CommittedBundle.bundleId)))
      (kind : event.eventType = if size = 0 then .created else .updated)
      (events : eventsOf after.fileEvents fileId = eventsOf before.fileEvents fileId ++ [event])
  | deleted (event : FileEventRow) (size : Nat)
      (old : (before.content fileId).1 = some size)
      (content : after.content fileId = (none, []))
      (kind : event.eventType = .deleted)
      (events : eventsOf after.fileEvents fileId = eventsOf before.fileEvents fileId ++ [event])
  | copied (new : before.files.seq < fileId) (sourceFileId size : Nat) (event : FileEventRow)
      (source : (before.content sourceFileId).1 = some size)
      (content : after.content fileId =
        (some size, renumbered fileId (before.content sourceFileId).2))
      (kind : event.eventType = .created)
      (events : eventsOf after.fileEvents fileId = [event])
  | renamed (event : FileEventRow) (size : Nat)
      (old : (before.content fileId).1 = some size)
      (content : after.content fileId = before.content fileId)
      (kind : event.eventType = .moved)
      (events : eventsOf after.fileEvents fileId = eventsOf before.fileEvents fileId ++ [event])

section OneFile

variable {fileId : Nat}

theorem content_of_find? {file : FileRow} (found : before.files.find? fileId = some file) :
    (before.content fileId).1 = some file.sizeBytes := by
  unfold content
  rw [found, Option.map_some]

theorem Referring.no_bundles (referring : before.Referring) (new : before.files.seq < fileId) :
    before.fileBundles.rows.filter (fun row => row.fileId = fileId) = [] := by
  apply filter_eq_nil_of_other
  intro row member same
  obtain ⟨file, found⟩ := referring.bundles row member
  have known := SeqTable.find?_le_seq found
  omega

theorem Referring.no_events (referring : before.Referring) (new : before.files.seq < fileId) :
    eventsOf before.fileEvents fileId = [] := by
  rw [eventsOf_eq referring.ordered]
  apply List.filter_eq_nil_iff.mpr
  intro event member same
  obtain ⟨logged, isLogged, known⟩ := referring.events event member
  rw [isLogged] at same
  simp only [Option.some.injEq, decide_eq_true_eq] at same
  omega

/-- The bundle rows of a commit are in the order of their indices. -/
theorem bundleRowsFrom_sorted (index : Nat) (bundleIds : List HashId) :
    (bundleRowsFrom fileId index bundleIds).Pairwise fun left right =>
      left.bundleIndex ≤ right.bundleIndex := by
  induction bundleIds generalizing index with
  | nil => exact List.Pairwise.nil
  | cons bundleId rest inductionHypothesis =>
      refine List.pairwise_cons.mpr ⟨?_, inductionHypothesis (index + 1)⟩
      intro row member
      have later := bundleRowsFrom_index member
      exact Nat.le_of_succ_le later

theorem filesResized_of_ne {files : SeqTable FileRow.fileId} {resized : Nat} {size : Nat}
    {compressedSize now : Nat} (other : fileId ≠ resized) :
    (filesResized files resized size compressedSize now).find? fileId = files.find? fileId := by
  rw [find?_filesResized]
  cases found : files.find? fileId with
  | none => rfl
  | some file =>
      have isFile := (Table.mem_of_find? found).2
      rw [Option.map_some, resizedTo, if_neg (isFile ▸ other)]

theorem change_of_committed (referring : before.Referring) {request : CommitUpdateRequest}
    {now compressedSize : Nat} {lease : UpdateLeaseRow} {file : FileRow} {dir : String}
    (effect : UpdateCommitted before after request now lease file compressedSize dir) :
    FileChange before after fileId := by
  have bundles := effect.bundles
  have others := effect.others
  by_cases same : fileId = request.fileId
  · subst same
    obtain ⟨replicas, known, submitted⟩ := effect.submitted
    refine .committed request replicas file.sizeBytes _ known submitted
      (content_of_find? effect.file_found) ?_ ?_
      (by rw [others]; exact eventsOf_eventsWith_self referring.ordered)
    · have new := filter_eq_self_of_own request.fileId
        (bundleRowsFrom request.fileId 0 (request.bundles.map CommittedBundle.bundleId))
        fun row member => bundleRowsFrom_fileId member
      unfold content fileBundlesOf
      rw [bundles, List.filter_append, filter_filter_own, List.nil_append, new,
        (bundleRowsFrom_sorted _ _).insertionSort_eq, others]
      dsimp only
      rw [find?_filesResized, effect.file_found, Option.map_some, Option.map_some, resizedTo,
        if_pos (Table.mem_of_find? effect.file_found).2]
    · rfl
  · refine .untouched (content_congr ?_ ?_) ?_
    · rw [others]
      exact filesResized_of_ne same
    · have noNew := filter_eq_nil_of_other fileId
        (bundleRowsFrom request.fileId 0 (request.bundles.map CommittedBundle.bundleId))
        fun row member => bundleRowsFrom_fileId member ▸ Ne.symm same
      rw [bundles, List.filter_append, filter_filter_other (Ne.symm same), noNew, List.append_nil]
    · rw [others]
      exact eventsOf_eventsWith_of_ne referring.ordered same

theorem change_of_deleted (referring : before.Referring) {deleted now : Nat}
    (effect : FileDeleted before after deleted now) : FileChange before after fileId := by
  obtain ⟨⟨file, found⟩, rfl⟩ := effect
  by_cases same : fileId = deleted
  · subst same
    refine .deleted _ _ (content_of_find? found) ?_ ?_ (eventsOf_eventsWith_self referring.ordered)
    · have gone : (before.files.delete fun file => file.fileId == fileId).find? fileId = none := by
        apply Table.find?_eq_none.mpr
        intro row member
        simpa using (SeqTable.mem_delete.mp member).2
      unfold content fileBundlesOf
      rw [gone, Table.rows_delete, filter_filter_own]
      rfl
    · rfl
  · refine .untouched (content_congr (find?_deleted same) ?_)
      (eventsOf_eventsWith_of_ne referring.ordered same)
    exact filter_filter_other (Ne.symm same) _

theorem change_of_copied (referring : before.Referring) {sourceFileId now dirId : Nat}
    {targetPath name : String} {source : FileRow} {target : String × String}
    (effect : FileCopied before after sourceFileId targetPath now source target dirId name) :
    FileChange before after fileId := by
  have bundles := effect.bundles
  have found := effect.copy_found
  have others := effect.others
  by_cases same : fileId = before.files.seq + 1
  · subst same
    have new := Nat.lt_succ_self before.files.seq
    refine .copied new sourceFileId source.sizeBytes _ (content_of_find? effect.source_found) ?_ ?_
      (by
        rw [others, eventsOf_eventsWith_self referring.ordered, referring.no_events new]
        rfl)
    · have all := filter_eq_self_of_own (before.files.seq + 1)
        (copiedBundleRows before.fileBundles.rows sourceFileId (before.files.seq + 1))
        fun row member => copiedBundleRows_fileId member
      unfold content fileBundlesOf
      rw [bundles, List.filter_append, referring.no_bundles new, List.nil_append, all, found,
        renumbered_insertionSort]
      rfl
    · rfl
  · refine .untouched (content_congr ?_ ?_) ?_
    · rw [others]
      exact SeqTable.find?_push_of_ne (newFile_fileId _ _ _ _ _) same
    · have noNew := filter_eq_nil_of_other fileId
        (copiedBundleRows before.fileBundles.rows sourceFileId (before.files.seq + 1))
        fun row member => copiedBundleRows_fileId member ▸ Ne.symm same
      rw [bundles, List.filter_append, noNew, List.append_nil]
    · rw [others]
      exact eventsOf_eventsWith_of_ne referring.ordered same

theorem change_of_renamed (referring : before.Referring) {renamed now dirId : Nat}
    {targetPath name : String} {file : FileRow} {target : String × String}
    (effect : FileRenamed before after renamed targetPath now file target dirId name) :
    FileChange before after fileId := by
  have content : after.content fileId = before.content fileId := by
    have others := effect.others
    unfold content fileBundlesOf
    rw [others]
    dsimp only
    rw [find?_filesMoved, Option.map_map]
    congr 2
    funext row
    simp only [Function.comp_apply, movedTo]
    split <;> rfl
  have others := effect.others
  by_cases same : fileId = renamed
  · subst same
    refine .renamed _ _ (content_of_find? effect.file_found) content ?_
      (by rw [others]; exact eventsOf_eventsWith_self referring.ordered)
    rfl
  · refine .untouched content ?_
    rw [others]
    exact eventsOf_eventsWith_of_ne referring.ordered same

theorem change_of_step (referring : before.Referring) (step : FileStep before after) (fileId : Nat) :
    FileChange before after fileId := by
  cases step with
  | kept files bundles events =>
      refine .untouched ?_ (by rw [events])
      exact content_congr (by rw [files]) (by rw [bundles])
  | begun dirId name now files bundles events =>
      by_cases same : fileId = before.files.seq + 1
      · subst same
        have new := Nat.lt_succ_self before.files.seq
        refine .begun new ?_ (by rw [events, referring.no_events new])
        unfold content fileBundlesOf
        rw [files, bundles, find?_filesWith_new, referring.no_bundles new]
        rfl
      · refine .untouched (content_congr ?_ (by rw [bundles])) (by rw [events])
        rw [files]
        exact SeqTable.find?_push_of_ne (newFile_fileId _ _ _ _ _) same
  | committed request now lease file compressedSize dir effect =>
      exact change_of_committed referring effect
  | deleted deleted now effect => exact change_of_deleted referring effect
  | copied sourceFileId targetPath now source target dirId name effect =>
      exact change_of_copied referring effect
  | renamed renamed targetPath now file target dirId name effect =>
      exact change_of_renamed referring effect

end OneFile

end CentralTables

end Fs0
