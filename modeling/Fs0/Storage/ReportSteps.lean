import Fs0.Storage.ReportedChanges

/-!
Contract: the steps of a storage that reports its bundles, one constructor for each thing an
event can do.

Owns:
- the inversion of the step function;
- the locks of the volumes, and the reports that the calls wait for.

Does not own: whether central and the volumes agree.
-/

set_option autoImplicit false

namespace Fs0

open Lib Fallible

namespace ReportingStorage

variable {config : CentralConfig} {blake3 : Bytes → HashId}
  {zstdDecompress : Bytes → Nat → Fs0Result Bytes} {s s' : ReportingStorage} {e : ReportingEvent}

/-! ## Steps -/

/-- The response of `commit_bundle`. -/
def responseOf (bundleId : HashId) (bundle : BundleMeta) : CommitBundleResponse :=
  ⟨bundleId, bundle.rawLen, bundle.compressedLen⟩

/-- A call ends the window of its report, or has none. -/
inductive CallStep (config : CentralConfig) (blake3 : Bytes → HashId) (s : ReportingStorage)
    (call : SyncCall) : ReportingEvent → SyncCall → Prop where
  | locked (waiting : call.phase = .waiting) (unlocked : s.Unlocked call.volumeId) :
      CallStep config blake3 s call (.lock call.syncId) { call with phase := .reading }
  | drained (reading : call.phase = .reading) (row : StorageVolume)
      (found : s.storage.volumes.find? call.volumeId = some row)
      (none : outcome (VolumeDb.getBundleChangeRecords 128 row.volume.db) = .ok []) :
      CallStep config blake3 s call (.readRecords call.syncId) { call with phase := .updating }
  | readFailed (reading : call.phase = .reading) (err : Fs0Error) :
      CallStep config blake3 s call (.readRecords call.syncId) (call.finish (.error err))
  | replied (reportId maxEventId : Nat) (report : BundleReport)
      (reporting : call.phase = .reporting reportId maxEventId)
      (found : s.reports.find? reportId = some report) (answered : report.answer = some (.ok ())) :
      CallStep config blake3 s call (.reply call.syncId)
        { call with phase := .removing reportId maxEventId }
  | refused (reportId maxEventId : Nat) (err : Fs0Error)
      (reporting : call.phase = .reporting reportId maxEventId) :
      CallStep config blake3 s call (.reply call.syncId) (call.finish (.error err))
  | failed (reportId maxEventId : Nat) (err : Fs0Error)
      (reporting : call.phase = .reporting reportId maxEventId) :
      CallStep config blake3 s call (.failReport call.syncId err) (call.finish (.error err))
  | updated (updating : call.phase = .updating) (result : Fs0Result Unit) :
      CallStep config blake3 s call (.offsetUpdated call.syncId result) (call.finish result)

/-- What an event does to a storage that reports its bundles. -/
inductive ReportingStep (config : CentralConfig) (blake3 : Bytes → HashId)
    (zstdDecompress : Bytes → Nat → Fs0Result Bytes) (s : ReportingStorage) :
    ReportingEvent → ReportingStorage → Prop where
  | committed (request : CommitBundleRequest) (leaseNow : Nat) (commit : Option Fs0Error)
      (stored : StorageServer) (v : Volume) (bundle : BundleMeta)
      (taken : (Fs0.storage blake3 zstdDecompress).step s.storage
        (.commitBundle request leaseNow commit) = some stored)
      (checked : (s.storage.retainLeases leaseNow).checkCommit request = .ok v)
      (ran : outcome (Volume.commitBundle blake3 commit request.bundleId request.chunks v.db) =
        .ok bundle) :
      ReportingStep config blake3 zstdDecompress s (.commitBundle request leaseNow commit)
        ({ s with storage := stored }.begin request.volumeId []
          (some (responseOf request.bundleId bundle)))
  | uncommitted (request : CommitBundleRequest) (leaseNow : Nat) (commit : Option Fs0Error)
      (stored : StorageServer)
      (taken : (Fs0.storage blake3 zstdDecompress).step s.storage
        (.commitBundle request leaseNow commit) = some stored) :
      ReportingStep config blake3 zstdDecompress s (.commitBundle request leaseNow commit)
        { s with storage := stored }
  | nothing : ReportingStep config blake3 zstdDecompress s .syncAll s
  | began (volumeId : Nat) (rest : List Nat) :
      ReportingStep config blake3 zstdDecompress s .syncAll (s.begin volumeId rest none)
  | called (e : ReportingEvent) (call after : SyncCall)
      (found : s.calls.find? call.syncId = some call)
      (stepped : CallStep config blake3 s call e after) :
      ReportingStep config blake3 zstdDecompress s e { s with calls := s.calls.replace after }
  | read (call : SyncCall) (found : s.calls.find? call.syncId = some call)
      (reading : call.phase = .reading) (row : StorageVolume)
      (isRow : s.storage.volumes.find? call.volumeId = some row) (events : List BundleReplicaEvent)
      (nonempty : events ≠ [])
      (ran : VolumeDb.getBundleChangeRecords 128 row.volume.db = .ok events row.volume.db) :
      ReportingStep config blake3 zstdDecompress s (.readRecords call.syncId)
        { s.moveTo call (.reporting (s.reports.seq + 1) (maxEventId (sortEvents events))) with
          reports := s.reports.push (fun reportId => ⟨reportId, sortEvents events, none⟩)
            fun _ => rfl }
  | reported (report : BundleReport) (storageId : Nat) (commit : Option Fs0Error)
      (found : s.reports.find? report.reportId = some report) (unanswered : report.answer = none) :
      ReportingStep config blake3 zstdDecompress s (.report report.reportId storageId commit)
        (s.answer report storageId commit)
  | removed (call : SyncCall) (found : s.calls.find? call.syncId = some call)
      (reportId maxEventId : Nat) (removing : call.phase = .removing reportId maxEventId)
      (row : StorageVolume) (isRow : s.storage.volumes.find? call.volumeId = some row)
      (stored : StorageServer)
      (taken : (Fs0.storage blake3 zstdDecompress).step s.storage
        (.volume call.volumeId (.removeBundleChangeRecords maxEventId)) = some stored)
      (after : SyncCall)
      (isAfter : after = { call with phase := .reading } ∨ ∃ err, after = call.finish (.error err)) :
      ReportingStep config blake3 zstdDecompress s (.removeRecords call.syncId)
        { s with storage := stored, calls := s.calls.replace after }
  | stored (e : StorageEvent) (unowned : e.ownedByReporter = false) (stored : StorageServer)
      (taken : (Fs0.storage blake3 zstdDecompress).step s.storage e = some stored) :
      ReportingStep config blake3 zstdDecompress s (.storage e) { s with storage := stored }
  | restarted (torn : Nat → DataFiles) (stored : StorageServer)
      (taken : (Fs0.storage blake3 zstdDecompress).step s.storage (.restart torn) = some stored) :
      ReportingStep config blake3 zstdDecompress s (.restart torn)
        { s with storage := stored, calls := s.calls.delete fun call => !call.phase.isDone }
  | central (action : CentralAction) :
      ReportingStep config blake3 zstdDecompress s (.central action)
        { s with central := s.central.act config action }

theorem isCall {syncId : Nat} {call : SyncCall} (found : s.calls.find? syncId = some call) :
    call.syncId = syncId ∧ s.calls.find? call.syncId = some call := by
  obtain ⟨-, isId⟩ := Table.mem_of_find? found
  exact ⟨isId, isId.symm ▸ found⟩

theorem step_read {syncId : Nat}
    (taken : (reporting config blake3 zstdDecompress).step s (.readRecords syncId) = some s') :
    ReportingStep config blake3 zstdDecompress s (.readRecords syncId) s' := by
  obtain ⟨call, found, ran⟩ := Option.bind_eq_some_iff.mp taken
  obtain ⟨rfl, found⟩ := isCall found
  split at ran
  next reading =>
    obtain ⟨row, isRow, rfl⟩ := Option.map_eq_some_iff.mp ran
    unfold readRecords
    split
    next err ran => exact .called _ call _ found (.readFailed reading err)
    next ran => exact .called _ call _ found (.drained reading row isRow ran)
    next event later ran =>
      have ran := eq_ok_of_outcome ran
      have same := (Storage.getBundleChangeRecords_eq_ok.mp ran).2.2
      rw [same] at ran
      exact .read call found reading row isRow (event :: later) (List.cons_ne_nil _ _) ran
  · cases ran

theorem step_reply {syncId : Nat}
    (taken : (reporting config blake3 zstdDecompress).step s (.reply syncId) = some s') :
    ReportingStep config blake3 zstdDecompress s (.reply syncId) s' := by
  obtain ⟨call, found, ran⟩ := Option.bind_eq_some_iff.mp taken
  obtain ⟨rfl, found⟩ := isCall found
  split at ran
  next reportId maxEventId reporting =>
    obtain ⟨report, isReport, ran⟩ := Option.bind_eq_some_iff.mp ran
    split at ran
    next answered =>
      obtain rfl := Option.some.inj ran
      exact .called _ call _ found (.replied reportId maxEventId report reporting isReport answered)
    next err answered =>
      obtain rfl := Option.some.inj ran
      exact .called _ call _ found (.refused reportId maxEventId err reporting)
    next => cases ran
  · cases ran

theorem step_remove {syncId : Nat}
    (taken : (reporting config blake3 zstdDecompress).step s (.removeRecords syncId) = some s') :
    ReportingStep config blake3 zstdDecompress s (.removeRecords syncId) s' := by
  obtain ⟨call, found, ran⟩ := Option.bind_eq_some_iff.mp taken
  obtain ⟨rfl, found⟩ := isCall found
  split at ran
  next reportId maxEventId removing =>
    obtain ⟨row, isRow, ran⟩ := Option.bind_eq_some_iff.mp ran
    obtain ⟨stored, removed, rfl⟩ := Option.map_eq_some_iff.mp ran
    have step : (Fs0.storage blake3 zstdDecompress).step s.storage
        (.volume call.volumeId (.removeBundleChangeRecords maxEventId)) = some stored := by
      show (s.storage.volumes.find? call.volumeId).bind _ = some stored
      rw [isRow]
      exact removed
    dsimp only
    split
    next => exact .removed call found reportId maxEventId removing row isRow stored step _ (.inl rfl)
    next err _ =>
      exact .removed call found reportId maxEventId removing row isRow stored step _ (.inr ⟨err, rfl⟩)
  · cases ran

theorem step_cases (taken : (reporting config blake3 zstdDecompress).step s e = some s') :
    ReportingStep config blake3 zstdDecompress s e s' := by
  cases e with
  | commitBundle request leaseNow commit =>
      obtain ⟨stored, step, rfl⟩ := Option.map_eq_some_iff.mp taken
      dsimp only
      split
      next v checked =>
        split
        next bundle ran => exact .committed request leaseNow commit stored v bundle step checked ran
        next => exact .uncommitted request leaseNow commit stored step
      next => exact .uncommitted request leaseNow commit stored step
  | syncAll =>
      obtain rfl := Option.some.inj taken
      unfold syncAll
      split
      · exact .nothing
      next volumeId rest _ => exact .began volumeId rest
  | lock syncId =>
      obtain ⟨call, found, ran⟩ := Option.bind_eq_some_iff.mp taken
      obtain ⟨rfl, found⟩ := isCall found
      split at ran
      next both =>
        obtain rfl := Option.some.inj ran
        exact .called _ call _ found (.locked both.1 both.2)
      · cases ran
  | readRecords syncId => exact step_read taken
  | report reportId storageId commit =>
      obtain ⟨report, found, ran⟩ := Option.bind_eq_some_iff.mp taken
      obtain ⟨-, rfl⟩ := Table.mem_of_find? found
      split at ran
      next unanswered =>
        obtain rfl := Option.some.inj ran
        exact .reported report storageId commit found unanswered
      · cases ran
  | reply syncId => exact step_reply taken
  | failReport syncId err =>
      obtain ⟨call, found, ran⟩ := Option.bind_eq_some_iff.mp taken
      obtain ⟨rfl, found⟩ := isCall found
      split at ran
      next reportId maxEventId reporting =>
        obtain rfl := Option.some.inj ran
        exact .called _ call _ found (.failed reportId maxEventId err reporting)
      · cases ran
  | removeRecords syncId => exact step_remove taken
  | offsetUpdated syncId result =>
      obtain ⟨call, found, ran⟩ := Option.bind_eq_some_iff.mp taken
      obtain ⟨rfl, found⟩ := isCall found
      split at ran
      next updating =>
        obtain rfl := Option.some.inj ran
        exact .called _ call _ found (.updated updating result)
      · cases ran
  | storage e =>
      have ran : (if e.ownedByReporter then none
        else (s.storage.step blake3 zstdDecompress e).map fun storage =>
          { s with storage := storage }) = some s' := taken
      split at ran
      · cases ran
      next unowned =>
        obtain ⟨stored, step, rfl⟩ := Option.map_eq_some_iff.mp ran
        exact .stored e (by simpa using unowned) stored step
  | restart torn =>
      have ran : s.restart blake3 zstdDecompress torn = some s' := taken
      obtain ⟨stored, step, rfl⟩ := Option.map_eq_some_iff.mp ran
      exact .restarted torn stored step
  | central action =>
      obtain rfl := Option.some.inj taken
      exact .central action

end ReportingStorage

/-! ## Ids of volumes -/

/-- The metadata of a volume, on disk and in memory, name it by its id. -/
def Volume.Identified (v : Volume) (volumeId : Nat) : Prop :=
  v.tables.volumeMeta.volumeId = volumeId ∧ v.db.2.volumeId = volumeId

namespace Volume

variable {blake3 : Bytes → HashId} {v v' : Volume} {e : VolumeEvent} {volumeId : Nat}

theorem Identified.ran {α : Type} {m : VolumeM α} {r : Fs0Result α → VolumeReturn}
    (identified : v.Identified volumeId) (keeps : KeepsChunks m) :
    (v.ran (m v.db) r).Identified volumeId :=
  ⟨(congrArg VolumeMeta.volumeId (keeps v.db).volumeMeta).trans identified.1,
    (congrArg VolumeMeta.volumeId (keeps v.db).known).trans identified.2⟩

theorem Identified.of_step (identified : v.Identified volumeId) (step : VolumeStep blake3 v e v') :
    v'.Identified volumeId := by
  cases step with
  | reserved chunkId rawLen bytes now insert db reserved =>
      obtain ⟨known, rfl, rfl⟩ := reserved.after
      exact ⟨identified.1, identified.1⟩
  | deleteChunk chunkId =>
      unfold Volume.ran
      rcases deleteChunk_cases chunkId v.db with same | ⟨-, deleted⟩
      · rw [same]
        exact identified
      · rw [deleted]
        exact identified
  | commitBundle bundleId chunks commit => exact identified.ran (commitBundle_keepsChunks _ _ _)
  | deleteBundle bundleId commit => exact identified.ran (deleteBundle_keepsChunks _ _)
  | removeBundleChangeRecords maxEventId =>
      exact identified.ran (removeBundleChangeRecords_keepsChunks _)
  | reopen torn => exact ⟨identified.1, identified.1⟩
  | _ => exact identified

end Volume

/-! ## Locks and reports -/

namespace ReportingStorage

variable {config : CentralConfig} {blake3 : Bytes → HashId}
  {zstdDecompress : Bytes → Nat → Fs0Result Bytes} {s s' : ReportingStorage} {e : ReportingEvent}

/-- A report that a call is about to remove the records of, and its answer. -/
structure Awaits (reports : SeqTable BundleReport.reportId) (call : SyncCall)
    (report : BundleReport) : Prop where
  found : reports.find? report.reportId = some report
  volume : ∀ event ∈ report.events, event.volumeId = call.volumeId
  answered : ∀ reportId maxEventId, call.phase = .removing reportId maxEventId →
    report.answer = some (.ok ())

/-- One call at a time holds the lock of a volume, and its report is about that volume. -/
structure Orderly (s : ReportingStorage) : Prop where
  locked : ∀ call ∈ s.calls.rows, ∀ other ∈ s.calls.rows, call.phase.holdsLock = true →
    other.phase.holdsLock = true → other.volumeId = call.volumeId → other = call
  awaits : ∀ call ∈ s.calls.rows, ∀ reportId maxEventId,
    call.phase.window = some (reportId, maxEventId) →
      ∃ report, report.reportId = reportId ∧ Awaits s.reports call report
  identified : ∀ volumeId row, s.storage.volumes.find? volumeId = some row →
    row.volume.Identified volumeId

@[simp] theorem finish_syncId (call : SyncCall) (result : Fs0Result Unit) :
    (call.finish result).syncId = call.syncId := by
  unfold SyncCall.finish
  split <;> rfl

@[simp] theorem finish_holdsLock (call : SyncCall) (result : Fs0Result Unit) :
    (call.finish result).phase.holdsLock = false := by
  unfold SyncCall.finish
  split <;> rfl

@[simp] theorem finish_window (call : SyncCall) (result : Fs0Result Unit) :
    (call.finish result).phase.window = none := by
  unfold SyncCall.finish
  split <;> rfl

theorem holdsLock_of_window {phase : SyncPhase} {reportId maxEventId : Nat}
    (window : phase.window = some (reportId, maxEventId)) : phase.holdsLock = true := by
  cases phase with
  | reporting _ _ => rfl
  | removing _ _ => rfl
  | _ => cases window

namespace Orderly

/-- A call goes on, under its lock or under one that is free. -/
theorem replaced (orderly : s.Orderly) {call after : SyncCall}
    (found : s.calls.find? call.syncId = some call) (same : after.syncId = call.syncId)
    (locks : after.phase.holdsLock = true → after.volumeId = call.volumeId ∧
      (call.phase.holdsLock = true ∨ s.Unlocked call.volumeId))
    (awaits : ∀ reportId maxEventId, after.phase.window = some (reportId, maxEventId) →
      ∃ report, report.reportId = reportId ∧ Awaits s.reports after report) :
    { s with calls := s.calls.replace after }.Orderly := by
  obtain ⟨member, -⟩ := Table.mem_of_find? found
  have alone : ∀ other ∈ s.calls.rows, other.syncId ≠ after.syncId →
      after.phase.holdsLock = true → other.phase.holdsLock = true →
        other.volumeId ≠ after.volumeId := by
    intro other among differs holds otherHolds sameVolume
    obtain ⟨isVolume, free⟩ := locks holds
    rw [isVolume] at sameVolume
    rcases free with held | unlocked
    · have isCall := orderly.locked call member other among held otherHolds sameVolume
      exact differs (isCall ▸ same.symm)
    · rw [unlocked other among sameVolume] at otherHolds
      cases otherHolds
  refine ⟨?_, ?_, orderly.identified⟩
  · intro first inFirst second inSecond firstHolds secondHolds sameVolume
    rcases SeqTable.mem_replace inFirst with rfl | ⟨inFirst, firstOther⟩
    · rcases SeqTable.mem_replace inSecond with rfl | ⟨inSecond, secondOther⟩
      · rfl
      · exact absurd sameVolume (alone second inSecond secondOther firstHolds secondHolds)
    · rcases SeqTable.mem_replace inSecond with isAfter | ⟨inSecond, secondOther⟩
      · rw [isAfter] at secondHolds sameVolume
        exact absurd sameVolume.symm (alone first inFirst firstOther secondHolds firstHolds)
      · exact orderly.locked first inFirst second inSecond firstHolds secondHolds sameVolume
  · intro other among
    rcases SeqTable.mem_replace among with rfl | ⟨among, -⟩
    · exact awaits
    · exact orderly.awaits other among

/-- The volumes take steps of their own. -/
theorem stored {stored : StorageServer} {e : StorageEvent} (orderly : s.Orderly)
    (taken : (Fs0.storage blake3 zstdDecompress).step s.storage e = some stored) :
    { s with storage := stored }.Orderly := by
  refine ⟨orderly.locked, orderly.awaits, ?_⟩
  intro volumeId row found
  have found : stored.volumes.find? volumeId = some row := found
  have effect := StorageServer.volume_effect taken volumeId
  rw [found] at effect
  generalize before : s.storage.volumes.find? volumeId = old at effect
  cases effect with
  | same => exact orderly.identified volumeId row before
  | moved old v' caused stepped causes =>
      exact (orderly.identified volumeId old before).of_step stepped

theorem begun (orderly : s.Orderly) (volumeId : Nat) (rest : List Nat)
    (response : Option CommitBundleResponse) : (s.begin volumeId rest response).Orderly := by
  refine ⟨?_, ?_, orderly.identified⟩
  · intro first inFirst second inSecond firstHolds secondHolds sameVolume
    rcases mem_appended.mp inFirst with inFirst | rfl
    · rcases mem_appended.mp inSecond with inSecond | rfl
      · exact orderly.locked first inFirst second inSecond firstHolds secondHolds sameVolume
      · cases secondHolds
    · cases firstHolds
  · intro call among
    rcases mem_appended.mp among with among | rfl
    · exact orderly.awaits call among
    · exact nofun

/-- More reports, and more answers. -/
theorem reports (orderly : s.Orderly) {reports : SeqTable BundleReport.reportId}
    (kept : ∀ report, s.reports.find? report.reportId = some report →
      ∃ after, reports.find? report.reportId = some after ∧ after.reportId = report.reportId ∧
        after.events = report.events ∧ (report.answer ≠ none → after.answer = report.answer)) :
    { s with reports := reports }.Orderly := by
  refine ⟨orderly.locked, ?_, orderly.identified⟩
  intro call member reportId maxEventId window
  obtain ⟨report, isReport, awaited⟩ := orderly.awaits call member reportId maxEventId window
  obtain ⟨after, found, isAfter, events, answer⟩ := kept report awaited.found
  refine ⟨after, isAfter.trans isReport, ?_, ?_, ?_⟩
  · rw [isAfter]
    exact found
  · rw [events]
    exact awaited.volume
  · intro reportId maxEventId removing
    have answered := awaited.answered reportId maxEventId removing
    rw [answer (by rw [answered]; exact nofun), answered]

theorem restarted (orderly : s.Orderly) (gone : SyncCall → Bool) :
    { s with calls := s.calls.delete gone }.Orderly := by
  refine ⟨?_, ?_, orderly.identified⟩
  · intro first inFirst second inSecond
    exact orderly.locked first (SeqTable.mem_delete.mp inFirst).1 second
      (SeqTable.mem_delete.mp inSecond).1
  · intro call member
    exact orderly.awaits call (SeqTable.mem_delete.mp member).1

theorem called (orderly : s.Orderly) {call after : SyncCall}
    (found : s.calls.find? call.syncId = some call)
    (stepped : CallStep config blake3 s call e after) :
    { s with calls := s.calls.replace after }.Orderly := by
  cases stepped with
  | locked waiting unlocked =>
      exact orderly.replaced found rfl (fun _ => ⟨rfl, .inr unlocked⟩) nofun
  | drained reading row isRow none =>
      exact orderly.replaced found rfl (fun _ => ⟨rfl, .inl (by rw [reading]; rfl)⟩) nofun
  | replied reportId maxEventId report reporting isReport answered =>
      refine orderly.replaced found rfl (fun _ => ⟨rfl, .inl (by rw [reporting]; rfl)⟩) ?_
      intro _ _ window
      obtain ⟨rfl, rfl⟩ := Prod.mk.inj (Option.some.inj window)
      obtain ⟨awaited, rfl, awaits⟩ := orderly.awaits call (Table.mem_of_find? found).1 _ _
        (by rw [reporting]; rfl)
      obtain rfl := Option.some.inj (awaits.found.symm.trans isReport)
      exact ⟨awaited, rfl, awaits.found, awaits.volume, fun _ _ _ => answered⟩
  | readFailed reading err => exact orderly.replaced found (by simp) (by simp) (by simp)
  | refused reportId maxEventId err reporting =>
      exact orderly.replaced found (by simp) (by simp) (by simp)
  | failed reportId maxEventId err reporting =>
      exact orderly.replaced found (by simp) (by simp) (by simp)
  | updated updating result => exact orderly.replaced found (by simp) (by simp) (by simp)

theorem find?_answered {report : BundleReport} (found : s.reports.find? report.reportId = some report)
    (unanswered : report.answer = none) (answer : Option (Fs0Result Unit)) (other : BundleReport)
    (isOther : s.reports.find? other.reportId = some other) :
    ∃ after, (s.reports.replace { report with answer := answer }).find? other.reportId = some after ∧
      after.reportId = other.reportId ∧ after.events = other.events ∧
        (other.answer ≠ none → after.answer = other.answer) := by
  by_cases same : report.reportId = other.reportId
  · obtain rfl := Option.some.inj ((same ▸ isOther).symm.trans found)
    exact ⟨_, SeqTable.find?_replace_self found rfl, rfl, rfl, fun some => absurd unanswered some⟩
  · exact ⟨other, SeqTable.find?_replace_of_ne isOther same, rfl, rfl, fun _ => rfl⟩

theorem of_step (orderly : s.Orderly)
    (step : ReportingStep config blake3 zstdDecompress s e s') : s'.Orderly := by
  cases step with
  | committed request leaseNow commit stored v bundle taken checked ran =>
      exact (orderly.stored taken).begun _ _ _
  | uncommitted request leaseNow commit stored taken => exact orderly.stored taken
  | nothing => exact orderly
  | began volumeId rest => exact orderly.begun _ _ _
  | called e call after found stepped => exact orderly.called found stepped
  | read call found reading row isRow events nonempty ran =>
      have pushed : ∀ report, s.reports.find? report.reportId = some report →
          ∃ after, (s.reports.push (fun reportId => ⟨reportId, sortEvents events, none⟩)
            fun _ => rfl).find? report.reportId = some after ∧ after.reportId = report.reportId ∧
            after.events = report.events ∧ (report.answer ≠ none → after.answer = report.answer) := by
        intro report isReport
        have old := SeqTable.find?_le_seq isReport
        refine ⟨report, ?_, rfl, rfl, fun _ => rfl⟩
        rw [SeqTable.find?_push_of_ne _ (by omega), isReport]
      refine (orderly.reports pushed).replaced found rfl
        (fun _ => ⟨rfl, .inl (by rw [reading]; rfl)⟩) ?_
      intro _ _ window
      obtain ⟨rfl, rfl⟩ := Prod.mk.inj (Option.some.inj window)
      refine ⟨⟨s.reports.seq + 1, sortEvents events, none⟩, rfl, SeqTable.find?_push, ?_, nofun⟩
      intro event member
      obtain ⟨record, -, isRecord⟩ := exists_record
        (VolumeDb.reads_of_getBundleChangeRecords ran) (mem_sortEvents.mp member)
      exact isRecord.volumeId.trans (orderly.identified _ _ isRow).2
  | reported report storageId commit found unanswered =>
      have after := orderly.reports (find?_answered found unanswered
        (some ((outcome (StorageRequest.reportBundleReplica commit storageId report.events
          s.central)).map fun _ => ())))
      exact ⟨after.locked, after.awaits, after.identified⟩
  | removed call found reportId maxEventId removing row isRow stored taken after isAfter =>
      rcases isAfter with rfl | ⟨err, rfl⟩
      · exact (orderly.stored taken).replaced found rfl
          (fun _ => ⟨rfl, .inl (by rw [removing]; rfl)⟩) nofun
      · exact (orderly.stored taken).replaced found (by simp) (by simp) (by simp)
  | stored e unowned stored taken => exact orderly.stored taken
  | restarted torn stored taken => exact (orderly.stored taken).restarted _
  | central action => exact ⟨orderly.locked, orderly.awaits, orderly.identified⟩

end Orderly

theorem orderly_init (initial : (reporting config blake3 zstdDecompress).Init s) : s.Orderly := by
  obtain ⟨-, stored, ids, calls, reports⟩ := initial
  refine ⟨by simp [calls, SeqTable.empty], by simp [calls, SeqTable.empty], ?_⟩
  intro volumeId row found
  obtain ⟨member, rfl⟩ := Table.mem_of_find? found
  obtain ⟨tables, files, -, isVolume⟩ := stored.2 row member
  have isId := ids row member
  rw [isVolume] at isId ⊢
  exact ⟨isId, isId⟩

/-- The storage takes steps of its own. -/
theorem storage_of_step (step : ReportingStep config blake3 zstdDecompress s e s') :
    s'.storage = s.storage ∨
      ∃ e, (Fs0.storage blake3 zstdDecompress).step s.storage e = some s'.storage := by
  cases step with
  | committed request leaseNow commit stored v bundle taken => exact .inr ⟨_, taken⟩
  | uncommitted request leaseNow commit stored taken => exact .inr ⟨_, taken⟩
  | removed call found reportId maxEventId removing row isRow stored taken => exact .inr ⟨_, taken⟩
  | stored e unowned stored taken => exact .inr ⟨_, taken⟩
  | restarted torn stored taken => exact .inr ⟨_, taken⟩
  | _ => exact .inl rfl

theorem reachable_orderly (reachable : (reporting config blake3 zstdDecompress).Reachable s) :
    s.Orderly :=
  reachable.invariant Orderly (fun _ => orderly_init) fun _ _ _ orderly taken =>
    orderly.of_step (step_cases taken)

theorem reachable_storage (reachable : (reporting config blake3 zstdDecompress).Reachable s) :
    (Fs0.storage blake3 zstdDecompress).Reachable s.storage := by
  refine reachable.invariant (fun s => (Fs0.storage blake3 zstdDecompress).Reachable s.storage)
    (fun s initial => .init initial.2.1) ?_
  intro s e s' known taken
  rcases storage_of_step (step_cases taken) with same | ⟨e, stepped⟩
  · rw [same]
    exact known
  · exact known.step stepped

/-- A volume of the storage has gone through steps of a volume. -/
theorem reachable_volume (reachable : (reporting config blake3 zstdDecompress).Reachable s)
    {volumeId : Nat} {row : StorageVolume} (found : s.storage.volumes.find? volumeId = some row) :
    (Fs0.volume blake3).Reachable row.volume :=
  (StorageServer.reachable_serves (reachable_storage reachable)).reachable row
    (Table.mem_of_find? found).1

end ReportingStorage

end Fs0
