import Fs0.Storage.ReportSteps

/-!
Contract: no change of a bundle is lost between a volume and central.

Owns:
- the invariant that a bundle whose change is not pending is at central as it is on the
  volume, with the reports under way accounted for;
- the reports and removals that keep it, and a run in which a change is lost.

Does not own: what is returned to the clients.
-/

set_option autoImplicit false

namespace Fs0

open Lib Fallible

namespace ReportingStorage

variable {config : CentralConfig} {blake3 : Bytes → HashId}
  {zstdDecompress : Bytes → Nat → Fs0Result Bytes} {s s' : ReportingStorage} {e : ReportingEvent}
  {volumeId : Nat}

/-! ## Windows -/

/-- The bundles of a volume with what central knows of them. -/
def outboxOf (s : ReportingStorage) (volumeId : Nat) (row : StorageVolume) : Outbox HashId :=
  row.volume.tables.outbox s.central.db.1.bundleReplicas volumeId

/-- A call is between reading the records of a volume and removing them. -/
structure InWindow (s : ReportingStorage) (volumeId : Nat) (call : SyncCall) (report : BundleReport)
    (maxEventId : Nat) : Prop where
  member : call ∈ s.calls.rows
  volume : call.volumeId = volumeId
  window : call.phase.window = some (report.reportId, maxEventId)
  found : s.reports.find? report.reportId = some report

/-- The outbox as the call that waits for a report relies on it. -/
structure Tracks (o : Outbox HashId) (volumeId : Nat) (report : BundleReport) (maxEventId : Nat) :
    Prop where
  covers : o.Covers (changesOf volumeId report.events) maxEventId
  concur : Outbox.Concur (changesOf volumeId report.events) (changesOf volumeId report.events)
  applied : report.answer = some (.ok ()) → o.Applied (changesOf volumeId report.events)

structure Accounted (volumeId : Nat) (s : ReportingStorage) : Prop where
  sound : ∀ row, s.storage.volumes.find? volumeId = some row → (s.outboxOf volumeId row).Sound
  tracks : ∀ row, s.storage.volumes.find? volumeId = some row → ∀ call report maxEventId,
    s.InWindow volumeId call report maxEventId →
      Tracks (s.outboxOf volumeId row) volumeId report maxEventId

/-- Some call waits for the answer to a report. -/
def Awaited (s : ReportingStorage) (reportId : Nat) : Prop :=
  ∃ call ∈ s.calls.rows, ∃ maxEventId, call.phase = .reporting reportId maxEventId

/-- What central is told of a volume late, or by others, is still true or will be told again, and
agrees with the report that a call is waiting for. -/
def Harmless (s : ReportingStorage) (volumeId : Nat) (events : List BundleReplicaEvent) : Prop :=
  ∀ row, s.storage.volumes.find? volumeId = some row →
    (s.outboxOf volumeId row).Harmless (changesOf volumeId events) ∧
    ∀ call report maxEventId, s.InWindow volumeId call report maxEventId →
      Outbox.Concur (changesOf volumeId events) (changesOf volumeId report.events)

/-- Central handles a report that no call waits for any more only if it is harmless, and records
are removed only while they are as they were reported. -/
def Admits (volumeId : Nat) (s : ReportingStorage) : ReportingEvent → Prop
  | .report reportId _ _ => ∀ report, s.reports.find? reportId = some report →
      s.Awaited reportId ∨ s.Harmless volumeId report.events
  | .removeRecords syncId => ∀ call report maxEventId, s.calls.find? syncId = some call →
      s.InWindow volumeId call report maxEventId → ∀ row,
        s.storage.volumes.find? volumeId = some row →
          (s.outboxOf volumeId row).Unchanged (changesOf volumeId report.events) maxEventId
  | .central action => s.Harmless volumeId action.reported
  | _ => True

theorem InWindow.holdsLock {call : SyncCall} {report : BundleReport} {maxEventId : Nat}
    (inWindow : s.InWindow volumeId call report maxEventId) : call.phase.holdsLock = true :=
  holdsLock_of_window inWindow.window

/-- The report of a window is the one the call waits for. -/
theorem InWindow.awaits {call : SyncCall} {report : BundleReport} {maxEventId : Nat}
    (inWindow : s.InWindow volumeId call report maxEventId) (orderly : s.Orderly) :
    Awaits s.reports call report := by
  obtain ⟨awaited, isReport, awaits⟩ := orderly.awaits call inWindow.member _ _ inWindow.window
  have found := awaits.found
  rw [isReport] at found
  obtain rfl := Option.some.inj (found.symm.trans inWindow.found)
  exact awaits

theorem changesOf_of_ne {events : List BundleReplicaEvent} {other : Nat}
    (volume : ∀ event ∈ events, event.volumeId = other) (differs : volumeId ≠ other) :
    changesOf volumeId events = [] := by
  apply List.eq_nil_iff_forall_not_mem.mpr
  intro change member
  obtain ⟨event, among, isVolume, -⟩ := mem_changesOf.mp member
  exact differs (isVolume.symm.trans (volume event among))

namespace Accounted

/-- The same volumes and replicas, and no new windows. -/
theorem of_windows (accounted : Accounted volumeId s) (storage : s'.storage = s.storage)
    (central : s'.central.db.1.bundleReplicas = s.central.db.1.bundleReplicas)
    (windows : ∀ call report maxEventId, s'.InWindow volumeId call report maxEventId →
      ∃ before, s.InWindow volumeId before report maxEventId) : Accounted volumeId s' := by
  have same : ∀ row, s'.outboxOf volumeId row = s.outboxOf volumeId row := by
    intro row
    unfold outboxOf
    rw [central]
  constructor
  · intro row found
    rw [same]
    rw [storage] at found
    exact accounted.sound row found
  · intro row found call report maxEventId inWindow
    obtain ⟨before, inWindow⟩ := windows call report maxEventId inWindow
    rw [same]
    rw [storage] at found
    exact accounted.tracks row found before report maxEventId inWindow

/-- A volume takes a step that removes no records. -/
theorem stored {stored : StorageServer} {e : StorageEvent} (accounted : Accounted volumeId s)
    (taken : (Fs0.storage blake3 zstdDecompress).step s.storage e = some stored)
    (keeps : ∀ maxEventId, ¬ e.Causes volumeId (.removeBundleChangeRecords maxEventId)) :
    Accounted volumeId { s with storage := stored } := by
  let s' : ReportingStorage := { s with storage := stored }
  have effect := StorageServer.volume_effect taken volumeId
  have changed : ∀ row, stored.volumes.find? volumeId = some row → ∃ old,
      s.storage.volumes.find? volumeId = some old ∧
        (s'.outboxOf volumeId row = s.outboxOf volumeId old ∨
          ∃ change, (s.outboxOf volumeId old).Changes change (s'.outboxOf volumeId row)) := by
    intro row found
    rw [found] at effect
    generalize before : s.storage.volumes.find? volumeId = old at effect
    cases effect with
    | same => exact ⟨row, rfl, .inl rfl⟩
    | moved old v' caused stepped causes =>
        refine ⟨old, rfl, ?_⟩
        cases Volume.outbox_of_step s.central.db.1.bundleReplicas volumeId
            (Volume.step_tables stepped) with
        | kept same => exact .inl same
        | stored bundleId chunks commit isCommit changes => exact .inr ⟨_, changes⟩
        | deleted bundleId isDelete changes => exact .inr ⟨_, changes⟩
        | removed maxEventId isRemove removes => exact absurd (isRemove ▸ causes) (keeps maxEventId)
  constructor
  · intro row found
    obtain ⟨old, before, same | ⟨change, changes⟩⟩ := changed row found
    · show (s'.outboxOf volumeId row).Sound
      rw [same]
      exact accounted.sound old before
    · exact (accounted.sound old before).changed changes
  · intro row found call report maxEventId inWindow
    obtain ⟨old, before, same | ⟨change, changes⟩⟩ := changed row found
    all_goals
      have tracks := accounted.tracks old before call report maxEventId
        ⟨inWindow.member, inWindow.volume, inWindow.window, inWindow.found⟩
    · show Tracks (s'.outboxOf volumeId row) volumeId report maxEventId
      rw [same]
      exact tracks
    · exact ⟨tracks.covers.changed changes, tracks.concur,
        fun answered => (tracks.applied answered).changed changes⟩

theorem begun (accounted : Accounted volumeId s) (other : Nat) (rest : List Nat)
    (response : Option CommitBundleResponse) :
    Accounted volumeId (s.begin other rest response) := by
  refine accounted.of_windows rfl rfl ?_
  intro call report maxEventId inWindow
  rcases mem_appended.mp inWindow.member with old | rfl
  · exact ⟨call, old, inWindow.volume, inWindow.window, inWindow.found⟩
  · cases inWindow.window

/-- A call goes on without a report of its own. -/
theorem replaced (accounted : Accounted volumeId s) {call after : SyncCall}
    (found : s.calls.find? call.syncId = some call)
    (window : ∀ reportId maxEventId, after.phase.window = some (reportId, maxEventId) →
      after.volumeId = call.volumeId ∧ call.phase.window = some (reportId, maxEventId)) :
    Accounted volumeId { s with calls := s.calls.replace after } := by
  refine accounted.of_windows rfl rfl ?_
  intro other report maxEventId inWindow
  rcases SeqTable.mem_replace inWindow.member with rfl | ⟨old, -⟩
  · obtain ⟨isVolume, had⟩ := window _ _ inWindow.window
    exact ⟨call, (Table.mem_of_find? found).1, isVolume ▸ inWindow.volume, had, inWindow.found⟩
  · exact ⟨other, old, inWindow.volume, inWindow.window, inWindow.found⟩

theorem called (accounted : Accounted volumeId s) {call after : SyncCall}
    (found : s.calls.find? call.syncId = some call)
    (stepped : CallStep config blake3 s call e after) :
    Accounted volumeId { s with calls := s.calls.replace after } := by
  cases stepped with
  | locked waiting unlocked => exact accounted.replaced found nofun
  | drained reading row isRow none => exact accounted.replaced found nofun
  | replied reportId maxEventId report reporting isReport answered =>
      refine accounted.replaced found fun _ _ window => ⟨rfl, ?_⟩
      rw [reporting]
      exact window
  | readFailed reading err => exact accounted.replaced found (by simp)
  | refused reportId maxEventId err reporting => exact accounted.replaced found (by simp)
  | failed reportId maxEventId err reporting => exact accounted.replaced found (by simp)
  | updated updating result => exact accounted.replaced found (by simp)

/-- The records that a call has read are those that its report covers. -/
theorem read (accounted : Accounted volumeId s) (orderly : s.Orderly) {call : SyncCall}
    {row : StorageVolume} (isRow : s.storage.volumes.find? call.volumeId = some row)
    (one : row.volume.tables.OneRecordEach) {events : List BundleReplicaEvent}
    (nonempty : events ≠ [])
    (ran : VolumeDb.getBundleChangeRecords 128 row.volume.db = .ok events row.volume.db) :
    Accounted volumeId
      { s.moveTo call (.reporting (s.reports.seq + 1) (maxEventId (sortEvents events))) with
        reports := s.reports.push (fun reportId => ⟨reportId, sortEvents events, none⟩)
          fun _ => rfl } := by
  have reads := VolumeDb.reads_of_getBundleChangeRecords ran
  rw [(orderly.identified _ _ isRow).2] at reads
  refine ⟨accounted.sound, ?_⟩
  intro other isOther waiting report last inWindow
  rcases SeqTable.mem_replace inWindow.member with rfl | ⟨old, -⟩
  · obtain ⟨isReport, rfl⟩ := Prod.mk.inj (Option.some.inj inWindow.window)
    have found := inWindow.found
    rw [← isReport] at found
    obtain rfl := Option.some.inj (SeqTable.find?_push.symm.trans found)
    obtain rfl : call.volumeId = volumeId := inWindow.volume
    obtain rfl := Option.some.inj (isOther.symm.trans isRow)
    exact ⟨covers_of_reads _ reads nonempty, concur_of_reads one reads, nofun⟩
  · obtain ⟨awaited, isReport, awaits⟩ := orderly.awaits waiting old _ _ inWindow.window
    have before := awaits.found
    rw [isReport] at before
    have bound := SeqTable.find?_le_seq before
    have found : (s.reports.push (fun reportId => ⟨reportId, sortEvents events, none⟩)
        fun _ => rfl).find? report.reportId = some report := inWindow.found
    rw [SeqTable.find?_push_of_ne _ (by omega)] at found
    exact accounted.tracks other isOther waiting report last
      ⟨old, inWindow.volume, inWindow.window, found⟩

/-- What a report that no call of the volume waits for may tell. -/
theorem harmless_of_admitted (accounted : Accounted volumeId s) (orderly : s.Orderly)
    {report : BundleReport} (found : s.reports.find? report.reportId = some report)
    (admitted : s.Awaited report.reportId ∨ s.Harmless volumeId report.events) {row : StorageVolume}
    (isRow : s.storage.volumes.find? volumeId = some row) :
    (s.outboxOf volumeId row).Harmless (changesOf volumeId report.events) ∧
    ∀ call other maxEventId, s.InWindow volumeId call other maxEventId →
      Outbox.Concur (changesOf volumeId report.events) (changesOf volumeId other.events) := by
  rcases admitted with ⟨call, member, maxEventId, reporting⟩ | harmless
  · obtain ⟨awaited, isReport, awaits⟩ := orderly.awaits call member report.reportId maxEventId
      (by rw [reporting]; rfl)
    have isAwaited := awaits.found
    rw [isReport] at isAwaited
    obtain rfl := Option.some.inj (isAwaited.symm.trans found)
    by_cases here : call.volumeId = volumeId
    · have inWindow : s.InWindow volumeId call awaited maxEventId :=
        ⟨member, here, by rw [reporting]; rfl, found⟩
      have tracks := accounted.tracks row isRow call awaited maxEventId inWindow
      refine ⟨tracks.covers.harmless, ?_⟩
      intro other report last otherWindow
      -- The call holds the lock, so the other window is its own.
      obtain rfl := orderly.locked call member other otherWindow.member inWindow.holdsLock
        otherWindow.holdsLock (otherWindow.volume.trans here.symm)
      obtain ⟨isReport, -⟩ := Prod.mk.inj (Option.some.inj
        (inWindow.window.symm.trans otherWindow.window))
      have found := otherWindow.found
      rw [← isReport] at found
      obtain rfl := Option.some.inj (inWindow.found.symm.trans found)
      exact tracks.concur
    · rw [changesOf_of_ne awaits.volume (Ne.symm here)]
      exact ⟨nofun, fun _ _ _ _ => nofun⟩
  · exact harmless row isRow

/-- Central takes in a report. -/
theorem delivered (accounted : Accounted volumeId s) {server : CentralServer}
    {events : List BundleReplicaEvent}
    (reported : ∀ key, ReplicaReported events key (s.central.db.1.bundleReplicas.find? key)
      (server.db.1.bundleReplicas.find? key))
    (harmless : ∀ row, s.storage.volumes.find? volumeId = some row →
      (s.outboxOf volumeId row).Harmless (changesOf volumeId events) ∧
      ∀ call report maxEventId, s.InWindow volumeId call report maxEventId →
        Outbox.Concur (changesOf volumeId events) (changesOf volumeId report.events)) :
    Accounted volumeId { s with central := server } := by
  have delivers : ∀ row : StorageVolume, (s.outboxOf volumeId row).Delivers (changesOf volumeId events)
      (({ s with central := server } : ReportingStorage).outboxOf volumeId row) := fun row =>
    delivers_of_reported reported row.volume.tables volumeId
  constructor
  · intro row found
    exact (accounted.sound row found).delivered (delivers row) (harmless row found).1
  · intro row found call report maxEventId inWindow
    have before : s.InWindow volumeId call report maxEventId :=
      ⟨inWindow.member, inWindow.volume, inWindow.window, inWindow.found⟩
    have tracks := accounted.tracks row found call report maxEventId before
    exact ⟨tracks.covers.delivered (delivers row), tracks.concur, fun answered =>
      (tracks.applied answered).delivered (delivers row)
        ((harmless row found).2 call report maxEventId before)⟩

/-- A report has been answered, and its changes delivered if it was accepted. -/
theorem answered (accounted : Accounted volumeId s) (orderly : s.Orderly) {report : BundleReport}
    (found : s.reports.find? report.reportId = some report) (answer : Option (Fs0Result Unit))
    (applied : answer = some (.ok ()) → ∀ row, s.storage.volumes.find? volumeId = some row →
      Outbox.Concur (changesOf volumeId report.events) (changesOf volumeId report.events) →
        (s.outboxOf volumeId row).Applied (changesOf volumeId report.events)) :
    Accounted volumeId { s with reports := s.reports.replace { report with answer := answer } } := by
  refine ⟨accounted.sound, ?_⟩
  intro row isRow call other maxEventId inWindow
  have isOther : (s.reports.replace { report with answer := answer }).find? other.reportId =
      some other := inWindow.found
  by_cases same : report.reportId = other.reportId
  · have isReport : s.reports.find? other.reportId = some report := same ▸ found
    have isAnswered := SeqTable.find?_replace_self isReport
      (show ({ report with answer := answer } : BundleReport).reportId = other.reportId from same)
    obtain rfl := Option.some.inj (isAnswered.symm.trans isOther)
    have tracks := accounted.tracks row isRow call report maxEventId
      ⟨inWindow.member, inWindow.volume, inWindow.window, isReport⟩
    exact ⟨tracks.covers, tracks.concur, fun isOk => applied isOk row isRow tracks.concur⟩
  · obtain ⟨awaited, isAwaited, awaits⟩ := orderly.awaits call inWindow.member _ _ inWindow.window
    have before := awaits.found
    rw [isAwaited] at before
    have after := SeqTable.find?_replace_of_ne before
      (show ({ report with answer := answer } : BundleReport).reportId ≠ other.reportId from same)
    obtain rfl := Option.some.inj (after.symm.trans isOther)
    exact accounted.tracks row isRow call awaited maxEventId
      ⟨inWindow.member, inWindow.volume, inWindow.window, before⟩

theorem reported (accounted : Accounted volumeId s) (orderly : s.Orderly) {report : BundleReport}
    (found : s.reports.find? report.reportId = some report)
    (admitted : s.Awaited report.reportId ∨ s.Harmless volumeId report.events) (storageId : Nat)
    (commit : Option Fs0Error) : Accounted volumeId (s.answer report storageId commit) := by
  unfold answer
  cases ran : StorageRequest.reportBundleReplica commit storageId report.events s.central with
  | ok response server =>
      have reported := StorageRequest.reportBundleReplica_reported ran
      have delivered := accounted.delivered reported fun row isRow =>
        accounted.harmless_of_admitted orderly found admitted isRow
      have ordered : ({ s with central := server } : ReportingStorage).Orderly :=
        ⟨orderly.locked, orderly.awaits, orderly.identified⟩
      refine delivered.answered ordered found (some (.ok ())) fun _ row isRow concur => ?_
      exact (delivers_of_reported reported row.volume.tables volumeId).applied concur
  | error err server =>
      have same := StorageRequest.reportBundleReplica_refused ran
      have kept : Accounted volumeId { s with central := server } :=
        accounted.of_windows rfl (congrArg CentralTables.bundleReplicas same)
          fun call report maxEventId inWindow =>
            ⟨call, inWindow.member, inWindow.volume, inWindow.window, inWindow.found⟩
      have ordered : ({ s with central := server } : ReportingStorage).Orderly :=
        ⟨orderly.locked, orderly.awaits, orderly.identified⟩
      exact kept.answered ordered found (some (.error err)) nofun

/-- Records that are as they were reported are removed. -/
theorem removed (accounted : Accounted volumeId s) (orderly : s.Orderly) {call after : SyncCall}
    (found : s.calls.find? call.syncId = some call) (same : after.syncId = call.syncId)
    {reportId maxEventId : Nat} (removing : call.phase = .removing reportId maxEventId)
    {stored : StorageServer}
    (taken : (Fs0.storage blake3 zstdDecompress).step s.storage
      (.volume call.volumeId (.removeBundleChangeRecords maxEventId)) = some stored)
    (ends : after.phase.window = none)
    (unchanged : ∀ report last, s.InWindow volumeId call report last → ∀ row,
      s.storage.volumes.find? volumeId = some row →
        (s.outboxOf volumeId row).Unchanged (changesOf volumeId report.events) last) :
    Accounted volumeId { s with storage := stored, calls := s.calls.replace after } := by
  have member := (Table.mem_of_find? found).1
  by_cases here : volumeId = call.volumeId
  · obtain ⟨report, rfl, awaits⟩ := orderly.awaits call member reportId maxEventId
      (by rw [removing]; rfl)
    have inWindow : s.InWindow volumeId call report maxEventId :=
      ⟨member, here.symm, by rw [removing]; rfl, awaits.found⟩
    constructor
    · intro row isRow
      have isRow : stored.volumes.find? volumeId = some row := isRow
      have effect := StorageServer.volume_effect taken volumeId
      rw [isRow] at effect
      generalize before : s.storage.volumes.find? volumeId = old at effect
      cases effect with
      | same => exact accounted.sound row before
      | moved old v' caused stepped causes =>
          obtain ⟨-, rfl⟩ := causes
          have sound := accounted.sound old before
          have tracks := accounted.tracks old before call report maxEventId inWindow
          cases Volume.outbox_of_step s.central.db.1.bundleReplicas volumeId
              (Volume.step_tables stepped) with
          | kept same =>
              unfold outboxOf at sound ⊢
              rw [same]
              exact sound
          | stored bundleId chunks commit isCommit changes => exact sound.changed changes
          | deleted bundleId isDelete changes => exact sound.changed changes
          | removed last isRemove removes =>
              obtain rfl := VolumeEvent.removeBundleChangeRecords.inj isRemove
              exact sound.removed removes (tracks.applied (awaits.answered _ _ removing))
                (unchanged report maxEventId inWindow old before)
    · intro row isRow other otherReport last otherWindow
      rcases SeqTable.mem_replace otherWindow.member with rfl | ⟨among, differs⟩
      · have window := otherWindow.window
        rw [ends] at window
        cases window
      · have isCall := orderly.locked call member other among inWindow.holdsLock
          otherWindow.holdsLock (otherWindow.volume.trans here)
        exact absurd (isCall ▸ same.symm) differs
  · have kept := accounted.stored taken fun last causes => here causes.1
    refine kept.replaced found fun _ _ window => ?_
    rw [ends] at window
    cases window

theorem restarted (accounted : Accounted volumeId s) (gone : SyncCall → Bool) :
    Accounted volumeId { s with calls := s.calls.delete gone } :=
  accounted.of_windows rfl rfl fun call _ _ inWindow =>
    ⟨call, (SeqTable.mem_delete.mp inWindow.member).1, inWindow.volume, inWindow.window,
      inWindow.found⟩

theorem central (accounted : Accounted volumeId s) {action : CentralAction}
    (harmless : s.Harmless volumeId action.reported) :
    Accounted volumeId { s with central := s.central.act config action } := by
  rcases s.central.act_replicas config action with same | reported
  · exact accounted.of_windows rfl same fun call _ _ inWindow =>
      ⟨call, inWindow.member, inWindow.volume, inWindow.window, inWindow.found⟩
  · exact accounted.delivered reported harmless

theorem of_step (accounted : Accounted volumeId s) (orderly : s.Orderly)
    (one : ∀ other row, s.storage.volumes.find? other = some row → row.volume.tables.OneRecordEach)
    (admits : s.Admits volumeId e) (step : ReportingStep config blake3 zstdDecompress s e s') :
    Accounted volumeId s' := by
  cases step with
  | committed request leaseNow commit stored v bundle taken checked ran =>
      exact (accounted.stored taken fun _ causes => nomatch causes.2).begun _ _ _
  | uncommitted request leaseNow commit stored taken =>
      exact accounted.stored taken fun _ causes => nomatch causes.2
  | nothing => exact accounted
  | began other rest => exact accounted.begun _ _ _
  | called e call after found stepped => exact accounted.called found stepped
  | read call found reading row isRow events nonempty ran =>
      exact accounted.read orderly isRow (one _ _ isRow) nonempty ran
  | reported report storageId commit found unanswered =>
      exact accounted.reported orderly found (admits report found) storageId commit
  | removed call found reportId maxEventId removing row isRow stored taken after isAfter =>
      have unchanged := fun report last inWindow => admits call report last found inWindow
      rcases isAfter with rfl | ⟨err, rfl⟩
      · exact accounted.removed orderly found (by rfl) removing taken (by rfl) unchanged
      · exact accounted.removed orderly found (by simp) removing taken (by simp) unchanged
  | stored e unowned stored taken =>
      refine accounted.stored taken fun maxEventId causes => ?_
      cases e with
      | volume other caused =>
          obtain ⟨-, rfl⟩ := causes
          cases unowned
      | uploadChunk request leaseNow now => cases causes.2
      | commitBundle request leaseNow commit => cases causes.2
      | restart torn => cases causes
      | grantUploadLease request => cases causes
      | revokeUploadLease leaseId => cases causes
  | restarted torn stored taken =>
      exact (accounted.stored taken fun _ causes => nomatch causes).restarted _
  | central action => exact accounted.central admits

end Accounted

theorem accounted_init (initial : (reporting config blake3 zstdDecompress).Init s) :
    Accounted volumeId s := by
  obtain ⟨isCentral, stored, -, calls, -⟩ := initial
  constructor
  · intro row found
    obtain ⟨tables, files, initialised, isVolume⟩ := stored.2 row (Table.mem_of_find? found).1
    have records : row.volume.tables.bundleChangeRecords.rows = [] := by
      rw [isVolume]
      show tables.bundleChangeRecords.rows = []
      rw [initialised.fresh.records]
      rfl
    have bundles : row.volume.tables.bundleChunks.rows = [] := by
      rw [isVolume]
      show tables.bundleChunks.rows = []
      rw [initialised.fresh.bundleChunks]
      rfl
    have none : (s.outboxOf volumeId row).entries = [] := congrArg (List.map _) records
    refine ⟨by rw [none]; nofun, by rw [none]; nofun, fun bundleId => .inr ?_⟩
    refine iff_of_false ?_ ?_
    · show ¬ (s.central.db.1.bundleReplicas.find? (bundleId, volumeId)).isSome
      rw [isCentral]
      exact nofun
    · rintro ⟨row, member, -⟩
      rw [bundles] at member
      cases member
  · intro row found call report maxEventId inWindow
    have member := inWindow.member
    rw [calls] at member
    cases member

/-! ## No change is lost -/

/-- No call is between reading the records of a volume and removing them. -/
def Quiet (s : ReportingStorage) (volumeId : Nat) : Prop :=
  ∀ call ∈ s.calls.rows, call.volumeId = volumeId → call.phase.window = none

/-- Every bundle has a pending change, or central has a replica row for it exactly when the
volume stores it. -/
def Told (s : ReportingStorage) (volumeId : Nat) : Prop :=
  ∀ row, s.storage.volumes.find? volumeId = some row → ∀ bundleId,
    row.volume.tables.Pending bundleId ∨
      ((∃ replica, s.central.db.1.bundleReplicas.find? (bundleId, volumeId) = some replica) ↔
        row.volume.tables.HasBundle bundleId)

theorem Accounted.told (accounted : Accounted volumeId s) : s.Told volumeId := by
  intro row found bundleId
  rcases (accounted.sound row found).accounted bundleId with pending | agrees
  · exact .inl (VolumeTables.outbox_pending.mp pending)
  · exact .inr (Option.isSome_iff_exists.symm.trans agrees)

theorem accounted_of_run {ts : List (Transition ReportingStorage ReportingEvent)}
    (run : (reporting config blake3 zstdDecompress).Run ts s)
    (admitted : ∀ t ∈ ts, t.pre.Admits volumeId t.event) :
    ∀ x ∈ visited ts s, Accounted volumeId x := by
  have known := run.invariant_of_guard
    (fun s => (reporting config blake3 zstdDecompress).Reachable s ∧ Accounted volumeId s)
    (fun s e => s.Admits volumeId e) (fun s initial => ⟨.init initial, accounted_init initial⟩) ?_
    admitted
  · exact fun x member => (known x member).2
  · rintro s e s' ⟨reachable, accounted⟩ admits taken
    refine ⟨reachable.step taken, accounted.of_step (reachable_orderly reachable) ?_ admits
      (step_cases taken)⟩
    exact fun other row found => Volume.reachable_oneRecordEach (reachable_volume reachable found)

end ReportingStorage

open ReportingStorage

/-- As long as central handles no report late that is not true any more, and no record is
removed that has changed since it was read, no change of a bundle is lost. -/
theorem bundle_changes_told {config : CentralConfig} {blake3 : Bytes → HashId}
    {zstdDecompress : Bytes → Nat → Fs0Result Bytes} {s : ReportingStorage} {volumeId : Nat}
    {ts : List (Transition ReportingStorage ReportingEvent)}
    (run : (reporting config blake3 zstdDecompress).Run ts s)
    (admitted : ∀ t ∈ ts, t.pre.Admits volumeId t.event) :
    ∀ x ∈ visited ts s, x.Quiet volumeId → x.Told volumeId :=
  fun x member _ => (accounted_of_run run admitted x member).told

/-! ## Scenarios -/

namespace ReportingStorage.Scenario

open Volume.Scenario (hash)

def zstdDecompress (bytes : Bytes) (_ : Nat) : Fs0Result Bytes := .ok bytes

/-- An empty volume under the id 1. -/
def mounted : Volume :=
  Volume.open' ⟨⟨1, volumeFormatVersion, volumeDefaultDataFileSize, 0, 1, 1⟩, .empty, .empty,
    .empty⟩ fun _ _ => 0

/-- A storage with one volume, and a new central. -/
def initial : ReportingStorage where
  central := CentralServer.run CentralDb.open'
  storage := ⟨false, ⟨[⟨1, mounted⟩], by simp⟩, .empty⟩
  calls := .empty
  reports := .empty

def system : System ReportingStorage ReportingEvent :=
  reporting Fs0.Scenario.config Volume.Scenario.blake3 zstdDecompress

theorem initial_init : system.Init initial := by
  refine ⟨rfl, ⟨rfl, ?_⟩, ?_, rfl, rfl⟩
  · intro row member
    rw [List.mem_singleton.mp member]
    obtain ⟨tables, files, created, isVolume⟩ := Volume.Scenario.initial_init
    have ended : (outcome (VolumeDb.assignVolumeId 1 1 Volume.Scenario.initial.db),
        endState (VolumeDb.assignVolumeId 1 1 Volume.Scenario.initial.db)) =
          (.ok mounted.tables.volumeMeta, mounted.db) := by decide +kernel
    obtain ⟨isOk, isDb⟩ := Prod.mk.inj ended
    have assigned := eq_ok_of_outcome isOk
    rw [isDb] at assigned
    have before : Volume.Initialised Volume.Scenario.initial.tables := by
      rw [isVolume]
      exact created
    exact ⟨_, _, .assigned before assigned, rfl⟩
  · intro row member
    rw [List.mem_singleton.mp member]
    rfl

/-- A section of a handler at central. -/
def run (connection : Nat) (identity : ControlConnectionIdentity) (handler : Handler) :
    ReportingEvent :=
  .central (.run connection identity handler (Fs0.Scenario.inputs 1))

/-- The storage registers as the owner of volume 1, which a client created. -/
def registered : List ReportingEvent :=
  let volumes : List StorageVolumeInfo := [⟨1, "v", 100, 0, false⟩]
  [run 1 .anonymous (.start (.registerClient none "token" "0.2.4")),
    run 1 .anonymous (.insertClient 1 "token"),
    run 1 (.client 1) (.start (.createVolume "v" 100)),
    run 2 .anonymous (.start (.registerStorage "s" "token" "0.2.4" volumes [])),
    run 2 .anonymous (.volumesRegistered "s" volumes []),
    run 2 .anonymous (.mountVolumes ⟨2, "s", volumes, []⟩),
    run 2 .anonymous (.insertStorage ⟨2, "s", volumes, []⟩)]

/-- A bundle of one chunk is committed, and the call waits for the lock. -/
def committed : List ReportingEvent :=
  [.storage (.grantUploadLease ⟨4, 2, 1, 0, 9, none⟩),
    .storage (.uploadChunk ⟨4, 2, 1, hash 7, 3, [7, 2, 3]⟩ 1 1),
    .storage (.volume 1 (.write 1 3)), .storage (.volume 1 (.storeChunk 1)),
    .commitBundle ⟨4, 2, 1, hash 7, [⟨0, hash 7⟩]⟩ 1 none]

/-- The bundle is reported. -/
def synchronised : List ReportingEvent :=
  registered ++ committed ++
    [.lock 1, .readRecords 1, .report 1 2 none, .reply 1, .removeRecords 1]

/-- The bundle is deleted while its commit is reported. -/
def overtaken : List ReportingEvent :=
  registered ++ committed ++ [.lock 1, .readRecords 1,
    .storage (.volume 1 (.deleteBundle (hash 7) none)), .report 1 2 none, .reply 1,
    .removeRecords 1]

/-- A call waits for each report, and every report tells of all records. -/
def inTime (s : ReportingStorage) : ReportingEvent → Bool
  | .report reportId _ _ => s.calls.rows.any fun call =>
      match call.phase with
      | .reporting waiting _ => waiting == reportId
      | _ => false
  | .removeRecords _ => s.storage.volumes.rows.all fun row => s.reports.rows.all fun report =>
      row.volume.tables.bundleChangeRecords.rows.all fun record =>
        report.events.any fun event => event.bundleId == record.bundleId &&
          event.kind == record.eventType && event.volumeId == row.volumeId
  | .central action => action.reported.isEmpty
  | _ => true

theorem admits_of_inTime {s : ReportingStorage} {e : ReportingEvent} (punctual : inTime s e = true)
    (volumeId : Nat) : s.Admits volumeId e := by
  cases e with
  | report reportId storageId commit =>
      intro report found
      obtain ⟨call, member, waits⟩ := List.any_eq_true.mp punctual
      split at waits
      next waiting maxEventId reporting =>
        exact .inl ⟨call, member, maxEventId, beq_iff_eq.mp waits ▸ reporting⟩
      next => cases waits
  | removeRecords syncId =>
      intro call report maxEventId found inWindow row isRow entry member early
      obtain ⟨record, among, rfl⟩ := List.mem_map.mp member
      obtain ⟨inVolumes, isId⟩ := Table.mem_of_find? isRow
      have ofRow := List.all_eq_true.mp punctual row inVolumes
      have ofReport := List.all_eq_true.mp ofRow report (Table.mem_of_find? inWindow.found).1
      obtain ⟨event, inEvents, same⟩ :=
        List.any_eq_true.mp (List.all_eq_true.mp ofReport record among)
      simp only [Bool.and_eq_true, beq_iff_eq] at same
      obtain ⟨⟨bundleId, kind⟩, isVolume⟩ := same
      refine mem_changesOf.mpr ⟨event, inEvents, isVolume.trans isId, ?_⟩
      unfold BundleReplicaEvent.change BundleChangeRecordRow.entry
      rw [bundleId, kind]
  | central action =>
      have none : action.reported = [] := List.isEmpty_iff.mp punctual
      intro row found
      rw [none]
      exact ⟨nofun, fun _ _ _ _ => nofun⟩
  | _ => trivial

end ReportingStorage.Scenario

open ReportingStorage.Scenario

/-- A bundle that is committed and reported. -/
theorem bundle_changes_told_synchronised : ∃ ts s, system.Run ts s ∧
    (s.central.db.1.bundleReplicas.rows.map BundleReplicaRow.volumeId) = [1] ∧
    ∀ x ∈ visited ts s, x.Quiet 1 → x.Told 1 := by
  obtain ⟨s, ends, replicas⟩ := Option.map_eq_some_iff.mp
    (show (system.execWhile inTime initial synchronised).map (fun s =>
        s.central.db.1.bundleReplicas.rows.map BundleReplicaRow.volumeId) = some [1] by
      decide +kernel)
  obtain ⟨ts, run, admitted⟩ := (System.Run.init initial_init).execWhile _ ends
  rw [List.append_nil] at run
  exact ⟨ts, s, run, replicas,
    bundle_changes_told run fun t member => admits_of_inTime (admitted t member) 1⟩

/-- The record of a bundle that is deleted after it was read for a report keeps its event id, and
is removed with what was reported. -/
theorem bundle_change_lost : ¬ ∀ (config : CentralConfig) (blake3 : Bytes → HashId)
    (zstdDecompress : Bytes → Nat → Fs0Result Bytes) (s : ReportingStorage) (volumeId : Nat),
    (reporting config blake3 zstdDecompress).Reachable s → s.Quiet volumeId →
      s.Told volumeId := by
  intro told
  obtain ⟨s, ends, facts⟩ := Option.map_eq_some_iff.mp
    (show (system.exec initial overtaken).map (fun s =>
        (s.calls.rows.map fun call => call.phase.window,
          (s.storage.volumes.find? 1).map fun row =>
            (row.volume.tables.bundleChangeRecords.rows.length, row.volume.tables.bundleChunks.rows.length),
          (s.central.db.1.bundleReplicas.find? (Volume.Scenario.hash 7, 1)).isSome)) =
      some ([none], some (0, 0), true) by decide +kernel)
  obtain ⟨windows, volume, replica⟩ := Prod.mk.inj facts |>.imp_right Prod.mk.inj
  obtain ⟨row, found, lengths⟩ := Option.map_eq_some_iff.mp volume
  obtain ⟨noRecords, noBundles⟩ := Prod.mk.inj lengths
  have quiet : s.Quiet 1 := by
    intro call member _
    have among := List.mem_map_of_mem (f := fun call : SyncCall => call.phase.window) member
    rw [windows] at among
    exact List.mem_singleton.mp among
  rcases told _ _ _ s 1 (System.exec_reachable _ initial_init ends) quiet row found
    (Volume.Scenario.hash 7) with ⟨record, member, -⟩ | agrees
  · rw [List.length_eq_zero_iff.mp noRecords] at member
    cases member
  · obtain ⟨other, member, -⟩ := agrees.mp (Option.isSome_iff_exists.mp replica)
    rw [List.length_eq_zero_iff.mp noBundles] at member
    cases member

end Fs0
