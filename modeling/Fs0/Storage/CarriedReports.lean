import Fs0.Storage.AcknowledgedBundles

/-!
Contract: what a storage that deletes no bundle has told central so far.

Owns:
- the reports that central carried out, which account for every replica row of a volume of
  the storage;
- that the bundles of a volume, their replica rows and the calls that commit them are there
  to stay.

Does not own: who relies on it.
-/

set_option autoImplicit false

namespace Fs0

open Lib Fallible

/-- A call of `commit_bundle` synchronises one volume. -/
def SyncCall.Single (call : SyncCall) : Prop :=
  ∀ response, call.response = some response → call.rest = []

namespace ReportingStorage

open VolumeTables

variable {config : CentralConfig} {blake3 : Bytes → HashId}
  {zstdDecompress : Bytes → Nat → Fs0Result Bytes} {s s' : ReportingStorage} {e : ReportingEvent}
  {volumeId : Nat}

/-! ## Reports that were carried out -/

/-- A report with an event about a bundle was carried out. -/
def CarriedOut (s : ReportingStorage) (volumeId : Nat) (bundleId : HashId) : Prop :=
  ∃ report ∈ s.reports.rows, report.answer = some (.ok ()) ∧
    ∃ event ∈ report.events, event.volumeId = volumeId ∧ event.bundleId = bundleId

/-- The replica rows of a volume come from the reports that were carried out. -/
def Sourced (volumeId : Nat) (s : ReportingStorage) : Prop :=
  ∀ bundleId, (s.central.db.1.bundleReplicas.find? (bundleId, volumeId)).isSome ↔
    s.CarriedOut volumeId bundleId

theorem CarriedOut.of_reports {reports : SeqTable BundleReport.reportId} {bundleId : HashId}
    (carriedOut : s.CarriedOut volumeId bundleId)
    (kept : ∀ report ∈ s.reports.rows, report.answer ≠ none → report ∈ reports.rows) :
    { s with reports := reports }.CarriedOut volumeId bundleId := by
  obtain ⟨report, member, accepted, about⟩ := carriedOut
  exact ⟨report, kept report member (by rw [accepted]; exact nofun), accepted, about⟩

/-- A report that is answered counts when it was accepted. -/
theorem carriedOut_answered {report : BundleReport} (member : report ∈ s.reports.rows)
    (unanswered : report.answer = none) (answer : Option (Fs0Result Unit)) (bundleId : HashId) :
    { s with reports := s.reports.replace { report with answer := answer } }.CarriedOut volumeId
        bundleId ↔ s.CarriedOut volumeId bundleId ∨ (answer = some (.ok ()) ∧
          ∃ event ∈ report.events, event.volumeId = volumeId ∧ event.bundleId = bundleId) := by
  constructor
  · rintro ⟨other, among, accepted, about⟩
    rcases SeqTable.mem_replace among with rfl | ⟨old, -⟩
    · exact .inr ⟨accepted, about⟩
    · exact .inl ⟨other, old, accepted, about⟩
  · rintro (carriedOut | ⟨accepted, about⟩)
    · refine carriedOut.of_reports fun other among answered => ?_
      refine SeqTable.mem_replace_of_ne among fun same => ?_
      rw [Table.eq_of_key_eq among member same] at answered
      exact answered unanswered
    · exact ⟨_, SeqTable.mem_replace_self member rfl, accepted, about⟩

/-- A report that deletes nothing adds the rows it tells of. -/
theorem isSome_of_reported {events : List BundleReplicaEvent} {key : HashId × Nat}
    {before after : Option BundleReplicaRow} (reported : ReplicaReported events key before after)
    (stored : ∀ event ∈ events, event.key = key → event.kind = .stored) :
    after.isSome ↔ before.isSome ∨ ∃ event ∈ events, event.key = key := by
  cases reported with
  | untouched foreign same =>
      rw [same]
      exact (or_iff_left fun ⟨event, member, isKey⟩ => foreign event member isKey).symm
  | stored event row member isKey kind rawLen compressedLen now =>
      rw [now]
      exact iff_of_true rfl (.inr ⟨event, member, isKey⟩)
  | deleted event member isKey kind now =>
      have isStored := stored event member isKey
      rw [kind] at isStored
      cases isStored

/-- Replica rows of the volume after a report of the storage. -/
theorem replicas_of_answer (faithful : Faithful volumeId s) {report : BundleReport}
    (found : s.reports.find? report.reportId = some report) (unanswered : report.answer = none)
    (mounted : (s.storage.volumes.find? volumeId).isSome) (storageId : Nat)
    (commit : Option Fs0Error) :
    (Sourced volumeId s → Sourced volumeId (s.answer report storageId commit)) ∧
      ∀ bundleId, (s.central.db.1.bundleReplicas.find? (bundleId, volumeId)).isSome →
        ((s.answer report storageId commit).central.db.1.bundleReplicas.find?
          (bundleId, volumeId)).isSome := by
  have member := (Table.mem_of_find? found).1
  obtain ⟨row, isRow⟩ := Option.isSome_iff_exists.mp mounted
  unfold answer
  cases ran : StorageRequest.reportBundleReplica commit storageId report.events s.central with
  | ok response server =>
      have after : ∀ bundleId, (server.db.1.bundleReplicas.find? (bundleId, volumeId)).isSome ↔
          (s.central.db.1.bundleReplicas.find? (bundleId, volumeId)).isSome ∨
            ∃ event ∈ report.events, event.key = (bundleId, volumeId) := fun bundleId =>
        isSome_of_reported (StorageRequest.reportBundleReplica_reported ran (bundleId, volumeId))
          fun event among isKey => (faithful.events row isRow report member event among
            (Prod.mk.inj isKey).2).kind
      refine ⟨fun sourced bundleId => ?_, fun bundleId had => (after bundleId).mpr (.inl had)⟩
      refine (after bundleId).trans ?_
      rw [sourced bundleId]
      refine Iff.trans (or_congr_right ?_)
        (carriedOut_answered (s := { s with central := server }) member unanswered (some (.ok ()))
          bundleId).symm
      constructor
      · rintro ⟨event, among, isKey⟩
        exact ⟨rfl, event, among, (Prod.mk.inj isKey).2, (Prod.mk.inj isKey).1⟩
      · rintro ⟨-, event, among, isVolume, isBundle⟩
        exact ⟨event, among, Prod.ext isBundle isVolume⟩
  | error err server =>
      have same : server.db.1.bundleReplicas = s.central.db.1.bundleReplicas :=
        congrArg CentralTables.bundleReplicas (StorageRequest.reportBundleReplica_refused ran)
      refine ⟨fun sourced bundleId => ?_, fun bundleId had => ?_⟩
      · show (server.db.1.bundleReplicas.find? (bundleId, volumeId)).isSome ↔ _
        rw [same, sourced bundleId]
        refine Iff.trans ?_ (carriedOut_answered (s := { s with central := server }) member
          unanswered (some (.error err)) bundleId).symm
        exact (or_iff_left fun accepted => nomatch accepted.1).symm
      · show (server.db.1.bundleReplicas.find? (bundleId, volumeId)).isSome
        rw [same]
        exact had

/-- Reports of others do not touch the volume. -/
theorem replicas_of_act {action : CentralAction}
    (alone : ∀ event ∈ action.reported, event.volumeId ≠ volumeId) (bundleId : HashId) :
    ((s.central.act config action).db.1.bundleReplicas.find? (bundleId, volumeId)).isSome ↔
      (s.central.db.1.bundleReplicas.find? (bundleId, volumeId)).isSome := by
  rcases s.central.act_replicas config action with same | reported
  · rw [same]
  · have foreign : ¬ ∃ event ∈ action.reported, event.key = (bundleId, volumeId) :=
      fun ⟨event, member, isKey⟩ => alone event member (Prod.mk.inj isKey).2
    exact (isSome_of_reported (reported (bundleId, volumeId)) fun event member isKey =>
      absurd ⟨event, member, isKey⟩ foreign).trans (or_iff_left foreign)

/-- A report that was just read has not been carried out. -/
theorem carriedOut_pushed (events : List BundleReplicaEvent) (bundleId : HashId) :
    { s with
        reports := s.reports.push (fun reportId => ⟨reportId, events, none⟩) (fun _ => rfl)
      }.CarriedOut volumeId bundleId ↔ s.CarriedOut volumeId bundleId := by
  constructor
  · rintro ⟨report, member, accepted, about⟩
    rcases mem_appended.mp member with old | rfl
    · exact ⟨report, old, accepted, about⟩
    · cases accepted
  · exact fun carriedOut => carriedOut.of_reports fun report member _ =>
      mem_appended.mpr (.inl member)

theorem replicas_of_step (faithful : Faithful volumeId s)
    (mounted : (s.storage.volumes.find? volumeId).isSome) (alone : e.Alone volumeId)
    (step : ReportingStep config blake3 zstdDecompress s e s') :
    (Sourced volumeId s → Sourced volumeId s') ∧
      ∀ bundleId, (s.central.db.1.bundleReplicas.find? (bundleId, volumeId)).isSome →
        (s'.central.db.1.bundleReplicas.find? (bundleId, volumeId)).isSome := by
  cases step with
  | read call found reading row isRow events nonempty ran =>
      exact ⟨fun sourced bundleId => (sourced bundleId).trans (carriedOut_pushed _ _).symm,
        fun _ had => had⟩
  | reported report storageId commit found unanswered =>
      exact replicas_of_answer faithful found unanswered mounted storageId commit
  | central action =>
      exact ⟨fun sourced bundleId => (replicas_of_act alone bundleId).trans (sourced bundleId),
        fun bundleId => (replicas_of_act alone bundleId).mpr⟩
  | _ => exact ⟨id, fun _ had => had⟩

theorem sourced_init (initial : (reporting config blake3 zstdDecompress).Init s) :
    Sourced volumeId s := by
  obtain ⟨isCentral, -, -, -, reports⟩ := initial
  intro bundleId
  refine iff_of_false ?_ ?_
  · rw [isCentral]
    exact nofun
  · rintro ⟨report, member, -⟩
    rw [reports] at member
    cases member

/-! ## What only grows -/

/-- The bundles of a volume and its replica rows are there to stay. -/
structure Advances (volumeId : Nat) (before after : ReportingStorage) : Prop where
  volumes : ∀ row, before.storage.volumes.find? volumeId = some row →
    ∃ row', after.storage.volumes.find? volumeId = some row' ∧
      Grows row.volume.tables row'.volume.tables
  replicas : ∀ bundleId, (before.central.db.1.bundleReplicas.find? (bundleId, volumeId)).isSome →
    (after.central.db.1.bundleReplicas.find? (bundleId, volumeId)).isSome

/-- The storage takes no step, or one that deletes no bundle of a volume that is left alone. -/
theorem keeping_of_step (volumeId : Nat)
    (step : ReportingStep config blake3 zstdDecompress s e s') :
    s'.storage = s.storage ∨ ∃ stepped, (Fs0.storage blake3 zstdDecompress).step s.storage stepped =
      some s'.storage ∧ (e.Alone volumeId →
        ∀ caused, stepped.Causes volumeId caused → caused.deletesBundle = false) := by
  cases step with
  | committed request leaseNow commit stored v bundle taken checked ran =>
      exact .inr ⟨_, taken, fun _ caused causes => by rw [causes.2]; rfl⟩
  | uncommitted request leaseNow commit stored taken =>
      exact .inr ⟨_, taken, fun _ caused causes => by rw [causes.2]; rfl⟩
  | removed call found reportId maxEventId removing row isRow stored taken after isAfter =>
      exact .inr ⟨_, taken, fun _ caused causes => by rw [causes.2]; rfl⟩
  | stored e unowned stored taken =>
      refine .inr ⟨e, taken, fun alone caused causes => ?_⟩
      cases e with
      | volume other e =>
          obtain ⟨rfl, rfl⟩ := causes
          cases caused with
          | deleteBundle bundleId commit => exact absurd rfl alone
          | _ => rfl
      | uploadChunk request leaseNow now => rw [causes.2]; rfl
      | commitBundle request leaseNow commit => cases unowned
      | restart torn => cases unowned
      | grantUploadLease request => cases causes
      | revokeUploadLease leaseId => cases causes
  | restarted torn stored taken =>
      refine .inr ⟨_, taken, fun _ caused causes => ?_⟩
      obtain rfl : caused = _ := causes
      rfl
  | _ => exact .inl rfl

/-- The volumes of a storage are those it was started with. -/
theorem mounted_of_step (step : ReportingStep config blake3 zstdDecompress s e s')
    (mounted : (s'.storage.volumes.find? volumeId).isSome) :
    (s.storage.volumes.find? volumeId).isSome := by
  rcases keeping_of_step volumeId step with same | ⟨stepped, taken, -⟩
  · rw [← same]
    exact mounted
  · have effect := StorageServer.volume_effect taken volumeId
    generalize s.storage.volumes.find? volumeId = before,
      s'.storage.volumes.find? volumeId = after at effect mounted
    cases effect with
    | same => exact mounted
    | moved => rfl

theorem volumes_of_step (bundled : ∀ other row, s.storage.volumes.find? other = some row →
      Volume.Bundled blake3 row.volume.tables) (alone : e.Alone volumeId)
    (step : ReportingStep config blake3 zstdDecompress s e s') :
    ∀ row, s.storage.volumes.find? volumeId = some row →
      ∃ row', s'.storage.volumes.find? volumeId = some row' ∧
        Grows row.volume.tables row'.volume.tables := by
  intro row found
  rcases keeping_of_step volumeId step with same | ⟨stepped, taken, keeps⟩
  · rw [same]
    exact ⟨row, found, .refl _⟩
  · obtain ⟨row', found'⟩ := Option.isSome_iff_exists.mp
      (mounted_of_stored taken (Option.isSome_iff_exists.mpr ⟨row, found⟩))
    obtain ⟨old, before, grows⟩ := grows_of_stored bundled taken (keeps alone) found'
    obtain rfl := Option.some.inj (before.symm.trans found)
    exact ⟨row', found', grows⟩

theorem Advances.of_step (faithful : Faithful volumeId s)
    (bundled : ∀ other row, s.storage.volumes.find? other = some row →
      Volume.Bundled blake3 row.volume.tables)
    (mounted : (s.storage.volumes.find? volumeId).isSome) (alone : e.Alone volumeId)
    (step : ReportingStep config blake3 zstdDecompress s e s') : Advances volumeId s s' :=
  ⟨volumes_of_step bundled alone step, (replicas_of_step faithful mounted alone step).2⟩

/-! ## Calls of a commit -/

/-- A call of `commit_bundle` keeps its volume and its response. -/
structure Keeps (call after : SyncCall) : Prop where
  syncId : after.syncId = call.syncId
  response : after.response = call.response
  volume : ∀ response, call.response = some response → after.volumeId = call.volumeId
  single : after.Single

theorem Keeps.refl {call : SyncCall} (single : call.Single) : Keeps call call :=
  ⟨rfl, rfl, fun _ _ => rfl, single⟩

theorem Keeps.moved {call : SyncCall} (single : call.Single) (phase : SyncPhase) :
    Keeps call { call with phase := phase } := ⟨rfl, rfl, fun _ _ => rfl, single⟩

theorem Keeps.finished {call : SyncCall} (single : call.Single) (result : Fs0Result Unit) :
    Keeps call (call.finish result) := by
  refine ⟨finish_syncId _ _, Faithful.finish_response _ _, fun response isResponse => ?_,
    fun response isResponse => ?_⟩
  · rw [Faithful.finish_of_alone result (single response isResponse)]
  · have alone := single response ((Faithful.finish_response _ _).symm.trans isResponse)
    rw [Faithful.finish_of_alone result alone]
    exact alone

/-- The calls after a step are a new one and those before it. -/
structure CallsFrom (before after : SeqTable SyncCall.syncId) : Prop where
  seq : before.seq ≤ after.seq
  calls : ∀ call' ∈ after.rows, call'.Single ∧ (call'.syncId = before.seq + 1 ∨
    ∃ call ∈ before.rows, Keeps call call')

namespace CallsFrom

variable {calls : SeqTable SyncCall.syncId}

theorem kept {call after : SyncCall} (member : call ∈ calls.rows) (keeps : Keeps call after) :
    after.Single ∧ (after.syncId = calls.seq + 1 ∨ ∃ call ∈ calls.rows, Keeps call after) :=
  ⟨keeps.single, .inr ⟨call, member, keeps⟩⟩

theorem refl (single : ∀ call ∈ calls.rows, call.Single) : CallsFrom calls calls :=
  ⟨Nat.le_refl _, fun call member => kept member (.refl (single call member))⟩

theorem replaced (single : ∀ call ∈ calls.rows, call.Single) {call after : SyncCall}
    (member : call ∈ calls.rows) (keeps : Keeps call after) :
    CallsFrom calls (calls.replace after) := by
  refine ⟨Nat.le_refl _, fun other among => ?_⟩
  rcases SeqTable.mem_replace among with rfl | ⟨old, -⟩
  · exact kept member keeps
  · exact kept old (.refl (single other old))

theorem begun (single : ∀ call ∈ s.calls.rows, call.Single) (volumeId : Nat) {rest : List Nat}
    {response : Option CommitBundleResponse}
    (alone : ∀ returned, response = some returned → rest = []) :
    CallsFrom s.calls (s.begin volumeId rest response).calls := by
  refine ⟨Nat.le_succ _, fun call' member => ?_⟩
  rcases mem_appended.mp member with old | rfl
  · exact kept old (.refl (single call' old))
  · exact ⟨alone, .inl rfl⟩

end CallsFrom

theorem calls_of_step (single : ∀ call ∈ s.calls.rows, call.Single)
    (step : ReportingStep config blake3 zstdDecompress s e s') : CallsFrom s.calls s'.calls := by
  cases step with
  | committed request leaseNow commit stored v bundle taken checked ran =>
      have stays : ∀ call ∈ { s with storage := stored }.calls.rows, call.Single := single
      exact .begun stays _ fun _ _ => rfl
  | began other rest => exact .begun single _ nofun
  | called e call after found stepped =>
      have member := (Table.mem_of_find? found).1
      have moved := Keeps.moved (single call member)
      have finished := Keeps.finished (single call member)
      cases stepped with
      | locked waiting unlocked => exact .replaced single member (moved _)
      | drained reading row isRow none => exact .replaced single member (moved _)
      | replied reportId maxEventId report reporting isReport answered =>
          exact .replaced single member (moved _)
      | readFailed reading err => exact .replaced single member (finished _)
      | refused reportId maxEventId err reporting => exact .replaced single member (finished _)
      | failed reportId maxEventId err reporting => exact .replaced single member (finished _)
      | updated updating result => exact .replaced single member (finished _)
  | read call found reading row isRow events nonempty ran =>
      have member := (Table.mem_of_find? found).1
      exact .replaced single member (.moved (single call member) _)
  | removed call found reportId maxEventId removing row isRow stored taken after isAfter =>
      have member := (Table.mem_of_find? found).1
      rcases isAfter with rfl | ⟨err, rfl⟩
      · exact .replaced single member (.moved (single call member) _)
      · exact .replaced single member (.finished (single call member) _)
  | restarted torn stored taken =>
      refine ⟨Nat.le_refl _, fun call among => ?_⟩
      have member := (SeqTable.mem_delete.mp among).1
      exact CallsFrom.kept member (.refl (single call member))
  | _ => exact .refl single

end ReportingStorage

end Fs0
