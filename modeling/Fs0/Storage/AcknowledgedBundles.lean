import Fs0.Storage.ReportRuns

/-!
Contract: a bundle that `commit_bundle` acknowledged is known to central.

Owns:
- runs in which no bundle of a volume is deleted and no other storage reports about it:
  every report is then in time, and tells the lengths the volume still has;
- that the replica row of an acknowledged bundle has the lengths of the response, then and
  in every later state.

Does not own: bundles that are deleted.
-/

set_option autoImplicit false

namespace Fs0

open Lib Fallible

/-! ## Lengths of a bundle -/

namespace VolumeTables

/-- A volume stores a bundle of these lengths. -/
structure HasLens (tables : VolumeTables) (bundleId : HashId) (rawLen compressedLen : Nat) :
    Prop where
  has : tables.HasBundle bundleId
  rawLen : rawLen = ((tables.bundleJoin bundleId).map ChunkMeta.rawLen).sum
  compressedLen : compressedLen = ((tables.bundleJoin bundleId).map ChunkMeta.compressedLen).sum

/-- The bundles stay as they are, and only new ones are recorded. -/
structure Grows (before after : VolumeTables) : Prop where
  same : ∀ bundleId, before.HasBundle bundleId → Volume.SameBundle bundleId before after
  records : ∀ record ∈ after.bundleChangeRecords.rows, record.eventType = .stored ∨
    record ∈ before.bundleChangeRecords.rows

variable {before after : VolumeTables} {bundleId : HashId} {rawLen compressedLen : Nat}

theorem Grows.refl (tables : VolumeTables) : Grows tables tables :=
  ⟨fun _ _ => .refl _ _, fun _ member => .inr member⟩

theorem HasLens.grows (lens : before.HasLens bundleId rawLen compressedLen)
    (grows : Grows before after) : after.HasLens bundleId rawLen compressedLen := by
  have same := grows.same bundleId lens.has
  refine ⟨same.hasBundle lens.has, ?_, ?_⟩
  · rw [same.bundleJoin]
    exact lens.rawLen
  · rw [same.bundleJoin]
    exact lens.compressedLen

theorem Recorded.stored (recorded : Recorded .stored bundleId before after) :
    ∀ record ∈ after.bundleChangeRecords.rows, record.eventType = .stored ∨
      record ∈ before.bundleChangeRecords.rows := by
  intro record member
  cases recorded with
  | changed pending rows =>
      rw [rows] at member
      obtain ⟨old, among, rfl⟩ := List.mem_map.mp member
      unfold retyped
      split
      · exact .inl rfl
      · exact .inr among
  | appended isNew rows =>
      rw [rows] at member
      rcases List.mem_append.mp member with old | last
      · exact .inr old
      · exact .inl (by rw [List.mem_singleton.mp last])

end VolumeTables

/-- `delete_bundle`, which no request of a storage calls. -/
def VolumeEvent.deletesBundle : VolumeEvent → Bool
  | .deleteBundle _ _ => true
  | _ => false

namespace Volume

open VolumeTables

variable {blake3 : Bytes → HashId} {before after : VolumeTables} {e : VolumeEvent}

theorem grows_of_step (bundled : Bundled blake3 before) (step : TableStep blake3 e before after)
    (keeps : e.deletesBundle = false) : Grows before after := by
  refine ⟨fun bundleId has => sameBundle_of_step bundled step has fun isDelete => ?_, ?_⟩
  · rw [isDelete] at keeps
    cases keeps
  · cases step with
    | kept chunks bundleChunks records => exact fun record member => .inr (records ▸ member)
    | inserted chunk chunks appended effect =>
        rw [effect]
        exact fun record member => .inr member
    | deleted chunkId isDelete unreferenced effect =>
        rw [effect]
        exact fun record member => .inr member
    | stored bundleId chunks commit isCommit stores written => exact written.recorded.stored
    | removed bundleId isDelete written =>
        rw [isDelete] at keeps
        cases keeps
    | forgotten maxEventId isRemove effect =>
        rw [effect]
        exact fun record member => .inr (SeqTable.mem_delete.mp member).1

/-- A bundle that `commit_bundle` returned has the lengths it returned. -/
theorem hasLens_of_committed {commit : Option Fs0Error} {bundleId : HashId}
    {chunks : List BundleChunkRef} {bundle : BundleMeta} {db db' : VolumeDb}
    (ran : commitBundle blake3 commit bundleId chunks db = .ok bundle db') :
    db'.1.HasLens bundleId bundle.rawLen bundle.compressedLen := by
  obtain ⟨-, loaded⟩ := commitBundle_eq_ok ran
  obtain ⟨nonempty, -, -, rfl, -⟩ := VolumeDb.loadBundle_eq_ok.mp loaded
  refine ⟨?_, rfl, rfl⟩
  rw [hasBundle_iff]
  intro none
  rw [bundleJoin_eq, none] at nonempty
  exact nonempty rfl

end Volume

/-! ## Runs without deletions -/

/-- The event deletes no bundle of a volume, and no other storage reports about the volume. -/
def ReportingEvent.Alone (volumeId : Nat) : ReportingEvent → Prop
  | .storage (.volume other (.deleteBundle _ _)) => other ≠ volumeId
  | .central action => ∀ event ∈ action.reported, event.volumeId ≠ volumeId
  | _ => True

namespace ReportingStorage

open VolumeTables

variable {config : CentralConfig} {blake3 : Bytes → HashId}
  {zstdDecompress : Bytes → Nat → Fs0Result Bytes} {s s' : ReportingStorage} {e : ReportingEvent}
  {volumeId : Nat}

/-- An event of a report tells the lengths of a bundle that the volume stores. -/
structure TellsLens (tables : VolumeTables) (event : BundleReplicaEvent) : Prop where
  kind : event.kind = .stored
  lens : ∃ rawLen compressedLen, event.rawLen = some rawLen ∧
    event.compressedLen = some compressedLen ∧
      tables.HasLens event.bundleId rawLen compressedLen

/-- What a call with a response has stored, and what central knows when it is over. -/
structure Acknowledges (replicas : Table BundleReplicaRow.key) (tables : VolumeTables)
    (volumeId : Nat) (call : SyncCall) (response : CommitBundleResponse) : Prop where
  lens : tables.HasLens response.bundleId response.rawLen response.compressedLen
  known : call.phase = .updating ∨ call.phase = .done (.ok ()) →
    (replicas.find? (response.bundleId, volumeId)).isSome

/-- Everything that is recorded, reported, stored at central or returned is true of the
volume. -/
structure Faithful (volumeId : Nat) (s : ReportingStorage) : Prop where
  records : ∀ row, s.storage.volumes.find? volumeId = some row →
    ∀ record ∈ row.volume.tables.bundleChangeRecords.rows, record.eventType = .stored
  events : ∀ row, s.storage.volumes.find? volumeId = some row → ∀ report ∈ s.reports.rows,
    ∀ event ∈ report.events, event.volumeId = volumeId → TellsLens row.volume.tables event
  replicas : ∀ row, s.storage.volumes.find? volumeId = some row → ∀ bundleId replica,
    s.central.db.1.bundleReplicas.find? (bundleId, volumeId) = some replica →
      row.volume.tables.HasLens bundleId replica.rawLen replica.compressedLen
  calls : ∀ row, s.storage.volumes.find? volumeId = some row → ∀ call ∈ s.calls.rows,
    call.volumeId = volumeId → ∀ response, call.response = some response →
      Acknowledges s.central.db.1.bundleReplicas row.volume.tables volumeId call response
  alone : ∀ call ∈ s.calls.rows, ∀ response, call.response = some response → call.rest = []
  mounted : ∀ call ∈ s.calls.rows, ∀ response, call.response = some response →
    call.volumeId = volumeId → (s.storage.volumes.find? volumeId).isSome

theorem TellsLens.grows {before after : VolumeTables} {event : BundleReplicaEvent}
    (tells : TellsLens before event) (grows : Grows before after) : TellsLens after event := by
  obtain ⟨rawLen, compressedLen, isRaw, isCompressed, lens⟩ := tells.lens
  exact ⟨tells.kind, rawLen, compressedLen, isRaw, isCompressed, lens.grows grows⟩

/-- The volumes of a storage in a step that deletes no bundle of one of them. -/
theorem grows_of_stored {stored : StorageServer} {e : StorageEvent}
    (serves : ∀ other row, s.storage.volumes.find? other = some row →
      Volume.Bundled blake3 row.volume.tables)
    (taken : (Fs0.storage blake3 zstdDecompress).step s.storage e = some stored)
    (keeps : ∀ caused, e.Causes volumeId caused → caused.deletesBundle = false) {row : StorageVolume}
    (found : stored.volumes.find? volumeId = some row) :
    ∃ old, s.storage.volumes.find? volumeId = some old ∧
      Grows old.volume.tables row.volume.tables := by
  have effect := StorageServer.volume_effect taken volumeId
  rw [found] at effect
  generalize before : s.storage.volumes.find? volumeId = old at effect
  cases effect with
  | same => exact ⟨row, rfl, .refl _⟩
  | moved old v' caused stepped causes =>
      exact ⟨old, rfl, Volume.grows_of_step (serves volumeId old before) (Volume.step_tables stepped)
        (keeps caused causes)⟩

/-- The volumes of a storage stay mounted. -/
theorem mounted_of_stored {stored : StorageServer} {e : StorageEvent}
    (taken : (Fs0.storage blake3 zstdDecompress).step s.storage e = some stored)
    (mounted : (s.storage.volumes.find? volumeId).isSome) :
    (stored.volumes.find? volumeId).isSome := by
  have effect := StorageServer.volume_effect taken volumeId
  generalize s.storage.volumes.find? volumeId = before, stored.volumes.find? volumeId = after
    at effect mounted
  cases effect with
  | same => exact mounted
  | moved => rfl

namespace Faithful

/-- Every report about the volume is harmless, and every record is as it was reported. -/
theorem admits (faithful : Faithful volumeId s) (accounted : Accounted volumeId s)
    (alone : e.Alone volumeId) : s.Admits volumeId e := by
  have present : ∀ row, s.storage.volumes.find? volumeId = some row → ∀ report ∈ s.reports.rows,
      ∀ change ∈ changesOf volumeId report.events,
        change.present = true ∧ row.volume.tables.HasBundle change.key := by
    intro row found report member change among
    obtain ⟨event, inEvents, isVolume, rfl⟩ := mem_changesOf.mp among
    have tells := faithful.events row found report member event inEvents isVolume
    obtain ⟨rawLen, compressedLen, -, -, lens⟩ := tells.lens
    exact ⟨decide_eq_true tells.kind, lens.has⟩
  cases e with
  | report reportId storageId commit =>
      intro report found
      refine .inr fun row isRow => ⟨?_, ?_⟩
      · intro change member
        obtain ⟨isPresent, has⟩ := present row isRow report (Table.mem_of_find? found).1 change member
        exact .inr (iff_of_true isPresent has)
      · intro call other last inWindow change member otherChange among _
        rw [(present row isRow report (Table.mem_of_find? found).1 change member).1,
          (present row isRow other (Table.mem_of_find? inWindow.found).1 otherChange among).1]
  | removeRecords syncId =>
      intro call report last found inWindow row isRow entry member early
      have tracks := accounted.tracks row isRow call report last inWindow
      obtain ⟨change, among, isKey⟩ := tracks.covers.covered entry member early
      obtain ⟨isPresent, -⟩ := present row isRow report (Table.mem_of_find? inWindow.found).1 change
        among
      obtain ⟨record, inTable, rfl⟩ := List.mem_map.mp member
      have isStored : record.entry.present = true :=
        decide_eq_true (faithful.records row isRow record inTable)
      have same : record.entry.toChange = change := by
        obtain ⟨key, changePresent⟩ := change
        obtain rfl : key = record.bundleId := isKey
        exact congrArg (Change.mk record.bundleId) (isStored.trans isPresent.symm)
      rw [same]
      exact among
  | central action =>
      intro row found
      have none : changesOf volumeId action.reported = [] := by
        apply List.eq_nil_iff_forall_not_mem.mpr
        intro change member
        obtain ⟨event, among, isVolume, -⟩ := mem_changesOf.mp member
        exact alone event among isVolume
      rw [none]
      exact ⟨nofun, fun _ _ _ _ => nofun⟩
  | _ => trivial

theorem stored {stored : StorageServer} {e : StorageEvent} (faithful : Faithful volumeId s)
    (bundled : ∀ other row, s.storage.volumes.find? other = some row →
      Volume.Bundled blake3 row.volume.tables)
    (taken : (Fs0.storage blake3 zstdDecompress).step s.storage e = some stored)
    (keeps : ∀ caused, e.Causes volumeId caused → caused.deletesBundle = false) :
    Faithful volumeId { s with storage := stored } := by
  refine ⟨?_, ?_, ?_, ?_, faithful.alone, fun call member response isResponse isVolume =>
    mounted_of_stored taken (faithful.mounted call member response isResponse isVolume)⟩
  · intro row found record member
    obtain ⟨old, before, grows⟩ := grows_of_stored bundled taken keeps found
    rcases grows.records record member with isStored | old'
    · exact isStored
    · exact faithful.records old before record old'
  · intro row found report member event among isVolume
    obtain ⟨old, before, grows⟩ := grows_of_stored bundled taken keeps found
    exact (faithful.events old before report member event among isVolume).grows grows
  · intro row found bundleId replica isReplica
    obtain ⟨old, before, grows⟩ := grows_of_stored bundled taken keeps found
    exact (faithful.replicas old before bundleId replica isReplica).grows grows
  · intro row found call member isVolume response isResponse
    obtain ⟨old, before, grows⟩ := grows_of_stored bundled taken keeps found
    have acknowledges := faithful.calls old before call member isVolume response isResponse
    exact ⟨acknowledges.lens.grows grows, acknowledges.known⟩

theorem begun (faithful : Faithful volumeId s) (other : Nat) (rest : List Nat)
    (response : Option CommitBundleResponse) (alone : ∀ returned, response = some returned → rest = [])
    (lens : ∀ row, s.storage.volumes.find? volumeId = some row → other = volumeId →
      ∀ returned, response = some returned →
        row.volume.tables.HasLens returned.bundleId returned.rawLen returned.compressedLen)
    (mounted : ∀ returned, response = some returned → (s.storage.volumes.find? other).isSome) :
    Faithful volumeId (s.begin other rest response) := by
  refine ⟨faithful.records, faithful.events, faithful.replicas, ?_, ?_, ?_⟩
  · intro row found call member isVolume returned isResponse
    rcases mem_appended.mp member with old | rfl
    · have acknowledges := faithful.calls row found call old isVolume returned isResponse
      exact ⟨acknowledges.lens, acknowledges.known⟩
    · refine ⟨lens row found isVolume returned isResponse, ?_⟩
      rintro (phase | phase) <;> cases phase
  · intro call member returned isResponse
    rcases mem_appended.mp member with old | rfl
    · exact faithful.alone call old returned isResponse
    · exact alone returned isResponse
  · intro call member returned isResponse isVolume
    rcases mem_appended.mp member with old | rfl
    · exact faithful.mounted call old returned isResponse isVolume
    · exact isVolume ▸ mounted returned isResponse

/-- A call goes on. -/
theorem replaced (faithful : Faithful volumeId s) {call after : SyncCall}
    (found : s.calls.find? call.syncId = some call) (same : after.response = call.response)
    (goesOn : ∀ response, call.response = some response → call.rest = [] →
      after.volumeId = call.volumeId ∧ after.rest = [] ∧
        (after.phase = .updating ∨ after.phase = .done (.ok ()) → call.volumeId = volumeId →
          (s.storage.volumes.find? volumeId).isSome →
          (s.central.db.1.bundleReplicas.find? (response.bundleId, volumeId)).isSome)) :
    Faithful volumeId { s with calls := s.calls.replace after } := by
  have member := (Table.mem_of_find? found).1
  refine ⟨faithful.records, faithful.events, faithful.replicas, ?_, ?_, ?_⟩
  · intro row isRow other among isVolume response isResponse
    rcases SeqTable.mem_replace among with rfl | ⟨old, -⟩
    · have had : call.response = some response := same ▸ isResponse
      obtain ⟨sameVolume, -, known⟩ := goesOn response had (faithful.alone call member response had)
      have isCall : call.volumeId = volumeId := sameVolume ▸ isVolume
      have acknowledges := faithful.calls row isRow call member isCall response had
      exact ⟨acknowledges.lens, fun ended => known ended isCall (by rw [isRow]; rfl)⟩
    · have acknowledges := faithful.calls row isRow other old isVolume response isResponse
      exact ⟨acknowledges.lens, acknowledges.known⟩
  · intro other among response isResponse
    rcases SeqTable.mem_replace among with rfl | ⟨old, -⟩
    · have had : call.response = some response := same ▸ isResponse
      exact (goesOn response had (faithful.alone call member response had)).2.1
    · exact faithful.alone other old response isResponse
  · intro other among response isResponse isVolume
    rcases SeqTable.mem_replace among with rfl | ⟨old, -⟩
    · have had : call.response = some response := same ▸ isResponse
      have sameVolume := (goesOn response had (faithful.alone call member response had)).1
      exact faithful.mounted call member response had (sameVolume ▸ isVolume)
    · exact faithful.mounted other old response isResponse isVolume

theorem finish_response (call : SyncCall) (result : Fs0Result Unit) :
    (call.finish result).response = call.response := by
  unfold SyncCall.finish
  split <;> rfl

/-- A call with a response ends with its volume. -/
theorem finish_of_alone {call : SyncCall} (result : Fs0Result Unit) (alone : call.rest = []) :
    call.finish result = { call with phase := .done result } := by
  unfold SyncCall.finish
  rw [alone]
  cases result <;> rfl

theorem failed (faithful : Faithful volumeId s) {call : SyncCall}
    (found : s.calls.find? call.syncId = some call) (err : Fs0Error) :
    Faithful volumeId { s with calls := s.calls.replace (call.finish (.error err)) } := by
  refine faithful.replaced found (finish_response _ _) ?_
  intro response isResponse alone
  rw [finish_of_alone _ alone]
  refine ⟨rfl, alone, ?_⟩
  rintro (updating | isDone)
  · cases updating
  · cases isDone

theorem called (faithful : Faithful volumeId s) (accounted : Accounted volumeId s)
    {call after : SyncCall} (found : s.calls.find? call.syncId = some call)
    (stepped : CallStep config blake3 s call e after) :
    Faithful volumeId { s with calls := s.calls.replace after } := by
  have member := (Table.mem_of_find? found).1
  cases stepped with
  | locked waiting unlocked =>
      refine faithful.replaced found rfl fun _ _ alone => ⟨rfl, alone, ?_⟩
      rintro (phase | phase) <;> cases phase
  | drained reading row isRow none =>
      refine faithful.replaced found rfl fun response isResponse alone => ⟨rfl, alone, ?_⟩
      rintro - rfl -
      -- Nothing is pending, so central has a row for every bundle of the volume.
      have lens := (faithful.calls row isRow call member rfl response isResponse).lens
      have reads := VolumeDb.reads_of_getBundleChangeRecords (eq_ok_of_outcome none)
      have noRecords : row.volume.tables.bundleChangeRecords.rows = [] :=
        no_records_of_reads (by decide) reads
      rcases accounted.told row isRow response.bundleId with ⟨record, among, -⟩ | agrees
      · rw [noRecords] at among
        cases among
      · exact Option.isSome_iff_exists.mpr (agrees.mpr lens.has)
  | replied reportId maxEventId report reporting isReport answered =>
      refine faithful.replaced found rfl fun _ _ alone => ⟨rfl, alone, ?_⟩
      rintro (phase | phase) <;> cases phase
  | readFailed reading err => exact faithful.failed found err
  | refused reportId maxEventId err reporting => exact faithful.failed found err
  | failed reportId maxEventId err reporting => exact faithful.failed found err
  | updated updating result =>
      refine faithful.replaced found (finish_response _ _) fun response isResponse alone => ?_
      rw [finish_of_alone _ alone]
      refine ⟨rfl, alone, fun _ isVolume mounted => ?_⟩
      obtain ⟨row, isRow⟩ := Option.isSome_iff_exists.mp mounted
      exact (faithful.calls row isRow call member isVolume response isResponse).known (.inl updating)

theorem read (faithful : Faithful volumeId s) (accounted : Accounted volumeId s)
    (orderly : s.Orderly) {call : SyncCall} (found : s.calls.find? call.syncId = some call)
    {row : StorageVolume} (isRow : s.storage.volumes.find? call.volumeId = some row)
    {events : List BundleReplicaEvent}
    (ran : VolumeDb.getBundleChangeRecords 128 row.volume.db = .ok events row.volume.db) :
    Faithful volumeId
      { s.moveTo call (.reporting (s.reports.seq + 1) (maxEventId (sortEvents events))) with
        reports := s.reports.push (fun reportId => ⟨reportId, sortEvents events, none⟩)
          fun _ => rfl } := by
  have moved : Faithful volumeId
      (s.moveTo call (.reporting (s.reports.seq + 1) (maxEventId (sortEvents events)))) := by
    refine faithful.replaced found rfl fun _ _ alone => ⟨rfl, alone, ?_⟩
    rintro (phase | phase) <;> cases phase
  refine ⟨moved.records, ?_, moved.replicas, moved.calls, moved.alone, moved.mounted⟩
  intro other isOther report member event among isVolume
  rcases mem_appended.mp member with old | rfl
  · exact faithful.events other isOther report old event among isVolume
  · have inEvents := mem_sortEvents.mp among
    obtain ⟨record, taken, isRecord⟩ :=
      exists_record (VolumeDb.reads_of_getBundleChangeRecords ran) inEvents
    have isCall : call.volumeId = volumeId :=
      (orderly.identified _ _ isRow).2.symm.trans (isRecord.volumeId.symm.trans isVolume)
    rw [isCall] at isRow
    obtain rfl := Option.some.inj (isOther.symm.trans isRow)
    have inTable := VolumeDb.mem_changeRecords.mp (List.mem_of_mem_take taken)
    have isStored := faithful.records other isOther record inTable
    have has : other.volume.tables.HasBundle record.bundleId :=
      ((accounted.sound other isOther).truthful record.entry (List.mem_map_of_mem inTable)).mp
        (decide_eq_true isStored)
    obtain ⟨rawLen, compressedLen⟩ := Storage.getBundleChangeRecords_carriesSums ran event inEvents
    exact ⟨isRecord.kind.trans isStored, _, _, rawLen, compressedLen,
      isRecord.bundleId ▸ has, rfl, rfl⟩

/-- What central has of a volume after a report that is true of it. -/
theorem delivered (faithful : Faithful volumeId s) {server : CentralServer}
    {events : List BundleReplicaEvent}
    (reported : ∀ key, ReplicaReported events key (s.central.db.1.bundleReplicas.find? key)
      (server.db.1.bundleReplicas.find? key))
    (tells : ∀ row, s.storage.volumes.find? volumeId = some row → ∀ event ∈ events,
      event.volumeId = volumeId → TellsLens row.volume.tables event) :
    Faithful volumeId { s with central := server } := by
  refine ⟨faithful.records, faithful.events, ?_, ?_, faithful.alone, faithful.mounted⟩
  · intro row found bundleId replica isReplica
    have isReplica : server.db.1.bundleReplicas.find? (bundleId, volumeId) = some replica := isReplica
    cases reported (bundleId, volumeId) with
    | untouched foreign same =>
        exact faithful.replicas row found bundleId replica (same.symm.trans isReplica)
    | stored event stored member isKey kind isRaw isCompressed now =>
        obtain rfl := Option.some.inj (now.symm.trans isReplica)
        obtain ⟨rfl, isVolume⟩ := Prod.mk.inj isKey
        obtain ⟨rawLen, compressedLen, raw, compressed, lens⟩ :=
          (tells row found event member isVolume).lens
        obtain rfl := Option.some.inj (raw.symm.trans isRaw)
        obtain rfl := Option.some.inj (compressed.symm.trans isCompressed)
        exact lens
    | deleted event member isKey kind now => cases now.symm.trans isReplica
  · intro row found call member isVolume response isResponse
    have acknowledges := faithful.calls row found call member isVolume response isResponse
    refine ⟨acknowledges.lens, fun ended => ?_⟩
    have known := acknowledges.known ended
    show (server.db.1.bundleReplicas.find? (response.bundleId, volumeId)).isSome
    cases reported (response.bundleId, volumeId) with
    | untouched foreign same => rw [same, known]
    | stored event stored member isKey kind isRaw isCompressed now => rw [now, Option.isSome_some]
    | deleted event member isKey kind now =>
        have isStored := (tells row found event member (Prod.mk.inj isKey).2).kind
        rw [kind] at isStored
        cases isStored

/-- The same reports with more answers. -/
theorem answered (faithful : Faithful volumeId s) {report : BundleReport}
    (member : report ∈ s.reports.rows) (answer : Option (Fs0Result Unit)) :
    Faithful volumeId { s with reports := s.reports.replace { report with answer := answer } } := by
  refine ⟨faithful.records, ?_, faithful.replicas, faithful.calls, faithful.alone,
    faithful.mounted⟩
  · intro row found other among
    rcases SeqTable.mem_replace among with rfl | ⟨old, -⟩
    · exact faithful.events row found report member
    · exact faithful.events row found other old

theorem unchanged (faithful : Faithful volumeId s) {server : CentralServer}
    (same : server.db.1.bundleReplicas = s.central.db.1.bundleReplicas) :
    Faithful volumeId { s with central := server } := by
  refine ⟨faithful.records, faithful.events, ?_, ?_, faithful.alone, faithful.mounted⟩
  · show ∀ row, _ → ∀ bundleId replica, server.db.1.bundleReplicas.find? _ = _ → _
    rw [same]
    exact faithful.replicas
  · intro row found call member isVolume response isResponse
    have acknowledges := faithful.calls row found call member isVolume response isResponse
    refine ⟨acknowledges.lens, ?_⟩
    show _ → (server.db.1.bundleReplicas.find? _).isSome
    rw [same]
    exact acknowledges.known

theorem reported (faithful : Faithful volumeId s) {report : BundleReport}
    (found : s.reports.find? report.reportId = some report) (storageId : Nat)
    (commit : Option Fs0Error) : Faithful volumeId (s.answer report storageId commit) := by
  have member := (Table.mem_of_find? found).1
  unfold answer
  cases ran : StorageRequest.reportBundleReplica commit storageId report.events s.central with
  | ok response server =>
      have delivered := faithful.delivered (StorageRequest.reportBundleReplica_reported ran)
        fun row isRow => faithful.events row isRow report member
      exact delivered.answered member (some (.ok ()))
  | error err server =>
      have same := StorageRequest.reportBundleReplica_refused ran
      exact (faithful.unchanged (congrArg CentralTables.bundleReplicas same)).answered member
        (some (.error err))

theorem central (faithful : Faithful volumeId s) {action : CentralAction}
    (alone : ∀ event ∈ action.reported, event.volumeId ≠ volumeId) :
    Faithful volumeId { s with central := s.central.act config action } := by
  rcases s.central.act_replicas config action with same | reported
  · exact faithful.unchanged same
  · exact faithful.delivered reported fun row _ event member isVolume =>
      absurd isVolume (alone event member)

theorem restarted (faithful : Faithful volumeId s) (gone : SyncCall → Bool) :
    Faithful volumeId { s with calls := s.calls.delete gone } := by
  refine ⟨faithful.records, faithful.events, faithful.replicas, ?_, ?_, ?_⟩
  · exact fun row found call member =>
      faithful.calls row found call (SeqTable.mem_delete.mp member).1
  · exact fun call member => faithful.alone call (SeqTable.mem_delete.mp member).1
  · exact fun call member => faithful.mounted call (SeqTable.mem_delete.mp member).1

end Faithful

/-- The volume of a commit stores the bundle with the lengths that are returned. -/
theorem hasLens_of_commit {request : CommitBundleRequest} {leaseNow : Nat} {commit : Option Fs0Error}
    {stored : StorageServer} {v : Volume} {bundle : BundleMeta}
    (taken : (Fs0.storage blake3 zstdDecompress).step s.storage
      (.commitBundle request leaseNow commit) = some stored)
    (checked : (s.storage.retainLeases leaseNow).checkCommit request = .ok v)
    (ran : outcome (Volume.commitBundle blake3 commit request.bundleId request.chunks v.db) =
      .ok bundle) :
    ∃ row, stored.volumes.find? request.volumeId = some row ∧
      row.volume.tables.HasLens request.bundleId bundle.rawLen bundle.compressedLen := by
  have step := (StorageServer.step_commitBundle_of_ok checked).symm.trans taken
  obtain ⟨v', stepped, rfl⟩ := Option.map_eq_some_iff.mp step
  have now : ((s.storage.retainLeases leaseNow).volumes.put ⟨request.volumeId, v'⟩).find?
      request.volumeId = some ⟨request.volumeId, v'⟩ := Table.find?_put_self
  refine ⟨_, now, ?_⟩
  obtain rfl := Option.some.inj stepped
  exact Volume.hasLens_of_committed (eq_ok_of_outcome ran)

namespace Faithful

theorem of_step (faithful : Faithful volumeId s) (accounted : Accounted volumeId s)
    (orderly : s.Orderly)
    (bundled : ∀ other row, s.storage.volumes.find? other = some row →
      Volume.Bundled blake3 row.volume.tables)
    (alone : e.Alone volumeId) (step : ReportingStep config blake3 zstdDecompress s e s') :
    Faithful volumeId s' := by
  cases step with
  | committed request leaseNow commit stored v bundle taken checked ran =>
      have kept := faithful.stored bundled taken fun caused causes => by
        obtain ⟨-, rfl⟩ := causes
        rfl
      obtain ⟨stored', isRow, lens⟩ := hasLens_of_commit taken checked ran
      refine kept.begun _ _ _ (fun _ _ => rfl) ?_ fun _ _ => by rw [isRow]; rfl
      rintro row found rfl returned isReturned
      obtain rfl := Option.some.inj isReturned
      obtain rfl := Option.some.inj (isRow.symm.trans found)
      exact lens
  | uncommitted request leaseNow commit stored taken =>
      exact faithful.stored bundled taken fun caused causes => by
        obtain ⟨-, rfl⟩ := causes
        rfl
  | nothing => exact faithful
  | began other rest => exact faithful.begun _ _ _ nofun nofun nofun
  | called e call after found stepped => exact faithful.called accounted found stepped
  | read call found reading row isRow events nonempty ran =>
      exact faithful.read accounted orderly found isRow ran
  | reported report storageId commit found unanswered =>
      exact faithful.reported found storageId commit
  | removed call found reportId maxEventId removing row isRow stored taken after isAfter =>
      have kept := faithful.stored bundled taken fun caused causes => by
        obtain ⟨-, rfl⟩ := causes
        rfl
      rcases isAfter with rfl | ⟨err, rfl⟩
      · refine kept.replaced found (by rfl) fun _ _ alone => ⟨by rfl, alone, ?_⟩
        rintro (phase | phase) <;> cases phase
      · exact kept.failed found err
  | stored e unowned stored taken =>
      refine faithful.stored bundled taken fun caused causes => ?_
      cases e with
      | volume other e =>
          obtain ⟨rfl, rfl⟩ := causes
          cases caused with
          | deleteBundle bundleId commit => exact absurd rfl alone
          | _ => rfl
      | uploadChunk request leaseNow now =>
          obtain ⟨-, rfl⟩ := causes
          rfl
      | commitBundle request leaseNow commit => cases unowned
      | restart torn => cases unowned
      | grantUploadLease request => cases causes
      | revokeUploadLease leaseId => cases causes
  | restarted torn stored taken =>
      refine (faithful.stored bundled taken fun caused causes => ?_).restarted _
      obtain rfl : caused = _ := causes
      rfl
  | central action => exact faithful.central alone

end Faithful

theorem faithful_init (initial : (reporting config blake3 zstdDecompress).Init s) :
    Faithful volumeId s := by
  obtain ⟨isCentral, stored, -, calls, reports⟩ := initial
  have noCall : ∀ call ∈ s.calls.rows, False := by
    rw [calls]
    exact nofun
  refine ⟨?_, ?_, ?_, fun row found call member => (noCall call member).elim,
    fun call member => (noCall call member).elim, fun call member => (noCall call member).elim⟩
  · intro row found record member
    obtain ⟨tables, files, initialised, isVolume⟩ := stored.2 row (Table.mem_of_find? found).1
    have records : row.volume.tables.bundleChangeRecords.rows = [] := by
      rw [isVolume]
      show tables.bundleChangeRecords.rows = []
      rw [initialised.fresh.records]
      rfl
    rw [records] at member
    cases member
  · intro row found report member
    rw [reports] at member
    cases member
  · intro row found bundleId replica isReplica
    rw [isCentral] at isReplica
    cases isReplica

theorem faithful_of_run {ts : List (Transition ReportingStorage ReportingEvent)}
    (run : (reporting config blake3 zstdDecompress).Run ts s)
    (alone : ∀ t ∈ ts, t.event.Alone volumeId) :
    ∀ x ∈ visited ts s, Accounted volumeId x ∧ Faithful volumeId x := by
  have known := run.invariant_of_guard
    (fun s => (reporting config blake3 zstdDecompress).Reachable s ∧ Accounted volumeId s ∧
      Faithful volumeId s)
    (fun _ e => e.Alone volumeId)
    (fun s initial => ⟨.init initial, accounted_init initial, faithful_init initial⟩) ?_ alone
  · exact fun x member => (known x member).2
  · rintro s e s' ⟨reachable, accounted, faithful⟩ alone taken
    have orderly := reachable_orderly reachable
    have step := step_cases taken
    have volumes : ∀ other row, s.storage.volumes.find? other = some row →
        (Fs0.volume blake3).Reachable row.volume := fun _ _ found => reachable_volume reachable found
    exact ⟨reachable.step taken,
      accounted.of_step orderly
        (fun other row found => Volume.reachable_oneRecordEach (volumes other row found))
        (faithful.admits accounted alone) step,
      faithful.of_step accounted orderly
        (fun other row found => Volume.reachable_bundled (volumes other row found)) alone step⟩

/-! ## Calls that are over -/

/-- A call that is over stays as it is. -/
theorem over_of_step (step : ReportingStep config blake3 zstdDecompress s e s') {call : SyncCall}
    (member : call ∈ s.calls.rows) (isDone : call.phase.isDone = true) : call ∈ s'.calls.rows := by
  have elsewhere : ∀ {other after : SyncCall}, s.calls.find? other.syncId = some other →
      after.syncId = other.syncId → other.phase.isDone = false →
        call ∈ (s.calls.replace after).rows := by
    intro other after found same isOpen
    refine SeqTable.mem_replace_of_ne member fun isOther => ?_
    have isCall := Table.eq_of_key_eq member (Table.mem_of_find? found).1 (isOther.trans same)
    rw [isCall, isOpen] at isDone
    cases isDone
  cases step with
  | committed request leaseNow commit stored v bundle taken checked ran =>
      exact mem_appended.mpr (.inl member)
  | began other rest => exact mem_appended.mpr (.inl member)
  | called e other after found stepped =>
      cases stepped with
      | locked waiting unlocked => exact elsewhere found rfl (by rw [waiting]; rfl)
      | drained reading row isRow none => exact elsewhere found rfl (by rw [reading]; rfl)
      | readFailed reading err => exact elsewhere found (finish_syncId _ _) (by rw [reading]; rfl)
      | replied reportId maxEventId report reporting isReport answered =>
          exact elsewhere found rfl (by rw [reporting]; rfl)
      | refused reportId maxEventId err reporting =>
          exact elsewhere found (finish_syncId _ _) (by rw [reporting]; rfl)
      | failed reportId maxEventId err reporting =>
          exact elsewhere found (finish_syncId _ _) (by rw [reporting]; rfl)
      | updated updating result =>
          exact elsewhere found (finish_syncId _ _) (by rw [updating]; rfl)
  | read other found reading row isRow events nonempty ran =>
      exact elsewhere found rfl (by rw [reading]; rfl)
  | removed other found reportId maxEventId removing row isRow stored taken after isAfter =>
      rcases isAfter with rfl | ⟨err, rfl⟩
      · exact elsewhere found rfl (by rw [removing]; rfl)
      · exact elsewhere found (finish_syncId _ _) (by rw [removing]; rfl)
  | restarted torn stored taken =>
      exact SeqTable.mem_delete.mpr ⟨member, by rw [isDone]; rfl⟩
  | _ => exact member

end ReportingStorage

open ReportingStorage

/-- When no bundle of a volume is deleted and no other storage reports about it, a bundle that
`commit_bundle` acknowledged has its replica row, with the lengths of the response, in every
state from then on. -/
theorem acknowledged_bundle_known {config : CentralConfig} {blake3 : Bytes → HashId}
    {zstdDecompress : Bytes → Nat → Fs0Result Bytes} {s : ReportingStorage} {volumeId : Nat}
    {later earlier : List (Transition ReportingStorage ReportingEvent)}
    {t : Transition ReportingStorage ReportingEvent}
    (run : (reporting config blake3 zstdDecompress).Run (later ++ t :: earlier) s)
    (alone : ∀ x ∈ later ++ t :: earlier, x.event.Alone volumeId)
    {call : SyncCall} (member : call ∈ t.post.calls.rows) (isVolume : call.volumeId = volumeId)
    {response : CommitBundleResponse} (isResponse : call.response = some response)
    (returned : call.phase = .done (.ok ())) :
    ∃ replica, s.central.db.1.bundleReplicas.find? (response.bundleId, volumeId) = some replica ∧
      replica.rawLen = response.rawLen ∧ replica.compressedLen = response.compressedLen := by
  have stays : call ∈ s.calls.rows := run.since (fun s => call ∈ s.calls.rows) member
    fun x _ _ before taken => over_of_step (step_cases taken) before (by rw [returned]; rfl)
  obtain ⟨-, faithful⟩ := faithful_of_run run alone s List.mem_cons_self
  obtain ⟨row, found⟩ := Option.isSome_iff_exists.mp
    (faithful.mounted call stays response isResponse isVolume)
  have acknowledges := faithful.calls row found call stays isVolume response isResponse
  obtain ⟨replica, isReplica⟩ := Option.isSome_iff_exists.mp (acknowledges.known (.inr returned))
  have lens := faithful.replicas row found response.bundleId replica isReplica
  exact ⟨replica, isReplica, lens.rawLen.trans acknowledges.lens.rawLen.symm,
    lens.compressedLen.trans acknowledges.lens.compressedLen.symm⟩

namespace ReportingStorage.Scenario

/-- No bundle is deleted, and nobody else reports. -/
def undisturbed (_ : ReportingStorage) : ReportingEvent → Bool
  | .storage (.volume _ (.deleteBundle _ _)) => false
  | .central action => action.reported.isEmpty
  | _ => true

theorem alone_of_undisturbed {s : ReportingStorage} {e : ReportingEvent}
    (quiet : undisturbed s e = true) (volumeId : Nat) : e.Alone volumeId := by
  cases e with
  | storage e =>
      cases e with
      | volume other e =>
          cases e with
          | deleteBundle bundleId commit => cases quiet
          | _ => trivial
      | _ => trivial
  | central action =>
      have none : action.reported = [] := List.isEmpty_iff.mp quiet
      intro event member
      rw [none] at member
      cases member
  | _ => trivial

/-- The call that committed the bundle of the scenario, when it returns. -/
def returned : SyncCall :=
  ⟨1, 1, [], some ⟨Volume.Scenario.hash 7, 3, 3⟩, .done (.ok ())⟩

end ReportingStorage.Scenario

open ReportingStorage.Scenario

/-- A bundle of one chunk of 3 bytes. -/
theorem acknowledged_bundle_known_synchronised : ∃ s replica, system.Reachable s ∧
    s.central.db.1.bundleReplicas.find? (Volume.Scenario.hash 7, 1) = some replica ∧
    replica.rawLen = 3 ∧ replica.compressedLen = 3 := by
  obtain ⟨s, ends, more⟩ := Option.bind_eq_some_iff.mp
    (show ((system.execWhile undisturbed initial (synchronised ++ [.readRecords 1])).bind fun s =>
        (system.step s (.offsetUpdated 1 (.ok ()))).map fun s => s.calls.rows) = some [returned] by
      decide +kernel)
  obtain ⟨s', taken, calls⟩ := Option.map_eq_some_iff.mp more
  obtain ⟨ts, before, admitted⟩ := (System.Run.init initial_init).execWhile _ ends
  rw [List.append_nil] at before
  let later : List (Transition ReportingStorage ReportingEvent) := []
  have run : system.Run (later ++ ⟨s, .offsetUpdated 1 (.ok ()), s'⟩ :: ts) s' := before.step taken
  have alone : ∀ x ∈ later ++ ⟨s, .offsetUpdated 1 (.ok ()), s'⟩ :: ts, x.event.Alone 1 := by
    intro x member
    rcases List.mem_cons.mp member with rfl | earlier
    · trivial
    · exact alone_of_undisturbed (admitted x earlier) 1
  have isCall : returned ∈ s'.calls.rows := by
    rw [calls]
    exact List.mem_singleton.mpr rfl
  obtain ⟨replica, found, rawLen, compressedLen⟩ :=
    acknowledged_bundle_known run alone isCall rfl rfl rfl
  exact ⟨s', replica, run.reachable, found, rawLen, compressedLen⟩

end Fs0
