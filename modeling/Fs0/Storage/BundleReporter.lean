import Fs0.Central.Replicas
import Fs0.Storage.Server

/-!
Contract: the bundle reporter of a storage, between the storage and central.

Owns:
- the calls of `sync_volume`, section by section under the lock of their volume, for
  `commit_bundle` and for `sync_all`;
- the reports under way, which central handles at any later time, and whose answers
  may be lost;
- the events of the storage and of central in any order, restarts among them.

Does not own: what central is told in the end.
-/

set_option autoImplicit false

namespace Fs0

open Lib Fallible

/-! ## Calls -/

/-- Where a call of `sync_volume` stands. From `reading` on it holds the lock. -/
inductive SyncPhase where
  | waiting
  | reading
  | reporting (reportId maxEventId : Nat)
  | removing (reportId maxEventId : Nat)
  | updating
  | done (result : Fs0Result Unit)
deriving DecidableEq

namespace SyncPhase

def holdsLock : SyncPhase → Bool
  | .waiting => false
  | .done _ => false
  | _ => true

/-- The report between `get_bundle_change_records` and `remove_bundle_change_records`. -/
def window : SyncPhase → Option (Nat × Nat)
  | .reporting reportId maxEventId => some (reportId, maxEventId)
  | .removing reportId maxEventId => some (reportId, maxEventId)
  | _ => none

def isDone : SyncPhase → Bool
  | .done _ => true
  | _ => false

end SyncPhase

/-- A handler of `CommitBundle` that has committed, or a `sync_all`. -/
structure SyncCall where
  syncId : Nat
  volumeId : Nat
  /-- The volumes `sync_all` still has to visit. -/
  rest : List Nat
  /-- What `commit_bundle` returns when the volume is synchronised. -/
  response : Option CommitBundleResponse
  phase : SyncPhase
deriving DecidableEq

/-- Ends the synchronisation of one volume. -/
def SyncCall.finish (call : SyncCall) (result : Fs0Result Unit) : SyncCall :=
  match result, call.rest with
  | .ok _, volumeId :: rest => { call with volumeId := volumeId, rest := rest, phase := .waiting }
  | _, _ => { call with phase := .done result }

/-- A `ReportBundleReplica` request, and what central answered. -/
structure BundleReport where
  reportId : Nat
  events : List BundleReplicaEvent
  answer : Option (Fs0Result Unit)
deriving DecidableEq

/-! ## Events -/

structure ReportingStorage where
  central : CentralServer
  storage : StorageServer
  calls : SeqTable SyncCall.syncId
  reports : SeqTable BundleReport.reportId

inductive ReportingEvent where
  | commitBundle (request : CommitBundleRequest) (leaseNow : Nat) (commit : Option Fs0Error)
  | syncAll
  | lock (syncId : Nat)
  | readRecords (syncId : Nat)
  /-- Central handles a report for the storage that its connection belongs to. -/
  | report (reportId storageId : Nat) (commit : Option Fs0Error)
  /-- The answer of central arrives. -/
  | reply (syncId : Nat)
  /-- The call of central fails, whatever central makes of the report. -/
  | failReport (syncId : Nat) (err : Fs0Error)
  | removeRecords (syncId : Nat)
  /-- `update_storage_volume_offset` returns. -/
  | offsetUpdated (syncId : Nat) (result : Fs0Result Unit)
  /-- Anything else that happens at the storage. -/
  | storage (e : StorageEvent)
  | restart (torn : Nat → DataFiles)
  /-- Anything else that happens at central. -/
  | central (action : CentralAction)

/-- The events of a storage that only `commit_bundle`, the reporter and a restart bring
about. -/
def StorageEvent.ownedByReporter : StorageEvent → Bool
  | .commitBundle _ _ _ => true
  | .volume _ (.removeBundleChangeRecords _) => true
  | .volume _ (.reopen _) => true
  | .restart _ => true
  | _ => false

namespace ReportingStorage

/-- No other call holds the lock of the volume. -/
def Unlocked (s : ReportingStorage) (volumeId : Nat) : Prop :=
  ∀ call ∈ s.calls.rows, call.volumeId = volumeId → call.phase.holdsLock = false

instance (s : ReportingStorage) (volumeId : Nat) : Decidable (s.Unlocked volumeId) :=
  inferInstanceAs (Decidable (∀ call ∈ s.calls.rows, _))

/-- Starts a call that has a volume to synchronise. -/
def begin (s : ReportingStorage) (volumeId : Nat) (rest : List Nat)
    (response : Option CommitBundleResponse) : ReportingStorage :=
  { s with
    calls := s.calls.push (fun syncId => ⟨syncId, volumeId, rest, response, .waiting⟩) fun _ => rfl }

def moveTo (s : ReportingStorage) (call : SyncCall) (phase : SyncPhase) : ReportingStorage :=
  { s with calls := s.calls.replace { call with phase := phase } }

def finish (s : ReportingStorage) (call : SyncCall) (result : Fs0Result Unit) :
    ReportingStorage :=
  { s with calls := s.calls.replace (call.finish result) }

/-- The part of `commit_bundle` up to its call of `sync_volume`. -/
def commitBundle (blake3 : Bytes → HashId) (zstdDecompress : Bytes → Nat → Fs0Result Bytes)
    (s : ReportingStorage) (request : CommitBundleRequest) (leaseNow : Nat)
    (commit : Option Fs0Error) : Option ReportingStorage :=
  (s.storage.step blake3 zstdDecompress (.commitBundle request leaseNow commit)).map fun storage =>
    let s' := { s with storage := storage }
    match (s.storage.retainLeases leaseNow).checkCommit request with
    | .ok v =>
        match outcome (Volume.commitBundle blake3 commit request.bundleId request.chunks v.db) with
        | .ok bundle =>
            s'.begin request.volumeId [] (some ⟨request.bundleId, bundle.rawLen, bundle.compressedLen⟩)
        | .error _ => s'
    | .error _ => s'

/-- The volumes in the order of their ids. -/
def volumeIds (s : ReportingStorage) : List Nat :=
  (s.storage.volumes.rows.map StorageVolume.volumeId).insertionSort (· ≤ ·)

def syncAll (s : ReportingStorage) : ReportingStorage :=
  match s.volumeIds with
  | [] => s
  | volumeId :: rest => s.begin volumeId rest none

/-- The changes in the order of their event ids, as `sync_volume` sorts them. -/
def sortEvents (events : List BundleReplicaEvent) : List BundleReplicaEvent :=
  events.insertionSort fun left right => left.eventId ≤ right.eventId

/-- The last event id of a report. -/
def maxEventId (events : List BundleReplicaEvent) : Nat :=
  (events.getLast?.map BundleReplicaEvent.eventId).getD 0

/-- The head of the loop of `sync_volume`. -/
def readRecords (s : ReportingStorage) (call : SyncCall) (v : Volume) : ReportingStorage :=
  match outcome (VolumeDb.getBundleChangeRecords 128 v.db) with
  | .error err => s.finish call (.error err)
  | .ok [] => s.moveTo call .updating
  | .ok (event :: later) =>
      let events := sortEvents (event :: later)
      let reporting : SyncPhase := .reporting (s.reports.seq + 1) (maxEventId events)
      { s.moveTo call reporting with
        reports := s.reports.push (fun reportId => ⟨reportId, events, none⟩) fun _ => rfl }

/-- Central handles a report. -/
def answer (s : ReportingStorage) (report : BundleReport) (storageId : Nat)
    (commit : Option Fs0Error) : ReportingStorage :=
  let result := StorageRequest.reportBundleReplica commit storageId report.events s.central
  let answered : BundleReport :=
    { report with answer := some ((outcome result).map fun _ => ()) }
  { s with
    central := endState result
    reports := s.reports.replace answered }

def removeRecords (blake3 : Bytes → HashId) (s : ReportingStorage) (call : SyncCall)
    (v : Volume) (maxEventId : Nat) : Option ReportingStorage :=
  (s.storage.onVolume blake3 call.volumeId v (.removeBundleChangeRecords maxEventId)).map
    fun storage =>
      let s' := { s with storage := storage }
      match outcome (VolumeDb.removeBundleChangeRecords maxEventId v.db) with
      | .ok _ => s'.moveTo call .reading
      | .error err => s'.finish call (.error err)

def restart (blake3 : Bytes → HashId) (zstdDecompress : Bytes → Nat → Fs0Result Bytes)
    (s : ReportingStorage) (torn : Nat → DataFiles) : Option ReportingStorage :=
  (s.storage.step blake3 zstdDecompress (.restart torn)).map fun storage =>
    { s with
      storage := storage
      calls := s.calls.delete fun call => !call.phase.isDone }

def step (config : CentralConfig) (blake3 : Bytes → HashId)
    (zstdDecompress : Bytes → Nat → Fs0Result Bytes) (s : ReportingStorage) :
    ReportingEvent → Option ReportingStorage
  | .commitBundle request leaseNow commit =>
      s.commitBundle blake3 zstdDecompress request leaseNow commit
  | .syncAll => some s.syncAll
  | .lock syncId =>
      (s.calls.find? syncId).bind fun call =>
        if call.phase = .waiting ∧ s.Unlocked call.volumeId then some (s.moveTo call .reading)
        else none
  | .readRecords syncId =>
      (s.calls.find? syncId).bind fun call =>
        if call.phase = .reading then
          (s.storage.volumes.find? call.volumeId).map fun row => s.readRecords call row.volume
        else none
  | .report reportId storageId commit =>
      (s.reports.find? reportId).bind fun report =>
        if report.answer = none then some (s.answer report storageId commit) else none
  | .reply syncId =>
      (s.calls.find? syncId).bind fun call =>
        match call.phase with
        | .reporting reportId maxEventId =>
            (s.reports.find? reportId).bind fun report =>
              match report.answer with
              | some (.ok _) => some (s.moveTo call (.removing reportId maxEventId))
              | some (.error err) => some (s.finish call (.error err))
              | none => none
        | _ => none
  | .failReport syncId err =>
      (s.calls.find? syncId).bind fun call =>
        match call.phase with
        | .reporting _ _ => some (s.finish call (.error err))
        | _ => none
  | .removeRecords syncId =>
      (s.calls.find? syncId).bind fun call =>
        match call.phase with
        | .removing _ maxEventId =>
            (s.storage.volumes.find? call.volumeId).bind fun row =>
              s.removeRecords blake3 call row.volume maxEventId
        | _ => none
  | .offsetUpdated syncId result =>
      (s.calls.find? syncId).bind fun call =>
        if call.phase = .updating then some (s.finish call result) else none
  | .storage e =>
      if e.ownedByReporter then none
      else (s.storage.step blake3 zstdDecompress e).map fun storage => { s with storage := storage }
  | .restart torn => s.restart blake3 zstdDecompress torn
  | .central action => some { s with central := s.central.act config action }

end ReportingStorage

/-- A storage whose volumes were just initialised under their ids, and a new central. -/
def reporting (config : CentralConfig) (blake3 : Bytes → HashId)
    (zstdDecompress : Bytes → Nat → Fs0Result Bytes) : System ReportingStorage ReportingEvent where
  Init s := s.central = CentralServer.run CentralDb.open' ∧
    (storage blake3 zstdDecompress).Init s.storage ∧
    (∀ row ∈ s.storage.volumes.rows, row.volume.tables.volumeMeta.volumeId = row.volumeId) ∧
    s.calls = .empty ∧ s.reports = .empty
  step := ReportingStorage.step config blake3 zstdDecompress

end Fs0
