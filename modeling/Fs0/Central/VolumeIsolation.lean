import Fs0.Central.Mounts
import Fs0.Central.StorageRegistration

/-!
Contract: what the requests of a storage may change of the volumes of others.

Owns:
- the sections of a request from its first to its answer, with other handlers in between;
- that reports and endpoint updates keep to the volumes the storage mounts, and change
  nothing when they fail;
- the exact states in which the update of a volume offset does so, which stores the offset
  before it looks at the volumes of the storage.

Does not own: the registration of storages.
-/

set_option autoImplicit false

namespace Fs0

open Lib Fallible

/-! ## What is compared -/

namespace CentralServer

/-- The entries of a volume in what is known of a storage. -/
def peerEntries (server : CentralServer) (storageId volumeId : Nat) : List StorageVolumeInfo :=
  match server.storages.find? storageId with
  | none => []
  | some storage => storage.peer.volumes.filter fun volume => volume.volumeId = volumeId

/-- The rows and the entries of a volume are the same. -/
structure SameVolume (volumeId : Nat) (before after : CentralServer) : Prop where
  row : after.db.1.volumes.find? volumeId = before.db.1.volumes.find? volumeId
  replicas : ∀ replica : BundleReplicaRow, replica.volumeId = volumeId →
    (replica ∈ after.db.1.bundleReplicas.rows ↔ replica ∈ before.db.1.bundleReplicas.rows)
  entries : ∀ storageId,
    after.peerEntries storageId volumeId = before.peerEntries storageId volumeId

/-- The tables and the maps are the same. -/
structure Untouched (before after : CentralServer) : Prop where
  tables : after.db.1 = before.db.1
  clients : after.clients = before.clients
  storages : after.storages = before.storages
  onlineVolumes : after.onlineVolumes = before.onlineVolumes

variable {before after : CentralServer} {volumeId : Nat}

theorem Untouched.refl (server : CentralServer) : Untouched server server :=
  ⟨rfl, rfl, rfl, rfl⟩

theorem Untouched.sameVolume (unchanged : Untouched before after) :
    SameVolume volumeId before after := by
  refine ⟨by rw [unchanged.tables], fun _ _ => by rw [unchanged.tables], fun storageId => ?_⟩
  unfold peerEntries
  rw [unchanged.storages]

/-- The storage is registered and lists the volume. -/
def ListsVolume (server : CentralServer) (storageId volumeId : Nat) : Prop :=
  ∃ storage, server.storages.find? storageId = some storage ∧
    ∃ volume ∈ storage.peer.volumes, volume.volumeId = volumeId

end CentralServer

open CentralServer

/-! ## Requests from the first section to the answer -/

/-- A section of a request: the state it started in and the one it left. -/
structure RequestSection where
  inputs : Inputs
  before : CentralServer
  after : CentralServer

/-- The sections of a request and its answer, by the identity of the connection in the first
of them. What happens between two sections is open. -/
inductive RequestRun (config : CentralConfig) (c stream : Nat) :
    ControlConnectionIdentity → Handler → List RequestSection → Fs0Result ControlResponse →
      Prop where
  | fails {s : Central} {inputs : Inputs} {conn : ControlConnection}
      {identity : ControlConnectionIdentity} {handler : Handler} {err : Fs0Error}
      {server : CentralServer} (reachable : (central config).Reachable s)
      (runs : Central.Runs config s c inputs conn ⟨stream, handler⟩ (.error err server))
      (isIdentity : conn.identity = identity) :
      RequestRun config c stream identity handler [⟨inputs, s.server, server⟩] (.error err)
  | answers {s : Central} {inputs : Inputs} {conn : ControlConnection}
      {identity : ControlConnectionIdentity} {handler : Handler} {response : ControlResponse}
      {server : CentralServer} (reachable : (central config).Reachable s)
      (runs : Central.Runs config s c inputs conn ⟨stream, handler⟩
        (.ok (.respond response) server))
      (isIdentity : conn.identity = identity) :
      RequestRun config c stream identity handler [⟨inputs, s.server, server⟩] (.ok response)
  | goesOn {s : Central} {inputs : Inputs} {conn : ControlConnection}
      {identity later : ControlConnectionIdentity} {handler next : Handler}
      {server : CentralServer} {sections : List RequestSection}
      {answer : Fs0Result ControlResponse} (reachable : (central config).Reachable s)
      (runs : Central.Runs config s c inputs conn ⟨stream, handler⟩ (.ok (.next next) server))
      (isIdentity : conn.identity = identity)
      (rest : RequestRun config c stream later next sections answer) :
      RequestRun config c stream identity handler
        (⟨inputs, s.server, server⟩ :: sections) answer

/-- No section changes a volume that the storage does not mount. -/
def Isolates (storageId : Nat) (sections : List RequestSection) : Prop :=
  ∀ x ∈ sections, ∀ volumeId, ¬ x.before.Mounts volumeId storageId →
    SameVolume volumeId x.before x.after

/-- A request that fails has changed nothing. -/
def FailsClean (sections : List RequestSection) (answer : Fs0Result ControlResponse) : Prop :=
  ∀ err, answer = .error err → ∀ x ∈ sections, Untouched x.before x.after

/-- Storing the offset changes the row of the volume. -/
def RequestSection.StoresOffset (x : RequestSection) (volumeId maxVolumeOffset : Nat) : Prop :=
  x.inputs.commit = none ∧ volumeId ≤ i64Max ∧ maxVolumeOffset ≤ i64Max ∧
    ∃ row, x.before.db.1.volumes.find? volumeId = some row ∧ row.maxVolumeOffset ≠ maxVolumeOffset

/-- An offset that changes the row of a volume is for a volume that the storage mounts, and
that it still lists in the second section. -/
def KeepsToMounts (storageId : Nat) : ControlRequest → List RequestSection → Prop
  | .updateStorageVolumeOffset volumeId maxVolumeOffset, first :: rest =>
      first.StoresOffset volumeId maxVolumeOffset →
        first.before.Mounts volumeId storageId ∧
        ∀ x ∈ rest, x.before.ListsVolume storageId volumeId
  | _, _ => True

/-- The requests of a storage about its volumes. -/
inductive AboutVolumes : ControlRequest → Prop where
  | report (events : List BundleReplicaEvent) : AboutVolumes (.reportBundleReplica events)
  | endpoint (storageId : Nat) (irohEndpoint : Bytes) :
      AboutVolumes (.updateStorageEndpoint storageId irohEndpoint)
  | offset (volumeId maxVolumeOffset : Nat) :
      AboutVolumes (.updateStorageVolumeOffset volumeId maxVolumeOffset)

/-! ## Reports -/

section Sections

variable {server server' : CentralServer} {storageId : Nat} {commit : Option Fs0Error}

theorem reportBundleReplica_ok {events : List BundleReplicaEvent} {response : ControlResponse}
    (ran : StorageRequest.reportBundleReplica commit storageId events server =
      .ok response server') {volumeId : Nat} (unmounted : ¬ server.Mounts volumeId storageId) :
    SameVolume volumeId server server' := by
  obtain ⟨_, server₁, read, ran⟩ := bind_eq_ok.mp ran
  obtain ⟨rfl, rfl⟩ := EStateM.Result.ok.inj read
  obtain ⟨own, ran⟩ := require_bind_eq_ok.mp ran
  obtain ⟨_, server₂, applied, ran⟩ := bind_eq_ok.mp ran
  obtain ⟨-, rfl⟩ := EStateM.Result.ok.inj ran
  obtain ⟨-, db, body, rfl⟩ := CentralM.transact_eq_ok applied
  have reported := StorageRequest.applyReplicaEvents_effect body
  have foreign : ∀ event ∈ events, event.volumeId ≠ volumeId := by
    rintro event member rfl
    obtain ⟨online, isOnline, same⟩ := Option.map_eq_some_iff.mp (own event member)
    obtain ⟨onlineMem, sameVolume⟩ := Table.mem_of_find? isOnline
    have isRow : online = ⟨event.volumeId, storageId⟩ := by
      rw [← sameVolume, ← same]
    rw [isRow] at onlineMem
    exact unmounted onlineMem
  refine ⟨?_, ?_, fun _ => rfl⟩
  · dsimp only
    rw [reported.others]
  · rintro replica rfl
    exact reported.frame replica foreign

/-- A transaction that fails leaves the tables and the maps as they are. -/
theorem transact_untouched {α : Type} {m : CentralTx α} {err : Fs0Error}
    (ran : CentralM.transact commit m server = .error err server') : Untouched server server' := by
  rw [CentralM.transact_eq_error ran]
  exact ⟨rfl, rfl, rfl, rfl⟩

theorem reportBundleReplica_error {events : List BundleReplicaEvent} {err : Fs0Error}
    (ran : StorageRequest.reportBundleReplica commit storageId events server =
      .error err server') : Untouched server server' := by
  have unfolded : StorageRequest.reportBundleReplica commit storageId events server =
      ((require (∀ event ∈ events,
        (server.onlineVolumes.find? event.volumeId).map OnlineVolume.storageId = some storageId)
        .invalidRequest : CentralM PUnit) >>= fun _ =>
        CentralM.transact commit (StorageRequest.applyReplicaEvents events) >>= fun _ =>
          pure .reportBundleReplica) server := rfl
  rw [unfolded] at ran
  rcases bind_eq_error.mp ran with checked | ⟨_, server₁, checked, rest⟩
  · unfold require at checked
    split at checked
    · cases checked
    · obtain ⟨-, rfl⟩ := EStateM.Result.error.inj checked
      exact .refl server
  · obtain ⟨-, rfl⟩ := require_eq_ok.mp checked
    rcases bind_eq_error.mp rest with applied | ⟨_, server₂, -, ended⟩
    · exact transact_untouched applied
    · cases ended

/-! ## What is known of a storage -/

/-- Rewriting what is known of a storage keeps the entries of a volume it does not rewrite. -/
theorem sameVolume_putStorage {old new : StorageControlConnection} {volumeId : Nat}
    (found : server.storages.find? storageId = some old) (sameId : new.storageId = storageId)
    (entries : new.peer.volumes.filter (fun volume => volume.volumeId = volumeId) =
      old.peer.volumes.filter fun volume => volume.volumeId = volumeId) :
    SameVolume volumeId server { server with storages := server.storages.put new } := by
  refine ⟨rfl, fun _ _ => Iff.rfl, fun other => ?_⟩
  unfold peerEntries
  by_cases same : other = storageId
  · subst same
    have isNew : (server.storages.put new).find? other = some new := by
      rw [← sameId]
      exact Table.find?_put_self
    dsimp only
    rw [isNew, found]
    exact entries
  · have isOld : (server.storages.put new).find? other = server.storages.find? other :=
      Table.find?_put_of_ne fun isNew => same (isNew.trans sameId)
    dsimp only
    rw [isOld]

theorem updateStorageEndpoint_ok {irohEndpoint : Bytes} {response : ControlResponse}
    (ran : StorageRequest.updateStorageEndpoint storageId irohEndpoint server =
      .ok response server') (volumeId : Nat) : SameVolume volumeId server server' := by
  rw [updateStorageEndpoint_apply] at ran
  split at ran
  · cases ran
  next storage found =>
    obtain ⟨-, rfl⟩ := EStateM.Result.ok.inj ran
    exact sameVolume_putStorage found (Table.mem_of_find? found).2 rfl

theorem updateStorageEndpoint_error {irohEndpoint : Bytes} {err : Fs0Error}
    (ran : StorageRequest.updateStorageEndpoint storageId irohEndpoint server =
      .error err server') : Untouched server server' := by
  rw [updateStorageEndpoint_apply] at ran
  split at ran
  · obtain ⟨-, rfl⟩ := EStateM.Result.error.inj ran
    exact .refl server
  · cases ran

theorem filter_storeRegistered {volumeId other : Nat} (registered : StorageVolumeInfo)
    (volumes : List StorageVolumeInfo) (differ : other ≠ volumeId) :
    (StorageRequest.storeRegistered volumeId registered volumes).filter
        (fun volume => volume.volumeId = other) =
      volumes.filter fun volume => volume.volumeId = other := by
  induction volumes with
  | nil => rfl
  | cons volume rest inductionHypothesis =>
      unfold StorageRequest.storeRegistered
      split
      next same =>
        have notOther : volume.volumeId ≠ other := fun isOther => differ (isOther.symm.trans same)
        simp [notOther]
      next => rw [List.filter_cons, List.filter_cons, inductionHypothesis]

/-- The second section of an offset update rewrites the entries of its volume only, and
fails only if the storage does not list the volume. -/
theorem storeVolumeOffset_cases (storageId volumeId : Nat) (registered : StorageVolumeInfo)
    (server : CentralServer) :
    (server.ListsVolume storageId volumeId ∧ ∃ server',
      StorageRequest.storeVolumeOffset storageId volumeId registered server =
        .ok .updateStorageVolumeOffset server' ∧
      ∀ other, other ≠ volumeId → SameVolume other server server') ∨
    ¬ server.ListsVolume storageId volumeId ∧
      StorageRequest.storeVolumeOffset storageId volumeId registered server =
        .error .notFound server := by
  rw [storeVolumeOffset_apply]
  cases found : server.storages.find? storageId with
  | none =>
      right
      refine ⟨?_, rfl⟩
      rintro ⟨storage, isStorage, -⟩
      rw [found] at isStorage
      cases isStorage
  | some storage =>
      dsimp only
      split
      next listed =>
        left
        refine ⟨⟨storage, found, listed⟩, _, rfl, fun other differ => ?_⟩
        exact sameVolume_putStorage found (Table.mem_of_find? found).2
          (filter_storeRegistered registered storage.peer.volumes differ)
      next notListed =>
        right
        refine ⟨?_, rfl⟩
        rintro ⟨known, isKnown, listed⟩
        obtain rfl := Option.some.inj (found.symm.trans isKnown)
        exact notListed listed

/-! ## Offsets -/

variable {volumeId maxVolumeOffset : Nat}

/-- Storing an offset changes the row of its volume only. -/
theorem updateVolumeOffset_sameVolume {db : CentralDb} {info : StorageVolumeInfo} {other : Nat}
    (ran : CentralTx.updateVolumeOffset volumeId maxVolumeOffset server.db = .ok info db)
    (differ : other ≠ volumeId) : SameVolume other server { server with db := db } := by
  obtain ⟨others, rows, -⟩ := CentralTx.updateVolumeOffset_effect ran
  refine ⟨Table.find?_congr fun row keyed => ?_, fun _ _ => ?_, fun _ => rfl⟩
  · dsimp only
    rw [rows, List.mem_map]
    have kept : ∀ old : VolumeRow, old.volumeId = other →
        CentralTx.offsetTo volumeId maxVolumeOffset old = old := fun old isOther =>
      if_neg fun same => differ (isOther.symm.trans same)
    constructor
    · rintro ⟨old, oldMem, rfl⟩
      have sameId : old.volumeId = other := by
        rw [← keyed]
        unfold CentralTx.offsetTo
        split <;> rfl
      rwa [kept old sameId]
    · exact fun old => ⟨row, old, kept row keyed⟩
  · dsimp only
    rw [others]

/-- An offset that is already stored changes no table. -/
theorem updateVolumeOffset_tables {db : CentralDb} {info : StorageVolumeInfo}
    (ran : CentralTx.updateVolumeOffset volumeId maxVolumeOffset server.db = .ok info db)
    (same : ∀ row, server.db.1.volumes.find? volumeId = some row →
      row.maxVolumeOffset = maxVolumeOffset) : db.1 = server.db.1 := by
  obtain ⟨-, ran⟩ := CentralTx.bindU64_bind_eq_ok.mp ran
  obtain ⟨-, ran⟩ := CentralTx.bindU64_bind_eq_ok.mp ran
  obtain ⟨changes, db₁, stored, ran⟩ := bind_eq_ok.mp ran
  obtain ⟨stored, -⟩ := CentralTx.execute_eq_ok.mp stored
  obtain ⟨changed, ran⟩ := require_bind_eq_ok.mp ran
  obtain ⟨rfl, -⟩ := CentralTx.getVolume_eq_ok ran
  unfold CentralTables.setVolumeOffset at stored
  split at stored
  · exact absurd (Prod.mk.inj (Except.ok.inj stored)).1.symm changed
  · obtain ⟨-, tables⟩ := Prod.mk.inj (Except.ok.inj stored)
    have kept : ∀ row ∈ server.db.1.volumes.rows,
        CentralTx.offsetTo volumeId maxVolumeOffset row = row := by
      intro row member
      unfold CentralTx.offsetTo
      split
      next isRow =>
        have isStored := same row (Table.find?_eq_some.mpr ⟨member, isRow⟩)
        rw [← isStored]
      next => rfl
    have sameRows : server.db.1.volumes.update (CentralTx.offsetTo volumeId maxVolumeOffset)
        (by intro row; unfold CentralTx.offsetTo; split <;> rfl) = server.db.1.volumes := by
      apply SeqTable.ext
      · rw [SeqTable.rows_update]
        exact (List.map_congr_left kept).trans (List.map_id _)
      · rfl
    rw [← tables]
    exact congrArg (fun volumes => { server.db.1 with volumes := volumes }) sameRows

theorem updateVolumeOffset_row {db : CentralDb} {info : StorageVolumeInfo}
    (ran : CentralTx.updateVolumeOffset volumeId maxVolumeOffset server.db = .ok info db) :
    ∃ row, db.1.volumes.find? volumeId = some row ∧ row.maxVolumeOffset = maxVolumeOffset := by
  obtain ⟨-, rows, row, isRow, -⟩ := CentralTx.updateVolumeOffset_effect ran
  refine ⟨row, isRow, ?_⟩
  obtain ⟨member, sameId⟩ := Table.mem_of_find? isRow
  rw [rows] at member
  obtain ⟨old, -, rfl⟩ := List.mem_map.mp member
  unfold CentralTx.offsetTo at sameId ⊢
  split
  · rfl
  next notOld =>
    rw [if_neg notOld] at sameId
    exact absurd sameId notOld

theorem updateVolumeOffset_fits {db : CentralDb} {info : StorageVolumeInfo}
    (ran : CentralTx.updateVolumeOffset volumeId maxVolumeOffset server.db = .ok info db) :
    volumeId ≤ i64Max ∧ maxVolumeOffset ≤ i64Max := by
  obtain ⟨idFits, ran⟩ := CentralTx.bindU64_bind_eq_ok.mp ran
  obtain ⟨offsetFits, -⟩ := CentralTx.bindU64_bind_eq_ok.mp ran
  exact ⟨idFits, offsetFits⟩

end Sections

/-! ## The sections of a request -/

section Requests

variable {config : CentralConfig} {c stream storageId : Nat} {identity : ControlConnectionIdentity}
  {inputs : Inputs} {before after : CentralServer}

theorem responding_cases {m : CentralM ControlResponse}
    {result : EStateM.Result Fs0Error CentralServer Progress}
    (ran : CentralM.responding m before = result) :
    (∃ err server, m before = .error err server ∧ result = .error err server) ∨
      ∃ response server, m before = .ok response server ∧
        result = .ok (.respond response) server := by
  subst ran
  unfold CentralM.responding
  rw [bind_apply]
  cases m before with
  | ok response server => exact .inr ⟨response, server, rfl, rfl⟩
  | error err server => exact .inl ⟨err, server, rfl, rfl⟩

/-- What a request that has failed in its only section has left as it was. -/
theorem clean_of_untouched {first : RequestSection} {answer : Fs0Result ControlResponse}
    (unchanged : Untouched first.before first.after) :
    Isolates storageId [first] ∧ FailsClean [first] answer := by
  constructor
  · intro x member volumeId _
    obtain rfl := List.mem_singleton.mp member
    exact unchanged.sameVolume
  · intro err _ x member
    obtain rfl := List.mem_singleton.mp member
    exact unchanged

/-- The section for an answer that is computed changes nothing. -/
theorem broadcast_sections {response : ControlResponse} {sections : List RequestSection}
    {answer : Fs0Result ControlResponse}
    (run : RequestRun config c stream identity (.broadcast response) sections answer) :
    answer = .ok response ∧ ∀ x ∈ sections, Untouched x.before x.after := by
  cases run with
  | fails _ runs => cases runs.ran
  | answers _ runs =>
      obtain ⟨isResponse, rfl⟩ := EStateM.Result.ok.inj runs.ran
      obtain rfl := Progress.respond.inj isResponse
      refine ⟨rfl, fun x member => ?_⟩
      obtain rfl := List.mem_singleton.mp member
      exact .refl _
  | goesOn _ runs => cases (EStateM.Result.ok.inj runs.ran).1

theorem report_sections {events : List BundleReplicaEvent} {sections : List RequestSection}
    {answer : Fs0Result ControlResponse}
    (run : RequestRun config c stream (.storage storageId) (.start (.reportBundleReplica events))
      sections answer) :
    Isolates storageId sections ∧ FailsClean sections answer := by
  cases run with
  | fails _ runs isIdentity =>
      have ran := runs.ran
      rw [isIdentity] at ran
      rcases responding_cases ran with ⟨err, server, refused, isError⟩ | ⟨_, _, -, isOk⟩
      · obtain ⟨-, rfl⟩ := EStateM.Result.error.inj isError
        exact clean_of_untouched (reportBundleReplica_error refused)
      · cases isOk
  | answers _ runs isIdentity =>
      have ran := runs.ran
      rw [isIdentity] at ran
      rcases responding_cases ran with ⟨_, _, -, isError⟩ | ⟨_, server, reported, isOk⟩
      · cases isError
      · obtain ⟨-, rfl⟩ := EStateM.Result.ok.inj isOk
        refine ⟨fun x member volumeId unmounted => ?_, nofun⟩
        obtain rfl := List.mem_singleton.mp member
        exact reportBundleReplica_ok reported unmounted
  | goesOn _ runs isIdentity =>
      have ran := runs.ran
      rw [isIdentity] at ran
      rcases responding_cases ran with ⟨_, _, -, isError⟩ | ⟨_, _, -, isOk⟩
      · cases isError
      · cases (EStateM.Result.ok.inj isOk).1

theorem endpoint_sections {requestStorageId : Nat} {irohEndpoint : Bytes}
    {sections : List RequestSection} {answer : Fs0Result ControlResponse}
    (run : RequestRun config c stream (.storage storageId)
      (.start (.updateStorageEndpoint requestStorageId irohEndpoint)) sections answer) :
    Isolates storageId sections ∧ FailsClean sections answer := by
  cases run with
  | fails _ runs isIdentity =>
      have ran := runs.ran
      rw [isIdentity] at ran
      apply clean_of_untouched
      rcases bind_eq_error.mp ran with checked | ⟨_, server₁, checked, rest⟩
      · unfold require at checked
        split at checked
        · cases checked
        · obtain ⟨-, rfl⟩ := EStateM.Result.error.inj checked
          exact .refl _
      · obtain ⟨-, rfl⟩ := require_eq_ok.mp checked
        rcases bind_eq_error.mp rest with refused | ⟨_, _, -, ended⟩
        · exact updateStorageEndpoint_error refused
        · cases ended
  | answers _ runs isIdentity =>
      have ran := runs.ran
      rw [isIdentity] at ran
      obtain ⟨-, ran⟩ := require_bind_eq_ok.mp ran
      obtain ⟨_, _, -, ended⟩ := bind_eq_ok.mp ran
      cases (EStateM.Result.ok.inj ended).1
  | goesOn _ runs isIdentity rest =>
      have ran := runs.ran
      rw [isIdentity] at ran
      obtain ⟨-, ran⟩ := require_bind_eq_ok.mp ran
      obtain ⟨response, server, updated, ended⟩ := bind_eq_ok.mp ran
      obtain ⟨isNext, rfl⟩ := EStateM.Result.ok.inj ended
      obtain rfl := Progress.next.inj isNext
      obtain ⟨rfl, unchanged⟩ := broadcast_sections rest
      refine ⟨fun x member volumeId _ => ?_, nofun⟩
      rcases List.mem_cons.mp member with rfl | later
      · exact updateStorageEndpoint_ok updated volumeId
      · exact (unchanged x later).sameVolume

/-- What the first section of an offset update has stored. -/
structure Stored (first : RequestSection) (volumeId maxVolumeOffset : Nat) : Prop where
  changes : first.StoresOffset volumeId maxVolumeOffset → ∀ other,
    SameVolume other first.before first.after → other ≠ volumeId
  keeps : ¬ first.StoresOffset volumeId maxVolumeOffset → Untouched first.before first.after
  others : ∀ other, other ≠ volumeId → SameVolume other first.before first.after

theorem stored_of_transact {volumeId maxVolumeOffset : Nat} {registered : StorageVolumeInfo}
    (ran : CentralM.transact inputs.commit
      (CentralTx.updateVolumeOffset volumeId maxVolumeOffset) before = .ok registered after) :
    Stored ⟨inputs, before, after⟩ volumeId maxVolumeOffset := by
  obtain ⟨noError, db, body, rfl⟩ := CentralM.transact_eq_ok ran
  have fits := updateVolumeOffset_fits body
  constructor
  · rintro ⟨-, -, -, row, isRow, differs⟩ other same rfl
    obtain ⟨now, isNow, isOffset⟩ := updateVolumeOffset_row body
    have kept : db.1.volumes.find? other = before.db.1.volumes.find? other := same.row
    rw [isNow, isRow] at kept
    obtain rfl := Option.some.inj kept
    exact differs isOffset
  · intro notStored
    have tables : db.1 = before.db.1 := by
      apply updateVolumeOffset_tables body
      intro row isRow
      by_contra differs
      exact notStored ⟨noError, fits.1, fits.2, row, isRow, differs⟩
    exact ⟨tables, rfl, rfl, rfl⟩
  · exact fun other differ => updateVolumeOffset_sameVolume body differ

/-- An offset that is to be stored is stored. -/
theorem transact_of_storesOffset {volumeId maxVolumeOffset : Nat}
    (stores : RequestSection.StoresOffset ⟨inputs, before, after⟩ volumeId maxVolumeOffset) :
    ∃ registered server, CentralM.transact inputs.commit
      (CentralTx.updateVolumeOffset volumeId maxVolumeOffset) before = .ok registered server := by
  obtain ⟨noError, idFits, offsetFits, row, isRow, -⟩ := stores
  obtain ⟨registered, db, body⟩ := Registration.updateVolumeOffset_of_find? idFits offsetFits isRow
  have isNone : inputs.commit = none := noError
  rw [isNone]
  exact ⟨registered, _, CentralM.transact_of_ok body⟩

/-- A storage mounts what it lists. -/
theorem mounts_of_listsVolume {s : Central} (reachable : (central config).Reachable s)
    {volumeId : Nat} (listed : s.server.ListsVolume storageId volumeId) :
    s.server.Mounts volumeId storageId := by
  obtain ⟨storage, isStorage, volume, isVolume, rfl⟩ := listed
  obtain ⟨storageMem, rfl⟩ := Table.mem_of_find? isStorage
  exact (Central.reachable_claims reachable).listed storage.storageId storage.connection _
    ⟨storage, storageMem, rfl, rfl, rfl⟩ volume.volumeId (List.mem_map_of_mem isVolume)

/-- The second section of an offset update, and what its answer says about the storage. -/
theorem offset_rest {volumeId : Nat} {registered : StorageVolumeInfo}
    {sections : List RequestSection} {answer : Fs0Result ControlResponse}
    (run : RequestRun config c stream identity
      (.storeVolumeOffset storageId volumeId registered) sections answer) :
    ∃ second, sections = [second] ∧
      (second.before.ListsVolume storageId volumeId ∧ answer = .ok .updateStorageVolumeOffset ∧
          Isolates storageId [second] ∨
        ¬ second.before.ListsVolume storageId volumeId ∧ (∃ err, answer = .error err) ∧
          Untouched second.before second.after) := by
  cases run with
  | @fails s inputs conn _ _ err server reachable runs =>
      refine ⟨_, rfl, ?_⟩
      rcases responding_cases runs.ran with ⟨err, server, refused, isError⟩ | ⟨_, _, -, isOk⟩
      · obtain ⟨rfl, rfl⟩ := EStateM.Result.error.inj isError
        rcases storeVolumeOffset_cases storageId volumeId registered s.server with
          ⟨-, _, stored, -⟩ | ⟨unlisted, failed⟩
        · rw [refused] at stored
          cases stored
        · rw [refused] at failed
          obtain ⟨-, rfl⟩ := EStateM.Result.error.inj failed
          exact .inr ⟨unlisted, ⟨_, rfl⟩, .refl _⟩
      · cases isOk
  | @answers s inputs conn _ _ response server reachable runs =>
      refine ⟨_, rfl, ?_⟩
      rcases responding_cases runs.ran with ⟨_, _, -, isError⟩ | ⟨_, server, answered, isOk⟩
      · cases isError
      · obtain ⟨isResponse, rfl⟩ := EStateM.Result.ok.inj isOk
        obtain rfl := Progress.respond.inj isResponse
        rcases storeVolumeOffset_cases storageId volumeId registered s.server with
          ⟨listed, server', stored, others⟩ | ⟨-, failed⟩
        · rw [answered] at stored
          obtain ⟨rfl, rfl⟩ := EStateM.Result.ok.inj stored
          refine .inl ⟨listed, rfl, fun x member other unmounted => ?_⟩
          obtain rfl := List.mem_singleton.mp member
          apply others
          rintro rfl
          exact unmounted (mounts_of_listsVolume reachable listed)
        · rw [answered] at failed
          cases failed
  | goesOn _ runs =>
      rcases responding_cases runs.ran with ⟨_, _, -, isError⟩ | ⟨_, _, -, isOk⟩
      · cases isError
      · cases (EStateM.Result.ok.inj isOk).1

theorem isolates_cons {first : RequestSection} {rest : List RequestSection} :
    Isolates storageId (first :: rest) ↔
      (∀ volumeId, ¬ first.before.Mounts volumeId storageId →
        SameVolume volumeId first.before first.after) ∧ Isolates storageId rest :=
  List.forall_mem_cons

theorem offset_sections {volumeId maxVolumeOffset : Nat} {sections : List RequestSection}
    {answer : Fs0Result ControlResponse}
    (run : RequestRun config c stream (.storage storageId)
      (.start (.updateStorageVolumeOffset volumeId maxVolumeOffset)) sections answer) :
    (Isolates storageId sections ∧ FailsClean sections answer) ↔
      KeepsToMounts storageId (.updateStorageVolumeOffset volumeId maxVolumeOffset) sections := by
  cases run with
  | fails _ runs isIdentity =>
      have ran := runs.ran
      rw [isIdentity] at ran
      rcases bind_eq_error.mp ran with failed | ⟨_, _, -, ended⟩
      · refine iff_of_true (clean_of_untouched (transact_untouched failed)) fun stores => ?_
        obtain ⟨registered, server, stored⟩ := transact_of_storesOffset stores
        rw [failed] at stored
        cases stored
      · cases ended
  | answers _ runs isIdentity =>
      have ran := runs.ran
      rw [isIdentity] at ran
      obtain ⟨_, _, -, ended⟩ := bind_eq_ok.mp ran
      cases (EStateM.Result.ok.inj ended).1
  | @goesOn s inputs _ _ _ _ _ server _ _ reachable runs isIdentity rest =>
      have ran := runs.ran
      rw [isIdentity] at ran
      obtain ⟨registered, server, transacted, ended⟩ := bind_eq_ok.mp ran
      obtain ⟨isNext, rfl⟩ := EStateM.Result.ok.inj ended
      obtain rfl := Progress.next.inj isNext
      have stored := stored_of_transact transacted
      obtain ⟨second, rfl, outcome⟩ := offset_rest rest
      rw [isolates_cons]
      unfold KeepsToMounts
      constructor
      · rintro ⟨⟨isolated, -⟩, clean⟩ stores
        refine ⟨?_, fun x member => ?_⟩
        · by_contra unmounted
          exact stored.changes stores volumeId (isolated volumeId unmounted) rfl
        · obtain rfl := List.mem_singleton.mp member
          rcases outcome with ⟨listed, -⟩ | ⟨-, ⟨err, isError⟩, -⟩
          · exact listed
          · have unchanged := clean err isError _ List.mem_cons_self
            exact absurd rfl (stored.changes stores volumeId unchanged.sameVolume)
      · intro keeps
        have isolated : ∀ other, ¬ s.server.Mounts other storageId →
            SameVolume other s.server server := by
          intro other unmounted
          by_cases stores : RequestSection.StoresOffset ⟨inputs, s.server, server⟩ volumeId
              maxVolumeOffset
          · apply stored.others
            rintro rfl
            exact unmounted (keeps stores).1
          · exact (stored.keeps stores).sameVolume
        rcases outcome with ⟨-, rfl, secondIsolated⟩ | ⟨unlisted, -, unchanged⟩
        · exact ⟨⟨isolated, secondIsolated⟩, nofun⟩
        · have notStored : ¬ RequestSection.StoresOffset ⟨inputs, s.server, server⟩ volumeId
              maxVolumeOffset := fun stores =>
            unlisted ((keeps stores).2 second List.mem_cons_self)
          refine ⟨⟨isolated, fun x member other _ => ?_⟩, fun err _ x member => ?_⟩
          · obtain rfl := List.mem_singleton.mp member
            exact unchanged.sameVolume
          · rcases List.mem_cons.mp member with rfl | member
            · exact stored.keeps notStored
            · obtain rfl := List.mem_singleton.mp member
              exact unchanged

end Requests

/-- The requests of a storage about its volumes change no volume that it does not mount, and
nothing when they fail, exactly if an offset that changes the row of a volume is for a volume
that the storage mounts and still lists in the second section of the request. -/
theorem storage_requests_isolated_iff {config : CentralConfig} {c stream storageId : Nat}
    {request : ControlRequest} {sections : List RequestSection}
    {answer : Fs0Result ControlResponse} (about : AboutVolumes request)
    (run : RequestRun config c stream (.storage storageId) (.start request) sections answer) :
    (Isolates storageId sections ∧ FailsClean sections answer) ↔
      KeepsToMounts storageId request sections := by
  cases about with
  | report events => exact iff_of_true (report_sections run) trivial
  | endpoint requestStorageId irohEndpoint => exact iff_of_true (endpoint_sections run) trivial
  | offset volumeId maxVolumeOffset => exact offset_sections run

/-! ## An offset of a volume of another storage -/

namespace Scenario

/-- The section a connection runs next, and how it ends if it does not fail. -/
structure NextSection where
  identity : ControlConnectionIdentity
  handling : Handling
  progress : Option Progress
deriving DecidableEq

def nextSection (s : Central) (c : Nat) (inputs : Inputs) : Option NextSection := do
  let conn ← s.connections.find? c
  let handling ← conn.handling
  match handling.handler.resume config inputs c conn.identity s.server with
  | .ok progress _ => some ⟨conn.identity, handling, some progress⟩
  | .error _ _ => some ⟨conn.identity, handling, none⟩

theorem runs_of_nextSection {s : Central} {c : Nat} {inputs : Inputs}
    {identity : ControlConnectionIdentity} {handling : Handling} {progress : Option Progress}
    (isNext : nextSection s c inputs = some ⟨identity, handling, progress⟩) :
    ∃ conn, conn.identity = identity ∧
      match progress with
      | some progress => ∃ server,
          Central.Runs config s c inputs conn handling (.ok progress server)
      | none => ∃ err server, Central.Runs config s c inputs conn handling (.error err server) := by
  obtain ⟨conn, found, rest⟩ := Option.bind_eq_some_iff.mp isNext
  obtain ⟨handles, isHandling, rest⟩ := Option.bind_eq_some_iff.mp rest
  split at rest
  next ended server ran =>
    obtain ⟨rfl, rfl, rfl⟩ := NextSection.mk.inj (Option.some.inj rest)
    exact ⟨conn, rfl, server, found, isHandling, ran⟩
  next err server ran =>
    obtain ⟨rfl, rfl, rfl⟩ := NextSection.mk.inj (Option.some.inj rest)
    exact ⟨conn, rfl, err, server, found, isHandling, ran⟩

/-- A storage without volumes on connection 3 sends an offset for the first volume. -/
def foreignOffset : List CentralEvent :=
  registered ++ [.connect] ++ request 3 3 6 1 (.registerStorage "t" "token" "0.2.4" [] []) ++
    [.receive 3 (.control (.updateStorageVolumeOffset 1 50)), .lockIdentity 3 4]

/-- The storage on connection 2 sends an offset for the volume it mounts. -/
def ownOffset : List CentralEvent :=
  registered ++ [.receive 2 (.control (.updateStorageVolumeOffset 1 50)), .lockIdentity 2 3]

end Scenario

open Scenario in
/-- The offset of a volume that the storage does not mount is stored before it is refused. -/
theorem storage_requests_not_isolated : ¬ ∀ (config : CentralConfig) (c stream storageId : Nat)
    (request : ControlRequest) (sections : List RequestSection)
    (answer : Fs0Result ControlResponse), AboutVolumes request →
    RequestRun config c stream (.storage storageId) (.start request) sections answer →
    Isolates storageId sections ∧ FailsClean sections answer := by
  intro claimed
  have computed : ((central config).exec .initial foreignOffset).bind (fun s =>
      ((central config).step s (.run 3 (inputs 1))).map fun s' =>
        (nextSection s 3 (inputs 1), nextSection s' 3 (inputs 1))) =
        some (some ⟨.storage 3, ⟨4, .start (.updateStorageVolumeOffset 1 50)⟩,
            some (.next (.storeVolumeOffset 3 1 ⟨1, "v", 100, 50, false⟩))⟩,
          some ⟨.storage 3, ⟨4, .storeVolumeOffset 3 1 ⟨1, "v", 100, 50, false⟩⟩, none⟩) := by
    decide +kernel
  have state : ((central config).exec .initial foreignOffset).map (fun s =>
      (s.server.onlineVolumes.rows, (s.tables.volumes.find? 1).map VolumeRow.maxVolumeOffset)) =
        some ([⟨1, 2⟩], some 0) := by decide +kernel
  obtain ⟨s, ends, computed⟩ := Option.bind_eq_some_iff.mp computed
  obtain ⟨s', taken, sections⟩ := Option.map_eq_some_iff.mp computed
  rw [ends] at state
  obtain ⟨mounted, stored⟩ := Prod.mk.inj (Option.some.inj state)
  obtain ⟨first, second⟩ := Prod.mk.inj sections
  obtain ⟨conn, isIdentity, server, runs⟩ := runs_of_nextSection first
  obtain ⟨conn', isIdentity', err, server', runs'⟩ := runs_of_nextSection second
  have initial : (central config).Init .initial := rfl
  have reachable := System.exec_reachable _ initial ends
  have run := RequestRun.goesOn reachable runs isIdentity
    (.fails (reachable.step taken) runs' isIdentity')
  have isolated := claimed _ _ _ _ _ _ _ (.offset 1 50) run
  obtain ⟨row, isRow, isZero⟩ := Option.map_eq_some_iff.mp stored
  have mounts := ((offset_sections run).mp isolated
    ⟨rfl, by decide, by decide, row, isRow, by rw [isZero]; decide⟩).1
  unfold Mounts at mounts
  rw [mounted] at mounts
  exact absurd mounts (by decide)

open Scenario in
theorem storage_requests_isolated_iff_own : ∃ (s s' : Central) (server server' : CentralServer),
    (Isolates 2 [⟨inputs 1, s.server, server⟩, ⟨inputs 1, s'.server, server'⟩] ∧
      FailsClean [⟨inputs 1, s.server, server⟩, ⟨inputs 1, s'.server, server'⟩]
        (.ok .updateStorageVolumeOffset)) ↔
    KeepsToMounts 2 (.updateStorageVolumeOffset 1 50)
      [⟨inputs 1, s.server, server⟩, ⟨inputs 1, s'.server, server'⟩] := by
  have computed : ((central config).exec .initial ownOffset).bind (fun s =>
      ((central config).step s (.run 2 (inputs 1))).map fun s' =>
        (nextSection s 2 (inputs 1), nextSection s' 2 (inputs 1))) =
        some (some ⟨.storage 2, ⟨3, .start (.updateStorageVolumeOffset 1 50)⟩,
            some (.next (.storeVolumeOffset 2 1 ⟨1, "v", 100, 50, false⟩))⟩,
          some ⟨.storage 2, ⟨3, .storeVolumeOffset 2 1 ⟨1, "v", 100, 50, false⟩⟩,
            some (.respond .updateStorageVolumeOffset)⟩) := by decide +kernel
  obtain ⟨s, ends, computed⟩ := Option.bind_eq_some_iff.mp computed
  obtain ⟨s', taken, sections⟩ := Option.map_eq_some_iff.mp computed
  obtain ⟨first, second⟩ := Prod.mk.inj sections
  obtain ⟨conn, isIdentity, server, runs⟩ := runs_of_nextSection first
  obtain ⟨conn', isIdentity', server', runs'⟩ := runs_of_nextSection second
  have initial : (central config).Init .initial := rfl
  have reachable := System.exec_reachable _ initial ends
  have run := RequestRun.goesOn reachable runs isIdentity
    (.answers (reachable.step taken) runs' isIdentity')
  exact ⟨s, s', server, server', storage_requests_isolated_iff (.offset 1 50) run⟩

end Fs0
