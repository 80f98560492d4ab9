import Fs0.Central.ConnectionSteps

/-!
Contract: what the sections of the handlers do to the registrations central holds
in memory.

Owns:
- the sections that use the database only;
- the steps of a registration, and the sections that leave the registrations as
  they are.

Does not own: what holds of the registrations along runs.
-/

set_option autoImplicit false

namespace Fs0

open Lib Fallible

/-! ## Registrations -/

namespace CentralServer

/-- A storage is registered on a connection with these volumes. -/
def Lists (server : CentralServer) (storageId connection : Nat) (volumeIds : List Nat) : Prop :=
  ∃ storage ∈ server.storages.rows, storage.storageId = storageId ∧
    storage.connection = connection ∧
    storage.peer.volumes.map StorageVolumeInfo.volumeId = volumeIds

/-- The same registrations, whatever is known of the volumes and the endpoints. -/
structure SameMounts (before after : CentralServer) : Prop where
  nextId : after.nextId = before.nextId
  clients : after.clients = before.clients
  onlineVolumes : after.onlineVolumes = before.onlineVolumes
  lists : ∀ storageId connection volumeIds,
    after.Lists storageId connection volumeIds ↔ before.Lists storageId connection volumeIds

theorem SameMounts.withDb (server : CentralServer) (db : CentralDb) :
    SameMounts server { server with db := db } :=
  ⟨rfl, rfl, rfl, fun _ _ _ => Iff.rfl⟩

/-- Rewriting the entry of a storage keeps the registrations, as long as it is
still about the same volumes on the same connection. -/
theorem SameMounts.putStorage {server : CentralServer} {storageId : Nat}
    {old new : StorageControlConnection} (found : server.storages.find? storageId = some old)
    (isStorage : new.storageId = old.storageId) (connection : new.connection = old.connection)
    (volumes : new.peer.volumes.map StorageVolumeInfo.volumeId =
      old.peer.volumes.map StorageVolumeInfo.volumeId) :
    SameMounts server { server with storages := server.storages.put new } := by
  obtain ⟨oldMem, -⟩ := Table.mem_of_find? found
  refine ⟨rfl, rfl, rfl, ?_⟩
  intro storageId c volumeIds
  constructor
  · rintro ⟨storage, member, rfl, rfl, rfl⟩
    rcases Table.mem_put.mp member with rfl | ⟨other, -⟩
    · exact ⟨old, oldMem, isStorage.symm, connection.symm, volumes.symm⟩
    · exact ⟨storage, other, rfl, rfl, rfl⟩
  · rintro ⟨storage, member, rfl, rfl, rfl⟩
    by_cases same : storage.storageId = new.storageId
    · obtain rfl := Table.eq_of_key_eq member oldMem (same.trans isStorage)
      exact ⟨new, Table.mem_put.mpr (.inl rfl), same.symm, connection, volumes⟩
    · exact ⟨storage, Table.mem_put.mpr (.inr ⟨member, same⟩), rfl, rfl, rfl⟩

end CentralServer

/-! ## Sections on the database -/

namespace CentralM

variable {α β : Type}

/-- Uses the database only, whether or not it fails. -/
def OnlyDb (m : CentralM α) : Prop :=
  ∀ server, ∃ db, endState (m server) = { server with db := db }

theorem OnlyDb.pure (a : α) : OnlyDb (Pure.pure a : CentralM α) := fun server => ⟨server.db, rfl⟩

theorem OnlyDb.throw (err : Fs0Error) : OnlyDb (MonadExcept.throw err : CentralM α) :=
  fun server => ⟨server.db, rfl⟩

theorem OnlyDb.lift (result : Fs0Result α) : OnlyDb (Fallible.lift result : CentralM α) := by
  intro server
  cases result <;> exact ⟨server.db, rfl⟩

theorem OnlyDb.require (condition : Prop) [Decidable condition] (err : Fs0Error) :
    OnlyDb (Fallible.require condition err : CentralM PUnit) := by
  intro server
  unfold Fallible.require
  split <;> exact ⟨server.db, rfl⟩

theorem OnlyDb.read (select : CentralServer → α) : OnlyDb (CentralM.read select) :=
  fun server => ⟨server.db, rfl⟩

theorem OnlyDb.locked (m : EStateM Fs0Error CentralDb α) : OnlyDb (CentralM.locked m) := by
  intro server
  unfold CentralM.locked
  cases m server.db with
  | ok a db => exact ⟨db, rfl⟩
  | error err db => exact ⟨db, rfl⟩

theorem OnlyDb.bind {m : CentralM α} {f : α → CentralM β} (first : OnlyDb m)
    (second : ∀ a, OnlyDb (f a)) : OnlyDb (m >>= f) := by
  intro server
  obtain ⟨db, kept⟩ := first server
  rw [bind_apply]
  cases ran : m server with
  | ok a server' =>
      rw [ran] at kept
      obtain rfl : server' = { server with db := db } := kept
      exact second a { server with db := db }
  | error err server' =>
      rw [ran] at kept
      exact ⟨db, kept⟩

theorem OnlyDb.sameMounts {m : CentralM α} (only : OnlyDb m) (server : CentralServer) :
    server.SameMounts (endState (m server)) := by
  obtain ⟨db, kept⟩ := only server
  rw [kept]
  exact .withDb server db

theorem responding_onlyDb {m : CentralM ControlResponse} (only : OnlyDb m) :
    OnlyDb (responding m) :=
  OnlyDb.bind only fun _ => OnlyDb.pure _

/-- A section that computes its response with one use of the database. -/
theorem transacting_onlyDb {commit : Option Fs0Error} {m : CentralTx α} {f : α → ControlResponse} :
    OnlyDb (responding (do
      let a ← transact commit m
      Pure.pure (f a))) :=
  responding_onlyDb (OnlyDb.bind (OnlyDb.locked _) fun _ => OnlyDb.pure _)

theorem resolving_onlyDb (path : String) (next : Nat → Handler) : OnlyDb (resolving path next) :=
  OnlyDb.bind (OnlyDb.locked _) fun _ => OnlyDb.pure _

end CentralM

section OnlyDb

open CentralM

variable (config : CentralConfig) (inputs : Inputs)

theorem getFileReadPlanById_onlyDb (fileId : Nat) :
    OnlyDb (ClientRequest.getFileReadPlanById fileId) :=
  OnlyDb.bind (OnlyDb.locked _) fun _ => OnlyDb.bind (OnlyDb.read _) fun _ =>
    OnlyDb.bind (OnlyDb.lift _) fun _ => OnlyDb.pure _

theorem handleClientRequest_onlyDb (request : ControlRequest) :
    OnlyDb (handleClientRequest config inputs request) := by
  cases request with
  | centralStatus => exact OnlyDb.bind (OnlyDb.read _) fun _ => OnlyDb.pure _
  | createVolume name maxBytes => exact transacting_onlyDb
  | listDirectory dir limit cursor => exact transacting_onlyDb
  | getFileReadPlan path => exact resolving_onlyDb _ _
  | getFileReadPlanById fileId => exact responding_onlyDb (getFileReadPlanById_onlyDb _)
  | hasBundle bundleId volumeId =>
      exact responding_onlyDb (OnlyDb.bind (OnlyDb.locked _) fun _ => OnlyDb.pure _)
  | deleteFile path => exact resolving_onlyDb _ _
  | deleteFileById fileId => exact transacting_onlyDb
  | copyFile sourcePath targetPath => exact resolving_onlyDb _ _
  | copyFileById sourceFileId targetPath => exact transacting_onlyDb
  | renameFile sourcePath targetPath => exact resolving_onlyDb _ _
  | renameFileById fileId targetPath => exact transacting_onlyDb
  | getFileChangeLogs afterEventId limit =>
      exact responding_onlyDb (OnlyDb.bind (OnlyDb.locked _) fun _ => OnlyDb.pure _)
  | beginUpdate request =>
      exact OnlyDb.bind (OnlyDb.bind (OnlyDb.read _) fun _ => OnlyDb.lift _) fun _ => OnlyDb.pure _
  | commitUpdate request =>
      exact OnlyDb.bind (OnlyDb.bind (OnlyDb.locked _) fun _ =>
        OnlyDb.bind (OnlyDb.read _) fun _ => OnlyDb.pure _) fun _ => OnlyDb.pure _
  | abortUpdate leaseId fileId =>
      exact OnlyDb.bind (OnlyDb.bind (OnlyDb.locked _) fun _ =>
        OnlyDb.bind (OnlyDb.read _) fun _ => OnlyDb.pure _) fun _ => OnlyDb.pure _
  | _ => exact OnlyDb.throw _

theorem Handler.resume_onlyDb (connection : Nat) (identity : ControlConnectionIdentity)
    (handler : Handler) (notStart : ∀ request, handler ≠ .start request)
    (notNumbering : ∀ name volumes irohEndpoint,
      handler ≠ .volumesRegistered name volumes irohEndpoint)
    (registers : ¬ handler.Registers)
    (notOffset : ∀ storageId volumeId registered,
      handler ≠ .storeVolumeOffset storageId volumeId registered) :
    OnlyDb (handler.resume config inputs connection identity) := by
  cases handler with
  | start request => exact absurd rfl (notStart request)
  | volumesRegistered name volumes irohEndpoint => exact absurd rfl (notNumbering _ _ _)
  | storeVolumeOffset storageId volumeId registered => exact absurd rfl (notOffset _ _ _)
  | insertClient clientId token => exact absurd trivial registers
  | clientInserted clientId => exact absurd trivial registers
  | mountVolumes peer => exact absurd trivial registers
  | insertStorage peer => exact absurd trivial registers
  | storageInserted storageId => exact absurd trivial registers
  | centralStatus clientsCount => exact OnlyDb.bind (OnlyDb.read _) fun _ => OnlyDb.pure _
  | getFileReadPlanById fileId => exact responding_onlyDb (getFileReadPlanById_onlyDb _)
  | deleteFileById fileId => exact transacting_onlyDb
  | copyFileById sourceFileId targetPath => exact transacting_onlyDb
  | renameFileById fileId targetPath => exact transacting_onlyDb
  | beginUpdate request storageId volumeId =>
      exact OnlyDb.bind (OnlyDb.locked _) fun _ => OnlyDb.pure _
  | grantLease storageId lease =>
      apply OnlyDb.bind (OnlyDb.read _)
      intro storages
      cases storages.find? storageId <;> exact OnlyDb.pure _
  | awaitGrant lease =>
      simp only [Handler.resume]
      cases grantResult lease inputs.grant <;> exact OnlyDb.pure _
  | dropLease leaseId err => exact OnlyDb.bind (OnlyDb.locked _) fun _ => OnlyDb.throw _
  | commitUpdate request storageId => exact OnlyDb.bind (OnlyDb.locked _) fun _ => OnlyDb.pure _
  | revokeLease storageId leaseId response =>
      apply OnlyDb.bind (OnlyDb.read _)
      intro storages
      cases storages.find? storageId <;> exact OnlyDb.pure _
  | awaitRevoke response => exact OnlyDb.pure _
  | broadcast response => exact OnlyDb.pure _
  | answer response => exact OnlyDb.pure _

end OnlyDb

/-! ## Sections on the storages -/

section Storages

theorem storeRegistered_volumeIds (volumeId : Nat) (registered : StorageVolumeInfo)
    (volumes : List StorageVolumeInfo) :
    (StorageRequest.storeRegistered volumeId registered volumes).map StorageVolumeInfo.volumeId =
      volumes.map StorageVolumeInfo.volumeId := by
  induction volumes with
  | nil => rfl
  | cons volume rest inductionHypothesis =>
      unfold StorageRequest.storeRegistered
      split
      · rfl
      · rw [List.map_cons, List.map_cons, inductionHypothesis]

theorem updateStorageEndpoint_apply (storageId : Nat) (irohEndpoint : Bytes)
    (server : CentralServer) :
    StorageRequest.updateStorageEndpoint storageId irohEndpoint server =
      match server.storages.find? storageId with
      | none => .error .notFound server
      | some storage => .ok .updateStorageEndpoint { server with
          storages := server.storages.put
            { storage with peer := { storage.peer with irohEndpoint := irohEndpoint } } } := by
  unfold StorageRequest.updateStorageEndpoint
  rw [bind_apply]
  cases found : server.storages.find? storageId with
  | none => simp [CentralM.read, found, okOr, bind_apply]
  | some storage =>
      simp only [CentralM.read, found, okOr, bind_apply, lift_ok_apply]
      rfl

theorem storeVolumeOffset_apply (storageId volumeId : Nat) (registered : StorageVolumeInfo)
    (server : CentralServer) :
    StorageRequest.storeVolumeOffset storageId volumeId registered server =
      match server.storages.find? storageId with
      | none => .error .notFound server
      | some storage =>
          if ∃ volume ∈ storage.peer.volumes, volume.volumeId = volumeId then
            .ok .updateStorageVolumeOffset { server with
              storages := server.storages.put { storage with peer := { storage.peer with
                volumes := StorageRequest.storeRegistered volumeId registered
                  storage.peer.volumes } } }
          else .error .notFound server := by
  unfold StorageRequest.storeVolumeOffset
  rw [bind_apply]
  cases found : server.storages.find? storageId with
  | none => simp [CentralM.read, found, okOr, bind_apply]
  | some storage =>
      simp only [CentralM.read, found, okOr, bind_apply, lift_ok_apply]
      unfold require
      by_cases listed : ∃ volume ∈ storage.peer.volumes, volume.volumeId = volumeId
      · rw [if_pos listed, if_pos listed]
        rfl
      · rw [if_neg listed, if_neg listed]

theorem updateStorageEndpoint_sameMounts (storageId : Nat) (irohEndpoint : Bytes)
    (server : CentralServer) :
    server.SameMounts
      (endState (StorageRequest.updateStorageEndpoint storageId irohEndpoint server)) := by
  rw [updateStorageEndpoint_apply]
  cases found : server.storages.find? storageId with
  | none => exact .withDb server server.db
  | some storage => exact .putStorage found rfl rfl rfl

theorem storeVolumeOffset_sameMounts (storageId volumeId : Nat) (registered : StorageVolumeInfo)
    (server : CentralServer) :
    server.SameMounts
      (endState (StorageRequest.storeVolumeOffset storageId volumeId registered server)) := by
  rw [storeVolumeOffset_apply]
  cases found : server.storages.find? storageId with
  | none => exact .withDb server server.db
  | some storage =>
      dsimp only
      split
      · exact .putStorage found rfl rfl (storeRegistered_volumeIds _ _ _)
      · exact .withDb server server.db

end Storages

/-! ## Steps of the registrations -/

/-- What a section does to the registrations. -/
inductive MountStep (connection : Nat) (server : CentralServer) :
    Handler → EStateM.Result Fs0Error CentralServer Progress → Prop where
  | same {handler : Handler} {result : EStateM.Result Fs0Error CentralServer Progress}
      (unbound : ¬ handler.Bound) (mounts : server.SameMounts (endState result))
      (plain : ∀ progress server', result = .ok progress server' → progress.Plain ∨
        ∃ name volumes irohEndpoint,
          progress = .next (.volumesRegistered name volumes irohEndpoint)) :
      MountStep connection server handler result
  | clientNumbered {request : ControlRequest} {token : String} :
      MountStep connection server (.start request) (.ok
        (.next (.insertClient server.nextId token)) { server with nextId := server.nextId + 1 })
  | clientInserted {clientId : Nat} {token : String} :
      MountStep connection server (.insertClient clientId token) (.ok
        (.next (.clientInserted clientId))
        { server with clients := server.clients.put ⟨clientId, token, connection⟩ })
  | clientNamed {clientId : Nat} {response : ControlResponse} :
      MountStep connection server (.clientInserted clientId) (.ok
        (.identify (.client clientId) (.answer response)) server)
  | storageNumbered {name : String} {volumes : List StorageVolumeInfo} {irohEndpoint : Bytes} :
      MountStep connection server (.volumesRegistered name volumes irohEndpoint) (.ok
        (.next (.mountVolumes ⟨server.nextId, name, volumes, irohEndpoint⟩))
        { server with nextId := server.nextId + 1 })
  | mounted {peer : StoragePeerInfo}
      (free : ∀ volume ∈ peer.volumes, server.onlineVolumes.find? volume.volumeId = none) :
      MountStep connection server (.mountVolumes peer) (.ok (.next (.insertStorage peer))
        { server with
          onlineVolumes := peer.volumes.foldl
            (fun mounted volume => mounted.put ⟨volume.volumeId, peer.storageId⟩)
            server.onlineVolumes })
  | storageInserted {peer : StoragePeerInfo} :
      MountStep connection server (.insertStorage peer) (.ok
        (.next (.storageInserted peer.storageId))
        { server with storages := server.storages.put ⟨peer, connection⟩ })
  | storageNamed {storageId : Nat} {response : ControlResponse} :
      MountStep connection server (.storageInserted storageId) (.ok
        (.identify (.storage storageId) (.broadcast response)) server)

section MountSteps

open CentralM

variable (config : CentralConfig) (inputs : Inputs)

theorem mountStep_of_onlyDb {connection : Nat} {server : CentralServer} {handler : Handler}
    {m : CentralM Progress} (unbound : ¬ handler.Bound) (only : OnlyDb m)
    (yields : Yields Progress.Plain m) : MountStep connection server handler (m server) := by
  refine .same unbound (only.sameMounts server) ?_
  intro progress server' ran
  exact .inl (yields server progress server' ran)

theorem handleStorageRequest_mountStep (connection storageId : Nat) (request : ControlRequest)
    (server : CentralServer) : MountStep connection server (.start request)
      (handleStorageRequest inputs storageId request server) := by
  have plain := handleStorageRequest_plain inputs storageId request
  refine .same id ?_ fun progress server' ran => .inl (plain server progress server' ran)
  cases request with
  | createVolume name maxBytes => exact (transacting_onlyDb).sameMounts server
  | validateClientAuth clientId clientToken =>
      refine (responding_onlyDb (OnlyDb.bind (OnlyDb.read _) fun _ => ?_)).sameMounts server
      exact OnlyDb.bind (OnlyDb.lift _) fun _ => OnlyDb.bind (OnlyDb.require _ _) fun _ =>
        OnlyDb.pure _
  | reportBundleReplica events =>
      refine (responding_onlyDb (OnlyDb.bind (OnlyDb.read _) fun _ => ?_)).sameMounts server
      exact OnlyDb.bind (OnlyDb.require _ _) fun _ => OnlyDb.bind (OnlyDb.locked _) fun _ =>
        OnlyDb.pure _
  | updateStorageEndpoint requestStorageId irohEndpoint =>
      have kept := updateStorageEndpoint_sameMounts storageId irohEndpoint server
      simp only [handleStorageRequest, bind_apply, require]
      by_cases own : requestStorageId = storageId
      · simp only [if_pos own]
        cases ran : StorageRequest.updateStorageEndpoint storageId irohEndpoint server <;>
          rw [ran] at kept <;> exact kept
      · simp only [if_neg own]
        exact .withDb server server.db
  | updateStorageVolumeOffset volumeId maxVolumeOffset =>
      exact (OnlyDb.bind (OnlyDb.locked _) fun _ => OnlyDb.pure _).sameMounts server
  | _ => exact (OnlyDb.throw _).sameMounts server

theorem handleControlRequest_mountStep (connection : Nat) (identity : ControlConnectionIdentity)
    (request : ControlRequest) (server : CentralServer) :
    MountStep connection server (.start request)
      (handleControlRequest config inputs identity request server) := by
  rcases handleControlRequest_dispatch config inputs identity request with
    ⟨name, token, version, rfl⟩ | ⟨name, token, version, volumes, irohEndpoint, rfl⟩ |
    ⟨handled, -⟩
  · simp only [handleControlRequest]
    cases Registration.validateRegistrationVersion version with
    | error err => exact .same id (.withDb server server.db) (by simp [bind_apply])
    | ok valid =>
        by_cases allowed : config.tokenAllowed token
        · simp only [bind_apply, lift_ok_apply, require, if_pos allowed]
          exact .clientNumbered
        · simp only [bind_apply, lift_ok_apply, require, if_neg allowed]
          exact .same id (.withDb server server.db) (by simp)
  · have only : OnlyDb (handleControlRequest config inputs identity
        (.registerStorage name token version volumes irohEndpoint)) :=
      OnlyDb.bind (OnlyDb.lift _) fun _ => OnlyDb.bind (OnlyDb.require _ _) fun _ =>
        OnlyDb.bind (OnlyDb.locked _) fun _ => OnlyDb.pure _
    refine .same id (only.sameMounts server) ?_
    intro progress server' ran
    obtain ⟨valid, -, ran⟩ := lift_bind_eq_ok.mp ran
    obtain ⟨-, ran⟩ := require_bind_eq_ok.mp ran
    obtain ⟨checked, server₁, -, ran⟩ := bind_eq_ok.mp ran
    obtain ⟨rfl, -⟩ := EStateM.Result.ok.inj ran
    exact .inr ⟨_, _, _, rfl⟩
  · rw [handled]
    cases identity with
    | client clientId =>
        exact mountStep_of_onlyDb id (handleClientRequest_onlyDb config inputs request)
          (handleClientRequest_plain config inputs request)
    | storage storageId =>
        exact handleStorageRequest_mountStep inputs connection storageId request server
    | anonymous => exact mountStep_of_onlyDb id (OnlyDb.throw _) (Yields.throw _)

/-- Every section is one of these steps. -/
theorem Handler.resume_mountStep (connection : Nat) (identity : ControlConnectionIdentity)
    (handler : Handler) (server : CentralServer) :
    MountStep connection server handler
      (handler.resume config inputs connection identity server) := by
  cases handler with
  | start request => exact handleControlRequest_mountStep config inputs connection identity request server
  | volumesRegistered name volumes irohEndpoint => exact .storageNumbered
  | insertClient clientId token => exact .clientInserted
  | clientInserted clientId => exact .clientNamed
  | mountVolumes peer =>
      simp only [Handler.resume, Registration.mountVolumes, CentralM.read, bind_apply, require]
      by_cases free : ∀ volume ∈ peer.volumes,
          server.onlineVolumes.find? volume.volumeId = none
      · rw [if_pos free]
        exact .mounted free
      · rw [if_neg free]
        exact .same id (.withDb server server.db) (by simp)
  | insertStorage peer => exact .storageInserted
  | storageInserted storageId => exact .storageNamed
  | storeVolumeOffset storageId volumeId registered =>
      have kept := storeVolumeOffset_sameMounts storageId volumeId registered server
      refine .same id ?_ fun progress server' ran =>
        .inl (responding_plain _ server progress server' ran)
      simp only [Handler.resume, responding, bind_apply]
      cases ran : StorageRequest.storeVolumeOffset storageId volumeId registered server <;>
        rw [ran] at kept <;> exact kept
  | _ =>
      apply mountStep_of_onlyDb id
      · exact Handler.resume_onlyDb config inputs connection identity _ (by simp) (by simp) id (by simp)
      · exact Handler.resume_plain config inputs connection identity _ (by simp) (by simp) id

end MountSteps

/-! ## Steps of a connection and the registrations -/

/-- How the phase of a connection goes on when nothing is unregistered. -/
inductive PhaseKept (phase : ConnectionPhase) : ConnectionPhase → Prop where
  | same : PhaseKept phase phase
  | ends (accepting : phase = .accepting) : PhaseKept phase .ending
  | finishes (unregistered : phase = .unregistered) : PhaseKept phase .finished

/-- What an event on a connection does to the registrations: the server and the
connection before and after it. -/
inductive RegistrationStep (server : CentralServer) (conn : ControlConnection)
    (e : CentralEvent) : CentralServer → ControlConnection → Prop where
  | idle {server' : CentralServer} {conn' : ControlConnection}
      (mounts : server.SameMounts server') (connection : conn'.connection = conn.connection)
      (identity : conn'.identity = conn.identity) (phase : PhaseKept conn.phase conn'.phase)
      (handling : conn'.handling = conn.handling ∨
        (∀ stream handler, conn.handling = some ⟨stream, handler⟩ → ¬ handler.Bound) ∧
        ∀ stream handler, conn'.handling = some ⟨stream, handler⟩ → ¬ handler.Registers)
      (locked : ∀ storageId, conn.phase = .unmounting storageId → conn.handling = none →
        conn'.handling = none) :
      RegistrationStep server conn e server' conn'
  | clientNumbered (stream : Nat) (request : ControlRequest) (token : String)
      (handles : conn.handling = some ⟨stream, .start request⟩) :
      RegistrationStep server conn e { server with nextId := server.nextId + 1 }
        { conn with handling := some ⟨stream, .insertClient server.nextId token⟩ }
  | clientInserted (stream clientId : Nat) (token : String)
      (handles : conn.handling = some ⟨stream, .insertClient clientId token⟩)
      (inputs : Inputs) (runs : e = .run conn.connection inputs) :
      RegistrationStep server conn e
        { server with clients := server.clients.put ⟨clientId, token, conn.connection⟩ }
        { conn with handling := some ⟨stream, .clientInserted clientId⟩ }
  | clientNamed (stream clientId : Nat) (response : ControlResponse)
      (handles : conn.handling = some ⟨stream, .clientInserted clientId⟩) :
      RegistrationStep server conn e server
        { conn with identity := .client clientId, handling := some ⟨stream, .answer response⟩ }
  | storageNumbered (stream : Nat) (name : String) (volumes : List StorageVolumeInfo)
      (irohEndpoint : Bytes)
      (handles : conn.handling = some ⟨stream, .volumesRegistered name volumes irohEndpoint⟩) :
      RegistrationStep server conn e { server with nextId := server.nextId + 1 }
        { conn with
          handling := some ⟨stream, .mountVolumes ⟨server.nextId, name, volumes, irohEndpoint⟩⟩ }
  | mounted (stream : Nat) (peer : StoragePeerInfo)
      (handles : conn.handling = some ⟨stream, .mountVolumes peer⟩)
      (free : ∀ volume ∈ peer.volumes, server.onlineVolumes.find? volume.volumeId = none)
      (inputs : Inputs) (runs : e = .run conn.connection inputs) :
      RegistrationStep server conn e
        { server with
          onlineVolumes := peer.volumes.foldl
            (fun mounted volume => mounted.put ⟨volume.volumeId, peer.storageId⟩)
            server.onlineVolumes }
        { conn with handling := some ⟨stream, .insertStorage peer⟩ }
  | storageInserted (stream : Nat) (peer : StoragePeerInfo)
      (handles : conn.handling = some ⟨stream, .insertStorage peer⟩) :
      RegistrationStep server conn e
        { server with storages := server.storages.put ⟨peer, conn.connection⟩ }
        { conn with handling := some ⟨stream, .storageInserted peer.storageId⟩ }
  | storageNamed (stream storageId : Nat) (response : ControlResponse)
      (handles : conn.handling = some ⟨stream, .storageInserted storageId⟩) :
      RegistrationStep server conn e server
        { conn with
          identity := .storage storageId
          handling := some ⟨stream, .broadcast response⟩ }
  | anonymousLeft (ending : conn.phase = .ending) (idle : conn.handling = none)
      (identity : conn.identity = .anonymous) :
      RegistrationStep server conn e server { conn with phase := .unregistered }
  | clientLeft (clientId : Nat) (ending : conn.phase = .ending) (idle : conn.handling = none)
      (identity : conn.identity = .client clientId) :
      RegistrationStep server conn e (server.unregisterClient clientId)
        { conn with phase := .unregistered }
  | storageLeft (storageId : Nat) (ending : conn.phase = .ending) (idle : conn.handling = none)
      (identity : conn.identity = .storage storageId) :
      RegistrationStep server conn e (server.removeStorage storageId)
        { conn with phase := .unmounting storageId }
  | unmounted (storageId : Nat) (unmounting : conn.phase = .unmounting storageId) :
      RegistrationStep server conn e (server.unmountStorage storageId)
        { conn with phase := .unregistered }

namespace Central

variable {config : CentralConfig} {s s' : Central} {e : CentralEvent} {conn : ControlConnection}

theorem unlocked_phase (unlocked : conn.unlocked) (storageId : Nat) :
    conn.phase ≠ .unmounting storageId := by
  intro phase
  simp [ControlConnection.unlocked, phase] at unlocked

theorem unlocked_idle (unlocked : conn.unlocked) : conn.handling = none := by
  unfold ControlConnection.unlocked at unlocked
  simpa using (Bool.and_eq_true_iff.mp unlocked).1

theorem unbound_of_handles {stream : Nat} {handler : Handler}
    (handles : conn.handling = some ⟨stream, handler⟩) (unbound : ¬ handler.Bound) :
    ∀ stream handler, conn.handling = some ⟨stream, handler⟩ → ¬ handler.Bound := by
  intro stream' handler' handles'
  obtain ⟨-, rfl⟩ := Handling.mk.inj (Option.some.inj (handles.symm.trans handles'))
  exact unbound

/-- Every step of a connection is one of these. -/
theorem registrationStep (step : ConnectionStep config s conn e s') :
    ∃ conn', s'.connections = s.connections.replace conn' ∧
      RegistrationStep s.server conn e s'.server conn' := by
  have unchanged : s.server.SameMounts s.server := .withDb s.server s.server.db
  cases step with
  | receive request accepting =>
      exact ⟨_, rfl, .idle unchanged rfl rfl .same (.inl rfl) fun _ _ idle => idle⟩
  | start stream request waits unlocked =>
      have idle := unlocked_idle unlocked
      refine ⟨_, rfl, .idle unchanged rfl rfl .same (.inr ⟨?_, ?_⟩) fun _ phase => ?_⟩
      · exact idle ▸ nofun
      · intro stream' handler starts
        obtain ⟨-, rfl⟩ := Handling.mk.inj (Option.some.inj starts)
        exact id
      · exact absurd phase (unlocked_phase unlocked _)
  | refuse stream waits unlocked =>
      have idle := unlocked_idle unlocked
      exact ⟨_, rfl, .idle unchanged rfl rfl .same (.inl idle.symm) fun _ _ _ => rfl⟩
  | next inputs stream handler handler' server handles ran =>
      have mount := handler.resume_mountStep config inputs conn.connection conn.identity s.server
      rw [ran] at mount
      cases mount with
      | same unbound mounts plain =>
          refine ⟨_, rfl, .idle mounts rfl rfl .same (.inr ⟨unbound_of_handles handles unbound, ?_⟩)
            fun _ _ idle => ?_⟩
          · intro stream' next starts
            obtain ⟨-, rfl⟩ := Handling.mk.inj (Option.some.inj starts)
            rcases plain _ _ rfl with plain | ⟨name, volumes, irohEndpoint, numbering⟩
            · exact plain.2
            · rw [(Progress.next.inj numbering)]
              exact id
          · rw [handles] at idle
            cases idle
      | clientNumbered => exact ⟨_, rfl, .clientNumbered stream _ _ handles⟩
      | clientInserted => exact ⟨_, rfl, .clientInserted stream _ _ handles inputs rfl⟩
      | storageNumbered => exact ⟨_, rfl, .storageNumbered stream _ _ _ handles⟩
      | mounted free => exact ⟨_, rfl, .mounted stream _ handles free inputs rfl⟩
      | storageInserted => exact ⟨_, rfl, .storageInserted stream _ handles⟩
  | identify inputs stream handler handler' identity server handles ran =>
      have mount := handler.resume_mountStep config inputs conn.connection conn.identity s.server
      rw [ran] at mount
      cases mount with
      | same unbound mounts plain =>
          rcases plain _ _ rfl with plain | ⟨name, volumes, irohEndpoint, numbering⟩
          · exact plain.elim
          · cases numbering
      | clientNamed => exact ⟨_, rfl, .clientNamed stream _ _ handles⟩
      | storageNamed => exact ⟨_, rfl, .storageNamed stream _ _ handles⟩
  | respond inputs stream handler response server handles ran =>
      have mount := handler.resume_mountStep config inputs conn.connection conn.identity s.server
      rw [ran] at mount
      cases mount with
      | same unbound mounts plain =>
          exact ⟨_, rfl, .idle mounts rfl rfl .same
            (.inr ⟨unbound_of_handles handles unbound, nofun⟩) fun _ _ _ => rfl⟩
  | fail inputs stream handler err server handles ran =>
      have mount := handler.resume_mountStep config inputs conn.connection conn.identity s.server
      rw [ran] at mount
      cases mount with
      | same unbound mounts plain =>
          exact ⟨_, rfl, .idle mounts rfl rfl .same
            (.inr ⟨unbound_of_handles handles unbound, nofun⟩) fun _ _ _ => rfl⟩
  | acceptEnds accepting =>
      exact ⟨_, rfl, .idle unchanged rfl rfl (.ends accepting) (.inl rfl) fun _ _ idle => idle⟩
  | dropWaiting stream ended =>
      exact ⟨_, rfl, .idle unchanged rfl rfl .same (.inl rfl) fun _ _ idle => idle⟩
  | abortHandler stream handler ended handles awaits =>
      have unbound : ¬ handler.Bound := by cases handler <;> first | exact id | cases awaits
      exact ⟨_, rfl, .idle unchanged rfl rfl .same
        (.inr ⟨unbound_of_handles handles unbound, nofun⟩) fun _ _ _ => rfl⟩
  | unregister ending idle =>
      obtain ⟨connection, phase, waiting, identity, handling⟩ := conn
      cases identity with
      | anonymous => exact ⟨_, rfl, .anonymousLeft ending idle rfl⟩
      | client clientId => exact ⟨_, rfl, .clientLeft clientId ending idle rfl⟩
      | storage storageId => exact ⟨_, rfl, .storageLeft storageId ending idle rfl⟩
  | unmount storageId unmounting => exact ⟨_, rfl, .unmounted storageId unmounting⟩
  | finish unregistered =>
      exact ⟨_, rfl, .idle unchanged rfl rfl (.finishes unregistered) (.inl rfl)
        fun _ _ idle => idle⟩

end Central

end Fs0
