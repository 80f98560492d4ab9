import Fs0.Central.Handler
import Fs0.Lib.Transition

/-!
Contract: a storage's connection to central, and the watcher of its own address.

Owns:
- the task that registers the storage and registers it again when the connection
  is lost, with the steps in which it writes the shared memory;
- the task that reports a changed address;
- the requests of both on their way to central, and what central answers.

Does not own: the other requests of a storage, and the other storages.
-/

set_option autoImplicit false

namespace Fs0

open Lib Fallible

/-- `CentralConnection`: what the tasks of a storage share. A connection is a number. -/
structure CentralConnection where
  storageId : Nat
  connection : Option Nat
  lastReportedEndpoint : Bytes
deriving DecidableEq, Repr

def CentralConnection.new : CentralConnection := ⟨0, none, []⟩

/-- Where the task that keeps the storage registered stands. -/
inductive ConnectionTask where
  | reconnecting
  | connected (connection : Nat)
  | registering (connection : Nat) (irohEndpoint : Bytes)
  | registered (connection : Nat) (irohEndpoint : Bytes) (storageId : Nat)
  | idStored (connection : Nat) (irohEndpoint : Bytes)
  | connectionStored (connection : Nat) (irohEndpoint : Bytes)
  | serving (connection : Nat)
  /-- The accept loop has ended. -/
  | closing (connection : Nat)
  | connectionCleared
deriving DecidableEq, Repr

/-- The connection whose registration the task has sent or received. -/
def ConnectionTask.current : ConnectionTask → Option Nat
  | .registering connection _ => some connection
  | .registered connection _ _ => some connection
  | .idStored connection _ => some connection
  | .connectionStored connection _ => some connection
  | .serving connection => some connection
  | .closing connection => some connection
  | _ => none

/-- Where the task of `spawn_endpoint_addr_watcher` stands. -/
inductive WatcherTask where
  | unspawned
  | spawned
  /-- `watch_addr` has been called. -/
  | subscribed
  /-- The top of the loop, with or without a report pending. -/
  | looping
  | debouncing
  | reporting (irohEndpoint : Bytes)
  | identified (irohEndpoint : Bytes) (storageId : Nat)
  | awaiting (irohEndpoint : Bytes) (reportId : Nat)
  | retrying
  | stopped
deriving DecidableEq, Repr

/-- A `RegisterStorage` request on its way to central. -/
structure RegistrationRequest where
  connection : Nat
  irohEndpoint : Bytes
deriving DecidableEq, Repr

/-- An `UpdateStorageEndpoint` request, and whether central has carried it out. -/
structure EndpointReport where
  reportId : Nat
  connection : Nat
  storageId : Nat
  irohEndpoint : Bytes
  answer : Option Bool
deriving DecidableEq, Repr

/-- The identity central keeps for a connection of the storage. -/
structure StorageSession where
  connection : Nat
  storageId : Nat
deriving DecidableEq, Repr

/-- A storage, central, and the requests between them. -/
structure StorageControl (Addr : Type) where
  addr : Addr
  /-- The address has changed since the watcher looked at it. -/
  unseen : Bool
  central : CentralServer
  sessions : Table StorageSession.connection
  nextConnection : Nat
  shared : CentralConnection
  task : ConnectionTask
  registrations : Table RegistrationRequest.connection
  reports : SeqTable EndpointReport.reportId
  watcher : WatcherTask
  /-- The watcher's own copy. -/
  lastReportedEndpoint : Bytes
  pendingReport : Bool

inductive StorageControlEvent (Addr : Type) where
  | changeAddr (addr : Addr)
  | connect
  | readAddr
  | centralRegisters (connection : Nat)
  | centralRejects (connection : Nat)
  | registerReply
  | registerFails
  | storeStorageId
  | storeConnection
  | storeEndpoint
  | acceptEnds
  | clearConnection
  | clearStorageId
  | centralLoses (connection : Nat)
  | centralRestarts
  | subscribe
  | readReported
  | wake
  | readEndpoint
  | readStorageId
  | send
  | centralUpdates (reportId : Nat)
  | reportReply
  | reportFails
  | retry
  | stopWatcher

/-- The sections of a registration that has passed its checks. -/
def registerEndpoint (name : String) (volumes : List StorageVolumeInfo) (irohEndpoint : Bytes)
    (connection : Nat) : CentralM Nat := do
  let storageId ← CentralM.nextId
  Registration.insertStorage ⟨storageId, name, volumes, irohEndpoint⟩ connection
  pure storageId

/-- `handle_storage_request` for an endpoint. -/
def updateEndpoint (storageId requestStorageId : Nat) (irohEndpoint : Bytes) :
    CentralM ControlResponse := do
  require (requestStorageId = storageId) .unauthorized
  StorageRequest.updateStorageEndpoint storageId irohEndpoint

theorem handleStorageRequest_updateEndpoint (inputs : Inputs)
    (storageId requestStorageId : Nat) (irohEndpoint : Bytes) :
    handleStorageRequest inputs storageId (.updateStorageEndpoint requestStorageId irohEndpoint) =
      (do
        let response ← updateEndpoint storageId requestStorageId irohEndpoint
        pure (.next (.broadcast response))) := by
  funext server
  rw [handleStorageRequest, updateEndpoint, bind_assoc]

namespace StorageControl

variable {Addr : Type}

/-- The watcher goes on with its report pending. -/
def reportFailed (s : StorageControl Addr) : StorageControl Addr :=
  { s with watcher := .retrying, pendingReport := true }

/-- Central's part of a registration. -/
def centralRegisters (name : String) (volumes : List StorageVolumeInfo)
    (s : StorageControl Addr) (request : RegistrationRequest) : Option (StorageControl Addr) :=
  match registerEndpoint name volumes request.irohEndpoint request.connection s.central with
  | .error _ _ => none
  | .ok storageId central => some { s with
      central := central
      sessions := s.sessions.put ⟨request.connection, storageId⟩
      registrations := s.registrations.delete fun other =>
        other.connection == request.connection }

/-- Central's part of a report. -/
def centralUpdates (s : StorageControl Addr) (session : StorageSession)
    (report : EndpointReport) : StorageControl Addr :=
  let result := updateEndpoint session.storageId report.storageId report.irohEndpoint s.central
  { s with
    central := endState result
    reports := s.reports.replace { report with answer := some (outcome result).isOk } }

/-- Central notices that a connection is lost. What is on its way there is lost with it. -/
def centralLoses (s : StorageControl Addr) (connection : Nat) : StorageControl Addr :=
  { s with
    central := match s.sessions.find? connection with
      | some session => s.central.removeStorage session.storageId
      | none => s.central
    sessions := s.sessions.delete fun session => session.connection == connection
    registrations := s.registrations.delete fun request => request.connection == connection }

/-- The watcher looks at the address and compares. -/
def readEndpoint (encode : Addr → Fs0Result Bytes) (s : StorageControl Addr) :
    StorageControl Addr :=
  match encode s.addr with
  | .error _ => { s with unseen := false, watcher := .looping, pendingReport := false }
  | .ok irohEndpoint =>
      if irohEndpoint = s.lastReportedEndpoint then
        { s with unseen := false, watcher := .looping, pendingReport := false }
      else { s with unseen := false, watcher := .reporting irohEndpoint }

/-- The watcher sends a report, if there is a connection. -/
def send (s : StorageControl Addr) (irohEndpoint : Bytes) (storageId : Nat) :
    StorageControl Addr :=
  match s.shared.connection with
  | none => s.reportFailed
  | some connection =>
      let reports := s.reports.push
        (fun reportId => ⟨reportId, connection, storageId, irohEndpoint, none⟩) fun _ => rfl
      { s with reports := reports, watcher := .awaiting irohEndpoint (s.reports.seq + 1) }

/-- The watcher receives the answer to its report. -/
def reportReply (s : StorageControl Addr) (irohEndpoint : Bytes) (updated : Bool) :
    StorageControl Addr :=
  if updated then
    { s with
      shared := { s.shared with lastReportedEndpoint := irohEndpoint }
      lastReportedEndpoint := irohEndpoint
      watcher := .looping
      pendingReport := false }
  else s.reportFailed

/-- The steps of the task that keeps the storage registered, and of central for it. -/
def stepTask (encode : Addr → Fs0Result Bytes) (s : StorageControl Addr) :
    StorageControlEvent Addr → Option (StorageControl Addr)
  | .connect =>
      match s.task with
      | .reconnecting => some { s with
          task := .connected s.nextConnection
          nextConnection := s.nextConnection + 1 }
      | _ => none
  | .readAddr =>
      match s.task, encode s.addr with
      | .connected connection, .ok irohEndpoint => some { s with
          task := .registering connection irohEndpoint
          registrations := s.registrations.put ⟨connection, irohEndpoint⟩ }
      | .connected _, .error _ => some { s with task := .reconnecting }
      | _, _ => none
  | .registerReply =>
      match s.task with
      | .registering connection irohEndpoint =>
          (s.sessions.find? connection).map fun session =>
            { s with task := .registered connection irohEndpoint session.storageId }
      | _ => none
  | .registerFails =>
      match s.task with
      | .registering _ _ => some { s with task := .reconnecting }
      | _ => none
  | .storeStorageId =>
      match s.task with
      | .registered connection irohEndpoint storageId => some { s with
          shared := { s.shared with storageId := storageId }
          task := .idStored connection irohEndpoint }
      | _ => none
  | .storeConnection =>
      match s.task with
      | .idStored connection irohEndpoint => some { s with
          shared := { s.shared with connection := some connection }
          task := .connectionStored connection irohEndpoint }
      | _ => none
  | .storeEndpoint =>
      match s.task with
      | .connectionStored connection irohEndpoint => some { s with
          shared := { s.shared with lastReportedEndpoint := irohEndpoint }
          task := .serving connection
          watcher := if s.watcher = .unspawned then .spawned else s.watcher }
      | _ => none
  | .acceptEnds =>
      match s.task with
      | .serving connection => some { s with task := .closing connection }
      | _ => none
  | .clearConnection =>
      match s.task with
      | .closing _ => some { s with
          shared := { s.shared with connection := none }
          task := .connectionCleared }
      | _ => none
  | .clearStorageId =>
      match s.task with
      | .connectionCleared => some { s with
          shared := { s.shared with storageId := 0 }
          task := .reconnecting }
      | _ => none
  | _ => none

/-- The steps of the watcher. -/
def stepWatcher (encode : Addr → Fs0Result Bytes) (s : StorageControl Addr) :
    StorageControlEvent Addr → Option (StorageControl Addr)
  | .subscribe =>
      if s.watcher = .spawned then some { s with unseen := false, watcher := .subscribed } else none
  | .readReported =>
      if s.watcher = .subscribed then
        some { s with
          lastReportedEndpoint := s.shared.lastReportedEndpoint
          watcher := .looping
          pendingReport := false }
      else none
  | .wake =>
      if s.watcher = .looping ∧ (s.pendingReport ∨ s.unseen) then
        some { s with unseen := s.pendingReport && s.unseen, watcher := .debouncing }
      else none
  | .readEndpoint => if s.watcher = .debouncing then some (s.readEndpoint encode) else none
  | .readStorageId =>
      match s.watcher with
      | .reporting irohEndpoint =>
          if s.shared.storageId = 0 then some s.reportFailed
          else some { s with watcher := .identified irohEndpoint s.shared.storageId }
      | _ => none
  | .send =>
      match s.watcher with
      | .identified irohEndpoint storageId => some (s.send irohEndpoint storageId)
      | _ => none
  | .reportReply =>
      match s.watcher with
      | .awaiting irohEndpoint reportId =>
          ((s.reports.find? reportId).bind EndpointReport.answer).map (s.reportReply irohEndpoint)
      | _ => none
  | .reportFails =>
      match s.watcher with
      | .awaiting _ _ => some s.reportFailed
      | _ => none
  | .retry => if s.watcher = .retrying then some { s with watcher := .looping } else none
  | .stopWatcher => some { s with watcher := .stopped }
  | _ => none

def step (encode : Addr → Fs0Result Bytes) (name : String) (volumes : List StorageVolumeInfo)
    (s : StorageControl Addr) : StorageControlEvent Addr → Option (StorageControl Addr)
  | .changeAddr addr => some { s with addr := addr, unseen := true }
  | .centralRegisters connection =>
      match s.sessions.find? connection, s.registrations.find? connection with
      | none, some request => s.centralRegisters name volumes request
      | _, _ => none
  | .centralRejects connection => some { s with
      registrations := s.registrations.delete fun request => request.connection == connection }
  | .centralLoses connection => some (s.centralLoses connection)
  | .centralRestarts => some { s with
      central := .run s.central.db
      sessions := .empty
      registrations := .empty }
  | .centralUpdates reportId =>
      match s.reports.find? reportId with
      | some report =>
          if report.answer = none then
            (s.sessions.find? report.connection).map fun session => s.centralUpdates session report
          else none
      | none => none
  | e => (s.stepTask encode e).or (s.stepWatcher encode e)

/-- A storage that is about to connect for the first time. -/
structure Initial (s : StorageControl Addr) : Prop where
  sessions : s.sessions = .empty
  registrations : s.registrations = .empty
  reports : s.reports = .empty
  shared : s.shared = .new
  task : s.task = .reconnecting
  watcher : s.watcher = .unspawned

end StorageControl

/-- A storage and central under any order of their steps. -/
def storageControl {Addr : Type} (encode : Addr → Fs0Result Bytes) (name : String)
    (volumes : List StorageVolumeInfo) : System (StorageControl Addr) (StorageControlEvent Addr) where
  Init := StorageControl.Initial
  step := StorageControl.step encode name volumes

end Fs0
