import Fs0.Central.MountSteps
import Fs0.Storage.CentralConnection

/-!
Contract: the address of a storage that central hands out.

Owns:
- what the current registration of a storage carries, at central or on its way;
- that it is the address of the transport whenever the watcher rests, as long as
  the watcher's own copy of the last report does not hide another one and no
  report overtakes a later one;
- a run in which the watcher's own copy hides a registration.

Does not own: what clients do with the address.
-/

set_option autoImplicit false

namespace Fs0

open Lib Fallible

/-- The connection the task has published in the shared memory. -/
def ConnectionTask.published : ConnectionTask → Option Nat
  | .connectionStored connection _ => some connection
  | .serving connection => some connection
  | .closing connection => some connection
  | _ => none

theorem ConnectionTask.current_of_published {task : ConnectionTask} {connection : Nat}
    (published : task.published = some connection) : task.current = some connection := by
  cases task <;> cases published <;> rfl

/-- The endpoint the watcher is about to report. -/
def WatcherTask.endpoint : WatcherTask → Option Bytes
  | .reporting irohEndpoint => some irohEndpoint
  | .identified irohEndpoint _ => some irohEndpoint
  | .awaiting irohEndpoint _ => some irohEndpoint
  | _ => none

namespace StorageControl

variable {Addr : Type}

/-- The endpoint the current registration carries: what central holds for it, or what is
on its way there. -/
def carried (s : StorageControl Addr) : Option Bytes :=
  s.task.current.bind fun connection =>
    match s.sessions.find? connection with
    | some session => (s.central.storages.find? session.storageId).map fun storage =>
        storage.peer.irohEndpoint
    | none => (s.registrations.find? connection).map RegistrationRequest.irohEndpoint

/-- The endpoint is the encoding of the transport's address. -/
def IsEndpoint (encode : Addr → Fs0Result Bytes) (s : StorageControl Addr) (endpoint : Bytes) :
    Prop :=
  ∀ current, encode s.addr = .ok current → endpoint = current

/-- Nothing but the current address is carried. -/
def CarriesCurrent (encode : Addr → Fs0Result Bytes) (s : StorageControl Addr) : Prop :=
  ∀ carried ∈ s.carried, s.IsEndpoint encode carried

/-- The watcher waits, has no report pending, and has seen the current address. -/
def AtRest (s : StorageControl Addr) : Prop :=
  s.watcher = .looping ∧ s.pendingReport = false ∧ s.unseen = false

/-- The storage is registered, and both sides know it. -/
def Registered (s : StorageControl Addr) (storageId : Nat) : Prop :=
  ∃ connection, s.shared.storageId = storageId ∧ s.shared.connection = some connection ∧
    s.sessions.find? connection = some ⟨connection, storageId⟩

/-- Whenever the watcher rests and the storage is registered, central holds the endpoint
of the current address. -/
def EndpointAgrees (encode : Addr → Fs0Result Bytes) (s : StorageControl Addr) : Prop :=
  s.AtRest → ∀ storageId, s.Registered storageId →
    ∃ storage, s.central.storages.find? storageId = some storage ∧
      s.IsEndpoint encode storage.peer.irohEndpoint

/-- The watcher has seen the current address, and another report than this one is the last
it has made: it rests, or central has carried the other one out. -/
def Settled (s : StorageControl Addr) (reportId : Nat) : Prop :=
  s.unseen = false ∧ match s.watcher with
    | .looping => s.pendingReport = false
    | .awaiting _ other =>
        other ≠ reportId ∧ (s.reports.find? other).bind EndpointReport.answer = some true
    | _ => False

/-- The steps that keep the two tasks in agreement. The watcher starts from what the
registration carries; it skips a report only if the registration carries the same; and a
report is not carried out late, when the watcher has settled on another address. -/
def KeepsAgreement (encode : Addr → Fs0Result Bytes) (s : StorageControl Addr) :
    StorageControlEvent Addr → Prop
  | .readReported => s.unseen = false → s.CarriesCurrent encode
  | .readEndpoint => encode s.addr = .ok s.lastReportedEndpoint →
      ∀ carried ∈ s.carried, carried = s.lastReportedEndpoint
  | .centralUpdates reportId => ∀ report ∈ s.reports.find? reportId,
      s.task.current = some report.connection →
      s.sessions.find? report.connection = some ⟨report.connection, report.storageId⟩ →
      s.Settled reportId → s.IsEndpoint encode report.irohEndpoint
  | _ => True

instance (s : StorageControl Addr) : Decidable s.AtRest :=
  inferInstanceAs (Decidable (_ ∧ _ ∧ _))

instance (encode : Addr → Fs0Result Bytes) (s : StorageControl Addr) (endpoint : Bytes) :
    Decidable (s.IsEndpoint encode endpoint) :=
  match encoded : encode s.addr with
  | .ok current => decidable_of_iff (endpoint = current) (by simp [IsEndpoint, encoded])
  | .error _ => isTrue (by simp [IsEndpoint, encoded])

instance (encode : Addr → Fs0Result Bytes) (s : StorageControl Addr) :
    Decidable (s.CarriesCurrent encode) :=
  inferInstanceAs (Decidable (∀ carried ∈ s.carried, s.IsEndpoint encode carried))

instance (s : StorageControl Addr) (reportId : Nat) : Decidable (s.Settled reportId) := by
  unfold Settled
  cases s.watcher <;> infer_instance

instance (encode : Addr → Fs0Result Bytes) (s : StorageControl Addr) (e : StorageControlEvent Addr) :
    Decidable (s.KeepsAgreement encode e) := by
  cases e <;> unfold KeepsAgreement <;> infer_instance

/-! ## Sessions and connections -/

/-- A connection is in use by central, by a request, or by a report. -/
def InUse (s : StorageControl Addr) (connection : Nat) : Prop :=
  (∃ session ∈ s.sessions.rows, session.connection = connection) ∨
  (∃ request ∈ s.registrations.rows, request.connection = connection) ∨
  ∃ report ∈ s.reports.rows, report.connection = connection

/-- The storages of the sessions are distinct and known to central, and connections are
numbered in order. -/
structure Linked (s : StorageControl Addr) : Prop where
  published : s.shared.connection = s.task.published
  listed : ∀ session ∈ s.sessions.rows,
    ∃ storage, s.central.storages.find? session.storageId = some storage
  known : ∀ session ∈ s.sessions.rows, session.storageId < s.central.nextId
  distinct : ∀ left ∈ s.sessions.rows, ∀ right ∈ s.sessions.rows,
    left.storageId = right.storageId → left = right
  used : ∀ connection, s.InUse connection → connection < s.nextConnection
  current : ∀ connection, s.task.current = some connection → connection < s.nextConnection
  fresh : ∀ connection, s.task = .connected connection →
    connection < s.nextConnection ∧ ¬ s.InUse connection

/-- Only the watcher and the address differ. -/
structure SameLink (s s' : StorageControl Addr) : Prop where
  central : s'.central = s.central
  sessions : s'.sessions = s.sessions
  nextConnection : s'.nextConnection = s.nextConnection
  connection : s'.shared.connection = s.shared.connection
  task : s'.task = s.task
  registrations : s'.registrations = s.registrations
  reports : s'.reports = s.reports

variable {encode : Addr → Fs0Result Bytes} {s s' : StorageControl Addr}

theorem SameLink.inUse (same : SameLink s s') {connection : Nat} :
    s'.InUse connection ↔ s.InUse connection := by
  unfold InUse
  rw [same.sessions, same.registrations, same.reports]

theorem SameLink.carried (same : SameLink s s') : s'.carried = s.carried := by
  unfold StorageControl.carried
  rw [same.task, same.sessions, same.central, same.registrations]

theorem SameLink.linked (same : SameLink s s') (linked : s.Linked) : s'.Linked where
  published := by
    rw [same.connection, same.task]
    exact linked.published
  listed := by
    rw [same.sessions, same.central]
    exact linked.listed
  known := by
    rw [same.sessions, same.central]
    exact linked.known
  distinct := by
    rw [same.sessions]
    exact linked.distinct
  used := by
    intro connection
    rw [same.inUse, same.nextConnection]
    exact linked.used connection
  current := by
    rw [same.task, same.nextConnection]
    exact linked.current
  fresh := by
    intro connection
    rw [same.inUse, same.nextConnection, same.task]
    exact linked.fresh connection

theorem carried_of_no_current (idle : s.task.current = none) : s.carried = none := by
  rw [carried, idle]
  rfl

/-- The task goes on. -/
theorem Linked.setTask (linked : s.Linked) {task : ConnectionTask} {shared : CentralConnection}
    (published : shared.connection = task.published)
    (current : task.current = s.task.current ∨ task.current = none)
    (notConnected : ∀ connection, task ≠ .connected connection) :
    ({ s with task := task, shared := shared } : StorageControl Addr).Linked where
  published := published
  listed := linked.listed
  known := linked.known
  distinct := linked.distinct
  used := linked.used
  current := by
    intro connection isCurrent
    rcases current with same | none
    · exact linked.current connection (same ▸ isCurrent)
    · rw [none] at isCurrent
      cases isCurrent
  fresh := fun connection isConnected => absurd isConnected (notConnected connection)

theorem carried_setTask {task : ConnectionTask} {shared : CentralConnection}
    (current : task.current = s.task.current ∨ task.current = none) :
    ({ s with task := task, shared := shared } : StorageControl Addr).carried = s.carried ∨
      ({ s with task := task, shared := shared } : StorageControl Addr).carried = none := by
  rcases current with same | none
  · left
    unfold carried
    rw [same]
  · exact .inr (carried_of_no_current none)

theorem Linked.connect (linked : s.Linked) (idle : s.task = .reconnecting) :
    ({ s with
      task := .connected s.nextConnection
      nextConnection := s.nextConnection + 1 } : StorageControl Addr).Linked where
  published := by
    rw [linked.published, idle]
    rfl
  listed := linked.listed
  known := linked.known
  distinct := linked.distinct
  used := fun connection inUse => Nat.lt_succ_of_lt (linked.used connection inUse)
  current := nofun
  fresh := by
    intro connection isConnected
    obtain rfl := ConnectionTask.connected.inj isConnected
    exact ⟨Nat.lt_succ_self _, fun inUse => Nat.lt_irrefl _ (linked.used _ inUse)⟩

theorem inUse_of_put {connection other : Nat} {irohEndpoint : Bytes}
    (inUse : ({ s with
      task := .registering connection irohEndpoint
      registrations := s.registrations.put ⟨connection, irohEndpoint⟩ } :
        StorageControl Addr).InUse other) :
    s.InUse other ∨ other = connection := by
  rcases inUse with session | ⟨request, member, same⟩ | report
  · exact .inl (.inl session)
  · rcases Table.mem_put.mp member with rfl | ⟨old, -⟩
    · exact .inr same.symm
    · exact .inl (.inr (.inl ⟨request, old, same⟩))
  · exact .inl (.inr (.inr report))

theorem Linked.readAddr (linked : s.Linked) {connection : Nat} (irohEndpoint : Bytes)
    (isConnected : s.task = .connected connection) :
    ({ s with
      task := .registering connection irohEndpoint
      registrations := s.registrations.put ⟨connection, irohEndpoint⟩ } :
        StorageControl Addr).Linked where
  published := by
    rw [linked.published, isConnected]
    rfl
  listed := linked.listed
  known := linked.known
  distinct := linked.distinct
  used := by
    intro other inUse
    rcases inUse_of_put inUse with old | rfl
    · exact linked.used other old
    · exact (linked.fresh other isConnected).1
  current := by
    intro other isCurrent
    obtain rfl := Option.some.inj isCurrent
    exact (linked.fresh connection isConnected).1
  fresh := nofun

theorem carried_readAddr (linked : s.Linked) {connection : Nat} (irohEndpoint : Bytes)
    (isConnected : s.task = .connected connection) :
    ({ s with
      task := .registering connection irohEndpoint
      registrations := s.registrations.put ⟨connection, irohEndpoint⟩ } :
        StorageControl Addr).carried = some irohEndpoint := by
  have unused := (linked.fresh connection isConnected).2
  have noSession : s.sessions.find? connection = none :=
    Table.find?_eq_none.mpr fun session member same => unused (.inl ⟨session, member, same⟩)
  have request : (s.registrations.put ⟨connection, irohEndpoint⟩).find? connection =
      some ⟨connection, irohEndpoint⟩ :=
    Table.find?_put_self (t := s.registrations) (r := ⟨connection, irohEndpoint⟩)
  simp only [carried, ConnectionTask.current, Option.bind_some, noSession, request,
    Option.map_some]

/-! ## Central's steps -/

theorem updateEndpoint_apply {server : CentralServer} {storageId requestStorageId : Nat}
    {irohEndpoint : Bytes} {storage : StorageControlConnection}
    (found : server.storages.find? storageId = some storage) :
    updateEndpoint storageId requestStorageId irohEndpoint server =
      if requestStorageId = storageId then
        .ok .updateStorageEndpoint { server with
          storages := server.storages.put
            { storage with peer := { storage.peer with irohEndpoint := irohEndpoint } } }
      else .error .unauthorized server := by
  unfold updateEndpoint
  by_cases same : requestStorageId = storageId
  · have passed : (require (requestStorageId = storageId) Fs0Error.unauthorized : CentralM PUnit)
        server = .ok ⟨⟩ server := require_eq_ok.mpr ⟨same, rfl⟩
    rw [if_pos same, bind_of_ok passed, updateStorageEndpoint_apply, found]
  · rw [if_neg same, bind_apply, require, if_neg same]

theorem registerEndpoint_apply (name : String) (volumes : List StorageVolumeInfo)
    (irohEndpoint : Bytes) (connection : Nat) (server : CentralServer) :
    registerEndpoint name volumes irohEndpoint connection server =
      .ok server.nextId { server with
        nextId := server.nextId + 1
        storages := server.storages.put
          ⟨⟨server.nextId, name, volumes, irohEndpoint⟩, connection⟩ } := rfl

/-- Central registers a connection: its session and its storage are new. -/
structure RegisteredAs (s s' : StorageControl Addr) (request : RegistrationRequest)
    (storage : StorageControlConnection) : Prop where
  storageId : storage.storageId = s.central.nextId
  endpoint : storage.peer.irohEndpoint = request.irohEndpoint
  eq : s' = { s with
    central := { s.central with
      nextId := s.central.nextId + 1
      storages := s.central.storages.put storage }
    sessions := s.sessions.put ⟨request.connection, s.central.nextId⟩
    registrations := s.registrations.delete fun other => other.connection == request.connection }

theorem registeredAs_of_step {name : String} {volumes : List StorageVolumeInfo}
    {request : RegistrationRequest}
    (taken : s.centralRegisters name volumes request = some s') :
    ∃ storage, RegisteredAs s s' request storage := by
  unfold centralRegisters at taken
  rw [registerEndpoint_apply] at taken
  obtain rfl := Option.some.inj taken
  exact ⟨_, rfl, rfl, rfl⟩

variable {request : RegistrationRequest} {storage : StorageControlConnection}

/-- The storage of another session is where it was. -/
theorem RegisteredAs.find?_other (registered : RegisteredAs s s' request storage)
    {storageId : Nat} (older : storageId < s.central.nextId) :
    s'.central.storages.find? storageId = s.central.storages.find? storageId := by
  rw [registered.eq]
  apply Table.find?_put_of_ne
  rw [registered.storageId]
  exact Nat.ne_of_lt older

theorem RegisteredAs.find?_new (registered : RegisteredAs s s' request storage) :
    s'.central.storages.find? s.central.nextId = some storage := by
  have found := Table.find?_put_self (t := s.central.storages) (r := storage)
  rw [registered.storageId] at found
  rw [registered.eq]
  exact found

theorem RegisteredAs.session_cases (registered : RegisteredAs s s' request storage)
    {session : StorageSession} (member : session ∈ s'.sessions.rows) :
    session = ⟨request.connection, s.central.nextId⟩ ∨ session ∈ s.sessions.rows := by
  rw [registered.eq] at member
  exact (Table.mem_put.mp member).imp_right And.left

theorem RegisteredAs.linked (registered : RegisteredAs s s' request storage) (linked : s.Linked)
    (asked : request ∈ s.registrations.rows) : s'.Linked where
  published := by
    rw [registered.eq]
    exact linked.published
  listed := by
    intro session member
    rcases registered.session_cases member with rfl | old
    · exact ⟨storage, registered.find?_new⟩
    · rw [registered.find?_other (linked.known session old)]
      exact linked.listed session old
  known := by
    intro session member
    have more : s'.central.nextId = s.central.nextId + 1 := by rw [registered.eq]
    rw [more]
    rcases registered.session_cases member with rfl | old
    · exact Nat.lt_succ_self _
    · exact Nat.lt_succ_of_lt (linked.known session old)
  distinct := by
    intro left leftMem right rightMem same
    rcases registered.session_cases leftMem with rfl | leftOld <;>
      rcases registered.session_cases rightMem with rfl | rightOld
    · rfl
    · exact absurd same.symm (Nat.ne_of_lt (linked.known right rightOld))
    · exact absurd same (Nat.ne_of_lt (linked.known left leftOld))
    · exact linked.distinct left leftOld right rightOld same
  used := by
    intro connection inUse
    rw [registered.eq] at inUse ⊢
    rcases inUse with ⟨session, member, same⟩ | ⟨other, member, same⟩ | report
    · rcases Table.mem_put.mp member with rfl | ⟨old, -⟩
      · exact linked.used connection (.inr (.inl ⟨request, asked, same⟩))
      · exact linked.used connection (.inl ⟨session, old, same⟩)
    · exact linked.used connection (.inr (.inl ⟨other, (Table.mem_delete.mp member).1, same⟩))
    · exact linked.used connection (.inr (.inr report))
  current := by
    rw [registered.eq]
    exact linked.current
  fresh := by
    intro connection isConnected
    rw [registered.eq] at isConnected ⊢
    obtain ⟨below, unused⟩ := linked.fresh connection isConnected
    refine ⟨below, ?_⟩
    rintro (⟨session, member, same⟩ | ⟨other, member, same⟩ | report)
    · rcases Table.mem_put.mp member with rfl | ⟨old, -⟩
      · exact unused (.inr (.inl ⟨request, asked, same⟩))
      · exact unused (.inl ⟨session, old, same⟩)
    · exact unused (.inr (.inl ⟨other, (Table.mem_delete.mp member).1, same⟩))
    · exact unused (.inr (.inr report))

/-- What was on its way is now what central holds. -/
theorem RegisteredAs.carried (registered : RegisteredAs s s' request storage) (linked : s.Linked)
    (noSession : s.sessions.find? request.connection = none)
    (asked : s.registrations.find? request.connection = some request) : s'.carried = s.carried := by
  have sameTask : s'.task = s.task := by rw [registered.eq]
  have sessions : s'.sessions = s.sessions.put ⟨request.connection, s.central.nextId⟩ := by
    rw [registered.eq]
  unfold StorageControl.carried
  rw [sameTask]
  cases isCurrent : s.task.current with
  | none => rfl
  | some connection =>
      simp only [Option.bind_some]
      by_cases same : connection = request.connection
      · subst same
        have found : s'.sessions.find? request.connection =
            some ⟨request.connection, s.central.nextId⟩ := by
          rw [sessions]
          exact Table.find?_put_self (t := s.sessions)
            (r := ⟨request.connection, s.central.nextId⟩)
        simp only [found, noSession, asked, registered.find?_new, Option.map_some,
          registered.endpoint]
      · have found : s'.sessions.find? connection = s.sessions.find? connection := by
          rw [sessions]
          exact Table.find?_put_of_ne same
        have requests : s'.registrations.find? connection = s.registrations.find? connection := by
          rw [registered.eq]
          exact Table.find?_delete_of_false fun other isOther => by
            simpa [isOther] using same
        rw [found, requests]
        cases looked : s.sessions.find? connection with
        | none => rfl
        | some session =>
            simp only
            rw [registered.find?_other (linked.known session (Table.mem_of_find? looked).1)]

/-- Sessions and requests that are gone leave no trace. -/
theorem Linked.of_sub (linked : s.Linked) (sameTask : s'.task = s.task)
    (sameShared : s'.shared = s.shared) (sameNext : s'.nextConnection = s.nextConnection)
    (sameReports : s'.reports = s.reports)
    (sessions : ∀ session ∈ s'.sessions.rows, session ∈ s.sessions.rows ∧
      s'.central.storages.find? session.storageId = s.central.storages.find? session.storageId ∧
      session.storageId < s'.central.nextId)
    (requests : ∀ request ∈ s'.registrations.rows, request ∈ s.registrations.rows) :
    s'.Linked := by
  have sub : ∀ connection, s'.InUse connection → s.InUse connection := by
    rintro connection (⟨session, member, same⟩ | ⟨request, member, same⟩ | ⟨report, member, same⟩)
    · exact .inl ⟨session, (sessions session member).1, same⟩
    · exact .inr (.inl ⟨request, requests request member, same⟩)
    · exact .inr (.inr ⟨report, by rwa [sameReports] at member, same⟩)
  constructor
  case published =>
      rw [sameShared, sameTask]
      exact linked.published
  case listed =>
      intro session member
      obtain ⟨old, found, -⟩ := sessions session member
      rw [found]
      exact linked.listed session old
  case known => exact fun session member => (sessions session member).2.2
  case distinct =>
      exact fun left leftMem right rightMem => linked.distinct left (sessions left leftMem).1
        right (sessions right rightMem).1
  case used =>
      intro connection inUse
      rw [sameNext]
      exact linked.used connection (sub connection inUse)
  case current =>
      rw [sameTask, sameNext]
      exact linked.current
  case fresh =>
      intro connection isConnected
      rw [sameTask] at isConnected
      rw [sameNext]
      obtain ⟨below, unused⟩ := linked.fresh connection isConnected
      exact ⟨below, fun inUse => unused (sub connection inUse)⟩

/-- A connection carries what it did, or nothing any more. -/
theorem carried_of_sub (sameTask : s'.task = s.task)
    (sessions : ∀ connection, s'.sessions.find? connection = s.sessions.find? connection ∨
      s'.sessions.find? connection = none ∧ s'.registrations.find? connection = none)
    (storages : ∀ session ∈ s'.sessions.rows,
      s'.central.storages.find? session.storageId = s.central.storages.find? session.storageId)
    (requests : ∀ connection,
      s'.registrations.find? connection = s.registrations.find? connection ∨
        s'.registrations.find? connection = none) :
    s'.carried = s.carried ∨ s'.carried = none := by
  unfold carried
  rw [sameTask]
  cases isCurrent : s.task.current with
  | none => exact .inl rfl
  | some connection =>
      simp only [Option.bind_some]
      rcases sessions connection with same | ⟨gone, dropped⟩
      · cases looked : s'.sessions.find? connection with
        | none =>
            rw [← same, looked]
            rcases requests connection with kept | dropped
            · exact .inl (by rw [kept])
            · exact .inr (by rw [dropped]; rfl)
        | some session =>
            rw [← same, looked]
            exact .inl (by simp only [storages session (Table.mem_of_find? looked).1])
      · exact .inr (by rw [gone, dropped]; rfl)

theorem centralRejects_linked (linked : s.Linked) (connection : Nat) :
    ({ s with registrations := s.registrations.delete fun request =>
        request.connection == connection } : StorageControl Addr).Linked :=
  linked.of_sub rfl rfl rfl rfl
    (fun session member => ⟨member, rfl, linked.known session member⟩)
    fun _ member => (Table.mem_delete.mp member).1

theorem find?_deleteConnection (connection other : Nat) :
    (s.registrations.delete fun request => request.connection == connection).find? other =
        s.registrations.find? other ∨
      (s.registrations.delete fun request => request.connection == connection).find? other = none := by
  by_cases same : other = connection
  · right
    apply Table.find?_eq_none.mpr
    intro request member isOther
    have kept := (Table.mem_delete.mp member).2
    simp [isOther, same] at kept
  · left
    exact Table.find?_delete_of_false fun request isOther => by simpa [isOther] using same

theorem centralRejects_carried (connection : Nat) :
    ({ s with registrations := s.registrations.delete fun request =>
        request.connection == connection } : StorageControl Addr).carried = s.carried ∨
    ({ s with registrations := s.registrations.delete fun request =>
        request.connection == connection } : StorageControl Addr).carried = none :=
  carried_of_sub rfl (fun _ => .inl rfl) (fun _ _ => rfl) fun other =>
    find?_deleteConnection connection other

theorem centralRestarts_linked (linked : s.Linked) :
    ({ s with
      central := .run s.central.db
      sessions := .empty
      registrations := .empty } : StorageControl Addr).Linked :=
  linked.of_sub rfl rfl rfl rfl (fun _ member => by cases member) fun _ member => by cases member

theorem centralRestarts_carried :
    ({ s with
      central := .run s.central.db
      sessions := .empty
      registrations := .empty } : StorageControl Addr).carried = none := by
  unfold carried
  cases s.task.current <;> rfl

/-- The storage of another session is still listed when a connection is lost. -/
theorem centralLoses_storages (linked : s.Linked) (connection : Nat) :
    ∀ session ∈ (s.centralLoses connection).sessions.rows, session ∈ s.sessions.rows ∧
      (s.centralLoses connection).central.storages.find? session.storageId =
        s.central.storages.find? session.storageId ∧
      session.storageId < (s.centralLoses connection).central.nextId := by
  intro session member
  obtain ⟨old, kept⟩ := Table.mem_delete.mp member
  refine ⟨old, ?_⟩
  unfold centralLoses
  cases looked : s.sessions.find? connection with
  | none => exact ⟨rfl, linked.known session old⟩
  | some lost =>
      obtain ⟨lostMem, isLost⟩ := Table.mem_of_find? looked
      refine ⟨?_, linked.known session old⟩
      apply Table.find?_delete_of_false
      intro storage isStorage
      rw [beq_eq_false_iff_ne, isStorage]
      intro same
      rw [linked.distinct session old lost lostMem same] at kept
      simp [isLost] at kept

theorem centralLoses_linked (linked : s.Linked) (connection : Nat) :
    (s.centralLoses connection).Linked :=
  linked.of_sub rfl rfl rfl rfl (centralLoses_storages linked connection)
    fun _ member => (Table.mem_delete.mp member).1

theorem centralLoses_carried (linked : s.Linked) (connection : Nat) :
    (s.centralLoses connection).carried = s.carried ∨ (s.centralLoses connection).carried = none := by
  refine carried_of_sub rfl (fun other => ?_)
    (fun session member => (centralLoses_storages linked connection session member).2.1)
    fun other => find?_deleteConnection connection other
  by_cases same : other = connection
  · right
    constructor
    · apply Table.find?_eq_none.mpr
      intro session member isOther
      have kept := (Table.mem_delete.mp member).2
      simp [isOther, same] at kept
    · apply Table.find?_eq_none.mpr
      intro request member isOther
      have kept := (Table.mem_delete.mp member).2
      simp [isOther, same] at kept
  · left
    exact Table.find?_delete_of_false fun session isOther => by simpa [isOther] using same

/-- Central carries a report out, or refuses it. -/
theorem centralUpdates_cases (linked : s.Linked) {session : StorageSession}
    (known : session ∈ s.sessions.rows) (report : EndpointReport) :
    (∃ storage, s.central.storages.find? session.storageId = some storage ∧
      report.storageId = session.storageId ∧
      s.centralUpdates session report = { s with
        central := { s.central with
          storages := s.central.storages.put
            { storage with peer := { storage.peer with irohEndpoint := report.irohEndpoint } } }
        reports := s.reports.replace { report with answer := some true } }) ∨
    (report.storageId ≠ session.storageId ∧ s.centralUpdates session report = { s with
      reports := s.reports.replace { report with answer := some false } }) := by
  obtain ⟨storage, found⟩ := linked.listed session known
  unfold centralUpdates
  rw [updateEndpoint_apply found]
  by_cases same : report.storageId = session.storageId
  · rw [if_pos same]
    exact .inl ⟨storage, found, same, rfl⟩
  · rw [if_neg same]
    exact .inr ⟨same, rfl⟩

theorem inUse_of_replace {report : EndpointReport} (old : report ∈ s.reports.rows)
    (answer : Option Bool) (central : CentralServer) {connection : Nat}
    (inUse : ({ s with
      central := central
      reports := s.reports.replace { report with answer := answer } } :
        StorageControl Addr).InUse connection) : s.InUse connection := by
  rcases inUse with session | request | ⟨other, member, same⟩
  · exact .inl session
  · exact .inr (.inl request)
  · rcases SeqTable.mem_replace member with rfl | ⟨older, -⟩
    · exact .inr (.inr ⟨report, old, same⟩)
    · exact .inr (.inr ⟨other, older, same⟩)

theorem find?_putEndpoint {storages : Table StorageControlConnection.storageId}
    {storage : StorageControlConnection} {storageId : Nat} (isStorage : storage.storageId = storageId)
    (irohEndpoint : Bytes) :
    (storages.put { storage with
      peer := { storage.peer with irohEndpoint := irohEndpoint } }).find? storageId =
        some { storage with peer := { storage.peer with irohEndpoint := irohEndpoint } } := by
  rw [← isStorage]
  exact Table.find?_put_self

theorem find?_putEndpoint_of_ne {storages : Table StorageControlConnection.storageId}
    {storage : StorageControlConnection} {storageId : Nat} (other : storageId ≠ storage.storageId)
    (irohEndpoint : Bytes) :
    (storages.put { storage with
      peer := { storage.peer with irohEndpoint := irohEndpoint } }).find? storageId =
        storages.find? storageId :=
  Table.find?_put_of_ne other

theorem centralUpdates_linked (linked : s.Linked) {session : StorageSession}
    (known : session ∈ s.sessions.rows) {report : EndpointReport}
    (old : report ∈ s.reports.rows) : (s.centralUpdates session report).Linked := by
  rcases centralUpdates_cases linked known report with ⟨storage, found, -, eq⟩ | ⟨-, eq⟩
  · rw [eq]
    have isStorage : storage.storageId = session.storageId := (Table.mem_of_find? found).2
    constructor
    case published => exact linked.published
    case listed =>
        intro other member
        by_cases same : other.storageId = session.storageId
        · rw [same]
          exact ⟨_, find?_putEndpoint isStorage report.irohEndpoint⟩
        · obtain ⟨otherStorage, otherFound⟩ := linked.listed other member
          refine ⟨otherStorage, ?_⟩
          rw [← otherFound]
          exact find?_putEndpoint_of_ne (fun isOther => same (isOther.trans isStorage)) _
    case known => exact linked.known
    case distinct => exact linked.distinct
    case used => exact fun connection inUse => linked.used connection (inUse_of_replace old _ _ inUse)
    case current => exact linked.current
    case fresh =>
        intro connection isConnected
        obtain ⟨below, unused⟩ := linked.fresh connection isConnected
        exact ⟨below, fun inUse => unused (inUse_of_replace old _ _ inUse)⟩
  · rw [eq]
    constructor
    case published => exact linked.published
    case listed => exact linked.listed
    case known => exact linked.known
    case distinct => exact linked.distinct
    case used =>
        exact fun connection inUse =>
          linked.used connection (inUse_of_replace old (some false) s.central inUse)
    case current => exact linked.current
    case fresh =>
        intro connection isConnected
        obtain ⟨below, unused⟩ := linked.fresh connection isConnected
        exact ⟨below, fun inUse => unused (inUse_of_replace old (some false) s.central inUse)⟩

/-- A report that is carried out on the current connection replaces what it carried. -/
theorem centralUpdates_carried (linked : s.Linked) {session : StorageSession}
    {report : EndpointReport} (found : s.sessions.find? report.connection = some session)
    (effective : report.storageId = session.storageId) :
    (s.centralUpdates session report).carried =
      if s.task.current = some report.connection then some report.irohEndpoint else s.carried := by
  obtain ⟨member, isSession⟩ := Table.mem_of_find? found
  rcases centralUpdates_cases linked member report with ⟨storage, stored, -, eq⟩ | ⟨refused, -⟩
  · have isStorage : storage.storageId = session.storageId := (Table.mem_of_find? stored).2
    rw [eq]
    unfold carried
    dsimp only
    cases isCurrent : s.task.current with
    | none => rfl
    | some connection =>
        simp only [Option.bind_some, Option.some.injEq]
        by_cases same : connection = report.connection
        · subst same
          rw [found, if_pos rfl]
          dsimp only
          rw [find?_putEndpoint isStorage report.irohEndpoint]
          rfl
        · rw [if_neg same]
          cases looked : s.sessions.find? connection with
          | none => rfl
          | some other =>
              dsimp only
              have differ : other.storageId ≠ session.storageId := by
                intro sameStorage
                obtain ⟨otherMem, isOther⟩ := Table.mem_of_find? looked
                rw [linked.distinct other otherMem session member sameStorage] at isOther
                exact same (isOther.symm.trans isSession)
              rw [find?_putEndpoint_of_ne fun isOther => differ (isOther.trans isStorage)]
  · exact absurd effective refused

theorem centralUpdates_refused (linked : s.Linked) {session : StorageSession}
    {report : EndpointReport} (known : session ∈ s.sessions.rows)
    (refused : report.storageId ≠ session.storageId) :
    (s.centralUpdates session report).carried = s.carried := by
  rcases centralUpdates_cases linked known report with ⟨-, -, effective, -⟩ | ⟨-, eq⟩
  · exact absurd effective refused
  · rw [eq]
    rfl

theorem send_linked (linked : s.Linked) {connection storageId : Nat} {irohEndpoint : Bytes}
    (isCurrent : s.task.current = some connection) :
    ({ s with
      reports := s.reports.push
        (fun reportId => ⟨reportId, connection, storageId, irohEndpoint, none⟩) fun _ => rfl
      watcher := .awaiting irohEndpoint (s.reports.seq + 1) } : StorageControl Addr).Linked where
  published := linked.published
  listed := linked.listed
  known := linked.known
  distinct := linked.distinct
  used := by
    rintro other (session | request | ⟨report, member, same⟩)
    · exact linked.used other (.inl session)
    · exact linked.used other (.inr (.inl request))
    · rcases List.mem_append.mp member with old | new
      · exact linked.used other (.inr (.inr ⟨report, old, same⟩))
      · obtain rfl := List.mem_singleton.mp new
        exact same ▸ linked.current connection isCurrent
  current := linked.current
  fresh := by
    intro other isConnected
    dsimp only at isConnected
    rw [isConnected] at isCurrent
    cases isCurrent

/-! ## The watcher -/

/-- The report the watcher waits for, and what the current registration carries next to it. -/
def Awaited (s : StorageControl Addr) (irohEndpoint : Bytes) (report : EndpointReport) : Prop :=
  report.irohEndpoint = irohEndpoint ∧
  (s.task.current = some report.connection ∨
    ∀ other ∈ s.reports.rows, s.task.current ≠ some other.connection) ∧
  (s.unseen = false → ∀ carried, s.carried = some carried → carried = irohEndpoint ∨
    (s.task.current = some report.connection ∧ report.answer ≠ some true))

/-- What the watcher knows in each of its places. -/
structure Watched (encode : Addr → Fs0Result Bytes) (s : StorageControl Addr) : Prop where
  rest : s.AtRest → s.CarriesCurrent encode
  read : ∀ irohEndpoint, s.watcher.endpoint = some irohEndpoint → s.unseen = false →
    encode s.addr = .ok irohEndpoint
  retrying : s.watcher = .retrying → s.pendingReport = true
  sent : ∀ irohEndpoint reportId, s.watcher = .awaiting irohEndpoint reportId →
    ∃ report, s.reports.find? reportId = some report ∧ s.Awaited irohEndpoint report

theorem CarriesCurrent.of_carried (current : s.CarriesCurrent encode)
    (addr : s'.addr = s.addr) (carried : s'.carried = s.carried ∨ s'.carried = none) :
    s'.CarriesCurrent encode := by
  intro endpoint isCarried
  rcases carried with same | none
  · unfold IsEndpoint
    rw [addr]
    exact current endpoint (same ▸ isCarried)
  · rw [none] at isCarried
    cases isCarried

/-- Only the task and central differ. -/
structure SameWatch (s s' : StorageControl Addr) : Prop where
  addr : s'.addr = s.addr
  unseen : s'.unseen = s.unseen
  watcher : s'.watcher = s.watcher
  pendingReport : s'.pendingReport = s.pendingReport
  reports : s'.reports = s.reports

theorem SameWatch.atRest (same : SameWatch s s') : s'.AtRest ↔ s.AtRest := by
  unfold AtRest
  rw [same.watcher, same.pendingReport, same.unseen]

/-- The report that is awaited is not affected by a registration that goes on or away. -/
theorem Awaited.of_task {irohEndpoint : Bytes} {report : EndpointReport}
    (awaited : s.Awaited irohEndpoint report) (same : SameWatch s s')
    (current : s'.task.current = s.task.current ∨ s'.task.current = none)
    (carried : s'.carried = s.carried ∨ s'.carried = none) : s'.Awaited irohEndpoint report := by
  obtain ⟨isEndpoint, latest, pending⟩ := awaited
  refine ⟨isEndpoint, ?_, ?_⟩
  · rw [same.reports]
    rcases current with kept | none
    · rw [kept]
      exact latest
    · rw [none]
      exact .inr fun _ _ => nofun
  · rw [same.unseen]
    intro seen endpoint isCarried
    rcases carried with kept | none
    · rw [kept] at isCarried
      rcases pending seen endpoint isCarried with isReport | ⟨isCurrent, answer⟩
      · exact .inl isReport
      · rcases current with keptTask | noTask
        · exact .inr ⟨keptTask.trans isCurrent, answer⟩
        · rw [carried_of_no_current noTask] at kept
          rw [← kept] at isCarried
          cases isCarried
    · rw [none] at isCarried
      cases isCarried

theorem Watched.of_task (watched : s.Watched encode) (same : SameWatch s s')
    (current : s'.task.current = s.task.current ∨ s'.task.current = none)
    (carried : s'.carried = s.carried ∨ s'.carried = none) : s'.Watched encode where
  rest := by
    rw [same.atRest]
    exact fun atRest => (watched.rest atRest).of_carried same.addr carried
  read := by
    rw [same.watcher, same.unseen, same.addr]
    exact watched.read
  retrying := by
    rw [same.watcher, same.pendingReport]
    exact watched.retrying
  sent := by
    rw [same.watcher, same.reports]
    intro irohEndpoint reportId isAwaiting
    obtain ⟨report, found, awaited⟩ := watched.sent irohEndpoint reportId isAwaiting
    exact ⟨report, found, awaited.of_task same current carried⟩

/-- A watcher on its way through the loop promises nothing. -/
theorem Watched.of_moving (notLooping : s.watcher ≠ .looping) (notRetrying : s.watcher ≠ .retrying)
    (noEndpoint : s.watcher.endpoint = none) : s.Watched encode where
  rest := fun atRest => absurd atRest.1 notLooping
  read := by
    rw [noEndpoint]
    nofun
  retrying := fun isRetrying => absurd isRetrying notRetrying
  sent := by
    intro irohEndpoint reportId isAwaiting
    rw [isAwaiting] at noEndpoint
    cases noEndpoint

/-- At the top of the loop, and after a failed report, only a rest says anything. -/
theorem Watched.of_looping (rest : s.AtRest → s.CarriesCurrent encode)
    (isLooping : s.watcher = .looping) : s.Watched encode where
  rest := rest
  read := by
    rw [isLooping]
    nofun
  retrying := by
    rw [isLooping]
    nofun
  sent := by
    rw [isLooping]
    nofun

theorem reportFailed_watched : s.reportFailed.Watched encode where
  rest := nofun
  read := nofun
  retrying := fun _ => rfl
  sent := nofun

theorem changeAddr_watched (watched : s.Watched encode) (addr : Addr) :
    ({ s with addr := addr, unseen := true } : StorageControl Addr).Watched encode where
  rest := nofun
  read := nofun
  retrying := watched.retrying
  sent := by
    intro irohEndpoint reportId isAwaiting
    obtain ⟨report, found, isEndpoint, latest, -⟩ := watched.sent irohEndpoint reportId isAwaiting
    exact ⟨report, found, isEndpoint, latest, nofun⟩

/-- A registration reads the address the watcher has seen, or one it will be told of. -/
theorem readAddr_watched (watched : s.Watched encode) (linked : s.Linked) {connection : Nat}
    {irohEndpoint : Bytes} (isConnected : s.task = .connected connection)
    (encoded : encode s.addr = .ok irohEndpoint) :
    ({ s with
      task := .registering connection irohEndpoint
      registrations := s.registrations.put ⟨connection, irohEndpoint⟩ } :
        StorageControl Addr).Watched encode where
  rest := by
    intro _ carried isCarried current isCurrent
    rw [carried_readAddr linked irohEndpoint isConnected] at isCarried
    rw [← Option.some.inj isCarried]
    exact Except.ok.inj (encoded.symm.trans isCurrent)
  read := watched.read
  retrying := watched.retrying
  sent := by
    intro reported reportId isAwaiting
    obtain ⟨report, found, isEndpoint, -, -⟩ := watched.sent reported reportId isAwaiting
    refine ⟨report, found, isEndpoint, .inr ?_, ?_⟩
    · intro other member same
      obtain rfl := Option.some.inj same
      exact (linked.fresh _ isConnected).2 (.inr (.inr ⟨other, member, rfl⟩))
    · intro seen carried isCarried
      rw [carried_readAddr linked irohEndpoint isConnected] at isCarried
      left
      rw [← Option.some.inj isCarried]
      have known := watched.read reported (by rw [isAwaiting]; rfl) seen
      exact Except.ok.inj (encoded.symm.trans known)

theorem readEndpoint_sameLink : SameLink s (s.readEndpoint encode) := by
  unfold readEndpoint
  split
  · exact ⟨rfl, rfl, rfl, rfl, rfl, rfl, rfl⟩
  · split <;> exact ⟨rfl, rfl, rfl, rfl, rfl, rfl, rfl⟩

/-- The watcher skips a report only when the registration carries the same. -/
theorem readEndpoint_watched (admitted : s.KeepsAgreement encode .readEndpoint) :
    (s.readEndpoint encode).Watched encode := by
  unfold readEndpoint
  cases encoded : encode s.addr with
  | error err =>
      apply Watched.of_looping
      · intro _ carried _ current isCurrent
        rw [encoded] at isCurrent
        cases isCurrent
      · rfl
  | ok irohEndpoint =>
      dsimp only
      split
      next same =>
        subst same
        apply Watched.of_looping
        · intro _ carried isCarried current isCurrent
          rw [admitted encoded carried isCarried]
          exact Except.ok.inj (encoded.symm.trans isCurrent)
        · rfl
      next =>
        constructor
        case rest => nofun
        case read =>
            intro reported isEndpoint _
            obtain rfl := Option.some.inj isEndpoint
            exact encoded
        case retrying => nofun
        case sent => nofun

theorem identified_watched (watched : s.Watched encode) {irohEndpoint : Bytes}
    (isReporting : s.watcher = .reporting irohEndpoint) (storageId : Nat) :
    ({ s with watcher := .identified irohEndpoint storageId } :
      StorageControl Addr).Watched encode where
  rest := nofun
  read := by
    intro reported isEndpoint seen
    obtain rfl := Option.some.inj isEndpoint
    exact watched.read _ (by rw [isReporting]; rfl) seen
  retrying := nofun
  sent := nofun

theorem send_watched (watched : s.Watched encode) {irohEndpoint : Bytes} {storageId connection : Nat}
    (isIdentified : s.watcher = .identified irohEndpoint storageId)
    (isCurrent : s.task.current = some connection) :
    ({ s with
      reports := s.reports.push
        (fun reportId => ⟨reportId, connection, storageId, irohEndpoint, none⟩) fun _ => rfl
      watcher := .awaiting irohEndpoint (s.reports.seq + 1) } :
        StorageControl Addr).Watched encode where
  rest := nofun
  read := by
    intro reported isEndpoint seen
    obtain rfl := Option.some.inj isEndpoint
    exact watched.read _ (by rw [isIdentified]; rfl) seen
  retrying := nofun
  sent := by
    intro reported reportId isAwaiting
    obtain ⟨rfl, rfl⟩ := WatcherTask.awaiting.inj isAwaiting
    exact ⟨_, SeqTable.find?_push, rfl, .inl isCurrent, fun _ _ _ => .inr ⟨isCurrent, nofun⟩⟩

/-- An answer that the report was carried out is about what the registration carries. -/
theorem reportReply_watched (watched : s.Watched encode) {irohEndpoint : Bytes}
    {reportId : Nat} {report : EndpointReport} {updated : Bool}
    (isAwaiting : s.watcher = .awaiting irohEndpoint reportId)
    (found : s.reports.find? reportId = some report) (answered : report.answer = some updated) :
    (s.reportReply irohEndpoint updated).Watched encode := by
  cases updated with
  | false => exact reportFailed_watched
  | true =>
      apply Watched.of_looping
      · rintro ⟨-, -, seen⟩ carried isCarried current isCurrent
        have known := watched.read irohEndpoint (by rw [isAwaiting]; rfl) seen
        obtain ⟨other, otherFound, -, -, pending⟩ := watched.sent irohEndpoint reportId isAwaiting
        obtain rfl := Option.some.inj (found.symm.trans otherFound)
        rcases pending seen carried isCarried with rfl | ⟨-, unanswered⟩
        · exact Except.ok.inj (known.symm.trans isCurrent)
        · exact absurd answered unanswered
      · rfl

theorem reportReply_sameLink {irohEndpoint : Bytes} (updated : Bool) :
    SameLink s (s.reportReply irohEndpoint updated) := by
  cases updated <;> exact ⟨rfl, rfl, rfl, rfl, rfl, rfl, rfl⟩

/-! ## A report is carried out -/

/-- What central does with a report, seen from the storage. -/
structure Answered (s s' : StorageControl Addr) (report : EndpointReport) (updated : Bool) :
    Prop where
  addr : s'.addr = s.addr
  unseen : s'.unseen = s.unseen
  watcher : s'.watcher = s.watcher
  pendingReport : s'.pendingReport = s.pendingReport
  task : s'.task = s.task
  reports : s'.reports = s.reports.replace { report with answer := some updated }
  carried : s'.carried = if updated = true ∧ s.task.current = some report.connection then
    some report.irohEndpoint else s.carried

theorem centralUpdates_answered (linked : s.Linked) {session : StorageSession}
    {report : EndpointReport} (found : s.sessions.find? report.connection = some session) :
    ∃ updated, Answered s (s.centralUpdates session report) report updated ∧
      (updated = true → report.storageId = session.storageId) := by
  obtain ⟨member, -⟩ := Table.mem_of_find? found
  rcases centralUpdates_cases linked member report with ⟨storage, stored, effective, eq⟩ | ⟨refused, eq⟩
  · refine ⟨true, ?_, fun _ => effective⟩
    have carried := centralUpdates_carried linked found effective
    constructor
    case carried => simpa using carried
    all_goals rw [eq]
  · refine ⟨false, ?_, nofun⟩
    have carried := centralUpdates_refused linked member refused
    constructor
    case carried => simpa using carried
    all_goals rw [eq]

/-- The awaited report stays awaited, whichever report central carries out. -/
theorem Answered.awaited {report : EndpointReport} {updated : Bool}
    (answered : Answered s s' report updated)
    (found : s.reports.find? report.reportId = some report) {irohEndpoint : Bytes} {reportId : Nat}
    {latest : EndpointReport} (latestFound : s.reports.find? reportId = some latest)
    (awaited : s.Awaited irohEndpoint latest)
    (late : updated = true → s.task.current = some report.connection → s.unseen = false →
      report.reportId ≠ reportId → latest.answer = some true →
        report.irohEndpoint = irohEndpoint) :
    ∃ now, s'.reports.find? reportId = some now ∧ s'.Awaited irohEndpoint now := by
  obtain ⟨isEndpoint, isLatest, pending⟩ := awaited
  have current : s'.task.current = some latest.connection ∨
      ∀ other ∈ s'.reports.rows, s'.task.current ≠ some other.connection := by
    rw [answered.task, answered.reports]
    refine isLatest.imp_right fun stale other member => ?_
    rcases SeqTable.mem_replace member with rfl | ⟨old, -⟩
    · exact stale report (Table.mem_of_find? found).1
    · exact stale other old
  by_cases same : report.reportId = reportId
  · subst same
    obtain rfl := Option.some.inj (found.symm.trans latestFound)
    refine ⟨{ report with answer := some updated }, ?_, isEndpoint, current, ?_⟩
    · rw [answered.reports]
      exact SeqTable.find?_replace_self found rfl
    · rw [answered.unseen, answered.carried, answered.task]
      intro seen carried isCarried
      split at isCarried
      next => exact .inl ((Option.some.inj isCarried).symm.trans isEndpoint)
      next other =>
        rcases pending seen carried isCarried with isReport | ⟨isCurrent, -⟩
        · exact .inl isReport
        · exact .inr ⟨isCurrent, fun isUpdated => other ⟨Option.some.inj isUpdated, isCurrent⟩⟩
  · refine ⟨latest, ?_, isEndpoint, current, ?_⟩
    · rw [answered.reports]
      exact SeqTable.find?_replace_of_ne latestFound same
    · rw [answered.unseen, answered.carried, answered.task]
      intro seen carried isCarried
      split at isCarried
      next effective =>
        obtain ⟨isUpdated, isCurrent⟩ := effective
        -- A report on the current connection is no later than the awaited one.
        have latestCurrent : s.task.current = some latest.connection :=
          isLatest.resolve_right fun stale => stale report (Table.mem_of_find? found).1 isCurrent
        by_cases done : latest.answer = some true
        · left
          rw [← Option.some.inj isCarried]
          exact late isUpdated isCurrent seen same done
        · exact .inr ⟨latestCurrent, done⟩
      next => exact pending seen carried isCarried

theorem settled_of_looping (isLooping : s.watcher = .looping) (noReport : s.pendingReport = false)
    (seen : s.unseen = false) {reportId : Nat} : s.Settled reportId := by
  refine ⟨seen, ?_⟩
  rw [isLooping]
  exact noReport

theorem settled_of_awaiting {irohEndpoint : Bytes} {reportId other : Nat}
    (isAwaiting : s.watcher = .awaiting irohEndpoint other) (differ : other ≠ reportId)
    (answered : (s.reports.find? other).bind EndpointReport.answer = some true)
    (seen : s.unseen = false) : s.Settled reportId := by
  refine ⟨seen, ?_⟩
  rw [isAwaiting]
  exact ⟨differ, answered⟩

theorem Answered.watched {report : EndpointReport} {updated : Bool}
    (answered : Answered s s' report updated) (watched : s.Watched encode)
    (found : s.reports.find? report.reportId = some report)
    (late : updated = true → s.task.current = some report.connection → s.Settled report.reportId →
      s.IsEndpoint encode report.irohEndpoint) :
    s'.Watched encode where
  rest := by
    rintro ⟨isLooping, noReport, seen⟩
    rw [answered.watcher] at isLooping
    rw [answered.pendingReport] at noReport
    rw [answered.unseen] at seen
    intro carried isCarried current isCurrent
    rw [answered.addr] at isCurrent
    rw [answered.carried] at isCarried
    split at isCarried
    next effective =>
      rw [← Option.some.inj isCarried]
      exact late effective.1 effective.2 (settled_of_looping isLooping noReport seen) current isCurrent
    next => exact watched.rest ⟨isLooping, noReport, seen⟩ carried isCarried current isCurrent
  read := by
    rw [answered.watcher, answered.unseen, answered.addr]
    exact watched.read
  retrying := by
    rw [answered.watcher, answered.pendingReport]
    exact watched.retrying
  sent := by
    rw [answered.watcher]
    intro irohEndpoint reportId isAwaiting
    obtain ⟨latest, latestFound, awaited⟩ := watched.sent irohEndpoint reportId isAwaiting
    refine answered.awaited found latestFound awaited ?_
    intro isUpdated isCurrent seen other done
    have known := watched.read irohEndpoint (by rw [isAwaiting]; rfl) seen
    exact late isUpdated isCurrent
      (settled_of_awaiting isAwaiting (Ne.symm other) (by rw [latestFound]; exact done) seen)
      irohEndpoint known

/-! ## Every step -/

/-- The connections are in order and the watcher has not missed anything. -/
structure Agreeing (encode : Addr → Fs0Result Bytes) (s : StorageControl Addr) : Prop where
  linked : s.Linked
  watched : s.Watched encode

theorem Agreeing.agrees (agreeing : s.Agreeing encode) : s.EndpointAgrees encode := by
  rintro atRest storageId ⟨connection, -, isConnection, found⟩
  obtain ⟨storage, stored⟩ := agreeing.linked.listed _ (Table.mem_of_find? found).1
  refine ⟨storage, stored, fun current isCurrent => ?_⟩
  have isTask : s.task.current = some connection :=
    ConnectionTask.current_of_published (agreeing.linked.published.symm.trans isConnection)
  apply agreeing.watched.rest atRest _ _ current isCurrent
  simp only [carried, isTask, Option.bind_some, found]
  rw [stored]
  rfl

/-- The task goes on or gives a connection up. -/
theorem Agreeing.setTask (agreeing : s.Agreeing encode) {task : ConnectionTask}
    {shared : CentralConnection} (published : shared.connection = task.published)
    (current : task.current = s.task.current ∨ task.current = none)
    (notConnected : ∀ connection, task ≠ .connected connection) :
    ({ s with task := task, shared := shared } : StorageControl Addr).Agreeing encode where
  linked := agreeing.linked.setTask published current notConnected
  watched := agreeing.watched.of_task ⟨rfl, rfl, rfl, rfl, rfl⟩ current (carried_setTask current)

/-- The watcher goes on. -/
theorem Agreeing.of_watcher (agreeing : s.Agreeing encode) (same : SameLink s s')
    (watched : s'.Watched encode) : s'.Agreeing encode :=
  ⟨same.linked agreeing.linked, watched⟩

theorem Agreeing.connect (agreeing : s.Agreeing encode) (idle : s.task = .reconnecting) :
    ({ s with
      task := .connected s.nextConnection
      nextConnection := s.nextConnection + 1 } : StorageControl Addr).Agreeing encode where
  linked := agreeing.linked.connect idle
  watched := agreeing.watched.of_task ⟨rfl, rfl, rfl, rfl, rfl⟩ (.inr rfl) (.inr rfl)

theorem Agreeing.readAddr (agreeing : s.Agreeing encode)
    (taken : s.stepTask encode .readAddr = some s') : s'.Agreeing encode := by
  simp only [stepTask] at taken
  split at taken
  next connection irohEndpoint isConnected encoded =>
    obtain rfl := Option.some.inj taken
    exact ⟨agreeing.linked.readAddr irohEndpoint isConnected,
      readAddr_watched agreeing.watched agreeing.linked isConnected encoded⟩
  next isConnected _ =>
    obtain rfl := Option.some.inj taken
    refine agreeing.setTask ?_ (.inr rfl) nofun
    rw [agreeing.linked.published, isConnected]
    rfl
  next => cases taken

/-- The registration is complete; the first one starts the watcher. -/
theorem Agreeing.storeEndpoint (agreeing : s.Agreeing encode) {connection : Nat}
    {irohEndpoint : Bytes} (isStored : s.task = .connectionStored connection irohEndpoint) :
    ({ s with
      shared := { s.shared with lastReportedEndpoint := irohEndpoint }
      task := .serving connection
      watcher := if s.watcher = .unspawned then .spawned else s.watcher } :
        StorageControl Addr).Agreeing encode := by
  have served : ({ s with
      task := .serving connection
      shared := { s.shared with lastReportedEndpoint := irohEndpoint } } :
        StorageControl Addr).Agreeing encode := by
    refine agreeing.setTask ?_ (.inl ?_) nofun
    · rw [agreeing.linked.published, isStored]
      rfl
    · rw [isStored]
      rfl
  by_cases isUnspawned : s.watcher = .unspawned
  · rw [if_pos isUnspawned]
    refine served.of_watcher ⟨rfl, rfl, rfl, rfl, rfl, rfl, rfl⟩ ?_
    exact Watched.of_moving nofun nofun rfl
  · rw [if_neg isUnspawned]
    exact served

/-- What the task does next keeps the agreement. -/
theorem stepTask_agreeing {e : StorageControlEvent Addr} (agreeing : s.Agreeing encode)
    (taken : s.stepTask encode e = some s') : s'.Agreeing encode := by
  have published := agreeing.linked.published
  cases e with
  | readAddr => exact agreeing.readAddr taken
  | connect =>
      simp only [stepTask] at taken
      split at taken
      next isTask =>
        obtain rfl := Option.some.inj taken
        exact agreeing.connect isTask
      next => cases taken
  | storeEndpoint =>
      simp only [stepTask] at taken
      split at taken
      next isTask =>
        obtain rfl := Option.some.inj taken
        exact agreeing.storeEndpoint isTask
      next => cases taken
  | registerReply =>
      simp only [stepTask] at taken
      split at taken
      next isTask =>
        rw [isTask] at published
        obtain ⟨session, -, rfl⟩ := Option.map_eq_some_iff.mp taken
        exact agreeing.setTask published (.inl (by rw [isTask]; rfl)) (by simp)
      next => cases taken
  | registerFails =>
      simp only [stepTask] at taken
      split at taken
      next isTask =>
        rw [isTask] at published
        obtain rfl := Option.some.inj taken
        exact agreeing.setTask published (.inr rfl) (by simp)
      next => cases taken
  | storeStorageId =>
      simp only [stepTask] at taken
      split at taken
      next isTask =>
        rw [isTask] at published
        obtain rfl := Option.some.inj taken
        exact agreeing.setTask published (.inl (by rw [isTask]; rfl)) (by simp)
      next => cases taken
  | storeConnection =>
      simp only [stepTask] at taken
      split at taken
      next isTask =>
        rw [isTask] at published
        obtain rfl := Option.some.inj taken
        exact agreeing.setTask rfl (.inl (by rw [isTask]; rfl)) (by simp)
      next => cases taken
  | acceptEnds =>
      simp only [stepTask] at taken
      split at taken
      next isTask =>
        rw [isTask] at published
        obtain rfl := Option.some.inj taken
        exact agreeing.setTask published (.inl (by rw [isTask]; rfl)) (by simp)
      next => cases taken
  | clearConnection =>
      simp only [stepTask] at taken
      split at taken
      next isTask =>
        rw [isTask] at published
        obtain rfl := Option.some.inj taken
        exact agreeing.setTask rfl (.inr rfl) (by simp)
      next => cases taken
  | clearStorageId =>
      simp only [stepTask] at taken
      split at taken
      next isTask =>
        rw [isTask] at published
        obtain rfl := Option.some.inj taken
        exact agreeing.setTask published (.inr rfl) (by simp)
      next => cases taken
  | _ => cases taken

/-- What the watcher does next keeps the agreement, if it does not skip a report. -/
theorem stepWatcher_agreeing {e : StorageControlEvent Addr} (agreeing : s.Agreeing encode)
    (admitted : s.KeepsAgreement encode e) (taken : s.stepWatcher encode e = some s') :
    s'.Agreeing encode := by
  have watched := agreeing.watched
  cases e with
  | subscribe =>
      simp only [stepWatcher] at taken
      split at taken
      next =>
        obtain rfl := Option.some.inj taken
        refine agreeing.of_watcher ⟨rfl, rfl, rfl, rfl, rfl, rfl, rfl⟩ ?_
        exact Watched.of_moving (by simp) (by simp) rfl
      next => cases taken
  | readReported =>
      simp only [stepWatcher] at taken
      split at taken
      next =>
        obtain rfl := Option.some.inj taken
        refine agreeing.of_watcher ⟨rfl, rfl, rfl, rfl, rfl, rfl, rfl⟩ ?_
        exact Watched.of_looping (fun atRest => admitted atRest.2.2) rfl
      next => cases taken
  | wake =>
      simp only [stepWatcher] at taken
      split at taken
      next =>
        obtain rfl := Option.some.inj taken
        refine agreeing.of_watcher ⟨rfl, rfl, rfl, rfl, rfl, rfl, rfl⟩ ?_
        exact Watched.of_moving (by simp) (by simp) rfl
      next => cases taken
  | readEndpoint =>
      simp only [stepWatcher] at taken
      split at taken
      next =>
        obtain rfl := Option.some.inj taken
        exact agreeing.of_watcher readEndpoint_sameLink (readEndpoint_watched admitted)
      next => cases taken
  | readStorageId =>
      simp only [stepWatcher] at taken
      split at taken
      next irohEndpoint isReporting =>
        split at taken <;> obtain rfl := Option.some.inj taken
        · exact agreeing.of_watcher ⟨rfl, rfl, rfl, rfl, rfl, rfl, rfl⟩ reportFailed_watched
        · exact agreeing.of_watcher ⟨rfl, rfl, rfl, rfl, rfl, rfl, rfl⟩
            (identified_watched watched isReporting _)
      next => cases taken
  | send =>
      simp only [stepWatcher] at taken
      split at taken
      next irohEndpoint storageId isIdentified =>
        obtain rfl := Option.some.inj taken
        unfold send
        cases isConnection : s.shared.connection with
        | none => exact agreeing.of_watcher ⟨rfl, rfl, rfl, rfl, rfl, rfl, rfl⟩ reportFailed_watched
        | some connection =>
            have isCurrent : s.task.current = some connection :=
              ConnectionTask.current_of_published
                (agreeing.linked.published.symm.trans isConnection)
            exact ⟨send_linked agreeing.linked isCurrent,
              send_watched watched isIdentified isCurrent⟩
      next => cases taken
  | reportReply =>
      simp only [stepWatcher] at taken
      split at taken
      next irohEndpoint reportId isAwaiting =>
        obtain ⟨updated, isAnswer, rfl⟩ := Option.map_eq_some_iff.mp taken
        obtain ⟨report, found, answered⟩ := Option.bind_eq_some_iff.mp isAnswer
        exact agreeing.of_watcher (reportReply_sameLink updated)
          (reportReply_watched watched isAwaiting found answered)
      next => cases taken
  | reportFails =>
      simp only [stepWatcher] at taken
      split at taken
      next =>
        obtain rfl := Option.some.inj taken
        exact agreeing.of_watcher ⟨rfl, rfl, rfl, rfl, rfl, rfl, rfl⟩ reportFailed_watched
      next => cases taken
  | retry =>
      simp only [stepWatcher] at taken
      split at taken
      next isRetrying =>
        obtain rfl := Option.some.inj taken
        refine agreeing.of_watcher ⟨rfl, rfl, rfl, rfl, rfl, rfl, rfl⟩ ?_
        apply Watched.of_looping
        · rintro ⟨-, noReport, -⟩
          have pending := watched.retrying isRetrying
          exact absurd (pending.symm.trans noReport) (by simp)
        · rfl
      next => cases taken
  | stopWatcher =>
      obtain rfl := Option.some.inj taken
      refine agreeing.of_watcher ⟨rfl, rfl, rfl, rfl, rfl, rfl, rfl⟩ ?_
      exact Watched.of_moving (by simp) (by simp) rfl
  | _ => cases taken

/-- Central carries out a report, late or not. -/
theorem centralUpdates_agreeing {report : EndpointReport} {session : StorageSession}
    (agreeing : s.Agreeing encode) (admitted : s.KeepsAgreement encode (.centralUpdates report.reportId))
    (found : s.reports.find? report.reportId = some report)
    (known : s.sessions.find? report.connection = some session) :
    (s.centralUpdates session report).Agreeing encode := by
  obtain ⟨member, isConnection⟩ := Table.mem_of_find? known
  obtain ⟨updated, answered, effective⟩ := centralUpdates_answered agreeing.linked known
  refine ⟨centralUpdates_linked agreeing.linked member (Table.mem_of_find? found).1, ?_⟩
  refine answered.watched agreeing.watched found ?_
  intro isUpdated isCurrent settled
  refine admitted report found isCurrent ?_ settled
  rw [known, effective isUpdated, ← isConnection]

/-- One step of the storage or of central keeps the agreement. -/
theorem step_agreeing {name : String} {volumes : List StorageVolumeInfo}
    {e : StorageControlEvent Addr} (agreeing : s.Agreeing encode)
    (admitted : s.KeepsAgreement encode e) (taken : s.step encode name volumes e = some s') :
    s'.Agreeing encode := by
  obtain ⟨linked, watched⟩ := agreeing
  unfold step at taken
  split at taken
  next addr =>
    obtain rfl := Option.some.inj taken
    have same : SameLink s { s with addr := addr, unseen := true } :=
      ⟨rfl, rfl, rfl, rfl, rfl, rfl, rfl⟩
    exact ⟨same.linked linked, changeAddr_watched watched addr⟩
  next connection =>
    split at taken
    next request noSession found =>
      obtain ⟨asked, rfl⟩ := Table.mem_of_find? found
      obtain ⟨storage, registered⟩ := registeredAs_of_step taken
      refine ⟨registered.linked linked asked, ?_⟩
      have carried := registered.carried linked noSession found
      obtain rfl := registered.eq
      exact watched.of_task ⟨rfl, rfl, rfl, rfl, rfl⟩ (.inl rfl) (.inl carried)
    next => cases taken
  next connection =>
    obtain rfl := Option.some.inj taken
    exact ⟨centralRejects_linked linked connection,
      watched.of_task ⟨rfl, rfl, rfl, rfl, rfl⟩ (.inl rfl) (centralRejects_carried connection)⟩
  next connection =>
    obtain rfl := Option.some.inj taken
    exact ⟨centralLoses_linked linked connection,
      watched.of_task ⟨rfl, rfl, rfl, rfl, rfl⟩ (.inl rfl) (centralLoses_carried linked connection)⟩
  next =>
    obtain rfl := Option.some.inj taken
    exact ⟨centralRestarts_linked linked,
      watched.of_task ⟨rfl, rfl, rfl, rfl, rfl⟩ (.inl rfl) (.inr centralRestarts_carried)⟩
  next reportId =>
    split at taken
    next report found =>
      split at taken
      next =>
        obtain ⟨session, known, rfl⟩ := Option.map_eq_some_iff.mp taken
        obtain rfl := (Table.mem_of_find? found).2
        exact centralUpdates_agreeing ⟨linked, watched⟩ admitted found known
      next => cases taken
    next => cases taken
  next =>
    rcases Option.or_eq_some_iff.mp taken with byTask | ⟨-, byWatcher⟩
    · exact stepTask_agreeing ⟨linked, watched⟩ byTask
    · exact stepWatcher_agreeing ⟨linked, watched⟩ admitted byWatcher

theorem Initial.agreeing (initial : s.Initial) : s.Agreeing encode where
  linked := by
    have unused : ∀ connection, ¬ s.InUse connection := by
      unfold InUse
      rw [initial.sessions, initial.registrations, initial.reports]
      rintro connection (⟨session, member, -⟩ | ⟨request, member, -⟩ | ⟨report, member, -⟩) <;>
        cases member
    constructor
    case published =>
        rw [initial.shared, initial.task]
        rfl
    case used => exact fun connection inUse => absurd inUse (unused connection)
    case current =>
        rw [initial.task]
        nofun
    case fresh =>
        rw [initial.task]
        nofun
    all_goals
      rw [initial.sessions]
      intro session member
      cases member
  watched := by
    apply Watched.of_moving <;> rw [initial.watcher]
    · nofun
    · nofun
    · rfl

end StorageControl

/-- In a run in which the watcher skips no report the registration needs, and no report
overtakes a later one, central holds the endpoint of the current address whenever the
watcher rests. -/
theorem endpoint_agrees_of_keeps {Addr : Type} (encode : Addr → Fs0Result Bytes) (name : String)
    (volumes : List StorageVolumeInfo)
    {ts : List (Transition (StorageControl Addr) (StorageControlEvent Addr))}
    {s : StorageControl Addr} (run : (storageControl encode name volumes).Run ts s)
    (keeps : ∀ t ∈ ts, t.pre.KeepsAgreement encode t.event) :
    ∀ x ∈ visited ts s, x.EndpointAgrees encode := by
  intro x among
  have agreeing := run.invariant_of_guard (StorageControl.Agreeing encode)
    (StorageControl.KeepsAgreement encode) (fun _ initial => initial.agreeing)
    (fun _ _ _ agreeing admitted taken => StorageControl.step_agreeing agreeing admitted taken) keeps
  exact (agreeing x among).agrees

/-! ## Runs -/

namespace StorageControl.Scenario

/-- An address is a number, encoded in one byte. -/
def encode (addr : Nat) : Fs0Result Bytes := .ok [UInt8.ofNat addr]

/-- A storage at address 1 that is about to connect to a central that has just started. -/
def initial : StorageControl Nat where
  addr := 1
  unseen := false
  central := .run .open'
  sessions := .empty
  nextConnection := 1
  shared := .new
  task := .reconnecting
  registrations := .empty
  reports := .empty
  watcher := .unspawned
  lastReportedEndpoint := []
  pendingReport := false

theorem initial_initial : initial.Initial := ⟨rfl, rfl, rfl, rfl, rfl, rfl⟩

/-- The task registers a connection. -/
def register (connection : Nat) : List (StorageControlEvent Nat) :=
  [.connect, .readAddr, .centralRegisters connection, .registerReply, .storeStorageId,
    .storeConnection, .storeEndpoint]

/-- The address changes, and the watcher reports it. -/
def reported : List (StorageControlEvent Nat) :=
  register 1 ++ [.subscribe, .readReported, .changeAddr 2, .wake, .readEndpoint, .readStorageId,
    .send, .centralUpdates 1, .reportReply]

/-- The address changes after the connection is lost, and changes back once the storage is
registered again. -/
def changedBack : List (StorageControlEvent Nat) :=
  register 1 ++ [.subscribe, .readReported, .centralLoses 1, .acceptEnds, .changeAddr 2, .wake,
    .clearConnection, .clearStorageId] ++ register 2 ++ [.changeAddr 1, .readEndpoint]

end StorageControl.Scenario

theorem endpoint_agrees_reported : ∃ s : StorageControl Nat, s.AtRest ∧ s.Registered 1 ∧
    s.addr = 2 ∧ s.EndpointAgrees StorageControl.Scenario.encode := by
  have computed : (((storageControl StorageControl.Scenario.encode "s" []).execWhile
      (fun s e => decide (s.KeepsAgreement StorageControl.Scenario.encode e))
      StorageControl.Scenario.initial StorageControl.Scenario.reported).any fun s =>
        decide (s.AtRest ∧ s.addr = 2 ∧ s.shared.storageId = 1 ∧ s.shared.connection = some 1 ∧
          s.sessions.find? 1 = some ⟨1, 1⟩)) = true := by decide +kernel
  obtain ⟨s, ends, shows⟩ := (Option.any_eq_true _ _).mp computed
  obtain ⟨atRest, isAddr, storageId, isConnection, session⟩ := of_decide_eq_true shows
  obtain ⟨ts, run, keeps⟩ := (System.Run.init
    StorageControl.Scenario.initial_initial).execWhile StorageControl.Scenario.reported ends
  refine ⟨s, atRest, ⟨1, storageId, isConnection, session⟩, isAddr, ?_⟩
  have isRun : (storageControl StorageControl.Scenario.encode "s" []).Run ts s := by
    simpa using run
  exact endpoint_agrees_of_keeps StorageControl.Scenario.encode "s" [] isRun
    (fun t member => of_decide_eq_true (keeps t member)) s List.mem_cons_self

/-- After an address has changed back around a registration, the watcher compares with its
own copy and rests, while central holds the address in between. -/
theorem endpoint_stale_after_changing_back :
    ¬ ∀ s, (storageControl StorageControl.Scenario.encode "s" []).Reachable s →
      s.EndpointAgrees StorageControl.Scenario.encode := by
  intro claimed
  have computed : (((storageControl StorageControl.Scenario.encode "s" []).exec
      StorageControl.Scenario.initial StorageControl.Scenario.changedBack).any fun s =>
        decide (s.AtRest ∧ s.addr = 1 ∧ s.shared.storageId = 2 ∧ s.shared.connection = some 2 ∧
          s.sessions.find? 2 = some ⟨2, 2⟩ ∧
          s.central.storages.find? 2 = some ⟨⟨2, "s", [], [2]⟩, 2⟩)) = true := by decide +kernel
  obtain ⟨s, ends, shows⟩ := (Option.any_eq_true _ _).mp computed
  obtain ⟨atRest, isAddr, storageId, isConnection, session, stored⟩ := of_decide_eq_true shows
  have reachable := System.exec_reachable _ StorageControl.Scenario.initial_initial ends
  obtain ⟨storage, found, isEndpoint⟩ :=
    claimed s reachable atRest 2 ⟨2, storageId, isConnection, session⟩
  obtain rfl := Option.some.inj (stored.symm.trans found)
  have current : StorageControl.Scenario.encode s.addr = .ok [1] := by rw [isAddr]; rfl
  exact absurd (isEndpoint [1] current) (by decide)

end Fs0
