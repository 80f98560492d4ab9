import Fs0.Central.Origins
import Fs0.Storage.DataConnections

/-!
Contract: central and its storages as one system.

Owns:
- the calls of central to the storages, and the replies, while they are under way;
- the events of the system, and what each does to central and to one storage;
- the run of central inside a run of the system.

Does not own: what holds of the leases and the clients.
-/

set_option autoImplicit false

namespace Fs0

open Lib

/-! ## State -/

structure Cluster where
  central : Central
  storages : Table StorageProcess.name
  calls : List ControlCall
  replies : List (Nat × GrantReply)

inductive ClusterEvent where
  /-- Central takes a step, or a client sends it something. -/
  | central (e : CentralEvent)
  | connectCentral (storage : Nat)
  | loseCentral (storage : Nat)
  /-- A storage handles a call of central. -/
  | answerCall (storage : Nat) (call : ControlCall)
  | connectData (storage : Nat)
  | receiveData (storage connection : Nat) (frame : DataFrame)
  /-- A task looks whether its connection is authenticated. -/
  | look (storage connection stream : Nat)
  /-- A task asks central to validate its client. -/
  | validate (storage connection stream : Nat)
  /-- A task hears that central has validated its client. -/
  | authenticate (storage connection stream : Nat)
  /-- A task handles its data request. -/
  | handle (storage connection stream : Nat) (inputs : DataInputs)
  /-- A task ends, because it failed or was aborted. -/
  | endTask (storage connection stream : Nat)
  | closeData (storage connection : Nat)
  /-- A call on a volume goes on, or one begins that needs no lease. -/
  | volume (storage volumeId : Nat) (e : VolumeEvent)
  /-- The process of a storage crashes and starts again. -/
  | restart (storage : Nat) (torn : Nat → DataFiles)

/-! ## Steps -/

namespace Cluster

section Step

variable (config : CentralConfig) (blake3 : Bytes → HashId)
  (zstdDecompress : Bytes → Nat → Fs0Result Bytes)

def setStorage (s : Cluster) (p : StorageProcess) : Cluster :=
  { s with storages := s.storages.put p }

/-- An event of a storage that central has no part in. -/
def onStorage (s : Cluster) (storage : Nat) (f : StorageProcess → Option StorageProcess) :
    Option Cluster :=
  (s.storages.find? storage).bind fun p => (f p).map s.setStorage

/-- An event on a data connection. -/
def onConnection (s : Cluster) (storage connection : Nat)
    (f : StorageProcess → DataConnection → Option StorageProcess) : Option Cluster :=
  s.onStorage storage fun p => (p.connections.find? connection).bind (f p)

/-- An event of the task of a data request. -/
def onTask (s : Cluster) (storage connection stream : Nat)
    (f : StorageProcess → DataConnection → DataStage → Option StorageProcess) : Option Cluster :=
  s.onConnection storage connection fun p conn =>
    (conn.tasks.find? stream).bind fun task => f p conn task.stage

/-- Central is sent the request for which a task waits from then on. -/
def validate (s : Cluster) (p : StorageProcess) (conn : DataConnection) (task : DataTask) :
    Option Cluster :=
  match task.stage, p.centralConnection with
  | .authenticating clientId clientToken, some c =>
      ((Fs0.central config).step s.central
          (.receive c (.control (.validateClientAuth clientId clientToken)))).map fun central =>
        { s with central := central }.setStorage
          (p.setConnection (conn.setTask
            ⟨task.stream, .validating clientId s.central.streams⟩))
  | _, _ => none

def step (s : Cluster) : ClusterEvent → Option Cluster
  | .central e =>
      if ∀ reply ∈ s.central.heard e, reply ∈ s.replies then
        ((Fs0.central config).step s.central e).map fun central =>
          { s with central := central, calls := (s.central.call e).toList ++ s.calls }
      else none
  | .connectCentral storage =>
      (s.storages.find? storage).bind fun p =>
        ((Fs0.central config).step s.central .connect).map fun central =>
          { s with central := central }.setStorage
            { p with centralConnection := some (s.central.connections.seq + 1) }
  | .loseCentral storage =>
      s.onStorage storage fun p => some { p with centralConnection := none }
  | .answerCall storage call =>
      (s.storages.find? storage).bind fun p =>
        if call ∈ s.calls ∧ p.centralConnection = some call.connection then
          let (server, reply) := p.server.handleControlRequest call.request
          some { s.setStorage { p with server := server } with
            calls := s.calls.erase call
            replies := (reply.map fun reply => (call.stream, reply)).toList ++ s.replies }
        else none
  | .connectData storage =>
      s.onStorage storage fun p =>
        some { p with connections := p.connections.push .new fun _ => rfl }
  | .receiveData storage connection frame =>
      s.onConnection storage connection fun p conn =>
        some (p.setConnection
          { conn with tasks := conn.tasks.push (fun stream => ⟨stream, .received frame⟩) fun _ => rfl })
  | .look storage connection stream =>
      s.onTask storage connection stream fun p conn stage =>
        match stage with
        | .received frame => some (p.setConnection (conn.look stream frame))
        | _ => none
  | .validate storage connection stream =>
      (s.storages.find? storage).bind fun p =>
        (p.connections.find? connection).bind fun conn =>
          (conn.tasks.find? stream).bind (s.validate config p conn)
  | .authenticate storage connection stream =>
      s.onTask storage connection stream fun p conn stage =>
        match stage with
        | .validating clientId call =>
            if s.central.validated call then
              some (p.setConnection
                { conn.endTask stream with authenticatedClientId := some clientId })
            else none
        | _ => none
  | .handle storage connection stream inputs =>
      s.onTask storage connection stream fun p conn stage =>
        match stage with
        | .handling request =>
            (p.server.handleDataRequest blake3 zstdDecompress inputs request).map fun server =>
              { p with server := server }.setConnection (conn.endTask stream)
        | _ => none
  | .endTask storage connection stream =>
      s.onConnection storage connection fun p conn => some (p.setConnection (conn.endTask stream))
  | .closeData storage connection =>
      s.onStorage storage fun p =>
        some { p with connections := p.connections.delete fun conn => conn.connection == connection }
  | .volume storage volumeId e =>
      s.onStorage storage fun p =>
        (p.server.step blake3 zstdDecompress (.volume volumeId e)).map fun server =>
          { p with server := server }
  | .restart storage torn =>
      s.onStorage storage fun p =>
        (p.server.step blake3 zstdDecompress (.restart torn)).map fun server =>
          { p with
            server := server
            connections := p.connections.delete fun _ => true
            centralConnection := none }

end Step

end Cluster

/-- Central on a new database, and storages on volumes that were just initialised. -/
def cluster (config : CentralConfig) (blake3 : Bytes → HashId)
    (zstdDecompress : Bytes → Nat → Fs0Result Bytes) : System Cluster ClusterEvent where
  Init s := s.central = Central.initial ∧ s.calls = [] ∧ s.replies = [] ∧
    ∀ p ∈ s.storages.rows, (storage blake3 zstdDecompress).Init p.server ∧
      p.connections = .empty ∧ p.centralConnection = none
  step := Cluster.step config blake3 zstdDecompress

/-! ## What an event does -/

/-- What an event does to the process of one storage, when central has no part in it. -/
inductive ProcessStep (blake3 : Bytes → HashId) (zstdDecompress : Bytes → Nat → Fs0Result Bytes)
    (central : Central) (p : StorageProcess) : ClusterEvent → StorageProcess → Prop where
  | loseCentral : ProcessStep blake3 zstdDecompress central p (.loseCentral p.name)
      { p with centralConnection := none }
  | connectData : ProcessStep blake3 zstdDecompress central p (.connectData p.name)
      { p with connections := p.connections.push .new fun _ => rfl }
  | receiveData (conn : DataConnection) (frame : DataFrame)
      (found : p.connections.find? conn.connection = some conn) :
      ProcessStep blake3 zstdDecompress central p
        (.receiveData p.name conn.connection frame)
        (p.setConnection { conn with
          tasks := conn.tasks.push (fun stream => ⟨stream, .received frame⟩) fun _ => rfl })
  | look (conn : DataConnection) (stream : Nat) (frame : DataFrame)
      (found : p.connections.find? conn.connection = some conn)
      (task : conn.tasks.find? stream = some ⟨stream, .received frame⟩) :
      ProcessStep blake3 zstdDecompress central p (.look p.name conn.connection stream)
        (p.setConnection (conn.look stream frame))
  | authenticate (conn : DataConnection) (stream clientId call : Nat)
      (found : p.connections.find? conn.connection = some conn)
      (task : conn.tasks.find? stream = some ⟨stream, .validating clientId call⟩)
      (validated : central.validated call) :
      ProcessStep blake3 zstdDecompress central p
        (.authenticate p.name conn.connection stream)
        (p.setConnection { conn.endTask stream with authenticatedClientId := some clientId })
  | handle (conn : DataConnection) (stream : Nat) (request : DataRequest) (inputs : DataInputs)
      (server : StorageServer) (found : p.connections.find? conn.connection = some conn)
      (task : conn.tasks.find? stream = some ⟨stream, .handling request⟩)
      (handled : p.server.handleDataRequest blake3 zstdDecompress inputs request = some server) :
      ProcessStep blake3 zstdDecompress central p
        (.handle p.name conn.connection stream inputs)
        ({ p with server := server }.setConnection (conn.endTask stream))
  | endTask (conn : DataConnection) (stream : Nat)
      (found : p.connections.find? conn.connection = some conn) :
      ProcessStep blake3 zstdDecompress central p (.endTask p.name conn.connection stream)
        (p.setConnection (conn.endTask stream))
  | closeData (connection : Nat) :
      ProcessStep blake3 zstdDecompress central p (.closeData p.name connection)
        { p with connections := p.connections.delete fun conn => conn.connection == connection }
  | volume (volumeId : Nat) (e : VolumeEvent) (server : StorageServer)
      (taken : p.server.step blake3 zstdDecompress (.volume volumeId e) = some server) :
      ProcessStep blake3 zstdDecompress central p (.volume p.name volumeId e)
        { p with server := server }
  | restart (torn : Nat → DataFiles) (server : StorageServer)
      (taken : p.server.step blake3 zstdDecompress (.restart torn) = some server) :
      ProcessStep blake3 zstdDecompress central p (.restart p.name torn)
        { p with
          server := server
          connections := p.connections.delete fun _ => true
          centralConnection := none }

/-- What an event does to central and the storages. -/
inductive ClusterStep (config : CentralConfig) (blake3 : Bytes → HashId)
    (zstdDecompress : Bytes → Nat → Fs0Result Bytes) (s : Cluster) :
    ClusterEvent → Cluster → Prop where
  | central (e : CentralEvent) (after : Central)
      (heard : ∀ reply, s.central.heard e = some reply → reply ∈ s.replies)
      (taken : (central config).step s.central e = some after) :
      ClusterStep config blake3 zstdDecompress s (.central e)
        { s with central := after, calls := (s.central.call e).toList ++ s.calls }
  | connectCentral (p : StorageProcess) (after : Central)
      (found : s.storages.find? p.name = some p)
      (taken : (central config).step s.central .connect = some after) :
      ClusterStep config blake3 zstdDecompress s (.connectCentral p.name)
        ({ s with central := after }.setStorage
          { p with centralConnection := some (s.central.connections.seq + 1) })
  | answerCall (p : StorageProcess) (call : ControlCall)
      (found : s.storages.find? p.name = some p) (sent : call ∈ s.calls)
      (isConnection : p.centralConnection = some call.connection) :
      ClusterStep config blake3 zstdDecompress s (.answerCall p.name call)
        { s.setStorage { p with server := (p.server.handleControlRequest call.request).1 } with
          calls := s.calls.erase call
          replies := ((p.server.handleControlRequest call.request).2.map
            fun reply => (call.stream, reply)).toList ++ s.replies }
  | validate (p : StorageProcess) (conn : DataConnection) (stream clientId c : Nat)
      (clientToken : String) (after : Central) (found : s.storages.find? p.name = some p)
      (isConn : p.connections.find? conn.connection = some conn)
      (task : conn.tasks.find? stream = some ⟨stream, .authenticating clientId clientToken⟩)
      (isConnection : p.centralConnection = some c)
      (taken : (central config).step s.central
        (.receive c (.control (.validateClientAuth clientId clientToken))) = some after) :
      ClusterStep config blake3 zstdDecompress s (.validate p.name conn.connection stream)
        ({ s with central := after }.setStorage (p.setConnection (conn.setTask
          ⟨stream, .validating clientId s.central.streams⟩)))
  | process (p p' : StorageProcess) {e : ClusterEvent} (found : s.storages.find? p.name = some p)
      (step : ProcessStep blake3 zstdDecompress s.central p e p') :
      ClusterStep config blake3 zstdDecompress s e (s.setStorage p')

namespace Cluster

variable {config : CentralConfig} {blake3 : Bytes → HashId}
  {zstdDecompress : Bytes → Nat → Fs0Result Bytes} {s s' : Cluster} {e : ClusterEvent}

section Lookups

variable {storage connection stream : Nat}

theorem onStorage_eq_some {f : StorageProcess → Option StorageProcess} :
    s.onStorage storage f = some s' ↔ ∃ p p', s.storages.find? p.name = some p ∧
      p.name = storage ∧ f p = some p' ∧ s.setStorage p' = s' := by
  unfold onStorage
  rw [Option.bind_eq_some_iff]
  constructor
  · rintro ⟨p, found, rest⟩
    obtain ⟨p', ran, ended⟩ := Option.map_eq_some_iff.mp rest
    obtain rfl := (Table.mem_of_find? found).2
    exact ⟨p, p', found, rfl, ran, ended⟩
  · rintro ⟨p, p', found, rfl, ran, ended⟩
    exact ⟨p, found, by rw [ran, Option.map_some, ended]⟩

theorem onConnection_eq_some {f : StorageProcess → DataConnection → Option StorageProcess}
    (taken : s.onConnection storage connection f = some s') :
    ∃ p p' conn, s.storages.find? p.name = some p ∧ p.name = storage ∧
      p.connections.find? conn.connection = some conn ∧ conn.connection = connection ∧
      f p conn = some p' ∧ s.setStorage p' = s' := by
  obtain ⟨p, p', found, isStorage, rest, ended⟩ := onStorage_eq_some.mp taken
  obtain ⟨conn, isConn, ran⟩ := Option.bind_eq_some_iff.mp rest
  obtain rfl := (Table.mem_of_find? isConn).2
  exact ⟨p, p', conn, found, isStorage, isConn, rfl, ran, ended⟩

theorem onTask_eq_some {f : StorageProcess → DataConnection → DataStage → Option StorageProcess}
    (taken : s.onTask storage connection stream f = some s') :
    ∃ p p' conn stage, s.storages.find? p.name = some p ∧ p.name = storage ∧
      p.connections.find? conn.connection = some conn ∧ conn.connection = connection ∧
      conn.tasks.find? stream = some ⟨stream, stage⟩ ∧ f p conn stage = some p' ∧
      s.setStorage p' = s' := by
  obtain ⟨p, p', conn, found, isStorage, isConn, isConnection, rest, ended⟩ :=
    onConnection_eq_some taken
  obtain ⟨⟨stream', stage⟩, isTask, ran⟩ := Option.bind_eq_some_iff.mp rest
  obtain rfl : stream' = stream := (Table.mem_of_find? isTask).2
  exact ⟨p, p', conn, stage, found, isStorage, isConn, isConnection, isTask, ran, ended⟩

end Lookups

theorem step_cases (taken : (cluster config blake3 zstdDecompress).step s e = some s') :
    ClusterStep config blake3 zstdDecompress s e s' := by
  replace taken : Cluster.step config blake3 zstdDecompress s e = some s' := taken
  cases e with
  | central e =>
      rw [Cluster.step] at taken
      split at taken
      next heard =>
        obtain ⟨after, ran, rfl⟩ := Option.map_eq_some_iff.mp taken
        exact .central e after (fun reply isHeard => heard reply isHeard) ran
      · cases taken
  | connectCentral storage =>
      rw [Cluster.step] at taken
      obtain ⟨p, found, rest⟩ := Option.bind_eq_some_iff.mp taken
      obtain ⟨after, ran, rfl⟩ := Option.map_eq_some_iff.mp rest
      obtain rfl := (Table.mem_of_find? found).2
      exact .connectCentral p after found ran
  | loseCentral storage =>
      obtain ⟨p, p', found, rfl, ran, rfl⟩ := onStorage_eq_some.mp taken
      obtain rfl := Option.some.inj ran
      exact .process p _ found .loseCentral
  | answerCall storage call =>
      rw [Cluster.step] at taken
      obtain ⟨p, found, rest⟩ := Option.bind_eq_some_iff.mp taken
      obtain rfl := (Table.mem_of_find? found).2
      split at rest
      next answers =>
        obtain rfl := Option.some.inj rest
        exact .answerCall p call found answers.1 answers.2
      · cases rest
  | connectData storage =>
      obtain ⟨p, p', found, rfl, ran, rfl⟩ := onStorage_eq_some.mp taken
      obtain rfl := Option.some.inj ran
      exact .process p _ found .connectData
  | receiveData storage connection frame =>
      obtain ⟨p, p', conn, found, rfl, isConn, rfl, ran, rfl⟩ := onConnection_eq_some taken
      obtain rfl := Option.some.inj ran
      exact .process p _ found (.receiveData conn frame isConn)
  | look storage connection stream =>
      rw [Cluster.step] at taken
      obtain ⟨p, p', conn, stage, found, rfl, isConn, rfl, isTask, ran, rfl⟩ := onTask_eq_some taken
      cases stage with
      | received frame =>
          obtain rfl := Option.some.inj ran
          exact .process p _ found (.look conn stream frame isConn isTask)
      | _ => cases ran
  | validate storage connection stream =>
      rw [Cluster.step] at taken
      obtain ⟨p, found, rest⟩ := Option.bind_eq_some_iff.mp taken
      obtain rfl := (Table.mem_of_find? found).2
      obtain ⟨conn, isConn, onConn⟩ := Option.bind_eq_some_iff.mp rest
      obtain rfl := (Table.mem_of_find? isConn).2
      obtain ⟨⟨stream', stage⟩, isTask, ran⟩ := Option.bind_eq_some_iff.mp onConn
      obtain rfl : stream' = stream := (Table.mem_of_find? isTask).2
      unfold Cluster.validate at ran
      split at ran
      next clientId clientToken c isStage isConnection =>
        obtain rfl : stage = _ := isStage
        obtain ⟨after, received, rfl⟩ := Option.map_eq_some_iff.mp ran
        exact .validate p conn stream' clientId c clientToken after found isConn isTask
          isConnection received
      · cases ran
  | authenticate storage connection stream =>
      rw [Cluster.step] at taken
      obtain ⟨p, p', conn, stage, found, rfl, isConn, rfl, isTask, ran, rfl⟩ := onTask_eq_some taken
      cases stage with
      | validating clientId call =>
          dsimp only at ran
          split at ran
          next validated =>
            obtain rfl := Option.some.inj ran
            exact .process p _ found (.authenticate conn stream clientId call isConn isTask validated)
          · cases ran
      | _ => cases ran
  | handle storage connection stream inputs =>
      rw [Cluster.step] at taken
      obtain ⟨p, p', conn, stage, found, rfl, isConn, rfl, isTask, ran, rfl⟩ := onTask_eq_some taken
      cases stage with
      | handling request =>
          obtain ⟨server, handled, rfl⟩ := Option.map_eq_some_iff.mp ran
          exact .process p _ found (.handle conn stream request inputs server isConn isTask handled)
      | _ => cases ran
  | endTask storage connection stream =>
      obtain ⟨p, p', conn, found, rfl, isConn, rfl, ran, rfl⟩ := onConnection_eq_some taken
      obtain rfl := Option.some.inj ran
      exact .process p _ found (.endTask conn stream isConn)
  | closeData storage connection =>
      obtain ⟨p, p', found, rfl, ran, rfl⟩ := onStorage_eq_some.mp taken
      obtain rfl := Option.some.inj ran
      exact .process p _ found (.closeData connection)
  | volume storage volumeId e =>
      obtain ⟨p, p', found, rfl, ran, rfl⟩ := onStorage_eq_some.mp taken
      obtain ⟨server, stepped, rfl⟩ := Option.map_eq_some_iff.mp ran
      exact .process p _ found (.volume volumeId e server stepped)
  | restart storage torn =>
      obtain ⟨p, p', found, rfl, ran, rfl⟩ := onStorage_eq_some.mp taken
      obtain ⟨server, stepped, rfl⟩ := Option.map_eq_some_iff.mp ran
      exact .process p _ found (.restart torn server stepped)

/-- Central takes a step, or has no part in the event. -/
theorem central_of_step (step : ClusterStep config blake3 zstdDecompress s e s') :
    (∃ centralEvent, (Fs0.central config).step s.central centralEvent = some s'.central) ∨
      s'.central = s.central := by
  cases step with
  | central e after heard taken => exact .inl ⟨_, taken⟩
  | connectCentral p after found taken => exact .inl ⟨_, taken⟩
  | answerCall p call found sent isConnection => exact .inr rfl
  | validate p conn stream clientId c clientToken after found isConn task isConnection taken =>
      exact .inl ⟨_, taken⟩
  | process p p' found step => exact .inr rfl

/-- A run of central goes through the states of central in a run of the system. -/
structure CentralRun (config : CentralConfig) (ts : List (Transition Cluster ClusterEvent))
    (s : Cluster) (centralRun : List (Transition Central CentralEvent)) : Prop where
  run : (Fs0.central config).Run centralRun s.central
  through : ∀ x ∈ visited centralRun s.central, ∃ y ∈ visited ts s, y.central = x
  covers : ∀ y ∈ visited ts s, y.central ∈ visited centralRun s.central

/-- A run of the system contains a run of central. -/
theorem central_run {ts : List (Transition Cluster ClusterEvent)}
    (run : (cluster config blake3 zstdDecompress).Run ts s) :
    ∃ centralRun, CentralRun config ts s centralRun := by
  induction run with
  | @init s initial =>
      refine ⟨[], .init initial.1, ?_, ?_⟩
      · intro x member
        obtain rfl := List.mem_singleton.mp member
        exact ⟨s, List.mem_cons_self, rfl⟩
      · intro y member
        obtain rfl := List.mem_singleton.mp member
        exact List.mem_cons_self
  | @step ts s s' e run taken inductionHypothesis =>
      obtain ⟨centralRun, ran, through, covers⟩ := inductionHypothesis
      have earlier : ∀ x ∈ visited centralRun s.central,
          ∃ y ∈ visited (⟨s, e, s'⟩ :: ts) s', y.central = x := by
        intro x member
        obtain ⟨y, among, isCentral⟩ := through x member
        exact ⟨y, List.mem_cons_of_mem _ among, isCentral⟩
      rcases central_of_step (step_cases taken) with ⟨centralEvent, stepped⟩ | same
      · refine ⟨⟨s.central, centralEvent, s'.central⟩ :: centralRun, ran.step stepped, ?_, ?_⟩
        · intro x member
          rcases List.mem_cons.mp member with rfl | before
          · exact ⟨s', List.mem_cons_self, rfl⟩
          · exact earlier x before
        · intro y member
          rcases List.mem_cons.mp member with rfl | before
          · exact List.mem_cons_self
          · exact List.mem_cons_of_mem _ (covers y before)
      · refine ⟨centralRun, same ▸ ran, ?_, ?_⟩
        · rw [same]
          exact earlier
        · intro y member
          rcases List.mem_cons.mp member with rfl | before
          · exact List.mem_cons_self
          · rw [same]
            exact covers y before

end Cluster

end Fs0
