import Fs0.Central.Handler
import Fs0.Lib.Transition
import Fs0.Transport.Frame

/-!
Contract: central as a system of control connections over one server.

Owns:
- the life of a control connection: its accept loop, the stream tasks waiting for
  its identity, the handler that holds it, and the cleanup at its end;
- the events of the system, in any order, and the messages exchanged so far;
- that a section of a handler is the only step that changes the tables.

Does not own: what a section does.
-/

set_option autoImplicit false

namespace Fs0

open Lib

/-- The progress of `handle_control_connection`. -/
inductive ConnectionPhase where
  | accepting
  /-- The accept task is over; the identity is not locked for the cleanup yet. -/
  | ending
  /-- The cleanup holds the identity between its two sections. -/
  | unmounting (storageId : Nat)
  | unregistered
  | finished
deriving DecidableEq, Repr

/-- A stream task that has read its request and waits for the identity. -/
structure StreamRequest where
  stream : Nat
  request : ProtocolRequest
deriving DecidableEq, Repr

/-- The handler that holds the identity of a connection. -/
structure Handling where
  stream : Nat
  handler : Handler
deriving DecidableEq

structure ControlConnection where
  connection : Nat
  phase : ConnectionPhase
  waiting : List StreamRequest
  identity : ControlConnectionIdentity
  handling : Option Handling
deriving DecidableEq

def ControlConnection.new (connection : Nat) : ControlConnection :=
  ⟨connection, .accepting, [], .anonymous, none⟩

/-- The identity lock is free. -/
def ControlConnection.unlocked (conn : ControlConnection) : Bool :=
  conn.handling.isNone && match conn.phase with
    | .unmounting _ => false
    | _ => true

/-- A message on a control connection, by the stream it was exchanged on. -/
inductive Exchange where
  | arrived (stream : Nat) (request : ProtocolRequest)
  | answered (stream : Nat) (response : ProtocolResponse)
  /-- The stream is dropped without an answer. -/
  | dropped (stream : Nat)
deriving DecidableEq

/-- Central, its connections, and the messages exchanged, newest first. -/
structure Central where
  server : CentralServer
  connections : SeqTable ControlConnection.connection
  streams : Nat
  exchanges : List Exchange
deriving DecidableEq

inductive CentralEvent where
  | connect
  | receive (connection : Nat) (request : ProtocolRequest)
  /-- A waiting task takes the identity. -/
  | lockIdentity (connection stream : Nat)
  /-- The handler that holds the identity runs its next section. -/
  | run (connection : Nat) (inputs : Inputs)
  | acceptEnds (connection : Nat)
  /-- A task that waits for the identity is aborted. -/
  | dropWaiting (connection stream : Nat)
  /-- A handler that waits for the network is aborted. -/
  | abortHandler (connection : Nat)
  | unregister (connection : Nat)
  | unmount (connection : Nat)
  | finish (connection : Nat)
  /-- The process ends and is started again on its database. -/
  | restart
deriving DecidableEq

namespace Central

def setConnection (s : Central) (conn : ControlConnection) : Central :=
  { s with connections := s.connections.replace conn }

def exchange (s : Central) (message : Exchange) : Central :=
  { s with exchanges := message :: s.exchanges }

/-- What becomes of a response: one that is too large for a frame is not written. -/
def reply (config : CentralConfig) (stream : Nat) (response : ProtocolResponse) : Exchange :=
  if config.encodedLen response ≤ transportMaxFrameBodyLen then .answered stream response
  else .dropped stream

@[simp] theorem reply_eq_answered {config : CentralConfig} {stream other : Nat}
    {response response' : ProtocolResponse} :
    reply config stream response = .answered other response' ↔
      config.encodedLen response ≤ transportMaxFrameBodyLen ∧ stream = other ∧
        response = response' := by
  unfold reply
  split
  next fits => simp [fits]
  next large => simp [large]

theorem reply_ne_arrived {config : CentralConfig} {stream other : Nat}
    {response : ProtocolResponse} {request : ProtocolRequest} :
    reply config stream response ≠ .arrived other request := by
  unfold reply
  split <;> simp

/-- The handler lets go of the identity, and its response is written. -/
def answer (s : Central) (config : CentralConfig) (conn : ControlConnection) (stream : Nat)
    (response : ProtocolResponse) : Central :=
  (s.setConnection { conn with handling := none }).exchange (reply config stream response)

/-- What follows a section of the handler of a connection. -/
def advance (s : Central) (config : CentralConfig) (conn : ControlConnection) (stream : Nat) :
    EStateM.Result Fs0Error CentralServer Progress → Central
  | .ok (.next handler) server =>
      { s with server := server }.setConnection { conn with handling := some ⟨stream, handler⟩ }
  | .ok (.identify identity handler) server =>
      { s with server := server }.setConnection
        { conn with identity := identity, handling := some ⟨stream, handler⟩ }
  | .ok (.respond response) server =>
      { s with server := server }.answer config conn stream (.control response)
  | .error err server => { s with server := server }.answer config conn stream (.error err)

/-- A task takes the identity and looks at its request. -/
def start (s : Central) (config : CentralConfig) (conn : ControlConnection)
    (task : StreamRequest) : Central :=
  let conn := { conn with waiting := conn.waiting.filter fun other => other.stream ≠ task.stream }
  match task.request with
  | .control request =>
      s.setConnection { conn with handling := some ⟨task.stream, .start request⟩ }
  | .other => s.answer config conn task.stream (.error .invalidRequest)

/-- `unregister_identity`, up to the lock of the online volumes. -/
def unregister (s : Central) (conn : ControlConnection) : Central :=
  match conn.identity with
  | .anonymous => s.setConnection { conn with phase := .unregistered }
  | .client clientId =>
      { s with server := s.server.unregisterClient clientId }.setConnection
        { conn with phase := .unregistered }
  | .storage storageId =>
      { s with server := s.server.removeStorage storageId }.setConnection
        { conn with phase := .unmounting storageId }

/-- One event, for a given way to run a section of a handler. -/
def stepWith (config : CentralConfig)
    (resume : Inputs → Nat → ControlConnectionIdentity → Handler → CentralM Progress)
    (s : Central) : CentralEvent → Option Central
  | .connect => some { s with connections := s.connections.push .new fun _ => rfl }
  | .receive c request =>
      (s.connections.find? c).bind fun conn =>
        if conn.phase = .accepting then
          some ({ s with streams := s.streams + 1 }.setConnection
            { conn with waiting := ⟨s.streams, request⟩ :: conn.waiting }
              |>.exchange (.arrived s.streams request))
        else none
  | .lockIdentity c stream =>
      (s.connections.find? c).bind fun conn =>
        (conn.waiting.find? fun task => task.stream = stream).bind fun task =>
          if conn.unlocked then some (s.start config conn task) else none
  | .run c inputs =>
      (s.connections.find? c).bind fun conn =>
        conn.handling.map fun handling =>
          s.advance config conn handling.stream
            (resume inputs c conn.identity handling.handler s.server)
  | .acceptEnds c =>
      (s.connections.find? c).bind fun conn =>
        if conn.phase = .accepting then some (s.setConnection { conn with phase := .ending })
        else none
  | .dropWaiting c stream =>
      (s.connections.find? c).bind fun conn =>
        if conn.phase ≠ .accepting then
          some (s.setConnection
            { conn with waiting := conn.waiting.filter fun task => task.stream ≠ stream })
        else none
  | .abortHandler c =>
      (s.connections.find? c).bind fun conn =>
        conn.handling.bind fun handling =>
          if conn.phase ≠ .accepting ∧ handling.handler.awaits then
            some (s.setConnection { conn with handling := none })
          else none
  | .unregister c =>
      (s.connections.find? c).bind fun conn =>
        if conn.phase = .ending ∧ conn.handling = none then some (s.unregister conn) else none
  | .unmount c =>
      (s.connections.find? c).bind fun conn =>
        match conn.phase with
        | .unmounting storageId =>
            some ({ s with server := s.server.unmountStorage storageId }.setConnection
              { conn with phase := .unregistered })
        | _ => none
  | .finish c =>
      (s.connections.find? c).bind fun conn =>
        if conn.phase = .unregistered then some (s.setConnection { conn with phase := .finished })
        else none
  | .restart =>
      some { s with
        server := CentralServer.run (s.server.db.1, .new)
        connections := s.connections.delete fun _ => true }

/-- A server on a new database, without connections. -/
def initial : Central := ⟨CentralServer.run CentralDb.open', .empty, 0, []⟩

end Central

/-- Central with a given configuration. -/
def central (config : CentralConfig) : System Central CentralEvent where
  Init s := s = Central.initial
  step := Central.stepWith config (Handler.resume config)

end Fs0
