import Fs0.Central.ConnectionSteps
import Fs0.Client.StoragePeers

/-!
Contract: the sessions of a client with central and with the storages.

Owns:
- the control connection of the client, its registrations and their end;
- the storage sessions it caches, the connections they open, and the requests
  they send;
- central in any order of its own steps, and the events on their way to the client.

Does not own: what the requests ask for, and what a storage answers.
-/

set_option autoImplicit false

namespace Fs0

open Lib

/-- What a client registers with. -/
structure ClientConfig where
  name : Option String
  token : String
deriving DecidableEq, Repr

/-! ## Central -/

/-- A `RegisterClient` under way, by its connection and its stream. -/
structure RegistrationAttempt where
  connection : Nat
  stream : Nat
deriving DecidableEq, Repr

structure CentralSession where
  clientId : Nat
  /-- The control connection the client id was given on. -/
  registration : Option Nat
  /-- There is a control connection, and it is not closed. -/
  connected : Bool
  attempt : Option RegistrationAttempt
  /-- `close` has taken the connection and is about to store the client id 0. -/
  closing : Bool
  storages : List StoragePeerInfo
deriving DecidableEq

def CentralSession.new : CentralSession := ⟨0, none, false, none, false, []⟩

/-- An event of central on its way to the client. -/
structure EventMessage where
  messageId : Nat
  event : ProtocolEvent
deriving DecidableEq

/-- The answer on a stream, once there is one. -/
def Central.answerOn (s : Central) (stream : Nat) : Option ProtocolResponse :=
  s.exchanges.findSome? fun
    | .answered other response => if other = stream then some response else none
    | _ => none

/-! ## Storages -/

/-- The connection of a storage session, by the endpoint it was opened to. -/
structure StorageConnection where
  irohEndpoint : Bytes
  authenticated : Bool
deriving DecidableEq

structure StorageSessionInner where
  sessionId : Nat
  storageId : Nat
  clientId : Nat
  /-- The registration the client id was copied from. -/
  registration : Option Nat
  connection : Option StorageConnection
deriving DecidableEq

/-- An entry of `storage_sessions`. -/
structure CachedSession where
  storageId : Nat
  sessionId : Nat
deriving DecidableEq

/-- A request that a storage session has sent. -/
inductive SentRequest where
  | authenticate (storageId : Nat) (irohEndpoint : Bytes) (clientId : Nat)
  | data (storageId : Nat) (irohEndpoint : Bytes)
deriving DecidableEq

/-! ## A client -/

/-- A client, central, and what is under way between them. -/
structure Fs0Client where
  central : Central
  messages : SeqTable EventMessage.messageId
  session : CentralSession
  /-- The sessions that something still refers to. -/
  storageSessions : SeqTable StorageSessionInner.sessionId
  cached : Table CachedSession.storageId
  /-- Newest first. -/
  sent : List SentRequest

inductive ClientEvent where
  /-- Any step of central, for this client or another peer. -/
  | central (e : CentralEvent)
  /-- Central sends what it knows of a storage. -/
  | announce (storageId : Nat)
  | deliver (messageId : Nat)
  /-- The client reads an answer to `CentralStatus`. -/
  | readStatus (stream : Nat)
  | register
  | registered
  | registrationFails
  /-- The control connection closes. -/
  | loseCentral
  | close
  | clearClientId
  /-- `storage_session`. -/
  | storageSession (storageId : Nat)
  /-- `ensure_connected` of a session without an open connection, up to `Authenticate`. -/
  | connectStorage (sessionId : Nat)
  | authenticated (sessionId : Nat)
  /-- The connection of a session closes, from either end. -/
  | disconnect (sessionId : Nat)
  | request (sessionId : Nat)
  /-- `close_storage_sessions` takes the sessions out of the map. -/
  | drainSessions
  /-- Nothing refers to a session any more. -/
  | dropSession (sessionId : Nat)
deriving DecidableEq

namespace Fs0Client

def setSession (s : Fs0Client) (session : CentralSession) : Fs0Client := { s with session := session }

def setStorageSession (s : Fs0Client) (session : StorageSessionInner) : Fs0Client :=
  { s with storageSessions := s.storageSessions.replace session }

def send (s : Fs0Client) (request : SentRequest) : Fs0Client := { s with sent := request :: s.sent }

/-- A new control connection, and `RegisterClient` on it. -/
def register (config : CentralConfig) (client : ClientConfig) (s : Fs0Client) : Option Fs0Client :=
  let connection := s.central.connections.seq + 1
  ((Fs0.central config).step s.central .connect).bind fun connected =>
    ((Fs0.central config).step connected (.receive connection
      (.control (.registerClient client.name client.token Registration.fs0Version)))).map fun arrived =>
        { s with central := arrived }.setSession
          { s.session with attempt := some ⟨connection, connected.streams⟩ }

/-- What `RegisterClient` has answered. -/
def registered (s : Fs0Client) (attempt : RegistrationAttempt) : ProtocolResponse → Fs0Client
  | .control (.registerClient clientId storages) =>
      s.setSession { s.session with
        clientId := clientId
        registration := some attempt.connection
        connected := true
        attempt := none
        storages := storages }
  | _ => s.setSession { s.session with attempt := none }

def step (config : CentralConfig) (client : ClientConfig) (s : Fs0Client) :
    ClientEvent → Option Fs0Client
  | .central e => ((Fs0.central config).step s.central e).map fun central => { s with central := central }
  | .announce storageId =>
      let event := PeerFeed.eventOf s.central.server storageId
      let messages := s.messages.push (fun messageId => ⟨messageId, event⟩) fun _ => rfl
      some { s with messages := messages }
  | .deliver messageId =>
      (s.messages.find? messageId).map fun message =>
        { s with messages := s.messages.delete fun other => other.messageId == messageId }.setSession
          { s.session with storages := CentralSession.applyEvent s.session.storages message.event }
  | .readStatus stream =>
      match s.central.answerOn stream with
      | some (.control (.centralStatus _ storages)) =>
          some (s.setSession { s.session with storages := storages })
      | _ => none
  | .register =>
      if s.session.connected = false ∧ s.session.attempt = none then s.register config client
      else none
  | .registered =>
      s.session.attempt.bind fun attempt =>
        (s.central.answerOn attempt.stream).map fun response => s.registered attempt response
  | .registrationFails => some (s.setSession { s.session with attempt := none })
  | .loseCentral => some (s.setSession { s.session with connected := false })
  | .close =>
      if s.session.attempt = none then
        some (s.setSession { s.session with connected := false, closing := true })
      else none
  | .clearClientId =>
      if s.session.closing then
        some (s.setSession { s.session with clientId := 0, registration := none, closing := false })
      else none
  | .storageSession storageId =>
      match s.cached.find? storageId with
      | some _ => some s
      | none =>
          let sessionId := s.storageSessions.seq + 1
          let sessions := s.storageSessions.push
            (fun sessionId => ⟨sessionId, storageId, s.session.clientId, s.session.registration, none⟩)
            fun _ => rfl
          some { s with storageSessions := sessions, cached := s.cached.put ⟨storageId, sessionId⟩ }
  | .connectStorage sessionId =>
      (s.storageSessions.find? sessionId).bind fun session =>
        if session.connection = none then
          (CentralSession.storagePeer s.session.storages session.storageId).map fun storage =>
            (s.setStorageSession
              { session with connection := some ⟨storage.irohEndpoint, false⟩ }).send
                (.authenticate session.storageId storage.irohEndpoint session.clientId)
        else none
  | .authenticated sessionId =>
      (s.storageSessions.find? sessionId).bind fun session =>
        session.connection.map fun connection =>
          s.setStorageSession { session with connection := some { connection with authenticated := true } }
  | .disconnect sessionId =>
      (s.storageSessions.find? sessionId).map fun session =>
        s.setStorageSession { session with connection := none }
  | .request sessionId =>
      (s.storageSessions.find? sessionId).bind fun session =>
        session.connection.bind fun connection =>
          if connection.authenticated then
            some (s.send (.data session.storageId connection.irohEndpoint))
          else none
  | .drainSessions => some { s with cached := .empty }
  | .dropSession sessionId =>
      if ∃ entry ∈ s.cached.rows, entry.sessionId = sessionId then none
      else some { s with
        storageSessions := s.storageSessions.delete fun session => session.sessionId == sessionId }

end Fs0Client

/-- A client that has just been created, and central in any state it reaches. -/
def fs0Client (config : CentralConfig) (client : ClientConfig) : System Fs0Client ClientEvent where
  Init s := ∃ central, (Fs0.central config).Reachable central ∧
    s = ⟨central, .empty, .new, .empty, .empty, []⟩
  step := Fs0Client.step config client

end Fs0
