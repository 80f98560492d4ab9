import Fs0.Client.StorageSessions

/-!
Contract: whom the storage sessions of a client speak for, and to which nodes.

Owns:
- that a session authenticates with the id of the client's registration and sends
  its requests to the node central has for its storage, when no session is used past
  the registration it was created under or past that of its storage;
- which step opened the connection that a session sends on;
- a client that registers again and goes on to authenticate with its former id.

Does not own: whether a storage accepts the requests.
-/

set_option autoImplicit false

namespace Fs0

open Lib

/-- The connections of central are never numbered anew. -/
theorem Central.seq_le_of_step {config : CentralConfig} {s s' : Central} {e : CentralEvent}
    (taken : (Fs0.central config).step s e = some s') : s.connections.seq ≤ s'.connections.seq := by
  cases step_cases taken with
  | connect => exact Nat.le_succ _
  | restart => exact Nat.le_refl _
  | connection conn found step =>
      cases step with
      | unregister ending idle =>
          unfold Central.unregister
          split
          · exact Nat.le_refl _
          · exact Nat.le_refl _
          · exact Nat.le_refl _
      | _ => exact Nat.le_refl _

namespace Fs0Client

/-! ## What is asked of a run -/

/-- Central lists the client under its id, for the connection it registered on. -/
def Registered (s : Fs0Client) : Prop :=
  s.session.registration ≠ none ∧
    (s.central.server.clients.find? s.session.clientId).map ClientControlConnection.connection =
      s.session.registration

instance (s : Fs0Client) : Decidable s.Registered := inferInstanceAs (Decidable (_ ∧ _))

section Nodes

variable {ν : Type} (nodeOf : Bytes → ν)

/-- The node central has registered for a storage. -/
def home (central : Central) (storageId : Nat) : Option ν :=
  (central.server.storages.find? storageId).map fun storage => nodeOf storage.peer.irohEndpoint

/-- The node a client would open a connection to. -/
def known (s : Fs0Client) (storageId : Nat) : Option ν :=
  (CentralSession.storagePeer s.session.storages storageId).map fun storage =>
    nodeOf storage.irohEndpoint

/-- A request goes where central says now, for the client that is registered now. -/
def CoherentRequest (s : Fs0Client) : SentRequest → Prop
  | .authenticate storageId irohEndpoint clientId =>
      clientId = s.session.clientId ∧ s.Registered ∧
        home nodeOf s.central storageId = some (nodeOf irohEndpoint)
  | .data storageId irohEndpoint => home nodeOf s.central storageId = some (nodeOf irohEndpoint)

/-- Every request that is sent in a step is coherent. -/
def Coherent (t : Transition Fs0Client ClientEvent) : Prop :=
  ∀ request, t.post.sent = request :: t.pre.sent → CoherentRequest nodeOf t.pre request

/-- The state in which a session opened its last connection. -/
def openedIn (earlier : List (Transition Fs0Client ClientEvent)) (sessionId : Nat) :
    Option Fs0Client :=
  (earlier.find? fun t => t.event = .connectStorage sessionId).map Transition.pre

/-- A session opens a connection under the registration it was created under, while
central lists it, and to the node central has for the storage. When it sends a request,
central has the same node as when the connection was opened. -/
def Current (earlier : List (Transition Fs0Client ClientEvent)) (s : Fs0Client) :
    ClientEvent → Prop
  | .connectStorage sessionId =>
      s.Registered ∧ ∀ session ∈ s.storageSessions.find? sessionId,
        session.registration = s.session.registration ∧
          known nodeOf s session.storageId = home nodeOf s.central session.storageId
  | .request sessionId =>
      ∀ session ∈ s.storageSessions.find? sessionId, ∀ before ∈ openedIn earlier sessionId,
        home nodeOf s.central session.storageId = home nodeOf before.central session.storageId
  | _ => True

instance [DecidableEq ν] (earlier : List (Transition Fs0Client ClientEvent)) (s : Fs0Client)
    (e : ClientEvent) : Decidable (Current nodeOf earlier s e) := by
  cases e <;> unfold Current <;> infer_instance

/-- Every step of a run is taken in a state that the steps before it allow. -/
def AllCurrent (ts : List (Transition Fs0Client ClientEvent)) : Prop :=
  ∀ later t earlier, ts = later ++ t :: earlier → Current nodeOf earlier t.pre t.event

end Nodes

variable {ν : Type} {nodeOf : Bytes → ν} {config : CentralConfig}
  {client : ClientConfig} {s s' : Fs0Client} {ts : List (Transition Fs0Client ClientEvent)}

/-! ## Where the ids of the sessions come from -/

/-- The client ids were given on the connections they are kept with. -/
structure Sourced (s : Fs0Client) : Prop where
  copied : ∀ session ∈ s.storageSessions.rows, session.registration = s.session.registration →
    session.clientId = s.session.clientId
  unset : ∀ session ∈ s.storageSessions.rows, session.registration = none → session.clientId = 0
  initial : s.session.registration = none → s.session.clientId = 0
  numbered : ∀ session ∈ s.storageSessions.rows, ∀ c ∈ session.registration,
    c ≤ s.central.connections.seq
  current : ∀ c ∈ s.session.registration, c ≤ s.central.connections.seq
  attempted : ∀ attempt ∈ s.session.attempt, attempt.connection ≤ s.central.connections.seq ∧
    s.session.registration ≠ some attempt.connection ∧
    ∀ session ∈ s.storageSessions.rows, session.registration ≠ some attempt.connection

theorem sourced_init (initial : (fs0Client config client).Init s) : Sourced s := by
  obtain ⟨central, -, rfl⟩ := initial
  constructor
  case initial => exact fun _ => rfl
  case current => exact nofun
  case attempted => exact nofun
  all_goals
    intro session member
    cases member

/-- The sessions of a client that keep what they were created with. -/
theorem Sourced.setStorageSession (sourced : Sourced s) {old session : StorageSessionInner}
    (found : s.storageSessions.find? old.sessionId = some old) (clientId : session.clientId = old.clientId)
    (registration : session.registration = old.registration) :
    Sourced (s.setStorageSession session) := by
  have oldMem := (Table.mem_of_find? found).1
  have cases : ∀ other ∈ (s.setStorageSession session).storageSessions.rows,
      other = session ∨ other ∈ s.storageSessions.rows := fun other member =>
    (SeqTable.mem_replace member).imp_right And.left
  constructor
  case copied =>
      intro other member same
      rcases cases other member with rfl | kept
      · rw [clientId]
        exact sourced.copied old oldMem (registration ▸ same)
      · exact sourced.copied other kept same
  case unset =>
      intro other member none
      rcases cases other member with rfl | kept
      · rw [clientId]
        exact sourced.unset old oldMem (registration ▸ none)
      · exact sourced.unset other kept none
  case initial => exact sourced.initial
  case numbered =>
      intro other member c isRegistration
      rcases cases other member with rfl | kept
      · exact sourced.numbered old oldMem c (registration ▸ isRegistration)
      · exact sourced.numbered other kept c isRegistration
  case current => exact sourced.current
  case attempted =>
      intro attempt isAttempt
      obtain ⟨number, fresh, others⟩ := sourced.attempted attempt isAttempt
      refine ⟨number, fresh, fun other member => ?_⟩
      rcases cases other member with rfl | kept
      · rw [registration]
        exact others old oldMem
      · exact others other kept

theorem Sourced.withCentral (sourced : Sourced s) {central : Central}
    (grows : s.central.connections.seq ≤ central.connections.seq) :
    Sourced { s with central := central } where
  copied := sourced.copied
  unset := sourced.unset
  initial := sourced.initial
  numbered session member c isRegistration :=
    Nat.le_trans (sourced.numbered session member c isRegistration) grows
  current c isRegistration := Nat.le_trans (sourced.current c isRegistration) grows
  attempted attempt isAttempt :=
    ⟨Nat.le_trans (sourced.attempted attempt isAttempt).1 grows,
      (sourced.attempted attempt isAttempt).2⟩

/-- The session with central goes on under the same registration. -/
theorem Sourced.setSession (sourced : Sourced s) {session : CentralSession}
    (clientId : session.clientId = s.session.clientId)
    (registration : session.registration = s.session.registration)
    (attempt : session.attempt = s.session.attempt ∨ session.attempt = none) :
    Sourced (s.setSession session) where
  copied other member same := (sourced.copied other member (same.trans registration)).trans clientId.symm
  unset := sourced.unset
  initial none := clientId.trans (sourced.initial (registration.symm.trans none))
  numbered := sourced.numbered
  current c isRegistration := sourced.current c (registration ▸ isRegistration)
  attempted other isAttempt := by
    rcases attempt with same | none
    · rw [show (s.setSession session).session.attempt = s.session.attempt from same] at isAttempt
      rw [show (s.setSession session).session.registration = s.session.registration from registration]
      exact sourced.attempted other isAttempt
    · rw [show (s.setSession session).session.attempt = Option.none from none] at isAttempt
      cases isAttempt

theorem Sourced.register (sourced : Sourced s) (taken : s.register config client = some s') :
    Sourced s' := by
  simp only [Fs0Client.register] at taken
  obtain ⟨connected, connects, rest⟩ := Option.bind_eq_some_iff.mp taken
  obtain ⟨arrived, receives, rfl⟩ := Option.map_eq_some_iff.mp rest
  obtain rfl := Option.some.inj connects
  obtain ⟨conn, isConn, received⟩ := Option.bind_eq_some_iff.mp receives
  split at received
  next =>
    obtain rfl := Option.some.inj received
    constructor
    case copied => exact sourced.copied
    case unset => exact sourced.unset
    case initial => exact sourced.initial
    case numbered =>
        exact fun session member c isRegistration =>
          Nat.le_succ_of_le (sourced.numbered session member c isRegistration)
    case current => exact fun c isRegistration => Nat.le_succ_of_le (sourced.current c isRegistration)
    case attempted =>
        intro attempt isAttempt
        obtain rfl := Option.some.inj isAttempt
        refine ⟨Nat.le_refl _, fun isCurrent => ?_, fun session member isOwn => ?_⟩
        · exact absurd (sourced.current _ isCurrent) (Nat.not_succ_le_self _)
        · exact absurd (sourced.numbered session member _ isOwn) (Nat.not_succ_le_self _)
  next => cases received

theorem Sourced.registered (sourced : Sourced s) {attempt : RegistrationAttempt}
    (isAttempt : s.session.attempt = some attempt) (response : ProtocolResponse) :
    Sourced (s.registered attempt response) := by
  obtain ⟨number, -, others⟩ := sourced.attempted attempt isAttempt
  unfold Fs0Client.registered
  split
  next clientId storages =>
    constructor
    case copied => exact fun session member same => absurd same (others session member)
    case unset => exact sourced.unset
    case initial => exact nofun
    case numbered => exact sourced.numbered
    case current =>
        intro c isRegistration
        obtain rfl := Option.some.inj isRegistration
        exact number
    case attempted => exact nofun
  next => exact sourced.setSession rfl rfl (.inr rfl)

/-- A session is created with the id the client has. -/
theorem Sourced.storageSession (sourced : Sourced s) (storageId : Nat)
    (cached : Table CachedSession.storageId) :
    let sessions := s.storageSessions.push
      (fun sessionId => ⟨sessionId, storageId, s.session.clientId, s.session.registration, none⟩)
      fun _ => rfl
    Sourced { s with storageSessions := sessions, cached := cached } := by
  constructor
  case copied =>
      intro session member same
      rcases mem_appended.mp member with old | rfl
      · exact sourced.copied session old same
      · rfl
  case unset =>
      intro session member none
      rcases mem_appended.mp member with old | rfl
      · exact sourced.unset session old none
      · exact sourced.initial none
  case initial => exact sourced.initial
  case numbered =>
      intro session member
      rcases mem_appended.mp member with old | rfl
      · exact sourced.numbered session old
      · exact sourced.current
  case current => exact sourced.current
  case attempted =>
      intro attempt isAttempt
      obtain ⟨number, fresh, others⟩ := sourced.attempted attempt isAttempt
      refine ⟨number, fresh, fun session member => ?_⟩
      rcases mem_appended.mp member with old | rfl
      · exact others session old
      · exact fresh

theorem Sourced.dropSession (sourced : Sourced s) (p : StorageSessionInner → Bool) :
    Sourced { s with storageSessions := s.storageSessions.delete p } := by
  have kept : ∀ session ∈ (s.storageSessions.delete p).rows, session ∈ s.storageSessions.rows :=
    fun session member => (SeqTable.mem_delete.mp member).1
  constructor
  case copied => exact fun session member => sourced.copied session (kept session member)
  case unset => exact fun session member => sourced.unset session (kept session member)
  case initial => exact sourced.initial
  case numbered => exact fun session member => sourced.numbered session (kept session member)
  case current => exact sourced.current
  case attempted =>
      intro attempt isAttempt
      obtain ⟨number, fresh, others⟩ := sourced.attempted attempt isAttempt
      exact ⟨number, fresh, fun session member => others session (kept session member)⟩

/-! ## Runs -/

theorem connectStorage_cases {sessionId : Nat}
    (taken : s.step config client (.connectStorage sessionId) = some s') :
    ∃ session storage, s.storageSessions.find? sessionId = some session ∧
      session.connection = none ∧
      CentralSession.storagePeer s.session.storages session.storageId = some storage ∧
      s' = (s.setStorageSession { session with
        connection := some ⟨storage.irohEndpoint, false⟩ }).send
          (.authenticate session.storageId storage.irohEndpoint session.clientId) := by
  obtain ⟨session, isSession, rest⟩ := Option.bind_eq_some_iff.mp taken
  split at rest
  next closed =>
    obtain ⟨storage, isStorage, rfl⟩ := Option.map_eq_some_iff.mp rest
    exact ⟨session, storage, isSession, closed, isStorage, rfl⟩
  next => cases rest

theorem sourced_step {e : ClientEvent} (sourced : Sourced s)
    (taken : s.step config client e = some s') : Sourced s' := by
  cases e with
  | central e =>
      obtain ⟨central, stepped, rfl⟩ := Option.map_eq_some_iff.mp taken
      exact sourced.withCentral (Central.seq_le_of_step stepped)
  | announce storageId =>
      obtain rfl := Option.some.inj taken
      exact { sourced with }
  | deliver messageId =>
      obtain ⟨message, -, rfl⟩ := Option.map_eq_some_iff.mp taken
      exact { sourced.setSession rfl rfl (.inl rfl) with }
  | readStatus stream =>
      simp only [step] at taken
      split at taken
      · obtain rfl := Option.some.inj taken
        exact sourced.setSession rfl rfl (.inl rfl)
      · cases taken
  | register =>
      simp only [step] at taken
      split at taken
      · exact sourced.register taken
      · cases taken
  | registered =>
      obtain ⟨attempt, isAttempt, rest⟩ := Option.bind_eq_some_iff.mp taken
      obtain ⟨response, -, rfl⟩ := Option.map_eq_some_iff.mp rest
      exact sourced.registered isAttempt response
  | registrationFails =>
      obtain rfl := Option.some.inj taken
      exact sourced.setSession rfl rfl (.inr rfl)
  | loseCentral =>
      obtain rfl := Option.some.inj taken
      exact sourced.setSession rfl rfl (.inl rfl)
  | close =>
      simp only [step] at taken
      split at taken
      · obtain rfl := Option.some.inj taken
        exact sourced.setSession rfl rfl (.inl rfl)
      · cases taken
  | clearClientId =>
      simp only [step] at taken
      split at taken
      · obtain rfl := Option.some.inj taken
        exact {
          copied := fun session member none => sourced.unset session member none
          unset := sourced.unset
          initial := fun _ => rfl
          numbered := sourced.numbered
          current := fun c isCurrent => by cases isCurrent
          attempted := fun attempt isAttempt =>
            have before := sourced.attempted attempt isAttempt
            ⟨before.1, fun same => (by cases same), before.2.2⟩ }
      · cases taken
  | storageSession storageId =>
      simp only [step] at taken
      split at taken
      · obtain rfl := Option.some.inj taken
        exact sourced
      · obtain rfl := Option.some.inj taken
        exact sourced.storageSession storageId _
  | connectStorage sessionId =>
      obtain ⟨session, storage, isSession, -, -, rfl⟩ := connectStorage_cases taken
      obtain ⟨-, rfl⟩ := Table.mem_of_find? isSession
      have opened : Sourced (s.setStorageSession
          { session with connection := some ⟨storage.irohEndpoint, false⟩ }) :=
        sourced.setStorageSession isSession rfl rfl
      exact { opened with }
  | authenticated sessionId =>
      obtain ⟨session, isSession, rest⟩ := Option.bind_eq_some_iff.mp taken
      obtain ⟨-, rfl⟩ := Table.mem_of_find? isSession
      obtain ⟨connection, -, rfl⟩ := Option.map_eq_some_iff.mp rest
      exact sourced.setStorageSession isSession rfl rfl
  | disconnect sessionId =>
      obtain ⟨session, isSession, rfl⟩ := Option.map_eq_some_iff.mp taken
      obtain ⟨-, rfl⟩ := Table.mem_of_find? isSession
      exact sourced.setStorageSession isSession rfl rfl
  | request sessionId =>
      obtain ⟨session, isSession, rest⟩ := Option.bind_eq_some_iff.mp taken
      obtain ⟨connection, isConnection, sends⟩ := Option.bind_eq_some_iff.mp rest
      split at sends
      · obtain rfl := Option.some.inj sends
        exact { sourced with }
      · cases sends
  | drainSessions =>
      obtain rfl := Option.some.inj taken
      exact { sourced with }
  | dropSession sessionId =>
      simp only [step] at taken
      split at taken
      · cases taken
      · obtain rfl := Option.some.inj taken
        exact sourced.dropSession _

theorem sourced_run (run : (fs0Client config client).Run ts s) : Sourced s :=
  run.invariant Sourced (fun _ => sourced_init) fun _ _ _ => sourced_step

/-! ## Where the connections of the sessions come from -/

/-- Touches no storage session, and sends nothing on one. -/
def leavesSessions : ClientEvent → Bool
  | .storageSession _ => false
  | .connectStorage _ => false
  | .authenticated _ => false
  | .disconnect _ => false
  | .request _ => false
  | .dropSession _ => false
  | _ => true

theorem sessions_of_step {e : ClientEvent} (taken : s.step config client e = some s')
    (leaves : leavesSessions e = true) :
    s'.storageSessions = s.storageSessions ∧ s'.sent = s.sent := by
  cases e with
  | central e =>
      obtain ⟨central, -, rfl⟩ := Option.map_eq_some_iff.mp taken
      exact ⟨rfl, rfl⟩
  | deliver messageId =>
      obtain ⟨message, -, rfl⟩ := Option.map_eq_some_iff.mp taken
      exact ⟨rfl, rfl⟩
  | readStatus stream =>
      simp only [step] at taken
      split at taken
      · obtain rfl := Option.some.inj taken
        exact ⟨rfl, rfl⟩
      · cases taken
  | register =>
      simp only [step] at taken
      split at taken
      · simp only [Fs0Client.register] at taken
        obtain ⟨connected, -, rest⟩ := Option.bind_eq_some_iff.mp taken
        obtain ⟨arrived, -, rfl⟩ := Option.map_eq_some_iff.mp rest
        exact ⟨rfl, rfl⟩
      · cases taken
  | registered =>
      obtain ⟨attempt, -, rest⟩ := Option.bind_eq_some_iff.mp taken
      obtain ⟨response, -, rfl⟩ := Option.map_eq_some_iff.mp rest
      unfold Fs0Client.registered
      split
      · exact ⟨rfl, rfl⟩
      · exact ⟨rfl, rfl⟩
  | close =>
      simp only [step] at taken
      split at taken
      · obtain rfl := Option.some.inj taken
        exact ⟨rfl, rfl⟩
      · cases taken
  | clearClientId =>
      simp only [step] at taken
      split at taken
      · obtain rfl := Option.some.inj taken
        exact ⟨rfl, rfl⟩
      · cases taken
  | announce | registrationFails | loseCentral | drainSessions =>
      obtain rfl := Option.some.inj taken
      exact ⟨rfl, rfl⟩
  | _ => cases leaves

theorem openedIn_of_ne {earlier : List (Transition Fs0Client ClientEvent)} {e : ClientEvent}
    {sessionId : Nat} (other : e ≠ .connectStorage sessionId) :
    openedIn (⟨s, e, s'⟩ :: earlier) sessionId = openedIn earlier sessionId := by
  rw [openedIn, List.find?_cons_of_neg (by simpa using other), openedIn]

theorem openedIn_connectStorage {earlier : List (Transition Fs0Client ClientEvent)}
    {sessionId : Nat} :
    openedIn (⟨s, .connectStorage sessionId, s'⟩ :: earlier) sessionId = some s := by
  rw [openedIn, List.find?_cons_of_pos (by simp), Option.map_some]

/-- Open connections lead to the nodes that central had for their storages when they were
opened. -/
def Opened (nodeOf : Bytes → ν) (earlier : List (Transition Fs0Client ClientEvent))
    (s : Fs0Client) : Prop :=
  ∀ session ∈ s.storageSessions.rows, ∀ connection ∈ session.connection,
    ∃ before ∈ openedIn earlier session.sessionId,
      home nodeOf before.central session.storageId = some (nodeOf connection.irohEndpoint)

/-- The connections of a session after a step that leaves the sessions as they were. -/
theorem kept_of_same (same : s'.storageSessions = s.storageSessions)
    {session : StorageSessionInner} (member : session ∈ s'.storageSessions.rows)
    {connection : StorageConnection} (isConnection : connection ∈ session.connection) :
    ∃ old ∈ s.storageSessions.rows, ∃ kept ∈ old.connection,
      old.sessionId = session.sessionId ∧ old.storageId = session.storageId ∧
        kept.irohEndpoint = connection.irohEndpoint :=
  ⟨session, same ▸ member, connection, isConnection, rfl, rfl, rfl⟩

/-- An open connection was open before, or a session has just opened it. -/
theorem connection_of_step {e : ClientEvent} (taken : s.step config client e = some s')
    {session : StorageSessionInner} (member : session ∈ s'.storageSessions.rows)
    {connection : StorageConnection} (isConnection : connection ∈ session.connection) :
    (∃ old ∈ s.storageSessions.rows, ∃ kept ∈ old.connection,
      old.sessionId = session.sessionId ∧ old.storageId = session.storageId ∧
        kept.irohEndpoint = connection.irohEndpoint) ∨
      e = .connectStorage session.sessionId := by
  cases e with
  | storageSession storageId =>
      simp only [step] at taken
      split at taken
      · obtain rfl := Option.some.inj taken
        exact .inl (kept_of_same rfl member isConnection)
      · obtain rfl := Option.some.inj taken
        rcases mem_appended.mp member with old | rfl
        · exact .inl ⟨session, old, connection, isConnection, rfl, rfl, rfl⟩
        · cases isConnection
  | connectStorage sessionId =>
      obtain ⟨own, storage, isOwn, -, -, rfl⟩ := connectStorage_cases taken
      obtain ⟨-, rfl⟩ := Table.mem_of_find? isOwn
      rcases SeqTable.mem_replace member with rfl | ⟨old, -⟩
      · exact .inr rfl
      · exact .inl ⟨session, old, connection, isConnection, rfl, rfl, rfl⟩
  | authenticated sessionId =>
      obtain ⟨own, isOwn, rest⟩ := Option.bind_eq_some_iff.mp taken
      obtain ⟨among, -⟩ := Table.mem_of_find? isOwn
      obtain ⟨kept, isKept, rfl⟩ := Option.map_eq_some_iff.mp rest
      rcases SeqTable.mem_replace member with rfl | ⟨old, -⟩
      · obtain rfl := Option.some.inj isConnection
        exact .inl ⟨own, among, kept, isKept, rfl, rfl, rfl⟩
      · exact .inl ⟨session, old, connection, isConnection, rfl, rfl, rfl⟩
  | disconnect sessionId =>
      obtain ⟨own, isOwn, rfl⟩ := Option.map_eq_some_iff.mp taken
      rcases SeqTable.mem_replace member with rfl | ⟨old, -⟩
      · cases isConnection
      · exact .inl ⟨session, old, connection, isConnection, rfl, rfl, rfl⟩
  | request sessionId =>
      obtain ⟨own, -, rest⟩ := Option.bind_eq_some_iff.mp taken
      obtain ⟨other, -, sends⟩ := Option.bind_eq_some_iff.mp rest
      split at sends
      · obtain rfl := Option.some.inj sends
        exact .inl (kept_of_same rfl member isConnection)
      · cases sends
  | dropSession sessionId =>
      simp only [step] at taken
      split at taken
      · cases taken
      · obtain rfl := Option.some.inj taken
        exact .inl ⟨session, (SeqTable.mem_delete.mp member).1, connection, isConnection, rfl, rfl,
          rfl⟩
  | _ => exact .inl (kept_of_same (sessions_of_step taken rfl).1 member isConnection)

theorem opened_step {earlier : List (Transition Fs0Client ClientEvent)} {e : ClientEvent}
    (opened : Opened nodeOf earlier s) (current : Current nodeOf earlier s e)
    (taken : s.step config client e = some s') : Opened nodeOf (⟨s, e, s'⟩ :: earlier) s' := by
  intro session member connection isConnection
  by_cases connects : e = .connectStorage session.sessionId
  · subst connects
    obtain ⟨own, storage, isOwn, -, isStorage, rfl⟩ := connectStorage_cases taken
    obtain ⟨-, isKnown⟩ := current.2 own isOwn
    refine ⟨s, openedIn_connectStorage, ?_⟩
    rcases SeqTable.mem_replace member with rfl | ⟨-, other⟩
    · obtain rfl := Option.some.inj isConnection
      rw [← isKnown, known, isStorage]
      rfl
    · exact absurd (Table.mem_of_find? isOwn).2.symm other
  · rcases connection_of_step taken member isConnection with
      ⟨old, oldMember, kept, isKept, sameId, sameStorage, sameEndpoint⟩ | opens
    · rw [openedIn_of_ne connects, ← sameId, ← sameStorage, ← sameEndpoint]
      exact opened old oldMember kept isKept
    · exact absurd opens connects

theorem opened_run (run : (fs0Client config client).Run ts s) (current : AllCurrent nodeOf ts) :
    Opened nodeOf ts s := by
  induction run with
  | init start =>
      obtain ⟨central, -, rfl⟩ := start
      intro session member
      cases member
  | @step ts s s' e run taken inductionHypothesis =>
      have before : AllCurrent nodeOf ts := fun later t earlier split =>
        current (⟨s, e, s'⟩ :: later) t earlier (split ▸ rfl)
      exact opened_step (inductionHypothesis before) (current [] ⟨s, e, s'⟩ ts rfl) taken

/-! ## Requests -/

/-- What a step sends: nothing, an `Authenticate` for a new connection, or a request. -/
theorem sent_cases {e : ClientEvent} (taken : s.step config client e = some s') :
    s'.sent = s.sent ∨
      (∃ session storage, e = .connectStorage session.sessionId ∧
        s.storageSessions.find? session.sessionId = some session ∧
        CentralSession.storagePeer s.session.storages session.storageId = some storage ∧
        s'.sent = .authenticate session.storageId storage.irohEndpoint session.clientId :: s.sent) ∨
      (∃ session connection, e = .request session.sessionId ∧
        s.storageSessions.find? session.sessionId = some session ∧
        session.connection = some connection ∧
        s'.sent = .data session.storageId connection.irohEndpoint :: s.sent) := by
  cases e with
  | storageSession storageId =>
      simp only [step] at taken
      split at taken
      · obtain rfl := Option.some.inj taken
        exact .inl rfl
      · obtain rfl := Option.some.inj taken
        exact .inl rfl
  | connectStorage sessionId =>
      obtain ⟨session, storage, isSession, -, isStorage, rfl⟩ := connectStorage_cases taken
      obtain ⟨-, rfl⟩ := Table.mem_of_find? isSession
      exact .inr (.inl ⟨session, storage, rfl, isSession, isStorage, rfl⟩)
  | authenticated sessionId =>
      obtain ⟨session, -, rest⟩ := Option.bind_eq_some_iff.mp taken
      obtain ⟨connection, -, rfl⟩ := Option.map_eq_some_iff.mp rest
      exact .inl rfl
  | disconnect sessionId =>
      obtain ⟨session, -, rfl⟩ := Option.map_eq_some_iff.mp taken
      exact .inl rfl
  | request sessionId =>
      obtain ⟨session, isSession, rest⟩ := Option.bind_eq_some_iff.mp taken
      obtain ⟨connection, isConnection, sends⟩ := Option.bind_eq_some_iff.mp rest
      split at sends
      · obtain rfl := Option.some.inj sends
        obtain ⟨-, rfl⟩ := Table.mem_of_find? isSession
        exact .inr (.inr ⟨session, connection, rfl, isSession, isConnection, rfl⟩)
      · cases sends
  | dropSession sessionId =>
      simp only [step] at taken
      split at taken
      · cases taken
      · obtain rfl := Option.some.inj taken
        exact .inl rfl
  | _ => exact .inl (sessions_of_step taken rfl).2

theorem coherent_step {earlier : List (Transition Fs0Client ClientEvent)} {e : ClientEvent}
    (sourced : Sourced s) (opened : Opened nodeOf earlier s) (current : Current nodeOf earlier s e)
    (taken : s.step config client e = some s') : Coherent nodeOf ⟨s, e, s'⟩ := by
  intro request sends
  have isSent : s'.sent = request :: s.sent := sends
  rcases sent_cases taken with none | ⟨session, storage, rfl, isSession, isStorage, sent⟩ |
    ⟨session, connection, rfl, isSession, isConnection, sent⟩
  · rw [none] at isSent
    exact absurd isSent.symm (List.cons_ne_self _ _)
  · rw [sent] at isSent
    obtain ⟨rfl, -⟩ := List.cons.inj isSent
    obtain ⟨registered, others⟩ := current
    obtain ⟨same, isKnown⟩ := others session isSession
    refine ⟨sourced.copied session (Table.mem_of_find? isSession).1 same, registered, ?_⟩
    rw [← isKnown, known, isStorage]
    rfl
  · rw [sent] at isSent
    obtain ⟨rfl, -⟩ := List.cons.inj isSent
    obtain ⟨before, isBefore, there⟩ :=
      opened session (Table.mem_of_find? isSession).1 connection isConnection
    exact (current session isSession before isBefore).trans there

/-- As long as no session is used past its registrations, every `Authenticate` carries
the id the client is registered under, and every request goes to the node central has
registered for its storage. -/
theorem sessions_coherent (nodeOf : Bytes → ν) (run : (fs0Client config client).Run ts s)
    (current : AllCurrent nodeOf ts) : ∀ t ∈ ts, Coherent nodeOf t := by
  intro t member
  obtain ⟨later, earlier, rfl⟩ := List.append_of_mem member
  obtain ⟨before, taken⟩ := run.before
  have allowed : AllCurrent nodeOf earlier := fun newer u older split =>
    current (later ++ t :: newer) u older (by rw [split, List.append_assoc, List.cons_append])
  exact coherent_step (sourced_run before) (opened_run before allowed) (current later t earlier rfl)
    taken

/-! ## Registering again -/

namespace Reconnects

def oneToken : CentralConfig := ⟨["token"], fun _ _ => false, fun _ => 64⟩

def nameless : ClientConfig := ⟨none, "token"⟩

def initial : Fs0Client := ⟨Central.initial, .empty, .new, .empty, .empty, []⟩

theorem initial_init : (fs0Client oneToken nameless).Init initial :=
  ⟨_, System.Reachable.init rfl, rfl⟩

def inputs : Inputs := ⟨0, 0, none, .error .notFound⟩

/-- A handler runs as many of its sections. -/
def sections (connection count : Nat) : List ClientEvent :=
  List.replicate count (.central (.run connection inputs))

/-- A storage registers on the first connection, as storage 1. -/
def storageRegisters : List ClientEvent :=
  [.central .connect,
    .central (.receive 1 (.control
      (.registerStorage "storage" "token" Registration.fs0Version [] [7]))),
    .central (.lockIdentity 1 0)] ++ sections 1 6

/-- The client registers on a connection of its own. -/
def registers (connection stream : Nat) : List ClientEvent :=
  [.register, .central (.lockIdentity connection stream)] ++ sections connection 4 ++ [.registered]

/-- The client registers and has a session for the storage. -/
def prepared : List ClientEvent := storageRegisters ++ registers 2 1 ++ [.storageSession 1]

/-- The client uses the storage. -/
def used : List ClientEvent := prepared ++ [.connectStorage 1, .authenticated 1, .request 1]

/-- The storage goes down. -/
def storageLeaves : List ClientEvent := [.central (.acceptEnds 1), .central (.unregister 1)]

/-- Neither opens a connection nor sends a request. -/
def sendsNothing : ClientEvent → Bool
  | .connectStorage _ => false
  | .request _ => false
  | _ => true

theorem current_of_sendsNothing {earlier : List (Transition Fs0Client ClientEvent)}
    {e : ClientEvent} (nothing : sendsNothing e = true) : Current nodeOf earlier s e := by
  cases e with
  | connectStorage sessionId => cases nothing
  | request sessionId => cases nothing
  | _ => trivial

theorem allCurrent_cons {t : Transition Fs0Client ClientEvent} (before : AllCurrent nodeOf ts)
    (current : Current nodeOf ts t.pre t.event) : AllCurrent nodeOf (t :: ts) := by
  intro later other earlier split
  rcases List.cons_eq_append_iff.mp split with ⟨rfl, same⟩ | ⟨newer, rfl, rest⟩
  · obtain ⟨rfl, rfl⟩ := List.cons.inj same
    exact current
  · exact before newer other earlier rest

theorem allCurrent_append {later : List (Transition Fs0Client ClientEvent)}
    (before : AllCurrent nodeOf ts) (nothing : ∀ t ∈ later, sendsNothing t.event = true) :
    AllCurrent nodeOf (later ++ ts) := by
  induction later with
  | nil => exact before
  | cons t later inductionHypothesis =>
      obtain ⟨here, others⟩ := List.forall_mem_cons.mp nothing
      exact allCurrent_cons (inductionHypothesis others) (current_of_sendsNothing here)

end Reconnects

open Reconnects

/-- The client uses the storage, and keeps its connection when central has lost the storage. -/
theorem sessions_coherent_used : ∃ ts s, (fs0Client oneToken nameless).Run ts s ∧
    s.sent = [.data 1 [7], .authenticate 1 [7] 2] ∧ home id s.central 1 = none ∧
      ∀ t ∈ ts, Coherent id t := by
  let sys := fs0Client oneToken nameless
  have computed : ((sys.execWhile (fun _ e => sendsNothing e) initial prepared).bind fun s₁ =>
      (sys.step s₁ (.connectStorage 1)).bind fun s₂ =>
        (sys.step s₂ (.authenticated 1)).bind fun s₃ =>
          (sys.step s₃ (.request 1)).bind fun s₄ =>
            (sys.execWhile (fun _ e => sendsNothing e) s₄ storageLeaves).map fun s₅ =>
              (decide (Current id [] s₁ (.connectStorage 1)),
                decide (∀ session ∈ s₃.storageSessions.find? 1,
                  home id s₃.central session.storageId = home id s₁.central session.storageId),
                s₅.sent, home id s₅.central 1)) =
      some (true, true, [.data 1 [7], .authenticate 1 [7] 2], none) := by
    decide +kernel
  obtain ⟨s₁, ends, rest⟩ := Option.bind_eq_some_iff.mp computed
  obtain ⟨s₂, connects, rest⟩ := Option.bind_eq_some_iff.mp rest
  obtain ⟨s₃, authenticates, rest⟩ := Option.bind_eq_some_iff.mp rest
  obtain ⟨s₄, requests, rest⟩ := Option.bind_eq_some_iff.mp rest
  obtain ⟨s₅, leaves, facts⟩ := Option.map_eq_some_iff.mp rest
  obtain ⟨allowed, facts⟩ := Prod.mk.inj facts
  obtain ⟨same, facts⟩ := Prod.mk.inj facts
  obtain ⟨sent, gone⟩ := Prod.mk.inj facts
  obtain ⟨ts, run, nothing⟩ := (System.Run.init initial_init).execWhile _ ends
  obtain ⟨later, whole, still⟩ :=
    (((run.step connects).step authenticates).step requests).execWhile _ leaves
  have begun : AllCurrent id (ts ++ []) := allCurrent_append (fun _ _ _ split => by simp at split) nothing
  have opens := allCurrent_cons (t := ⟨s₁, .connectStorage 1, s₂⟩) begun (of_decide_eq_true allowed)
  have ready := allCurrent_cons (t := ⟨s₂, .authenticated 1, s₃⟩) opens trivial
  have asks : AllCurrent id (⟨s₃, .request 1, s₄⟩ :: ⟨s₂, .authenticated 1, s₃⟩ ::
      ⟨s₁, .connectStorage 1, s₂⟩ :: (ts ++ [])) := by
    refine allCurrent_cons ready fun session isSession before there => ?_
    have opening : openedIn (⟨s₂, .authenticated 1, s₃⟩ :: ⟨s₁, .connectStorage 1, s₂⟩ ::
        (ts ++ [])) 1 = some s₁ := (openedIn_of_ne (by decide)).trans openedIn_connectStorage
    obtain rfl := Option.some.inj (opening.symm.trans there)
    exact of_decide_eq_true same session isSession
  exact ⟨_, s₅, whole, sent, gone, sessions_coherent id whole (allCurrent_append asks still)⟩

/-- The client registers again, as client 3, and the session connects again, as client 2. -/
theorem session_keeps_former_id : ¬ ∀ (nodeOf : Bytes → Bytes) (config : CentralConfig)
    (client : ClientConfig) (ts : List (Transition Fs0Client ClientEvent)) (s : Fs0Client),
    (fs0Client config client).Run ts s → ∀ t ∈ ts, Coherent nodeOf t := by
  intro coherent
  obtain ⟨s, ends, facts⟩ := Option.map_eq_some_iff.mp
    (show ((fs0Client oneToken nameless).exec initial
        (used ++ [.loseCentral] ++ registers 3 2 ++ [.disconnect 1])).map
        (fun s => (s.session.clientId, s.sent, (s.step oneToken nameless (.connectStorage 1)).map
          Fs0Client.sent)) =
      some (3, [.data 1 [7], .authenticate 1 [7] 2],
        some [.authenticate 1 [7] 2, .data 1 [7], .authenticate 1 [7] 2]) from by decide +kernel)
  obtain ⟨ts, run, -⟩ := (System.Run.init initial_init).exec _ ends
  obtain ⟨isThird, rest⟩ := Prod.mk.inj facts
  obtain ⟨before, after⟩ := Prod.mk.inj rest
  obtain ⟨s', taken, sent⟩ := Option.map_eq_some_iff.mp after
  have connects : (fs0Client oneToken nameless).step s (.connectStorage 1) = some s' := taken
  have isSent : s'.sent = .authenticate 1 [7] 2 :: s.sent := by
    rw [sent, before]
  have claimed := coherent id _ _ _ _ (run.step connects) _ List.mem_cons_self _ isSent
  have isCurrent : 2 = s.session.clientId := claimed.1
  omega

end Fs0Client

end Fs0
