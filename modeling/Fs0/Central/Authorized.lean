import Fs0.Central.MountSteps

/-!
Contract: which connections central works for.

Owns:
- the registrations that central admits, by their token and version;
- that a connection has an identity, and a handler past its first section, only after it sent
  such a registration;
- the identities under which each transaction is run.

Does not own: what the transactions do.
-/

set_option autoImplicit false

namespace Fs0

open Lib Fallible CentralM

/-! ## Registrations -/

/-- A registration with an allowed token, of the version central has. -/
def CentralConfig.Admits (config : CentralConfig) : ControlRequest → Prop
  | .registerClient _ token version =>
      version = Registration.fs0Version ∧ config.tokenAllowed token
  | .registerStorage _ token version _ _ =>
      version = Registration.fs0Version ∧ config.tokenAllowed token
  | _ => False

/-- An allowed token is one of the configuration. -/
theorem CentralConfig.tokenAllowed_iff {config : CentralConfig} {token : String} :
    config.tokenAllowed token ↔ token ∈ config.authTokens := by
  unfold tokenAllowed
  rw [List.any_eq_true]
  simp only [beq_iff_eq, exists_eq_right]

section Registrations

variable {config : CentralConfig} {inputs : Inputs} {α : Type}

/-- A section behind the two checks of a registration. -/
theorem checked_registration {token version : String} {rest : CentralM α}
    {server : CentralServer} :
    (version = Registration.fs0Version ∧ config.tokenAllowed token) ∨
      ∃ err, (do
        lift (Registration.validateRegistrationVersion version)
        require (config.tokenAllowed token) .unauthorized
        rest : CentralM α) server = .error err server := by
  by_cases sameVersion : version = Registration.fs0Version
  · by_cases allowed : config.tokenAllowed token = true
    · exact .inl ⟨sameVersion, allowed⟩
    · refine .inr ⟨.unauthorized, ?_⟩
      rw [Registration.validateRegistrationVersion, if_pos sameVersion,
        bind_of_ok (lift_ok_apply () server)]
      refine bind_of_error ?_
      unfold require
      rw [if_neg allowed]
  · refine .inr ⟨.fs0Version Registration.fs0Version version, ?_⟩
    rw [Registration.validateRegistrationVersion, if_neg sameVersion]
    exact bind_of_error (lift_error_apply _ server)

/-- Without an identity, a request that is no admitted registration is refused at once. -/
theorem handleControlRequest_refused {request : ControlRequest} (refused : ¬ config.Admits request)
    (server : CentralServer) :
    ∃ err, handleControlRequest config inputs .anonymous request server = .error err server := by
  rcases handleControlRequest_dispatch config inputs .anonymous request with
    ⟨name, token, version, rfl⟩ | ⟨name, token, version, volumes, irohEndpoint, rfl⟩ |
    ⟨handled, -⟩
  · exact checked_registration.resolve_left refused
  · exact checked_registration.resolve_left refused
  · rw [handled]
    exact ⟨_, rfl⟩

end Registrations

/-! ## Identities -/

namespace ControlConnectionIdentity

def IsClient : ControlConnectionIdentity → Prop
  | .client _ => True
  | _ => False

def IsStorage : ControlConnectionIdentity → Prop
  | .storage _ => True
  | _ => False

end ControlConnectionIdentity

/-- The identities under which a handler is past its first section. -/
def Handler.RunBy (identity : ControlConnectionIdentity) : Handler → Prop
  | .start _ => True
  | .insertClient _ _ => True
  | .clientInserted _ => True
  | .volumesRegistered _ _ _ => True
  | .mountVolumes _ => True
  | .insertStorage _ => True
  | .storageInserted _ => True
  | .broadcast _ => True
  | .answer _ => True
  | .storeVolumeOffset storageId _ _ => identity = .storage storageId
  | _ => identity.IsClient

def Progress.RunBy (identity : ControlConnectionIdentity) : Progress → Prop
  | .next handler => handler.RunBy identity
  | .identify _ handler => ∀ other, handler.RunBy other
  | .respond _ => True

/-- The identities under which a transaction is run. -/
def Transaction.RunBy (identity : ControlConnectionIdentity) : Transaction → Prop
  | .reportReplicas _ => identity.IsStorage
  | .updateVolumeOffset _ _ => identity.IsStorage
  | .createVolume _ _ => identity.IsClient ∨ identity.IsStorage
  | .registerVolumes _ => True
  | _ => identity.IsClient

section Identities

variable (config : CentralConfig) (inputs : Inputs)

theorem responding_runBy (identity : ControlConnectionIdentity) (m : CentralM ControlResponse) :
    Yields (Progress.RunBy identity) (responding m) :=
  Yields.bind fun _ => Yields.pure trivial

theorem revokeIfOnline_runBy (clientId : Nat) (storageId : Option Nat) (leaseId : Nat)
    (response : ControlResponse) :
    Yields (Progress.RunBy (.client clientId))
      (Pure.pure (revokeIfOnline storageId leaseId response)) := by
  cases storageId with
  | none => exact Yields.pure trivial
  | some storageId => exact Yields.pure trivial

theorem handleClientRequest_runBy (clientId : Nat) (request : ControlRequest) :
    Yields (Progress.RunBy (.client clientId)) (handleClientRequest config inputs request) := by
  cases request with
  | centralStatus => exact Yields.bind fun _ => Yields.pure trivial
  | getFileReadPlan path => exact Yields.bind fun _ => Yields.pure trivial
  | deleteFile path => exact Yields.bind fun _ => Yields.pure trivial
  | copyFile sourcePath targetPath => exact Yields.bind fun _ => Yields.pure trivial
  | renameFile sourcePath targetPath => exact Yields.bind fun _ => Yields.pure trivial
  | beginUpdate request => exact Yields.bind fun _ => Yields.pure trivial
  | commitUpdate request => exact Yields.bind fun _ => Yields.pure trivial
  | abortUpdate leaseId fileId => exact Yields.bind fun _ => revokeIfOnline_runBy _ _ _ _
  | createVolume name maxBytes => exact responding_runBy _ _
  | listDirectory dir limit cursor => exact responding_runBy _ _
  | getFileReadPlanById fileId => exact responding_runBy _ _
  | hasBundle bundleId volumeId => exact responding_runBy _ _
  | deleteFileById fileId => exact responding_runBy _ _
  | copyFileById sourceFileId targetPath => exact responding_runBy _ _
  | renameFileById fileId targetPath => exact responding_runBy _ _
  | getFileChangeLogs afterEventId limit => exact responding_runBy _ _
  | _ => exact Yields.throw _

theorem handleStorageRequest_runBy (storageId : Nat) (request : ControlRequest) :
    Yields (Progress.RunBy (.storage storageId))
      (handleStorageRequest inputs storageId request) := by
  cases request with
  | createVolume name maxBytes => exact responding_runBy _ _
  | validateClientAuth clientId clientToken => exact responding_runBy _ _
  | reportBundleReplica events => exact responding_runBy _ _
  | updateStorageEndpoint requestStorageId irohEndpoint =>
      exact Yields.bind fun _ => Yields.bind fun _ => Yields.pure trivial
  | updateStorageVolumeOffset volumeId maxVolumeOffset =>
      exact Yields.bind fun _ => Yields.pure rfl
  | _ => exact Yields.throw _

theorem handleControlRequest_runBy (identity : ControlConnectionIdentity)
    (request : ControlRequest) :
    Yields (Progress.RunBy identity) (handleControlRequest config inputs identity request) := by
  rcases handleControlRequest_dispatch config inputs identity request with
    ⟨name, token, version, rfl⟩ | ⟨name, token, version, volumes, irohEndpoint, rfl⟩ |
    ⟨handled, -⟩
  · exact Yields.bind fun _ => Yields.bind fun _ => Yields.bind fun _ => Yields.pure trivial
  · exact Yields.bind fun _ => Yields.bind fun _ => Yields.bind fun _ => Yields.pure trivial
  · rw [handled]
    cases identity with
    | anonymous => exact Yields.throw _
    | client clientId => exact handleClientRequest_runBy config inputs clientId request
    | storage storageId => exact handleStorageRequest_runBy inputs storageId request

/-- A handler goes on under the identity it runs under. -/
theorem Handler.resume_runBy (connection : Nat) {identity : ControlConnectionIdentity}
    {handler : Handler} (runs : handler.RunBy identity) :
    Yields (Progress.RunBy identity) (handler.resume config inputs connection identity) := by
  cases handler with
  | start request => exact handleControlRequest_runBy config inputs identity request
  | insertClient clientId token => exact Yields.bind fun _ => Yields.pure trivial
  | clientInserted clientId => exact Yields.bind fun _ => Yields.pure fun _ => trivial
  | volumesRegistered name volumes irohEndpoint => exact Yields.bind fun _ => Yields.pure trivial
  | mountVolumes peer => exact Yields.bind fun _ => Yields.pure trivial
  | insertStorage peer => exact Yields.bind fun _ => Yields.pure trivial
  | storageInserted storageId => exact Yields.bind fun _ => Yields.pure fun _ => trivial
  | centralStatus clientsCount => exact Yields.bind fun _ => Yields.pure trivial
  | getFileReadPlanById fileId => exact responding_runBy _ _
  | deleteFileById fileId => exact responding_runBy _ _
  | copyFileById sourceFileId targetPath => exact responding_runBy _ _
  | renameFileById fileId targetPath => exact responding_runBy _ _
  | beginUpdate request storageId volumeId => exact Yields.bind fun _ => Yields.pure runs
  | grantLease storageId lease =>
      apply Yields.bind
      intro storages
      cases storages.find? storageId with
      | none => exact Yields.pure runs
      | some storage => exact Yields.pure runs
  | awaitGrant lease =>
      simp only [Handler.resume]
      cases grantResult lease inputs.grant with
      | ok granted => exact Yields.pure trivial
      | error err => exact Yields.pure runs
  | dropLease leaseId err => exact Yields.bind fun _ => Yields.throw _
  | commitUpdate request storageId =>
      apply Yields.bind
      intro file
      cases storageId with
      | none => exact Yields.pure trivial
      | some storageId => exact Yields.pure runs
  | revokeLease storageId leaseId response =>
      apply Yields.bind
      intro storages
      cases storages.find? storageId with
      | none => exact Yields.pure trivial
      | some storage => exact Yields.pure runs
  | awaitRevoke response => exact Yields.pure trivial
  | storeVolumeOffset storageId volumeId registered => exact responding_runBy _ _
  | broadcast response => exact Yields.pure trivial
  | answer response => exact Yields.pure trivial

variable {config inputs}

theorem ControlRequest.transaction_runBy {identity : ControlConnectionIdentity}
    {request : ControlRequest} {tx : Transaction}
    (isTx : request.transaction inputs identity = some tx) : tx.RunBy identity := by
  cases request with
  | registerStorage name token version volumes irohEndpoint =>
      obtain rfl := Option.some.inj isTx
      trivial
  | createVolume name maxBytes =>
      cases identity with
      | anonymous => cases isTx
      | client clientId =>
          obtain rfl := Option.some.inj isTx
          exact .inl trivial
      | storage storageId =>
          obtain rfl := Option.some.inj isTx
          exact .inr trivial
  | _ =>
      cases identity with
      | anonymous => cases isTx
      | client clientId =>
          cases isTx <;> trivial
      | storage storageId =>
          cases isTx <;> trivial

/-- The transaction of a section belongs to the identity its handler runs under. -/
theorem Handler.transaction_runBy {identity : ControlConnectionIdentity} {handler : Handler}
    (runs : handler.RunBy identity) {tx : Transaction}
    (isTx : handler.transaction inputs identity = some tx) : tx.RunBy identity := by
  cases handler with
  | start request => exact ControlRequest.transaction_runBy isTx
  | _ => cases isTx <;> exact runs

end Identities

/-! ## Handlers of admitted registrations -/

/-- A handler is past its first section. -/
def Handler.Past : Handler → Prop
  | .start _ => False
  | _ => True

/-- A client is entered with an allowed token. -/
def Handler.Allowed (config : CentralConfig) : Handler → Prop
  | .insertClient _ token => config.tokenAllowed token
  | _ => True

def Progress.Allowed (config : CentralConfig) : Progress → Prop
  | .next handler => handler.Past ∧ handler.Allowed config
  | .identify _ handler => handler.Past ∧ handler.Allowed config
  | .respond _ => True

section Allowed

variable {config : CentralConfig} {inputs : Inputs}

theorem Progress.Advances.allowed {progress : Progress} (advances : progress.Advances)
    (enters : ∀ clientId token, progress ≠ .next (.insertClient clientId token))
    (named : ∀ identity clientId token,
      progress ≠ .identify identity (.insertClient clientId token)) :
    progress.Allowed config := by
  cases progress with
  | next handler =>
      cases handler with
      | start request => exact advances.elim
      | insertClient clientId token => exact absurd rfl (enters clientId token)
      | _ => exact ⟨trivial, trivial⟩
  | identify identity handler =>
      cases handler with
      | start request => exact advances.elim
      | insertClient clientId token => exact absurd rfl (named identity clientId token)
      | _ => exact ⟨trivial, trivial⟩
  | respond response => trivial

theorem Progress.Plain.allowed {progress : Progress} (plain : progress.Plain) :
    progress.Allowed config := by
  apply plain.advances.allowed
  · rintro clientId token rfl
    exact plain.2 trivial
  · rintro identity clientId token rfl
    exact plain.elim

/-- A section enters no client whose token is not allowed. -/
theorem Handler.resume_allowed (connection : Nat) (identity : ControlConnectionIdentity)
    (handler : Handler) :
    Yields (Progress.Allowed config) (handler.resume config inputs connection identity) := by
  cases handler with
  | start request =>
      intro server progress server' ran
      rcases handleControlRequest_dispatch config inputs identity request with
        ⟨name, token, version, rfl⟩ | ⟨name, token, version, volumes, irohEndpoint, rfl⟩ |
        ⟨handled, -⟩
      · obtain ⟨valid, -, ran⟩ := lift_bind_eq_ok.mp ran
        obtain ⟨allowed, ran⟩ := require_bind_eq_ok.mp ran
        obtain ⟨clientId, server₁, -, ran⟩ := bind_eq_ok.mp ran
        obtain ⟨rfl, -⟩ := EStateM.Result.ok.inj ran
        exact ⟨trivial, allowed⟩
      · obtain ⟨valid, -, ran⟩ := lift_bind_eq_ok.mp ran
        obtain ⟨-, ran⟩ := require_bind_eq_ok.mp ran
        obtain ⟨checked, server₁, -, ran⟩ := bind_eq_ok.mp ran
        obtain ⟨rfl, -⟩ := EStateM.Result.ok.inj ran
        exact ⟨trivial, trivial⟩
      · rw [Handler.resume, handled] at ran
        cases identity with
        | anonymous => cases ran
        | client clientId =>
            exact (handleClientRequest_plain config inputs request server _ _ ran).allowed
        | storage storageId =>
            exact (handleStorageRequest_plain inputs storageId request server _ _ ran).allowed
  | volumesRegistered name volumes irohEndpoint =>
      exact Yields.bind fun _ => Yields.pure ⟨trivial, trivial⟩
  | insertClient clientId token => exact Yields.bind fun _ => Yields.pure ⟨trivial, trivial⟩
  | clientInserted clientId => exact Yields.bind fun _ => Yields.pure ⟨trivial, trivial⟩
  | mountVolumes peer => exact Yields.bind fun _ => Yields.pure ⟨trivial, trivial⟩
  | insertStorage peer => exact Yields.bind fun _ => Yields.pure ⟨trivial, trivial⟩
  | storageInserted storageId => exact Yields.bind fun _ => Yields.pure ⟨trivial, trivial⟩
  | _ =>
      refine Yields.weaken (Handler.resume_plain config inputs connection identity _ ?_ ?_ id)
        fun _ plain => plain.allowed
      · simp
      · simp

end Allowed

/-! ## Connections with an admitted registration -/

namespace Central

/-- A request came in on a connection. -/
def ReceivedOn (ts : List (Transition Central CentralEvent)) (c : Nat)
    (request : ProtocolRequest) : Prop :=
  ∃ t ∈ ts, t.event = .receive c request

/-- A registration that central admits came in on a connection. -/
def AdmittedOn (config : CentralConfig) (ts : List (Transition Central CentralEvent)) (c : Nat) :
    Prop :=
  ∃ request, config.Admits request ∧ ReceivedOn ts c (.control request)

variable {config : CentralConfig} {s s' : Central} {e : CentralEvent}
  {t : Transition Central CentralEvent} {ts : List (Transition Central CentralEvent)}

theorem ReceivedOn.later {c : Nat} {request : ProtocolRequest}
    (received : ReceivedOn ts c request) : ReceivedOn (t :: ts) c request := by
  obtain ⟨before, member, isReceive⟩ := received
  exact ⟨before, List.mem_cons_of_mem _ member, isReceive⟩

theorem AdmittedOn.later {c : Nat} (admitted : AdmittedOn config ts c) :
    AdmittedOn config (t :: ts) c := by
  obtain ⟨request, admits, received⟩ := admitted
  exact ⟨request, admits, received.later⟩

/-- What a connection has, it has for a registration that was admitted on it. -/
structure Entitled (config : CentralConfig) (ts : List (Transition Central CentralEvent))
    (conn : ControlConnection) : Prop where
  holds : conn.Holds (ReceivedOn ts conn.connection)
  identified : conn.identity ≠ .anonymous → AdmittedOn config ts conn.connection
  unmounts : ∀ storageId, conn.phase = .unmounting storageId →
    AdmittedOn config ts conn.connection
  runs : ∀ stream handler, conn.handling = some ⟨stream, handler⟩ → handler.RunBy conn.identity
  allowed : ∀ stream handler, conn.handling = some ⟨stream, handler⟩ → handler.Allowed config
  past : ∀ stream handler, conn.handling = some ⟨stream, handler⟩ → handler.Past →
    AdmittedOn config ts conn.connection

namespace Entitled

variable {conn conn' : ControlConnection}

theorem new (c : Nat) : Entitled config ts (.new c) where
  holds := holds_new c
  identified named := absurd rfl named
  unmounts storageId unmounting := by cases unmounting
  runs stream handler handles := by cases handles
  allowed stream handler handles := by cases handles
  past stream handler handles := by cases handles

theorem later (entitled : Entitled config ts conn) : Entitled config (t :: ts) conn where
  holds :=
    { waiting := fun task member => (entitled.holds.waiting task member).later
      started := fun stream request starts => (entitled.holds.started stream request starts).later }
  identified named := (entitled.identified named).later
  unmounts storageId unmounting := (entitled.unmounts storageId unmounting).later
  runs := entitled.runs
  allowed := entitled.allowed
  past stream handler handles isPast := (entitled.past stream handler handles isPast).later

/-- A section runs for an admitted registration, or is refused on the spot. -/
theorem admitted_or_refused (entitled : Entitled config ts conn) {stream : Nat}
    {handler : Handler} (handles : conn.handling = some ⟨stream, handler⟩) (inputs : Inputs)
    (server : CentralServer) :
    AdmittedOn config ts conn.connection ∨
      ∃ err, handler.resume config inputs conn.connection conn.identity server =
        .error err server := by
  by_cases named : conn.identity = .anonymous
  · cases handler with
    | start request =>
        by_cases admits : config.Admits request
        · exact .inl ⟨request, admits, entitled.holds.started stream request handles⟩
        · rw [named]
          exact .inr (handleControlRequest_refused admits server)
    | _ => exact .inl (entitled.past stream _ handles trivial)
  · exact .inl (entitled.identified named)

theorem admitted (entitled : Entitled config ts conn) {stream : Nat} {handler : Handler}
    (handles : conn.handling = some ⟨stream, handler⟩) {inputs : Inputs} {progress : Progress}
    {server server' : CentralServer}
    (ran : handler.resume config inputs conn.connection conn.identity server =
      .ok progress server') : AdmittedOn config ts conn.connection := by
  rcases entitled.admitted_or_refused handles inputs server with admitted | ⟨err, refused⟩
  · exact admitted
  · cases refused.symm.trans ran

/-- A connection that only lets go of requests. -/
theorem less (entitled : Entitled config ts conn) (connection : conn'.connection = conn.connection)
    (waiting : ∀ task ∈ conn'.waiting, task ∈ conn.waiting)
    (identity : conn'.identity = conn.identity)
    (unmounts : ∀ storageId, conn'.phase = .unmounting storageId →
      AdmittedOn config ts conn.connection)
    (handling : conn'.handling = conn.handling ∨ conn'.handling = none) :
    Entitled config ts conn' := by
  have handles : ∀ stream handler, conn'.handling = some ⟨stream, handler⟩ →
      conn.handling = some ⟨stream, handler⟩ := by
    intro stream handler handles
    rcases handling with same | none
    · exact same.symm.trans handles
    · cases none.symm.trans handles
  constructor
  · rw [connection]
    exact holds_of_idle entitled.holds waiting handling
  · rw [connection, identity]
    exact entitled.identified
  · rw [connection]
    exact unmounts
  · intro stream handler isHandler
    rw [identity]
    exact entitled.runs stream handler (handles stream handler isHandler)
  · intro stream handler isHandler
    exact entitled.allowed stream handler (handles stream handler isHandler)
  · intro stream handler isHandler isPast
    rw [connection]
    exact entitled.past stream handler (handles stream handler isHandler) isPast

/-- A connection whose handler is past its first section. -/
theorem goesOn (entitled : Entitled config ts conn)
    (admitted : AdmittedOn config ts conn.connection) {identity : ControlConnectionIdentity}
    {stream : Nat} {handler : Handler} (isPast : handler.Past) (allowed : handler.Allowed config)
    (runs : handler.RunBy identity) :
    Entitled config ts
      { conn with identity := identity, handling := some ⟨stream, handler⟩ } := by
  have handles : ∀ stream' handler', some (⟨stream, handler⟩ : Handling) =
      some ⟨stream', handler'⟩ → handler' = handler := by
    intro stream' handler' same
    exact (Handling.mk.inj (Option.some.inj same)).2.symm
  constructor
  · refine ⟨entitled.holds.waiting, ?_⟩
    intro stream' request starts
    obtain rfl := handles _ _ starts
    exact isPast.elim
  · exact fun _ => admitted
  · exact fun _ _ => admitted
  · intro stream' handler' isHandler
    obtain rfl := handles _ _ isHandler
    exact runs
  · intro stream' handler' isHandler
    obtain rfl := handles _ _ isHandler
    exact allowed
  · exact fun _ _ _ _ => admitted

end Entitled

/-- One step on a connection keeps what it has to a registration admitted on it. -/
theorem entitled_of_step {conn : ControlConnection} (step : ConnectionStep config s conn e s')
    (entitled : Entitled config ts conn) :
    ∃ conn', s'.connections = s.connections.replace conn' ∧
      Entitled config (⟨s, e, s'⟩ :: ts) conn' := by
  have before : Entitled config (⟨s, e, s'⟩ :: ts) conn := entitled.later
  cases step with
  | receive request accepting =>
      refine ⟨_, rfl, ?_⟩
      refine ⟨⟨?_, before.holds.started⟩, before.identified, before.unmounts, before.runs,
        before.allowed, before.past⟩
      intro task member
      rcases List.mem_cons.mp member with rfl | member
      · exact ⟨_, List.mem_cons_self, rfl⟩
      · exact before.holds.waiting task member
  | start stream request waits unlocked =>
      refine ⟨_, rfl, ?_⟩
      have handles : ∀ stream' handler', some (⟨stream, .start request⟩ : Handling) =
          some ⟨stream', handler'⟩ → handler' = .start request := by
        intro stream' handler' same
        exact (Handling.mk.inj (Option.some.inj same)).2.symm
      refine ⟨⟨?_, ?_⟩, before.identified, before.unmounts, ?_, ?_, ?_⟩
      · exact fun task member => before.holds.waiting task (withoutTask_waiting _ _ task member)
      · intro stream' request' starts
        obtain rfl := Handler.start.inj (handles _ _ starts)
        exact before.holds.waiting _ waits
      · intro stream' handler isHandler
        obtain rfl := handles _ _ isHandler
        trivial
      · intro stream' handler isHandler
        obtain rfl := handles _ _ isHandler
        trivial
      · intro stream' handler isHandler isPast
        obtain rfl := handles _ _ isHandler
        exact isPast.elim
  | refuse stream waits unlocked =>
      exact ⟨_, rfl, before.less rfl (withoutTask_waiting _ _) rfl before.unmounts
        (.inr rfl)⟩
  | next inputs stream handler handler' server handles ran =>
      have runs := Handler.resume_runBy config inputs conn.connection
        (entitled.runs stream handler handles) _ _ _ ran
      have allowed := handler.resume_allowed conn.connection conn.identity _ _ _ ran
      exact ⟨_, rfl, before.goesOn (entitled.admitted handles ran).later allowed.1
        allowed.2 runs⟩
  | identify inputs stream handler handler' identity server handles ran =>
      have runs := Handler.resume_runBy config inputs conn.connection
        (entitled.runs stream handler handles) _ _ _ ran
      have allowed := handler.resume_allowed conn.connection conn.identity _ _ _ ran
      exact ⟨_, rfl, before.goesOn (entitled.admitted handles ran).later allowed.1
        allowed.2 (runs identity)⟩
  | respond inputs stream handler response server handles ran =>
      exact ⟨_, rfl, before.less rfl (fun _ => id) rfl before.unmounts (.inr rfl)⟩
  | fail inputs stream handler err server handles ran =>
      exact ⟨_, rfl, before.less rfl (fun _ => id) rfl before.unmounts (.inr rfl)⟩
  | acceptEnds accepting =>
      refine ⟨_, rfl, before.less rfl (fun _ => id) rfl ?_ (.inl rfl)⟩
      intro storageId unmounting
      cases unmounting
  | dropWaiting stream ended =>
      exact ⟨_, rfl, before.less rfl (withoutTask_waiting _ _) rfl before.unmounts
        (.inl rfl)⟩
  | abortHandler stream handler ended handles awaits =>
      exact ⟨_, rfl, before.less rfl (fun _ => id) rfl before.unmounts (.inr rfl)⟩
  | unregister ending idle =>
      cases identity : conn.identity with
      | anonymous =>
          refine ⟨{ conn with phase := .unregistered }, ?_, ?_⟩
          · rw [unregister, identity]
            rfl
          · refine before.less rfl (fun _ => id) rfl ?_ (.inl rfl)
            intro storageId unmounting
            cases unmounting
      | client clientId =>
          refine ⟨{ conn with phase := .unregistered }, ?_, ?_⟩
          · rw [unregister, identity]
            rfl
          · refine before.less rfl (fun _ => id) rfl ?_ (.inl rfl)
            intro storageId unmounting
            cases unmounting
      | storage storageId =>
          refine ⟨{ conn with phase := .unmounting storageId }, ?_, ?_⟩
          · rw [unregister, identity]
            rfl
          · refine before.less rfl (fun _ => id) rfl ?_ (.inl rfl)
            intro _ _
            exact before.identified (by simp [identity])
  | unmount storageId unmounting =>
      refine ⟨_, rfl, before.less rfl (fun _ => id) rfl ?_ (.inl rfl)⟩
      intro other unmounting
      cases unmounting
  | finish unregistered =>
      refine ⟨_, rfl, before.less rfl (fun _ => id) rfl ?_ (.inl rfl)⟩
      intro other unmounting
      cases unmounting

/-- In every run, what a connection has it has for a registration that was admitted on it. -/
theorem entitled_of_run (run : (central config).Run ts s) :
    ∀ conn ∈ s.connections.rows, Entitled config ts conn := by
  induction run with
  | init initial =>
      obtain rfl := initial
      simp [Central.initial, SeqTable.empty]
  | @step ts s s' e run taken inductionHypothesis =>
      intro other member
      cases step_cases taken with
      | connect =>
          rcases mem_appended.mp member with old | rfl
          · exact (inductionHypothesis other old).later
          · exact Entitled.new _
      | restart => simp at member
      | connection conn found step =>
          obtain ⟨conn', connections, entitled⟩ := entitled_of_step step
            (inductionHypothesis conn (Table.mem_of_find? found).1)
          rw [connections] at member
          rcases SeqTable.mem_replace member with rfl | ⟨old, -⟩
          · exact entitled
          · exact (inductionHypothesis other old).later

/-! ## What central does, and for whom -/

end Central

/-- The connection an event is about. -/
def CentralEvent.connection? : CentralEvent → Option Nat
  | .connect => none
  | .restart => none
  | .receive c _ => some c
  | .lockIdentity c _ => some c
  | .run c _ => some c
  | .acceptEnds c => some c
  | .dropWaiting c _ => some c
  | .abortHandler c => some c
  | .unregister c => some c
  | .unmount c => some c
  | .finish c => some c

namespace Central

variable {config : CentralConfig} {s s' : Central} {e : CentralEvent}
  {t : Transition Central CentralEvent} {ts : List (Transition Central CentralEvent)}

/-- Every client central knows was entered with an allowed token, for a registration on the
connection it is on. -/
theorem clients_of_run (run : (central config).Run ts s) :
    ∀ client ∈ s.server.clients.rows,
      client.token ∈ config.authTokens ∧ AdmittedOn config ts client.connection := by
  induction run with
  | init initial =>
      obtain rfl := initial
      intro client member
      cases member
  | @step ts s s' e run taken inductionHypothesis =>
      have kept : ∀ client ∈ s.server.clients.rows, client.token ∈ config.authTokens ∧
          AdmittedOn config (⟨s, e, s'⟩ :: ts) client.connection := by
        intro client member
        obtain ⟨allowed, admitted⟩ := inductionHypothesis client member
        exact ⟨allowed, admitted.later⟩
      cases step_cases taken with
      | connect => exact kept
      | restart =>
          intro client member
          cases member
      | connection conn found step =>
          have entitled := entitled_of_run run conn (Table.mem_of_find? found).1
          obtain ⟨conn', -, step⟩ := registrationStep step
          generalize server : s'.server = server' at step ⊢
          cases step with
          | idle mounts connection identity phase handling locked =>
              rw [mounts.clients]
              exact kept
          | clientInserted stream clientId token handles inputs runs =>
              intro client member
              rcases Table.mem_put.mp member with rfl | ⟨old, -⟩
              · have allowed := entitled.allowed _ _ handles
                exact ⟨CentralConfig.tokenAllowed_iff.mp allowed,
                  (entitled.past _ _ handles trivial).later⟩
              · exact kept client old
          | clientLeft clientId ending idle identity =>
              intro client member
              exact kept client (Table.mem_delete.mp member).1
          | _ => exact kept

/-- An event changes what central knows, or answers a request with more than an error. -/
def Acts (t : Transition Central CentralEvent) : Prop :=
  t.post.server ≠ t.pre.server ∨
    ∃ stream response, t.post.exchanges = .answered stream (.control response) :: t.pre.exchanges

/-- What a step on a connection does, it does for a registration admitted on it. -/
theorem admitted_of_acts {conn : ControlConnection} (step : ConnectionStep config s conn e s')
    (entitled : Entitled config ts conn) (acts : Acts ⟨s, e, s'⟩) :
    AdmittedOn config ts conn.connection := by
  have silent (server : s'.server = s.server) (exchanges : s'.exchanges = s.exchanges) :
      AdmittedOn config ts conn.connection := by
    rcases acts with changed | ⟨stream, response, answered⟩
    · exact absurd server changed
    · exact absurd (answered.symm.trans exchanges) (List.cons_ne_self _ _)
  have unanswered {message : Exchange} (server : s'.server = s.server)
      (exchanges : s'.exchanges = message :: s.exchanges)
      (isOther : ∀ stream response, message ≠ .answered stream (.control response)) :
      AdmittedOn config ts conn.connection := by
    rcases acts with changed | ⟨stream, response, answered⟩
    · exact absurd server changed
    · exact absurd (List.cons.inj (exchanges.symm.trans answered)).1 (isOther stream response)
  cases step with
  | receive request accepting => exact unanswered rfl rfl (by simp)
  | start stream request waits unlocked => exact silent rfl rfl
  | refuse stream waits unlocked => exact unanswered rfl rfl (by simp)
  | next inputs stream handler handler' server handles ran => exact entitled.admitted handles ran
  | identify inputs stream handler handler' identity server handles ran =>
      exact entitled.admitted handles ran
  | respond inputs stream handler response server handles ran =>
      exact entitled.admitted handles ran
  | fail inputs stream handler err server handles ran =>
      rcases entitled.admitted_or_refused handles inputs s.server with admitted | ⟨_, refused⟩
      · exact admitted
      · obtain ⟨-, rfl⟩ := EStateM.Result.error.inj (ran.symm.trans refused)
        exact unanswered rfl rfl (by simp)
  | acceptEnds accepting => exact silent rfl rfl
  | dropWaiting stream ended => exact silent rfl rfl
  | abortHandler stream handler ended handles awaits => exact silent rfl rfl
  | unregister ending idle =>
      cases identity : conn.identity with
      | anonymous => apply silent <;> rw [unregister, identity] <;> rfl
      | client clientId => exact entitled.identified (by simp [identity])
      | storage storageId => exact entitled.identified (by simp [identity])
  | unmount storageId unmounting => exact entitled.unmounts storageId unmounting
  | finish unregistered => exact silent rfl rfl

theorem ConnectionStep.connection? {conn : ControlConnection}
    (step : ConnectionStep config s conn e s') : e.connection? = some conn.connection := by
  cases step <;> rfl

/-- The transaction an event may commit belongs to the identity of its connection. -/
theorem transaction_runBy {conn : ControlConnection}
    (found : s.connections.find? conn.connection = some conn)
    (step : ConnectionStep config s conn e s') (entitled : Entitled config ts conn)
    {tx : Transaction} (isTx : s.transaction e = some tx) : tx.RunBy conn.identity := by
  cases e with
  | run c inputs =>
      obtain rfl : c = conn.connection := Option.some.inj step.connection?
      obtain ⟨other, isConn, rest⟩ := Option.bind_eq_some_iff.mp isTx
      obtain rfl := Option.some.inj (isConn.symm.trans found)
      obtain ⟨⟨stream, handler⟩, handles, isTx⟩ := Option.bind_eq_some_iff.mp rest
      exact Handler.transaction_runBy (entitled.runs stream handler handles) isTx
  | _ => cases isTx

end Central

/-- Central acts on a connection only after it admitted a registration on it, and commits only
what the identity of the connection may ask for; every client it knows has an allowed token. -/
theorem authorized_of_run {config : CentralConfig}
    {later earlier : List (Transition Central CentralEvent)} {t : Transition Central CentralEvent}
    {s : Central} (run : (central config).Run (later ++ t :: earlier) s) :
    (Central.Acts t → t.event = .restart ∨ ∃ conn ∈ t.pre.connections.rows,
      t.event.connection? = some conn.connection ∧
      Central.AdmittedOn config earlier conn.connection ∧
      ∀ tx, t.pre.transaction t.event = some tx → tx.RunBy conn.identity) ∧
    ∀ client ∈ t.post.server.clients.rows, client.token ∈ config.authTokens ∧
      Central.AdmittedOn config (t :: earlier) client.connection := by
  obtain ⟨before, taken⟩ := run.before
  obtain ⟨pre, event, post⟩ := t
  replace taken : (central config).step pre event = some post := taken
  refine ⟨fun acts => ?_, Central.clients_of_run (before.step taken)⟩
  cases Central.step_cases taken with
  | connect =>
      rcases acts with changed | ⟨stream, response, answered⟩
      · exact absurd rfl changed
      · exact absurd answered.symm (List.cons_ne_self _ _)
  | restart => exact .inl rfl
  | connection conn found step =>
      have member := (Table.mem_of_find? found).1
      have entitled := Central.entitled_of_run before conn member
      exact .inr ⟨conn, member, step.connection?, Central.admitted_of_acts step entitled acts,
        fun tx isTx => Central.transaction_runBy found step entitled isTx⟩

namespace Scenario

/-- A connection that only asks for a volume, and one that registers before it does. -/
def askedForVolume : List CentralEvent :=
  [.connect] ++ request 1 0 1 1 (.createVolume "u" 100) ++
    [.connect] ++ request 2 1 4 1 (.registerClient none "token" "0.2.4") ++
    [.receive 2 (.control (.createVolume "v" 100)), .lockIdentity 2 2]

end Scenario

/-- The volume is created for the second connection, which had sent its registration. -/
theorem authorized_of_run_registered : ∃ earlier s s',
    (central Scenario.config).Run (⟨s, .run 2 (Scenario.inputs 1), s'⟩ :: earlier) s' ∧
      s'.server ≠ s.server ∧ Central.AdmittedOn Scenario.config earlier 2 := by
  obtain ⟨earlier, s, run, -, goesOn⟩ := Scenario.run_of_exec Scenario.askedForVolume
    (fun s => ((central Scenario.config).step s (.run 2 (Scenario.inputs 1))).map
      fun s' => decide (s'.server = s.server)) (some false) (by decide +kernel)
  obtain ⟨s', taken, changed⟩ := Option.map_eq_some_iff.mp goesOn
  have differs : s'.server ≠ s.server := of_decide_eq_false changed
  have whole : (central Scenario.config).Run
      ([] ++ ⟨s, .run 2 (Scenario.inputs 1), s'⟩ :: earlier) s' := run.step taken
  obtain ⟨acts, -⟩ := authorized_of_run whole
  rcases acts (.inl differs) with restarts | ⟨conn, -, isConn, admitted, -⟩
  · cases restarts
  · have same : conn.connection = 2 := (Option.some.inj isConn).symm
    rw [same] at admitted
    exact ⟨earlier, s, s', run.step taken, differs, admitted⟩

end Fs0
