import Fs0.Central.LeaseRuns
import Fs0.Central.RequestLedger

/-!
Contract: where the leases and the validated clients that central hands out come from.

Owns:
- the calls of central to the storages, and the replies it goes on with;
- that a handler grants a lease only after its row was in the table;
- that central answers with a lease only on a grant reply for this lease;
- that central validates a client only while it is registered with the token asked about.

Does not own: the storages that grant a lease or ask about a client.
-/

set_option autoImplicit false

namespace Fs0

open Lib Fallible CentralM

/-! ## Calls to the storages -/

/-- A call on a control connection, for the request of a stream. -/
structure ControlCall where
  connection : Nat
  stream : Nat
  request : ControlRequest
deriving DecidableEq

/-- `GrantUploadLeaseRequest` of a lease. -/
def UpdateLease.grant (lease : UpdateLease) : GrantUploadLeaseRequest :=
  ⟨lease.leaseId, lease.fileId, lease.volumeId, lease.baseSize, lease.expiresAtMs,
    lease.preferVolumeName⟩

/-- The call with which a section goes to a storage. -/
def Handler.call (storages : Table StorageControlConnection.storageId) (stream : Nat) :
    Handler → Option ControlCall
  | .grantLease storageId lease =>
      (storages.find? storageId).map fun storage =>
        ⟨storage.connection, stream, .grantUploadLease lease.grant⟩
  | .revokeLease storageId leaseId _ =>
      (storages.find? storageId).map fun storage =>
        ⟨storage.connection, stream, .revokeUploadLease leaseId⟩
  | _ => none

namespace Central

/-- The handler an event runs. -/
def running (s : Central) : CentralEvent → Option Handling
  | .run c _ => (s.connections.find? c).bind ControlConnection.handling
  | _ => none

/-- The call an event sends to a storage. -/
def call (s : Central) (e : CentralEvent) : Option ControlCall :=
  (s.running e).bind fun handling => handling.handler.call s.server.storages handling.stream

/-- The reply of a storage that an event goes on with. -/
def heard (s : Central) (e : CentralEvent) : Option (Nat × GrantReply) :=
  match e, s.running e with
  | .run _ inputs, some ⟨stream, .awaitGrant _⟩ =>
      match inputs.grant with
      | .ok reply => some (stream, reply)
      | .error _ => none
  | _, _ => none

/-- Central has validated a client on a stream. -/
def validated (s : Central) (stream : Nat) : Bool :=
  s.exchanges.any fun exchange =>
    match exchange with
    | .answered other (.control (.validateClientAuth _)) => other = stream
    | _ => false

end Central

/-! ## Answers that vouch for something -/

/-- An answer that neither hands out a lease nor validates a client. -/
def ControlResponse.Plain : ControlResponse → Prop
  | .beginUpdate _ => False
  | .validateClientAuth _ => False
  | _ => True

namespace Handler

/-- The lease a handler is about to have granted. -/
def lease? : Handler → Option UpdateLease
  | .grantLease _ lease => some lease
  | .awaitGrant lease => some lease
  | _ => none

/-- A handler carries no lease, and no answer that vouches for something. -/
def CarriesPlain : Handler → Prop
  | .grantLease _ _ => False
  | .awaitGrant _ => False
  | .revokeLease _ _ response => response.Plain
  | .awaitRevoke response => response.Plain
  | .broadcast response => response.Plain
  | .answer response => response.Plain
  | _ => True

end Handler

def Progress.CarriesPlain : Progress → Prop
  | .next handler => handler.CarriesPlain
  | .identify _ handler => handler.CarriesPlain
  | .respond response => response.Plain

/-- Whatever a computation returns has a property. -/
def CentralM.Returns {α : Type} (Q : α → Prop) (m : CentralM α) : Prop :=
  ∀ server a server', m server = .ok a server' → Q a

namespace CentralM.Returns

variable {α β : Type} {Q : β → Prop}

theorem pure {b : β} (holds : Q b) : Returns Q (Pure.pure b) := by
  intro server b' server' ran
  obtain ⟨rfl, -⟩ := EStateM.Result.ok.inj ran
  exact holds

theorem bind {m : CentralM α} {f : α → CentralM β} (rest : ∀ a, Returns Q (f a)) :
    Returns Q (m >>= f) := by
  intro server b server' ran
  obtain ⟨a, server₁, -, ran⟩ := bind_eq_ok.mp ran
  exact rest a server₁ b server' ran

end CentralM.Returns

section Sections

variable (config : CentralConfig) (inputs : Inputs)

theorem responding_carriesPlain {m : CentralM ControlResponse}
    (plain : Returns ControlResponse.Plain m) :
    Yields Progress.CarriesPlain (responding m) := by
  intro server progress server' ran
  obtain ⟨response, server₁, responds, ran⟩ := bind_eq_ok.mp ran
  obtain ⟨rfl, -⟩ := EStateM.Result.ok.inj ran
  exact plain server response server₁ responds

/-- A section that computes a value and answers with it. -/
theorem answering_carriesPlain {α : Type} {m : CentralM α} {answer : α → ControlResponse}
    (plain : ∀ a, (answer a).Plain) :
    Yields Progress.CarriesPlain (responding (m >>= fun a => pure (answer a))) :=
  responding_carriesPlain (Returns.bind fun a => Returns.pure (plain a))

theorem revokeIfOnline_carriesPlain (storageId : Option Nat) (leaseId : Nat)
    {response : ControlResponse} (plain : response.Plain) :
    Yields Progress.CarriesPlain (pure (revokeIfOnline storageId leaseId response)) := by
  cases storageId <;> exact Yields.pure plain

theorem getFileReadPlanById_carriesPlain (fileId : Nat) :
    Yields Progress.CarriesPlain (responding (ClientRequest.getFileReadPlanById fileId)) :=
  responding_carriesPlain (Returns.bind fun _ => Returns.bind fun _ => Returns.bind fun _ =>
    Returns.pure trivial)

theorem handleClientRequest_carriesPlain (request : ControlRequest) :
    Yields Progress.CarriesPlain (handleClientRequest config inputs request) := by
  cases request with
  | centralStatus => exact Yields.bind fun _ => Yields.pure trivial
  | getFileReadPlan path => exact Yields.bind fun _ => Yields.pure trivial
  | deleteFile path => exact Yields.bind fun _ => Yields.pure trivial
  | copyFile sourcePath targetPath => exact Yields.bind fun _ => Yields.pure trivial
  | renameFile sourcePath targetPath => exact Yields.bind fun _ => Yields.pure trivial
  | beginUpdate request => exact Yields.bind fun _ => Yields.pure trivial
  | commitUpdate request => exact Yields.bind fun _ => Yields.pure trivial
  | abortUpdate leaseId fileId =>
      exact Yields.bind fun _ => revokeIfOnline_carriesPlain _ _ trivial
  | createVolume name maxBytes => exact answering_carriesPlain fun _ => trivial
  | listDirectory dir limit cursor => exact answering_carriesPlain fun _ => trivial
  | getFileReadPlanById fileId => exact getFileReadPlanById_carriesPlain fileId
  | hasBundle bundleId volumeId => exact answering_carriesPlain fun _ => trivial
  | deleteFileById fileId => exact answering_carriesPlain fun _ => trivial
  | copyFileById sourceFileId targetPath => exact answering_carriesPlain fun _ => trivial
  | renameFileById fileId targetPath => exact answering_carriesPlain fun _ => trivial
  | getFileChangeLogs afterEventId limit => exact answering_carriesPlain fun _ => trivial
  | _ => exact Yields.throw _

/-- Only a storage that asks about a client gets an answer that vouches for something. -/
theorem handleStorageRequest_carriesPlain (storageId : Nat) {request : ControlRequest}
    (other : ∀ clientId clientToken, request ≠ .validateClientAuth clientId clientToken) :
    Yields Progress.CarriesPlain (handleStorageRequest inputs storageId request) := by
  cases request with
  | createVolume name maxBytes => exact answering_carriesPlain fun _ => trivial
  | validateClientAuth clientId clientToken => exact absurd rfl (other clientId clientToken)
  | reportBundleReplica events =>
      exact responding_carriesPlain (Returns.bind fun _ => Returns.bind fun _ =>
        Returns.bind fun _ => Returns.pure trivial)
  | updateStorageEndpoint requestStorageId irohEndpoint =>
      refine Yields.bind fun _ => ?_
      intro server progress server' ran
      obtain ⟨response, server₁, responds, ran⟩ := bind_eq_ok.mp ran
      obtain ⟨rfl, -⟩ := EStateM.Result.ok.inj ran
      have plain : Returns ControlResponse.Plain
          (StorageRequest.updateStorageEndpoint storageId irohEndpoint) :=
        Returns.bind fun _ => Returns.bind fun _ => Returns.bind fun _ => Returns.pure trivial
      exact plain server response server₁ responds
  | updateStorageVolumeOffset volumeId maxVolumeOffset =>
      exact Yields.bind fun _ => Yields.pure trivial
  | _ => exact Yields.throw _

theorem handleControlRequest_carriesPlain (identity : ControlConnectionIdentity)
    {request : ControlRequest}
    (other : ∀ clientId clientToken, request ≠ .validateClientAuth clientId clientToken) :
    Yields Progress.CarriesPlain (handleControlRequest config inputs identity request) := by
  rcases handleControlRequest_dispatch config inputs identity request with
    ⟨name, token, version, rfl⟩ | ⟨name, token, version, volumes, irohEndpoint, rfl⟩ |
    ⟨handled, -⟩
  · exact Yields.bind fun _ => Yields.bind fun _ => Yields.bind fun _ => Yields.pure trivial
  · exact Yields.bind fun _ => Yields.bind fun _ => Yields.bind fun _ => Yields.pure trivial
  · rw [handled]
    cases identity with
    | anonymous => exact Yields.throw _
    | client clientId => exact handleClientRequest_carriesPlain config inputs request
    | storage storageId => exact handleStorageRequest_carriesPlain inputs storageId other

/-- Sections that neither record nor grant a lease, and validate no client. -/
theorem Handler.resume_carriesPlain (connection : Nat) (identity : ControlConnectionIdentity)
    {handler : Handler} (plain : handler.CarriesPlain)
    (noValidation : ∀ clientId clientToken,
      handler ≠ .start (.validateClientAuth clientId clientToken))
    (noUpdate : ∀ request storageId volumeId, handler ≠ .beginUpdate request storageId volumeId) :
    Yields Progress.CarriesPlain (handler.resume config inputs connection identity) := by
  cases handler with
  | start request =>
      refine handleControlRequest_carriesPlain config inputs identity ?_
      rintro clientId clientToken rfl
      exact noValidation clientId clientToken rfl
  | insertClient clientId token => exact Yields.bind fun _ => Yields.pure trivial
  | clientInserted clientId => exact Yields.bind fun _ => Yields.pure trivial
  | volumesRegistered name volumes irohEndpoint => exact Yields.bind fun _ => Yields.pure trivial
  | mountVolumes peer => exact Yields.bind fun _ => Yields.pure trivial
  | insertStorage peer => exact Yields.bind fun _ => Yields.pure trivial
  | storageInserted storageId => exact Yields.bind fun _ => Yields.pure trivial
  | centralStatus clientsCount => exact Yields.bind fun _ => Yields.pure trivial
  | getFileReadPlanById fileId => exact getFileReadPlanById_carriesPlain fileId
  | deleteFileById fileId => exact answering_carriesPlain fun _ => trivial
  | copyFileById sourceFileId targetPath => exact answering_carriesPlain fun _ => trivial
  | renameFileById fileId targetPath => exact answering_carriesPlain fun _ => trivial
  | beginUpdate request storageId volumeId => exact absurd rfl (noUpdate _ _ _)
  | grantLease storageId lease => exact plain.elim
  | awaitGrant lease => exact plain.elim
  | dropLease leaseId err => exact Yields.bind fun _ => Yields.throw _
  | commitUpdate request storageId =>
      exact Yields.bind fun _ => revokeIfOnline_carriesPlain _ _ trivial
  | revokeLease storageId leaseId response =>
      apply Yields.bind
      intro storages
      cases storages.find? storageId with
      | none => exact Yields.pure plain
      | some storage => exact Yields.pure plain
  | awaitRevoke response => exact Yields.pure plain
  | storeVolumeOffset storageId volumeId registered =>
      exact responding_carriesPlain (Returns.bind fun _ => Returns.bind fun _ =>
        Returns.bind fun _ => Returns.bind fun _ => Returns.pure trivial)
  | broadcast response => exact Yields.pure plain
  | answer response => exact Yields.pure plain

end Sections

/-! ## Handlers and answers of a step -/

namespace Central

variable {config : CentralConfig} {s s' : Central} {e : CentralEvent}
  {ts : List (Transition Central CentralEvent)} {conn conn' : ControlConnection}

/-- Where the handler of a connection comes from, when an event goes on with its request. -/
inductive HandlerStep (config : CentralConfig) (s : Central) (conn : ControlConnection)
    (e : CentralEvent) (s' : Central) (conn' : ControlConnection) : Prop where
  | idle (handling : conn'.handling = none)
  | same (handling : conn'.handling = conn.handling)
  | started (stream : Nat) (request : ControlRequest)
      (handling : conn'.handling = some ⟨stream, .start request⟩)
  | ran (inputs : Inputs) (stream : Nat) (handler handler' : Handler) (progress : Progress)
      (isRun : e = .run conn.connection inputs)
      (handles : conn.handling = some ⟨stream, handler⟩)
      (result : handler.resume config inputs conn.connection conn.identity s.server =
        .ok progress s'.server)
      (goesOn : progress = .next handler' ∨ ∃ identity, progress = .identify identity handler')
      (handling : conn'.handling = some ⟨stream, handler'⟩)

theorem handlerStep (step : ConnectionStep config s conn e s') :
    ∃ conn', s'.connections = s.connections.replace conn' ∧
      HandlerStep config s conn e s' conn' := by
  cases step with
  | receive request accepting => exact ⟨_, rfl, .same rfl⟩
  | start stream request waits unlocked => exact ⟨_, rfl, .started stream request rfl⟩
  | refuse stream waits unlocked => exact ⟨_, rfl, .idle rfl⟩
  | next inputs stream handler handler' server handles ran =>
      exact ⟨_, rfl, .ran inputs stream handler handler' _ rfl handles ran (.inl rfl) rfl⟩
  | identify inputs stream handler handler' identity server handles ran =>
      exact ⟨_, rfl, .ran inputs stream handler handler' _ rfl handles ran (.inr ⟨_, rfl⟩) rfl⟩
  | respond inputs stream handler response server handles ran => exact ⟨_, rfl, .idle rfl⟩
  | fail inputs stream handler err server handles ran => exact ⟨_, rfl, .idle rfl⟩
  | acceptEnds accepting => exact ⟨_, rfl, .same rfl⟩
  | dropWaiting stream ended => exact ⟨_, rfl, .same rfl⟩
  | abortHandler stream handler ended handles awaits => exact ⟨_, rfl, .idle rfl⟩
  | unregister ending idle =>
      unfold unregister
      cases conn.identity with
      | anonymous => exact ⟨_, rfl, .same rfl⟩
      | client clientId => exact ⟨_, rfl, .same rfl⟩
      | storage storageId => exact ⟨_, rfl, .same rfl⟩
  | unmount storageId unmounting => exact ⟨_, rfl, .same rfl⟩
  | finish unregistered => exact ⟨_, rfl, .same rfl⟩

/-- An answer that is no error is the one a handler has just responded with. -/
theorem answered_of_step (taken : (central config).step s e = some s') {stream : Nat}
    {response : ControlResponse}
    (answered : .answered stream (.control response) ∈ s'.exchanges) :
    .answered stream (.control response) ∈ s.exchanges ∨
      ∃ conn inputs handler, s.connections.find? conn.connection = some conn ∧
        e = .run conn.connection inputs ∧ conn.handling = some ⟨stream, handler⟩ ∧
        handler.resume config inputs conn.connection conn.identity s.server =
          .ok (.respond response) s'.server := by
  have old {message : Exchange} (exchanges : s'.exchanges = message :: s.exchanges)
      (isOther : message ≠ .answered stream (.control response)) :
      .answered stream (.control response) ∈ s.exchanges := by
    rw [exchanges] at answered
    rcases List.mem_cons.mp answered with same | before
    · exact absurd same.symm isOther
    · exact before
  cases step_cases taken with
  | connect => exact .inl answered
  | restart => exact .inl answered
  | connection conn found step =>
      cases step with
      | receive request accepting => exact .inl (old rfl (by simp))
      | start stream' request waits unlocked => exact .inl answered
      | refuse stream' waits unlocked => exact .inl (old rfl (by simp))
      | next inputs stream' handler handler' server handles ran => exact .inl answered
      | identify inputs stream' handler handler' identity server handles ran =>
          exact .inl answered
      | respond inputs stream' handler response' server handles ran =>
          rcases List.mem_cons.mp answered with same | before
          · obtain ⟨-, rfl, isControl⟩ := reply_eq_answered.mp same.symm
            obtain rfl := ProtocolResponse.control.inj isControl
            exact .inr ⟨conn, inputs, handler, found, rfl, handles, ran⟩
          · exact .inl before
      | fail inputs stream' handler err server handles ran => exact .inl (old rfl (by simp))
      | acceptEnds accepting => exact .inl answered
      | dropWaiting stream' ended => exact .inl answered
      | abortHandler stream' handler ended handles awaits => exact .inl answered
      | unregister ending idle =>
          unfold unregister at answered
          cases identity : conn.identity <;> rw [identity] at answered <;> exact .inl answered
      | unmount storageId unmounting => exact .inl answered
      | finish unregistered => exact .inl answered

end Central

/-! ## Validated clients -/

/-- A client is validated by the row it is registered with. -/
theorem validateClientAuth_eq_ok {config : CentralConfig} {inputs : Inputs}
    {identity : ControlConnectionIdentity} {clientId : Nat} {clientToken : String}
    {server server' : CentralServer} {progress : Progress}
    (ran : handleControlRequest config inputs identity
      (.validateClientAuth clientId clientToken) server = .ok progress server') :
    progress = .respond (.validateClientAuth clientId) ∧
      ∃ client ∈ server.clients.rows, client.clientId = clientId ∧
        client.token = clientToken := by
  cases identity with
  | anonymous => cases ran
  | client other => cases ran
  | storage storageId =>
      obtain ⟨response, server₁, responds, ended⟩ := bind_eq_ok.mp ran
      obtain ⟨rfl, rfl⟩ := EStateM.Result.ok.inj ended
      obtain ⟨clients, server₂, readClients, responds⟩ := bind_eq_ok.mp responds
      obtain ⟨rfl, rfl⟩ := EStateM.Result.ok.inj readClients
      obtain ⟨client, isClient, responds⟩ := lift_bind_eq_ok.mp responds
      obtain ⟨sameToken, responds⟩ := require_bind_eq_ok.mp responds
      obtain ⟨rfl, -⟩ := EStateM.Result.ok.inj responds
      obtain ⟨member, isId⟩ := Table.mem_of_find? (okOr_eq_ok.mp isClient)
      exact ⟨rfl, client, member, isId, sameToken⟩

/-! ## Recorded leases -/

/-- The row of a lease is in the tables. -/
def CentralTables.Records (tables : CentralTables) (lease : UpdateLease) : Prop :=
  ∃ now, leaseRow lease now lease.leaseId ∈ tables.updateLeases.rows

theorem records_of_beginUpdateTx {request : BeginUpdateRequest} {volumeId now : Nat}
    {lease : UpdateLease} {db db' : CentralDb}
    (ran : UpdateRequest.beginUpdateTx request volumeId now db = .ok lease db') :
    db'.1.Records lease := by
  obtain ⟨file, mid, -, -, rfl, -, after⟩ := UpdateRequest.beginUpdateTx_effect ran
  rw [after]
  exact ⟨now, mem_appended.mpr (.inr rfl)⟩

/-- A handler carries nothing, or a lease that was recorded. -/
def Handler.Carries (Recorded : UpdateLease → Prop) (handler : Handler) : Prop :=
  handler.CarriesPlain ∨ ∃ lease, handler.lease? = some lease ∧ Recorded lease

namespace Handler

variable {Recorded : UpdateLease → Prop} {config : CentralConfig} {inputs : Inputs}

theorem Carries.weaken {Later : UpdateLease → Prop} {handler : Handler}
    (carries : handler.Carries Recorded) (weaker : ∀ lease, Recorded lease → Later lease) :
    handler.Carries Later := by
  rcases carries with plain | ⟨lease, isLease, recorded⟩
  · exact .inl plain
  · exact .inr ⟨lease, isLease, weaker lease recorded⟩

theorem CarriesPlain.of_next {progress : Progress} {handler : Handler}
    (plain : progress.CarriesPlain)
    (goesOn : progress = .next handler ∨ ∃ identity, progress = .identify identity handler) :
    handler.CarriesPlain := by
  rcases goesOn with rfl | ⟨identity, rfl⟩
  · exact plain
  · exact plain

theorem grantLease_eq_ok {connection storageId : Nat} {identity : ControlConnectionIdentity}
    {lease : UpdateLease} {server server' : CentralServer} {progress : Progress}
    (ran : (grantLease storageId lease).resume config inputs connection identity server =
      .ok progress server') :
    progress = .next (.awaitGrant lease) ∨
      progress = .next (.dropLease lease.leaseId .notFound) := by
  obtain ⟨storages, server₁, -, ended⟩ := bind_eq_ok.mp ran
  cases found : storages.find? storageId with
  | none =>
      simp only [found] at ended
      exact .inr (EStateM.Result.ok.inj ended).1.symm
  | some storage =>
      simp only [found] at ended
      exact .inl (EStateM.Result.ok.inj ended).1.symm

theorem grantResult_eq_ok {lease : UpdateLease} {reply : Fs0Result GrantReply}
    (granted : grantResult lease reply = .ok ()) : reply = .ok (.granted lease.leaseId) := by
  cases reply with
  | error err => cases granted
  | ok reply =>
      cases reply with
      | granted leaseId =>
          by_cases same : leaseId = lease.leaseId
          · rw [same]
          · simp [grantResult, same, bind, Except.bind] at granted
      | refused err => cases granted
      | unexpected response => cases granted

theorem awaitGrant_eq_ok {connection : Nat} {identity : ControlConnectionIdentity}
    {lease : UpdateLease} {server server' : CentralServer} {progress : Progress}
    (ran : (awaitGrant lease).resume config inputs connection identity server =
      .ok progress server') :
    (progress = .respond (.beginUpdate lease) ∧
      inputs.grant = .ok (.granted lease.leaseId)) ∨
    ∃ err, progress = .next (.dropLease lease.leaseId err) := by
  cases result : grantResult lease inputs.grant with
  | ok granted =>
      simp only [Handler.resume, result] at ran
      exact .inl ⟨(EStateM.Result.ok.inj ran).1.symm, grantResult_eq_ok result⟩
  | error err =>
      simp only [Handler.resume, result] at ran
      exact .inr ⟨err, (EStateM.Result.ok.inj ran).1.symm⟩

/-- The lease a handler goes on with is the one it had, or has just been recorded. -/
theorem carries_of_resume {connection : Nat} {identity : ControlConnectionIdentity}
    {handler handler' : Handler} {server server' : CentralServer} {progress : Progress}
    (carries : handler.Carries Recorded)
    (ran : handler.resume config inputs connection identity server = .ok progress server')
    (goesOn : progress = .next handler' ∨ ∃ identity, progress = .identify identity handler') :
    handler'.Carries fun lease => Recorded lease ∨ server'.db.1.Records lease := by
  have plainly (plain : handler.CarriesPlain)
      (noValidation : ∀ clientId clientToken,
        handler ≠ .start (.validateClientAuth clientId clientToken))
      (noUpdate : ∀ request storageId volumeId,
        handler ≠ .beginUpdate request storageId volumeId) :
      handler'.Carries fun lease => Recorded lease ∨ server'.db.1.Records lease :=
    .inl (CarriesPlain.of_next (Handler.resume_carriesPlain config inputs connection identity plain
      noValidation noUpdate server progress server' ran) goesOn)
  cases handler with
  | start request =>
      by_cases validates : ∃ clientId clientToken,
          request = .validateClientAuth clientId clientToken
      · obtain ⟨clientId, clientToken, rfl⟩ := validates
        obtain ⟨rfl, -⟩ := validateClientAuth_eq_ok ran
        rcases goesOn with isNext | ⟨other, isIdentify⟩
        · cases isNext
        · cases isIdentify
      · refine plainly trivial ?_ (by simp)
        intro clientId clientToken same
        exact validates ⟨clientId, clientToken, Handler.start.inj same⟩
  | beginUpdate request storageId volumeId =>
      obtain ⟨lease, server₁, recorded, ended⟩ := bind_eq_ok.mp ran
      obtain ⟨rfl, rfl⟩ := EStateM.Result.ok.inj ended
      obtain ⟨-, db, body, rfl⟩ := CentralM.transact_eq_ok recorded
      rcases goesOn with isNext | ⟨other, isIdentify⟩
      · obtain rfl := Progress.next.inj isNext
        exact .inr ⟨lease, rfl, .inr (records_of_beginUpdateTx body)⟩
      · cases isIdentify
  | grantLease storageId lease =>
      rcases carries with plain | ⟨lease', isLease, recorded⟩
      · exact plain.elim
      obtain rfl := Option.some.inj isLease
      rcases grantLease_eq_ok ran with rfl | rfl
      · rcases goesOn with isNext | ⟨other, isIdentify⟩
        · obtain rfl := Progress.next.inj isNext
          exact .inr ⟨lease, rfl, .inl recorded⟩
        · cases isIdentify
      · have drops : (Progress.next (.dropLease lease.leaseId .notFound)).CarriesPlain := trivial
        exact .inl (CarriesPlain.of_next drops goesOn)
  | awaitGrant lease =>
      rcases awaitGrant_eq_ok ran with ⟨rfl, -⟩ | ⟨err, rfl⟩
      · rcases goesOn with isNext | ⟨other, isIdentify⟩
        · cases isNext
        · cases isIdentify
      · have drops : (Progress.next (.dropLease lease.leaseId err)).CarriesPlain := trivial
        exact .inl (CarriesPlain.of_next drops goesOn)
  | _ =>
      rcases carries with plain | ⟨lease, isLease, -⟩
      · exact plainly plain (by simp) (by simp)
      · cases isLease

/-- A handler validates a client by its row, and answers with a lease on a reply that grants
this lease. -/
theorem vouches_of_resume {connection : Nat} {identity : ControlConnectionIdentity}
    {handler : Handler} {server server' : CentralServer} {response : ControlResponse}
    (carries : handler.Carries Recorded)
    (ran : handler.resume config inputs connection identity server =
      .ok (.respond response) server') (vouches : ¬ response.Plain) :
    (∃ clientId token, handler = .start (.validateClientAuth clientId token) ∧
      response = .validateClientAuth clientId ∧
      ∃ client ∈ server.clients.rows, client.clientId = clientId ∧ client.token = token) ∨
    ∃ lease, handler = .awaitGrant lease ∧ response = .beginUpdate lease ∧
      inputs.grant = .ok (.granted lease.leaseId) ∧ Recorded lease := by
  have notPlain (plain : handler.CarriesPlain)
      (noValidation : ∀ clientId clientToken,
        handler ≠ .start (.validateClientAuth clientId clientToken))
      (noUpdate : ∀ request storageId volumeId,
        handler ≠ .beginUpdate request storageId volumeId) : False :=
    vouches (Handler.resume_carriesPlain config inputs connection identity plain noValidation
      noUpdate server _ server' ran)
  cases handler with
  | start request =>
      by_cases validates : ∃ clientId clientToken,
          request = .validateClientAuth clientId clientToken
      · obtain ⟨clientId, clientToken, rfl⟩ := validates
        obtain ⟨isResponse, known⟩ := validateClientAuth_eq_ok ran
        exact .inl ⟨clientId, clientToken, rfl, Progress.respond.inj isResponse, known⟩
      · refine (notPlain trivial ?_ (by simp)).elim
        intro clientId clientToken same
        exact validates ⟨clientId, clientToken, Handler.start.inj same⟩
  | beginUpdate request storageId volumeId =>
      obtain ⟨lease, server₁, recorded, ended⟩ := bind_eq_ok.mp ran
      cases (EStateM.Result.ok.inj ended).1
  | grantLease storageId lease =>
      rcases grantLease_eq_ok ran with isOther | isOther <;> cases isOther
  | awaitGrant lease =>
      rcases carries with plain | ⟨other, isLease, recorded⟩
      · exact plain.elim
      obtain rfl := Option.some.inj isLease
      rcases awaitGrant_eq_ok ran with ⟨isResponse, granted⟩ | ⟨err, isOther⟩
      · exact .inr ⟨lease, rfl, Progress.respond.inj isResponse, granted, recorded⟩
      · cases isOther
  | _ =>
      rcases carries with plain | ⟨other, isLease, -⟩
      · exact (notPlain plain (by simp) (by simp)).elim
      · cases isLease

end Handler

/-! ## Origins along a run -/

namespace Central

variable {config : CentralConfig} {s s' : Central} {e : CentralEvent}
  {ts : List (Transition Central CentralEvent)}

theorem running_of_handles {conn : ControlConnection} {handling : Handling}
    (found : s.connections.find? conn.connection = some conn)
    (handles : conn.handling = some handling) (inputs : Inputs) :
    s.running (.run conn.connection inputs) = some handling := by
  simp only [running, found, handles, Option.bind_some]

/-- The row of a lease was in the tables in one of the states of a run. -/
def Recorded (ts : List (Transition Central CentralEvent)) (s : Central) (lease : UpdateLease) :
    Prop :=
  ∃ x ∈ visited ts s, x.tables.Records lease

theorem Recorded.later {lease : UpdateLease} (recorded : Recorded ts s lease) :
    Recorded (⟨s, e, s'⟩ :: ts) s' lease := by
  obtain ⟨x, member, records⟩ := recorded
  exact ⟨x, List.mem_cons_of_mem _ member, records⟩

theorem Recorded.here {lease : UpdateLease} (records : s.tables.Records lease) :
    Recorded ts s lease := ⟨s, List.mem_cons_self, records⟩

/-- Every handler about to have a lease granted has recorded it. -/
theorem carries_of_run (run : (central config).Run ts s) :
    ∀ conn ∈ s.connections.rows, ∀ stream handler, conn.handling = some ⟨stream, handler⟩ →
      handler.Carries (Recorded ts s) := by
  induction run with
  | init initial =>
      obtain rfl := initial
      simp [Central.initial, SeqTable.empty]
  | @step ts s s' e run taken inductionHypothesis =>
      have earlier : ∀ conn ∈ s.connections.rows, ∀ stream handler,
          conn.handling = some ⟨stream, handler⟩ →
            handler.Carries (Recorded (⟨s, e, s'⟩ :: ts) s') := by
        intro conn member stream handler handles
        exact (inductionHypothesis conn member stream handler handles).weaken
          fun lease recorded => recorded.later
      cases step_cases taken with
      | connect =>
          intro other member
          rcases mem_appended.mp member with old | rfl
          · exact earlier other old
          · intro stream handler handles
            cases handles
      | restart => simp
      | connection conn found step =>
          have member := (Table.mem_of_find? found).1
          obtain ⟨conn', connections, handlerStep⟩ := handlerStep step
          intro other isOther stream handler handles
          rw [connections] at isOther
          rcases SeqTable.mem_replace isOther with rfl | ⟨old, -⟩
          · cases handlerStep with
            | idle handling => cases handling.symm.trans handles
            | same handling => exact earlier conn member stream handler (handling ▸ handles)
            | started stream' request handling =>
                obtain ⟨-, rfl⟩ := Handling.mk.inj (Option.some.inj (handling.symm.trans handles))
                exact .inl trivial
            | ran inputs stream' before after progress isRun isHandler result goesOn handling =>
                obtain ⟨-, rfl⟩ := Handling.mk.inj (Option.some.inj (handling.symm.trans handles))
                have carries := inductionHypothesis conn member stream' before isHandler
                refine (Handler.carries_of_resume carries result goesOn).weaken ?_
                rintro lease (recorded | records)
                · exact recorded.later
                · exact .here records
          · exact earlier other old stream handler handles

/-- Central asks a storage only for leases it has recorded. -/
theorem recorded_of_call (run : (central config).Run ts s) {call : ControlCall}
    (called : s.call e = some call) {request : GrantUploadLeaseRequest}
    (isGrant : call.request = .grantUploadLease request) :
    ∃ lease, request = lease.grant ∧ Recorded ts s lease := by
  obtain ⟨⟨stream, handler⟩, runs, isCall⟩ := Option.bind_eq_some_iff.mp called
  have handles : ∃ conn ∈ s.connections.rows, conn.handling = some ⟨stream, handler⟩ := by
    unfold running at runs
    split at runs
    · obtain ⟨conn, found, handles⟩ := Option.bind_eq_some_iff.mp runs
      exact ⟨conn, (Table.mem_of_find? found).1, handles⟩
    · cases runs
  obtain ⟨conn, member, handles⟩ := handles
  have carries := carries_of_run run conn member stream handler handles
  cases handler with
  | grantLease storageId lease =>
      obtain ⟨storage, -, rfl⟩ := Option.map_eq_some_iff.mp isCall
      rcases carries with plain | ⟨other, isLease, recorded⟩
      · exact plain.elim
      · obtain rfl := Option.some.inj isLease
        exact ⟨lease, (ControlRequest.grantUploadLease.inj isGrant).symm, recorded⟩
  | revokeLease storageId leaseId response =>
      obtain ⟨storage, -, rfl⟩ := Option.map_eq_some_iff.mp isCall
      cases isGrant
  | _ => cases isCall

/-- When central answers with a lease, a reply has granted this lease, which was recorded. -/
theorem granted_of_step (run : (central config).Run ts s)
    (taken : (central config).step s e = some s') {stream : Nat} {lease : UpdateLease}
    (answered : .answered stream (.control (.beginUpdate lease)) ∈ s'.exchanges) :
    .answered stream (.control (.beginUpdate lease)) ∈ s.exchanges ∨
      s.heard e = some (stream, .granted lease.leaseId) ∧ Recorded ts s lease := by
  rcases answered_of_step taken answered with before |
    ⟨conn, inputs, handler, found, rfl, handles, ran⟩
  · exact .inl before
  · have carries := carries_of_run run conn (Table.mem_of_find? found).1 stream handler handles
    rcases Handler.vouches_of_resume carries ran id with
      ⟨clientId, token, -, isOther, -⟩ | ⟨_, rfl, isLease, granted, recorded⟩
    · cases isOther
    obtain rfl := ControlResponse.beginUpdate.inj isLease
    refine .inr ⟨?_, recorded⟩
    have runs := running_of_handles found handles inputs
    simp only [heard, runs, granted]

theorem leaseIds_le (run : (central config).Run ts s) {x : Central} (member : x ∈ visited ts s)
    {row : UpdateLeaseRow} (isRow : row ∈ x.tables.updateLeases.rows) :
    row.leaseId ≤ s.tables.updateLeases.seq := by
  induction run with
  | init initial =>
      obtain rfl := List.mem_singleton.mp member
      exact x.tables.updateLeases.le_seq row isRow
  | @step ts s s' e run taken inductionHypothesis =>
      rcases List.mem_cons.mp member with rfl | before
      · exact x.tables.updateLeases.le_seq row isRow
      · exact (inductionHypothesis before).trans (step_lease_seq_le taken)

/-- A lease id stands for one row, whenever in a run it is looked up. -/
theorem leaseRow_once (run : (central config).Run ts s) {x y : Central}
    (first : x ∈ visited ts s) (second : y ∈ visited ts s) {row other : UpdateLeaseRow}
    (isRow : row ∈ x.tables.updateLeases.rows) (isOther : other ∈ y.tables.updateLeases.rows)
    (same : row.leaseId = other.leaseId) : row = other := by
  induction run generalizing x y with
  | init initial =>
      obtain rfl := List.mem_singleton.mp first
      obtain rfl := List.mem_singleton.mp second
      exact Table.eq_of_key_eq isRow isOther same
  | @step ts s s' e run taken inductionHypothesis =>
      -- A row after the step is one of the rows before it, or its number is new.
      have old : ∀ row ∈ s'.tables.updateLeases.rows, row ∈ s.tables.updateLeases.rows ∨
          s.tables.updateLeases.seq < row.leaseId := by
        intro row isRow
        by_cases known : row.leaseId ≤ s.tables.updateLeases.seq
        · exact .inl (step_leaseKept run.reachable taken isRow known).mem
        · exact .inr (Nat.lt_of_not_le known)
      have here : s ∈ visited ts s := List.mem_cons_self
      rcases List.mem_cons.mp first with rfl | firstBefore
      · rcases List.mem_cons.mp second with rfl | secondBefore
        · exact Table.eq_of_key_eq isRow isOther same
        · rcases old row isRow with before | isNew
          · exact inductionHypothesis here secondBefore before isOther
          · have known := leaseIds_le run secondBefore isOther
            omega
      · rcases List.mem_cons.mp second with rfl | secondBefore
        · rcases old other isOther with before | isNew
          · exact inductionHypothesis firstBefore here isRow before
          · have known := leaseIds_le run firstBefore isRow
            omega
        · exact inductionHypothesis firstBefore secondBefore isRow isOther

theorem recorded_once (run : (central config).Run ts s) {lease other : UpdateLease}
    (recorded : Recorded ts s lease) (isOther : Recorded ts s other)
    (same : lease.leaseId = other.leaseId) : lease = other := by
  obtain ⟨x, first, now, isRow⟩ := recorded
  obtain ⟨y, second, later, isLater⟩ := isOther
  have row := leaseRow_once run first second isRow isLater same
  obtain ⟨leaseId, fileId, volumeId, baseSize, offset, expiresAtMs, preferVolumeName⟩ := lease
  obtain ⟨leaseId', fileId', volumeId', baseSize', offset', expiresAtMs', preferVolumeName'⟩ :=
    other
  obtain ⟨rfl, rfl, rfl, rfl, rfl, rfl, rfl, -⟩ := UpdateLeaseRow.mk.inj row
  rfl

/-! ## Clients -/

/-- The requests that wait or are started arrived on the streams they are held on. -/
structure Arrived (s : Central) (conn : ControlConnection) : Prop where
  waiting : ∀ task ∈ conn.waiting, .arrived task.stream task.request ∈ s.exchanges
  started : ∀ stream request, conn.handling = some ⟨stream, .start request⟩ →
    .arrived stream (.control request) ∈ s.exchanges

theorem exchanges_of_step (taken : (central config).step s e = some s') {message : Exchange}
    (member : message ∈ s.exchanges) : message ∈ s'.exchanges := by
  cases exchangeStep taken with
  | silent noReceive streams exchanges => exact exchanges ▸ member
  | arrival c request isReceive streams exchanges =>
      rw [exchanges]
      exact List.mem_cons_of_mem _ member
  | response stream response noReceive streams responds exchanges =>
      rw [exchanges]
      exact List.mem_cons_of_mem _ member

/-- What arrived on a stream has a number below the counter, and is the only one of its number. -/
theorem arrived_once (run : (central config).Run ts s) {stream : Nat} {request : ProtocolRequest}
    (arrived : .arrived stream request ∈ s.exchanges) :
    stream < s.streams ∧ ∀ another, .arrived stream another ∈ s.exchanges → another = request := by
  induction run generalizing request with
  | init initial =>
      obtain rfl := initial
      cases arrived
  | @step ts s s' e run taken inductionHypothesis =>
      have unchanged (streams : s'.streams = s.streams)
          (before : ∀ another, .arrived stream another ∈ s'.exchanges →
            .arrived stream another ∈ s.exchanges) :
          stream < s'.streams ∧ ∀ another, .arrived stream another ∈ s'.exchanges → another = request := by
        obtain ⟨below, unique⟩ := inductionHypothesis (before request arrived)
        exact ⟨streams ▸ below, fun another isOther => unique another (before another isOther)⟩
      cases exchangeStep taken with
      | arrival c received isReceive streams exchanges =>
          rw [exchanges] at arrived
          rw [streams, exchanges]
          rcases List.mem_cons.mp arrived with isNew | old
          · obtain ⟨rfl, rfl⟩ := Exchange.arrived.inj isNew
            refine ⟨Nat.lt_succ_self _, ?_⟩
            intro another isOther
            rcases List.mem_cons.mp isOther with same | before
            · exact (Exchange.arrived.inj same).2
            · exact absurd (inductionHypothesis before).1 (Nat.lt_irrefl _)
          · obtain ⟨below, unique⟩ := inductionHypothesis old
            refine ⟨Nat.lt_succ_of_lt below, ?_⟩
            intro another isOther
            rcases List.mem_cons.mp isOther with same | before
            · obtain ⟨rfl, -⟩ := Exchange.arrived.inj same
              exact absurd below (Nat.lt_irrefl _)
            · exact unique another before
      | silent noReceive streams exchanges =>
          exact unchanged streams fun another isOther => exchanges ▸ isOther
      | response answered response noReceive streams responds exchanges =>
          refine unchanged streams fun another isOther => ?_
          rw [exchanges] at isOther
          rcases List.mem_cons.mp isOther with same | old
          · exact absurd same.symm reply_ne_arrived
          · exact old

namespace Arrived

variable {conn conn' : ControlConnection}

/-- A connection that holds no more requests than before. -/
theorem less (arrived : Arrived s conn)
    (kept : ∀ message ∈ s.exchanges, message ∈ s'.exchanges)
    (waiting : ∀ task ∈ conn'.waiting, task ∈ conn.waiting)
    (started : ∀ stream request, conn'.handling = some ⟨stream, .start request⟩ →
      conn.handling = some ⟨stream, .start request⟩) : Arrived s' conn' where
  waiting task member := kept _ (arrived.waiting task (waiting task member))
  started stream request starts := kept _ (arrived.started stream request (started _ _ starts))

end Arrived

theorem arrived_of_step {conn : ControlConnection} (step : ConnectionStep config s conn e s')
    (kept : ∀ message ∈ s.exchanges, message ∈ s'.exchanges) (arrived : Arrived s conn) :
    ∃ conn', s'.connections = s.connections.replace conn' ∧ Arrived s' conn' := by
  have advanced {stream : Nat} {handler : Handler} (advances : (Progress.next handler).Advances) :
      ∀ stream' request, some (⟨stream, handler⟩ : Handling) = some ⟨stream', .start request⟩ →
        conn.handling = some ⟨stream', .start request⟩ := by
    intro stream' request same
    obtain ⟨-, rfl⟩ := Handling.mk.inj (Option.some.inj same)
    exact advances.elim
  cases step with
  | receive request accepting =>
      refine ⟨_, rfl, ?_, fun stream request starts => kept _ (arrived.started _ _ starts)⟩
      intro task member
      rcases List.mem_cons.mp member with rfl | before
      · exact List.mem_cons_self
      · exact kept _ (arrived.waiting task before)
  | start stream request waits unlocked =>
      refine ⟨_, rfl, ?_, ?_⟩
      · exact fun task member => kept _ (arrived.waiting task (withoutTask_waiting _ _ task member))
      · intro stream' request' starts
        obtain ⟨rfl, isStart⟩ := Handling.mk.inj (Option.some.inj starts)
        obtain rfl := Handler.start.inj isStart
        exact kept _ (arrived.waiting _ waits)
  | refuse stream waits unlocked =>
      exact ⟨_, rfl, arrived.less kept (withoutTask_waiting _ _) (by simp)⟩
  | next inputs stream handler handler' server handles ran =>
      exact ⟨_, rfl, arrived.less kept (fun _ => id)
        (advanced (handler.resume_advances config inputs _ _ _ _ _ ran))⟩
  | identify inputs stream handler handler' identity server handles ran =>
      refine ⟨_, rfl, arrived.less kept (fun _ => id) (advanced ?_)⟩
      have advances := handler.resume_advances config inputs _ _ _ _ _ ran
      cases handler' <;> trivial
  | respond inputs stream handler response server handles ran =>
      exact ⟨_, rfl, arrived.less kept (fun _ => id) (by simp)⟩
  | fail inputs stream handler err server handles ran =>
      exact ⟨_, rfl, arrived.less kept (fun _ => id) (by simp)⟩
  | acceptEnds accepting => exact ⟨_, rfl, arrived.less kept (fun _ => id) fun _ _ => id⟩
  | dropWaiting stream ended =>
      exact ⟨_, rfl, arrived.less kept (withoutTask_waiting _ _) fun _ _ => id⟩
  | abortHandler stream handler ended handles awaits =>
      exact ⟨_, rfl, arrived.less kept (fun _ => id) (by simp)⟩
  | unregister ending idle =>
      have less : ∀ phase, Arrived (s.unregister conn) { conn with phase := phase } :=
        fun phase => arrived.less kept (fun _ => id) fun _ _ => id
      unfold unregister at less ⊢
      cases identity : conn.identity <;> rw [identity] at less <;> exact ⟨_, rfl, less _⟩
  | unmount storageId unmounting => exact ⟨_, rfl, arrived.less kept (fun _ => id) fun _ _ => id⟩
  | finish unregistered => exact ⟨_, rfl, arrived.less kept (fun _ => id) fun _ _ => id⟩

theorem arrived_of_run (run : (central config).Run ts s) :
    ∀ conn ∈ s.connections.rows, Arrived s conn := by
  induction run with
  | init initial =>
      obtain rfl := initial
      simp [Central.initial, SeqTable.empty]
  | @step ts s s' e run taken inductionHypothesis =>
      have kept : ∀ message ∈ s.exchanges, message ∈ s'.exchanges :=
        fun _ member => exchanges_of_step taken member
      have earlier : ∀ conn ∈ s.connections.rows, Arrived s' conn := fun conn member =>
        (inductionHypothesis conn member).less kept (fun _ => id) fun _ _ => id
      intro other member
      cases step_cases taken with
      | connect =>
          rcases mem_appended.mp member with old | rfl
          · exact earlier other old
          · exact ⟨by simp [ControlConnection.new], by simp [ControlConnection.new]⟩
      | restart => simp at member
      | connection conn found step =>
          obtain ⟨conn', connections, arrived⟩ := arrived_of_step step kept
            (inductionHypothesis conn (Table.mem_of_find? found).1)
          rw [connections] at member
          rcases SeqTable.mem_replace member with rfl | ⟨old, -⟩
          · exact arrived
          · exact earlier other old

/-- A client was registered with a token in one of the states of a run. -/
def Knew (ts : List (Transition Central CentralEvent)) (s : Central) (clientId : Nat)
    (token : String) : Prop :=
  ∃ x ∈ visited ts s, ∃ client ∈ x.server.clients.rows,
    client.clientId = clientId ∧ client.token = token

/-- Central has validated only clients that were registered with the token asked about. -/
theorem validated_of_run (run : (central config).Run ts s) {stream clientId : Nat}
    (answered : .answered stream (.control (.validateClientAuth clientId)) ∈ s.exchanges) :
    ∃ token, .arrived stream (.control (.validateClientAuth clientId token)) ∈ s.exchanges ∧
      Knew ts s clientId token := by
  induction run with
  | init initial =>
      obtain rfl := initial
      cases answered
  | @step ts s s' e run taken inductionHypothesis =>
      rcases answered_of_step taken answered with before |
        ⟨conn, inputs, handler, found, rfl, handles, ran⟩
      · obtain ⟨token, arrived, x, member, knew⟩ := inductionHypothesis before
        exact ⟨token, exchanges_of_step taken arrived, x, List.mem_cons_of_mem _ member, knew⟩
      · have member := (Table.mem_of_find? found).1
        have carries := carries_of_run run conn member stream handler handles
        rcases Handler.vouches_of_resume carries ran id with
          ⟨_, token, rfl, isClient, known⟩ | ⟨lease, -, isOther, -⟩
        · obtain rfl := ControlResponse.validateClientAuth.inj isClient
          have arrived := (arrived_of_run run conn member).started stream _ handles
          exact ⟨token, exchanges_of_step taken arrived, s,
            List.mem_cons_of_mem _ List.mem_cons_self, known⟩
        · cases isOther

end Central

end Fs0
