import Fs0.Central.Runs

/-!
Contract: the steps of central, one constructor for each thing an event can do.

Owns:
- the inversion of an event into the step of the connection it is about;
- the rule that carries a property of single connections along the runs;
- that every request that waits or is started was received.

Does not own: what the sections of the handlers do.
-/

set_option autoImplicit false

namespace Fs0

open Lib

namespace Central

variable {config : CentralConfig} {s s' : Central} {e : CentralEvent}

/-- Takes a task off the list of those that wait for the identity. -/
def withoutTask (conn : ControlConnection) (stream : Nat) : ControlConnection :=
  { conn with waiting := conn.waiting.filter fun task => task.stream ≠ stream }

/-- What an event on a connection does. -/
inductive ConnectionStep (config : CentralConfig) (s : Central) (conn : ControlConnection) :
    CentralEvent → Central → Prop where
  | receive (request : ProtocolRequest) (accepting : conn.phase = .accepting) :
      ConnectionStep config s conn (.receive conn.connection request)
        (({ s with streams := s.streams + 1 }.setConnection
          { conn with waiting := ⟨s.streams, request⟩ :: conn.waiting }).exchange
            (.arrived s.streams request))
  | start (stream : Nat) (request : ControlRequest)
      (waits : ⟨stream, .control request⟩ ∈ conn.waiting) (unlocked : conn.unlocked) :
      ConnectionStep config s conn (.lockIdentity conn.connection stream)
        (s.setConnection { withoutTask conn stream with
          handling := some ⟨stream, .start request⟩ })
  | refuse (stream : Nat) (waits : ⟨stream, .other⟩ ∈ conn.waiting) (unlocked : conn.unlocked) :
      ConnectionStep config s conn (.lockIdentity conn.connection stream)
        (s.answer config (withoutTask conn stream) stream (.error .invalidRequest))
  | next (inputs : Inputs) (stream : Nat) (handler handler' : Handler) (server : CentralServer)
      (handles : conn.handling = some ⟨stream, handler⟩)
      (ran : handler.resume config inputs conn.connection conn.identity s.server =
        .ok (.next handler') server) :
      ConnectionStep config s conn (.run conn.connection inputs)
        ({ s with server := server }.setConnection
          { conn with handling := some ⟨stream, handler'⟩ })
  | identify (inputs : Inputs) (stream : Nat) (handler handler' : Handler)
      (identity : ControlConnectionIdentity) (server : CentralServer)
      (handles : conn.handling = some ⟨stream, handler⟩)
      (ran : handler.resume config inputs conn.connection conn.identity s.server =
        .ok (.identify identity handler') server) :
      ConnectionStep config s conn (.run conn.connection inputs)
        ({ s with server := server }.setConnection
          { conn with identity := identity, handling := some ⟨stream, handler'⟩ })
  | respond (inputs : Inputs) (stream : Nat) (handler : Handler) (response : ControlResponse)
      (server : CentralServer) (handles : conn.handling = some ⟨stream, handler⟩)
      (ran : handler.resume config inputs conn.connection conn.identity s.server =
        .ok (.respond response) server) :
      ConnectionStep config s conn (.run conn.connection inputs)
        ({ s with server := server }.answer config conn stream (.control response))
  | fail (inputs : Inputs) (stream : Nat) (handler : Handler) (err : Fs0Error)
      (server : CentralServer) (handles : conn.handling = some ⟨stream, handler⟩)
      (ran : handler.resume config inputs conn.connection conn.identity s.server =
        .error err server) :
      ConnectionStep config s conn (.run conn.connection inputs)
        ({ s with server := server }.answer config conn stream (.error err))
  | acceptEnds (accepting : conn.phase = .accepting) :
      ConnectionStep config s conn (.acceptEnds conn.connection)
        (s.setConnection { conn with phase := .ending })
  | dropWaiting (stream : Nat) (ended : conn.phase ≠ .accepting) :
      ConnectionStep config s conn (.dropWaiting conn.connection stream)
        (s.setConnection (withoutTask conn stream))
  | abortHandler (stream : Nat) (handler : Handler) (ended : conn.phase ≠ .accepting)
      (handles : conn.handling = some ⟨stream, handler⟩) (awaits : handler.awaits) :
      ConnectionStep config s conn (.abortHandler conn.connection)
        (s.setConnection { conn with handling := none })
  | unregister (ending : conn.phase = .ending) (idle : conn.handling = none) :
      ConnectionStep config s conn (.unregister conn.connection) (s.unregister conn)
  | unmount (storageId : Nat) (unmounting : conn.phase = .unmounting storageId) :
      ConnectionStep config s conn (.unmount conn.connection)
        ({ s with server := s.server.unmountStorage storageId }.setConnection
          { conn with phase := .unregistered })
  | finish (unregistered : conn.phase = .unregistered) :
      ConnectionStep config s conn (.finish conn.connection)
        (s.setConnection { conn with phase := .finished })

/-- Every event connects, restarts, or is a step of one connection. -/
inductive Stepped (config : CentralConfig) (s : Central) : CentralEvent → Central → Prop where
  | connect : Stepped config s .connect
      { s with connections := s.connections.push .new fun _ => rfl }
  | restart : Stepped config s .restart
      { s with
        server := CentralServer.run (s.server.db.1, .new)
        connections := s.connections.delete fun _ => true }
  | connection (conn : ControlConnection) {e : CentralEvent} {s' : Central}
      (found : s.connections.find? conn.connection = some conn)
      (step : ConnectionStep config s conn e s') : Stepped config s e s'

theorem step_cases (taken : (central config).step s e = some s') : Stepped config s e s' := by
  have known : ∀ {c conn}, s.connections.find? c = some conn → conn.connection = c :=
    fun found => (Table.mem_of_find? found).2
  cases e with
  | connect =>
      obtain rfl := Option.some.inj taken
      exact .connect
  | restart =>
      obtain rfl := Option.some.inj taken
      exact .restart
  | receive c request =>
      obtain ⟨conn, found, rest⟩ := Option.bind_eq_some_iff.mp taken
      obtain rfl := known found
      split at rest
      next accepting =>
        obtain rfl := Option.some.inj rest
        exact .connection conn found (.receive request accepting)
      · cases rest
  | lockIdentity c stream =>
      obtain ⟨conn, found, rest⟩ := Option.bind_eq_some_iff.mp taken
      obtain rfl := known found
      obtain ⟨⟨stream', request⟩, waits, locked⟩ := Option.bind_eq_some_iff.mp rest
      have isStream : stream' = stream := by simpa using List.find?_some waits
      subst isStream
      have member := List.mem_of_find?_eq_some waits
      split at locked
      next unlocked =>
        obtain rfl := Option.some.inj locked
        cases request with
        | control request => exact .connection conn found (.start stream' request member unlocked)
        | other => exact .connection conn found (.refuse stream' member unlocked)
      · cases locked
  | run c inputs =>
      obtain ⟨conn, found, rest⟩ := Option.bind_eq_some_iff.mp taken
      obtain rfl := known found
      obtain ⟨⟨stream, handler⟩, handles, rfl⟩ := Option.map_eq_some_iff.mp rest
      refine .connection conn found ?_
      dsimp only
      cases ran : handler.resume config inputs conn.connection conn.identity s.server with
      | ok progress server =>
          cases progress with
          | next handler' => exact .next inputs stream handler handler' server handles ran
          | identify identity handler' =>
              exact .identify inputs stream handler handler' identity server handles ran
          | respond response => exact .respond inputs stream handler response server handles ran
      | error err server => exact .fail inputs stream handler err server handles ran
  | acceptEnds c =>
      obtain ⟨conn, found, rest⟩ := Option.bind_eq_some_iff.mp taken
      obtain rfl := known found
      split at rest
      next accepting =>
        obtain rfl := Option.some.inj rest
        exact .connection conn found (.acceptEnds accepting)
      · cases rest
  | dropWaiting c stream =>
      obtain ⟨conn, found, rest⟩ := Option.bind_eq_some_iff.mp taken
      obtain rfl := known found
      split at rest
      next ended =>
        obtain rfl := Option.some.inj rest
        exact .connection conn found (.dropWaiting stream ended)
      · cases rest
  | abortHandler c =>
      obtain ⟨conn, found, rest⟩ := Option.bind_eq_some_iff.mp taken
      obtain rfl := known found
      obtain ⟨⟨stream, handler⟩, handles, rest⟩ := Option.bind_eq_some_iff.mp rest
      split at rest
      next aborts =>
        obtain rfl := Option.some.inj rest
        exact .connection conn found (.abortHandler stream handler aborts.1 handles aborts.2)
      · cases rest
  | unregister c =>
      obtain ⟨conn, found, rest⟩ := Option.bind_eq_some_iff.mp taken
      obtain rfl := known found
      split at rest
      next ends =>
        obtain rfl := Option.some.inj rest
        exact .connection conn found (.unregister ends.1 ends.2)
      · cases rest
  | unmount c =>
      obtain ⟨conn, found, rest⟩ := Option.bind_eq_some_iff.mp taken
      obtain rfl := known found
      split at rest
      next storageId unmounting =>
        obtain rfl := Option.some.inj rest
        exact .connection conn found (.unmount storageId unmounting)
      · cases rest
  | finish c =>
      obtain ⟨conn, found, rest⟩ := Option.bind_eq_some_iff.mp taken
      obtain rfl := known found
      split at rest
      next unregistered =>
        obtain rfl := Option.some.inj rest
        exact .connection conn found (.finish unregistered)
      · cases rest

end Central

/-! ## Sections and their ends -/

/-- A handler that registers under an id it has drawn. -/
def Handler.Registers : Handler → Prop
  | .insertClient _ _ => True
  | .clientInserted _ => True
  | .mountVolumes _ => True
  | .insertStorage _ => True
  | .storageInserted _ => True
  | _ => False

/-- A handler between two steps of a registration that can no longer fail. -/
def Handler.Bound : Handler → Prop
  | .insertClient _ _ => True
  | .clientInserted _ => True
  | .insertStorage _ => True
  | .storageInserted _ => True
  | _ => False

/-- A section does not go back to the start of a request. -/
def Progress.Advances : Progress → Prop
  | .next (.start _) => False
  | .identify _ (.start _) => False
  | _ => True

/-- A section that is not part of a registration does not go on to register either. -/
def Progress.Plain : Progress → Prop
  | .next handler => (Progress.next handler).Advances ∧ ¬ handler.Registers
  | .identify _ _ => False
  | .respond _ => True

theorem Progress.Plain.advances {progress : Progress} (plain : progress.Plain) :
    progress.Advances := by
  cases progress with
  | next handler => exact plain.1
  | identify identity handler => exact plain.elim
  | respond response => trivial

/-- Whatever a section ends with has a property. -/
def CentralM.Yields (P : Progress → Prop) (m : CentralM Progress) : Prop :=
  ∀ server progress server', m server = .ok progress server' → P progress

namespace CentralM

variable {P : Progress → Prop} {α : Type}

theorem Yields.pure {progress : Progress} (holds : P progress) :
    Yields P (Pure.pure progress : CentralM Progress) := by
  intro server progress' server' ran
  obtain ⟨rfl, -⟩ := EStateM.Result.ok.inj ran
  exact holds

theorem Yields.weaken {Q : Progress → Prop} {m : CentralM Progress} (yields : Yields P m)
    (weaker : ∀ progress, P progress → Q progress) : Yields Q m :=
  fun server progress server' ran => weaker progress (yields server progress server' ran)

theorem Yields.throw (err : Fs0Error) :
    Yields P (MonadExcept.throw err : CentralM Progress) := by
  intro server progress' server' ran
  cases ran

theorem Yields.bind {m : CentralM α} {f : α → CentralM Progress} (rest : ∀ a, Yields P (f a)) :
    Yields P (m >>= f) := by
  intro server progress server' ran
  obtain ⟨a, server₁, -, ran⟩ := Fallible.bind_eq_ok.mp ran
  exact rest a server₁ progress server' ran

end CentralM

section Sections

open CentralM

variable (config : CentralConfig) (inputs : Inputs)

theorem next_plain {handler : Handler} (advances : (Progress.next handler).Advances)
    (registers : ¬ handler.Registers) :
    Yields Progress.Plain (Pure.pure (.next handler)) :=
  Yields.pure ⟨advances, registers⟩

theorem responding_plain (m : CentralM ControlResponse) : Yields Progress.Plain (responding m) :=
  Yields.bind fun _ => Yields.pure trivial

theorem revokeIfOnline_plain (storageId : Option Nat) (leaseId : Nat)
    (response : ControlResponse) :
    Yields Progress.Plain (Pure.pure (revokeIfOnline storageId leaseId response)) := by
  cases storageId with
  | none => exact Yields.pure trivial
  | some storageId => exact next_plain trivial id

theorem handleClientRequest_plain (request : ControlRequest) :
    Yields Progress.Plain (handleClientRequest config inputs request) := by
  cases request with
  | centralStatus => exact Yields.bind fun _ => next_plain trivial id
  | getFileReadPlan path => exact Yields.bind fun _ => next_plain trivial id
  | deleteFile path => exact Yields.bind fun _ => next_plain trivial id
  | copyFile sourcePath targetPath => exact Yields.bind fun _ => next_plain trivial id
  | renameFile sourcePath targetPath => exact Yields.bind fun _ => next_plain trivial id
  | beginUpdate request => exact Yields.bind fun _ => next_plain trivial id
  | commitUpdate request => exact Yields.bind fun _ => next_plain trivial id
  | abortUpdate leaseId fileId => exact Yields.bind fun _ => revokeIfOnline_plain _ _ _
  | createVolume name maxBytes => exact responding_plain _
  | listDirectory dir limit cursor => exact responding_plain _
  | getFileReadPlanById fileId => exact responding_plain _
  | hasBundle bundleId volumeId => exact responding_plain _
  | deleteFileById fileId => exact responding_plain _
  | copyFileById sourceFileId targetPath => exact responding_plain _
  | renameFileById fileId targetPath => exact responding_plain _
  | getFileChangeLogs afterEventId limit => exact responding_plain _
  | _ => exact Yields.throw _

theorem handleStorageRequest_plain (storageId : Nat) (request : ControlRequest) :
    Yields Progress.Plain (handleStorageRequest inputs storageId request) := by
  cases request with
  | createVolume name maxBytes => exact responding_plain _
  | validateClientAuth clientId clientToken => exact responding_plain _
  | reportBundleReplica events => exact responding_plain _
  | updateStorageEndpoint requestStorageId irohEndpoint =>
      exact Yields.bind fun _ => Yields.bind fun _ => next_plain trivial id
  | updateStorageVolumeOffset volumeId maxVolumeOffset =>
      exact Yields.bind fun _ => next_plain trivial id
  | _ => exact Yields.throw _

/-- The sections of a handler that is past the start and registers nothing. -/
theorem Handler.resume_plain (connection : Nat) (identity : ControlConnectionIdentity)
    (handler : Handler) (notStart : ∀ request, handler ≠ .start request)
    (notNumbering : ∀ name volumes irohEndpoint,
      handler ≠ .volumesRegistered name volumes irohEndpoint)
    (registers : ¬ handler.Registers) :
    Yields Progress.Plain (handler.resume config inputs connection identity) := by
  cases handler with
  | start request => exact absurd rfl (notStart request)
  | volumesRegistered name volumes irohEndpoint => exact absurd rfl (notNumbering _ _ _)
  | insertClient clientId token => exact absurd trivial registers
  | clientInserted clientId => exact absurd trivial registers
  | mountVolumes peer => exact absurd trivial registers
  | insertStorage peer => exact absurd trivial registers
  | storageInserted storageId => exact absurd trivial registers
  | centralStatus clientsCount => exact Yields.bind fun _ => Yields.pure trivial
  | getFileReadPlanById fileId => exact responding_plain _
  | deleteFileById fileId => exact responding_plain _
  | copyFileById sourceFileId targetPath => exact responding_plain _
  | renameFileById fileId targetPath => exact responding_plain _
  | beginUpdate request storageId volumeId => exact Yields.bind fun _ => next_plain trivial id
  | grantLease storageId lease =>
      apply Yields.bind
      intro storages
      cases storages.find? storageId <;> exact next_plain trivial id
  | awaitGrant lease =>
      simp only [Handler.resume]
      cases grantResult lease inputs.grant with
      | ok granted => exact Yields.pure trivial
      | error err => exact next_plain trivial id
  | dropLease leaseId err => exact Yields.bind fun _ => Yields.throw _
  | commitUpdate request storageId => exact Yields.bind fun _ => revokeIfOnline_plain _ _ _
  | revokeLease storageId leaseId response =>
      apply Yields.bind
      intro storages
      cases storages.find? storageId with
      | none => exact Yields.pure trivial
      | some storage => exact next_plain trivial id
  | awaitRevoke response => exact Yields.pure trivial
  | storeVolumeOffset storageId volumeId registered => exact responding_plain _
  | broadcast response => exact Yields.pure trivial
  | answer response => exact Yields.pure trivial

theorem handleControlRequest_advances (identity : ControlConnectionIdentity)
    (request : ControlRequest) :
    Yields Progress.Advances (handleControlRequest config inputs identity request) := by
  rcases handleControlRequest_dispatch config inputs identity request with
    ⟨name, token, version, rfl⟩ | ⟨name, token, version, volumes, irohEndpoint, rfl⟩ |
    ⟨handled, -⟩
  · exact Yields.bind fun _ => Yields.bind fun _ => Yields.bind fun _ => Yields.pure trivial
  · exact Yields.bind fun _ => Yields.bind fun _ => Yields.bind fun _ => Yields.pure trivial
  · rw [handled]
    cases identity with
    | anonymous => exact Yields.throw _
    | client clientId =>
        exact (handleClientRequest_plain config inputs request).weaken fun _ => Progress.Plain.advances
    | storage storageId =>
        exact (handleStorageRequest_plain inputs storageId request).weaken
          fun _ => Progress.Plain.advances

theorem Handler.resume_advances (connection : Nat) (identity : ControlConnectionIdentity)
    (handler : Handler) :
    Yields Progress.Advances (handler.resume config inputs connection identity) := by
  cases handler with
  | start request => exact handleControlRequest_advances config inputs identity request
  | volumesRegistered name volumes irohEndpoint => exact Yields.bind fun _ => Yields.pure trivial
  | insertClient clientId token => exact Yields.bind fun _ => Yields.pure trivial
  | clientInserted clientId => exact Yields.bind fun _ => Yields.pure trivial
  | mountVolumes peer => exact Yields.bind fun _ => Yields.pure trivial
  | insertStorage peer => exact Yields.bind fun _ => Yields.pure trivial
  | storageInserted storageId => exact Yields.bind fun _ => Yields.pure trivial
  | _ =>
      refine Yields.weaken (Handler.resume_plain config inputs connection identity _ ?_ ?_ ?_)
        fun _ => Progress.Plain.advances
      · intro request same
        cases same
      · intro name volumes irohEndpoint same
        cases same
      · exact id

end Sections

/-! ## Requests -/

/-- Every request a connection still has to handle has a property. -/
structure ControlConnection.Holds (P : ProtocolRequest → Prop) (conn : ControlConnection) :
    Prop where
  waiting : ∀ task ∈ conn.waiting, P task.request
  started : ∀ stream request, conn.handling = some ⟨stream, .start request⟩ →
    P (.control request)

namespace Central

variable {config : CentralConfig} {s s' : Central} {e : CentralEvent}
  {P : ProtocolRequest → Prop} {conn : ControlConnection}

theorem holds_new (c : Nat) : (ControlConnection.new c).Holds P where
  waiting := by simp [ControlConnection.new]
  started := by simp [ControlConnection.new]

theorem holds_of_idle (holds : conn.Holds P) {conn' : ControlConnection}
    (waiting : ∀ task ∈ conn'.waiting, task ∈ conn.waiting)
    (handling : conn'.handling = conn.handling ∨ conn'.handling = none) : conn'.Holds P where
  waiting task member := holds.waiting task (waiting task member)
  started stream request starts := by
    rcases handling with same | none
    · exact holds.started stream request (same ▸ starts)
    · rw [none] at starts
      cases starts

theorem holds_of_advances (holds : conn.Holds P) {conn' : ControlConnection} {stream : Nat}
    {handler : Handler} (waiting : conn'.waiting = conn.waiting)
    (handling : conn'.handling = some ⟨stream, handler⟩)
    (advances : (Progress.next handler).Advances) : conn'.Holds P where
  waiting task member := holds.waiting task (waiting ▸ member)
  started stream' request starts := by
    rw [handling] at starts
    obtain rfl := (Handling.mk.inj (Option.some.inj starts)).2
    exact advances.elim

theorem withoutTask_waiting (conn : ControlConnection) (stream : Nat) :
    ∀ task ∈ (withoutTask conn stream).waiting, task ∈ conn.waiting :=
  fun _ member => (List.mem_filter.mp member).1

/-- A step hands on the requests a connection holds, and adds the one it receives. -/
theorem holds_of_step (step : ConnectionStep config s conn e s') (holds : conn.Holds P)
    (received : ∀ request, e = .receive conn.connection request → P request) :
    ∃ conn', s'.connections = s.connections.replace conn' ∧ conn'.Holds P := by
  cases step with
  | receive request accepting =>
      refine ⟨_, rfl, ?_, holds.started⟩
      intro task member
      rcases List.mem_cons.mp member with rfl | member
      · exact received request rfl
      · exact holds.waiting task member
  | start stream request waits unlocked =>
      refine ⟨_, rfl, fun task member => holds.waiting task (withoutTask_waiting _ _ task member), ?_⟩
      intro stream' request' starts
      obtain ⟨-, isStart⟩ := Handling.mk.inj (Option.some.inj starts)
      obtain rfl := Handler.start.inj isStart
      exact holds.waiting _ waits
  | refuse stream waits unlocked =>
      exact ⟨_, rfl, holds_of_idle holds (withoutTask_waiting _ _) (.inr rfl)⟩
  | next inputs stream handler handler' server handles ran =>
      have advances := handler.resume_advances config inputs _ _ _ _ _ ran
      exact ⟨_, rfl, holds_of_advances holds rfl rfl advances⟩
  | identify inputs stream handler handler' identity server handles ran =>
      have advances := handler.resume_advances config inputs _ _ _ _ _ ran
      refine ⟨_, rfl, holds_of_advances holds rfl rfl ?_⟩
      cases handler' <;> trivial
  | respond inputs stream handler response server handles ran =>
      exact ⟨_, rfl, holds_of_idle holds (fun _ => id) (.inr rfl)⟩
  | fail inputs stream handler err server handles ran =>
      exact ⟨_, rfl, holds_of_idle holds (fun _ => id) (.inr rfl)⟩
  | acceptEnds accepting => exact ⟨_, rfl, holds_of_idle holds (fun _ => id) (.inl rfl)⟩
  | dropWaiting stream ended =>
      exact ⟨_, rfl, holds_of_idle holds (withoutTask_waiting _ _) (.inl rfl)⟩
  | abortHandler stream handler ended handles awaits =>
      exact ⟨_, rfl, holds_of_idle holds (fun _ => id) (.inr rfl)⟩
  | unregister ending idle =>
      unfold unregister
      cases conn.identity with
      | anonymous => exact ⟨_, rfl, holds_of_idle holds (fun _ => id) (.inl rfl)⟩
      | client clientId => exact ⟨_, rfl, holds_of_idle holds (fun _ => id) (.inl rfl)⟩
      | storage storageId => exact ⟨_, rfl, holds_of_idle holds (fun _ => id) (.inl rfl)⟩
  | unmount storageId unmounting =>
      exact ⟨_, rfl, holds_of_idle holds (fun _ => id) (.inl rfl)⟩
  | finish unregistered => exact ⟨_, rfl, holds_of_idle holds (fun _ => id) (.inl rfl)⟩

/-- When every request received has a property, so has every request that is held. -/
theorem holds_of_run {ts : List (Transition Central CentralEvent)}
    (run : (central config).Run ts s)
    (received : ∀ t ∈ ts, ∀ c request, t.event = .receive c request → P request) :
    ∀ conn ∈ s.connections.rows, conn.Holds P := by
  induction run with
  | init initial =>
      obtain rfl := initial
      simp [Central.initial, SeqTable.empty]
  | @step ts s s' e run taken inductionHypothesis =>
      have earlier := inductionHypothesis fun t member => received t (List.mem_cons_of_mem _ member)
      intro other member
      cases step_cases taken with
      | connect =>
          rcases mem_appended.mp member with old | rfl
          · exact earlier other old
          · exact holds_new _
      | restart => simp at member
      | connection conn found step =>
          obtain ⟨conn', connections, holds⟩ := holds_of_step step
            (earlier conn (Table.mem_of_find? found).1)
            fun request isReceive => received _ List.mem_cons_self _ request isReceive
          rw [connections] at member
          rcases SeqTable.mem_replace member with rfl | ⟨old, -⟩
          · exact holds
          · exact earlier other old

end Central

end Fs0
