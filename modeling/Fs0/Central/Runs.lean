import Fs0.Central.Transactions

/-!
Contract: the tables of central along its runs.

Owns:
- the transaction a handler commits in its next section;
- that an event changes the tables by one committed transaction or not at all,
  and that the handler that runs decides which.

Does not own: the properties of runs that follow from the single transactions.
-/

set_option autoImplicit false

namespace Fs0

open Lib Fallible CentralM

/-- The transaction in the first section of a client's request. -/
def ControlRequest.clientTransaction (inputs : Inputs) : ControlRequest → Option Transaction
  | .createVolume name maxBytes => some (.createVolume name maxBytes)
  | .deleteFileById fileId => some (.deleteFile fileId inputs.now)
  | .copyFileById sourceFileId targetPath =>
      some (.copyFile sourceFileId targetPath inputs.now)
  | .renameFileById fileId targetPath => some (.renameFile fileId targetPath inputs.now)
  | .abortUpdate leaseId fileId => some (.abortUpdate leaseId fileId)
  | _ => none

/-- The transaction in the first section of a storage's request. -/
def ControlRequest.storageTransaction : ControlRequest → Option Transaction
  | .createVolume name maxBytes => some (.createVolume name maxBytes)
  | .reportBundleReplica events => some (.reportReplicas events)
  | .updateStorageVolumeOffset volumeId maxVolumeOffset =>
      some (.updateVolumeOffset volumeId maxVolumeOffset)
  | _ => none

def ControlRequest.transaction (inputs : Inputs) (identity : ControlConnectionIdentity)
    (request : ControlRequest) : Option Transaction :=
  match request, identity with
  | .registerStorage _ _ _ volumes _, _ => some (.registerVolumes volumes)
  | _, .client _ => request.clientTransaction inputs
  | _, .storage _ => request.storageTransaction
  | _, .anonymous => none

/-- The transaction that may change the tables in the next section of a handler. -/
def Handler.transaction (inputs : Inputs) (identity : ControlConnectionIdentity) :
    Handler → Option Transaction
  | .start request => request.transaction inputs identity
  | .deleteFileById fileId => some (.deleteFile fileId inputs.now)
  | .copyFileById sourceFileId targetPath =>
      some (.copyFile sourceFileId targetPath inputs.now)
  | .renameFileById fileId targetPath => some (.renameFile fileId targetPath inputs.now)
  | .beginUpdate request _ volumeId => some (.beginUpdate request volumeId inputs.now)
  | .dropLease leaseId _ => some (.dropLease leaseId)
  | .commitUpdate request _ => some (.commitUpdate request inputs.now)
  | _ => none

/-- Only the second section of a commit commits an update. -/
theorem Handler.commitUpdate_of_transaction {inputs : Inputs}
    {identity : ControlConnectionIdentity} {handler : Handler} {request : CommitUpdateRequest}
    {now : Nat} (isTx : handler.transaction inputs identity = some (.commitUpdate request now)) :
    ∃ storageId, handler = .commitUpdate request storageId := by
  cases handler with
  | commitUpdate other storageId =>
      obtain ⟨rfl, -⟩ := Transaction.commitUpdate.inj (Option.some.inj isTx)
      exact ⟨storageId, rfl⟩
  | start first => cases first <;> cases identity <;> cases isTx
  | _ => cases isTx

section Sections

variable (config : CentralConfig) (inputs : Inputs)

theorem responding_changes {P : CentralTables → CentralTables → Prop}
    {m : CentralM ControlResponse} (changes : Changes P m) : Changes P (responding m) :=
  changes.bind_left fun _ => KeepsTables.pure _

theorem resolving_keepsTables (path : String) (next : Nat → Handler) :
    KeepsTables (resolving path next) :=
  KeepsTables.bind (inspect_keepsTables _) fun _ => KeepsTables.pure _

theorem modify_keepsTables {f : CentralServer → CentralServer}
    (keeps : ∀ server, (f server).db = server.db) : KeepsTables (modify f : CentralM PUnit) :=
  fun server => congrArg Prod.fst (keeps server)

/-- A transaction that only reads leaves the tables as they are even when it commits. -/
theorem transact_keepsTables {α : Type} {commit : Option Fs0Error} {m : CentralTx α}
    (reads : CentralTx.ReadsOnly m) : KeepsTables (transact commit m) := by
  intro server
  have unchanged : Changes (fun before after => after = before) (transact commit m) :=
    transact_changes fun _ _ _ ran => reads.tables_eq ran
  rcases unchanged server with same | same
  · exact same
  · exact same

theorem handleClientRequest_changes (request : ControlRequest) :
    Changes (fun before after => ∃ tx, request.clientTransaction inputs = some tx ∧
      tx.Ran before after) (handleClientRequest config inputs request) := by
  cases request with
  | centralStatus =>
      exact (KeepsTables.bind (read_keepsTables _) fun _ => KeepsTables.pure _).changes
  | createVolume name maxBytes =>
      apply responding_changes
      apply Changes.bind_left ?_ fun _ => KeepsTables.pure _
      exact transact_changes fun _ _ _ ran => ⟨_, rfl, _, _, _, ran⟩
  | listDirectory dir limit cursor =>
      exact (KeepsTables.bind (KeepsTables.bind
        (transact_keepsTables (CentralTx.listDirectory_readsOnly _ _ _))
        fun _ => KeepsTables.pure _) fun _ => KeepsTables.pure _).changes
  | getFileReadPlan path => exact (resolving_keepsTables _ _).changes
  | getFileReadPlanById fileId =>
      refine (KeepsTables.bind (KeepsTables.bind (inspect_keepsTables _) fun _ => ?_)
        fun _ => KeepsTables.pure _).changes
      exact KeepsTables.bind (read_keepsTables _) fun _ =>
        KeepsTables.bind (KeepsTables.lift _) fun _ => KeepsTables.pure _
  | hasBundle bundleId volumeId =>
      exact (KeepsTables.bind (KeepsTables.bind (inspect_keepsTables _) fun _ =>
        KeepsTables.pure _) fun _ => KeepsTables.pure _).changes
  | deleteFile path => exact (resolving_keepsTables _ _).changes
  | deleteFileById fileId =>
      apply responding_changes
      apply Changes.bind_left ?_ fun _ => KeepsTables.pure _
      exact transact_changes fun _ _ _ ran => ⟨_, rfl, _, _, _, ran⟩
  | copyFile sourcePath targetPath => exact (resolving_keepsTables _ _).changes
  | copyFileById sourceFileId targetPath =>
      apply responding_changes
      apply Changes.bind_left ?_ fun _ => KeepsTables.pure _
      exact transact_changes fun _ _ _ ran => ⟨_, rfl, _, _, _, ran⟩
  | renameFile sourcePath targetPath => exact (resolving_keepsTables _ _).changes
  | renameFileById fileId targetPath =>
      apply responding_changes
      apply Changes.bind_left ?_ fun _ => KeepsTables.pure _
      exact transact_changes fun _ _ _ ran => ⟨_, rfl, _, _, _, ran⟩
  | getFileChangeLogs afterEventId limit =>
      exact (KeepsTables.bind (KeepsTables.bind (inspect_keepsTables _) fun _ =>
        KeepsTables.pure _) fun _ => KeepsTables.pure _).changes
  | beginUpdate request =>
      refine (KeepsTables.bind (KeepsTables.bind storagePeersSnapshot_keepsTables fun _ => ?_)
        fun _ => KeepsTables.pure _).changes
      exact KeepsTables.lift _
  | commitUpdate request =>
      refine (KeepsTables.bind (KeepsTables.bind (transact_keepsTables ?_) fun _ => ?_)
        fun _ => KeepsTables.pure _).changes
      · exact (CentralTx.activeUpdateLeaseVolume_readsOnly _ _ _).mapError _
      · exact KeepsTables.bind (read_keepsTables _) fun _ => KeepsTables.pure _
  | abortUpdate leaseId fileId =>
      apply Changes.bind_left ?_ fun _ => KeepsTables.pure _
      apply Changes.bind_left ?_ fun _ =>
        KeepsTables.bind (read_keepsTables _) fun _ => KeepsTables.pure _
      exact transact_changes fun _ _ _ ran => ⟨_, rfl, _, _, _, _, ran⟩
  | _ => exact (KeepsTables.throw _).changes

theorem handleStorageRequest_changes (storageId : Nat) (request : ControlRequest) :
    Changes (fun before after => ∃ tx, request.storageTransaction = some tx ∧
      tx.Ran before after) (handleStorageRequest inputs storageId request) := by
  cases request with
  | createVolume name maxBytes =>
      apply responding_changes
      apply Changes.bind_left ?_ fun _ => KeepsTables.pure _
      exact transact_changes fun _ _ _ ran => ⟨_, rfl, _, _, _, ran⟩
  | validateClientAuth clientId clientToken =>
      refine (KeepsTables.bind (KeepsTables.bind (read_keepsTables _) fun _ => ?_)
        fun _ => KeepsTables.pure _).changes
      exact KeepsTables.bind (KeepsTables.lift _) fun _ =>
        KeepsTables.bind (KeepsTables.require _ _) fun _ => KeepsTables.pure _
  | reportBundleReplica events =>
      apply responding_changes
      apply Changes.bind_right (read_keepsTables _)
      intro onlineVolumes
      apply Changes.bind_right (KeepsTables.require _ _)
      intro _
      apply Changes.bind_left ?_ fun _ => KeepsTables.pure _
      apply transact_changes
      exact fun _ _ _ ran => ⟨_, rfl, _, _, _, ran⟩
  | updateStorageEndpoint requestStorageId irohEndpoint =>
      refine (KeepsTables.bind (KeepsTables.require _ _) fun _ => KeepsTables.bind ?_
        fun _ => KeepsTables.pure _).changes
      refine KeepsTables.bind (read_keepsTables _) fun _ =>
        KeepsTables.bind (KeepsTables.lift _) fun _ => KeepsTables.bind ?_ fun _ =>
          KeepsTables.pure _
      exact modify_keepsTables fun _ => rfl
  | updateStorageVolumeOffset volumeId maxVolumeOffset =>
      apply Changes.bind_left ?_ fun _ => KeepsTables.pure _
      exact transact_changes fun _ _ _ ran => ⟨_, rfl, _, _, _, ran⟩
  | _ => exact (KeepsTables.throw _).changes

/-- A request that does not register goes to the handler of the identity. -/
theorem handleControlRequest_dispatch (identity : ControlConnectionIdentity)
    (request : ControlRequest) :
    (∃ name token version, request = .registerClient name token version) ∨
    (∃ name token version volumes irohEndpoint,
      request = .registerStorage name token version volumes irohEndpoint) ∨
    (handleControlRequest config inputs identity request = (match identity with
      | .client _ => handleClientRequest config inputs request
      | .storage storageId => handleStorageRequest inputs storageId request
      | .anonymous => throw .unauthorized) ∧
    request.transaction inputs identity = match identity with
      | .client _ => request.clientTransaction inputs
      | .storage _ => request.storageTransaction
      | .anonymous => none) := by
  cases request with
  | registerClient name token version => exact .inl ⟨name, token, version, rfl⟩
  | registerStorage name token version volumes irohEndpoint =>
      exact .inr (.inl ⟨name, token, version, volumes, irohEndpoint, rfl⟩)
  | _ =>
      refine .inr (.inr ⟨rfl, ?_⟩)
      cases identity <;> rfl

theorem handleControlRequest_changes (identity : ControlConnectionIdentity)
    (request : ControlRequest) :
    Changes (fun before after => ∃ tx, request.transaction inputs identity = some tx ∧
      tx.Ran before after) (handleControlRequest config inputs identity request) := by
  rcases handleControlRequest_dispatch config inputs identity request with
    ⟨name, token, version, rfl⟩ | ⟨name, token, version, volumes, irohEndpoint, rfl⟩ |
    ⟨handled, transaction⟩
  · exact (KeepsTables.bind (KeepsTables.lift _) fun _ =>
      KeepsTables.bind (KeepsTables.require _ _) fun _ =>
        KeepsTables.bind nextId_keepsTables fun _ => KeepsTables.pure _).changes
  · apply Changes.bind_right (KeepsTables.lift _)
    intro _
    apply Changes.bind_right (KeepsTables.require _ _)
    intro _
    apply Changes.bind_left ?_ fun _ => KeepsTables.pure _
    exact transact_changes fun _ _ _ ran => ⟨_, rfl, _, _, _, ran⟩
  · rw [handled, transaction]
    cases identity with
    | client clientId => exact handleClientRequest_changes config inputs request
    | storage storageId => exact handleStorageRequest_changes inputs storageId request
    | anonymous => exact (KeepsTables.throw _).changes

/-- A section changes the tables by the transaction of its handler or not at all. -/
theorem Handler.resume_changes (connection : Nat) (identity : ControlConnectionIdentity)
    (handler : Handler) :
    Changes (fun before after => ∃ tx, handler.transaction inputs identity = some tx ∧
      tx.Ran before after) (handler.resume config inputs connection identity) := by
  cases handler with
  | start request => exact handleControlRequest_changes config inputs identity request
  | insertClient clientId token =>
      have kept : KeepsTables (Registration.insertClient clientId token connection) := fun _ => rfl
      exact (kept.bind fun _ => KeepsTables.pure _).changes
  | clientInserted clientId =>
      exact (KeepsTables.bind storagePeersSnapshot_keepsTables fun _ => KeepsTables.pure _).changes
  | volumesRegistered name volumes irohEndpoint =>
      exact (KeepsTables.bind nextId_keepsTables fun _ => KeepsTables.pure _).changes
  | mountVolumes peer =>
      refine (KeepsTables.bind (KeepsTables.bind (read_keepsTables _) fun _ => ?_) fun _ =>
        KeepsTables.pure _).changes
      exact KeepsTables.bind (KeepsTables.require _ _) fun _ => modify_keepsTables fun _ => rfl
  | insertStorage peer =>
      have kept : KeepsTables (Registration.insertStorage peer connection) := fun _ => rfl
      exact (kept.bind fun _ => KeepsTables.pure _).changes
  | storageInserted storageId =>
      exact (KeepsTables.bind storagePeersSnapshot_keepsTables fun _ => KeepsTables.pure _).changes
  | centralStatus clientsCount =>
      exact (KeepsTables.bind storagePeersSnapshot_keepsTables fun _ => KeepsTables.pure _).changes
  | getFileReadPlanById fileId =>
      refine (KeepsTables.bind (KeepsTables.bind (inspect_keepsTables _) fun _ => ?_)
        fun _ => KeepsTables.pure _).changes
      exact KeepsTables.bind (read_keepsTables _) fun _ =>
        KeepsTables.bind (KeepsTables.lift _) fun _ => KeepsTables.pure _
  | deleteFileById fileId =>
      apply responding_changes
      apply Changes.bind_left ?_ fun _ => KeepsTables.pure _
      exact transact_changes fun _ _ _ ran => ⟨_, rfl, _, _, _, ran⟩
  | copyFileById sourceFileId targetPath =>
      apply responding_changes
      apply Changes.bind_left ?_ fun _ => KeepsTables.pure _
      exact transact_changes fun _ _ _ ran => ⟨_, rfl, _, _, _, ran⟩
  | renameFileById fileId targetPath =>
      apply responding_changes
      apply Changes.bind_left ?_ fun _ => KeepsTables.pure _
      exact transact_changes fun _ _ _ ran => ⟨_, rfl, _, _, _, ran⟩
  | beginUpdate request storageId volumeId =>
      apply Changes.bind_left ?_ fun _ => KeepsTables.pure _
      apply transact_changes
      exact fun _ _ _ ran => ⟨_, rfl, _, _, _, ran⟩
  | grantLease storageId lease =>
      refine (KeepsTables.bind (read_keepsTables _) fun storages => ?_).changes
      cases storages.find? storageId <;> exact KeepsTables.pure _
  | awaitGrant lease =>
      apply KeepsTables.changes
      intro server
      simp only [Handler.resume]
      cases grantResult lease inputs.grant <;> rfl
  | dropLease leaseId err =>
      apply Changes.bind_left ?_ fun _ => KeepsTables.throw _
      exact transact_changes fun _ _ _ ran => ⟨_, rfl, _, _, _, ran⟩
  | commitUpdate request storageId =>
      apply Changes.bind_left ?_ fun _ => KeepsTables.pure _
      exact transact_changes fun _ _ _ ran => ⟨_, rfl, _, _, _, _, ran⟩
  | revokeLease storageId leaseId response =>
      refine (KeepsTables.bind (read_keepsTables _) fun storages => ?_).changes
      cases storages.find? storageId <;> exact KeepsTables.pure _
  | awaitRevoke response => exact (KeepsTables.pure _).changes
  | storeVolumeOffset storageId volumeId registered =>
      refine (KeepsTables.bind (KeepsTables.bind (read_keepsTables _) fun _ => ?_) fun _ =>
        KeepsTables.pure _).changes
      exact KeepsTables.bind (KeepsTables.lift _) fun _ =>
        KeepsTables.bind (KeepsTables.require _ _) fun _ =>
          KeepsTables.bind (modify_keepsTables fun _ => rfl) fun _ => KeepsTables.pure _
  | broadcast response => exact (KeepsTables.pure _).changes
  | answer response => exact (KeepsTables.pure _).changes

end Sections

/-! ## Events -/

namespace Central

/-- The tables of central. -/
def tables (s : Central) : CentralTables := s.server.db.1

@[simp] theorem setConnection_server (s : Central) (conn : ControlConnection) :
    (s.setConnection conn).server = s.server := rfl

@[simp] theorem exchange_server (s : Central) (message : Exchange) :
    (s.exchange message).server = s.server := rfl

variable {config : CentralConfig}

@[simp] theorem answer_server (s : Central) (conn : ControlConnection) (stream : Nat)
    (response : ProtocolResponse) : (s.answer config conn stream response).server = s.server := rfl

@[simp] theorem advance_server (s : Central) (conn : ControlConnection) (stream : Nat)
    (result : EStateM.Result Fs0Error CentralServer Progress) :
    (s.advance config conn stream result).server = endState result := by
  rcases result with ⟨_ | _ | _, _⟩ | _ <;> rfl

@[simp] theorem start_server (s : Central) (conn : ControlConnection) (task : StreamRequest) :
    (s.start config conn task).server = s.server := by
  unfold start
  cases task.request <;> rfl

variable {s s' : Central} {e : CentralEvent}

/-- The handler of a connection and what its next section ends in. -/
structure Runs (config : CentralConfig) (s : Central) (c : Nat) (inputs : Inputs)
    (conn : ControlConnection) (handling : Handling)
    (result : EStateM.Result Fs0Error CentralServer Progress) : Prop where
  found : s.connections.find? c = some conn
  handles : conn.handling = some handling
  ran : handling.handler.resume config inputs c conn.identity s.server = result

theorem step_run {c : Nat} {inputs : Inputs}
    (taken : (central config).step s (.run c inputs) = some s') :
    ∃ conn handling result, Runs config s c inputs conn handling result ∧
      s' = s.advance config conn handling.stream result := by
  obtain ⟨conn, found, rest⟩ := Option.bind_eq_some_iff.mp taken
  obtain ⟨handling, handles, rfl⟩ := Option.map_eq_some_iff.mp rest
  exact ⟨conn, handling, _, ⟨found, handles, rfl⟩, rfl⟩

/-- An event that runs no section leaves the database as it is, but for the cache
of a process that is started again. -/
theorem step_db (taken : (central config).step s e = some s')
    (noRun : ∀ c inputs, e ≠ .run c inputs) :
    s'.server.db = s.server.db ∨ e = .restart ∧ s'.server.db = (s.server.db.1, .new) := by
  cases e with
  | connect =>
      obtain rfl := Option.some.inj taken
      exact .inl rfl
  | receive c request =>
      obtain ⟨conn, -, rest⟩ := Option.bind_eq_some_iff.mp taken
      split at rest
      · obtain rfl := Option.some.inj rest
        exact .inl rfl
      · cases rest
  | lockIdentity c stream =>
      obtain ⟨conn, -, rest⟩ := Option.bind_eq_some_iff.mp taken
      obtain ⟨task, -, rest⟩ := Option.bind_eq_some_iff.mp rest
      split at rest
      · obtain rfl := Option.some.inj rest
        exact .inl (by rw [start_server])
      · cases rest
  | run c inputs => exact absurd rfl (noRun c inputs)
  | acceptEnds c =>
      obtain ⟨conn, -, rest⟩ := Option.bind_eq_some_iff.mp taken
      split at rest
      · obtain rfl := Option.some.inj rest
        exact .inl rfl
      · cases rest
  | dropWaiting c stream =>
      obtain ⟨conn, -, rest⟩ := Option.bind_eq_some_iff.mp taken
      split at rest
      · obtain rfl := Option.some.inj rest
        exact .inl rfl
      · cases rest
  | abortHandler c =>
      obtain ⟨conn, -, rest⟩ := Option.bind_eq_some_iff.mp taken
      obtain ⟨handling, -, rest⟩ := Option.bind_eq_some_iff.mp rest
      split at rest
      · obtain rfl := Option.some.inj rest
        exact .inl rfl
      · cases rest
  | unregister c =>
      obtain ⟨conn, -, rest⟩ := Option.bind_eq_some_iff.mp taken
      split at rest
      · obtain rfl := Option.some.inj rest
        left
        unfold unregister
        cases conn.identity <;> rfl
      · cases rest
  | unmount c =>
      obtain ⟨conn, -, rest⟩ := Option.bind_eq_some_iff.mp taken
      split at rest
      · obtain rfl := Option.some.inj rest
        exact .inl rfl
      · cases rest
  | finish c =>
      obtain ⟨conn, -, rest⟩ := Option.bind_eq_some_iff.mp taken
      split at rest
      · obtain rfl := Option.some.inj rest
        exact .inl rfl
      · cases rest
  | restart =>
      obtain rfl := Option.some.inj taken
      exact .inr ⟨rfl, rfl⟩

/-- The transaction an event may commit. -/
def transaction (s : Central) : CentralEvent → Option Transaction
  | .run c inputs => do
      let conn ← s.connections.find? c
      let handling ← conn.handling
      handling.handler.transaction inputs conn.identity
  | _ => none

theorem Runs.transaction_eq {c : Nat} {inputs : Inputs} {conn : ControlConnection}
    {handling : Handling} {result : EStateM.Result Fs0Error CentralServer Progress}
    (runs : Runs config s c inputs conn handling result) :
    s.transaction (.run c inputs) = handling.handler.transaction inputs conn.identity := by
  simp [transaction, runs.found, runs.handles]

/-- An event leaves the tables as they are, or runs the transaction it commits. -/
theorem step_ran (taken : (central config).step s e = some s') :
    s'.tables = s.tables ∨
      ∃ tx, s.transaction e = some tx ∧ tx.Ran s.tables s'.tables := by
  by_cases isRun : ∃ c inputs, e = .run c inputs
  · obtain ⟨c, inputs, rfl⟩ := isRun
    obtain ⟨conn, handling, result, runs, rfl⟩ := step_run taken
    rw [tables, advance_server, ← runs.ran, runs.transaction_eq]
    exact Handler.resume_changes config inputs c conn.identity handling.handler s.server
  · have noRun : ∀ c inputs, e ≠ .run c inputs := fun c inputs same => isRun ⟨c, inputs, same⟩
    rcases step_db taken noRun with same | ⟨-, same⟩
    · exact .inl (congrArg Prod.fst same)
    · exact .inl (by rw [tables, same, tables])

/-- An event leaves the tables as they are, or changes them by the transaction it commits. -/
theorem step_tables (taken : (central config).step s e = some s') :
    s'.tables = s.tables ∨
      ∃ tx, s.transaction e = some tx ∧ tx.Effect s.tables s'.tables := by
  rcases step_ran taken with same | ⟨tx, isTx, ran⟩
  · exact .inl same
  · exact .inr ⟨tx, isTx, ran.effect⟩

/-- What holds of the tables of a new database and is kept by every transaction holds
along every run. -/
theorem tables_invariant (Inv : CentralTables → Prop) (initial : Inv .initial)
    (preserved : ∀ before tx after, Inv before → Transaction.Effect before after tx → Inv after)
    (reachable : (central config).Reachable s) : Inv s.tables := by
  apply reachable.invariant (fun s => Inv s.tables)
  · rintro _ rfl
    exact initial
  · intro s e s' holds taken
    rcases step_tables taken with same | ⟨tx, -, effect⟩
    · rw [same]
      exact holds
    · exact preserved _ tx _ holds effect

end Central

/-! ## Scenarios -/

namespace Scenario

/-- One token, no volume that is too full for an update, and no response that is too large. -/
def config : CentralConfig := ⟨["token"], fun _ _ => false, fun _ => 64⟩

/-- What a section reads at a time when nothing fails and the lease is granted. -/
def inputs (now : Nat) : Inputs := ⟨now, now, none, .ok (.granted 1)⟩

/-- A request that runs through its sections without another event in between. -/
def request (connection stream sections now : Nat) (request : ControlRequest) :
    List CentralEvent :=
  [.receive connection (.control request), .lockIdentity connection stream] ++
    List.replicate sections (.run connection (inputs now))

/-- A client on connection 1, a volume, and a storage on connection 2 that mounts it. -/
def registered : List CentralEvent :=
  [.connect] ++ request 1 0 4 1 (.registerClient none "token" "0.2.4") ++
    request 1 1 1 1 (.createVolume "v" 100) ++ [.connect] ++
    request 2 2 6 1 (.registerStorage "s" "token" "0.2.4" [⟨1, "v", 100, 0, false⟩] [])

/-- The first update of a file, committed without data. -/
def updated (stream : Nat) (path : String) : List CentralEvent :=
  request 1 stream 4 2 (.beginUpdate ⟨path, 0, none, none⟩) ++
    request 1 (stream + 1) 2 3 (.commitUpdate ⟨1, 1, 0, 0, []⟩)

def bundle : HashId := .repeating 1

/-- The first update of a file, committed with one bundle of 5 bytes listed twice. -/
def uploaded (stream : Nat) (path : String) : List CentralEvent :=
  request 1 stream 4 2 (.beginUpdate ⟨path, 0, none, none⟩) ++
    request 2 (stream + 1) 1 2 (.reportBundleReplica [⟨1, .stored, 1, bundle, some 5, some 3⟩]) ++
    request 1 (stream + 2) 2 3 (.commitUpdate ⟨1, 1, 0, 10, [⟨bundle, 5, 3⟩, ⟨bundle, 5, 3⟩]⟩)

/-- The state after a scenario, and a fact about it, both by computation. -/
theorem run_of_exec {α : Type} (events : List CentralEvent) (f : Central → α) (a : α)
    (computed : ((central config).exec Central.initial events).map f = some a) :
    ∃ ts s, (central config).Run ts s ∧ ts.reverse.map Transition.event = events ∧ f s = a := by
  obtain ⟨s, ends, value⟩ := Option.map_eq_some_iff.mp computed
  obtain ⟨ts, run, isEvents⟩ := (System.Run.init rfl).exec events ends
  exact ⟨ts, s, by simpa using run, isEvents, value⟩

/-- The same for a scenario whose events are all admitted. -/
theorem run_of_execWhile {α : Type} (admits : Central → CentralEvent → Bool)
    (events : List CentralEvent) (f : Central → α) (a : α)
    (computed : ((central config).execWhile admits Central.initial events).map f = some a) :
    ∃ ts s, (central config).Run ts s ∧ (∀ t ∈ ts, admits t.pre t.event) ∧ f s = a := by
  obtain ⟨s, ends, value⟩ := Option.map_eq_some_iff.mp computed
  obtain ⟨ts, run, admitted⟩ := (System.Run.init rfl).execWhile events ends
  exact ⟨ts, s, by simpa using run, admitted, value⟩

end Scenario

end Fs0
