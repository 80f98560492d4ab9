import Fs0.Central.Authorized
import Fs0.Cluster.Cluster

/-!
Contract: what a storage does for a client, central has vouched for.

Owns:
- that the leases under way and the leases a storage holds were recorded by central;
- that the client of an authenticated data connection was registered at central;
- that central hands out a lease only after a storage has taken it.

Does not own: what an upload does to a volume.
-/

set_option autoImplicit false

namespace Fs0

open Lib Fallible

/-! ## Leases of a storage -/

/-- The entry of a lease in the table of a storage. -/
def GrantUploadLeaseRequest.entry (request : GrantUploadLeaseRequest) : UploadLeaseState :=
  ⟨request.leaseId, request.fileId, request.volumeId, request.expiresAtMs⟩

/-- The lease, the file and the volume a request names, when it needs a lease. -/
def DataRequest.lease? : DataRequest → Option (Nat × Nat × Nat)
  | .uploadChunk request => some (request.leaseId, request.fileId, request.volumeId)
  | .commitBundle request => some (request.leaseId, request.fileId, request.volumeId)
  | _ => none

namespace StorageServer

variable {blake3 : Bytes → HashId} {zstdDecompress : Bytes → Nat → Fs0Result Bytes}
  {s s' : StorageServer}

theorem onVolume_uploadLeases {volumeId : Nat} {v : Volume} {e : VolumeEvent}
    (taken : s.onVolume blake3 volumeId v e = some s') : s'.uploadLeases = s.uploadLeases := by
  obtain ⟨v', -, rfl⟩ := Option.map_eq_some_iff.mp taken
  rfl

theorem mem_retainLeases {now : Nat} {lease : UploadLeaseState} :
    lease ∈ (s.retainLeases now).uploadLeases.rows ↔
      lease ∈ s.uploadLeases.rows ∧ now < lease.expiresAtMs := by
  unfold retainLeases
  rw [Table.mem_delete, decide_eq_false_iff_not, Nat.not_le]

/-- A request that is refused changes no volume, and one that is not holds an unexpired lease. -/
theorem checkLease_eq_ok {leaseId fileId volumeId now : Nat}
    (checked : (s.retainLeases now).checkLease leaseId fileId volumeId = .ok ()) :
    ∃ lease ∈ s.uploadLeases.rows, lease.leaseId = leaseId ∧ lease.fileId = fileId ∧
      lease.volumeId = volumeId ∧ now < lease.expiresAtMs := by
  unfold checkLease at checked
  split at checked
  next lease found =>
    split at checked
    next both =>
      obtain ⟨member, isId⟩ := Table.mem_of_find? found
      obtain ⟨held, unexpired⟩ := mem_retainLeases.mp member
      exact ⟨lease, held, isId, both.1, both.2, unexpired⟩
    · cases checked
  · cases checked

/-- Only a grant adds a lease. -/
theorem leases_of_step {e : StorageEvent} (taken : s.step blake3 zstdDecompress e = some s')
    (noGrant : ∀ request, e ≠ .grantUploadLease request) {lease : UploadLeaseState}
    (member : lease ∈ s'.uploadLeases.rows) : lease ∈ s.uploadLeases.rows := by
  cases e with
  | grantUploadLease request => exact absurd rfl (noGrant request)
  | revokeUploadLease leaseId =>
      obtain rfl := Option.some.inj taken
      exact (Table.mem_delete.mp member).1
  | uploadChunk request leaseNow now =>
      rcases step_uploadChunk taken with ⟨v, -, onVolume⟩ | rfl
      · rw [onVolume_uploadLeases onVolume] at member
        exact (mem_retainLeases.mp member).1
      · exact (mem_retainLeases.mp member).1
  | commitBundle request leaseNow commit =>
      have commits : (storage blake3 zstdDecompress).step s (.commitBundle request leaseNow commit) =
        some s' := taken
      rcases step_commitBundle commits with ⟨v, -, onVolume⟩ | rfl
      · rw [onVolume_uploadLeases onVolume] at member
        exact (mem_retainLeases.mp member).1
      · exact (mem_retainLeases.mp member).1
  | volume volumeId e =>
      obtain ⟨row, -, rest⟩ := Option.bind_eq_some_iff.mp taken
      split at rest
      · cases rest
      · rw [onVolume_uploadLeases rest] at member
        exact member
  | restart torn =>
      obtain rfl := Option.some.inj taken
      cases member

variable {inputs : DataInputs} {request : DataRequest}

theorem leases_of_handleDataRequest
    (handled : s.handleDataRequest blake3 zstdDecompress inputs request = some s')
    {lease : UploadLeaseState} (member : lease ∈ s'.uploadLeases.rows) :
    lease ∈ s.uploadLeases.rows := by
  unfold handleDataRequest at handled
  cases request with
  | uploadChunk request => exact leases_of_step handled (by simp) member
  | commitBundle request => exact leases_of_step handled (by simp) member
  | downloadChunk request =>
      dsimp only at handled
      cases known : s.volume request.volumeId with
      | ok v =>
          rw [known] at handled
          exact leases_of_step handled (by simp) member
      | error err =>
          rw [known] at handled
          obtain rfl := Option.some.inj handled
          exact member
  | _ =>
      obtain rfl := Option.some.inj handled
      exact member

/-- An upload or a commit leaves the volumes alone, or holds a lease for its file and volume. -/
theorem leased_of_handleDataRequest
    (handled : s.handleDataRequest blake3 zstdDecompress inputs request = some s')
    {leaseId fileId volumeId : Nat} (needs : request.lease? = some (leaseId, fileId, volumeId)) :
    s'.volumes = s.volumes ∨ ∃ lease ∈ s.uploadLeases.rows, lease.leaseId = leaseId ∧
      lease.fileId = fileId ∧ lease.volumeId = volumeId ∧ inputs.leaseNow < lease.expiresAtMs := by
  cases request with
  | uploadChunk request =>
      obtain ⟨rfl, rfl, rfl⟩ : request.leaseId = leaseId ∧ request.fileId = fileId ∧
          request.volumeId = volumeId := by simpa [DataRequest.lease?] using needs
      rcases step_uploadChunk handled with ⟨v, checked, -⟩ | rfl
      · obtain ⟨_, leased, -⟩ := Fs0Result.bind_eq_ok.mp checked
        exact .inr (checkLease_eq_ok leased)
      · exact .inl rfl
  | commitBundle request =>
      obtain ⟨rfl, rfl, rfl⟩ : request.leaseId = leaseId ∧ request.fileId = fileId ∧
          request.volumeId = volumeId := by simpa [DataRequest.lease?] using needs
      have commits : (storage blake3 zstdDecompress).step s
        (.commitBundle request inputs.leaseNow inputs.commit) = some s' := handled
      rcases step_commitBundle commits with ⟨v, checked, -⟩ | rfl
      · obtain ⟨_, leased, -⟩ := Fs0Result.bind_eq_ok.mp checked
        exact .inr (checkLease_eq_ok leased)
      · exact .inl rfl
  | _ => cases needs

/-- A control request adds at most the lease it grants. -/
theorem leases_of_handleControlRequest {request : ControlRequest} {lease : UploadLeaseState}
    (member : lease ∈ (s.handleControlRequest request).1.uploadLeases.rows) :
    lease ∈ s.uploadLeases.rows ∨
      ∃ grant, request = .grantUploadLease grant ∧ lease = grant.entry := by
  cases request with
  | grantUploadLease grant =>
      unfold handleControlRequest grantUploadLease at member
      dsimp only at member
      split at member
      · rcases Table.mem_put.mp member with rfl | ⟨old, -⟩
        · exact .inr ⟨grant, rfl, rfl⟩
        · exact .inl old
      · exact .inl member
  | revokeUploadLease leaseId => exact .inl (Table.mem_delete.mp member).1
  | _ => exact .inl member

/-- A storage answers a grant with its lease id only after it has entered the lease. -/
theorem granted_of_handleControlRequest {request : ControlRequest} {leaseId : Nat}
    (granted : (s.handleControlRequest request).2 = some (.granted leaseId)) :
    ∃ grant, request = .grantUploadLease grant ∧ grant.leaseId = leaseId ∧
      grant.entry ∈ (s.handleControlRequest request).1.uploadLeases.rows ∧
      ((s.handleControlRequest request).1.volumes.find? grant.volumeId).isSome := by
  cases request with
  | grantUploadLease grant =>
      unfold handleControlRequest at granted ⊢
      dsimp only at granted ⊢
      split at granted
      next known =>
        unfold grantUploadLease
        rw [if_pos known]
        exact ⟨grant, rfl, GrantReply.granted.inj (Option.some.inj granted),
          Table.mem_put.mpr (.inl rfl), known⟩
      · cases granted
  | revokeUploadLease leaseId => cases granted
  | _ => cases granted

end StorageServer

/-! ## Central behind the storages -/

namespace Cluster

variable {config : CentralConfig} {blake3 : Bytes → HashId}
  {zstdDecompress : Bytes → Nat → Fs0Result Bytes} {s s' : Cluster} {e : ClusterEvent}
  {ts : List (Transition Cluster ClusterEvent)}

/-- Central had the row of a lease in one of the states of a run. -/
def Recorded (ts : List (Transition Cluster ClusterEvent)) (s : Cluster) (lease : UpdateLease) :
    Prop :=
  ∃ x ∈ visited ts s, x.central.tables.Records lease

/-- Central had a client registered, with an allowed token, in one of the states of a run. -/
def Knew (config : CentralConfig) (ts : List (Transition Cluster ClusterEvent)) (s : Cluster)
    (clientId : Nat) : Prop :=
  ∃ x ∈ visited ts s, ∃ client ∈ x.central.server.clients.rows,
    client.clientId = clientId ∧ client.token ∈ config.authTokens

/-- A storage had entered a lease for one of its volumes in one of the states of a run. -/
def Held (ts : List (Transition Cluster ClusterEvent)) (s : Cluster) (lease : UpdateLease) : Prop :=
  ∃ x ∈ visited ts s, ∃ p ∈ x.storages.rows, lease.grant.entry ∈ p.server.uploadLeases.rows ∧
    (p.server.volumes.find? lease.volumeId).isSome

theorem Recorded.later {lease : UpdateLease} (recorded : Recorded ts s lease) :
    Recorded (⟨s, e, s'⟩ :: ts) s' lease := by
  obtain ⟨x, member, records⟩ := recorded
  exact ⟨x, List.mem_cons_of_mem _ member, records⟩

theorem Knew.later {clientId : Nat} (knew : Knew config ts s clientId) :
    Knew config (⟨s, e, s'⟩ :: ts) s' clientId := by
  obtain ⟨x, member, client⟩ := knew
  exact ⟨x, List.mem_cons_of_mem _ member, client⟩

theorem Held.later {lease : UpdateLease} (held : Held ts s lease) :
    Held (⟨s, e, s'⟩ :: ts) s' lease := by
  obtain ⟨x, member, p⟩ := held
  exact ⟨x, List.mem_cons_of_mem _ member, p⟩

section Central

variable {centralRun : List (Transition Central CentralEvent)}

/-- Central recorded a lease in its own run when it did in the run of the system. -/
theorem recorded_iff (isRun : CentralRun config ts s centralRun) {lease : UpdateLease} :
    Recorded ts s lease ↔ Central.Recorded centralRun s.central lease := by
  constructor
  · rintro ⟨y, member, records⟩
    exact ⟨y.central, isRun.covers y member, records⟩
  · rintro ⟨x, member, records⟩
    obtain ⟨y, among, rfl⟩ := isRun.through x member
    exact ⟨y, among, records⟩

/-- A client that central has validated was registered with an allowed token. -/
theorem knew_of_validated (run : (cluster config blake3 zstdDecompress).Run ts s)
    {stream clientId : Nat} {token : String} (validated : s.central.validated stream)
    (arrived : .arrived stream (.control (.validateClientAuth clientId token)) ∈
      s.central.exchanges) : Knew config ts s clientId := by
  obtain ⟨centralRun, ran, through, -⟩ := central_run run
  obtain ⟨exchange, member, isValidation⟩ := List.any_eq_true.mp validated
  split at isValidation
  next other validatedId =>
    obtain rfl := of_decide_eq_true isValidation
    obtain ⟨asked, isArrival, x, among, client, isClient, rfl, rfl⟩ :=
      Central.validated_of_run ran member
    have same := (Central.arrived_once ran isArrival).2 _ arrived
    obtain ⟨rfl, -⟩ : clientId = client.clientId ∧ token = client.token := by simpa using same
    obtain ⟨y, isVisited, rfl⟩ := through x among
    obtain ⟨before, ranThere⟩ := ran.reachable_of_visited among
    exact ⟨y, isVisited, client, isClient, rfl, (Central.clients_of_run ranThere client isClient).1⟩
  · cases isValidation

end Central

/-! ## Data connections -/

/-- Where the tasks of a data connection stand, and what central has to do with it. -/
structure ConnectionVouched (config : CentralConfig)
    (ts : List (Transition Cluster ClusterEvent)) (s : Cluster) (conn : DataConnection) :
    Prop where
  authenticated : ∀ clientId, conn.authenticatedClientId = some clientId → Knew config ts s clientId
  handling : ∀ stream request, ⟨stream, .handling request⟩ ∈ conn.tasks.rows →
    conn.authenticatedClientId.isSome
  validating : ∀ stream clientId call, ⟨stream, .validating clientId call⟩ ∈ conn.tasks.rows →
    ∃ token, .arrived call (.control (.validateClientAuth clientId token)) ∈ s.central.exchanges

/-- What the storages and the calls under way have from central. -/
structure Vouched (config : CentralConfig) (ts : List (Transition Cluster ClusterEvent))
    (s : Cluster) : Prop where
  calls : ∀ call ∈ s.calls, ∀ request, call.request = .grantUploadLease request →
    ∃ lease, request = lease.grant ∧ Recorded ts s lease
  replies : ∀ stream leaseId, (stream, .granted leaseId) ∈ s.replies →
    ∃ lease, lease.leaseId = leaseId ∧ Recorded ts s lease ∧ Held ts s lease
  leases : ∀ p ∈ s.storages.rows, ∀ held ∈ p.server.uploadLeases.rows,
    ∃ lease, held = lease.grant.entry ∧ Recorded ts s lease
  connections : ∀ p ∈ s.storages.rows, ∀ conn ∈ p.connections.rows,
    ConnectionVouched config ts s conn

namespace ConnectionVouched

variable {conn : DataConnection}

theorem new (connection : Nat) : ConnectionVouched config ts s (.new connection) where
  authenticated clientId isClient := by cases isClient
  handling stream request member := by cases member
  validating stream clientId call member := by cases member

theorem later (vouched : ConnectionVouched config ts s conn)
    (kept : ∀ message ∈ s.central.exchanges, message ∈ s'.central.exchanges) :
    ConnectionVouched config (⟨s, e, s'⟩ :: ts) s' conn where
  authenticated clientId isClient := (vouched.authenticated clientId isClient).later
  handling := vouched.handling
  validating stream clientId call member := by
    obtain ⟨token, arrived⟩ := vouched.validating stream clientId call member
    exact ⟨token, kept _ arrived⟩

theorem endTask (vouched : ConnectionVouched config ts s conn) (stream : Nat) :
    ConnectionVouched config ts s (conn.endTask stream) where
  authenticated := vouched.authenticated
  handling other request member := vouched.handling other request (Table.mem_delete.mp member).1
  validating other clientId call member :=
    vouched.validating other clientId call (Table.mem_delete.mp member).1

/-- A task that goes on, to handle its request or to wait for central. -/
theorem setTask (vouched : ConnectionVouched config ts s conn) {task : DataTask}
    (handling : ∀ request, task.stage = .handling request → conn.authenticatedClientId.isSome)
    (validating : ∀ clientId call, task.stage = .validating clientId call →
      ∃ token, .arrived call (.control (.validateClientAuth clientId token)) ∈
        s.central.exchanges) : ConnectionVouched config ts s (conn.setTask task) where
  authenticated := vouched.authenticated
  handling stream request member := by
    rcases SeqTable.mem_replace member with rfl | ⟨old, -⟩
    · exact handling request rfl
    · exact vouched.handling stream request old
  validating stream clientId call member := by
    rcases SeqTable.mem_replace member with rfl | ⟨old, -⟩
    · exact validating clientId call rfl
    · exact vouched.validating stream clientId call old

theorem receive (vouched : ConnectionVouched config ts s conn) (frame : DataFrame) :
    ConnectionVouched config ts s { conn with
      tasks := conn.tasks.push (fun stream => ⟨stream, .received frame⟩) fun _ => rfl } where
  authenticated := vouched.authenticated
  handling stream request member := by
    rcases mem_appended.mp member with old | isNew
    · exact vouched.handling stream request old
    · cases isNew
  validating stream clientId call member := by
    rcases mem_appended.mp member with old | isNew
    · exact vouched.validating stream clientId call old
    · cases isNew

/-- A task goes on to handle its request only on an authenticated connection. -/
theorem look (vouched : ConnectionVouched config ts s conn) (stream : Nat) (frame : DataFrame) :
    ConnectionVouched config ts s (conn.look stream frame) := by
  unfold DataConnection.look
  split
  next stage admitted =>
    apply vouched.setTask
    · rintro request rfl
      by_contra anonymous
      unfold DataStage.admit at admitted
      split at admitted <;> simp [anonymous] at admitted
    · rintro clientId call rfl
      unfold DataStage.admit at admitted
      split at admitted
      · split at admitted <;> cases admitted
      · split at admitted <;> cases admitted
      · cases admitted
  next => exact vouched.endTask stream

theorem authenticate (vouched : ConnectionVouched config ts s conn) {clientId : Nat}
    (knew : Knew config ts s clientId) :
    ConnectionVouched config ts s { conn with authenticatedClientId := some clientId } where
  authenticated other isClient := by
    obtain rfl := Option.some.inj isClient
    exact knew
  handling stream request member := rfl
  validating := vouched.validating

end ConnectionVouched

/-! ## Steps -/

theorem leases_of_process {p p' : StorageProcess}
    (step : ProcessStep blake3 zstdDecompress s.central p e p') {held : UploadLeaseState}
    (member : held ∈ p'.server.uploadLeases.rows) : held ∈ p.server.uploadLeases.rows := by
  cases step with
  | handle conn stream request inputs server found task handled =>
      exact StorageServer.leases_of_handleDataRequest handled member
  | volume volumeId e server taken =>
      exact StorageServer.leases_of_step taken (by simp) member
  | restart torn server taken => exact StorageServer.leases_of_step taken (by simp) member
  | _ => exact member

theorem connections_of_process {p p' : StorageProcess}
    (run : (cluster config blake3 zstdDecompress).Run ts s)
    (vouched : ∀ conn ∈ p.connections.rows, ConnectionVouched config ts s conn)
    (step : ProcessStep blake3 zstdDecompress s.central p e p') :
    ∀ conn ∈ p'.connections.rows, ConnectionVouched config ts s conn := by
  have replaced {conn : DataConnection} {server : StorageServer}
      (isVouched : ConnectionVouched config ts s conn) :
      ∀ other ∈ (({ p with server := server } : StorageProcess).setConnection conn).connections.rows,
        ConnectionVouched config ts s other := by
    intro other member
    rcases SeqTable.mem_replace member with rfl | ⟨old, -⟩
    · exact isVouched
    · exact vouched other old
  cases step with
  | loseCentral => exact vouched
  | connectData =>
      intro other member
      rcases mem_appended.mp member with old | rfl
      · exact vouched other old
      · exact .new _
  | receiveData conn frame found =>
      exact replaced ((vouched conn (Table.mem_of_find? found).1).receive frame)
  | look conn stream frame found task =>
      exact replaced ((vouched conn (Table.mem_of_find? found).1).look stream frame)
  | authenticate conn stream clientId call found task validated =>
      have isVouched := vouched conn (Table.mem_of_find? found).1
      obtain ⟨token, arrived⟩ := isVouched.validating _ _ _ (Table.mem_of_find? task).1
      exact replaced ((isVouched.endTask stream).authenticate
        (knew_of_validated run validated arrived))
  | handle conn stream request inputs server found task handled =>
      exact replaced ((vouched conn (Table.mem_of_find? found).1).endTask stream)
  | endTask conn stream found =>
      exact replaced ((vouched conn (Table.mem_of_find? found).1).endTask stream)
  | closeData connection => exact fun other member => vouched other (Table.mem_delete.mp member).1
  | volume volumeId e server taken => exact vouched
  | restart torn server taken => exact fun other member => vouched other (Table.mem_delete.mp member).1

theorem exchanges_of_central (step : ClusterStep config blake3 zstdDecompress s e s') :
    ∀ message ∈ s.central.exchanges, message ∈ s'.central.exchanges := by
  intro message member
  rcases central_of_step step with ⟨centralEvent, taken⟩ | same
  · exact Central.exchanges_of_step taken member
  · rw [same]
    exact member

namespace Vouched

variable {p p' : StorageProcess}

theorem connections_later (vouched : Vouched config ts s)
    (kept : ∀ message ∈ s.central.exchanges, message ∈ s'.central.exchanges)
    (storages : ∀ p' ∈ s'.storages.rows, p' ∈ s.storages.rows ∨
      ∀ conn ∈ p'.connections.rows, ConnectionVouched config (⟨s, e, s'⟩ :: ts) s' conn) :
    ∀ p' ∈ s'.storages.rows, ∀ conn ∈ p'.connections.rows,
      ConnectionVouched config (⟨s, e, s'⟩ :: ts) s' conn := by
  intro p' member conn isConn
  rcases storages p' member with old | isNew
  · exact (vouched.connections p' old conn isConn).later kept
  · exact isNew conn isConn

theorem leases_later (vouched : Vouched config ts s)
    (storages : ∀ p' ∈ s'.storages.rows, p' ∈ s.storages.rows ∨
      ∀ held ∈ p'.server.uploadLeases.rows,
        ∃ lease, held = lease.grant.entry ∧ Recorded ts s lease) :
    ∀ p' ∈ s'.storages.rows, ∀ held ∈ p'.server.uploadLeases.rows,
      ∃ lease, held = lease.grant.entry ∧ Recorded (⟨s, e, s'⟩ :: ts) s' lease := by
  intro p' member held isHeld
  have recorded : ∃ lease, held = lease.grant.entry ∧ Recorded ts s lease := by
    rcases storages p' member with old | isNew
    · exact vouched.leases p' old held isHeld
    · exact isNew held isHeld
  obtain ⟨lease, isLease, recorded⟩ := recorded
  exact ⟨lease, isLease, recorded.later⟩

theorem calls_later (vouched : Vouched config ts s)
    (calls : ∀ call ∈ s'.calls, call ∈ s.calls ∨
      ∀ request, call.request = .grantUploadLease request →
        ∃ lease, request = lease.grant ∧ Recorded ts s lease) :
    ∀ call ∈ s'.calls, ∀ request, call.request = .grantUploadLease request →
      ∃ lease, request = lease.grant ∧ Recorded (⟨s, e, s'⟩ :: ts) s' lease := by
  intro call member request isGrant
  have recorded : ∃ lease, request = lease.grant ∧ Recorded ts s lease := by
    rcases calls call member with old | isNew
    · exact vouched.calls call old request isGrant
    · exact isNew request isGrant
  obtain ⟨lease, isLease, recorded⟩ := recorded
  exact ⟨lease, isLease, recorded.later⟩

theorem replies_later (vouched : Vouched config ts s) {stream leaseId : Nat}
    (old : (stream, .granted leaseId) ∈ s.replies) :
    ∃ lease, lease.leaseId = leaseId ∧ Recorded (⟨s, e, s'⟩ :: ts) s' lease ∧
      Held (⟨s, e, s'⟩ :: ts) s' lease := by
  obtain ⟨lease, isId, recorded, held⟩ := vouched.replies stream leaseId old
  exact ⟨lease, isId, recorded.later, held.later⟩

theorem step (run : (cluster config blake3 zstdDecompress).Run ts s)
    (vouched : Vouched config ts s) (taken : ClusterStep config blake3 zstdDecompress s e s') :
    Vouched config (⟨s, e, s'⟩ :: ts) s' := by
  have kept := exchanges_of_central taken
  cases taken with
  | central e after heard taken =>
      obtain ⟨centralRun, isRun⟩ := central_run run
      refine ⟨vouched.calls_later ?_, fun _ _ old => vouched.replies_later old,
        vouched.leases_later fun _ => .inl, vouched.connections_later kept fun _ => .inl⟩
      intro call member
      rcases List.mem_append.mp member with called | old
      · refine .inr fun request isGrant => ?_
        obtain ⟨lease, isLease, recorded⟩ :=
          Central.recorded_of_call isRun.run (Option.mem_toList.mp called) isGrant
        exact ⟨lease, isLease, (recorded_iff isRun).mpr recorded⟩
      · exact .inl old
  | connectCentral p after found taken =>
      have member := (Table.mem_of_find? found).1
      refine ⟨vouched.calls_later fun _ => .inl, fun _ _ old => vouched.replies_later old,
        vouched.leases_later ?_, vouched.connections_later kept ?_⟩
      · intro p' isProcess
        rcases Table.mem_put.mp isProcess with rfl | ⟨old, -⟩
        · exact .inr (vouched.leases p member)
        · exact .inl old
      · intro p' isProcess
        rcases Table.mem_put.mp isProcess with rfl | ⟨old, -⟩
        · exact .inr fun conn isConn => (vouched.connections p member conn isConn).later kept
        · exact .inl old
  | answerCall p call found sent isConnection =>
      have member := (Table.mem_of_find? found).1
      refine ⟨vouched.calls_later fun _ erased => .inl (List.mem_of_mem_erase erased), ?_,
        vouched.leases_later ?_, vouched.connections_later kept ?_⟩
      · intro stream leaseId isReply
        rcases List.mem_append.mp isReply with replied | old
        · obtain ⟨reply, replies, same⟩ := Option.map_eq_some_iff.mp (Option.mem_toList.mp replied)
          obtain ⟨rfl, rfl⟩ := Prod.mk.inj same
          obtain ⟨grant, isGrant, rfl, entered, known⟩ :=
            StorageServer.granted_of_handleControlRequest replies
          obtain ⟨lease, rfl, recorded⟩ := vouched.calls call sent grant isGrant
          exact ⟨lease, rfl, recorded.later, _, List.mem_cons_self, _,
            Table.mem_put.mpr (.inl rfl), entered, known⟩
        · exact vouched.replies_later old
      · intro p' isProcess
        rcases Table.mem_put.mp isProcess with rfl | ⟨old, -⟩
        · refine .inr fun held isHeld => ?_
          rcases StorageServer.leases_of_handleControlRequest isHeld with
            before | ⟨grant, isGrant, rfl⟩
          · exact vouched.leases p member held before
          · obtain ⟨lease, rfl, recorded⟩ := vouched.calls call sent grant isGrant
            exact ⟨lease, rfl, recorded⟩
        · exact .inl old
      · intro p' isProcess
        rcases Table.mem_put.mp isProcess with rfl | ⟨old, -⟩
        · exact .inr fun conn isConn => (vouched.connections p member conn isConn).later kept
        · exact .inl old
  | validate p conn stream clientId c clientToken after found isConn task isConnection taken =>
      have member := (Table.mem_of_find? found).1
      have isVouched := vouched.connections p member conn (Table.mem_of_find? isConn).1
      refine ⟨vouched.calls_later fun _ => .inl, fun _ _ old => vouched.replies_later old,
        vouched.leases_later ?_, vouched.connections_later kept ?_⟩
      · intro p' isProcess
        rcases Table.mem_put.mp isProcess with rfl | ⟨old, -⟩
        · exact .inr (vouched.leases p member)
        · exact .inl old
      · intro p' isProcess
        rcases Table.mem_put.mp isProcess with rfl | ⟨old, -⟩
        · refine .inr fun other isOther => ?_
          rcases SeqTable.mem_replace isOther with rfl | ⟨before, -⟩
          · apply (isVouched.later kept).setTask
            · intro request isHandling
              cases isHandling
            · intro other call isValidating
              obtain ⟨rfl, rfl⟩ := DataStage.validating.inj isValidating
              cases Central.exchangeStep taken with
              | arrival _ request isReceive streams exchanges =>
                  obtain ⟨-, rfl⟩ := CentralEvent.receive.inj isReceive
                  exact ⟨clientToken, exchanges ▸ List.mem_cons_self⟩
              | response _ _ noReceive => exact absurd rfl (noReceive _ _)
              | silent noReceive => exact absurd rfl (noReceive _ _)
          · exact (vouched.connections p member other before).later kept
        · exact .inl old
  | process p p' found step =>
      have member := (Table.mem_of_find? found).1
      refine ⟨vouched.calls_later fun _ => .inl, fun _ _ old => vouched.replies_later old,
        vouched.leases_later ?_, vouched.connections_later kept ?_⟩
      · intro after isProcess
        rcases Table.mem_put.mp isProcess with rfl | ⟨old, -⟩
        · exact .inr fun held isHeld => vouched.leases p member held (leases_of_process step isHeld)
        · exact .inl old
      · intro after isProcess
        rcases Table.mem_put.mp isProcess with rfl | ⟨old, -⟩
        · exact .inr fun conn isConn =>
            (connections_of_process run (vouched.connections p member) step conn isConn).later kept
        · exact .inl old

end Vouched

/-- In every run, what the storages and the calls under way have, central has vouched for. -/
theorem vouched_of_run (run : (cluster config blake3 zstdDecompress).Run ts s) :
    Vouched config ts s := by
  induction run with
  | @init s initial =>
      obtain ⟨-, calls, replies, storages⟩ := initial
      refine ⟨by simp [calls], by simp [replies], ?_, ?_⟩
      · intro p member held isHeld
        rw [(storages p member).1.1] at isHeld
        cases isHeld
      · intro p member conn isConn
        rw [(storages p member).2.1] at isConn
        cases isConn
  | @step ts s s' e run taken inductionHypothesis =>
      exact inductionHypothesis.step run (step_cases taken)

end Cluster

namespace Scenario

/-- Central, and one storage with a volume. -/
def oneStorage : Cluster :=
  ⟨Central.initial,
    ⟨[⟨1, ⟨false, ⟨[⟨1, Volume.Scenario.initial⟩], by simp⟩, .empty⟩, .empty, none⟩], by simp⟩, [], []⟩

theorem oneStorage_init :
    (cluster config Volume.Scenario.blake3 fun bytes _ => .ok bytes).Init oneStorage := by
  refine ⟨rfl, rfl, rfl, ?_⟩
  intro p member
  obtain rfl := List.mem_singleton.mp member
  refine ⟨⟨rfl, fun row isRow => ?_⟩, rfl, rfl⟩
  rw [List.mem_singleton.mp isRow]
  exact Volume.Scenario.initial_init

def onCentral (events : List CentralEvent) : List ClusterEvent := events.map .central

/-- A client registers and creates a volume, and the storage registers with it. -/
def storageRegistered : List ClusterEvent :=
  onCentral ([.connect] ++ request 1 0 4 1 (.registerClient none "token" "0.2.4") ++
    request 1 1 1 1 (.createVolume "v" 100)) ++ [.connectCentral 1] ++
  onCentral (request 2 2 6 1
    (.registerStorage "s" "token" "0.2.4" [⟨1, "v", 100, 0, false⟩] []))

/-- The client begins an update, and the storage grants the lease. -/
def leaseAnswered : List ClusterEvent :=
  storageRegistered ++ onCentral (request 1 3 3 2 (.beginUpdate ⟨"/a", 0, none, none⟩)) ++
    [.answerCall 1 ⟨2, 3, .grantUploadLease ⟨1, 1, 1, 0, 60002, none⟩⟩,
      .central (.run 1 (inputs 2))]

end Scenario

/-- Central hands out a lease only after a storage has entered it for one of its volumes. -/
theorem handed_out_held {config : CentralConfig} {blake3 : Bytes → HashId}
    {zstdDecompress : Bytes → Nat → Fs0Result Bytes}
    {ts : List (Transition Cluster ClusterEvent)} {s : Cluster}
    (run : (cluster config blake3 zstdDecompress).Run ts s) {stream : Nat} {lease : UpdateLease}
    (answered : .answered stream (.control (.beginUpdate lease)) ∈ s.central.exchanges) :
    Cluster.Recorded ts s lease ∧ Cluster.Held ts s lease := by
  induction run with
  | init initial =>
      rw [initial.1] at answered
      cases answered
  | @step ts s s' e run stepped inductionHypothesis =>
      obtain ⟨centralRun, isRun⟩ := Cluster.central_run run
      have kept (old : .answered stream (.control (.beginUpdate lease)) ∈ s.central.exchanges) :
          Cluster.Recorded (⟨s, e, s'⟩ :: ts) s' lease ∧ Cluster.Held (⟨s, e, s'⟩ :: ts) s' lease :=
        ⟨(inductionHypothesis old).1.later, (inductionHypothesis old).2.later⟩
      cases Cluster.step_cases stepped with
      | central e after heard taken =>
          rcases Central.granted_of_step isRun.run taken answered with old | ⟨isHeard, recorded⟩
          · exact kept old
          · obtain ⟨other, sameId, isRecorded, held⟩ :=
              (Cluster.vouched_of_run run).replies _ _ (heard _ isHeard)
            -- The lease the storage has entered is this one: ids are not used twice.
            obtain rfl := Central.recorded_once isRun.run
              ((Cluster.recorded_iff isRun).mp isRecorded) recorded sameId
            exact ⟨isRecorded.later, held.later⟩
      | connectCentral p after found taken =>
          rcases Central.granted_of_step isRun.run taken answered with old | ⟨isHeard, -⟩
          · exact kept old
          · cases isHeard
      | answerCall p call found sent isConnection => exact kept answered
      | validate p conn stream clientId c clientToken after found isConn task isConnection taken =>
          rcases Central.granted_of_step isRun.run taken answered with old | ⟨isHeard, -⟩
          · exact kept old
          · cases isHeard
      | process p p' found step => exact kept answered

theorem handed_out_held_leaseAnswered : ∃ ts s,
    (cluster Scenario.config Volume.Scenario.blake3 fun bytes _ => .ok bytes).Run ts s ∧
      Cluster.Held ts s ⟨1, 1, 1, 0, 0, 60002, none⟩ := by
  let sys := cluster Scenario.config Volume.Scenario.blake3 fun bytes _ => .ok bytes
  obtain ⟨s, ends, answered⟩ := Option.map_eq_some_iff.mp
    (show (sys.exec Scenario.oneStorage Scenario.leaseAnswered).map (fun s =>
        decide (.answered 3 (.control (.beginUpdate ⟨1, 1, 1, 0, 0, 60002, none⟩)) ∈
          s.central.exchanges)) = some true from by decide +kernel)
  obtain ⟨ts, run, -⟩ := (System.Run.init Scenario.oneStorage_init).exec _ ends
  exact ⟨ts ++ [], s, run, (handed_out_held run (of_decide_eq_true answered)).2⟩

end Fs0
