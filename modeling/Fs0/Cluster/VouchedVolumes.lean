import Fs0.Cluster.Vouched
import Fs0.Storage.LeasedCalls

/-!
Contract: what is in the volumes of the storages, central has vouched for.

Owns:
- what an event of the system has the server of one storage do;
- the requests that were handled for a registered client under a recorded lease;
- that these requests account for the calls, the chunks, the bundles and the writes.

Does not own: who may read.
-/

set_option autoImplicit false

namespace Fs0

open Lib

/-! ## The server of a storage -/

/-- What an event has the server of one storage do. -/
inductive ServerStep (blake3 : Bytes → HashId) (zstdDecompress : Bytes → Nat → Fs0Result Bytes)
    (p : StorageProcess) (e : ClusterEvent) : StorageServer → Prop where
  | idle : ServerStep blake3 zstdDecompress p e p.server
  | handles (conn : DataConnection) (stream : Nat) (request : DataRequest) (inputs : DataInputs)
      (server : StorageServer) (isEvent : e = .handle p.name conn.connection stream inputs)
      (found : p.connections.find? conn.connection = some conn)
      (task : conn.tasks.find? stream = some ⟨stream, .handling request⟩)
      (handled : p.server.handleDataRequest blake3 zstdDecompress inputs request = some server) :
      ServerStep blake3 zstdDecompress p e server
  | steps (storageEvent : StorageEvent) (server : StorageServer)
      (taken : (storage blake3 zstdDecompress).step p.server storageEvent = some server)
      (free : ∀ volumeId caused, storageEvent.Causes volumeId caused → caused.needsLease = false) :
      ServerStep blake3 zstdDecompress p e server

/-- A server stays as it is or takes a step of its own. -/
theorem ServerStep.taken {blake3 : Bytes → HashId} {zstdDecompress : Bytes → Nat → Fs0Result Bytes}
    {p : StorageProcess} {e : ClusterEvent} {server : StorageServer}
    (step : ServerStep blake3 zstdDecompress p e server) : server = p.server ∨
      ∃ storageEvent, (storage blake3 zstdDecompress).step p.server storageEvent = some server := by
  cases step with
  | idle => exact .inl rfl
  | handles conn stream request inputs server isEvent isConn task handled =>
      rcases StorageServer.step_of_handleDataRequest handled with same | ⟨e, -, stepped⟩
      · exact .inl same
      · exact .inr ⟨e, stepped⟩
  | steps storageEvent server stepped free => exact .inr ⟨storageEvent, stepped⟩

namespace Cluster

variable {config : CentralConfig} {blake3 : Bytes → HashId}
  {zstdDecompress : Bytes → Nat → Fs0Result Bytes} {s s' : Cluster} {e : ClusterEvent}
  {ts : List (Transition Cluster ClusterEvent)}

theorem server_of_control (p : StorageProcess) (request : ControlRequest) :
    ServerStep blake3 zstdDecompress p e (p.server.handleControlRequest request).1 := by
  cases request with
  | grantUploadLease grant =>
      exact .steps (.grantUploadLease grant) _ rfl fun volumeId caused causes => causes.elim
  | revokeUploadLease leaseId =>
      exact .steps (.revokeUploadLease leaseId) _ rfl fun volumeId caused causes => causes.elim
  | _ => exact .idle

theorem server_of_process {central : Central} {p p' : StorageProcess}
    (step : ProcessStep blake3 zstdDecompress central p e p') :
    p'.name = p.name ∧ ServerStep blake3 zstdDecompress p e p'.server := by
  cases step with
  | handle conn stream request inputs server found task handled =>
      exact ⟨rfl, .handles conn stream request inputs server rfl found task handled⟩
  | volume volumeId e server taken =>
      refine ⟨rfl, .steps (.volume volumeId e) server taken ?_⟩
      rintro other caused ⟨-, rfl⟩
      have stepped : (storage blake3 zstdDecompress).step p.server (.volume volumeId caused) =
        some server := taken
      exact StorageServer.needsLease_of_volume stepped
  | restart torn server taken =>
      refine ⟨rfl, .steps (.restart torn) server taken ?_⟩
      rintro volumeId caused rfl
      rfl
  | _ => exact ⟨rfl, .idle⟩

/-- Every event has each storage do one step at most. -/
theorem server_of_step (taken : ClusterStep config blake3 zstdDecompress s e s') {name : Nat}
    {p' : StorageProcess} (found' : s'.storages.find? name = some p') :
    ∃ p, s.storages.find? name = some p ∧ ServerStep blake3 zstdDecompress p e p'.server := by
  have replaced {p p₁ : StorageProcess}
      (isAfter : (s.storages.put p₁).find? name = some p')
      (found : s.storages.find? p.name = some p) (sameName : p₁.name = p.name)
      (step : ServerStep blake3 zstdDecompress p e p₁.server) :
      ∃ p, s.storages.find? name = some p ∧
        ServerStep blake3 zstdDecompress p e p'.server := by
    by_cases isName : name = p₁.name
    · rw [isName, Table.find?_put_self] at isAfter
      obtain rfl := Option.some.inj isAfter
      exact ⟨p, by rw [isName, sameName, found], step⟩
    · rw [Table.find?_put_of_ne isName] at isAfter
      exact ⟨p', isAfter, .idle⟩
  cases taken with
  | central e after heard taken => exact ⟨p', found', .idle⟩
  | connectCentral p after found taken => exact replaced found' found rfl .idle
  | answerCall p call found sent isConnection =>
      exact replaced found' found rfl (server_of_control p call.request)
  | validate p conn stream clientId c clientToken after found isConn task isConnection taken =>
      exact replaced found' found rfl .idle
  | process p p₁ found step =>
      obtain ⟨sameName, step⟩ := server_of_process step
      exact replaced found' found sameName step

/-- The server of every storage is one that a storage can reach. -/
theorem reachable_server (run : (cluster config blake3 zstdDecompress).Run ts s) :
    ∀ p ∈ s.storages.rows, (storage blake3 zstdDecompress).Reachable p.server := by
  induction run with
  | init initial => exact fun p member => .init (initial.2.2.2 p member).1
  | @step ts s s' e run taken inductionHypothesis =>
      intro p' member
      obtain ⟨p, found, step⟩ := server_of_step (step_cases taken)
        (Table.find?_eq_some.mpr ⟨member, rfl⟩)
      have before := inductionHypothesis p (Table.mem_of_find? found).1
      rcases step.taken with same | ⟨_, stepped⟩
      · exact same ▸ before
      · exact before.step stepped

/-! ## Requests that central vouched for -/

/-- A storage handles a request for the client that its connection has authenticated. -/
def Handles (t : Transition Cluster ClusterEvent) (storage : Nat) (request : DataRequest)
    (clientId leaseNow : Nat) : Prop :=
  ∃ connection stream inputs p conn, t.event = .handle storage connection stream inputs ∧
    inputs.leaseNow = leaseNow ∧ t.pre.storages.find? storage = some p ∧
    p.connections.find? connection = some conn ∧
    conn.tasks.find? stream = some ⟨stream, .handling request⟩ ∧
    conn.authenticatedClientId = some clientId

/-- Central had recorded the lease that a request names, and it has not expired. -/
def Leased (ts : List (Transition Cluster ClusterEvent)) (s : Cluster) (request : DataRequest)
    (now : Nat) : Prop :=
  ∃ lease, Recorded ts s lease ∧
    request.lease? = some (lease.leaseId, lease.fileId, lease.volumeId) ∧
    now < lease.expiresAtMs

/-- A storage handled a request in a run, for a client that central had registered with an allowed
token, and under an unexpired lease that central had recorded. -/
def HandledUnderLease (config : CentralConfig) (ts : List (Transition Cluster ClusterEvent))
    (storage : Nat) (request : DataRequest) : Prop :=
  ∃ later t earlier clientId leaseNow, ts = later ++ t :: earlier ∧
    Handles t storage request clientId leaseNow ∧ Knew config earlier t.pre clientId ∧
    Leased earlier t.pre request leaseNow

/-- A storage took an upload of these bytes under a lease. -/
def Uploaded (config : CentralConfig) (ts : List (Transition Cluster ClusterEvent))
    (storage volumeId : Nat) (chunkId : HashId) (rawLen : Nat) (bytes : Bytes) : Prop :=
  ∃ leaseId fileId, HandledUnderLease config ts storage
    (.uploadChunk ⟨leaseId, fileId, volumeId, chunkId, rawLen, bytes⟩)

/-- A storage took a commit of this bundle under a lease. -/
def Committed (config : CentralConfig) (ts : List (Transition Cluster ClusterEvent))
    (storage volumeId : Nat) (bundleId : HashId) (chunks : List BundleChunkRef) : Prop :=
  ∃ leaseId fileId, HandledUnderLease config ts storage
    (.commitBundle ⟨leaseId, fileId, volumeId, bundleId, chunks⟩)

/-- The request behind a call that needs a lease was handled. -/
def Asked (config : CentralConfig) (ts : List (Transition Cluster ClusterEvent))
    (storage volumeId : Nat) : VolumeEvent → Prop
  | .putChunk chunkId rawLen bytes _ => Uploaded config ts storage volumeId chunkId rawLen bytes
  | .commitBundle bundleId chunks _ => Committed config ts storage volumeId bundleId chunks
  | _ => False

theorem HandledUnderLease.later {storage : Nat} {request : DataRequest}
    (handled : HandledUnderLease config ts storage request) (t : Transition Cluster ClusterEvent) :
    HandledUnderLease config (t :: ts) storage request := by
  obtain ⟨later, before, earlier, clientId, leaseNow, rfl, rest⟩ := handled
  exact ⟨t :: later, before, earlier, clientId, leaseNow, rfl, rest⟩

theorem Asked.later {storage volumeId : Nat} {e : VolumeEvent}
    (asked : Asked config ts storage volumeId e) (t : Transition Cluster ClusterEvent) :
    Asked config (t :: ts) storage volumeId e := by
  cases e with
  | putChunk chunkId rawLen bytes now =>
      obtain ⟨leaseId, fileId, handled⟩ := asked
      exact ⟨leaseId, fileId, handled.later t⟩
  | commitBundle bundleId chunks commit =>
      obtain ⟨leaseId, fileId, handled⟩ := asked
      exact ⟨leaseId, fileId, handled.later t⟩
  | _ => exact asked.elim

/-- The call that the request of a data connection makes, when it needs a lease. -/
theorem asked_of_causes {storage clientId leaseNow volumeId : Nat} {request : DataRequest}
    {inputs : DataInputs} {storageEvent : StorageEvent} {caused : VolumeEvent}
    {t : Transition Cluster ClusterEvent} (handles : Handles t storage request clientId leaseNow)
    (knew : Knew config ts t.pre clientId) (leased : request.lease?.isSome → Leased ts t.pre request leaseNow)
    (isEvent : request.storageEvent? inputs = some storageEvent)
    (causes : storageEvent.Causes volumeId caused) (needs : caused.needsLease = true) :
    Asked config (t :: ts) storage volumeId caused := by
  have handled (isSome : request.lease?.isSome) :
      HandledUnderLease config (t :: ts) storage request :=
    ⟨[], t, ts, clientId, leaseNow, rfl, handles, knew, leased isSome⟩
  cases request with
  | uploadChunk request =>
      obtain rfl := Option.some.inj isEvent
      obtain ⟨rfl, rfl⟩ := causes
      exact ⟨request.leaseId, request.fileId, handled rfl⟩
  | commitBundle request =>
      obtain rfl := Option.some.inj isEvent
      obtain ⟨rfl, rfl⟩ := causes
      exact ⟨request.leaseId, request.fileId, handled rfl⟩
  | downloadChunk request =>
      obtain rfl := Option.some.inj isEvent
      obtain ⟨-, rfl⟩ := causes
      cases needs
  | _ => cases isEvent

/-- A request is handled for a client that central knew, and changes the volumes of its storage
under a lease. -/
theorem handled_of_server {p : StorageProcess} {conn : DataConnection} {stream : Nat}
    {request : DataRequest} {inputs : DataInputs} {server : StorageServer} {storage : Nat}
    (run : (cluster config blake3 zstdDecompress).Run ts s)
    (found : s.storages.find? storage = some p)
    (isConn : p.connections.find? conn.connection = some conn)
    (task : conn.tasks.find? stream = some ⟨stream, .handling request⟩)
    (handled : p.server.handleDataRequest blake3 zstdDecompress inputs request = some server) :
    ∃ clientId, conn.authenticatedClientId = some clientId ∧ Knew config ts s clientId ∧
      (server.volumes = p.server.volumes ∨
        (request.lease?.isSome → Leased ts s request inputs.leaseNow)) := by
  have vouched := vouched_of_run run
  have member := (Table.mem_of_find? found).1
  have isVouched := vouched.connections p member conn (Table.mem_of_find? isConn).1
  have authenticated := isVouched.handling stream request (Table.mem_of_find? task).1
  obtain ⟨clientId, isClient⟩ := Option.isSome_iff_exists.mp authenticated
  refine ⟨clientId, isClient, isVouched.authenticated clientId isClient, ?_⟩
  cases needs : request.lease? with
  | none => exact .inr fun isSome => by cases isSome
  | some ids =>
      obtain ⟨leaseId, fileId, volumeId⟩ := ids
      rcases StorageServer.leased_of_handleDataRequest handled needs with
        unchanged | ⟨held, isHeld, rfl, rfl, rfl, unexpired⟩
      · exact .inl unchanged
      · obtain ⟨lease, rfl, recorded⟩ := vouched.leases p member held isHeld
        exact .inr fun _ => ⟨lease, recorded, needs, unexpired⟩

/-- What is in the volumes of the storages came with requests that central vouched for. -/
theorem cameWith_of_run (run : (cluster config blake3 zstdDecompress).Run ts s) :
    ∀ p ∈ s.storages.rows, p.server.CameWith (Asked config ts p.name) := by
  induction run with
  | init initial => exact fun p member => StorageServer.cameWith_init (initial.2.2.2 p member).1
  | @step ts s s' e run taken inductionHypothesis =>
      intro p' member'
      obtain ⟨p, found, step⟩ := server_of_step (step_cases taken)
        (Table.find?_eq_some.mpr ⟨member', rfl⟩)
      obtain ⟨member, isName⟩ := Table.mem_of_find? found
      have reachable := reachable_server run p member
      have before : p.server.CameWith (Asked config (⟨s, e, s'⟩ :: ts) p'.name) :=
        (isName ▸ inductionHypothesis p member).mono fun _ _ asked => asked.later _
      generalize p'.server = server at step
      cases step with
      | idle => exact before
      | handles conn stream request inputs _ isEvent isConn task handled =>
          obtain ⟨clientId, isClient, knew, leased⟩ :=
            handled_of_server run found isConn task handled
          rcases leased with unchanged | leased
          · unfold StorageServer.CameWith
            rw [unchanged]
            exact before
          · rcases StorageServer.step_of_handleDataRequest handled with
              same | ⟨storageEvent, asks, stepped⟩
            · exact same ▸ before
            · refine before.of_step reachable stepped fun volumeId caused causes needs => ?_
              refine asked_of_causes ?_ knew leased asks causes needs
              exact ⟨_, _, inputs, p, conn, isName ▸ isEvent, rfl, found, isConn, task, isClient⟩
      | steps storageEvent _ stepped free =>
          refine before.of_step reachable stepped fun volumeId caused causes needs => ?_
          rw [free volumeId caused causes] at needs
          cases needs

/-! ## Volumes -/

/-- The server of a storage. -/
def server (s : Cluster) (name : Nat) : Option StorageServer :=
  (s.storages.find? name).map StorageProcess.server

/-- A volume of a storage. -/
def volume (s : Cluster) (name volumeId : Nat) : Option Volume :=
  (s.server name).bind fun server => (server.volumes.find? volumeId).map StorageVolume.volume

theorem volume_eq_some {name volumeId : Nat} {v : Volume} (isVolume : s.volume name volumeId = some v) :
    ∃ p, s.storages.find? name = some p ∧ p.server.volumes.find? volumeId = some ⟨volumeId, v⟩ := by
  obtain ⟨server, isServer, rest⟩ := Option.bind_eq_some_iff.mp isVolume
  obtain ⟨p, found, rfl⟩ := Option.map_eq_some_iff.mp isServer
  obtain ⟨row, isRow, rfl⟩ := Option.map_eq_some_iff.mp rest
  obtain rfl := (Table.mem_of_find? isRow).2
  exact ⟨p, found, isRow⟩

theorem handles_of_step (run : (cluster config blake3 zstdDecompress).Run ts s)
    (taken : ClusterStep config blake3 zstdDecompress s e s')
    {name connection stream : Nat} {inputs : DataInputs}
    (isEvent : e = .handle name connection stream inputs) :
    ∃ request clientId, Handles ⟨s, e, s'⟩ name request clientId inputs.leaseNow ∧
      Knew config ts s clientId ∧ (request.lease?.isSome →
        (s'.server name).map StorageServer.volumes ≠ (s.server name).map StorageServer.volumes →
          Leased ts s request inputs.leaseNow) := by
  subst isEvent
  cases taken with
  | process p p' found step =>
      cases step with
      | handle conn stream request inputs server isConn task handled =>
          obtain ⟨clientId, isClient, knew, leased⟩ :=
            handled_of_server run found isConn task handled
          refine ⟨request, clientId,
            ⟨_, stream, inputs, p, conn, rfl, rfl, found, isConn, task, isClient⟩, knew, ?_⟩
          intro needs changed
          rcases leased with unchanged | leased
          · refine absurd ?_ changed
            have now : (s.storages.put ({ p with server := server }.setConnection
                (conn.endTask stream))).find? p.name = some _ := Table.find?_put_self
            unfold Cluster.server setStorage
            rw [now, found]
            exact congrArg some unchanged
          · exact leased needs

theorem covered_of_step (run : (cluster config blake3 zstdDecompress).Run ts s)
    (taken : ClusterStep config blake3 zstdDecompress s e s') {name volumeId : Nat} {v v' : Volume}
    (before : s.volume name volumeId = some v) (after : s'.volume name volumeId = some v')
    {file offset : Nat} (changed : v'.files file offset ≠ v.files file offset) :
    ∃ put ∈ v.puts.rows, put.insert.Covers file offset ∧
      Uploaded config ts name volumeId put.insert.chunkId put.insert.rawLen put.bytes := by
  obtain ⟨p, found, isRow⟩ := volume_eq_some before
  obtain ⟨p', found', isRow'⟩ := volume_eq_some after
  obtain ⟨member, rfl⟩ := Table.mem_of_find? found
  obtain ⟨p₁, same, step⟩ := server_of_step taken found'
  obtain rfl := Option.some.inj (found.symm.trans same)
  obtain ⟨put, isPut, covers⟩ : ∃ put ∈ v.puts.rows, put.insert.Covers file offset := by
    rcases step.taken with idle | ⟨_, stepped⟩
    · rw [idle, isRow] at isRow'
      cases isRow'
      exact absurd rfl changed
    · exact StorageServer.covered_of_step (reachable_server run p member) stepped isRow isRow' changed
  obtain ⟨now, uploaded⟩ :=
    (cameWith_of_run run p member _ (Table.mem_of_find? isRow).1).calls put (.inl isPut)
  exact ⟨put, isPut, covers, uploaded⟩

end Cluster

/-- A storage handles a data request only for a client that central had registered with an allowed
token, and an upload or a commit changes a volume only under an unexpired lease that central had
recorded for its file and its volume. Later steps write the bytes of such uploads only, every chunk
has the bytes of one, and every bundle the list of such a commit. -/
theorem handled_vouched {config : CentralConfig} {blake3 : Bytes → HashId}
    {zstdDecompress : Bytes → Nat → Fs0Result Bytes}
    {ts : List (Transition Cluster ClusterEvent)} {s : Cluster}
    (run : (cluster config blake3 zstdDecompress).Run ts s) :
    (∀ later t earlier, ts = later ++ t :: earlier →
      (∀ name connection stream inputs, t.event = .handle name connection stream inputs →
        ∃ request clientId, Cluster.Handles t name request clientId inputs.leaseNow ∧
          Cluster.Knew config earlier t.pre clientId ∧
          (request.lease?.isSome → (t.post.server name).map StorageServer.volumes ≠
              (t.pre.server name).map StorageServer.volumes →
            Cluster.Leased earlier t.pre request inputs.leaseNow)) ∧
      ∀ name volumeId v v', t.pre.volume name volumeId = some v →
        t.post.volume name volumeId = some v' →
        ∀ file offset, v'.files file offset ≠ v.files file offset →
          ∃ put ∈ v.puts.rows, put.insert.Covers file offset ∧
            Cluster.Uploaded config earlier name volumeId put.insert.chunkId put.insert.rawLen
              put.bytes) ∧
    ∀ name volumeId v, s.volume name volumeId = some v →
      (∀ chunk ∈ v.tables.chunks.rows,
        Cluster.Uploaded config ts name volumeId chunk.chunkId chunk.rawLen
          (chunk.content v.files)) ∧
      ∀ bundleId, v.tables.HasBundle bundleId →
        Cluster.Committed config ts name volumeId bundleId (v.tables.chunkList bundleId) := by
  constructor
  · rintro later t earlier rfl
    obtain ⟨before, taken⟩ := run.before
    have step := Cluster.step_cases taken
    exact ⟨fun name connection stream inputs => Cluster.handles_of_step before step,
      fun name volumeId v v' isBefore isAfter file offset =>
        Cluster.covered_of_step before step isBefore isAfter⟩
  · intro name volumeId v isVolume
    obtain ⟨p, found, isRow⟩ := Cluster.volume_eq_some isVolume
    obtain ⟨member, rfl⟩ := Table.mem_of_find? found
    have isMember := (Table.mem_of_find? isRow).1
    have came := Cluster.cameWith_of_run run p member _ isMember
    have reachable := (StorageServer.reachable_serves
      (Cluster.reachable_server run p member)).reachable _ isMember
    constructor
    · intro chunk stored
      obtain ⟨put, inserted, rfl⟩ := (Volume.reachable_allocates reachable).rows chunk stored
      obtain ⟨-, content⟩ := (Volume.reachable_holds reachable).inserted put inserted
      obtain ⟨now, uploaded⟩ := came.calls put (.inr inserted)
      rw [content]
      exact uploaded
    · intro bundleId has
      obtain ⟨commit, committed⟩ := came.bundles bundleId has
      exact committed

namespace Scenario

/-- The client authenticates at the storage, and sends a chunk. -/
def chunkSent : List ClusterEvent :=
  leaseAnswered ++
    [.connectData 1, .receiveData 1 1 (.data (.authenticate 1 "token")), .look 1 1 1,
      .validate 1 1 1, .central (.lockIdentity 2 4), .central (.run 2 (inputs 2)),
      .authenticate 1 1 1,
      .receiveData 1 1 (.data (.uploadChunk ⟨1, 1, 1, Volume.Scenario.hash 7, 3, [7, 2, 3]⟩)),
      .look 1 1 2]

/-- The chunk is stored, and the client commits a bundle of it. -/
def bundleSent : List ClusterEvent :=
  [.volume 1 1 (.storeChunk 1),
    .receiveData 1 1 (.data (.commitBundle
      ⟨1, 1, 1, Volume.Scenario.hash 7, [⟨0, Volume.Scenario.hash 7⟩]⟩)),
    .look 1 1 3, .handle 1 1 3 ⟨3, 3, none⟩]

end Scenario

/-- A client that registered and began an update sends a chunk and commits a bundle of it. -/
theorem handled_vouched_bundleSent : ∃ later write handle earlier s,
    (cluster Scenario.config Volume.Scenario.blake3 fun bytes _ => .ok bytes).Run
      (later ++ write :: handle :: earlier) s ∧
    (∃ clientId, Cluster.Knew Scenario.config earlier handle.pre clientId) ∧
    (∃ put : PutCall, put.insert.Covers 0 0 ∧ Cluster.Uploaded Scenario.config (handle :: earlier)
      1 1 put.insert.chunkId put.insert.rawLen put.bytes) ∧
    Cluster.Uploaded Scenario.config (later ++ write :: handle :: earlier) 1 1
      (Volume.Scenario.hash 7) 3 [7, 2, 3] ∧
    Cluster.Committed Scenario.config (later ++ write :: handle :: earlier) 1 1
      (Volume.Scenario.hash 7) [⟨0, Volume.Scenario.hash 7⟩] := by
  let sys := cluster Scenario.config Volume.Scenario.blake3 fun bytes _ => .ok bytes
  let byte (s : Cluster) := (s.volume 1 1).map fun v => v.files 0 0
  let stored (v : Volume) :=
    (v.tables.chunks.rows.any fun chunk => decide (chunk.chunkId = Volume.Scenario.hash 7 ∧
        chunk.rawLen = 3 ∧ chunk.content v.files = [7, 2, 3]),
      decide (v.tables.HasBundle (Volume.Scenario.hash 7) ∧
        v.tables.chunkList (Volume.Scenario.hash 7) = [⟨0, Volume.Scenario.hash 7⟩]))
  obtain ⟨s₀, sent, rest⟩ := Option.bind_eq_some_iff.mp
    (show ((sys.exec Scenario.oneStorage Scenario.chunkSent).bind fun s₀ =>
        (sys.step s₀ (.handle 1 1 2 ⟨2, 2, none⟩)).bind fun s₁ =>
          (sys.step s₁ (.volume 1 1 (.write 1 3))).bind fun s₂ =>
            (sys.exec s₂ Scenario.bundleSent).map fun s =>
              (byte s₁, byte s₂, (s.volume 1 1).map stored)) =
      some (some 0, some 7, some (true, true)) from by decide +kernel)
  obtain ⟨s₁, handles, rest⟩ := Option.bind_eq_some_iff.mp rest
  obtain ⟨s₂, writes, rest⟩ := Option.bind_eq_some_iff.mp rest
  obtain ⟨s, ends, facts⟩ := Option.map_eq_some_iff.mp rest
  obtain ⟨before, facts⟩ := Prod.mk.inj facts
  obtain ⟨after, facts⟩ := Prod.mk.inj facts
  obtain ⟨v₁, isVolume₁, before⟩ := Option.map_eq_some_iff.mp before
  obtain ⟨v₂, isVolume₂, after⟩ := Option.map_eq_some_iff.mp after
  obtain ⟨v, isVolume, facts⟩ := Option.map_eq_some_iff.mp facts
  obtain ⟨hasChunk, hasBundle⟩ := Prod.mk.inj facts
  obtain ⟨has, isList⟩ := of_decide_eq_true hasBundle
  obtain ⟨earlier, run, -⟩ := (System.Run.init Scenario.oneStorage_init).exec _ sent
  obtain ⟨later, whole, -⟩ := ((run.step handles).step writes).exec _ ends
  obtain ⟨steps, volumes⟩ := handled_vouched whole
  refine ⟨later, _, _, earlier ++ [], s, whole, ?_, ?_, ?_, ?_⟩
  · obtain ⟨request, clientId, -, knew, -⟩ :=
      (steps (later ++ [_]) _ _ (List.append_assoc later [_] _).symm).1 1 1 2 _ rfl
    exact ⟨clientId, knew⟩
  · obtain ⟨put, -, covers, uploaded⟩ := (steps later _ _ rfl).2 1 1 v₁ v₂ isVolume₁ isVolume₂ 0 0
      (by rw [before, after]; decide)
    exact ⟨put, covers, uploaded⟩
  · obtain ⟨chunk, member, isChunk⟩ := List.any_eq_true.mp hasChunk
    obtain ⟨isId, rawLen, content⟩ := of_decide_eq_true isChunk
    have uploaded := (volumes 1 1 v isVolume).1 chunk member
    rw [isId, rawLen, content] at uploaded
    exact uploaded
  · have committed := (volumes 1 1 v isVolume).2 _ has
    rw [isList] at committed
    exact committed

end Fs0
