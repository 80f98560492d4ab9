import Fs0.Central.Runs

/-!
Contract: the registration of a storage as one call.

Owns:
- `register_storage` from its checks to its answer, and that the sections of its handler
  compute it when nothing comes between them;
- when the transaction over the volumes goes through, and what it raises;
- that a registration which fails changes nothing, unless it fails at the volumes online.

Does not own: the sections of other handlers that may come between.
-/

set_option autoImplicit false

namespace Fs0

open Lib Fallible

namespace Registration

/-- `register_storage`, with the snapshot it answers with. -/
def registerStorageCall (config : CentralConfig) (commit : Option Fs0Error) (name token : String)
    (volumes : List StorageVolumeInfo) (irohEndpoint : Bytes) (connection : Nat) :
    CentralM (Nat × List StoragePeerInfo) := do
  require (config.tokenAllowed token) .unauthorized
  let volumes ← CentralM.transact commit (registerVolumes volumes)
  let storageId ← CentralM.nextId
  mountVolumes ⟨storageId, name, volumes, irohEndpoint⟩
  insertStorage ⟨storageId, name, volumes, irohEndpoint⟩ connection
  let storages ← CentralM.storagePeersSnapshot
  pure (storageId, storages)

/-- The next section of a handler that goes on at once. -/
def resumed (config : CentralConfig) (inputs : Inputs) (connection : Nat)
    (identity : ControlConnectionIdentity) : Progress → CentralM Progress
  | .next handler => handler.resume config inputs connection identity
  | progress => pure progress

theorem registerStorage_sections (config : CentralConfig) (inputs : Inputs) (connection : Nat)
    (identity : ControlConnectionIdentity) (name token version : String)
    (volumes : List StorageVolumeInfo) (irohEndpoint : Bytes) :
    ((Handler.start (.registerStorage name token version volumes irohEndpoint)).resume config inputs
        connection identity >>= resumed config inputs connection identity >>=
      resumed config inputs connection identity >>= resumed config inputs connection identity >>=
      resumed config inputs connection identity) = (do
        lift (validateRegistrationVersion version)
        let (storageId, storages) ←
          registerStorageCall config inputs.commit name token volumes irohEndpoint connection
        pure (.identify (.storage storageId) (.broadcast (.registerStorage storageId storages)))) := by
  simp only [Handler.resume, handleControlRequest, registerStorageCall, resumed, bind_assoc,
    pure_bind]

/-! ## The volumes of a registration -/

open CentralTx

/-- The transaction accepts a volume that is known with the same size. -/
def Accepts (tables : CentralTables) (volume : StorageVolumeInfo) : Prop :=
  volume.volumeId ≤ i64Max ∧ ∃ row, tables.volumes.find? volume.volumeId = some row ∧
    row.maxBytes = volume.maxBytes ∧
    (row.maxVolumeOffset < volume.maxVolumeOffset → volume.maxVolumeOffset ≤ i64Max)

/-- The volume reports no more than is recorded. -/
def WithinRecorded (tables : CentralTables) (volume : StorageVolumeInfo) : Prop :=
  ∀ row, tables.volumes.find? volume.volumeId = some row →
    volume.maxVolumeOffset ≤ row.maxVolumeOffset

/-- A volume row after a volume was registered. -/
def raisedBy (volume : StorageVolumeInfo) (row : VolumeRow) : VolumeRow :=
  if row.volumeId = volume.volumeId then
    { row with maxVolumeOffset := max row.maxVolumeOffset volume.maxVolumeOffset }
  else row

theorem raisedBy_volumeId (volume : StorageVolumeInfo) (row : VolumeRow) :
    (raisedBy volume row).volumeId = row.volumeId := by
  unfold raisedBy
  split <;> rfl

theorem raisedBy_maxBytes (volume : StorageVolumeInfo) (row : VolumeRow) :
    (raisedBy volume row).maxBytes = row.maxBytes := by
  unfold raisedBy
  split <;> rfl

theorem le_raisedBy (volume : StorageVolumeInfo) (row : VolumeRow) :
    row.maxVolumeOffset ≤ (raisedBy volume row).maxVolumeOffset := by
  unfold raisedBy
  split
  · exact Nat.le_max_left _ _
  · exact Nat.le_refl _

/-- A volume that reports no more than is recorded raises nothing. -/
theorem raisedBy_of_within {tables : CentralTables} {volume : StorageVolumeInfo} {row : VolumeRow}
    (within : WithinRecorded tables volume) (member : row ∈ tables.volumes.rows) :
    raisedBy volume row = row := by
  unfold raisedBy
  split
  next isRow =>
    have known := within row (Table.find?_eq_some.mpr ⟨member, isRow⟩)
    rw [Nat.max_eq_left known]
  next => rfl

variable {db db' : CentralDb} {volume : StorageVolumeInfo}

theorem getVolume_of_find? {volumeId : Nat} {row : VolumeRow} (fits : volumeId ≤ i64Max)
    (found : db.1.volumes.find? volumeId = some row) :
    CentralTx.getVolume volumeId db = .ok (CentralTx.VolumeInfo row) db := by
  refine bindU64_bind_eq_ok.mpr ⟨fits, ?_⟩
  rw [CentralTx.query_bind_eq_ok, found]
  rfl

theorem updateVolumeOffset_of_find? {volumeId maxVolumeOffset : Nat} {row : VolumeRow}
    (idFits : volumeId ≤ i64Max) (offsetFits : maxVolumeOffset ≤ i64Max)
    (found : db.1.volumes.find? volumeId = some row) :
    ∃ info db', CentralTx.updateVolumeOffset volumeId maxVolumeOffset db = .ok info db' := by
  have keeps : ∀ row, (offsetTo volumeId maxVolumeOffset row).volumeId = row.volumeId := by
    intro row
    unfold offsetTo
    split <;> rfl
  let after : CentralTables := { db.1 with
    volumes := db.1.volumes.update (offsetTo volumeId maxVolumeOffset) keeps }
  have stored : CentralTx.execute (CentralTables.setVolumeOffset volumeId maxVolumeOffset) db =
      .ok 1 (after, db.2) := by
    refine execute_eq_ok.mpr ⟨?_, rfl⟩
    unfold CentralTables.setVolumeOffset
    rw [found]
    rfl
  have updated : after.volumes.find? volumeId = some (offsetTo volumeId maxVolumeOffset row) := by
    have mapped : after.volumes.find? volumeId =
        (db.1.volumes.find? volumeId).map (offsetTo volumeId maxVolumeOffset) :=
      Table.find?_update keeps
    rw [mapped, found]
    rfl
  have isVolume : CentralTx.getVolume volumeId (after, db.2) =
      .ok (CentralTx.VolumeInfo (offsetTo volumeId maxVolumeOffset row)) (after, db.2) :=
    getVolume_of_find? idFits updated
  exact ⟨_, _, bindU64_bind_eq_ok.mpr ⟨idFits, bindU64_bind_eq_ok.mpr
    ⟨offsetFits, bind_eq_ok.mpr ⟨1, _, stored, require_bind_eq_ok.mpr ⟨by decide, isVolume⟩⟩⟩⟩⟩

/-- What the registration of some volumes does to the rows of all. -/
structure Raised (volumes : List StorageVolumeInfo) (before after : CentralTables) : Prop where
  rows : ∀ volumeId, after.volumes.find? volumeId =
    (before.volumes.find? volumeId).map fun row => volumes.foldl (fun row volume => raisedBy volume row) row
  within : (∀ volume ∈ volumes, WithinRecorded before volume) → after = before

/-- What a volume that is registered does to the tables. -/
theorem registerVolume_eq_ok {registered : StorageVolumeInfo}
    (ran : registerVolume volume db = .ok registered db') :
    Accepts db.1 volume ∧ Raised [volume] db.1 db'.1 ∧
      registered.volumeId = volume.volumeId := by
  obtain ⟨known, db₁, found, rest⟩ := bind_eq_ok.mp ran
  obtain ⟨fits, -⟩ := bindU64_bind_eq_ok.mp found
  obtain ⟨rfl, row, isRow, rfl⟩ := getVolume_eq_ok found
  obtain ⟨member, isKey⟩ := Table.mem_of_find? isRow
  dsimp only at rest
  split at rest
  next exceeds =>
    have raises : max row.maxVolumeOffset volume.maxVolumeOffset ≠ row.maxVolumeOffset := exceeds
    obtain ⟨updated, db₂, stored, rest⟩ := bind_eq_ok.mp rest
    obtain ⟨-, bound⟩ := bindU64_bind_eq_ok.mp stored
    obtain ⟨offsetFits, -⟩ := bindU64_bind_eq_ok.mp bound
    obtain ⟨-, rows, -⟩ := updateVolumeOffset_effect stored
    have offsetFits : max row.maxVolumeOffset volume.maxVolumeOffset ≤ i64Max := offsetFits
    have rows : db₂.1.volumes.rows = db₁.1.volumes.rows.map (offsetTo volume.volumeId
      (max row.maxVolumeOffset volume.maxVolumeOffset)) := rows
    obtain ⟨sameSize, ended⟩ := require_bind_eq_ok.mp rest
    obtain ⟨rfl, rfl⟩ := EStateM.Result.ok.inj ended
    have sameRow : ∀ other ∈ db₁.1.volumes.rows,
        offsetTo volume.volumeId (max row.maxVolumeOffset volume.maxVolumeOffset) other =
          raisedBy volume other := by
      intro other among
      unfold offsetTo raisedBy
      split
      next isVolume =>
        obtain rfl := Table.eq_of_key_eq among member (isVolume.trans isKey.symm)
        rfl
      next => rfl
    rw [List.map_congr_left sameRow] at rows
    have table : db₂.1.volumes.toTable =
        db₁.1.volumes.toTable.update (raisedBy volume) (raisedBy_volumeId volume) := Table.ext rows
    refine ⟨⟨fits, row, isRow, sameSize, fun _ => by omega⟩, ⟨?_, ?_⟩, rfl⟩
    · intro volumeId
      rw [table, Table.find?_update]
      rfl
    · intro within
      have known := within volume List.mem_cons_self row isRow
      exact absurd (Nat.max_eq_left known) raises
  next known =>
    have kept : ¬ max row.maxVolumeOffset volume.maxVolumeOffset ≠ row.maxVolumeOffset := known
    obtain ⟨sameSize, ended⟩ := require_bind_eq_ok.mp rest
    obtain ⟨rfl, rfl⟩ := EStateM.Result.ok.inj ended
    have within : WithinRecorded db₁.1 volume := by
      intro other isOther
      obtain rfl := Option.some.inj (isRow.symm.trans isOther)
      omega
    refine ⟨⟨fits, row, isRow, sameSize, fun _ => by omega⟩, ⟨?_, fun _ => rfl⟩, rfl⟩
    intro volumeId
    cases isOther : db₁.1.volumes.find? volumeId with
    | none => rfl
    | some other =>
        have same := raisedBy_of_within within (Table.mem_of_find? isOther).1
        exact congrArg some same.symm

theorem registerVolume_of_accepts (accepts : Accepts db.1 volume) :
    ∃ registered db', registerVolume volume db = .ok registered db' := by
  obtain ⟨fits, row, isRow, sameSize, offsetFits⟩ := accepts
  have found : getVolume volume.volumeId db = .ok (VolumeInfo row) db := getVolume_of_find? fits isRow
  let registered : StorageVolumeInfo := { volume with
    name := row.name
    maxVolumeOffset := max row.maxVolumeOffset volume.maxVolumeOffset }
  have ended : ∀ db : CentralDb, (do
      require (row.maxBytes = volume.maxBytes) .invalidRequest
      pure registered : CentralTx StorageVolumeInfo) db = .ok registered db :=
    fun db => require_bind_eq_ok.mpr ⟨sameSize, rfl⟩
  by_cases raises : max (VolumeInfo row).maxVolumeOffset volume.maxVolumeOffset ≠ (VolumeInfo row).maxVolumeOffset
  · have exceeds : max row.maxVolumeOffset volume.maxVolumeOffset ≠ row.maxVolumeOffset := raises
    have raisedFits : max row.maxVolumeOffset volume.maxVolumeOffset ≤ i64Max := by omega
    obtain ⟨info, db₁, updated⟩ := updateVolumeOffset_of_find? fits raisedFits isRow
    refine ⟨registered, db₁, bind_eq_ok.mpr ⟨_, _, found, ?_⟩⟩
    dsimp only
    rw [if_pos raises]
    exact bind_eq_ok.mpr ⟨info, db₁, updated, ended db₁⟩
  · refine ⟨registered, db, bind_eq_ok.mpr ⟨_, _, found, ?_⟩⟩
    dsimp only
    rw [if_neg raises]
    exact ended db

/-- A raised row accepts the offsets it accepted before. -/
theorem offsetFits_raisedBy {tables : CentralTables} {first : StorageVolumeInfo} {row : VolumeRow}
    (accepts : Accepts tables first) (isRow : tables.volumes.find? row.volumeId = some row)
    (offset : Nat) :
    ((raisedBy first row).maxVolumeOffset < offset → offset ≤ i64Max) ↔
      (row.maxVolumeOffset < offset → offset ≤ i64Max) := by
  obtain ⟨-, known, isKnown, -, firstFits⟩ := accepts
  unfold raisedBy
  split
  next same =>
    rw [same] at isRow
    obtain rfl := Option.some.inj (isRow.symm.trans isKnown)
    dsimp only
    omega
  next => exact Iff.rfl

/-- The transaction accepts a volume after another one as it did before. -/
theorem accepts_of_raised {before after : CentralTables} {first : StorageVolumeInfo}
    (accepts : Accepts before first) (raised : Raised [first] before after) :
    Accepts after volume ↔ Accepts before volume := by
  have found : after.volumes.find? volume.volumeId =
    (before.volumes.find? volume.volumeId).map (raisedBy first) := raised.rows volume.volumeId
  unfold Accepts
  refine and_congr_right fun fits => ?_
  rw [found]
  cases isRow : before.volumes.find? volume.volumeId with
  | none => simp
  | some row =>
      have key := (Table.mem_of_find? isRow).2
      have fitting := offsetFits_raisedBy accepts (by rw [key, isRow] : before.volumes.find? row.volumeId = some row)
        volume.maxVolumeOffset
      constructor
      · rintro ⟨now, isNow, sameSize, offsetFits⟩
        obtain rfl := Option.some.inj isNow
        exact ⟨row, rfl, (raisedBy_maxBytes first row).symm.trans sameSize, fitting.mp offsetFits⟩
      · rintro ⟨now, isNow, sameSize, offsetFits⟩
        obtain rfl := Option.some.inj isNow
        exact ⟨_, rfl, (raisedBy_maxBytes first row).trans sameSize, fitting.mpr offsetFits⟩

/-- The transaction goes through exactly when it accepts every volume as it finds it. -/
theorem registerVolumes_iff {volumes : List StorageVolumeInfo} :
    (∃ registered db', registerVolumes volumes db = .ok registered db') ↔
      ∀ volume ∈ volumes, Accepts db.1 volume := by
  induction volumes generalizing db with
  | nil => exact ⟨fun _ _ member => (nomatch member), fun _ => ⟨[], db, rfl⟩⟩
  | cons volume rest inductionHypothesis =>
      rw [List.forall_mem_cons]
      constructor
      · rintro ⟨registered, db', ran⟩
        obtain ⟨first, db₁, head, tail⟩ := bind_eq_ok.mp ran
        obtain ⟨others, db₂, ranRest, -⟩ := bind_eq_ok.mp tail
        obtain ⟨accepts, raised, -⟩ := registerVolume_eq_ok head
        refine ⟨accepts, fun other member => ?_⟩
        have later := inductionHypothesis.mp ⟨others, db₂, ranRest⟩ other member
        exact (accepts_of_raised accepts raised).mp later
      · rintro ⟨accepts, later⟩
        obtain ⟨first, db₁, head⟩ := registerVolume_of_accepts accepts
        obtain ⟨-, raised, -⟩ := registerVolume_eq_ok head
        obtain ⟨others, db₂, ranRest⟩ := inductionHypothesis.mpr fun other member =>
          (accepts_of_raised accepts raised).mpr (later other member)
        exact ⟨first :: others, db₂, bind_eq_ok.mpr ⟨first, db₁, head,
          bind_eq_ok.mpr ⟨others, db₂, ranRest, rfl⟩⟩⟩

theorem registerVolumes_eq_ok {volumes registered : List StorageVolumeInfo}
    (ran : registerVolumes volumes db = .ok registered db') :
    Raised volumes db.1 db'.1 ∧
      registered.map StorageVolumeInfo.volumeId = volumes.map StorageVolumeInfo.volumeId := by
  induction volumes generalizing db registered with
  | nil =>
      cases ran
      refine ⟨⟨fun volumeId => ?_, fun _ => rfl⟩, rfl⟩
      cases db'.1.volumes.find? volumeId <;> rfl
  | cons volume rest inductionHypothesis =>
      obtain ⟨first, db₁, head, tail⟩ := bind_eq_ok.mp ran
      obtain ⟨others, db₂, ranRest, ended⟩ := bind_eq_ok.mp tail
      obtain ⟨rfl, rfl⟩ := EStateM.Result.ok.inj ended
      obtain ⟨-, raised, sameId⟩ := registerVolume_eq_ok head
      obtain ⟨raisedRest, sameIds⟩ := inductionHypothesis ranRest
      refine ⟨⟨fun volumeId => ?_, fun within => ?_⟩, ?_⟩
      · rw [raisedRest.rows, raised.rows, Option.map_map]
        rfl
      · obtain ⟨isWithin, later⟩ := List.forall_mem_cons.mp within
        have same := raised.within fun other member => by
          obtain rfl := List.mem_singleton.mp member
          exact isWithin
        rw [← same]
        exact raisedRest.within (same ▸ later)
      · rw [List.map_cons, List.map_cons, sameId, sameIds]

/-- A raised row holds at least what each of the volumes reports for it. -/
theorem le_foldl_raisedBy (volumes : List StorageVolumeInfo) (row : VolumeRow) :
    row.maxVolumeOffset ≤ (volumes.foldl (fun row volume => raisedBy volume row) row).maxVolumeOffset ∧
    ∀ volume ∈ volumes, volume.volumeId = row.volumeId → volume.maxVolumeOffset ≤
      (volumes.foldl (fun row volume => raisedBy volume row) row).maxVolumeOffset := by
  induction volumes generalizing row with
  | nil => exact ⟨Nat.le_refl _, fun _ member => (nomatch member)⟩
  | cons first rest inductionHypothesis =>
      obtain ⟨grows, covers⟩ := inductionHypothesis (raisedBy first row)
      rw [List.foldl_cons]
      refine ⟨(le_raisedBy first row).trans grows, fun volume member sameId => ?_⟩
      rcases List.mem_cons.mp member with rfl | later
      · refine Nat.le_trans ?_ grows
        unfold raisedBy
        rw [if_pos sameId.symm]
        exact Nat.le_max_right _ _
      · exact covers volume later (by rw [raisedBy_volumeId, sameId])

/-- The transaction leaves the volume table as it is only if it raises nothing. -/
theorem within_of_unchanged {volumes : List StorageVolumeInfo} {before after : CentralTables}
    (raised : Raised volumes before after) (same : after.volumes = before.volumes) :
    ∀ volume ∈ volumes, WithinRecorded before volume := by
  intro volume member row isRow
  have key := (Table.mem_of_find? isRow).2
  have now := raised.rows volume.volumeId
  rw [same, isRow, Option.map_some] at now
  have covered := (le_foldl_raisedBy volumes row).2 volume member key.symm
  rwa [← Option.some.inj now] at covered

/-! ## Main result -/

/-- The volumes, the mounts and the storages are as before. -/
structure Unchanged (before after : CentralServer) : Prop where
  volumes : after.db.1.volumes = before.db.1.volumes
  onlineVolumes : after.onlineVolumes = before.onlineVolumes
  storages : after.storages = before.storages

/-- A volume is online. -/
def Mounted (server : CentralServer) (volume : StorageVolumeInfo) : Prop :=
  server.onlineVolumes.find? volume.volumeId ≠ none

/-- A registration that passes every check before the volumes online. -/
structure Passes (config : CentralConfig) (server : CentralServer) (commit : Option Fs0Error)
    (token : String) (volumes : List StorageVolumeInfo) : Prop where
  token : config.tokenAllowed token = true
  volumes : ∀ volume ∈ volumes, Accepts server.db.1 volume
  commits : commit = none

variable {config : CentralConfig} {commit : Option Fs0Error} {name token : String}
  {volumes : List StorageVolumeInfo} {irohEndpoint : Bytes} {connection : Nat}
  {server server' : CentralServer}

/-- The volumes online are looked up by the ids of the request. -/
theorem mounted_iff {registered : List StorageVolumeInfo}
    (sameIds : registered.map StorageVolumeInfo.volumeId = volumes.map StorageVolumeInfo.volumeId) :
    (∀ volume ∈ registered, server.onlineVolumes.find? volume.volumeId = none) ↔
      ¬ ∃ volume ∈ volumes, Mounted server volume := by
  have byId : ∀ listed : List StorageVolumeInfo,
      (∀ volume ∈ listed, server.onlineVolumes.find? volume.volumeId = none) ↔
        ∀ volumeId ∈ listed.map StorageVolumeInfo.volumeId,
          server.onlineVolumes.find? volumeId = none := by
    intro listed
    simp only [List.mem_map, forall_exists_index, and_imp, forall_apply_eq_imp_iff₂]
  rw [byId, sameIds, ← byId]
  unfold Mounted
  simp only [not_exists, not_and, not_not]

/-- What follows once the transaction has committed. -/
theorem registerStorage_of_registered {registered : List StorageVolumeInfo} {db : CentralDb}
    (allowed : config.tokenAllowed token = true)
    (ran : registerVolumes volumes server.db = .ok registered db) :
    registerStorageCall config none name token volumes irohEndpoint connection server = (do
      mountVolumes ⟨server.nextId, name, registered, irohEndpoint⟩
      insertStorage ⟨server.nextId, name, registered, irohEndpoint⟩ connection
      let storages ← CentralM.storagePeersSnapshot
      pure (server.nextId, storages)) { server with db := db, nextId := server.nextId + 1 } := by
  unfold registerStorageCall
  have checked : (require (config.tokenAllowed token = true) .unauthorized : CentralM PUnit) server =
      .ok ⟨⟩ server := require_eq_ok.mpr ⟨allowed, rfl⟩
  have numbered : CentralM.nextId { server with db := db } =
      .ok server.nextId { server with db := db, nextId := server.nextId + 1 } := rfl
  rw [bind_of_ok checked, bind_of_ok (CentralM.transact_of_ok ran), bind_of_ok numbered]

/-- A registration that passes and meets a volume online is rejected after its commit. -/
theorem registerStorage_rejected (name : String) (irohEndpoint : Bytes) (connection : Nat)
    (passes : Passes config server commit token volumes)
    (mounted : ∃ volume ∈ volumes, Mounted server volume) :
    ∃ registered db, registerVolumes volumes server.db = .ok registered db ∧
      registerStorageCall config commit name token volumes irohEndpoint connection server =
        .error .volumeAlreadyMounted { server with db := db, nextId := server.nextId + 1 } := by
  obtain ⟨registered, db, ran⟩ := registerVolumes_iff.mpr passes.volumes
  have sameIds := (registerVolumes_eq_ok ran).2
  refine ⟨registered, db, ran, ?_⟩
  rw [passes.commits, registerStorage_of_registered passes.token ran]
  apply bind_of_error
  unfold mountVolumes
  have notFree : ¬ ∀ volume ∈ registered, server.onlineVolumes.find? volume.volumeId = none :=
    fun free => (mounted_iff sameIds).mp free mounted
  show (require _ Fs0Error.volumeAlreadyMounted >>= _ : CentralM Unit) _ = _
  apply bind_of_error
  exact if_neg notFree

theorem mountVolumes_of_free (server : CentralServer) (peer : StoragePeerInfo)
    (free : ∀ volume ∈ peer.volumes, server.onlineVolumes.find? volume.volumeId = none) :
    ∃ server', mountVolumes peer server = .ok () server' :=
  ⟨_, bind_eq_ok.mpr ⟨_, _, rfl, require_bind_eq_ok.mpr ⟨free, rfl⟩⟩⟩

/-- A registration that fails without getting there changes nothing. -/
theorem registerStorage_error {err : Fs0Error}
    (failed : registerStorageCall config commit name token volumes irohEndpoint connection server =
      .error err server')
    (elsewhere : ¬ (Passes config server commit token volumes ∧
      ∃ volume ∈ volumes, Mounted server volume)) : Unchanged server server' := by
  by_cases allowed : config.tokenAllowed token = true
  · have checked : (require (config.tokenAllowed token = true) .unauthorized : CentralM PUnit) server =
        .ok ⟨⟩ server := require_eq_ok.mpr ⟨allowed, rfl⟩
    cases transacted : CentralM.transact commit (registerVolumes volumes) server with
    | error other server₁ =>
        have refused := CentralM.transact_eq_error transacted
        unfold registerStorageCall at failed
        rw [bind_of_ok checked, bind_of_error transacted] at failed
        obtain ⟨-, rfl⟩ := EStateM.Result.error.inj failed
        rw [refused]
        exact ⟨rfl, rfl, rfl⟩
    | ok registered server₁ =>
        obtain ⟨rfl, db, ran, -⟩ := CentralM.transact_eq_ok transacted
        have passes : Passes config server none token volumes :=
          ⟨allowed, registerVolumes_iff.mp ⟨registered, db, ran⟩, rfl⟩
        have free := (mounted_iff (registerVolumes_eq_ok ran).2).mpr fun mounted =>
          elsewhere ⟨passes, mounted⟩
        rw [registerStorage_of_registered allowed ran] at failed
        let started : CentralServer := { server with db := db, nextId := server.nextId + 1 }
        obtain ⟨server₂, mounted⟩ := mountVolumes_of_free started
          ⟨server.nextId, name, registered, irohEndpoint⟩ free
        rw [bind_of_ok mounted] at failed
        cases failed
  · unfold registerStorageCall at failed
    have refused : (require (config.tokenAllowed token = true) .unauthorized : CentralM PUnit)
        server = .error .unauthorized server := by
      unfold require
      rw [if_neg allowed]
    rw [bind_of_error refused] at failed
    obtain ⟨-, rfl⟩ := EStateM.Result.error.inj failed
    exact ⟨rfl, rfl, rfl⟩

variable (config commit name token volumes irohEndpoint connection server)

/-- A registration that fails leaves the volumes, the mounts and the storages as they were,
unless it raises a recorded offset and is then rejected for a volume that is online. -/
theorem registerStorage_unchanged_iff :
    (∀ err server',
      registerStorageCall config commit name token volumes irohEndpoint connection server =
        .error err server' → Unchanged server server') ↔
    (Passes config server commit token volumes → (∃ volume ∈ volumes, Mounted server volume) →
      ∀ volume ∈ volumes, WithinRecorded server.db.1 volume) := by
  constructor
  · intro unchanged passes mounted
    obtain ⟨registered, db, ran, rejected⟩ := registerStorage_rejected name irohEndpoint connection
      passes mounted
    have same := unchanged _ _ rejected
    exact within_of_unchanged (registerVolumes_eq_ok ran).1 same.volumes
  · intro within err server' failed
    by_cases rejects : Passes config server commit token volumes ∧
        ∃ volume ∈ volumes, Mounted server volume
    · obtain ⟨passes, mounted⟩ := rejects
      obtain ⟨registered, db, ran, rejected⟩ := registerStorage_rejected name irohEndpoint connection
        passes mounted
      obtain ⟨-, rfl⟩ := EStateM.Result.error.inj (rejected.symm.trans failed)
      have same := (registerVolumes_eq_ok ran).1.within (within passes mounted)
      exact ⟨congrArg CentralTables.volumes same, rfl, rfl⟩
    · exact registerStorage_error failed rejects

/-- Volume 1 is online, and a second storage reports an offset for it. -/
theorem registerStorage_raises_and_fails : ¬ ∀ config s, (central config).Reachable s →
    ∀ commit name token volumes irohEndpoint connection err server',
      registerStorageCall config commit name token volumes irohEndpoint connection s.server =
        .error err server' → Unchanged s.server server' := by
  intro unchanged
  obtain ⟨ts, s, run, -, raised⟩ := Scenario.run_of_exec Scenario.registered
    (fun s => match registerStorageCall Scenario.config none "t" "token"
        [⟨1, "v", 100, 7, false⟩] [] 3 s.server with
      | .error err server => (some err, s.tables.volumes.rows, server.db.1.volumes.rows)
      | .ok _ _ => (none, [], []))
    (some .volumeAlreadyMounted, [⟨1, "v", 100, 0⟩], [⟨1, "v", 100, 7⟩]) (by decide +kernel)
  split at raised
  next err server' failed =>
    have same := unchanged _ s run.reachable _ _ _ _ _ _ err server' failed
    obtain ⟨-, rows⟩ := Prod.mk.inj raised
    obtain ⟨before, after⟩ := Prod.mk.inj rows
    have before : s.server.db.1.volumes.rows = [⟨1, "v", 100, 0⟩] := before
    rw [same.volumes, before] at after
    exact absurd after (by decide)
  next => cases raised

end Registration

end Fs0
