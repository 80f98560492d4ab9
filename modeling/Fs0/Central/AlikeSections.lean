import Fs0.Central.CacheRuns

/-!
Contract: sections of handlers on servers that differ in their directory caches only.

Owns:
- servers that are alike but for their databases;
- that every transaction of a handler ends alike over equal tables, whatever the caches hold;
- that a section answers or goes on alike on such servers, and leaves them with equal tables.

Does not own: when the caches agree with the tables.
-/

set_option autoImplicit false

namespace Fs0

open Lib Fallible

/-! ## Servers -/

/-- Two servers with the same maps, whose databases are related. -/
def CentralServer.Alike (R : CentralDb → CentralDb → Prop) (left right : CentralServer) : Prop :=
  ∃ db, right = { left with db := db } ∧ R left.db db

/-- The databases have the same tables. -/
def EqualTables (left right : CentralDb) : Prop := left.1 = right.1

theorem CentralServer.Alike.mono {R R' : CentralDb → CentralDb → Prop}
    {left right : CentralServer} (alike : left.Alike R right)
    (weaker : ∀ db db', R db db' → R' db db') : left.Alike R' right := by
  obtain ⟨db, rfl, related⟩ := alike
  exact ⟨db, rfl, weaker _ _ related⟩

/-! ## Transactions that create directories -/

namespace CentralTx

/-- An operation that ends in the same tables from each of them. -/
theorem respects_of_at {α : Type} {m : CentralTx α} {Q : CentralTables → α → CentralDb → Prop}
    (agree : ∀ tables, Agree (At tables) m (fun a left right => SameTables left right ∧
      Q tables a left) SameTables) : Respects SameTables m := by
  intro left right same
  exact ((agree left.1).weaken (fun _ _ at' => at') (fun _ _ _ ends => ends.1) fun _ _ => id)
    left right ⟨same, rfl⟩

theorem createFile_respects (path : String) (now : Nat) :
    Respects SameTables (createFile path now) :=
  respects_of_at fun _ => createFile_agree path now

theorem copyFileById_respects (sourceFileId : Nat) (targetPath : String) (now : Nat) :
    Respects SameTables (copyFileById sourceFileId targetPath now) :=
  respects_of_at fun _ => copyFileById_agree sourceFileId targetPath now

theorem renameFileById_respects (fileId : Nat) (targetPath : String) (now : Nat) :
    Respects SameTables (renameFileById fileId targetPath now) :=
  respects_of_at fun _ => renameFileById_agree fileId targetPath now

end CentralTx

open CentralTx

theorem ClientRequest.copyFileByIdTx_respects (sourceFileId : Nat) (targetPath : String)
    (now : Nat) : Respects SameTables (copyFileByIdTx sourceFileId targetPath now) :=
  Respects.lift.bind fun _ => (copyFileById_respects _ _ _).bind fun _ =>
    (copyFileBundles_steady _ _).respects.bind fun _ =>
      (insertFileChangeLog_steady _ _ _ _).respects.bind fun _ => (fileRecord_steady _).respects

theorem ClientRequest.renameFileByIdTx_respects (fileId : Nat) (targetPath : String)
    (now : Nat) : Respects SameTables (renameFileByIdTx fileId targetPath now) :=
  Respects.lift.bind fun _ => (renameFileById_respects _ _ _).bind fun _ =>
    (insertFileChangeLog_steady _ _ _ _).respects.bind fun _ => (fileRecord_steady _).respects

theorem attempt_respects {α : Type} {m : CentralTx α} (respects : Respects SameTables m) :
    Respects SameTables (attempt m) := by
  intro left right same
  have ends := respects left right same
  rw [attempt_apply, attempt_apply]
  cases ranLeft : m left <;> cases ranRight : m right <;> rw [ranLeft, ranRight] at ends
  · exact ⟨congrArg Except.ok ends.1, ends.2⟩
  · exact ends.elim
  · exact ends.elim
  · exact ⟨congrArg Except.error ends.1, ends.2⟩

theorem UpdateRequest.fileForUpdate_respects (request : BeginUpdateRequest) (now : Nat) :
    Respects SameTables (fileForUpdate request now) := by
  refine (attempt_respects (getFileByPath_steady _).respects).bind fun found => ?_
  rcases found with err | file
  · cases err with
    | notFound =>
        exact Respects.require.bind fun _ => (createFile_respects _ _).bind fun _ => Respects.pure
    | _ => exact (Steady.throw _).respects
  · exact Respects.require.bind fun _ => Respects.pure

theorem UpdateRequest.beginUpdateTx_respects (request : BeginUpdateRequest) (volumeId now : Nat) :
    Respects SameTables (beginUpdateTx request volumeId now) :=
  (fileForUpdate_respects _ _).bind fun _ =>
    (deleteExpiredUpdateLeases_steady _).respects.bind fun _ =>
      (fileHasActiveUpdateLease_steady _).respects.bind fun _ => Respects.require.bind fun _ =>
        (createUpdateLease_steady _).respects

/-! ## Computations on servers -/

namespace CentralM

variable {α β : Type} {R : CentralDb → CentralDb → Prop}

/-- On servers that are alike and consistent, ends alike with equal tables. -/
def Mirrors (m : CentralM α) : Prop :=
  Agree (CentralServer.Alike SameTables) m (fun _ => CentralServer.Alike EqualTables)
    (CentralServer.Alike EqualTables)

/-- Reads and changes the maps only. -/
def Blind (m : CentralM α) : Prop := ∀ R, Respects (CentralServer.Alike R) m

theorem Blind.bind {m : CentralM α} {f : α → CentralM β} (first : Blind m)
    (second : ∀ a, Blind (f a)) : Blind (m >>= f) :=
  fun R => (first R).bind fun a => second a R

theorem Blind.pure (a : α) : Blind (Pure.pure a : CentralM α) := fun _ => Respects.pure

theorem Blind.throw (err : Fs0Error) : Blind (MonadExcept.throw err : CentralM α) :=
  fun _ _ _ alike => ⟨rfl, alike⟩

theorem Blind.lift (result : Fs0Result α) : Blind (Fallible.lift result : CentralM α) :=
  fun _ => Respects.lift

theorem Blind.require (condition : Prop) [Decidable condition] (err : Fs0Error) :
    Blind (Fallible.require condition err : CentralM PUnit) :=
  fun _ => Respects.require

theorem read_blind {select : CentralServer → α}
    (blind : ∀ server db, select { server with db := db } = select server) :
    Blind (read select) := by
  rintro R server _ ⟨db, rfl, related⟩
  exact ⟨(blind server db).symm, db, rfl, related⟩

theorem modify_blind {f : CentralServer → CentralServer}
    (blind : ∀ server db, f { server with db := db } = { f server with db := db })
    (keeps : ∀ server, (f server).db = server.db) : Blind (modify f : CentralM PUnit) := by
  rintro R server _ ⟨db, rfl, related⟩
  refine ⟨rfl, db, blind server db, ?_⟩
  rw [keeps]
  exact related

theorem nextId_blind : Blind nextId := by
  rintro R server _ ⟨db, rfl, related⟩
  exact ⟨rfl, db, rfl, related⟩

theorem Blind.mirrors {m : CentralM α} (blind : Blind m) : Mirrors m :=
  (blind SameTables).weaken (fun _ _ => id)
    (fun _ _ _ alike => alike.mono fun _ _ same => same.tables)
    fun _ _ alike => alike.mono fun _ _ same => same.tables

theorem Mirrors.bind_left {m : CentralM α} {f : α → CentralM β} (first : Mirrors m)
    (second : ∀ a, Blind (f a)) : Mirrors (m >>= f) :=
  Agree.bind first fun a => second a EqualTables

theorem Mirrors.bind_right {m : CentralM α} {f : α → CentralM β} (first : Blind m)
    (second : ∀ a, Mirrors (f a)) : Mirrors (m >>= f) :=
  Agree.bind ((first SameTables).weaken (fun _ _ => id) (fun _ _ _ => id)
    fun _ _ alike => alike.mono fun _ _ same => same.tables) second

theorem inspect_mirrors {m : CentralTx α} (respects : Respects SameTables m) :
    Mirrors (inspect m) := by
  rintro server _ ⟨db, rfl, same⟩
  have ends := respects _ _ same
  unfold inspect locked Fallible.inspect
  dsimp only
  cases ranLeft : m server.db <;> cases ranRight : m db <;> rw [ranLeft, ranRight] at ends
  · exact ⟨ends.1, _, rfl, same.tables⟩
  · exact ends.elim
  · exact ends.elim
  · exact ⟨ends.1, _, rfl, same.tables⟩

theorem transact_mirrors {commit : Option Fs0Error} {m : CentralTx α}
    (respects : Respects SameTables m) : Mirrors (transact commit m) := by
  rintro server _ ⟨db, rfl, same⟩
  have ends := respects _ _ same
  unfold transact locked Fallible.transact
  dsimp only
  cases ranLeft : m server.db <;> cases ranRight : m db <;> rw [ranLeft, ranRight] at ends
  · cases commit with
    | none => exact ⟨ends.1, _, rfl, ends.2.tables⟩
    | some err => exact ⟨rfl, _, rfl, same.tables⟩
  · exact ends.elim
  · exact ends.elim
  · exact ⟨ends.1, _, rfl, same.tables⟩

theorem Steady.transact_mirrors {commit : Option Fs0Error} {m : CentralTx α}
    (steady : CentralTx.Steady m) : Mirrors (transact commit m) :=
  CentralM.transact_mirrors steady.respects

end CentralM

/-! ## Sections -/

section Sections

open CentralM

variable (config : CentralConfig) (inputs : Inputs)

theorem responding_mirrors {m : CentralM ControlResponse} (mirrors : Mirrors m) :
    Mirrors (responding m) :=
  mirrors.bind_left fun _ => Blind.pure _

theorem resolving_mirrors (path : String) (next : Nat → Handler) :
    Mirrors (resolving path next) :=
  (inspect_mirrors (ClientRequest.fileIdByPathTx_steady path).respects).bind_left fun _ =>
    Blind.pure _

theorem storagePeersSnapshot_blind : Blind storagePeersSnapshot := read_blind fun _ _ => rfl

theorem onlineVolumes_blind : Blind (read CentralServer.onlineVolumes) :=
  read_blind fun _ _ => rfl

theorem storages_blind : Blind (read CentralServer.storages) := read_blind fun _ _ => rfl

theorem getFileReadPlanById_mirrors (fileId : Nat) :
    Mirrors (ClientRequest.getFileReadPlanById fileId) :=
  (inspect_mirrors (ClientRequest.readPlanTx_steady fileId).respects).bind_left fun _ =>
    onlineVolumes_blind.bind fun _ => (Blind.lift _).bind fun _ => Blind.pure _

theorem deleteFileById_mirrors (fileId : Nat) :
    Mirrors (ClientRequest.deleteFileById inputs.commit inputs.now fileId) :=
  (Steady.transact_mirrors (ClientRequest.deleteFileByIdTx_steady _ _)).bind_left fun _ =>
    Blind.pure _

theorem copyFileById_mirrors (sourceFileId : Nat) (targetPath : String) :
    Mirrors (ClientRequest.copyFileById inputs.commit inputs.now sourceFileId targetPath) :=
  (transact_mirrors (ClientRequest.copyFileByIdTx_respects _ _ _)).bind_left fun _ => Blind.pure _

theorem renameFileById_mirrors (fileId : Nat) (targetPath : String) :
    Mirrors (ClientRequest.renameFileById inputs.commit inputs.now fileId targetPath) :=
  (transact_mirrors (ClientRequest.renameFileByIdTx_respects _ _ _)).bind_left fun _ =>
    Blind.pure _

theorem createVolume_mirrors (name : String) (maxBytes : Nat) :
    Mirrors (StorageRequest.createVolume inputs.commit name maxBytes) :=
  (Steady.transact_mirrors (createVolume_steady _ _)).bind_left fun _ => Blind.pure _

theorem handleClientRequest_mirrors (request : ControlRequest) :
    Mirrors (handleClientRequest config inputs request) := by
  cases request with
  | centralStatus =>
      have clients : Blind (read CentralServer.clients) := read_blind fun _ _ => rfl
      exact (clients.bind fun _ => Blind.pure _).mirrors
  | createVolume name maxBytes => exact responding_mirrors (createVolume_mirrors inputs _ _)
  | listDirectory dir limit cursor =>
      exact responding_mirrors ((Steady.transact_mirrors
        (CentralTx.listDirectory_steady dir limit cursor)).bind_left fun _ => Blind.pure _)
  | getFileReadPlan path => exact resolving_mirrors path _
  | getFileReadPlanById fileId => exact responding_mirrors (getFileReadPlanById_mirrors _)
  | hasBundle bundleId volumeId =>
      exact responding_mirrors ((inspect_mirrors (query_steady _).respects).bind_left fun _ =>
        Blind.pure _)
  | deleteFile path => exact resolving_mirrors path _
  | deleteFileById fileId => exact responding_mirrors (deleteFileById_mirrors inputs _)
  | copyFile sourcePath targetPath => exact resolving_mirrors sourcePath _
  | copyFileById sourceFileId targetPath =>
      exact responding_mirrors (copyFileById_mirrors inputs _ _)
  | renameFile sourcePath targetPath => exact resolving_mirrors sourcePath _
  | renameFileById fileId targetPath =>
      exact responding_mirrors (renameFileById_mirrors inputs _ _)
  | getFileChangeLogs afterEventId limit =>
      exact responding_mirrors ((inspect_mirrors (getFileChangeLogs_steady _ _).respects).bind_left
        fun _ => Blind.pure _)
  | beginUpdate request =>
      exact ((storagePeersSnapshot_blind.bind fun _ => Blind.lift _).bind fun _ =>
        Blind.pure _).mirrors
  | commitUpdate request =>
      have steady := (activeUpdateLeaseVolume_steady request.leaseId request.fileId
        inputs.now).mapError (UpdateRequest.leaseExpired request.leaseId request.fileId)
      exact ((Steady.transact_mirrors steady).bind_left fun _ => onlineVolumes_blind.bind fun _ =>
        Blind.pure _).bind_left fun _ => Blind.pure _
  | abortUpdate leaseId fileId =>
      exact ((Steady.transact_mirrors (UpdateRequest.abortUpdateTx_steady _ _ _)).bind_left fun _ =>
        onlineVolumes_blind.bind fun _ => Blind.pure _).bind_left fun _ => Blind.pure _
  | _ => exact (Blind.throw _).mirrors

theorem handleStorageRequest_mirrors (storageId : Nat) (request : ControlRequest) :
    Mirrors (handleStorageRequest inputs storageId request) := by
  cases request with
  | createVolume name maxBytes => exact responding_mirrors (createVolume_mirrors inputs _ _)
  | validateClientAuth clientId clientToken =>
      have clients : Blind (read CentralServer.clients) := read_blind fun _ _ => rfl
      exact responding_mirrors (clients.bind fun _ => (Blind.lift _).bind fun _ =>
        (Blind.require _ _).bind fun _ => Blind.pure _).mirrors
  | reportBundleReplica events =>
      exact responding_mirrors (Mirrors.bind_right onlineVolumes_blind fun _ =>
        Mirrors.bind_right (Blind.require _ _) fun _ =>
          (Steady.transact_mirrors (applyReplicaEvents_steady _)).bind_left fun _ => Blind.pure _)
  | updateStorageEndpoint requestStorageId irohEndpoint =>
      refine ((Blind.require _ _).bind fun _ => Blind.bind ?_ fun _ => Blind.pure _).mirrors
      refine storages_blind.bind fun _ => (Blind.lift _).bind fun _ => Blind.bind ?_ fun _ =>
        Blind.pure _
      exact modify_blind (fun _ _ => rfl) fun _ => rfl
  | updateStorageVolumeOffset volumeId maxVolumeOffset =>
      exact (Steady.transact_mirrors (updateVolumeOffset_steady _ _)).bind_left fun _ =>
        Blind.pure _
  | _ => exact (Blind.throw _).mirrors

theorem handleControlRequest_mirrors (identity : ControlConnectionIdentity)
    (request : ControlRequest) : Mirrors (handleControlRequest config inputs identity request) := by
  rcases handleControlRequest_dispatch config inputs identity request with
    ⟨name, token, version, rfl⟩ | ⟨name, token, version, volumes, irohEndpoint, rfl⟩ |
    ⟨handled, -⟩
  · exact ((Blind.lift _).bind fun _ => (Blind.require _ _).bind fun _ =>
      nextId_blind.bind fun _ => Blind.pure _).mirrors
  · exact Mirrors.bind_right (Blind.lift _) fun _ => Mirrors.bind_right (Blind.require _ _) fun _ =>
      (Steady.transact_mirrors (registerVolumes_steady _)).bind_left fun _ => Blind.pure _
  · rw [handled]
    cases identity with
    | client clientId => exact handleClientRequest_mirrors config inputs request
    | storage storageId => exact handleStorageRequest_mirrors inputs storageId request
    | anonymous => exact (Blind.throw _).mirrors

/-- A section ends alike on servers that are alike. -/
theorem Handler.resume_mirrors (connection : Nat) (identity : ControlConnectionIdentity)
    (handler : Handler) : Mirrors (handler.resume config inputs connection identity) := by
  cases handler with
  | start request => exact handleControlRequest_mirrors config inputs identity request
  | insertClient clientId token =>
      have inserts : Blind (Registration.insertClient clientId token connection) :=
        modify_blind (fun _ _ => rfl) fun _ => rfl
      exact (inserts.bind fun _ => Blind.pure _).mirrors
  | clientInserted clientId =>
      exact (storagePeersSnapshot_blind.bind fun _ => Blind.pure _).mirrors
  | volumesRegistered name volumes irohEndpoint =>
      exact (nextId_blind.bind fun _ => Blind.pure _).mirrors
  | mountVolumes peer =>
      refine (Blind.bind ?_ fun _ => Blind.pure _).mirrors
      refine onlineVolumes_blind.bind fun _ => (Blind.require _ _).bind fun _ => ?_
      exact modify_blind (fun _ _ => rfl) fun _ => rfl
  | insertStorage peer =>
      have inserts : Blind (Registration.insertStorage peer connection) :=
        modify_blind (fun _ _ => rfl) fun _ => rfl
      exact (inserts.bind fun _ => Blind.pure _).mirrors
  | storageInserted storageId =>
      exact (storagePeersSnapshot_blind.bind fun _ => Blind.pure _).mirrors
  | centralStatus clientsCount =>
      exact (storagePeersSnapshot_blind.bind fun _ => Blind.pure _).mirrors
  | getFileReadPlanById fileId => exact responding_mirrors (getFileReadPlanById_mirrors _)
  | deleteFileById fileId => exact responding_mirrors (deleteFileById_mirrors inputs _)
  | copyFileById sourceFileId targetPath =>
      exact responding_mirrors (copyFileById_mirrors inputs _ _)
  | renameFileById fileId targetPath =>
      exact responding_mirrors (renameFileById_mirrors inputs _ _)
  | beginUpdate request storageId volumeId =>
      exact (transact_mirrors (UpdateRequest.beginUpdateTx_respects _ _ _)).bind_left fun _ =>
        Blind.pure _
  | grantLease storageId lease =>
      refine (storages_blind.bind fun storages => ?_).mirrors
      cases storages.find? storageId <;> exact Blind.pure _
  | awaitGrant lease =>
      simp only [Handler.resume]
      cases grantResult lease inputs.grant <;> exact (Blind.pure _).mirrors
  | dropLease leaseId err =>
      exact (Steady.transact_mirrors (deleteUpdateLease_steady _)).bind_left fun _ => Blind.throw _
  | commitUpdate request storageId =>
      exact (Steady.transact_mirrors (UpdateRequest.commitUpdateTx_steady _ _ _)).bind_left fun _ =>
        Blind.pure _
  | revokeLease storageId leaseId response =>
      refine (storages_blind.bind fun storages => ?_).mirrors
      cases storages.find? storageId <;> exact Blind.pure _
  | awaitRevoke response => exact (Blind.pure _).mirrors
  | storeVolumeOffset storageId volumeId registered =>
      refine responding_mirrors (storages_blind.bind fun _ => (Blind.lift _).bind fun _ =>
        (Blind.require _ _).bind fun _ => Blind.bind ?_ fun _ => Blind.pure _).mirrors
      exact modify_blind (fun _ _ => rfl) fun _ => rfl
  | broadcast response => exact (Blind.pure _).mirrors
  | answer response => exact (Blind.pure _).mirrors

end Sections

end Fs0
