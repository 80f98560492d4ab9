import Fs0.Central.CachedTransactions

/-!
Contract: the directory cache along the runs of central.

Owns:
- that a section keeps the database consistent and changes its tables by the transaction of
  its handler, unless the `COMMIT` of a copy or a rename fails after it made a directory;
- that the database is consistent in every state of a run in which no such `COMMIT` fails.

Does not own: the files the paths lead to.
-/

set_option autoImplicit false

namespace Fs0

open Lib Fallible

/-! ## Sections -/

/-- The computation of a transaction leads from the first database to the second. -/
def Transaction.Leads (before after : CentralDb) : Transaction → Prop
  | .beginUpdate request volumeId now => ∃ lease,
      UpdateRequest.beginUpdateTx request volumeId now before = .ok lease after
  | .dropLease leaseId => CentralTx.deleteUpdateLease leaseId before = .ok () after
  | .commitUpdate request now => ∃ leaseNow record,
      UpdateRequest.commitUpdateTx request now leaseNow before = .ok record after
  | .abortUpdate leaseId fileId => ∃ now volumeId,
      UpdateRequest.abortUpdateTx leaseId fileId now before = .ok volumeId after
  | .deleteFile fileId now => ClientRequest.deleteFileByIdTx fileId now before = .ok () after
  | .copyFile sourceFileId targetPath now => ∃ record,
      ClientRequest.copyFileByIdTx sourceFileId targetPath now before = .ok record after
  | .renameFile fileId targetPath now => ∃ record,
      ClientRequest.renameFileByIdTx fileId targetPath now before = .ok record after
  | .registerVolumes volumes => ∃ registered,
      Registration.registerVolumes volumes before = .ok registered after
  | .createVolume name maxBytes => ∃ info, CentralTx.createVolume name maxBytes before =
      .ok info after
  | .reportReplicas events => StorageRequest.applyReplicaEvents events before = .ok () after
  | .updateVolumeOffset volumeId maxVolumeOffset => ∃ info,
      CentralTx.updateVolumeOffset volumeId maxVolumeOffset before = .ok info after

theorem Transaction.Leads.ran {before after : CentralDb} {tx : Transaction}
    (leads : tx.Leads before after) : tx.Ran before.1 after.1 := by
  cases tx with
  | beginUpdate request volumeId now =>
      obtain ⟨lease, ran⟩ := leads
      exact ⟨before.2, lease, after.2, ran⟩
  | dropLease leaseId => exact ⟨before.2, (), after.2, leads⟩
  | commitUpdate request now =>
      obtain ⟨leaseNow, record, ran⟩ := leads
      exact ⟨leaseNow, before.2, record, after.2, ran⟩
  | abortUpdate leaseId fileId =>
      obtain ⟨now, volumeId, ran⟩ := leads
      exact ⟨now, before.2, volumeId, after.2, ran⟩
  | deleteFile fileId now => exact ⟨before.2, (), after.2, leads⟩
  | copyFile sourceFileId targetPath now =>
      obtain ⟨record, ran⟩ := leads
      exact ⟨before.2, record, after.2, ran⟩
  | renameFile fileId targetPath now =>
      obtain ⟨record, ran⟩ := leads
      exact ⟨before.2, record, after.2, ran⟩
  | registerVolumes volumes =>
      obtain ⟨registered, ran⟩ := leads
      exact ⟨before.2, registered, after.2, ran⟩
  | createVolume name maxBytes =>
      obtain ⟨info, ran⟩ := leads
      exact ⟨before.2, info, after.2, ran⟩
  | reportReplicas events => exact ⟨before.2, (), after.2, leads⟩
  | updateVolumeOffset volumeId maxVolumeOffset =>
      obtain ⟨info, ran⟩ := leads
      exact ⟨before.2, info, after.2, ran⟩

namespace CentralM

variable {α β : Type} {db : CentralDb} {P : CentralDb → Prop}

/-- Leaves the database as it is, whether or not it fails. -/
def KeepsDb (m : CentralM α) : Prop := ∀ server, (endState (m server)).db = server.db

/-- From the database, ends in a consistent one with the same tables or in one as allowed. -/
def Sound (db : CentralDb) (P : CentralDb → Prop) (m : CentralM α) : Prop :=
  ∀ server, server.db = db → Consistent (endState (m server)).db ∧
    ((endState (m server)).db.1 = db.1 ∨ P (endState (m server)).db)

theorem KeepsDb.pure (a : α) : KeepsDb (Pure.pure a : CentralM α) := fun _ => rfl

theorem KeepsDb.throw (err : Fs0Error) : KeepsDb (MonadExcept.throw err : CentralM α) :=
  fun _ => rfl

theorem KeepsDb.lift (result : Fs0Result α) : KeepsDb (Fallible.lift result : CentralM α) := by
  intro server
  cases result <;> rfl

theorem KeepsDb.require (condition : Prop) [Decidable condition] (err : Fs0Error) :
    KeepsDb (Fallible.require condition err : CentralM PUnit) := by
  intro server
  unfold Fallible.require
  split <;> rfl

theorem KeepsDb.bind {m : CentralM α} {f : α → CentralM β} (first : KeepsDb m)
    (second : ∀ a, KeepsDb (f a)) : KeepsDb (m >>= f) := by
  intro server
  have kept := first server
  cases ran : m server with
  | ok a server' =>
      rw [ran] at kept
      rw [bind_of_ok ran]
      exact (second a server').trans kept
  | error err server' =>
      rw [ran] at kept
      rw [bind_of_error ran]
      exact kept

theorem read_keepsDb (select : CentralServer → α) : KeepsDb (read select) := fun _ => rfl

theorem modify_keepsDb {f : CentralServer → CentralServer}
    (keeps : ∀ server, (f server).db = server.db) : KeepsDb (modify f : CentralM PUnit) :=
  fun server => keeps server

theorem KeepsDb.sound {m : CentralM α} (keeps : KeepsDb m) (consistent : Consistent db) :
    Sound db P m := by
  rintro server rfl
  rw [keeps server]
  exact ⟨consistent, .inl rfl⟩

theorem Sound.bind_left {m : CentralM α} {f : α → CentralM β} (first : Sound db P m)
    (second : ∀ a, KeepsDb (f a)) : Sound db P (m >>= f) := by
  intro server isDb
  have kept := first server isDb
  cases ran : m server with
  | ok a server' =>
      rw [ran] at kept
      rw [bind_of_ok ran, second a server']
      exact kept
  | error err server' =>
      rw [ran] at kept
      rw [bind_of_error ran]
      exact kept

theorem Sound.bind_right {m : CentralM α} {f : α → CentralM β} (consistent : Consistent db)
    (first : KeepsDb m) (second : ∀ a, Sound db P (f a)) : Sound db P (m >>= f) := by
  rintro server rfl
  have kept := first server
  cases ran : m server with
  | ok a server' =>
      rw [ran] at kept
      rw [bind_of_ok ran]
      exact second a server' kept
  | error err server' =>
      rw [ran, endState_error] at kept
      rw [bind_of_error ran, endState_error, kept]
      exact ⟨consistent, .inl rfl⟩

theorem inspect_sound {m : CentralTx α} (steady : CentralTx.Steady m)
    (consistent : Consistent db) : Sound db P (inspect m) := by
  rintro server rfl
  have rolledBack := steady.rolledBack consistent
  have same : (endState (inspect m server)).db = (server.db.1, (endState (m server.db)).2) := by
    have ended := inspect_endState m server.db
    unfold inspect locked
    cases ran : Fallible.inspect m server.db <;> rw [ran] at ended <;> exact ended
  rw [same]
  exact ⟨⟨consistent.laws, rolledBack⟩, .inl rfl⟩

/-- A transaction whose cache is valid for the tables it began with, if it is not committed. -/
theorem transact_sound {commit : Option Fs0Error} {m : CentralTx α}
    (consistent : Consistent db) (settled : CentralTx.Settled db.1 (m db))
    (dropped : commit ≠ none → ∀ a db', m db = .ok a db' → db'.2.Valid db.1)
    (allowed : ∀ a db', m db = .ok a db' → db'.1 = db.1 ∨ P db') :
    Sound db P (transact commit m) := by
  rintro server rfl
  cases ran : transact commit m server with
  | ok a server' =>
      obtain ⟨-, db', body, rfl⟩ := transact_eq_ok ran
      rw [body] at settled
      exact ⟨settled, allowed a db' body⟩
  | error err server' =>
      rw [transact_eq_error ran]
      refine ⟨⟨consistent.laws, ?_⟩, .inl rfl⟩
      cases body : m server.db with
      | ok a db' =>
          have failed : commit ≠ none := by
            rintro rfl
            cases (transact_of_ok body).symm.trans ran
          exact dropped failed a db' body
      | error err' db' =>
          rw [body] at settled
          exact settled

theorem Steady.transact_sound {commit : Option Fs0Error} {m : CentralTx α}
    (steady : CentralTx.Steady m) (consistent : Consistent db)
    (allowed : ∀ a db', m db = .ok a db' → db'.1 = db.1 ∨ P db') :
    Sound db P (transact commit m) := by
  refine CentralM.transact_sound consistent (steady.settled consistent) ?_ allowed
  intro _ a db' ran
  have rolledBack := steady.rolledBack consistent
  rw [ran] at rolledBack
  exact rolledBack

end CentralM

/-- A copy or a rename whose statements make the directory of its target, and whose `COMMIT`
then fails. -/
def Transaction.LosesDir (commit : Option Fs0Error) (tables : CentralTables) (tx : Transaction) :
    Prop :=
  commit ≠ none ∧ ∃ path after, tx.target = some path ∧ tables.NewDir path ∧ tx.Ran tables after

section Sections

open CentralM

variable (config : CentralConfig) (inputs : Inputs) {db : CentralDb} {P : CentralDb → Prop}

theorem responding_sound {m : CentralM ControlResponse} (sound : Sound db P m) :
    Sound db P (responding m) :=
  sound.bind_left fun _ => KeepsDb.pure _

theorem resolving_sound (consistent : Consistent db) (path : String) (next : Nat → Handler) :
    Sound db P (resolving path next) :=
  (inspect_sound (ClientRequest.fileIdByPathTx_steady path) consistent).bind_left fun _ =>
    KeepsDb.pure _

theorem getFileReadPlanById_sound (consistent : Consistent db) (fileId : Nat) :
    Sound db P (ClientRequest.getFileReadPlanById fileId) :=
  (inspect_sound (ClientRequest.readPlanTx_steady fileId) consistent).bind_left fun _ =>
    (read_keepsDb _).bind fun _ => (KeepsDb.lift _).bind fun _ => KeepsDb.pure _

/-- The transactions a section commits, as steps from a consistent database. -/
def Committing (db : CentralDb) (tx : Option Transaction) (after : CentralDb) : Prop :=
  ∃ committed, tx = some committed ∧ committed.Leads db after

variable {inputs}

theorem deleteFileById_sound (consistent : Consistent db) (fileId : Nat) :
    Sound db (Committing db (some (.deleteFile fileId inputs.now)))
      (ClientRequest.deleteFileById inputs.commit inputs.now fileId) :=
  (Steady.transact_sound (ClientRequest.deleteFileByIdTx_steady _ _) consistent
    fun _ _ ran => .inr ⟨_, rfl, ran⟩).bind_left fun _ => KeepsDb.pure _

theorem copyFileById_sound (consistent : Consistent db) {sourceFileId : Nat} {targetPath : String}
    (kept : ¬ (Transaction.copyFile sourceFileId targetPath inputs.now).LosesDir inputs.commit
      db.1) :
    Sound db (Committing db (some (.copyFile sourceFileId targetPath inputs.now)))
      (ClientRequest.copyFileById inputs.commit inputs.now sourceFileId targetPath) := by
  refine (transact_sound consistent (ClientRequest.copyFileByIdTx_settled consistent _ _ _)
    ?_ fun record _ ran => .inr ⟨_, rfl, record, ran⟩).bind_left fun _ => KeepsDb.pure _
  intro fails record db' ran
  refine ClientRequest.copyFileByIdTx_dropped consistent (fun new => kept ?_) ran
  have leads : (Transaction.copyFile sourceFileId targetPath inputs.now).Leads db db' :=
    ⟨record, ran⟩
  exact ⟨fails, targetPath, db'.1, rfl, new, leads.ran⟩

theorem renameFileById_sound (consistent : Consistent db) {fileId : Nat} {targetPath : String}
    (kept : ¬ (Transaction.renameFile fileId targetPath inputs.now).LosesDir inputs.commit db.1) :
    Sound db (Committing db (some (.renameFile fileId targetPath inputs.now)))
      (ClientRequest.renameFileById inputs.commit inputs.now fileId targetPath) := by
  refine (transact_sound consistent (ClientRequest.renameFileByIdTx_settled consistent _ _ _)
    ?_ fun record _ ran => .inr ⟨_, rfl, record, ran⟩).bind_left fun _ => KeepsDb.pure _
  intro fails record db' ran
  refine ClientRequest.renameFileByIdTx_dropped consistent (fun new => kept ?_) ran
  have leads : (Transaction.renameFile fileId targetPath inputs.now).Leads db db' :=
    ⟨record, ran⟩
  exact ⟨fails, targetPath, db'.1, rfl, new, leads.ran⟩

theorem createVolume_sound (consistent : Consistent db) (name : String) (maxBytes : Nat) :
    Sound db (Committing db (some (.createVolume name maxBytes)))
      (StorageRequest.createVolume inputs.commit name maxBytes) :=
  (Steady.transact_sound (CentralTx.createVolume_steady _ _) consistent
    fun info _ ran => .inr ⟨_, rfl, info, ran⟩).bind_left fun _ => KeepsDb.pure _

variable (inputs)

theorem handleClientRequest_sound (consistent : Consistent db) (request : ControlRequest)
    (kept : ∀ tx, request.clientTransaction inputs = some tx → ¬ tx.LosesDir inputs.commit db.1) :
    Sound db (Committing db (request.clientTransaction inputs))
      (handleClientRequest config inputs request) := by
  cases request with
  | centralStatus =>
      exact ((read_keepsDb _).bind fun _ => KeepsDb.pure _).sound consistent
  | createVolume name maxBytes => exact responding_sound (createVolume_sound consistent _ _)
  | listDirectory dir limit cursor =>
      refine responding_sound (Sound.bind_left (Steady.transact_sound
        (CentralTx.listDirectory_steady dir limit cursor) consistent fun _ _ ran => .inl ?_)
        fun _ => KeepsDb.pure _)
      exact (CentralTx.listDirectory_readsOnly _ _ _).tables_eq ran
  | getFileReadPlan path => exact resolving_sound consistent path _
  | getFileReadPlanById fileId => exact responding_sound (getFileReadPlanById_sound consistent _)
  | hasBundle bundleId volumeId =>
      exact responding_sound ((inspect_sound (CentralTx.query_steady _) consistent).bind_left
        fun _ => KeepsDb.pure _)
  | deleteFile path => exact resolving_sound consistent path _
  | deleteFileById fileId => exact responding_sound (deleteFileById_sound consistent _)
  | copyFile sourcePath targetPath => exact resolving_sound consistent sourcePath _
  | copyFileById sourceFileId targetPath =>
      exact responding_sound (copyFileById_sound consistent (kept _ rfl))
  | renameFile sourcePath targetPath => exact resolving_sound consistent sourcePath _
  | renameFileById fileId targetPath =>
      exact responding_sound (renameFileById_sound consistent (kept _ rfl))
  | getFileChangeLogs afterEventId limit =>
      exact responding_sound ((inspect_sound (CentralTx.getFileChangeLogs_steady _ _)
        consistent).bind_left fun _ => KeepsDb.pure _)
  | beginUpdate request =>
      exact (((read_keepsDb _).bind fun _ => KeepsDb.lift _).bind fun _ =>
        KeepsDb.pure _).sound consistent
  | commitUpdate request =>
      have steady := (CentralTx.activeUpdateLeaseVolume_steady request.leaseId request.fileId
        inputs.now).mapError (UpdateRequest.leaseExpired request.leaseId request.fileId)
      refine Sound.bind_left (Sound.bind_left (Steady.transact_sound steady consistent
        fun _ _ ran => .inl ?_) fun _ => (read_keepsDb _).bind fun _ => KeepsDb.pure _)
        fun _ => KeepsDb.pure _
      exact ((CentralTx.activeUpdateLeaseVolume_readsOnly _ _ _).mapError _).tables_eq ran
  | abortUpdate leaseId fileId =>
      exact ((Steady.transact_sound (UpdateRequest.abortUpdateTx_steady _ _ _) consistent
        fun volumeId _ ran => .inr ⟨_, rfl, inputs.now, volumeId, ran⟩).bind_left fun _ =>
          (read_keepsDb _).bind fun _ => KeepsDb.pure _).bind_left fun _ => KeepsDb.pure _
  | _ => exact (KeepsDb.throw _).sound consistent

theorem handleStorageRequest_sound (consistent : Consistent db) (storageId : Nat)
    (request : ControlRequest) : Sound db (Committing db request.storageTransaction)
      (handleStorageRequest inputs storageId request) := by
  cases request with
  | createVolume name maxBytes => exact responding_sound (createVolume_sound consistent _ _)
  | validateClientAuth clientId clientToken =>
      exact (((read_keepsDb _).bind fun _ => (KeepsDb.lift _).bind fun _ =>
        (KeepsDb.require _ _).bind fun _ => KeepsDb.pure _).bind fun _ =>
          KeepsDb.pure _).sound consistent
  | reportBundleReplica events =>
      refine responding_sound (Sound.bind_right consistent (read_keepsDb _) fun _ =>
        Sound.bind_right consistent (KeepsDb.require _ _) fun _ => ?_)
      exact (Steady.transact_sound (applyReplicaEvents_steady _) consistent
        fun _ _ ran => .inr ⟨_, rfl, ran⟩).bind_left fun _ => KeepsDb.pure _
  | updateStorageEndpoint requestStorageId irohEndpoint =>
      refine KeepsDb.sound ((KeepsDb.require _ _).bind fun _ => KeepsDb.bind ?_ fun _ =>
        KeepsDb.pure _) consistent
      refine (read_keepsDb _).bind fun _ => (KeepsDb.lift _).bind fun _ => KeepsDb.bind ?_
        fun _ => KeepsDb.pure _
      exact modify_keepsDb fun _ => rfl
  | updateStorageVolumeOffset volumeId maxVolumeOffset =>
      exact (Steady.transact_sound (CentralTx.updateVolumeOffset_steady _ _) consistent
        fun info _ ran => .inr ⟨_, rfl, info, ran⟩).bind_left fun _ => KeepsDb.pure _
  | _ => exact (KeepsDb.throw _).sound consistent

theorem handleControlRequest_sound (consistent : Consistent db)
    (identity : ControlConnectionIdentity) (request : ControlRequest)
    (kept : ∀ tx, request.transaction inputs identity = some tx →
      ¬ tx.LosesDir inputs.commit db.1) :
    Sound db (Committing db (request.transaction inputs identity))
      (handleControlRequest config inputs identity request) := by
  rcases handleControlRequest_dispatch config inputs identity request with
    ⟨name, token, version, rfl⟩ | ⟨name, token, version, volumes, irohEndpoint, rfl⟩ |
    ⟨handled, transaction⟩
  · have nextId : KeepsDb nextId := fun _ => rfl
    exact ((KeepsDb.lift _).bind fun _ => (KeepsDb.require _ _).bind fun _ =>
      nextId.bind fun _ => KeepsDb.pure _).sound consistent
  · refine Sound.bind_right consistent (KeepsDb.lift _) fun _ =>
      Sound.bind_right consistent (KeepsDb.require _ _) fun _ => ?_
    exact (Steady.transact_sound (registerVolumes_steady _) consistent
      fun registered _ ran => .inr ⟨_, rfl, registered, ran⟩).bind_left fun _ => KeepsDb.pure _
  · rw [handled]
    rw [transaction] at kept ⊢
    cases identity with
    | client clientId => exact handleClientRequest_sound config inputs consistent request kept
    | storage storageId => exact handleStorageRequest_sound inputs consistent storageId request
    | anonymous => exact (KeepsDb.throw _).sound consistent

/-- From a consistent database a section ends in one, with the tables it began with or those
of its transaction. -/
theorem Handler.resume_sound (consistent : Consistent db) (connection : Nat)
    (identity : ControlConnectionIdentity) (handler : Handler)
    (kept : ∀ tx, handler.transaction inputs identity = some tx →
      ¬ tx.LosesDir inputs.commit db.1) :
    Sound db (Committing db (handler.transaction inputs identity))
      (handler.resume config inputs connection identity) := by
  cases handler with
  | start request => exact handleControlRequest_sound config inputs consistent identity request kept
  | insertClient clientId token =>
      have keeps : KeepsDb (Registration.insertClient clientId token connection) := fun _ => rfl
      exact (keeps.bind fun _ => KeepsDb.pure _).sound consistent
  | clientInserted clientId =>
      exact ((read_keepsDb _).bind fun _ => KeepsDb.pure _).sound consistent
  | volumesRegistered name volumes irohEndpoint =>
      have nextId : KeepsDb nextId := fun _ => rfl
      exact (nextId.bind fun _ => KeepsDb.pure _).sound consistent
  | mountVolumes peer =>
      refine KeepsDb.sound (KeepsDb.bind ?_ fun _ => KeepsDb.pure _) consistent
      refine (read_keepsDb _).bind fun _ => (KeepsDb.require _ _).bind fun _ => ?_
      exact modify_keepsDb fun _ => rfl
  | insertStorage peer =>
      have keeps : KeepsDb (Registration.insertStorage peer connection) := fun _ => rfl
      exact (keeps.bind fun _ => KeepsDb.pure _).sound consistent
  | storageInserted storageId =>
      exact ((read_keepsDb _).bind fun _ => KeepsDb.pure _).sound consistent
  | centralStatus clientsCount =>
      exact ((read_keepsDb _).bind fun _ => KeepsDb.pure _).sound consistent
  | getFileReadPlanById fileId => exact responding_sound (getFileReadPlanById_sound consistent _)
  | deleteFileById fileId => exact responding_sound (deleteFileById_sound consistent _)
  | copyFileById sourceFileId targetPath =>
      exact responding_sound (copyFileById_sound consistent (kept _ rfl))
  | renameFileById fileId targetPath =>
      exact responding_sound (renameFileById_sound consistent (kept _ rfl))
  | beginUpdate request storageId volumeId =>
      obtain ⟨settled, dropped⟩ :=
        UpdateRequest.beginUpdateTx_settled consistent request volumeId inputs.now
      refine Sound.bind_left (transact_sound consistent settled (fun _ lease db' ran => ?_)
        fun lease _ ran => .inr ⟨_, rfl, lease, ran⟩) fun _ => KeepsDb.pure _
      rw [ran] at dropped
      exact dropped
  | grantLease storageId lease =>
      refine KeepsDb.sound ((read_keepsDb _).bind fun storages => ?_) consistent
      cases storages.find? storageId <;> exact KeepsDb.pure _
  | awaitGrant lease =>
      refine KeepsDb.sound (fun server => ?_) consistent
      simp only [Handler.resume]
      cases grantResult lease inputs.grant <;> rfl
  | dropLease leaseId err =>
      exact (Steady.transact_sound (CentralTx.deleteUpdateLease_steady _) consistent
        fun _ _ ran => .inr ⟨_, rfl, ran⟩).bind_left fun _ => KeepsDb.throw _
  | commitUpdate request storageId =>
      exact (Steady.transact_sound (UpdateRequest.commitUpdateTx_steady _ _ _) consistent
        fun record _ ran => .inr ⟨_, rfl, inputs.leaseNow, record, ran⟩).bind_left fun _ =>
          KeepsDb.pure _
  | revokeLease storageId leaseId response =>
      refine KeepsDb.sound ((read_keepsDb _).bind fun storages => ?_) consistent
      cases storages.find? storageId <;> exact KeepsDb.pure _
  | awaitRevoke response => exact (KeepsDb.pure _).sound consistent
  | storeVolumeOffset storageId volumeId registered =>
      refine KeepsDb.sound (KeepsDb.bind ?_ fun _ => KeepsDb.pure _) consistent
      refine (read_keepsDb _).bind fun _ => (KeepsDb.lift _).bind fun _ =>
        (KeepsDb.require _ _).bind fun _ => KeepsDb.bind ?_ fun _ => KeepsDb.pure _
      exact modify_keepsDb fun _ => rfl
  | broadcast response => exact (KeepsDb.pure _).sound consistent
  | answer response => exact (KeepsDb.pure _).sound consistent

end Sections

/-! ## Runs -/

namespace Central

variable {config : CentralConfig} {s s' : Central} {e : CentralEvent}

/-- The section that runs makes a directory for a copy or a rename, and its `COMMIT` fails. -/
def LosesDir (s : Central) (e : CentralEvent) : Prop :=
  ∃ connection inputs tx, e = .run connection inputs ∧ s.transaction e = some tx ∧
    tx.LosesDir inputs.commit s.tables

/-- A step from a consistent database leads to one, and leaves the tables as they are or
commits a transaction from it. -/
theorem step_sound (consistent : Consistent s.server.db) (kept : ¬ s.LosesDir e)
    (taken : (central config).step s e = some s') : Consistent s'.server.db ∧
      (s'.tables = s.tables ∨
        ∃ tx, s.transaction e = some tx ∧ tx.Leads s.server.db s'.server.db) := by
  by_cases isRun : ∃ c inputs, e = .run c inputs
  · obtain ⟨c, inputs, rfl⟩ := isRun
    obtain ⟨conn, handling, result, runs, rfl⟩ := step_run taken
    have sound := Handler.resume_sound config inputs consistent c conn.identity handling.handler
      (fun tx isTx loses => kept ⟨c, inputs, tx, rfl, runs.transaction_eq.trans isTx, loses⟩)
      s.server rfl
    rw [tables, advance_server, ← runs.ran, runs.transaction_eq]
    exact sound
  · have noRun : ∀ c inputs, e ≠ .run c inputs := fun c inputs same => isRun ⟨c, inputs, same⟩
    rcases step_db taken noRun with same | ⟨-, same⟩
    · exact ⟨same ▸ consistent, .inl (congrArg Prod.fst same)⟩
    · rw [tables, same]
      exact ⟨⟨consistent.laws, DirCache.new_valid _⟩, .inl rfl⟩

/-- In every run in which no directory is lost so, the database is consistent in every state. -/
theorem consistent_of_run {ts : List (Transition Central CentralEvent)}
    (run : (central config).Run ts s) (kept : ∀ t ∈ ts, ¬ t.pre.LosesDir t.event) :
    ∀ x ∈ visited ts s, Consistent x.server.db := by
  apply run.invariant_of_guard (fun s => Consistent s.server.db) (fun s e => ¬ s.LosesDir e)
    _ _ kept
  · rintro _ rfl
    exact open_consistent
  · exact fun s e s' consistent kept taken => (step_sound consistent kept taken).1

end Central

end Fs0
