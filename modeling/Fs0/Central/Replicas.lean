import Fs0.Central.FileSizes

/-!
Contract: the replica rows of central, one at a time.

Owns:
- what a report leaves of the row of a bundle on a volume;
- the actions of central as one type, whatever connection they belong to, and the
  reports among them.

Does not own: which reports are sent.
-/

set_option autoImplicit false

namespace Fs0

open Lib Fallible

/-- The row an event is about. -/
def BundleReplicaEvent.key (event : BundleReplicaEvent) : HashId × Nat :=
  (event.bundleId, event.volumeId)

/-- The last event of a report about a row decides what becomes of it. -/
inductive ReplicaReported (events : List BundleReplicaEvent) (key : HashId × Nat)
    (before after : Option BundleReplicaRow) : Prop where
  | untouched (foreign : ∀ event ∈ events, event.key ≠ key) (same : after = before)
  | stored (event : BundleReplicaEvent) (row : BundleReplicaRow) (member : event ∈ events)
      (isKey : event.key = key) (kind : event.kind = .stored)
      (rawLen : event.rawLen = some row.rawLen)
      (compressedLen : event.compressedLen = some row.compressedLen) (now : after = some row)
  | deleted (event : BundleReplicaEvent) (member : event ∈ events) (isKey : event.key = key)
      (kind : event.kind = .deleted) (now : after = none)

/-- A report about a row goes on as the rest of the report does. -/
theorem ReplicaReported.cons {event : BundleReplicaEvent} {rest : List BundleReplicaEvent}
    {key : HashId × Nat} {before middle after : Option BundleReplicaRow}
    (head : ReplicaReported [event] key before middle)
    (tail : ReplicaReported rest key middle after) :
    ReplicaReported (event :: rest) key before after := by
  cases tail with
  | untouched foreign same =>
      cases head with
      | untouched alone unchanged =>
          refine .untouched ?_ (same.trans unchanged)
          intro other member
          rcases List.mem_cons.mp member with rfl | later
          · exact alone other List.mem_cons_self
          · exact foreign other later
      | stored other row member isKey kind rawLen compressedLen now =>
          obtain rfl := List.mem_singleton.mp member
          exact .stored other row List.mem_cons_self isKey kind rawLen compressedLen (same.trans now)
      | deleted other member isKey kind now =>
          obtain rfl := List.mem_singleton.mp member
          exact .deleted other List.mem_cons_self isKey kind (same.trans now)
  | stored other row member isKey kind rawLen compressedLen now =>
      exact .stored other row (List.mem_cons_of_mem _ member) isKey kind rawLen compressedLen now
  | deleted other member isKey kind now =>
      exact .deleted other (List.mem_cons_of_mem _ member) isKey kind now

namespace StorageRequest

open CentralTx

theorem applyReplicaEvents_reported {events : List BundleReplicaEvent} {db db' : CentralDb}
    (ran : applyReplicaEvents events db = .ok () db') (key : HashId × Nat) :
    ReplicaReported events key (db.1.bundleReplicas.find? key) (db'.1.bundleReplicas.find? key) := by
  induction events generalizing db with
  | nil =>
      cases ran
      exact .untouched (fun _ member => nomatch member) rfl
  | cons event rest inductionHypothesis =>
      unfold applyReplicaEvents at ran
      cases kind : event.kind with
      | stored =>
          rw [kind] at ran
          obtain ⟨rawLen, isRaw, ran⟩ := lift_bind_eq_ok.mp ran
          obtain ⟨compressedLen, isCompressed, ran⟩ := lift_bind_eq_ok.mp ran
          obtain ⟨_, db₁, stored, ran⟩ := bind_eq_ok.mp ran
          have tables := insertBundleReplica_effect stored
          refine .cons ?_ (inductionHypothesis ran)
          rw [tables]
          let row : BundleReplicaRow := ⟨event.bundleId, event.volumeId, rawLen, compressedLen⟩
          show ReplicaReported [event] key _ ((db.1.bundleReplicas.put row).find? key)
          by_cases same : key = row.key
          · rw [same]
            exact .stored event row List.mem_cons_self rfl kind (okOr_eq_ok.mp isRaw)
              (okOr_eq_ok.mp isCompressed) Table.find?_put_self
          · refine .untouched ?_ (Table.find?_put_of_ne same)
            intro other member
            obtain rfl := List.mem_singleton.mp member
            exact fun isKey => same isKey.symm
      | deleted =>
          rw [kind] at ran
          obtain ⟨_, db₁, deleted, ran⟩ := bind_eq_ok.mp ran
          have tables := deleteBundleReplica_effect deleted
          refine .cons ?_ (inductionHypothesis ran)
          rw [tables]
          show ReplicaReported [event] key _ ((db.1.bundleReplicas.delete fun row =>
            row.key == (event.bundleId, event.volumeId)).find? key)
          by_cases same : key = event.key
          · subst same
            refine .deleted event List.mem_cons_self rfl kind (Table.find?_eq_none.mpr ?_)
            intro row member isKey
            obtain ⟨-, stays⟩ := Table.mem_delete.mp member
            exact beq_eq_false_iff_ne.mp stays isKey
          · refine .untouched ?_ (Table.find?_delete_of_false fun row isKey => ?_)
            · intro other member
              obtain rfl := List.mem_singleton.mp member
              exact fun isKey => same isKey.symm
            · exact beq_eq_false_iff_ne.mpr fun gone => same (isKey.symm.trans gone)

theorem reportBundleReplica_reported {commit : Option Fs0Error} {storageId : Nat}
    {events : List BundleReplicaEvent} {response : ControlResponse} {server server' : CentralServer}
    (ran : reportBundleReplica commit storageId events server = .ok response server')
    (key : HashId × Nat) :
    ReplicaReported events key (server.db.1.bundleReplicas.find? key)
      (server'.db.1.bundleReplicas.find? key) := by
  obtain ⟨_, server₁, read, ran⟩ := bind_eq_ok.mp ran
  obtain ⟨rfl, rfl⟩ := EStateM.Result.ok.inj read
  obtain ⟨-, ran⟩ := require_bind_eq_ok.mp ran
  obtain ⟨_, server₂, applied, ran⟩ := bind_eq_ok.mp ran
  obtain ⟨-, rfl⟩ := EStateM.Result.ok.inj ran
  obtain ⟨-, db, body, rfl⟩ := CentralM.transact_eq_ok applied
  exact applyReplicaEvents_reported body key

/-- A report that is refused changes no table. -/
theorem reportBundleReplica_refused {commit : Option Fs0Error} {storageId : Nat}
    {events : List BundleReplicaEvent} {err : Fs0Error} {server server' : CentralServer}
    (ran : reportBundleReplica commit storageId events server = .error err server') :
    server'.db.1 = server.db.1 := by
  have unfolded : reportBundleReplica commit storageId events server =
      ((require (∀ event ∈ events,
        (server.onlineVolumes.find? event.volumeId).map OnlineVolume.storageId = some storageId)
        .invalidRequest : CentralM PUnit) >>= fun _ =>
        CentralM.transact commit (applyReplicaEvents events) >>= fun _ =>
          pure .reportBundleReplica) server := rfl
  rw [unfolded] at ran
  rcases bind_eq_error.mp ran with checked | ⟨_, server₁, checked, rest⟩
  · unfold require at checked
    split at checked
    · cases checked
    · obtain ⟨-, rfl⟩ := EStateM.Result.error.inj checked
      rfl
  · obtain ⟨-, rfl⟩ := require_eq_ok.mp checked
    rcases bind_eq_error.mp rest with applied | ⟨_, server₂, -, rest⟩
    · rw [CentralM.transact_eq_error applied]
    · cases rest

end StorageRequest

/-! ## Actions -/

/-- Something that happens at central: a section of a handler, whoever it belongs to, or the
end of a connection or of the process. -/
inductive CentralAction where
  | run (connection : Nat) (identity : ControlConnectionIdentity) (handler : Handler)
      (inputs : Inputs)
  | unregisterClient (clientId : Nat)
  | removeStorage (storageId : Nat)
  | unmountStorage (storageId : Nat)
  | restart

/-- The events of a report that an action carries out. -/
def CentralAction.reported : CentralAction → List BundleReplicaEvent
  | .run _ _ (.start (.reportBundleReplica events)) _ => events
  | _ => []

namespace CentralServer

def act (config : CentralConfig) (server : CentralServer) : CentralAction → CentralServer
  | .run connection identity handler inputs =>
      endState (handler.resume config inputs connection identity server)
  | .unregisterClient clientId => server.unregisterClient clientId
  | .removeStorage storageId => server.removeStorage storageId
  | .unmountStorage storageId => server.unmountStorage storageId
  | .restart => CentralServer.run (server.db.1, .new)

/-- An action that changes the tables runs the transaction of its handler. -/
theorem act_ran (config : CentralConfig) (server : CentralServer) (action : CentralAction) :
    (server.act config action).db.1 = server.db.1 ∨
    ∃ connection identity handler inputs tx, action = .run connection identity handler inputs ∧
      handler.transaction inputs identity = some tx ∧
      tx.Ran server.db.1 (server.act config action).db.1 := by
  cases action with
  | run connection identity handler inputs =>
      rcases Handler.resume_changes config inputs connection identity handler server with
        same | ⟨tx, isTx, ran⟩
      · exact .inl same
      · exact .inr ⟨connection, identity, handler, inputs, tx, rfl, isTx, ran⟩
  | unregisterClient clientId => exact .inl rfl
  | removeStorage storageId => exact .inl rfl
  | unmountStorage storageId => exact .inl rfl
  | restart => exact .inl rfl

/-- Replica rows change by reports only. -/
theorem act_replicas (config : CentralConfig) (server : CentralServer) (action : CentralAction) :
    (server.act config action).db.1.bundleReplicas = server.db.1.bundleReplicas ∨
      ∀ key, ReplicaReported action.reported key (server.db.1.bundleReplicas.find? key)
        ((server.act config action).db.1.bundleReplicas.find? key) := by
  rcases server.act_ran config action with
    same | ⟨connection, identity, handler, inputs, tx, rfl, isTx, ran⟩
  · exact .inl (by rw [same])
  · rcases CentralTables.replicas_of_effect ran.effect with kept | ⟨events, rfl, -⟩
    · exact .inl kept
    · obtain rfl := Handler.reports_of_transaction isTx
      obtain ⟨cache, response, cache', ran⟩ := ran
      exact .inr fun key => StorageRequest.applyReplicaEvents_reported ran key

end CentralServer

end Fs0
