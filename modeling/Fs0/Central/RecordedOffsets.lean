import Fs0.Central.ConnectionSteps
import Fs0.Central.StorageRegistration

/-!
Contract: the offset that central has recorded for a volume of a storage.

Owns:
- what each transaction does to the offset;
- a storage whose offset grows, and the requests of it that have not arrived, with the ones
  it no longer waits for;
- that the offset never exceeds that of the storage, and goes back exactly where an update
  is processed after a newer request.

Does not own: when a storage sends its requests, and what it does with the answers.
-/

set_option autoImplicit false

namespace Fs0

open Lib Fallible CentralTx Registration

/-- The offset recorded for a volume. -/
def CentralTables.recordedOffset (volumeId : Nat) (tables : CentralTables) : Option Nat :=
  (tables.volumes.find? volumeId).map VolumeRow.maxVolumeOffset

/-! ## Transactions -/

/-- What a transaction does to the offset recorded for a volume. -/
inductive OffsetStep (volumeId : Nat) : Transaction → Option Nat → Option Nat → Prop where
  | kept (tx : Transaction) (recorded : Option Nat) : OffsetStep volumeId tx recorded recorded
  | created (name : String) (maxBytes : Nat) (fits : volumeId ≤ i64Max) :
      OffsetStep volumeId (.createVolume name maxBytes) none (some 0)
  | raised (volumes : List StorageVolumeInfo) (recorded offset : Nat) (grows : recorded ≤ offset)
      (fits : recorded ≤ i64Max → offset ≤ i64Max)
      (reported : offset = recorded ∨ ∃ volume ∈ volumes, volume.volumeId = volumeId ∧
        volume.maxVolumeOffset = offset) :
      OffsetStep volumeId (.registerVolumes volumes) (some recorded) (some offset)
  | updated (recorded offset : Nat) (fits : offset ≤ i64Max) :
      OffsetStep volumeId (.updateVolumeOffset volumeId offset) (some recorded) (some offset)

section Transactions

variable {volumeId : Nat} {before after : CentralTables} {db db' : CentralDb}

theorem OffsetStep.of_volumes (tx : Transaction) (same : after.volumes = before.volumes) :
    OffsetStep volumeId tx (before.recordedOffset volumeId) (after.recordedOffset volumeId) := by
  have unchanged : after.recordedOffset volumeId = before.recordedOffset volumeId := by
    unfold CentralTables.recordedOffset
    rw [same]
  rw [unchanged]
  exact .kept _ _

theorem offsetStep_createVolume {name : String} {maxBytes : Nat} {info : StorageVolumeInfo}
    (ran : createVolume name maxBytes db = .ok info db') :
    OffsetStep volumeId (.createVolume name maxBytes) (db.1.recordedOffset volumeId)
      (db'.1.recordedOffset volumeId) := by
  have effect := createVolume_effect ran
  have room : db.1.volumes.seq < i64Max := by
    obtain ⟨-, ran⟩ := bindU64_bind_eq_ok.mp ran
    obtain ⟨created, db₁, inserted, -⟩ := bind_eq_ok.mp ran
    obtain ⟨inserted, -⟩ := execute_eq_ok.mp inserted
    unfold CentralTables.insertVolume at inserted
    split at inserted
    · cases inserted
    next pushed => exact (pushRow_eq_ok.mp pushed).1
  unfold CentralTables.recordedOffset
  rw [effect]
  by_cases isNew : volumeId = db.1.volumes.seq + 1
  · have absent : db.1.volumes.find? volumeId = none := by
      cases found : db.1.volumes.find? volumeId with
      | none => rfl
      | some row =>
          have below := SeqTable.find?_le_seq found
          omega
    subst isNew
    rw [absent, SeqTable.find?_push]
    exact .created name maxBytes room
  · rw [SeqTable.find?_push_of_ne _ isNew]
    exact .kept _ _

/-- A row that is raised holds its own offset or one that is reported for it. -/
theorem foldl_raisedBy_mem (volumes : List StorageVolumeInfo) (row : VolumeRow) :
    (volumes.foldl (fun row volume => raisedBy volume row) row).maxVolumeOffset =
        row.maxVolumeOffset ∨
      ∃ volume ∈ volumes, volume.volumeId = row.volumeId ∧ volume.maxVolumeOffset =
        (volumes.foldl (fun row volume => raisedBy volume row) row).maxVolumeOffset := by
  induction volumes generalizing row with
  | nil => exact .inl rfl
  | cons first rest inductionHypothesis =>
      rw [List.foldl_cons]
      rcases inductionHypothesis (raisedBy first row) with same | ⟨volume, member, isRow, reports⟩
      · rw [same]
        unfold raisedBy
        split
        next isRow =>
          rcases Nat.le_total first.maxVolumeOffset row.maxVolumeOffset with below | above
          · exact .inl (Nat.max_eq_left below)
          · exact .inr ⟨first, List.mem_cons_self, isRow.symm, (Nat.max_eq_right above).symm⟩
        next => exact .inl rfl
      · rw [raisedBy_volumeId] at isRow
        exact .inr ⟨volume, List.mem_cons_of_mem _ member, isRow, reports⟩

theorem offsetStep_registerVolumes {volumes registered : List StorageVolumeInfo}
    (ran : registerVolumes volumes db = .ok registered db') :
    OffsetStep volumeId (.registerVolumes volumes) (db.1.recordedOffset volumeId)
      (db'.1.recordedOffset volumeId) := by
  have raised := (registerVolumes_eq_ok ran).1.rows volumeId
  have accepts := registerVolumes_iff.mp ⟨registered, db', ran⟩
  unfold CentralTables.recordedOffset
  rw [raised]
  cases found : db.1.volumes.find? volumeId with
  | none => exact .kept _ _
  | some row =>
      obtain ⟨-, rfl⟩ := Table.mem_of_find? found
      refine .raised volumes row.maxVolumeOffset _ (le_foldl_raisedBy volumes row).1 (fun fits => ?_)
        (foldl_raisedBy_mem volumes row)
      rcases foldl_raisedBy_mem volumes row with same | ⟨volume, member, isRow, reports⟩
      · exact same.trans_le fits
      · rw [← reports]
        obtain ⟨-, known, isKnown, -, offsetFits⟩ := accepts volume member
        rw [isRow, found] at isKnown
        obtain rfl := Option.some.inj isKnown
        rcases Nat.lt_or_ge row.maxVolumeOffset volume.maxVolumeOffset with above | below
        · exact offsetFits above
        · exact below.trans fits

theorem offsetTo_volumeId (updated offset : Nat) (row : VolumeRow) :
    (offsetTo updated offset row).volumeId = row.volumeId := by
  unfold offsetTo
  split <;> rfl

theorem find?_of_update {updated offset : Nat} {info : StorageVolumeInfo}
    (ran : updateVolumeOffset updated offset db = .ok info db') :
    db'.1.volumes.find? volumeId = (db.1.volumes.find? volumeId).map (offsetTo updated offset) := by
  obtain ⟨-, rows, -⟩ := updateVolumeOffset_effect ran
  have table : db'.1.volumes.toTable = db.1.volumes.toTable.update (offsetTo updated offset)
      (offsetTo_volumeId updated offset) := Table.ext rows
  rw [table, Table.find?_update]

/-- Only a volume that is known is updated. -/
theorem known_of_update {updated offset : Nat} {info : StorageVolumeInfo}
    (ran : updateVolumeOffset updated offset db = .ok info db') :
    db.1.volumes.find? updated ≠ none := by
  obtain ⟨-, -, row, found, -⟩ := updateVolumeOffset_effect ran
  intro absent
  rw [find?_of_update ran, absent] at found
  cases found

/-- An update records the offset that it carries, for a volume that is known. -/
theorem recordedOffset_of_update {updated offset : Nat} {info : StorageVolumeInfo}
    (ran : updateVolumeOffset updated offset db = .ok info db') :
    db'.1.recordedOffset volumeId =
      if volumeId = updated then (db.1.recordedOffset volumeId).map fun _ => offset
      else db.1.recordedOffset volumeId := by
  unfold CentralTables.recordedOffset
  rw [find?_of_update ran, Option.map_map]
  cases found : db.1.volumes.find? volumeId with
  | none => exact (ite_self _).symm
  | some row =>
      obtain ⟨-, rfl⟩ := Table.mem_of_find? found
      simp only [Option.map_some, Function.comp_apply, offsetTo]
      split <;> rfl

theorem offsetStep_updateVolumeOffset {updated offset : Nat} {info : StorageVolumeInfo}
    (ran : updateVolumeOffset updated offset db = .ok info db') :
    OffsetStep volumeId (.updateVolumeOffset updated offset) (db.1.recordedOffset volumeId)
      (db'.1.recordedOffset volumeId) := by
  obtain ⟨-, bound⟩ := bindU64_bind_eq_ok.mp ran
  obtain ⟨fits, -⟩ := bindU64_bind_eq_ok.mp bound
  rw [recordedOffset_of_update ran]
  split
  next isVolume =>
    cases db.1.recordedOffset volumeId with
    | none => exact .kept _ _
    | some recorded => exact isVolume ▸ .updated recorded offset fits
  next => exact .kept _ _

/-- Only the registration and the update of volumes change an offset that is recorded. -/
theorem offsetStep_of_ran {tx : Transaction} (ran : tx.Ran before after) :
    OffsetStep volumeId tx (before.recordedOffset volumeId) (after.recordedOffset volumeId) := by
  have effect := ran.effect
  cases tx with
  | createVolume name maxBytes =>
      obtain ⟨_, _, _, ran⟩ := ran
      exact offsetStep_createVolume ran
  | registerVolumes volumes =>
      obtain ⟨_, _, _, ran⟩ := ran
      exact offsetStep_registerVolumes ran
  | updateVolumeOffset updated offset =>
      obtain ⟨_, _, _, ran⟩ := ran
      exact offsetStep_updateVolumeOffset ran
  | beginUpdate request volume now =>
      obtain ⟨lease, file, mid, taken, -, -, -, rfl⟩ := effect
      refine .of_volumes _ ?_
      cases taken <;> rfl
  | dropLease leaseId =>
      have dropped : after = _ := effect
      exact .of_volumes _ (by rw [dropped])
  | commitUpdate request now =>
      obtain ⟨lease, file, compressedSize, dir, committed⟩ := effect
      exact .of_volumes _ (by rw [committed.others])
  | abortUpdate leaseId fileId =>
      have dropped : after = _ := effect.2
      exact .of_volumes _ (by rw [dropped])
  | deleteFile fileId now => exact .of_volumes _ (by rw [effect.2])
  | copyFile sourceFileId targetPath now =>
      obtain ⟨source, target, dirId, name, copied⟩ := effect
      exact .of_volumes _ (by rw [copied.others])
  | renameFile fileId targetPath now =>
      obtain ⟨file, target, dirId, name, renamed⟩ := effect
      exact .of_volumes _ (by rw [renamed.others])
  | reportReplicas events =>
      have reported : ReplicasReported before after events := effect
      exact .of_volumes _ (by rw [reported.others])

end Transactions

/-! ## A storage and its requests -/

/-- The offsets that a request reports for a volume. -/
def ControlRequest.offsets (volumeId : Nat) : ControlRequest → List Nat
  | .registerStorage _ _ _ volumes _ =>
      (volumes.filter fun volume => volume.volumeId = volumeId).map StorageVolumeInfo.maxVolumeOffset
  | .updateStorageVolumeOffset updated maxVolumeOffset =>
      if updated = volumeId then [maxVolumeOffset] else []
  | _ => []

def ProtocolRequest.offsets (volumeId : Nat) : ProtocolRequest → List Nat
  | .control request => request.offsets volumeId
  | .other => []

/-- The offsets that a transaction may write for a volume. -/
def Transaction.offsets (volumeId : Nat) : Transaction → List Nat
  | .registerVolumes volumes =>
      (volumes.filter fun volume => volume.volumeId = volumeId).map StorageVolumeInfo.maxVolumeOffset
  | .updateVolumeOffset updated maxVolumeOffset =>
      if updated = volumeId then [maxVolumeOffset] else []
  | _ => []

theorem OffsetStep.mem_offsets {volumeId : Nat} {tx : Transaction} {recorded offset : Nat}
    (step : OffsetStep volumeId tx (some recorded) (some offset)) :
    offset = recorded ∨ offset ∈ tx.offsets volumeId := by
  cases step with
  | kept => exact .inl rfl
  | raised volumes _ _ grows fits reported =>
      refine reported.imp_right fun ⟨volume, member, isVolume, reports⟩ => ?_
      exact List.mem_map.mpr ⟨volume, List.mem_filter.mpr ⟨member, decide_eq_true isVolume⟩, reports⟩
  | updated _ _ fits =>
      right
      dsimp only [Transaction.offsets]
      rw [if_pos rfl]
      exact List.mem_cons_self

/-- An event that hands central a request about the offset of a volume. -/
def CentralEvent.brings (volumeId : Nat) : CentralEvent → Bool
  | .receive _ request => !(request.offsets volumeId).isEmpty
  | _ => false

/-- Central, the active offset of a volume at its storage, and the requests of the storage that
have not arrived. A request stays there when its call has timed out. -/
structure OffsetReports where
  central : Central
  active : Nat
  inFlight : List ControlRequest
deriving DecidableEq

inductive OffsetReportEvent where
  /-- The storage reserves space in the volume. -/
  | grow (active : Nat)
  | send (request : ControlRequest)
  | arrive (connection : Nat) (request : ControlRequest)
  /-- Anything else at central, with requests of others about other volumes. -/
  | central (event : CentralEvent)

namespace OffsetReports

/-- A request carries the offset that is active when it is sent. -/
def step (config : CentralConfig) (volumeId : Nat) (s : OffsetReports) :
    OffsetReportEvent → Option OffsetReports
  | .grow active => if s.active ≤ active then some { s with active := active } else none
  | .send request =>
      if ∀ offset ∈ request.offsets volumeId, offset = s.active then
        some { s with inFlight := request :: s.inFlight }
      else none
  | .arrive connection request =>
      if request ∈ s.inFlight then
        ((Fs0.central config).step s.central (.receive connection (.control request))).map
          fun central => { s with central := central, inFlight := s.inFlight.erase request }
      else none
  | .central event =>
      if event.brings volumeId then none
      else ((Fs0.central config).step s.central event).map fun central => { s with central := central }

/-- The offset recorded at central. -/
def recorded (volumeId : Nat) (s : OffsetReports) : Option Nat :=
  s.central.tables.recordedOffset volumeId

end OffsetReports

/-- Central with one storage that has a volume. -/
def offsetReports (config : CentralConfig) (volumeId : Nat) :
    System OffsetReports OffsetReportEvent where
  Init s := s.central = Central.initial ∧ s.inFlight = []
  step := OffsetReports.step config volumeId

/-! ## The order in which requests are processed -/

/-- A request about offsets that central accepts as it finds its tables, and that commits. -/
def ControlRequest.Passes (config : CentralConfig) (commit : Option Fs0Error)
    (server : CentralServer) : ControlRequest → Prop
  | .registerStorage _ token version volumes _ =>
      validateRegistrationVersion version = .ok () ∧
        Registration.Passes config server commit token volumes
  | .updateStorageVolumeOffset volumeId maxVolumeOffset =>
      volumeId ≤ i64Max ∧ maxVolumeOffset ≤ i64Max ∧ commit = none ∧
        server.db.1.volumes.find? volumeId ≠ none
  | _ => False

/-- Central processes a request about offsets: it runs the section of its transaction. -/
def Central.Processes (config : CentralConfig) (s : Central) (e : CentralEvent)
    (request : ControlRequest) : Prop :=
  ∃ c inputs conn stream, e = .run c inputs ∧ s.connections.find? c = some conn ∧
    conn.handling = some ⟨stream, .start request⟩ ∧
    request.transaction inputs conn.identity ≠ none ∧
    request.Passes config inputs.commit s.server

/-- The requests that are processed in a step. -/
def OffsetReports.Processes (config : CentralConfig)
    (t : Transition OffsetReports OffsetReportEvent) (request : ControlRequest) : Prop :=
  ∃ event, t.event = .central event ∧ t.pre.central.Processes config event request

/-- An update of the volume that is processed in the later of two steps is not overtaken by a
request with a larger offset in the earlier one. -/
def OffsetReports.InOrder (config : CentralConfig) (volumeId : Nat)
    (later earlier : Transition OffsetReports OffsetReportEvent) : Prop :=
  ∀ offset, Processes config later (.updateStorageVolumeOffset volumeId offset) →
    ∀ request, Processes config earlier request →
      ∀ another ∈ request.offsets volumeId, another ≤ offset

/-- The offset of a new volume, and the ones that processed requests report for it. -/
def OffsetReports.processed (config : CentralConfig) (volumeId : Nat)
    (ts : List (Transition OffsetReports OffsetReportEvent)) : Set Nat :=
  { offset | offset = 0 ∨
    ∃ t ∈ ts, ∃ request, Processes config t request ∧ offset ∈ request.offsets volumeId }

namespace OffsetReports

variable {config : CentralConfig} {volumeId : Nat} {s s' : OffsetReports} {e : OffsetReportEvent}

/-- A request reports no more than is active. -/
def Covers (volumeId active : Nat) (request : ProtocolRequest) : Prop :=
  ∀ offset ∈ request.offsets volumeId, offset ≤ active

theorem Covers.grow {active active' : Nat} {request : ProtocolRequest}
    (covers : Covers volumeId active request) (grows : active ≤ active') :
    Covers volumeId active' request := fun offset member => (covers offset member).trans grows

/-- Whatever is recorded, held by central or under way is no more than is active. -/
structure Within (volumeId : Nat) (s : OffsetReports) : Prop where
  recorded : ∀ offset ∈ s.recorded volumeId, offset ≤ s.active ∧ offset ≤ i64Max ∧ volumeId ≤ i64Max
  held : ∀ conn ∈ s.central.connections.rows, conn.Holds (Covers volumeId s.active)
  inFlight : ∀ request ∈ s.inFlight, Covers volumeId s.active (.control request)

/-- A transaction writes offsets of the request it is for. -/
theorem offsets_of_transaction {offset : Nat} {inputs : Inputs}
    {identity : ControlConnectionIdentity} {handler : Handler} {tx : Transaction}
    (isTx : handler.transaction inputs identity = some tx) (writes : offset ∈ tx.offsets volumeId) :
    ∃ request, handler = .start request ∧ offset ∈ request.offsets volumeId := by
  cases handler with
  | start request =>
      refine ⟨request, rfl, ?_⟩
      cases request with
      | registerStorage name token version volumes irohEndpoint =>
          obtain rfl := Option.some.inj isTx
          exact writes
      | updateStorageVolumeOffset updated maxVolumeOffset =>
          cases identity with
          | storage storageId =>
              obtain rfl := Option.some.inj isTx
              exact writes
          | _ => cases isTx
      | _ => cases identity <;> cases isTx <;> cases writes
  | _ => cases isTx <;> cases writes

/-- Only an update has the transaction of one. -/
theorem request_of_update {updated offset : Nat} {inputs : Inputs}
    {identity : ControlConnectionIdentity} {request : ControlRequest}
    (isTx : request.transaction inputs identity = some (.updateVolumeOffset updated offset)) :
    request = .updateStorageVolumeOffset updated offset := by
  cases request with
  | updateStorageVolumeOffset updated' offset' =>
      cases identity with
      | storage storageId =>
          obtain ⟨rfl, rfl⟩ := Transaction.updateVolumeOffset.inj (Option.some.inj isTx)
          rfl
      | _ => cases isTx
  | _ => cases identity <;> cases isTx

/-- What a transaction writes stays within the bounds of the request it is for. -/
theorem within_of_offsetStep {tx : Transaction} {before : Option Nat} {offset active : Nat}
    (step : OffsetStep volumeId tx before (some offset))
    (recorded : ∀ offset ∈ before, offset ≤ active ∧ offset ≤ i64Max ∧ volumeId ≤ i64Max)
    (covers : ∀ offset ∈ tx.offsets volumeId, offset ≤ active) :
    offset ≤ active ∧ offset ≤ i64Max ∧ volumeId ≤ i64Max := by
  cases before with
  | none =>
      cases step with
      | created name maxBytes fits => exact ⟨Nat.zero_le _, Nat.zero_le _, fits⟩
  | some known =>
      obtain ⟨within, fits, idFits⟩ := recorded known rfl
      refine ⟨?_, ?_, idFits⟩
      · rcases step.mem_offsets with rfl | member
        · exact within
        · exact covers offset member
      · cases step with
        | kept => exact fits
        | raised volumes _ _ grows bounded reported => exact bounded fits
        | updated _ _ bounded => exact bounded

section Inversion

variable {active connection : Nat} {request : ControlRequest} {event : CentralEvent}

theorem of_grow (taken : s.step config volumeId (.grow active) = some s') :
    s.active ≤ active ∧ s' = { s with active := active } := by
  obtain ⟨grows, isNext⟩ := Option.ite_none_right_eq_some.mp taken
  exact ⟨grows, (Option.some.inj isNext).symm⟩

theorem of_send (taken : s.step config volumeId (.send request) = some s') :
    (∀ offset ∈ request.offsets volumeId, offset = s.active) ∧
      s' = { s with inFlight := request :: s.inFlight } := by
  obtain ⟨isActive, isNext⟩ := Option.ite_none_right_eq_some.mp taken
  exact ⟨isActive, (Option.some.inj isNext).symm⟩

theorem of_arrive (taken : s.step config volumeId (.arrive connection request) = some s') :
    request ∈ s.inFlight ∧ ∃ central',
      (Fs0.central config).step s.central (.receive connection (.control request)) = some central' ∧
      s' = { s with central := central', inFlight := s.inFlight.erase request } := by
  obtain ⟨sent, mapped⟩ := Option.ite_none_right_eq_some.mp taken
  obtain ⟨central', received, isNext⟩ := Option.map_eq_some_iff.mp mapped
  exact ⟨sent, central', received, isNext.symm⟩

theorem of_central (taken : s.step config volumeId (.central event) = some s') :
    event.brings volumeId = false ∧ ∃ central',
      (Fs0.central config).step s.central event = some central' ∧
      s' = { s with central := central' } := by
  obtain ⟨foreign, mapped⟩ := Option.ite_none_left_eq_some.mp taken
  obtain ⟨central', stepped, isNext⟩ := Option.map_eq_some_iff.mp mapped
  exact ⟨Bool.eq_false_iff.mpr foreign, central', stepped, isNext.symm⟩

end Inversion

variable {central central' : Central} {event : CentralEvent} {active : Nat}

/-- A step of central leaves what is recorded within the bounds that it found. -/
theorem within_of_central (taken : (Fs0.central config).step central event = some central')
    (recorded : ∀ offset ∈ central.tables.recordedOffset volumeId,
      offset ≤ active ∧ offset ≤ i64Max ∧ volumeId ≤ i64Max)
    (held : ∀ conn ∈ central.connections.rows, conn.Holds (Covers volumeId active)) :
    ∀ offset ∈ central'.tables.recordedOffset volumeId,
      offset ≤ active ∧ offset ≤ i64Max ∧ volumeId ≤ i64Max := by
  rcases Central.step_ran taken with same | ⟨tx, isTx, ran⟩
  · rw [same]
    exact recorded
  · intro offset isRecorded
    have step : OffsetStep volumeId tx _ _ := offsetStep_of_ran ran
    rw [Option.mem_def.mp isRecorded] at step
    refine within_of_offsetStep step recorded fun written writes => ?_
    cases event with
    | run c inputs =>
        obtain ⟨conn, found, rest⟩ := Option.bind_eq_some_iff.mp isTx
        obtain ⟨⟨stream, handler⟩, handles, isTx⟩ := Option.bind_eq_some_iff.mp rest
        obtain ⟨request, rfl, reports⟩ := offsets_of_transaction isTx writes
        have holds := held conn (Table.mem_of_find? found).1
        exact holds.started stream request handles written reports
    | _ => cases isTx

/-- A step of central hands on the requests it holds, and adds the one it receives. -/
theorem held_of_central (taken : (Fs0.central config).step central event = some central')
    (held : ∀ conn ∈ central.connections.rows, conn.Holds (Covers volumeId active))
    (received : ∀ c request, event = .receive c request → Covers volumeId active request) :
    ∀ conn ∈ central'.connections.rows, conn.Holds (Covers volumeId active) := by
  intro another member
  cases Central.step_cases taken with
  | connect =>
      rcases mem_appended.mp member with old | rfl
      · exact held another old
      · exact Central.holds_new _
  | restart => simp at member
  | connection conn found step =>
      obtain ⟨conn', connections, holds⟩ := Central.holds_of_step step
        (held conn (Table.mem_of_find? found).1) fun request isReceive => received _ request isReceive
      rw [connections] at member
      rcases SeqTable.mem_replace member with rfl | ⟨old, -⟩
      · exact holds
      · exact held another old

theorem Within.step (within : Within volumeId s) (taken : s.step config volumeId e = some s') :
    Within volumeId s' := by
  cases e with
  | grow active =>
      obtain ⟨grows, rfl⟩ := of_grow taken
      refine ⟨fun offset isRecorded => ?_, fun conn member => ?_, fun request member => ?_⟩
      · obtain ⟨below, fits⟩ := within.recorded offset isRecorded
        exact ⟨below.trans grows, fits⟩
      · have holds := within.held conn member
        exact ⟨fun task waits => (holds.waiting task waits).grow grows,
          fun stream request starts => (holds.started stream request starts).grow grows⟩
      · exact (within.inFlight request member).grow grows
  | send request =>
      obtain ⟨isActive, rfl⟩ := of_send taken
      refine ⟨within.recorded, within.held, fun another member => ?_⟩
      rcases List.mem_cons.mp member with rfl | sent
      · exact fun offset reports => (isActive offset reports).le
      · exact within.inFlight another sent
  | arrive connection request =>
      obtain ⟨sent, central', received, rfl⟩ := of_arrive taken
      refine ⟨within_of_central received within.recorded within.held,
        held_of_central received within.held fun c asked isReceive => ?_,
        fun another member => within.inFlight another (List.mem_of_mem_erase member)⟩
      obtain ⟨-, rfl⟩ := CentralEvent.receive.inj isReceive
      exact within.inFlight request sent
  | central event =>
      obtain ⟨foreign, central', stepped, rfl⟩ := of_central taken
      refine ⟨within_of_central stepped within.recorded within.held,
        held_of_central stepped within.held fun c request isReceive => ?_, within.inFlight⟩
      subst isReceive
      have silent : request.offsets volumeId = [] := by simpa [CentralEvent.brings] using foreign
      intro offset reports
      rw [silent] at reports
      cases reports

theorem within_of_reachable (reachable : (offsetReports config volumeId).Reachable s) :
    Within volumeId s := by
  refine reachable.invariant (Within volumeId) (fun s initial => ?_) fun s e s' within taken =>
    within.step taken
  obtain ⟨isInitial, noneSent⟩ := initial
  refine ⟨fun offset isRecorded => ?_, fun conn member => ?_, fun request member => ?_⟩
  · have absent : s.recorded volumeId = none := by
      unfold recorded
      rw [isInitial]
      rfl
    rw [absent] at isRecorded
    cases isRecorded
  · rw [isInitial] at member
    cases member
  · rw [noneSent] at member
    cases member

/-! ## What goes back -/

/-- A registration that central accepts raises the offset. -/
theorem registered_of_passes {name token version : String} {volumes : List StorageVolumeInfo}
    {irohEndpoint : Bytes} {inputs : Inputs} {c offset : Nat} {identity : ControlConnectionIdentity}
    {server : CentralServer}
    (validVersion : validateRegistrationVersion version = .ok ())
    (passes : Registration.Passes config server inputs.commit token volumes)
    (reports : offset ∈
      (ControlRequest.registerStorage name token version volumes irohEndpoint).offsets volumeId) :
    ∃ recorded ∈ (endState ((Handler.start (.registerStorage name token version volumes
      irohEndpoint)).resume config inputs c identity server)).db.1.recordedOffset volumeId,
      offset ≤ recorded := by
  obtain ⟨registered, db, ran⟩ := registerVolumes_iff.mpr passes.volumes
  have committed : CentralM.transact inputs.commit (registerVolumes volumes) server =
      .ok registered { server with db := db } := by
    unfold CentralM.transact CentralM.locked Fallible.transact
    rw [ran, passes.commits]
  have resumed : (Handler.start (.registerStorage name token version volumes irohEndpoint)).resume
      config inputs c identity server =
        .ok (.next (.volumesRegistered name registered irohEndpoint)) { server with db := db } := by
    refine lift_bind_eq_ok.mpr ⟨(), validVersion, require_bind_eq_ok.mpr ⟨passes.token, ?_⟩⟩
    exact bind_eq_ok.mpr ⟨registered, _, committed, rfl⟩
  rw [resumed, endState_ok]
  obtain ⟨volume, member, rfl⟩ := List.mem_map.mp reports
  obtain ⟨among, isVolume⟩ := List.mem_filter.mp member
  obtain rfl := of_decide_eq_true isVolume
  obtain ⟨-, row, found, -⟩ := passes.volumes volume among
  have raised := (registerVolumes_eq_ok ran).1.rows volume.volumeId
  rw [found] at raised
  refine ⟨_, Option.map_eq_some_iff.mpr ⟨_, raised, rfl⟩, ?_⟩
  exact (le_foldl_raisedBy volumes row).2 volume among (Table.mem_of_find? found).2.symm

/-- An update that central accepts sets the offset. -/
theorem updated_of_passes {inputs : Inputs} {c offset : Nat} {identity : ControlConnectionIdentity}
    {server : CentralServer}
    (isStorage : (ControlRequest.updateStorageVolumeOffset volumeId offset).transaction inputs
      identity ≠ none)
    (passes : (ControlRequest.updateStorageVolumeOffset volumeId offset).Passes config inputs.commit
      server) :
    (endState ((Handler.start (.updateStorageVolumeOffset volumeId offset)).resume config inputs c
      identity server)).db.1.recordedOffset volumeId = some offset := by
  obtain ⟨idFits, fits, commits, known⟩ := passes
  obtain ⟨row, found⟩ := Option.ne_none_iff_exists'.mp known
  obtain ⟨info, db, ran⟩ := updateVolumeOffset_of_find? idFits fits found
  have committed : CentralM.transact inputs.commit (updateVolumeOffset volumeId offset) server =
      .ok info { server with db := db } := by
    unfold CentralM.transact CentralM.locked Fallible.transact
    rw [ran, commits]
  cases identity with
  | storage storageId =>
      have resumed : (Handler.start (.updateStorageVolumeOffset volumeId offset)).resume config
          inputs c (.storage storageId) server =
            .ok (.next (.storeVolumeOffset storageId volumeId info)) { server with db := db } :=
        bind_eq_ok.mpr ⟨info, _, committed, rfl⟩
      have isRecorded : server.db.1.recordedOffset volumeId = some row.maxVolumeOffset :=
        Option.map_eq_some_iff.mpr ⟨row, found, rfl⟩
      rw [resumed, endState_ok, recordedOffset_of_update ran, if_pos rfl, isRecorded]
      rfl
  | _ => exact absurd rfl isStorage

/-- A request that is processed leaves its offset or a larger one, and an update exactly its own. -/
theorem recorded_of_processes {request : ControlRequest}
    (taken : (Fs0.central config).step central event = some central')
    (processes : central.Processes config event request) {offset : Nat}
    (reports : offset ∈ request.offsets volumeId) :
    ∃ recorded ∈ central'.tables.recordedOffset volumeId, offset ≤ recorded ∧
      (request = .updateStorageVolumeOffset volumeId offset → recorded = offset) := by
  obtain ⟨c, inputs, conn, stream, rfl, found, handles, isTx, passes⟩ := processes
  obtain ⟨conn', handling, result, runs, rfl⟩ := Central.step_run taken
  obtain rfl := Option.some.inj (found.symm.trans runs.found)
  obtain rfl := Option.some.inj (handles.symm.trans runs.handles)
  rw [Central.tables, Central.advance_server, ← runs.ran]
  cases request with
  | registerStorage name token version volumes irohEndpoint =>
      obtain ⟨validVersion, passes⟩ := passes
      obtain ⟨recorded, isRecorded, grows⟩ := registered_of_passes validVersion passes reports
      exact ⟨recorded, isRecorded, grows, fun isUpdate => by cases isUpdate⟩
  | updateStorageVolumeOffset updated maxVolumeOffset =>
      dsimp only [ControlRequest.offsets] at reports
      split at reports
      next isVolume =>
        obtain rfl := List.mem_singleton.mp reports
        subst isVolume
        exact ⟨offset, updated_of_passes isTx passes, Nat.le_refl _, fun _ => rfl⟩
      next => cases reports
  | _ => exact absurd passes id

/-- A section whose request is not accepted leaves the tables as they are. -/
theorem passes_of_changed {inputs : Inputs} {c : Nat} {identity : ControlConnectionIdentity}
    {request : ControlRequest} {server : CentralServer}
    (isTx : request.transaction inputs identity ≠ none)
    (reports : request.offsets volumeId ≠ [])
    (changed : (endState ((Handler.start request).resume config inputs c identity server)).db.1 ≠
      server.db.1) : request.Passes config inputs.commit server := by
  cases request with
  | registerStorage name token version volumes irohEndpoint =>
      cases ran : (Handler.start (.registerStorage name token version volumes
          irohEndpoint)).resume config inputs c identity server with
      | ok progress server' =>
          obtain ⟨_, validVersion, rest⟩ := lift_bind_eq_ok.mp ran
          obtain ⟨allowed, rest⟩ := require_bind_eq_ok.mp rest
          obtain ⟨registered, server₁, committed, -⟩ := bind_eq_ok.mp rest
          obtain ⟨commits, db, ranVolumes, -⟩ := CentralM.transact_eq_ok committed
          exact ⟨validVersion, allowed, registerVolumes_iff.mp ⟨_, _, ranVolumes⟩, commits⟩
      | error err server' =>
          refine absurd ?_ changed
          rw [ran, endState_error]
          rcases bind_eq_error.mp ran with failed | ⟨_, server₁, valid, checking⟩
          · rw [(lift_eq_error.mp failed).2]
          obtain ⟨-, rfl⟩ := lift_eq_ok.mp valid
          rcases bind_eq_error.mp checking with failed | ⟨_, server₂, allowed, registering⟩
          · rw [(require_eq_error.mp failed).2.2]
          obtain ⟨-, rfl⟩ := require_eq_ok.mp allowed
          rcases bind_eq_error.mp registering with failed | ⟨registered, server₃, -, ended⟩
          · rw [CentralM.transact_eq_error failed]
          · cases ended
  | updateStorageVolumeOffset updated offset =>
      cases identity with
      | storage storageId =>
          cases ran : (Handler.start (.updateStorageVolumeOffset updated offset)).resume config
              inputs c (.storage storageId) server with
          | ok progress server' =>
              obtain ⟨info, server₁, committed, -⟩ := bind_eq_ok.mp ran
              obtain ⟨commits, db, ranUpdate, -⟩ := CentralM.transact_eq_ok committed
              obtain ⟨idFits, bound⟩ := bindU64_bind_eq_ok.mp ranUpdate
              obtain ⟨fits, -⟩ := bindU64_bind_eq_ok.mp bound
              exact ⟨idFits, fits, commits, known_of_update ranUpdate⟩
          | error err server' =>
              refine absurd ?_ changed
              rw [ran, endState_error]
              rcases bind_eq_error.mp ran with failed | ⟨info, server₁, -, ended⟩
              · rw [CentralM.transact_eq_error failed]
              · cases ended
      | _ => exact absurd rfl isTx
  | _ => exact absurd rfl reports

/-- What a step of central does to an offset that is recorded: it raises it to one that it
processes, or sets it to the one of an update, or leaves it. -/
theorem recorded_of_central (taken : (Fs0.central config).step central event = some central')
    {known : Nat} (isKnown : central.tables.recordedOffset volumeId = some known) :
    ∃ recorded ∈ central'.tables.recordedOffset volumeId, recorded = known ∨
      ∃ request, central.Processes config event request ∧ recorded ∈ request.offsets volumeId ∧
        (known ≤ recorded ∨ request = .updateStorageVolumeOffset volumeId recorded) := by
  by_cases unchanged : central'.tables = central.tables
  · exact ⟨known, unchanged ▸ isKnown, .inl rfl⟩
  rcases Central.step_ran taken with same | ⟨tx, isTx, ran⟩
  · exact absurd same unchanged
  have step : OffsetStep volumeId tx _ _ := offsetStep_of_ran ran
  rw [isKnown] at step
  obtain ⟨recorded, isRecorded⟩ : ∃ recorded, central'.tables.recordedOffset volumeId =
      some recorded := by
    generalize central'.tables.recordedOffset volumeId = after at step
    cases step <;> exact ⟨_, rfl⟩
  rw [isRecorded] at step
  refine ⟨recorded, isRecorded, ?_⟩
  rcases step.mem_offsets with same | reports
  · exact .inl same
  cases event with
  | run c inputs =>
      obtain ⟨conn, handling, result, runs, rfl⟩ := Central.step_run taken
      rw [runs.transaction_eq] at isTx
      obtain ⟨request, isStart, asks⟩ := offsets_of_transaction isTx reports
      rw [isStart] at isTx
      have changed := unchanged
      rw [Central.tables, Central.advance_server, ← runs.ran, isStart] at changed
      have asked : request.transaction inputs conn.identity ≠ none := by
        rw [show request.transaction inputs conn.identity = some tx from isTx]
        exact Option.some_ne_none tx
      refine .inr ⟨request, ⟨c, inputs, conn, handling.stream, rfl, runs.found, ?_, asked,
        passes_of_changed asked (List.ne_nil_of_mem asks) changed⟩, asks, ?_⟩
      · rw [runs.handles, ← isStart]
      · cases step with
        | kept => exact .inl (Nat.le_refl _)
        | raised volumes _ _ grows fits reported => exact .inl grows
        | updated _ _ fits => exact .inr (request_of_update isTx)
  | _ => cases isTx

/-- A step leaves a recorded offset in its place, or processes the one that it records. -/
theorem recorded_of_step (taken : s.step config volumeId e = some s') {known : Nat}
    (isKnown : s.recorded volumeId = some known) :
    ∃ recorded ∈ s'.recorded volumeId, recorded = known ∨
      ∃ request, Processes config ⟨s, e, s'⟩ request ∧ recorded ∈ request.offsets volumeId ∧
        (known ≤ recorded ∨ request = .updateStorageVolumeOffset volumeId recorded) := by
  cases e with
  | grow active =>
      obtain ⟨-, rfl⟩ := of_grow taken
      exact ⟨known, isKnown, .inl rfl⟩
  | send request =>
      obtain ⟨-, rfl⟩ := of_send taken
      exact ⟨known, isKnown, .inl rfl⟩
  | arrive connection request =>
      obtain ⟨-, central', received, rfl⟩ := of_arrive taken
      obtain ⟨recorded, isRecorded, same | ⟨_, ⟨c, inputs, _, _, isRun, -⟩, -⟩⟩ :=
        recorded_of_central received isKnown
      · exact ⟨recorded, isRecorded, .inl same⟩
      · cases isRun
  | central event =>
      obtain ⟨-, central', stepped, rfl⟩ := of_central taken
      obtain ⟨recorded, isRecorded, changes⟩ := recorded_of_central stepped isKnown
      refine ⟨recorded, isRecorded, changes.imp_right ?_⟩
      exact fun ⟨request, processes, rest⟩ => ⟨request, ⟨event, rfl, processes⟩, rest⟩

/-- A volume without a recorded offset gets the offset 0. -/
theorem recorded_of_unknown (taken : s.step config volumeId e = some s')
    (unknown : s.recorded volumeId = none) {recorded : Nat}
    (isRecorded : s'.recorded volumeId = some recorded) : recorded = 0 := by
  have created {central' : Central} {event : CentralEvent}
      (stepped : (Fs0.central config).step s.central event = some central')
      (isRecorded : central'.tables.recordedOffset volumeId = some recorded) : recorded = 0 := by
    rcases Central.step_ran stepped with same | ⟨tx, -, ran⟩
    · rw [same] at isRecorded
      cases unknown.symm.trans isRecorded
    · have step : OffsetStep volumeId tx (s.recorded volumeId) _ := offsetStep_of_ran ran
      rw [unknown, isRecorded] at step
      cases step
      rfl
  cases e with
  | grow active =>
      obtain ⟨-, rfl⟩ := of_grow taken
      cases unknown.symm.trans isRecorded
  | send request =>
      obtain ⟨-, rfl⟩ := of_send taken
      cases unknown.symm.trans isRecorded
  | arrive connection request =>
      obtain ⟨-, central', received, rfl⟩ := of_arrive taken
      exact created received isRecorded
  | central event =>
      obtain ⟨-, central', stepped, rfl⟩ := of_central taken
      exact created stepped isRecorded

/-- A request that is processed leaves its offset or a larger one, and an update exactly its own. -/
theorem recorded_of_processed {t : Transition OffsetReports OffsetReportEvent}
    (taken : t.pre.step config volumeId t.event = some t.post) {request : ControlRequest}
    (processes : Processes config t request) {offset : Nat}
    (reports : offset ∈ request.offsets volumeId) :
    ∃ recorded ∈ t.post.recorded volumeId, offset ≤ recorded ∧
      (request = .updateStorageVolumeOffset volumeId offset → recorded = offset) := by
  obtain ⟨event, isCentral, processes⟩ := processes
  rw [isCentral] at taken
  obtain ⟨-, central', stepped, post⟩ := of_central taken
  rw [recorded, post]
  exact recorded_of_processes stepped processes reports

variable {ts : List (Transition OffsetReports OffsetReportEvent)}

/-- What is recorded was processed. -/
theorem recorded_mem_processed (run : (offsetReports config volumeId).Run ts s) :
    ∀ recorded ∈ s.recorded volumeId, recorded ∈ processed config volumeId ts := by
  induction run with
  | @init s initial =>
      intro recorded isRecorded
      have absent : s.recorded volumeId = none := by
        rw [OffsetReports.recorded, initial.1]
        rfl
      cases absent.symm.trans isRecorded
  | @step ts s s' e run taken inductionHypothesis =>
      intro recorded isRecorded
      cases isKnown : s.recorded volumeId with
      | none => exact .inl (recorded_of_unknown taken isKnown isRecorded)
      | some known =>
          obtain ⟨after, isAfter, same | ⟨request, processes, reports, -⟩⟩ :=
            recorded_of_step taken isKnown
          · obtain rfl := Option.some.inj (isAfter.symm.trans isRecorded)
            rw [same]
            exact (inductionHypothesis known isKnown).imp_right fun ⟨t, member, rest⟩ =>
              ⟨t, List.mem_cons_of_mem _ member, rest⟩
          · obtain rfl := Option.some.inj (isAfter.symm.trans isRecorded)
            exact .inr ⟨_, List.mem_cons_self, request, processes, reports⟩

/-- When no update is overtaken, whatever was processed is covered by what is recorded. -/
theorem processed_le_recorded (run : (offsetReports config volumeId).Run ts s)
    (inOrder : ts.Pairwise (InOrder config volumeId)) :
    ∀ t ∈ ts, ∀ request, Processes config t request → ∀ offset ∈ request.offsets volumeId,
      ∃ recorded ∈ s.recorded volumeId, offset ≤ recorded := by
  induction run with
  | init initial => exact fun t member => absurd member List.not_mem_nil
  | @step ts s s' e run taken inductionHypothesis =>
      obtain ⟨newest, inOrder⟩ := List.pairwise_cons.mp inOrder
      intro t member request processes offset reports
      rcases List.mem_cons.mp member with rfl | earlier
      · obtain ⟨recorded, isRecorded, covers, -⟩ := recorded_of_processed (t := ⟨s, e, s'⟩) taken processes reports
        exact ⟨recorded, isRecorded, covers⟩
      · obtain ⟨known, isKnown, covers⟩ :=
          inductionHypothesis inOrder t earlier request processes offset reports
        obtain ⟨recorded, isRecorded, rfl | ⟨update, updates, -, grows | rfl⟩⟩ :=
          recorded_of_step taken isKnown
        · exact ⟨recorded, isRecorded, covers⟩
        · exact ⟨recorded, isRecorded, covers.trans grows⟩
        · exact ⟨recorded, isRecorded, newest t earlier recorded updates request processes offset
            reports⟩

/-- When no update is overtaken, the largest offset that was processed is recorded. -/
theorem recorded_isGreatest (run : (offsetReports config volumeId).Run ts s)
    (inOrder : ts.Pairwise (InOrder config volumeId)) :
    ∀ recorded ∈ s.recorded volumeId, IsGreatest (processed config volumeId ts) recorded := by
  intro recorded isRecorded
  refine ⟨recorded_mem_processed run recorded isRecorded, ?_⟩
  rintro offset (rfl | ⟨t, member, request, processes, reports⟩)
  · exact Nat.zero_le recorded
  · obtain ⟨another, isOther, covers⟩ :=
      processed_le_recorded run inOrder t member request processes offset reports
    exact Option.some.inj (isOther.symm.trans isRecorded) ▸ covers

/-- The offset recorded for the volume does not go back. -/
def Grows (volumeId : Nat) (t : Transition OffsetReports OffsetReportEvent) : Prop :=
  ∀ before ∈ t.pre.recorded volumeId, ∃ after ∈ t.post.recorded volumeId, before ≤ after

/-- After steps in order, the offset does not go back in the next one exactly when it processes
no update that is overtaken. -/
theorem grows_iff (run : (offsetReports config volumeId).Run ts s)
    (inOrder : ts.Pairwise (InOrder config volumeId))
    (taken : s.step config volumeId e = some s') :
    Grows volumeId ⟨s, e, s'⟩ ↔ ∀ t ∈ ts, InOrder config volumeId ⟨s, e, s'⟩ t := by
  constructor
  · intro grows t member offset updates request processes another reports
    obtain ⟨known, isKnown, covers⟩ :=
      processed_le_recorded run inOrder t member request processes another reports
    obtain ⟨after, isAfter, above⟩ := grows known isKnown
    obtain ⟨recorded, isRecorded, -, isOffset⟩ := recorded_of_processed (t := ⟨s, e, s'⟩) taken updates (by
      dsimp only [ControlRequest.offsets]
      rw [if_pos rfl]
      exact List.mem_cons_self)
    obtain rfl := Option.some.inj (isAfter.symm.trans isRecorded)
    exact (covers.trans above).trans (isOffset rfl).le
  · intro newest known isKnown
    obtain ⟨recorded, isRecorded, rfl | ⟨update, updates, -, grows | rfl⟩⟩ :=
      recorded_of_step taken isKnown
    · exact ⟨recorded, isRecorded, Nat.le_refl _⟩
    · exact ⟨recorded, isRecorded, grows⟩
    · refine ⟨recorded, isRecorded, ?_⟩
      rcases (recorded_isGreatest run inOrder known isKnown).1 with rfl | ⟨t, member, rest⟩
      · exact Nat.zero_le recorded
      · obtain ⟨request, processes, reports⟩ := rest
        exact newest t member recorded updates request processes known reports

/-- In a run, the offset never goes back exactly when no update is overtaken. -/
theorem all_grow_iff (run : (offsetReports config volumeId).Run ts s) :
    (∀ t ∈ ts, Grows volumeId t) ↔ ts.Pairwise (InOrder config volumeId) := by
  induction run with
  | init initial => simp
  | @step ts s s' e run taken inductionHypothesis =>
      rw [List.forall_mem_cons, List.pairwise_cons, inductionHypothesis]
      exact and_congr_left fun inOrder => grows_iff run inOrder taken

end OffsetReports

/-- The offset recorded for a volume never exceeds the active one, and it never goes back if and
only if central processes no update of the volume after a request that reports a larger offset.
Then the largest offset that was processed is recorded. -/
theorem recorded_offset_grows_iff {config : CentralConfig} {volumeId : Nat}
    {ts : List (Transition OffsetReports OffsetReportEvent)} {s : OffsetReports}
    (run : (offsetReports config volumeId).Run ts s) :
    (((∀ t ∈ ts, ∀ before ∈ t.pre.recorded volumeId,
        ∃ after ∈ t.post.recorded volumeId, before ≤ after) ∧
      ∀ x ∈ visited ts s, ∀ offset ∈ x.recorded volumeId, offset ≤ x.active) ↔
    ts.Pairwise (OffsetReports.InOrder config volumeId)) ∧
    (ts.Pairwise (OffsetReports.InOrder config volumeId) → ∀ recorded ∈ s.recorded volumeId,
      IsGreatest (OffsetReports.processed config volumeId ts) recorded) := by
  have within : ∀ x ∈ visited ts s, ∀ offset ∈ x.recorded volumeId, offset ≤ x.active := by
    intro x member offset isRecorded
    have reachable := run.reachable_of_visited member
    exact ((OffsetReports.within_of_reachable reachable).recorded offset isRecorded).1
  rw [and_iff_left within]
  exact ⟨OffsetReports.all_grow_iff run, OffsetReports.recorded_isGreatest run⟩

namespace Scenario

/-- A request of the storage arrives and runs through its sections. -/
def reported (stream sections : Nat) (request : ControlRequest) : List OffsetReportEvent :=
  .arrive 2 request :: (Scenario.request 2 stream sections 1 request).tail.map .central

def registration : ControlRequest :=
  .registerStorage "s" "token" "0.2.4" [⟨1, "v", 100, 0, false⟩] []

/-- A client on connection 1 that has created a volume, and a second connection. -/
def volumeCreated : List CentralEvent :=
  [.connect] ++ request 1 0 4 1 (.registerClient none "token" "0.2.4") ++
    request 1 1 1 1 (.createVolume "v" 100) ++ [.connect]

/-- A storage is registered with its volume, which then grows twice, with an update each time. -/
def grownTwice : List OffsetReportEvent :=
  volumeCreated.map .central ++ [.send registration] ++ reported 2 6 registration ++
  [.grow 10, .send (.updateStorageVolumeOffset 1 10), .grow 20,
    .send (.updateStorageVolumeOffset 1 20)]

/-- The second update is processed first, and then the first one takes the identity. -/
def overtaken : List OffsetReportEvent :=
  grownTwice ++ reported 3 2 (.updateStorageVolumeOffset 1 20) ++
    [.arrive 2 (.updateStorageVolumeOffset 1 10), .central (.lockIdentity 2 4)]

end Scenario

theorem recorded_offset_grows_iff_ordered : ∃ s ts,
    (offsetReports Scenario.config 1).Run ts s ∧ s.recorded 1 = some 20 ∧
    ((((∀ t ∈ ts, ∀ before ∈ t.pre.recorded 1, ∃ after ∈ t.post.recorded 1, before ≤ after) ∧
      ∀ x ∈ visited ts s, ∀ offset ∈ x.recorded 1, offset ≤ x.active) ↔
    ts.Pairwise (OffsetReports.InOrder Scenario.config 1)) ∧
    (ts.Pairwise (OffsetReports.InOrder Scenario.config 1) → ∀ recorded ∈ s.recorded 1,
      IsGreatest (OffsetReports.processed Scenario.config 1 ts) recorded)) := by
  have recorded : ((offsetReports Scenario.config 1).exec ⟨Central.initial, 0, []⟩
      Scenario.overtaken).map (OffsetReports.recorded 1) = some (some 20) := by decide +kernel
  obtain ⟨s, ends, isRecorded⟩ := Option.map_eq_some_iff.mp recorded
  have initial : (offsetReports Scenario.config 1).Init ⟨Central.initial, 0, []⟩ := ⟨rfl, rfl⟩
  obtain ⟨ts, run⟩ := System.exec_reachable _ initial ends
  exact ⟨s, ts, run, isRecorded, recorded_offset_grows_iff run⟩

/-- An update that is processed after a newer one takes the offset back. -/
theorem recorded_offset_goes_back : ¬ ∀ config volumeId ts s,
    (offsetReports config volumeId).Run ts s →
    (∀ t ∈ ts, ∀ before ∈ t.pre.recorded volumeId,
      ∃ after ∈ t.post.recorded volumeId, before ≤ after) ∧
    ∀ x ∈ visited ts s, ∀ offset ∈ x.recorded volumeId, offset ≤ x.active := by
  intro claim
  have processed : (((offsetReports Scenario.config 1).exec ⟨Central.initial, 0, []⟩
      Scenario.overtaken).bind fun s => ((offsetReports Scenario.config 1).step s
        (.central (.run 2 (Scenario.inputs 1)))).map fun s' => (s.recorded 1, s'.recorded 1)) =
      some (some 20, some 10) := by decide +kernel
  obtain ⟨s, ends, rest⟩ := Option.bind_eq_some_iff.mp processed
  obtain ⟨s', taken, recorded⟩ := Option.map_eq_some_iff.mp rest
  obtain ⟨isKnown, isRecorded⟩ := Prod.mk.inj recorded
  have initial : (offsetReports Scenario.config 1).Init ⟨Central.initial, 0, []⟩ := ⟨rfl, rfl⟩
  obtain ⟨ts, run⟩ := System.exec_reachable _ initial ends
  obtain ⟨after, isAfter, above⟩ :=
    (claim _ _ _ _ (run.step taken)).1 ⟨s, _, s'⟩ List.mem_cons_self 20 isKnown
  obtain rfl := Option.some.inj (isRecorded.symm.trans isAfter)
  exact absurd above (by decide)

end Fs0
