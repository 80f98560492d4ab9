import Fs0.Central.ConnectionSteps
import Fs0.Central.FileSteps

/-!
Contract: the sizes of files and the bundles they are made of.

Owns:
- that the bundle rows of a file are numbered from 0 without gaps, and that its
  size is the sum of their raw lengths;
- that a read plan lists the bundles in this order, with lengths that add up to
  the size of the file.

Does not own: where the replicas of a bundle are.
-/

set_option autoImplicit false

namespace Fs0

open Lib Fallible

/-! ## Contents -/

/-- The raw length of a list of bundles, each taken as often as it is listed. -/
def rawLenSum (rawLenOf : HashId → Nat) (bundleIds : List HashId) : Nat :=
  (bundleIds.map rawLenOf).sum

/-- The bundle rows of a content are numbered from 0, and its size is their sum. -/
structure ContentSized (rawLenOf : HashId → Nat) (size : Nat) (rows : List FileBundleRow) :
    Prop where
  indices : rows.map FileBundleRow.bundleIndex = List.range rows.length
  size_eq : size = rawLenSum rawLenOf (rows.map FileBundleRow.bundleId)

/-- What the tables obey when all replicas of a bundle have one raw length. -/
structure FilesSized (rawLenOf : HashId → Nat) (tables : CentralTables) : Prop where
  referring : tables.Referring
  replicas : ∀ row ∈ tables.bundleReplicas.rows, row.rawLen = rawLenOf row.bundleId
  files : ∀ fileId size, (tables.content fileId).1 = some size →
    ContentSized rawLenOf size (tables.content fileId).2

/-- The reports of a request carry the raw length of their bundles. -/
def ReportsRawLen (rawLenOf : HashId → Nat) : ProtocolRequest → Prop
  | .control (.reportBundleReplica events) => ∀ event ∈ events, event.kind = .stored →
      ∀ rawLen, event.rawLen = some rawLen → rawLen = rawLenOf event.bundleId
  | _ => True

section Contents

variable {rawLenOf : HashId → Nat}

theorem submittedRawSize_eq_ok {replicas : List BundleReplicaRow} {bundles : List CommittedBundle}
    {total size : Nat} (known : ∀ row ∈ replicas, row.rawLen = rawLenOf row.bundleId)
    (submitted : UpdateRequest.submittedRawSize replicas bundles total = .ok size) :
    size = total + rawLenSum rawLenOf (bundles.map CommittedBundle.bundleId) := by
  induction bundles generalizing total with
  | nil =>
      obtain rfl := Except.ok.inj submitted
      rfl
  | cons bundle rest inductionHypothesis =>
      obtain ⟨ready, isReady, submitted⟩ := Fs0Result.bind_eq_ok.mp submitted
      have found := okOr_eq_ok.mp isReady
      have readyId : ready.bundleId = bundle.bundleId := by simpa using List.find?_some found
      have readyLen := known ready (List.mem_of_find?_eq_some found)
      split at submitted
      · cases submitted
      next sameLen =>
        obtain ⟨sum, isSum, submitted⟩ := Fs0Result.bind_eq_ok.mp submitted
        obtain ⟨-, rfl⟩ := checkedAdd_eq_some.mp (okOr_eq_ok.mp isSum)
        have len : bundle.rawLen = rawLenOf bundle.bundleId := by
          rw [← readyId, ← readyLen]
          exact (not_not.mp sameLen).symm
        rw [inductionHypothesis submitted, len]
        simp only [rawLenSum, List.map_cons, List.sum_cons]
        omega

theorem bundleRowsFrom_indices (fileId index : Nat) (bundleIds : List HashId) :
    (bundleRowsFrom fileId index bundleIds).map FileBundleRow.bundleIndex =
      List.range' index bundleIds.length := by
  induction bundleIds generalizing index with
  | nil => rfl
  | cons bundleId rest inductionHypothesis =>
      rw [bundleRowsFrom, List.map_cons, inductionHypothesis, List.length_cons, List.range'_succ]

theorem bundleRowsFrom_bundleIds (fileId index : Nat) (bundleIds : List HashId) :
    (bundleRowsFrom fileId index bundleIds).map FileBundleRow.bundleId = bundleIds := by
  induction bundleIds generalizing index with
  | nil => rfl
  | cons bundleId rest inductionHypothesis =>
      rw [bundleRowsFrom, List.map_cons, inductionHypothesis]

theorem bundleRowsFrom_length (fileId index : Nat) (bundleIds : List HashId) :
    (bundleRowsFrom fileId index bundleIds).length = bundleIds.length := by
  have ids := congrArg List.length (bundleRowsFrom_bundleIds fileId index bundleIds)
  rwa [List.length_map] at ids

theorem ContentSized.empty : ContentSized rawLenOf 0 [] := ⟨rfl, rfl⟩

theorem ContentSized.renumbered {size : Nat} {rows : List FileBundleRow}
    (sized : ContentSized rawLenOf size rows) (fileId : Nat) :
    ContentSized rawLenOf size (CentralTables.renumbered fileId rows) := by
  unfold CentralTables.renumbered
  constructor
  case indices =>
      rw [List.map_map, List.length_map]
      exact sized.indices
  case size_eq =>
      rw [List.map_map]
      exact sized.size_eq

end Contents

/-! ## Transactions -/

namespace CentralTables

variable {rawLenOf : HashId → Nat} {before after : CentralTables} {tx : Transaction}

/-- Only reports change replicas. -/
theorem replicas_of_effect (effect : tx.Effect before after) :
    after.bundleReplicas = before.bundleReplicas ∨
      ∃ events, tx = .reportReplicas events ∧ ReplicasReported before after events := by
  cases tx with
  | reportReplicas events => exact .inr ⟨events, rfl, effect⟩
  | beginUpdate request volumeId now =>
      obtain ⟨granted, file, mid, taken, -, -, -, rfl⟩ := effect
      cases taken <;> exact .inl rfl
  | commitUpdate request now =>
      obtain ⟨row, file, compressedSize, dir, committed⟩ := effect
      exact .inl (by rw [committed.others])
  | copyFile sourceFileId targetPath now =>
      obtain ⟨source, target, dirId, name, copied⟩ := effect
      exact .inl (by rw [copied.others])
  | renameFile fileId targetPath now =>
      obtain ⟨file, target, dirId, name, renamed⟩ := effect
      exact .inl (by rw [renamed.others])
  | dropLease leaseId => exact .inl (by rw [show after = _ from effect])
  | abortUpdate leaseId fileId => exact .inl (by rw [effect.2])
  | deleteFile fileId now => exact .inl (by rw [effect.2])
  | registerVolumes volumes =>
      exact .inl (by rw [show after = { before with volumes := after.volumes } from effect])
  | createVolume name maxBytes => exact .inl (by rw [show after = _ from effect])
  | updateVolumeOffset volumeId maxVolumeOffset => exact .inl (by rw [effect.others])

end CentralTables

section Preserved

variable {rawLenOf : HashId → Nat} {before after : CentralTables} {tx : Transaction}

theorem initial_filesSized : FilesSized rawLenOf CentralTables.initial where
  referring := CentralTables.initial_referring
  replicas := by simp [CentralTables.initial, Table.empty]
  files fileId size present := by cases present

theorem FilesSized.preserved (sized : FilesSized rawLenOf before)
    (effect : tx.Effect before after)
    (reported : ∀ events, tx = .reportReplicas events → ∀ event ∈ events, event.kind = .stored →
      ∀ rawLen, event.rawLen = some rawLen → rawLen = rawLenOf event.bundleId) :
    FilesSized rawLenOf after := by
  have step := CentralTables.fileStep_of_effect effect
  constructor
  case referring => exact sized.referring.preserved step
  case replicas =>
      intro row member
      rcases CentralTables.replicas_of_effect effect with same | ⟨events, isReport, reports⟩
      · exact sized.replicas row (same ▸ member)
      · rcases reports.stored row member with old | ⟨event, eventMem, kind, isBundle, -, len, -⟩
        · exact sized.replicas row old
        · rw [← isBundle]
          exact reported events isReport event eventMem kind _ len
  case files =>
      intro fileId size present
      cases CentralTables.change_of_step sized.referring step fileId with
      | untouched content =>
          rw [content] at present ⊢
          exact sized.files fileId size present
      | begun new content =>
          rw [content] at present ⊢
          obtain rfl := Option.some.inj present
          exact .empty
      | committed request replicas old event known submitted isOld content =>
          rw [content] at present ⊢
          obtain rfl := Option.some.inj present
          have total := submittedRawSize_eq_ok (fun row member =>
            sized.replicas row (known row member)) submitted
          refine ⟨?_, ?_⟩
          · rw [bundleRowsFrom_indices, bundleRowsFrom_length, List.range_eq_range']
          · rw [bundleRowsFrom_bundleIds, total, Nat.zero_add]
      | deleted event old isOld content =>
          rw [content] at present
          cases present
      | copied new sourceFileId copiedSize event source content =>
          rw [content] at present ⊢
          obtain rfl := Option.some.inj present
          exact (sized.files sourceFileId copiedSize source).renumbered fileId
      | renamed event old isOld content =>
          rw [content] at present ⊢
          exact sized.files fileId size present

end Preserved

/-! ## Runs -/

section Runs

variable {rawLenOf : HashId → Nat} {config : CentralConfig} {s : Central}
  {ts : List (Transition Central CentralEvent)}

/-- Reports are the transaction of a report request only. -/
theorem Handler.reports_of_transaction {inputs : Inputs} {identity : ControlConnectionIdentity}
    {handler : Handler} {events : List BundleReplicaEvent}
    (isTx : handler.transaction inputs identity = some (.reportReplicas events)) :
    handler = .start (.reportBundleReplica events) := by
  cases handler with
  | start request =>
      unfold Handler.transaction ControlRequest.transaction at isTx
      cases request <;> cases identity <;> cases isTx
      rfl
  | _ => cases isTx

/-- The reports an event commits are those of a request that is held. -/
theorem reports_held (holds : ∀ conn ∈ s.connections.rows, conn.Holds (ReportsRawLen rawLenOf))
    {e : CentralEvent} {events : List BundleReplicaEvent}
    (isTx : s.transaction e = some (.reportReplicas events)) :
    ReportsRawLen rawLenOf (.control (.reportBundleReplica events)) := by
  cases e with
  | run c inputs =>
      obtain ⟨conn, found, isTx⟩ := Option.bind_eq_some_iff.mp isTx
      obtain ⟨⟨stream, handler⟩, handles, isTx⟩ := Option.bind_eq_some_iff.mp isTx
      obtain rfl := Handler.reports_of_transaction isTx
      exact (holds conn (Table.mem_of_find? found).1).started stream _ handles
  | _ => cases isTx

theorem filesSized_of_run (run : (central config).Run ts s)
    (agree : ∀ t ∈ ts, ∀ c request, t.event = .receive c request →
      ReportsRawLen rawLenOf request) : FilesSized rawLenOf s.tables := by
  induction run with
  | init initial =>
      obtain rfl := initial
      exact initial_filesSized
  | @step ts s s' e run taken inductionHypothesis =>
      have earlier : ∀ t ∈ ts, ∀ c request, t.event = .receive c request →
          ReportsRawLen rawLenOf request := fun t member => agree t (List.mem_cons_of_mem _ member)
      have sized := inductionHypothesis earlier
      rcases Central.step_tables taken with same | ⟨tx, isTx, effect⟩
      · rw [same]
        exact sized
      · apply sized.preserved effect
        rintro events rfl
        exact reports_held (Central.holds_of_run run earlier) isTx

end Runs

/-! ## Read plans -/

section ReadPlans

variable {rawLenOf : HashId → Nat}

theorem bundleReadTarget_rawLen {onlineVolumes : Table OnlineVolume.volumeId}
    {replicas : List BundleReplicaRow} {bundleId : HashId}
    {target : ClientRequest.BundleReadTarget}
    (known : ∀ row ∈ replicas, row.rawLen = rawLenOf row.bundleId)
    (found : ClientRequest.bundleReadTarget onlineVolumes replicas bundleId = some target) :
    target.rawLen = rawLenOf bundleId := by
  obtain ⟨⟨replica, storageId⟩, isFirst, rfl⟩ := Option.map_eq_some_iff.mp found
  obtain ⟨row, member, selected⟩ := List.mem_filterMap.mp (List.mem_of_head? isFirst)
  split at selected
  next sameBundle =>
    obtain ⟨mounted, -, same⟩ := Option.map_eq_some_iff.mp selected
    obtain ⟨rfl, -⟩ := Prod.mk.inj same
    rw [← sameBundle]
    exact known row member
  · cases selected

theorem fileBundleRef_eq_ok {onlineVolumes : Table OnlineVolume.volumeId}
    {replicas : List BundleReplicaRow} {row : FileBundleRow} {ref : FileBundleRef}
    (known : ∀ row ∈ replicas, row.rawLen = rawLenOf row.bundleId)
    (found : ClientRequest.fileBundleRef onlineVolumes replicas row = .ok ref) :
    ref.bundleIndex = row.bundleIndex ∧ ref.bundleId = row.bundleId ∧
      ref.rawLen = rawLenOf row.bundleId := by
  obtain ⟨target, isTarget, ended⟩ := Fs0Result.bind_eq_ok.mp found
  obtain rfl := Except.ok.inj ended
  exact ⟨rfl, rfl, bundleReadTarget_rawLen known (okOr_eq_ok.mp isTarget)⟩

/-- The references of a plan follow the bundle rows one by one. -/
theorem fileBundleRefs_of_rows {onlineVolumes : Table OnlineVolume.volumeId}
    {replicas : List BundleReplicaRow} {rows : List FileBundleRow} {refs : List FileBundleRef}
    (known : ∀ row ∈ replicas, row.rawLen = rawLenOf row.bundleId)
    (mapped : rows.mapM (ClientRequest.fileBundleRef onlineVolumes replicas) = .ok refs) :
    refs.map FileBundleRef.bundleIndex = rows.map FileBundleRow.bundleIndex ∧
      refs.map FileBundleRef.rawLen = (rows.map FileBundleRow.bundleId).map rawLenOf := by
  have paired := mapM_eq_ok.mp mapped
  clear mapped
  induction paired with
  | nil => exact ⟨rfl, rfl⟩
  | cons isRef _ inductionHypothesis =>
      obtain ⟨index, -, len⟩ := fileBundleRef_eq_ok known isRef
      simp only [List.map_cons, index, len]
      exact ⟨by rw [inductionHypothesis.1], by rw [inductionHypothesis.2]⟩

theorem readPlanTx_eq_ok {fileId : Nat} {db db' : CentralDb} {record : FileRecord}
    {rows : List FileBundleRow} {replicas : List BundleReplicaRow}
    (ran : ClientRequest.readPlanTx fileId db = .ok (record, rows, replicas) db') :
    (db.1.content fileId).1 = some record.sizeBytes ∧ rows = (db.1.content fileId).2 ∧
      ∀ row ∈ replicas, row ∈ db.1.bundleReplicas.rows := by
  obtain ⟨file, -, found, rest⟩ := CentralTx.getFileById_bind_eq_ok.mp ran
  obtain ⟨record', db₁, recorded, rest⟩ := bind_eq_ok.mp rest
  have same := (CentralTx.fileRecord_readsOnly file).tables_eq recorded
  have size := (CentralTx.fileRecord_eq_ok recorded).2
  obtain ⟨rows', db₂, listed, rest⟩ := bind_eq_ok.mp rest
  obtain ⟨-, listed⟩ := CentralTx.bindU64_bind_eq_ok.mp listed
  obtain ⟨rfl, rfl⟩ := EStateM.Result.ok.inj listed
  rw [CentralTx.getBundleReplicasById, CentralTx.query_bind_eq_ok] at rest
  obtain ⟨results, -⟩ := EStateM.Result.ok.inj rest
  obtain ⟨rfl, others⟩ := Prod.mk.inj results
  obtain ⟨rfl, rfl⟩ := Prod.mk.inj others
  refine ⟨?_, ?_, ?_⟩
  · rw [size]
    exact CentralTables.content_of_find? found
  · rw [same]
    rfl
  · intro row selected
    obtain ⟨batch, -, inBatch⟩ := List.mem_flatMap.mp selected
    rw [← same]
    exact (List.mem_filter.mp ((List.mem_insertionSort _).mp inBatch)).1

end ReadPlans

variable {rawLenOf : HashId → Nat} {config : CentralConfig} {s : Central}
  {ts : List (Transition Central CentralEvent)}

/-- In every run in which all reports of a bundle carry one raw length, the bundle
rows of every file are numbered from 0 and its size is the sum of their lengths;
and so are the bundles of every read plan, in this order. -/
theorem files_sized (run : (central config).Run ts s)
    (agree : ∀ t ∈ ts, ∀ c request, t.event = .receive c request →
      ReportsRawLen rawLenOf request) :
    (∀ file ∈ s.tables.files.rows,
      (s.tables.fileBundlesOf file.fileId).map FileBundleRow.bundleIndex =
        List.range (s.tables.fileBundlesOf file.fileId).length ∧
      file.sizeBytes = ((s.tables.fileBundlesOf file.fileId).map fun row =>
        rawLenOf row.bundleId).sum) ∧
    ∀ fileId response server,
      ClientRequest.getFileReadPlanById fileId s.server = .ok response server →
      ∃ plan, response = .getFileReadPlanById plan ∧
        plan.bundles.map FileBundleRef.bundleIndex = List.range plan.bundles.length ∧
        (plan.bundles.map FileBundleRef.rawLen).sum = plan.size := by
  have sized := filesSized_of_run run agree
  constructor
  · intro file member
    have found := Table.find?_isSome_of_mem member
    have content := sized.files file.fileId _ (CentralTables.content_of_find? found)
    refine ⟨content.indices, content.size_eq.trans ?_⟩
    unfold rawLenSum
    rw [List.map_map]
    rfl
  · intro fileId response server ran
    obtain ⟨⟨record, rows, replicas⟩, server₁, inspected, ran⟩ := bind_eq_ok.mp ran
    obtain ⟨db, body, rfl⟩ := CentralM.inspect_eq_ok inspected
    obtain ⟨present, isRows, known⟩ := readPlanTx_eq_ok body
    obtain ⟨onlineVolumes, server₂, -, ran⟩ := bind_eq_ok.mp ran
    obtain ⟨refs, mapped, ended⟩ := lift_bind_eq_ok.mp ran
    obtain ⟨rfl, -⟩ := EStateM.Result.ok.inj ended
    have content : ContentSized rawLenOf record.sizeBytes rows :=
      isRows ▸ sized.files fileId _ present
    obtain ⟨indices, lens⟩ := fileBundleRefs_of_rows
      (fun row member => sized.replicas row (known row member)) mapped
    have sameLength := (mapM_eq_ok.mp mapped).length_eq
    refine ⟨_, rfl, ?_, ?_⟩
    · rw [indices, content.indices, sameLength]
    · rw [lens]
      exact content.size_eq.symm

/-- The run in which a file is made of one bundle, listed twice. -/
theorem files_sized_uploaded :
    ∃ ts s, (central Scenario.config).Run ts s ∧
      s.tables.files.rows.map FileRow.sizeBytes = [10] ∧
      (∀ file ∈ s.tables.files.rows,
        (s.tables.fileBundlesOf file.fileId).map FileBundleRow.bundleIndex =
          List.range (s.tables.fileBundlesOf file.fileId).length ∧
        file.sizeBytes = ((s.tables.fileBundlesOf file.fileId).map fun _ => 5).sum) ∧
      ∀ fileId response server,
        ClientRequest.getFileReadPlanById fileId s.server = .ok response server →
        ∃ plan, response = .getFileReadPlanById plan ∧
          plan.bundles.map FileBundleRef.bundleIndex = List.range plan.bundles.length ∧
          (plan.bundles.map FileBundleRef.rawLen).sum = plan.size := by
  obtain ⟨ts, s, run, events, sizes⟩ := Scenario.run_of_exec
    (Scenario.registered ++ Scenario.uploaded 3 "/f")
    (fun s => s.tables.files.rows.map FileRow.sizeBytes) [10] (by decide +kernel)
  suffices agree : ∀ t ∈ ts, ∀ c request, t.event = .receive c request →
      ReportsRawLen (fun _ => 5) request from ⟨ts, s, run, sizes, files_sized run agree⟩
  intro t member c request isReceive
  have listed : t.event ∈ Scenario.registered ++ Scenario.uploaded 3 "/f" := by
    rw [← events]
    exact List.mem_map.mpr ⟨t, List.mem_reverse.mpr member, rfl⟩
  rw [isReceive] at listed
  simp only [Scenario.registered, Scenario.uploaded, Scenario.request, List.mem_append,
    List.mem_cons, List.mem_replicate, List.not_mem_nil, CentralEvent.receive.injEq,
    reduceCtorEq, and_false, or_false, false_or, ne_eq] at listed
  rcases listed with ((⟨-, rfl⟩ | ⟨-, rfl⟩) | ⟨-, rfl⟩) | (⟨-, rfl⟩ | ⟨-, rfl⟩) | ⟨-, rfl⟩
  · trivial
  · trivial
  · trivial
  · trivial
  · intro event member _ rawLen isLen
    obtain rfl := List.mem_singleton.mp member
    exact (Option.some.inj isLen).symm
  · trivial

end Fs0
