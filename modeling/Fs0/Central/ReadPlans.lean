import Mathlib.Data.List.Dedup
import Fs0.Central.CommitUpdate

/-!
Contract: what a read plan lists.

Owns:
- the plan with the bundle ids taken from the set in any order;
- the replica rows a lookup in batches answers with, their order and that none is twice;
- the target of a bundle as the replicas on online volumes;
- when there is a plan, and that it lists the bundles of the file in order.

Does not own: reading the bundles from the storages the plan names.
-/

set_option autoImplicit false

namespace Fs0

open Lib Fallible

/-! ## The order of a set -/

/-- The order in which a set of bundle ids is listed. It is not determined. -/
structure BundleIdOrder where
  list : List HashId → List HashId
  perm : ∀ bundleIds, (list bundleIds).Perm bundleIds.dedup

namespace BundleIdOrder

/-- The order of the first occurrences. -/
def dedup : BundleIdOrder := ⟨List.dedup, fun _ => .refl _⟩

theorem nodup (order : BundleIdOrder) (bundleIds : List HashId) :
    (order.list bundleIds).Nodup :=
  (order.perm bundleIds).nodup_iff.mpr (List.nodup_dedup bundleIds)

theorem mem_list {order : BundleIdOrder} {bundleIds : List HashId} {bundleId : HashId} :
    bundleId ∈ order.list bundleIds ↔ bundleId ∈ bundleIds := by
  rw [(order.perm bundleIds).mem_iff, List.mem_dedup]

end BundleIdOrder

namespace ClientRequest

open CentralTx

/-- The transaction of `get_file_read_plan_by_id`, for a set listed in the given order. -/
def readPlanTxIn (order : BundleIdOrder) (fileId : Nat) :
    CentralTx (FileRecord × List FileBundleRow × List BundleReplicaRow) := do
  let file ← getFileById fileId
  let record ← fileRecord file
  let fileBundles ← getFileBundlesByFileId fileId
  let replicas ← getBundleReplicasById (order.list (fileBundles.map FileBundleRow.bundleId))
  pure (record, fileBundles, replicas)

/-- `get_file_read_plan_by_id`, for a set listed in the given order. -/
def getFileReadPlanByIdIn (order : BundleIdOrder) (fileId : Nat) : CentralM ControlResponse := do
  let (record, fileBundles, replicas) ← CentralM.inspect (readPlanTxIn order fileId)
  let onlineVolumes ← CentralM.read CentralServer.onlineVolumes
  let bundles ← lift (fileBundles.mapM (fileBundleRef onlineVolumes replicas))
  pure (.getFileReadPlanById ⟨record.fileId, record.path, record.sizeBytes, bundles⟩)

/-- The handler lists the set in one of these orders. -/
theorem getFileReadPlanById_eq (fileId : Nat) :
    getFileReadPlanById fileId = getFileReadPlanByIdIn .dedup fileId := rfl

end ClientRequest

/-! ## Lookups in batches -/

section Batches

variable {tables : CentralTables} {row : BundleReplicaRow} {bundleIds : List HashId}

theorem flatten_batches (bundleIds : List HashId) :
    (chunksOf bundleIdQueryBatchSize bundleIds.length bundleIds).flatten = bundleIds :=
  flatten_chunksOf (by decide) (Nat.le_refl _)

/-- No replica is dropped by the batches. -/
theorem mem_bundleReplicasById :
    row ∈ tables.bundleReplicasById bundleIds ↔
      row ∈ tables.bundleReplicas.rows ∧ row.bundleId ∈ bundleIds := by
  have batched : row.bundleId ∈ bundleIds ↔
      ∃ batch ∈ chunksOf bundleIdQueryBatchSize bundleIds.length bundleIds,
        row.bundleId ∈ batch := by
    rw [← List.mem_flatten, flatten_batches]
  unfold CentralTables.bundleReplicasById
  rw [List.mem_flatMap, batched]
  constructor
  · rintro ⟨batch, isBatch, listed⟩
    obtain ⟨member, inBatch⟩ := mem_bundleReplicasIn.mp listed
    exact ⟨member, batch, isBatch, inBatch⟩
  · rintro ⟨member, batch, isBatch, inBatch⟩
    exact ⟨batch, isBatch, mem_bundleReplicasIn.mpr ⟨member, inBatch⟩⟩

/-- The replicas of one bundle come by the numbers of their volumes, none twice. -/
def ByVolume (rows : List BundleReplicaRow) : Prop :=
  rows.Pairwise fun left right => left.bundleId = right.bundleId → left.volumeId < right.volumeId

theorem bundleReplicasIn_byVolume (tables : CentralTables) (batch : List HashId) :
    ByVolume (tables.bundleReplicasIn batch) := by
  have ordered := pairwise_bundleReplicasIn tables batch
  have distinct : (tables.bundleReplicasIn batch).Pairwise fun left right =>
      left.key ≠ right.key := by
    apply List.pairwise_map.mp
    have perm := (List.perm_insertionSort BundleReplicaRow.Precedes
      (tables.bundleReplicas.rows.filter fun row => row.bundleId ∈ batch)).map
      BundleReplicaRow.key
    exact perm.nodup_iff.mpr (tables.bundleReplicas.nodup.sublist (List.filter_sublist.map _))
  refine (ordered.and distinct).imp ?_
  rintro left right ⟨precedes, differ⟩ sameBundle
  rcases precedes with less | ⟨-, le⟩
  · rw [sameBundle] at less
    exact absurd less (List.lt_irrefl _)
  · apply Nat.lt_of_le_of_ne le
    intro sameVolume
    exact differ (Prod.ext sameBundle sameVolume)

/-- Ids without repetition are in different batches, so none is looked up twice. -/
theorem bundleReplicasById_byVolume (nodup : bundleIds.Nodup) :
    ByVolume (tables.bundleReplicasById bundleIds) := by
  unfold ByVolume CentralTables.bundleReplicasById
  rw [List.pairwise_flatMap]
  refine ⟨fun batch _ => bundleReplicasIn_byVolume tables batch, ?_⟩
  have apart : (chunksOf bundleIdQueryBatchSize bundleIds.length bundleIds).Pairwise
      List.Disjoint := (List.nodup_flatten.mp (by rwa [flatten_batches])).2
  refine apart.imp fun {first second} disjoint left leftMem right rightMem sameBundle => ?_
  have inFirst := (mem_bundleReplicasIn.mp leftMem).2
  have inSecond := (mem_bundleReplicasIn.mp rightMem).2
  rw [← sameBundle] at inSecond
  exact absurd inSecond (disjoint inFirst)

end Batches

/-! ## Targets -/

/-- A replica of the bundle on a volume that is online. -/
def OnlineReplica (tables : CentralTables) (onlineVolumes : Table OnlineVolume.volumeId)
    (bundleId : HashId) (row : BundleReplicaRow) (storageId : Nat) : Prop :=
  row ∈ tables.bundleReplicas.rows ∧ row.bundleId = bundleId ∧
    (onlineVolumes.find? row.volumeId).map OnlineVolume.storageId = some storageId

/-- What a plan says of one bundle: its replicas on online volumes, each once with the
storage that mounts it, and the lengths on the one of the lowest number. -/
structure ReadableFrom (tables : CentralTables) (onlineVolumes : Table OnlineVolume.volumeId)
    (bundleId : HashId) (rawLen compressedLen : Nat) (replicas : List ReplicaLocation) :
    Prop where
  locations : ∀ location, location ∈ replicas ↔ ∃ row,
    OnlineReplica tables onlineVolumes bundleId row location.storageId ∧
      row.volumeId = location.volumeId
  once : (replicas.map ReplicaLocation.volumeId).Nodup
  lens : ∃ row storageId, OnlineReplica tables onlineVolumes bundleId row storageId ∧
    row.rawLen = rawLen ∧ row.compressedLen = compressedLen ∧
    ∀ other otherStorage, OnlineReplica tables onlineVolumes bundleId other otherStorage →
      row.volumeId ≤ other.volumeId

section Targets

variable {tables : CentralTables} {onlineVolumes : Table OnlineVolume.volumeId}
  {replicas : List BundleReplicaRow} {bundleId : HashId}

/-- The rows the target of a bundle is made of, with their storages. -/
def onlineRows (onlineVolumes : Table OnlineVolume.volumeId) (replicas : List BundleReplicaRow)
    (bundleId : HashId) : List (BundleReplicaRow × Nat) :=
  replicas.filterMap fun replica =>
    if replica.bundleId = bundleId then
      (onlineVolumes.find? replica.volumeId).map fun mounted => (replica, mounted.storageId)
    else none

theorem selected_iff {replica : BundleReplicaRow} {entry : BundleReplicaRow × Nat} :
    (if replica.bundleId = bundleId then
      (onlineVolumes.find? replica.volumeId).map fun mounted => (replica, mounted.storageId)
    else none) = some entry ↔
      entry.1 = replica ∧ replica.bundleId = bundleId ∧
        (onlineVolumes.find? replica.volumeId).map OnlineVolume.storageId = some entry.2 := by
  split
  · next sameBundle =>
    simp only [Option.map_eq_some_iff, sameBundle, true_and]
    constructor
    · rintro ⟨mounted, found, rfl⟩
      exact ⟨rfl, mounted, found, rfl⟩
    · rintro ⟨sameRow, mounted, found, sameStorage⟩
      exact ⟨mounted, found, Prod.ext sameRow.symm sameStorage⟩
  · next differ => simp [differ]

/-- The rows looked up hold all replicas of the bundle. -/
theorem mem_onlineRows (known : ∀ row, row.bundleId = bundleId →
      (row ∈ replicas ↔ row ∈ tables.bundleReplicas.rows))
    {entry : BundleReplicaRow × Nat} :
    entry ∈ onlineRows onlineVolumes replicas bundleId ↔
      OnlineReplica tables onlineVolumes bundleId entry.1 entry.2 := by
  unfold onlineRows OnlineReplica
  rw [List.mem_filterMap]
  simp only [selected_iff]
  constructor
  · rintro ⟨row, member, rfl, sameBundle, mounted⟩
    exact ⟨(known _ sameBundle).mp member, sameBundle, mounted⟩
  · rintro ⟨member, sameBundle, mounted⟩
    exact ⟨entry.1, (known _ sameBundle).mpr member, rfl, sameBundle, mounted⟩

theorem onlineRows_ordered (byVolume : ByVolume replicas) :
    (onlineRows onlineVolumes replicas bundleId).Pairwise fun left right =>
      left.1.volumeId < right.1.volumeId := by
  unfold onlineRows
  rw [List.pairwise_filterMap]
  refine byVolume.imp fun {left right} ordered entry isEntry other isOther => ?_
  obtain ⟨rfl, leftBundle, -⟩ := selected_iff.mp isEntry
  obtain ⟨rfl, rightBundle, -⟩ := selected_iff.mp isOther
  exact ordered (leftBundle.trans rightBundle.symm)

theorem bundleReadTarget_eq :
    ClientRequest.bundleReadTarget onlineVolumes replicas bundleId =
      (onlineRows onlineVolumes replicas bundleId).head?.map fun first =>
        ⟨first.1.rawLen, first.1.compressedLen,
          (onlineRows onlineVolumes replicas bundleId).map fun entry =>
            ⟨entry.2, entry.1.volumeId⟩⟩ := rfl

theorem bundleReadTarget_readable {target : ClientRequest.BundleReadTarget}
    (byVolume : ByVolume replicas) (known : ∀ row, row.bundleId = bundleId →
      (row ∈ replicas ↔ row ∈ tables.bundleReplicas.rows))
    (found : ClientRequest.bundleReadTarget onlineVolumes replicas bundleId = some target) :
    ReadableFrom tables onlineVolumes bundleId target.rawLen target.compressedLen
      target.replicas := by
  have ordered : (onlineRows onlineVolumes replicas bundleId).Pairwise _ :=
    onlineRows_ordered byVolume
  rw [bundleReadTarget_eq] at found
  obtain ⟨first, isFirst, rfl⟩ := Option.map_eq_some_iff.mp found
  obtain ⟨rest, split⟩ := List.head?_eq_some_iff.mp isFirst
  refine ⟨fun location => ?_, ?_, ?_⟩
  · rw [List.mem_map]
    constructor
    · rintro ⟨entry, member, rfl⟩
      exact ⟨entry.1, (mem_onlineRows known).mp member, rfl⟩
    · rintro ⟨row, online, sameVolume⟩
      refine ⟨(row, location.storageId), (mem_onlineRows known).mpr online, ?_⟩
      rw [sameVolume]
  · rw [List.map_map]
    apply List.pairwise_map.mpr
    exact ordered.imp fun less => Nat.ne_of_lt less
  · have member : first ∈ onlineRows onlineVolumes replicas bundleId := List.mem_of_head? isFirst
    refine ⟨first.1, first.2, (mem_onlineRows known).mp member, rfl, rfl, ?_⟩
    intro other otherStorage online
    have listed : (other, otherStorage) ∈ onlineRows onlineVolumes replicas bundleId :=
      (mem_onlineRows known).mpr online
    rw [split] at ordered listed
    rcases List.mem_cons.mp listed with same | later
    · rw [← same]
    · exact Nat.le_of_lt ((List.pairwise_cons.mp ordered).1 _ later)

theorem bundleReadTarget_isSome (known : ∀ row, row.bundleId = bundleId →
      (row ∈ replicas ↔ row ∈ tables.bundleReplicas.rows)) :
    (ClientRequest.bundleReadTarget onlineVolumes replicas bundleId).isSome ↔
      ∃ row storageId, OnlineReplica tables onlineVolumes bundleId row storageId := by
  rw [bundleReadTarget_eq, Option.isSome_map, List.isSome_head?]
  constructor
  · intro nonempty
    obtain ⟨entry, member⟩ := List.exists_mem_of_ne_nil _ nonempty
    exact ⟨entry.1, entry.2, (mem_onlineRows known).mp member⟩
  · rintro ⟨row, storageId, online⟩
    exact List.ne_nil_of_mem (a := (row, storageId)) ((mem_onlineRows known).mpr online)

end Targets

/-! ## Plans -/

/-- The bundles of a file as a plan lists them. -/
structure PlanOf (tables : CentralTables) (onlineVolumes : Table OnlineVolume.volumeId)
    (fileId : Nat) (bundles : List FileBundleRef) : Prop where
  ordered : bundles.Pairwise fun left right => left.bundleIndex < right.bundleIndex
  listed : ∀ bundleIndex bundleId,
    (∃ ref ∈ bundles, ref.bundleIndex = bundleIndex ∧ ref.bundleId = bundleId) ↔
      ⟨fileId, bundleIndex, bundleId⟩ ∈ tables.fileBundles.rows
  readable : ∀ ref ∈ bundles,
    ReadableFrom tables onlineVolumes ref.bundleId ref.rawLen ref.compressedLen ref.replicas

namespace ClientRequest

open CentralTx

variable {tables : CentralTables} {onlineVolumes : Table OnlineVolume.volumeId}
  {replicas : List BundleReplicaRow} {fileId : Nat}

theorem mem_fileBundlesOf {row : FileBundleRow} :
    row ∈ tables.fileBundlesOf fileId ↔ row ∈ tables.fileBundles.rows ∧ row.fileId = fileId := by
  unfold CentralTables.fileBundlesOf
  rw [List.mem_insertionSort, List.mem_filter, decide_eq_true_eq]

/-- The rows of a file come in the order of their indices, which are different. -/
theorem fileBundlesOf_ordered (tables : CentralTables) (fileId : Nat) :
    (tables.fileBundlesOf fileId).Pairwise fun left right =>
      left.bundleIndex < right.bundleIndex := by
  have total : Std.Total fun left right : FileBundleRow => left.bundleIndex ≤ right.bundleIndex :=
    ⟨fun left right => Nat.le_total left.bundleIndex right.bundleIndex⟩
  have trans : IsTrans FileBundleRow fun left right => left.bundleIndex ≤ right.bundleIndex :=
    ⟨fun _ _ _ first second => Nat.le_trans first second⟩
  have sorted : (tables.fileBundlesOf fileId).Pairwise fun left right =>
      left.bundleIndex ≤ right.bundleIndex := List.pairwise_insertionSort _ _
  have distinct : (tables.fileBundlesOf fileId).Pairwise fun left right =>
      left.key ≠ right.key := by
    apply List.pairwise_map.mp
    have perm := (List.perm_insertionSort
      (fun left right : FileBundleRow => left.bundleIndex ≤ right.bundleIndex)
      (tables.fileBundles.rows.filter fun row => row.fileId = fileId)).map FileBundleRow.key
    exact perm.nodup_iff.mpr (tables.fileBundles.nodup.sublist (List.filter_sublist.map _))
  refine (sorted.and distinct).imp_of_mem fun {left right} leftMem rightMem both => ?_
  apply Nat.lt_of_le_of_ne both.1
  intro sameIndex
  have sameFile := (mem_fileBundlesOf.mp leftMem).2.trans (mem_fileBundlesOf.mp rightMem).2.symm
  exact both.2 (Prod.ext sameFile sameIndex)

theorem fileBundleRef_ok {row : FileBundleRow} {ref : FileBundleRef} :
    fileBundleRef onlineVolumes replicas row = .ok ref ↔
      ∃ target, bundleReadTarget onlineVolumes replicas row.bundleId = some target ∧
        ref = ⟨row.bundleIndex, target.rawLen, target.compressedLen, row.bundleId,
          target.replicas⟩ := by
  unfold fileBundleRef
  rw [Fs0Result.bind_eq_ok]
  simp only [okOr_eq_ok]
  constructor
  · rintro ⟨target, found, ended⟩
    exact ⟨target, found, (Except.ok.inj ended).symm⟩
  · rintro ⟨target, found, rfl⟩
    exact ⟨target, found, rfl⟩

/-- The rows looked up for a file hold all replicas of its bundles. -/
def KnowsReplicas (tables : CentralTables) (fileId : Nat) (replicas : List BundleReplicaRow) :
    Prop :=
  ∀ fileBundle ∈ tables.fileBundlesOf fileId, ∀ row : BundleReplicaRow,
    row.bundleId = fileBundle.bundleId →
      (row ∈ replicas ↔ row ∈ tables.bundleReplicas.rows)

/-- The references follow the rows one by one. -/
theorem parts_of_mapM {rows : List FileBundleRow} {bundles : List FileBundleRef}
    (mapped : rows.mapM (fileBundleRef onlineVolumes replicas) = .ok bundles) :
    bundles.map (fun ref => (ref.bundleIndex, ref.bundleId)) =
      rows.map fun row => (row.bundleIndex, row.bundleId) := by
  have paired := mapM_eq_ok.mp mapped
  clear mapped
  induction paired with
  | nil => rfl
  | cons isRef _ inductionHypothesis =>
      obtain ⟨target, -, rfl⟩ := fileBundleRef_ok.mp isRef
      rw [List.map_cons, List.map_cons, inductionHypothesis]

theorem bundles_planOf {bundles : List FileBundleRef} (byVolume : ByVolume replicas)
    (known : KnowsReplicas tables fileId replicas)
    (mapped : (tables.fileBundlesOf fileId).mapM (fileBundleRef onlineVolumes replicas) =
      .ok bundles) :
    PlanOf tables onlineVolumes fileId bundles := by
  have parts := parts_of_mapM mapped
  refine ⟨?_, fun bundleIndex bundleId => ?_, fun ref member => ?_⟩
  · have ordered : (bundles.map fun ref => (ref.bundleIndex, ref.bundleId)).Pairwise
        fun left right => left.1 < right.1 := by
      rw [parts]
      exact List.pairwise_map.mpr (fileBundlesOf_ordered tables fileId)
    rw [List.pairwise_map] at ordered
    exact ordered
  · have listed : (bundleIndex, bundleId) ∈
        bundles.map (fun ref => (ref.bundleIndex, ref.bundleId)) ↔ (bundleIndex, bundleId) ∈
        (tables.fileBundlesOf fileId).map fun row => (row.bundleIndex, row.bundleId) := by
      rw [parts]
    rw [List.mem_map, List.mem_map] at listed
    simp only [Prod.mk.injEq] at listed
    rw [listed]
    constructor
    · rintro ⟨⟨file, index, id⟩, member, rfl, rfl⟩
      obtain ⟨isRow, rfl⟩ := mem_fileBundlesOf.mp member
      exact isRow
    · intro isRow
      exact ⟨_, mem_fileBundlesOf.mpr ⟨isRow, rfl⟩, rfl, rfl⟩
  · obtain ⟨row, isRow, isRef⟩ := mapM_mem mapped member
    obtain ⟨target, found, rfl⟩ := fileBundleRef_ok.mp isRef
    exact bundleReadTarget_readable byVolume (known row isRow) found

/-- The references of all rows can be made when each bundle has a replica online. -/
theorem bundles_iff (known : KnowsReplicas tables fileId replicas) :
    (∃ bundles, (tables.fileBundlesOf fileId).mapM (fileBundleRef onlineVolumes replicas) =
      .ok bundles) ↔
      ∀ row ∈ tables.fileBundles.rows, row.fileId = fileId →
        ∃ replica storageId, OnlineReplica tables onlineVolumes row.bundleId replica storageId := by
  rw [mapM_succeeds]
  have ref_iff : ∀ row ∈ tables.fileBundlesOf fileId,
      (∃ ref, fileBundleRef onlineVolumes replicas row = .ok ref) ↔
        ∃ replica storageId, OnlineReplica tables onlineVolumes row.bundleId replica storageId := by
    intro row isRow
    have target_iff : (bundleReadTarget onlineVolumes replicas row.bundleId).isSome ↔ _ :=
      bundleReadTarget_isSome (known row isRow)
    rw [← target_iff, Option.isSome_iff_exists]
    simp only [fileBundleRef_ok]
    constructor
    · rintro ⟨ref, target, found, -⟩
      exact ⟨target, found⟩
    · rintro ⟨target, found⟩
      exact ⟨_, target, found, rfl⟩
  constructor
  · intro mapped row isRow sameFile
    have member := mem_fileBundlesOf.mpr ⟨isRow, sameFile⟩
    exact (ref_iff row member).mp (mapped row member)
  · intro online row member
    obtain ⟨isRow, sameFile⟩ := mem_fileBundlesOf.mp member
    exact (ref_iff row member).mpr (online row isRow sameFile)

/-- What the transaction of a read plan finds. -/
theorem readPlanTxIn_eq_ok {order : BundleIdOrder} {db db' : CentralDb} {record : FileRecord}
    {rows : List FileBundleRow}
    (ran : readPlanTxIn order fileId db = .ok (record, rows, replicas) db') :
    ∃ file, db.1.files.find? fileId = some file ∧ record.fileId = fileId ∧
      record.sizeBytes = file.sizeBytes ∧ rows = db.1.fileBundlesOf fileId ∧
      replicas = db.1.bundleReplicasById
        (order.list ((db.1.fileBundlesOf fileId).map FileBundleRow.bundleId)) := by
  obtain ⟨file, -, found, rest⟩ := getFileById_bind_eq_ok.mp ran
  obtain ⟨record', db₁, recorded, rest⟩ := bind_eq_ok.mp rest
  have same := (fileRecord_readsOnly file).tables_eq recorded
  obtain ⟨sameId, size⟩ := fileRecord_eq_ok recorded
  obtain ⟨rows', db₂, listed, rest⟩ := bind_eq_ok.mp rest
  obtain ⟨-, listed⟩ := bindU64_bind_eq_ok.mp listed
  obtain ⟨rfl, rfl⟩ := EStateM.Result.ok.inj listed
  rw [getBundleReplicasById, query_bind_eq_ok] at rest
  obtain ⟨results, -⟩ := EStateM.Result.ok.inj rest
  obtain ⟨rfl, others⟩ := Prod.mk.inj results
  obtain ⟨rfl, rfl⟩ := Prod.mk.inj others
  rw [same]
  exact ⟨file, found, sameId.trans (Table.mem_of_find? found).2, size, rfl, rfl⟩

theorem readPlanTxIn_succeeds (order : BundleIdOrder) {db : CentralDb} {file : FileRow}
    (rooted : db.1.Rooted) (fits : fileId ≤ i64Max)
    (found : db.1.files.find? fileId = some file) :
    ∃ result db', readPlanTxIn order fileId db = .ok result db' := by
  obtain ⟨path, db₁, recorded, same⟩ := fileRecord_succeeds rooted.toDirTree
    (rooted.file_dir file (Table.mem_of_find? found).1)
  have listed : getFileBundlesByFileId fileId db₁ = .ok (db₁.1.fileBundlesOf fileId) db₁ :=
    bindU64_bind_eq_ok.mpr ⟨fits, rfl⟩
  unfold readPlanTxIn
  exact ⟨_, db₁, getFileById_bind_eq_ok.mpr ⟨file, fits, found,
    bind_eq_ok.mpr ⟨_, _, recorded, bind_eq_ok.mpr ⟨_, _, listed, rfl⟩⟩⟩⟩

/-- The rows the transaction finds hold the replicas of the bundles, in order. -/
theorem batches_known (order : BundleIdOrder) (tables : CentralTables) (fileId : Nat) :
    ByVolume (tables.bundleReplicasById
      (order.list ((tables.fileBundlesOf fileId).map FileBundleRow.bundleId))) ∧
    KnowsReplicas tables fileId (tables.bundleReplicasById
      (order.list ((tables.fileBundlesOf fileId).map FileBundleRow.bundleId))) := by
  refine ⟨bundleReplicasById_byVolume (order.nodup _), ?_⟩
  intro fileBundle member row sameBundle
  rw [mem_bundleReplicasById, BundleIdOrder.mem_list, sameBundle, and_iff_left]
  exact List.mem_map.mpr ⟨fileBundle, member, rfl⟩

theorem getFileReadPlanByIdIn_eq_ok {order : BundleIdOrder} {server server' : CentralServer}
    {response : ControlResponse}
    (ran : getFileReadPlanByIdIn order fileId server = .ok response server') :
    ∃ plan file, response = .getFileReadPlanById plan ∧
      server.db.1.files.find? fileId = some file ∧ plan.fileId = fileId ∧
      plan.size = file.sizeBytes ∧
      (server.db.1.fileBundlesOf fileId).mapM (fileBundleRef server.onlineVolumes
        (server.db.1.bundleReplicasById
          (order.list ((server.db.1.fileBundlesOf fileId).map FileBundleRow.bundleId)))) =
        .ok plan.bundles := by
  obtain ⟨⟨record, rows, replicas⟩, server₁, inspected, ran⟩ := bind_eq_ok.mp ran
  obtain ⟨db, body, rfl⟩ := CentralM.inspect_eq_ok inspected
  obtain ⟨file, found, sameId, sameSize, rfl, rfl⟩ := readPlanTxIn_eq_ok body
  obtain ⟨onlineVolumes, server₂, looked, ran⟩ := bind_eq_ok.mp ran
  obtain ⟨rfl, -⟩ := EStateM.Result.ok.inj looked
  obtain ⟨bundles, mapped, ended⟩ := lift_bind_eq_ok.mp ran
  obtain ⟨rfl, -⟩ := EStateM.Result.ok.inj ended
  exact ⟨_, file, rfl, found, sameId, sameSize, mapped⟩

theorem getFileReadPlanByIdIn_succeeds {order : BundleIdOrder} {server : CentralServer}
    {file : FileRow} {bundles : List FileBundleRef} (rooted : server.db.1.Rooted)
    (fits : fileId ≤ i64Max) (found : server.db.1.files.find? fileId = some file)
    (mapped : (server.db.1.fileBundlesOf fileId).mapM (fileBundleRef server.onlineVolumes
        (server.db.1.bundleReplicasById
          (order.list ((server.db.1.fileBundlesOf fileId).map FileBundleRow.bundleId)))) =
        .ok bundles) :
    ∃ response server', getFileReadPlanByIdIn order fileId server = .ok response server' := by
  obtain ⟨⟨record, rows, replicas⟩, db, body⟩ := readPlanTxIn_succeeds order rooted fits found
  obtain ⟨_, _, _, _, rfl, rfl⟩ := readPlanTxIn_eq_ok body
  have inspected := CentralM.inspect_of_ok body
  unfold getFileReadPlanByIdIn
  rw [bind_of_ok inspected]
  exact ⟨_, _, bind_eq_ok.mpr ⟨_, _, rfl, lift_bind_eq_ok.mpr ⟨bundles, mapped, rfl⟩⟩⟩

end ClientRequest

open ClientRequest in
/-- Whatever the order the ids are looked up in and whatever is mounted, there is a read plan
exactly for a file that exists and all of whose bundles have a replica on an online volume.
It lists the bundles of the file in order, each with all these replicas. -/
theorem getFileReadPlanById_iff {config : CentralConfig} {s : Central}
    (reachable : (central config).Reachable s) (order : BundleIdOrder)
    (onlineVolumes : Table OnlineVolume.volumeId) (fileId : Nat) :
    ((∃ response server, getFileReadPlanByIdIn order fileId
        { s.server with onlineVolumes := onlineVolumes } = .ok response server) ↔
      (∃ file, s.tables.files.find? fileId = some file) ∧
      ∀ row ∈ s.tables.fileBundles.rows, row.fileId = fileId →
        ∃ replica storageId,
          OnlineReplica s.tables onlineVolumes row.bundleId replica storageId) ∧
    ∀ response server, getFileReadPlanByIdIn order fileId
        { s.server with onlineVolumes := onlineVolumes } = .ok response server →
      ∃ plan file, response = .getFileReadPlanById plan ∧
        s.tables.files.find? fileId = some file ∧ plan.fileId = fileId ∧
        plan.size = file.sizeBytes ∧ PlanOf s.tables onlineVolumes fileId plan.bundles := by
  obtain ⟨byVolume, known⟩ := batches_known order s.tables fileId
  constructor
  · constructor
    · rintro ⟨response, server, ran⟩
      obtain ⟨plan, file, -, found, -, -, mapped⟩ := getFileReadPlanByIdIn_eq_ok ran
      exact ⟨⟨file, found⟩, (bundles_iff known).mp ⟨plan.bundles, mapped⟩⟩
    · rintro ⟨⟨file, found⟩, online⟩
      obtain ⟨bundles, mapped⟩ := (bundles_iff known).mpr online
      have rooted : s.tables.Rooted := Central.reachable_rooted reachable
      obtain ⟨member, sameId⟩ := Table.mem_of_find? found
      have fits : file.fileId ≤ i64Max := Central.reachable_file_fits reachable member
      rw [show file.fileId = fileId from sameId] at fits
      exact getFileReadPlanByIdIn_succeeds rooted fits found mapped
  · intro response server ran
    obtain ⟨plan, file, rfl, found, sameId, sameSize, mapped⟩ := getFileReadPlanByIdIn_eq_ok ran
    exact ⟨plan, file, rfl, found, sameId, sameSize, bundles_planOf byVolume known mapped⟩

/-- The plan of a file made of one bundle, listed twice. -/
theorem getFileReadPlanById_iff_uploaded : ∃ s, (central Scenario.config).Reachable s ∧
    (∃ response server, ClientRequest.getFileReadPlanByIdIn .dedup 1
      { s.server with onlineVolumes := s.server.onlineVolumes } = .ok response server) ∧
    ((∃ file, s.tables.files.find? 1 = some file) ∧
      ∀ row ∈ s.tables.fileBundles.rows, row.fileId = 1 → ∃ replica storageId,
        OnlineReplica s.tables s.server.onlineVolumes row.bundleId replica storageId) := by
  obtain ⟨ts, s, run, -, planned⟩ := Scenario.run_of_exec
    (Scenario.registered ++ Scenario.uploaded 3 "/f")
    (fun s => (outcome (ClientRequest.getFileReadPlanByIdIn .dedup 1 s.server)).isOk) true
    (by decide +kernel)
  have reachable : (central Scenario.config).Reachable s := ⟨ts, run⟩
  have succeeds : ∃ response server,
      ClientRequest.getFileReadPlanByIdIn .dedup 1 s.server = .ok response server := by
    cases ran : ClientRequest.getFileReadPlanByIdIn .dedup 1 s.server with
    | ok response server => exact ⟨response, server, rfl⟩
    | error err server =>
        rw [ran] at planned
        cases planned
  exact ⟨s, reachable, succeeds,
    (getFileReadPlanById_iff reachable .dedup s.server.onlineVolumes 1).1.mp succeeds⟩

end Fs0
