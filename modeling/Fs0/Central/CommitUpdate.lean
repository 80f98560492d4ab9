import Fs0.Central.FileSizes
import Fs0.Central.Rooted

/-!
Contract: when the second transaction of a commit succeeds, and what it writes.

Owns:
- the replica of a bundle that counts, also when ids are looked up in batches;
- the two computations of sizes over these replicas;
- the conditions of a commit, that they are sufficient and necessary, and that
  the checks repeated after the bundles were written add nothing.

Does not own: what later happens to the committed file.
-/

set_option autoImplicit false

namespace Fs0

open Lib Fallible

/-! ## First replicas -/

/-- The replica of a bundle that counts: the one on the volume of the lowest number. -/
structure CentralTables.FirstReplica (tables : CentralTables) (bundleId : HashId)
    (row : BundleReplicaRow) : Prop where
  mem : row ∈ tables.bundleReplicas.rows
  bundle : row.bundleId = bundleId
  lowest : ∀ other ∈ tables.bundleReplicas.rows, other.bundleId = bundleId →
    row.volumeId ≤ other.volumeId

section Replicas

variable {tables : CentralTables} {bundleId : HashId} {row : BundleReplicaRow}

theorem CentralTables.FirstReplica.unique {other : BundleReplicaRow}
    (left : tables.FirstReplica bundleId row) (right : tables.FirstReplica bundleId other) :
    row = other := by
  apply Table.eq_of_key_eq left.mem right.mem
  have volume : row.volumeId = other.volumeId :=
    Nat.le_antisymm (left.lowest other right.mem right.bundle)
      (right.lowest row left.mem left.bundle)
  rw [BundleReplicaRow.key, BundleReplicaRow.key, left.bundle, right.bundle, volume]

theorem flatten_chunksOf {α : Type} {size fuel : Nat} (positive : 0 < size) {items : List α}
    (enough : items.length ≤ fuel) : (chunksOf size fuel items).flatten = items := by
  induction fuel generalizing items with
  | zero =>
      obtain rfl := List.length_eq_zero_iff.mp (Nat.le_zero.mp enough)
      rfl
  | succ fuel inductionHypothesis =>
      unfold chunksOf
      split
      · next empty => rw [empty, List.flatten_nil]
      · next nonempty =>
          have shorter : (items.drop size).length ≤ fuel := by
            have some := List.length_pos_iff.mpr nonempty
            rw [List.length_drop]
            omega
          rw [List.flatten_cons, inductionHypothesis shorter, List.take_append_drop]

/-- The order of the replicas of a batch. -/
def BundleReplicaRow.Precedes (left right : BundleReplicaRow) : Prop :=
  left.bundleId.bytes < right.bundleId.bytes ∨
    (left.bundleId = right.bundleId ∧ left.volumeId ≤ right.volumeId)

instance : DecidableRel BundleReplicaRow.Precedes :=
  fun left right => inferInstanceAs (Decidable (left.bundleId.bytes < right.bundleId.bytes ∨
    (left.bundleId = right.bundleId ∧ left.volumeId ≤ right.volumeId)))

theorem precedes_total (left right : BundleReplicaRow) :
    left.Precedes right ∨ right.Precedes left := by
  unfold BundleReplicaRow.Precedes
  have bytes : left.bundleId.bytes < right.bundleId.bytes ∨
      left.bundleId.bytes = right.bundleId.bytes ∨
      right.bundleId.bytes < left.bundleId.bytes := by
    rcases List.le_total left.bundleId.bytes right.bundleId.bytes with le | ge
    · exact (List.le_iff_lt_or_eq.mp le).imp_right .inl
    · exact .inr ((List.le_iff_lt_or_eq.mp ge).symm.imp_left Eq.symm)
  rcases bytes with less | same | greater
  · exact .inl (.inl less)
  · have sameId := HashId.ext_bytes same
    rcases Nat.le_total left.volumeId right.volumeId with le | ge
    · exact .inl (.inr ⟨sameId, le⟩)
    · exact .inr (.inr ⟨sameId.symm, ge⟩)
  · exact .inr (.inl greater)

theorem BundleReplicaRow.Precedes.trans {first second third : BundleReplicaRow}
    (left : first.Precedes second) (right : second.Precedes third) : first.Precedes third := by
  rcases left with less | ⟨same, le⟩ <;> rcases right with less' | ⟨same', le'⟩
  · exact .inl (List.lt_trans less less')
  · exact .inl (same' ▸ less)
  · exact .inl (same ▸ less')
  · exact .inr ⟨same.trans same', Nat.le_trans le le'⟩

theorem pairwise_bundleReplicasIn (tables : CentralTables) (bundleIds : List HashId) :
    (tables.bundleReplicasIn bundleIds).Pairwise BundleReplicaRow.Precedes := by
  have total : Std.Total BundleReplicaRow.Precedes := ⟨precedes_total⟩
  have trans : IsTrans BundleReplicaRow BundleReplicaRow.Precedes := ⟨fun _ _ _ => .trans⟩
  exact List.pairwise_insertionSort BundleReplicaRow.Precedes _

theorem mem_bundleReplicasIn {bundleIds : List HashId} :
    row ∈ tables.bundleReplicasIn bundleIds ↔
      row ∈ tables.bundleReplicas.rows ∧ row.bundleId ∈ bundleIds := by
  unfold CentralTables.bundleReplicasIn
  rw [List.mem_insertionSort, List.mem_filter, decide_eq_true_eq]

/-- A batch answers with the first replica of each of its bundles that has one. -/
theorem find?_bundleReplicasIn {bundleIds : List HashId} :
    (tables.bundleReplicasIn bundleIds).find? (fun row => row.bundleId = bundleId) = some row ↔
      bundleId ∈ bundleIds ∧ tables.FirstReplica bundleId row := by
  have found_first : ∀ {found}, (tables.bundleReplicasIn bundleIds).find?
      (fun row => row.bundleId = bundleId) = some found →
      bundleId ∈ bundleIds ∧ tables.FirstReplica bundleId found := by
    intro found looked
    obtain ⟨selected, before, after, split, others⟩ := List.find?_eq_some_iff_append.mp looked
    rw [decide_eq_true_eq] at selected
    have member : found ∈ tables.bundleReplicasIn bundleIds := by simp [split]
    obtain ⟨mem, listed⟩ := mem_bundleReplicasIn.mp member
    refine ⟨selected ▸ listed, mem, selected, fun other otherMem otherBundle => ?_⟩
    have otherListed : other ∈ tables.bundleReplicasIn bundleIds :=
      mem_bundleReplicasIn.mpr ⟨otherMem, otherBundle ▸ selected ▸ listed⟩
    have ordered := pairwise_bundleReplicasIn tables bundleIds
    rw [split] at ordered otherListed
    rcases List.mem_append.mp otherListed with early | late
    · have skipped := others other early
      simp [otherBundle] at skipped
    · rcases List.mem_cons.mp late with rfl | late
      · exact Nat.le_refl _
      · have precedes := (List.pairwise_cons.mp (List.pairwise_append.mp ordered).2.1).1 other late
        rcases precedes with less | ⟨-, le⟩
        · rw [selected, otherBundle] at less
          exact absurd less (List.lt_irrefl _)
        · exact le
  refine ⟨found_first, fun ⟨listed, first⟩ => ?_⟩
  have present : ((tables.bundleReplicasIn bundleIds).find?
      fun row => row.bundleId = bundleId).isSome := by
    rw [List.find?_isSome]
    exact ⟨row, mem_bundleReplicasIn.mpr ⟨first.mem, first.bundle ▸ listed⟩, by simp [first.bundle]⟩
  obtain ⟨found, looked⟩ := Option.isSome_iff_exists.mp present
  rw [looked, (found_first looked).2.unique first]

/-- The lookup in batches answers with the first replica of each bundle that has one. -/
theorem find?_inBatches {bundleIds : List HashId} :
    ((chunksOf bundleIdQueryBatchSize bundleIds.length bundleIds).flatMap fun batch =>
      tables.bundleReplicasIn batch).find? (fun row => row.bundleId = bundleId) = some row ↔
      bundleId ∈ bundleIds ∧ tables.FirstReplica bundleId row := by
  have positive : 0 < bundleIdQueryBatchSize := by decide
  have all := flatten_chunksOf positive (Nat.le_refl bundleIds.length)
  generalize chunksOf bundleIdQueryBatchSize bundleIds.length bundleIds = batches at all
  rw [← all, List.mem_flatten, List.find?_flatMap]
  constructor
  · intro found
    obtain ⟨batch, batchMem, looked⟩ := List.exists_of_findSome?_eq_some found
    obtain ⟨listed, first⟩ := find?_bundleReplicasIn.mp looked
    exact ⟨⟨batch, batchMem, listed⟩, first⟩
  · rintro ⟨⟨batch, batchMem, listed⟩, first⟩
    have looked := find?_bundleReplicasIn.mpr ⟨listed, first⟩
    have present : (batches.findSome? fun batch =>
        (tables.bundleReplicasIn batch).find? fun row => row.bundleId = bundleId).isSome := by
      rw [List.findSome?_isSome_iff]
      exact ⟨batch, batchMem, by rw [looked]; rfl⟩
    obtain ⟨found, isFound⟩ := Option.isSome_iff_exists.mp present
    obtain ⟨other, -, otherLooked⟩ := List.exists_of_findSome?_eq_some isFound
    rw [isFound, (find?_bundleReplicasIn.mp otherLooked).2.unique first]

end Replicas

/-! ## Sizes -/

section Sizes

variable {replicas : List BundleReplicaRow}

/-- What the two computations of sizes find for a bundle. -/
def FoundIn (replicas : List BundleReplicaRow) (bundleId : HashId) (row : BundleReplicaRow) : Prop :=
  replicas.find? (fun row => row.bundleId = bundleId) = some row

theorem submittedRawSize_iff {bundles : List CommittedBundle} {total size : Nat}
    (small : total < u64Modulus) :
    UpdateRequest.submittedRawSize replicas bundles total = .ok size ↔
      ∃ rows, List.Forall₂ (FoundIn replicas) (bundles.map CommittedBundle.bundleId) rows ∧
        rows.map BundleReplicaRow.rawLen = bundles.map CommittedBundle.rawLen ∧
        size = total + (bundles.map CommittedBundle.rawLen).sum ∧ size < u64Modulus := by
  induction bundles generalizing total with
  | nil =>
      constructor
      · intro ended
        obtain rfl := Except.ok.inj ended
        exact ⟨[], .nil, rfl, rfl, small⟩
      · rintro ⟨_, -, -, rfl, -⟩
        rfl
  | cons bundle rest inductionHypothesis =>
      rw [UpdateRequest.submittedRawSize, Fs0Result.bind_eq_ok]
      constructor
      · rintro ⟨ready, isReady, ended⟩
        split at ended
        · cases ended
        next sameLen =>
          obtain ⟨sum, isSum, ended⟩ := Fs0Result.bind_eq_ok.mp ended
          obtain ⟨fits, rfl⟩ := checkedAdd_eq_some.mp (okOr_eq_ok.mp isSum)
          obtain ⟨rows, found, lens, rfl, bounded⟩ := (inductionHypothesis fits).mp ended
          refine ⟨ready :: rows, .cons (okOr_eq_ok.mp isReady) found, ?_, ?_, bounded⟩
          · rw [List.map_cons, List.map_cons, lens, not_not.mp sameLen]
          · rw [List.map_cons, List.sum_cons, Nat.add_assoc]
      · rintro ⟨rows, found, lens, rfl, bounded⟩
        rw [List.map_cons, List.sum_cons] at bounded ⊢
        cases found with
        | @cons _ ready _ others isReady found =>
            rw [List.map_cons, List.map_cons] at lens
            obtain ⟨sameLen, lens⟩ := List.cons.inj lens
            have fits : total + bundle.rawLen < u64Modulus := by omega
            refine ⟨ready, okOr_eq_ok.mpr isReady, ?_⟩
            rw [if_neg (not_not.mpr sameLen)]
            refine Fs0Result.bind_eq_ok.mpr
              ⟨_, okOr_eq_ok.mpr (checkedAdd_eq_some.mpr ⟨fits, rfl⟩), ?_⟩
            refine (inductionHypothesis fits).mpr ⟨others, found, lens, ?_, bounded⟩
            rw [List.map_cons, List.sum_cons, Nat.add_assoc]

theorem sumBundleSizes_iff {fileBundles : List FileBundleRow} {raw compressed rawSize : Nat}
    {compressedSize : Nat} (smallRaw : raw < u64Modulus) (small : compressed < u64Modulus) :
    CentralTx.sumBundleSizes replicas fileBundles raw compressed = .ok (rawSize, compressedSize) ↔
      ∃ rows, List.Forall₂ (FoundIn replicas) (fileBundles.map FileBundleRow.bundleId) rows ∧
        rawSize = raw + (rows.map BundleReplicaRow.rawLen).sum ∧ rawSize < u64Modulus ∧
        compressedSize = compressed + (rows.map BundleReplicaRow.compressedLen).sum ∧
        compressedSize < u64Modulus := by
  induction fileBundles generalizing raw compressed with
  | nil =>
      constructor
      · intro ended
        obtain ⟨rfl, rfl⟩ := Prod.mk.inj (Except.ok.inj ended)
        exact ⟨[], .nil, rfl, smallRaw, rfl, small⟩
      · rintro ⟨_, found, rfl, -, rfl, -⟩
        cases found
        rfl
  | cons fileBundle rest inductionHypothesis =>
      rw [CentralTx.sumBundleSizes, Fs0Result.bind_eq_ok]
      constructor
      · rintro ⟨bundle, isBundle, ended⟩
        obtain ⟨sumRaw, isRaw, ended⟩ := Fs0Result.bind_eq_ok.mp ended
        obtain ⟨fitsRaw, rfl⟩ := checkedAdd_eq_some.mp (okOr_eq_ok.mp isRaw)
        obtain ⟨sum, isSum, ended⟩ := Fs0Result.bind_eq_ok.mp ended
        obtain ⟨fits, rfl⟩ := checkedAdd_eq_some.mp (okOr_eq_ok.mp isSum)
        obtain ⟨rows, found, rfl, boundedRaw, rfl, bounded⟩ :=
          (inductionHypothesis fitsRaw fits).mp ended
        refine ⟨bundle :: rows, .cons (okOr_eq_ok.mp isBundle) found, ?_, boundedRaw, ?_, bounded⟩
        · rw [List.map_cons, List.sum_cons, Nat.add_assoc]
        · rw [List.map_cons, List.sum_cons, Nat.add_assoc]
      · rintro ⟨rows, found, rfl, boundedRaw, rfl, bounded⟩
        cases found with
        | @cons _ bundle _ others isBundle found =>
            simp only [List.map_cons, List.sum_cons] at boundedRaw bounded ⊢
            have fitsRaw : raw + bundle.rawLen < u64Modulus := by omega
            have fits : compressed + bundle.compressedLen < u64Modulus := by omega
            refine ⟨bundle, okOr_eq_ok.mpr isBundle, ?_⟩
            refine Fs0Result.bind_eq_ok.mpr
              ⟨_, okOr_eq_ok.mpr (checkedAdd_eq_some.mpr ⟨fitsRaw, rfl⟩), ?_⟩
            refine Fs0Result.bind_eq_ok.mpr
              ⟨_, okOr_eq_ok.mpr (checkedAdd_eq_some.mpr ⟨fits, rfl⟩), ?_⟩
            refine (inductionHypothesis fitsRaw fits).mpr ⟨others, found, ?_, boundedRaw, ?_, bounded⟩
            · rw [List.map_cons, List.sum_cons, Nat.add_assoc]
            · rw [List.map_cons, List.sum_cons, Nat.add_assoc]

/-- When every bundle is found and the raw lengths fit, only the compressed
lengths can overflow. -/
theorem sumBundleSizes_cases {fileBundles : List FileBundleRow} {rows : List BundleReplicaRow}
    {raw : Nat} (compressed : Nat)
    (found : List.Forall₂ (FoundIn replicas) (fileBundles.map FileBundleRow.bundleId) rows)
    (bounded : raw + (rows.map BundleReplicaRow.rawLen).sum < u64Modulus) :
    (∃ size, CentralTx.sumBundleSizes replicas fileBundles raw compressed =
      .ok (raw + (rows.map BundleReplicaRow.rawLen).sum, size)) ∨
    CentralTx.sumBundleSizes replicas fileBundles raw compressed =
      .error (.integerConversion "file bundle compressed size overflow") := by
  induction fileBundles generalizing raw compressed rows with
  | nil =>
      cases found
      exact .inl ⟨compressed, rfl⟩
  | cons fileBundle rest inductionHypothesis =>
      cases found with
      | @cons _ bundle _ others isBundle found =>
          simp only [List.map_cons, List.sum_cons] at bounded ⊢
          have fitsRaw : raw + bundle.rawLen < u64Modulus := by omega
          have sameRaw : raw + (bundle.rawLen + (others.map BundleReplicaRow.rawLen).sum) =
              raw + bundle.rawLen + (others.map BundleReplicaRow.rawLen).sum := by omega
          rw [CentralTx.sumBundleSizes, okOr_eq_ok.mpr isBundle, Fs0Result.ok_bind,
            okOr_eq_ok.mpr (checkedAdd_eq_some.mpr ⟨fitsRaw, rfl⟩), Fs0Result.ok_bind]
          cases added : checkedAdd compressed bundle.compressedLen with
          | none => exact .inr rfl
          | some total =>
              rw [sameRaw] at bounded ⊢
              exact inductionHypothesis total found bounded

end Sizes

/-! ## Conditions -/

/-- The values a commit binds, and a number left for its event. -/
structure CommitFits (tables : CentralTables) (request : CommitUpdateRequest) (now leaseNow : Nat)
    (firsts : List BundleReplicaRow) : Prop where
  leaseId : request.leaseId ≤ i64Max
  fileId : request.fileId ≤ i64Max
  leaseNow : leaseNow ≤ i64Max
  now : now ≤ i64Max
  newSize : request.newSize ≤ i64Max
  compressed : (firsts.map BundleReplicaRow.compressedLen).sum ≤ i64Max
  indices : request.bundles.length ≤ i64Max + 1
  events : tables.fileEvents.seq < i64Max

/-- What a commit needs, with the first replicas of the submitted bundles. -/
structure Committable (tables : CentralTables) (request : CommitUpdateRequest) (now leaseNow : Nat)
    (firsts : List BundleReplicaRow) : Prop where
  lease : ∃ lease ∈ tables.updateLeases.rows, lease.leaseId = request.leaseId ∧
    lease.fileId = request.fileId ∧ leaseNow < lease.expiresAtMs ∧
    lease.baseSizeBytes = request.baseSize ∧ lease.offsetBytes ≤ request.newSize
  file : ∃ file, tables.files.find? request.fileId = some file ∧ file.sizeBytes = request.baseSize
  areFirst : List.Forall₂ tables.FirstReplica (request.bundles.map CommittedBundle.bundleId) firsts
  rawLens : firsts.map BundleReplicaRow.rawLen = request.bundles.map CommittedBundle.rawLen
  rawSize : (request.bundles.map CommittedBundle.rawLen).sum = request.newSize
  fits : CommitFits tables request now leaseNow firsts

theorem firstReplicas_unique {tables : CentralTables} {bundleIds : List HashId}
    {left right : List BundleReplicaRow}
    (leftFirsts : List.Forall₂ tables.FirstReplica bundleIds left)
    (rightFirsts : List.Forall₂ tables.FirstReplica bundleIds right) : left = right := by
  induction leftFirsts generalizing right with
  | nil =>
      cases rightFirsts
      rfl
  | cons first _ inductionHypothesis =>
      cases rightFirsts with
      | cons first' rest' => rw [first.unique first', inductionHypothesis rest']

/-! ## Steps of the transaction -/

namespace CentralTables

/-- What `get_bundle_replicas_by_id` returns. -/
def bundleReplicasById (tables : CentralTables) (bundleIds : List HashId) :
    List BundleReplicaRow :=
  (chunksOf bundleIdQueryBatchSize bundleIds.length bundleIds).flatMap fun batch =>
    tables.bundleReplicasIn batch

variable {tables : CentralTables}

theorem foundIn_iff {bundleIds part : List HashId} {rows : List BundleReplicaRow}
    (sub : ∀ bundleId ∈ part, bundleId ∈ bundleIds) :
    List.Forall₂ (FoundIn (tables.bundleReplicasById bundleIds)) part rows ↔
      List.Forall₂ tables.FirstReplica part rows := by
  induction part generalizing rows with
  | nil => simp
  | cons bundleId rest inductionHypothesis =>
      have listed := sub bundleId List.mem_cons_self
      have restListed := fun other member => sub other (List.mem_cons_of_mem _ member)
      have found : ∀ row, FoundIn (tables.bundleReplicasById bundleIds) bundleId row ↔
          tables.FirstReplica bundleId row :=
        fun row => find?_inBatches.trans (and_iff_right listed)
      simp only [List.forall₂_cons_left_iff, found, inductionHypothesis restListed]

theorem activeLease_of_mem {leaseId fileId now : Nat} {row : UpdateLeaseRow}
    (member : row ∈ tables.updateLeases.rows) (sameLease : row.leaseId = leaseId)
    (sameFile : row.fileId = fileId) (active : now < row.expiresAtMs) :
    tables.activeLease leaseId fileId now = some row := by
  have present : (tables.activeLease leaseId fileId now).isSome := by
    unfold activeLease
    rw [List.find?_isSome]
    exact ⟨row, member, by simp [sameLease, sameFile, active]⟩
  obtain ⟨found, looked⟩ := Option.isSome_iff_exists.mp present
  obtain ⟨foundMem, foundLease, -⟩ := CentralTx.activeLease_mem looked
  rw [looked, Table.eq_of_key_eq foundMem member (foundLease.trans sameLease.symm)]

end CentralTables

/-- The bundles of a file whose rows were replaced. -/
theorem CentralTables.fileBundlesOf_of_rows {before after : CentralTables} {fileId : Nat}
    {bundleIds : List HashId}
    (rows : after.fileBundles.rows = (before.fileBundles.rows.filter fun row =>
      !row.fileId == fileId) ++ bundleRowsFrom fileId 0 bundleIds) :
    after.fileBundlesOf fileId = bundleRowsFrom fileId 0 bundleIds := by
  unfold fileBundlesOf
  rw [rows, List.filter_append, filter_filter_own, List.nil_append,
    filter_eq_self_of_own fileId _ fun row member => bundleRowsFrom_fileId member,
    (bundleRowsFrom_sorted 0 _).insertionSort_eq]

namespace UpdateRequest

open CentralTx

variable {db db' : CentralDb} {request : CommitUpdateRequest} {now leaseNow : Nat}

/-- The checks pass under the conditions on the lease, the file and the bundles, and
change nothing. -/
theorem commitUpdateChecks_iff {result : LeaseRecord × FileRow} :
    commitUpdateChecks request leaseNow db = .ok result db' ↔ db' = db ∧
      (request.leaseId ≤ i64Max ∧ request.fileId ≤ i64Max ∧ leaseNow ≤ i64Max) ∧
      request.newSize < u64Modulus ∧
      (∃ lease ∈ db.1.updateLeases.rows, lease.leaseId = request.leaseId ∧
        lease.fileId = request.fileId ∧ leaseNow < lease.expiresAtMs ∧
        lease.baseSizeBytes = request.baseSize ∧ lease.offsetBytes ≤ request.newSize ∧
        result.1 = ⟨lease.fileId, lease.baseSizeBytes, lease.offsetBytes⟩) ∧
      (db.1.files.find? request.fileId = some result.2 ∧ result.2.sizeBytes = request.baseSize) ∧
      ∃ firsts, List.Forall₂ db.1.FirstReplica (request.bundles.map CommittedBundle.bundleId) firsts ∧
        firsts.map BundleReplicaRow.rawLen = request.bundles.map CommittedBundle.rawLen ∧
        (request.bundles.map CommittedBundle.rawLen).sum = request.newSize := by
  obtain ⟨lease, file⟩ := result
  constructor
  · intro ran
    obtain ⟨loaded, db₁, ran, rest⟩ := bind_eq_ok.mp ran
    have ran := mapError_eq_ok.mp ran
    obtain ⟨leaseFits, more⟩ := bindU64_bind_eq_ok.mp ran
    obtain ⟨fileFits, more⟩ := bindU64_bind_eq_ok.mp more
    obtain ⟨nowFits, -⟩ := bindU64_bind_eq_ok.mp more
    obtain ⟨rfl, row, member, sameLease, sameFile, active, rfl⟩ := loadActiveUpdateLease_eq_ok ran
    obtain ⟨sameBase, rest⟩ := require_bind_eq_ok.mp rest
    obtain ⟨within, rest⟩ := require_bind_eq_ok.mp rest
    obtain ⟨found, -, isFile, rest⟩ := getFileById_bind_eq_ok.mp rest
    obtain ⟨sameSize, rest⟩ := require_bind_eq_ok.mp rest
    rw [getBundleReplicasById, query_bind_eq_ok] at rest
    obtain ⟨submitted, isSubmitted, rest⟩ := lift_bind_eq_ok.mp rest
    obtain ⟨rfl, ended⟩ := require_bind_eq_ok.mp rest
    obtain ⟨same, rfl⟩ := EStateM.Result.ok.inj ended
    obtain ⟨rfl, rfl⟩ := Prod.mk.inj same
    obtain ⟨firsts, looked, lens, size, small⟩ :=
      (submittedRawSize_iff (Nat.two_pow_pos 64)).mp isSubmitted
    refine ⟨rfl, ⟨leaseFits, fileFits, nowFits⟩, small,
      ⟨row, member, sameLease, sameFile, active, sameBase, within, rfl⟩,
      ⟨sameFile ▸ isFile, sameSize⟩, firsts,
      (CentralTables.foundIn_iff fun _ listed => listed).mp looked, lens, ?_⟩
    rw [size, Nat.zero_add]
  · rintro ⟨rfl, ⟨leaseFits, fileFits, nowFits⟩, small, ⟨row, member, sameLease, sameFile, active,
      sameBase, within, rfl⟩, ⟨isFile, sameSize⟩, firsts, looked, lens, size⟩
    have loaded : mapError (leaseExpired request.leaseId request.fileId)
        (loadActiveUpdateLease request.leaseId request.fileId leaseNow) db' =
        .ok ⟨row.fileId, row.baseSizeBytes, row.offsetBytes⟩ db' := by
      refine mapError_eq_ok.mpr (bindU64_bind_eq_ok.mpr ⟨leaseFits, ?_⟩)
      refine bindU64_bind_eq_ok.mpr ⟨fileFits, bindU64_bind_eq_ok.mpr ⟨nowFits, ?_⟩⟩
      rw [query_bind_eq_ok, CentralTables.activeLease_of_mem member sameLease sameFile active]
      rfl
    refine bind_eq_ok.mpr ⟨_, _, loaded, require_bind_eq_ok.mpr ⟨sameBase, ?_⟩⟩
    refine require_bind_eq_ok.mpr ⟨within, ?_⟩
    refine getFileById_bind_eq_ok.mpr ⟨file, sameFile ▸ fileFits, sameFile ▸ isFile, ?_⟩
    refine require_bind_eq_ok.mpr ⟨sameSize, ?_⟩
    rw [getBundleReplicasById, query_bind_eq_ok]
    have looked := (CentralTables.foundIn_iff fun _ listed => listed).mpr looked
    have submitted := (submittedRawSize_iff (Nat.two_pow_pos 64)).mpr
      ⟨firsts, looked, lens, (Nat.zero_add _).symm, size ▸ small⟩
    exact lift_bind_eq_ok.mpr ⟨_, submitted, require_bind_eq_ok.mpr ⟨size, rfl⟩⟩

/-- The indices of the rows written for a commit are bound one after the other. -/
theorem insertFileBundlesFrom_fits {fileId index : Nat} {bundles : List CommittedBundle}
    (ran : insertFileBundlesFrom fileId index bundles db = .ok () db')
    (start : index ≤ i64Max + 1) : index + bundles.length ≤ i64Max + 1 := by
  induction bundles generalizing index db with
  | nil => exact start
  | cons bundle rest inductionHypothesis =>
      obtain ⟨-, ran⟩ := bindU64_bind_eq_ok.mp ran
      obtain ⟨fits, ran⟩ := bindU64_bind_eq_ok.mp ran
      obtain ⟨_, db₁, -, ran⟩ := bind_eq_ok.mp ran
      have more := inductionHypothesis ran (Nat.succ_le_succ fits)
      rw [List.length_cons]
      omega

theorem insertFileBundlesFrom_succeeds {fileId index : Nat} {bundles : List CommittedBundle}
    (fits : fileId ≤ i64Max) (indices : index + bundles.length ≤ i64Max + 1)
    (known : ∃ file, db.1.files.find? fileId = some file)
    (fresh : ∀ row ∈ db.1.fileBundles.rows, row.fileId = fileId → row.bundleIndex < index) :
    ∃ db', insertFileBundlesFrom fileId index bundles db = .ok () db' := by
  induction bundles generalizing index db with
  | nil => exact ⟨db, rfl⟩
  | cons bundle rest inductionHypothesis =>
      rw [List.length_cons] at indices
      have unused : ∀ row ∈ db.1.fileBundles.rows, row.key ≠ (fileId, index) := by
        intro row member same
        obtain ⟨sameFile, sameIndex⟩ := Prod.mk.inj same
        have less := fresh row member sameFile
        omega
      obtain ⟨fileBundles, inserted⟩ := Table.insert?_isSome (t := db.1.fileBundles)
        (r := ⟨fileId, index, bundle.bundleId⟩) unused
      have executed : execute (CentralTables.insertFileBundle fileId index bundle.bundleId) db =
          .ok () ({ db.1 with fileBundles := fileBundles }, db.2) := by
        apply execute_eq_ok.mpr
        obtain ⟨file, found⟩ := known
        refine ⟨?_, rfl⟩
        rw [CentralTables.insertFileBundle, found, inserted]
        rfl
      have rows := (Table.insert?_eq_some inserted).1
      have freshRest : ∀ row ∈ fileBundles.rows, row.fileId = fileId →
          row.bundleIndex < index + 1 := by
        intro row member sameFile
        rw [rows] at member
        rcases List.mem_append.mp member with old | new
        · exact Nat.lt_succ_of_lt (fresh row old sameFile)
        · obtain rfl := List.mem_singleton.mp new
          exact Nat.lt_succ_self index
      obtain ⟨db', ran⟩ : ∃ db', insertFileBundlesFrom fileId (index + 1) rest
          ({ db.1 with fileBundles := fileBundles }, db.2) = .ok () db' :=
        inductionHypothesis (by omega) known freshRest
      refine ⟨db', bindU64_bind_eq_ok.mpr ⟨fits, bindU64_bind_eq_ok.mpr ⟨by omega, ?_⟩⟩⟩
      exact bind_eq_ok.mpr ⟨(), _, executed, ran⟩

theorem upsertFileBundlesByFileId_succeeds {fileId : Nat} {bundles : List CommittedBundle}
    (fits : fileId ≤ i64Max) (indices : bundles.length ≤ i64Max + 1)
    (known : ∃ file, db.1.files.find? fileId = some file) :
    ∃ db', upsertFileBundlesByFileId fileId bundles db = .ok () db' := by
  have fresh : ∀ row ∈ (db.1.fileBundles.delete fun row => row.fileId == fileId).rows,
      row.fileId = fileId → row.bundleIndex < 0 := by
    intro row member sameFile
    have kept := (Table.mem_delete.mp member).2
    simp [sameFile] at kept
  obtain ⟨db', ran⟩ : ∃ db', insertFileBundlesFrom fileId 0 bundles ({ db.1 with
      fileBundles := db.1.fileBundles.delete fun row => row.fileId == fileId }, db.2) =
        .ok () db' :=
    insertFileBundlesFrom_succeeds fits (by omega) known fresh
  refine ⟨db', bind_eq_ok.mpr ⟨(), _, ?_, ran⟩⟩
  exact bindU64_bind_eq_ok.mpr ⟨fits, rfl⟩

theorem upsertFileBundlesByFileId_fits {fileId : Nat} {bundles : List CommittedBundle}
    (ran : upsertFileBundlesByFileId fileId bundles db = .ok () db') :
    bundles.length ≤ i64Max + 1 := by
  have inserted := insertFileBundlesFrom_fits (deleteFileBundlesByFileId_bind_eq_ok ran)
    (Nat.zero_le _)
  omega

/-- The size computed after the rows were written is computed from the submitted bundles. -/
theorem calculateSizeByFileId_of_upserted {fileId : Nat} {bundles : List CommittedBundle}
    (fits : fileId ≤ i64Max) (ran : upsertFileBundlesByFileId fileId bundles db = .ok () db') :
    calculateSizeByFileId fileId db' = lift (sumBundleSizes
      (db.1.bundleReplicasById (bundles.map CommittedBundle.bundleId))
      (bundleRowsFrom fileId 0 (bundles.map CommittedBundle.bundleId)) 0 0) db' := by
  obtain ⟨others, rows⟩ := upsertFileBundlesByFileId_effect ran
  have listed := CentralTables.fileBundlesOf_of_rows rows
  have sameReplicas : db'.1.bundleReplicasById (bundles.map CommittedBundle.bundleId) =
      db.1.bundleReplicasById (bundles.map CommittedBundle.bundleId) := by
    rw [others]
    rfl
  have found : getFileBundlesByFileId fileId db' = .ok (db'.1.fileBundlesOf fileId) db' :=
    bindU64_bind_eq_ok.mpr ⟨fits, rfl⟩
  rw [calculateSizeByFileId, bind_of_ok found, listed, bundleRowsFrom_bundleIds, ← sameReplicas]
  rfl

theorem updateFileAfterUpdate_fits {fileId newSize compressedSize : Nat} {file : FileRow}
    (ran : updateFileAfterUpdate fileId newSize compressedSize now db = .ok file db') :
    newSize ≤ i64Max ∧ compressedSize ≤ i64Max ∧ now ≤ i64Max := by
  obtain ⟨-, rest⟩ := bindU64_bind_eq_ok.mp ran
  obtain ⟨size, rest⟩ := bindU64_bind_eq_ok.mp rest
  obtain ⟨compressed, rest⟩ := bindU64_bind_eq_ok.mp rest
  obtain ⟨time, -⟩ := bindU64_bind_eq_ok.mp rest
  exact ⟨size, compressed, time⟩

theorem updateFileAfterUpdate_succeeds {fileId newSize compressedSize : Nat} {file : FileRow}
    (found : db.1.files.find? fileId = some file) (fits : fileId ≤ i64Max)
    (size : newSize ≤ i64Max) (compressed : compressedSize ≤ i64Max) (time : now ≤ i64Max) :
    ∃ db', updateFileAfterUpdate fileId newSize compressedSize now db =
        .ok (CentralTables.resizedTo fileId newSize compressedSize now file) db' ∧
      db'.1 = { db.1 with
        files := filesResized db.1.files fileId newSize compressedSize now } := by
  refine ⟨({ db.1 with
    files := filesResized db.1.files fileId newSize compressedSize now }, db.2), ?_, rfl⟩
  refine bindU64_bind_eq_ok.mpr ⟨fits, bindU64_bind_eq_ok.mpr ⟨size, ?_⟩⟩
  refine bindU64_bind_eq_ok.mpr ⟨compressed, bindU64_bind_eq_ok.mpr ⟨time, ?_⟩⟩
  have resized : execute (CentralTables.resizeFile fileId newSize compressedSize now) db =
      .ok 1 ({ db.1 with
        files := filesResized db.1.files fileId newSize compressedSize now }, db.2) := by
    apply execute_eq_ok.mpr
    refine ⟨?_, rfl⟩
    rw [CentralTables.resizeFile, found]
    rfl
  refine bind_eq_ok.mpr ⟨1, _, resized, require_bind_eq_ok.mpr ⟨by decide, ?_⟩⟩
  refine getFileById_eq_ok.mpr ⟨fits, ?_, rfl⟩
  rw [find?_filesResized, found, Option.map_some]

theorem insertFileChangeLog_fits {kind : FileChangeLogKind} {newTarget : Option (String × String)}
    {fileId : Nat} (ran : insertFileChangeLog kind newTarget (some fileId) now db = .ok () db') :
    db.1.fileEvents.seq < i64Max := by
  obtain ⟨id, -, rest⟩ := lift_bind_eq_ok.mp ran
  obtain ⟨-, rest⟩ := bindU64_bind_eq_ok.mp rest
  obtain ⟨eventId, db₁, inserted, -⟩ := bind_eq_ok.mp rest
  have inserted := (execute_eq_ok.mp inserted).1
  unfold CentralTables.insertFileEvent at inserted
  split at inserted
  · cases inserted
  next pushed => exact (pushRow_eq_ok.mp pushed).1

theorem insertFileChangeLog_succeeds {fileId : Nat} (kind : FileChangeLogKind)
    (newTarget : Option (String × String)) (fits : fileId ≤ i64Max) (time : now ≤ i64Max)
    (room : db.1.fileEvents.seq < i64Max) :
    ∃ db', insertFileChangeLog kind newTarget (some fileId) now db = .ok () db' ∧
      db'.1 = { db.1 with
        fileEvents := eventsWith db.1.fileEvents kind newTarget fileId now } := by
  refine ⟨({ db.1 with
    fileEvents := eventsWith db.1.fileEvents kind newTarget fileId now }, db.2), ?_, rfl⟩
  have bound : (u64ToI64 fileId "file_id").map some = .ok (some fileId) := by
    rw [u64ToI64_eq_ok.mpr ⟨fits, rfl⟩]
    rfl
  refine lift_bind_eq_ok.mpr ⟨some fileId, bound, bindU64_bind_eq_ok.mpr ⟨time, ?_⟩⟩
  have inserted : execute (CentralTables.insertFileEvent kind newTarget (some fileId) now) db =
      .ok (db.1.fileEvents.seq + 1) ({ db.1 with
        fileEvents := eventsWith db.1.fileEvents kind newTarget fileId now }, db.2) := by
    apply execute_eq_ok.mpr
    refine ⟨?_, rfl⟩
    rw [CentralTables.insertFileEvent, pushRow_eq_ok.mpr ⟨room, rfl, rfl⟩]
    rfl
  exact bind_eq_ok.mpr ⟨_, _, inserted, rfl⟩

/-- A commit that succeeds met the conditions, and wrote the size of the first replicas. -/
theorem commitUpdateTx_committable {record : FileRecord}
    (ran : commitUpdateTx request now leaseNow db = .ok record db') :
    ∃ firsts, Committable db.1 request now leaseNow firsts ∧ ∃ lease file dir,
      UpdateCommitted db.1 db'.1 request now lease file
        (firsts.map BundleReplicaRow.compressedLen).sum dir := by
  obtain ⟨lease, file, compressedSize, dir, steps, committed⟩ := commitUpdateTx_steps ran
  obtain ⟨loaded, checked⟩ := steps.checked
  obtain ⟨-, ⟨leaseFits, fileFits, leaseNowFits⟩, -, ⟨row, member, sameLease, sameFile, active,
    sameBase, within, -⟩, isFile, firsts, areFirst, lens, size⟩ := commitUpdateChecks_iff.mp checked
  obtain ⟨mid, done, upserted, sized⟩ := steps.sized
  obtain ⟨_, _, _, resized⟩ := steps.resized
  obtain ⟨newSizeFits, compressedFits, nowFits⟩ := updateFileAfterUpdate_fits resized
  obtain ⟨_, _, _, _, sameEvents, logged⟩ := steps.logged
  have room := insertFileChangeLog_fits logged
  rw [sameEvents] at room
  rw [calculateSizeByFileId_of_upserted fileFits upserted] at sized
  obtain ⟨rows, found, -, -, isCompressed, -⟩ := (sumBundleSizes_iff (Nat.two_pow_pos 64)
    (Nat.two_pow_pos 64)).mp (lift_eq_ok.mp sized).1
  rw [bundleRowsFrom_bundleIds, CentralTables.foundIn_iff fun _ listed => listed] at found
  rw [Nat.zero_add] at isCompressed
  have same : rows = firsts := firstReplicas_unique found areFirst
  subst same isCompressed
  refine ⟨rows, ⟨⟨row, member, sameLease, sameFile, active, sameBase, within⟩, ⟨file, isFile⟩,
    areFirst, lens, size, ?_⟩, lease, file, dir, committed⟩
  exact ⟨leaseFits, fileFits, leaseNowFits, nowFits, newSizeFits, compressedFits,
    upsertFileBundlesByFileId_fits upserted, room⟩

/-- The conditions are enough. -/
theorem commitUpdateTx_succeeds {firsts : List BundleReplicaRow} (rooted : db.1.Rooted)
    (committable : Committable db.1 request now leaseNow firsts) :
    ∃ record db', commitUpdateTx request now leaseNow db = .ok record db' := by
  obtain ⟨lease, member, sameLease, sameFile, active, sameBase, within⟩ := committable.lease
  obtain ⟨file, isFile, sameSize⟩ := committable.file
  have fits := committable.fits
  have u64 : i64Max < u64Modulus := by decide
  have checked : commitUpdateChecks request leaseNow db =
      .ok (⟨lease.fileId, lease.baseSizeBytes, lease.offsetBytes⟩, file) db :=
    commitUpdateChecks_iff.mpr ⟨rfl, ⟨fits.leaseId, fits.fileId, fits.leaseNow⟩,
      Nat.lt_of_le_of_lt fits.newSize u64,
      ⟨lease, member, sameLease, sameFile, active, sameBase, within, rfl⟩, ⟨isFile, sameSize⟩,
      firsts, committable.areFirst, committable.rawLens, committable.rawSize⟩
  obtain ⟨db₂, upserted⟩ := upsertFileBundlesByFileId_succeeds fits.fileId fits.indices
    ⟨file, isFile⟩
  obtain ⟨bundlesOnly, -⟩ := upsertFileBundlesByFileId_effect upserted
  have sized : calculateSizeByFileId request.fileId db₂ =
      .ok (request.newSize, (firsts.map BundleReplicaRow.compressedLen).sum) db₂ := by
    rw [calculateSizeByFileId_of_upserted fits.fileId upserted]
    refine lift_eq_ok.mpr ⟨(sumBundleSizes_iff (Nat.two_pow_pos 64) (Nat.two_pow_pos 64)).mpr
      ⟨firsts, ?_, ?_, Nat.lt_of_le_of_lt fits.newSize u64, (Nat.zero_add _).symm,
        Nat.lt_of_le_of_lt fits.compressed u64⟩, rfl⟩
    · rw [bundleRowsFrom_bundleIds]
      exact (CentralTables.foundIn_iff fun _ listed => listed).mpr committable.areFirst
    · rw [Nat.zero_add, committable.rawLens, committable.rawSize]
  have isFile₂ : db₂.1.files.find? request.fileId = some file := by
    rw [bundlesOnly]
    exact isFile
  obtain ⟨db₃, resized, tables₃⟩ := updateFileAfterUpdate_succeeds isFile₂ fits.fileId
    fits.newSize fits.compressed fits.now
  generalize isUpdated : CentralTables.resizedTo request.fileId request.newSize
    (firsts.map BundleReplicaRow.compressedLen).sum now file = updated at resized
  have sameDir : updated.dirId = file.dirId := by
    rw [← isUpdated, CentralTables.resizedTo]
    split <;> rfl
  obtain ⟨db₄, dropped, tables₄⟩ : ∃ db₄, deleteUpdateLease request.leaseId db₃ = .ok () db₄ ∧
      db₄.1 = { db₃.1 with
        updateLeases := db₃.1.updateLeases.delete fun other => other.leaseId == request.leaseId } :=
    ⟨_, bindU64_bind_eq_ok.mpr ⟨fits.leaseId, rfl⟩, rfl⟩
  have sameDirs : db₄.1.dirs = db.1.dirs := by rw [tables₄, tables₃, bundlesOnly]
  have sameEvents : db₄.1.fileEvents = db.1.fileEvents := by rw [tables₄, tables₃, bundlesOnly]
  have tree₄ : db₄.1.DirTree := rooted.toDirTree.of_dirs sameDirs
  have isDir : db₄.1.IsDir file.dirId := by
    have isDir := rooted.file_dir file (Table.mem_of_find? isFile).1
    unfold CentralTables.IsDir at isDir ⊢
    rwa [sameDirs]
  obtain ⟨dir, db₅, resolved, tables₅⟩ := getDirPathById_succeeds tree₄ isDir
  have room : db₅.1.fileEvents.seq < i64Max := by
    rw [tables₅, sameEvents]
    exact fits.events
  obtain ⟨db₆, logged, tables₆⟩ := insertFileChangeLog_succeeds
    (if file.sizeBytes = 0 then .created else .updated) (some (dir, file.name)) fits.fileId fits.now
    room
  have dirs₆ : db₆.1.dirs = db₄.1.dirs := by rw [tables₆, tables₅]
  have isDir₆ : db₆.1.IsDir updated.dirId := by
    unfold CentralTables.IsDir at isDir ⊢
    rwa [sameDir, dirs₆]
  obtain ⟨path, db₇, recorded, -⟩ := fileRecord_succeeds (tree₄.of_dirs dirs₆) isDir₆
  refine ⟨⟨updated.fileId, path, updated.sizeBytes, updated.compressedSizeBytes,
    updated.createdAtMs, updated.updatedAtMs⟩, db₇, bind_eq_ok.mpr ⟨_, _, checked, ?_⟩⟩
  dsimp only
  rw [sameFile]
  refine bind_eq_ok.mpr ⟨_, _, upserted, bind_eq_ok.mpr ⟨_, _, sized, ?_⟩⟩
  refine require_bind_eq_ok.mpr ⟨rfl, bind_eq_ok.mpr ⟨_, _, resized, ?_⟩⟩
  refine bind_eq_ok.mpr ⟨_, _, dropped, bind_eq_ok.mpr ⟨_, _, resolved, ?_⟩⟩
  exact bind_eq_ok.mpr ⟨_, _, logged, recorded⟩

/-- The checks repeated after the bundles were written fail by an overflow of the
compressed size at most. -/
theorem calculateSize_after_checks {result : LeaseRecord × FileRow} {mid done : CentralDb}
    (checked : commitUpdateChecks request leaseNow db = .ok result mid)
    (upserted : upsertFileBundlesByFileId result.1.fileId request.bundles mid = .ok () done) :
    (∃ compressedSize,
      calculateSizeByFileId result.1.fileId done = .ok (request.newSize, compressedSize) done) ∨
    calculateSizeByFileId result.1.fileId done =
      .error (.integerConversion "file bundle compressed size overflow") done := by
  obtain ⟨same, ⟨-, fileFits, -⟩, small, ⟨row, -, -, sameFile, -, -, -, isLease⟩, -, firsts, areFirst,
    lens, size⟩ := commitUpdateChecks_iff.mp checked
  rw [← same] at areFirst
  rw [isLease] at upserted ⊢
  dsimp only at upserted ⊢
  rw [sameFile] at upserted ⊢
  rw [calculateSizeByFileId_of_upserted fileFits upserted]
  have found : List.Forall₂ (FoundIn (mid.1.bundleReplicasById
      (request.bundles.map CommittedBundle.bundleId)))
      ((bundleRowsFrom request.fileId 0 (request.bundles.map CommittedBundle.bundleId)).map
        FileBundleRow.bundleId) firsts := by
    rw [bundleRowsFrom_bundleIds]
    exact (CentralTables.foundIn_iff fun _ listed => listed).mpr areFirst
  have bounded : 0 + (firsts.map BundleReplicaRow.rawLen).sum < u64Modulus := by
    rw [Nat.zero_add, lens, size]
    exact small
  rcases sumBundleSizes_cases 0 found bounded with ⟨compressedSize, sized⟩ | failed
  · refine .inl ⟨compressedSize, lift_eq_ok.mpr ⟨?_, rfl⟩⟩
    rw [sized, Nat.zero_add, lens, size]
  · right
    rw [failed]
    rfl

end UpdateRequest

/-! ## Main result -/

open UpdateRequest in
/-- In every state of central, the second transaction of a commit succeeds exactly under
its conditions, and then writes the submitted bundles, the size, the compressed size of
the first replicas and one event, and removes the lease. Otherwise no table changes. The
checks after the bundles were written find every bundle and the submitted size. -/
theorem commitUpdate_iff_committable {config : CentralConfig} {s : Central}
    (reachable : (central config).Reachable s) (commit : Option Fs0Error)
    (request : CommitUpdateRequest) (now leaseNow : Nat) :
    ((∃ record server,
        CentralM.transact commit (commitUpdateTx request now leaseNow) s.server =
          .ok record server) ↔
      commit = none ∧ ∃ firsts, Committable s.tables request now leaseNow firsts) ∧
    (∀ record server,
      CentralM.transact commit (commitUpdateTx request now leaseNow) s.server =
        .ok record server →
      ∃ firsts lease file dir, Committable s.tables request now leaseNow firsts ∧
        UpdateCommitted s.tables server.db.1 request now lease file
          (firsts.map BundleReplicaRow.compressedLen).sum dir ∧
        server.db.1.fileBundlesOf request.fileId =
          bundleRowsFrom request.fileId 0 (request.bundles.map CommittedBundle.bundleId)) ∧
    (∀ err server,
      CentralM.transact commit (commitUpdateTx request now leaseNow) s.server =
        .error err server → server.db.1 = s.tables) ∧
    ∀ found mid done, commitUpdateChecks request leaseNow s.server.db = .ok found mid →
      CentralTx.upsertFileBundlesByFileId found.1.fileId request.bundles mid = .ok () done →
      (∃ compressedSize, CentralTx.calculateSizeByFileId found.1.fileId done =
        .ok (request.newSize, compressedSize) done) ∨
      CentralTx.calculateSizeByFileId found.1.fileId done =
        .error (.integerConversion "file bundle compressed size overflow") done := by
  have written : ∀ record server,
      CentralM.transact commit (commitUpdateTx request now leaseNow) s.server =
        .ok record server →
      commit = none ∧ commitUpdateTx request now leaseNow s.server.db = .ok record server.db := by
    intro record server ran
    obtain ⟨isNone, db, body, rfl⟩ := CentralM.transact_eq_ok ran
    exact ⟨isNone, body⟩
  refine ⟨⟨?_, ?_⟩, ?_, ?_, fun found mid done => calculateSize_after_checks⟩
  · rintro ⟨record, server, ran⟩
    obtain ⟨isNone, ran⟩ := written record server ran
    obtain ⟨firsts, committable, -⟩ := commitUpdateTx_committable ran
    exact ⟨isNone, firsts, committable⟩
  · rintro ⟨rfl, firsts, committable⟩
    have rooted : s.server.db.1.Rooted := Central.reachable_rooted reachable
    obtain ⟨record, db', ran⟩ := commitUpdateTx_succeeds rooted committable
    exact ⟨record, _, CentralM.transact_of_ok ran⟩
  · intro record server ran
    obtain ⟨-, ran⟩ := written record server ran
    obtain ⟨firsts, committable, lease, file, dir, committed⟩ := commitUpdateTx_committable ran
    exact ⟨firsts, lease, file, dir, committable, committed,
      CentralTables.fileBundlesOf_of_rows committed.bundles⟩
  · intro err server failed
    rw [CentralM.transact_eq_error failed]
    rfl

/-- The first update of a file, about to be committed with one bundle listed twice. -/
theorem commitUpdate_iff_committable_uploaded : ∃ ts s,
    (central Scenario.config).Run ts s ∧ ∃ firsts, Committable s.tables
      ⟨1, 1, 0, 10, [⟨Scenario.bundle, 5, 3⟩, ⟨Scenario.bundle, 5, 3⟩]⟩ 3 3 firsts := by
  obtain ⟨ts, s, run, -, committed⟩ := Scenario.run_of_exec
    (Scenario.registered ++ Scenario.request 1 3 4 2 (.beginUpdate ⟨"/a", 0, none, none⟩) ++
      Scenario.request 2 4 1 2
        (.reportBundleReplica [⟨1, .stored, 1, Scenario.bundle, some 5, some 3⟩]))
    (fun s => (outcome (CentralM.transact none (UpdateRequest.commitUpdateTx
      ⟨1, 1, 0, 10, [⟨Scenario.bundle, 5, 3⟩, ⟨Scenario.bundle, 5, 3⟩]⟩ 3 3) s.server)).isOk)
    true (by decide +kernel)
  refine ⟨ts, s, run, ?_⟩
  cases ran : CentralM.transact none (UpdateRequest.commitUpdateTx
      ⟨1, 1, 0, 10, [⟨Scenario.bundle, 5, 3⟩, ⟨Scenario.bundle, 5, 3⟩]⟩ 3 3) s.server with
  | ok record server =>
      exact ((commitUpdate_iff_committable run.reachable none _ 3 3).1.mp ⟨record, server, ran⟩).2
  | error err server =>
      rw [ran] at committed
      cases committed

end Fs0
