import Fs0.Storage.DataConnections
import Fs0.Storage.StoredChunks

/-!
Contract: what is in the volumes of a storage came with an upload or a commit.

Owns:
- the events that the calls and the bundles of a volume came with;
- that only a call under way changes a byte of a volume;
- the step of a storage behind a data request.

Does not own: what a lease is worth.
-/

set_option autoImplicit false

namespace Fs0

open Lib

/-! ## A volume -/

namespace Volume

variable {blake3 : Bytes → HashId} {v v' : Volume} {e : VolumeEvent} {P Q : VolumeEvent → Prop}

/-- The calls of `put_chunk` and the bundles of a volume came with events that meet a condition. -/
structure CameWith (P : VolumeEvent → Prop) (v : Volume) : Prop where
  calls : v.Calls fun chunkId rawLen bytes => ∃ now, P (.putChunk chunkId rawLen bytes now)
  bundles : ∀ bundleId, v.tables.HasBundle bundleId →
    ∃ commit, P (.commitBundle bundleId (v.tables.chunkList bundleId) commit)

theorem CameWith.mono (came : v.CameWith P) (weaker : ∀ e, P e → Q e) : v.CameWith Q where
  calls put member := by
    obtain ⟨now, met⟩ := came.calls put member
    exact ⟨now, weaker _ met⟩
  bundles bundleId has := by
    obtain ⟨commit, met⟩ := came.bundles bundleId has
    exact ⟨commit, weaker _ met⟩

theorem CameWith.of_step (came : v.CameWith P) (bundled : Bundled blake3 v.tables)
    (step : VolumeStep blake3 v e v') (admitted : e.needsLease = true → P e) : v'.CameWith P where
  calls := by
    refine came.calls.of_step step ?_
    rintro chunkId rawLen bytes now rfl
    exact ⟨now, admitted rfl⟩
  bundles bundleId has := by
    rcases hasBundle_of_step bundled (step_tables step) has with
      ⟨old, same⟩ | ⟨chunks, commit, rfl, stores, written⟩
    · rw [same.chunkList]
      exact came.bundles bundleId old
    · have contiguous := (checkBundle_eq_ok.mp stores.checked).2.1
      rw [VolumeTables.chunkList_of_rowsOf contiguous written.rowsOf_self]
      exact ⟨commit, admitted rfl⟩

theorem cameWith_init (initial : (volume blake3).Init v) : v.CameWith P := by
  obtain ⟨tables, files, initialised, rfl⟩ := initial
  constructor
  · rintro put (none | none)
    · exact absurd none List.not_mem_nil
    · exact absurd none List.not_mem_nil
  · rintro bundleId ⟨row, member, -⟩
    have none : row ∈ (Table.empty : Table BundleChunkRow.key).rows :=
      initialised.fresh.bundleChunks ▸ member
    exact absurd none List.not_mem_nil

/-- A byte changes only in the range of a call under way. -/
theorem covered_of_step (holds : v.Holds blake3) (step : VolumeStep blake3 v e v')
    {file offset : Nat} (changed : v'.files file offset ≠ v.files file offset) :
    ∃ put ∈ v.puts.rows, put.insert.Covers file offset := by
  cases step with
  | write put count found fits slot =>
      have member := (Table.mem_of_find? found).1
      refine ⟨put, member, ?_⟩
      by_contra outside
      refine changed (DataFiles.writeAt_of_not_covered ?_ outside)
      rw [(holds.puts put member).1.len, List.length_take, List.length_drop]
      omega
  | reopen torn =>
      by_contra outside
      exact changed (if_neg outside)
  | _ => exact absurd rfl changed

end Volume

/-! ## A storage -/

/-- The step of a storage that a data request asks for. -/
def DataRequest.storageEvent? (inputs : DataInputs) : DataRequest → Option StorageEvent
  | .uploadChunk request => some (.uploadChunk request inputs.leaseNow inputs.now)
  | .downloadChunk request => some (.volume request.volumeId (.readChunk request.chunkId))
  | .commitBundle request => some (.commitBundle request inputs.leaseNow inputs.commit)
  | _ => none

namespace StorageServer

variable {blake3 : Bytes → HashId} {zstdDecompress : Bytes → Nat → Fs0Result Bytes}
  {s s' : StorageServer} {P Q : Nat → VolumeEvent → Prop}

theorem step_of_handleDataRequest {inputs : DataInputs} {request : DataRequest}
    (handled : s.handleDataRequest blake3 zstdDecompress inputs request = some s') :
    s' = s ∨ ∃ e, request.storageEvent? inputs = some e ∧
      (storage blake3 zstdDecompress).step s e = some s' := by
  cases request with
  | uploadChunk request => exact .inr ⟨_, rfl, handled⟩
  | commitBundle request => exact .inr ⟨_, rfl, handled⟩
  | downloadChunk request =>
      unfold handleDataRequest at handled
      dsimp only at handled
      split at handled
      · exact .inr ⟨_, rfl, handled⟩
      · exact .inl (Option.some.inj handled).symm
  | _ => exact .inl (Option.some.inj handled).symm

/-- What is in every volume of a storage came with events that meet a condition. -/
def CameWith (P : Nat → VolumeEvent → Prop) (s : StorageServer) : Prop :=
  ∀ row ∈ s.volumes.rows, row.volume.CameWith (P row.volumeId)

theorem CameWith.mono (came : s.CameWith P) (weaker : ∀ volumeId e, P volumeId e → Q volumeId e) :
    s.CameWith Q := fun row member => (came row member).mono (weaker row.volumeId)

theorem cameWith_init (initial : (storage blake3 zstdDecompress).Init s) : s.CameWith P :=
  fun row member => Volume.cameWith_init (initial.2 row member)

theorem CameWith.of_step (came : s.CameWith P)
    (reachable : (storage blake3 zstdDecompress).Reachable s) {e : StorageEvent}
    (taken : (storage blake3 zstdDecompress).step s e = some s')
    (admitted : ∀ volumeId caused, e.Causes volumeId caused → caused.needsLease = true →
      P volumeId caused) : s'.CameWith P := by
  intro row member
  have effect := volume_effect taken row.volumeId
  rw [Table.find?_eq_some.mpr ⟨member, rfl⟩] at effect
  generalize before : s.volumes.find? row.volumeId = old at effect
  cases effect with
  | same => exact came row (Table.mem_of_find? before).1
  | moved old v' caused stepped causes =>
      have member := (Table.mem_of_find? before).1
      have bundled := Volume.reachable_bundled ((reachable_serves reachable).reachable old member)
      exact (came old member).of_step bundled stepped (admitted _ caused causes)

/-- A call that needs a lease does not begin by itself. -/
theorem needsLease_of_volume {volumeId : Nat} {e : VolumeEvent}
    (taken : (storage blake3 zstdDecompress).step s (.volume volumeId e) = some s') :
    e.needsLease = false := by
  obtain ⟨row, -, rest⟩ := Option.bind_eq_some_iff.mp taken
  split at rest
  · cases rest
  next free => exact Bool.not_eq_true _ ▸ free

theorem covered_of_step (reachable : (storage blake3 zstdDecompress).Reachable s)
    {e : StorageEvent} (taken : (storage blake3 zstdDecompress).step s e = some s')
    {volumeId : Nat} {row row' : StorageVolume} (found : s.volumes.find? volumeId = some row)
    (found' : s'.volumes.find? volumeId = some row') {file offset : Nat}
    (changed : row'.volume.files file offset ≠ row.volume.files file offset) :
    ∃ put ∈ row.volume.puts.rows, put.insert.Covers file offset := by
  have member := (Table.mem_of_find? found).1
  have holds := Volume.reachable_holds ((reachable_serves reachable).reachable row member)
  have effect := volume_effect taken volumeId
  rw [found, found'] at effect
  cases effect with
  | same => exact absurd rfl changed
  | moved _ v' caused stepped causes => exact Volume.covered_of_step holds stepped changed

end StorageServer

end Fs0
