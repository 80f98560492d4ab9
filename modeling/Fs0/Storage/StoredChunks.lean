import Fs0.Storage.Verified
import Fs0.Volume.Integrity

/-!
Contract: a chunk that a storage has stored is there for good, as long as nothing
deletes chunks.

Owns:
- that rows of chunks survive every other step of a volume and of a storage;
- that a call of `put_chunk` which returned a row has left one.

Does not own: what is written for the row.
-/

set_option autoImplicit false

namespace Fs0

open Lib Fallible

/-! ## A volume -/

/-- `delete_chunk`, which no request of a storage calls. -/
def VolumeEvent.deletesChunk : VolumeEvent → Bool
  | .deleteChunk _ => true
  | _ => false

namespace Volume

variable {blake3 : Bytes → HashId} {v v' : Volume} {e : VolumeEvent} {chunkId : HashId}

/-- A volume has the row of a chunk. -/
def HasChunk (v : Volume) (chunkId : HashId) : Prop :=
  ∃ chunk, v.tables.chunks.find? chunkId = some chunk

theorem HasChunk.of_step (has : v.HasChunk chunkId) (step : VolumeStep blake3 v e v')
    (keeps : e.deletesChunk = false) : v'.HasChunk chunkId := by
  obtain ⟨chunk, found⟩ := has
  refine ⟨chunk, ?_⟩
  cases step_tables step with
  | kept chunks bundleChunks records => rw [chunks, found]
  | inserted new chunks appended effect =>
      obtain ⟨rows, -⟩ := Table.insert?_eq_some appended
      obtain ⟨among, same⟩ := Table.mem_of_find? found
      have still : chunks.find? chunkId = some chunk :=
        Table.find?_eq_some.mpr ⟨by rw [rows]; exact List.mem_append_left _ among, same⟩
      rw [effect]
      exact still
  | deleted other isDelete unreferenced effect =>
      rw [isDelete] at keeps
      cases keeps
  | stored bundleId chunks commit isCommit stores written => rw [written.chunkRows, found]
  | removed bundleId isDelete written => rw [written.chunkRows, found]
  | forgotten maxEventId isRemove effect => rw [effect, found]

/-- Every call of `put_chunk` that returned a row has left one. -/
def Answered (v : Volume) : Prop :=
  ∀ chunkId rawLen bytes chunk, .putChunk chunkId rawLen bytes (.ok chunk) ∈ v.returns →
    v.HasChunk chunkId

/-- What a step returns for a chunk that is put, the volume holds then. -/
theorem hasChunk_of_return (step : VolumeStep blake3 v e v') {rawLen : Nat} {bytes : Bytes}
    {chunk : ChunkMeta} (returned : .putChunk chunkId rawLen bytes (.ok chunk) ∈ v'.returns)
    (fresh : .putChunk chunkId rawLen bytes (.ok chunk) ∉ v.returns) : v'.HasChunk chunkId := by
  cases step with
  | stored _ _ _ _ existing checked found same =>
      rcases List.mem_cons.mp returned with isNew | old
      · obtain ⟨rfl, -⟩ := VolumeReturn.putChunk.inj isNew
        exact ⟨existing, found⟩
      · exact absurd old fresh
  | inserted put chunks found complete fits appended =>
      rcases List.mem_cons.mp returned with isNew | old
      · obtain ⟨rfl, -⟩ := VolumeReturn.putChunk.inj isNew
        exact ⟨put.insert, Table.find?_of_insert? appended⟩
      · exact absurd old fresh
  | known put existing found complete fits row =>
      rcases List.mem_cons.mp returned with isNew | old
      · obtain ⟨rfl, -⟩ := VolumeReturn.putChunk.inj isNew
        exact ⟨existing, row⟩
      · exact absurd old fresh
  | reserved => exact absurd returned fresh
  | write => exact absurd returned fresh
  | readChunk => exact absurd returned fresh
  | read => exact absurd returned fresh
  | reopen => exact absurd returned fresh
  | _ =>
      rcases List.mem_cons.mp returned with isNew | old
      · cases isNew
      · exact absurd old fresh

theorem Answered.of_step (answered : v.Answered) (step : VolumeStep blake3 v e v')
    (keeps : e.deletesChunk = false) : v'.Answered := by
  intro chunkId rawLen bytes chunk returned
  by_cases old : .putChunk chunkId rawLen bytes (.ok chunk) ∈ v.returns
  · exact (answered _ _ _ _ old).of_step step keeps
  · exact hasChunk_of_return step returned old

end Volume

/-! ## A storage -/

/-- An event in which a volume deletes a chunk. -/
def StorageEvent.deletesChunk : StorageEvent → Bool
  | .volume _ e => e.deletesChunk
  | _ => false

/-- The event that a storage event has a volume take. -/
def StorageEvent.Causes : StorageEvent → Nat → VolumeEvent → Prop
  | .uploadChunk request _ now, volumeId, e => volumeId = request.volumeId ∧
      e = .putChunk request.chunkId request.rawLen request.compressedBytes now
  | .commitBundle request _ commit, volumeId, e => volumeId = request.volumeId ∧
      e = .commitBundle request.bundleId request.chunks commit
  | .volume other caused, volumeId, e => volumeId = other ∧ e = caused
  | .restart torn, volumeId, e => e = .reopen (torn volumeId)
  | _, _, _ => False

/-- What becomes of one volume in a step of its storage, and what its own step was. -/
inductive VolumeEffect (blake3 : Bytes → HashId) (e : StorageEvent) (volumeId : Nat) :
    Option StorageVolume → Option StorageVolume → Prop where
  | same (row : Option StorageVolume) : VolumeEffect blake3 e volumeId row row
  | moved (row : StorageVolume) (v' : Volume) (caused : VolumeEvent)
      (stepped : VolumeStep blake3 row.volume caused v') (causes : e.Causes volumeId caused) :
      VolumeEffect blake3 e volumeId (some row) (some ⟨row.volumeId, v'⟩)

/-- What becomes of one volume in a step of its storage. -/
inductive VolumeMove (blake3 : Bytes → HashId) (deletes : Bool) :
    Option StorageVolume → Option StorageVolume → Prop where
  | same (row : Option StorageVolume) : VolumeMove blake3 deletes row row
  | moved (row : StorageVolume) (v' : Volume) (e : VolumeEvent)
      (stepped : VolumeStep blake3 row.volume e v') (keeps : deletes = false → e.deletesChunk = false) :
      VolumeMove blake3 deletes (some row) (some ⟨row.volumeId, v'⟩)

theorem StorageEvent.Causes.keeps {e : StorageEvent} {volumeId : Nat} {caused : VolumeEvent}
    (causes : e.Causes volumeId caused) (keeps : e.deletesChunk = false) :
    caused.deletesChunk = false := by
  cases e with
  | grantUploadLease request => cases causes
  | revokeUploadLease leaseId => cases causes
  | uploadChunk request leaseNow now =>
      obtain ⟨-, rfl⟩ := causes
      rfl
  | commitBundle request leaseNow commit =>
      obtain ⟨-, rfl⟩ := causes
      rfl
  | volume other e =>
      obtain ⟨-, rfl⟩ := causes
      exact keeps
  | restart torn =>
      obtain rfl : caused = _ := causes
      rfl

namespace StorageServer

variable {blake3 : Bytes → HashId} {zstdDecompress : Bytes → Nat → Fs0Result Bytes}
  {s s' : StorageServer}

theorem onVolume_effect {volumeId : Nat} {v : Volume} {e : StorageEvent} {caused : VolumeEvent}
    (isRow : s.volumes.find? volumeId = some ⟨volumeId, v⟩)
    (taken : s.onVolume blake3 volumeId v caused = some s') (causes : e.Causes volumeId caused)
    (other : Nat) :
    VolumeEffect blake3 e other (s.volumes.find? other) (s'.volumes.find? other) := by
  obtain ⟨v', stepped, rfl⟩ := Option.map_eq_some_iff.mp taken
  by_cases same : other = volumeId
  · subst same
    have now : (s.volumes.put ⟨other, v'⟩).find? other = some ⟨other, v'⟩ := Table.find?_put_self
    rw [isRow, now]
    exact .moved ⟨other, v⟩ v' caused (Volume.step_cases stepped) causes
  · have now : (s.volumes.put ⟨volumeId, v'⟩).find? other = s.volumes.find? other :=
      Table.find?_put_of_ne same
    rw [now]
    exact .same _

theorem find?_of_volume {volumeId : Nat} {v : Volume} (found : s.volume volumeId = .ok v) :
    s.volumes.find? volumeId = some ⟨volumeId, v⟩ :=
  Table.find?_eq_some.mpr ⟨volume_eq_ok found, rfl⟩

/-- Every step of a storage leaves a volume alone or has it take a step of its own. -/
theorem volume_effect {e : StorageEvent} (taken : (storage blake3 zstdDecompress).step s e = some s')
    (volumeId : Nat) :
    VolumeEffect blake3 e volumeId (s.volumes.find? volumeId) (s'.volumes.find? volumeId) := by
  cases e with
  | grantUploadLease request =>
      obtain rfl := Option.some.inj taken
      unfold grantUploadLease
      split
      · exact .same _
      · exact .same _
  | revokeUploadLease leaseId =>
      obtain rfl := Option.some.inj taken
      exact .same _
  | uploadChunk request leaseNow now =>
      rcases step_uploadChunk taken with ⟨v, passed, ran⟩ | rfl
      · obtain ⟨-, found⟩ := checkUpload_eq_ok passed
        exact onVolume_effect (find?_of_volume found) ran (by exact ⟨rfl, rfl⟩) volumeId
      · exact .same _
  | commitBundle request leaseNow commit =>
      rcases step_commitBundle taken with ⟨v, passed, ran⟩ | rfl
      · obtain ⟨leased, -, found⟩ := Fs0Result.bind_eq_ok.mp passed
        exact onVolume_effect (find?_of_volume found) ran (by exact ⟨rfl, rfl⟩) volumeId
      · exact .same _
  | volume other e =>
      obtain ⟨row, found, ran⟩ := Option.bind_eq_some_iff.mp taken
      split at ran
      · cases ran
      next =>
        have key := (Table.mem_of_find? found).2
        have isRow : s.volumes.find? other = some ⟨other, row.volume⟩ := by
          rw [found, ← key]
        exact onVolume_effect isRow ran (by exact ⟨rfl, rfl⟩) volumeId
  | restart torn =>
      obtain rfl := Option.some.inj taken
      let reopened (row : StorageVolume) : StorageVolume :=
        { row with volume := row.volume.reopen (torn row.volumeId) }
      have now : (s.volumes.update reopened fun _ => rfl).find? volumeId =
          (s.volumes.find? volumeId).map reopened := Table.find?_update _
      show VolumeEffect blake3 _ _ _ ((s.volumes.update reopened fun _ => rfl).find? volumeId)
      rw [now]
      cases found : s.volumes.find? volumeId with
      | none => exact .same _
      | some row =>
          have key := (Table.mem_of_find? found).2
          exact .moved row _ (.reopen (torn row.volumeId)) (.reopen _) (key ▸ rfl)

theorem volume_move {e : StorageEvent} (taken : (storage blake3 zstdDecompress).step s e = some s')
    (volumeId : Nat) :
    VolumeMove blake3 e.deletesChunk (s.volumes.find? volumeId) (s'.volumes.find? volumeId) := by
  have effect := volume_effect taken volumeId
  generalize s.volumes.find? volumeId = before, s'.volumes.find? volumeId = after at effect
  cases effect with
  | same => exact .same _
  | moved row v' caused stepped causes => exact .moved row v' caused stepped causes.keeps

/-- A storage has the row of a chunk on a volume. -/
def HasChunk (s : StorageServer) (volumeId : Nat) (chunkId : HashId) : Prop :=
  ∃ row, s.volumes.find? volumeId = some row ∧ row.volume.HasChunk chunkId

/-- Every volume has what its calls of `put_chunk` returned. -/
def Answered (s : StorageServer) : Prop :=
  ∀ volumeId row, s.volumes.find? volumeId = some row → row.volume.Answered

variable {e : StorageEvent}

theorem HasChunk.of_step {volumeId : Nat} {chunkId : HashId} (has : s.HasChunk volumeId chunkId)
    (taken : (storage blake3 zstdDecompress).step s e = some s')
    (keeps : e.deletesChunk = false) : s'.HasChunk volumeId chunkId := by
  obtain ⟨row, found, stored⟩ := has
  have move := volume_move taken volumeId
  rw [found] at move
  generalize now : s'.volumes.find? volumeId = after at move
  cases move with
  | same => exact ⟨row, now, stored⟩
  | moved row v' e stepped deletes => exact ⟨_, now, stored.of_step stepped (deletes keeps)⟩

theorem Answered.of_step (answered : s.Answered)
    (taken : (storage blake3 zstdDecompress).step s e = some s')
    (keeps : e.deletesChunk = false) : s'.Answered := by
  intro volumeId row found
  have move := volume_move taken volumeId
  rw [found] at move
  generalize before : s.volumes.find? volumeId = old at move
  cases move with
  | same => exact answered volumeId row before
  | moved old v' e stepped deletes => exact (answered volumeId old before).of_step stepped (deletes keeps)

theorem answered_init (initial : (storage blake3 zstdDecompress).Init s) : s.Answered := by
  intro volumeId row found
  obtain ⟨tables, files, -, fresh⟩ := initial.2 row (Table.mem_of_find? found).1
  intro chunkId rawLen bytes chunk returned
  rw [fresh] at returned
  cases returned

end StorageServer

end Fs0
