import Fs0.Volume.Volume

/-!
Contract: what the sections of the calls on a volume do to its database.

Owns:
- the outcomes of reserving and of inserting a chunk;
- the sections that leave the chunks and the metadata as they are;
- the steps of a volume, one constructor for each thing an event can do.

Does not own: what holds of the bundles.
-/

set_option autoImplicit false

namespace Fs0

open Lib Fallible Statement

namespace VolumeDb

variable {db : VolumeDb}

theorem loadChunk_of_some {chunkId : HashId} {chunk : ChunkMeta}
    (found : db.1.chunks.find? chunkId = some chunk) : loadChunk chunkId db = .ok chunk db := by
  unfold loadChunk
  rw [query_bind_apply, found]
  rfl

theorem loadChunk_of_none {chunkId : HashId} (absent : db.1.chunks.find? chunkId = none) :
    loadChunk chunkId db = .error (.chunkNotFound chunkId) db := by
  unfold loadChunk
  rw [query_bind_apply, absent]
  rfl

theorem reserveActiveVolumeOffset_of_fits (db : VolumeDb) {activeVolumeOffset now : Nat}
    (fits : activeVolumeOffset ≤ i64Max) (nowFits : now ≤ i64Max) :
    ∃ known, reserveActiveVolumeOffset activeVolumeOffset now db = .ok known
      ({ db.1 with volumeMeta := known }, known) ∧
      known = { db.1.volumeMeta with
        activeVolumeOffset := max db.1.volumeMeta.activeVolumeOffset activeVolumeOffset
        updatedAtMs := now } := by
  unfold reserveActiveVolumeOffset
  rw [bind_of_ok (bindU64_of_le fits), bind_of_ok (bindU64_of_le nowFits)]
  exact ⟨_, rfl, rfl⟩

theorem reserveActiveVolumeOffset_of_unfit {activeVolumeOffset now : Nat}
    (unfit : ¬ (activeVolumeOffset ≤ i64Max ∧ now ≤ i64Max)) :
    ∃ err, ∀ db, reserveActiveVolumeOffset activeVolumeOffset now db = .error err db := by
  unfold reserveActiveVolumeOffset
  by_cases fits : activeVolumeOffset ≤ i64Max
  · obtain ⟨err, failed⟩ := bindU64_of_gt "updated_at_ms" fun nowFits => unfit ⟨fits, nowFits⟩
    exact ⟨err, fun db => by rw [bind_of_ok (bindU64_of_le fits), bind_of_error (failed db)]⟩
  · obtain ⟨err, failed⟩ := bindU64_of_gt "active volume offset" fits
    exact ⟨err, fun db => by rw [bind_of_error (failed db)]⟩

end VolumeDb

/-! ## Chunks -/

/-- The values of a chunk that are bound to its insertion. -/
structure ChunkMeta.Fits (chunk : ChunkMeta) : Prop where
  volumeOffset : chunk.volumeOffset ≤ i64Max
  rawLen : chunk.rawLen ≤ i64Max
  compressedLen : chunk.compressedLen ≤ i64Max

namespace Volume

open VolumeDb

variable {blake3 : Bytes → HashId} {db : VolumeDb}

/-- What a chunk in the table has in common with the arguments of a call. -/
def SameChunk (blake3 : Bytes → HashId) (known : ChunkMeta) (rawLen : Nat) (bytes : Bytes) : Prop :=
  known.rawLen = rawLen ∧ known.compressedLen = bytes.length ∧ known.compressedHash = blake3 bytes

/-- The reservation of a chunk in the database before it, and the database after it. -/
structure Reserved (blake3 : Bytes → HashId) (db : VolumeDb) (chunkId : HashId) (rawLen : Nat)
    (bytes : Bytes) (now : Nat) (insert : ChunkMeta) (db' : VolumeDb) : Prop where
  checked : checkChunk rawLen bytes = .ok ()
  absent : db.1.chunks.find? chunkId = none
  insert_eq : insert =
    ⟨chunkId, blake3 bytes, chunkOffset db.2.activeVolumeOffset bytes.length, rawLen, bytes.length⟩
  fits : insert.volumeOffset + bytes.length < u64Modulus
  room : insert.volumeOffset + bytes.length ≤ db.2.maxBytes
  bound : insert.volumeOffset + bytes.length ≤ i64Max
  nowFits : now ≤ i64Max
  after : ∃ known, db' = ({ db.1 with volumeMeta := known }, known) ∧
    known = { db.1.volumeMeta with
      activeVolumeOffset :=
        max db.1.volumeMeta.activeVolumeOffset (insert.volumeOffset + bytes.length)
      updatedAtMs := now }

/-- How the first section of `put_chunk` ends. -/
inductive PutOutcome (blake3 : Bytes → HashId) (db : VolumeDb) (chunkId : HashId) (rawLen : Nat)
    (bytes : Bytes) (now : Nat) : EStateM.Result Fs0Error VolumeDb PutSection → Prop where
  | stored (existing : ChunkMeta) (checked : checkChunk rawLen bytes = .ok ())
      (found : db.1.chunks.find? chunkId = some existing)
      (same : SameChunk blake3 existing rawLen bytes) :
      PutOutcome blake3 db chunkId rawLen bytes now (.ok (.stored existing) db)
  | differs (existing : ChunkMeta) (checked : checkChunk rawLen bytes = .ok ())
      (found : db.1.chunks.find? chunkId = some existing)
      (other : ¬ SameChunk blake3 existing rawLen bytes) :
      PutOutcome blake3 db chunkId rawLen bytes now
        (.error (.hashMismatch existing.volumeOffset) db)
  | reserved (insert : ChunkMeta) (db' : VolumeDb)
      (reserved : Reserved blake3 db chunkId rawLen bytes now insert db') :
      PutOutcome blake3 db chunkId rawLen bytes now (.ok (.reserved insert) db')
  | unchecked (err : Fs0Error) (refused : checkChunk rawLen bytes = .error err) :
      PutOutcome blake3 db chunkId rawLen bytes now (.error err db)
  | noRoom (err : Fs0Error) (checked : checkChunk rawLen bytes = .ok ())
      (absent : db.1.chunks.find? chunkId = none)
      (refused : reserveChunk now chunkId (blake3 bytes) rawLen bytes.length db =
        .error err db) :
      PutOutcome blake3 db chunkId rawLen bytes now (.error err db)

/-- A volume has room for a chunk. -/
structure HasRoom (known : VolumeMeta) (compressedLen now : Nat) : Prop where
  fits : chunkOffset known.activeVolumeOffset compressedLen + compressedLen < u64Modulus
  room : chunkOffset known.activeVolumeOffset compressedLen + compressedLen ≤ known.maxBytes
  bound : chunkOffset known.activeVolumeOffset compressedLen + compressedLen ≤ i64Max
  nowFits : now ≤ i64Max

/-- Whether a chunk is reserved depends on the metadata only. -/
theorem reserveChunk_cases (known : VolumeMeta) (now : Nat) (chunkId compressedHash : HashId)
    (rawLen compressedLen : Nat) :
    let volumeOffset := chunkOffset known.activeVolumeOffset compressedLen
    (¬ HasRoom known compressedLen now ∧ ∃ err, ∀ tables,
      reserveChunk now chunkId compressedHash rawLen compressedLen (tables, known) =
        .error err (tables, known)) ∨
    (HasRoom known compressedLen now ∧ ∀ tables : VolumeTables, ∃ reserved, reserved = { tables.volumeMeta with
          activeVolumeOffset :=
            max tables.volumeMeta.activeVolumeOffset (volumeOffset + compressedLen)
          updatedAtMs := now } ∧
        reserveChunk now chunkId compressedHash rawLen compressedLen (tables, known) =
          .ok (.reserved ⟨chunkId, compressedHash, volumeOffset, rawLen, compressedLen⟩)
            ({ tables with volumeMeta := reserved }, reserved)) := by
  intro volumeOffset
  have unfolded : ∀ tables,
      reserveChunk now chunkId compressedHash rawLen compressedLen (tables, known) =
      (lift (okOr (checkedAdd volumeOffset compressedLen)
        (.integerConversion "volume offset overflow")) >>= fun nextActiveOffset =>
        require (nextActiveOffset ≤ known.maxBytes)
          (.capacityExceeded nextActiveOffset known.maxBytes) >>= fun _ =>
        reserveActiveVolumeOffset nextActiveOffset now >>= fun _ =>
        pure (.reserved ⟨chunkId, compressedHash, volumeOffset, rawLen, compressedLen⟩))
        (tables, known) := fun _ => rfl
  by_cases overflows : u64Modulus ≤ volumeOffset + compressedLen
  · left
    refine ⟨fun room => absurd room.fits (not_lt.mpr overflows),
      .integerConversion "volume offset overflow", fun tables => ?_⟩
    rw [unfolded, checkedAdd, if_neg (by omega)]
    rfl
  rw [checkedAdd, if_pos (by omega)] at unfolded
  by_cases room : volumeOffset + compressedLen ≤ known.maxBytes
  · by_cases bound : volumeOffset + compressedLen ≤ i64Max ∧ now ≤ i64Max
    · right
      refine ⟨⟨not_le.mp overflows, room, bound.1, bound.2⟩, fun tables => ?_⟩
      obtain ⟨reserved, ran, isReserved⟩ :=
        reserveActiveVolumeOffset_of_fits (tables, known) bound.1 bound.2
      refine ⟨reserved, isReserved, ?_⟩
      rw [unfolded, okOr, bind_of_ok (lift_ok_apply _ _), bind_apply, require, if_pos room]
      dsimp only
      rw [bind_of_ok ran]
      rfl
    · left
      obtain ⟨err, ran⟩ := reserveActiveVolumeOffset_of_unfit bound
      refine ⟨fun room => bound ⟨room.bound, room.nowFits⟩, err, fun tables => ?_⟩
      rw [unfolded, okOr, bind_of_ok (lift_ok_apply _ _), bind_apply, require, if_pos room]
      dsimp only
      rw [bind_of_error (ran _)]
  · left
    refine ⟨fun fits => room fits.room,
      .capacityExceeded (volumeOffset + compressedLen) known.maxBytes, fun tables => ?_⟩
    rw [unfolded, okOr, bind_of_ok (lift_ok_apply _ _), bind_apply, require, if_neg room]

/-- A chunk that is stored is compared with the arguments. -/
theorem putChunk_of_found {chunkId : HashId} {rawLen now : Nat} {bytes : Bytes}
    {existing : ChunkMeta} (checked : checkChunk rawLen bytes = .ok ())
    (found : db.1.chunks.find? chunkId = some existing) :
    (SameChunk blake3 existing rawLen bytes →
      putChunk blake3 now chunkId rawLen bytes db = .ok (.stored existing) db) ∧
    (¬ SameChunk blake3 existing rawLen bytes →
      putChunk blake3 now chunkId rawLen bytes db =
        .error (.hashMismatch existing.volumeOffset) db) := by
  unfold putChunk
  rw [checked, bind_of_ok (lift_ok_apply _ _), bind_apply, attempt_apply, loadChunk_of_some found]
  simp only [outcome_ok, endState_ok, bind_apply, require]
  constructor
  · intro (same : _ ∧ _ ∧ _)
    rw [if_pos same]
    rfl
  · intro (other : ¬ (_ ∧ _ ∧ _))
    rw [if_neg other]

/-- A chunk that is not stored is reserved. -/
theorem putChunk_of_absent {chunkId : HashId} {rawLen now : Nat} {bytes : Bytes}
    (checked : checkChunk rawLen bytes = .ok ()) (absent : db.1.chunks.find? chunkId = none) :
    putChunk blake3 now chunkId rawLen bytes db =
      reserveChunk now chunkId (blake3 bytes) rawLen bytes.length db := by
  unfold putChunk
  rw [checked, bind_of_ok (lift_ok_apply _ _), bind_apply, attempt_apply, loadChunk_of_none absent]
  rfl

/-- A call with arguments that are refused. -/
theorem putChunk_of_unchecked {chunkId : HashId} {rawLen now : Nat} {bytes : Bytes}
    {err : Fs0Error} (refused : checkChunk rawLen bytes = .error err) (db : VolumeDb) :
    putChunk blake3 now chunkId rawLen bytes db = .error err db := by
  unfold putChunk
  rw [refused, bind_of_error (lift_error_apply _ _)]

theorem putChunk_outcome (db : VolumeDb) (now : Nat) (chunkId : HashId) (rawLen : Nat)
    (bytes : Bytes) : PutOutcome blake3 db chunkId rawLen bytes now
      (putChunk blake3 now chunkId rawLen bytes db) := by
  cases checked : checkChunk rawLen bytes with
  | error err =>
      rw [putChunk_of_unchecked checked]
      exact .unchecked err checked
  | ok valid =>
      cases found : db.1.chunks.find? chunkId with
      | some existing =>
          obtain ⟨stored, differs⟩ := putChunk_of_found checked found
          by_cases same : SameChunk blake3 existing rawLen bytes
          · rw [stored same]
            exact .stored existing checked found same
          · rw [differs same]
            exact .differs existing checked found same
      | none =>
          rw [putChunk_of_absent checked found]
          rcases reserveChunk_cases db.2 now chunkId (blake3 bytes) rawLen bytes.length with
            ⟨-, err, refused⟩ | ⟨room, reserves⟩
          · have ran := refused db.1
            rw [ran]
            exact .noRoom err checked found ran
          · obtain ⟨reserved, isReserved, ran⟩ := reserves db.1
            rw [ran]
            exact .reserved _ _ ⟨checked, found, rfl, room.fits, room.room, room.bound, room.nowFits,
              reserved, rfl, isReserved⟩

/-- How the last section of `put_chunk` ends. -/
inductive StoreOutcome (insert : ChunkMeta) (db : VolumeDb) :
    EStateM.Result Fs0Error VolumeDb ChunkMeta → Prop where
  | inserted (chunks : Table ChunkMeta.chunkId) (fits : insert.Fits)
      (appended : db.1.chunks.insert? insert = some chunks) :
      StoreOutcome insert db (.ok insert ({ db.1 with chunks := chunks }, db.2))
  | known (existing : ChunkMeta) (fits : insert.Fits)
      (found : db.1.chunks.find? insert.chunkId = some existing) :
      StoreOutcome insert db (.ok existing db)
  | unfit (err : Fs0Error) (unfit : ¬ insert.Fits) : StoreOutcome insert db (.error err db)

theorem insertChunk_of_unfit {insert : ChunkMeta} (unfit : ¬ insert.Fits) :
    ∃ err, ∀ db, insertChunk insert db = .error err db := by
  unfold insertChunk
  by_cases offsetFits : insert.volumeOffset ≤ i64Max
  · by_cases rawFits : insert.rawLen ≤ i64Max
    · have late : ¬ insert.compressedLen ≤ i64Max := fun fits => unfit ⟨offsetFits, rawFits, fits⟩
      obtain ⟨err, failed⟩ := bindU64_of_gt "compressed len" late
      exact ⟨err, fun db => by rw [bind_of_ok (bindU64_of_le offsetFits),
        bind_of_ok (bindU64_of_le rawFits), bind_of_error (failed db)]⟩
    · obtain ⟨err, failed⟩ := bindU64_of_gt "raw len" rawFits
      exact ⟨err, fun db => by
        rw [bind_of_ok (bindU64_of_le offsetFits), bind_of_error (failed db)]⟩
  · obtain ⟨err, failed⟩ := bindU64_of_gt "volume offset" offsetFits
    exact ⟨err, fun db => by rw [bind_of_error (failed db)]⟩

theorem insertChunk_of_fits {insert : ChunkMeta} (fits : insert.Fits) (db : VolumeDb) :
    insertChunk insert db = .ok () ({ db.1 with
      chunks := (db.1.chunks.insert? insert).getD db.1.chunks }, db.2) := by
  unfold insertChunk
  rw [bind_of_ok (bindU64_of_le fits.volumeOffset), bind_of_ok (bindU64_of_le fits.rawLen),
    bind_of_ok (bindU64_of_le fits.compressedLen)]
  rfl

/-- A chunk that is not stored is inserted. -/
theorem storeChunk_of_inserted {insert : ChunkMeta} {chunks : Table ChunkMeta.chunkId}
    (fits : insert.Fits) (inserted : db.1.chunks.insert? insert = some chunks) :
    storeChunk insert db = .ok insert ({ db.1 with chunks := chunks }, db.2) := by
  have row : chunks.find? insert.chunkId = some insert := Table.find?_of_insert? inserted
  unfold storeChunk
  rw [bind_of_ok (insertChunk_of_fits fits db), inserted, Option.getD_some, loadChunk_of_some row]

/-- A chunk that is stored stays as it is. -/
theorem storeChunk_of_found {insert existing : ChunkMeta} (fits : insert.Fits)
    (found : db.1.chunks.find? insert.chunkId = some existing) :
    storeChunk insert db = .ok existing db := by
  have taken : db.1.chunks.insert? insert = none :=
    Table.insert?_eq_none.mpr ⟨existing, Table.mem_of_find? found⟩
  unfold storeChunk
  rw [bind_of_ok (insertChunk_of_fits fits db), taken, Option.getD_none, loadChunk_of_some found]

theorem storeChunk_of_unfit {insert : ChunkMeta} (unfit : ¬ insert.Fits) :
    ∃ err, ∀ db, storeChunk insert db = .error err db := by
  obtain ⟨err, failed⟩ := insertChunk_of_unfit unfit
  refine ⟨err, fun db => ?_⟩
  unfold storeChunk
  rw [bind_of_error (failed db)]

theorem storeChunk_outcome (insert : ChunkMeta) (db : VolumeDb) :
    StoreOutcome insert db (storeChunk insert db) := by
  by_cases fits : insert.Fits
  · cases inserted : db.1.chunks.insert? insert with
    | some chunks =>
        rw [storeChunk_of_inserted fits inserted]
        exact .inserted chunks fits inserted
    | none =>
        obtain ⟨existing, member, same⟩ := Table.insert?_eq_none.mp inserted
        have found : db.1.chunks.find? insert.chunkId = some existing :=
          Table.find?_eq_some.mpr ⟨member, same⟩
        rw [storeChunk_of_found fits found]
        exact .known existing fits found
  · obtain ⟨err, failed⟩ := storeChunk_of_unfit fits
    rw [failed db]
    exact .unfit err fits

/-! ## Sections that keep the chunks -/

/-- The same chunks and the same metadata. -/
structure SameChunks (before after : VolumeDb) : Prop where
  chunks : after.1.chunks = before.1.chunks
  volumeMeta : after.1.volumeMeta = before.1.volumeMeta
  known : after.2 = before.2

theorem SameChunks.refl (db : VolumeDb) : SameChunks db db := ⟨rfl, rfl, rfl⟩

theorem SameChunks.trans {first second third : VolumeDb} (left : SameChunks first second)
    (right : SameChunks second third) : SameChunks first third :=
  ⟨right.chunks.trans left.chunks, right.volumeMeta.trans left.volumeMeta,
    right.known.trans left.known⟩

/-- Keeps the chunks and the metadata, whether or not it fails. -/
def KeepsChunks {α : Type} (m : VolumeM α) : Prop := ∀ db, SameChunks db (endState (m db))

variable {α β : Type}

theorem KeepsChunks.pure (a : α) : KeepsChunks (Pure.pure a : VolumeM α) := fun db => .refl db

theorem KeepsChunks.throw (err : Fs0Error) : KeepsChunks (MonadExcept.throw err : VolumeM α) :=
  fun db => .refl db

theorem KeepsChunks.lift (result : Fs0Result α) :
    KeepsChunks (Fallible.lift result : VolumeM α) := by
  intro db
  cases result <;> exact .refl db

theorem KeepsChunks.require (condition : Prop) [Decidable condition] (err : Fs0Error) :
    KeepsChunks (Fallible.require condition err : VolumeM PUnit) := by
  intro db
  unfold Fallible.require
  split <;> exact .refl db

theorem KeepsChunks.query (select : VolumeTables → α) :
    KeepsChunks (Statement.query select : VolumeM α) := fun db => .refl db

theorem KeepsChunks.bindU64 (value : Nat) (name : String) :
    KeepsChunks (Statement.bindU64 value name : VolumeM Nat) := .lift _

theorem KeepsChunks.attempt {m : VolumeM α} (keeps : KeepsChunks m) :
    KeepsChunks (Fallible.attempt m) := keeps

theorem KeepsChunks.bind {m : VolumeM α} {f : α → VolumeM β} (first : KeepsChunks m)
    (second : ∀ a, KeepsChunks (f a)) : KeepsChunks (m >>= f) := by
  intro db
  have kept := first db
  rw [bind_apply]
  cases ran : m db with
  | ok a db' =>
      rw [ran] at kept
      exact kept.trans (second a db')
  | error err db' =>
      rw [ran] at kept
      exact kept

theorem KeepsChunks.execute {statement : VolumeTables → Fs0Result (α × VolumeTables)}
    (keeps : ∀ tables a tables', statement tables = .ok (a, tables') →
      tables'.chunks = tables.chunks ∧ tables'.volumeMeta = tables.volumeMeta) :
    KeepsChunks (Statement.execute statement : VolumeM α) := by
  intro db
  unfold Statement.execute
  cases ran : statement db.1 with
  | error err => exact .refl db
  | ok result =>
      obtain ⟨a, tables⟩ := result
      obtain ⟨chunks, volumeMeta⟩ := keeps db.1 a tables ran
      exact ⟨chunks, volumeMeta, rfl⟩

theorem KeepsChunks.transact {commit : Option Fs0Error} {m : VolumeM α}
    (keeps : KeepsChunks m) : KeepsChunks (Fallible.transact commit m) := by
  intro db
  have kept := keeps db
  unfold Fallible.transact
  cases ran : m db with
  | ok a db' =>
      rw [ran] at kept
      cases commit with
      | none => exact kept
      | some err => exact ⟨rfl, rfl, kept.known⟩
  | error err db' =>
      rw [ran] at kept
      exact ⟨rfl, rfl, kept.known⟩

theorem loadBundle_keepsChunks (bundleId : HashId) : KeepsChunks (loadBundle bundleId) :=
  .bind (.query _) fun _ => .bind (.require _ _) fun _ => .bind (.lift _) fun _ =>
    .bind (.lift _) fun _ => .pure _

theorem deleteBundleChunks_keepsChunks (bundleId : HashId) :
    KeepsChunks (Statement.execute (VolumeTables.deleteBundleChunks bundleId) : VolumeM Unit) := by
  apply KeepsChunks.execute
  intro tables a tables' ran
  obtain ⟨-, rfl⟩ := Prod.mk.inj (Except.ok.inj ran)
  exact ⟨rfl, rfl⟩

theorem insertBundleChangeRecordTx_keepsChunks (bundleId : HashId)
    (kind : BundleReplicaEventKind) : KeepsChunks (insertBundleChangeRecordTx bundleId kind) := by
  apply KeepsChunks.execute
  intro tables a tables' ran
  unfold VolumeTables.upsertBundleChangeRecord at ran
  split at ran
  · split at ran
    · obtain ⟨-, rfl⟩ := Prod.mk.inj (Except.ok.inj ran)
      exact ⟨rfl, rfl⟩
    · obtain ⟨-, rfl⟩ := Prod.mk.inj (Except.ok.inj ran)
      exact ⟨rfl, rfl⟩
  · cases ran

theorem insertBundleChunks_keepsChunks (bundleId : HashId) (chunks : List BundleChunkRef) :
    KeepsChunks (insertBundleChunks bundleId chunks) := by
  induction chunks with
  | nil => exact .pure _
  | cons chunk rest inductionHypothesis =>
      refine .bind (.bindU64 _ _) fun chunkIndex => .bind (.execute ?_) fun _ =>
        inductionHypothesis
      intro tables a tables' ran
      unfold VolumeTables.insertBundleChunk at ran
      split at ran
      · cases ran
      · split at ran
        · cases ran
        · obtain ⟨-, rfl⟩ := Prod.mk.inj (Except.ok.inj ran)
          exact ⟨rfl, rfl⟩

theorem commitBundleTx_keepsChunks (bundleId : HashId) (chunks : List BundleChunkRef) :
    KeepsChunks (commitBundleTx bundleId chunks) :=
  .bind (deleteBundleChunks_keepsChunks _) fun _ =>
    .bind (insertBundleChunks_keepsChunks _ _) fun _ => insertBundleChangeRecordTx_keepsChunks _ _

theorem loadChunksByIds_keepsChunks (chunkIds : List HashId) :
    KeepsChunks (loadChunksByIds chunkIds) :=
  .bind (.require _ _) fun _ => .query _

theorem commitBundle_keepsChunks (commit : Option Fs0Error) (bundleId : HashId)
    (chunks : List BundleChunkRef) : KeepsChunks (commitBundle blake3 commit bundleId chunks) := by
  refine .bind (.lift _) fun _ => .bind (.attempt (loadBundle_keepsChunks bundleId)) fun known => ?_
  rcases known with err | existing
  · cases err with
    | bundleNotFound bundleId =>
        exact .bind (loadChunksByIds_keepsChunks _) fun loaded => .bind (.lift _) fun _ =>
          .bind (.transact (commitBundleTx_keepsChunks _ _)) fun _ => loadBundle_keepsChunks _
    | _ => exact .throw _
  · exact .pure _

theorem deleteBundle_keepsChunks (commit : Option Fs0Error) (bundleId : HashId) :
    KeepsChunks (VolumeDb.deleteBundle commit bundleId) :=
  .transact (.bind (deleteBundleChunks_keepsChunks _) fun _ =>
    insertBundleChangeRecordTx_keepsChunks _ _)

theorem removeBundleChangeRecords_keepsChunks (maxEventId : Nat) :
    KeepsChunks (VolumeDb.removeBundleChangeRecords maxEventId) := by
  refine .bind (.bindU64 _ _) fun _ => .execute ?_
  intro tables a tables' ran
  obtain ⟨-, rfl⟩ := Prod.mk.inj (Except.ok.inj ran)
  exact ⟨rfl, rfl⟩

/-- Deleting a chunk takes its row out or leaves the database as it is. -/
theorem deleteChunk_cases (chunkId : HashId) (db : VolumeDb) :
    endState (VolumeDb.deleteChunk chunkId db) = db ∨
      (∀ row ∈ db.1.bundleChunks.rows, row.chunkId = chunkId →
        db.1.chunks.find? chunkId = none) ∧
      endState (VolumeDb.deleteChunk chunkId db) = ({ db.1 with
        chunks := db.1.chunks.delete fun row => row.chunkId == chunkId }, db.2) := by
  unfold VolumeDb.deleteChunk Statement.execute VolumeTables.deleteChunk
  by_cases referenced : (∃ row ∈ db.1.bundleChunks.rows, row.chunkId = chunkId) ∧
      (db.1.chunks.find? chunkId).isSome
  · rw [if_pos referenced]
    exact .inl rfl
  · rw [if_neg referenced]
    refine .inr ⟨fun row member same => ?_, rfl⟩
    by_contra present
    exact referenced ⟨⟨row, member, same⟩, Option.isSome_iff_ne_none.mpr present⟩

end Volume

/-! ## Steps -/

/-- What an event does to a volume. -/
inductive VolumeStep (blake3 : Bytes → HashId) (v : Volume) : VolumeEvent → Volume → Prop where
  | stored (chunkId : HashId) (rawLen : Nat) (bytes : Bytes) (now : Nat) (existing : ChunkMeta)
      (checked : Volume.checkChunk rawLen bytes = .ok ())
      (found : v.tables.chunks.find? chunkId = some existing)
      (same : Volume.SameChunk blake3 existing rawLen bytes) :
      VolumeStep blake3 v (.putChunk chunkId rawLen bytes now)
        (v.returned (.putChunk chunkId rawLen bytes (.ok existing)))
  | refused (chunkId : HashId) (rawLen : Nat) (bytes : Bytes) (now : Nat) (err : Fs0Error)
      (ran : Volume.putChunk blake3 now chunkId rawLen bytes v.db = .error err v.db) :
      VolumeStep blake3 v (.putChunk chunkId rawLen bytes now)
        (v.returned (.putChunk chunkId rawLen bytes (.error err)))
  | reserved (chunkId : HashId) (rawLen : Nat) (bytes : Bytes) (now : Nat) (insert : ChunkMeta)
      (db : VolumeDb)
      (reserved : Volume.Reserved blake3 v.db chunkId rawLen bytes now insert db) :
      VolumeStep blake3 v (.putChunk chunkId rawLen bytes now) { v with
        db := db
        puts := v.puts.push (fun call => ⟨call, insert, bytes, 0⟩) fun _ => rfl }
  | write (put : PutCall) (count : Nat) (found : v.puts.find? put.call = some put)
      (fits : put.written + count ≤ put.bytes.length) (slot : put.insert.fileIndex < v.slots) :
      VolumeStep blake3 v (.write put.call count) { v with
        files := v.files.writeAt put.insert.fileIndex (put.insert.fileOffset + put.written)
          ((put.bytes.drop put.written).take count)
        puts := v.puts.replace { put with written := put.written + count } }
  | failWrite (put : PutCall) (err : Fs0Error) (found : v.puts.find? put.call = some put) :
      VolumeStep blake3 v (.failWrite put.call err) (v.endPut put (.error err))
  | inserted (put : PutCall) (chunks : Table ChunkMeta.chunkId)
      (found : v.puts.find? put.call = some put) (complete : put.written = put.bytes.length)
      (fits : put.insert.Fits) (appended : v.tables.chunks.insert? put.insert = some chunks) :
      VolumeStep blake3 v (.storeChunk put.call) ({ v with
        db := ({ v.tables with chunks := chunks }, v.db.2)
        inserted := put :: v.inserted }.endPut put (.ok put.insert))
  | known (put : PutCall) (existing : ChunkMeta) (found : v.puts.find? put.call = some put)
      (complete : put.written = put.bytes.length) (fits : put.insert.Fits)
      (row : v.tables.chunks.find? put.insert.chunkId = some existing) :
      VolumeStep blake3 v (.storeChunk put.call) (v.endPut put (.ok existing))
  | unfit (put : PutCall) (err : Fs0Error) (found : v.puts.find? put.call = some put)
      (complete : put.written = put.bytes.length) (unfit : ¬ put.insert.Fits) :
      VolumeStep blake3 v (.storeChunk put.call) (v.endPut put (.error err))
  | readChunk (chunk : ChunkMeta) (found : v.tables.chunks.find? chunk.chunkId = some chunk) :
      VolumeStep blake3 v (.readChunk chunk.chunkId) { v with
        reads := v.reads.push (fun call => ⟨call, chunk, []⟩) fun _ => rfl }
  | readMissing (chunkId : HashId) (err : Fs0Error)
      (absent : v.tables.chunks.find? chunkId = none) :
      VolumeStep blake3 v (.readChunk chunkId) (v.returned (.readChunk chunkId (.error err)))
  | read (read : ReadCall) (count : Nat) (found : v.reads.find? read.call = some read)
      (fits : read.got.length + count ≤ read.chunk.compressedLen) :
      VolumeStep blake3 v (.read read.call count) { v with
        reads := v.reads.replace { read with
          got := read.got ++ v.files.readAt read.chunk.fileIndex
            (read.chunk.fileOffset + read.got.length) count } }
  | failRead (read : ReadCall) (err : Fs0Error) (found : v.reads.find? read.call = some read) :
      VolumeStep blake3 v (.failRead read.call err) (v.endRead read (.error err))
  | endRead (read : ReadCall) (found : v.reads.find? read.call = some read)
      (complete : read.got.length = read.chunk.compressedLen) :
      VolumeStep blake3 v (.endRead read.call) (v.endRead read (.ok (read.chunk, read.got)))
  | deleteChunk (chunkId : HashId) :
      VolumeStep blake3 v (.deleteChunk chunkId)
        (v.ran (VolumeDb.deleteChunk chunkId v.db) (.deleteChunk chunkId))
  | commitBundle (bundleId : HashId) (chunks : List BundleChunkRef) (commit : Option Fs0Error) :
      VolumeStep blake3 v (.commitBundle bundleId chunks commit)
        (v.ran (Volume.commitBundle blake3 commit bundleId chunks v.db)
          (.commitBundle bundleId chunks))
  | deleteBundle (bundleId : HashId) (commit : Option Fs0Error) :
      VolumeStep blake3 v (.deleteBundle bundleId commit)
        (v.ran (VolumeDb.deleteBundle commit bundleId v.db) (.deleteBundle bundleId))
  | removeBundleChangeRecords (maxEventId : Nat) :
      VolumeStep blake3 v (.removeBundleChangeRecords maxEventId)
        (v.ran (VolumeDb.removeBundleChangeRecords maxEventId v.db)
          (.removeBundleChangeRecords maxEventId))
  | reopen (torn : DataFiles) : VolumeStep blake3 v (.reopen torn) (v.reopen torn)

namespace Volume

variable {blake3 : Bytes → HashId} {v v' : Volume} {e : VolumeEvent}

theorem step_storeChunk {put : PutCall} (found : v.puts.find? put.call = some put)
    (complete : put.written = put.bytes.length)
    (taken : v.step blake3 (.storeChunk put.call) = some v') :
    VolumeStep blake3 v (.storeChunk put.call) v' := by
  simp only [step, found, Option.bind_some, if_pos complete] at taken
  obtain rfl := Option.some.inj taken
  have outcome := storeChunk_outcome put.insert v.db
  generalize Volume.storeChunk put.insert v.db = result at outcome
  cases outcome with
  | inserted chunks fits appended =>
      obtain ⟨-, fresh⟩ := Table.insert?_eq_some appended
      have absent : v.tables.chunks.find? put.insert.chunkId = none :=
        Table.find?_eq_none.mpr fresh
      have present : chunks.find? put.insert.chunkId = some put.insert :=
        Table.find?_of_insert? appended
      simp only [endState_ok, outcome_ok, absent, present, Option.isNone_none, Option.isSome_some,
        and_self, if_true]
      exact .inserted put chunks found complete fits appended
  | known existing fits row =>
      have present : v.tables.chunks.find? put.insert.chunkId = some existing := row
      simp only [endState_ok, outcome_ok, present, Option.isNone_some, Bool.false_eq_true,
        false_and, if_false]
      exact .known put existing found complete fits row
  | unfit err unfit =>
      cases present : v.tables.chunks.find? put.insert.chunkId with
      | some existing =>
          simp only [endState_error, outcome_error, Option.isNone_some, Bool.false_eq_true,
            false_and, if_false]
          exact .unfit put err found complete unfit
      | none =>
          have absent : v.db.1.chunks.find? put.insert.chunkId = none := present
          simp only [endState_error, outcome_error, absent, Option.isSome_none,
            Bool.false_eq_true, and_false, if_false]
          exact .unfit put err found complete unfit

theorem step_cases (taken : (volume blake3).step v e = some v') : VolumeStep blake3 v e v' := by
  have put_call : ∀ {call put}, v.puts.find? call = some put → put.call = call :=
    fun found => (Table.mem_of_find? found).2
  have read_call : ∀ {call read}, v.reads.find? call = some read → read.call = call :=
    fun found => (Table.mem_of_find? found).2
  cases e with
  | putChunk chunkId rawLen bytes now =>
      have outcome : PutOutcome blake3 _ _ _ _ _ _ :=
        putChunk_outcome v.db now chunkId rawLen bytes
      have ran : v.step blake3 (.putChunk chunkId rawLen bytes now) = some v' := taken
      simp only [step] at ran
      generalize result : Volume.putChunk blake3 now chunkId rawLen bytes v.db = r at outcome ran
      cases outcome with
      | stored existing checked found same =>
          obtain rfl := Option.some.inj ran
          exact .stored chunkId rawLen bytes now existing checked found same
      | reserved insert db reserved =>
          obtain rfl := Option.some.inj ran
          exact .reserved chunkId rawLen bytes now insert db reserved
      | differs existing checked found other =>
          obtain rfl := Option.some.inj ran
          exact .refused chunkId rawLen bytes now _ result
      | unchecked err refused =>
          obtain rfl := Option.some.inj ran
          exact .refused chunkId rawLen bytes now _ result
      | noRoom err checked absent refused =>
          obtain rfl := Option.some.inj ran
          exact .refused chunkId rawLen bytes now _ result
  | write call count =>
      obtain ⟨put, found, rest⟩ := Option.bind_eq_some_iff.mp taken
      obtain rfl := put_call found
      split at rest
      next fits =>
        obtain rfl := Option.some.inj rest
        exact .write put count found fits.2.1 fits.2.2
      · cases rest
  | failWrite call err =>
      obtain ⟨put, found, rfl⟩ := Option.map_eq_some_iff.mp taken
      obtain rfl := put_call found
      exact .failWrite put err found
  | storeChunk call =>
      obtain ⟨put, found, rest⟩ := Option.bind_eq_some_iff.mp taken
      obtain rfl := put_call found
      split at rest
      next complete => exact step_storeChunk found complete taken
      · cases rest
  | readChunk chunkId =>
      have ran : v.step blake3 (.readChunk chunkId) = some v' := taken
      simp only [step] at ran
      cases found : v.tables.chunks.find? chunkId with
      | none =>
          rw [VolumeDb.loadChunk_of_none found] at ran
          obtain rfl := Option.some.inj ran
          exact .readMissing chunkId _ found
      | some chunk =>
          rw [VolumeDb.loadChunk_of_some found] at ran
          obtain rfl := Option.some.inj ran
          obtain rfl := (Table.mem_of_find? found).2
          exact .readChunk chunk found
  | read call count =>
      obtain ⟨read, found, rest⟩ := Option.bind_eq_some_iff.mp taken
      obtain rfl := read_call found
      split at rest
      next fits =>
        obtain rfl := Option.some.inj rest
        exact .read read count found fits.2.1
      · cases rest
  | failRead call err =>
      obtain ⟨read, found, rfl⟩ := Option.map_eq_some_iff.mp taken
      obtain rfl := read_call found
      exact .failRead read err found
  | endRead call =>
      obtain ⟨read, found, rest⟩ := Option.bind_eq_some_iff.mp taken
      obtain rfl := read_call found
      split at rest
      next complete =>
        obtain rfl := Option.some.inj rest
        exact .endRead read found complete
      · cases rest
  | deleteChunk chunkId =>
      obtain rfl := Option.some.inj taken
      exact .deleteChunk chunkId
  | commitBundle bundleId chunks commit =>
      obtain rfl := Option.some.inj taken
      exact .commitBundle bundleId chunks commit
  | deleteBundle bundleId commit =>
      obtain rfl := Option.some.inj taken
      exact .deleteBundle bundleId commit
  | removeBundleChangeRecords maxEventId =>
      obtain rfl := Option.some.inj taken
      exact .removeBundleChangeRecords maxEventId
  | reopen torn =>
      obtain rfl := Option.some.inj taken
      exact .reopen torn

end Volume

/-! ## Scenarios -/

namespace Volume.Scenario

def hash (byte : UInt8) : HashId := ⟨List.replicate 32 byte, rfl⟩

/-- Hashes by the first byte only. -/
def blake3 (bytes : Bytes) : HashId := hash (bytes.headD 0)

/-- A volume of one data file, full of zeros. -/
def initial : Volume :=
  Volume.open' ⟨⟨0, volumeFormatVersion, volumeDefaultDataFileSize, 0, 1, 1⟩, .empty, .empty,
    .empty⟩ fun _ _ => 0

theorem initial_init : (volume blake3).Init initial := by
  have ran : initFs volumeDefaultDataFileSize 1 = .ok initial.db := by decide +kernel
  exact ⟨_, _, .created ran, rfl⟩

/-- A call of `put_chunk` that runs to its end, as the call of the given number. -/
def stored (call : Nat) (chunkId : HashId) (rawLen : Nat) (bytes : Bytes) : List VolumeEvent :=
  [.putChunk chunkId rawLen bytes 1, .write call bytes.length, .storeChunk call]

/-- The state after a scenario, and a fact about it, both by computation. -/
theorem run_of_exec {α : Type} (events : List VolumeEvent) (f : Volume → α) (a : α)
    (computed : ((volume blake3).exec initial events).map f = some a) :
    ∃ ts v, (volume blake3).Run ts v ∧ f v = a := by
  obtain ⟨v, ends, value⟩ := Option.map_eq_some_iff.mp computed
  obtain ⟨ts, run, -⟩ := (System.Run.init initial_init).exec events ends
  exact ⟨ts, v, by simpa using run, value⟩

/-- The state after a scenario each of whose steps is admitted. -/
theorem run_of_execWhile {α : Type} (admits : Volume → VolumeEvent → Bool)
    (events : List VolumeEvent) (f : Volume → α) (a : α)
    (computed : ((volume blake3).execWhile admits initial events).map f = some a) :
    ∃ ts v, (volume blake3).Run ts v ∧ (∀ t ∈ ts, admits t.pre t.event) ∧ f v = a := by
  obtain ⟨v, ends, value⟩ := Option.map_eq_some_iff.mp computed
  obtain ⟨ts, run, admitted⟩ := (System.Run.init initial_init).execWhile events ends
  exact ⟨ts, v, by simpa using run, admitted, value⟩

end Volume.Scenario

end Fs0
