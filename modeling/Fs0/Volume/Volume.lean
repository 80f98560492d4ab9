import Fs0.Volume.Db
import Fs0.Lib.Extent
import Fs0.Lib.Transition

/-!
Contract: a volume as a system of calls that overlap.

Owns:
- the sections of `put_chunk`, `read_chunk` and `commit_bundle` under the lock of
  the database;
- the data files, and the calls that write to them and read from them;
- the events of a volume in any order, crashes among them, and what each call
  returned.

Does not own: what holds of the volume along its runs.
-/

set_option autoImplicit false

namespace Fs0

open Lib Fallible

/-! ## Sections -/

/-- `u64::div_ceil`. -/
def divCeil (value divisor : Nat) : Nat :=
  if value % divisor = 0 then value / divisor else value / divisor + 1

/-- How the first section of `put_chunk` ends. -/
inductive PutSection where
  | stored (existing : ChunkMeta)
  | reserved (insert : ChunkMeta)
deriving DecidableEq, Repr

namespace Volume

open VolumeDb

/-- `Volume::init_fs` in an empty directory. -/
def initFs (maxBytes now : Nat) : Fs0Result VolumeDb :=
  if maxBytes < volumeDefaultDataFileSize then
    .error (.invalidConfig "max_bytes must be at least 4GB")
  else VolumeDb.create ⟨0, volumeFormatVersion, maxBytes, 0, now, now⟩

/-- The tables `init_fs` and any number of `init_volume_id` leave behind. -/
inductive Initialised : VolumeTables → Prop where
  | created {maxBytes now : Nat} {db : VolumeDb} (ran : initFs maxBytes now = .ok db) :
      Initialised db.1
  | assigned {tables : VolumeTables} {volumeId now : Nat} {known : VolumeMeta} {db : VolumeDb}
      (before : Initialised tables)
      (ran : assignVolumeId volumeId now (VolumeDb.open' tables) = .ok known db) :
      Initialised db.1

/-- Where `put_chunk` wants to write. -/
def chunkOffset (activeVolumeOffset compressedLen : Nat) : Nat :=
  if volumeDefaultDataFileSize <
      wrappingAdd (activeVolumeOffset % volumeDefaultDataFileSize) compressedLen then
    wrappingMul (wrappingAdd (activeVolumeOffset / volumeDefaultDataFileSize) 1)
      volumeDefaultDataFileSize
  else activeVolumeOffset

/-- The reservation of `put_chunk`, for a chunk that is not stored. -/
def reserveChunk (now : Nat) (chunkId compressedHash : HashId) (rawLen compressedLen : Nat) :
    VolumeM PutSection := do
  let known ← volumeMeta
  let volumeOffset := chunkOffset known.activeVolumeOffset compressedLen
  let nextActiveOffset ← lift (okOr (checkedAdd volumeOffset compressedLen)
    (.integerConversion "volume offset overflow"))
  require (nextActiveOffset ≤ known.maxBytes) (.capacityExceeded nextActiveOffset known.maxBytes)
  let _ ← reserveActiveVolumeOffset nextActiveOffset now
  pure (.reserved ⟨chunkId, compressedHash, volumeOffset, rawLen, compressedLen⟩)

/-- The checks of `put_chunk` before it takes the lock. -/
def checkChunk (rawLen : Nat) (compressedBytes : Bytes) : Fs0Result Unit :=
  if rawLen = 0 then .error (.invalidData "raw_len must be greater than zero")
  else if compressedBytes = [] then .error (.invalidData "compressed_bytes cannot be empty")
  else if volumeDefaultDataFileSize < compressedBytes.length then
    .error (.invalidData <| s!"compressed chunk length {compressedBytes.length} exceeds " ++
      s!"data file size {volumeDefaultDataFileSize}")
  else .ok ()

/-- The first section of `put_chunk`. -/
def putChunk (blake3 : Bytes → HashId) (now : Nat) (chunkId : HashId) (rawLen : Nat)
    (compressedBytes : Bytes) : VolumeM PutSection := do
  lift (checkChunk rawLen compressedBytes)
  let compressedLen := compressedBytes.length
  let compressedHash := blake3 compressedBytes
  match ← attempt (loadChunk chunkId) with
  | .ok existing =>
      require (existing.rawLen = rawLen ∧ existing.compressedLen = compressedLen ∧
        existing.compressedHash = compressedHash) (.hashMismatch existing.volumeOffset)
      pure (.stored existing)
  | .error (.chunkNotFound _) => reserveChunk now chunkId compressedHash rawLen compressedLen
  | .error err => throw err

/-- The last section of `put_chunk`. -/
def storeChunk (insert : ChunkMeta) : VolumeM ChunkMeta := do
  insertChunk insert
  loadChunk insert.chunkId

/-- The indexes of the chunks count up from a given one. -/
def contiguousFrom : Nat → List BundleChunkRef → Bool
  | _, [] => true
  | expected, chunk :: rest => chunk.chunkIndex == expected && contiguousFrom (expected + 1) rest

/-- The checks of `commit_bundle` before it takes the lock. -/
def checkBundle (blake3 : Bytes → HashId) (bundleId : HashId) (chunks : List BundleChunkRef) :
    Fs0Result Unit :=
  if chunks = [] then .error (.invalidData "bundle must contain at least one chunk")
  else if contiguousFrom 0 chunks = false then
    .error (.invalidData "bundle chunk indexes must be contiguous")
  else if bundleHashFromChunks blake3 chunks ≠ bundleId then
    .error (.invalidData "bundle id does not match committed chunk ids")
  else .ok ()

/-- Fails for the first chunk that was not loaded. -/
def requireLoaded (loaded : List ChunkMeta) : List BundleChunkRef → Fs0Result Unit
  | [] => .ok ()
  | chunk :: rest =>
      if ∃ known ∈ loaded, known.chunkId = chunk.chunkId then requireLoaded loaded rest
      else .error (.chunkNotFound chunk.chunkId)

def commitBundle (blake3 : Bytes → HashId) (commit : Option Fs0Error) (bundleId : HashId)
    (chunks : List BundleChunkRef) : VolumeM BundleMeta := do
  lift (checkBundle blake3 bundleId chunks)
  match ← attempt (loadBundle bundleId) with
  | .ok existing => pure existing
  | .error (.bundleNotFound _) =>
      let loaded ← loadChunksByIds (chunks.map BundleChunkRef.chunkId)
      lift (requireLoaded loaded chunks)
      VolumeDb.commitBundle commit bundleId chunks
  | .error err => throw err

def listBundleChunks (bundleId : HashId) : VolumeM (List BundleChunkRef) := do
  let chunks ← VolumeDb.listBundleChunks bundleId
  require (chunks ≠ []) (.bundleNotFound bundleId)
  pure chunks

end Volume

/-! ## Data files -/

/-- The bytes of the data files, by the index of a file and an offset in it. -/
abbrev DataFiles := Nat → Nat → UInt8

namespace DataFiles

/-- Writes consecutive bytes of one file. -/
def writeAt (files : DataFiles) (index offset : Nat) (bytes : Bytes) : DataFiles := fun file =>
  if file = index then overwrite (files file) offset bytes else files file

/-- Reads consecutive bytes of one file. -/
def readAt (files : DataFiles) (index offset len : Nat) : Bytes := slice (files index) offset len

end DataFiles

namespace ChunkMeta

def fileIndex (chunk : ChunkMeta) : Nat := chunk.volumeOffset / volumeDefaultDataFileSize

def fileOffset (chunk : ChunkMeta) : Nat := chunk.volumeOffset % volumeDefaultDataFileSize

/-- The bytes the data files hold in the range of a chunk. -/
def content (chunk : ChunkMeta) (files : DataFiles) : Bytes :=
  files.readAt chunk.fileIndex chunk.fileOffset chunk.compressedLen

/-- The range of a chunk in the volume. -/
def extent (chunk : ChunkMeta) : Extent := ⟨chunk.volumeOffset, chunk.compressedLen⟩

end ChunkMeta

/-! ## Calls -/

/-- A call of `put_chunk` between its reservation and its insertion. -/
structure PutCall where
  call : Nat
  insert : ChunkMeta
  bytes : Bytes
  /-- How many bytes the data file has taken. -/
  written : Nat
deriving DecidableEq

/-- A call of `read_chunk` that has loaded its row. -/
structure ReadCall where
  call : Nat
  chunk : ChunkMeta
  got : Bytes
deriving DecidableEq

/-- What a call returned. -/
inductive VolumeReturn where
  | putChunk (chunkId : HashId) (rawLen : Nat) (compressedBytes : Bytes)
      (result : Fs0Result ChunkMeta)
  | readChunk (chunkId : HashId) (result : Fs0Result (ChunkMeta × Bytes))
  | commitBundle (bundleId : HashId) (chunks : List BundleChunkRef)
      (result : Fs0Result BundleMeta)
  | deleteChunk (chunkId : HashId) (result : Fs0Result Unit)
  | deleteBundle (bundleId : HashId) (result : Fs0Result Unit)
  | removeBundleChangeRecords (maxEventId : Nat) (result : Fs0Result Unit)
deriving DecidableEq

/-- A volume that is open. -/
structure Volume where
  db : VolumeDb
  files : DataFiles
  /-- The number of slots of the data file cache. -/
  slots : Nat
  puts : SeqTable PutCall.call
  reads : SeqTable ReadCall.call
  /-- The calls whose insertion created a row, newest first. -/
  inserted : List PutCall
  /-- What the calls returned, newest first. -/
  returns : List VolumeReturn

inductive VolumeEvent where
  | putChunk (chunkId : HashId) (rawLen : Nat) (compressedBytes : Bytes) (now : Nat)
  /-- The operating system takes some of the bytes of a call. -/
  | write (call count : Nat)
  | failWrite (call : Nat) (err : Fs0Error)
  | storeChunk (call : Nat)
  | readChunk (chunkId : HashId)
  /-- The operating system gives some of the bytes of a chunk. -/
  | read (call count : Nat)
  | failRead (call : Nat) (err : Fs0Error)
  | endRead (call : Nat)
  | deleteChunk (chunkId : HashId)
  | commitBundle (bundleId : HashId) (chunks : List BundleChunkRef) (commit : Option Fs0Error)
  | deleteBundle (bundleId : HashId) (commit : Option Fs0Error)
  | removeBundleChangeRecords (maxEventId : Nat)
  /-- The process crashes and opens the volume again. The ranges that were being
  written hold anything. -/
  | reopen (torn : DataFiles)

namespace Volume

/-- `Volume::open`. -/
def open' (tables : VolumeTables) (files : DataFiles) : Volume where
  db := VolumeDb.open' tables
  files := files
  slots := divCeil tables.volumeMeta.maxBytes volumeDefaultDataFileSize
  puts := .empty
  reads := .empty
  inserted := []
  returns := []

def tables (v : Volume) : VolumeTables := v.db.1

def returned (v : Volume) (r : VolumeReturn) : Volume := { v with returns := r :: v.returns }

def endPut (v : Volume) (put : PutCall) (result : Fs0Result ChunkMeta) : Volume :=
  { v with puts := v.puts.delete fun other => other.call == put.call }.returned
    (.putChunk put.insert.chunkId put.insert.rawLen put.bytes result)

def endRead (v : Volume) (read : ReadCall) (result : Fs0Result (ChunkMeta × Bytes)) : Volume :=
  { v with reads := v.reads.delete fun other => other.call == read.call }.returned
    (.readChunk read.chunk.chunkId result)

/-- A call that is over after one section. -/
def ran {α : Type} (v : Volume) (result : EStateM.Result Fs0Error VolumeDb α)
    (r : Fs0Result α → VolumeReturn) : Volume :=
  { v with db := endState result }.returned (r (outcome result))

/-- A byte in the range of a call that has not inserted its row. -/
def Writing (v : Volume) (file offset : Nat) : Prop :=
  ∃ put ∈ v.puts.rows, put.insert.fileIndex = file ∧ put.insert.fileOffset ≤ offset ∧
    offset < put.insert.fileOffset + put.insert.compressedLen

instance (v : Volume) (file offset : Nat) : Decidable (v.Writing file offset) :=
  inferInstanceAs (Decidable (∃ put ∈ v.puts.rows, _))

def reopen (v : Volume) (torn : DataFiles) : Volume :=
  { v with
    db := VolumeDb.open' v.tables
    files := fun file offset =>
      if v.Writing file offset then torn file offset else v.files file offset
    slots := divCeil v.tables.volumeMeta.maxBytes volumeDefaultDataFileSize
    puts := v.puts.delete fun _ => true
    reads := v.reads.delete fun _ => true }

def step (blake3 : Bytes → HashId) (v : Volume) : VolumeEvent → Option Volume
  | .putChunk chunkId rawLen compressedBytes now =>
      match putChunk blake3 now chunkId rawLen compressedBytes v.db with
      | .ok (.stored existing) db =>
          some ({ v with db := db }.returned
            (.putChunk chunkId rawLen compressedBytes (.ok existing)))
      | .ok (.reserved insert) db =>
          some { v with
            db := db
            puts := v.puts.push (fun call => ⟨call, insert, compressedBytes, 0⟩) fun _ => rfl }
      | .error err db =>
          some ({ v with db := db }.returned
            (.putChunk chunkId rawLen compressedBytes (.error err)))
  | .write call count =>
      (v.puts.find? call).bind fun put =>
        if 0 < count ∧ put.written + count ≤ put.bytes.length ∧
            put.insert.fileIndex < v.slots then
          some { v with
            files := v.files.writeAt put.insert.fileIndex (put.insert.fileOffset + put.written)
              ((put.bytes.drop put.written).take count)
            puts := v.puts.replace { put with written := put.written + count } }
        else none
  | .failWrite call err => (v.puts.find? call).map fun put => v.endPut put (.error err)
  | .storeChunk call =>
      (v.puts.find? call).bind fun put =>
        if put.written = put.bytes.length then
          let result := storeChunk put.insert v.db
          let inserts := (v.tables.chunks.find? put.insert.chunkId).isNone ∧
            ((endState result).1.chunks.find? put.insert.chunkId).isSome
          some ({ v with
            db := endState result
            inserted := if inserts then put :: v.inserted else v.inserted }.endPut put
              (outcome result))
        else none
  | .readChunk chunkId =>
      match VolumeDb.loadChunk chunkId v.db with
      | .ok chunk _ =>
          some { v with reads := v.reads.push (fun call => ⟨call, chunk, []⟩) fun _ => rfl }
      | .error err _ => some (v.returned (.readChunk chunkId (.error err)))
  | .read call count =>
      (v.reads.find? call).bind fun read =>
        if 0 < count ∧ read.got.length + count ≤ read.chunk.compressedLen ∧
            read.chunk.fileIndex < v.slots then
          some { v with
            reads := v.reads.replace { read with
              got := read.got ++ v.files.readAt read.chunk.fileIndex
                (read.chunk.fileOffset + read.got.length) count } }
        else none
  | .failRead call err => (v.reads.find? call).map fun read => v.endRead read (.error err)
  | .endRead call =>
      (v.reads.find? call).bind fun read =>
        if read.got.length = read.chunk.compressedLen then
          some (v.endRead read (.ok (read.chunk, read.got)))
        else none
  | .deleteChunk chunkId =>
      some (v.ran (VolumeDb.deleteChunk chunkId v.db) (.deleteChunk chunkId))
  | .commitBundle bundleId chunks commit =>
      some (v.ran (commitBundle blake3 commit bundleId chunks v.db) (.commitBundle bundleId chunks))
  | .deleteBundle bundleId commit =>
      some (v.ran (VolumeDb.deleteBundle commit bundleId v.db) (.deleteBundle bundleId))
  | .removeBundleChangeRecords maxEventId =>
      some (v.ran (VolumeDb.removeBundleChangeRecords maxEventId v.db)
        (.removeBundleChangeRecords maxEventId))
  | .reopen torn => some (v.reopen torn)

end Volume

/-- A volume, from its initialisation on. -/
def volume (blake3 : Bytes → HashId) : System Volume VolumeEvent where
  Init v := ∃ tables files, Volume.Initialised tables ∧ v = Volume.open' tables files
  step := Volume.step blake3

end Fs0
