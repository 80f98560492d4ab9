import Fs0.Volume.Volume

/-!
Contract: the data requests of a storage on one of its volumes.

Owns:
- `has_bundle` and its checked sums;
- the checks of `upload_chunk` before it puts the chunk.

Does not own: the leases, and how requests interleave.
-/

set_option autoImplicit false

namespace Fs0

open Lib Fallible

namespace Storage

open VolumeDb

/-! ## Has bundle -/

/-- The loop of `has_bundle` over the chunks of a bundle. -/
def addChunkLens : List BundleChunkRef → Nat → Nat → VolumeM (Nat × Nat)
  | [], rawLen, compressedLen => pure (rawLen, compressedLen)
  | chunk :: rest, rawLen, compressedLen => do
      let known ← loadChunk chunk.chunkId
      let rawLen ← lift (okOr (checkedAdd rawLen known.rawLen)
        (.integerConversion "bundle raw_len overflow"))
      let compressedLen ← lift (okOr (checkedAdd compressedLen known.compressedLen)
        (.integerConversion "bundle compressed_len overflow"))
      addChunkLens rest rawLen compressedLen

/-- `has_bundle` on the volume of the request. -/
def hasBundle (bundleId : HashId) : VolumeM DataResponse := do
  match ← attempt (Volume.listBundleChunks bundleId) with
  | .ok chunks =>
      let (rawLen, compressedLen) ← addChunkLens chunks 0 0
      pure (.hasBundle true (some rawLen) (some compressedLen))
  | .error (.bundleNotFound _) => pure (.hasBundle false none none)
  | .error err => throw err

/-! ## Upload chunk -/

/-- `check_hash_before_write`: the bytes decompress to the chunk they are named after. -/
def checkHash (blake3 : Bytes → HashId) (zstdDecompress : Bytes → Nat → Fs0Result Bytes)
    (request : UploadChunkRequest) : Fs0Result Unit := do
  let raw ← zstdDecompress request.compressedBytes request.rawLen
  if raw.length ≠ request.rawLen then
    .error (.invalidData <| s!"decompressed chunk length {raw.length} does not match raw_len " ++
      s!"{request.rawLen}")
  else if blake3 raw ≠ request.chunkId then .error (.hashMismatch 0)
  else .ok ()

end Storage

end Fs0
