import Fs0.Core.Types

/-!
Contract: the protocol records exchanged by clients, central and storages.

Owns: the request, response and event records, and the bundle hash over a chunk
list.

Does not own: their wire encoding.
-/

set_option autoImplicit false

namespace Fs0

structure BundleChunkRef where
  chunkIndex : Nat
  chunkId : HashId
deriving DecidableEq, Repr

/-- `bundle_hash_from_chunks`: the hash of the concatenated chunk ids. -/
def bundleHashFromChunks (blake3 : Bytes → HashId) (chunks : List BundleChunkRef) : HashId :=
  blake3 (chunks.flatMap fun chunk => chunk.chunkId.bytes)

/-! ## Storage requests -/

structure UploadChunkRequest where
  leaseId : Nat
  fileId : Nat
  volumeId : Nat
  chunkId : HashId
  rawLen : Nat
  compressedBytes : Bytes
deriving DecidableEq, Repr

structure DownloadChunkRequest where
  volumeId : Nat
  chunkId : HashId
deriving DecidableEq, Repr

structure CommitBundleRequest where
  leaseId : Nat
  fileId : Nat
  volumeId : Nat
  bundleId : HashId
  chunks : List BundleChunkRef
deriving DecidableEq, Repr

structure UploadChunkResponse where
  chunkId : HashId
  rawLen : Nat
  compressedLen : Nat
deriving DecidableEq, Repr

structure CommitBundleResponse where
  bundleId : HashId
  rawLen : Nat
  compressedLen : Nat
deriving DecidableEq, Repr

/-- The responses of the data requests that carry one. -/
inductive DataResponse where
  | hasChunk (exists' : Bool) (rawLen compressedLen : Option Nat)
  | uploadChunk (response : UploadChunkResponse)
  | downloadChunk (compressedBytes : Bytes)
  | hasBundle (exists' : Bool) (rawLen compressedLen : Option Nat)
  | commitBundle (response : CommitBundleResponse)
  | listBundleChunks (chunks : List BundleChunkRef)
deriving DecidableEq, Repr

/-! ## Read plans -/

structure ReplicaLocation where
  storageId : Nat
  volumeId : Nat
deriving DecidableEq, Repr

structure FileBundleRef where
  bundleIndex : Nat
  rawLen : Nat
  compressedLen : Nat
  bundleId : HashId
  replicas : List ReplicaLocation
deriving DecidableEq, Repr

structure FileReadPlan where
  fileId : Nat
  path : String
  size : Nat
  bundles : List FileBundleRef
deriving DecidableEq, Repr

structure StorageVolumeInfo where
  volumeId : Nat
  name : String
  maxBytes : Nat
  maxVolumeOffset : Nat
  readOnly : Bool
deriving DecidableEq, Repr

structure StoragePeerInfo where
  storageId : Nat
  name : String
  volumes : List StorageVolumeInfo
  irohEndpoint : Bytes
deriving DecidableEq, Repr

structure FileRecord where
  fileId : Nat
  path : String
  sizeBytes : Nat
  compressedSizeBytes : Nat
  createdAtMs : Nat
  updatedAtMs : Nat
deriving DecidableEq, Repr

/-! ## Updates -/

structure BeginUpdateRequest where
  path : String
  offset : Nat
  preferVolumeName : Option String
  updateSizeHint : Option Nat
deriving DecidableEq, Repr

structure UpdateLease where
  leaseId : Nat
  fileId : Nat
  volumeId : Nat
  baseSize : Nat
  offset : Nat
  expiresAtMs : Nat
  preferVolumeName : Option String
deriving DecidableEq, Repr

structure GrantUploadLeaseRequest where
  leaseId : Nat
  fileId : Nat
  volumeId : Nat
  baseSize : Nat
  expiresAtMs : Nat
  preferVolumeName : Option String
deriving DecidableEq, Repr

structure CommittedBundle where
  bundleId : HashId
  rawLen : Nat
  compressedLen : Nat
deriving DecidableEq, Repr

structure CommitUpdateRequest where
  leaseId : Nat
  fileId : Nat
  baseSize : Nat
  newSize : Nat
  bundles : List CommittedBundle
deriving DecidableEq, Repr

/-! ## Reports and change logs -/

inductive BundleReplicaEventKind where
  | stored
  | deleted
deriving DecidableEq, Repr

structure BundleReplicaEvent where
  eventId : Nat
  kind : BundleReplicaEventKind
  volumeId : Nat
  bundleId : HashId
  rawLen : Option Nat
  compressedLen : Option Nat
deriving DecidableEq, Repr

inductive FileChangeLogKind where
  | created
  | updated
  | moved
  | deleted
deriving DecidableEq, Repr

end Fs0
