import Fs0.Central.Handler
import Fs0.Lib.Transition

/-!
Contract: the storages a connected client knows of, and how central keeps it told.

Owns:
- what the event listener of a client does with an event;
- `register_storage` and `unregister_storage`, and the events they broadcast;
- the messages on their way to one client, each on a stream of its own;
- the system of central and the client under any order of their steps.

Does not own: what the client does with a storage.
-/

set_option autoImplicit false

namespace Fs0

open Lib Fallible

inductive ProtocolEvent where
  | storageChanged (peer : StoragePeerInfo)
  | storageRemoved (storageId : Nat)
deriving DecidableEq, Repr

/-! ## The client -/

namespace CentralSession

/-- Stores a peer in place of the one with its id, or at the end. -/
def storePeer (peer : StoragePeerInfo) : List StoragePeerInfo → List StoragePeerInfo
  | [] => [peer]
  | storage :: rest =>
      if storage.storageId = peer.storageId then peer :: rest else storage :: storePeer peer rest

/-- `sort_by_key` on the storage id. -/
def sortPeers (storages : List StoragePeerInfo) : List StoragePeerInfo :=
  storages.insertionSort fun left right => left.storageId ≤ right.storageId

/-- The handler of `spawn_event_listener`. -/
def applyEvent (storages : List StoragePeerInfo) : ProtocolEvent → List StoragePeerInfo
  | .storageChanged peer => sortPeers (storePeer peer storages)
  | .storageRemoved storageId => storages.filter fun storage => storage.storageId ≠ storageId

/-- `storage_peer`. -/
def storagePeer (storages : List StoragePeerInfo) (storageId : Nat) : Option StoragePeerInfo :=
  storages.find? fun storage => storage.storageId = storageId

end CentralSession

/-! ## Central -/

/-- `storage_peers_snapshot`. -/
def CentralServer.storagePeersSnapshot (server : CentralServer) : List StoragePeerInfo :=
  CentralSession.sortPeers (server.storages.rows.map StorageControlConnection.peer)

theorem storagePeersSnapshot_apply (server : CentralServer) :
    CentralM.storagePeersSnapshot server = .ok server.storagePeersSnapshot server := rfl

/-- `register_storage`, without its snapshot. -/
def Registration.registerStorage (config : CentralConfig) (commit : Option Fs0Error)
    (name token : String) (volumes : List StorageVolumeInfo) (irohEndpoint : Bytes)
    (connection : Nat) : CentralM Nat := do
  require (config.tokenAllowed token) .unauthorized
  let volumes ← CentralM.transact commit (Registration.registerVolumes volumes)
  let storageId ← CentralM.nextId
  Registration.mountVolumes ⟨storageId, name, volumes, irohEndpoint⟩
  Registration.insertStorage ⟨storageId, name, volumes, irohEndpoint⟩ connection
  pure storageId

/-- `update_storage_volume_offset`. -/
def StorageRequest.updateStorageVolumeOffset (commit : Option Fs0Error)
    (storageId volumeId maxVolumeOffset : Nat) : CentralM ControlResponse := do
  let registered ← CentralM.transact commit (CentralTx.updateVolumeOffset volumeId maxVolumeOffset)
  StorageRequest.storeVolumeOffset storageId volumeId registered

/-- `unregister_storage`. -/
def CentralServer.unregisterStorage (storageId : Nat) (server : CentralServer) : CentralServer :=
  (server.removeStorage storageId).unmountStorage storageId

/-! ## The messages to one client -/

inductive FeedPayload where
  | event (event : ProtocolEvent)
  /-- The reply to `RegisterClient`. -/
  | registered (storages : List StoragePeerInfo)
  /-- A reply to `CentralStatus`. -/
  | status (storages : List StoragePeerInfo)
deriving DecidableEq, Repr

structure FeedMessage where
  messageId : Nat
  payload : FeedPayload
deriving DecidableEq, Repr

/-- Where the registration of the client stands. -/
inductive ClientPhase where
  | unregistered
  /-- Central lists the client, and has not taken the snapshot of its reply. -/
  | inserted
  | replied
  /-- The client has the reply and listens to events. -/
  | listening
deriving DecidableEq, Repr

/-- Central, a client, and the messages between them. -/
structure PeerFeed where
  server : CentralServer
  /-- The storages whose last change is still to be broadcast. -/
  unannounced : List Nat
  client : ClientPhase
  messages : SeqTable FeedMessage.messageId
  storages : List StoragePeerInfo

inductive PeerFeedEvent where
  | registerStorage (commit : Option Fs0Error) (name token : String)
      (volumes : List StorageVolumeInfo) (irohEndpoint : Bytes) (connection : Nat)
  | updateStorageEndpoint (storageId : Nat) (irohEndpoint : Bytes)
  | updateStorageVolumeOffset (commit : Option Fs0Error) (storageId volumeId maxVolumeOffset : Nat)
  | createVolume (commit : Option Fs0Error) (name : String) (maxBytes : Nat)
  | unregisterStorage (storageId : Nat)
  /-- The broadcast of a change reaches the connection of the client. -/
  | broadcast (storageId : Nat)
  | insertClient
  | clientInserted
  | centralStatus
  | deliver (messageId : Nat)
  | loseStatus (messageId : Nat)

namespace PeerFeed

def send (s : PeerFeed) (payload : FeedPayload) : PeerFeed :=
  { s with messages := s.messages.push (fun messageId => ⟨messageId, payload⟩) fun _ => rfl }

/-- What a broadcast about a storage says. -/
def eventOf (server : CentralServer) (storageId : Nat) : ProtocolEvent :=
  match server.storages.find? storageId with
  | some storage => .storageChanged storage.peer
  | none => .storageRemoved storageId

/-- `broadcast_event`, as far as it concerns the client. -/
def broadcast (s : PeerFeed) (storageId : Nat) : PeerFeed :=
  let announced :=
    { s with unannounced := s.unannounced.filter fun other => other ≠ storageId }
  if s.client = .unregistered then announced
  else announced.send (.event (eventOf s.server storageId))

/-- The message leaves its stream. -/
def take (s : PeerFeed) (messageId : Nat) : PeerFeed :=
  { s with messages := s.messages.delete fun message => message.messageId == messageId }

/-- The task of a message processes it. -/
def deliver (s : PeerFeed) (message : FeedMessage) : Option PeerFeed :=
  match message.payload with
  | .event event =>
      if s.client = .listening then
        some { s.take message.messageId with
          storages := CentralSession.applyEvent s.storages event }
      else none
  | .registered storages =>
      some { s.take message.messageId with storages := storages, client := .listening }
  | .status storages =>
      if s.client = .listening then
        some { s.take message.messageId with storages := storages }
      else none

/-- The lock of its identity keeps a storage waiting until its last change is broadcast. -/
def step (config : CentralConfig) (s : PeerFeed) : PeerFeedEvent → Option PeerFeed
  | .registerStorage commit name token volumes irohEndpoint connection =>
      match Registration.registerStorage config commit name token volumes irohEndpoint connection
        s.server with
      | .ok storageId server =>
          some { s with server := server, unannounced := storageId :: s.unannounced }
      | .error _ server => some { s with server := server }
  | .updateStorageEndpoint storageId irohEndpoint =>
      if storageId ∈ s.unannounced then none
      else match StorageRequest.updateStorageEndpoint storageId irohEndpoint s.server with
        | .ok _ server =>
            some { s with server := server, unannounced := storageId :: s.unannounced }
        | .error _ server => some { s with server := server }
  | .updateStorageVolumeOffset commit storageId volumeId maxVolumeOffset =>
      let result :=
        StorageRequest.updateStorageVolumeOffset commit storageId volumeId maxVolumeOffset s.server
      some { s with server := endState result }
  | .createVolume commit name maxBytes =>
      some { s with server := endState (StorageRequest.createVolume commit name maxBytes s.server) }
  | .unregisterStorage storageId =>
      match s.server.storages.find? storageId with
      | some _ => some { s with
          server := s.server.unregisterStorage storageId
          unannounced := storageId :: s.unannounced }
      | none => some { s with server := s.server.unregisterStorage storageId }
  | .broadcast storageId => if storageId ∈ s.unannounced then some (s.broadcast storageId) else none
  | .insertClient =>
      if s.client = .unregistered then some { s with client := .inserted } else none
  | .clientInserted =>
      if s.client = .inserted then
        some { s.send (.registered s.server.storagePeersSnapshot) with client := .replied }
      else none
  | .centralStatus =>
      if s.client = .listening then some (s.send (.status s.server.storagePeersSnapshot)) else none
  | .deliver messageId => (s.messages.find? messageId).bind s.deliver
  | .loseStatus messageId =>
      match (s.messages.find? messageId).map FeedMessage.payload with
      | some (.status _) => some (s.take messageId)
      | _ => none

/-- Central on a database it has opened, without storages, and a client to come. -/
def Initial (s : PeerFeed) : Prop :=
  ∃ db, s = ⟨CentralServer.run db, [], .unregistered, .empty, []⟩

end PeerFeed

/-- Central and a client under any order of their steps. -/
def peerFeed (config : CentralConfig) : System PeerFeed PeerFeedEvent where
  Init := PeerFeed.Initial
  step := PeerFeed.step config

end Fs0
