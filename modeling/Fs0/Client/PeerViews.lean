import Mathlib.Data.List.Sort
import Fs0.Central.Transactions
import Fs0.Central.MountSteps
import Fs0.Client.StoragePeers
import Fs0.Lib.Feed

/-!
Contract: the storages a client lists are those central has registered.

Owns:
- lookups in the sorted lists of both sides, before and after an event;
- what central tells of the volumes of a storage, and that only offsets change;
- that central and a client are a feed, and that the lists agree once every message
  has arrived, if no event overtakes an older message that contradicts it;
- a run in which a removal overtakes the registration it follows.

Does not own: the storages a client keeps sessions with.
-/

set_option autoImplicit false

namespace Fs0

open Lib Fallible CentralSession

/-! ## What is told of a storage -/

/-- A peer without what its volumes have been written up to. -/
def StoragePeerInfo.withoutOffsets (peer : StoragePeerInfo) : StoragePeerInfo :=
  { peer with volumes := peer.volumes.map fun volume => { volume with maxVolumeOffset := 0 } }

/-- The storage an event is about. -/
def ProtocolEvent.storageId : ProtocolEvent → Nat
  | .storageChanged peer => peer.storageId
  | .storageRemoved storageId => storageId

/-- What an event tells of its storage. -/
def ProtocolEvent.told : ProtocolEvent → Option StoragePeerInfo
  | .storageChanged peer => some peer.withoutOffsets
  | .storageRemoved _ => none

/-- What a list tells of a storage. -/
def told (storages : List StoragePeerInfo) (storageId : Nat) : Option StoragePeerInfo :=
  (storagePeer storages storageId).map StoragePeerInfo.withoutOffsets

/-! ## Sorted lists of peers -/

/-- Sorted by id, each id once. -/
def Ordered (storages : List StoragePeerInfo) : Prop :=
  storages.Pairwise fun left right => left.storageId < right.storageId

variable {storages : List StoragePeerInfo} {peer : StoragePeerInfo} {storageId : Nat}

theorem Ordered.nodup (ordered : Ordered storages) :
    (storages.map StoragePeerInfo.storageId).Nodup :=
  List.pairwise_map.mpr (ordered.imp fun below => Nat.ne_of_lt below)

theorem storagePeer_eq_some (nodup : (storages.map StoragePeerInfo.storageId).Nodup) :
    storagePeer storages storageId = some peer ↔
      peer ∈ storages ∧ peer.storageId = storageId :=
  Table.find?_eq_some (t := (⟨storages, nodup⟩ : Table StoragePeerInfo.storageId))

/-- A lookup in a list without repetitions does not depend on its order. -/
theorem storagePeer_congr {others : List StoragePeerInfo}
    (nodup : (storages.map StoragePeerInfo.storageId).Nodup) (perm : others.Perm storages) :
    storagePeer others storageId = storagePeer storages storageId := by
  apply Option.ext
  intro peer
  rw [storagePeer_eq_some nodup,
    storagePeer_eq_some ((perm.map StoragePeerInfo.storageId).nodup_iff.mpr nodup), perm.mem_iff]

/-- Two sorted lists with the same lookups are the same list. -/
theorem Ordered.eq_of_storagePeer {left right : List StoragePeerInfo} (leftOrdered : Ordered left)
    (rightOrdered : Ordered right)
    (same : ∀ storageId, storagePeer left storageId = storagePeer right storageId) :
    left = right := by
  have irrefl : Std.Irrefl fun left right : StoragePeerInfo => left.storageId < right.storageId :=
    ⟨fun peer => Nat.lt_irrefl peer.storageId⟩
  apply List.Pairwise.eq_of_mem_iff leftOrdered rightOrdered
  intro peer
  have leftIff : storagePeer left peer.storageId = some peer ↔ _ :=
    storagePeer_eq_some leftOrdered.nodup
  have rightIff : storagePeer right peer.storageId = some peer ↔ _ :=
    storagePeer_eq_some rightOrdered.nodup
  rw [same, rightIff] at leftIff
  simpa using leftIff.symm

theorem sortPeers_perm (storages : List StoragePeerInfo) : (sortPeers storages).Perm storages :=
  List.perm_insertionSort _ storages

theorem sortPeers_ordered (nodup : (storages.map StoragePeerInfo.storageId).Nodup) :
    Ordered (sortPeers storages) := by
  have total : Std.Total fun left right : StoragePeerInfo => left.storageId ≤ right.storageId :=
    ⟨fun left right => Nat.le_total left.storageId right.storageId⟩
  have trans : IsTrans StoragePeerInfo fun left right => left.storageId ≤ right.storageId :=
    ⟨fun _ _ _ first second => Nat.le_trans first second⟩
  have sorted : (sortPeers storages).Pairwise fun left right => left.storageId ≤ right.storageId :=
    List.pairwise_insertionSort _ storages
  have distinct := List.pairwise_map.mp
    (((sortPeers_perm storages).map StoragePeerInfo.storageId).nodup_iff.mpr nodup)
  exact (sorted.and distinct).imp fun both => Nat.lt_of_le_of_ne both.1 both.2

theorem storePeer_mem (storages : List StoragePeerInfo) {storage : StoragePeerInfo}
    (member : storage ∈ storePeer peer storages) : storage = peer ∨ storage ∈ storages := by
  induction storages with
  | nil => exact .inl (List.mem_singleton.mp member)
  | cons head rest inductionHypothesis =>
      unfold storePeer at member
      split at member
      · exact (List.mem_cons.mp member).imp_right fun later => List.mem_cons_of_mem _ later
      · rcases List.mem_cons.mp member with rfl | later
        · exact .inr List.mem_cons_self
        · exact (inductionHypothesis later).imp_right fun old => List.mem_cons_of_mem _ old

theorem storePeer_nodup (nodup : (storages.map StoragePeerInfo.storageId).Nodup) :
    ((storePeer peer storages).map StoragePeerInfo.storageId).Nodup := by
  induction storages with
  | nil => exact List.nodup_singleton _
  | cons head rest inductionHypothesis =>
      obtain ⟨fresh, restNodup⟩ := List.nodup_cons.mp nodup
      unfold storePeer
      split
      next same =>
        rw [List.map_cons, ← same]
        exact nodup
      next other =>
        refine List.nodup_cons.mpr ⟨fun among => ?_, inductionHypothesis restNodup⟩
        obtain ⟨storage, member, same⟩ := List.mem_map.mp among
        rcases storePeer_mem rest member with rfl | old
        · exact other same.symm
        · exact fresh (List.mem_map.mpr ⟨storage, old, same⟩)

theorem storagePeer_storePeer (storages : List StoragePeerInfo) (peer : StoragePeerInfo)
    (storageId : Nat) :
    storagePeer (storePeer peer storages) storageId =
      if storageId = peer.storageId then some peer else storagePeer storages storageId := by
  induction storages with
  | nil =>
      by_cases same : storageId = peer.storageId
      · simp [storePeer, storagePeer, same]
      · simp [storePeer, storagePeer, same, Ne.symm same]
  | cons head rest inductionHypothesis =>
      unfold storePeer
      split
      next isHead =>
        by_cases same : storageId = peer.storageId
        · simp [storagePeer, same]
        · simp [storagePeer, same, Ne.symm same, isHead]
      next other =>
        unfold storagePeer at inductionHypothesis ⊢
        by_cases isHead : head.storageId = storageId
        · have notPeer : storageId ≠ peer.storageId := fun same => other (isHead.trans same)
          simp [isHead, notPeer]
        · simpa [isHead] using inductionHypothesis

theorem applyEvent_ordered (ordered : Ordered storages) (event : ProtocolEvent) :
    Ordered (applyEvent storages event) := by
  cases event with
  | storageChanged peer => exact sortPeers_ordered (storePeer_nodup ordered.nodup)
  | storageRemoved removed => exact List.Pairwise.filter _ ordered

theorem told_applyEvent (ordered : Ordered storages) (event : ProtocolEvent) (storageId : Nat) :
    told (applyEvent storages event) storageId =
      if storageId = event.storageId then event.told else told storages storageId := by
  unfold told
  cases event with
  | storageChanged peer =>
      rw [applyEvent, storagePeer_congr (storePeer_nodup ordered.nodup) (sortPeers_perm _),
        storagePeer_storePeer]
      by_cases same : storageId = peer.storageId
      · rw [if_pos same, ProtocolEvent.storageId, if_pos same]
        rfl
      · rw [if_neg same, ProtocolEvent.storageId, if_neg same]
  | storageRemoved removed =>
      unfold storagePeer applyEvent
      rw [List.find?_filter]
      by_cases same : storageId = removed
      · rw [ProtocolEvent.storageId, if_pos same]
        simp [same, ProtocolEvent.told]
      · rw [ProtocolEvent.storageId, if_neg same]
        congr 2
        funext storage
        by_cases isStorage : storage.storageId = storageId
        · simp [isStorage, same]
        · simp [isStorage]

/-! ## What central tells of a volume -/

namespace CentralTables

/-- No volume is taken out or gets another name or limit. -/
def VolumesKept (before after : CentralTables) : Prop :=
  ∀ volumeId row, before.volumes.find? volumeId = some row →
    ∃ now, after.volumes.find? volumeId = some now ∧ now.name = row.name ∧
      now.maxBytes = row.maxBytes

/-- What is told of a volume is what the database holds, up to its offset. -/
def Describes (tables : CentralTables) (volume : StorageVolumeInfo) : Prop :=
  ∃ row, tables.volumes.find? volume.volumeId = some row ∧ row.name = volume.name ∧
    row.maxBytes = volume.maxBytes

variable {before mid after : CentralTables} {volume : StorageVolumeInfo}

theorem VolumesKept.refl (tables : CentralTables) : tables.VolumesKept tables :=
  fun _ row found => ⟨row, found, rfl, rfl⟩

theorem VolumesKept.trans (first : before.VolumesKept mid) (second : mid.VolumesKept after) :
    before.VolumesKept after := by
  intro volumeId row found
  obtain ⟨between, midFound, name, maxBytes⟩ := first volumeId row found
  obtain ⟨now, nowFound, nowName, nowMaxBytes⟩ := second volumeId between midFound
  exact ⟨now, nowFound, nowName.trans name, nowMaxBytes.trans maxBytes⟩

theorem Describes.kept (describes : before.Describes volume) (kept : before.VolumesKept after) :
    after.Describes volume := by
  obtain ⟨row, found, name, maxBytes⟩ := describes
  obtain ⟨now, nowFound, nowName, nowMaxBytes⟩ := kept _ row found
  exact ⟨now, nowFound, nowName.trans name, nowMaxBytes.trans maxBytes⟩

/-- Two descriptions of one volume differ in its offset only. -/
theorem Describes.agree {other : StorageVolumeInfo} (describes : before.Describes volume)
    (others : before.Describes other) (same : other.volumeId = volume.volumeId) :
    other.name = volume.name ∧ other.maxBytes = volume.maxBytes := by
  obtain ⟨row, found, name, maxBytes⟩ := describes
  obtain ⟨otherRow, otherFound, otherName, otherMaxBytes⟩ := others
  rw [same] at otherFound
  obtain rfl := Option.some.inj (found.symm.trans otherFound)
  exact ⟨otherName.symm.trans name, otherMaxBytes.symm.trans maxBytes⟩

end CentralTables

section Volumes

variable {db db' : CentralDb}

theorem updateVolumeOffset_kept {volumeId maxVolumeOffset : Nat} {info : StorageVolumeInfo}
    (ran : CentralTx.updateVolumeOffset volumeId maxVolumeOffset db = .ok info db') :
    db.1.VolumesKept db'.1 := by
  obtain ⟨-, rows, -⟩ := CentralTx.updateVolumeOffset_effect ran
  intro id row found
  obtain ⟨member, isRow⟩ := Table.mem_of_find? found
  refine ⟨CentralTx.offsetTo volumeId maxVolumeOffset row, ?_, ?_, ?_⟩
  · apply Table.find?_eq_some.mpr
    rw [rows]
    refine ⟨List.mem_map_of_mem member, ?_⟩
    rw [← isRow]
    unfold CentralTx.offsetTo
    split <;> rfl
  · unfold CentralTx.offsetTo
    split <;> rfl
  · unfold CentralTx.offsetTo
    split <;> rfl

theorem updateVolumeOffset_describes {volumeId maxVolumeOffset : Nat} {info : StorageVolumeInfo}
    (ran : CentralTx.updateVolumeOffset volumeId maxVolumeOffset db = .ok info db') :
    db'.1.Describes info ∧ info.volumeId = volumeId := by
  obtain ⟨-, -, row, found, rfl⟩ := CentralTx.updateVolumeOffset_effect ran
  have isRow := (Table.mem_of_find? found).2
  exact ⟨⟨row, by rw [← found, ← isRow]; rfl, rfl, rfl⟩, isRow⟩

/-- A volume that passes its checks is described by the database. -/
theorem registerVolume_describes {volume registered : StorageVolumeInfo}
    (ran : Registration.registerVolume volume db = .ok registered db') :
    db.1.VolumesKept db'.1 ∧ db'.1.Describes registered := by
  obtain ⟨known, db₁, found, rest⟩ := bind_eq_ok.mp ran
  obtain ⟨rfl, row, isRow, rfl⟩ := CentralTx.getVolume_eq_ok found
  have described : db₁.1.Describes { volume with name := row.name, maxBytes := row.maxBytes } :=
    ⟨row, isRow, rfl, rfl⟩
  dsimp only at rest
  split at rest
  · obtain ⟨updated, db₂, stored, rest⟩ := bind_eq_ok.mp rest
    have kept := updateVolumeOffset_kept stored
    obtain ⟨sameBytes, ended⟩ := require_bind_eq_ok.mp rest
    obtain ⟨rfl, rfl⟩ := EStateM.Result.ok.inj ended
    obtain ⟨now, nowFound, name, maxBytes⟩ := described.kept kept
    exact ⟨kept, now, nowFound, name, maxBytes.trans sameBytes⟩
  · obtain ⟨sameBytes, ended⟩ := require_bind_eq_ok.mp rest
    obtain ⟨rfl, rfl⟩ := EStateM.Result.ok.inj ended
    exact ⟨.refl _, row, isRow, rfl, sameBytes⟩

theorem registerVolumes_describes {volumes registered : List StorageVolumeInfo}
    (ran : Registration.registerVolumes volumes db = .ok registered db') :
    db.1.VolumesKept db'.1 ∧ ∀ volume ∈ registered, db'.1.Describes volume := by
  induction volumes generalizing db registered with
  | nil =>
      obtain ⟨rfl, rfl⟩ := EStateM.Result.ok.inj ran
      exact ⟨.refl _, nofun⟩
  | cons volume rest inductionHypothesis =>
      obtain ⟨first, db₁, head, tail⟩ := bind_eq_ok.mp ran
      obtain ⟨others, db₂, ranRest, ended⟩ := bind_eq_ok.mp tail
      obtain ⟨rfl, rfl⟩ := EStateM.Result.ok.inj ended
      obtain ⟨kept, described⟩ := registerVolume_describes head
      obtain ⟨restKept, restDescribed⟩ := inductionHypothesis ranRest
      refine ⟨kept.trans restKept, fun told member => ?_⟩
      rcases List.mem_cons.mp member with rfl | later
      · exact described.kept restKept
      · exact restDescribed told later

theorem createVolume_kept {name : String} {maxBytes : Nat} {info : StorageVolumeInfo}
    (ran : CentralTx.createVolume name maxBytes db = .ok info db') :
    db.1.VolumesKept db'.1 := by
  have tables := CentralTx.createVolume_effect ran
  intro volumeId row found
  refine ⟨row, ?_, rfl, rfl⟩
  rw [tables]
  have old : volumeId ≠ db.1.volumes.seq + 1 :=
    Nat.ne_of_lt (Nat.lt_succ_of_le (SeqTable.find?_le_seq found))
  exact (SeqTable.find?_push_of_ne _ old).trans found

end Volumes

/-- Storing what the database says of a volume changes its offset only. -/
theorem storeRegistered_withoutOffsets {tables : CentralTables} {registered : StorageVolumeInfo}
    (known : tables.Describes registered) {volumes : List StorageVolumeInfo}
    (described : ∀ volume ∈ volumes, tables.Describes volume) :
    ((StorageRequest.storeRegistered registered.volumeId registered volumes).map fun volume =>
        { volume with maxVolumeOffset := 0 }) =
      volumes.map (fun volume => { volume with maxVolumeOffset := 0 }) ∧
    ∀ volume ∈ StorageRequest.storeRegistered registered.volumeId registered volumes,
      tables.Describes volume := by
  induction volumes with
  | nil => exact ⟨rfl, nofun⟩
  | cons volume rest inductionHypothesis =>
      have here := described volume List.mem_cons_self
      have later : ∀ volume ∈ rest, tables.Describes volume :=
        fun other member => described other (List.mem_cons_of_mem _ member)
      unfold StorageRequest.storeRegistered
      split
      next same =>
        obtain ⟨name, maxBytes⟩ := here.agree known same.symm
        constructor
        · rw [List.map_cons, List.map_cons, name, maxBytes]
        · intro told member
          rcases List.mem_cons.mp member with rfl | old
          · obtain ⟨row, found, rowName, rowBytes⟩ := here
            exact ⟨row, found, rowName.trans name.symm, rowBytes.trans maxBytes.symm⟩
          · exact later told old
      next =>
        obtain ⟨same, restDescribed⟩ := inductionHypothesis later
        constructor
        · rw [List.map_cons, List.map_cons, same]
        · intro told member
          rcases List.mem_cons.mp member with rfl | old
          · exact here
          · exact restDescribed told old

/-! ## What central tells of its storages -/

namespace CentralServer

/-- What central tells of the volumes of its storages is what its database holds. -/
def PeersDescribed (server : CentralServer) : Prop :=
  ∀ storage ∈ server.storages.rows, ∀ volume ∈ storage.peer.volumes,
    server.db.1.Describes volume

/-- What a snapshot tells of a storage. -/
def told (server : CentralServer) (storageId : Nat) : Option StoragePeerInfo :=
  (server.storages.find? storageId).map fun storage => storage.peer.withoutOffsets

/-- The same storages, on a database with the same volumes. -/
structure SamePeers (before after : CentralServer) : Prop where
  storages : after.storages = before.storages
  kept : before.db.1.VolumesKept after.db.1

variable {before server after : CentralServer}

theorem SamePeers.refl (server : CentralServer) : server.SamePeers server := ⟨rfl, .refl _⟩

theorem SamePeers.told (same : before.SamePeers after) (storageId : Nat) :
    after.told storageId = before.told storageId := by
  unfold CentralServer.told
  rw [same.storages]

theorem SamePeers.described (same : before.SamePeers after) (described : before.PeersDescribed) :
    after.PeersDescribed := by
  intro storage member volume listed
  rw [same.storages] at member
  exact (described storage member volume listed).kept same.kept

/-- One entry of a storage is written, on a database with the same volumes. -/
structure PeerPut (before after : CentralServer) (peer : StoragePeerInfo) : Prop where
  storages : ∃ connection, after.storages = before.storages.put ⟨peer, connection⟩
  kept : before.db.1.VolumesKept after.db.1
  described : ∀ volume ∈ peer.volumes, after.db.1.Describes volume

theorem PeerPut.told {peer : StoragePeerInfo} (put : before.PeerPut after peer) (storageId : Nat) :
    after.told storageId =
      if storageId = peer.storageId then some peer.withoutOffsets else before.told storageId := by
  obtain ⟨connection, stored⟩ := put.storages
  unfold CentralServer.told
  rw [stored]
  by_cases same : storageId = peer.storageId
  · subst same
    have found : (before.storages.put ⟨peer, connection⟩).find? peer.storageId =
        some ⟨peer, connection⟩ := Table.find?_put_self
    rw [if_pos rfl, found]
    rfl
  · have found : (before.storages.put ⟨peer, connection⟩).find? storageId =
        before.storages.find? storageId := Table.find?_put_of_ne same
    rw [if_neg same, found]

theorem PeerPut.peersDescribed {peer : StoragePeerInfo} (put : before.PeerPut after peer)
    (described : before.PeersDescribed) : after.PeersDescribed := by
  obtain ⟨connection, stored⟩ := put.storages
  intro storage member volume listed
  rw [stored] at member
  rcases Table.mem_put.mp member with rfl | ⟨old, -⟩
  · exact put.described volume listed
  · exact (described storage old volume listed).kept put.kept

end CentralServer

theorem transact_triple {α : Type} {commit : Option Fs0Error} {m : CentralTx α}
    {P E : CentralServer → Prop} {Q : α → CentralServer → Prop}
    (ok : ∀ server a db, P server → m server.db = .ok a db → Q a { server with db := db })
    (error : ∀ server cache, P server → E { server with db := (server.db.1, cache) }) :
    Triple P (CentralM.transact commit m) Q E := by
  apply Triple.intro
  · intro server a after pre ran
    obtain ⟨-, db, body, rfl⟩ := CentralM.transact_eq_ok ran
    exact ok server a db pre body
  · intro server err after pre failed
    obtain rfl := CentralM.transact_eq_error failed
    exact error server _ pre

theorem mountVolumes_triple {P E : CentralServer → Prop} (peer : StoragePeerInfo)
    (mounted : ∀ server onlineVolumes, P server →
      P { server with onlineVolumes := onlineVolumes })
    (refused : ∀ server, P server → E server) :
    Triple P (Registration.mountVolumes peer) (fun _ => P) E := by
  unfold Registration.mountVolumes
  intro server pre
  by_cases offline : ∀ volume ∈ peer.volumes, server.onlineVolumes.find? volume.volumeId = none
  · simp only [bind_apply, CentralM.read, require, if_pos offline]
    exact mounted server _ pre
  · simp only [bind_apply, CentralM.read, require, if_neg offline]
    exact refused server pre

/-- A registration writes an entry, or leaves the storages as they are. -/
theorem registerStorage_triple (config : CentralConfig) (commit : Option Fs0Error)
    (name token : String) (volumes : List StorageVolumeInfo) (irohEndpoint : Bytes)
    (connection : Nat) (before : CentralServer) :
    Triple before.SamePeers
      (Registration.registerStorage config commit name token volumes irohEndpoint connection)
      (fun storageId after => ∃ peer, before.PeerPut after peer ∧ peer.storageId = storageId)
      before.SamePeers := by
  let Recorded (registered : List StorageVolumeInfo) (server : CentralServer) : Prop :=
    before.SamePeers server ∧ ∀ volume ∈ registered, server.db.1.Describes volume
  have checked : Triple before.SamePeers
      (require (config.tokenAllowed token) Fs0Error.unauthorized) (fun _ => before.SamePeers)
      before.SamePeers := Triple.require (fun _ same _ => same) fun _ same => same
  have recorded : Triple before.SamePeers
      (CentralM.transact commit (Registration.registerVolumes volumes)) Recorded
      before.SamePeers := by
    apply transact_triple
    · intro server registered db same ran
      obtain ⟨kept, described⟩ := registerVolumes_describes ran
      exact ⟨⟨same.storages, same.kept.trans kept⟩, described⟩
    · exact fun server cache same => ⟨same.storages, same.kept⟩
  have numbered (registered : List StorageVolumeInfo) : Triple (Recorded registered)
      CentralM.nextId (fun _ => Recorded registered) before.SamePeers :=
    fun server pre => ⟨⟨pre.1.storages, pre.1.kept⟩, pre.2⟩
  have mounted (registered : List StorageVolumeInfo) (storageId : Nat) :
      Triple (Recorded registered)
        (Registration.mountVolumes ⟨storageId, name, registered, irohEndpoint⟩)
        (fun _ => Recorded registered) before.SamePeers :=
    mountVolumes_triple _ (fun server _ pre => ⟨⟨pre.1.storages, pre.1.kept⟩, pre.2⟩)
      fun server pre => pre.1
  refine Triple.bind checked fun _ => Triple.bind recorded fun registered =>
    Triple.bind (numbered registered) fun storageId =>
      Triple.bind (mounted registered storageId) fun _ => ?_
  intro server pre
  obtain ⟨same, described⟩ := pre
  refine ⟨⟨storageId, name, registered, irohEndpoint⟩, ⟨⟨connection, ?_⟩, same.kept, described⟩, rfl⟩
  rw [← same.storages]

/-- An endpoint is written into the entry of the storage, if there is one. -/
theorem updateStorageEndpoint_triple (storageId : Nat) (irohEndpoint : Bytes)
    {before : CentralServer} (described : before.PeersDescribed) :
    Triple (fun server => server = before)
      (StorageRequest.updateStorageEndpoint storageId irohEndpoint)
      (fun _ after => ∃ peer, before.PeerPut after peer ∧ peer.storageId = storageId)
      before.SamePeers := by
  rintro server rfl
  rw [updateStorageEndpoint_apply]
  cases found : server.storages.find? storageId with
  | none => exact .refl server
  | some storage =>
      obtain ⟨member, isStorage⟩ := Table.mem_of_find? found
      exact ⟨{ storage.peer with irohEndpoint := irohEndpoint },
        ⟨⟨storage.connection, rfl⟩, .refl _, described storage member⟩, isStorage⟩

/-- An offset does not change what is told of a storage. -/
theorem updateStorageVolumeOffset_told (commit : Option Fs0Error)
    (storageId volumeId maxVolumeOffset : Nat) {before : CentralServer}
    (described : before.PeersDescribed) :
    Triple (fun server => server = before)
      (StorageRequest.updateStorageVolumeOffset commit storageId volumeId maxVolumeOffset)
      (fun _ after => after.PeersDescribed ∧ ∀ id, after.told id = before.told id)
      (fun after => after.PeersDescribed ∧ ∀ id, after.told id = before.told id) := by
  have recorded : Triple (fun server => server = before)
      (CentralM.transact commit (CentralTx.updateVolumeOffset volumeId maxVolumeOffset))
      (fun registered server => before.SamePeers server ∧ server.db.1.Describes registered ∧
        registered.volumeId = volumeId)
      (fun after => after.PeersDescribed ∧ ∀ id, after.told id = before.told id) := by
    apply transact_triple
    · rintro server registered db rfl ran
      exact ⟨⟨rfl, updateVolumeOffset_kept ran⟩, updateVolumeOffset_describes ran⟩
    · rintro server cache rfl
      exact ⟨described, fun _ => rfl⟩
  refine Triple.bind recorded fun registered => ?_
  rintro server ⟨same, known, rfl⟩
  have serverDescribed := same.described described
  rw [storeVolumeOffset_apply]
  cases found : server.storages.find? storageId with
  | none => exact ⟨serverDescribed, same.told⟩
  | some storage =>
      obtain ⟨member, isStorage⟩ := Table.mem_of_find? found
      obtain ⟨sameOffsets, allDescribed⟩ :=
        storeRegistered_withoutOffsets known (serverDescribed storage member)
      by_cases listed : ∃ volume ∈ storage.peer.volumes, volume.volumeId = registered.volumeId
      · simp only [if_pos listed]
        have put : server.PeerPut { server with
            storages := server.storages.put { storage with peer := { storage.peer with
              volumes := StorageRequest.storeRegistered registered.volumeId registered
                storage.peer.volumes } } }
            { storage.peer with
              volumes := StorageRequest.storeRegistered registered.volumeId registered
                storage.peer.volumes } := ⟨⟨storage.connection, rfl⟩, .refl _, allDescribed⟩
        refine ⟨put.peersDescribed serverDescribed, fun id => ?_⟩
        rw [put.told, ← same.told]
        split
        next isId =>
          subst isId
          have stored : server.told storage.peer.storageId = some storage.peer.withoutOffsets := by
            unfold CentralServer.told
            rw [show storage.peer.storageId = storageId from isStorage, found]
            rfl
          rw [stored]
          unfold StoragePeerInfo.withoutOffsets
          rw [sameOffsets]
        next => rfl
      · simp only [if_neg listed]
        exact ⟨serverDescribed, same.told⟩

/-! ## The feed -/

namespace FeedPayload

def event? : FeedPayload → Option ProtocolEvent
  | .event change => some change
  | _ => none

/-- What an event tells of a storage. -/
def update : FeedPayload → Nat → Option (Option StoragePeerInfo)
  | .event change, storageId => if storageId = change.storageId then some change.told else none
  | _, _ => none

/-- What a snapshot tells of a storage. -/
def snapshot : FeedPayload → Nat → Option (Option StoragePeerInfo)
  | .event _, _ => none
  | .registered storages, storageId => some (Fs0.told storages storageId)
  | .status storages, storageId => some (Fs0.told storages storageId)

@[simp] theorem update_event (change : ProtocolEvent) (storageId : Nat) :
    (FeedPayload.event change).update storageId =
      if storageId = change.storageId then some change.told else none := rfl

/-- What a message tells of a storage. -/
def tells (payload : FeedPayload) (storageId : Nat) : Option (Option StoragePeerInfo) :=
  (payload.update storageId).or (payload.snapshot storageId)

end FeedPayload

namespace PeerFeed

/-- Central and the client as a source and its view. -/
def feed (s : PeerFeed) : Feed Nat (Option StoragePeerInfo) where
  source := s.server.told
  view := told s.storages
  started := s.client = .listening
  unannounced storageId := storageId ∈ s.unannounced
  update n storageId := (s.messages.find? n).bind fun message => message.payload.update storageId
  snapshot n storageId :=
    (s.messages.find? n).bind fun message => message.payload.snapshot storageId
  next := s.messages.seq + 1

/-- Every change is broadcast, and every message has been processed. -/
structure Quiet (s : PeerFeed) : Prop where
  listening : s.client = .listening
  announced : s.unannounced = []
  arrived : s.messages.rows = []

/-- The client lists what central has registered, up to the offsets. -/
def ViewsAgree (s : PeerFeed) : Prop :=
  s.storages.map StoragePeerInfo.withoutOffsets =
    s.server.storagePeersSnapshot.map StoragePeerInfo.withoutOffsets

/-- An event is processed only when every older message that is still on its way tells the
same of its storage. -/
def InOrder (s : PeerFeed) : PeerFeedEvent → Prop
  | .deliver messageId =>
      ∀ message ∈ s.messages.find? messageId, ∀ event ∈ message.payload.event?,
        ∀ older ∈ s.messages.rows, older.messageId < messageId →
          ∀ value ∈ older.payload.tells event.storageId, value = event.told
  | _ => True

instance (s : PeerFeed) (e : PeerFeedEvent) : Decidable (s.InOrder e) := by
  cases e <;> unfold InOrder <;> infer_instance

structure Inv (s : PeerFeed) : Prop where
  converging : s.feed.Converging
  described : s.server.PeersDescribed
  ordered : Ordered s.storages
  lists : ∀ message ∈ s.messages.rows, ∀ storages,
    message.payload = .registered storages ∨ message.payload = .status storages → Ordered storages
  unregistered : s.client = .unregistered → s.messages.rows = []

variable {s s' : PeerFeed} {server : CentralServer} {storageId : Nat}

/-! ### Steps of central -/

theorem feed_sameTold (told : ∀ id, server.told id = s.server.told id) :
    ({ s with server := server } : PeerFeed).feed = s.feed := by
  apply Feed.ext
  case source => exact funext told
  all_goals rfl

theorem feed_change {value : Option StoragePeerInfo}
    (told : ∀ id, server.told id = if id = storageId then value else s.server.told id) :
    ({ s with server := server, unannounced := storageId :: s.unannounced } : PeerFeed).feed =
      s.feed.change storageId value := by
  apply Feed.ext
  case source => exact funext told
  case unannounced =>
      funext id
      exact propext List.mem_cons
  all_goals rfl

theorem told_unregisterStorage (server : CentralServer) (storageId id : Nat) :
    (server.unregisterStorage storageId).told id =
      if id = storageId then none else server.told id := by
  unfold CentralServer.told
  have found : (server.unregisterStorage storageId).storages.find? id =
      if id = storageId then none else server.storages.find? id := Table.find?_delete_key
  rw [found]
  split <;> rfl

theorem unregisterStorage_described (described : server.PeersDescribed) (storageId : Nat) :
    (server.unregisterStorage storageId).PeersDescribed :=
  fun storage member => described storage (Table.mem_delete.mp member).1

theorem Inv.sameTold (inv : s.Inv) (described : server.PeersDescribed)
    (told : ∀ id, server.told id = s.server.told id) :
    ({ s with server := server } : PeerFeed).Inv where
  converging := by
    rw [feed_sameTold told]
    exact inv.converging
  described := described
  ordered := inv.ordered
  lists := inv.lists
  unregistered := inv.unregistered

theorem Inv.change (inv : s.Inv) (described : server.PeersDescribed)
    {value : Option StoragePeerInfo}
    (told : ∀ id, server.told id = if id = storageId then value else s.server.told id) :
    ({ s with server := server, unannounced := storageId :: s.unannounced } : PeerFeed).Inv where
  converging := by
    rw [feed_change told]
    exact inv.converging.change storageId value
  described := described
  ordered := inv.ordered
  lists := inv.lists
  unregistered := inv.unregistered

/-! ### Messages -/

/-- What is told by messages once another one has been sent. -/
theorem send_bind (payload : FeedPayload) {α : Type} (f : FeedMessage → Option α) (n : Nat) :
    ((s.send payload).messages.find? n).bind f =
      if n = s.messages.seq + 1 then f ⟨s.messages.seq + 1, payload⟩
      else (s.messages.find? n).bind f := by
  by_cases isNew : n = s.messages.seq + 1
  · subst isNew
    rw [if_pos rfl]
    have found : (s.send payload).messages.find? (s.messages.seq + 1) =
        some ⟨s.messages.seq + 1, payload⟩ := SeqTable.find?_push
    rw [found]
    rfl
  · rw [if_neg isNew]
    have found : (s.send payload).messages.find? n = s.messages.find? n :=
      SeqTable.find?_push_of_ne (fun _ => rfl) isNew
    rw [found]

theorem take_bind (messageId : Nat) {α : Type} (f : FeedMessage → Option α) (n : Nat) :
    ((s.take messageId).messages.find? n).bind f =
      if n = messageId then none else (s.messages.find? n).bind f := by
  have found : (s.take messageId).messages.find? n =
      if n = messageId then none else s.messages.find? n := Table.find?_delete_key
  rw [found]
  split <;> rfl

theorem told_snapshot (server : CentralServer) (storageId : Nat) :
    told server.storagePeersSnapshot storageId = server.told storageId := by
  have nodup : ((server.storages.rows.map StorageControlConnection.peer).map
      StoragePeerInfo.storageId).Nodup := by
    rw [List.map_map]
    exact server.storages.nodup
  unfold told CentralServer.told
  unfold CentralServer.storagePeersSnapshot
  rw [storagePeer_congr nodup (sortPeers_perm _)]
  unfold storagePeer
  rw [List.find?_map, Option.map_map]
  rfl

theorem snapshot_ordered (server : CentralServer) : Ordered server.storagePeersSnapshot := by
  apply sortPeers_ordered
  rw [List.map_map]
  exact server.storages.nodup

theorem eventOf_storageId (server : CentralServer) (storageId : Nat) :
    (eventOf server storageId).storageId = storageId := by
  unfold eventOf
  split
  next found => exact (Table.mem_of_find? found).2
  next => rfl

theorem eventOf_told (server : CentralServer) (storageId : Nat) :
    (eventOf server storageId).told = server.told storageId := by
  unfold eventOf CentralServer.told
  cases server.storages.find? storageId <;> rfl

/-- No message has the number of the next one. -/
theorem bind_next (s : PeerFeed) {α : Type} (f : FeedMessage → Option α) :
    (s.messages.find? (s.messages.seq + 1)).bind f = none := by
  cases found : s.messages.find? (s.messages.seq + 1) with
  | none => rfl
  | some message => exact absurd (SeqTable.find?_le_seq found) (Nat.not_succ_le_self _)

/-- A message that is sent is the only one with its number. -/
theorem feed_send_update (s : PeerFeed) (payload : FeedPayload) (n id : Nat) :
    (s.send payload).feed.update n id =
      if n = s.feed.next then payload.update id else s.feed.update n id :=
  send_bind payload _ n

theorem feed_send_snapshot (s : PeerFeed) (payload : FeedPayload) (n id : Nat) :
    (s.send payload).feed.snapshot n id =
      if n = s.feed.next then payload.snapshot id else s.feed.snapshot n id :=
  send_bind payload _ n

theorem feed_broadcast (connected : s.client ≠ .unregistered) :
    (s.broadcast storageId).feed = s.feed.announce storageId := by
  unfold broadcast
  simp only [if_neg connected]
  apply Feed.ext
  case unannounced =>
      funext id
      apply propext
      refine List.mem_filter.trans (Iff.trans ?_ and_comm)
      rw [decide_eq_true_eq]
      rfl
  case update =>
      funext n id
      refine (feed_send_update _ _ n id).trans ?_
      have event : FeedPayload.update (.event (eventOf s.server storageId)) id =
          if id = storageId then some (s.feed.source id) else none := by
        rw [FeedPayload.update_event, eventOf_storageId, eventOf_told]
        split
        next same => rw [same]; rfl
        next => rfl
      rw [event]
      rfl
  case snapshot =>
      funext n id
      refine (feed_send_snapshot _ _ n id).trans ?_
      split
      next isNew => rw [isNew]; exact (bind_next s _).symm
      next => rfl
  all_goals rfl

/-- A snapshot is sent. -/
theorem feed_send_takeSnapshot {payload : FeedPayload}
    (isSnapshot : ∀ id, payload.snapshot id = some (s.server.told id))
    (noUpdate : ∀ id, payload.update id = none) :
    (s.send payload).feed = s.feed.takeSnapshot := by
  apply Feed.ext
  case update =>
      funext n id
      rw [feed_send_update, noUpdate]
      split
      next isNew => rw [isNew]; exact (bind_next s _).symm
      next => rfl
  case snapshot =>
      funext n id
      rw [feed_send_snapshot, isSnapshot]
      rfl
  all_goals rfl

theorem lists_send {payload : FeedPayload} (lists : ∀ message ∈ s.messages.rows, ∀ storages,
      message.payload = .registered storages ∨ message.payload = .status storages →
        Ordered storages)
    (new : ∀ storages, payload = .registered storages ∨ payload = .status storages →
      Ordered storages) :
    ∀ message ∈ (s.send payload).messages.rows, ∀ storages,
      message.payload = .registered storages ∨ message.payload = .status storages →
        Ordered storages := by
  intro message member storages isList
  rcases mem_appended.mp member with old | rfl
  · exact lists message old storages isList
  · exact new storages isList

theorem Inv.broadcast (inv : s.Inv) (storageId : Nat) : (s.broadcast storageId).Inv := by
  by_cases connected : s.client = .unregistered
  · have none := inv.unregistered connected
    have absent : ∀ n, s.messages.find? n = .none := fun n =>
      Table.find?_eq_none.mpr fun message member => by simp [none] at member
    unfold PeerFeed.broadcast
    simp only [if_pos connected]
    refine ⟨Feed.Idle.converging ⟨?_, ?_, ?_⟩, inv.described, inv.ordered, inv.lists,
      inv.unregistered⟩
    · intro n id
      simp only [feed, absent, Option.bind_none]
    · intro n id
      simp only [feed, absent, Option.bind_none]
    · intro listening
      exact absurd (connected.symm.trans listening) (by simp)
  · constructor
    case converging =>
        rw [feed_broadcast connected]
        exact inv.converging.announce storageId
    all_goals
      unfold PeerFeed.broadcast
      simp only [if_neg connected]
    case described => exact inv.described
    case ordered => exact inv.ordered
    case lists =>
        apply lists_send inv.lists
        rintro storages (isList | isList) <;> cases isList
    case unregistered => exact fun unregistered => absurd unregistered connected

theorem feed_setClient {client : ClientPhase} (same : client = .listening ↔ s.client = .listening) :
    ({ s with client := client } : PeerFeed).feed = s.feed := by
  apply Feed.ext
  case started => exact propext same
  all_goals rfl

/-- A reply with a snapshot is sent to a client central lists. -/
theorem Inv.sendSnapshot (inv : s.Inv) (connected : s.client ≠ .unregistered)
    {payload : FeedPayload} (isList : payload = .registered s.server.storagePeersSnapshot ∨
      payload = .status s.server.storagePeersSnapshot) : (s.send payload).Inv where
  converging := by
    have sent : (s.send payload).feed = s.feed.takeSnapshot := by
      apply feed_send_takeSnapshot
      · intro id
        rcases isList with rfl | rfl <;> exact congrArg some (told_snapshot s.server id)
      · intro id
        rcases isList with rfl | rfl <;> rfl
    rw [sent]
    exact inv.converging.takeSnapshot
  described := inv.described
  ordered := inv.ordered
  lists := by
    apply lists_send inv.lists
    intro storages isPayload
    have same : storages = s.server.storagePeersSnapshot := by
      rcases isList with rfl | rfl <;> rcases isPayload with same | same <;> cases same <;> rfl
    rw [same]
    exact snapshot_ordered s.server
  unregistered := fun unregistered => absurd unregistered connected

theorem Inv.setClient (inv : s.Inv) {client : ClientPhase}
    (same : client = .listening ↔ s.client = .listening)
    (connected : client ≠ .unregistered) : ({ s with client := client } : PeerFeed).Inv where
  converging := by
    rw [feed_setClient same]
    exact inv.converging
  described := inv.described
  ordered := inv.ordered
  lists := inv.lists
  unregistered := fun unregistered => absurd unregistered connected

/-! ### Delivery -/

theorem feed_take_update (s : PeerFeed) (messageId n id : Nat) :
    (s.take messageId).feed.update n id = if n = messageId then none else s.feed.update n id :=
  take_bind messageId _ n

theorem feed_take_snapshot (s : PeerFeed) (messageId n id : Nat) :
    (s.take messageId).feed.snapshot n id =
      if n = messageId then none else s.feed.snapshot n id :=
  take_bind messageId _ n

variable {message : FeedMessage} {event : ProtocolEvent}

theorem feed_update_of_found (found : s.messages.find? message.messageId = some message) (id : Nat) :
    s.feed.update message.messageId id = message.payload.update id := by
  simp only [feed, found, Option.bind_some]

theorem feed_snapshot_of_found (found : s.messages.find? message.messageId = some message)
    (id : Nat) : s.feed.snapshot message.messageId id = message.payload.snapshot id := by
  simp only [feed, found, Option.bind_some]

/-- An event is processed: the client's list takes what it tells. -/
theorem feed_deliverEvent (ordered : Ordered s.storages)
    (found : s.messages.find? message.messageId = some message)
    (isEvent : message.payload = .event event) :
    ({ s.take message.messageId with storages := applyEvent s.storages event } : PeerFeed).feed =
      s.feed.deliverUpdate message.messageId := by
  apply Feed.ext
  case view =>
      funext id
      refine (told_applyEvent ordered event id).trans ?_
      unfold Feed.deliverUpdate
      simp only [feed_update_of_found found, isEvent, FeedPayload.update_event]
      split <;> rfl
  case update =>
      funext n id
      exact feed_take_update s message.messageId n id
  case snapshot =>
      funext n id
      refine (feed_take_snapshot s message.messageId n id).trans ?_
      split
      next isMessage =>
        rw [isMessage]
        exact ((feed_snapshot_of_found found id).trans (by rw [isEvent]; rfl)).symm
      next => rfl
  all_goals rfl

/-- A reply is processed: the client's list becomes the one it brings. -/
theorem feed_deliverList (found : s.messages.find? message.messageId = some message)
    {storages : List StoragePeerInfo}
    (isList : message.payload = .registered storages ∨ message.payload = .status storages) :
    ({ s.take message.messageId with storages := storages, client := .listening } :
      PeerFeed).feed = s.feed.deliverSnapshot message.messageId := by
  have noUpdate : ∀ id, message.payload.update id = none := by
    intro id
    rcases isList with isPayload | isPayload <;> rw [isPayload] <;> rfl
  have brings : ∀ id, message.payload.snapshot id = some (told storages id) := by
    intro id
    rcases isList with isPayload | isPayload <;> rw [isPayload] <;> rfl
  apply Feed.ext
  case view =>
      funext id
      unfold Feed.deliverSnapshot
      simp only [feed_snapshot_of_found found, brings]
      rfl
  case started => exact eq_true rfl
  case update =>
      funext n id
      refine (feed_take_update s message.messageId n id).trans ?_
      split
      next isMessage => rw [isMessage]; exact ((feed_update_of_found found id).trans (noUpdate id)).symm
      next => rfl
  case snapshot =>
      funext n id
      exact feed_take_snapshot s message.messageId n id
  all_goals rfl

theorem take_lists (lists : ∀ message ∈ s.messages.rows, ∀ storages,
      message.payload = .registered storages ∨ message.payload = .status storages →
        Ordered storages) (messageId : Nat) :
    ∀ message ∈ (s.take messageId).messages.rows, ∀ storages,
      message.payload = .registered storages ∨ message.payload = .status storages →
        Ordered storages :=
  fun message member => lists message (SeqTable.mem_delete.mp member).1

/-- What the guard says is what the feed needs. -/
theorem inOrder_feed (found : s.messages.find? message.messageId = some message)
    (isEvent : message.payload = .event event)
    (admitted : s.InOrder (.deliver message.messageId)) : s.feed.InOrder message.messageId := by
  have contradicted := admitted message found event (by rw [isEvent]; rfl)
  intro id value isTold n older other tells
  rw [feed_update_of_found found, isEvent, FeedPayload.update_event] at isTold
  split at isTold
  next same =>
    subst same
    rw [← Option.some.inj isTold]
    have told : ∃ sent ∈ s.messages.rows, sent.messageId = n ∧
        sent.payload.tells event.storageId = some other := by
      rcases tells with isUpdate | isSnapshot
      · obtain ⟨sent, isSent, isValue⟩ := Option.bind_eq_some_iff.mp isUpdate
        obtain ⟨member, isNumber⟩ := Table.mem_of_find? isSent
        exact ⟨sent, member, isNumber, by rw [FeedPayload.tells, isValue]; rfl⟩
      · obtain ⟨sent, isSent, isValue⟩ := Option.bind_eq_some_iff.mp isSnapshot
        obtain ⟨member, isNumber⟩ := Table.mem_of_find? isSent
        refine ⟨sent, member, isNumber, ?_⟩
        cases isPayload : sent.payload with
        | event change =>
            rw [isPayload] at isValue
            cases isValue
        | registered storages =>
            rw [isPayload] at isValue
            exact isValue
        | status storages =>
            rw [isPayload] at isValue
            exact isValue
    obtain ⟨sent, member, rfl, isValue⟩ := told
    exact contradicted sent member older other isValue
  next => cases isTold

theorem Inv.deliver (inv : s.Inv) (found : s.messages.find? message.messageId = some message)
    (admitted : s.InOrder (.deliver message.messageId)) (taken : s.deliver message = some s') :
    s'.Inv := by
  obtain ⟨member, -⟩ := Table.mem_of_find? found
  unfold PeerFeed.deliver at taken
  split at taken
  next event isEvent =>
    split at taken
    next listening =>
      obtain rfl := Option.some.inj taken
      exact {
        converging := by
          rw [feed_deliverEvent inv.ordered found isEvent]
          exact inv.converging.deliverUpdate (inOrder_feed found isEvent admitted)
        described := inv.described
        ordered := applyEvent_ordered inv.ordered event
        lists := take_lists inv.lists _
        unregistered := fun unregistered => absurd (listening.symm.trans unregistered) nofun }
    next => cases taken
  next storages isList =>
    obtain rfl := Option.some.inj taken
    exact {
      converging := by
        rw [feed_deliverList found (.inl isList)]
        refine inv.converging.deliverSnapshot fun id => ⟨told storages id, ?_⟩
        rw [feed_snapshot_of_found found, isList]
        rfl
      described := inv.described
      ordered := inv.lists message member storages (.inl isList)
      lists := take_lists inv.lists _
      unregistered := nofun }
  next storages isList =>
    split at taken
    next listening =>
      obtain rfl := Option.some.inj taken
      exact {
        converging := by
          have same : ({ s.take message.messageId with storages := storages } : PeerFeed) =
              { s.take message.messageId with storages := storages, client := .listening } := by
            rw [← listening]
            rfl
          rw [same, feed_deliverList found (.inr isList)]
          refine inv.converging.deliverSnapshot fun id => ⟨told storages id, ?_⟩
          rw [feed_snapshot_of_found found, isList]
          rfl
        described := inv.described
        ordered := inv.lists message member storages (.inr isList)
        lists := take_lists inv.lists _
        unregistered := fun unregistered => absurd (listening.symm.trans unregistered) nofun }
    next => cases taken

/-! ### Every step -/

theorem Inv.loseStatus (inv : s.Inv) {storages : List StoragePeerInfo}
    (found : s.messages.find? message.messageId = some message)
    (isStatus : message.payload = .status storages) : (s.take message.messageId).Inv where
  converging := by
    have same : (s.take message.messageId).feed = s.feed.dropSnapshot message.messageId := by
      apply Feed.ext
      case update =>
          funext n id
          refine (feed_take_update s message.messageId n id).trans ?_
          split
          next isMessage =>
            rw [isMessage]
            exact ((feed_update_of_found found id).trans (by rw [isStatus]; rfl)).symm
          next => rfl
      case snapshot =>
          funext n id
          exact feed_take_snapshot s message.messageId n id
      all_goals rfl
    rw [same]
    exact inv.converging.dropSnapshot message.messageId
  described := inv.described
  ordered := inv.ordered
  lists := take_lists inv.lists _
  unregistered := by
    intro unregistered
    have none := inv.unregistered unregistered
    have member := (Table.mem_of_find? found).1
    rw [none] at member
    cases member

theorem Initial.inv (initial : s.Initial) : s.Inv := by
  obtain ⟨db, rfl⟩ := initial
  exact {
    converging := Feed.Idle.converging ⟨fun _ _ => rfl, fun _ _ => rfl, nofun⟩
    described := nofun
    ordered := List.Pairwise.nil
    lists := nofun
    unregistered := fun _ => rfl }

theorem Inv.registerStorage {config : CentralConfig} {commit : Option Fs0Error}
    {name token : String} {volumes : List StorageVolumeInfo} {irohEndpoint : Bytes}
    {connection : Nat} (inv : s.Inv)
    (taken : s.step config (.registerStorage commit name token volumes irohEndpoint connection) =
      some s') : s'.Inv := by
  have triple := registerStorage_triple config commit name token volumes irohEndpoint connection
    s.server
  simp only [step] at taken
  split at taken
  next storageId server ran =>
    obtain rfl := Option.some.inj taken
    obtain ⟨peer, put, rfl⟩ := triple.ok (.refl s.server) ran
    exact inv.change (put.peersDescribed inv.described) put.told
  next err server ran =>
    obtain rfl := Option.some.inj taken
    have same := triple.error (.refl s.server) ran
    exact inv.sameTold (same.described inv.described) same.told

theorem Inv.updateStorageEndpoint {config : CentralConfig} {irohEndpoint : Bytes} (inv : s.Inv)
    (taken : s.step config (.updateStorageEndpoint storageId irohEndpoint) = some s') :
    s'.Inv := by
  have triple := updateStorageEndpoint_triple storageId irohEndpoint inv.described
  simp only [step] at taken
  split at taken
  · cases taken
  · split at taken
    next response server ran =>
      obtain rfl := Option.some.inj taken
      obtain ⟨peer, put, rfl⟩ := triple.ok rfl ran
      exact inv.change (put.peersDescribed inv.described) put.told
    next err server ran =>
      obtain rfl := Option.some.inj taken
      have same := triple.error rfl ran
      exact inv.sameTold (same.described inv.described) same.told

theorem createVolume_samePeers (commit : Option Fs0Error) (name : String) (maxBytes : Nat)
    (before : CentralServer) :
    before.SamePeers (endState (StorageRequest.createVolume commit name maxBytes before)) := by
  have created : Triple (fun server => server = before)
      (CentralM.transact commit (CentralTx.createVolume name maxBytes))
      (fun _ => before.SamePeers) before.SamePeers := by
    apply transact_triple
    · rintro server info db rfl ran
      exact ⟨rfl, createVolume_kept ran⟩
    · rintro server cache rfl
      exact ⟨rfl, .refl _⟩
  have triple : Triple (fun server => server = before)
      (StorageRequest.createVolume commit name maxBytes) (fun _ => before.SamePeers)
      before.SamePeers := Triple.bind created fun _ => Triple.pure fun _ same => same
  cases ran : StorageRequest.createVolume commit name maxBytes before with
  | ok response after => exact triple.ok rfl ran
  | error err after => exact triple.error rfl ran

theorem Inv.updateStorageVolumeOffset (inv : s.Inv) (commit : Option Fs0Error)
    (storageId volumeId maxVolumeOffset : Nat) :
    ({ s with server := endState (StorageRequest.updateStorageVolumeOffset commit storageId
      volumeId maxVolumeOffset s.server) } : PeerFeed).Inv := by
  have triple := updateStorageVolumeOffset_told commit storageId volumeId maxVolumeOffset
    inv.described
  cases ran : StorageRequest.updateStorageVolumeOffset commit storageId volumeId maxVolumeOffset
      s.server with
  | ok response after =>
      obtain ⟨described, told⟩ := triple.ok rfl ran
      exact inv.sameTold described told
  | error err after =>
      obtain ⟨described, told⟩ := triple.error rfl ran
      exact inv.sameTold described told

theorem Inv.unregisterStorage {config : CentralConfig} (inv : s.Inv)
    (taken : s.step config (.unregisterStorage storageId) = some s') : s'.Inv := by
  have described := unregisterStorage_described inv.described storageId
  have told := told_unregisterStorage s.server storageId
  simp only [step] at taken
  split at taken
  next =>
    obtain rfl := Option.some.inj taken
    exact inv.change described told
  next absent =>
    obtain rfl := Option.some.inj taken
    refine inv.sameTold described fun id => (told id).trans ?_
    split
    next same =>
      rw [same]
      unfold CentralServer.told
      rw [absent]
      rfl
    next => rfl

/-- One step of central or of the client keeps the client's list on its way to central's. -/
theorem step_inv {config : CentralConfig} {e : PeerFeedEvent} (inv : s.Inv)
    (admitted : s.InOrder e) (taken : s.step config e = some s') : s'.Inv := by
  cases e with
  | registerStorage commit name token volumes irohEndpoint connection =>
      exact inv.registerStorage taken
  | updateStorageEndpoint storageId irohEndpoint => exact inv.updateStorageEndpoint taken
  | updateStorageVolumeOffset commit storageId volumeId maxVolumeOffset =>
      obtain rfl := Option.some.inj taken
      exact inv.updateStorageVolumeOffset commit storageId volumeId maxVolumeOffset
  | createVolume commit name maxBytes =>
      obtain rfl := Option.some.inj taken
      have same := createVolume_samePeers commit name maxBytes s.server
      exact inv.sameTold (same.described inv.described) same.told
  | unregisterStorage storageId => exact inv.unregisterStorage taken
  | broadcast storageId =>
      simp only [step] at taken
      split at taken
      next =>
        obtain rfl := Option.some.inj taken
        exact inv.broadcast storageId
      next => cases taken
  | insertClient =>
      simp only [step] at taken
      split at taken
      next unregistered =>
        obtain rfl := Option.some.inj taken
        refine inv.setClient ?_ nofun
        rw [unregistered]
        exact ⟨nofun, nofun⟩
      next => cases taken
  | clientInserted =>
      simp only [step] at taken
      split at taken
      next inserted =>
        obtain rfl := Option.some.inj taken
        have sent := inv.sendSnapshot (by rw [inserted]; nofun)
          (.inl rfl : FeedPayload.registered s.server.storagePeersSnapshot = _ ∨ _)
        refine sent.setClient ?_ nofun
        rw [show (s.send _).client = .inserted from inserted]
        exact ⟨nofun, nofun⟩
      next => cases taken
  | centralStatus =>
      simp only [step] at taken
      split at taken
      next listening =>
        obtain rfl := Option.some.inj taken
        exact inv.sendSnapshot (by rw [listening]; nofun) (.inr rfl)
      next => cases taken
  | deliver messageId =>
      obtain ⟨message, found, delivered⟩ := Option.bind_eq_some_iff.mp taken
      obtain rfl := (Table.mem_of_find? found).2
      exact inv.deliver found admitted delivered
  | loseStatus messageId =>
      simp only [step] at taken
      split at taken
      next storages isStatus =>
        obtain rfl := Option.some.inj taken
        obtain ⟨message, found, isPayload⟩ := Option.map_eq_some_iff.mp isStatus
        obtain rfl := (Table.mem_of_find? found).2
        exact inv.loseStatus found isPayload
      next => cases taken

theorem withoutOffsets_ordered {storages : List StoragePeerInfo} (ordered : Ordered storages) :
    Ordered (storages.map StoragePeerInfo.withoutOffsets) :=
  List.pairwise_map.mpr ordered

theorem storagePeer_withoutOffsets (storages : List StoragePeerInfo) (storageId : Nat) :
    storagePeer (storages.map StoragePeerInfo.withoutOffsets) storageId =
      told storages storageId := by
  unfold told storagePeer
  rw [List.find?_map]
  rfl

/-- In a quiet state the two lists are the same. -/
theorem Inv.viewsAgree (inv : s.Inv) (quiet : s.Quiet) : s.ViewsAgree := by
  have absent : ∀ n, s.messages.find? n = none := fun n =>
    Table.find?_eq_none.mpr fun message member => by simp [quiet.arrived] at member
  have same : s.feed.view = s.feed.source := by
    apply inv.converging.view_eq quiet.listening
    · intro id pending
      have member : id ∈ s.unannounced := pending
      rw [quiet.announced] at member
      cases member
    · intro n id
      simp only [feed, absent, Option.bind_none]
  apply (withoutOffsets_ordered inv.ordered).eq_of_storagePeer
    (withoutOffsets_ordered (snapshot_ordered s.server))
  intro id
  rw [storagePeer_withoutOffsets, storagePeer_withoutOffsets, told_snapshot]
  exact congrFun same id

end PeerFeed

/-- In a run in which no event overtakes an older message that contradicts it, a client that
has processed every message lists what central has registered. -/
theorem peer_views_agree_of_inOrder (config : CentralConfig)
    {ts : List (Transition PeerFeed PeerFeedEvent)} {s : PeerFeed}
    (run : (peerFeed config).Run ts s) (inOrder : ∀ t ∈ ts, t.pre.InOrder t.event) :
    ∀ x ∈ visited ts s, x.Quiet → x.ViewsAgree := by
  intro x among quiet
  have inv := run.invariant_of_guard PeerFeed.Inv PeerFeed.InOrder (fun _ initial => initial.inv)
    (fun _ _ _ inv admitted taken => PeerFeed.step_inv inv admitted taken) inOrder
  exact (inv x among).viewsAgree quiet

/-! ## Runs -/

namespace PeerFeed.Scenario

/-- Central on a new database. -/
def initial : PeerFeed := ⟨CentralServer.run CentralDb.open', [], .unregistered, .empty, []⟩

/-- A client registers; then a storage registers, and its connection is lost. -/
def lost : List PeerFeedEvent :=
  [.insertClient, .clientInserted, .deliver 1,
    .registerStorage none "s" "token" [] [] 1, .broadcast 1, .unregisterStorage 1, .broadcast 1]

end PeerFeed.Scenario

theorem peer_views_agree_lost : ∃ s : PeerFeed, s.Quiet ∧ s.messages.seq = 3 ∧ s.ViewsAgree := by
  have computed : (((peerFeed Scenario.config).execWhile (fun s e => decide (s.InOrder e))
      PeerFeed.Scenario.initial (PeerFeed.Scenario.lost ++ [.deliver 2, .deliver 3])).any fun s =>
        decide (s.client = .listening ∧ s.unannounced = [] ∧ s.messages.rows = [] ∧
          s.messages.seq = 3)) = true := by decide +kernel
  obtain ⟨s, ends, shows⟩ := (Option.any_eq_true _ _).mp computed
  obtain ⟨listening, announced, arrived, sent⟩ := of_decide_eq_true shows
  have quiet : s.Quiet := ⟨listening, announced, arrived⟩
  have initial : (peerFeed Scenario.config).Init PeerFeed.Scenario.initial :=
    ⟨CentralDb.open', rfl⟩
  obtain ⟨ts, run, inOrder⟩ := (System.Run.init initial).execWhile _ ends
  have isRun : (peerFeed Scenario.config).Run ts s := by simpa using run
  exact ⟨s, quiet, sent, peer_views_agree_of_inOrder Scenario.config isRun
    (fun t member => of_decide_eq_true (inOrder t member)) s List.mem_cons_self quiet⟩

/-- A removal that overtakes the registration leaves the storage in the client's list. -/
theorem peer_views_differ_after_overtaking :
    ¬ ∀ s, (peerFeed Scenario.config).Reachable s → s.Quiet → s.ViewsAgree := by
  intro claimed
  have computed : (((peerFeed Scenario.config).exec PeerFeed.Scenario.initial
      (PeerFeed.Scenario.lost ++ [.deliver 3, .deliver 2])).any fun s =>
        decide (s.client = .listening ∧ s.unannounced = [] ∧ s.messages.rows = [] ∧
          s.storages.map StoragePeerInfo.storageId = [1] ∧ s.server.storages.rows = [])) =
      true := by decide +kernel
  obtain ⟨s, ends, shows⟩ := (Option.any_eq_true _ _).mp computed
  obtain ⟨listening, announced, arrived, listed, gone⟩ := of_decide_eq_true shows
  have initial : (peerFeed Scenario.config).Init PeerFeed.Scenario.initial :=
    ⟨CentralDb.open', rfl⟩
  have agree := claimed s (System.exec_reachable _ initial ends) ⟨listening, announced, arrived⟩
  have lengths := congrArg List.length agree
  have one := congrArg List.length listed
  have none : s.server.storagePeersSnapshot = [] := by
    unfold CentralServer.storagePeersSnapshot
    rw [gone]
    rfl
  rw [none] at lengths
  simp only [List.length_map] at lengths one
  exact absurd (one.symm.trans lengths) (by decide)

end Fs0
