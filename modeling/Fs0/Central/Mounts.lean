import Fs0.Central.MountSteps

/-!
Contract: the mount table and the registered storages agree along every run.

Owns:
- the storage ids a connection holds, and that no two connections hold one id;
- that a volume is mounted for a storage exactly when the storage lists it, but for
  the storages between two steps of a registration or of a cleanup;
- that the registrations outlive no connection, as long as each is the first of its
  connection.

Does not own: the rows of the volumes, and what a storage may change.
-/

set_option autoImplicit false

namespace Fs0

open Lib

/-! ## Storage ids -/

/-- The storage id a handler has drawn and not named its connection by yet. -/
def Handler.storageId? : Handler → Option Nat
  | .mountVolumes peer => some peer.storageId
  | .insertStorage peer => some peer.storageId
  | .storageInserted storageId => some storageId
  | _ => none

theorem Handler.storageId?_of_not_registers {handler : Handler}
    (registers : ¬ handler.Registers) : handler.storageId? = none := by
  cases handler <;> first | rfl | exact absurd trivial registers

namespace ControlConnection

def Handles (conn : ControlConnection) (handler : Handler) : Prop :=
  ∃ stream, conn.handling = some ⟨stream, handler⟩

theorem handles_unique {conn : ControlConnection} {left right : Handler}
    (handlesLeft : conn.Handles left) (handlesRight : conn.Handles right) : left = right := by
  obtain ⟨stream, handlesLeft⟩ := handlesLeft
  obtain ⟨stream', handlesRight⟩ := handlesRight
  exact (Handling.mk.inj (Option.some.inj (handlesLeft.symm.trans handlesRight))).2

theorem handles_iff {conn : ControlConnection} {stream : Nat} {handler other : Handler}
    (handles : conn.handling = some ⟨stream, handler⟩) :
    conn.Handles other ↔ other = handler := by
  refine ⟨fun also => handles_unique also ⟨stream, handles⟩, ?_⟩
  rintro rfl
  exact ⟨stream, handles⟩

theorem not_handles {conn : ControlConnection} (idle : conn.handling = none)
    (handler : Handler) : ¬ conn.Handles handler := by
  rintro ⟨stream, handles⟩
  rw [idle] at handles
  cases handles

/-- A connection is named by a storage id, or its handler is about to do so. -/
def HoldsStorage (conn : ControlConnection) (storageId : Nat) : Prop :=
  conn.identity = .storage storageId ∨
    ∃ handler, conn.Handles handler ∧ handler.storageId? = some storageId

/-- A storage is on its way into the registered storages. -/
def Mounting (conn : ControlConnection) (peer : StoragePeerInfo) : Prop :=
  conn.Handles (.insertStorage peer)

/-- A storage has its id and is not registered. -/
def Numbered (conn : ControlConnection) (peer : StoragePeerInfo) : Prop :=
  conn.Handles (.mountVolumes peer) ∨ conn.Mounting peer

theorem Numbered.holds {conn : ControlConnection} {peer : StoragePeerInfo}
    (numbered : conn.Numbered peer) : conn.HoldsStorage peer.storageId := by
  rcases numbered with handles | handles
  · exact .inr ⟨_, handles, rfl⟩
  · exact .inr ⟨_, handles, rfl⟩

end ControlConnection

namespace CentralServer

/-- A volume is mounted for a storage. -/
def Mounts (server : CentralServer) (volumeId storageId : Nat) : Prop :=
  ⟨volumeId, storageId⟩ ∈ server.onlineVolumes.rows

theorem mounts_unique {server : CentralServer} {volumeId storageId other : Nat}
    (mounted : server.Mounts volumeId storageId) (also : server.Mounts volumeId other) :
    storageId = other :=
  have same : (⟨volumeId, storageId⟩ : OnlineVolume) = ⟨volumeId, other⟩ :=
    Table.eq_of_key_eq mounted also rfl
  (OnlineVolume.mk.inj same).2

/-- What mounting the volumes of a storage adds to the mount table. -/
theorem mem_mounted {mounted : Table OnlineVolume.volumeId} {volumes : List StorageVolumeInfo}
    {storageId : Nat} (free : ∀ volume ∈ volumes, mounted.find? volume.volumeId = none ∨
      mounted.find? volume.volumeId = some ⟨volume.volumeId, storageId⟩) {row : OnlineVolume} :
    row ∈ (volumes.foldl (fun mounted volume => mounted.put ⟨volume.volumeId, storageId⟩)
        mounted).rows ↔
      row ∈ mounted.rows ∨
        row.storageId = storageId ∧ row.volumeId ∈ volumes.map StorageVolumeInfo.volumeId := by
  induction volumes generalizing mounted with
  | nil => simp
  | cons volume rest inductionHypothesis =>
      have head := free volume List.mem_cons_self
      rw [List.foldl_cons, inductionHypothesis, Table.mem_put, List.map_cons, List.mem_cons]
      · constructor
        · rintro ((rfl | ⟨old, -⟩) | ⟨isStorage, among⟩)
          · exact .inr ⟨rfl, .inl rfl⟩
          · exact .inl old
          · exact .inr ⟨isStorage, .inr among⟩
        · rintro (old | ⟨rfl, isVolume | among⟩)
          · by_cases same : row.volumeId = volume.volumeId
            · have found := Table.find?_eq_some.mpr ⟨old, same⟩
              rw [found] at head
              exact .inl (.inl (Option.some.inj (head.resolve_left nofun)))
            · exact .inl (.inr ⟨old, same⟩)
          · exact .inl (.inl (by rw [← isVolume]))
          · exact .inr ⟨rfl, among⟩
      · intro other member
        by_cases same : other.volumeId = volume.volumeId
        · rw [same]
          exact .inr Table.find?_put_self
        · rw [Table.find?_put_of_ne (t := mounted)
            (r := OnlineVolume.mk volume.volumeId storageId) same]
          exact free other (List.mem_cons_of_mem _ member)

theorem mounts_mounted {server : CentralServer} {peer : StoragePeerInfo}
    (free : ∀ volume ∈ peer.volumes, server.onlineVolumes.find? volume.volumeId = none)
    {volumeId storageId : Nat} :
    CentralServer.Mounts { server with
        onlineVolumes := peer.volumes.foldl
          (fun mounted volume => mounted.put ⟨volume.volumeId, peer.storageId⟩)
          server.onlineVolumes } volumeId storageId ↔
      server.Mounts volumeId storageId ∨
        storageId = peer.storageId ∧
          volumeId ∈ peer.volumes.map StorageVolumeInfo.volumeId :=
  mem_mounted fun volume among => .inl (free volume among)

theorem lists_put {server : CentralServer} {peer : StoragePeerInfo} {connection storageId c : Nat}
    {volumeIds : List Nat} :
    CentralServer.Lists { server with storages := server.storages.put ⟨peer, connection⟩ }
        storageId c volumeIds ↔
      (storageId = peer.storageId ∧ c = connection ∧
        volumeIds = peer.volumes.map StorageVolumeInfo.volumeId) ∨
      server.Lists storageId c volumeIds ∧ storageId ≠ peer.storageId := by
  constructor
  · rintro ⟨storage, member, rfl, rfl, rfl⟩
    rcases Table.mem_put.mp member with rfl | ⟨old, other⟩
    · exact .inl ⟨rfl, rfl, rfl⟩
    · exact .inr ⟨⟨storage, old, rfl, rfl, rfl⟩, other⟩
  · rintro (⟨rfl, rfl, rfl⟩ | ⟨⟨storage, member, rfl, rfl, rfl⟩, other⟩)
    · exact ⟨⟨peer, c⟩, Table.mem_put.mpr (.inl rfl), rfl, rfl, rfl⟩
    · exact ⟨storage, Table.mem_put.mpr (.inr ⟨member, other⟩), rfl, rfl, rfl⟩

theorem lists_removeStorage {server : CentralServer} {removed storageId connection : Nat}
    {volumeIds : List Nat} :
    (server.removeStorage removed).Lists storageId connection volumeIds ↔
      server.Lists storageId connection volumeIds ∧ storageId ≠ removed := by
  constructor
  · rintro ⟨storage, member, rfl, rfl, rfl⟩
    obtain ⟨old, other⟩ := Table.mem_delete.mp member
    exact ⟨⟨storage, old, rfl, rfl, rfl⟩, by simpa using other⟩
  · rintro ⟨⟨storage, member, rfl, rfl, rfl⟩, other⟩
    exact ⟨storage, Table.mem_delete.mpr ⟨member, by simpa using other⟩, rfl, rfl, rfl⟩

theorem mounts_unmountStorage {server : CentralServer} {removed volumeId storageId : Nat} :
    (server.unmountStorage removed).Mounts volumeId storageId ↔
      server.Mounts volumeId storageId ∧ storageId ≠ removed := by
  unfold Mounts unmountStorage
  rw [Table.mem_delete]
  simp

end CentralServer

/-! ## What a step does to the storages -/

/-- What an event does to the storages: the server and the connection before and
after it. -/
inductive StorageStep (server : CentralServer) (conn : ControlConnection) :
    CentralServer → ControlConnection → Prop where
  | idle {server' : CentralServer} {conn' : ControlConnection}
      (nextId : server.nextId ≤ server'.nextId)
      (onlineVolumes : server'.onlineVolumes = server.onlineVolumes)
      (lists : ∀ storageId connection volumeIds,
        server'.Lists storageId connection volumeIds ↔ server.Lists storageId connection volumeIds)
      (holds : ∀ storageId, conn'.HoldsStorage storageId → conn.HoldsStorage storageId)
      (numbered : ∀ peer, conn'.Numbered peer → conn.Numbered peer)
      (mounting : ∀ peer, conn'.Mounting peer ↔ conn.Mounting peer)
      (unmounting : ∀ storageId, conn'.phase = .unmounting storageId ↔
        conn.phase = .unmounting storageId)
      (locked : ∀ storageId, conn.phase = .unmounting storageId → conn.handling = none →
        conn'.handling = none ∧ conn'.identity = conn.identity) :
      StorageStep server conn server' conn'
  | numbered (stream : Nat) (peer : StoragePeerInfo) (isNext : peer.storageId = server.nextId)
      (unbound : ∀ peer, ¬ conn.Mounting peer) (handled : conn.handling ≠ none) :
      StorageStep server conn { server with nextId := server.nextId + 1 }
        { conn with handling := some ⟨stream, .mountVolumes peer⟩ }
  | mounted (stream : Nat) (peer : StoragePeerInfo)
      (handles : conn.handling = some ⟨stream, .mountVolumes peer⟩)
      (free : ∀ volume ∈ peer.volumes, server.onlineVolumes.find? volume.volumeId = none) :
      StorageStep server conn
        { server with
          onlineVolumes := peer.volumes.foldl
            (fun mounted volume => mounted.put ⟨volume.volumeId, peer.storageId⟩)
            server.onlineVolumes }
        { conn with handling := some ⟨stream, .insertStorage peer⟩ }
  | inserted (stream : Nat) (peer : StoragePeerInfo)
      (handles : conn.handling = some ⟨stream, .insertStorage peer⟩) :
      StorageStep server conn
        { server with storages := server.storages.put ⟨peer, conn.connection⟩ }
        { conn with handling := some ⟨stream, .storageInserted peer.storageId⟩ }
  | left (storageId : Nat) (ending : conn.phase = .ending) (idle : conn.handling = none)
      (identity : conn.identity = .storage storageId) :
      StorageStep server conn (server.removeStorage storageId)
        { conn with phase := .unmounting storageId }
  | unmounted (storageId : Nat) (unmounting : conn.phase = .unmounting storageId) :
      StorageStep server conn (server.unmountStorage storageId)
        { conn with phase := .unregistered }

section StorageStep

variable {server server' : CentralServer} {conn conn' : ControlConnection} {e : CentralEvent}

/-- A section that hands over to one without a storage id of its own. -/
theorem StorageStep.hands_over {stream : Nat} {handler handler' : Handler}
    {identity : ControlConnectionIdentity}
    (handles : conn.handling = some ⟨stream, handler⟩) (nextId : server.nextId ≤ server'.nextId)
    (onlineVolumes : server'.onlineVolumes = server.onlineVolumes)
    (storages : server'.storages = server.storages)
    (notMounting : ∀ peer, handler ≠ .insertStorage peer) (unnumbered : handler'.storageId? = none)
    (named : ∀ storageId, identity = .storage storageId → conn.HoldsStorage storageId) :
    StorageStep server conn server'
      { conn with identity := identity, handling := some ⟨stream, handler'⟩ } := by
  have idle : ∀ next, Handler.storageId? next ≠ none → ¬ ControlConnection.Handles
      { conn with identity := identity, handling := some ⟨stream, handler'⟩ } next := by
    rintro next numbered handles'
    rw [(ControlConnection.handles_iff rfl).mp handles'] at numbered
    exact numbered unnumbered
  refine .idle nextId onlineVolumes ?_ ?_ ?_ ?_ (fun _ => Iff.rfl) ?_
  · intro storageId connection volumeIds
    unfold CentralServer.Lists
    rw [storages]
  · rintro storageId (name | ⟨next, handles', isId⟩)
    · exact named storageId name
    · exact absurd handles' (idle next (by rw [isId]; exact nofun))
  · rintro peer (handles' | handles')
    · exact absurd handles' (idle _ nofun)
    · exact absurd handles' (idle _ nofun)
  · intro peer
    constructor
    · exact fun handles' => absurd handles' (idle _ nofun)
    · exact fun mounting => absurd ((ControlConnection.handles_iff handles).mp mounting).symm
        (notMounting peer)
  · intro storageId unmounting none
    rw [none] at handles
    cases handles

/-- A cleanup that has no storage to take out. -/
theorem StorageStep.leaves (ending : conn.phase = .ending)
    (nextId : server.nextId ≤ server'.nextId)
    (onlineVolumes : server'.onlineVolumes = server.onlineVolumes)
    (storages : server'.storages = server.storages) :
    StorageStep server conn server' { conn with phase := .unregistered } := by
  refine .idle nextId onlineVolumes ?_ (fun _ => id) (fun _ => id) (fun _ => Iff.rfl) ?_ ?_
  · intro storageId connection volumeIds
    unfold CentralServer.Lists
    rw [storages]
  · intro storageId
    rw [ending]
    exact ⟨nofun, nofun⟩
  · exact fun storageId _ none => ⟨none, rfl⟩

theorem PhaseKept.unmounting_iff {phase phase' : ConnectionPhase} (kept : PhaseKept phase phase')
    (storageId : Nat) : phase' = .unmounting storageId ↔ phase = .unmounting storageId := by
  cases kept with
  | same => exact Iff.rfl
  | ends accepting => exact ⟨nofun, fun unmounting => by rw [accepting] at unmounting; cases unmounting⟩
  | finishes unregistered =>
      exact ⟨nofun, fun unmounting => by rw [unregistered] at unmounting; cases unmounting⟩

/-- Every step of the registrations is one of these. -/
theorem RegistrationStep.storageStep (step : RegistrationStep server conn e server' conn') :
    StorageStep server conn server' conn' := by
  cases step with
  | idle mounts connection identity phase handling locked =>
      have handlers : ∀ handler, handler.Registers → conn'.Handles handler →
          conn.Handles handler := by
        rintro handler registers ⟨stream, handles⟩
        rcases handling with same | ⟨-, idle⟩
        · exact ⟨stream, same ▸ handles⟩
        · exact absurd registers (idle stream handler handles)
      refine .idle mounts.nextId.ge mounts.onlineVolumes mounts.lists ?_ ?_ ?_
        phase.unmounting_iff fun storageId unmounting idle =>
          ⟨locked storageId unmounting idle, identity⟩
      · rintro storageId (name | ⟨handler, handles, isId⟩)
        · exact .inl (identity ▸ name)
        · refine .inr ⟨handler, handlers handler ?_ handles, isId⟩
          by_contra registers
          rw [Handler.storageId?_of_not_registers registers] at isId
          cases isId
      · exact fun peer numbered => numbered.imp (handlers _ trivial) (handlers _ trivial)
      · intro peer
        refine ⟨handlers _ trivial, ?_⟩
        rintro ⟨stream, handles⟩
        rcases handling with same | ⟨unbound, -⟩
        · exact ⟨stream, same ▸ handles⟩
        · exact absurd trivial (unbound stream _ handles)
  | clientNumbered stream request token handles =>
      exact .hands_over handles (Nat.le_succ _) rfl rfl nofun rfl fun _ => .inl
  | clientInserted stream clientId token handles inputs runs =>
      exact .hands_over handles le_rfl rfl rfl nofun rfl fun _ => .inl
  | clientNamed stream clientId response handles =>
      exact .hands_over handles le_rfl rfl rfl nofun rfl nofun
  | storageNumbered stream name volumes irohEndpoint handles =>
      refine .numbered stream _ rfl ?_ (by rw [handles]; exact nofun)
      exact fun peer mounting => nomatch (ControlConnection.handles_iff handles).mp mounting
  | mounted stream peer handles free inputs runs => exact .mounted stream peer handles free
  | storageInserted stream peer handles => exact .inserted stream peer handles
  | storageNamed stream storageId response handles =>
      refine .hands_over handles le_rfl rfl rfl nofun rfl ?_
      intro name isName
      obtain rfl := ControlConnectionIdentity.storage.inj isName
      exact .inr ⟨_, ⟨stream, handles⟩, rfl⟩
  | anonymousLeft ending idle identity => exact .leaves ending le_rfl rfl rfl
  | clientLeft clientId ending idle identity => exact .leaves ending le_rfl rfl rfl
  | storageLeft storageId ending idle identity => exact .left storageId ending idle identity
  | unmounted storageId unmounting => exact .unmounted storageId unmounting

end StorageStep

/-! ## Claims -/

/-- One connection of a list goes on. -/
structure Swapped (conns conns' : List ControlConnection) (conn conn' : ControlConnection) :
    Prop where
  before : conn ∈ conns
  after : conn' ∈ conns'
  new : ∀ other ∈ conns', other = conn' ∨ other ∈ conns ∧ other ≠ conn
  old : ∀ other ∈ conns, other = conn ∨ other ∈ conns'

theorem swapped_of_replace {connections : SeqTable ControlConnection.connection}
    {conn conn' : ControlConnection} (member : conn ∈ connections.rows)
    (same : conn'.connection = conn.connection) :
    Swapped connections.rows (connections.replace conn').rows conn conn' where
  before := member
  after := SeqTable.mem_replace_self member same.symm
  new other among := by
    rcases SeqTable.mem_replace among with isNew | ⟨old, differs⟩
    · exact .inl isNew
    · refine .inr ⟨old, ?_⟩
      rintro rfl
      exact differs same.symm
  old other among := by
    by_cases keyed : other.connection = conn.connection
    · exact .inl (Table.eq_of_key_eq among member keyed)
    · exact .inr (SeqTable.mem_replace_of_ne among (same ▸ keyed))

/-- The claims on storages and volumes: of the registered storages, of those on their
way into the maps, and of those on their way out. -/
structure Claims (server : CentralServer) (conns : List ControlConnection) : Prop where
  bounded : ∀ conn ∈ conns, ∀ storageId, conn.HoldsStorage storageId →
    storageId < server.nextId
  disjoint : ∀ conn ∈ conns, ∀ other ∈ conns, ∀ storageId, conn.HoldsStorage storageId →
    other.HoldsStorage storageId → other = conn
  known : ∀ storageId connection volumeIds, server.Lists storageId connection volumeIds →
    storageId < server.nextId
  unmounting : ∀ conn ∈ conns, ∀ storageId, conn.phase = .unmounting storageId →
    conn.handling = none ∧ conn.identity = .storage storageId ∧
      ∀ connection volumeIds, ¬ server.Lists storageId connection volumeIds
  numbered : ∀ conn ∈ conns, ∀ peer, conn.Numbered peer →
    ∀ connection volumeIds, ¬ server.Lists peer.storageId connection volumeIds
  mounting : ∀ conn ∈ conns, ∀ peer, conn.Mounting peer →
    ∀ volumeId ∈ peer.volumes.map StorageVolumeInfo.volumeId,
      server.Mounts volumeId peer.storageId
  listed : ∀ storageId connection volumeIds, server.Lists storageId connection volumeIds →
    ∀ volumeId ∈ volumeIds, server.Mounts volumeId storageId
  online : ∀ volumeId storageId, server.Mounts volumeId storageId →
    (∃ connection volumeIds, server.Lists storageId connection volumeIds ∧
      volumeId ∈ volumeIds) ∨
    (∃ conn ∈ conns, ∃ peer, conn.Mounting peer ∧ peer.storageId = storageId ∧
      volumeId ∈ peer.volumes.map StorageVolumeInfo.volumeId) ∨
    ∃ conn ∈ conns, conn.phase = .unmounting storageId

namespace Claims

variable {server server' : CentralServer} {conns conns' : List ControlConnection}
  {conn conn' : ControlConnection}

theorem empty (db : CentralDb) : Claims (CentralServer.run db) [] := by
  have unlisted : ∀ storageId connection volumeIds,
      ¬ (CentralServer.run db).Lists storageId connection volumeIds := by
    rintro storageId connection volumeIds ⟨storage, member, -⟩
    cases member
  have nobody : ∀ conn : ControlConnection, conn ∉ ([] : List ControlConnection) :=
    fun _ => List.not_mem_nil
  constructor
  · exact fun conn member => absurd member (nobody conn)
  · exact fun conn member => absurd member (nobody conn)
  · exact fun storageId c volumeIds listed => absurd listed (unlisted storageId c volumeIds)
  · exact fun conn member => absurd member (nobody conn)
  · exact fun conn member => absurd member (nobody conn)
  · exact fun conn member => absurd member (nobody conn)
  · exact fun storageId c volumeIds listed => absurd listed (unlisted storageId c volumeIds)
  · intro volumeId storageId mounted
    cases mounted

/-- A new connection claims nothing. -/
theorem connect (claims : Claims server conns) {connection : Nat} :
    Claims server (conns ++ [.new connection]) := by
  have unnamed : ∀ storageId, ¬ (ControlConnection.new connection).HoldsStorage storageId := by
    rintro storageId (name | ⟨handler, ⟨stream, handles⟩, -⟩)
    · cases name
    · cases handles
  have cases' : ∀ other ∈ conns ++ [.new connection],
      other ∈ conns ∨ other = .new connection := fun _ => mem_appended.mp
  constructor
  · intro other member storageId holds
    rcases cases' other member with old | rfl
    · exact claims.bounded other old storageId holds
    · exact absurd holds (unnamed storageId)
  · intro left leftMem right rightMem storageId holdsLeft holdsRight
    rcases cases' left leftMem with oldLeft | rfl
    · rcases cases' right rightMem with oldRight | rfl
      · exact claims.disjoint left oldLeft right oldRight storageId holdsLeft holdsRight
      · exact absurd holdsRight (unnamed storageId)
    · exact absurd holdsLeft (unnamed storageId)
  · exact claims.known
  · intro other member storageId phase
    rcases cases' other member with old | rfl
    · exact claims.unmounting other old storageId phase
    · cases phase
  · intro other member peer numbered
    rcases cases' other member with old | rfl
    · exact claims.numbered other old peer numbered
    · exact absurd numbered.holds (unnamed _)
  · intro other member peer mounting
    rcases cases' other member with old | rfl
    · exact claims.mounting other old peer mounting
    · exact absurd (ControlConnection.Numbered.holds (.inr mounting)) (unnamed _)
  · exact claims.listed
  · intro volumeId storageId mounted
    rcases claims.online volumeId storageId mounted with listed |
      ⟨other, member, mounting⟩ | ⟨other, member, phase⟩
    · exact .inl listed
    · exact .inr (.inl ⟨other, mem_appended.mpr (.inl member), mounting⟩)
    · exact .inr (.inr ⟨other, mem_appended.mpr (.inl member), phase⟩)

/-- Nobody else holds the storage id a connection holds. -/
theorem alone (claims : Claims server conns) (member : conn ∈ conns) {storageId : Nat}
    (holds : conn.HoldsStorage storageId) {other : ControlConnection} (among : other ∈ conns)
    (differs : other ≠ conn) : ¬ other.HoldsStorage storageId :=
  fun also => differs (claims.disjoint conn member other among storageId holds also)

section Step

theorem bounded_of_holds (claims : Claims server conns) (swapped : Swapped conns conns' conn conn')
    (nextId : server.nextId ≤ server'.nextId)
    (holds : ∀ storageId, conn'.HoldsStorage storageId → conn.HoldsStorage storageId) :
    ∀ other ∈ conns', ∀ storageId, other.HoldsStorage storageId → storageId < server'.nextId := by
  intro other member storageId held
  rcases swapped.new other member with rfl | ⟨old, -⟩
  · exact (claims.bounded conn swapped.before storageId (holds storageId held)).trans_le nextId
  · exact (claims.bounded other old storageId held).trans_le nextId

theorem disjoint_of_holds (claims : Claims server conns)
    (swapped : Swapped conns conns' conn conn')
    (holds : ∀ storageId, conn'.HoldsStorage storageId → conn.HoldsStorage storageId ∨
      storageId = server.nextId) :
    ∀ left ∈ conns', ∀ right ∈ conns', ∀ storageId, left.HoldsStorage storageId →
      right.HoldsStorage storageId → right = left := by
  have apart : ∀ storageId, conn'.HoldsStorage storageId → ∀ other ∈ conns, other ≠ conn →
      ¬ other.HoldsStorage storageId := by
    intro storageId held other member differs also
    rcases holds storageId held with held | rfl
    · exact claims.alone swapped.before held member differs also
    · exact absurd (claims.bounded other member _ also) (lt_irrefl _)
  intro left leftMem right rightMem storageId holdsLeft holdsRight
  rcases swapped.new left leftMem with rfl | ⟨oldLeft, differsLeft⟩
  · rcases swapped.new right rightMem with rfl | ⟨oldRight, differsRight⟩
    · rfl
    · exact absurd holdsRight (apart storageId holdsLeft right oldRight differsRight)
  · rcases swapped.new right rightMem with rfl | ⟨oldRight, differsRight⟩
    · exact absurd holdsLeft (apart storageId holdsRight left oldLeft differsLeft)
    · exact claims.disjoint left oldLeft right oldRight storageId holdsLeft holdsRight

theorem of_idle (claims : Claims server conns) (swapped : Swapped conns conns' conn conn')
    (nextId : server.nextId ≤ server'.nextId)
    (onlineVolumes : server'.onlineVolumes = server.onlineVolumes)
    (lists : ∀ storageId connection volumeIds,
      server'.Lists storageId connection volumeIds ↔ server.Lists storageId connection volumeIds)
    (holds : ∀ storageId, conn'.HoldsStorage storageId → conn.HoldsStorage storageId)
    (numbered : ∀ peer, conn'.Numbered peer → conn.Numbered peer)
    (mounting : ∀ peer, conn'.Mounting peer ↔ conn.Mounting peer)
    (unmounting : ∀ storageId, conn'.phase = .unmounting storageId ↔
      conn.phase = .unmounting storageId)
    (locked : ∀ storageId, conn.phase = .unmounting storageId → conn.handling = none →
      conn'.handling = none ∧ conn'.identity = conn.identity) : Claims server' conns' := by
  have here := swapped.before
  have mounts : ∀ volumeId storageId, server'.Mounts volumeId storageId ↔
      server.Mounts volumeId storageId := by
    intro volumeId storageId
    unfold CentralServer.Mounts
    rw [onlineVolumes]
  refine ⟨claims.bounded_of_holds swapped nextId holds,
    claims.disjoint_of_holds swapped fun storageId held => .inl (holds storageId held),
    ?_, ?_, ?_, ?_, ?_, ?_⟩
  · intro storageId c volumeIds listed
    exact (claims.known storageId c volumeIds ((lists _ _ _).mp listed)).trans_le nextId
  · intro other member storageId phase
    rcases swapped.new other member with rfl | ⟨old, -⟩
    · have before := (unmounting storageId).mp phase
      obtain ⟨idle, name, absent⟩ := claims.unmounting conn here storageId before
      obtain ⟨idle', identity⟩ := locked storageId before idle
      exact ⟨idle', identity.trans name, fun c volumeIds listed =>
        absent c volumeIds ((lists _ _ _).mp listed)⟩
    · obtain ⟨idle, name, absent⟩ := claims.unmounting other old storageId phase
      exact ⟨idle, name, fun c volumeIds listed => absent c volumeIds ((lists _ _ _).mp listed)⟩
  · intro other member peer numbered' c volumeIds listed
    rcases swapped.new other member with rfl | ⟨old, -⟩
    · exact claims.numbered conn here peer (numbered peer numbered') c volumeIds
        ((lists _ _ _).mp listed)
    · exact claims.numbered other old peer numbered' c volumeIds ((lists _ _ _).mp listed)
  · intro other member peer mounting' volumeId among
    apply (mounts volumeId peer.storageId).mpr
    rcases swapped.new other member with rfl | ⟨old, -⟩
    · exact claims.mounting conn here peer ((mounting peer).mp mounting') volumeId among
    · exact claims.mounting other old peer mounting' volumeId among
  · intro storageId c volumeIds listed volumeId among
    exact (mounts volumeId storageId).mpr
      (claims.listed storageId c volumeIds ((lists _ _ _).mp listed) volumeId among)
  · intro volumeId storageId mounted
    rcases claims.online volumeId storageId ((mounts volumeId storageId).mp mounted) with
      ⟨c, volumeIds, listed, among⟩ | ⟨other, member, peer, mounting', among⟩ |
      ⟨other, member, phase⟩
    · exact .inl ⟨c, volumeIds, (lists _ _ _).mpr listed, among⟩
    · rcases swapped.old other member with rfl | kept
      · exact .inr (.inl ⟨conn', swapped.after, peer, (mounting peer).mpr mounting', among⟩)
      · exact .inr (.inl ⟨other, kept, peer, mounting', among⟩)
    · rcases swapped.old other member with rfl | kept
      · exact .inr (.inr ⟨conn', swapped.after, (unmounting storageId).mpr phase⟩)
      · exact .inr (.inr ⟨other, kept, phase⟩)

/-- A connection whose handler runs is not past the first half of its cleanup. -/
theorem not_unmounting (claims : Claims server conns) (member : conn ∈ conns)
    (handled : conn.handling ≠ none) (storageId : Nat) : conn.phase ≠ .unmounting storageId :=
  fun phase => handled (claims.unmounting conn member storageId phase).1

theorem of_numbered {stream : Nat} {peer : StoragePeerInfo} (claims : Claims server conns)
    (swapped : Swapped conns conns' conn
      { conn with handling := some ⟨stream, .mountVolumes peer⟩ })
    (isNext : peer.storageId = server.nextId) (unbound : ∀ peer, ¬ conn.Mounting peer)
    (handled : conn.handling ≠ none) :
    Claims { server with nextId := server.nextId + 1 } conns' := by
  have here := swapped.before
  have holds : ∀ storageId, ControlConnection.HoldsStorage
      { conn with handling := some ⟨stream, .mountVolumes peer⟩ } storageId →
      conn.HoldsStorage storageId ∨ storageId = server.nextId := by
    rintro storageId (name | ⟨handler, handles, isId⟩)
    · exact .inl (.inl name)
    · obtain rfl := (ControlConnection.handles_iff rfl).mp handles
      exact .inr ((Option.some.inj isId).symm.trans isNext)
  refine ⟨?_, claims.disjoint_of_holds swapped holds, ?_, ?_, ?_, ?_, claims.listed, ?_⟩
  · intro other member storageId held
    rcases swapped.new other member with rfl | ⟨old, -⟩
    · rcases holds storageId held with held | rfl
      · exact Nat.lt_succ_of_lt (claims.bounded conn here storageId held)
      · exact Nat.lt_succ_self _
    · exact Nat.lt_succ_of_lt (claims.bounded other old storageId held)
  · intro storageId c volumeIds listed
    exact Nat.lt_succ_of_lt (claims.known storageId c volumeIds listed)
  · intro other member storageId phase
    rcases swapped.new other member with rfl | ⟨old, -⟩
    · exact absurd phase (claims.not_unmounting here handled storageId)
    · exact claims.unmounting other old storageId phase
  · intro other member other' numbered c volumeIds listed
    rcases swapped.new other member with rfl | ⟨old, -⟩
    · rcases numbered with handles | handles
      · obtain rfl := Handler.mountVolumes.inj ((ControlConnection.handles_iff rfl).mp handles)
        exact absurd (claims.known _ c volumeIds listed) (isNext ▸ lt_irrefl _)
      · cases (ControlConnection.handles_iff rfl).mp handles
    · exact claims.numbered other old other' numbered c volumeIds listed
  · intro other member other' mounting volumeId among
    rcases swapped.new other member with rfl | ⟨old, -⟩
    · cases (ControlConnection.handles_iff rfl).mp mounting
    · exact claims.mounting other old other' mounting volumeId among
  · intro volumeId storageId mounted
    rcases claims.online volumeId storageId mounted with listed |
      ⟨other, member, other', mounting, among⟩ | ⟨other, member, phase⟩
    · exact .inl listed
    · rcases swapped.old other member with rfl | kept
      · exact absurd mounting (unbound other')
      · exact .inr (.inl ⟨other, kept, other', mounting, among⟩)
    · rcases swapped.old other member with rfl | kept
      · exact absurd phase (claims.not_unmounting here handled storageId)
      · exact .inr (.inr ⟨other, kept, phase⟩)

theorem of_mounted {stream : Nat} {peer : StoragePeerInfo} (claims : Claims server conns)
    (swapped : Swapped conns conns' conn
      { conn with handling := some ⟨stream, .insertStorage peer⟩ })
    (handles : conn.handling = some ⟨stream, .mountVolumes peer⟩)
    (free : ∀ volume ∈ peer.volumes, server.onlineVolumes.find? volume.volumeId = none) :
    Claims { server with
      onlineVolumes := peer.volumes.foldl
        (fun mounted volume => mounted.put ⟨volume.volumeId, peer.storageId⟩)
        server.onlineVolumes } conns' := by
  have here := swapped.before
  have handled : conn.handling ≠ none := by rw [handles]; exact nofun
  have numberedHere : conn.Numbered peer := .inl ⟨stream, handles⟩
  have isPeer : ∀ {other}, ControlConnection.Mounting
      { conn with handling := some ⟨stream, .insertStorage peer⟩ } other → other = peer :=
    fun mounting => Handler.insertStorage.inj ((ControlConnection.handles_iff rfl).mp mounting)
  have holds : ∀ storageId, ControlConnection.HoldsStorage
      { conn with handling := some ⟨stream, .insertStorage peer⟩ } storageId →
      conn.HoldsStorage storageId := by
    rintro storageId (name | ⟨handler, also, isId⟩)
    · exact .inl name
    · obtain rfl := (ControlConnection.handles_iff rfl).mp also
      exact .inr ⟨_, ⟨stream, handles⟩, isId⟩
  refine ⟨claims.bounded_of_holds swapped le_rfl holds,
    claims.disjoint_of_holds swapped fun storageId held => .inl (holds storageId held),
    claims.known, ?_, ?_, ?_, ?_, ?_⟩
  · intro other member storageId phase
    rcases swapped.new other member with rfl | ⟨old, -⟩
    · exact absurd phase (claims.not_unmounting here handled storageId)
    · exact claims.unmounting other old storageId phase
  · intro other member other' numbered c volumeIds listed
    rcases swapped.new other member with rfl | ⟨old, -⟩
    · rcases numbered with also | also
      · cases (ControlConnection.handles_iff rfl).mp also
      · obtain rfl := isPeer also
        exact claims.numbered conn here _ numberedHere c volumeIds listed
    · exact claims.numbered other old other' numbered c volumeIds listed
  · intro other member other' mounting volumeId among
    rcases swapped.new other member with rfl | ⟨old, -⟩
    · obtain rfl := isPeer mounting
      exact (CentralServer.mounts_mounted free).mpr (.inr ⟨rfl, among⟩)
    · exact (CentralServer.mounts_mounted free).mpr (.inl (claims.mounting other old other' mounting volumeId among))
  · intro storageId c volumeIds listed volumeId among
    exact (CentralServer.mounts_mounted free).mpr (.inl (claims.listed storageId c volumeIds listed volumeId among))
  · intro volumeId storageId mounted
    rcases (CentralServer.mounts_mounted free).mp mounted with old | ⟨rfl, among⟩
    · rcases claims.online volumeId storageId old with listed |
        ⟨other, member, other', mounting, among⟩ | ⟨other, member, phase⟩
      · exact .inl listed
      · rcases swapped.old other member with rfl | kept
        · cases (ControlConnection.handles_iff handles).mp mounting
        · exact .inr (.inl ⟨other, kept, other', mounting, among⟩)
      · rcases swapped.old other member with rfl | kept
        · exact absurd phase (claims.not_unmounting here handled storageId)
        · exact .inr (.inr ⟨other, kept, phase⟩)
    · exact .inr (.inl ⟨_, swapped.after, peer, ⟨stream, rfl⟩, rfl, among⟩)

theorem of_inserted {stream : Nat} {peer : StoragePeerInfo} (claims : Claims server conns)
    (swapped : Swapped conns conns' conn
      { conn with handling := some ⟨stream, .storageInserted peer.storageId⟩ })
    (handles : conn.handling = some ⟨stream, .insertStorage peer⟩) :
    Claims { server with storages := server.storages.put ⟨peer, conn.connection⟩ } conns' := by
  have here := swapped.before
  have handled : conn.handling ≠ none := by rw [handles]; exact nofun
  have mountingHere : conn.Mounting peer := ⟨stream, handles⟩
  have held : conn.HoldsStorage peer.storageId := ControlConnection.Numbered.holds (.inr mountingHere)
  have holds : ∀ storageId, ControlConnection.HoldsStorage
      { conn with handling := some ⟨stream, .storageInserted peer.storageId⟩ } storageId →
      conn.HoldsStorage storageId := by
    rintro storageId (name | ⟨handler, also, isId⟩)
    · exact .inl name
    · obtain rfl := (ControlConnection.handles_iff rfl).mp also
      exact .inr ⟨_, ⟨stream, handles⟩, isId⟩
  refine ⟨claims.bounded_of_holds swapped le_rfl holds,
    claims.disjoint_of_holds swapped fun storageId held => .inl (holds storageId held),
    ?_, ?_, ?_, ?_, ?_, ?_⟩
  · intro storageId c volumeIds listed
    rcases CentralServer.lists_put.mp listed with ⟨rfl, -, -⟩ | ⟨old, -⟩
    · exact claims.bounded conn here _ held
    · exact claims.known storageId c volumeIds old
  · intro other member storageId phase
    rcases swapped.new other member with rfl | ⟨old, differs⟩
    · exact absurd phase (claims.not_unmounting here handled storageId)
    · obtain ⟨idle, name, absent⟩ := claims.unmounting other old storageId phase
      refine ⟨idle, name, fun c volumeIds listed => ?_⟩
      rcases CentralServer.lists_put.mp listed with ⟨rfl, -, -⟩ | ⟨before, -⟩
      · exact claims.alone here held old differs (.inl name)
      · exact absent c volumeIds before
  · intro other member other' numbered c volumeIds listed
    rcases swapped.new other member with rfl | ⟨old, differs⟩
    · rcases numbered with also | also <;> cases (ControlConnection.handles_iff rfl).mp also
    · rcases CentralServer.lists_put.mp listed with ⟨same, -, -⟩ | ⟨before, -⟩
      · exact claims.alone here held old differs (same ▸ numbered.holds)
      · exact claims.numbered other old other' numbered c volumeIds before
  · intro other member other' mounting volumeId among
    rcases swapped.new other member with rfl | ⟨old, -⟩
    · cases (ControlConnection.handles_iff rfl).mp mounting
    · exact claims.mounting other old other' mounting volumeId among
  · intro storageId c volumeIds listed volumeId among
    rcases CentralServer.lists_put.mp listed with ⟨rfl, -, rfl⟩ | ⟨before, -⟩
    · exact claims.mounting conn here peer mountingHere volumeId among
    · exact claims.listed storageId c volumeIds before volumeId among
  · intro volumeId storageId mounted
    rcases claims.online volumeId storageId mounted with ⟨c, volumeIds, listed, among⟩ |
      ⟨other, member, other', mounting, isId, among⟩ | ⟨other, member, phase⟩
    · refine .inl ⟨c, volumeIds, CentralServer.lists_put.mpr (.inr ⟨listed, ?_⟩), among⟩
      rintro rfl
      exact claims.numbered conn here peer (.inr mountingHere) c volumeIds listed
    · rcases swapped.old other member with rfl | kept
      · obtain rfl := Handler.insertStorage.inj ((ControlConnection.handles_iff handles).mp mounting)
        exact .inl ⟨_, _, CentralServer.lists_put.mpr (.inl ⟨isId.symm, rfl, rfl⟩), among⟩
      · exact .inr (.inl ⟨other, kept, other', mounting, isId, among⟩)
    · rcases swapped.old other member with rfl | kept
      · exact absurd phase (claims.not_unmounting here handled storageId)
      · exact .inr (.inr ⟨other, kept, phase⟩)

theorem of_left {storageId : Nat} (claims : Claims server conns)
    (swapped : Swapped conns conns' conn { conn with phase := .unmounting storageId })
    (idle : conn.handling = none) (identity : conn.identity = .storage storageId) :
    Claims (server.removeStorage storageId) conns' := by
  have here := swapped.before
  refine ⟨claims.bounded_of_holds swapped le_rfl fun _ => id,
    claims.disjoint_of_holds swapped fun _ => .inl, ?_, ?_, ?_, ?_, ?_, ?_⟩
  · intro other c volumeIds listed
    exact claims.known other c volumeIds (CentralServer.lists_removeStorage.mp listed).1
  · intro other member removed phase
    rcases swapped.new other member with rfl | ⟨old, -⟩
    · obtain rfl := ConnectionPhase.unmounting.inj phase
      exact ⟨idle, identity, fun c volumeIds listed =>
        (CentralServer.lists_removeStorage.mp listed).2 rfl⟩
    · obtain ⟨idle, name, absent⟩ := claims.unmounting other old removed phase
      exact ⟨idle, name, fun c volumeIds listed =>
        absent c volumeIds (CentralServer.lists_removeStorage.mp listed).1⟩
  · intro other member peer numbered c volumeIds listed
    have before := (CentralServer.lists_removeStorage.mp listed).1
    rcases swapped.new other member with rfl | ⟨old, -⟩
    · exact claims.numbered conn here peer numbered c volumeIds before
    · exact claims.numbered other old peer numbered c volumeIds before
  · intro other member peer mounting volumeId among
    rcases swapped.new other member with rfl | ⟨old, -⟩
    · exact claims.mounting conn here peer mounting volumeId among
    · exact claims.mounting other old peer mounting volumeId among
  · intro other c volumeIds listed volumeId among
    exact claims.listed other c volumeIds (CentralServer.lists_removeStorage.mp listed).1 volumeId
      among
  · intro volumeId other mounted
    rcases claims.online volumeId other mounted with ⟨c, volumeIds, listed, among⟩ |
      ⟨owner, member, peer, mounting, among⟩ | ⟨owner, member, phase⟩
    · by_cases isRemoved : other = storageId
      · exact .inr (.inr ⟨_, swapped.after, congrArg ConnectionPhase.unmounting isRemoved.symm⟩)
      · exact .inl ⟨c, volumeIds, CentralServer.lists_removeStorage.mpr ⟨listed, isRemoved⟩, among⟩
    · rcases swapped.old owner member with rfl | kept
      · exact absurd mounting (ControlConnection.not_handles idle _)
      · exact .inr (.inl ⟨owner, kept, peer, mounting, among⟩)
    · rcases swapped.old owner member with rfl | kept
      · obtain ⟨-, name, -⟩ := claims.unmounting owner here other phase
        obtain rfl := ControlConnectionIdentity.storage.inj (identity.symm.trans name)
        exact .inr (.inr ⟨_, swapped.after, rfl⟩)
      · exact .inr (.inr ⟨owner, kept, phase⟩)

theorem of_unmounted {storageId : Nat} (claims : Claims server conns)
    (swapped : Swapped conns conns' conn { conn with phase := .unregistered })
    (unmounting : conn.phase = .unmounting storageId) :
    Claims (server.unmountStorage storageId) conns' := by
  have here := swapped.before
  obtain ⟨idle, identity, absent⟩ := claims.unmounting conn here storageId unmounting
  refine ⟨claims.bounded_of_holds swapped le_rfl fun _ => id,
    claims.disjoint_of_holds swapped fun _ => .inl, claims.known, ?_, ?_, ?_, ?_, ?_⟩
  · intro other member removed phase
    rcases swapped.new other member with rfl | ⟨old, -⟩
    · cases phase
    · exact claims.unmounting other old removed phase
  · intro other member peer numbered c volumeIds listed
    rcases swapped.new other member with rfl | ⟨old, -⟩
    · exact claims.numbered conn here peer numbered c volumeIds listed
    · exact claims.numbered other old peer numbered c volumeIds listed
  · intro other member peer mounting volumeId among
    rcases swapped.new other member with rfl | ⟨old, differs⟩
    · exact absurd mounting (ControlConnection.not_handles idle _)
    · refine CentralServer.mounts_unmountStorage.mpr
        ⟨claims.mounting other old peer mounting volumeId among, ?_⟩
      rintro rfl
      exact claims.alone here (.inl identity) old differs
        (ControlConnection.Numbered.holds (.inr mounting))
  · intro other c volumeIds listed volumeId among
    refine CentralServer.mounts_unmountStorage.mpr
      ⟨claims.listed other c volumeIds listed volumeId among, ?_⟩
    rintro rfl
    exact absent c volumeIds listed
  · intro volumeId other mounted
    obtain ⟨before, differs⟩ := CentralServer.mounts_unmountStorage.mp mounted
    rcases claims.online volumeId other before with listed |
      ⟨owner, member, peer, mounting, among⟩ | ⟨owner, member, phase⟩
    · exact .inl listed
    · rcases swapped.old owner member with rfl | kept
      · exact absurd mounting (ControlConnection.not_handles idle _)
      · exact .inr (.inl ⟨owner, kept, peer, mounting, among⟩)
    · rcases swapped.old owner member with rfl | kept
      · exact absurd (ConnectionPhase.unmounting.inj (phase.symm.trans unmounting)) differs
      · exact .inr (.inr ⟨owner, kept, phase⟩)

theorem of_step (claims : Claims server conns) (swapped : Swapped conns conns' conn conn')
    (step : StorageStep server conn server' conn') : Claims server' conns' := by
  cases step with
  | idle nextId onlineVolumes lists holds numbered mounting unmounting locked =>
      exact claims.of_idle swapped nextId onlineVolumes lists holds numbered mounting unmounting
        locked
  | numbered stream peer isNext unbound handled =>
      exact claims.of_numbered swapped isNext unbound handled
  | mounted stream peer handles free => exact claims.of_mounted swapped handles free
  | inserted stream peer handles => exact claims.of_inserted swapped handles
  | left storageId ending idle identity => exact claims.of_left swapped idle identity
  | unmounted storageId unmounting => exact claims.of_unmounted swapped unmounting

end Step

end Claims

theorem RegistrationStep.connection_eq {server server' : CentralServer}
    {conn conn' : ControlConnection} {e : CentralEvent}
    (step : RegistrationStep server conn e server' conn') :
    conn'.connection = conn.connection := by
  cases step with
  | idle mounts connection identity phase handling locked => exact connection
  | _ => rfl

namespace Central

variable {config : CentralConfig} {s s' : Central} {e : CentralEvent}

/-- What an event does to the connections and the registrations. -/
inductive Registered (s : Central) (e : CentralEvent) (s' : Central) : Prop where
  | connect (server : s'.server = s.server)
      (rows : ∃ c, s'.connections.rows = s.connections.rows ++ [.new c])
  | restart (server : ∃ db, s'.server = CentralServer.run db) (rows : s'.connections.rows = [])
  | swapped (conn conn' : ControlConnection)
      (found : s.connections.find? conn.connection = some conn)
      (swaps : Swapped s.connections.rows s'.connections.rows conn conn')
      (step : RegistrationStep s.server conn e s'.server conn')

theorem step_registered (taken : (central config).step s e = some s') : Registered s e s' := by
  cases step_cases taken with
  | connect => exact .connect rfl ⟨_, rfl⟩
  | restart => exact .restart ⟨_, rfl⟩ (by simp)
  | connection conn found step =>
      obtain ⟨conn', connections, registration⟩ := registrationStep step
      refine .swapped conn conn' found ?_ registration
      rw [connections]
      exact swapped_of_replace (Table.mem_of_find? found).1 registration.connection_eq

theorem claims_step (claims : Claims s.server s.connections.rows)
    (taken : (central config).step s e = some s') : Claims s'.server s'.connections.rows := by
  cases step_registered taken with
  | connect server rows =>
      obtain ⟨c, rows⟩ := rows
      rw [server, rows]
      exact claims.connect
  | restart server rows =>
      obtain ⟨db, server⟩ := server
      rw [server, rows]
      exact .empty db
  | swapped conn conn' found swaps step => exact claims.of_step swaps step.storageStep

theorem reachable_claims (reachable : (central config).Reachable s) :
    Claims s.server s.connections.rows := by
  apply reachable.invariant fun s => Claims s.server s.connections.rows
  · rintro _ rfl
    exact .empty _
  · exact fun s e s' => claims_step

end Central

/-! ## Registrations and their connections -/

namespace ControlConnection

/-- The cleanup of the connection has not taken its identity yet. -/
def Live (conn : ControlConnection) : Prop := conn.phase = .accepting ∨ conn.phase = .ending

/-- A connection is named by an identity, or its handler is about to name it so. -/
def Owns (conn : ControlConnection) (identity : ControlConnectionIdentity) : Prop :=
  conn.identity = identity ∨ conn.identity = .anonymous ∧
    ((∃ clientId, conn.Handles (.clientInserted clientId) ∧ identity = .client clientId) ∨
      ∃ storageId, conn.Handles (.storageInserted storageId) ∧ identity = .storage storageId)

end ControlConnection

/-- A registration is in the maps of clients and storages. -/
def CentralServer.Registered (server : CentralServer) (connection : Nat) :
    ControlConnectionIdentity → Prop
  | .anonymous => False
  | .client clientId => ∃ client ∈ server.clients.rows,
      client.clientId = clientId ∧ client.connection = connection
  | .storage storageId => ∃ volumeIds, server.Lists storageId connection volumeIds

theorem CentralServer.Registered.ne_anonymous {server : CentralServer} {connection : Nat}
    {identity : ControlConnectionIdentity} (registered : server.Registered connection identity) :
    identity ≠ .anonymous := by
  rintro rfl
  exact registered

/-- A handler is between the sections that put its registration into the maps. -/
def Handler.Entering : Handler → Prop
  | .clientInserted _ => True
  | .insertStorage _ => True
  | .storageInserted _ => True
  | _ => False

/-- Every registration is the one its connection will be cleaned up by. -/
structure Owned (server : CentralServer) (conns : List ControlConnection) : Prop where
  owned : ∀ connection identity, server.Registered connection identity →
    ∃ conn ∈ conns, conn.connection = connection ∧ conn.Live ∧ conn.Owns identity
  entering : ∀ conn ∈ conns, ∀ handler, handler.Entering → conn.Handles handler →
    conn.Live ∧ conn.identity = .anonymous

/-- The next section of a handler puts a registration into the maps. -/
def CentralServer.enters (server : CentralServer) : Handler → Bool
  | .insertClient _ _ => true
  | .mountVolumes peer => peer.volumes.all fun volume =>
      (server.onlineVolumes.find? volume.volumeId).isNone
  | _ => false

/-- The connection whose handler an event runs. -/
def CentralEvent.runs? : CentralEvent → Option Nat
  | .run c _ => some c
  | _ => none

/-- A registration that goes through is the first of its connection, and precedes
the cleanup of the connection. -/
def Central.RegistersFirst (s : Central) (e : CentralEvent) : Prop :=
  ∀ c ∈ e.runs?, ∀ conn ∈ s.connections.find? c, ∀ handling ∈ conn.handling,
    s.server.enters handling.handler → conn.Live ∧ conn.identity = .anonymous

instance (s : Central) (e : CentralEvent) : Decidable (s.RegistersFirst e) :=
  inferInstanceAs (Decidable (∀ c ∈ e.runs?, ∀ conn ∈ s.connections.find? c,
    ∀ handling ∈ conn.handling, s.server.enters handling.handler →
      (conn.phase = .accepting ∨ conn.phase = .ending) ∧ conn.identity = .anonymous))

theorem Handler.Entering.registers {handler : Handler} (entering : handler.Entering) :
    handler.Registers := by
  cases handler <;> trivial

theorem Handler.Entering.bound {handler : Handler} (entering : handler.Entering) :
    handler.Bound := by
  cases handler <;> trivial

namespace Owned

variable {server server' : CentralServer} {conns conns' : List ControlConnection}
  {conn conn' : ControlConnection} {e : CentralEvent}

theorem empty (db : CentralDb) : Owned (CentralServer.run db) [] := by
  constructor
  · rintro connection (_ | clientId | storageId) registered
    · exact registered.elim
    · obtain ⟨client, member, -⟩ := registered
      cases member
    · obtain ⟨volumeIds, storage, member, -⟩ := registered
      cases member
  · exact fun conn member => absurd member List.not_mem_nil

theorem connect (owned : Owned server conns) {connection : Nat} :
    Owned server (conns ++ [.new connection]) := by
  constructor
  · intro c identity registered
    obtain ⟨owner, member, owns⟩ := owned.owned c identity registered
    exact ⟨owner, mem_appended.mpr (.inl member), owns⟩
  · intro other member handler entering handles
    rcases mem_appended.mp member with old | rfl
    · exact owned.entering other old handler entering handles
    · exact absurd handles (ControlConnection.not_handles rfl _)

/-- What one connection has to keep up when it goes on. -/
theorem of_kept (owned : Owned server conns) (swapped : Swapped conns conns' conn conn')
    (connection : conn'.connection = conn.connection)
    (registered : ∀ c identity, server'.Registered c identity → server.Registered c identity ∨
      c = conn.connection ∧ conn'.Live ∧ conn'.Owns identity)
    (owns : ∀ identity, server'.Registered conn.connection identity → conn.Live →
      conn.Owns identity → conn'.Live ∧ conn'.Owns identity)
    (entering : ∀ handler, handler.Entering → conn'.Handles handler →
      conn'.Live ∧ conn'.identity = .anonymous) : Owned server' conns' := by
  constructor
  · intro c identity after
    rcases registered c identity after with before | ⟨rfl, isNew⟩
    · obtain ⟨owner, member, rfl, live, isOwner⟩ := owned.owned c identity before
      rcases swapped.old owner member with rfl | kept
      · exact ⟨conn', swapped.after, connection, owns identity after live isOwner⟩
      · exact ⟨owner, kept, rfl, live, isOwner⟩
    · exact ⟨conn', swapped.after, connection, isNew⟩
  · intro other member handler isEntering handles
    rcases swapped.new other member with rfl | ⟨old, -⟩
    · exact entering handler isEntering handles
    · exact owned.entering other old handler isEntering handles

theorem registered_of_sameMounts (same : server.SameMounts server') {c : Nat}
    {identity : ControlConnectionIdentity} (after : server'.Registered c identity) :
    server.Registered c identity := by
  cases identity with
  | anonymous => exact after
  | client clientId =>
      obtain ⟨client, member, found⟩ := after
      exact ⟨client, same.clients ▸ member, found⟩
  | storage storageId =>
      obtain ⟨volumeIds, listed⟩ := after
      exact ⟨volumeIds, (same.lists _ _ _).mp listed⟩

theorem live_of_phaseKept {phase : ConnectionPhase} (kept : PhaseKept conn.phase phase)
    (live : conn.Live) (isPhase : conn'.phase = phase) : conn'.Live := by
  unfold ControlConnection.Live at *
  rw [isPhase]
  cases kept with
  | same => exact live
  | ends accepting => exact .inr rfl
  | finishes unregistered =>
      rw [unregistered] at live
      rcases live with live | live <;> cases live

/-- A handler that is not about to name its connection. -/
theorem owns_named {identity : ControlConnectionIdentity} {stream : Nat} {handler : Handler}
    (handles : conn.handling = some ⟨stream, handler⟩)
    (notClient : ∀ clientId, handler ≠ .clientInserted clientId)
    (notStorage : ∀ storageId, handler ≠ .storageInserted storageId)
    (owns : conn.Owns identity) : conn.identity = identity := by
  rcases owns with named | ⟨-, ⟨clientId, inserted, -⟩ | ⟨storageId, inserted, -⟩⟩
  · exact named
  · exact absurd ((ControlConnection.handles_iff handles).mp inserted).symm (notClient clientId)
  · exact absurd ((ControlConnection.handles_iff handles).mp inserted).symm (notStorage storageId)

theorem owns_idle {identity : ControlConnectionIdentity} (idle : conn.handling = none)
    (owns : conn.Owns identity) : conn.identity = identity := by
  rcases owns with named | ⟨-, ⟨clientId, inserted, -⟩ | ⟨storageId, inserted, -⟩⟩
  · exact named
  · exact absurd inserted (ControlConnection.not_handles idle _)
  · exact absurd inserted (ControlConnection.not_handles idle _)

theorem of_idle (owned : Owned server conns) (swapped : Swapped conns conns' conn conn')
    (mounts : server.SameMounts server') (connection : conn'.connection = conn.connection)
    (identity : conn'.identity = conn.identity) (phase : PhaseKept conn.phase conn'.phase)
    (handling : conn'.handling = conn.handling ∨
      (∀ stream handler, conn.handling = some ⟨stream, handler⟩ → ¬ handler.Bound) ∧
      ∀ stream handler, conn'.handling = some ⟨stream, handler⟩ → ¬ handler.Registers) :
    Owned server' conns' := by
  have forward : ∀ handler, handler.Entering → conn.Handles handler →
      conn'.Handles handler := by
    rintro handler entering ⟨stream, handles⟩
    rcases handling with same | ⟨unbound, -⟩
    · exact ⟨stream, same ▸ handles⟩
    · exact absurd entering.bound (unbound stream handler handles)
  refine owned.of_kept swapped connection ?_ ?_ ?_
  · exact fun c name after => .inl (registered_of_sameMounts mounts after)
  · intro name after live owns
    refine ⟨live_of_phaseKept phase live rfl, ?_⟩
    rcases owns with named | ⟨anonymous, ⟨clientId, inserted, isName⟩ | ⟨storageId, inserted, isName⟩⟩
    · exact .inl (identity.trans named)
    · exact .inr ⟨identity.trans anonymous, .inl ⟨clientId, forward _ trivial inserted, isName⟩⟩
    · exact .inr ⟨identity.trans anonymous, .inr ⟨storageId, forward _ trivial inserted, isName⟩⟩
  · rintro handler entering ⟨stream, handles⟩
    rcases handling with same | ⟨-, idle⟩
    · obtain ⟨live, anonymous⟩ := owned.entering conn swapped.before handler entering
        ⟨stream, same ▸ handles⟩
      exact ⟨live_of_phaseKept phase live rfl, identity.trans anonymous⟩
    · exact absurd entering.registers (idle stream handler handles)

theorem of_step (owned : Owned server conns) (swapped : Swapped conns conns' conn conn')
    (step : RegistrationStep server conn e server' conn')
    (first : ∀ stream handler inputs, e = .run conn.connection inputs →
      conn.handling = some ⟨stream, handler⟩ → server.enters handler →
        conn.Live ∧ conn.identity = .anonymous) : Owned server' conns' := by
  have here := swapped.before
  cases step with
  | idle mounts connection identity phase handling locked =>
      exact owned.of_idle swapped mounts connection identity phase handling
  | clientNumbered stream request token handles =>
      refine owned.of_kept swapped rfl (fun c name => .inl) ?_ ?_
      · intro name after live owns
        have named := owns_named handles (by simp) (by simp) owns
        exact ⟨live, .inl named⟩
      · intro handler entering handles'
        rw [(ControlConnection.handles_iff rfl).mp handles'] at entering
        exact entering.elim
  | clientInserted stream clientId token handles inputs runs =>
      obtain ⟨live, anonymous⟩ := first stream _ inputs runs handles rfl
      refine owned.of_kept swapped rfl ?_ ?_ fun handler entering handles' => ⟨live, anonymous⟩
      · rintro c (_ | client | storage) after
        · exact .inl after
        · obtain ⟨row, member, rfl, rfl⟩ := after
          rcases Table.mem_put.mp member with rfl | ⟨old, -⟩
          · exact .inr ⟨rfl, live, .inr ⟨anonymous, .inl ⟨clientId, ⟨stream, rfl⟩, rfl⟩⟩⟩
          · exact .inl ⟨row, old, rfl, rfl⟩
        · exact .inl after
      · intro name after _ owns
        have named := owns_named handles (by simp) (by simp) owns
        exact absurd (named.symm.trans anonymous) after.ne_anonymous
  | clientNamed stream clientId response handles =>
      obtain ⟨live, anonymous⟩ := owned.entering conn here (.clientInserted clientId) trivial ⟨stream, handles⟩
      refine owned.of_kept swapped rfl (fun c name => .inl) ?_ ?_
      · rintro name after - (named | ⟨-, ⟨client, inserted, rfl⟩ | ⟨storage, inserted, -⟩⟩)
        · exact absurd (named.symm.trans anonymous) after.ne_anonymous
        · obtain rfl := Handler.clientInserted.inj ((ControlConnection.handles_iff handles).mp inserted)
          exact ⟨live, .inl rfl⟩
        · cases (ControlConnection.handles_iff handles).mp inserted
      · intro handler entering handles'
        rw [(ControlConnection.handles_iff rfl).mp handles'] at entering
        exact entering.elim
  | storageNumbered stream name volumes irohEndpoint handles =>
      refine owned.of_kept swapped rfl (fun c name => .inl) ?_ ?_
      · intro name after live owns
        have named := owns_named handles (by simp) (by simp) owns
        exact ⟨live, .inl named⟩
      · intro handler entering handles'
        rw [(ControlConnection.handles_iff rfl).mp handles'] at entering
        exact entering.elim
  | mounted stream peer handles free inputs runs =>
      have enters : server.enters (.mountVolumes peer) := by
        simpa [CentralServer.enters] using free
      obtain ⟨live, anonymous⟩ := first stream _ inputs runs handles enters
      refine owned.of_kept swapped rfl (fun c name => .inl) ?_ fun handler entering handles' =>
        ⟨live, anonymous⟩
      intro name after _ owns
      have named := owns_named handles (by simp) (by simp) owns
      exact ⟨live, .inl named⟩
  | storageInserted stream peer handles =>
      obtain ⟨live, anonymous⟩ := owned.entering conn here (.insertStorage peer) trivial ⟨stream, handles⟩
      refine owned.of_kept swapped rfl ?_ ?_ fun handler entering handles' => ⟨live, anonymous⟩
      · rintro c (_ | client | storage) after
        · exact .inl after
        · exact .inl after
        · obtain ⟨volumeIds, listed⟩ := after
          rcases CentralServer.lists_put.mp listed with ⟨rfl, rfl, -⟩ | ⟨old, -⟩
          · exact .inr ⟨rfl, live, .inr ⟨anonymous, .inr ⟨peer.storageId, ⟨stream, rfl⟩, rfl⟩⟩⟩
          · exact .inl ⟨volumeIds, old⟩
      · intro name after _ owns
        have named := owns_named handles (by simp) (by simp) owns
        exact absurd (named.symm.trans anonymous) after.ne_anonymous
  | storageNamed stream storageId response handles =>
      obtain ⟨live, anonymous⟩ := owned.entering conn here (.storageInserted storageId) trivial ⟨stream, handles⟩
      refine owned.of_kept swapped rfl (fun c name => .inl) ?_ ?_
      · rintro name after - (named | ⟨-, ⟨client, inserted, -⟩ | ⟨storage, inserted, rfl⟩⟩)
        · exact absurd (named.symm.trans anonymous) after.ne_anonymous
        · cases (ControlConnection.handles_iff handles).mp inserted
        · obtain rfl := Handler.storageInserted.inj ((ControlConnection.handles_iff handles).mp inserted)
          exact ⟨live, .inl rfl⟩
      · intro handler entering handles'
        rw [(ControlConnection.handles_iff rfl).mp handles'] at entering
        exact entering.elim
  | anonymousLeft ending idle identity =>
      refine owned.of_kept swapped rfl (fun c name => .inl) ?_ ?_
      · intro name after live owns
        exact absurd ((owns_idle idle owns).symm.trans identity) after.ne_anonymous
      · exact fun handler entering handles => absurd handles (ControlConnection.not_handles idle _)
  | clientLeft clientId ending idle identity =>
      refine owned.of_kept swapped rfl ?_ ?_ ?_
      · rintro c (_ | client | storage) after
        · exact .inl after
        · obtain ⟨row, member, rfl, rfl⟩ := after
          exact .inl ⟨row, (Table.mem_delete.mp member).1, rfl, rfl⟩
        · exact .inl after
      · intro name after live owns
        obtain rfl := identity.symm.trans (owns_idle idle owns)
        obtain ⟨row, member, isClient, -⟩ := after
        have kept := (Table.mem_delete.mp member).2
        simp [isClient] at kept
      · exact fun handler entering handles => absurd handles (ControlConnection.not_handles idle _)
  | storageLeft storageId ending idle identity =>
      refine owned.of_kept swapped rfl ?_ ?_ ?_
      · rintro c (_ | client | storage) after
        · exact .inl after
        · exact .inl after
        · obtain ⟨volumeIds, listed⟩ := after
          exact .inl ⟨volumeIds, (CentralServer.lists_removeStorage.mp listed).1⟩
      · intro name after live owns
        obtain rfl := identity.symm.trans (owns_idle idle owns)
        obtain ⟨volumeIds, listed⟩ := after
        exact absurd rfl (CentralServer.lists_removeStorage.mp listed).2
      · exact fun handler entering handles => absurd handles (ControlConnection.not_handles idle _)
  | unmounted storageId unmounting =>
      have dead : ¬ conn.Live := by
        rintro (phase | phase) <;> rw [unmounting] at phase <;> cases phase
      refine owned.of_kept swapped rfl ?_ ?_ ?_
      · rintro c (_ | client | storage) after <;> exact .inl after
      · exact fun name after live => absurd live dead
      · intro handler entering handles
        exact absurd (owned.entering conn here handler entering handles).1 dead

end Owned

/-! ## Consistency of the mount table -/

namespace Central

variable {config : CentralConfig} {ts : List (Transition Central CentralEvent)} {s s' : Central}
  {e : CentralEvent}

/-- `handle_control_connection` still runs for a connection. -/
def Unfinished (s : Central) (connection : Nat) : Prop :=
  ∃ conn ∈ s.connections.rows, conn.connection = connection ∧ conn.phase ≠ .finished

/-- No registration and no cleanup is in progress. -/
def Settled (s : Central) : Prop :=
  ∀ conn ∈ s.connections.rows, (∀ handler, conn.Handles handler → ¬ handler.Registers) ∧
    ∀ storageId, conn.phase ≠ .unmounting storageId

/-- The three maps agree, and no entry outlives its connection. -/
structure MountsAgree (s : Central) : Prop where
  online : ∀ volumeId storageId,
    (s.server.onlineVolumes.find? volumeId).map OnlineVolume.storageId = some storageId ↔
      ∃ storage ∈ s.server.storages.rows, storage.storageId = storageId ∧
        ∃ volume ∈ storage.peer.volumes, volume.volumeId = volumeId
  single : ∀ left ∈ s.server.storages.rows, ∀ right ∈ s.server.storages.rows,
    ∀ mine ∈ left.peer.volumes, ∀ yours ∈ right.peer.volumes,
      mine.volumeId = yours.volumeId → left = right
  clients : ∀ client ∈ s.server.clients.rows, s.Unfinished client.connection
  storages : ∀ storage ∈ s.server.storages.rows, s.Unfinished storage.connection
  volumes : ∀ mounted ∈ s.server.onlineVolumes.rows, ∃ storage ∈ s.server.storages.rows,
    storage.storageId = mounted.storageId ∧ s.Unfinished storage.connection

theorem owned_step (owned : Owned s.server s.connections.rows) (first : s.RegistersFirst e)
    (taken : (central config).step s e = some s') : Owned s'.server s'.connections.rows := by
  cases step_registered taken with
  | connect server rows =>
      obtain ⟨c, rows⟩ := rows
      rw [server, rows]
      exact owned.connect
  | restart server rows =>
      obtain ⟨db, server⟩ := server
      rw [server, rows]
      exact .empty db
  | swapped conn conn' found swaps step =>
      refine owned.of_step swaps step ?_
      rintro stream handler inputs rfl handles enters
      exact first conn.connection rfl conn found _ handles enters

/-- In a settled state a volume is mounted exactly for the storage that lists it. -/
theorem mounts_iff_lists (claims : Claims s.server s.connections.rows) (settled : s.Settled)
    (volumeId storageId : Nat) : s.server.Mounts volumeId storageId ↔
      ∃ connection volumeIds, s.server.Lists storageId connection volumeIds ∧
        volumeId ∈ volumeIds := by
  constructor
  · intro mounted
    rcases claims.online volumeId storageId mounted with listed |
      ⟨conn, member, peer, mounting, -⟩ | ⟨conn, member, phase⟩
    · exact listed
    · exact absurd trivial ((settled conn member).1 _ mounting)
    · exact absurd phase ((settled conn member).2 storageId)
  · rintro ⟨c, volumeIds, listed, among⟩
    exact claims.listed storageId c volumeIds listed volumeId among

theorem mountsAgree_of_owned (claims : Claims s.server s.connections.rows)
    (owned : Owned s.server s.connections.rows) (settled : s.Settled) : s.MountsAgree := by
  have listed : ∀ storage ∈ s.server.storages.rows, s.server.Lists storage.storageId
      storage.connection (storage.peer.volumes.map StorageVolumeInfo.volumeId) :=
    fun storage member => ⟨storage, member, rfl, rfl, rfl⟩
  have unfinished : ∀ connection identity, s.server.Registered connection identity →
      s.Unfinished connection := by
    intro connection identity registered
    obtain ⟨conn, member, rfl, live, -⟩ := owned.owned connection identity registered
    refine ⟨conn, member, rfl, fun finished => ?_⟩
    rcases live with phase | phase <;> rw [finished] at phase <;> cases phase
  have storages : ∀ storage ∈ s.server.storages.rows, s.Unfinished storage.connection :=
    fun storage member => unfinished _ (.storage storage.storageId) ⟨_, listed storage member⟩
  refine ⟨?_, ?_, ?_, storages, ?_⟩
  · intro volumeId storageId
    have agree := mounts_iff_lists claims settled volumeId storageId
    constructor
    · intro found
      obtain ⟨row, isRow, rfl⟩ := Option.map_eq_some_iff.mp found
      obtain ⟨member, rfl⟩ := Table.mem_of_find? isRow
      obtain ⟨c, volumeIds, ⟨storage, registered, isStorage, -, rfl⟩, among⟩ := agree.mp member
      exact ⟨storage, registered, isStorage, by simpa using among⟩
    · rintro ⟨storage, member, rfl, volume, isIn, rfl⟩
      have mounted := agree.mpr ⟨_, _, listed storage member, List.mem_map_of_mem isIn⟩
      rw [Table.find?_eq_some.mpr ⟨mounted, rfl⟩]
      rfl
  · intro left leftMem right rightMem mine mineMem yours yoursMem same
    have mountedLeft := claims.listed _ _ _ (listed left leftMem) _ (List.mem_map_of_mem mineMem)
    have mountedRight := claims.listed _ _ _ (listed right rightMem) _
      (List.mem_map_of_mem yoursMem)
    rw [same] at mountedLeft
    exact Table.eq_of_key_eq leftMem rightMem
      (CentralServer.mounts_unique mountedLeft mountedRight)
  · exact fun client member => unfinished _ (.client client.clientId) ⟨client, member, rfl, rfl⟩
  · intro mounted member
    obtain ⟨c, volumeIds, ⟨storage, registered, isStorage, -⟩, -⟩ :=
      (mounts_iff_lists claims settled mounted.volumeId mounted.storageId).mp member
    exact ⟨storage, registered, isStorage, storages storage registered⟩

/-- The maps agree whenever no registration and no cleanup is in progress, in every
run in which each registration is the first of its connection. -/
theorem mounts_agree (run : (central config).Run ts s)
    (first : ∀ t ∈ ts, t.pre.RegistersFirst t.event) :
    ∀ x ∈ visited ts s, x.Settled → x.MountsAgree := by
  have invariant := run.invariant_of_guard
    (fun s => Claims s.server s.connections.rows ∧ Owned s.server s.connections.rows)
    RegistersFirst ?_ ?_ first
  · intro x member settled
    obtain ⟨claims, owned⟩ := invariant x member
    exact mountsAgree_of_owned claims owned settled
  · rintro _ rfl
    exact ⟨.empty _, .empty _⟩
  · rintro s e s' ⟨claims, owned⟩ isFirst taken
    exact ⟨claims_step claims taken, owned_step owned isFirst taken⟩

end Central

/-- What a state shows of its connections. -/
def Scenario.connections (s : Central) : List (Nat × ConnectionPhase × Bool) :=
  s.connections.rows.map fun conn => (conn.connection, conn.phase, conn.handling.isNone)

theorem Scenario.settled (s : Central) (idle : ∀ conn ∈ Scenario.connections s,
    (conn.2.1 = .accepting ∨ conn.2.1 = .finished) ∧ conn.2.2 = true) : s.Settled := by
  intro conn member
  obtain ⟨phase, none⟩ := idle _ (List.mem_map_of_mem member)
  refine ⟨fun handler handles => ?_, fun storageId unmounting => ?_⟩
  · exact absurd handles (ControlConnection.not_handles (by simpa using none) handler)
  · rcases phase with isPhase | isPhase <;> cases isPhase.symm.trans unmounting

/-- The storage of `registered` registers again, without volumes, and disconnects. -/
def Scenario.registeredTwice : List CentralEvent :=
  registered ++ request 2 3 6 1 (.registerStorage "s" "token" "0.2.4" [] []) ++
    [.acceptEnds 2, .unregister 2, .unmount 2, .finish 2]

namespace Central

theorem mounts_agree_registered : ∃ s : Central, s.server.onlineVolumes.rows = [⟨1, 2⟩] ∧
    s.Settled ∧ s.MountsAgree := by
  obtain ⟨ts, s, run, first, ends⟩ := Scenario.run_of_execWhile
    (fun s e => decide (s.RegistersFirst e)) Scenario.registered
    (fun s => (s.server.onlineVolumes.rows, Scenario.connections s))
    ([⟨1, 2⟩], [(1, .accepting, true), (2, .accepting, true)]) (by decide +kernel)
  obtain ⟨mounted, connections⟩ := Prod.mk.inj ends
  have settled : s.Settled := Scenario.settled s (by rw [connections]; simp)
  exact ⟨s, mounted, settled, mounts_agree run (fun t member => of_decide_eq_true (first t member))
    s List.mem_cons_self settled⟩

/-- A storage that registers twice leaves its first volumes mounted for ever. -/
theorem mounts_outlive_connection :
    ¬ ∀ s, (central Scenario.config).Reachable s → s.Settled → s.MountsAgree := by
  intro claimed
  obtain ⟨ts, s, run, -, ends⟩ := Scenario.run_of_exec Scenario.registeredTwice
    (fun s => (s.server.storages.rows.map StorageControlConnection.connection,
      Scenario.connections s))
    ([2], [(1, .accepting, true), (2, .finished, true)]) (by decide +kernel)
  obtain ⟨storages, connections⟩ := Prod.mk.inj ends
  have agree := claimed s run.reachable (Scenario.settled s (by rw [connections]; simp))
  obtain ⟨storage, member, isTwo⟩ : ∃ storage ∈ s.server.storages.rows, storage.connection = 2 :=
    List.mem_map.mp (storages ▸ List.mem_singleton.mpr rfl)
  obtain ⟨conn, among, isConn, unfinished⟩ := agree.storages storage member
  have shown : (conn.connection, conn.phase, conn.handling.isNone) ∈ Scenario.connections s :=
    List.mem_map_of_mem among
  rw [connections, isConn, isTwo] at shown
  simp [unfinished] at shown

end Central

end Fs0
