import Fs0.Central.Handler

/-!
Contract: which volume an update goes to.

Owns:
- the volumes an update may go to, and the one that comes first by the id of its
  storage and its place in the list of the storage;
- that the loops over the peers find the first one of the preferred name, or else the
  first one, and fail when there is none;
- that the rest of `begin_update` raises no error of that kind.

Does not own: the comparison of the usage with the threshold.
-/

set_option autoImplicit false

namespace Fs0

open Lib Fallible

namespace UpdateRequest

/-- A volume an update of the requested kind may go to. -/
structure Eligible (config : CentralConfig) (request : BeginUpdateRequest)
    (volume : StorageVolumeInfo) : Prop where
  writable : volume.readOnly = false
  sized : 0 < volume.maxBytes
  below : config.usageOverThreshold volume.maxVolumeOffset volume.maxBytes = false
  roomy : ∀ size, request.updateSizeHint = some size →
    size ≤ volume.maxBytes - volume.maxVolumeOffset

/-- An eligible volume of the name the request asks for. -/
def Preferred (config : CentralConfig) (request : BeginUpdateRequest)
    (volume : StorageVolumeInfo) : Prop :=
  Eligible config request volume ∧ request.preferVolumeName = some volume.name

/-- The first volume meeting `P` by the id of its storage and its place in the list. -/
def FirstListed (peers : List StoragePeerInfo) (P : StorageVolumeInfo → Prop)
    (peer : StoragePeerInfo) (volume : StorageVolumeInfo) : Prop :=
  ∃ position : Nat, peer ∈ peers ∧ peer.volumes[position]? = some volume ∧ P volume ∧
    ∀ other ∈ peers, ∀ (index : Nat) (found : StorageVolumeInfo),
      other.volumes[index]? = some found → P found →
      peer.storageId < other.storageId ∨ peer = other ∧ position ≤ index

/-- Some listed volume meets `P`. -/
def SomeListed (peers : List StoragePeerInfo) (P : StorageVolumeInfo → Prop) : Prop :=
  ∃ peer ∈ peers, ∃ volume ∈ peer.volumes, P volume

/-- The choice an update makes among the volumes of the peers. -/
inductive Selected (config : CentralConfig) (request : BeginUpdateRequest)
    (peers : List StoragePeerInfo) (peer : StoragePeerInfo) (volume : StorageVolumeInfo) : Prop
  | preferred
      (first : FirstListed peers (Preferred config request) peer volume)
  | other
      (without : ¬ SomeListed peers (Preferred config request))
      (first : FirstListed peers (Eligible config request) peer volume)

/-! ## The first entry of a list -/

/-- The volumes of the peers with their storages, in the order of the loops. -/
def entries (peers : List StoragePeerInfo) : List (Nat × StorageVolumeInfo) :=
  peers.flatMap fun peer => peer.volumes.map fun volume => (peer.storageId, volume)

theorem mem_entries {peers : List StoragePeerInfo} {entry : Nat × StorageVolumeInfo} :
    entry ∈ entries peers ↔
      ∃ peer ∈ peers, peer.storageId = entry.1 ∧ entry.2 ∈ peer.volumes := by
  unfold entries
  simp only [List.mem_flatMap, List.mem_map]
  constructor
  · rintro ⟨peer, isPeer, volume, listed, rfl⟩
    exact ⟨peer, isPeer, rfl, listed⟩
  · rintro ⟨peer, isPeer, sameId, listed⟩
    exact ⟨peer, isPeer, entry.2, listed, by rw [sameId]⟩

variable {P : StorageVolumeInfo → Prop} {peers : List StoragePeerInfo}
  {peer : StoragePeerInfo} {volume : StorageVolumeInfo}

theorem FirstListed.someListed (first : FirstListed peers P peer volume) :
    SomeListed peers P := by
  obtain ⟨position, isPeer, listed, meets, -⟩ := first
  exact ⟨peer, isPeer, volume, List.mem_of_getElem? listed, meets⟩

/-- Which peers there are matters, not their order. -/
theorem FirstListed.perm {others : List StoragePeerInfo} (perm : others.Perm peers) :
    FirstListed others P peer volume ↔ FirstListed peers P peer volume := by
  unfold FirstListed
  simp only [perm.mem_iff]

theorem SomeListed.perm {others : List StoragePeerInfo} (perm : others.Perm peers) :
    SomeListed others P ↔ SomeListed peers P := by
  unfold SomeListed
  simp only [perm.mem_iff]

theorem Selected.perm {others : List StoragePeerInfo} {config : CentralConfig}
    {request : BeginUpdateRequest} (perm : others.Perm peers) :
    Selected config request others peer volume ↔ Selected config request peers peer volume := by
  constructor
  · rintro (first | ⟨without, first⟩)
    · exact .preferred ((FirstListed.perm perm).mp first)
    · exact .other (fun some => without ((SomeListed.perm perm).mpr some))
        ((FirstListed.perm perm).mp first)
  · rintro (first | ⟨without, first⟩)
    · exact .preferred ((FirstListed.perm perm).mpr first)
    · exact .other (fun some => without ((SomeListed.perm perm).mp some))
        ((FirstListed.perm perm).mpr first)

/-- Only one volume comes first. -/
theorem FirstListed.unique {peer' : StoragePeerInfo} {volume' : StorageVolumeInfo}
    (first : FirstListed peers P peer volume) (first' : FirstListed peers P peer' volume') :
    peer = peer' ∧ volume = volume' := by
  obtain ⟨position, isPeer, listed, meets, least⟩ := first
  obtain ⟨position', isPeer', listed', meets', least'⟩ := first'
  have forth := least peer' isPeer' position' volume' listed' meets'
  have back := least' peer isPeer position volume listed meets
  rcases forth with before | ⟨rfl, below⟩
  · rcases back with after | ⟨rfl, -⟩
    · omega
    · exact absurd before (Nat.lt_irrefl _)
  · rcases back with after | ⟨-, above⟩
    · exact absurd after (Nat.lt_irrefl _)
    · obtain rfl := Nat.le_antisymm below above
      exact ⟨rfl, Option.some.inj (listed.symm.trans listed')⟩

variable [DecidablePred P]

/-- What the search over a list of volumes finds is at its first place. -/
theorem find?_volumes {volumes : List StorageVolumeInfo} {storageId : Nat}
    {entry : Nat × StorageVolumeInfo}
    (found : (volumes.map fun volume => (storageId, volume)).find? (fun entry => P entry.2) =
      some entry) :
    entry.1 = storageId ∧ ∃ position : Nat, volumes[position]? = some entry.2 ∧ P entry.2 ∧
      ∀ (index : Nat) (other : StorageVolumeInfo),
        volumes[index]? = some other → P other → position ≤ index := by
  rw [List.find?_map, Option.map_eq_some_iff] at found
  obtain ⟨first, found, rfl⟩ := found
  obtain ⟨meets, position, inside, isFirst, earlier⟩ := List.find?_eq_some_iff_getElem.mp found
  refine ⟨rfl, position, ?_, by simpa using meets, ?_⟩
  · rw [List.getElem?_eq_getElem inside, isFirst]
  · intro index other listed holds
    obtain ⟨bound, rfl⟩ := List.getElem?_eq_some_iff.mp listed
    by_contra before
    have fails := earlier index (by omega)
    simp [holds] at fails

/-- The search over the peers in the order of their ids finds the first volume. -/
theorem find?_entries {entry : Nat × StorageVolumeInfo}
    (ordered : peers.Pairwise fun left right => left.storageId < right.storageId)
    (found : (entries peers).find? (fun entry => P entry.2) = some entry) :
    ∃ peer, peer.storageId = entry.1 ∧ FirstListed peers P peer entry.2 := by
  induction peers with
  | nil => cases found
  | cons peer rest ih =>
      obtain ⟨lowest, restOrdered⟩ := List.pairwise_cons.mp ordered
      have split : entries (peer :: rest) =
          (peer.volumes.map fun volume => (peer.storageId, volume)) ++ entries rest := rfl
      rw [split, List.find?_append] at found
      rcases Option.or_eq_some_iff.mp found with here | ⟨noneHere, later⟩
      · obtain ⟨sameId, position, listed, meets, least⟩ := find?_volumes here
        refine ⟨peer, sameId.symm, position, List.mem_cons_self, listed, meets, ?_⟩
        intro other member index volume listed' holds
        rcases List.mem_cons.mp member with rfl | later
        · exact .inr ⟨rfl, least index volume listed' holds⟩
        · exact .inl (lowest other later)
      · obtain ⟨first, sameId, position, isPeer, listed, meets, least⟩ := ih restOrdered later
        refine ⟨first, sameId, position, List.mem_cons_of_mem _ isPeer, listed, meets, ?_⟩
        intro other member index volume listed' holds
        rcases List.mem_cons.mp member with rfl | member
        · -- the search found nothing among the volumes of the first peer
          have entryMem : (other.storageId, volume) ∈
              other.volumes.map fun volume => (other.storageId, volume) :=
            List.mem_map.mpr ⟨volume, List.mem_of_getElem? listed', rfl⟩
          have fails := List.find?_eq_none.mp noneHere _ entryMem
          simp [holds] at fails
        · exact least other member index volume listed' holds

theorem find?_entries_eq_none :
    (entries peers).find? (fun entry => P entry.2) = none ↔ ¬ SomeListed peers P := by
  rw [List.find?_eq_none]
  constructor
  · rintro missing ⟨peer, isPeer, volume, listed, meets⟩
    have fails := missing (peer.storageId, volume) (mem_entries.mpr ⟨peer, isPeer, rfl, listed⟩)
    simp [meets] at fails
  · intro without entry member
    obtain ⟨peer, isPeer, -, listed⟩ := mem_entries.mp member
    intro meets
    exact without ⟨peer, isPeer, entry.2, listed, by simpa using meets⟩

/-! ## The loops -/

variable {config : CentralConfig} {request : BeginUpdateRequest}

instance : DecidablePred (Eligible config request) := fun volume =>
  decidable_of_iff
    (volume.readOnly = false ∧ 0 < volume.maxBytes ∧
      config.usageOverThreshold volume.maxVolumeOffset volume.maxBytes = false ∧
      ∀ size ∈ request.updateSizeHint, size ≤ volume.maxBytes - volume.maxVolumeOffset)
    ⟨fun ⟨writable, sized, below, roomy⟩ => ⟨writable, sized, below, roomy⟩,
      fun eligible => ⟨eligible.writable, eligible.sized, eligible.below, eligible.roomy⟩⟩

instance : DecidablePred (Preferred config request) := fun volume =>
  inferInstanceAs (Decidable
    (Eligible config request volume ∧ request.preferVolumeName = some volume.name))

/-- One turn of the inner loop. -/
theorem chooseVolume_cons {storageId : Nat} {volume : StorageVolumeInfo}
    {rest : List (Nat × StorageVolumeInfo)} {candidate : Option (Nat × Nat)} :
    chooseVolume config request ((storageId, volume) :: rest) candidate =
      if Eligible config request volume then
        if Preferred config request volume then some (storageId, volume.volumeId)
        else chooseVolume config request rest (candidate.or (some (storageId, volume.volumeId)))
      else chooseVolume config request rest candidate := by
  rw [chooseVolume]
  split
  · next skipped =>
    rw [if_neg]
    intro eligible
    rcases skipped with readOnly | empty
    · rw [eligible.writable] at readOnly
      cases readOnly
    · exact absurd eligible.sized (by omega)
  next usable =>
  split
  · next full =>
    rw [if_neg]
    intro eligible
    rw [eligible.below] at full
    cases full
  next below =>
  split
  · next small =>
    rw [if_neg]
    intro eligible
    obtain ⟨size, hinted, short⟩ := (Option.any_eq_true _ _).mp small
    have fits := eligible.roomy size hinted
    exact absurd (of_decide_eq_true short) (by omega)
  next roomy =>
  have eligible : Eligible config request volume := by
    obtain ⟨writable, sized⟩ := not_or.mp usable
    refine ⟨by simpa using writable, Nat.pos_of_ne_zero sized, by simpa using below, ?_⟩
    intro size hinted
    simpa [hinted] using roomy
  rw [if_pos eligible]
  simp only [Preferred, eligible, true_and]

/-- The volume of an entry with its storage. -/
def place (entry : Nat × StorageVolumeInfo) : Nat × Nat := (entry.1, entry.2.volumeId)

/-- A preferred volume goes before a candidate, which is the first one met. -/
theorem chooseVolume_eq (volumes : List (Nat × StorageVolumeInfo))
    (candidate : Option (Nat × Nat)) :
    chooseVolume config request volumes candidate =
      ((volumes.find? fun entry => Preferred config request entry.2).map place).or
      (candidate.or ((volumes.find? fun entry => Eligible config request entry.2).map place)) := by
  induction volumes generalizing candidate with
  | nil => simp [chooseVolume]
  | cons entry rest ih =>
      obtain ⟨storageId, volume⟩ := entry
      rw [chooseVolume_cons]
      by_cases eligible : Eligible config request volume
      · rw [if_pos eligible]
        by_cases preferred : Preferred config request volume
        · rw [if_pos preferred, List.find?_cons_of_pos (by simpa using preferred)]
          rfl
        · rw [if_neg preferred, ih, List.find?_cons_of_neg (by simpa using preferred)]
          rw [List.find?_cons_of_pos (by simpa using eligible), Option.or_assoc]
          rfl
      · rw [if_neg eligible, ih, List.find?_cons_of_neg (by simp [Preferred, eligible]),
          List.find?_cons_of_neg (by simpa using eligible)]

/-- What was chosen, in the words of the lists of the peers. -/
inductive Chosen (config : CentralConfig) (request : BeginUpdateRequest)
    (peers : List StoragePeerInfo) : Option (Nat × Nat) → Prop
  | selected (peer : StoragePeerInfo) (volume : StorageVolumeInfo)
      (isSelected : Selected config request peers peer volume) :
      Chosen config request peers (some (peer.storageId, volume.volumeId))
  | unavailable (without : ¬ SomeListed peers (Eligible config request)) :
      Chosen config request peers none

theorem chooseVolume_chosen
    (ordered : peers.Pairwise fun left right => left.storageId < right.storageId) :
    Chosen config request peers (chooseVolume config request (entries peers) none) := by
  rw [chooseVolume_eq, Option.none_or]
  cases preferred : (entries peers).find? fun entry => Preferred config request entry.2 with
  | some entry =>
      obtain ⟨peer, sameId, first⟩ := find?_entries ordered preferred
      have chosen := Chosen.selected peer entry.2 (.preferred first)
      rw [sameId] at chosen
      exact chosen
  | none =>
      have without := find?_entries_eq_none.mp preferred
      cases eligible : (entries peers).find? fun entry => Eligible config request entry.2 with
      | some entry =>
          obtain ⟨peer, sameId, first⟩ := find?_entries ordered eligible
          have chosen := Chosen.selected peer entry.2 (Selected.other without first)
          rw [sameId] at chosen
          exact chosen
      | none => exact .unavailable (find?_entries_eq_none.mp eligible)

theorem Selected.someListed (selected : Selected config request peers peer volume) :
    SomeListed peers (Eligible config request) := by
  rcases selected with first | ⟨-, first⟩
  · obtain ⟨peer, isPeer, volume, listed, eligible, -⟩ := first.someListed
    exact ⟨peer, isPeer, volume, listed, eligible⟩
  · exact first.someListed

theorem Selected.unique {peer' : StoragePeerInfo} {volume' : StorageVolumeInfo}
    (selected : Selected config request peers peer volume)
    (selected' : Selected config request peers peer' volume') :
    peer = peer' ∧ volume = volume' := by
  rcases selected with first | ⟨without, first⟩
  · rcases selected' with first' | ⟨without', -⟩
    · exact first.unique first'
    · exact absurd first.someListed without'
  · rcases selected' with first' | ⟨-, first'⟩
    · exact absurd first'.someListed without
    · exact first.unique first'

theorem Chosen.eq_none_iff {choice : Option (Nat × Nat)}
    (chosen : Chosen config request peers choice) :
    choice = none ↔ ¬ SomeListed peers (Eligible config request) := by
  cases chosen with
  | selected peer volume isSelected => simp [isSelected.someListed]
  | unavailable without => simp [without]

theorem Chosen.eq_some_iff {choice : Option (Nat × Nat)} {storageId volumeId : Nat}
    (chosen : Chosen config request peers choice) :
    choice = some (storageId, volumeId) ↔
      ∃ peer volume, Selected config request peers peer volume ∧
        peer.storageId = storageId ∧ volume.volumeId = volumeId := by
  cases chosen with
  | selected peer volume isSelected =>
      constructor
      · intro same
        obtain ⟨rfl, rfl⟩ := Prod.mk.inj (Option.some.inj same)
        exact ⟨peer, volume, isSelected, rfl, rfl⟩
      · rintro ⟨peer', volume', isSelected', rfl, rfl⟩
        obtain ⟨rfl, rfl⟩ := isSelected.unique isSelected'
        rfl
  | unavailable without =>
      constructor
      · intro impossible
        cases impossible
      · rintro ⟨peer, volume, isSelected, -⟩
        exact absurd isSelected.someListed without

theorem Chosen.perm {others : List StoragePeerInfo} {choice : Option (Nat × Nat)}
    (chosen : Chosen config request others choice) (perm : others.Perm peers) :
    Chosen config request peers choice := by
  cases chosen with
  | selected peer volume isSelected =>
      exact .selected peer volume ((Selected.perm perm).mp isSelected)
  | unavailable without =>
      exact .unavailable fun listed => without ((SomeListed.perm perm).mpr listed)

/-! ## The snapshot -/

/-- The storages that are connected, in no particular order. -/
def connectedPeers (server : CentralServer) : List StoragePeerInfo :=
  server.storages.rows.map StorageControlConnection.peer

theorem snapshot_sorted (server : CentralServer) :
    ((connectedPeers server).insertionSort fun left right =>
      left.storageId ≤ right.storageId).Pairwise fun left right =>
      left.storageId < right.storageId := by
  have total : Std.Total fun left right : StoragePeerInfo => left.storageId ≤ right.storageId :=
    ⟨fun left right => Nat.le_total left.storageId right.storageId⟩
  have trans : IsTrans StoragePeerInfo fun left right => left.storageId ≤ right.storageId :=
    ⟨fun _ _ _ first second => Nat.le_trans first second⟩
  have sorted := List.pairwise_insertionSort
    (fun left right : StoragePeerInfo => left.storageId ≤ right.storageId) (connectedPeers server)
  have nodup : ((connectedPeers server).map StoragePeerInfo.storageId).Nodup := by
    unfold connectedPeers
    rw [List.map_map]
    exact server.storages.nodup
  have perm := List.perm_insertionSort
    (fun left right : StoragePeerInfo => left.storageId ≤ right.storageId) (connectedPeers server)
  have distinct := List.pairwise_map.mp
    ((perm.map StoragePeerInfo.storageId).nodup_iff.mpr nodup)
  exact (sorted.and distinct).imp fun both => Nat.lt_of_le_of_ne both.1 both.2

/-- The choice over the snapshot, which lists the connected storages by their ids. -/
theorem candidateVolume_chosen (server : CentralServer) :
    ∃ choice, Chosen config request (connectedPeers server) choice ∧
      candidateVolume config request server =
        lift (okOr choice
          (.noAvailableVolume request.preferVolumeName request.updateSizeHint)) server :=
  ⟨_, (chooseVolume_chosen (snapshot_sorted server)).perm
    (List.perm_insertionSort _ (connectedPeers server)), rfl⟩

/-! ## The other errors -/

/-- Any other error than a missing volume. -/
def Unrelated (err : Fs0Error) : Prop := ∀ prefer hint, err ≠ .noAvailableVolume prefer hint

theorem bindU64_raises (value : Nat) (name : String) :
    Raises Unrelated (CentralTx.bindU64 value name : CentralTx Nat) := by
  apply Raises.lift
  intro err failed
  unfold u64ToI64 at failed
  split at failed <;> cases failed
  intro _ _ same
  cases same

theorem query_raises {α : Type} (select : CentralTables → α) :
    Raises Unrelated (CentralTx.query select : CentralTx α) :=
  fun _ _ _ failed => nomatch failed

theorem cached_raises {α : Type} (use : DirCache → α × DirCache) :
    Raises Unrelated (CentralTx.cached use) :=
  fun _ _ _ failed => nomatch failed

theorem execute_raises {α : Type} {statement : CentralTables → Fs0Result (α × CentralTables)}
    (raised : ∀ tables err, statement tables = .error err → Unrelated err) :
    Raises Unrelated (CentralTx.execute statement : CentralTx α) := by
  intro db err db' failed
  unfold CentralTx.execute at failed
  split at failed
  · cases failed
  · next err' rejected =>
    cases failed
    exact raised _ _ rejected

theorem pushRow_unrelated {ρ : Type} {key : ρ → Nat} {table : SeqTable key} {row : Nat → ρ}
    {keeps : ∀ n, key (row n) = n} {err : Fs0Error}
    (failed : pushRow table row keeps = .error err) : Unrelated err := by
  unfold pushRow at failed
  split at failed <;> cases failed
  simp [Unrelated, databaseFull]

theorem splitFs0PathDirAndName_raises {path : String} {err : Fs0Error}
    (failed : splitFs0PathDirAndName path = .error err) : Unrelated err := by
  unfold splitFs0PathDirAndName at failed
  repeat' split at failed
  all_goals cases failed
  all_goals exact nofun

theorem splitFs0PathComponents_raises {path : String} {err : Fs0Error}
    (failed : splitFs0PathComponents path = .error err) : Unrelated err := by
  unfold splitFs0PathComponents at failed
  split at failed
  · cases failed
    exact nofun
  split at failed
  · cases failed
  dsimp only at failed
  split at failed
  · cases failed
    exact nofun
  · cases failed

theorem joinFs0Path_raises {dir name : String} {err : Fs0Error}
    (failed : joinFs0Path dir name = .error err) : Unrelated err := by
  unfold joinFs0Path at failed
  split at failed <;> cases failed

theorem okOr_raises {α : Type} {value : Option α} {err raised : Fs0Error}
    (unrelated : Unrelated err) (failed : okOr value err = .error raised) : Unrelated raised := by
  cases value with
  | some a => cases failed
  | none =>
      cases failed
      exact unrelated

theorem dirIdBelow_raises (names : List String) (dirId : Nat) (parentPath : String) :
    Raises Unrelated (CentralTx.dirIdBelow names dirId parentPath) := by
  induction names generalizing dirId parentPath with
  | nil => exact Raises.pure
  | cons name rest ih =>
      refine Raises.bind (Raises.lift fun _ => joinFs0Path_raises) fun currentPath => ?_
      refine Raises.bind (cached_raises _) fun known => ?_
      cases known with
      | some cachedDirId => exact ih cachedDirId currentPath
      | none =>
          refine Raises.bind (bindU64_raises _ _) fun parent => ?_
          refine Raises.bind (query_raises _) fun found => ?_
          refine Raises.bind (Raises.lift fun _ => okOr_raises nofun) fun childDirId => ?_
          exact Raises.bind (cached_raises _) fun _ => ih childDirId currentPath

theorem getFileByPath_raises (path : String) :
    Raises Unrelated (CentralTx.getFileByPath path) := by
  refine Raises.bind (Raises.lift fun _ => splitFs0PathDirAndName_raises) fun parts => ?_
  refine Raises.bind ?_ fun dirId => ?_
  · refine Raises.bind (cached_raises _) fun known => ?_
    cases known with
    | some dirId => exact Raises.pure
    | none =>
        exact Raises.bind (Raises.lift fun _ => splitFs0PathComponents_raises) fun names =>
          dirIdBelow_raises names _ _
  refine Raises.bind (bindU64_raises _ _) fun id => ?_
  exact Raises.bind (query_raises _) fun found => Raises.lift fun _ => okOr_raises nofun

theorem ensureChildNameAvailable_raises (parentDirId : Nat) (name : String)
    (existingFileId : Option Nat) (path : String) :
    Raises Unrelated
      (CentralTx.ensureChildNameAvailable parentDirId name existingFileId path) := by
  refine Raises.bind (bindU64_raises _ _) fun parent => ?_
  refine Raises.bind (query_raises _) fun childDir => ?_
  refine Raises.bind (Raises.require nofun) fun _ => ?_
  exact Raises.bind (query_raises _) fun childFile => Raises.require nofun

theorem insertDir_raises {parentDirId : Nat} {name : String} {tables : CentralTables}
    {err : Fs0Error} (failed : tables.insertDir parentDirId name = .error err) :
    Unrelated err := by
  unfold CentralTables.insertDir at failed
  repeat' split at failed
  all_goals cases failed
  all_goals exact nofun

theorem createDirBelow_raises (names : List String) (dirId : Nat) (parentPath : String) :
    Raises Unrelated (CentralTx.createDirBelow names dirId parentPath) := by
  induction names generalizing dirId parentPath with
  | nil => exact Raises.pure
  | cons name rest ih =>
      refine Raises.bind (Raises.lift fun _ => joinFs0Path_raises) fun currentPath => ?_
      refine Raises.bind (cached_raises _) fun known => ?_
      cases known with
      | some cachedDirId => exact ih cachedDirId currentPath
      | none =>
          refine Raises.bind (bindU64_raises _ _) fun parent => ?_
          refine Raises.bind (query_raises _) fun found => ?_
          cases found with
          | some existingDirId =>
              exact Raises.bind (cached_raises _) fun _ => ih existingDirId currentPath
          | none =>
              refine Raises.bind (ensureChildNameAvailable_raises _ _ _ _) fun _ => ?_
              refine Raises.bind (execute_raises fun _ _ => insertDir_raises) fun created => ?_
              exact ih created currentPath

theorem insertFile_raises {dirId sizeBytes compressedSizeBytes now : Nat} {name : String}
    {tables : CentralTables} {err : Fs0Error}
    (failed : tables.insertFile dirId name sizeBytes compressedSizeBytes now = .error err) :
    Unrelated err := by
  unfold CentralTables.insertFile at failed
  split at failed
  · cases failed
    exact nofun
  split at failed
  · cases failed
    exact nofun
  split at failed
  · next full =>
    cases failed
    exact pushRow_unrelated full
  · cases failed

theorem createFile_raises (path : String) (now : Nat) :
    Raises Unrelated (CentralTx.createFile path now) := by
  refine Raises.bind (Raises.lift fun _ => splitFs0PathDirAndName_raises) fun parts => ?_
  refine Raises.bind ?_ fun dirId => ?_
  · refine Raises.bind (cached_raises _) fun known => ?_
    cases known with
    | some dirId => exact Raises.pure
    | none =>
        exact Raises.bind (Raises.lift fun _ => splitFs0PathComponents_raises) fun names =>
          createDirBelow_raises names _ _
  refine Raises.bind (ensureChildNameAvailable_raises _ _ _ _) fun _ => ?_
  refine Raises.bind (bindU64_raises _ _) fun id => ?_
  refine Raises.bind (bindU64_raises _ _) fun createdAtMs => ?_
  refine Raises.bind (execute_raises fun _ _ => insertFile_raises) fun fileId => ?_
  refine Raises.bind (bindU64_raises _ _) fun _ => ?_
  exact Raises.bind (query_raises _) fun found => Raises.lift fun _ => okOr_raises nofun

theorem fileForUpdate_raises (now : Nat) : Raises Unrelated (fileForUpdate request now) := by
  refine Raises.attempt_bind (getFileByPath_raises _) (fun file => ?_) fun err raised => ?_
  · exact Raises.bind (Raises.require nofun) fun _ => Raises.pure
  · cases err
    case notFound =>
      refine Raises.bind (Raises.require nofun) fun _ => ?_
      exact Raises.bind (createFile_raises _ _) fun file => Raises.pure
    all_goals exact Raises.throw raised

theorem insertLease_raises
    {fileId volumeId baseSizeBytes offsetBytes expiresAtMs createdAtMs : Nat}
    {prefer : Option String} {tables : CentralTables} {err : Fs0Error}
    (failed : tables.insertLease fileId volumeId baseSizeBytes offsetBytes prefer expiresAtMs
      createdAtMs = .error err) : Unrelated err := by
  unfold CentralTables.insertLease at failed
  split at failed
  · cases failed
    exact nofun
  split at failed
  · cases failed
    exact nofun
  split at failed
  · next full =>
    cases failed
    exact pushRow_unrelated full
  · cases failed

theorem createUpdateLease_raises (lease : CreateUpdateLease) :
    Raises Unrelated (CentralTx.createUpdateLease lease) := by
  refine Raises.bind (bindU64_raises _ _) fun _ => ?_
  refine Raises.bind (bindU64_raises _ _) fun _ => ?_
  refine Raises.bind (bindU64_raises _ _) fun _ => ?_
  refine Raises.bind (bindU64_raises _ _) fun _ => ?_
  refine Raises.bind (bindU64_raises _ _) fun _ => ?_
  refine Raises.bind (bindU64_raises _ _) fun _ => ?_
  exact Raises.bind (execute_raises fun _ _ => insertLease_raises) fun _ => Raises.pure

/-- The transaction of `begin_update` has errors of its own. -/
theorem beginUpdateTx_raises (volumeId now : Nat) :
    Raises Unrelated (beginUpdateTx request volumeId now) := by
  refine Raises.bind (fileForUpdate_raises now) fun found => ?_
  refine Raises.bind ?_ fun _ => ?_
  · exact Raises.bind (bindU64_raises _ _) fun _ => execute_raises fun _ _ => nofun
  refine Raises.bind ?_ fun active => ?_
  · exact Raises.bind (bindU64_raises _ _) fun _ => query_raises _
  exact Raises.bind (Raises.require nofun) fun _ => createUpdateLease_raises _

/-- A transaction fails with an error of its computation or of its commit. -/
theorem transact_raises {α : Type} {P : Fs0Error → Prop} {commit : Option Fs0Error}
    {m : CentralTx α} (raised : Raises P m) :
    Raises (fun err => commit = some err ∨ P err) (CentralM.transact commit m) := by
  intro server err server' failed
  unfold CentralM.transact CentralM.locked Fallible.transact at failed
  cases ran : m server.db with
  | ok a db =>
      rw [ran] at failed
      cases commit with
      | none => cases failed
      | some err' =>
          cases failed
          exact .inl rfl
  | error err' db =>
      rw [ran] at failed
      cases failed
      exact .inr (raised _ _ _ ran)

/-- The section that begins an update once a volume is chosen. -/
theorem beginUpdate_resume_raises {inputs : Inputs} {connection storageId volumeId : Nat}
    {identity : ControlConnectionIdentity} {server server' : CentralServer} {err : Fs0Error}
    (failed : Handler.resume config inputs connection identity
      (.beginUpdate request storageId volumeId) server = .error err server') :
    inputs.commit = some err ∨ Unrelated err := by
  have raises : Raises (fun err => inputs.commit = some err ∨ Unrelated err)
      (Handler.resume config inputs connection identity
        (.beginUpdate request storageId volumeId)) :=
    Raises.bind (transact_raises (beginUpdateTx_raises volumeId inputs.now)) fun _ => Raises.pure
  exact raises server err server' failed

/-! ## The handler -/

/-- `begin_update` fails for want of a volume exactly when no listed volume is eligible.
Otherwise it goes on with the first preferred one, or else the first eligible one, and the
storage that lists it. -/
theorem beginUpdate_selects (config : CentralConfig) (inputs : Inputs)
    (request : BeginUpdateRequest) (server : CentralServer) :
    (∀ err server',
      handleClientRequest config inputs (.beginUpdate request) server = .error err server' ↔
        err = .noAvailableVolume request.preferVolumeName request.updateSizeHint ∧
        server' = server ∧ ¬ SomeListed (connectedPeers server) (Eligible config request)) ∧
    (∀ progress server',
      handleClientRequest config inputs (.beginUpdate request) server = .ok progress server' ↔
        server' = server ∧ ∃ peer volume,
          Selected config request (connectedPeers server) peer volume ∧
          progress = .next (.beginUpdate request peer.storageId volume.volumeId)) ∧
    ∀ connection identity storageId volumeId later err later',
      Handler.resume config inputs connection identity
        (.beginUpdate request storageId volumeId) later = .error err later' →
      inputs.commit = some err ∨ Unrelated err := by
  obtain ⟨choice, chosen, eq⟩ : ∃ choice, Chosen config request (connectedPeers server) choice ∧
      candidateVolume config request server = _ := candidateVolume_chosen server
  have handled : handleClientRequest config inputs (.beginUpdate request) server =
      (candidateVolume config request >>= fun place =>
        pure (.next (.beginUpdate request place.1 place.2))) server := rfl
  rw [bind_apply, eq] at handled
  refine ⟨?_, ?_, fun _ _ _ _ _ _ _ => beginUpdate_resume_raises⟩
  · intro err server'
    rw [handled, ← chosen.eq_none_iff]
    cases choice with
    | none => simp [okOr, eq_comm]
    | some place => simp [okOr]
  · intro progress server'
    rw [handled]
    cases choice with
    | none =>
        constructor
        · intro impossible
          cases impossible
        · rintro ⟨-, peer, volume, selected, -⟩
          exact absurd selected.someListed (chosen.eq_none_iff.mp rfl)
    | some place =>
        have isSelected : some place = some (place.1, place.2) ↔ _ := chosen.eq_some_iff
        constructor
        · intro ended
          obtain ⟨peer, volume, selected, sameStorage, sameVolume⟩ := isSelected.mp rfl
          cases ended
          exact ⟨rfl, peer, volume, selected, by rw [sameStorage, sameVolume]⟩
        · rintro ⟨rfl, peer, volume, selected, rfl⟩
          have same := chosen.eq_some_iff.mpr ⟨peer, volume, selected, rfl, rfl⟩
          obtain rfl := Option.some.inj same
          rfl

end UpdateRequest

end Fs0
