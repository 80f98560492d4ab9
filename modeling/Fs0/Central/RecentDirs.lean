import Fs0.Central.Dir
import Fs0.Lib.Recency
import Fs0.Lib.Transition

/-!
Contract: the directory cache of central over any sequence of its calls.

Owns:
- the calls for the pairs of a one-to-one mapping of directory ids and paths;
- that the two maps of the cache stay inverse to each other and bounded;
- the same directories as a list in the order of their use, which the cache agrees with until
  its counter stops at its largest value, and not any longer.

Does not own: which pairs the transactions remember and forget.
-/

set_option autoImplicit false

namespace Fs0

open Lib

/-- A directory id and a path. -/
def DirCacheEntry.pair (entry : DirCacheEntry) : Nat × String := (entry.dirId, entry.path)

def DirCachePath.pair (known : DirCachePath) : Nat × String := (known.dirId, known.path)

inductive DirCacheCall where
  | getId (path : String)
  | getPath (dirId : Nat)
  | remember (dirId : Nat) (path : String)
  | forget (dirId : Nat) (path : String)

def DirCache.call (cache : DirCache) : DirCacheCall → DirCache
  | .getId path => (cache.getId path).2
  | .getPath dirId => (cache.getPath dirId).2
  | .remember dirId path => cache.remember dirId path
  | .forget dirId path => cache.forget dirId path

namespace DirCache

/-- An entry is used, and takes the next access number. -/
def used (cache : DirCache) (path : String) : DirCache :=
  cache.bumpAccess.2.touch path cache.bumpAccess.1

/-- A pair is entered into both maps. -/
def added (cache : DirCache) (dirId : Nat) (path : String) : DirCache :=
  { cache.bumpAccess.2 with
    pathToEntry := cache.pathToEntry.put ⟨path, dirId, cache.bumpAccess.1⟩
    idToPath := cache.idToPath.put ⟨dirId, path⟩ }

/-- What a call does to a cache. -/
inductive Move (cache : DirCache) : DirCacheCall → DirCache → Prop where
  | rooted (call : DirCacheCall) (isRoot : match call with
      | .getId path => path = "/"
      | .getPath dirId => dirId = rootDirId
      | .remember dirId path => dirId = rootDirId ∨ path = "/"
      | .forget dirId path => dirId = rootDirId ∨ path = "/") : Move cache call cache
  | missedId (path : String) (notRoot : path ≠ "/") (none : cache.pathToEntry.find? path = none) :
      Move cache (.getId path) cache.bumpAccess.2
  | gotId (path : String) (notRoot : path ≠ "/") (entry : DirCacheEntry)
      (found : cache.pathToEntry.find? path = some entry) : Move cache (.getId path) (cache.used path)
  | missedPath (dirId : Nat) (notRoot : dirId ≠ rootDirId)
      (none : cache.idToPath.find? dirId = none) : Move cache (.getPath dirId) cache
  | gotPath (dirId : Nat) (notRoot : dirId ≠ rootDirId) (known : DirCachePath)
      (found : cache.idToPath.find? dirId = some known) :
      Move cache (.getPath dirId) (cache.used known.path)
  | remembered (dirId : Nat) (path : String) (notRoot : ¬(dirId = rootDirId ∨ path = "/")) :
      Move cache (.remember dirId path) (cache.added dirId path).trim
  | forgot (dirId : Nat) (path : String) (notRoot : ¬(dirId = rootDirId ∨ path = "/")) :
      Move cache (.forget dirId path) { cache with
        pathToEntry := cache.pathToEntry.delete fun entry => entry.path == path
        idToPath := cache.idToPath.delete fun known => known.dirId == dirId }

theorem call_remember {cache : DirCache} {dirId : Nat} {path : String}
    (notRoot : ¬(dirId = rootDirId ∨ path = "/")) :
    cache.call (.remember dirId path) = (cache.added dirId path).trim := if_neg notRoot

theorem call_move (cache : DirCache) (call : DirCacheCall) : cache.Move call (cache.call call) := by
  cases call with
  | getId path =>
      unfold call getId
      dsimp only
      split
      next isRoot => exact .rooted _ isRoot
      next notRoot =>
        simp only [bumpAccess]
        split
        next none => exact .missedId path notRoot none
        next entry found => exact .gotId path notRoot entry found
  | getPath dirId =>
      unfold call getPath
      dsimp only
      split
      next isRoot => exact .rooted _ isRoot
      next notRoot =>
        split
        next none => exact .missedPath dirId notRoot none
        next known found => exact .gotPath dirId notRoot known found
  | remember dirId path =>
      unfold call remember
      dsimp only
      split
      next isRoot => exact .rooted _ isRoot
      next notRoot => exact .remembered dirId path notRoot
  | forget dirId path =>
      unfold call forget
      dsimp only
      split
      next isRoot => exact .rooted _ isRoot
      next notRoot => exact .forgot dirId path notRoot

end DirCache

/-! ## Order of use -/

/-- Directories, the one used last in front. -/
abbrev RecentDirs := List (Nat × String)

namespace RecentDirs

def use (recent : RecentDirs) (path : String) : RecentDirs :=
  match recent.find? fun pair => pair.2 = path with
  | none => recent
  | some pair => pair :: recent.filter fun other => other.2 ≠ path

/-- Too many directories are cut down to those used last. -/
def trim (recent : RecentDirs) : RecentDirs :=
  if recent.length ≤ dirCacheMaxEntries then recent else recent.take dirCacheTrimToEntries

def call (recent : RecentDirs) : DirCacheCall → RecentDirs
  | .getId path => if path = "/" then recent else recent.use path
  | .getPath dirId =>
      if dirId = rootDirId then recent
      else
        match recent.find? fun pair => pair.1 = dirId with
        | none => recent
        | some pair => recent.use pair.2
  | .remember dirId path =>
      if dirId = rootDirId ∨ path = "/" then recent
      else trim ((dirId, path) :: recent.filter fun other => other.2 ≠ path)
  | .forget dirId path =>
      if dirId = rootDirId ∨ path = "/" then recent
      else recent.filter fun other => other.2 ≠ path

end RecentDirs

/-! ## Calls -/

/-- A cache, the pairs in force, and what the calls so far make of the order of use. -/
structure CachedDirs where
  cache : DirCache
  mapping : List (Nat × String)
  recent : RecentDirs
  calls : Nat

/-- A pair belongs to a one-to-one mapping, or may join it. -/
def Pairs (mapping : List (Nat × String)) (dirId : Nat) (path : String) : Prop :=
  ∀ pair ∈ mapping, pair.1 = dirId ↔ pair.2 = path

instance (mapping : List (Nat × String)) (dirId : Nat) (path : String) :
    Decidable (Pairs mapping dirId path) :=
  inferInstanceAs (Decidable (∀ pair ∈ mapping, _))

namespace CachedDirs

def next (s : CachedDirs) (call : DirCacheCall) (mapping : List (Nat × String)) : CachedDirs :=
  ⟨s.cache.call call, mapping, s.recent.call call, s.calls + 1⟩

/-- A pair that is forgotten may be paired anew. -/
def step (s : CachedDirs) (call : DirCacheCall) : Option CachedDirs :=
  match call with
  | .remember dirId path =>
      if Pairs s.mapping dirId path then some (s.next call ((dirId, path) :: s.mapping)) else none
  | .forget dirId path =>
      if Pairs s.mapping dirId path then
        some (s.next call (s.mapping.filter fun pair => pair.2 ≠ path))
      else none
  | _ => some (s.next call s.mapping)

end CachedDirs

def cachedDirs : System CachedDirs DirCacheCall where
  Init s := s = ⟨.new, [], [], 0⟩
  step := CachedDirs.step

/-! ## Two inverse maps -/

/-- The maps hold the same pairs, all of which belong to the mapping. -/
structure DirCache.Synced (mapping : List (Nat × String)) (cache : DirCache) : Prop where
  inverse : (cache.idToPath.rows.map DirCachePath.pair).Perm
    (cache.pathToEntry.rows.map DirCacheEntry.pair)
  mapped : ∀ entry ∈ cache.pathToEntry.rows, entry.pair ∈ mapping
  proper : ∀ entry ∈ cache.pathToEntry.rows, entry.dirId ≠ rootDirId ∧ entry.path ≠ "/"
  oneToOne : ∀ left ∈ mapping, ∀ right ∈ mapping, left.1 = right.1 ↔ left.2 = right.2

namespace DirCache

variable {mapping mapping' : List (Nat × String)} {cache : DirCache} {dirId : Nat} {path : String}

theorem Synced.mapped_path (synced : Synced mapping cache) :
    ∀ known ∈ cache.idToPath.rows, known.pair ∈ mapping := by
  intro known member
  obtain ⟨entry, among, same⟩ :=
    List.mem_map.mp (synced.inverse.mem_iff.mp (List.mem_map_of_mem member))
  exact same ▸ synced.mapped entry among

/-- An entry under a path is the entry under the id of a pair with that path. -/
theorem Synced.find_iff (synced : Synced mapping cache) :
    (∃ entry, cache.pathToEntry.find? path = some entry ∧ entry.dirId = dirId) ↔
      ∃ known, cache.idToPath.find? dirId = some known ∧ known.path = path := by
  constructor
  · rintro ⟨entry, found, rfl⟩
    obtain ⟨member, rfl⟩ := Table.mem_of_find? found
    obtain ⟨known, among, same⟩ :=
      List.mem_map.mp (synced.inverse.mem_iff.mpr (List.mem_map_of_mem member))
    obtain ⟨isId, isPath⟩ := Prod.mk.inj same
    exact ⟨known, Table.find?_eq_some.mpr ⟨among, isId⟩, isPath⟩
  · rintro ⟨known, found, rfl⟩
    obtain ⟨member, rfl⟩ := Table.mem_of_find? found
    obtain ⟨entry, among, same⟩ :=
      List.mem_map.mp (synced.inverse.mem_iff.mp (List.mem_map_of_mem member))
    obtain ⟨isId, isPath⟩ := Prod.mk.inj same
    exact ⟨entry, Table.find?_eq_some.mpr ⟨among, isPath⟩, isId⟩

/-- The same pairs are deleted from both maps. -/
theorem Synced.delete (synced : Synced mapping cache) (gone : Nat × String → Bool)
    {entryGone : DirCacheEntry → Bool} {pathGone : DirCachePath → Bool}
    (isEntry : ∀ entry ∈ cache.pathToEntry.rows, entryGone entry = gone entry.pair)
    (isPath : ∀ known ∈ cache.idToPath.rows, pathGone known = gone known.pair) :
    ((cache.idToPath.delete pathGone).rows.map DirCachePath.pair).Perm
      ((cache.pathToEntry.delete entryGone).rows.map DirCacheEntry.pair) := by
  have entries : (cache.pathToEntry.delete entryGone).rows.map DirCacheEntry.pair =
      (cache.pathToEntry.rows.map DirCacheEntry.pair).filter fun pair => !gone pair := by
    rw [List.filter_map, Table.rows_delete]
    congr 1
    exact List.filter_congr fun entry member => by rw [isEntry entry member]; rfl
  have paths : (cache.idToPath.delete pathGone).rows.map DirCachePath.pair =
      (cache.idToPath.rows.map DirCachePath.pair).filter fun pair => !gone pair := by
    rw [List.filter_map, Table.rows_delete]
    congr 1
    exact List.filter_congr fun known member => by rw [isPath known member]; rfl
  rw [entries, paths]
  exact synced.inverse.filter _

theorem Synced.bumped (synced : Synced mapping cache) : Synced mapping cache.bumpAccess.2 :=
  ⟨synced.inverse, synced.mapped, synced.proper, synced.oneToOne⟩

theorem Synced.used (synced : Synced mapping cache) (path : String) :
    Synced mapping (cache.used path) := by
  have pairs : ∀ entry : DirCacheEntry, (if entry.path = path then
      { entry with lastAccess := cache.nextAccess } else entry).pair = entry.pair := by
    intro entry
    split <;> rfl
  refine ⟨?_, ?_, ?_, synced.oneToOne⟩
  · show (cache.idToPath.rows.map _).Perm ((cache.pathToEntry.rows.map _).map _)
    rw [List.map_map]
    exact (List.map_congr_left fun entry _ => pairs entry) ▸ synced.inverse
  · intro entry member
    obtain ⟨old, among, rfl⟩ := List.mem_map.mp member
    exact pairs old ▸ synced.mapped old among
  · intro entry member
    obtain ⟨old, among, rfl⟩ := List.mem_map.mp member
    have proper := synced.proper old among
    split <;> exact proper

/-- Two maps without a pair. -/
theorem Synced.without (synced : Synced mapping cache) (pairs : Pairs mapping dirId path) :
    ((cache.idToPath.delete fun known => known.dirId == dirId).rows.map DirCachePath.pair).Perm
      ((cache.pathToEntry.delete fun entry => entry.path == path).rows.map DirCacheEntry.pair) := by
  refine synced.delete (fun pair => pair.2 == path) (fun _ _ => rfl) fun known member => ?_
  exact Bool.eq_iff_iff.mpr ((beq_iff_eq.trans (pairs _ (synced.mapped_path known member))).trans
    beq_iff_eq.symm)

/-- A pair joins a one-to-one mapping. -/
theorem oneToOne_cons (synced : Synced mapping cache) (pairs : Pairs mapping dirId path) :
    ∀ left ∈ (dirId, path) :: mapping, ∀ right ∈ (dirId, path) :: mapping,
      left.1 = right.1 ↔ left.2 = right.2 := by
  intro left leftMem right rightMem
  rcases List.mem_cons.mp leftMem with rfl | leftOld <;>
    rcases List.mem_cons.mp rightMem with rfl | rightOld
  · exact iff_of_true rfl rfl
  · exact eq_comm.trans ((pairs right rightOld).trans eq_comm)
  · exact pairs left leftOld
  · exact synced.oneToOne left leftOld right rightOld

/-- A pair joins both maps. -/
theorem Synced.added (synced : Synced mapping cache) (pairs : Pairs mapping dirId path)
    (notRoot : ¬(dirId = rootDirId ∨ path = "/")) :
    Synced ((dirId, path) :: mapping) (cache.added dirId path) := by
  refine ⟨?_, ?_, ?_, oneToOne_cons synced pairs⟩
  · have rest := synced.without pairs
    simp only [Table.rows_delete] at rest
    show ((cache.idToPath.rows.filter (fun known : DirCachePath => known.dirId ≠ dirId) ++ [_]).map
        _).Perm
      ((cache.pathToEntry.rows.filter (fun entry : DirCacheEntry => entry.path ≠ path) ++ [_]).map _)
    rw [List.map_append, List.map_append]
    refine List.Perm.append ?_ (List.Perm.refl _)
    simpa [bne, beq_eq_decide] using rest
  · intro entry member
    rcases Table.mem_put.mp member with rfl | ⟨old, -⟩
    · exact List.mem_cons_self
    · exact List.mem_cons_of_mem _ (synced.mapped entry old)
  · intro entry member
    rcases Table.mem_put.mp member with rfl | ⟨old, -⟩
    · exact not_or.mp notRoot
    · exact synced.proper entry old

/-- The entries that a trim removes. -/
def evicted (cache : DirCache) : List DirCacheEntry :=
  (cache.pathToEntry.rows.insertionSort fun left right => left.lastAccess ≤ right.lastAccess).take
    (cache.pathToEntry.rows.length - dirCacheTrimToEntries)

theorem Synced.trim (synced : Synced mapping cache) : Synced mapping cache.trim := by
  unfold DirCache.trim
  split
  · exact synced
  · have among : ∀ candidate ∈ cache.evicted, candidate.pair ∈ mapping := fun candidate member =>
      synced.mapped candidate
        ((List.perm_insertionSort _ _).mem_iff.mp (List.mem_of_mem_take member))
    refine ⟨?_, fun entry member => synced.mapped entry (Table.mem_delete.mp member).1,
      fun entry member => synced.proper entry (Table.mem_delete.mp member).1, synced.oneToOne⟩
    refine synced.delete (fun pair => cache.evicted.any fun candidate => candidate.path == pair.2)
      (fun _ _ => rfl) fun known member => ?_
    refine Bool.eq_iff_iff.mpr ?_
    show (cache.evicted.any fun candidate => candidate.dirId == known.dirId) = true ↔ _
    simp only [List.any_eq_true, beq_iff_eq]
    exact exists_congr fun candidate => and_congr_right fun isEvicted =>
      synced.oneToOne candidate.pair (among candidate isEvicted) known.pair
        (synced.mapped_path known member)

/-- A trim leaves the entries that were sorted last. -/
theorem trim_perm (large : dirCacheMaxEntries < cache.pathToEntry.rows.length) :
    cache.trim.pathToEntry.rows.Perm ((cache.pathToEntry.rows.insertionSort fun left right =>
      left.lastAccess ≤ right.lastAccess).drop
        (cache.pathToEntry.rows.length - dirCacheTrimToEntries)) := by
  unfold DirCache.trim
  rw [if_neg (Nat.not_le_of_lt large)]
  exact perm_evict cache.pathToEntry.nodup (List.perm_insertionSort _ _) _

theorem trim_length (large : dirCacheMaxEntries < cache.pathToEntry.rows.length) :
    cache.trim.pathToEntry.rows.length = dirCacheTrimToEntries := by
  have keeps : dirCacheTrimToEntries ≤ dirCacheMaxEntries := by decide
  rw [(trim_perm large).length_eq, List.length_drop, List.length_insertionSort]
  omega

/-- How the mapping goes on with a call. -/
inductive Remapped (mapping : List (Nat × String)) : DirCacheCall → List (Nat × String) → Prop where
  | getId (path : String) : Remapped mapping (.getId path) mapping
  | getPath (dirId : Nat) : Remapped mapping (.getPath dirId) mapping
  | remember (dirId : Nat) (path : String) (pairs : Pairs mapping dirId path) :
      Remapped mapping (.remember dirId path) ((dirId, path) :: mapping)
  | forget (dirId : Nat) (path : String) (pairs : Pairs mapping dirId path) :
      Remapped mapping (.forget dirId path) (mapping.filter fun pair => pair.2 ≠ path)

theorem Synced.of_call (synced : Synced mapping cache) {call : DirCacheCall}
    (remapped : Remapped mapping call mapping') : Synced mapping' (cache.call call) := by
  have move := cache.call_move call
  generalize cache.call call = cache' at move ⊢
  cases remapped with
  | getId path =>
      cases move with
      | rooted _ isRoot => exact synced
      | missedId _ notRoot none => exact synced.bumped
      | gotId _ notRoot entry found => exact synced.used path
  | getPath dirId =>
      cases move with
      | rooted _ isRoot => exact synced
      | missedPath _ notRoot none => exact synced
      | gotPath _ notRoot known found => exact synced.used known.path
  | remember dirId path pairs =>
      cases move with
      | rooted _ isRoot =>
          exact ⟨synced.inverse, fun entry member =>
            List.mem_cons_of_mem _ (synced.mapped entry member), synced.proper,
            oneToOne_cons synced pairs⟩
      | remembered _ _ notRoot => exact (synced.added pairs notRoot).trim
  | forget dirId path pairs =>
      have stays : ∀ entry ∈ cache.pathToEntry.rows, entry.path ≠ path →
          entry.pair ∈ mapping.filter fun pair => pair.2 ≠ path := fun entry member other =>
        List.mem_filter.mpr ⟨synced.mapped entry member, decide_eq_true other⟩
      have oneToOne : ∀ left ∈ mapping.filter (fun pair => pair.2 ≠ path),
          ∀ right ∈ mapping.filter (fun pair => pair.2 ≠ path),
            left.1 = right.1 ↔ left.2 = right.2 := fun left leftMem right rightMem =>
        synced.oneToOne left (List.mem_filter.mp leftMem).1 right (List.mem_filter.mp rightMem).1
      cases move with
      | rooted _ isRoot =>
          -- The cache holds no root, so the pair was not in it.
          refine ⟨synced.inverse, fun entry member => stays entry member fun same => ?_,
            synced.proper, oneToOne⟩
          obtain ⟨notRootId, notRoot⟩ := synced.proper entry member
          have isId := (pairs _ (synced.mapped entry member)).mpr same
          rcases isRoot with rootId | root
          · exact notRootId (isId.trans rootId)
          · exact notRoot (same.trans root)
      | forgot _ _ notRoot =>
          refine ⟨synced.without pairs, fun entry member => ?_, fun entry member => ?_, oneToOne⟩
          · obtain ⟨among, kept⟩ := Table.mem_delete.mp member
            exact stays entry among (by simpa using kept)
          · exact synced.proper entry (Table.mem_delete.mp member).1

theorem trim_size (cache : DirCache) :
    cache.trim.pathToEntry.rows.length ≤ dirCacheMaxEntries := by
  by_cases large : dirCacheMaxEntries < cache.pathToEntry.rows.length
  · have cut : dirCacheTrimToEntries ≤ dirCacheMaxEntries := by decide
    exact (trim_length large).le.trans cut
  · unfold DirCache.trim
    rw [if_pos (Nat.le_of_not_lt large)]
    exact Nat.le_of_not_lt large

/-- A call grows the cache by one entry at most, and cuts it down when it is too large. -/
theorem call_size (small : cache.pathToEntry.rows.length ≤ dirCacheMaxEntries)
    (call : DirCacheCall) : (cache.call call).pathToEntry.rows.length ≤ dirCacheMaxEntries := by
  have move := cache.call_move call
  generalize cache.call call = cache' at move ⊢
  cases move with
  | gotId path notRoot entry found => exact (List.length_map _).le.trans small
  | gotPath dirId notRoot known found => exact (List.length_map _).le.trans small
  | remembered dirId path notRoot => exact trim_size _
  | forgot dirId path notRoot => exact (List.length_filter_le _ _).trans small
  | _ => exact small

/-! ## Entries in the order of use -/

/-- The entries of a cache are the directories of a list, with stamps in its order. -/
def InOrder (rows : List DirCacheEntry) (recent : RecentDirs) : Prop :=
  ∃ entries : List DirCacheEntry, entries.Perm rows ∧ entries.map DirCacheEntry.pair = recent ∧
    NewestFirst DirCacheEntry.lastAccess entries

variable {rows rows' : List DirCacheEntry} {recent : RecentDirs}

theorem InOrder.perm (inOrder : InOrder rows recent) :
    (rows.map DirCacheEntry.pair).Perm recent := by
  obtain ⟨entries, same, rfl, -⟩ := inOrder
  exact same.symm.map _

/-- An entry that is used, or new, comes to the front. -/
theorem InOrder.front (inOrder : InOrder rows recent) (entry : DirCacheEntry)
    (later : ∀ other ∈ rows, other.lastAccess < entry.lastAccess)
    (same : rows'.Perm (entry :: rows.filter fun other => other.path ≠ entry.path)) :
    InOrder rows' (entry.pair :: recent.filter fun other => other.2 ≠ entry.path) := by
  obtain ⟨entries, perm, rfl, newest⟩ := inOrder
  refine ⟨entry :: entries.filter (fun other => other.path ≠ entry.path),
    ((perm.filter _).cons entry).trans same.symm, ?_, ?_⟩
  · rw [List.map_cons, List.filter_map]
    rfl
  · refine List.pairwise_cons.mpr ⟨fun other member => ?_, newest.sublist List.filter_sublist⟩
    exact later other (perm.mem_iff.mp (List.mem_filter.mp member).1)

theorem InOrder.filter (inOrder : InOrder rows recent) (path : String) :
    InOrder (rows.filter fun other => other.path ≠ path)
      (recent.filter fun other => other.2 ≠ path) := by
  obtain ⟨entries, perm, rfl, newest⟩ := inOrder
  refine ⟨entries.filter (fun other => other.path ≠ path), perm.filter _, ?_,
    newest.sublist List.filter_sublist⟩
  rw [List.filter_map]
  rfl

/-- A trim leaves the entries used last. -/
theorem InOrder.trim (inOrder : InOrder cache.pathToEntry.rows recent) :
    InOrder cache.trim.pathToEntry.rows recent.trim := by
  have length := inOrder.perm.length_eq
  rw [List.length_map] at length
  unfold RecentDirs.trim
  split
  next small =>
    unfold DirCache.trim
    rw [if_pos (length.trans_le small)]
    exact inOrder
  next large =>
    have tooMany : dirCacheMaxEntries < cache.pathToEntry.rows.length := by omega
    have keeps : dirCacheTrimToEntries ≤ dirCacheMaxEntries := by decide
    obtain ⟨entries, perm, rfl, newest⟩ := inOrder
    have left := trim_perm tooMany
    rw [newest.insertionSort_eq perm, List.drop_reverse, perm.length_eq,
      Nat.sub_sub_self (by omega)] at left
    refine ⟨entries.take dirCacheTrimToEntries, (List.reverse_perm _).symm.trans left.symm,
      List.map_take, newest.sublist (List.take_sublist _ _)⟩

/-- The stamps of so many uses, before the counter stops. -/
structure Stamped (cache : DirCache) (uses : Nat) : Prop where
  next : cache.nextAccess = min (uses + 1) (u64Modulus - 1)
  stamps : ∀ entry ∈ cache.pathToEntry.rows, entry.lastAccess ≤ uses

section Uses

variable {uses : Nat}

theorem Stamped.stamp (stamped : Stamped cache uses) (early : uses < u64Modulus - 1) :
    cache.bumpAccess.1 = uses + 1 := by
  have next := stamped.next
  show cache.nextAccess = uses + 1
  omega

theorem Stamped.bumped (stamped : Stamped cache uses) (early : uses < u64Modulus - 1) :
    cache.bumpAccess.2.nextAccess = min (uses + 1 + 1) (u64Modulus - 1) := by
  have next := stamped.stamp early
  show min (cache.bumpAccess.1 + 1) (u64Modulus - 1) = _
  rw [next]

/-- The directory that a list has under a path. -/
theorem find_recent (inOrder : InOrder cache.pathToEntry.rows recent) :
    recent.find? (fun pair => pair.2 = path) =
      (cache.pathToEntry.find? path).map DirCacheEntry.pair := by
  cases found : cache.pathToEntry.find? path with
  | none =>
      refine List.find?_eq_none.mpr fun pair member => ?_
      obtain ⟨entry, among, rfl⟩ := List.mem_map.mp (inOrder.perm.mem_iff.mpr member)
      exact fun same => Table.find?_eq_none.mp found entry among (of_decide_eq_true same)
  | some entry =>
      obtain ⟨member, rfl⟩ := Table.mem_of_find? found
      have inRecent := inOrder.perm.mem_iff.mp (List.mem_map_of_mem member)
      cases first : recent.find? fun pair => pair.2 = entry.path with
      | none =>
          have absent := List.find?_eq_none.mp first entry.pair inRecent
          exact absurd (decide_eq_true rfl) absent
      | some pair =>
          have isPath : pair.2 = entry.path := by simpa using List.find?_some first
          obtain ⟨other, among, rfl⟩ :=
            List.mem_map.mp (inOrder.perm.mem_iff.mpr (List.mem_of_find?_eq_some first))
          rw [Table.eq_of_key_eq among member isPath]
          rfl

theorem InOrder.used (inOrder : InOrder cache.pathToEntry.rows recent)
    (stamped : Stamped cache uses) (early : uses < u64Modulus - 1) {entry : DirCacheEntry}
    (found : cache.pathToEntry.find? path = some entry) :
    InOrder (cache.used path).pathToEntry.rows (recent.use path) ∧
      Stamped (cache.used path) (uses + 1) := by
  obtain ⟨member, rfl⟩ := Table.mem_of_find? found
  have stamp := stamped.stamp early
  constructor
  · have isUse : recent.use entry.path =
        entry.pair :: recent.filter fun other => other.2 ≠ entry.path := by
      unfold RecentDirs.use
      rw [find_recent inOrder, found]
      rfl
    rw [isUse]
    let usedEntry : DirCacheEntry := { entry with lastAccess := cache.bumpAccess.1 }
    have later : ∀ other ∈ cache.pathToEntry.rows, other.lastAccess < usedEntry.lastAccess := by
      intro other among
      have old := stamped.stamps other among
      show other.lastAccess < cache.bumpAccess.1
      omega
    refine inOrder.front usedEntry later ?_
    -- The entry is stamped where it stands, and the others stay as they are.
    refine ((Table.perm_delete member).map _).trans ?_
    rw [List.map_cons, if_pos rfl]
    refine List.Perm.cons _ (List.Perm.of_eq ?_)
    rw [Table.rows_delete]
    have others : cache.pathToEntry.rows.filter (fun other => !decide (other.path = entry.path)) =
        cache.pathToEntry.rows.filter fun other => other.path ≠ usedEntry.path :=
      List.filter_congr fun other _ => by simp [usedEntry]
    rw [others]
    refine (List.map_congr_left fun other among => ?_).trans (List.map_id _)
    exact if_neg (of_decide_eq_true (List.mem_filter.mp among).2)
  · refine ⟨stamped.bumped early, fun other among => ?_⟩
    obtain ⟨old, member', rfl⟩ := List.mem_map.mp among
    have before := stamped.stamps old member'
    split
    · exact stamp.le
    · exact before.trans (Nat.le_succ _)

theorem InOrder.added (inOrder : InOrder cache.pathToEntry.rows recent)
    (stamped : Stamped cache uses) (early : uses < u64Modulus - 1) (dirId : Nat) (path : String) :
    InOrder (cache.added dirId path).pathToEntry.rows
        ((dirId, path) :: recent.filter fun other => other.2 ≠ path) ∧
      Stamped (cache.added dirId path) (uses + 1) := by
  have stamp := stamped.stamp early
  let entry : DirCacheEntry := ⟨path, dirId, cache.bumpAccess.1⟩
  constructor
  · refine inOrder.front entry (fun other among => ?_) (List.perm_append_singleton _ _)
    have old := stamped.stamps other among
    show other.lastAccess < cache.bumpAccess.1
    omega
  · refine ⟨stamped.bumped early, fun other among => ?_⟩
    rcases Table.mem_put.mp among with rfl | ⟨old, -⟩
    · exact stamp.le
    · exact (stamped.stamps other old).trans (Nat.le_succ _)

theorem Stamped.trim (stamped : Stamped cache uses) : Stamped cache.trim uses := by
  unfold DirCache.trim
  split
  · exact stamped
  · exact ⟨stamped.next, fun entry member => stamped.stamps entry (Table.mem_delete.mp member).1⟩

/-- Until the counter stops, a call keeps the entries in the order of their use. -/
theorem inOrder_of_call (synced : Synced mapping cache)
    (inOrder : InOrder cache.pathToEntry.rows recent) (stamped : Stamped cache uses)
    (early : uses < u64Modulus - 1) (call : DirCacheCall) :
    InOrder (cache.call call).pathToEntry.rows (recent.call call) ∧
      ∃ uses' ≤ uses + 1, Stamped (cache.call call) uses' := by
  have move := cache.call_move call
  generalize cache.call call = cache' at move ⊢
  cases move with
  | rooted call isRoot =>
      have same : recent.call call = recent := by
        cases call <;> exact if_pos isRoot
      rw [same]
      exact ⟨inOrder, uses, Nat.le_succ _, stamped⟩
  | missedId path notRoot none =>
      have same : recent.call (.getId path) = recent := by
        unfold RecentDirs.call RecentDirs.use
        dsimp only
        rw [if_neg notRoot, find_recent inOrder, none]
        rfl
      rw [same]
      exact ⟨inOrder, uses + 1, Nat.le_refl _, stamped.bumped early, fun entry member =>
        (stamped.stamps entry member).trans (Nat.le_succ _)⟩
  | gotId path notRoot entry found =>
      have isUse : recent.call (.getId path) = recent.use path := if_neg notRoot
      rw [isUse]
      obtain ⟨after, now⟩ := inOrder.used stamped early found
      exact ⟨after, uses + 1, Nat.le_refl _, now⟩
  | missedPath dirId notRoot none =>
      have absent : recent.find? (fun pair => pair.1 = dirId) = .none := by
        refine List.find?_eq_none.mpr fun pair member => ?_
        obtain ⟨known, among, rfl⟩ := List.mem_map.mp
          (synced.inverse.mem_iff.mpr (inOrder.perm.mem_iff.mpr member))
        exact fun same => Table.find?_eq_none.mp none known among (of_decide_eq_true same)
      have same : recent.call (.getPath dirId) = recent := by
        unfold RecentDirs.call
        dsimp only
        rw [if_neg notRoot, absent]
      rw [same]
      exact ⟨inOrder, uses, Nat.le_succ _, stamped⟩
  | gotPath dirId notRoot known found =>
      obtain ⟨entry, isEntry, isId⟩ := synced.find_iff.mpr ⟨known, found, rfl⟩
      obtain ⟨member, rfl⟩ := Table.mem_of_find? found
      have first : ∃ pair, recent.find? (fun pair => pair.1 = known.dirId) = some pair ∧
          pair.2 = known.path := by
        have inRecent := inOrder.perm.mem_iff.mp
          (synced.inverse.mem_iff.mp (List.mem_map_of_mem member))
        cases first : recent.find? fun pair => pair.1 = known.dirId with
        | none =>
            have absent := List.find?_eq_none.mp first known.pair inRecent
            exact absurd (decide_eq_true rfl) absent
        | some pair =>
            refine ⟨pair, rfl, ?_⟩
            have isKnown : pair.1 = known.dirId := by simpa using List.find?_some first
            obtain ⟨other, among, rfl⟩ := List.mem_map.mp (synced.inverse.mem_iff.mpr
              (inOrder.perm.mem_iff.mpr (List.mem_of_find?_eq_some first)))
            rw [Table.eq_of_key_eq among member isKnown]
            rfl
      obtain ⟨pair, first, isPath⟩ := first
      have isUse : recent.call (.getPath known.dirId) = recent.use known.path := by
        unfold RecentDirs.call
        dsimp only
        rw [if_neg notRoot, first, ← isPath]
      rw [isUse]
      obtain ⟨after, now⟩ := inOrder.used stamped early isEntry
      exact ⟨after, uses + 1, Nat.le_refl _, now⟩
  | remembered dirId path notRoot =>
      have isAdd : recent.call (.remember dirId path) =
          RecentDirs.trim ((dirId, path) :: recent.filter fun other => other.2 ≠ path) :=
        if_neg notRoot
      rw [isAdd]
      obtain ⟨after, now⟩ := inOrder.added stamped early dirId path
      exact ⟨after.trim, uses + 1, Nat.le_refl _, now.trim⟩
  | forgot dirId path notRoot =>
      have isForget : recent.call (.forget dirId path) =
          recent.filter fun other => other.2 ≠ path := if_neg notRoot
      rw [isForget]
      refine ⟨?_, uses, Nat.le_succ _, stamped.next, fun entry member =>
        stamped.stamps entry (Table.mem_delete.mp member).1⟩
      have rows : (cache.pathToEntry.delete fun entry => entry.path == path).rows =
          cache.pathToEntry.rows.filter fun other => other.path ≠ path :=
        List.filter_congr fun entry _ => by simp [beq_eq_decide]
      rw [rows]
      exact inOrder.filter path

end Uses

end DirCache

/-! ## Runs -/

namespace CachedDirs

/-- What the calls keep: the order of use among them until the counter stops. -/
structure Kept (s : CachedDirs) : Prop where
  synced : s.cache.Synced s.mapping
  small : s.cache.pathToEntry.rows.length ≤ dirCacheMaxEntries
  inOrder : s.calls < u64Modulus → DirCache.InOrder s.cache.pathToEntry.rows s.recent ∧
    ∃ uses ≤ s.calls, s.cache.Stamped uses

variable {s s' : CachedDirs} {call : DirCacheCall}

theorem Kept.new : Kept ⟨.new, [], [], 0⟩ where
  synced := ⟨List.Perm.refl _, nofun, nofun, nofun⟩
  small := Nat.zero_le _
  inOrder _ := ⟨⟨[], List.Perm.refl _, rfl, List.Pairwise.nil⟩, 0, Nat.le_refl _, rfl, nofun⟩

/-- A step makes the call, with a mapping to which its pair belongs. -/
theorem step_next (stepped : s.step call = some s') :
    ∃ mapping, s' = s.next call mapping ∧ DirCache.Remapped s.mapping call mapping := by
  cases call with
  | getId path => exact ⟨_, (Option.some.inj stepped).symm, .getId path⟩
  | getPath dirId => exact ⟨_, (Option.some.inj stepped).symm, .getPath dirId⟩
  | remember dirId path =>
      unfold step at stepped
      dsimp only at stepped
      split at stepped
      next pairs => exact ⟨_, (Option.some.inj stepped).symm, .remember dirId path pairs⟩
      next => cases stepped
  | forget dirId path =>
      unfold step at stepped
      dsimp only at stepped
      split at stepped
      next pairs => exact ⟨_, (Option.some.inj stepped).symm, .forget dirId path pairs⟩
      next => cases stepped

theorem Kept.step (kept : Kept s) (stepped : s.step call = some s') : Kept s' := by
  obtain ⟨mapping, rfl, remapped⟩ := step_next stepped
  refine ⟨kept.synced.of_call remapped, DirCache.call_size kept.small call, fun early => ?_⟩
  have before : s.calls + 1 < u64Modulus := early
  obtain ⟨inOrder, uses, fewer, stamped⟩ := kept.inOrder (Nat.lt_of_succ_lt before)
  obtain ⟨after, uses', more, now⟩ :=
    DirCache.inOrder_of_call kept.synced inOrder stamped (by omega) call
  exact ⟨after, uses', more.trans (Nat.succ_le_succ fewer), now⟩

theorem kept_of_reachable (reachable : cachedDirs.Reachable s) : Kept s := by
  refine reachable.invariant Kept (fun s initial => ?_) fun s call s' kept stepped =>
    kept.step stepped
  have isNew : s = ⟨.new, [], [], 0⟩ := initial
  exact isNew ▸ Kept.new

theorem next_remember {dirId : Nat} {path : String} {mapping : List (Nat × String)}
    (notRoot : ¬(dirId = rootDirId ∨ path = "/")) :
    (s.next (.remember dirId path) mapping).cache = (s.cache.added dirId path).trim :=
  DirCache.call_remember notRoot

/-- A call that remembers a path when the cache is full, so that it trims. -/
def Trims (s : CachedDirs) (dirId : Nat) (path : String) : Prop :=
  ¬(dirId = rootDirId ∨ path = "/") ∧
    dirCacheMaxEntries < (s.cache.added dirId path).pathToEntry.rows.length

/-- The directories that are left after a trim. -/
theorem Kept.trims (kept : Kept s) {dirId : Nat} {path : String} (trims : s.Trims dirId path)
    (stepped : s.step (.remember dirId path) = some s') :
    s'.cache.pathToEntry.rows.length = dirCacheTrimToEntries ∧
      (s'.calls < u64Modulus → (s'.cache.pathToEntry.rows.map DirCacheEntry.pair).Perm
        (((dirId, path) :: s.recent).take dirCacheTrimToEntries)) := by
  obtain ⟨notRoot, large⟩ := trims
  have kept' := kept.step stepped
  obtain ⟨mapping, rfl, -⟩ := step_next stepped
  have isTrim : (s.next (.remember dirId path) mapping).cache = (s.cache.added dirId path).trim :=
    next_remember notRoot
  refine ⟨isTrim ▸ DirCache.trim_length large, fun early => ?_⟩
  have before : s.calls + 1 < u64Modulus := early
  have inOrder := (kept.inOrder (Nat.lt_of_succ_lt before)).1
  have after := (kept'.inOrder early).1.perm
  have small := kept.small
  have grown : (s.cache.added dirId path).pathToEntry.rows.length =
      (s.cache.pathToEntry.rows.filter fun other : DirCacheEntry => other.path ≠ path).length + 1 :=
    List.length_append
  -- The path was not in the cache, as it makes the cache too large.
  have absent : ∀ entry ∈ s.cache.pathToEntry.rows, entry.path ≠ path := by
    intro entry member same
    have length := (Table.perm_delete member).length_eq
    rw [List.length_cons, Table.rows_delete, same] at length
    simp only [ne_eq, decide_not] at grown
    omega
  have others : (s.recent.filter fun pair => pair.2 ≠ path) = s.recent := by
    refine List.filter_eq_self.mpr fun pair member => decide_eq_true ?_
    obtain ⟨entry, among, rfl⟩ := List.mem_map.mp (inOrder.perm.mem_iff.mpr member)
    exact absent entry among
  have isAdd : (s.next (.remember dirId path) mapping).recent =
      RecentDirs.trim ((dirId, path) :: s.recent) :=
    (if_neg notRoot).trans (by rw [others])
  have tooMany : ¬((dirId, path) :: s.recent).length ≤ dirCacheMaxEntries := by
    have length := inOrder.perm.length_eq
    rw [List.length_map] at length
    rw [List.filter_eq_self.mpr fun entry member => decide_eq_true (absent entry member)] at grown
    rw [List.length_cons]
    omega
  rw [isAdd, RecentDirs.trim, if_neg tooMany] at after
  exact after

end CachedDirs

/-! ## Filling a cache -/

namespace CachedDirs

/-- A path of one name, longer than those of smaller numbers. -/
def longPath (number : Nat) : String := "/" ++ String.ofList (List.replicate (number + 1) 'a')

def numbered (number : Nat) : Nat × String := (number + 2, longPath number)

theorem longPath_inj {left right : Nat} : longPath left = longPath right ↔ left = right := by
  refine ⟨fun same => ?_, fun same => same ▸ rfl⟩
  have letters := congrArg (fun path => path.toList.length) same
  simp only [longPath, String.toList_append, String.toList_ofList, List.length_append,
    List.length_replicate] at letters
  omega

theorem longPath_ne_root (number : Nat) : longPath number ≠ "/" := by
  intro same
  have letters := congrArg (fun path => path.toList.length) same
  simp [longPath] at letters

/-- The stamp of a call that so many calls came before. -/
def stamp (calls : Nat) : Nat := min (calls + 1) (u64Modulus - 1)

theorem stamp_succ (calls : Nat) : min (stamp calls + 1) (u64Modulus - 1) = stamp (calls + 1) := by
  unfold stamp
  omega

/-- Any number of lookups that find nothing. -/
theorem reachable_missed (count : Nat) : cachedDirs.Reachable
    ⟨{ DirCache.new with nextAccess := stamp count }, [], [], count⟩ := by
  induction count with
  | zero => exact .init rfl
  | succ count inductionHypothesis =>
      have notRoot : "/x" ≠ "/" := by decide
      refine inductionHypothesis.step (e := .getId "/x") (congrArg some ?_)
      unfold next DirCache.call DirCache.getId RecentDirs.call
      dsimp only
      rw [if_neg notRoot, if_neg notRoot]
      show CachedDirs.mk ⟨_, _, min (stamp count + 1) (u64Modulus - 1)⟩ [] [] _ = _
      rw [stamp_succ]

/-- So many directories, all remembered after so many lookups. -/
structure Filled (lookups count : Nat) (s : CachedDirs) : Prop where
  rows : s.cache.pathToEntry.rows = (List.range count).map fun number =>
    ⟨longPath number, number + 2, stamp (lookups + number)⟩
  nextAccess : s.cache.nextAccess = stamp (lookups + count)
  mapping : s.mapping = (List.range count).reverse.map numbered
  recent : s.recent = (List.range count).reverse.map numbered
  calls : s.calls = lookups + count

variable {s : CachedDirs} {lookups count : Nat}

theorem Filled.pairs (filled : Filled lookups count s) :
    Pairs s.mapping (count + 2) (longPath count) := by
  intro pair member
  rw [filled.mapping] at member
  obtain ⟨number, below, rfl⟩ := List.mem_map.mp member
  have smaller : number < count := by simpa using below
  refine iff_of_false (fun same => ?_) fun same => ?_
  · have isNumber : number + 2 = count + 2 := same
    omega
  · exact absurd (longPath_inj.mp same) (Nat.ne_of_lt smaller)

theorem Filled.added (filled : Filled lookups count s) :
    (s.cache.added (count + 2) (longPath count)).pathToEntry.rows = (List.range (count + 1)).map
      fun number => ⟨longPath number, number + 2, stamp (lookups + number)⟩ := by
  show (s.cache.pathToEntry.rows.filter fun entry : DirCacheEntry => entry.path ≠ longPath count) ++
    [⟨longPath count, count + 2, s.cache.nextAccess⟩] = _
  rw [filled.rows, filled.nextAccess, List.range_succ, List.map_append]
  refine congrArg (· ++ _) (List.filter_eq_self.mpr fun entry member => decide_eq_true ?_)
  obtain ⟨number, below, rfl⟩ := List.mem_map.mp member
  exact fun same => Nat.ne_of_lt (List.mem_range.mp below) (longPath_inj.mp same)

theorem Filled.recent_cons (filled : Filled lookups count s) :
    (count + 2, longPath count) :: s.recent =
      (List.range (count + 1)).reverse.map numbered := by
  rw [filled.recent, List.range_succ, List.reverse_append]
  rfl

theorem Filled.next (filled : Filled lookups count s) (room : count < dirCacheMaxEntries) :
    ∃ s', cachedDirs.step s (.remember (count + 2) (longPath count)) = some s' ∧
      Filled lookups (count + 1) s' := by
  have notRoot : ¬(count + 2 = rootDirId ∨ longPath count = "/") :=
    not_or.mpr ⟨by unfold rootDirId; omega, longPath_ne_root count⟩
  refine ⟨_, if_pos filled.pairs, ?_⟩
  have isAdd : s.cache.call (.remember (count + 2) (longPath count)) =
      s.cache.added (count + 2) (longPath count) := by
    refine (DirCache.call_remember notRoot).trans (if_pos ?_)
    show (s.cache.added (count + 2) (longPath count)).pathToEntry.rows.length ≤ _
    rw [filled.added, List.length_map, List.length_range]
    exact room
  have others : (s.recent.filter fun pair => pair.2 ≠ longPath count) = s.recent := by
    refine List.filter_eq_self.mpr fun pair member => decide_eq_true fun same => ?_
    rw [filled.recent] at member
    obtain ⟨number, below, rfl⟩ := List.mem_map.mp member
    have smaller : number < count := by simpa using below
    exact Nat.ne_of_lt smaller (longPath_inj.mp same)
  have isFront : s.recent.call (.remember (count + 2) (longPath count)) =
      numbered count :: s.recent := by
    refine (if_neg notRoot).trans ?_
    rw [others]
    refine if_pos ?_
    rw [filled.recent, List.length_cons, List.length_map, List.length_reverse, List.length_range]
    exact room
  refine ⟨?_, ?_, ?_, ?_, ?_⟩
  · exact (congrArg (fun cache : DirCache => cache.pathToEntry.rows) isAdd).trans filled.added
  · refine (congrArg DirCache.nextAccess isAdd).trans ?_
    show min (s.cache.nextAccess + 1) (u64Modulus - 1) = _
    rw [filled.nextAccess, stamp_succ]
    rfl
  · show (count + 2, longPath count) :: s.mapping = _
    rw [filled.mapping, List.range_succ, List.reverse_append]
    rfl
  · exact isFront.trans filled.recent_cons
  · exact congrArg Nat.succ filled.calls

theorem reachable_filled (lookups : Nat) (small : count ≤ dirCacheMaxEntries) :
    ∃ s, cachedDirs.Reachable s ∧ Filled lookups count s := by
  induction count with
  | zero => exact ⟨_, reachable_missed lookups, rfl, rfl, rfl, rfl, rfl⟩
  | succ count inductionHypothesis =>
      obtain ⟨s, reachable, filled⟩ := inductionHypothesis (Nat.le_of_succ_le small)
      obtain ⟨s', stepped, filled'⟩ := filled.next small
      exact ⟨s', reachable.step stepped, filled'⟩

/-- One directory more makes a full cache trim. -/
theorem Filled.trims (filled : Filled lookups dirCacheMaxEntries s) :
    cachedDirs.step s (.remember (dirCacheMaxEntries + 2) (longPath dirCacheMaxEntries)) =
        some (s.next (.remember (dirCacheMaxEntries + 2) (longPath dirCacheMaxEntries))
          ((dirCacheMaxEntries + 2, longPath dirCacheMaxEntries) :: s.mapping)) ∧
      s.Trims (dirCacheMaxEntries + 2) (longPath dirCacheMaxEntries) := by
  refine ⟨if_pos filled.pairs, not_or.mpr ⟨Nat.succ_ne_zero _, longPath_ne_root _⟩, ?_⟩
  rw [filled.added, List.length_map, List.length_range]
  exact Nat.lt_succ_self _

end CachedDirs

/-- The two maps hold the same pairs, and never too many. While the counter still numbers the
calls, a trim leaves the directories used last, and the new one in front of them. -/
theorem recent_dirs_kept {s : CachedDirs} (reachable : cachedDirs.Reachable s) :
    (∀ dirId path, (∃ entry, s.cache.pathToEntry.find? path = some entry ∧ entry.dirId = dirId) ↔
      ∃ known, s.cache.idToPath.find? dirId = some known ∧ known.path = path) ∧
    s.cache.pathToEntry.rows.length ≤ dirCacheMaxEntries ∧
    s.cache.idToPath.rows.length ≤ dirCacheMaxEntries ∧
    ∀ dirId path s', cachedDirs.step s (.remember dirId path) = some s' → s.Trims dirId path →
      s'.cache.pathToEntry.rows.length = dirCacheTrimToEntries ∧
        (s'.calls < u64Modulus → (s'.cache.pathToEntry.rows.map DirCacheEntry.pair).Perm
          (((dirId, path) :: s.recent).take dirCacheTrimToEntries)) := by
  have kept := CachedDirs.kept_of_reachable reachable
  have length := kept.synced.inverse.length_eq
  rw [List.length_map, List.length_map] at length
  exact ⟨fun _ _ => kept.synced.find_iff, kept.small, length.trans_le kept.small,
    fun _ _ _ stepped trims => kept.trims trims stepped⟩

/-- A cache that one directory after the other has filled up, and the trim for one more. -/
theorem recent_dirs_kept_filled : ∃ s s', cachedDirs.Reachable s ∧
    cachedDirs.step s (.remember (dirCacheMaxEntries + 2)
      (CachedDirs.longPath dirCacheMaxEntries)) = some s' ∧
    ((∃ entry, s.cache.pathToEntry.find? (CachedDirs.longPath 0) = some entry ∧ entry.dirId = 2) ↔
      ∃ known, s.cache.idToPath.find? 2 = some known ∧ known.path = CachedDirs.longPath 0) ∧
    s.cache.pathToEntry.rows.length ≤ dirCacheMaxEntries ∧
    s.cache.idToPath.rows.length ≤ dirCacheMaxEntries ∧
    s'.cache.pathToEntry.rows.length = dirCacheTrimToEntries ∧
    (s'.cache.pathToEntry.rows.map DirCacheEntry.pair).Perm
      (((List.range (dirCacheMaxEntries + 1)).reverse.map CachedDirs.numbered).take
        dirCacheTrimToEntries) := by
  obtain ⟨s, reachable, filled⟩ := CachedDirs.reachable_filled 0 (Nat.le_refl dirCacheMaxEntries)
  obtain ⟨stepped, trims⟩ := filled.trims
  obtain ⟨inverse, entries, paths, trimmed⟩ := recent_dirs_kept reachable
  obtain ⟨length, recent⟩ := trimmed _ _ _ stepped trims
  have early : s.calls + 1 < u64Modulus := by
    rw [filled.calls]
    unfold dirCacheMaxEntries u64Modulus
    omega
  have kept := recent early
  rw [filled.recent_cons] at kept
  exact ⟨s, _, reachable, stepped, inverse 2 _, entries, paths, length, kept⟩

/-! ## After the counter stops -/

namespace CachedDirs

variable {s : CachedDirs} {count : Nat}

/-- After so many lookups all stamps are the same. -/
@[simp] theorem stamp_stopped (calls : Nat) : stamp (u64Modulus + calls) = u64Modulus - 1 :=
  Nat.min_eq_right (by omega)

/-- The first of the directories is looked up once more. -/
theorem Filled.looked (filled : Filled u64Modulus (count + 1) s) :
    ∃ s', cachedDirs.step s (.getId (longPath 0)) = some s' ∧
      s'.cache.pathToEntry.rows = s.cache.pathToEntry.rows ∧
      s'.cache.nextAccess = u64Modulus - 1 ∧ s'.mapping = s.mapping ∧
      s'.recent = numbered 0 :: s.recent.filter fun other => other.2 ≠ longPath 0 := by
  have notRoot := longPath_ne_root 0
  let entry : DirCacheEntry := ⟨longPath 0, 2, u64Modulus - 1⟩
  have found : s.cache.pathToEntry.find? (longPath 0) = some entry := by
    refine Table.find?_eq_some.mpr ⟨?_, rfl⟩
    rw [filled.rows]
    exact List.mem_map_of_mem (List.mem_range.mpr (Nat.succ_pos count))
  have isUsed : s.cache.call (.getId (longPath 0)) = s.cache.used (longPath 0) := by
    unfold DirCache.call DirCache.getId
    dsimp only
    rw [if_neg notRoot]
    simp only [DirCache.bumpAccess]
    split
    next none => exact absurd (none.symm.trans found) nofun
    next => rfl
  refine ⟨_, rfl, ?_, ?_, rfl, ?_⟩
  · refine (congrArg (fun cache : DirCache => cache.pathToEntry.rows) isUsed).trans ?_
    refine (List.map_congr_left fun other member => ?_).trans (List.map_id _)
    have old : other ∈ s.cache.pathToEntry.rows := member
    rw [filled.rows] at old
    obtain ⟨number, -, rfl⟩ := List.mem_map.mp old
    -- The stamp is the one that the entry has already.
    show (if _ then DirCacheEntry.mk _ _ s.cache.nextAccess else _) = _
    rw [filled.nextAccess, stamp_stopped, stamp_stopped]
    exact ite_self _
  · refine (congrArg DirCache.nextAccess isUsed).trans ?_
    show min (s.cache.nextAccess + 1) (u64Modulus - 1) = _
    rw [filled.nextAccess, stamp_stopped]
    exact Nat.min_eq_right (Nat.le_succ _)
  · have isUse : s.recent.call (.getId (longPath 0)) = s.recent.use (longPath 0) := by
      unfold RecentDirs.call
      exact if_neg notRoot
    refine isUse.trans ?_
    have first : s.recent.find? (fun pair => pair.2 = longPath 0) = some (numbered 0) := by
      cases first : s.recent.find? fun pair => pair.2 = longPath 0 with
      | none =>
          refine absurd (decide_eq_true rfl) (List.find?_eq_none.mp first (numbered 0) ?_)
          rw [filled.recent]
          exact List.mem_map_of_mem (by simp)
      | some pair =>
          have member := List.mem_of_find?_eq_some first
          have isPath : pair.2 = longPath 0 := by simpa using List.find?_some first
          rw [filled.recent] at member
          obtain ⟨number, -, rfl⟩ := List.mem_map.mp member
          rw [longPath_inj.mp isPath]
    unfold RecentDirs.use
    rw [first]

end CachedDirs

/-- After so many lookups that the counter stands still, a trim evicts the directory that was
looked up just before it. -/
theorem used_dir_evicted :
    ¬ ∀ s, cachedDirs.Reachable s → ∀ dirId path s',
      cachedDirs.step s (.remember dirId path) = some s' → s.Trims dirId path →
      (s'.cache.pathToEntry.rows.map DirCacheEntry.pair).Perm
        (((dirId, path) :: s.recent).take dirCacheTrimToEntries) := by
  intro claim
  obtain ⟨s₀, reachable₀, filled⟩ := CachedDirs.reachable_filled u64Modulus
    (Nat.le_refl dirCacheMaxEntries)
  have filled' : CachedDirs.Filled u64Modulus (8191 + 1) s₀ := filled
  obtain ⟨s, looked, rows, stopped, mapping, recent⟩ := filled'.looked
  have reachable := reachable₀.step looked
  -- But for the order of use, the state is the one before the lookup.
  let s₁ : CachedDirs := { s with recent := s₀.recent, calls := s₀.calls }
  have filled₁ : CachedDirs.Filled u64Modulus dirCacheMaxEntries s₁ :=
    ⟨rows.trans filled.rows, stopped.trans (CachedDirs.stamp_stopped _).symm,
      mapping.trans filled.mapping, filled.recent, filled.calls⟩
  let dirId := dirCacheMaxEntries + 2
  let path := CachedDirs.longPath dirCacheMaxEntries
  have added : (s.cache.added dirId path).pathToEntry.rows = _ := filled₁.added
  obtain ⟨notRoot, large⟩ : s.Trims dirId path := filled₁.trims.2
  have stepped : cachedDirs.step s (.remember dirId path) =
      some (s.next (.remember dirId path) ((dirId, path) :: s.mapping)) := if_pos filled₁.pairs
  have same := claim s reachable dirId path _ stepped ⟨notRoot, large⟩
  have isNewer : CachedDirs.numbered 0 ∈
      ((dirId, path) :: s.recent).take dirCacheTrimToEntries := by
    rw [recent]
    exact List.mem_cons_of_mem _ List.mem_cons_self
  obtain ⟨entry, member, isFirst⟩ := List.mem_map.mp (same.mem_iff.mpr isNewer)
  rw [CachedDirs.next_remember notRoot] at member
  have survives := (DirCache.trim_perm large).mem_iff.mp member
  -- All stamps are the same, so the entries are sorted as they stand.
  have sorted : (s.cache.added dirId path).pathToEntry.rows.Pairwise fun left right =>
      left.lastAccess ≤ right.lastAccess := by
    rw [added]
    refine List.pairwise_map.mpr (List.Pairwise.imp ?_ List.pairwise_lt_range)
    intro left right _
    exact ((CachedDirs.stamp_stopped left).trans (CachedDirs.stamp_stopped right).symm).le
  have evicts : dirCacheMaxEntries + 1 - dirCacheTrimToEntries = 2048 + 1 := rfl
  rw [sorted.insertionSort_eq, added, List.length_map, List.length_range, evicts,
    List.range_succ_eq_map, List.map_cons, List.drop_succ_cons] at survives
  have isLater : entry ∈ ((List.range dirCacheMaxEntries).map Nat.succ).map fun number =>
      (⟨CachedDirs.longPath number, number + 2, CachedDirs.stamp (u64Modulus + number)⟩ :
        DirCacheEntry) :=
    List.mem_of_mem_drop survives
  obtain ⟨number, isSucc, rfl⟩ := List.mem_map.mp isLater
  obtain ⟨before, -, rfl⟩ := List.mem_map.mp isSucc
  have isNumber : before.succ + 2 = 0 + 2 := congrArg Prod.fst isFirst
  omega

end Fs0
