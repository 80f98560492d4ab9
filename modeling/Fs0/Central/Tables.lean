import Fs0.Core.Protocol
import Fs0.Core.Path
import Fs0.Core.Statement
import Fs0.Lib.Table
import Mathlib.Data.List.Sort

/-!
Contract: the tables of central's database, the directory cache kept beside
them, and the transactions over both.

Owns:
- the rows, keys and sequences of the schema;
- the statements that check a constraint, with the error each raises;
- the state of a transaction and its primitive steps.

Does not own: the operations of a transaction, which are built from these steps.
-/

set_option autoImplicit false

namespace Fs0

open Lib

/-! ## Rows -/

structure VolumeRow where
  volumeId : Nat
  name : String
  maxBytes : Nat
  maxVolumeOffset : Nat
deriving DecidableEq, Repr

structure DirRow where
  dirId : Nat
  parentDirId : Option Nat
  name : String
deriving DecidableEq, Repr

structure FileRow where
  fileId : Nat
  dirId : Nat
  name : String
  sizeBytes : Nat
  compressedSizeBytes : Nat
  createdAtMs : Nat
  updatedAtMs : Nat
deriving DecidableEq, Repr

structure FileBundleRow where
  fileId : Nat
  bundleIndex : Nat
  bundleId : HashId
deriving DecidableEq, Repr

def FileBundleRow.key (row : FileBundleRow) : Nat × Nat := (row.fileId, row.bundleIndex)

structure BundleReplicaRow where
  bundleId : HashId
  volumeId : Nat
  rawLen : Nat
  compressedLen : Nat
deriving DecidableEq, Repr

def BundleReplicaRow.key (row : BundleReplicaRow) : HashId × Nat := (row.bundleId, row.volumeId)

structure UpdateLeaseRow where
  leaseId : Nat
  fileId : Nat
  volumeId : Nat
  baseSizeBytes : Nat
  offsetBytes : Nat
  preferVolumeName : Option String
  expiresAtMs : Nat
  createdAtMs : Nat
deriving DecidableEq, Repr

structure FileEventRow where
  eventId : Nat
  eventType : FileChangeLogKind
  newDir : Option String
  newName : Option String
  fileId : Option Nat
  createdAtMs : Nat
deriving DecidableEq, Repr

/-- The tables of `schema.sql`. Those keyed by `AUTOINCREMENT` never reuse a key. -/
structure CentralTables where
  volumes : SeqTable VolumeRow.volumeId
  dirs : Table DirRow.dirId
  files : SeqTable FileRow.fileId
  fileBundles : Table FileBundleRow.key
  bundleReplicas : Table BundleReplicaRow.key
  updateLeases : SeqTable UpdateLeaseRow.leaseId
  fileEvents : SeqTable FileEventRow.eventId
deriving DecidableEq

def rootDirId : Nat := 0

/-- A database on which only `schema.sql` has run. -/
def CentralTables.initial : CentralTables where
  volumes := .empty
  dirs := ⟨[⟨rootDirId, none, ""⟩], by simp⟩
  files := .empty
  fileBundles := .empty
  bundleReplicas := .empty
  updateLeases := .empty
  fileEvents := .empty

/-! ## Directory cache -/

structure DirCacheEntry where
  path : String
  dirId : Nat
  lastAccess : Nat
deriving DecidableEq, Repr

structure DirCachePath where
  dirId : Nat
  path : String
deriving DecidableEq, Repr

/-- `DirCacheState`: its two hash maps and the access counter. -/
structure DirCache where
  pathToEntry : Table DirCacheEntry.path
  idToPath : Table DirCachePath.dirId
  nextAccess : Nat
deriving DecidableEq

def DirCache.new : DirCache := ⟨.empty, .empty, 1⟩

/-! ## Transactions -/

/-- Central's database: the tables are durable, the cache lives in memory and
outlives every transaction. -/
abbrev CentralDb := CentralTables × DirCache

/-- `CentralDb::open` on a new file. -/
def CentralDb.open' : CentralDb := (.initial, .new)

/-- A computation inside a transaction. A failure keeps the state it reached;
rolling back is up to the transaction around it. -/
abbrev CentralTx (α : Type) := EStateM Fs0Error CentralDb α

namespace CentralTx

export Statement (query execute bindU64 query_apply execute_eq_ok execute_eq_error bindU64_eq_ok
  bindU64_bind_eq_ok bindU64_eq_error bindU64_of_le)

/-- Uses the directory cache under its own lock. -/
def cached {α : Type} (use : DirCache → α × DirCache) : CentralTx α := fun db =>
  .ok (use db.2).1 (db.1, (use db.2).2)

@[simp] theorem cached_apply {α : Type} (use : DirCache → α × DirCache) (db : CentralDb) :
    cached use db = .ok (use db.2).1 (db.1, (use db.2).2) := rfl

theorem query_bind_eq_ok {α β : Type} {select : CentralTables → α} {f : α → CentralTx β}
    {db db' : CentralDb} {b : β} :
    (query select >>= f) db = .ok b db' ↔ f (select db.1) db = .ok b db' :=
  Iff.rfl

end CentralTx

/-! ## Sequences -/

/-- The error of a sequence or a table that has no number left. -/
def databaseFull : Fs0Error := .sqlite "database or disk is full"

/-- Appends the row an `AUTOINCREMENT` table builds for its next number. -/
def pushRow {ρ : Type} {key : ρ → Nat} (table : SeqTable key) (row : Nat → ρ)
    (keeps : ∀ n, key (row n) = n) : Fs0Result (Nat × SeqTable key) :=
  if table.seq < i64Max then .ok (table.seq + 1, table.push row keeps) else .error databaseFull

theorem pushRow_eq_ok {ρ : Type} {key : ρ → Nat} {table table' : SeqTable key} {row : Nat → ρ}
    {keeps : ∀ n, key (row n) = n} {id : Nat} :
    pushRow table row keeps = .ok (id, table') ↔
      table.seq < i64Max ∧ id = table.seq + 1 ∧ table' = table.push row keeps := by
  unfold pushRow
  split
  · next room =>
      simp only [Except.ok.injEq, Prod.mk.injEq]
      tauto
  · next full => simp [full]

end Fs0
