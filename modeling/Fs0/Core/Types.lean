import Mathlib.Data.List.Basic
import Mathlib.Tactic.Ring

/-!
Contract: the constants, machine integers, identifiers and errors shared by every
component.

Owns:
- the size constants of `fs0-core`;
- `u64` values as naturals with checked and wrapping operators, and the `i64`
  conversion guarding every value that is bound to an SQL statement;
- `HashId`, `Fs0Error` and the SQL sum over integers.

Does not own: the hash function. It is a parameter wherever it is used.
-/

set_option autoImplicit false

namespace Fs0

abbrev Bytes := List UInt8

/-! ## Constants -/

/-- Raw bytes targeted for each committed bundle. -/
def volumeBundleRawSize : Nat := 128 * 1024 * 1024

/-- Raw chunk target size before compression. -/
def volumeRawChunkSize : Nat := 1024 * 1024

/-- Size of each backing data file within a volume. -/
def volumeDefaultDataFileSize : Nat := 4 * 1024 * 1024 * 1024

/-- Lifetime of the update leases issued by central. -/
def updateLeaseTtlMs : Nat := 60000

def volumeFormatVersion : Nat := 1

/-! ## Machine integers -/

def u64Modulus : Nat := 2 ^ 64

def i64Max : Nat := 2 ^ 63 - 1

/-- `u64::checked_add`. -/
def checkedAdd (left right : Nat) : Option Nat :=
  if left + right < u64Modulus then some (left + right) else none

/-- `u64::checked_mul`. -/
def checkedMul (left right : Nat) : Option Nat :=
  if left * right < u64Modulus then some (left * right) else none

/-- The unchecked `+` on `u64` of a release build. -/
def wrappingAdd (left right : Nat) : Nat := (left + right) % u64Modulus

/-- The unchecked `*` on `u64` of a release build. -/
def wrappingMul (left right : Nat) : Nat := left * right % u64Modulus

theorem checkedAdd_eq_some {left right total : Nat} :
    checkedAdd left right = some total ↔ left + right < u64Modulus ∧ total = left + right := by
  unfold checkedAdd
  split <;> simp_all [eq_comm]

/-- `checked_add(..).is_none_or(|end| end > bound)` does not hold. -/
theorem checkedAdd_all_gt {left right bound : Nat} :
    ((checkedAdd left right).all fun total => bound < total) = false ↔
      left + right < u64Modulus ∧ left + right ≤ bound := by
  unfold checkedAdd
  split
  · next fits => simp [fits]
  · next overflows => simp [overflows]

theorem checkedMul_eq_some {left right product : Nat} :
    checkedMul left right = some product ↔
      left * right < u64Modulus ∧ product = left * right := by
  unfold checkedMul
  split <;> simp_all [eq_comm]

theorem wrappingAdd_of_lt {left right : Nat} (fits : left + right < u64Modulus) :
    wrappingAdd left right = left + right :=
  Nat.mod_eq_of_lt fits

theorem wrappingMul_of_lt {left right : Nat} (fits : left * right < u64Modulus) :
    wrappingMul left right = left * right :=
  Nat.mod_eq_of_lt fits

/-! ## Identifiers and errors -/

/-- A 32-byte content hash. -/
structure HashId where
  bytes : Bytes
  length_bytes : bytes.length = 32
deriving DecidableEq, Repr

theorem HashId.ext_bytes {left right : HashId} (same : left.bytes = right.bytes) :
    left = right := by
  cases left
  cases right
  simp_all

/-- The hash that repeats one byte. -/
def HashId.repeating (byte : UInt8) : HashId := ⟨List.replicate 32 byte, List.length_replicate⟩

inductive Fs0Error where
  | invalidFrame (message : String)
  | frameTooLarge (actual max : Nat)
  | io (message : String)
  | postcard (message : String)
  | zstd (message : String)
  | sqlite (message : String)
  | invalidConfig (message : String)
  | invalidData (message : String)
  | invalidPath (path : String)
  | integerConversion (message : String)
  | alreadyExists (path : String)
  | volumeNotFound (path : String)
  | noAvailableVolume (preferVolumeName : Option String) (updateSizeHint : Option Nat)
  | chunkNotFound (chunkId : HashId)
  | bundleNotFound (bundleId : HashId)
  | capacityExceeded (requiredEnd maxBytes : Nat)
  | hashMismatch (volumeOffset : Nat)
  | unsupported
  | notFound
  | volumeAlreadyMounted
  | versionConflict (message : String)
  | chunkNotReady
  | invalidRequest
  | unauthorized
  | unknownVolume
  | centralUnavailable
  | internal (message : String)
  | fs0Version (required actual : String)
deriving DecidableEq, Repr

abbrev Fs0Result (α : Type) := Except Fs0Error α

/-- `Option::ok_or_else`. -/
def okOr {α : Type} (value : Option α) (err : Fs0Error) : Fs0Result α :=
  match value with
  | some a => .ok a
  | none => .error err

@[simp] theorem okOr_eq_ok {α : Type} {value : Option α} {err : Fs0Error} {a : α} :
    okOr value err = .ok a ↔ value = some a := by
  cases value <;> simp [okOr]

@[simp] theorem Fs0Result.ok_bind {α β : Type} (a : α) (next : α → Fs0Result β) :
    ((Except.ok a : Fs0Result α) >>= next) = next a := rfl

@[simp] theorem Fs0Result.error_bind {α β : Type} (err : Fs0Error) (next : α → Fs0Result β) :
    ((Except.error err : Fs0Result α) >>= next) = .error err := rfl

/-- A computation that goes on after another has both of them succeed. -/
theorem Fs0Result.bind_eq_ok {α β : Type} {first : Fs0Result α} {next : α → Fs0Result β} {b : β} :
    (first >>= next) = .ok b ↔ ∃ a, first = .ok a ∧ next a = .ok b := by
  cases first <;> simp [bind, Except.bind]

/-- `u64_to_i64`: the value bound to a statement, when it fits. -/
def u64ToI64 (value : Nat) (name : String) : Fs0Result Nat :=
  if value ≤ i64Max then .ok value
  else .error (.integerConversion s!"{name} value {value} does not fit in i64")

theorem u64ToI64_eq_ok {value bound : Nat} {name : String} :
    u64ToI64 value name = .ok bound ↔ value ≤ i64Max ∧ bound = value := by
  unfold u64ToI64
  split <;> simp_all [eq_comm]

/-! ## SQL aggregates -/

/-- `SUM` over a column of non-negative integers, with `COALESCE(.., 0)`. SQLite
adds in `i64` and raises an error when the total leaves that range. -/
def sqlSum (values : List Nat) : Fs0Result Nat :=
  if values.sum ≤ i64Max then .ok values.sum else .error (.sqlite "integer overflow")

theorem sqlSum_eq_ok {values : List Nat} {total : Nat} :
    sqlSum values = .ok total ↔ values.sum ≤ i64Max ∧ total = values.sum := by
  unfold sqlSum
  split <;> simp_all [eq_comm]

/-- The most parameters a statement can have, `SQLITE_MAX_VARIABLE_NUMBER`. -/
def sqliteMaxVariableNumber : Nat := 32766

/-- The error of a statement with more parameters. -/
def tooManyVariables : Fs0Error := .sqlite "too many SQL variables"

/-- The error of a foreign key that names no row. -/
def foreignKeyFailed : Fs0Error := .sqlite "FOREIGN KEY constraint failed"

/-- The error of a unique key that is taken. -/
def uniqueFailed (columns : String) : Fs0Error :=
  .sqlite s!"UNIQUE constraint failed: {columns}"

end Fs0
