import Fs0.Lib.Extent

/-!
Contract: one file of an operating system, whose pages reach the disk when they are synced.

Owns:
- the file with what it holds and what of it is durable, and its calls;
- the file that a crash leaves behind;
- that a value which is durable stays so until it is written again.

Does not own: who calls, and the names that files have.
-/

set_option autoImplicit false

namespace Fs0.Lib

universe u

/-- A file: what it holds, and what of that has reached the disk. -/
structure DiskFile (β : Type u) where
  len : Nat
  values : Nat → β
  /-- The positions written since the last sync. -/
  dirty : Nat → Bool
  /-- The length at the last sync. -/
  syncedLen : Nat
  /-- The directory entry has reached the disk. A sync of the file does not see to that. -/
  linked : Bool
  synced_le : syncedLen ≤ len

namespace DiskFile

variable {β : Type u}

/-- A file just created. Past the end of a file are the values it is extended with. -/
def created (zero : β) : DiskFile β where
  len := 0
  values _ := zero
  dirty _ := false
  syncedLen := 0
  linked := false
  synced_le := Nat.le_refl 0

variable (f : DiskFile β)

/-- Writes values, which extend the file if they reach past its end. -/
def write (start : Nat) (written : List β) : DiskFile β where
  len := max f.len (start + written.length)
  values := overwrite f.values start written
  dirty p := f.dirty p || decide (start ≤ p ∧ p < start + written.length)
  syncedLen := f.syncedLen
  linked := f.linked
  synced_le := Nat.le_trans f.synced_le (Nat.le_max_left _ _)

/-- Extends the file to a length, if it is shorter. -/
def grow (len : Nat) : DiskFile β where
  len := max f.len len
  values := f.values
  dirty := f.dirty
  syncedLen := f.syncedLen
  linked := f.linked
  synced_le := Nat.le_trans f.synced_le (Nat.le_max_left _ _)

def sync : DiskFile β where
  len := f.len
  values := f.values
  dirty _ := false
  syncedLen := f.len
  linked := f.linked
  synced_le := Nat.le_refl _

/-- What a crash leaves of a file it leaves: a length between the one that was synced and the one
it had, and anything at the positions that were not synced. -/
def crashed (len : Nat) (torn : Nat → β) : DiskFile β where
  len := max f.syncedLen (min f.len len)
  values p := if f.dirty p then torn p else f.values p
  dirty _ := false
  syncedLen := max f.syncedLen (min f.len len)
  linked := true
  synced_le := Nat.le_refl _

/-- The file holds a value. -/
structure Holds (p : Nat) (b : β) : Prop where
  value : f.values p = b
  inside : p < f.len

/-- The value at a position has reached the disk. -/
structure Durable (p : Nat) (b : β) : Prop where
  value : f.values p = b
  clean : f.dirty p = false
  inside : p < f.syncedLen

variable {f} {p start len : Nat} {b : β} {written : List β}

theorem Durable.holds (durable : f.Durable p b) : f.Holds p b :=
  ⟨durable.value, Nat.lt_of_lt_of_le durable.inside f.synced_le⟩

theorem Holds.write (holds : f.Holds p b) (outside : p < start ∨ start + written.length ≤ p) :
    (f.write start written).Holds p b :=
  ⟨(overwrite_outside outside).trans holds.value,
    Nat.lt_of_lt_of_le holds.inside (Nat.le_max_left _ _)⟩

/-- What was written is there. -/
theorem holds_write {index : Nat} (below : index < written.length) :
    (f.write start written).Holds (start + index) written[index] :=
  ⟨overwrite_inside below,
    Nat.lt_of_lt_of_le (Nat.add_lt_add_left below start) (Nat.le_max_right _ _)⟩

theorem Holds.grow (holds : f.Holds p b) : (f.grow len).Holds p b :=
  ⟨holds.value, Nat.lt_of_lt_of_le holds.inside (Nat.le_max_left _ _)⟩

theorem Holds.sync (holds : f.Holds p b) : f.sync.Holds p b := ⟨holds.value, holds.inside⟩

/-- A sync makes durable whatever the file holds. -/
theorem Holds.durable (holds : f.Holds p b) : f.sync.Durable p b := ⟨holds.value, rfl, holds.inside⟩

theorem Durable.write (durable : f.Durable p b)
    (outside : p < start ∨ start + written.length ≤ p) : (f.write start written).Durable p b := by
  refine ⟨(overwrite_outside outside).trans durable.value, ?_, durable.inside⟩
  have apart : ¬ (start ≤ p ∧ p < start + written.length) := by omega
  show (f.dirty p || decide (start ≤ p ∧ p < start + written.length)) = false
  rw [durable.clean, decide_eq_false apart]
  rfl

theorem Durable.grow (durable : f.Durable p b) : (f.grow len).Durable p b :=
  ⟨durable.value, durable.clean, durable.inside⟩

theorem Durable.crashed (durable : f.Durable p b) (len : Nat) (torn : Nat → β) :
    (f.crashed len torn).Durable p b := by
  refine ⟨?_, rfl, Nat.lt_of_lt_of_le durable.inside (Nat.le_max_left _ _)⟩
  show (if f.dirty p then torn p else f.values p) = b
  rw [durable.clean]
  exact durable.value

end DiskFile

end Fs0.Lib
