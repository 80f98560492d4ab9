import Mathlib.Data.Nat.Basic
import Mathlib.Tactic.Ring

/-!
Contract: blocks placed one after another into pages of one size, none of them
across a page boundary.

Owns: the address a block is placed at, and its bounds.

Does not own: what the blocks hold, and how many pages there are.
-/

set_option autoImplicit false

namespace Fs0.Lib.Page

/-- The address of the next block: where the last one stopped, or the start of the
next page when the block does not fit into the rest of this one. -/
def place (size active len : Nat) : Nat :=
  if size < active % size + len then (active / size + 1) * size else active

variable {size active len : Nat}

theorem le_place (positive : 0 < size) : active ≤ place size active len := by
  unfold place
  split
  · have split := Nat.div_add_mod active size
    have below := Nat.mod_lt active positive
    have next : (active / size + 1) * size = size * (active / size) + size := by ring
    omega
  · exact le_rfl

/-- A block that is no longer than a page stays in its page. -/
theorem place_fits (fits : len ≤ size) : place size active len % size + len ≤ size := by
  unfold place
  split
  · rw [Nat.mul_mod_left, Nat.zero_add]
    exact fits
  · omega

theorem place_le : place size active len ≤ active + size := by
  unfold place
  split
  · have split := Nat.div_add_mod active size
    have next : (active / size + 1) * size = size * (active / size) + size := by ring
    omega
  · omega

/-- All of a block has the page of its first address. -/
theorem div_of_fits {start len offset : Nat} (fits : start % size + len ≤ size)
    (inside : offset < len) :
    (start + offset) / size = start / size ∧ (start + offset) % size = start % size + offset := by
  have split := Nat.div_add_mod start size
  have positive : 0 < size := by omega
  have moved : start + offset = size * (start / size) + (start % size + offset) := by omega
  have small : start % size + offset < size := by omega
  constructor
  · rw [moved, Nat.mul_add_div positive, Nat.div_eq_of_lt small, Nat.add_zero]
  · rw [moved, Nat.mul_add_mod, Nat.mod_eq_of_lt small]

end Fs0.Lib.Page
