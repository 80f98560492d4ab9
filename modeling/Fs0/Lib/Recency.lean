import Mathlib.Data.List.Sort

/-!
Contract: items in the order of their last use, and eviction by sorting them on stamps.

Owns:
- that sorting on stamps which grow with each use is the order of use;
- what is left when the items that were sorted first are evicted by their keys.

Does not own: what an item is, and when it is used.
-/

set_option autoImplicit false

namespace Fs0.Lib

universe u v

variable {α : Type u} {κ : Type v}

/-- Every item was used before those in front of it. -/
def NewestFirst (stamp : α → Nat) (items : List α) : Prop :=
  items.Pairwise fun newer older => stamp older < stamp newer

theorem NewestFirst.eq_of_stamp {stamp : α → Nat} {items : List α} (newest : NewestFirst stamp items)
    {left right : α} (leftMem : left ∈ items) (rightMem : right ∈ items)
    (same : stamp left = stamp right) : left = right := by
  induction items with
  | nil => cases leftMem
  | cons first rest inductionHypothesis =>
      obtain ⟨older, ordered⟩ := List.pairwise_cons.mp newest
      rcases List.mem_cons.mp leftMem with rfl | leftOlder <;>
        rcases List.mem_cons.mp rightMem with rfl | rightOlder
      · rfl
      · exact absurd same (Nat.ne_of_gt (older right rightOlder))
      · exact absurd same (Nat.ne_of_lt (older left leftOlder))
      · exact inductionHypothesis ordered leftOlder rightOlder

/-- Sorting on stamps puts the items used longest ago first. -/
theorem NewestFirst.insertionSort_eq {stamp : α → Nat} {items rows : List α}
    (newest : NewestFirst stamp items) (same : items.Perm rows) :
    rows.insertionSort (fun left right => stamp left ≤ stamp right) = items.reverse := by
  have total : Std.Total fun left right : α => stamp left ≤ stamp right :=
    ⟨fun left right => Nat.le_total (stamp left) (stamp right)⟩
  have trans : IsTrans α fun left right => stamp left ≤ stamp right := ⟨fun _ _ _ => Nat.le_trans⟩
  have sorted := List.pairwise_insertionSort (fun left right => stamp left ≤ stamp right) rows
  have ordered : items.reverse.Pairwise fun left right => stamp left ≤ stamp right :=
    List.pairwise_reverse.mpr (newest.imp Nat.le_of_lt)
  have perm : (rows.insertionSort fun left right => stamp left ≤ stamp right).Perm items.reverse :=
    ((List.perm_insertionSort _ rows).trans same.symm).trans items.reverse_perm.symm
  refine perm.eq_of_pairwise (fun left right leftMem rightMem le ge => ?_) sorted ordered
  have inItems := same.mem_iff.mpr ((List.perm_insertionSort _ rows).mem_iff.mp leftMem)
  exact newest.eq_of_stamp inItems (List.mem_reverse.mp rightMem) (Nat.le_antisymm le ge)

/-- Evicting the first rows of an order by their keys leaves the others. -/
theorem perm_evict [DecidableEq κ] {key : α → κ} {rows ordered : List α}
    (nodup : (rows.map key).Nodup) (same : ordered.Perm rows) (count : Nat) :
    (rows.filter fun row => !(ordered.take count).any fun gone => key gone == key row).Perm
      (ordered.drop count) := by
  have split := List.take_append_drop count ordered
  have distinct : (ordered.map key).Nodup := (same.map key).nodup_iff.mpr nodup
  rw [← split, List.map_append] at distinct
  have apart := (List.nodup_append.mp distinct).2.2
  have evicted : (ordered.take count).filter
      (fun row => !(ordered.take count).any fun gone => key gone == key row) = [] := by
    refine List.filter_eq_nil_iff.mpr fun row member => ?_
    simpa using ⟨row, member, rfl⟩
  have kept : (ordered.drop count).filter
      (fun row => !(ordered.take count).any fun gone => key gone == key row) = ordered.drop count := by
    refine List.filter_eq_self.mpr fun row member => ?_
    simp only [Bool.not_eq_true', List.any_eq_false, beq_iff_eq]
    exact fun gone among isKey =>
      apart (key gone) (List.mem_map_of_mem among) (key row) (List.mem_map_of_mem member) isKey
  generalize (fun row => !(ordered.take count).any fun gone => key gone == key row) = survives
    at evicted kept ⊢
  have parts : ordered.filter survives = ordered.drop count := by
    rw [← kept, ← List.nil_append ((ordered.drop count).filter survives), ← evicted,
      ← List.filter_append, split]
  exact parts ▸ same.symm.filter survives

end Fs0.Lib
