import Mathlib.Data.List.Basic
import Mathlib.Order.Defs.LinearOrder
import Mathlib.Order.Lattice

/-!
Contract: reading an ordered list in pages.

Owns:
- what comes after the last key read so far;
- a page that looks one item ahead to see whether there are more;
- the position of a bound in an ordered list.

Does not own: where the list comes from, and how it changes between two pages.
-/

set_option autoImplicit false

namespace Fs0.Lib.Listing

variable {α : Type} {key : α → Nat}

/-- What comes after the last key of the first part of an ordered list is the rest. -/
theorem filter_after_last {first rest : List α} {after : Nat}
    (ordered : (first ++ rest).Pairwise fun left right => key left < key right)
    (positive : ∀ item ∈ first ++ rest, 0 < key item)
    (isLast : after = (first.getLast?.map key).getD 0) :
    (first ++ rest).filter (fun item => after < key item) = rest := by
  rw [List.filter_append]
  rcases List.eq_nil_or_concat' first with rfl | ⟨init, last, rfl⟩
  · obtain rfl : after = 0 := isLast
    exact List.filter_eq_self.mpr fun item member => by simpa using positive item member
  rw [List.getLast?_concat] at isLast
  obtain rfl : after = key last := isLast
  obtain ⟨firstOrdered, -, between⟩ := List.pairwise_append.mp ordered
  have noneFirst : (init ++ [last]).filter (fun item => key last < key item) = [] := by
    rw [List.filter_eq_nil_iff]
    intro item member
    rcases List.mem_append.mp member with earlier | same
    · have less := (List.pairwise_append.mp firstOrdered).2.2 item earlier last (by simp)
      simp only [decide_eq_true_eq]
      omega
    · obtain rfl := List.mem_singleton.mp same
      simp
  have allRest : rest.filter (fun item => key last < key item) = rest :=
    List.filter_eq_self.mpr fun item member => by
      simpa using between last (by simp) item member
  rw [noneFirst, allRest, List.nil_append]

/-- One row more than the limit is looked up, so as to see whether there are more. -/
theorem take_lookahead (limit : Nat) (items : List α) :
    (limit < (items.take (limit + 1)).length ↔ limit < items.length) ∧
      (items.take (limit + 1)).take limit = items.take limit ∧
      (¬ limit < items.length → items.take (limit + 1) = items) := by
  refine ⟨?_, ?_, fun short => ?_⟩
  · rw [List.length_take]
    omega
  · rw [List.take_take, Nat.min_eq_left (Nat.le_succ limit)]
  · exact List.take_of_length_le (by omega)

/-- In a list in which `p` holds up to some place, this place is the number of items with `p`. -/
theorem split_at_count {p : α → Prop} [DecidablePred p] {items : List α}
    (closed : items.Pairwise fun left right => p right → p left) :
    items.take (items.countP (p ·)) = items.filter (p ·) ∧
      items.drop (items.countP (p ·)) = items.filter fun item => ¬ p item := by
  induction items with
  | nil => exact ⟨rfl, rfl⟩
  | cons item rest inductionHypothesis =>
      obtain ⟨first, restClosed⟩ := List.pairwise_cons.mp closed
      obtain ⟨taken, dropped⟩ := inductionHypothesis restClosed
      by_cases holds : p item
      · rw [List.countP_cons_of_pos (by simpa using holds), List.take_succ_cons,
          List.drop_succ_cons, taken, dropped, List.filter_cons_of_pos (by simpa using holds),
          List.filter_cons_of_neg (by simpa using holds)]
        exact ⟨rfl, rfl⟩
      · have noneLater : ∀ other ∈ rest, ¬ p other := fun other member later =>
          holds (first other member later)
        have empty : (item :: rest).countP (p ·) = 0 := by
          rw [List.countP_eq_zero]
          simpa [holds] using noneLater
        rw [empty, List.take_zero, List.drop_zero]
        constructor
        · symm
          rw [List.filter_eq_nil_iff]
          simpa [holds] using noneLater
        · symm
          rw [List.filter_eq_self]
          simpa [holds] using noneLater

/-- What does not come after the last item of the first part is the first part. -/
theorem countP_upTo_last {κ : Type} [LinearOrder κ] {rank : α → κ} {first rest : List α} {last : α}
    (ordered : (first ++ rest).Pairwise fun left right => rank left < rank right)
    (isLast : first.getLast? = some last) :
    (first ++ rest).countP (fun item => ¬ rank last < rank item) = first.length := by
  obtain ⟨init, rfl⟩ := List.getLast?_eq_some_iff.mp isLast
  obtain ⟨firstOrdered, -, between⟩ := List.pairwise_append.mp ordered
  rw [List.countP_append]
  have allFirst : (init ++ [last]).countP (fun item => ¬ rank last < rank item) =
      (init ++ [last]).length := by
    rw [List.countP_eq_length]
    intro item member
    rcases List.mem_append.mp member with earlier | same
    · have less := (List.pairwise_append.mp firstOrdered).2.2 item earlier last (by simp)
      simpa using le_of_lt less
    · obtain rfl := List.mem_singleton.mp same
      simp
  have noneRest : rest.countP (fun item => ¬ rank last < rank item) = 0 := by
    rw [List.countP_eq_zero]
    intro item member
    simpa using between last (by simp) item member
  rw [allFirst, noneRest, Nat.add_zero]

end Fs0.Lib.Listing
