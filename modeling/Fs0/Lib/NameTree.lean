import Mathlib.Data.List.Induction

/-!
Contract: trees given by labelled edges from a parent to a child, and the
correspondence between the nodes of a tree and the name lists that lead to them
from its root.

Owns:
- the walk from the root along a list of names;
- that in a tree a walk determines its end and its end determines the walk;
- that every node of a tree is the end of a walk.

Does not own: how the edges are stored or searched.
-/

set_option autoImplicit false

namespace Fs0.Lib

universe u v

variable {ι : Type u} {ν : Type v}

/-- `Walk Edge root names node`: following `names` from the root ends in `node`. -/
inductive Walk (Edge : ι → ν → ι → Prop) (root : ι) : List ν → ι → Prop where
  | root : Walk Edge root [] root
  | child {names : List ν} {parent child : ι} {name : ν} (above : Walk Edge root names parent)
      (edge : Edge parent name child) : Walk Edge root (names ++ [name]) child

/-- The laws of a tree: siblings differ in name, a child has one edge into it,
the root has none, and every other node is a child of a node of lower rank. -/
structure IsTree (Node : ι → Prop) (Edge : ι → ν → ι → Prop) (root : ι) (rank : ι → Nat) :
    Prop where
  root_mem : Node root
  child_unique {parent : ι} {name : ν} {left right : ι} :
    Edge parent name left → Edge parent name right → left = right
  edge_unique {left right child : ι} {leftName rightName : ν} :
    Edge left leftName child → Edge right rightName child → left = right ∧ leftName = rightName
  root_no_parent {parent : ι} {name : ν} : ¬ Edge parent name root
  has_parent {node : ι} : Node node → node ≠ root →
    ∃ parent name, Node parent ∧ rank parent < rank node ∧ Edge parent name node

namespace Walk

variable {Edge Edge' : ι → ν → ι → Prop} {root : ι}

theorem mono (sub : ∀ parent name child, Edge parent name child → Edge' parent name child)
    {names : List ν} {node : ι} (walk : Walk Edge root names node) :
    Walk Edge' root names node := by
  induction walk with
  | root => exact .root
  | child _ edge inductionHypothesis => exact .child inductionHypothesis (sub _ _ _ edge)

theorem eq_root {node : ι} (walk : Walk Edge root [] node) : node = root := by
  generalize namesEq : ([] : List ν) = names at walk
  cases walk with
  | root => rfl
  | child _ _ => simp at namesEq

/-- A walk along a nonempty list ends with its last name's edge. -/
theorem last {names : List ν} {name : ν} {node : ι}
    (walk : Walk Edge root (names ++ [name]) node) :
    ∃ parent, Walk Edge root names parent ∧ Edge parent name node := by
  generalize namesEq : names ++ [name] = all at walk
  cases walk with
  | root => simp at namesEq
  | @child names' parent _ name' above edge =>
      obtain ⟨rfl, tailEq⟩ := List.append_inj' namesEq rfl
      obtain rfl := List.singleton_inj.mp tailEq
      exact ⟨parent, above, edge⟩

/-- A walk passes a node after each part of its list. -/
theorem exists_prefix {names rest : List ν} {node : ι} (walk : Walk Edge root (names ++ rest) node) :
    ∃ mid, Walk Edge root names mid := by
  induction rest using List.reverseRecOn generalizing node with
  | nil => exact ⟨node, by rwa [List.append_nil] at walk⟩
  | append_singleton rest name inductionHypothesis =>
      rw [← List.append_assoc] at walk
      obtain ⟨parent, above, -⟩ := walk.last
      exact inductionHypothesis above

theorem end_unique
    (childUnique : ∀ parent name left right, Edge parent name left → Edge parent name right →
      left = right)
    {names : List ν} {left right : ι} (leftWalk : Walk Edge root names left)
    (rightWalk : Walk Edge root names right) : left = right := by
  induction leftWalk generalizing right with
  | root => exact rightWalk.eq_root.symm
  | child _ edge inductionHypothesis =>
      obtain ⟨parent, above, rightEdge⟩ := rightWalk.last
      obtain rfl := inductionHypothesis above
      exact childUnique _ _ _ _ edge rightEdge

end Walk

namespace IsTree

variable {Node : ι → Prop} {Edge : ι → ν → ι → Prop} {root : ι} {rank : ι → Nat}

theorem end_unique (tree : IsTree Node Edge root rank) {names : List ν} {left right : ι}
    (leftWalk : Walk Edge root names left) (rightWalk : Walk Edge root names right) :
    left = right := by
  apply leftWalk.end_unique _ rightWalk
  intro parent name left right
  exact tree.child_unique

theorem names_unique (tree : IsTree Node Edge root rank) {left right : List ν} {node : ι}
    (leftWalk : Walk Edge root left node) (rightWalk : Walk Edge root right node) :
    left = right := by
  induction leftWalk generalizing right with
  | root =>
      cases rightWalk with
      | root => rfl
      | child _ edge => exact absurd edge tree.root_no_parent
  | child _ edge inductionHypothesis =>
      cases rightWalk with
      | root => exact absurd edge tree.root_no_parent
      | child above rightEdge =>
          obtain ⟨rfl, rfl⟩ := tree.edge_unique edge rightEdge
          rw [inductionHypothesis above]

/-- Every node is the end of a walk. The induction is on its rank. -/
theorem exists_walk (tree : IsTree Node Edge root rank) {node : ι} (member : Node node) :
    ∃ names, Walk Edge root names node := by
  induction below : rank node using Nat.strongRecOn generalizing node with
  | _ bound inductionHypothesis =>
      by_cases atRoot : node = root
      · subst atRoot
        exact ⟨[], .root⟩
      · obtain ⟨parent, name, parentMem, lower, edge⟩ := tree.has_parent member atRoot
        obtain ⟨names, above⟩ := inductionHypothesis (rank parent) (below ▸ lower) parentMem rfl
        exact ⟨names ++ [name], above.child edge⟩

end IsTree

end Fs0.Lib
