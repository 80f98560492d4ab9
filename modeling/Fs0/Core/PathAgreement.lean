import Fs0.Core.Path

/-!
Contract: the two ways in which `fs0-core` takes a path apart.

Owns:
- that splitting off the last name and splitting into components accept the same paths,
  except the root;
- that the parts agree, and that joining them gives the path back.

Does not own: what the parts name.
-/

set_option autoImplicit false

namespace Fs0

/-- Components that are joined one after another, starting from a path of valid names. -/
theorem foldlM_joinFs0Path {names later : List String}
    (valid : ∀ name ∈ names ++ later, ValidName name) :
    later.foldlM joinFs0Path (pathOf names) = .ok (pathOf (names ++ later)) := by
  induction later generalizing names with
  | nil => rw [List.append_nil]; rfl
  | cons name rest inductionHypothesis =>
      have first := fun other member => valid other (List.mem_append_left _ member)
      have shifted : names ++ name :: rest = (names ++ [name]) ++ rest := by
        rw [List.append_assoc, List.singleton_append]
      rw [List.foldlM_cons, joinFs0Path_pathOf name first, shifted]
      exact inductionHypothesis (shifted ▸ valid)

theorem ValidName.not_dot {name : String} (valid : ValidName name) : name ≠ "." ∧ name ≠ ".." := by
  have noDot := valid.2.1
  unfold isDotComponent at noDot
  rw [Bool.or_eq_false_iff, beq_eq_false_iff_ne, beq_eq_false_iff_ne] at noDot
  exact noDot

/-- The parts of a path: its components, and the directory and name they end in. -/
structure PathParts (path dir name : String) (components : List String) : Prop where
  parsed : splitFs0PathComponents path = .ok components
  parent : splitFs0PathComponents dir = .ok components.dropLast
  last : components.getLast? = some name
  joined : joinFs0Path dir name = .ok path
  folded : components.foldlM joinFs0Path "/" = .ok path
  noSlash : '/' ∉ name.toList
  proper : ∀ component ∈ components, component ≠ "" ∧ component ≠ "." ∧ component ≠ ".."

theorem pathParts_of_valid {names : List String} {name : String}
    (valid : ∀ other ∈ names ++ [name], ValidName other) :
    PathParts (pathOf (names ++ [name])) (pathOf names) name (names ++ [name]) := by
  have earlier := fun other member => valid other (List.mem_append_left _ member)
  have isValid := valid name (List.mem_append_right _ (List.mem_singleton.mpr rfl))
  constructor
  · exact splitFs0PathComponents_eq_ok.mpr ⟨rfl, valid⟩
  · rw [List.dropLast_concat]
    exact splitFs0PathComponents_eq_ok.mpr ⟨rfl, earlier⟩
  · exact List.getLast?_concat
  · exact joinFs0Path_pathOf name earlier
  · have root : (names ++ [name]).foldlM joinFs0Path (pathOf []) =
        .ok (pathOf ([] ++ (names ++ [name]))) := foldlM_joinFs0Path valid
    rwa [pathOf_nil, List.nil_append] at root
  · exact isValid.2.2
  · exact fun component member => ⟨(valid component member).1, (valid component member).not_dot⟩

/-- A path splits into a directory and a name exactly when it has components, and these are the
components of the directory and the name. -/
theorem path_parsers_agree (path : String) :
    ((∃ dir name, splitFs0PathDirAndName path = .ok (dir, name)) ↔
      ∃ components, splitFs0PathComponents path = .ok components ∧ components ≠ []) ∧
    ∀ dir name, splitFs0PathDirAndName path = .ok (dir, name) →
      ∀ components, splitFs0PathComponents path = .ok components →
        PathParts path dir name components := by
  have parts : ∀ dir name, splitFs0PathDirAndName path = .ok (dir, name) →
      ∃ components, components ≠ [] ∧ PathParts path dir name components := by
    intro dir name accepted
    obtain ⟨names, valid, isValid, rfl, rfl⟩ := splitFs0PathDirAndName_eq_ok.mp accepted
    refine ⟨names ++ [name], by simp, pathParts_of_valid fun other member => ?_⟩
    rcases List.mem_append.mp member with earlier | last
    · exact valid other earlier
    · exact List.mem_singleton.mp last ▸ isValid
  refine ⟨⟨?_, ?_⟩, ?_⟩
  · rintro ⟨dir, name, accepted⟩
    obtain ⟨components, nonempty, known⟩ := parts dir name accepted
    exact ⟨components, known.parsed, nonempty⟩
  · rintro ⟨components, accepted, nonempty⟩
    obtain ⟨rfl, valid⟩ := splitFs0PathComponents_eq_ok.mp accepted
    have split := List.dropLast_append_getLast nonempty
    refine ⟨pathOf components.dropLast, components.getLast nonempty, ?_⟩
    refine splitFs0PathDirAndName_eq_ok.mpr ⟨components.dropLast, fun other member => ?_,
      valid _ (List.getLast_mem nonempty), by rw [split], rfl⟩
    exact valid other (List.dropLast_subset _ member)
  · intro dir name accepted components same
    obtain ⟨others, -, known⟩ := parts dir name accepted
    obtain rfl := Except.ok.inj (known.parsed.symm.trans same)
    exact known

end Fs0
