import Fs0.Core.Types

/-!
Contract: the path utilities of `fs0-core`.

Owns:
- splitting a path into its directory and name, joining the two, and splitting
  a path into its components;
- canonical paths, which are the paths of lists of valid names, and the
  correspondence between such a list and the strings the utilities accept.

Does not own: directories. A path here is only text.
-/

set_option autoImplicit false

namespace Fs0

/-- `str::split('/')`. -/
def splitSlash (path : String) : List String :=
  (path.toList.splitOn '/').map String.ofList

/-- `str::rsplit_once('/')`. -/
def rsplitOnceSlash (path : String) : Option (String × String) :=
  let reversed := path.toList.reverse
  match reversed.dropWhile (· ≠ '/') with
  | [] => none
  | _ :: parent =>
      some (String.ofList parent.reverse, String.ofList (reversed.takeWhile (· ≠ '/')).reverse)

/-- `str::contains("//")`. -/
def containsDoubleSlash : List Char → Bool
  | '/' :: '/' :: _ => true
  | _ :: rest => containsDoubleSlash rest
  | [] => false

def isDotComponent (component : String) : Bool :=
  component == "." || component == ".."

def splitFs0PathDirAndName (path : String) : Fs0Result (String × String) :=
  if path.toList.head? ≠ some '/' ∨ path.toList.getLast? = some '/' ∨
      containsDoubleSlash path.toList then
    .error (.invalidPath path)
  else
    match rsplitOnceSlash path with
    | none => .error (.invalidPath path)
    | some (parent, name) =>
        if name.isEmpty || isDotComponent name || name.toList.contains '/' then
          .error (.invalidPath path)
        else if (splitSlash parent).any isDotComponent then
          .error (.invalidPath path)
        else
          .ok (if parent.isEmpty then "/" else parent, name)

def joinFs0Path (dir name : String) : Fs0Result String :=
  if dir = "/" then .ok ("/" ++ name) else .ok (dir ++ "/" ++ name)

def splitFs0PathComponents (path : String) : Fs0Result (List String) :=
  if path.toList.head? ≠ some '/' then
    .error (.invalidPath path)
  else if path = "/" then
    .ok []
  else
    let components := splitSlash (String.ofList (path.toList.drop 1))
    if components.any fun component => component.isEmpty || isDotComponent component then
      .error (.invalidPath path)
    else
      .ok components

/-! ## Canonical paths -/

/-- `format!("/{}", names.join("/"))`. -/
def pathOf (names : List String) : String := "/" ++ "/".intercalate names

/-- A name a path can lead to. -/
def ValidName (name : String) : Prop :=
  name ≠ "" ∧ isDotComponent name = false ∧ '/' ∉ name.toList

instance (name : String) : Decidable (ValidName name) :=
  inferInstanceAs (Decidable (_ ∧ _ ∧ _))

/-- The characters of a path, each component after its slash. -/
def slashed (components : List (List Char)) : List Char :=
  components.flatMap fun component => '/' :: component

@[simp] theorem slashed_nil : slashed [] = [] := rfl

@[simp] theorem slashed_cons (component : List Char) (rest : List (List Char)) :
    slashed (component :: rest) = '/' :: (component ++ slashed rest) := rfl

theorem slashed_append (left right : List (List Char)) :
    slashed (left ++ right) = slashed left ++ slashed right := by
  simp [slashed]

theorem slashed_eq_intercalate (component : List Char) (rest : List (List Char)) :
    slashed (component :: rest) = '/' :: ['/'].intercalate (component :: rest) := by
  induction rest generalizing component with
  | nil => simp
  | cons next rest inductionHypothesis =>
      rw [slashed_cons, inductionHypothesis]
      simp

theorem not_mem_of_mem_splitOn {chars component : List Char}
    (member : component ∈ chars.splitOn '/') : '/' ∉ component := by
  induction chars generalizing component with
  | nil =>
      rw [List.splitOn_nil, List.mem_singleton] at member
      simp [member]
  | cons head tail inductionHypothesis =>
      rw [List.splitOn_cons_eq_if_modifyHead] at member
      split at member
      · rcases List.mem_cons.mp member with rfl | member
        · simp
        · exact inductionHypothesis member
      · next other =>
          cases parts : tail.splitOn '/' with
          | nil => exact absurd parts (List.splitOn_ne_nil _ _)
          | cons first rest =>
              rw [parts, List.modifyHead_cons] at member
              rcases List.mem_cons.mp member with rfl | member
              · intro bad
                rcases List.mem_cons.mp bad with same | bad
                · exact other (by simp [← same])
                · exact inductionHypothesis (parts ▸ List.mem_cons_self) bad
              · exact inductionHypothesis (parts ▸ List.mem_cons_of_mem _ member)

/-- Every string that starts with a slash is a list of slashed components. -/
theorem exists_slashed {chars : List Char} (head : chars.head? = some '/') :
    ∃ components, components ≠ [] ∧ chars = slashed components ∧
      chars.drop 1 = ['/'].intercalate components ∧
      (chars.drop 1).splitOn '/' = components ∧ ∀ component ∈ components, '/' ∉ component := by
  obtain ⟨rest, rfl⟩ := List.head?_eq_some_iff.mp head
  cases parts : rest.splitOn '/' with
  | nil => exact absurd parts (List.splitOn_ne_nil _ _)
  | cons first others =>
      have joined : ['/'].intercalate (rest.splitOn '/') = rest := List.intercalate_splitOn '/'
      rw [parts] at joined
      refine ⟨first :: others, by simp, ?_, by simpa using joined.symm, by simpa using parts, ?_⟩
      · rw [slashed_eq_intercalate, joined]
      · intro component member
        exact not_mem_of_mem_splitOn (parts ▸ member)

theorem splitOn_slashed {components : List (List Char)}
    (noSlash : ∀ component ∈ components, '/' ∉ component) :
    (slashed components).splitOn '/' = [] :: components := by
  have joined : slashed components = ['/'].intercalate ([] :: components) := by
    cases components with
    | nil => simp
    | cons first rest =>
        rw [slashed_eq_intercalate]
        simp
  rw [joined, List.splitOn_intercalate]
  · intro component member
    rcases List.mem_cons.mp member with rfl | member
    · simp
    · exact noSlash component member
  · simp

theorem containsDoubleSlash_cons_of_ne {head : Char} (other : head ≠ '/') (rest : List Char) :
    containsDoubleSlash (head :: rest) = containsDoubleSlash rest := by
  rw [containsDoubleSlash]
  intro tail same
  exact absurd same other

theorem containsDoubleSlash_append {component : List Char} (noSlash : '/' ∉ component)
    (rest : List Char) : containsDoubleSlash (component ++ rest) = containsDoubleSlash rest := by
  induction component with
  | nil => rfl
  | cons head tail inductionHypothesis =>
      have headNe : head ≠ '/' := fun same => noSlash (by simp [same])
      have tailNo : '/' ∉ tail := fun member => noSlash (List.mem_cons_of_mem _ member)
      rw [List.cons_append, containsDoubleSlash_cons_of_ne headNe, inductionHypothesis tailNo]

/-- Only the last of the slashed components may be empty when no slash is doubled. -/
theorem containsDoubleSlash_slashed {components : List (List Char)} {name : List Char}
    (noSlash : ∀ component ∈ components, '/' ∉ component) (nameNo : '/' ∉ name) :
    containsDoubleSlash (slashed (components ++ [name])) = false ↔
      ∀ component ∈ components, component ≠ [] := by
  induction components with
  | nil =>
      have single := containsDoubleSlash_append nameNo []
      cases name with
      | nil => simp [containsDoubleSlash]
      | cons head tail =>
          have headNe : head ≠ '/' := fun same => nameNo (by simp [same])
          simp_all [containsDoubleSlash]
  | cons component rest inductionHypothesis =>
      have restNo := fun other member => noSlash other (List.mem_cons_of_mem _ member)
      have componentNo := noSlash component List.mem_cons_self
      rw [List.cons_append, slashed_cons]
      cases component with
      | nil =>
          cases rest <;> simp [containsDoubleSlash]
      | cons head tail =>
          have headNe : head ≠ '/' := fun same => componentNo (by simp [same])
          have skipped : containsDoubleSlash ('/' :: (head :: tail ++ slashed (rest ++ [name]))) =
              containsDoubleSlash (head :: tail ++ slashed (rest ++ [name])) := by
            simp [containsDoubleSlash, headNe]
          rw [skipped, containsDoubleSlash_append componentNo, inductionHypothesis restNo]
          simp

theorem rsplitOnceSlash_slashed {components : List (List Char)} {name : List Char}
    (nameNo : '/' ∉ name) :
    rsplitOnceSlash (String.ofList (slashed (components ++ [name]))) =
      some (String.ofList (slashed components), String.ofList name) := by
  have chars : (slashed (components ++ [name])).reverse =
      name.reverse ++ '/' :: (slashed components).reverse := by
    simp [slashed_append]
  have others : ∀ x ∈ name.reverse, decide (x ≠ '/') = true := by
    intro x member
    have memberName := List.mem_reverse.mp member
    simp only [ne_eq, decide_not, Bool.not_eq_true', decide_eq_false_iff_not]
    rintro rfl
    exact nameNo memberName
  unfold rsplitOnceSlash
  simp only [String.toList_ofList, chars]
  rw [List.dropWhile_append_of_pos others, List.takeWhile_append_of_pos others]
  simp

theorem toList_pathOf {names : List String} (nonempty : names ≠ []) :
    (pathOf names).toList = slashed (names.map String.toList) := by
  cases names with
  | nil => exact absurd rfl nonempty
  | cons first rest =>
      rw [List.map_cons, slashed_eq_intercalate]
      simp [pathOf]

@[simp] theorem pathOf_nil : pathOf [] = "/" := by decide

theorem pathOf_eq_ofList {names : List String} (nonempty : names ≠ []) :
    pathOf names = String.ofList (slashed (names.map String.toList)) := by
  rw [← toList_pathOf nonempty, String.ofList_toList]

/-- The path of a nonempty list of valid names is not the root. -/
theorem pathOf_ne_root {names : List String} (nonempty : names ≠ [])
    (valid : ∀ name ∈ names, ValidName name) : pathOf names ≠ "/" := by
  intro root
  have chars := toList_pathOf nonempty
  rw [root] at chars
  cases names with
  | nil => exact nonempty rfl
  | cons first rest =>
      have firstNe := (valid first List.mem_cons_self).1
      simp only [List.map_cons, slashed_cons] at chars
      have firstNil : first.toList = [] := by
        have tailEq := (List.cons.inj chars).2
        exact (List.append_eq_nil_iff.mp tailEq.symm).1
      exact firstNe (String.toList_eq_nil_iff.mp firstNil)

theorem pathOf_eq_root {names : List String} (valid : ∀ name ∈ names, ValidName name) :
    pathOf names = "/" ↔ names = [] := by
  constructor
  · intro root
    by_contra nonempty
    exact pathOf_ne_root nonempty valid root
  · rintro rfl
    exact pathOf_nil

theorem joinFs0Path_pathOf {names : List String} (name : String)
    (valid : ∀ name ∈ names, ValidName name) :
    joinFs0Path (pathOf names) name = .ok (pathOf (names ++ [name])) := by
  unfold joinFs0Path
  split
  · next root =>
      obtain rfl := (pathOf_eq_root valid).mp root
      simp [pathOf]
  · next notRoot =>
      have nonempty : names ≠ [] := fun empty => notRoot (by simp [empty])
      congr 1
      apply String.toList_inj.mp
      rw [toList_pathOf (by simp), String.toList_append, String.toList_append,
        toList_pathOf nonempty]
      simp [slashed_append]

/-- The components of a path are the valid names it is the path of. -/
theorem splitFs0PathComponents_eq_ok {path : String} {names : List String} :
    splitFs0PathComponents path = .ok names ↔
      path = pathOf names ∧ ∀ name ∈ names, ValidName name := by
  unfold splitFs0PathComponents
  split
  · next notRooted =>
      simp only [reduceCtorEq, false_iff, not_and]
      rintro rfl
      exfalso
      apply notRooted
      cases names <;> simp [pathOf]
  · next rooted =>
      rw [not_not] at rooted
      split
      · next root =>
          subst root
          constructor
          · intro same
            cases same
            simp
          · rintro ⟨same, valid⟩
            rw [(pathOf_eq_root valid).mp same.symm]
      · next notRoot =>
          obtain ⟨components, nonempty, chars, -, parts, noSlash⟩ := exists_slashed rooted
          have componentsEq : splitSlash (String.ofList (path.toList.drop 1)) =
              components.map String.ofList := by
            rw [splitSlash, String.toList_ofList, parts]
          rw [componentsEq]
          have pathEq : path = pathOf (components.map String.ofList) := by
            rw [pathOf_eq_ofList (by simpa using nonempty), ← String.ofList_toList (s := path), chars]
            simp
          have namesEq : ∀ {names}, path = pathOf names → (∀ name ∈ names, ValidName name) →
              names = components.map String.ofList := by
            intro names same valid
            have namesNonempty : names ≠ [] := by
              rintro rfl
              exact notRoot (by simpa using same)
            have slashedEq : slashed (names.map String.toList) = slashed components := by
              rw [← toList_pathOf namesNonempty, ← same, chars]
            have namesNo : ∀ component ∈ names.map String.toList, '/' ∉ component := by
              intro component member
              obtain ⟨name, nameMem, rfl⟩ := List.mem_map.mp member
              exact (valid name nameMem).2.2
            have splitEq := congrArg (List.splitOn '/') slashedEq
            rw [splitOn_slashed namesNo, splitOn_slashed noSlash] at splitEq
            rw [← (List.cons.inj splitEq).2]
            simp
          dsimp only
          split
          · next bad =>
              simp only [reduceCtorEq, false_iff, not_and]
              intro same valid
              obtain rfl := namesEq same valid
              obtain ⟨name, member, reject⟩ := List.any_eq_true.mp bad
              have ok := valid name member
              simp [ok.2.1, ok.1] at reject
          · next good =>
              constructor
              · intro same
                cases same
                refine ⟨pathEq, fun name member => ?_⟩
                have accepted : ¬(name.isEmpty || isDotComponent name) = true := by
                  intro reject
                  exact good (List.any_eq_true.mpr ⟨name, member, reject⟩)
                obtain ⟨component, componentMem, rfl⟩ := List.mem_map.mp member
                simp only [Bool.or_eq_true, not_or, Bool.not_eq_true] at accepted
                refine ⟨?_, accepted.2, by simpa using noSlash component componentMem⟩
                rintro empty
                simp [empty] at accepted
              · rintro ⟨same, valid⟩
                rw [namesEq same valid]

theorem getLast?_slashed {components : List (List Char)} {name : List Char} :
    (slashed (components ++ [name])).getLast? = some (('/' :: name).getLast (by simp)) := by
  rw [slashed_append, List.getLast?_append]
  simp [List.getLast?_eq_some_getLast]

theorem validName_ofList {component : List Char} (noSlash : '/' ∉ component) :
    ValidName (String.ofList component) ↔
      component ≠ [] ∧ isDotComponent (String.ofList component) = false := by
  have emptyIff : String.ofList component = "" ↔ component = [] := by
    rw [← String.toList_eq_nil_iff, String.toList_ofList]
  unfold ValidName
  rw [String.toList_ofList, ne_eq, emptyIff]
  tauto

/-- The directory and name of a path of slashed components. -/
theorem splitFs0PathDirAndName_slashed {components : List (List Char)} {last : List Char}
    {dir name : String} (noSlash : ∀ component ∈ components, '/' ∉ component)
    (lastNo : '/' ∉ last) :
    splitFs0PathDirAndName (String.ofList (slashed (components ++ [last]))) = .ok (dir, name) ↔
      (∀ other ∈ components.map String.ofList, ValidName other) ∧ ValidName (String.ofList last) ∧
        dir = pathOf (components.map String.ofList) ∧ name = String.ofList last := by
  have head : (slashed (components ++ [last])).head? = some '/' := by
    cases components <;> simp
  have parentParts : splitSlash (String.ofList (slashed components)) =
      "" :: components.map String.ofList := by
    rw [splitSlash, String.toList_ofList, splitOn_slashed noSlash]
    rfl
  have parentDots : (splitSlash (String.ofList (slashed components))).any isDotComponent = false ↔
      ∀ component ∈ components, isDotComponent (String.ofList component) = false := by
    rw [parentParts]
    simp [isDotComponent]
  have parentPath : (if (String.ofList (slashed components)).isEmpty then "/"
      else String.ofList (slashed components)) = pathOf (components.map String.ofList) := by
    cases components with
    | nil => simp
    | cons first rest =>
        rw [pathOf_eq_ofList (by simp)]
        simp
  have validAll : (∀ other ∈ components.map String.ofList, ValidName other) ↔
      (∀ component ∈ components, component ≠ []) ∧
        ∀ component ∈ components, isDotComponent (String.ofList component) = false := by
    rw [List.forall_mem_map, ← forall₂_and]
    exact forall₂_congr fun component member => validName_ofList (noSlash component member)
  unfold splitFs0PathDirAndName
  rw [String.toList_ofList, rsplitOnceSlash_slashed lastNo, validAll, validName_ofList lastNo]
  simp only [head, getLast?_slashed, Option.some.injEq, ne_eq, not_true, false_or]
  by_cases doubled : containsDoubleSlash (slashed (components ++ [last])) = true
  · have notAll : ¬ ∀ component ∈ components, component ≠ [] := by
      rw [← containsDoubleSlash_slashed noSlash lastNo]
      simp [doubled]
    simp [doubled, notAll]
  · have all := (containsDoubleSlash_slashed noSlash lastNo).mp (by simpa using doubled)
    cases last with
    | nil => simp
    | cons first rest =>
        have lastChar : ('/' :: first :: rest).getLast (by simp) ≠ '/' := by
          rw [List.getLast_cons (by simp)]
          intro same
          exact lastNo (same ▸ List.getLast_mem _)
        have noneEmpty : (String.ofList (first :: rest)).isEmpty = false := by simp
        have notContains : (String.ofList (first :: rest)).toList.contains '/' = false := by
          simpa using lastNo
        have proper : ¬ (('/' :: first :: rest).getLast (by simp) = '/' ∨
            containsDoubleSlash (slashed (components ++ [first :: rest])) = true) := by
          rintro (same | same)
          · exact lastChar same
          · exact doubled same
        have lastNe : first :: rest ≠ [] := by simp
        rw [if_neg proper]
        generalize String.ofList (slashed (components ++ [first :: rest])) = path
        generalize String.ofList (first :: rest) = lastName at noneEmpty notContains ⊢
        simp only [noneEmpty, notContains, Bool.or_false, Bool.false_or, parentPath]
        by_cases dot : isDotComponent lastName = true
        · rw [if_pos dot]
          simp only [reduceCtorEq, false_iff]
          rintro ⟨-, ⟨-, noDot⟩, -⟩
          rw [dot] at noDot
          cases noDot
        · rw [if_neg dot]
          by_cases dots :
            (splitSlash (String.ofList (slashed components))).any isDotComponent = true
          · rw [if_pos dots]
            simp only [reduceCtorEq, false_iff]
            rintro ⟨⟨-, noDots⟩, -⟩
            rw [parentDots.mpr noDots] at dots
            cases dots
          · rw [if_neg dots]
            have noDots := parentDots.mp (by simpa using dots)
            constructor
            · intro same
              cases same
              exact ⟨⟨all, noDots⟩, ⟨lastNe, by simpa using dot⟩, rfl, rfl⟩
            · rintro ⟨-, -, rfl, rfl⟩
              rfl

/-- A path splits into its directory and name when both are made of valid names. -/
theorem splitFs0PathDirAndName_eq_ok {path dir name : String} :
    splitFs0PathDirAndName path = .ok (dir, name) ↔
      ∃ names, (∀ other ∈ names, ValidName other) ∧ ValidName name ∧
        path = pathOf (names ++ [name]) ∧ dir = pathOf names := by
  constructor
  · intro accepted
    have rooted : path.toList.head? = some '/' := by
      by_contra notRooted
      unfold splitFs0PathDirAndName at accepted
      rw [if_pos (.inl notRooted)] at accepted
      cases accepted
    obtain ⟨components, nonempty, chars, -, -, noSlash⟩ := exists_slashed rooted
    obtain ⟨init, last, rfl⟩ : ∃ init last, components = init ++ [last] :=
      ⟨_, _, (List.dropLast_append_getLast nonempty).symm⟩
    have initNo := fun component member => noSlash component (List.mem_append_left _ member)
    have lastNo := noSlash last (by simp)
    have pathEq : path = String.ofList (slashed (init ++ [last])) := by
      rw [← chars, String.ofList_toList]
    rw [pathEq] at accepted
    obtain ⟨validInit, validLast, rfl, rfl⟩ :=
      (splitFs0PathDirAndName_slashed initNo lastNo).mp accepted
    refine ⟨init.map String.ofList, validInit, validLast, ?_, rfl⟩
    rw [pathEq, pathOf_eq_ofList (by simp)]
    simp
  · rintro ⟨names, valid, validName, rfl, rfl⟩
    have namesNo : ∀ component ∈ names.map String.toList, '/' ∉ component := by
      intro component member
      obtain ⟨other, otherMem, rfl⟩ := List.mem_map.mp member
      exact (valid other otherMem).2.2
    rw [pathOf_eq_ofList (by simp), List.map_append, List.map_singleton,
      splitFs0PathDirAndName_slashed namesNo validName.2.2]
    simpa [validName] using valid

example : splitFs0PathDirAndName "/a/b/c" = .ok ("/a/b", "c") := by decide

example : splitFs0PathComponents "/a/../c" = .error (.invalidPath "/a/../c") := by decide

end Fs0
