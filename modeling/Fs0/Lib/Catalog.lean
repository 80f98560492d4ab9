import Mathlib.Logic.Function.Basic
import Fs0.Lib.Transition

/-!
Contract: a catalog of numbered objects, each with a content and at a place of its own.

Owns:
- the catalog, in which no two objects share a place and numbers are given out once;
- creating, rewriting, removing, copying and moving an object, as a system;
- that no operation brings the number of an object that is gone back;
- that a catalog which differs from another at one number comes from it by setting that entry.

Does not own: what a place or a content is.
-/

set_option autoImplicit false

namespace Fs0.Lib

universe u v

/-- An object: where it is, and what it holds. -/
structure Placed (κ : Type u) (γ : Type v) where
  place : κ
  content : γ

/-- The objects by number. Numbers up to `used` were given out, and no two objects share a
place. -/
structure Catalog (κ : Type u) (γ : Type v) where
  entry : Nat → Option (Placed κ γ)
  used : Nat
  known : ∀ id x, entry id = some x → id ≤ used
  place_unique : ∀ left right x y, entry left = some x → entry right = some y →
    x.place = y.place → left = right

/-- An operation on one object. -/
inductive CatalogOp (κ : Type u) (γ : Type v) where
  | create (place : κ) (content : γ)
  | write (id : Nat) (content : γ)
  | remove (id : Nat)
  | copy (source : Nat) (place : κ)
  | move (id : Nat) (place : κ)

namespace Catalog

variable {κ : Type u} {γ : Type v}

@[ext] theorem ext {c c' : Catalog κ γ} (entry : c.entry = c'.entry) (used : c.used = c'.used) :
    c = c' := by
  cases c
  cases c'
  cases entry
  cases used
  rfl

/-- No object. -/
def empty : Catalog κ γ where
  entry _ := none
  used := 0
  known := by simp
  place_unique := by simp

variable (c : Catalog κ γ)

/-- No object but the numbered one is at a place. -/
def Free (id : Nat) (place : κ) : Prop :=
  ∀ other x, c.entry other = some x → x.place = place → other = id

/-- Sets the entry of a number to an object at a free place. -/
def put (id : Nat) (x : Placed κ γ) (free : c.Free id x.place) : Catalog κ γ where
  entry := Function.update c.entry id (some x)
  used := max c.used id
  known := by
    intro other y found
    by_cases same : other = id
    · exact same ▸ Nat.le_max_right _ _
    · rw [Function.update_of_ne same] at found
      exact Nat.le_trans (c.known other y found) (Nat.le_max_left _ _)
  place_unique := by
    intro left right y z leftFound rightFound together
    by_cases isLeft : left = id <;> by_cases isRight : right = id
    · exact isLeft.trans isRight.symm
    · rw [isLeft, Function.update_self] at leftFound
      rw [Function.update_of_ne isRight] at rightFound
      obtain rfl := Option.some.inj leftFound
      exact absurd (free right z rightFound together.symm) isRight
    · rw [Function.update_of_ne isLeft] at leftFound
      rw [isRight, Function.update_self] at rightFound
      obtain rfl := Option.some.inj rightFound
      exact absurd (free left y leftFound together) isLeft
    · rw [Function.update_of_ne isLeft] at leftFound
      rw [Function.update_of_ne isRight] at rightFound
      exact c.place_unique left right y z leftFound rightFound together

/-- Takes an object away. Its number is not given out again. -/
def remove (id : Nat) : Catalog κ γ where
  entry := Function.update c.entry id none
  used := c.used
  known := by
    intro other x found
    by_cases same : other = id
    · rw [same, Function.update_self] at found
      cases found
    · rw [Function.update_of_ne same] at found
      exact c.known other x found
  place_unique := by
    intro left right x y leftFound rightFound together
    by_cases isLeft : left = id
    · rw [isLeft, Function.update_self] at leftFound
      cases leftFound
    by_cases isRight : right = id
    · rw [isRight, Function.update_self] at rightFound
      cases rightFound
    rw [Function.update_of_ne isLeft] at leftFound
    rw [Function.update_of_ne isRight] at rightFound
    exact c.place_unique left right x y leftFound rightFound together

open Classical in
/-- Sets the entry of a number, when the place of the object is free. -/
noncomputable def putFree (id : Nat) (x : Placed κ γ) : Option (Catalog κ γ) :=
  if free : c.Free id x.place then some (c.put id x free) else none

/-- The catalog after an operation. -/
noncomputable def apply : CatalogOp κ γ → Option (Catalog κ γ)
  | .create place content => c.putFree (c.used + 1) ⟨place, content⟩
  | .write id content => (c.entry id).bind fun x => c.putFree id ⟨x.place, content⟩
  | .remove id => (c.entry id).map fun _ => c.remove id
  | .copy source place => (c.entry source).bind fun x => c.putFree (c.used + 1) ⟨place, x.content⟩
  | .move id place => (c.entry id).bind fun x => c.putFree id ⟨place, x.content⟩

variable {c} {c' : Catalog κ γ} {id : Nat}

/-- A catalog that differs from another in one object comes from it by setting its entry: its
place was free, since no two objects share one now. -/
theorem putFree_eq_some {x : Placed κ γ} (entry : c'.entry = Function.update c.entry id (some x))
    (used : c'.used = max c.used id) : c.putFree id x = some c' := by
  have free : c.Free id x.place := by
    intro other y found together
    by_contra differs
    refine differs (c'.place_unique other id y x ?_ ?_ together)
    · rw [entry, Function.update_of_ne differs, found]
    · rw [entry, Function.update_self]
  rw [putFree, dif_pos free]
  exact congrArg some (ext entry used).symm

/-- A catalog without one object of another comes from it by taking the object away. -/
theorem remove_eq (entry : c'.entry = Function.update c.entry id none) (used : c'.used = c.used) :
    c.remove id = c' :=
  ext entry.symm used.symm

/-- A number that was given out and names no object. -/
def Gone (c : Catalog κ γ) (id : Nat) : Prop := id ≤ c.used ∧ c.entry id = none

theorem Gone.putFree {gone id : Nat} (isGone : c.Gone gone) (differs : gone ≠ id)
    {x : Placed κ γ} (isNext : c.putFree id x = some c') : c'.Gone gone := by
  unfold Catalog.putFree at isNext
  split at isNext
  next free =>
    obtain rfl := Option.some.inj isNext
    refine ⟨Nat.le_trans isGone.1 (Nat.le_max_left _ _), ?_⟩
    exact (Function.update_of_ne differs _ _).trans isGone.2
  next => cases isNext

/-- An object that is gone stays so: new objects get new numbers, and the other operations
are on objects that are there. -/
theorem Gone.apply {gone : Nat} (isGone : c.Gone gone) {op : CatalogOp κ γ}
    (isNext : c.apply op = some c') : c'.Gone gone := by
  have present {id : Nat} {x : Placed κ γ} (found : c.entry id = some x) : gone ≠ id := by
    rintro rfl
    cases found.symm.trans isGone.2
  have below : gone ≠ c.used + 1 := Nat.ne_of_lt (Nat.lt_succ_of_le isGone.1)
  cases op with
  | create place content => exact isGone.putFree below isNext
  | write id content =>
      obtain ⟨x, found, put⟩ := Option.bind_eq_some_iff.mp isNext
      exact isGone.putFree (present found) put
  | remove id =>
      obtain ⟨x, found, rfl⟩ := Option.map_eq_some_iff.mp isNext
      exact ⟨isGone.1, (Function.update_of_ne (present found) _ _).trans isGone.2⟩
  | copy source place =>
      obtain ⟨x, found, put⟩ := Option.bind_eq_some_iff.mp isNext
      exact isGone.putFree below put
  | move id place =>
      obtain ⟨x, found, put⟩ := Option.bind_eq_some_iff.mp isNext
      exact isGone.putFree (present found) put

end Catalog

/-- The catalog as a system that starts empty. -/
noncomputable def catalog (κ : Type u) (γ : Type v) : System (Catalog κ γ) (CatalogOp κ γ) where
  Init c := c = .empty
  step c op := c.apply op

end Fs0.Lib
