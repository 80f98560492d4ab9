import Mathlib.Data.List.Range

/-!
Contract: half-open extents of an address space, and the patches written to them.

Owns:
- extents, their separation, and partitions of an interval into extents;
- overwriting a map at an extent and reading a slice of it back;
- tilings, in which each patch starts where the one before it stops, and the
  value a tiling leaves behind whatever order its patches are applied in.

Does not own: files, offsets of any format, or where the patches come from.
-/

set_option autoImplicit false

namespace Fs0.Lib

universe u

/-! ## Extents -/

/-- The addresses from `start` up to `start + len`. -/
structure Extent where
  start : Nat
  len : Nat
deriving DecidableEq, Repr

namespace Extent

def stop (e : Extent) : Nat := e.start + e.len

def Contains (e : Extent) (p : Nat) : Prop := e.start ≤ p ∧ p < e.stop

/-- One extent stops before the other starts. -/
def Disjoint (left right : Extent) : Prop := left.stop ≤ right.start ∨ right.stop ≤ left.start

theorem Disjoint.symm {left right : Extent} (apart : left.Disjoint right) :
    right.Disjoint left := Or.symm apart

theorem Disjoint.not_contains {left right : Extent} {p : Nat} (apart : left.Disjoint right)
    (inside : left.Contains p) : ¬ right.Contains p := by
  rintro ⟨lower, upper⟩
  obtain ⟨lower', upper'⟩ := inside
  rcases apart with before | after
  · omega
  · omega

end Extent

/-- The extents are pairwise disjoint and cover exactly the interval. -/
structure Partitions (extents : List Extent) (start stop : Nat) : Prop where
  disjoint : extents.Pairwise Extent.Disjoint
  covers : ∀ p, (start ≤ p ∧ p < stop) ↔ ∃ e ∈ extents, e.Contains p

theorem Partitions.perm {extents reordered : List Extent} {start stop : Nat}
    (parts : Partitions extents start stop) (same : reordered.Perm extents) :
    Partitions reordered start stop where
  disjoint := same.symm.pairwise parts.disjoint fun apart => apart.symm
  covers p := by
    rw [parts.covers p]
    simp only [same.mem_iff]

/-! ## Slices and overwriting -/

variable {β : Type u}

/-- The values of a map at `len` consecutive addresses. -/
def slice (f : Nat → β) (start len : Nat) : List β := (List.range' start len).map f

/-- A map changed at the addresses a list of values is written to. -/
def overwrite (f : Nat → β) (start : Nat) (values : List β) : Nat → β := fun p =>
  if start ≤ p then (values[p - start]?).getD (f p) else f p

@[simp] theorem slice_length (f : Nat → β) (start len : Nat) : (slice f start len).length = len := by
  simp [slice]

@[simp] theorem slice_zero (f : Nat → β) (start : Nat) : slice f start 0 = [] := rfl

theorem slice_add (f : Nat → β) (start left right : Nat) :
    slice f start (left + right) = slice f start left ++ slice f (start + left) right := by
  rw [slice, ← List.range'_append_1, List.map_append]
  rfl

theorem slice_congr {f g : Nat → β} {start len : Nat}
    (same : ∀ p, start ≤ p → p < start + len → f p = g p) :
    slice f start len = slice g start len := by
  apply List.map_congr_left
  intro p member
  obtain ⟨lower, upper⟩ := List.mem_range'_1.mp member
  exact same p lower upper

theorem slice_getElem? (f : Nat → β) (start len index : Nat) (below : index < len) :
    (slice f start len)[index]? = some (f (start + index)) := by
  simp [slice, below]

theorem overwrite_outside {f : Nat → β} {start p : Nat} {values : List β}
    (outside : p < start ∨ start + values.length ≤ p) : overwrite f start values p = f p := by
  unfold overwrite
  split
  · rw [List.getElem?_eq_none (by omega), Option.getD_none]
  · rfl

theorem overwrite_inside {f : Nat → β} {start index : Nat} {values : List β}
    (below : index < values.length) : overwrite f start values (start + index) = values[index] := by
  unfold overwrite
  rw [if_pos (Nat.le_add_right _ _), Nat.add_sub_cancel_left, List.getElem?_eq_getElem below,
    Option.getD_some]

@[simp] theorem overwrite_nil (f : Nat → β) (start : Nat) : overwrite f start [] = f := by
  funext p
  simp [overwrite]

/-- What was written is read back. -/
theorem slice_overwrite (f : Nat → β) (start : Nat) (values : List β) :
    slice (overwrite f start values) start values.length = values := by
  apply List.ext_getElem
  · simp
  · intro index below below'
    simp only [slice, List.getElem_map, List.getElem_range', Nat.one_mul]
    exact overwrite_inside below'

/-- A write does not change a slice it is disjoint from. -/
theorem slice_overwrite_disjoint {f : Nat → β} {start len at' : Nat} {values : List β}
    (apart : Extent.Disjoint ⟨start, len⟩ ⟨at', values.length⟩) :
    slice (overwrite f at' values) start len = slice f start len := by
  apply slice_congr
  intro p lower upper
  apply overwrite_outside
  rcases apart with before | after
  · exact Or.inl (Nat.lt_of_lt_of_le upper before)
  · exact Or.inr (Nat.le_trans after lower)

theorem slice_drop_take (f : Nat → β) (start len skip count : Nat) (fits : skip + count ≤ len) :
    ((slice f start len).drop skip).take count = slice f (start + skip) count := by
  obtain ⟨rest, rfl⟩ := Nat.exists_eq_add_of_le fits
  rw [Nat.add_assoc, slice_add, List.drop_left' (slice_length f start skip), slice_add,
    List.take_left' (slice_length f (start + skip) count)]

/-- What is written behind a slice is read behind it. -/
theorem slice_overwrite_append (f : Nat → β) (start len : Nat) (values : List β) :
    slice (overwrite f (start + len) values) start (len + values.length) =
      slice f start len ++ values := by
  rw [slice_add, slice_overwrite, slice_overwrite_disjoint (.inl le_rfl)]

/-! ## Patches and tilings -/

/-- Values and the address they are written to. -/
structure Patch (β : Type u) where
  start : Nat
  values : List β
deriving DecidableEq, Repr

def Patch.extent (w : Patch β) : Extent := ⟨w.start, w.values.length⟩

/-- Applies patches in order. -/
def applyAll (f : Nat → β) (ws : List (Patch β)) : Nat → β :=
  ws.foldl (fun f w => overwrite f w.start w.values) f

theorem slice_applyAll_disjoint {f : Nat → β} {start len : Nat} {ws : List (Patch β)}
    (apart : ∀ w ∈ ws, Extent.Disjoint ⟨start, len⟩ w.extent) :
    slice (applyAll f ws) start len = slice f start len := by
  induction ws generalizing f with
  | nil => rfl
  | cons w ws inductionHypothesis =>
      have rest := inductionHypothesis (f := overwrite f w.start w.values)
        fun w' member => apart w' (List.mem_cons_of_mem _ member)
      exact rest.trans (slice_overwrite_disjoint (apart w List.mem_cons_self))

/-- Patches of pairwise disjoint extents are all read back. -/
theorem slice_applyAll {f : Nat → β} {ws : List (Patch β)} {w : Patch β}
    (disjoint : (ws.map Patch.extent).Pairwise Extent.Disjoint) (member : w ∈ ws) :
    slice (applyAll f ws) w.start w.values.length = w.values := by
  induction ws generalizing f with
  | nil => cases member
  | cons head tail inductionHypothesis =>
      obtain ⟨apart, disjoint⟩ := List.pairwise_cons.mp disjoint
      rcases List.mem_cons.mp member with rfl | member
      · have kept : slice (applyAll (overwrite f w.start w.values) tail) w.start w.values.length =
            slice (overwrite f w.start w.values) w.start w.values.length :=
          slice_applyAll_disjoint fun w' inTail => apart _ (List.mem_map.mpr ⟨w', inTail, rfl⟩)
        exact kept.trans (slice_overwrite f w.start w.values)
      · exact inductionHypothesis disjoint member

/-- Each patch starts where the one before it stops, from `start` to `stop`. -/
def Tiles : Nat → List (Patch β) → Nat → Prop
  | start, [], stop => start = stop
  | start, w :: ws, stop => w.start = start ∧ Tiles (start + w.values.length) ws stop

theorem Tiles.append {start middle stop : Nat} {left right : List (Patch β)}
    (first : Tiles start left middle) (second : Tiles middle right stop) :
    Tiles start (left ++ right) stop := by
  induction left generalizing start with
  | nil =>
      obtain rfl : start = middle := first
      exact second
  | cons w ws inductionHypothesis =>
      obtain ⟨here, rest⟩ := first
      exact ⟨here, inductionHypothesis rest⟩

theorem Tiles.stop_eq {start stop : Nat} {ws : List (Patch β)} (tiles : Tiles start ws stop) :
    stop = start + (ws.flatMap Patch.values).length := by
  induction ws generalizing start with
  | nil =>
      obtain rfl : start = stop := tiles
      rfl
  | cons w ws inductionHypothesis =>
      rw [inductionHypothesis tiles.2, List.flatMap_cons, List.length_append]
      omega

theorem Tiles.start_le {start stop : Nat} {ws : List (Patch β)} (tiles : Tiles start ws stop) :
    start ≤ stop := by
  rw [tiles.stop_eq]
  omega

theorem Tiles.extent_bounds {start stop : Nat} {ws : List (Patch β)} (tiles : Tiles start ws stop) :
    ∀ w ∈ ws, start ≤ w.extent.start ∧ w.extent.stop ≤ stop := by
  induction ws generalizing start with
  | nil => simp
  | cons w ws inductionHypothesis =>
      obtain ⟨here, rest⟩ := tiles
      intro w' member
      rcases List.mem_cons.mp member with rfl | member
      · have fits := rest.start_le
        simp only [Patch.extent, Extent.stop]
        omega
      · obtain ⟨lower, upper⟩ := inductionHypothesis rest w' member
        exact ⟨by omega, upper⟩

/-- The patches of a tiling partition the interval it runs over. -/
theorem Tiles.partitions {start stop : Nat} {ws : List (Patch β)} (tiles : Tiles start ws stop) :
    Partitions (ws.map Patch.extent) start stop := by
  induction ws generalizing start with
  | nil =>
      obtain rfl : start = stop := tiles
      exact ⟨List.Pairwise.nil, fun p => by simp⟩
  | cons w ws inductionHypothesis =>
      obtain ⟨here, rest⟩ := tiles
      obtain ⟨disjoint, covers⟩ := inductionHypothesis rest
      have bounds := rest.extent_bounds
      constructor
      · rw [List.map_cons, List.pairwise_cons]
        refine ⟨fun e member => ?_, disjoint⟩
        obtain ⟨w', inTail, rfl⟩ := List.mem_map.mp member
        exact Or.inl (by simpa [Patch.extent, Extent.stop, here] using (bounds w' inTail).1)
      · intro p
        have tail := covers p
        have fits := rest.start_le
        rw [List.map_cons]
        simp only [List.mem_cons, exists_eq_or_imp]
        rw [← tail]
        simp only [Patch.extent, Extent.Contains, Extent.stop, here]
        omega

/-- Applied in any order, the patches of a tiling leave its concatenated values. -/
theorem Tiles.slice_applyAll_perm {start stop : Nat} {ws reordered : List (Patch β)}
    (tiles : Tiles start ws stop) (same : reordered.Perm ws) (f : Nat → β) :
    slice (applyAll f reordered) start (stop - start) = ws.flatMap Patch.values := by
  have disjoint : (reordered.map Patch.extent).Pairwise Extent.Disjoint :=
    (tiles.partitions.perm (same.map Patch.extent)).disjoint
  have each : ∀ w ∈ ws, slice (applyAll f reordered) w.start w.values.length = w.values :=
    fun w member => slice_applyAll disjoint (same.mem_iff.mpr member)
  clear same disjoint
  generalize applyAll f reordered = g at each
  induction ws generalizing start with
  | nil =>
      obtain rfl : start = stop := tiles
      simp
  | cons w ws inductionHypothesis =>
      obtain ⟨here, rest⟩ := tiles
      have fits := rest.start_le
      have tail := inductionHypothesis rest fun w' member => each w' (List.mem_cons_of_mem _ member)
      have head := each w List.mem_cons_self
      rw [here] at head
      rw [show stop - start = w.values.length + (stop - (start + w.values.length)) by omega,
        slice_add, head, tail, List.flatMap_cons]

end Fs0.Lib
