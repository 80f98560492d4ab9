import Fs0.Lib.Table
import Fs0.Lib.Transition

/-!
Contract: forward simulation between two systems, with stuttering.

Owns:
- relations that every admitted step of one system keeps, by one step of the other or none;
- the run of the other system that a run of the one comes with;
- tables related row by row, and the lookups and updates that keep them so.

Does not own: the systems that are related.
-/

set_option autoImplicit false

namespace Fs0.Lib

universe u v

/-! ## Simulations -/

section Simulation

variable {σ τ : Type u} {ε δ : Type v}

/-- Every admitted step of a system, from related states, is matched by a step of the other
system, or by none. -/
structure Simulation (sys : System σ ε) (spec : System τ δ) (Guard : σ → ε → Prop)
    (R : σ → τ → Prop) : Prop where
  init : ∀ s, sys.Init s → ∃ t, spec.Init t ∧ R s t
  step : ∀ s t e s', R s t → Guard s e → sys.step s e = some s' →
    ∃ t', R s' t' ∧ (t' = t ∨ ∃ d, spec.step t d = some t')

variable {sys : System σ ε} {spec : System τ δ} {Guard : σ → ε → Prop} {R : σ → τ → Prop}

/-- The other system reaches a related state. -/
theorem Simulation.reaches (simulation : Simulation sys spec Guard R)
    {ts : List (Transition σ ε)} {s : σ} (run : sys.Run ts s)
    (admitted : ∀ t ∈ ts, Guard t.pre t.event) :
    ∀ x ∈ visited ts s, ∃ y, spec.Reachable y ∧ R x y := by
  apply run.invariant_of_guard (fun s => ∃ t, spec.Reachable t ∧ R s t) Guard _ _ admitted
  · intro s initial
    obtain ⟨t, isInit, related⟩ := simulation.init s initial
    exact ⟨t, .init isInit, related⟩
  · rintro s e s' ⟨t, reachable, related⟩ admitted taken
    obtain ⟨t', related', same | ⟨d, matched⟩⟩ := simulation.step s t e s' related admitted taken
    · exact ⟨t', same ▸ reachable, related'⟩
    · exact ⟨t', reachable.step matched, related'⟩

end Simulation

/-! ## Tables -/

namespace SeqTable

variable {ρ : Type u} {key : ρ → Nat} {R : ρ → ρ → Prop} {left right : SeqTable key}

/-- Two tables with the same numbers, related row by row. -/
structure Paired (R : ρ → ρ → Prop) (left right : SeqTable key) : Prop where
  rows : List.Forall₂ R left.rows right.rows
  seq : left.seq = right.seq

theorem paired_empty : Paired R (empty : SeqTable key) empty := ⟨.nil, rfl⟩

theorem Paired.mono {R' : ρ → ρ → Prop} (paired : Paired R left right)
    (weaker : ∀ x y, R x y → R' x y) : Paired R' left right :=
  ⟨paired.rows.imp weaker, paired.seq⟩

theorem exists_counterpart {xs ys : List ρ} (related : List.Forall₂ R xs ys) {x : ρ}
    (member : x ∈ xs) : ∃ y ∈ ys, R x y := by
  induction related with
  | nil => cases member
  | @cons first other xs ys pair _ inductionHypothesis =>
      rcases List.mem_cons.mp member with rfl | later
      · exact ⟨other, List.mem_cons_self, pair⟩
      · obtain ⟨y, yMem, pair⟩ := inductionHypothesis later
        exact ⟨y, List.mem_cons_of_mem _ yMem, pair⟩

/-- A row has a counterpart under its number. -/
theorem Paired.find? (paired : Paired R left right) (keyed : ∀ x y, R x y → key x = key y)
    {k : Nat} {x : ρ} (found : left.find? k = some x) : ∃ y, right.find? k = some y ∧ R x y := by
  obtain ⟨member, isKey⟩ := Table.mem_of_find? found
  obtain ⟨y, yMem, pair⟩ := exists_counterpart paired.rows member
  exact ⟨y, Table.find?_eq_some.mpr ⟨yMem, (keyed x y pair).symm.trans isKey⟩, pair⟩

theorem Paired.push (paired : Paired R left right) {row : Nat → ρ} (keeps : ∀ n, key (row n) = n)
    (fresh : ∀ n, R (row n) (row n)) : Paired R (left.push row keeps) (right.push row keeps) := by
  refine ⟨?_, congrArg (· + 1) paired.seq⟩
  rw [rows_push, rows_push, paired.seq]
  exact List.rel_append paired.rows (.cons (fresh _) .nil)

theorem Paired.replace (paired : Paired R left right) (keyed : ∀ x y, R x y → key x = key y)
    {x y : ρ} (pair : R x y) : Paired R (left.replace x) (right.replace y) := by
  refine ⟨?_, paired.seq⟩
  show List.Forall₂ R (left.rows.map _) (right.rows.map _)
  rw [List.forall₂_map_left_iff, List.forall₂_map_right_iff]
  refine paired.rows.imp fun a b related => ?_
  rw [← keyed a b related, ← keyed x y pair]
  split
  · exact pair
  · exact related

/-- Storing a row that is there changes nothing. -/
theorem replace_of_mem {t : SeqTable key} {r : ρ} (member : r ∈ t.rows) : t.replace r = t := by
  refine ext ?_ rfl
  show t.rows.map _ = t.rows
  conv_rhs => rw [← List.map_id t.rows]
  apply List.map_congr_left
  intro x among
  split
  next keyed => exact (Table.eq_of_key_eq among member keyed).symm
  next => rfl

/-- A row changes while its counterpart stays. -/
theorem Paired.replace_left (paired : Paired R left right) (keyed : ∀ x y, R x y → key x = key y)
    {x y : ρ} (member : y ∈ right.rows) (pair : R x y) : Paired R (left.replace x) right := by
  have replaced := paired.replace keyed pair
  rw [replace_of_mem member] at replaced
  exact replaced

theorem Paired.clear (paired : Paired R left right) :
    Paired R (left.delete fun _ => true) (right.delete fun _ => true) := by
  refine ⟨?_, paired.seq⟩
  rw [rows_delete, rows_delete]
  simp

end SeqTable

end Fs0.Lib
