import Mathlib.Algebra.BigOperators.Group.List.Basic
import Mathlib.Algebra.GroupWithZero.Nat
import Mathlib.Data.List.Nodup

/-!
Contract: relational tables whose primary key is unique by construction.

Owns:
- the table type, its queries and updates, the row each lookup returns, and the
  membership law of every update;
- tables that number their rows from a sequence and never use a number twice.

Does not own: secondary unique keys, foreign keys, or the order in which a query
returns rows; a caller states these over the rows.
-/

set_option autoImplicit false

namespace Fs0.Lib

universe u v

/-- The rows of a table. No two rows share a primary key. -/
structure Table {ρ : Type u} {κ : Type v} (key : ρ → κ) where
  rows : List ρ
  nodup : (rows.map key).Nodup

namespace Table

variable {ρ : Type u} {κ : Type v} {key : ρ → κ}

instance [DecidableEq ρ] : DecidableEq (Table key) := fun left right =>
  decidable_of_iff (left.rows = right.rows) <| by
    cases left
    cases right
    simp

@[ext] theorem ext {left right : Table key} (rows : left.rows = right.rows) : left = right := by
  cases left
  cases right
  simp_all

def empty : Table key := ⟨[], List.nodup_nil⟩

instance : Inhabited (Table key) := ⟨empty⟩

/-- The row with a given primary key. -/
def find? [DecidableEq κ] (t : Table key) (k : κ) : Option ρ :=
  t.rows.find? fun r => key r = k

/-- Inserts a row; `none` when its primary key is taken. -/
def insert? [DecidableEq κ] (t : Table key) (r : ρ) : Option (Table key) :=
  if fresh : key r ∉ t.rows.map key then
    some ⟨t.rows ++ [r], by
      rw [List.map_append, List.map_cons, List.map_nil, List.nodup_append]
      exact ⟨t.nodup, by simp, fun a member b last => by
        rw [List.mem_singleton.mp last]
        exact fun same => fresh (same ▸ member)⟩⟩
  else
    none

/-- Deletes the rows a predicate selects. -/
def delete (t : Table key) (p : ρ → Bool) : Table key :=
  ⟨t.rows.filter fun r => !p r, (List.filter_sublist.map key).nodup t.nodup⟩

/-- Rewrites every row by a function that keeps its primary key. -/
def update (t : Table key) (f : ρ → ρ) (keeps : ∀ r, key (f r) = key r) : Table key :=
  ⟨t.rows.map f, by
    rw [List.map_map, show key ∘ f = key from funext keeps]
    exact t.nodup⟩

@[simp] theorem rows_empty : (empty : Table key).rows = [] := rfl

@[simp] theorem rows_delete (t : Table key) (p : ρ → Bool) :
    (t.delete p).rows = t.rows.filter fun r => !p r := rfl

@[simp] theorem rows_update (t : Table key) (f : ρ → ρ) (keeps : ∀ r, key (f r) = key r) :
    (t.update f keeps).rows = t.rows.map f := rfl

theorem mem_delete {t : Table key} {p : ρ → Bool} {r : ρ} :
    r ∈ (t.delete p).rows ↔ r ∈ t.rows ∧ p r = false := by
  simp [List.mem_filter]

@[simp] theorem delete_delete (t : Table key) (p : ρ → Bool) :
    (t.delete p).delete p = t.delete p := by
  apply ext
  simp [List.filter_filter]

/-- Two rows with one primary key are the same row. -/
theorem eq_of_key_eq {t : Table key} {left right : ρ} (leftMem : left ∈ t.rows)
    (rightMem : right ∈ t.rows) (same : key left = key right) : left = right :=
  List.inj_on_of_nodup_map t.nodup leftMem rightMem same

section Keyed

variable [DecidableEq κ]

theorem mem_of_find? {t : Table key} {k : κ} {r : ρ} (found : t.find? k = some r) :
    r ∈ t.rows ∧ key r = k :=
  ⟨List.mem_of_find?_eq_some found, by simpa using List.find?_some found⟩

theorem find?_eq_some {t : Table key} {k : κ} {r : ρ} :
    t.find? k = some r ↔ r ∈ t.rows ∧ key r = k := by
  refine ⟨mem_of_find?, fun ⟨member, keyEq⟩ => ?_⟩
  cases found : t.find? k with
  | none =>
      have absent := List.find?_eq_none.mp found r member
      simp [keyEq] at absent
  | some other =>
      obtain ⟨otherMem, otherKey⟩ := mem_of_find? found
      rw [eq_of_key_eq otherMem member (otherKey.trans keyEq.symm)]

theorem find?_eq_none {t : Table key} {k : κ} :
    t.find? k = none ↔ ∀ r ∈ t.rows, key r ≠ k := by
  simp [find?, List.find?_eq_none]

/-- A lookup depends on the rows with the key only. -/
theorem find?_congr {t t' : Table key} {k : κ}
    (same : ∀ r, key r = k → (r ∈ t.rows ↔ r ∈ t'.rows)) : t.find? k = t'.find? k := by
  cases found : t.find? k with
  | none =>
      symm
      apply find?_eq_none.mpr
      intro r member keyed
      exact find?_eq_none.mp found r ((same r keyed).mpr member) keyed
  | some r =>
      obtain ⟨member, keyed⟩ := mem_of_find? found
      exact (find?_eq_some.mpr ⟨(same r keyed).mp member, keyed⟩).symm

theorem find?_delete_of_false {t : Table key} {p : ρ → Bool} {k : κ}
    (kept : ∀ r, key r = k → p r = false) : (t.delete p).find? k = t.find? k :=
  find?_congr fun r keyed => by simp [kept r keyed]

/-- A row deleted by its key is the only one that is gone. -/
theorem find?_delete_key {t : Table key} {gone k : κ} :
    (t.delete fun r => key r == gone).find? k = if k = gone then none else t.find? k := by
  by_cases same : k = gone
  · rw [if_pos same]
    apply find?_eq_none.mpr
    intro r member keyed
    have kept := (mem_delete.mp member).2
    simp [keyed, same] at kept
  · rw [if_neg same]
    exact find?_delete_of_false fun r keyed => by simpa [keyed] using same

theorem find?_update {t : Table key} {f : ρ → ρ} (keeps : ∀ r, key (f r) = key r) {k : κ} :
    (t.update f keeps).find? k = (t.find? k).map f := by
  cases found : t.find? k with
  | none =>
      apply find?_eq_none.mpr
      intro r member
      obtain ⟨x, xMem, rfl⟩ := List.mem_map.mp member
      rw [keeps]
      exact find?_eq_none.mp found x xMem
  | some r =>
      obtain ⟨member, keyed⟩ := mem_of_find? found
      exact find?_eq_some.mpr ⟨List.mem_map.mpr ⟨r, member, rfl⟩, (keeps r).trans keyed⟩

theorem find?_isSome_of_mem {t : Table key} {r : ρ} (member : r ∈ t.rows) :
    t.find? (key r) = some r :=
  find?_eq_some.mpr ⟨member, rfl⟩

/-- A successful insertion appends the row, whose key was not in use. -/
theorem insert?_eq_some {t t' : Table key} {r : ρ} (inserted : t.insert? r = some t') :
    t'.rows = t.rows ++ [r] ∧ ∀ x ∈ t.rows, key x ≠ key r := by
  unfold insert? at inserted
  split at inserted
  · next fresh =>
      obtain rfl := Option.some.inj inserted
      exact ⟨rfl, fun x member same => fresh (List.mem_map.mpr ⟨x, member, same⟩)⟩
  · cases inserted

/-- The row inserted is found under its key. -/
theorem find?_of_insert? {t t' : Table key} {r : ρ} (inserted : t.insert? r = some t') :
    t'.find? (key r) = some r := by
  obtain ⟨rows, -⟩ := insert?_eq_some inserted
  exact find?_eq_some.mpr ⟨by rw [rows]; simp, rfl⟩

/-- An insertion fails exactly when the key is in use. -/
theorem insert?_eq_none {t : Table key} {r : ρ} :
    t.insert? r = none ↔ ∃ x ∈ t.rows, key x = key r := by
  unfold insert?
  split
  · next fresh =>
      simp only [reduceCtorEq, false_iff, not_exists, not_and]
      exact fun x member same => fresh (List.mem_map.mpr ⟨x, member, same⟩)
  · next taken =>
      simpa [List.mem_map] using taken

theorem insert?_isSome {t : Table key} {r : ρ} (fresh : ∀ x ∈ t.rows, key x ≠ key r) :
    ∃ t', t.insert? r = some t' := by
  cases inserted : t.insert? r with
  | none =>
      obtain ⟨x, member, same⟩ := insert?_eq_none.mp inserted
      exact absurd same (fresh x member)
  | some t' => exact ⟨t', rfl⟩

/-- A row and the rows left when it is deleted are the rows of the table. -/
theorem perm_delete {t : Table key} {r : ρ} (member : r ∈ t.rows) :
    t.rows.Perm (r :: (t.delete fun x => decide (key x = key r)).rows) := by
  apply (List.perm_ext_iff_of_nodup t.nodup.of_map ?_).mpr
  · intro x
    rw [List.mem_cons, mem_delete]
    constructor
    · intro among
      by_cases same : key x = key r
      · exact .inl (eq_of_key_eq among member same)
      · exact .inr ⟨among, by simpa using same⟩
    · rintro (rfl | ⟨among, -⟩)
      · exact member
      · exact among
  · refine List.nodup_cons.mpr ⟨fun among => ?_, List.filter_sublist.nodup t.nodup.of_map⟩
    simpa using (mem_delete.mp among).2

/-- Inserts a row in place of the one with its primary key, if there is one. -/
def put (t : Table key) (r : ρ) : Table key :=
  ⟨t.rows.filter (fun x => key x ≠ key r) ++ [r], by
    rw [List.map_append, List.map_cons, List.map_nil, List.nodup_append]
    refine ⟨(List.filter_sublist.map key).nodup t.nodup, by simp, ?_⟩
    intro a member b last
    obtain ⟨x, selected, rfl⟩ := List.mem_map.mp member
    rw [List.mem_singleton.mp last]
    simpa using (List.mem_filter.mp selected).2⟩

theorem mem_put {t : Table key} {r x : ρ} :
    x ∈ (t.put r).rows ↔ x = r ∨ (x ∈ t.rows ∧ key x ≠ key r) := by
  simp [put, List.mem_filter, or_comm]

@[simp] theorem find?_put_self {t : Table key} {r : ρ} : (t.put r).find? (key r) = some r :=
  find?_eq_some.mpr ⟨mem_put.mpr (.inl rfl), rfl⟩

theorem find?_put_of_ne {t : Table key} {r : ρ} {k : κ} (other : k ≠ key r) :
    (t.put r).find? k = t.find? k := by
  cases found : t.find? k with
  | none =>
      apply find?_eq_none.mpr
      intro x member
      rcases mem_put.mp member with rfl | ⟨member, -⟩
      · exact other.symm
      · exact find?_eq_none.mp found x member
  | some x =>
      obtain ⟨member, rfl⟩ := mem_of_find? found
      exact find?_eq_some.mpr ⟨mem_put.mpr (.inr ⟨member, other⟩), rfl⟩

end Keyed

end Table

/-! ## Numbered tables -/

/-- Where keys are unique, a row is selected alone by its key. -/
theorem filter_key_eq {ρ : Type u} {κ : Type v} [DecidableEq κ] {key : ρ → κ} {rows : List ρ}
    (nodup : (rows.map key).Nodup) {r : ρ} (member : r ∈ rows) :
    rows.filter (fun x => key x = key r) = [r] := by
  induction rows with
  | nil => cases member
  | cons first rest inductionHypothesis =>
      obtain ⟨fresh, nodupRest⟩ := List.nodup_cons.mp nodup
      rcases List.mem_cons.mp member with rfl | later
      · have none : rest.filter (fun x => key x = key r) = [] :=
          List.filter_eq_nil_iff.mpr fun other among same =>
            fresh (List.mem_map.mpr ⟨other, among, of_decide_eq_true same⟩)
        rw [List.filter_cons_of_pos (by simp), none]
      · have other : ¬ decide (key first = key r) = true := fun same =>
          fresh (of_decide_eq_true same ▸ List.mem_map_of_mem later)
        rw [List.filter_cons, if_neg other, inductionHypothesis nodupRest later]

theorem mem_appended {ρ : Type u} {rows : List ρ} {last r : ρ} :
    r ∈ rows ++ [last] ↔ r ∈ rows ∨ r = last := by
  simp

/-- A table whose primary key is drawn from a sequence. -/
structure SeqTable {ρ : Type u} (key : ρ → Nat) extends Table key where
  seq : Nat
  le_seq : ∀ r ∈ rows, key r ≤ seq

namespace SeqTable

variable {ρ : Type u} {key : ρ → Nat}

@[ext] theorem ext {left right : SeqTable key} (rows : left.rows = right.rows)
    (seq : left.seq = right.seq) : left = right := by
  obtain ⟨leftTable, leftSeq, leftLe⟩ := left
  obtain ⟨rightTable, rightSeq, rightLe⟩ := right
  obtain rfl : leftTable = rightTable := Table.ext rows
  obtain rfl : leftSeq = rightSeq := seq
  rfl

instance [DecidableEq ρ] : DecidableEq (SeqTable key) := fun left right =>
  decidable_of_iff (left.rows = right.rows ∧ left.seq = right.seq)
    ⟨fun ⟨rows, seq⟩ => ext rows seq, fun same => by rw [same]; exact ⟨rfl, rfl⟩⟩

def empty : SeqTable key := ⟨.empty, 0, by simp⟩

instance : Inhabited (SeqTable key) := ⟨empty⟩

/-- Appends the row built for the next number. -/
def push (t : SeqTable key) (row : Nat → ρ) (keeps : ∀ n, key (row n) = n) : SeqTable key where
  rows := t.rows ++ [row (t.seq + 1)]
  nodup := by
    rw [List.map_append, List.map_cons, List.map_nil, List.nodup_append]
    refine ⟨t.nodup, by simp, ?_⟩
    intro a member b last
    obtain ⟨x, xMem, rfl⟩ := List.mem_map.mp member
    rw [List.mem_singleton.mp last, keeps]
    have := t.le_seq x xMem
    omega
  seq := t.seq + 1
  le_seq r member := by
    rcases List.mem_append.mp member with member | last
    · exact Nat.le_succ_of_le (t.le_seq r member)
    · exact Nat.le_of_eq (by rw [List.mem_singleton.mp last, keeps])

def delete (t : SeqTable key) (p : ρ → Bool) : SeqTable key where
  toTable := t.toTable.delete p
  seq := t.seq
  le_seq r member := t.le_seq r (Table.mem_delete.mp member).1

def update (t : SeqTable key) (f : ρ → ρ) (keeps : ∀ r, key (f r) = key r) : SeqTable key where
  toTable := t.toTable.update f keeps
  seq := t.seq
  le_seq r member := by
    obtain ⟨x, xMem, rfl⟩ := List.mem_map.mp member
    rw [keeps]
    exact t.le_seq x xMem

/-- Draws a number that no row gets. -/
def skip (t : SeqTable key) : SeqTable key where
  toTable := t.toTable
  seq := t.seq + 1
  le_seq r member := Nat.le_succ_of_le (t.le_seq r member)

@[simp] theorem rows_skip (t : SeqTable key) : t.skip.rows = t.rows := rfl

@[simp] theorem seq_skip (t : SeqTable key) : t.skip.seq = t.seq + 1 := rfl

@[simp] theorem rows_push (t : SeqTable key) (row : Nat → ρ) (keeps : ∀ n, key (row n) = n) :
    (t.push row keeps).rows = t.rows ++ [row (t.seq + 1)] := rfl

@[simp] theorem seq_push (t : SeqTable key) (row : Nat → ρ) (keeps : ∀ n, key (row n) = n) :
    (t.push row keeps).seq = t.seq + 1 := rfl

@[simp] theorem rows_delete (t : SeqTable key) (p : ρ → Bool) :
    (t.delete p).rows = t.rows.filter fun r => !p r := rfl

@[simp] theorem seq_delete (t : SeqTable key) (p : ρ → Bool) : (t.delete p).seq = t.seq := rfl

@[simp] theorem rows_update (t : SeqTable key) (f : ρ → ρ) (keeps : ∀ r, key (f r) = key r) :
    (t.update f keeps).rows = t.rows.map f := rfl

@[simp] theorem seq_update (t : SeqTable key) (f : ρ → ρ) (keeps : ∀ r, key (f r) = key r) :
    (t.update f keeps).seq = t.seq := rfl

theorem mem_delete {t : SeqTable key} {p : ρ → Bool} {r : ρ} :
    r ∈ (t.delete p).rows ↔ r ∈ t.rows ∧ p r = false :=
  Table.mem_delete

/-- The row appended is found under the number drawn for it. -/
theorem find?_push {t : SeqTable key} {row : Nat → ρ} {keeps : ∀ n, key (row n) = n} :
    (t.push row keeps).find? (t.seq + 1) = some (row (t.seq + 1)) :=
  Table.find?_eq_some.mpr ⟨mem_appended.mpr (.inr rfl), keeps _⟩

theorem find?_push_of_ne {t : SeqTable key} {row : Nat → ρ} (keeps : ∀ n, key (row n) = n)
    {k : Nat} (other : k ≠ t.seq + 1) : (t.push row keeps).find? k = t.find? k := by
  apply Table.find?_congr
  intro r keyed
  refine ⟨fun member => ?_, fun member => mem_appended.mpr (.inl member)⟩
  rcases mem_appended.mp member with old | rfl
  · exact old
  · exact absurd (keyed.symm.trans (keeps _)) other

theorem find?_le_seq {t : SeqTable key} {k : Nat} {r : ρ} (found : t.find? k = some r) :
    k ≤ t.seq := by
  obtain ⟨member, rfl⟩ := Table.mem_of_find? found
  exact t.le_seq r member

/-- Stores a row in place of the one with its number. -/
def replace (t : SeqTable key) (r : ρ) : SeqTable key :=
  t.update (fun x => if key x = key r then r else x) (by intro x; split <;> simp_all)

@[simp] theorem seq_replace (t : SeqTable key) (r : ρ) : (t.replace r).seq = t.seq := rfl

theorem mem_replace {t : SeqTable key} {r x : ρ} (member : x ∈ (t.replace r).rows) :
    x = r ∨ (x ∈ t.rows ∧ key x ≠ key r) := by
  obtain ⟨y, yMem, rfl⟩ := List.mem_map.mp member
  by_cases same : key y = key r
  · exact .inl (if_pos same)
  · rw [if_neg same]
    exact .inr ⟨yMem, same⟩

/-- Rewriting a row keeps what does not depend on the difference. -/
theorem map_replace {β : Type v} {t : SeqTable key} {r r' : ρ} {f : ρ → β} (member : r ∈ t.rows)
    (same : key r' = key r) (agree : f r' = f r) :
    (t.replace r').rows.map f = t.rows.map f := by
  unfold replace
  rw [rows_update, List.map_map]
  apply List.map_congr_left
  intro x among
  rw [Function.comp_apply]
  split
  next keyed => rw [agree, Table.eq_of_key_eq among member (keyed.trans same)]
  next => rfl

theorem mem_replace_of_ne {t : SeqTable key} {r x : ρ} (member : x ∈ t.rows)
    (other : key x ≠ key r) : x ∈ (t.replace r).rows :=
  List.mem_map.mpr ⟨x, member, if_neg other⟩

theorem mem_replace_self {t : SeqTable key} {r x : ρ} (member : x ∈ t.rows)
    (same : key x = key r) : r ∈ (t.replace r).rows :=
  List.mem_map.mpr ⟨x, member, if_pos same⟩

theorem find?_replace_self {t : SeqTable key} {r x : ρ} {k : Nat} (found : t.find? k = some x)
    (same : key r = k) : (t.replace r).find? k = some r := by
  obtain ⟨member, isRow⟩ := Table.mem_of_find? found
  exact Table.find?_eq_some.mpr ⟨mem_replace_self member (isRow.trans same.symm), same⟩

theorem find?_replace_of_ne {t : SeqTable key} {r x : ρ} {k : Nat} (found : t.find? k = some x)
    (other : key r ≠ k) : (t.replace r).find? k = some x := by
  obtain ⟨member, isRow⟩ := Table.mem_of_find? found
  exact Table.find?_eq_some.mpr
    ⟨mem_replace_of_ne member fun same => other (same.symm.trans isRow), isRow⟩

/-- Rewriting a row changes a sum over the rows by what the row adds to it. -/
theorem sum_replace {t : SeqTable key} {r r' : ρ} (f : ρ → Nat) (member : r ∈ t.rows)
    (same : key r' = key r) :
    ((t.replace r').rows.map f).sum + f r = (t.rows.map f).sum + f r' := by
  unfold replace
  rw [rows_update, List.map_map]
  have nodup := t.nodup
  generalize t.rows = rows at nodup member
  induction rows with
  | nil => cases member
  | cons first rest inductionHypothesis =>
      obtain ⟨fresh, nodup⟩ := List.nodup_cons.mp nodup
      rw [List.map_cons, List.map_cons, List.sum_cons, List.sum_cons, Function.comp_apply]
      rcases List.mem_cons.mp member with rfl | later
      · have others : rest.map (f ∘ fun x => if key x = key r' then r' else x) = rest.map f := by
          apply List.map_congr_left
          intro x among
          have other : key x ≠ key r' := fun keyed =>
            fresh (List.mem_map.mpr ⟨x, among, keyed.trans same⟩)
          rw [Function.comp_apply, if_neg other]
        rw [others, if_pos same.symm]
        omega
      · have other : key first ≠ key r' := fun keyed =>
          fresh (List.mem_map.mpr ⟨r, later, (keyed.trans same).symm⟩)
        rw [if_neg other]
        have rest := inductionHypothesis nodup later
        omega

/-- Taking a row away takes what it adds from a sum over the rows. -/
theorem sum_delete {t : SeqTable key} {r : ρ} (f : ρ → Nat) (member : r ∈ t.rows) :
    ((t.delete fun x => key x == key r).rows.map f).sum + f r = (t.rows.map f).sum := by
  have same : (t.delete fun x => key x == key r).rows =
      (t.toTable.delete fun x => decide (key x = key r)).rows := rfl
  rw [same, ((Table.perm_delete member).map f).sum_eq, List.map_cons, List.sum_cons]
  exact Nat.add_comm _ _

theorem sum_push (t : SeqTable key) (row : Nat → ρ) (keeps : ∀ n, key (row n) = n) (f : ρ → Nat) :
    ((t.push row keeps).rows.map f).sum = (t.rows.map f).sum + f (row (t.seq + 1)) := by
  rw [rows_push, List.map_append, List.sum_append, List.map_singleton, List.sum_singleton]

end SeqTable

end Fs0.Lib
