import Fs0.Core.Types
import Fs0.Lib.Fallible

/-!
Contract: SQL statements on tables that are kept next to a volatile part.

Owns: reading, executing and binding, and what each of them does on success.

Does not own: the tables and their statements.
-/

set_option autoImplicit false

namespace Fs0.Statement

open Lib

variable {durable volatile α β : Type}

/-- Reads the tables. -/
def query (select : durable → α) : EStateM Fs0Error (durable × volatile) α := fun db =>
  .ok (select db.1) db

/-- Runs one statement. A failed statement changes nothing. -/
def execute (statement : durable → Fs0Result (α × durable)) :
    EStateM Fs0Error (durable × volatile) α := fun db =>
  match statement db.1 with
  | .ok (a, tables) => .ok a (tables, db.2)
  | .error err => .error err db

/-- Binds a `u64` parameter of a statement. -/
def bindU64 (value : Nat) (name : String) : EStateM Fs0Error (durable × volatile) Nat :=
  Fallible.lift (u64ToI64 value name)

@[simp] theorem query_apply (select : durable → α) (db : durable × volatile) :
    query select db = .ok (select db.1) db := rfl

theorem query_bind_apply (select : durable → α) (f : α → EStateM Fs0Error (durable × volatile) β)
    (db : durable × volatile) : (query select >>= f) db = f (select db.1) db := rfl

theorem execute_eq_ok {statement : durable → Fs0Result (α × durable)}
    {db db' : durable × volatile} {a : α} :
    execute statement db = .ok a db' ↔ statement db.1 = .ok (a, db'.1) ∧ db'.2 = db.2 := by
  unfold execute
  cases ran : statement db.1 with
  | error err => simp
  | ok result =>
      obtain ⟨b, tables⟩ := result
      obtain ⟨tables', volatile'⟩ := db'
      simp only [EStateM.Result.ok.injEq, Prod.mk.injEq, Except.ok.injEq]
      tauto

theorem execute_eq_error {statement : durable → Fs0Result (α × durable)}
    {db db' : durable × volatile} {err : Fs0Error} :
    execute statement db = .error err db' ↔ statement db.1 = .error err ∧ db' = db := by
  unfold execute
  cases ran : statement db.1 with
  | error other => simp [eq_comm]
  | ok result => simp

theorem bindU64_eq_ok {value bound : Nat} {name : String} {db db' : durable × volatile} :
    bindU64 value name db = .ok bound db' ↔ value ≤ i64Max ∧ bound = value ∧ db' = db := by
  unfold bindU64
  rw [Fallible.lift_eq_ok, u64ToI64_eq_ok, and_assoc]

theorem bindU64_bind_eq_ok {value : Nat} {name : String}
    {f : Nat → EStateM Fs0Error (durable × volatile) α} {db db' : durable × volatile} {a : α} :
    (bindU64 value name >>= f) db = .ok a db' ↔ value ≤ i64Max ∧ f value db = .ok a db' := by
  rw [bindU64, Fallible.lift_bind_eq_ok]
  constructor
  · rintro ⟨bound, ok, rest⟩
    obtain ⟨fits, rfl⟩ := u64ToI64_eq_ok.mp ok
    exact ⟨fits, rest⟩
  · rintro ⟨fits, rest⟩
    exact ⟨value, u64ToI64_eq_ok.mpr ⟨fits, rfl⟩, rest⟩

theorem bindU64_of_le {value : Nat} {name : String} {db : durable × volatile}
    (fits : value ≤ i64Max) : bindU64 value name db = .ok value db :=
  bindU64_eq_ok.mpr ⟨fits, rfl, rfl⟩

theorem bindU64_of_gt (name : String) {value : Nat} (unfit : ¬ value ≤ i64Max) :
    ∃ err, ∀ db : durable × volatile, bindU64 value name db = .error err db := by
  refine ⟨.integerConversion s!"{name} value {value} does not fit in i64", fun db => ?_⟩
  rw [bindU64, u64ToI64, if_neg unfit]
  rfl

theorem bindU64_eq_error {value : Nat} {name : String} {db db' : durable × volatile}
    {err : Fs0Error} (failed : bindU64 value name db = .error err db') : db' = db := by
  unfold bindU64 at failed
  cases bound : u64ToI64 value name with
  | ok a =>
      rw [bound] at failed
      cases failed
  | error other =>
      rw [bound] at failed
      cases failed
      rfl

end Fs0.Statement
