import Mathlib.Data.List.Basic

/-!
Contract: a view kept up to date by numbered messages in any order of delivery.

Owns:
- a source of values by key, a view of it, and the updates and snapshots under way;
- the invariant that the last update of a key, a snapshot no update follows, and the
  view of a key without updates all tell the value of the source;
- that each step keeps it, where an update is delivered only if no older message
  under way tells another value of its key.

Does not own: what the values are, and how messages travel.
-/

set_option autoImplicit false

namespace Fs0.Lib

universe u v

/-- A source, its view, and what the messages under way tell of each key. Messages are
numbered in the order in which they were sent. -/
structure Feed (κ : Type u) (ν : Type v) where
  source : κ → ν
  view : κ → ν
  /-- The view has been filled. -/
  started : Prop
  /-- The key has changed and no update tells so yet. -/
  unannounced : κ → Prop
  update : Nat → κ → Option ν
  snapshot : Nat → κ → Option ν
  next : Nat

attribute [ext] Feed

namespace Feed

variable {κ : Type u} {ν : Type v}

/-- The source changes at one key. -/
def change [DecidableEq κ] (f : Feed κ ν) (key : κ) (value : ν) : Feed κ ν :=
  { f with
    source := fun k => if k = key then value else f.source k
    unannounced := fun k => k = key ∨ f.unannounced k }

/-- An update with the value of a key is sent. -/
def announce [DecidableEq κ] (f : Feed κ ν) (key : κ) : Feed κ ν :=
  { f with
    unannounced := fun k => k ≠ key ∧ f.unannounced k
    update := fun n k => if n = f.next then (if k = key then some (f.source k) else none)
      else f.update n k
    next := f.next + 1 }

/-- A snapshot of the source is sent. -/
def takeSnapshot (f : Feed κ ν) : Feed κ ν :=
  { f with
    snapshot := fun n k => if n = f.next then some (f.source k) else f.snapshot n k
    next := f.next + 1 }

def deliverUpdate (f : Feed κ ν) (n : Nat) : Feed κ ν :=
  { f with
    view := fun k => (f.update n k).getD (f.view k)
    update := fun m k => if m = n then none else f.update m k }

def dropSnapshot (f : Feed κ ν) (n : Nat) : Feed κ ν :=
  { f with snapshot := fun m k => if m = n then none else f.snapshot m k }

def deliverSnapshot (f : Feed κ ν) (n : Nat) : Feed κ ν :=
  { f.dropSnapshot n with
    view := fun k => (f.snapshot n k).getD (f.view k)
    started := True }

/-- No older message under way tells another value of a key of this update. -/
def InOrder (f : Feed κ ν) (n : Nat) : Prop :=
  ∀ key value, f.update n key = some value → ∀ m < n, ∀ other,
    f.update m key = some other ∨ f.snapshot m key = some other → other = value

/-- Nothing is under way, and the view has not been filled. -/
structure Idle (f : Feed κ ν) : Prop where
  update : ∀ n key, f.update n key = none
  snapshot : ∀ n key, f.snapshot n key = none
  started : ¬ f.started

/-- No later update under way tells anything of a key. -/
def LastOf (f : Feed κ ν) (n : Nat) (key : κ) : Prop := ∀ m, n < m → f.update m key = none

structure Converging (f : Feed κ ν) : Prop where
  update_lt : ∀ n key value, f.update n key = some value → n < f.next
  snapshot_lt : ∀ n key value, f.snapshot n key = some value → n < f.next
  latest : ∀ key, ¬ f.unannounced key → ∀ n value, f.update n key = some value →
    f.LastOf n key → value = f.source key
  fresh : ∀ key, ¬ f.unannounced key → ∀ n value, f.snapshot n key = some value →
    f.LastOf n key → value = f.source key
  seen : f.started → ∀ key, ¬ f.unannounced key → (∀ n, f.update n key = none) →
    f.view key = f.source key

variable {f : Feed κ ν}

theorem Idle.converging (idle : f.Idle) : f.Converging where
  update_lt := by simp [idle.update]
  snapshot_lt := by simp [idle.snapshot]
  latest := by simp [idle.update]
  fresh := by simp [idle.snapshot]
  seen := fun started => absurd started idle.started

/-- Once every message has arrived, the view is the source. -/
theorem Converging.view_eq (converging : f.Converging) (started : f.started)
    (announced : ∀ key, ¬ f.unannounced key) (arrived : ∀ n key, f.update n key = none) :
    f.view = f.source := by
  funext key
  exact converging.seen started key (announced key) fun n => arrived n key

theorem Converging.change [DecidableEq κ] (converging : f.Converging) (key : κ) (value : ν) :
    (f.change key value).Converging where
  update_lt := converging.update_lt
  snapshot_lt := converging.snapshot_lt
  latest := by
    intro k announced n told isTold last
    obtain ⟨other, announced⟩ := not_or.mp announced
    have same : (f.change key value).source k = f.source k := if_neg other
    rw [same]
    exact converging.latest k announced n told isTold last
  fresh := by
    intro k announced n told isTold last
    obtain ⟨other, announced⟩ := not_or.mp announced
    have same : (f.change key value).source k = f.source k := if_neg other
    rw [same]
    exact converging.fresh k announced n told isTold last
  seen := by
    intro started k announced none
    obtain ⟨other, announced⟩ := not_or.mp announced
    have same : (f.change key value).source k = f.source k := if_neg other
    rw [same]
    exact converging.seen started k announced none

theorem announce_update_of_ne [DecidableEq κ] {key k : κ} (other : k ≠ key) (converging : f.Converging) (n : Nat) :
    (f.announce key).update n k = f.update n k := by
  simp only [announce, if_neg other]
  split
  next isNext =>
    rw [isNext]
    cases told : f.update f.next k with
    | none => rfl
    | some value => exact absurd (converging.update_lt _ _ _ told) (Nat.lt_irrefl _)
  next => rfl

theorem announce_update_next [DecidableEq κ] (key : κ) :
    (f.announce key).update f.next key = some (f.source key) := by
  simp [announce]

/-- The new update is the last one of its key. -/
theorem announce_lastOf [DecidableEq κ] {key : κ} {n : Nat} (known : n ≤ f.next)
    (last : (f.announce key).LastOf n key) : n = f.next := by
  rcases Nat.lt_or_eq_of_le known with older | isNext
  · have told := last f.next older
    rw [announce_update_next] at told
    cases told
  · exact isNext

theorem announce_le_next [DecidableEq κ] {key k : κ} {n : Nat} {value : ν} (converging : f.Converging)
    (told : (f.announce key).update n k = some value) : n ≤ f.next := by
  by_cases isNext : n = f.next
  · exact Nat.le_of_eq isNext
  · have old : (f.announce key).update n k = f.update n k := if_neg isNext
    rw [old] at told
    exact Nat.le_of_lt (converging.update_lt _ _ _ told)

theorem Converging.announce [DecidableEq κ] (converging : f.Converging) (key : κ) :
    (f.announce key).Converging where
  update_lt := fun n k value told => Nat.lt_succ_of_le (announce_le_next converging told)
  snapshot_lt := fun n k value told => Nat.lt_succ_of_lt (converging.snapshot_lt n k value told)
  latest := by
    intro k announced n value told last
    by_cases same : k = key
    · subst same
      obtain rfl := announce_lastOf (announce_le_next converging told) last
      rw [announce_update_next] at told
      exact (Option.some.inj told).symm
    · have old : ¬ f.unannounced k := fun pending => announced ⟨same, pending⟩
      rw [announce_update_of_ne same converging] at told
      refine converging.latest k old n value told fun m later => ?_
      rw [← announce_update_of_ne same converging]
      exact last m later
  fresh := by
    intro k announced n value told last
    have older : n < f.next := converging.snapshot_lt n k value told
    by_cases same : k = key
    · subst same
      exact absurd (announce_lastOf (Nat.le_of_lt older) last) (Nat.ne_of_lt older)
    · have old : ¬ f.unannounced k := fun pending => announced ⟨same, pending⟩
      refine converging.fresh k old n value told fun m later => ?_
      rw [← announce_update_of_ne same converging]
      exact last m later
  seen := by
    intro started k announced none
    by_cases same : k = key
    · subst same
      have told := none f.next
      rw [announce_update_next] at told
      cases told
    · have old : ¬ f.unannounced k := fun pending => announced ⟨same, pending⟩
      refine converging.seen started k old fun n => ?_
      rw [← announce_update_of_ne same converging]
      exact none n

theorem Converging.takeSnapshot (converging : f.Converging) : f.takeSnapshot.Converging where
  update_lt := fun n k value told => Nat.lt_succ_of_lt (converging.update_lt n k value told)
  snapshot_lt := by
    intro n k value told
    by_cases isNext : n = f.next
    · exact isNext ▸ Nat.lt_succ_self _
    · have old : f.takeSnapshot.snapshot n k = f.snapshot n k := if_neg isNext
      rw [old] at told
      exact Nat.lt_succ_of_lt (converging.snapshot_lt n k value told)
  latest := converging.latest
  fresh := by
    intro k announced n value told last
    by_cases isNext : n = f.next
    · have new : f.takeSnapshot.snapshot n k = some (f.source k) := if_pos isNext
      rw [new] at told
      exact (Option.some.inj told).symm
    · have old : f.takeSnapshot.snapshot n k = f.snapshot n k := if_neg isNext
      rw [old] at told
      exact converging.fresh k announced n value told last
  seen := converging.seen

theorem Converging.dropSnapshot (converging : f.Converging) (n : Nat) :
    (f.dropSnapshot n).Converging := by
  have sub : ∀ m k value, (f.dropSnapshot n).snapshot m k = some value →
      f.snapshot m k = some value := by
    intro m k value told
    unfold Feed.dropSnapshot at told
    dsimp only at told
    split at told
    · cases told
    · exact told
  exact {
    update_lt := converging.update_lt
    snapshot_lt := fun m k value told => converging.snapshot_lt m k value (sub m k value told)
    latest := converging.latest
    fresh := fun k announced m value told last =>
      converging.fresh k announced m value (sub m k value told) last
    seen := converging.seen }

/-- A snapshot of every key may be delivered at any time. -/
theorem Converging.deliverSnapshot (converging : f.Converging) {n : Nat}
    (total : ∀ key, ∃ value, f.snapshot n key = some value) : (f.deliverSnapshot n).Converging := by
  have dropped := converging.dropSnapshot n
  exact {
    update_lt := dropped.update_lt
    snapshot_lt := dropped.snapshot_lt
    latest := dropped.latest
    fresh := dropped.fresh
    seen := by
      intro _ k announced none
      obtain ⟨value, told⟩ := total k
      have isView : (f.deliverSnapshot n).view k = value := by
        unfold Feed.deliverSnapshot
        simp only [told, Option.getD_some]
      rw [isView]
      exact converging.fresh k announced n value told fun m _ => none m }

theorem deliverUpdate_update_of_ne {n m : Nat} {key : κ} (other : m ≠ n) :
    (f.deliverUpdate n).update m key = f.update m key := if_neg other

/-- What is last once an update is delivered was last before, or only the update followed. -/
theorem lastOf_deliverUpdate {n m : Nat} {key : κ} (last : (f.deliverUpdate n).LastOf m key) :
    f.LastOf m key ∨ m < n ∧ f.LastOf n key := by
  by_cases older : m < n
  · right
    refine ⟨older, fun later isLater => ?_⟩
    rw [← deliverUpdate_update_of_ne (Nat.ne_of_gt isLater)]
    exact last later (Nat.lt_trans older isLater)
  · left
    intro later isLater
    have other : later ≠ n := by omega
    rw [← deliverUpdate_update_of_ne other]
    exact last later isLater

/-- An update may be delivered when no older message under way contradicts it. -/
theorem Converging.deliverUpdate (converging : f.Converging) {n : Nat} (inOrder : f.InOrder n) :
    (f.deliverUpdate n).Converging := by
  have sub : ∀ m k value, (f.deliverUpdate n).update m k = some value →
      f.update m k = some value := by
    intro m k value told
    unfold Feed.deliverUpdate at told
    dsimp only at told
    split at told
    · cases told
    · exact told
  constructor
  case update_lt => exact fun m k value told => converging.update_lt m k value (sub m k value told)
  case snapshot_lt => exact converging.snapshot_lt
  case latest =>
      intro k announced m value told last
      have before := sub m k value told
      rcases lastOf_deliverUpdate last with wasLast | ⟨older, nowLast⟩
      · exact converging.latest k announced m value before wasLast
      · cases delivered : f.update n k with
        | none =>
            refine converging.latest k announced m value before fun later isLater => ?_
            by_cases isUpdate : later = n
            · rw [isUpdate, delivered]
            · rw [← deliverUpdate_update_of_ne isUpdate]
              exact last later isLater
        | some told =>
            rw [inOrder k told delivered m older value (.inl before)]
            exact converging.latest k announced n told delivered nowLast
  case fresh =>
      intro k announced m value told last
      rcases lastOf_deliverUpdate last with wasLast | ⟨older, nowLast⟩
      · exact converging.fresh k announced m value told wasLast
      · cases delivered : f.update n k with
        | none =>
            refine converging.fresh k announced m value told fun later isLater => ?_
            by_cases isUpdate : later = n
            · rw [isUpdate, delivered]
            · rw [← deliverUpdate_update_of_ne isUpdate]
              exact last later isLater
        | some told' =>
            rw [inOrder k told' delivered m older value (.inr told)]
            exact converging.latest k announced n told' delivered nowLast
  case seen =>
      intro started k announced none
      have others : ∀ m, m ≠ n → f.update m k = .none := fun m other => by
        rw [← deliverUpdate_update_of_ne other]
        exact none m
      unfold Feed.deliverUpdate
      dsimp only
      cases delivered : f.update n k with
      | none =>
          rw [Option.getD_none]
          refine converging.seen started k announced fun m => ?_
          by_cases isUpdate : m = n
          · rw [isUpdate, delivered]
          · exact others m isUpdate
      | some told =>
          rw [Option.getD_some]
          exact converging.latest k announced n told delivered fun m later =>
            others m (Nat.ne_of_gt later)

end Feed

end Fs0.Lib
