import Mathlib.Data.List.Sublists
import Mathlib.Data.Set.Basic
import Mathlib.Logic.Function.Basic
import Fs0.Lib.Transition

/-!
Contract: tasks that take and drop reader-writer locks under a task-fair policy.

Owns:
- the programs of lock operations and the system in which any number of them run;
- who waits for whom, and when a set of tasks is deadlocked;
- that a deadlock on a lock involves a task that holds it and waits for another one;
- the nestings of locks that a program is allowed, kept along the runs.

Does not own: the programs of a particular process. A mutex is a lock that is only written.
-/

set_option autoImplicit false

namespace Fs0.Lib

universe u v

inductive LockMode where
  | read
  | write
deriving DecidableEq, Repr

/-- What a task does with its locks. At a check it may leave early. -/
inductive LockOp (ι : Type u) where
  | acquire (lock : ι) (mode : LockMode)
  | release (lock : ι)
  | check
deriving DecidableEq, Repr

/-- A lock that a task holds or waits for. -/
structure LockClaim (ι : Type u) where
  task : Nat
  lock : ι
  mode : LockMode
deriving DecidableEq, Repr

/-- What the tasks have still to do, what they hold, and what they wait for in the order in
which they asked. -/
structure Locks (ι : Type u) where
  spawned : Nat
  rest : Nat → List (LockOp ι)
  held : List (LockClaim ι)
  queue : List (LockClaim ι)

inductive LockEvent (κ : Type v) where
  | spawn (call : κ)
  | request (task : Nat)
  | grant (task : Nat)
  | release (task : Nat)
  | pass (task : Nat)
  | fail (task : Nat)
deriving DecidableEq, Repr

/-- Readers share a lock, and nothing else does. -/
def LockMode.Conflicts (held wanted : LockMode) : Prop := held = .write ∨ wanted = .write

instance (held wanted : LockMode) : Decidable (held.Conflicts wanted) :=
  inferInstanceAs (Decidable (held = .write ∨ wanted = .write))

namespace Locks

section Steps

variable {ι : Type u} {κ : Type v} [DecidableEq ι]

def initial : Locks ι := ⟨0, fun _ => [], [], []⟩

/-- The locks of a task, the last one first. -/
def heldBy (s : Locks ι) (task : Nat) : List (ι × LockMode) :=
  (s.held.filter fun claim => claim.task = task).map fun claim => (claim.lock, claim.mode)

/-- No task holds the lock against the claim, and no writer is queued ahead of a reader. -/
def Grantable (s : Locks ι) (claim : LockClaim ι) : Prop :=
  (∀ holder ∈ s.held, holder.lock = claim.lock → ¬ holder.mode.Conflicts claim.mode) ∧
    (claim.mode = .read → ∀ writer ∈ s.queue, writer.lock = claim.lock → writer.mode = .write →
      ¬ [writer, claim].Sublist s.queue)

instance (s : Locks ι) (claim : LockClaim ι) : Decidable (s.Grantable claim) :=
  inferInstanceAs (Decidable (_ ∧ _))

def goOn (s : Locks ι) (task : Nat) (rest : List (LockOp ι)) : Locks ι :=
  { s with rest := Function.update s.rest task rest }

def step (program : κ → List (LockOp ι)) (s : Locks ι) : LockEvent κ → Option (Locks ι)
  | .spawn call =>
      some { s.goOn s.spawned (program call) with spawned := s.spawned + 1 }
  | .request task =>
      match s.rest task with
      | .acquire lock mode :: _ =>
          if ∀ claim ∈ s.queue, claim.task ≠ task then
            some { s with queue := s.queue ++ [⟨task, lock, mode⟩] }
          else none
      | _ => none
  | .grant task =>
      match s.rest task with
      | .acquire lock mode :: rest =>
          if ⟨task, lock, mode⟩ ∈ s.queue ∧ s.Grantable ⟨task, lock, mode⟩ then
            some { s.goOn task rest with
              held := ⟨task, lock, mode⟩ :: s.held
              queue := s.queue.erase ⟨task, lock, mode⟩ }
          else none
      | _ => none
  | .release task =>
      match s.rest task with
      | .release lock :: rest =>
          some { s.goOn task rest with
            held := s.held.filter fun claim => ¬ (claim.task = task ∧ claim.lock = lock) }
      | _ => none
  | .pass task =>
      match s.rest task with
      | .check :: rest => some (s.goOn task rest)
      | _ => none
  | .fail task =>
      match s.rest task with
      | .check :: _ =>
          some (s.goOn task ((s.heldBy task).map fun claim => .release claim.1))
      | _ => none

/-- Any number of calls, each running the operations of its program. -/
def system (program : κ → List (LockOp ι)) : System (Locks ι) (LockEvent κ) where
  Init s := s = initial
  step := step program

/-! ## Steps -/

/-- The step of an event, with what it found. -/
inductive Stepped (program : κ → List (LockOp ι)) (s : Locks ι) : LockEvent κ → Locks ι → Prop where
  | spawn (call : κ) : Stepped program s (.spawn call)
      { s.goOn s.spawned (program call) with spawned := s.spawned + 1 }
  | request {task : Nat} {lock : ι} {mode : LockMode} {tail : List (LockOp ι)}
      (next : s.rest task = .acquire lock mode :: tail)
      (first : ∀ claim ∈ s.queue, claim.task ≠ task) : Stepped program s (.request task)
        { s with queue := s.queue ++ [⟨task, lock, mode⟩] }
  | grant {task : Nat} {lock : ι} {mode : LockMode} {tail : List (LockOp ι)}
      (next : s.rest task = .acquire lock mode :: tail)
      (queued : ⟨task, lock, mode⟩ ∈ s.queue) (grantable : s.Grantable ⟨task, lock, mode⟩) :
      Stepped program s (.grant task)
        { s.goOn task tail with
          held := ⟨task, lock, mode⟩ :: s.held
          queue := s.queue.erase ⟨task, lock, mode⟩ }
  | release {task : Nat} {lock : ι} {tail : List (LockOp ι)}
      (next : s.rest task = .release lock :: tail) : Stepped program s (.release task)
        { s.goOn task tail with
          held := s.held.filter fun claim => ¬ (claim.task = task ∧ claim.lock = lock) }
  | pass {task : Nat} {tail : List (LockOp ι)} (next : s.rest task = .check :: tail) :
      Stepped program s (.pass task) (s.goOn task tail)
  | fail {task : Nat} {tail : List (LockOp ι)} (next : s.rest task = .check :: tail) :
      Stepped program s (.fail task)
        (s.goOn task ((s.heldBy task).map fun claim => .release claim.1))

theorem step_cases {program : κ → List (LockOp ι)} {s s' : Locks ι} {e : LockEvent κ}
    (taken : (system program).step s e = some s') : Stepped program s e s' := by
  have taken : step program s e = some s' := taken
  unfold step at taken
  cases e with
  | spawn call =>
      obtain rfl := Option.some.inj taken
      exact .spawn call
  | request task =>
      dsimp only at taken
      split at taken
      next lock mode tail next =>
        split at taken
        next first =>
          obtain rfl := Option.some.inj taken
          exact .request next first
        next => cases taken
      next => cases taken
  | grant task =>
      dsimp only at taken
      split at taken
      next lock mode tail next =>
        split at taken
        next granted =>
          obtain rfl := Option.some.inj taken
          exact .grant next granted.1 granted.2
        next => cases taken
      next => cases taken
  | release task =>
      dsimp only at taken
      split at taken
      next lock tail next =>
        obtain rfl := Option.some.inj taken
        exact .release next
      next => cases taken
  | pass task =>
      dsimp only at taken
      split at taken
      next tail next =>
        obtain rfl := Option.some.inj taken
        exact .pass next
      next => cases taken
  | fail task =>
      dsimp only at taken
      split at taken
      next tail next =>
        obtain rfl := Option.some.inj taken
        exact .fail next
      next => cases taken

/-! ## Waiting -/

/-- A task waits for one that holds its lock against it, or for a writer ahead of it. -/
def Waits (s : Locks ι) (task other : Nat) : Prop :=
  ∃ claim ∈ s.queue, claim.task = task ∧
    ((∃ holder ∈ s.held, holder.task = other ∧ holder.lock = claim.lock ∧
        holder.mode.Conflicts claim.mode) ∨
      ∃ writer, writer.task = other ∧ writer.lock = claim.lock ∧ writer.mode = .write ∧
        [writer, claim].Sublist s.queue)

/-- Some tasks wait for each other, and for no other one. -/
def Deadlocked (s : Locks ι) : Prop :=
  ∃ tasks : Set Nat, tasks.Nonempty ∧ ∀ task ∈ tasks, ∃ other ∈ tasks, s.Waits task other

/-- The operations take their locks only as allowed by what they hold. -/
def Nests (allows : List (ι × LockMode) → ι → LockMode → Prop) :
    List (ι × LockMode) → List (LockOp ι) → Prop
  | _, [] => True
  | held, .acquire lock mode :: rest =>
      allows held lock mode ∧ Nests allows ((lock, mode) :: held) rest
  | held, .release lock :: rest =>
      Nests allows (held.filter fun claim => claim.1 ≠ lock) rest
  | held, .check :: rest => Nests allows held rest

variable {allows : List (ι × LockMode) → ι → LockMode → Prop}

theorem nests_releases (locks : List (ι × LockMode)) (held : List (ι × LockMode)) :
    Nests allows held (locks.map fun claim => .release claim.1) := by
  induction locks generalizing held with
  | nil => trivial
  | cons lock rest inductionHypothesis => exact inductionHypothesis _

/-- Every task waits at most once and for the next of its locks, and takes them as allowed. -/
structure Disciplined (allows : List (ι × LockMode) → ι → LockMode → Prop) (s : Locks ι) :
    Prop where
  once : (s.queue.map LockClaim.task).Nodup
  next : ∀ claim ∈ s.queue, ∃ tail, s.rest claim.task = .acquire claim.lock claim.mode :: tail
  nested : ∀ task, Nests allows (s.heldBy task) (s.rest task)
  spawned : ∀ claim, claim ∈ s.held ∨ claim ∈ s.queue → claim.task < s.spawned
  idle : ∀ task, s.spawned ≤ task → s.rest task = []

theorem initial_disciplined : Disciplined allows (initial : Locks ι) where
  once := .nil
  next := by simp [initial]
  nested _ := trivial
  spawned := by simp [initial]
  idle _ _ := rfl

section Preserved

variable {s s' : Locks ι} {program : κ → List (LockOp ι)} {e : LockEvent κ}

omit [DecidableEq ι] in
@[simp] theorem goOn_rest_self (task : Nat) (rest : List (LockOp ι)) :
    (s.goOn task rest).rest task = rest := Function.update_self ..

omit [DecidableEq ι] in
theorem goOn_rest_of_ne {task other : Nat} (differ : other ≠ task) (rest : List (LockOp ι)) :
    (s.goOn task rest).rest other = s.rest other := Function.update_of_ne differ ..

omit [DecidableEq ι] in
theorem heldBy_of_spawned {task : Nat} (spawned : ∀ claim ∈ s.held, claim.task < task) :
    s.heldBy task = [] := by
  unfold heldBy
  rw [List.map_eq_nil_iff, List.filter_eq_nil_iff]
  intro claim member
  simpa using Nat.ne_of_lt (spawned claim member)

omit [DecidableEq ι] in
theorem mem_heldBy {task : Nat} {lock : ι} {mode : LockMode} :
    (lock, mode) ∈ s.heldBy task ↔ ⟨task, lock, mode⟩ ∈ s.held := by
  unfold heldBy
  constructor
  · intro member
    obtain ⟨⟨holder, lock', mode'⟩, found, same⟩ := List.mem_map.mp member
    obtain ⟨isHeld, isTask⟩ := List.mem_filter.mp found
    obtain ⟨rfl, rfl⟩ := Prod.mk.inj same
    obtain rfl : holder = task := by simpa using isTask
    exact isHeld
  · intro isHeld
    exact List.mem_map.mpr ⟨_, List.mem_filter.mpr ⟨isHeld, by simp⟩, rfl⟩

/-- A claim that waits is the only one of its task. -/
theorem Disciplined.unique (disciplined : s.Disciplined allows) {claim other : LockClaim ι}
    (member : claim ∈ s.queue) (otherMember : other ∈ s.queue) (same : claim.task = other.task) :
    claim = other :=
  List.inj_on_of_nodup_map disciplined.once member otherMember same

theorem Disciplined.queue_nodup (disciplined : s.Disciplined allows) : s.queue.Nodup :=
  disciplined.once.of_map _

/-- Whoever waits is allowed to take the lock. -/
theorem Disciplined.allowed (disciplined : s.Disciplined allows) {claim : LockClaim ι}
    (member : claim ∈ s.queue) : allows (s.heldBy claim.task) claim.lock claim.mode := by
  obtain ⟨tail, next⟩ := disciplined.next claim member
  have nested := disciplined.nested claim.task
  rw [next] at nested
  exact nested.1

/-- A task with other operations before it does not wait. -/
theorem Disciplined.not_queued (disciplined : s.Disciplined allows) {task : Nat}
    (notNext : ∀ lock mode tail, s.rest task ≠ .acquire lock mode :: tail) :
    ∀ claim ∈ s.queue, claim.task ≠ task := by
  rintro claim member rfl
  obtain ⟨tail, next⟩ := disciplined.next claim member
  exact notNext _ _ tail next

/-- A task with something to do was spawned. -/
theorem Disciplined.lt_spawned (disciplined : s.Disciplined allows) {task : Nat}
    (busy : s.rest task ≠ []) : task < s.spawned := by
  by_contra notSpawned
  exact busy (disciplined.idle task (Nat.le_of_not_lt notSpawned))

/-- A task that does not wait may go on as its locks allow. -/
theorem Disciplined.goOn_next (disciplined : s.Disciplined allows) {task : Nat}
    {rest : List (LockOp ι)} (idle : ∀ claim ∈ s.queue, claim.task ≠ task) :
    ∀ claim ∈ s.queue, ∃ tail,
      (s.goOn task rest).rest claim.task = .acquire claim.lock claim.mode :: tail := by
  intro claim member
  rw [goOn_rest_of_ne (idle claim member)]
  exact disciplined.next claim member

theorem Disciplined.goOn_nested (disciplined : s.Disciplined allows) {task : Nat}
    {rest : List (LockOp ι)} (nests : Nests allows (s.heldBy task) rest) (other : Nat) :
    Nests allows (s.heldBy other) ((s.goOn task rest).rest other) := by
  by_cases same : other = task
  · subst same
    rw [goOn_rest_self]
    exact nests
  · rw [goOn_rest_of_ne same]
    exact disciplined.nested other

theorem Disciplined.goOn_idle (disciplined : s.Disciplined allows) {task : Nat}
    (spawned : task < s.spawned) (rest : List (LockOp ι)) :
    ∀ other, s.spawned ≤ other → (s.goOn task rest).rest other = [] := by
  intro other unspawned
  have differ : other ≠ task := by omega
  rw [goOn_rest_of_ne differ]
  exact disciplined.idle other unspawned

/-- Going on without a lock keeps the discipline. -/
theorem Disciplined.goOn (disciplined : s.Disciplined allows) {task : Nat}
    {rest : List (LockOp ι)} (spawned : task < s.spawned)
    (idle : ∀ claim ∈ s.queue, claim.task ≠ task)
    (nests : Nests allows (s.heldBy task) rest) : (s.goOn task rest).Disciplined allows :=
  ⟨disciplined.once, disciplined.goOn_next idle, disciplined.goOn_nested nests,
    disciplined.spawned, disciplined.goOn_idle spawned rest⟩

omit [DecidableEq ι] in
theorem heldBy_cons (s : Locks ι) (claim : LockClaim ι) (task : Nat) :
    heldBy { s with held := claim :: s.held } task =
      if claim.task = task then (claim.lock, claim.mode) :: s.heldBy task else s.heldBy task := by
  unfold heldBy
  by_cases own : claim.task = task
  · simp [own]
  · simp [own]

theorem heldBy_released (s : Locks ι) (releasing task : Nat) (lock : ι) :
    heldBy { s with held := s.held.filter fun claim =>
        ¬ (claim.task = releasing ∧ claim.lock = lock) } task =
      if task = releasing then (s.heldBy task).filter fun claim => claim.1 ≠ lock
      else s.heldBy task := by
  unfold heldBy
  dsimp only
  rw [List.filter_filter]
  split
  next same =>
    subst same
    rw [List.filter_map, List.filter_filter]
    congr 2
    funext claim
    by_cases own : claim.task = task <;> simp [own]
  next differ =>
    congr 2
    funext claim
    by_cases own : claim.task = task
    · have other : claim.task ≠ releasing := fun isReleasing => differ (own.symm.trans isReleasing)
      simp [own, fun same => differ same]
    · simp [own]

theorem Disciplined.preserved (disciplined : s.Disciplined allows)
    (programs : ∀ call, Nests allows [] (program call)) (stepped : Stepped program s e s') :
    s'.Disciplined allows := by
  cases stepped with
  | spawn call =>
      have fresh : ∀ claim ∈ s.queue, claim.task ≠ s.spawned := fun claim member =>
        Nat.ne_of_lt (disciplined.spawned claim (.inr member))
      have nests : Nests allows (s.heldBy s.spawned) (program call) := by
        rw [heldBy_of_spawned fun claim member => disciplined.spawned claim (.inl member)]
        exact programs call
      refine ⟨disciplined.once, disciplined.goOn_next fresh, disciplined.goOn_nested nests,
        fun claim member => Nat.lt_succ_of_lt (disciplined.spawned claim member),
        fun other unspawned => ?_⟩
      have differ : other ≠ s.spawned := Nat.ne_of_gt unspawned
      have sameRest := goOn_rest_of_ne (s := s) differ (program call)
      exact sameRest.trans (disciplined.idle other (Nat.le_of_succ_le unspawned))
  | @request task lock mode tail next first =>
      have spawned : task < s.spawned := disciplined.lt_spawned (by simp [next])
      refine ⟨?_, fun claim member => ?_, disciplined.nested, fun claim member => ?_,
        disciplined.idle⟩
      · rw [List.map_append, List.nodup_append]
        refine ⟨disciplined.once, by simp, ?_⟩
        simpa [List.mem_map] using first
      · rcases List.mem_append.mp member with earlier | last
        · exact disciplined.next claim earlier
        · obtain rfl := List.mem_singleton.mp last
          exact ⟨tail, next⟩
      · rcases member with isHeld | queued
        · exact disciplined.spawned claim (.inl isHeld)
        · rcases List.mem_append.mp queued with earlier | last
          · exact disciplined.spawned claim (.inr earlier)
          · obtain rfl := List.mem_singleton.mp last
            exact spawned
  | @grant task lock mode tail next queued grantable =>
      have spawned : task < s.spawned := disciplined.lt_spawned (by simp [next])
      have nested := disciplined.nested task
      rw [next] at nested
      refine ⟨?_, fun claim member => ?_, fun other => ?_, fun claim member => ?_,
        disciplined.goOn_idle spawned tail⟩
      · exact disciplined.once.sublist ((List.erase_sublist).map _)
      · have earlier := List.mem_of_mem_erase member
        have differ : claim.task ≠ task := by
          intro same
          obtain rfl := disciplined.unique earlier queued same
          exact (disciplined.queue_nodup.mem_erase_iff.mp member).1 rfl
        have sameRest := goOn_rest_of_ne (s := s) differ tail
        obtain ⟨rest, isNext⟩ := disciplined.next claim earlier
        exact ⟨rest, sameRest.trans isNext⟩
      · have holds : heldBy { s.goOn task tail with
            held := ⟨task, lock, mode⟩ :: s.held
            queue := s.queue.erase ⟨task, lock, mode⟩ } other =
              if task = other then (lock, mode) :: s.heldBy other else s.heldBy other :=
          heldBy_cons s ⟨task, lock, mode⟩ other
        rw [holds]
        by_cases same : task = other
        · subst same
          rw [if_pos rfl]
          show Nests allows _ ((s.goOn task tail).rest task)
          rw [goOn_rest_self]
          exact nested.2
        · rw [if_neg same]
          have sameRest := goOn_rest_of_ne (s := s) (Ne.symm same) tail
          exact sameRest ▸ disciplined.nested other
      · rcases member with isHeld | stillQueued
        · rcases List.mem_cons.mp isHeld with rfl | earlier
          · exact spawned
          · exact disciplined.spawned claim (.inl earlier)
        · exact disciplined.spawned claim (.inr (List.mem_of_mem_erase stillQueued))
  | @release task lock tail next =>
      have spawned : task < s.spawned := disciplined.lt_spawned (by simp [next])
      have idle : ∀ claim ∈ s.queue, claim.task ≠ task := disciplined.not_queued (by simp [next])
      have nested := disciplined.nested task
      rw [next] at nested
      refine ⟨disciplined.once, disciplined.goOn_next idle, fun other => ?_,
        fun claim member => ?_, disciplined.goOn_idle spawned tail⟩
      · have holds : heldBy { s.goOn task tail with held := s.held.filter fun claim =>
            ¬ (claim.task = task ∧ claim.lock = lock) } other =
              if other = task then (s.heldBy other).filter fun claim => claim.1 ≠ lock
              else s.heldBy other := heldBy_released s task other lock
        rw [holds]
        by_cases same : other = task
        · subst same
          rw [if_pos rfl]
          show Nests allows _ ((s.goOn other tail).rest other)
          rw [goOn_rest_self]
          exact nested
        · rw [if_neg same]
          have sameRest := goOn_rest_of_ne (s := s) same tail
          exact sameRest ▸ disciplined.nested other
      · rcases member with isHeld | queued
        · exact disciplined.spawned claim (.inl (List.mem_filter.mp isHeld).1)
        · exact disciplined.spawned claim (.inr queued)
  | @pass task tail next =>
      have nested := disciplined.nested task
      rw [next] at nested
      exact disciplined.goOn (disciplined.lt_spawned (by simp [next]))
        (disciplined.not_queued (by simp [next])) nested
  | fail next =>
      exact disciplined.goOn (disciplined.lt_spawned (by simp [next]))
        (disciplined.not_queued (by simp [next])) (nests_releases _ _)

/-! ## Deadlocks -/

/-- In a list without repetitions an element is ahead of what follows it. -/
theorem mem_before {α : Type u} {before after : List α} {ahead x : α}
    (nodup : (before ++ x :: after).Nodup) (isAhead : [ahead, x].Sublist (before ++ x :: after)) :
    ahead ∈ before := by
  obtain ⟨left, right, isPair, inBefore, inAfter⟩ := List.sublist_append_iff.mp isAhead
  have notAfter : x ∉ after := (List.nodup_cons.mp (List.nodup_append.mp nodup).2.1).1
  cases left with
  | nil =>
      obtain rfl : right = [ahead, x] := isPair.symm
      have member : x ∈ after := by
        rcases List.cons_sublist_cons'.mp inAfter with skipped | ⟨-, taken⟩
        · exact skipped.subset (by simp)
        · exact taken.subset (by simp)
      exact absurd member notAfter
  | cons first rest =>
      obtain rfl := (List.cons.inj isPair).1
      exact inBefore.subset List.mem_cons_self

/-- What is ahead of an element once another one was added behind. -/
theorem ahead_concat {α : Type u} {queue : List α} {ahead x added : α}
    (isAhead : [ahead, x].Sublist (queue ++ [added])) :
    [ahead, x].Sublist queue ∨ x = added ∧ ahead ∈ queue := by
  obtain ⟨left, right, isPair, inQueue, isAdded⟩ := List.sublist_append_iff.mp isAhead
  rcases List.sublist_singleton.mp isAdded with rfl | rfl
  · rw [List.append_nil] at isPair
    exact .inl (isPair ▸ inQueue)
  · have split : [ahead] ++ [x] = left ++ [added] := isPair
    obtain ⟨rfl, isLast⟩ := List.append_inj' split rfl
    exact .inr ⟨(List.cons.inj isLast).1, inQueue.subset List.mem_cons_self⟩

/-- Among the tasks of a deadlock that wait for a lock, the first one waits for a holder. -/
theorem exists_holder (disciplined : s.Disciplined allows) {tasks : Set Nat}
    (closed : ∀ task ∈ tasks, ∃ other ∈ tasks, s.Waits task other) {claim : LockClaim ι}
    (member : claim ∈ s.queue) (among : claim.task ∈ tasks) :
    ∃ waiter ∈ s.queue, waiter.task ∈ tasks ∧ waiter.lock = claim.lock ∧
      ∃ holder ∈ s.held, holder.task ∈ tasks ∧ holder.lock = claim.lock ∧
        holder.mode.Conflicts waiter.mode := by
  classical
  let waits (other : LockClaim ι) : Bool := decide (other.task ∈ tasks ∧ other.lock = claim.lock)
  have found : (s.queue.find? waits).isSome :=
    List.find?_isSome.mpr ⟨claim, member, decide_eq_true ⟨among, rfl⟩⟩
  obtain ⟨first, isFirst⟩ := Option.isSome_iff_exists.mp found
  obtain ⟨isWaiting, before, after, queue, none⟩ := List.find?_eq_some_iff_append.mp isFirst
  obtain ⟨firstAmong, sameLock⟩ := of_decide_eq_true isWaiting
  have isQueued : first ∈ s.queue := by simp [queue]
  obtain ⟨other, otherAmong, waiting, isWaiter, sameTask, reason⟩ := closed _ firstAmong
  obtain rfl := disciplined.unique isWaiter isQueued sameTask
  refine ⟨waiting, isQueued, firstAmong, sameLock, ?_⟩
  rcases reason with ⟨holder, isHeld, rfl, holds, conflicts⟩ |
    ⟨writer, rfl, writerLock, -, isAhead⟩
  · exact ⟨holder, isHeld, otherAmong, holds.trans sameLock, conflicts⟩
  · -- A writer ahead of the first one would have been found before it.
    have nodup := disciplined.queue_nodup
    rw [queue] at isAhead nodup
    have notFound := none writer (mem_before nodup isAhead)
    simp [waits, otherAmong, writerLock, sameLock] at notFound

/-- Then that holder waits as well, for a lock that it is allowed to take. -/
theorem exists_waiting_holder (disciplined : s.Disciplined allows) {tasks : Set Nat}
    (closed : ∀ task ∈ tasks, ∃ other ∈ tasks, s.Waits task other) {claim : LockClaim ι}
    (member : claim ∈ s.queue) (among : claim.task ∈ tasks) :
    ∃ mode, ∃ wanted ∈ s.queue, wanted.task ∈ tasks ∧ (claim.lock, mode) ∈ s.heldBy wanted.task ∧
      allows (s.heldBy wanted.task) wanted.lock wanted.mode := by
  obtain ⟨-, -, -, -, ⟨task, lock, mode⟩, isHeld, held, same, -⟩ :=
    exists_holder disciplined closed member among
  obtain rfl : lock = claim.lock := same
  obtain ⟨-, -, wanted, isWanted, rfl, -⟩ := closed task held
  exact ⟨mode, wanted, isWanted, held, mem_heldBy.mpr isHeld, disciplined.allowed isWanted⟩

end Preserved

end Steps

end Locks

end Fs0.Lib
