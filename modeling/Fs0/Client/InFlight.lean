import Mathlib.Algebra.BigOperators.Group.List.Basic
import Fs0.Client.SharedResults

/-!
Contract: what the map, the permits and the callbacks of the scheduler add up to.

Owns:
- that a slot is in the map, alone for its hash, until its callbacks have run;
- that the permits that are left and those that tasks hold are all permits;
- that a callback is waiting to be added, is held by one slot, or was invoked, and is in
  only one of these places.

Does not own: runs, and what becomes of a call that is dropped.
-/

set_option autoImplicit false

namespace Fs0

open Lib

variable {κ Req Res : Type}

/-- The task is not done with its callbacks. -/
def OwnerTask.Listed : OwnerTask Res → Prop
  | .unspawned => True
  | .running => True
  | .completing _ _ => True
  | .removed => False
  | .finished => False

/-- How many permits a task holds. -/
def OwnerTask.held : OwnerTask Res → Nat
  | .unspawned => 0
  | .running => 1
  | .completing _ _ => 1
  | .removed => 1
  | .finished => 0

/-- How often a callback was invoked or is held by a slot, where its call stands. -/
def CallPhase.Due : CallPhase Res → Nat → Prop
  | .adding, times => times = 0
  | .invoking _, times => times = 0
  | .acquiring, times => times = 1
  | .returned, times => times = 1
  | .dropped, times => times ≤ 1

theorem CallPhase.Due.le_one {phase : CallPhase Res} {times : Nat} (due : phase.Due times) :
    times ≤ 1 := by
  cases phase <;> unfold CallPhase.Due at due <;> omega

namespace HashRequestScheduler

/-- How many permits the tasks hold. -/
def held (s : HashRequestScheduler κ Req Res) : Nat :=
  (s.slots.rows.map fun slot => slot.task.held).sum

/-- How often the callback of a call was invoked. -/
def timesInvoked (s : HashRequestScheduler κ Req Res) (callId : Nat) : Nat :=
  (s.invoked.map Invocation.callId).count callId

/-- How often the slots hold the callback of a call. -/
def timesAwaited (s : HashRequestScheduler κ Req Res) (callId : Nat) : Nat :=
  (s.slots.rows.map fun slot => slot.awaited.count callId).sum

section Sums

variable {s : HashRequestScheduler κ Req Res} {old slot : RequestSlot κ Req Res}

theorem held_setSlot (isSlot : s.slots.find? old.slotId = some old)
    (same : slot.slotId = old.slotId) :
    (s.setSlot slot).held + old.task.held = s.held + slot.task.held :=
  SeqTable.sum_replace (fun slot => slot.task.held) (Table.mem_of_find? isSlot).1 same

theorem timesAwaited_setSlot (isSlot : s.slots.find? old.slotId = some old)
    (same : slot.slotId = old.slotId) (callId : Nat) :
    (s.setSlot slot).timesAwaited callId + old.awaited.count callId =
      s.timesAwaited callId + slot.awaited.count callId :=
  SeqTable.sum_replace (fun slot => slot.awaited.count callId) (Table.mem_of_find? isSlot).1 same

end Sums

variable [DecidableEq κ] {s s' : HashRequestScheduler κ Req Res} {e : SchedulerEvent κ Req Res}

theorem held_addSlot (hashId : κ) (request : Req) : (s.addSlot hashId request).held = s.held := by
  unfold held addSlot
  rw [SeqTable.rows_push, List.map_append, List.sum_append]
  rfl

theorem timesAwaited_addSlot (hashId : κ) (request : Req) (callId : Nat) :
    (s.addSlot hashId request).timesAwaited callId = s.timesAwaited callId := by
  unfold timesAwaited addSlot
  rw [SeqTable.rows_push, List.map_append, List.sum_append]
  rfl

/-! ## The map -/

/-- The map holds the slots whose tasks are not done, one for a hash. -/
structure Published (s : HashRequestScheduler κ Req Res) : Prop where
  entry_slot : ∀ entry ∈ s.inFlight.rows, ∃ slot, s.slots.find? entry.slotId = some slot ∧
    slot.hashId = entry.hashId ∧ slot.task.Listed
  slot_entry : ∀ slot ∈ s.slots.rows, slot.task.Listed →
    s.inFlight.find? slot.hashId = some ⟨slot.hashId, slot.slotId⟩
  newest : ∀ slot ∈ s.slots.rows, slot.task.Listed → ∀ other ∈ s.slots.rows,
    other.hashId = slot.hashId → other.slotId ≤ slot.slotId

/-- Only the slots and the map matter. -/
theorem Published.congr (published : Published s) (slots : s'.slots = s.slots)
    (inFlight : s'.inFlight = s.inFlight) : Published s' := by
  refine ⟨?_, ?_, ?_⟩
  · rw [slots, inFlight]
    exact published.entry_slot
  · rw [slots, inFlight]
    exact published.slot_entry
  · rw [slots]
    exact published.newest

theorem new_published (concurrency : Nat) :
    Published (new concurrency : HashRequestScheduler κ Req Res) := by
  constructor <;> intro x member <;> cases member

/-- The entry of the map for a hash leads to a slot for it. -/
theorem Published.find_slot (published : Published s) {hashId : κ} {entry : InFlight κ}
    (isEntry : s.inFlight.find? hashId = some entry) :
    ∃ slot, s.slots.find? entry.slotId = some slot ∧ slot.hashId = hashId ∧ slot.task.Listed := by
  obtain ⟨entryMem, rfl⟩ := Table.mem_of_find? isEntry
  exact published.entry_slot entry entryMem

theorem Published.setSlot (published : Published s) {old slot : RequestSlot κ Req Res}
    (isSlot : s.slots.find? old.slotId = some old) (slotId : slot.slotId = old.slotId)
    (hashId : slot.hashId = old.hashId) (listed : slot.task.Listed ↔ old.task.Listed) :
    Published (s.setSlot slot) := by
  have oldMem := (Table.mem_of_find? isSlot).1
  constructor
  case entry_slot =>
      intro entry member
      obtain ⟨found, isFound, sameHash, isListed⟩ := published.entry_slot entry member
      by_cases same : slot.slotId = entry.slotId
      · have isOld : old = found := by
          rw [← slotId, same] at isSlot
          exact Option.some.inj (isSlot.symm.trans isFound)
        subst isOld
        exact ⟨slot, SeqTable.find?_replace_self isFound same, hashId.trans sameHash,
          listed.mpr isListed⟩
      · exact ⟨found, SeqTable.find?_replace_of_ne isFound same, sameHash, isListed⟩
  case slot_entry =>
      intro other member isListed
      rcases SeqTable.mem_replace member with rfl | ⟨earlier, -⟩
      · rw [hashId, slotId]
        exact published.slot_entry old oldMem (listed.mp isListed)
      · exact published.slot_entry other earlier isListed
  case newest =>
      intro first firstMem isListed second secondMem sameHash
      rcases SeqTable.mem_replace firstMem with rfl | ⟨firstOld, -⟩ <;>
        rcases SeqTable.mem_replace secondMem with rfl | ⟨secondOld, -⟩
      · exact Nat.le_refl _
      · rw [slotId]
        exact published.newest old oldMem (listed.mp isListed) second secondOld
          (sameHash.trans hashId)
      · rw [slotId]
        exact published.newest first firstOld isListed old oldMem (hashId.symm.trans sameHash)
      · exact published.newest first firstOld isListed second secondOld sameHash

/-- A slot for a hash that is not in the map. -/
theorem Published.addSlot (published : Published s) {hashId : κ} (request : Req)
    (noEntry : s.inFlight.find? hashId = none) : Published (s.addSlot hashId request) := by
  have noListed : ∀ slot ∈ s.slots.rows, slot.task.Listed → slot.hashId ≠ hashId := by
    intro slot member isListed same
    have isEntry := published.slot_entry slot member isListed
    rw [same, noEntry] at isEntry
    cases isEntry
  constructor
  case entry_slot =>
      intro entry member
      rcases Table.mem_put.mp member with rfl | ⟨old, -⟩
      · exact ⟨_, SeqTable.find?_push, rfl, trivial⟩
      · obtain ⟨slot, isSlot, sameHash, isListed⟩ := published.entry_slot entry old
        have atMost := SeqTable.find?_le_seq isSlot
        exact ⟨slot, (SeqTable.find?_push_of_ne (fun _ => rfl) (by omega)).trans isSlot,
          sameHash, isListed⟩
  case slot_entry =>
      intro slot member isListed
      rcases mem_appended.mp member with old | rfl
      · exact (Table.find?_put_of_ne (noListed slot old isListed)).trans
          (published.slot_entry slot old isListed)
      · exact Table.find?_put_self
  case newest =>
      intro first firstMem isListed second secondMem sameHash
      rcases mem_appended.mp firstMem with firstOld | rfl <;>
        rcases mem_appended.mp secondMem with secondOld | rfl
      · exact published.newest first firstOld isListed second secondOld sameHash
      · exact absurd sameHash.symm (noListed first firstOld isListed)
      · exact Nat.le_succ_of_le (s.slots.le_seq second secondOld)
      · exact Nat.le_refl _

/-- The slot leaves the map. -/
theorem Published.remove (published : Published s) {slot : RequestSlot κ Req Res}
    (isSlot : s.slots.find? slot.slotId = some slot) (isListed : slot.task.Listed) :
    Published { s.setSlot { slot with task := .removed } with
      inFlight := s.inFlight.delete fun entry => entry.hashId == slot.hashId } := by
  have slotMem := (Table.mem_of_find? isSlot).1
  have itsEntry := published.slot_entry slot slotMem isListed
  constructor
  case entry_slot =>
      intro entry member
      obtain ⟨kept, otherHash⟩ := Table.mem_delete.mp member
      obtain ⟨found, isFound, sameHash, foundListed⟩ := published.entry_slot entry kept
      refine ⟨found, SeqTable.find?_replace_of_ne isFound fun same => ?_, sameHash, foundListed⟩
      obtain rfl := Option.some.inj ((same ▸ isSlot).symm.trans isFound)
      rw [sameHash, beq_self_eq_true] at otherHash
      cases otherHash
  case slot_entry =>
      intro other member otherListed
      rcases SeqTable.mem_replace member with rfl | ⟨earlier, otherId⟩
      · exact otherListed.elim
      · have isEntry := published.slot_entry other earlier otherListed
        have otherHash : other.hashId ≠ slot.hashId := by
          intro same
          rw [same, itsEntry] at isEntry
          exact otherId (InFlight.mk.inj (Option.some.inj isEntry)).2.symm
        rw [← isEntry]
        exact Table.find?_delete_of_false fun entry keyed => by
          rw [keyed]
          exact beq_false_of_ne otherHash
  case newest =>
      intro first firstMem firstListed second secondMem sameHash
      rcases SeqTable.mem_replace firstMem with rfl | ⟨firstOld, -⟩
      · exact firstListed.elim
      · rcases SeqTable.mem_replace secondMem with rfl | ⟨secondOld, -⟩
        · exact published.newest first firstOld firstListed slot slotMem sameHash
        · exact published.newest first firstOld firstListed second secondOld sameHash

theorem Published.acts (published : Published s) (acts : Acts s e s')
    (spawns : ∀ slot ∈ s.slots.rows, ∀ call ∈ s.calls.rows, call.slotId = slot.slotId →
      call.phase = .acquiring → slot.task = .unspawned) : Published s' := by
  cases acts with
  | join => exact published.congr rfl rfl
  | create noEntry => exact (published.addSlot _ noEntry).congr rfl rfl
  | @register call slot _ isSlot =>
      have kept : Published
          (s.setSlot { slot with callbacks := slot.callbacks ++ [call.callId] }) :=
        published.setSlot isSlot rfl rfl Iff.rfl
      exact kept.congr rfl rfl
  | find => exact published.congr rfl rfl
  | invokeOwn => exact published.congr rfl rfl
  | @acquire call slot isCall isSlot inSlot acquiring =>
      have unspawned := spawns _ (Table.mem_of_find? isSlot).1 _ (Table.mem_of_find? isCall).1
        inSlot acquiring
      have kept : Published (s.setSlot { slot with task := .running }) :=
        published.setSlot isSlot rfl rfl (iff_of_true trivial (by rw [unspawned]; trivial))
      exact kept.congr rfl rfl
  | complete isSlot running =>
      exact published.setSlot isSlot rfl rfl (iff_of_true trivial (by rw [running]; trivial))
  | @invoke slot callId callbacks result isSlot completing =>
      have kept : Published (s.setSlot { slot with task := .completing callbacks result }) :=
        published.setSlot isSlot rfl rfl (iff_of_true trivial (by rw [completing]; trivial))
      exact kept.congr rfl rfl
  | remove isSlot completing =>
      exact published.remove isSlot (by rw [completing]; trivial)
  | @release slot isSlot removed =>
      have kept : Published (s.setSlot { slot with task := .finished }) :=
        published.setSlot isSlot rfl rfl (iff_of_false id (by rw [removed]; exact id))
      exact kept.congr rfl rfl
  | drop => exact published.congr rfl rfl

/-! ## The slots -/

/-- A slot has a result once its task has stored one, and holds no callbacks from then on. -/
structure Settled (slot : RequestSlot κ Req Res) : Prop where
  answered : slot.result = none → slot.task = .unspawned ∨ slot.task = .running
  emptied : slot.result ≠ none → slot.callbacks = []

omit [DecidableEq κ] in
theorem Settled.withTask {slot : RequestSlot κ Req Res} (settled : Settled slot)
    (task : OwnerTask Res) (spawned : slot.task ≠ .unspawned) (stopped : slot.task ≠ .running) :
    Settled { slot with task := task } := by
  refine ⟨fun unanswered => ?_, settled.emptied⟩
  rcases settled.answered unanswered with unspawned | running
  · exact absurd unspawned spawned
  · exact absurd running stopped

theorem settled_acts (settled : ∀ slot ∈ s.slots.rows, Settled slot) (acts : Acts s e s') :
    ∀ slot ∈ s'.slots.rows, Settled slot := by
  intro other member
  cases acts with
  | join => exact settled other member
  | create =>
      rcases mem_appended.mp member with old | rfl
      · exact settled other old
      · exact ⟨fun _ => .inl rfl, fun isSome => absurd rfl isSome⟩
  | register _ isSlot _ _ unanswered =>
      rcases SeqTable.mem_replace member with rfl | ⟨old, -⟩
      · exact ⟨(settled _ (Table.mem_of_find? isSlot).1).answered,
          fun isSome => absurd unanswered isSome⟩
      · exact settled other old
  | find => exact settled other member
  | invokeOwn => exact settled other member
  | acquire _ isSlot =>
      rcases SeqTable.mem_replace member with rfl | ⟨old, -⟩
      · exact ⟨fun _ => .inr rfl, (settled _ (Table.mem_of_find? isSlot).1).emptied⟩
      · exact settled other old
  | complete =>
      rcases SeqTable.mem_replace member with rfl | ⟨old, -⟩
      · exact ⟨nofun, fun _ => rfl⟩
      · exact settled other old
  | invoke isSlot completing =>
      rcases SeqTable.mem_replace member with rfl | ⟨old, -⟩
      · exact (settled _ (Table.mem_of_find? isSlot).1).withTask _ (by rw [completing]; nofun)
          (by rw [completing]; nofun)
      · exact settled other old
  | remove isSlot completing =>
      rcases SeqTable.mem_replace member with rfl | ⟨old, -⟩
      · exact (settled _ (Table.mem_of_find? isSlot).1).withTask _ (by rw [completing]; nofun)
          (by rw [completing]; nofun)
      · exact settled other old
  | release isSlot removed =>
      rcases SeqTable.mem_replace member with rfl | ⟨old, -⟩
      · exact (settled _ (Table.mem_of_find? isSlot).1).withTask _ (by rw [removed]; nofun)
          (by rw [removed]; nofun)
      · exact settled other old
  | drop => exact settled other member

/-- The call that has created a slot and has not spawned its task. -/
def OwnedBy (s : HashRequestScheduler κ Req Res) (slot : RequestSlot κ Req Res) : Prop :=
  ∃ call ∈ s.calls.rows, call.slotId = slot.slotId ∧ call.isOwner = true ∧
    call.phase ≠ .returned

omit [DecidableEq κ] in
/-- A call that goes on and does not return still owns its slot. -/
theorem OwnedBy.setCall {slot : RequestSlot κ Req Res} (owned : s.OwnedBy slot)
    {old call : EnqueueCall Req Res} (isCall : s.calls.find? old.callId = some old)
    (kept : CallKept old call) (waits : call.isOwner = true → call.phase ≠ .returned) :
    (s.setCall call).OwnedBy slot := by
  obtain ⟨owner, member, inSlot, isOwner, unreturned⟩ := owned
  by_cases same : owner.callId = call.callId
  · obtain rfl := Table.eq_of_key_eq member (Table.mem_of_find? isCall).1
      (same.trans kept.callId)
    exact ⟨call, SeqTable.mem_replace_self member same, kept.slotId.trans inSlot,
      kept.isOwner.trans isOwner, waits (kept.isOwner.trans isOwner)⟩
  · exact ⟨owner, SeqTable.mem_replace_of_ne member same, inSlot, isOwner, unreturned⟩

theorem afterCallback_waits {isOwner : Bool} (owns : isOwner = true) :
    (afterCallback isOwner : CallPhase Res) ≠ .returned := by
  rw [owns]
  nofun

theorem owned_acts (owned : ∀ slot ∈ s.slots.rows, slot.task = .unspawned → s.OwnedBy slot)
    (acts : Acts s e s') :
    ∀ slot ∈ s'.slots.rows, slot.task = .unspawned → s'.OwnedBy slot := by
  intro other member unspawned
  cases acts with
  | join =>
      obtain ⟨owner, isRow, rest⟩ := owned other member unspawned
      exact ⟨owner, mem_appended.mpr (.inl isRow), rest⟩
  | create =>
      rcases mem_appended.mp member with old | rfl
      · obtain ⟨owner, isRow, rest⟩ := owned other old unspawned
        exact ⟨owner, mem_appended.mpr (.inl isRow), rest⟩
      · exact ⟨_, mem_appended.mpr (.inr rfl), rfl, rfl, nofun⟩
  | @register call slot isCall isSlot =>
      have before : s.OwnedBy other := by
        rcases SeqTable.mem_replace member with rfl | ⟨old, -⟩
        · exact owned slot (Table.mem_of_find? isSlot).1 unspawned
        · exact owned other old unspawned
      exact before.setCall isCall ⟨rfl, rfl, rfl, rfl⟩ afterCallback_waits
  | find isCall =>
      exact (owned other member unspawned).setCall isCall ⟨rfl, rfl, rfl, rfl⟩ nofun
  | invokeOwn isCall =>
      exact (owned other member unspawned).setCall isCall ⟨rfl, rfl, rfl, rfl⟩
        afterCallback_waits
  | @acquire call slot isCall isSlot inSlot =>
      rcases SeqTable.mem_replace member with rfl | ⟨old, otherSlot⟩
      · cases unspawned
      · obtain ⟨owner, isRow, ofSlot, isOwner, unreturned⟩ := owned other old unspawned
        have notCall : owner.callId ≠ call.callId := by
          intro same
          obtain rfl := Table.eq_of_key_eq isRow (Table.mem_of_find? isCall).1 same
          exact otherSlot (ofSlot.symm.trans inSlot)
        exact ⟨owner, SeqTable.mem_replace_of_ne isRow notCall, ofSlot, isOwner, unreturned⟩
  | complete =>
      rcases SeqTable.mem_replace member with rfl | ⟨old, -⟩
      · cases unspawned
      · exact owned other old unspawned
  | invoke =>
      rcases SeqTable.mem_replace member with rfl | ⟨old, -⟩
      · cases unspawned
      · exact owned other old unspawned
  | remove =>
      rcases SeqTable.mem_replace member with rfl | ⟨old, -⟩
      · cases unspawned
      · exact owned other old unspawned
  | release =>
      rcases SeqTable.mem_replace member with rfl | ⟨old, -⟩
      · cases unspawned
      · exact owned other old unspawned
  | drop isCall =>
      exact (owned other member unspawned).setCall isCall ⟨rfl, rfl, rfl, rfl⟩ nofun

/-! ## Permits and callbacks -/

theorem permits_acts (acts : Acts s e s')
    (spawns : ∀ slot ∈ s.slots.rows, ∀ call ∈ s.calls.rows, call.slotId = slot.slotId →
      call.phase = .acquiring → slot.task = .unspawned) :
    s'.permits + s'.held = s.permits + s.held := by
  cases acts with
  | join => rfl
  | create => exact congrArg (s.permits + ·) (held_addSlot _ _)
  | @register call slot _ isSlot =>
      have sums : (s.setSlot { slot with callbacks := slot.callbacks ++ [call.callId] }).held +
          slot.task.held = s.held + slot.task.held := held_setSlot isSlot rfl
      exact congrArg (s.permits + ·) (Nat.add_right_cancel sums)
  | find => rfl
  | invokeOwn => rfl
  | @acquire call slot isCall isSlot inSlot acquiring available =>
      have unspawned := spawns _ (Table.mem_of_find? isSlot).1 _ (Table.mem_of_find? isCall).1
        inSlot acquiring
      have sums : (s.setSlot { slot with task := .running }).held + slot.task.held =
          s.held + 1 := held_setSlot isSlot rfl
      have before : slot.task.held = 0 := by rw [unspawned]; rfl
      have after : s.permits - 1 + (s.setSlot { slot with task := .running }).held =
        s.permits + s.held := by omega
      exact after
  | @complete slot result isSlot running =>
      have sums : (s.setSlot { slot with
          result := some result
          callbacks := []
          task := .completing slot.callbacks result }).held + slot.task.held = s.held + 1 :=
        held_setSlot isSlot rfl
      have before : slot.task.held = 1 := by rw [running]; rfl
      exact congrArg (s.permits + ·) (by omega)
  | @invoke slot callId callbacks result isSlot completing =>
      have sums : (s.setSlot { slot with task := .completing callbacks result }).held +
          slot.task.held = s.held + 1 := held_setSlot isSlot rfl
      have before : slot.task.held = 1 := by rw [completing]; rfl
      have same : (s.setSlot { slot with task := .completing callbacks result }).held = s.held := by
        omega
      exact congrArg (s.permits + ·) same
  | @remove slot result isSlot completing =>
      have sums : (s.setSlot { slot with task := .removed }).held + slot.task.held =
          s.held + 1 := held_setSlot isSlot rfl
      have before : slot.task.held = 1 := by rw [completing]; rfl
      have same : (s.setSlot { slot with task := .removed }).held = s.held := by omega
      exact congrArg (s.permits + ·) same
  | @release slot isSlot removed =>
      have sums : (s.setSlot { slot with task := .finished }).held + slot.task.held =
          s.held + 0 := held_setSlot isSlot rfl
      have before : slot.task.held = 1 := by rw [removed]; rfl
      have after : s.permits + 1 + (s.setSlot { slot with task := .finished }).held =
        s.permits + s.held := by omega
      exact after
  | drop => rfl

/-- How often a callback was invoked or is held by a slot. -/
def tally (s : HashRequestScheduler κ Req Res) (callId : Nat) : Nat :=
  s.timesInvoked callId + s.timesAwaited callId

/-- Each callback is where the phase of its call says. -/
def AllDue (s : HashRequestScheduler κ Req Res) : Prop :=
  ∀ call ∈ s.calls.rows, call.phase.Due (s.tally call.callId)

omit [DecidableEq κ] in
theorem AllDue.of_tally (allDue : AllDue s) (calls : s'.calls = s.calls)
    (same : ∀ callId, s'.tally callId = s.tally callId) : AllDue s' := by
  intro call member
  rw [same]
  rw [calls] at member
  exact allDue call member

omit [DecidableEq κ] in
/-- A call goes on, and only its own callback moves. -/
theorem AllDue.of_replaced (allDue : AllDue s) {call : EnqueueCall Req Res}
    (calls : s'.calls = s.calls.replace call) (due : call.phase.Due (s'.tally call.callId))
    (others : ∀ callId, callId ≠ call.callId → s'.tally callId = s.tally callId) :
    AllDue s' := by
  intro other member
  rw [calls] at member
  rcases SeqTable.mem_replace member with rfl | ⟨old, isOther⟩
  · exact due
  · rw [others other.callId isOther]
    exact allDue other old

omit [DecidableEq κ] in
/-- No callback belongs to a call that has not begun. -/
theorem Wired.tally_eq_zero {Same : Req → Req → Prop} (wired : Wired Same s) {callId : Nat}
    (fresh : ∀ call, s.calls.find? callId ≠ some call) : s.tally callId = 0 := by
  have noInvocation : s.timesInvoked callId = 0 := by
    apply List.count_eq_zero.mpr
    intro member
    obtain ⟨invocation, among, rfl⟩ := List.mem_map.mp member
    obtain ⟨call, -, isCall, -⟩ := wired.invoked invocation among
    exact fresh call isCall
  have notAwaited : s.timesAwaited callId = 0 := by
    apply List.sum_eq_zero
    intro times among
    obtain ⟨slot, isSlot, rfl⟩ := List.mem_map.mp among
    apply List.count_eq_zero.mpr
    intro awaited
    obtain ⟨call, isCall, -⟩ := wired.awaited slot isSlot callId awaited
    exact fresh call isCall
  unfold tally
  omega

omit [DecidableEq κ] in
theorem AllDue.addCall (allDue : AllDue s) {Same : Req → Req → Prop} (wired : Wired Same s)
    (request : Req) (slotId : Nat) (isOwner : Bool) :
    AllDue (s.addCall request slotId isOwner) := by
  intro call member
  rcases mem_appended.mp member with old | rfl
  · exact allDue call old
  · apply wired.tally_eq_zero
    intro call isCall
    have atMost := SeqTable.find?_le_seq isCall
    dsimp only at atMost
    omega

omit [DecidableEq κ] in
theorem timesInvoked_cons (s : HashRequestScheduler κ Req Res) (callId other : Nat)
    (result : Fs0Result Res) :
    timesInvoked { s with invoked := ⟨callId, result⟩ :: s.invoked } other =
      s.timesInvoked other + if callId = other then 1 else 0 := by
  unfold timesInvoked
  rw [List.map_cons, List.count_cons]
  simp only [beq_iff_eq]

theorem afterCallback_due (isOwner : Bool) : (afterCallback isOwner : CallPhase Res).Due 1 := by
  cases isOwner <;> rfl

omit [DecidableEq κ] in
/-- A slot that holds the same callbacks as before. -/
theorem tally_setSlot {old slot : RequestSlot κ Req Res}
    (isSlot : s.slots.find? old.slotId = some old) (same : slot.slotId = old.slotId)
    (awaited : slot.awaited = old.awaited) (callId : Nat) :
    (s.setSlot slot).tally callId = s.tally callId := by
  have sums := timesAwaited_setSlot isSlot same callId
  rw [awaited] at sums
  exact congrArg (s.timesInvoked callId + ·) (Nat.add_right_cancel sums)

omit [DecidableEq κ] in
/-- A slot that is given a callback. -/
theorem tally_register {call : EnqueueCall Req Res} {slot : RequestSlot κ Req Res}
    (isSlot : s.slots.find? slot.slotId = some slot) (callId : Nat) :
    (s.setSlot { slot with callbacks := slot.callbacks ++ [call.callId] }).tally callId =
      s.tally callId + if call.callId = callId then 1 else 0 := by
  have sums : (s.setSlot { slot with callbacks := slot.callbacks ++ [call.callId] }).timesAwaited
      callId + slot.awaited.count callId = s.timesAwaited callId +
        (RequestSlot.awaited { slot with callbacks := slot.callbacks ++ [call.callId] }).count
          callId := timesAwaited_setSlot isSlot (by rfl) callId
  rw [awaited_register, List.count_append, List.count_singleton] at sums
  simp only [beq_iff_eq] at sums
  have invoked : (s.setSlot { slot with
      callbacks := slot.callbacks ++ [call.callId] }).timesInvoked callId =
        s.timesInvoked callId := rfl
  unfold tally
  omega

omit [DecidableEq κ] in
/-- A slot that gives a callback its result. -/
theorem tally_invoke {slot : RequestSlot κ Req Res} {callbacks : List Nat} {first : Nat}
    {result : Fs0Result Res} (isSlot : s.slots.find? slot.slotId = some slot)
    (completing : slot.task = .completing (first :: callbacks) result) (callId : Nat) :
    tally { s.setSlot { slot with task := .completing callbacks result } with
      invoked := ⟨first, result⟩ :: s.invoked } callId = s.tally callId := by
  have sums : (s.setSlot { slot with task := .completing callbacks result }).timesAwaited callId +
      slot.awaited.count callId = s.timesAwaited callId +
        (callbacks ++ slot.callbacks).count callId := timesAwaited_setSlot isSlot (by rfl) callId
  have before : slot.awaited = first :: (callbacks ++ slot.callbacks) := by
    rw [RequestSlot.awaited, completing]
    rfl
  rw [before, List.count_cons] at sums
  simp only [beq_iff_eq] at sums
  have invoked := timesInvoked_cons
    (s.setSlot { slot with task := .completing callbacks result }) first callId result
  have others : (s.setSlot { slot with task := .completing callbacks result }).timesInvoked callId =
    s.timesInvoked callId := rfl
  have awaited : timesAwaited { s.setSlot { slot with task := .completing callbacks result } with
      invoked := ⟨first, result⟩ :: s.invoked } callId =
        (s.setSlot { slot with task := .completing callbacks result }).timesAwaited callId := rfl
  unfold tally
  rw [awaited]
  change timesInvoked { s.setSlot { slot with task := .completing callbacks result } with
    invoked := ⟨first, result⟩ :: s.invoked } callId = _ at invoked
  omega

theorem allDue_acts {Same : Req → Req → Prop} (wired : Wired Same s) (allDue : AllDue s)
    (spawns : ∀ slot ∈ s.slots.rows, ∀ call ∈ s.calls.rows, call.slotId = slot.slotId →
      call.phase = .acquiring → slot.task = .unspawned)
    (acts : Acts s e s') : AllDue s' := by
  cases acts with
  | @join hashId request entry => exact allDue.addCall wired request entry.slotId false
  | @create hashId request =>
      have added : AllDue (s.addSlot hashId request) :=
        allDue.of_tally rfl fun callId =>
          congrArg (s.timesInvoked callId + ·) (timesAwaited_addSlot hashId request callId)
      exact added.addCall (wired.addSlot hashId request) request (s.slots.seq + 1) true
  | @register call slot isCall isSlot inSlot adding =>
      refine allDue.of_replaced rfl ?_ ?_
      · have before := allDue call (Table.mem_of_find? isCall).1
        rw [adding] at before
        have after : (s.setSlot { slot with
            callbacks := slot.callbacks ++ [call.callId] }).tally call.callId = 1 := by
          rw [tally_register isSlot, before, if_pos rfl]
        exact after ▸ afterCallback_due call.isOwner
      · intro callId other
        exact (tally_register isSlot callId).trans (by rw [if_neg (Ne.symm other)]; rfl)
  | find isCall _ _ adding =>
      refine allDue.of_replaced rfl ?_ fun _ _ => rfl
      have before := allDue _ (Table.mem_of_find? isCall).1
      rw [adding] at before
      exact before
  | @invokeOwn call result isCall invoking =>
      have before := allDue call (Table.mem_of_find? isCall).1
      rw [invoking] at before
      have counts := timesInvoked_cons s call.callId
      refine allDue.of_replaced rfl ?_ ?_
      · have after : tally { s with invoked := ⟨call.callId, result⟩ :: s.invoked } call.callId =
            1 := by
          unfold tally
          rw [timesInvoked_cons, if_pos rfl, Nat.add_right_comm]
          exact congrArg (· + 1) before
        exact after ▸ afterCallback_due call.isOwner
      · intro callId other
        have after : tally { s with invoked := ⟨call.callId, result⟩ :: s.invoked } callId =
            s.tally callId := by
          unfold tally
          rw [timesInvoked_cons, if_neg (Ne.symm other)]
          rfl
        exact after
  | @acquire call slot isCall isSlot inSlot acquiring =>
      have callMem := (Table.mem_of_find? isCall).1
      have unspawned := spawns slot (Table.mem_of_find? isSlot).1 call callMem inSlot acquiring
      have same : ∀ callId, (s.setSlot { slot with task := .running }).tally callId =
          s.tally callId :=
        tally_setSlot isSlot rfl (by simp only [RequestSlot.awaited, unspawned])
      have before := allDue call callMem
      rw [acquiring] at before
      refine allDue.of_replaced rfl ?_ fun callId _ => same callId
      exact (same call.callId).trans before
  | @complete slot result isSlot running =>
      exact allDue.of_tally rfl (tally_setSlot isSlot rfl (by
        simp only [RequestSlot.awaited, running, List.append_nil]))
  | @invoke slot callId callbacks result isSlot completing =>
      exact allDue.of_tally rfl (tally_invoke isSlot completing)
  | @remove slot result isSlot completing =>
      have same : ∀ callId, (s.setSlot { slot with task := .removed }).tally callId =
          s.tally callId :=
        tally_setSlot isSlot rfl (by simp only [RequestSlot.awaited, completing, List.nil_append])
      exact allDue.of_tally rfl same
  | @release slot isSlot removed =>
      have same : ∀ callId, (s.setSlot { slot with task := .finished }).tally callId =
          s.tally callId :=
        tally_setSlot isSlot rfl (by simp only [RequestSlot.awaited, removed])
      exact allDue.of_tally rfl same
  | @drop call isCall waiting =>
      refine allDue.of_replaced rfl ?_ fun _ _ => rfl
      exact (allDue call (Table.mem_of_find? isCall).1).le_one

/-! ## All of it -/

/-- What holds of a scheduler at any time. -/
structure Scheduled (concurrency : Nat) (s : HashRequestScheduler κ Req Res) : Prop where
  wired : Wired (fun _ _ => True) s
  published : Published s
  settled : ∀ slot ∈ s.slots.rows, Settled slot
  owned : ∀ slot ∈ s.slots.rows, slot.task = .unspawned → s.OwnedBy slot
  permits : s.permits + s.held = max concurrency 1
  allDue : AllDue s

omit [DecidableEq κ] in
/-- The owner of a slot that waits for a permit has not spawned the task. -/
theorem Wired.spawns {Same : Req → Req → Prop} (wired : Wired Same s) :
    ∀ slot ∈ s.slots.rows, ∀ call ∈ s.calls.rows, call.slotId = slot.slotId →
      call.phase = .acquiring → slot.task = .unspawned := by
  intro slot slotMem call callMem inSlot acquiring
  have pending : call.Pending :=
    ⟨wired.acquiring call callMem acquiring, by rw [acquiring]; nofun, by rw [acquiring]; nofun⟩
  apply wired.unspawned call callMem pending slot
  rw [inSlot]
  exact Table.find?_isSome_of_mem slotMem

theorem new_scheduled (concurrency : Nat) :
    Scheduled concurrency (new concurrency : HashRequestScheduler κ Req Res) := by
  refine ⟨new_wired concurrency, new_published concurrency, ?_, ?_, rfl, ?_⟩ <;>
    intro x member <;> cases member

theorem scheduled_step {concurrency : Nat} (scheduled : Scheduled concurrency s)
    (taken : s.step e = some s') : Scheduled concurrency s' where
  wired :=
    have joins : s.Joins (fun _ _ => True) e := by
      cases e <;> first | trivial | exact fun _ _ _ _ => trivial
    wired_step scheduled.wired joins (fun _ => trivial) taken
  published := scheduled.published.acts (step_acts taken) scheduled.wired.spawns
  settled := settled_acts scheduled.settled (step_acts taken)
  owned := owned_acts scheduled.owned (step_acts taken)
  permits := (permits_acts (step_acts taken) scheduled.wired.spawns).trans scheduled.permits
  allDue := allDue_acts scheduled.wired scheduled.allDue scheduled.wired.spawns (step_acts taken)

theorem reachable_scheduled {concurrency : Nat}
    (reachable : (hashRequestScheduler κ Req Res concurrency).Reachable s) :
    Scheduled concurrency s := by
  apply reachable.invariant (Scheduled concurrency)
  · rintro _ rfl
    exact new_scheduled concurrency
  · intro s e s' scheduled taken
    exact scheduled_step scheduled taken

end HashRequestScheduler

end Fs0
