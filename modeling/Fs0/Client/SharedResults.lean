import Fs0.Client.RequestScheduler

/-!
Contract: whose result a callback of the scheduler is given.

Owns:
- that a callback is given the result of the slot of its call;
- that the request a slot was created for is related to the request of each of its
  calls, if every call that joins a slot sees to it.

Does not own: what the results are, and whether every callback is invoked.
-/

set_option autoImplicit false

namespace Fs0

open Lib

variable {κ Req Res : Type}

/-- The calls whose callbacks a slot still has to invoke. -/
def RequestSlot.awaited (slot : RequestSlot κ Req Res) : List Nat :=
  match slot.task with
  | .completing callbacks _ => callbacks ++ slot.callbacks
  | _ => slot.callbacks

/-- A call that may still spawn the task of its slot. -/
def EnqueueCall.Pending (call : EnqueueCall Req Res) : Prop :=
  call.isOwner = true ∧ call.phase ≠ .returned ∧ call.phase ≠ .dropped

namespace HashRequestScheduler

/-- Calls, slots and results belong together. -/
structure Wired (Same : Req → Req → Prop) (s : HashRequestScheduler κ Req Res) : Prop where
  call_slot : ∀ call ∈ s.calls.rows, ∃ slot, s.slots.find? call.slotId = some slot ∧
    Same slot.request call.request
  entry_slot : ∀ entry ∈ s.inFlight.rows, ∃ slot, s.slots.find? entry.slotId = some slot
  awaited : ∀ slot ∈ s.slots.rows, ∀ callId ∈ slot.awaited, ∃ call,
    s.calls.find? callId = some call ∧ call.slotId = slot.slotId
  completing : ∀ slot ∈ s.slots.rows, ∀ callbacks result,
    slot.task = .completing callbacks result → slot.result = some result
  unanswered : ∀ slot ∈ s.slots.rows, slot.task = .unspawned ∨ slot.task = .running →
    slot.result = none
  invoking : ∀ call ∈ s.calls.rows, ∀ result, call.phase = .invoking result →
    ∃ slot, s.slots.find? call.slotId = some slot ∧ slot.result = some result
  invoked : ∀ invocation ∈ s.invoked, ∃ call slot, s.calls.find? invocation.callId = some call ∧
    s.slots.find? call.slotId = some slot ∧ slot.result = some invocation.result
  acquiring : ∀ call ∈ s.calls.rows, call.phase = .acquiring → call.isOwner = true
  unspawned : ∀ call ∈ s.calls.rows, call.Pending → ∀ slot,
    s.slots.find? call.slotId = some slot → slot.task = .unspawned
  owner : ∀ left ∈ s.calls.rows, ∀ right ∈ s.calls.rows, left.isOwner = true →
    right.isOwner = true → left.slotId = right.slotId → left = right

variable {Same : Req → Req → Prop} {s : HashRequestScheduler κ Req Res}

theorem new_wired (concurrency : Nat) :
    Wired Same (new concurrency : HashRequestScheduler κ Req Res) := by
  constructor <;> intro x member <;> cases member

/-! ## A call goes on -/

/-- A call after one of its own steps. -/
structure CallKept (old call : EnqueueCall Req Res) : Prop where
  callId : call.callId = old.callId
  request : call.request = old.request
  slotId : call.slotId = old.slotId
  isOwner : call.isOwner = old.isOwner

/-- The call found under a number, once a call has gone on. -/
theorem find?_setCall {old call other : EnqueueCall Req Res}
    (found : s.calls.find? old.callId = some old) (kept : CallKept old call)
    (isOther : s.calls.find? other.callId = some other) :
    ∃ now, (s.setCall call).calls.find? other.callId = some now ∧ CallKept other now := by
  by_cases same : call.callId = other.callId
  · have isOld : old = other := by
      rw [← kept.callId, same] at found
      exact Option.some.inj (found.symm.trans isOther)
    subst isOld
    exact ⟨call, SeqTable.find?_replace_self isOther same, kept⟩
  · exact ⟨other, SeqTable.find?_replace_of_ne isOther same, rfl, rfl, rfl, rfl⟩

/-- A call that goes on keeps everything in its place. -/
theorem Wired.setCall (wired : Wired Same s) {old call : EnqueueCall Req Res}
    (found : s.calls.find? old.callId = some old) (kept : CallKept old call)
    (invoking : ∀ result, call.phase = .invoking result →
      ∃ slot, s.slots.find? call.slotId = some slot ∧ slot.result = some result)
    (acquiring : call.phase = .acquiring → call.isOwner = true)
    (pending : call.Pending → ∀ slot, s.slots.find? call.slotId = some slot →
      slot.task = .unspawned) : Wired Same (s.setCall call) := by
  have oldMem := (Table.mem_of_find? found).1
  have isFound : ∀ callId other, s.calls.find? callId = some other →
      ∃ now, (s.setCall call).calls.find? callId = some now ∧ CallKept other now := by
    intro callId other isOther
    obtain rfl := (Table.mem_of_find? isOther).2
    exact find?_setCall found kept isOther
  have cases : ∀ other ∈ (s.setCall call).calls.rows,
      other = call ∨ other ∈ s.calls.rows := fun other member =>
    (SeqTable.mem_replace member).imp_right And.left
  constructor
  case call_slot =>
      intro other member
      rcases cases other member with rfl | old
      · rw [kept.slotId, kept.request]
        exact wired.call_slot _ oldMem
      · exact wired.call_slot other old
  case entry_slot => exact wired.entry_slot
  case awaited =>
      intro slot member callId awaited
      obtain ⟨other, isOther, isSlot⟩ := wired.awaited slot member callId awaited
      obtain ⟨now, isNow, keptOther⟩ := isFound callId other isOther
      exact ⟨now, isNow, keptOther.slotId.trans isSlot⟩
  case completing => exact wired.completing
  case unanswered => exact wired.unanswered
  case invoking =>
      intro other member result isInvoking
      rcases cases other member with rfl | old
      · exact invoking result isInvoking
      · exact wired.invoking other old result isInvoking
  case invoked =>
      intro invocation among
      obtain ⟨other, slot, isOther, isSlot, isResult⟩ := wired.invoked invocation among
      obtain ⟨now, isNow, keptOther⟩ := isFound _ other isOther
      exact ⟨now, slot, isNow, by rwa [keptOther.slotId], isResult⟩
  case acquiring =>
      intro other member isAcquiring
      rcases cases other member with rfl | old
      · exact acquiring isAcquiring
      · exact wired.acquiring other old isAcquiring
  case unspawned =>
      intro other member isPending
      rcases cases other member with rfl | old
      · exact pending isPending
      · exact wired.unspawned other old isPending
  case owner =>
      intro left leftMem right rightMem leftOwner rightOwner same
      rcases SeqTable.mem_replace leftMem with rfl | ⟨leftOld, leftOther⟩ <;>
        rcases SeqTable.mem_replace rightMem with rfl | ⟨rightOld, rightOther⟩
      · rfl
      · rw [kept.isOwner] at leftOwner
        rw [kept.slotId] at same
        obtain rfl := wired.owner old oldMem right rightOld leftOwner rightOwner same
        exact absurd kept.callId.symm rightOther
      · rw [kept.isOwner] at rightOwner
        rw [kept.slotId] at same
        obtain rfl := wired.owner left leftOld old oldMem leftOwner rightOwner same
        exact absurd kept.callId.symm leftOther
      · exact wired.owner left leftOld right rightOld leftOwner rightOwner same

/-! ## A slot goes on -/

/-- A slot after one of its own steps. -/
structure SlotKept (old slot : RequestSlot κ Req Res) : Prop where
  slotId : slot.slotId = old.slotId
  request : slot.request = old.request
  result : ∀ result, old.result = some result → slot.result = some result

theorem find?_setSlot {old slot other : RequestSlot κ Req Res}
    (found : s.slots.find? old.slotId = some old) (kept : SlotKept old slot)
    (isOther : s.slots.find? other.slotId = some other) :
    ∃ now, (s.setSlot slot).slots.find? other.slotId = some now ∧ SlotKept other now := by
  by_cases same : slot.slotId = other.slotId
  · have isOld : old = other := by
      rw [← kept.slotId, same] at found
      exact Option.some.inj (found.symm.trans isOther)
    subst isOld
    exact ⟨slot, SeqTable.find?_replace_self isOther same, kept⟩
  · exact ⟨other, SeqTable.find?_replace_of_ne isOther same, rfl, rfl, fun _ => id⟩

/-- A slot that goes on keeps everything in its place. -/
theorem Wired.setSlot (wired : Wired Same s) {old slot : RequestSlot κ Req Res}
    (found : s.slots.find? old.slotId = some old) (kept : SlotKept old slot)
    (awaited : ∀ callId ∈ slot.awaited, ∃ call,
      s.calls.find? callId = some call ∧ call.slotId = slot.slotId)
    (completing : ∀ callbacks result, slot.task = .completing callbacks result →
      slot.result = some result)
    (unanswered : slot.task = .unspawned ∨ slot.task = .running → slot.result = none)
    (unspawned : ∀ call ∈ s.calls.rows, call.Pending → call.slotId = slot.slotId →
      slot.task = .unspawned) : Wired Same (s.setSlot slot) := by
  have isFound : ∀ slotId other, s.slots.find? slotId = some other →
      ∃ now, (s.setSlot slot).slots.find? slotId = some now ∧ SlotKept other now := by
    intro slotId other isOther
    obtain rfl := (Table.mem_of_find? isOther).2
    exact find?_setSlot found kept isOther
  have cases : ∀ other ∈ (s.setSlot slot).slots.rows,
      other = slot ∨ other ∈ s.slots.rows := fun other member =>
    (SeqTable.mem_replace member).imp_right And.left
  constructor
  case call_slot =>
      intro call member
      obtain ⟨other, isOther, same⟩ := wired.call_slot call member
      obtain ⟨now, isNow, keptOther⟩ := isFound _ other isOther
      exact ⟨now, isNow, by rwa [keptOther.request]⟩
  case entry_slot =>
      intro entry member
      obtain ⟨other, isOther⟩ := wired.entry_slot entry member
      obtain ⟨now, isNow, -⟩ := isFound _ other isOther
      exact ⟨now, isNow⟩
  case awaited =>
      intro other member
      rcases cases other member with rfl | old
      · exact awaited
      · exact wired.awaited other old
  case completing =>
      intro other member
      rcases cases other member with rfl | old
      · exact completing
      · exact wired.completing other old
  case unanswered =>
      intro other member
      rcases cases other member with rfl | old
      · exact unanswered
      · exact wired.unanswered other old
  case invoking =>
      intro call member result isInvoking
      obtain ⟨other, isOther, isResult⟩ := wired.invoking call member result isInvoking
      obtain ⟨now, isNow, keptOther⟩ := isFound _ other isOther
      exact ⟨now, isNow, keptOther.result _ isResult⟩
  case invoked =>
      intro invocation among
      obtain ⟨call, other, isCall, isOther, isResult⟩ := wired.invoked invocation among
      obtain ⟨now, isNow, keptOther⟩ := isFound _ other isOther
      exact ⟨call, now, isCall, isNow, keptOther.result _ isResult⟩
  case acquiring => exact wired.acquiring
  case unspawned =>
      intro call member isPending now isNow
      obtain ⟨other, isOther, -⟩ := wired.call_slot call member
      by_cases same : slot.slotId = call.slotId
      · obtain ⟨kept', isKept, -⟩ := isFound _ other isOther
        have isSlot : (s.setSlot slot).slots.find? call.slotId = some slot :=
          SeqTable.find?_replace_self isOther same
        obtain rfl := Option.some.inj (isSlot.symm.trans isNow)
        exact unspawned call member isPending same.symm
      · have isSame : (s.setSlot slot).slots.find? call.slotId = some other :=
          SeqTable.find?_replace_of_ne isOther same
        obtain rfl := Option.some.inj (isSame.symm.trans isNow)
        exact wired.unspawned call member isPending other isOther
  case owner => exact wired.owner

/-! ## What a step adds -/

/-- A call that finds its slot. -/
theorem Wired.addCall (wired : Wired Same s) {slot : RequestSlot κ Req Res} {request : Req}
    {isOwner : Bool} (found : s.slots.find? slot.slotId = some slot)
    (same : Same slot.request request) (fresh : isOwner = true → slot.task = .unspawned ∧
      ∀ call ∈ s.calls.rows, call.slotId ≠ slot.slotId) :
    Wired Same (s.addCall request slot.slotId isOwner) := by
  have isFound : ∀ callId call, s.calls.find? callId = some call →
      (s.addCall request slot.slotId isOwner).calls.find? callId = some call := by
    intro callId call isCall
    have atMost := SeqTable.find?_le_seq isCall
    exact (SeqTable.find?_push_of_ne (fun _ => rfl) (by omega)).trans isCall
  constructor
  case call_slot =>
      intro call member
      rcases mem_appended.mp member with old | rfl
      · exact wired.call_slot call old
      · exact ⟨slot, found, same⟩
  case entry_slot => exact wired.entry_slot
  case awaited =>
      intro other member callId awaited
      obtain ⟨call, isCall, isSlot⟩ := wired.awaited other member callId awaited
      exact ⟨call, isFound callId call isCall, isSlot⟩
  case completing => exact wired.completing
  case unanswered => exact wired.unanswered
  case invoking =>
      intro call member result isInvoking
      rcases mem_appended.mp member with old | rfl
      · exact wired.invoking call old result isInvoking
      · cases isInvoking
  case invoked =>
      intro invocation among
      obtain ⟨call, other, isCall, isSlot, isResult⟩ := wired.invoked invocation among
      exact ⟨call, other, isFound _ call isCall, isSlot, isResult⟩
  case acquiring =>
      intro call member isAcquiring
      rcases mem_appended.mp member with old | rfl
      · exact wired.acquiring call old isAcquiring
      · cases isAcquiring
  case unspawned =>
      intro call member pending other isOther
      rcases mem_appended.mp member with old | rfl
      · exact wired.unspawned call old pending other isOther
      · obtain rfl := Option.some.inj (found.symm.trans isOther)
        exact (fresh pending.1).1
  case owner =>
      intro left leftMem right rightMem leftOwner rightOwner sameSlot
      rcases mem_appended.mp leftMem with leftOld | rfl <;>
        rcases mem_appended.mp rightMem with rightOld | rfl
      · exact wired.owner left leftOld right rightOld leftOwner rightOwner sameSlot
      · exact absurd sameSlot ((fresh rightOwner).2 left leftOld)
      · exact absurd sameSlot.symm ((fresh leftOwner).2 right rightOld)
      · rfl

/-- A callback that is invoked with the result of the slot of its call. -/
theorem Wired.invoke (wired : Wired Same s) {call : EnqueueCall Req Res}
    {slot : RequestSlot κ Req Res} {callId : Nat} {result : Fs0Result Res}
    (isCall : s.calls.find? callId = some call) (isSlot : s.slots.find? call.slotId = some slot)
    (isResult : slot.result = some result) :
    Wired Same { s with invoked := ⟨callId, result⟩ :: s.invoked } where
  call_slot := wired.call_slot
  entry_slot := wired.entry_slot
  awaited := wired.awaited
  completing := wired.completing
  unanswered := wired.unanswered
  invoking := wired.invoking
  invoked invocation among := by
    rcases List.mem_cons.mp among with rfl | old
    · exact ⟨call, slot, isCall, isSlot, isResult⟩
    · exact wired.invoked invocation old
  acquiring := wired.acquiring
  unspawned := wired.unspawned
  owner := wired.owner

theorem afterCallback_acquiring {isOwner : Bool}
    (acquiring : (afterCallback isOwner : CallPhase Res) = .acquiring) : isOwner = true := by
  cases isOwner with
  | true => rfl
  | false => cases acquiring

theorem afterCallback_ne_invoking {isOwner : Bool} {result : Fs0Result Res} :
    afterCallback isOwner ≠ .invoking result := by
  cases isOwner <;> nofun

/-- A callback that finds a result is not the callback of an owner. -/
theorem Wired.find (wired : Wired Same s) {call : EnqueueCall Req Res}
    {slot : RequestSlot κ Req Res} {result : Fs0Result Res}
    (isCall : s.calls.find? call.callId = some call)
    (isSlot : s.slots.find? slot.slotId = some slot) (inSlot : call.slotId = slot.slotId)
    (adding : call.phase = .adding) (answered : slot.result = some result) :
    Wired Same (s.setCall { call with phase := .invoking result }) := by
  have callMem := (Table.mem_of_find? isCall).1
  have slotMem := (Table.mem_of_find? isSlot).1
  rw [← inSlot] at isSlot
  have noOwner : call.isOwner ≠ true := by
    intro isOwner
    have pending : call.Pending := ⟨isOwner, by rw [adding]; nofun, by rw [adding]; nofun⟩
    rw [wired.unanswered slot slotMem (.inl (wired.unspawned call callMem pending slot isSlot))]
      at answered
    cases answered
  refine wired.setCall isCall ⟨rfl, rfl, rfl, rfl⟩ ?_ nofun fun pending => absurd pending.1 noOwner
  intro other isInvoking
  obtain rfl := CallPhase.invoking.inj isInvoking
  exact ⟨slot, isSlot, answered⟩

/-- What a slot awaits once a callback is added to it. -/
theorem awaited_register (slot : RequestSlot κ Req Res) (callId : Nat) :
    RequestSlot.awaited { slot with callbacks := slot.callbacks ++ [callId] } =
      slot.awaited ++ [callId] := by
  cases task : slot.task with
  | completing callbacks result =>
      simp only [RequestSlot.awaited, task]
      exact (List.append_assoc _ _ _).symm
  | _ => simp only [RequestSlot.awaited, task]

theorem Wired.register (wired : Wired Same s) {call : EnqueueCall Req Res}
    {slot : RequestSlot κ Req Res} (isCall : s.calls.find? call.callId = some call)
    (isSlot : s.slots.find? slot.slotId = some slot) (inSlot : call.slotId = slot.slotId)
    (adding : call.phase = .adding) :
    Wired Same ((s.setSlot { slot with callbacks := slot.callbacks ++ [call.callId] }).setCall
      { call with phase := afterCallback call.isOwner }) := by
  have callMem := (Table.mem_of_find? isCall).1
  have slotMem := (Table.mem_of_find? isSlot).1
  have added : Wired Same
      (s.setSlot { slot with callbacks := slot.callbacks ++ [call.callId] }) := by
    refine wired.setSlot isSlot ⟨rfl, rfl, fun _ => id⟩ ?_ ?_ ?_ ?_
    · intro callId awaited
      rw [awaited_register] at awaited
      rcases mem_appended.mp awaited with old | rfl
      · exact wired.awaited slot slotMem callId old
      · exact ⟨call, isCall, inSlot⟩
    · exact wired.completing slot slotMem
    · exact wired.unanswered slot slotMem
    · intro other member pending same
      exact wired.unspawned other member pending slot (by rwa [same])
  have isAdded : (s.setSlot { slot with callbacks := slot.callbacks ++ [call.callId] }).slots.find?
      call.slotId = some { slot with callbacks := slot.callbacks ++ [call.callId] } := by
    rw [inSlot]
    exact SeqTable.find?_replace_self isSlot rfl
  refine added.setCall isCall ⟨rfl, rfl, rfl, rfl⟩ ?_ afterCallback_acquiring ?_
  · intro result isInvoking
    cases afterCallback_ne_invoking isInvoking
  · intro pending other isOther
    obtain rfl := Option.some.inj (isAdded.symm.trans isOther)
    have waiting : call.Pending := ⟨pending.1, by rw [adding]; nofun, by rw [adding]; nofun⟩
    exact wired.unspawned call callMem waiting slot (by rwa [inSlot])

/-- The number of permits and the entries of the map are not part of the wiring. -/
theorem Wired.withPermits (wired : Wired Same s) (permits : Nat) :
    Wired Same { s with permits := permits } :=
  ⟨wired.call_slot, wired.entry_slot, wired.awaited, wired.completing, wired.unanswered,
    wired.invoking, wired.invoked, wired.acquiring, wired.unspawned, wired.owner⟩

theorem Wired.forget (wired : Wired Same s) (p : InFlight κ → Bool) :
    Wired Same { s with inFlight := s.inFlight.delete p } :=
  ⟨wired.call_slot, fun entry member => wired.entry_slot entry (Table.mem_delete.mp member).1,
    wired.awaited, wired.completing, wired.unanswered, wired.invoking, wired.invoked,
    wired.acquiring, wired.unspawned, wired.owner⟩

/-- A task that has left `unspawned` goes on. -/
theorem Wired.endTask (wired : Wired Same s) {slot : RequestSlot κ Req Res}
    {task : OwnerTask Res} (isSlot : s.slots.find? slot.slotId = some slot)
    (spawned : slot.task ≠ .unspawned)
    (awaited : ∀ callId ∈ RequestSlot.awaited { slot with task := task }, callId ∈ slot.awaited)
    (completing : ∀ callbacks result, task = .completing callbacks result →
      slot.result = some result)
    (noReturn : task ≠ .unspawned) (ended : task ≠ .running) :
    Wired Same (s.setSlot { slot with task := task }) := by
  have slotMem := (Table.mem_of_find? isSlot).1
  refine wired.setSlot isSlot ⟨rfl, rfl, fun _ => id⟩ ?_ completing ?_ ?_
  · exact fun callId member => wired.awaited slot slotMem callId (awaited callId member)
  · rintro (unspawned | running)
    · exact absurd unspawned noReturn
    · exact absurd running ended
  · intro call member pending same
    exact absurd (wired.unspawned call member pending slot (by rwa [same])) spawned

/-- The owner spawns the task and returns. -/
theorem Wired.acquirePermit (wired : Wired Same s) {call : EnqueueCall Req Res}
    {slot : RequestSlot κ Req Res} {permits : Nat}
    (isCall : s.calls.find? call.callId = some call)
    (isSlot : s.slots.find? slot.slotId = some slot) (inSlot : call.slotId = slot.slotId)
    (isAcquiring : call.phase = .acquiring) :
    Wired Same ({ s with permits := permits }.setSlot { slot with task := .running }
      |>.setCall { call with phase := .returned }) := by
  obtain ⟨callMem, -⟩ := Table.mem_of_find? isCall
  obtain ⟨slotMem, -⟩ := Table.mem_of_find? isSlot
  have isOwner := wired.acquiring call callMem isAcquiring
  have pending : call.Pending := ⟨isOwner, by rw [isAcquiring]; nofun, by rw [isAcquiring]; nofun⟩
  have unspawned := wired.unspawned call callMem pending slot (by rwa [inSlot])
  have kept : CallKept call { call with phase := .returned } := ⟨rfl, rfl, rfl, rfl⟩
  have returned : Wired Same (s.setCall { call with phase := .returned }) :=
    wired.setCall isCall kept nofun nofun fun waiting => absurd rfl waiting.2.1
  have isReturned := SeqTable.mem_replace_self (r := { call with phase := .returned }) callMem rfl
  have spawned : Wired Same ((s.setCall { call with phase := .returned }).setSlot
      { slot with task := .running }) := by
    refine returned.setSlot isSlot ⟨rfl, rfl, fun _ => id⟩ ?_ nofun ?_ ?_
    · intro callId awaited
      apply returned.awaited slot slotMem callId
      rw [RequestSlot.awaited, unspawned]
      exact awaited
    · exact fun _ => wired.unanswered slot slotMem (.inl unspawned)
    · intro other member waiting same
      obtain rfl := returned.owner other member _ isReturned waiting.1 isOwner
        (same.trans inSlot.symm)
      exact absurd rfl waiting.2.1
  exact spawned.withPermits permits

variable [DecidableEq κ]

theorem Wired.addSlot (wired : Wired Same s) (hashId : κ) (request : Req) :
    Wired Same (s.addSlot hashId request) := by
  have isFound : ∀ slotId slot, s.slots.find? slotId = some slot →
      (s.addSlot hashId request).slots.find? slotId = some slot := by
    intro slotId slot isSlot
    have atMost := SeqTable.find?_le_seq isSlot
    exact (SeqTable.find?_push_of_ne (fun _ => rfl) (by omega)).trans isSlot
  constructor
  case call_slot =>
      intro call member
      obtain ⟨slot, isSlot, same⟩ := wired.call_slot call member
      exact ⟨slot, isFound _ slot isSlot, same⟩
  case entry_slot =>
      intro entry member
      rcases Table.mem_put.mp member with rfl | ⟨old, -⟩
      · exact ⟨_, SeqTable.find?_push⟩
      · obtain ⟨slot, isSlot⟩ := wired.entry_slot entry old
        exact ⟨slot, isFound _ slot isSlot⟩
  case awaited =>
      intro slot member callId awaited
      rcases mem_appended.mp member with old | rfl
      · exact wired.awaited slot old callId awaited
      · cases awaited
  case completing =>
      intro slot member callbacks result completing
      rcases mem_appended.mp member with old | rfl
      · exact wired.completing slot old callbacks result completing
      · cases completing
  case unanswered =>
      intro slot member waiting
      rcases mem_appended.mp member with old | rfl
      · exact wired.unanswered slot old waiting
      · rfl
  case invoking =>
      intro call member result isInvoking
      obtain ⟨slot, isSlot, isResult⟩ := wired.invoking call member result isInvoking
      exact ⟨slot, isFound _ slot isSlot, isResult⟩
  case invoked =>
      intro invocation among
      obtain ⟨call, slot, isCall, isSlot, isResult⟩ := wired.invoked invocation among
      exact ⟨call, slot, isCall, isFound _ slot isSlot, isResult⟩
  case acquiring => exact wired.acquiring
  case unspawned =>
      intro call member pending slot isSlot
      obtain ⟨old, isOld, -⟩ := wired.call_slot call member
      obtain rfl := Option.some.inj ((isFound _ old isOld).symm.trans isSlot)
      exact wired.unspawned call member pending old isOld
  case owner => exact wired.owner

/-! ## One step -/

/-- A call that joins a slot asks for something the request of the slot stands for. -/
def Joins (Same : Req → Req → Prop) (s : HashRequestScheduler κ Req Res) :
    SchedulerEvent κ Req Res → Prop
  | .enqueue hashId request =>
      ∀ entry ∈ s.inFlight.find? hashId, ∀ slot ∈ s.slots.find? entry.slotId,
        Same slot.request request
  | _ => True

/-- Every step keeps calls, slots and results together. -/
theorem wired_step {e : SchedulerEvent κ Req Res} {s' : HashRequestScheduler κ Req Res}
    (wired : Wired Same s) (joins : s.Joins Same e) (same : ∀ request, Same request request)
    (taken : s.step e = some s') : Wired Same s' := by
  cases step_acts taken with
  | @join hashId request entry isEntry =>
      obtain ⟨slot, isSlot⟩ := wired.entry_slot entry (Table.mem_of_find? isEntry).1
      have joined := joins entry isEntry slot isSlot
      have key := (Table.mem_of_find? isSlot).2
      rw [← key] at isSlot ⊢
      exact wired.addCall isSlot joined nofun
  | @create hashId request noEntry =>
      let slot : RequestSlot κ Req Res := ⟨s.slots.seq + 1, hashId, request, none, [], .unspawned⟩
      have isNew : (s.addSlot hashId request).slots.find? slot.slotId = some slot :=
        SeqTable.find?_push
      have fresh : ∀ call ∈ s.calls.rows, call.slotId ≠ slot.slotId := by
        intro call member isFresh
        obtain ⟨old, isOld, -⟩ := wired.call_slot call member
        have atMost : call.slotId ≤ s.slots.seq := SeqTable.find?_le_seq isOld
        have isNext : call.slotId = s.slots.seq + 1 := isFresh
        omega
      exact (wired.addSlot hashId request).addCall isNew (same request) fun _ => ⟨rfl, fresh⟩
  | register isCall isSlot inSlot adding _ => exact wired.register isCall isSlot inSlot adding
  | find isCall isSlot inSlot adding answered =>
      exact wired.find isCall isSlot inSlot adding answered
  | @invokeOwn call result isCall isInvoking =>
      have callMem := (Table.mem_of_find? isCall).1
      obtain ⟨slot, isSlot, isResult⟩ := wired.invoking call callMem result isInvoking
      have went : Wired Same (s.setCall { call with phase := afterCallback call.isOwner }) := by
        refine wired.setCall isCall ⟨rfl, rfl, rfl, rfl⟩ ?_ afterCallback_acquiring ?_
        · intro other isOther
          cases afterCallback_ne_invoking isOther
        · intro pending other isOther
          have waiting : call.Pending :=
            ⟨pending.1, by rw [isInvoking]; nofun, by rw [isInvoking]; nofun⟩
          exact wired.unspawned call callMem waiting other isOther
      exact went.invoke (SeqTable.find?_replace_self isCall rfl) isSlot isResult
  | acquire isCall isSlot inSlot acquiring _ =>
      exact wired.acquirePermit isCall isSlot inSlot acquiring
  | @complete slot result isSlot isRunning =>
      have slotMem := (Table.mem_of_find? isSlot).1
      refine wired.setSlot isSlot ⟨rfl, rfl, ?_⟩ ?_ ?_ nofun ?_
      · intro other isOther
        rw [wired.unanswered slot slotMem (.inr isRunning)] at isOther
        cases isOther
      · intro callId awaited
        apply wired.awaited slot slotMem callId
        rw [RequestSlot.awaited, isRunning]
        exact (List.append_nil slot.callbacks) ▸ awaited
      · intro callbacks other isCompleting
        obtain ⟨-, rfl⟩ := OwnerTask.completing.inj isCompleting
        rfl
      · intro call member pending same
        have unspawned := wired.unspawned call member pending slot (by rwa [same])
        rw [isRunning] at unspawned
        cases unspawned
  | @invoke slot callId callbacks result isSlot isCompleting =>
      have slotMem := (Table.mem_of_find? isSlot).1
      obtain ⟨call, isCall, inSlot⟩ := wired.awaited slot slotMem callId (by
        rw [RequestSlot.awaited, isCompleting]
        exact List.mem_cons_self)
      have isResult := wired.completing slot slotMem _ _ isCompleting
      have went : Wired Same (s.setSlot { slot with task := .completing callbacks result }) := by
        refine wired.endTask isSlot ?_ ?_ ?_ nofun nofun
        · rw [isCompleting]
          nofun
        · intro other awaited
          rw [RequestSlot.awaited, isCompleting]
          exact List.mem_cons_of_mem _ awaited
        · intro others other same
          obtain ⟨-, rfl⟩ := OwnerTask.completing.inj same
          exact isResult
      have isNow : (s.slots.replace { slot with task := .completing callbacks result }).find?
          call.slotId = some { slot with task := .completing callbacks result } := by
        rw [inSlot]
        exact SeqTable.find?_replace_self isSlot rfl
      exact went.invoke isCall isNow isResult
  | @remove slot result isSlot isCompleting =>
      have went : Wired Same (s.setSlot { slot with task := .removed }) := by
        refine wired.endTask isSlot ?_ ?_ nofun nofun nofun
        · rw [isCompleting]
          nofun
        · intro other awaited
          rw [RequestSlot.awaited, isCompleting]
          exact awaited
      exact went.forget _
  | @release slot isSlot isRemoved =>
      have went : Wired Same (s.setSlot { slot with task := .finished }) := by
        refine wired.endTask isSlot ?_ ?_ nofun nofun nofun
        · rw [isRemoved]
          nofun
        · intro other awaited
          rw [RequestSlot.awaited, isRemoved]
          exact awaited
      exact went.withPermits _
  | drop isCall _ =>
      exact wired.setCall isCall ⟨rfl, rfl, rfl, rfl⟩ nofun nofun fun pending =>
        absurd rfl pending.2.2

/-! ## The results of the slots -/

/-- What a step does to the slots: their requests stay, and results come from `complete`. -/
inductive SlotsMove (e : SchedulerEvent κ Req Res) :
    SeqTable (@RequestSlot.slotId κ Req Res) → SeqTable (@RequestSlot.slotId κ Req Res) → Prop where
  | same (slots : SeqTable (@RequestSlot.slotId κ Req Res)) : SlotsMove e slots slots
  | created (slots : SeqTable (@RequestSlot.slotId κ Req Res)) (hashId : κ) (request : Req) :
      SlotsMove e slots (slots.push
        (fun slotId => ⟨slotId, hashId, request, none, [], .unspawned⟩) fun _ => rfl)
  | moved (slots : SeqTable (@RequestSlot.slotId κ Req Res)) (old slot : RequestSlot κ Req Res)
      (found : slots.find? old.slotId = some old) (slotId : slot.slotId = old.slotId)
      (request : slot.request = old.request)
      (result : slot.result = old.result ∨
        ∃ result, e = .complete slot.slotId result ∧ slot.result = some result) :
      SlotsMove e slots (slots.replace slot)

theorem slots_move {e : SchedulerEvent κ Req Res} {s' : HashRequestScheduler κ Req Res}
    (taken : s.step e = some s') : SlotsMove e s.slots s'.slots := by
  cases step_acts taken with
  | join => exact .same _
  | @create hashId request => exact .created _ hashId request
  | @register call slot _ isSlot => exact .moved _ slot _ isSlot rfl rfl (.inl rfl)
  | find => exact .same _
  | invokeOwn => exact .same _
  | @acquire call slot _ isSlot => exact .moved _ slot _ isSlot rfl rfl (.inl rfl)
  | @complete slot result isSlot => exact .moved _ slot _ isSlot rfl rfl (.inr ⟨result, rfl, rfl⟩)
  | @invoke slot _ _ _ isSlot => exact .moved _ slot _ isSlot rfl rfl (.inl rfl)
  | @remove slot _ isSlot => exact .moved _ slot _ isSlot rfl rfl (.inl rfl)
  | @release slot isSlot => exact .moved _ slot _ isSlot rfl rfl (.inl rfl)
  | drop => exact .same _

end HashRequestScheduler

end Fs0
