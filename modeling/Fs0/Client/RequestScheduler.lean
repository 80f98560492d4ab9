import Fs0.Core.Protocol
import Fs0.Lib.Table
import Fs0.Lib.Transition

/-!
Contract: the scheduler that lets requests with one hash share one execution.

Owns:
- the calls of `enqueue_blocking` and the tasks they spawn, one critical section after
  another, and the places at which a call may be dropped;
- that a callback is given the result of the slot its call has found, and that the
  request the slot was created for is related to the request of the call, if the calls
  that join a slot see to it.

Does not own: what an execution does, and when it ends.
-/

set_option autoImplicit false

namespace Fs0

open Lib

/-- Where a call of `enqueue_blocking` stands once it has its slot. -/
inductive CallPhase (Res : Type) where
  /-- The callback is not added yet. -/
  | adding
  /-- The slot had a result, and the call invokes its callback itself. -/
  | invoking (result : Fs0Result Res)
  /-- The owner waits for a permit. -/
  | acquiring
  | returned
  | dropped
deriving DecidableEq

/-- A call of `enqueue_blocking`, by the slot it has found or created. -/
structure EnqueueCall (Req Res : Type) where
  callId : Nat
  request : Req
  slotId : Nat
  isOwner : Bool
  phase : CallPhase Res
deriving DecidableEq

/-- Where the task stands that the owner of a slot spawns. -/
inductive OwnerTask (Res : Type) where
  | unspawned
  | running
  /-- The result is stored, and these callbacks are still to be invoked. -/
  | completing (callbacks : List Nat) (result : Fs0Result Res)
  /-- The slot is out of the map; the permit is still held. -/
  | removed
  | finished
deriving DecidableEq

/-- `RequestSlot`, with the request of its owner and the calls its callbacks belong to. -/
structure RequestSlot (κ Req Res : Type) where
  slotId : Nat
  hashId : κ
  request : Req
  result : Option (Fs0Result Res)
  callbacks : List Nat
  task : OwnerTask Res
deriving DecidableEq

/-- An entry of the map `in_flight`. -/
structure InFlight (κ : Type) where
  hashId : κ
  slotId : Nat
deriving DecidableEq

/-- A callback that was invoked, by its call. -/
structure Invocation (Res : Type) where
  callId : Nat
  result : Fs0Result Res
deriving DecidableEq

structure HashRequestScheduler (κ Req Res : Type) where
  permits : Nat
  inFlight : Table (@InFlight.hashId κ)
  slots : SeqTable (@RequestSlot.slotId κ Req Res)
  calls : SeqTable (@EnqueueCall.callId Req Res)
  /-- Newest first. -/
  invoked : List (Invocation Res)

inductive SchedulerEvent (κ Req Res : Type) where
  | enqueue (hashId : κ) (request : Req)
  | addCallback (callId : Nat)
  | invokeOwn (callId : Nat)
  | acquirePermit (callId : Nat)
  /-- The handler returns. -/
  | complete (slotId : Nat) (result : Fs0Result Res)
  | invoke (slotId : Nat)
  | remove (slotId : Nat)
  | releasePermit (slotId : Nat)
  /-- The caller drops the future of a call at an await point. -/
  | drop (callId : Nat)
deriving DecidableEq

namespace HashRequestScheduler

variable {κ Req Res : Type}

/-- A scheduler that has just been created. -/
def new (concurrency : Nat) : HashRequestScheduler κ Req Res :=
  ⟨max concurrency 1, .empty, .empty, .empty, []⟩

def setCall (s : HashRequestScheduler κ Req Res) (call : EnqueueCall Req Res) :
    HashRequestScheduler κ Req Res :=
  { s with calls := s.calls.replace call }

def setSlot (s : HashRequestScheduler κ Req Res) (slot : RequestSlot κ Req Res) :
    HashRequestScheduler κ Req Res :=
  { s with slots := s.slots.replace slot }

def addCall (s : HashRequestScheduler κ Req Res) (request : Req) (slotId : Nat) (isOwner : Bool) :
    HashRequestScheduler κ Req Res :=
  let calls := s.calls.push (fun callId => ⟨callId, request, slotId, isOwner, .adding⟩) fun _ => rfl
  { s with calls := calls }

/-- What a call does once its callback is added or invoked. -/
def afterCallback (isOwner : Bool) : CallPhase Res := if isOwner then .acquiring else .returned

/-- `add_callback`, up to the invocation. -/
def addCallback (s : HashRequestScheduler κ Req Res) (call : EnqueueCall Req Res)
    (slot : RequestSlot κ Req Res) : HashRequestScheduler κ Req Res :=
  match slot.result with
  | some result => s.setCall { call with phase := .invoking result }
  | none =>
      (s.setSlot { slot with callbacks := slot.callbacks ++ [call.callId] }).setCall
        { call with phase := afterCallback call.isOwner }

variable [DecidableEq κ]

/-- The section of `enqueue_blocking` under the lock of the map. -/
def enqueue (s : HashRequestScheduler κ Req Res) (hashId : κ) (request : Req) :
    HashRequestScheduler κ Req Res :=
  match s.inFlight.find? hashId with
  | some entry => s.addCall request entry.slotId false
  | none =>
      let slots := s.slots.push (fun slotId => ⟨slotId, hashId, request, none, [], .unspawned⟩)
        fun _ => rfl
      { s with
        slots := slots
        inFlight := s.inFlight.put ⟨hashId, s.slots.seq + 1⟩ }.addCall request
          (s.slots.seq + 1) true

def step (s : HashRequestScheduler κ Req Res) :
    SchedulerEvent κ Req Res → Option (HashRequestScheduler κ Req Res)
  | .enqueue hashId request => some (s.enqueue hashId request)
  | .addCallback callId =>
      (s.calls.find? callId).bind fun call =>
        (s.slots.find? call.slotId).bind fun slot =>
          match call.phase with
          | .adding => some (s.addCallback call slot)
          | _ => none
  | .invokeOwn callId =>
      (s.calls.find? callId).bind fun call =>
        match call.phase with
        | .invoking result => some { s with
            calls := s.calls.replace { call with phase := afterCallback call.isOwner }
            invoked := ⟨callId, result⟩ :: s.invoked }
        | _ => none
  | .acquirePermit callId =>
      (s.calls.find? callId).bind fun call =>
        (s.slots.find? call.slotId).bind fun slot =>
          match call.phase with
          | .acquiring =>
              if 0 < s.permits then
                some ({ s with permits := s.permits - 1 }.setSlot { slot with task := .running }
                  |>.setCall { call with phase := .returned })
              else none
          | _ => none
  | .complete slotId result =>
      (s.slots.find? slotId).bind fun slot =>
        match slot.task with
        | .running => some (s.setSlot { slot with
            result := some result
            callbacks := []
            task := .completing slot.callbacks result })
        | _ => none
  | .invoke slotId =>
      (s.slots.find? slotId).bind fun slot =>
        match slot.task with
        | .completing (callId :: callbacks) result =>
            some { s.setSlot { slot with task := .completing callbacks result } with
              invoked := ⟨callId, result⟩ :: s.invoked }
        | _ => none
  | .remove slotId =>
      (s.slots.find? slotId).bind fun slot =>
        match slot.task with
        | .completing [] _ => some { s.setSlot { slot with task := .removed } with
            inFlight := s.inFlight.delete fun entry => entry.hashId == slot.hashId }
        | _ => none
  | .releasePermit slotId =>
      (s.slots.find? slotId).bind fun slot =>
        match slot.task with
        | .removed => some { s.setSlot { slot with task := .finished } with
            permits := s.permits + 1 }
        | _ => none
  | .drop callId =>
      (s.calls.find? callId).bind fun call =>
        match call.phase with
        | .adding => some (s.setCall { call with phase := .dropped })
        | .acquiring => some (s.setCall { call with phase := .dropped })
        | _ => none

end HashRequestScheduler

/-- The scheduler under any order of the steps of its calls and tasks. -/
def hashRequestScheduler (κ Req Res : Type) [DecidableEq κ] (concurrency : Nat) :
    System (HashRequestScheduler κ Req Res) (SchedulerEvent κ Req Res) where
  Init s := s = .new concurrency
  step := HashRequestScheduler.step

/-! ## What a step does -/

namespace HashRequestScheduler

variable {κ Req Res : Type} [DecidableEq κ] {s s' : HashRequestScheduler κ Req Res}
  {e : SchedulerEvent κ Req Res}

/-- The scheduler with a slot that no call has found yet. -/
def addSlot (s : HashRequestScheduler κ Req Res) (hashId : κ) (request : Req) :
    HashRequestScheduler κ Req Res :=
  let slots := s.slots.push (fun slotId => ⟨slotId, hashId, request, none, [], .unspawned⟩)
    fun _ => rfl
  { s with slots := slots, inFlight := s.inFlight.put ⟨hashId, s.slots.seq + 1⟩ }

/-- The steps of a scheduler, by the call or the slot that takes them. -/
inductive Acts (s : HashRequestScheduler κ Req Res) :
    SchedulerEvent κ Req Res → HashRequestScheduler κ Req Res → Prop where
  | join {hashId : κ} {request : Req} {entry : InFlight κ}
      (isEntry : s.inFlight.find? hashId = some entry) :
      Acts s (.enqueue hashId request) (s.addCall request entry.slotId false)
  | create {hashId : κ} {request : Req} (noEntry : s.inFlight.find? hashId = none) :
      Acts s (.enqueue hashId request)
        ((s.addSlot hashId request).addCall request (s.slots.seq + 1) true)
  | register {call : EnqueueCall Req Res} {slot : RequestSlot κ Req Res}
      (isCall : s.calls.find? call.callId = some call)
      (isSlot : s.slots.find? slot.slotId = some slot) (inSlot : call.slotId = slot.slotId)
      (adding : call.phase = .adding) (unanswered : slot.result = none) :
      Acts s (.addCallback call.callId)
        ((s.setSlot { slot with callbacks := slot.callbacks ++ [call.callId] }).setCall
          { call with phase := afterCallback call.isOwner })
  | find {call : EnqueueCall Req Res} {slot : RequestSlot κ Req Res} {result : Fs0Result Res}
      (isCall : s.calls.find? call.callId = some call)
      (isSlot : s.slots.find? slot.slotId = some slot) (inSlot : call.slotId = slot.slotId)
      (adding : call.phase = .adding) (answered : slot.result = some result) :
      Acts s (.addCallback call.callId) (s.setCall { call with phase := .invoking result })
  | invokeOwn {call : EnqueueCall Req Res} {result : Fs0Result Res}
      (isCall : s.calls.find? call.callId = some call) (invoking : call.phase = .invoking result) :
      Acts s (.invokeOwn call.callId)
        { s.setCall { call with phase := afterCallback call.isOwner } with
          invoked := ⟨call.callId, result⟩ :: s.invoked }
  | acquire {call : EnqueueCall Req Res} {slot : RequestSlot κ Req Res}
      (isCall : s.calls.find? call.callId = some call)
      (isSlot : s.slots.find? slot.slotId = some slot) (inSlot : call.slotId = slot.slotId)
      (acquiring : call.phase = .acquiring) (available : 0 < s.permits) :
      Acts s (.acquirePermit call.callId)
        (({ s with permits := s.permits - 1 }.setSlot { slot with task := .running }).setCall
          { call with phase := .returned })
  | complete {slot : RequestSlot κ Req Res} {result : Fs0Result Res}
      (isSlot : s.slots.find? slot.slotId = some slot) (running : slot.task = .running) :
      Acts s (.complete slot.slotId result)
        (s.setSlot { slot with
          result := some result
          callbacks := []
          task := .completing slot.callbacks result })
  | invoke {slot : RequestSlot κ Req Res} {callId : Nat} {callbacks : List Nat}
      {result : Fs0Result Res} (isSlot : s.slots.find? slot.slotId = some slot)
      (completing : slot.task = .completing (callId :: callbacks) result) :
      Acts s (.invoke slot.slotId)
        { s.setSlot { slot with task := .completing callbacks result } with
          invoked := ⟨callId, result⟩ :: s.invoked }
  | remove {slot : RequestSlot κ Req Res} {result : Fs0Result Res}
      (isSlot : s.slots.find? slot.slotId = some slot)
      (completing : slot.task = .completing [] result) :
      Acts s (.remove slot.slotId)
        { s.setSlot { slot with task := .removed } with
          inFlight := s.inFlight.delete fun entry => entry.hashId == slot.hashId }
  | release {slot : RequestSlot κ Req Res} (isSlot : s.slots.find? slot.slotId = some slot)
      (removed : slot.task = .removed) :
      Acts s (.releasePermit slot.slotId)
        { s.setSlot { slot with task := .finished } with permits := s.permits + 1 }
  | drop {call : EnqueueCall Req Res} (isCall : s.calls.find? call.callId = some call)
      (waiting : call.phase = .adding ∨ call.phase = .acquiring) :
      Acts s (.drop call.callId) (s.setCall { call with phase := .dropped })

theorem addCallback_acts {call : EnqueueCall Req Res} {slot : RequestSlot κ Req Res}
    (isCall : s.calls.find? call.callId = some call)
    (isSlot : s.slots.find? call.slotId = some slot) (adding : call.phase = .adding) :
    Acts s (.addCallback call.callId) (s.addCallback call slot) := by
  have inSlot := (Table.mem_of_find? isSlot).2
  rw [← inSlot] at isSlot
  unfold addCallback
  split
  next result answered => exact .find isCall isSlot inSlot.symm adding answered
  next unanswered => exact .register isCall isSlot inSlot.symm adding unanswered

theorem step_acts (taken : s.step e = some s') : Acts s e s' := by
  cases e with
  | enqueue hashId request =>
      obtain rfl := Option.some.inj taken
      unfold enqueue
      split
      next entry isEntry => exact .join isEntry
      next noEntry => exact .create noEntry
  | addCallback callId =>
      obtain ⟨call, isCall, found⟩ := Option.bind_eq_some_iff.mp taken
      obtain ⟨slot, isSlot, acted⟩ := Option.bind_eq_some_iff.mp found
      obtain rfl := (Table.mem_of_find? isCall).2
      split at acted
      next adding =>
        obtain rfl := Option.some.inj acted
        exact addCallback_acts isCall isSlot adding
      next => cases acted
  | invokeOwn callId =>
      obtain ⟨call, isCall, acted⟩ := Option.bind_eq_some_iff.mp taken
      obtain rfl := (Table.mem_of_find? isCall).2
      split at acted
      next result invoking =>
        obtain rfl := Option.some.inj acted
        exact .invokeOwn isCall invoking
      next => cases acted
  | acquirePermit callId =>
      obtain ⟨call, isCall, found⟩ := Option.bind_eq_some_iff.mp taken
      obtain ⟨slot, isSlot, acted⟩ := Option.bind_eq_some_iff.mp found
      obtain rfl := (Table.mem_of_find? isCall).2
      have inSlot := (Table.mem_of_find? isSlot).2
      rw [← inSlot] at isSlot
      split at acted
      next acquiring =>
        split at acted
        next available =>
          obtain rfl := Option.some.inj acted
          exact .acquire isCall isSlot inSlot.symm acquiring available
        next => cases acted
      next => cases acted
  | complete slotId result =>
      obtain ⟨slot, isSlot, acted⟩ := Option.bind_eq_some_iff.mp taken
      obtain rfl := (Table.mem_of_find? isSlot).2
      split at acted
      next running =>
        obtain rfl := Option.some.inj acted
        exact .complete isSlot running
      next => cases acted
  | invoke slotId =>
      obtain ⟨slot, isSlot, acted⟩ := Option.bind_eq_some_iff.mp taken
      obtain rfl := (Table.mem_of_find? isSlot).2
      split at acted
      next callId callbacks result completing =>
        obtain rfl := Option.some.inj acted
        exact .invoke isSlot completing
      next => cases acted
  | remove slotId =>
      obtain ⟨slot, isSlot, acted⟩ := Option.bind_eq_some_iff.mp taken
      obtain rfl := (Table.mem_of_find? isSlot).2
      split at acted
      next result completing =>
        obtain rfl := Option.some.inj acted
        exact .remove isSlot completing
      next => cases acted
  | releasePermit slotId =>
      obtain ⟨slot, isSlot, acted⟩ := Option.bind_eq_some_iff.mp taken
      obtain rfl := (Table.mem_of_find? isSlot).2
      split at acted
      next removed =>
        obtain rfl := Option.some.inj acted
        exact .release isSlot removed
      next => cases acted
  | drop callId =>
      obtain ⟨call, isCall, acted⟩ := Option.bind_eq_some_iff.mp taken
      obtain rfl := (Table.mem_of_find? isCall).2
      split at acted
      next adding =>
        obtain rfl := Option.some.inj acted
        exact .drop isCall (.inl adding)
      next acquiring =>
        obtain rfl := Option.some.inj acted
        exact .drop isCall (.inr acquiring)
      next => cases acted

end HashRequestScheduler

end Fs0
