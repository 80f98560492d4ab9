import Mathlib.Data.List.Pairwise
import Fs0.Client.InFlight

/-!
Contract: what becomes of the calls of `enqueue_blocking` over a whole run.

Owns:
- what an earlier state of a run and a later one have in common;
- for which call a slot was made, and which handler returned a result;
- how many handlers run, and how often and with whose result a callback is invoked, if
  no call is dropped.

Does not own: whether a handler returns, retries, and calls that are dropped.
-/

set_option autoImplicit false

namespace Fs0

open Lib

variable {κ Req Res : Type}

/-- The handler of the slot has not returned. -/
def OwnerTask.executing : OwnerTask Res → Bool
  | .unspawned => true
  | .running => true
  | _ => false

def OwnerTask.isRunning : OwnerTask Res → Bool
  | .running => true
  | _ => false

/-- The task is spawned and has not ended. -/
def OwnerTask.InProgress : OwnerTask Res → Prop
  | .unspawned => False
  | .finished => False
  | _ => True

/-- A recorded step of a scheduler. -/
abbrev SchedulerStep (κ Req Res : Type) : Type :=
  Transition (HashRequestScheduler κ Req Res) (SchedulerEvent κ Req Res)

namespace HashRequestScheduler

/-- No call and no task is in progress. -/
def Idle (s : HashRequestScheduler κ Req Res) : Prop :=
  (∀ call ∈ s.calls.rows, call.phase = .returned ∨ call.phase = .dropped) ∧
  ∀ slot ∈ s.slots.rows, ¬ slot.task.InProgress

/-! ## Earlier and later states -/

variable {s s' s'' : HashRequestScheduler κ Req Res}

/-- What an earlier state and a later one have in common. -/
structure Follows (s s' : HashRequestScheduler κ Req Res) : Prop where
  seq : s.slots.seq ≤ s'.slots.seq
  slots : ∀ slotId slot, s.slots.find? slotId = some slot → ∃ now,
    s'.slots.find? slotId = some now ∧ now.hashId = slot.hashId ∧
      ∀ result, slot.result = some result → now.result = some result
  early : ∀ slotId now, s'.slots.find? slotId = some now → slotId ≤ s.slots.seq →
    ∃ slot, s.slots.find? slotId = some slot
  calls : ∀ callId call, s.calls.find? callId = some call → ∃ now,
    s'.calls.find? callId = some now ∧ now.slotId = call.slotId

theorem Follows.refl (s : HashRequestScheduler κ Req Res) : Follows s s :=
  ⟨Nat.le_refl _, fun _ slot found => ⟨slot, found, rfl, fun _ => id⟩,
    fun _ now found _ => ⟨now, found⟩, fun _ call found => ⟨call, found, rfl⟩⟩

theorem Follows.trans (first : Follows s s') (second : Follows s' s'') : Follows s s'' where
  seq := Nat.le_trans first.seq second.seq
  slots slotId slot found := by
    obtain ⟨between, isBetween, sameHash, keeps⟩ := first.slots slotId slot found
    obtain ⟨now, isNow, sameLater, keepsLater⟩ := second.slots slotId between isBetween
    exact ⟨now, isNow, sameLater.trans sameHash,
      fun result isResult => keepsLater result (keeps result isResult)⟩
  early slotId now found atMost := by
    obtain ⟨between, isBetween⟩ :=
      second.early slotId now found (Nat.le_trans atMost first.seq)
    exact first.early slotId between isBetween atMost
  calls callId call found := by
    obtain ⟨between, isBetween, same⟩ := first.calls callId call found
    obtain ⟨now, isNow, sameLater⟩ := second.calls callId between isBetween
    exact ⟨now, isNow, sameLater.trans same⟩

/-- Only the slots and the calls matter. -/
theorem Follows.congr (follows : Follows s s') (slots : s''.slots = s'.slots)
    (calls : s''.calls = s'.calls) : Follows s s'' := by
  refine ⟨?_, ?_, ?_, ?_⟩
  · rw [slots]
    exact follows.seq
  · rw [slots]
    exact follows.slots
  · rw [slots]
    exact follows.early
  · rw [calls]
    exact follows.calls

theorem follows_setSlot {old slot : RequestSlot κ Req Res}
    (isSlot : s.slots.find? old.slotId = some old) (slotId : slot.slotId = old.slotId)
    (hashId : slot.hashId = old.hashId)
    (result : ∀ result, old.result = some result → slot.result = some result) :
    Follows s (s.setSlot slot) where
  seq := Nat.le_refl _
  slots other found isFound := by
    by_cases same : slot.slotId = other
    · rw [← slotId, same] at isSlot
      obtain rfl := Option.some.inj (isSlot.symm.trans isFound)
      exact ⟨slot, SeqTable.find?_replace_self isFound same, hashId, result⟩
    · exact ⟨found, SeqTable.find?_replace_of_ne isFound same, rfl, fun _ => id⟩
  early other now isNow _ := by
    obtain ⟨member, rfl⟩ := Table.mem_of_find? isNow
    rcases SeqTable.mem_replace member with rfl | ⟨earlier, -⟩
    · rw [slotId]
      exact ⟨old, isSlot⟩
    · exact ⟨now, Table.find?_isSome_of_mem earlier⟩
  calls _ call found := ⟨call, found, rfl⟩

theorem follows_setCall {old call : EnqueueCall Req Res}
    (isCall : s.calls.find? old.callId = some old) (kept : CallKept old call) :
    Follows s (s.setCall call) where
  seq := Nat.le_refl _
  slots _ slot found := ⟨slot, found, rfl, fun _ => id⟩
  early _ now found _ := ⟨now, found⟩
  calls callId other found := by
    obtain rfl := (Table.mem_of_find? found).2
    obtain ⟨now, isNow, keptOther⟩ := find?_setCall isCall kept found
    exact ⟨now, isNow, keptOther.slotId⟩

theorem follows_addCall (request : Req) (slotId : Nat) (isOwner : Bool) :
    Follows s (s.addCall request slotId isOwner) where
  seq := Nat.le_refl _
  slots _ slot found := ⟨slot, found, rfl, fun _ => id⟩
  early _ now found _ := ⟨now, found⟩
  calls callId call found := by
    have atMost := SeqTable.find?_le_seq found
    exact ⟨call, (SeqTable.find?_push_of_ne (fun _ => rfl) (by omega)).trans found, rfl⟩

variable [DecidableEq κ] {e : SchedulerEvent κ Req Res} {concurrency : Nat}
  {ts : List (SchedulerStep κ Req Res)}

theorem follows_addSlot (hashId : κ) (request : Req) : Follows s (s.addSlot hashId request) where
  seq := Nat.le_succ _
  slots slotId slot found := by
    have atMost := SeqTable.find?_le_seq found
    exact ⟨slot, (SeqTable.find?_push_of_ne (fun _ => rfl) (by omega)).trans found, rfl,
      fun _ => id⟩
  early slotId now found atMost :=
    ⟨now, (SeqTable.find?_push_of_ne (fun _ => rfl) (by omega)).symm.trans found⟩
  calls _ call found := ⟨call, found, rfl⟩

theorem follows_acts {Same : Req → Req → Prop} (wired : Wired Same s) (acts : Acts s e s') :
    Follows s s' := by
  cases acts with
  | join => exact follows_addCall _ _ _
  | create => exact (follows_addSlot _ _).trans (follows_addCall _ _ _)
  | @register call slot isCall isSlot =>
      have first : Follows s
          (s.setSlot { slot with callbacks := slot.callbacks ++ [call.callId] }) :=
        follows_setSlot isSlot rfl rfl fun _ => id
      exact first.trans (follows_setCall isCall ⟨rfl, rfl, rfl, rfl⟩)
  | find isCall => exact follows_setCall isCall ⟨rfl, rfl, rfl, rfl⟩
  | @invokeOwn call result isCall =>
      have kept : Follows s (s.setCall { call with phase := afterCallback call.isOwner }) :=
        follows_setCall isCall ⟨rfl, rfl, rfl, rfl⟩
      exact kept.congr rfl rfl
  | @acquire call slot isCall isSlot =>
      have first : Follows s (s.setSlot { slot with task := .running }) :=
        follows_setSlot isSlot rfl rfl fun _ => id
      have second : Follows s ((s.setSlot { slot with task := .running }).setCall
          { call with phase := .returned }) :=
        first.trans (follows_setCall isCall ⟨rfl, rfl, rfl, rfl⟩)
      exact second.congr rfl rfl
  | @complete slot result isSlot running =>
      refine follows_setSlot isSlot (by rfl) (by rfl) fun other isResult => ?_
      rw [wired.unanswered slot (Table.mem_of_find? isSlot).1 (.inr running)] at isResult
      cases isResult
  | @invoke slot callId callbacks result isSlot =>
      have kept : Follows s (s.setSlot { slot with task := .completing callbacks result }) :=
        follows_setSlot isSlot rfl rfl fun _ => id
      exact kept.congr rfl rfl
  | @remove slot result isSlot =>
      have kept : Follows s (s.setSlot { slot with task := .removed }) :=
        follows_setSlot isSlot rfl rfl fun _ => id
      exact kept.congr rfl rfl
  | @release slot isSlot =>
      have kept : Follows s (s.setSlot { slot with task := .finished }) :=
        follows_setSlot isSlot rfl rfl fun _ => id
      exact kept.congr rfl rfl
  | drop isCall => exact follows_setCall isCall ⟨rfl, rfl, rfl, rfl⟩

/-- What a transition of a run is: a step of a scheduled state. -/
structure Steps (concurrency : Nat) (t : SchedulerStep κ Req Res) : Prop where
  before : Scheduled concurrency t.pre
  after : Scheduled concurrency t.post
  acts : Acts t.pre t.event t.post
  follows : Follows t.pre t.post

theorem run_steps (run : (hashRequestScheduler κ Req Res concurrency).Run ts s) :
    ∀ t ∈ ts, Steps concurrency t := by
  intro t member
  obtain ⟨reachable, taken⟩ := run.of_mem member
  have scheduled := reachable_scheduled reachable
  exact ⟨scheduled, scheduled_step scheduled taken, step_acts taken,
    follows_acts scheduled.wired (step_acts taken)⟩

/-- A run goes from earlier states to later ones. -/
theorem run_follows (run : (hashRequestScheduler κ Req Res concurrency).Run ts s) :
    (∀ t ∈ ts, Follows t.post s) ∧
      ts.Pairwise fun late early => Follows early.post late.pre := by
  induction run with
  | init => exact ⟨nofun, .nil⟩
  | @step ts s s' e run taken inductionHypothesis =>
      obtain ⟨reached, ordered⟩ := inductionHypothesis
      have follows : Follows s s' :=
        follows_acts (reachable_scheduled run.reachable).wired (step_acts taken)
      refine ⟨fun t member => ?_, List.pairwise_cons.mpr ⟨reached, ordered⟩⟩
      rcases List.mem_cons.mp member with rfl | old
      · exact .refl _
      · exact (reached t old).trans follows

/-- Of two transitions of a run one comes before the other. -/
theorem run_before_or_after (run : (hashRequestScheduler κ Req Res concurrency).Run ts s)
    {t u : SchedulerStep κ Req Res} (isFirst : t ∈ ts) (isSecond : u ∈ ts) (differ : t ≠ u) :
    Follows u.post t.pre ∨ Follows t.post u.pre := by
  have ordered : ts.Pairwise fun left right =>
      Follows right.post left.pre ∨ Follows left.post right.pre :=
    (run_follows run).2.imp .inl
  have either : Std.Symm fun left right : SchedulerStep κ Req Res =>
        Follows right.post left.pre ∨ Follows left.post right.pre := ⟨fun _ _ => Or.symm⟩
  exact ordered.forall isFirst isSecond differ

/-! ## Calls and results of a run -/

/-- The call was made for the hash, and the map held its slot at the end of that section. -/
def CalledFor (ts : List (SchedulerStep κ Req Res)) (hashId : κ) (callId slotId : Nat) : Prop :=
  ∃ t ∈ ts, ∃ request, t.event = .enqueue hashId request ∧ t.pre.calls.seq + 1 = callId ∧
    t.post.inFlight.find? hashId = some ⟨hashId, slotId⟩

/-- The handler that was running for the slot has returned the result. -/
def ReturnedFor (ts : List (SchedulerStep κ Req Res))
    (hashId : κ) (slotId : Nat) (result : Fs0Result Res) : Prop :=
  ∃ u ∈ ts, u.event = .complete slotId result ∧ ∃ slot, u.pre.slots.find? slotId = some slot ∧
    slot.hashId = hashId ∧ slot.task = .running

omit [DecidableEq κ] in
theorem mem_setCall {old now call : EnqueueCall Req Res}
    (isCall : s.calls.find? old.callId = some old) (member : call ∈ (s.calls.replace now).rows)
    (kept : CallKept old now) : ∃ before ∈ s.calls.rows, CallKept before call := by
  rcases SeqTable.mem_replace member with rfl | ⟨earlier, -⟩
  · exact ⟨old, (Table.mem_of_find? isCall).1, kept⟩
  · exact ⟨call, earlier, rfl, rfl, rfl, rfl⟩

/-- A call was there before the step, or the step has made it. -/
theorem calls_acts (acts : Acts s e s') {call : EnqueueCall Req Res}
    (member : call ∈ s'.calls.rows) :
    (∃ before ∈ s.calls.rows, CallKept before call) ∨
      ∃ hashId request, e = .enqueue hashId request ∧ s.calls.seq + 1 = call.callId ∧
        s'.inFlight.find? hashId = some ⟨hashId, call.slotId⟩ := by
  cases acts with
  | @join hashId request entry isEntry =>
      rcases mem_appended.mp member with old | rfl
      · exact .inl ⟨call, old, rfl, rfl, rfl, rfl⟩
      · obtain ⟨-, rfl⟩ := Table.mem_of_find? isEntry
        exact .inr ⟨entry.hashId, request, rfl, rfl, isEntry⟩
  | @create hashId request noEntry =>
      rcases mem_appended.mp member with old | rfl
      · exact .inl ⟨call, old, rfl, rfl, rfl, rfl⟩
      · exact .inr ⟨hashId, request, rfl, rfl, Table.find?_put_self⟩
  | register isCall => exact .inl (mem_setCall isCall member ⟨rfl, rfl, rfl, rfl⟩)
  | find isCall => exact .inl (mem_setCall isCall member ⟨rfl, rfl, rfl, rfl⟩)
  | invokeOwn isCall => exact .inl (mem_setCall isCall member ⟨rfl, rfl, rfl, rfl⟩)
  | acquire isCall => exact .inl (mem_setCall isCall member ⟨rfl, rfl, rfl, rfl⟩)
  | complete => exact .inl ⟨call, member, rfl, rfl, rfl, rfl⟩
  | invoke => exact .inl ⟨call, member, rfl, rfl, rfl, rfl⟩
  | remove => exact .inl ⟨call, member, rfl, rfl, rfl, rfl⟩
  | release => exact .inl ⟨call, member, rfl, rfl, rfl, rfl⟩
  | drop isCall => exact .inl (mem_setCall isCall member ⟨rfl, rfl, rfl, rfl⟩)

theorem run_calledFor (run : (hashRequestScheduler κ Req Res concurrency).Run ts s) :
    ∀ call ∈ s.calls.rows, ∃ hashId, CalledFor ts hashId call.callId call.slotId := by
  induction run with
  | init initial =>
      obtain rfl := initial
      nofun
  | step run taken inductionHypothesis =>
      intro call member
      rcases calls_acts (step_acts taken) member with
        ⟨before, earlier, kept⟩ | ⟨hashId, request, isEnqueue, isNext, isEntry⟩
      · obtain ⟨hashId, t, isStep, called⟩ := inductionHypothesis before earlier
        rw [kept.callId, kept.slotId]
        exact ⟨hashId, t, List.mem_cons_of_mem _ isStep, called⟩
      · exact ⟨hashId, _, List.mem_cons_self, request, isEnqueue, isNext, isEntry⟩

/-- A result was there before the step, or the handler of the slot has returned it. -/
theorem results_acts (acts : Acts s e s') {slot : RequestSlot κ Req Res}
    (member : slot ∈ s'.slots.rows) {result : Fs0Result Res}
    (isResult : slot.result = some result) :
    (∃ before ∈ s.slots.rows, before.slotId = slot.slotId ∧ before.hashId = slot.hashId ∧
      before.result = some result) ∨
    e = .complete slot.slotId result ∧ ∃ before, s.slots.find? slot.slotId = some before ∧
      before.hashId = slot.hashId ∧ before.task = .running := by
  have kept : ∀ old now : RequestSlot κ Req Res, slot ∈ (s.setSlot now).slots.rows →
      s.slots.find? old.slotId = some old → now.slotId = old.slotId → now.hashId = old.hashId →
      now.result = old.result → ∃ before ∈ s.slots.rows, before.slotId = slot.slotId ∧
        before.hashId = slot.hashId ∧ before.result = some result := by
    intro old now among isSlot sameId sameHash sameResult
    rcases SeqTable.mem_replace among with rfl | ⟨earlier, -⟩
    · exact ⟨old, (Table.mem_of_find? isSlot).1, sameId.symm, sameHash.symm,
        sameResult.symm.trans isResult⟩
    · exact ⟨slot, earlier, rfl, rfl, isResult⟩
  cases acts with
  | join => exact .inl ⟨slot, member, rfl, rfl, isResult⟩
  | create =>
      rcases mem_appended.mp member with old | rfl
      · exact .inl ⟨slot, old, rfl, rfl, isResult⟩
      · cases isResult
  | register _ isSlot => exact .inl (kept _ _ member isSlot rfl rfl rfl)
  | find => exact .inl ⟨slot, member, rfl, rfl, isResult⟩
  | invokeOwn => exact .inl ⟨slot, member, rfl, rfl, isResult⟩
  | acquire _ isSlot => exact .inl (kept _ _ member isSlot rfl rfl rfl)
  | complete isSlot running =>
      rcases SeqTable.mem_replace member with rfl | ⟨earlier, -⟩
      · obtain rfl := Option.some.inj isResult
        exact .inr ⟨rfl, _, isSlot, rfl, running⟩
      · exact .inl ⟨slot, earlier, rfl, rfl, isResult⟩
  | invoke isSlot => exact .inl (kept _ _ member isSlot rfl rfl rfl)
  | remove isSlot => exact .inl (kept _ _ member isSlot rfl rfl rfl)
  | release isSlot => exact .inl (kept _ _ member isSlot rfl rfl rfl)
  | drop => exact .inl ⟨slot, member, rfl, rfl, isResult⟩

theorem run_returnedFor (run : (hashRequestScheduler κ Req Res concurrency).Run ts s) :
    ∀ slot ∈ s.slots.rows, ∀ result, slot.result = some result →
      ReturnedFor ts slot.hashId slot.slotId result := by
  induction run with
  | init initial =>
      obtain rfl := initial
      nofun
  | step run taken inductionHypothesis =>
      intro slot member result isResult
      rcases results_acts (step_acts taken) member isResult with
        ⟨before, earlier, sameId, sameHash, already⟩ | ⟨isComplete, running⟩
      · have returned := inductionHypothesis before earlier result already
        rw [sameId, sameHash] at returned
        obtain ⟨u, isStep, rest⟩ := returned
        exact ⟨u, List.mem_cons_of_mem _ isStep, rest⟩
      · exact ⟨_, List.mem_cons_self, isComplete, running⟩

/-- Whose result a callback is given: the handler ran for the hash of its call, and the call
has found or put the slot in the map. -/
def AnsweredBy (ts : List (SchedulerStep κ Req Res)) (invocation : Invocation Res) : Prop :=
  ∃ hashId slotId, CalledFor ts hashId invocation.callId slotId ∧
    ReturnedFor ts hashId slotId invocation.result

theorem run_answeredBy (run : (hashRequestScheduler κ Req Res concurrency).Run ts s) :
    ∀ invocation ∈ s.invoked, AnsweredBy ts invocation := by
  intro invocation member
  obtain ⟨call, slot, isCall, isSlot, isResult⟩ :=
    (reachable_scheduled run.reachable).wired.invoked invocation member
  obtain ⟨callMem, sameCall⟩ := Table.mem_of_find? isCall
  obtain ⟨slotMem, sameSlot⟩ := Table.mem_of_find? isSlot
  obtain ⟨hashId, called⟩ := run_calledFor run call callMem
  rw [sameCall] at called
  have returned := run_returnedFor run slot slotMem _ isResult
  rw [sameSlot] at returned
  have sameHash : slot.hashId = hashId := by
    obtain ⟨t, isStep, request, -, -, isEntry⟩ := called
    obtain ⟨known, isKnown, itsHash, -⟩ :=
      (run_steps run t isStep).after.published.find_slot isEntry
    obtain ⟨now, isNow, kept, -⟩ := ((run_follows run).1 t isStep).slots _ known isKnown
    obtain rfl := Option.some.inj (isSlot.symm.trans isNow)
    exact kept.trans itsHash
  rw [sameHash] at returned
  exact ⟨hashId, call.slotId, called, returned⟩

/-! ## Calls that are driven to their end -/

/-- Slots that are in the map for one hash are one slot. -/
theorem Published.unique (published : Published s) {left right : RequestSlot κ Req Res}
    (leftMem : left ∈ s.slots.rows) (rightMem : right ∈ s.slots.rows)
    (leftListed : left.task.Listed) (rightListed : right.task.Listed)
    (sameHash : left.hashId = right.hashId) : left = right := by
  have leftEntry := published.slot_entry left leftMem leftListed
  have rightEntry := published.slot_entry right rightMem rightListed
  rw [sameHash, rightEntry] at leftEntry
  exact Table.eq_of_key_eq leftMem rightMem (InFlight.mk.inj (Option.some.inj leftEntry)).2.symm

theorem executing_listed {task : OwnerTask Res} (executing : task.executing = true) :
    task.Listed := by
  cases task <;> trivial

/-- The slots of a hash whose handler is still to run or to return. -/
def executions (s : HashRequestScheduler κ Req Res) (hashId : κ) : List (RequestSlot κ Req Res) :=
  s.slots.rows.filter fun slot => slot.hashId = hashId ∧ slot.task.executing

def running (s : HashRequestScheduler κ Req Res) : List (RequestSlot κ Req Res) :=
  s.slots.rows.filter fun slot => slot.task.isRunning

theorem executions_le_one (published : Published s) (hashId : κ) :
    (s.executions hashId).length ≤ 1 := by
  have distinct : (s.executions hashId).Nodup :=
    (List.Nodup.of_map _ s.slots.nodup).filter _
  have same : ∀ left ∈ s.executions hashId, ∀ right ∈ s.executions hashId, left = right := by
    intro left leftAmong right rightAmong
    obtain ⟨leftMem, leftSelected⟩ := List.mem_filter.mp leftAmong
    obtain ⟨rightMem, rightSelected⟩ := List.mem_filter.mp rightAmong
    obtain ⟨leftHash, leftExecutes⟩ := of_decide_eq_true leftSelected
    obtain ⟨rightHash, rightExecutes⟩ := of_decide_eq_true rightSelected
    exact published.unique leftMem rightMem (executing_listed leftExecutes)
      (executing_listed rightExecutes) (leftHash.trans rightHash.symm)
  match slots : s.executions hashId with
  | [] => exact Nat.zero_le 1
  | [slot] => exact Nat.le_refl 1
  | first :: second :: rest =>
      rw [slots] at distinct same
      have isSame := same first List.mem_cons_self second
        (List.mem_cons_of_mem _ List.mem_cons_self)
      exact absurd (isSame ▸ List.mem_cons_self) (List.nodup_cons.mp distinct).1

theorem running_held {task : OwnerTask Res} (isRunning : task.isRunning = true) :
    task.held = 1 := by
  cases task <;> first | rfl | cases isRunning

omit [DecidableEq κ] in
theorem running_le_held (s : HashRequestScheduler κ Req Res) : s.running.length ≤ s.held := by
  unfold running held
  generalize s.slots.rows = slots
  induction slots with
  | nil => exact Nat.le_refl 0
  | cons slot slots inductionHypothesis =>
      rw [List.filter_cons, List.map_cons, List.sum_cons]
      split
      · next isRunning =>
        have held := running_held isRunning
        rw [List.length_cons]
        omega
      · omega

omit [DecidableEq κ] in
theorem invoked_nodup {Same : Req → Req → Prop} (wired : Wired Same s) (allDue : AllDue s) :
    (s.invoked.map Invocation.callId).Nodup := by
  rw [List.nodup_iff_count_le_one]
  intro callId
  by_cases among : callId ∈ s.invoked.map Invocation.callId
  · obtain ⟨invocation, member, rfl⟩ := List.mem_map.mp among
    obtain ⟨call, -, isCall, -⟩ := wired.invoked invocation member
    obtain ⟨callMem, sameId⟩ := Table.mem_of_find? isCall
    have due := (allDue call callMem).le_one
    rw [sameId] at due
    exact Nat.le_trans (Nat.le_add_right _ _) due
  · rw [List.count_eq_zero.mpr among]
    exact Nat.zero_le 1

/-- No call is dropped. -/
def Driven (ts : List (SchedulerStep κ Req Res)) : Prop :=
  ∀ t ∈ ts, ∀ callId, t.event ≠ .drop callId

theorem afterCallback_ne_dropped (isOwner : Bool) :
    (afterCallback isOwner : CallPhase Res) ≠ .dropped := by
  cases isOwner <;> nofun

/-- A call that is dropped was dropped before, or the step drops it. -/
theorem dropped_acts (acts : Acts s e s') {call : EnqueueCall Req Res}
    (member : call ∈ s'.calls.rows) (dropped : call.phase = .dropped) :
    call ∈ s.calls.rows ∨ ∃ old, e = .drop old.callId ∧ s.calls.find? old.callId = some old ∧
      CallKept old call := by
  have goesOn : ∀ now : EnqueueCall Req Res, call ∈ (s.calls.replace now).rows →
      now.phase ≠ .dropped → call ∈ s.calls.rows := by
    intro now among undropped
    rcases SeqTable.mem_replace among with rfl | ⟨old, -⟩
    · exact absurd dropped undropped
    · exact old
  have added : ∀ now : EnqueueCall Req Res, call ∈ s.calls.rows ++ [now] →
      now.phase = .adding → call ∈ s.calls.rows := by
    intro now among adding
    rcases mem_appended.mp among with old | rfl
    · exact old
    · rw [adding] at dropped
      cases dropped
  cases acts with
  | join => exact .inl (added _ member rfl)
  | create => exact .inl (added _ member rfl)
  | register => exact .inl (goesOn _ member (afterCallback_ne_dropped _))
  | find => exact .inl (goesOn _ member nofun)
  | invokeOwn => exact .inl (goesOn _ member (afterCallback_ne_dropped _))
  | acquire => exact .inl (goesOn _ member nofun)
  | complete => exact .inl member
  | invoke => exact .inl member
  | remove => exact .inl member
  | release => exact .inl member
  | @drop old isCall =>
      rcases SeqTable.mem_replace member with rfl | ⟨earlier, -⟩
      · exact .inr ⟨old, rfl, isCall, rfl, rfl, rfl, rfl⟩
      · exact .inl earlier

theorem run_undropped (run : (hashRequestScheduler κ Req Res concurrency).Run ts s)
    (driven : Driven ts) : ∀ call ∈ s.calls.rows, call.phase ≠ .dropped := by
  induction run with
  | init initial =>
      obtain rfl := initial
      nofun
  | step run taken inductionHypothesis =>
      have before := inductionHypothesis fun t member => driven t (List.mem_cons_of_mem _ member)
      intro call member dropped
      rcases dropped_acts (step_acts taken) member dropped with old | ⟨old, isDrop, -⟩
      · exact before call old dropped
      · exact driven _ List.mem_cons_self old.callId isDrop

omit [DecidableEq κ] in
/-- A slot whose task has ended holds no callback. -/
theorem awaited_of_finished {slot : RequestSlot κ Req Res} (settled : Settled slot)
    (finished : slot.task = .finished) : slot.awaited = [] := by
  have answered : slot.result ≠ none := by
    intro unanswered
    rcases settled.answered unanswered with unspawned | isRunning
    · rw [finished] at unspawned
      cases unspawned
    · rw [finished] at isRunning
      cases isRunning
  rw [RequestSlot.awaited, finished]
  exact settled.emptied answered

omit [DecidableEq κ] in
theorem timesAwaited_eq_zero (empty : ∀ slot ∈ s.slots.rows, slot.awaited = []) (callId : Nat) :
    s.timesAwaited callId = 0 := by
  apply List.sum_eq_zero
  intro times among
  obtain ⟨slot, isSlot, rfl⟩ := List.mem_map.mp among
  rw [empty slot isSlot]
  rfl

omit [DecidableEq κ] in
/-- A call that was not dropped and is not in progress has returned. -/
theorem Idle.returned (idle : s.Idle) (undropped : ∀ call ∈ s.calls.rows, call.phase ≠ .dropped) :
    ∀ call ∈ s.calls.rows, call.phase = .returned :=
  fun call member => (idle.1 call member).resolve_right (undropped call member)

theorem Idle.finished (idle : s.Idle) (scheduled : Scheduled concurrency s)
    (kept : ∀ call ∈ s.calls.rows, call.isOwner = true → call.phase ≠ .dropped) :
    ∀ slot ∈ s.slots.rows, slot.task = .finished := by
  intro slot member
  have ended := idle.2 slot member
  cases task : slot.task with
  | unspawned =>
      obtain ⟨call, isCall, -, isOwner, unreturned⟩ := scheduled.owned slot member task
      rcases idle.1 call isCall with returned | dropped
      · exact absurd returned unreturned
      · exact absurd dropped (kept call isCall isOwner)
  | finished => rfl
  | _ => exact absurd (by rw [task]; trivial) ended

end HashRequestScheduler

open HashRequestScheduler

variable [DecidableEq κ]

/-- Whatever the order of the steps of calls that are not dropped: one handler is to run or
to return for a hash, as many run as there are permits, and a callback is invoked at most
once, with the result of a handler that ran for the slot the map held for the hash of its
call when the call looked there. At rest every callback was invoked and the map is empty. -/
theorem enqueueBlocking_answers {concurrency : Nat} {s : HashRequestScheduler κ Req Res}
    {ts : List (SchedulerStep κ Req Res)}
    (run : (hashRequestScheduler κ Req Res concurrency).Run ts s) (driven : Driven ts) :
    (∀ hashId, (s.executions hashId).length ≤ 1) ∧
    s.running.length ≤ max concurrency 1 ∧
    (s.invoked.map Invocation.callId).Nodup ∧
    (∀ invocation ∈ s.invoked, AnsweredBy ts invocation) ∧
    (s.Idle →
      (∀ call ∈ s.calls.rows, (s.invoked.map Invocation.callId).count call.callId = 1) ∧
      s.inFlight.rows = []) := by
  have scheduled := reachable_scheduled run.reachable
  refine ⟨executions_le_one scheduled.published, ?_, invoked_nodup scheduled.wired scheduled.allDue,
    run_answeredBy run, fun idle => ?_⟩
  · have atMost := running_le_held s
    have permits := scheduled.permits
    omega
  · have undropped := run_undropped run driven
    have finished := idle.finished scheduled fun call member _ => undropped call member
    constructor
    · intro call member
      have due := scheduled.allDue call member
      rw [idle.returned undropped call member] at due
      have empty := timesAwaited_eq_zero (fun slot isSlot =>
        awaited_of_finished (scheduled.settled slot isSlot) (finished slot isSlot)) call.callId
      have invoked : s.timesInvoked call.callId + s.timesAwaited call.callId = 1 := due
      rw [empty] at invoked
      exact invoked
    · rw [List.eq_nil_iff_forall_not_mem]
      intro entry member
      obtain ⟨slot, isSlot, -, listed⟩ := scheduled.published.entry_slot entry member
      rw [finished slot (Table.mem_of_find? isSlot).1] at listed
      exact listed

/-! ## A callback that comes late -/

namespace HashRequestScheduler

def chunk : HashId := .repeating 1

/-- Two calls find one slot, and the second has not added its callback when the slot leaves
the map. -/
def joinedEarly : List (SchedulerEvent HashId Unit Unit) :=
  [.enqueue chunk (), .addCallback 1, .acquirePermit 1, .enqueue chunk (), .complete 1 (.ok ()),
    .invoke 1, .remove 1, .releasePermit 1]

/-- Whether the slot of the second call has a result, and whether the map holds it. -/
def secondFinds (s : HashRequestScheduler HashId Unit Unit) : Option (Bool × Bool) := do
  let call ← s.calls.find? 2
  let slot ← s.slots.find? call.slotId
  pure (slot.result.isSome, (s.inFlight.find? slot.hashId).isSome)

def atRest (s : HashRequestScheduler HashId Unit Unit) : Bool :=
  s.calls.rows.all (fun call => call.phase = .returned) &&
    s.slots.rows.all fun slot => slot.task = .finished

theorem atRest_idle {s : HashRequestScheduler HashId Unit Unit} (rests : atRest s = true) :
    s.Idle := by
  obtain ⟨returned, finished⟩ := Bool.and_eq_true_iff.mp rests
  constructor
  · intro call member
    exact .inl (of_decide_eq_true (List.all_eq_true.mp returned call member))
  · intro slot member
    have isFinished := of_decide_eq_true (List.all_eq_true.mp finished slot member)
    rw [isFinished]
    exact id

/-- The run that ends with the callback of the second call. -/
structure AddsLate (s added invoked : HashRequestScheduler HashId Unit Unit)
    (ts : List (SchedulerStep HashId Unit Unit)) : Prop where
  run : (hashRequestScheduler HashId Unit Unit 1).Run
    (⟨added, .invokeOwn 2, invoked⟩ :: ⟨s, .addCallback 2, added⟩ :: ts) invoked
  events : ts.reverse.map Transition.event = joinedEarly
  finds : secondFinds s = some (true, false)
  rests : atRest invoked = true
  callbacks : invoked.invoked.map Invocation.callId = [2, 1]

theorem exists_addsLate : ∃ s added invoked ts, AddsLate s added invoked ts := by
  have computed : (((hashRequestScheduler HashId Unit Unit 1).exec (new 1) joinedEarly).bind
      fun s => (s.step (.addCallback 2)).bind fun added => (added.step (.invokeOwn 2)).map
        fun invoked =>
          (secondFinds s, atRest invoked, invoked.invoked.map Invocation.callId)) =
          some (some (true, false), true, [2, 1]) := by
    decide +kernel
  obtain ⟨s, ends, computed⟩ := Option.bind_eq_some_iff.mp computed
  obtain ⟨added, adds, computed⟩ := Option.bind_eq_some_iff.mp computed
  obtain ⟨invoked, invokes, facts⟩ := Option.map_eq_some_iff.mp computed
  obtain ⟨finds, rest⟩ := Prod.mk.inj facts
  obtain ⟨rests, callbacks⟩ := Prod.mk.inj rest
  have start : (hashRequestScheduler HashId Unit Unit 1).Run [] (new 1) := .init rfl
  obtain ⟨ts, run, events⟩ := start.exec joinedEarly ends
  rw [List.append_nil] at run
  have first : (hashRequestScheduler HashId Unit Unit 1).step s (.addCallback 2) = some added :=
    adds
  exact ⟨s, added, invoked, ts, (run.step first).step invokes, events, finds, rests,
    callbacks⟩

theorem AddsLate.event_mem {s added invoked : HashRequestScheduler HashId Unit Unit}
    {ts : List (SchedulerStep HashId Unit Unit)} (late : AddsLate s added invoked ts) :
    ∀ t ∈ ts, t.event ∈ joinedEarly := by
  intro t member
  rw [← late.events]
  exact List.mem_map_of_mem (List.mem_reverse.mpr member)

theorem AddsLate.driven {s added invoked : HashRequestScheduler HashId Unit Unit}
    {ts : List (SchedulerStep HashId Unit Unit)} (late : AddsLate s added invoked ts) :
    Driven (⟨added, .invokeOwn 2, invoked⟩ :: ⟨s, .addCallback 2, added⟩ :: ts) := by
  intro t member callId isDrop
  rcases List.mem_cons.mp member with rfl | member
  · cases isDrop
  · rcases List.mem_cons.mp member with rfl | member
    · cases isDrop
    · have among := late.event_mem t member
      rw [isDrop] at among
      simp [joinedEarly] at among

/-- A callback is added to an execution that has not ended or is still in the map. -/
def AddedInTime (ts : List (SchedulerStep κ Req Res)) (callId : Nat) : Prop :=
  ∃ t ∈ ts, t.event = .addCallback callId ∧ ∃ call slot, t.pre.calls.find? callId = some call ∧
    t.pre.slots.find? call.slotId = some slot ∧
    (slot.result = none ∨ (t.pre.inFlight.find? slot.hashId).isSome)

end HashRequestScheduler

theorem enqueueBlocking_answers_late : ∃ s added invoked ts,
    AddsLate s added invoked ts ∧ invoked.Idle ∧
    (∀ hashId, (invoked.executions hashId).length ≤ 1) ∧
    invoked.running.length ≤ max 1 1 ∧
    (invoked.invoked.map Invocation.callId).Nodup ∧
    (∀ invocation ∈ invoked.invoked, AnsweredBy
      (⟨added, .invokeOwn 2, invoked⟩ :: ⟨s, .addCallback 2, added⟩ :: ts) invocation) ∧
    (invoked.Idle →
      (∀ call ∈ invoked.calls.rows,
        (invoked.invoked.map Invocation.callId).count call.callId = 1) ∧
      invoked.inFlight.rows = []) := by
  obtain ⟨s, added, invoked, ts, late⟩ := exists_addsLate
  exact ⟨s, added, invoked, ts, late, atRest_idle late.rests,
    enqueueBlocking_answers late.run late.driven⟩

/-- A callback can be given the result of a handler whose slot has left the map before the
callback is added. -/
theorem addCallback_late : ¬ ∀ (s : HashRequestScheduler HashId Unit Unit)
    (ts : List (SchedulerStep HashId Unit Unit)),
    (hashRequestScheduler HashId Unit Unit 1).Run ts s → Driven ts →
    ∀ invocation ∈ s.invoked, AddedInTime ts invocation.callId := by
  intro claimed
  obtain ⟨s, added, invoked, ts, late⟩ := exists_addsLate
  have second : (2 : Nat) ∈ invoked.invoked.map Invocation.callId := by
    rw [late.callbacks]
    exact List.mem_cons_self
  obtain ⟨invocation, among, isSecond⟩ := List.mem_map.mp second
  obtain ⟨t, member, isAdd, call, slot, isCall, isSlot, inTime⟩ :=
    claimed _ _ late.run late.driven invocation among
  rw [isSecond] at isAdd isCall
  rcases List.mem_cons.mp member with rfl | member
  · cases isAdd
  · rcases List.mem_cons.mp member with rfl | member
    · have finds := late.finds
      unfold secondFinds at finds
      rw [isCall, Option.bind_eq_bind, Option.bind_some, isSlot, Option.bind_eq_bind,
        Option.bind_some] at finds
      obtain ⟨isResult, listed⟩ := Prod.mk.inj (Option.some.inj finds)
      rcases inTime with unanswered | isListed
      · rw [unanswered] at isResult
        cases isResult
      · rw [listed] at isListed
        cases isListed
    · have among := late.event_mem t member
      rw [isAdd] at among
      simp [joinedEarly] at among

end Fs0
