import Fs0.Client.EnqueueRuns

/-!
Contract: when a request that failed is retried, and when a dropped call does no harm.

Owns:
- that a call made after a failure was told has an execution of its own time, exactly if
  no call finds the slot of a failed execution after a callback was told;
- that no slot is left without a call or a task that will answer its callbacks, exactly
  if no call that owns a slot is dropped.

Does not own: what the callers do with an error.
-/

set_option autoImplicit false

namespace Fs0

open Lib

namespace HashRequestScheduler

variable {κ Req Res : Type} [DecidableEq κ] {s s' : HashRequestScheduler κ Req Res}
  {e : SchedulerEvent κ Req Res} {concurrency : Nat}
  {ts : List (SchedulerStep κ Req Res)}

/-! ## Retries -/

/-- A callback was told that the execution of the slot has failed. -/
def TellsFailure (s : HashRequestScheduler κ Req Res) (slotId : Nat) : Prop :=
  ∃ invocation ∈ s.invoked, (∃ error, invocation.result = .error error) ∧
    ∃ call, s.calls.find? invocation.callId = some call ∧ call.slotId = slotId

/-- The handler for the slot has returned. -/
def Ended (s : HashRequestScheduler κ Req Res) (slotId : Nat) : Prop :=
  ∃ slot, s.slots.find? slotId = some slot ∧ slot.result ≠ none

/-- The transition starts the handler for the slot. -/
def Begins (t : SchedulerStep κ Req Res) (slotId : Nat) : Prop :=
  ∃ callId call, t.event = .acquirePermit callId ∧ t.pre.calls.find? callId = some call ∧
    call.slotId = slotId

/-- A call has a slot other than that of a failed execution: its execution begins after the
failed one has ended, and only its result is given to the callback. -/
structure Retried (ts : List (SchedulerStep κ Req Res)) (s : HashRequestScheduler κ Req Res)
    (hashId : κ) (failed callId slotId : Nat) : Prop where
  other : slotId ≠ failed
  begins : ∀ u ∈ ts, Begins u slotId → u.pre.Ended failed
  results : ∀ invocation ∈ s.invoked, invocation.callId = callId →
    ReturnedFor ts hashId slotId invocation.result

/-- Every call made after a callback for its hash was told of a failure retries. -/
def AllRetried (ts : List (SchedulerStep κ Req Res)) (s : HashRequestScheduler κ Req Res) :
    Prop :=
  ∀ t ∈ ts, ∀ hashId request, t.event = .enqueue hashId request →
    ∀ failed, t.pre.slots.find? failed.slotId = some failed → failed.hashId = hashId →
      t.pre.TellsFailure failed.slotId →
      ∃ call, t.post.calls.find? (t.pre.calls.seq + 1) = some call ∧
        Retried ts s hashId failed.slotId call.callId call.slotId

/-- A call does not find the slot of an execution of which a callback was told that it failed. -/
def FindsNoFailure (s : HashRequestScheduler κ Req Res) : SchedulerEvent κ Req Res → Prop
  | .enqueue hashId _ => ∀ entry, s.inFlight.find? hashId = some entry →
      ¬ s.TellsFailure entry.slotId
  | _ => True

/-- The slot of a new call: the one in the map, or a new one. -/
theorem enqueue_call {hashId : κ} {request : Req} (acts : Acts s (.enqueue hashId request) s') :
    ∃ call, s'.calls.find? (s.calls.seq + 1) = some call ∧ call.callId = s.calls.seq + 1 ∧
      s'.inFlight.find? hashId = some ⟨hashId, call.slotId⟩ ∧
      (s.inFlight.find? hashId = some ⟨hashId, call.slotId⟩ ∨
        s.inFlight.find? hashId = none ∧ call.slotId = s.slots.seq + 1) := by
  cases acts with
  | @join _ _ entry isEntry =>
      obtain ⟨-, rfl⟩ := Table.mem_of_find? isEntry
      exact ⟨_, SeqTable.find?_push, rfl, isEntry, .inl isEntry⟩
  | create noEntry =>
      exact ⟨_, SeqTable.find?_push, rfl, Table.find?_put_self, .inr ⟨noEntry, rfl⟩⟩

theorem AllRetried.findsNoFailure (run : (hashRequestScheduler κ Req Res concurrency).Run ts s)
    (retried : AllRetried ts s) : ∀ t ∈ ts, FindsNoFailure t.pre t.event := by
  intro t member
  cases isEnqueue : t.event with
  | enqueue hashId request =>
      intro entry isEntry tells
      have steps := run_steps run t member
      have acts := steps.acts
      rw [isEnqueue] at acts
      obtain ⟨slot, isSlot, sameHash, -⟩ := steps.before.published.find_slot isEntry
      have sameId := (Table.mem_of_find? isSlot).2
      rw [← sameId] at isSlot tells
      obtain ⟨call, isCall, retry⟩ :=
        retried t member hashId request isEnqueue slot isSlot sameHash tells
      obtain ⟨made, isMade, -, -, joined | ⟨noEntry, -⟩⟩ := enqueue_call acts
      · obtain rfl := Option.some.inj (isCall.symm.trans isMade)
        obtain rfl := Option.some.inj (isEntry.symm.trans joined)
        exact retry.other sameId.symm
      · rw [isEntry] at noEntry
        cases noEntry
  | _ => trivial

/-- The slot whose handler starts has not been spawned. -/
theorem Begins.unspawned {u : SchedulerStep κ Req Res}
    (steps : Steps concurrency u) {slotId : Nat} (begins : Begins u slotId) :
    ∃ slot, u.pre.slots.find? slotId = some slot ∧ slot.task = .unspawned := by
  obtain ⟨callId, call, isAcquire, isCall, rfl⟩ := begins
  have acts := steps.acts
  rw [isAcquire] at acts
  generalize u.post = post at acts
  cases acts with
  | @acquire caller slot isCaller isSlot inSlot acquiring =>
      obtain rfl := Option.some.inj (isCall.symm.trans isCaller)
      refine ⟨slot, by rwa [inSlot], ?_⟩
      exact steps.before.wired.spawns slot (Table.mem_of_find? isSlot).1 call
        (Table.mem_of_find? isCall).1 inSlot acquiring

/-- A handler that starts for the slot that is in the map for a hash starts after an execution
for that hash has ended. -/
theorem begins_after {t : SchedulerStep κ Req Res}
    (run : (hashRequestScheduler κ Req Res concurrency).Run ts s) (member : t ∈ ts)
    {hashId : κ} {request : Req} (isEnqueue : t.event = .enqueue hashId request)
    {failed : RequestSlot κ Req Res} (isFailed : t.pre.slots.find? failed.slotId = some failed)
    (ofHash : failed.hashId = hashId) (ended : failed.result ≠ none) {slotId : Nat}
    (isEntry : t.post.inFlight.find? hashId = some ⟨hashId, slotId⟩)
    (other : slotId ≠ failed.slotId) {u : SchedulerStep κ Req Res}
    (among : u ∈ ts) (begins : Begins u slotId) : u.pre.Ended failed.slotId := by
  have steps := run_steps run t member
  have stepsU := run_steps run u among
  have differ : t ≠ u := by
    rintro rfl
    obtain ⟨callId, call, isAcquire, -⟩ := begins
    rw [isEnqueue] at isAcquire
    cases isAcquire
  obtain ⟨kept, isKept, keptHash, keeps⟩ := steps.follows.slots _ failed isFailed
  rcases run_before_or_after run member among differ with earlier | later
  · -- the slot was in the map when its handler started, and so was the newest of its hash
    have follows := stepsU.follows.trans earlier
    obtain ⟨slot, isSlot, slotHash, listed⟩ := steps.after.published.find_slot isEntry
    obtain ⟨slotThen, isSlotThen, unspawned⟩ := begins.unspawned stepsU
    obtain ⟨now, isNow, sameHash, -⟩ := (follows.trans steps.follows).slots _ slotThen isSlotThen
    obtain rfl := Option.some.inj (isSlot.symm.trans isNow)
    have olderId : failed.slotId ≤ slotId := by
      have newest := steps.after.published.newest _ (Table.mem_of_find? isSlot).1 listed kept
        (Table.mem_of_find? isKept).1 ((keptHash.trans ofHash).trans slotHash.symm)
      rwa [(Table.mem_of_find? isKept).2, (Table.mem_of_find? isSlot).2] at newest
    obtain ⟨failedThen, isFailedThen⟩ := follows.early _ failed isFailed
      (Nat.le_trans olderId (SeqTable.find?_le_seq isSlotThen))
    refine ⟨failedThen, isFailedThen, fun unanswered => ?_⟩
    obtain ⟨failedNow, isFailedNow, failedHash, -⟩ := follows.slots _ failedThen isFailedThen
    obtain rfl := Option.some.inj (isFailed.symm.trans isFailedNow)
    obtain ⟨failedMem, failedId⟩ := Table.mem_of_find? isFailedThen
    obtain ⟨slotMem, sameId⟩ := Table.mem_of_find? isSlotThen
    have failedListed : failedThen.task.Listed := by
      rcases (stepsU.before.settled failedThen failedMem).answered unanswered with
        waits | runs
      · rw [waits]
        trivial
      · rw [runs]
        trivial
    have slotListed : slotThen.task.Listed := by
      rw [unspawned]
      trivial
    have same := stepsU.before.published.unique failedMem slotMem failedListed slotListed
      ((failedHash.symm.trans ofHash).trans (slotHash.symm.trans sameHash))
    rw [same, sameId] at failedId
    exact other failedId
  · obtain ⟨now, isNow, -, keepsNow⟩ := later.slots _ kept isKept
    obtain ⟨result, isResult⟩ := Option.ne_none_iff_exists'.mp ended
    refine ⟨now, isNow, ?_⟩
    rw [keepsNow result (keeps result isResult)]
    exact Option.some_ne_none result

omit [DecidableEq κ] in
/-- A failure that was told is the result of its slot. -/
theorem TellsFailure.ended {Same : Req → Req → Prop} (wired : Wired Same s) {slotId : Nat}
    (tells : s.TellsFailure slotId) : s.Ended slotId := by
  obtain ⟨invocation, member, -, call, isCall, rfl⟩ := tells
  obtain ⟨other, slot, isOther, isSlot, isResult⟩ := wired.invoked invocation member
  obtain rfl := Option.some.inj (isCall.symm.trans isOther)
  exact ⟨slot, isSlot, by rw [isResult]; exact Option.some_ne_none _⟩

/-- The callback of a call is given the result of the slot the call was made with. -/
theorem results_of_call {t : SchedulerStep κ Req Res}
    (run : (hashRequestScheduler κ Req Res concurrency).Run ts s) (member : t ∈ ts)
    {hashId : κ} {call : EnqueueCall Req Res} (isCall : t.post.calls.find? call.callId = some call)
    (isEntry : t.post.inFlight.find? hashId = some ⟨hashId, call.slotId⟩) :
    ∀ invocation ∈ s.invoked, invocation.callId = call.callId →
      ReturnedFor ts hashId call.slotId invocation.result := by
  intro invocation among sameCall
  have follows := (run_follows run).1 t member
  obtain ⟨made, slot, isMade, isSlot, isResult⟩ :=
    (reachable_scheduled run.reachable).wired.invoked invocation among
  obtain ⟨now, isNow, sameSlot⟩ := follows.calls _ call isCall
  rw [sameCall, isNow] at isMade
  obtain rfl := Option.some.inj isMade
  obtain ⟨slotMem, slotId⟩ := Table.mem_of_find? isSlot
  obtain ⟨known, isKnown, ofHash, -⟩ :=
    (run_steps run t member).after.published.find_slot isEntry
  obtain ⟨later, isLater, sameHash, -⟩ := follows.slots _ known isKnown
  rw [sameSlot, isLater] at isSlot
  obtain rfl := Option.some.inj isSlot
  have returned := run_returnedFor run later slotMem _ isResult
  rwa [slotId, sameSlot, sameHash, ofHash] at returned

theorem allRetried_of_findsNoFailure
    (run : (hashRequestScheduler κ Req Res concurrency).Run ts s)
    (admitted : ∀ t ∈ ts, FindsNoFailure t.pre t.event) : AllRetried ts s := by
  intro t member hashId request isEnqueue failed isFailed ofHash tells
  have steps := run_steps run t member
  have acts := steps.acts
  have finds := admitted t member
  rw [isEnqueue] at acts finds
  obtain ⟨call, isCall, sameId, isEntry, before⟩ := enqueue_call acts
  obtain ⟨slot, isSlot, ended⟩ := tells.ended steps.before.wired
  obtain rfl := Option.some.inj (isFailed.symm.trans isSlot)
  have other : call.slotId ≠ failed.slotId := by
    rcases before with joined | ⟨-, isNew⟩
    · intro same
      apply finds _ joined
      rwa [same]
    · have atMost := SeqTable.find?_le_seq isFailed
      omega
  refine ⟨call, isCall, other, ?_, ?_⟩
  · intro u among begins
    exact begins_after run member isEnqueue isFailed ofHash ended isEntry other among begins
  · rw [← sameId] at isCall
    exact results_of_call run member isCall isEntry

end HashRequestScheduler

open HashRequestScheduler

variable {κ Req Res : Type} [DecidableEq κ]

/-- In a run every call made after a callback for its hash was told of a failure has an
execution that begins after the failed one has ended, exactly if no call finds the slot of
an execution of which a callback was told that it failed. -/
theorem allRetried_iff {concurrency : Nat} {s : HashRequestScheduler κ Req Res}
    {ts : List (SchedulerStep κ Req Res)}
    (run : (hashRequestScheduler κ Req Res concurrency).Run ts s) :
    AllRetried ts s ↔ ∀ t ∈ ts, FindsNoFailure t.pre t.event :=
  ⟨fun retried => retried.findsNoFailure run, allRetried_of_findsNoFailure run⟩

/-! ## A retry while the callbacks run -/

namespace HashRequestScheduler

/-- The execution of the first call fails, and its callback is told. -/
def failedOnce : List (SchedulerEvent HashId Unit Unit) :=
  [.enqueue chunk (), .addCallback 1, .acquirePermit 1, .complete 1 (.error (.internal "failed")),
    .invoke 1]

/-- Whether the callback of the first call was told, for the slot with the first number. -/
def firstFailed (s : HashRequestScheduler HashId Unit Unit) : Bool :=
  s.invoked.any (fun invocation =>
    invocation.callId = 1 ∧ invocation.result = .error (.internal "failed")) &&
  decide ((s.calls.find? 1).map EnqueueCall.slotId = some 1)

theorem firstFailed_tells {s : HashRequestScheduler HashId Unit Unit}
    (failed : firstFailed s = true) : s.TellsFailure 1 := by
  obtain ⟨told, itsSlot⟩ := Bool.and_eq_true_iff.mp failed
  obtain ⟨invocation, member, isFirst⟩ := List.any_eq_true.mp told
  obtain ⟨sameCall, isError⟩ := of_decide_eq_true isFirst
  obtain ⟨call, isCall, inSlot⟩ := Option.map_eq_some_iff.mp (of_decide_eq_true itsSlot)
  exact ⟨invocation, member, ⟨_, isError⟩, call, by rwa [sameCall], inSlot⟩

end HashRequestScheduler

/-- A call made before the failed slot has left the map is given the old error. -/
theorem allRetried_fails : ¬ ∀ (s : HashRequestScheduler HashId Unit Unit)
    (ts : List (SchedulerStep HashId Unit Unit)),
    (hashRequestScheduler HashId Unit Unit 1).Run ts s → AllRetried ts s := by
  intro claimed
  have computed : ((hashRequestScheduler HashId Unit Unit 1).exec (new 1) failedOnce).map
      (fun s => (firstFailed s, (s.inFlight.find? chunk).map InFlight.slotId)) =
        some (true, some 1) := by decide +kernel
  obtain ⟨s, ends, facts⟩ := Option.map_eq_some_iff.mp computed
  obtain ⟨failed, isListed⟩ := Prod.mk.inj facts
  obtain ⟨entry, isEntry, isFirst⟩ := Option.map_eq_some_iff.mp isListed
  have start : (hashRequestScheduler HashId Unit Unit 1).Run [] (new 1) := .init rfl
  obtain ⟨ts, run, -⟩ := start.exec failedOnce ends
  have again : (hashRequestScheduler HashId Unit Unit 1).step s (.enqueue chunk ()) =
    some (s.enqueue chunk ()) := rfl
  have joined := run.step again
  have finds := (claimed _ _ joined).findsNoFailure joined _ List.mem_cons_self entry isEntry
  rw [isFirst] at finds
  exact finds (firstFailed_tells failed)

/-- The failed slot has left the map when the second call is made. -/
theorem allRetried_iff_removed : ∃ (s : HashRequestScheduler HashId Unit Unit)
    (ts : List (SchedulerStep HashId Unit Unit)),
    (hashRequestScheduler HashId Unit Unit 1).Run ts s ∧ s.TellsFailure 1 ∧
    (s.calls.find? 2).map EnqueueCall.slotId = some 2 ∧
    (AllRetried ts s ↔ ∀ t ∈ ts, FindsNoFailure t.pre t.event) := by
  have computed : ((hashRequestScheduler HashId Unit Unit 1).exec (new 1)
      (failedOnce ++ [.remove 1, .releasePermit 1, .enqueue chunk ()])).map
        (fun s => (firstFailed s, (s.calls.find? 2).map EnqueueCall.slotId)) =
          some (true, some 2) := by decide +kernel
  obtain ⟨s, ends, facts⟩ := Option.map_eq_some_iff.mp computed
  obtain ⟨failed, itsSlot⟩ := Prod.mk.inj facts
  have start : (hashRequestScheduler HashId Unit Unit 1).Run [] (new 1) := .init rfl
  obtain ⟨ts, run, -⟩ := start.exec _ ends
  exact ⟨s, _, run, firstFailed_tells failed, itsSlot, allRetried_iff run⟩

/-! ## Calls that are dropped -/

namespace HashRequestScheduler

variable {s s' : HashRequestScheduler κ Req Res} {e : SchedulerEvent κ Req Res}

/-- A slot in the map has a result, or the call that owns it or the task of that call is
still there; at rest no slot holds a callback. -/
structure Attended (s : HashRequestScheduler κ Req Res) : Prop where
  listed : ∀ entry ∈ s.inFlight.rows, ∃ slot, s.slots.find? entry.slotId = some slot ∧
    (slot.result ≠ none ∨ (∃ call ∈ s.calls.rows, call.slotId = slot.slotId ∧ call.Pending) ∨
      slot.task.InProgress)
  answered : s.Idle → ∀ slot ∈ s.slots.rows, slot.awaited = []

/-- A call that owns its slot is not dropped. -/
def KeepsOwners (s : HashRequestScheduler κ Req Res) : SchedulerEvent κ Req Res → Prop
  | .drop callId => ∀ call, s.calls.find? callId = some call → call.isOwner = false
  | _ => True

/-- No call that owns its slot was dropped. -/
structure OwnersKept (concurrency : Nat) (s : HashRequestScheduler κ Req Res) : Prop where
  scheduled : Scheduled concurrency s
  kept : ∀ call ∈ s.calls.rows, call.isOwner = true → call.phase ≠ .dropped

theorem ownersKept_step {concurrency : Nat} (owners : OwnersKept concurrency s)
    (keeps : s.KeepsOwners e) (taken : s.step e = some s') : OwnersKept concurrency s' := by
  refine ⟨scheduled_step owners.scheduled taken, ?_⟩
  intro call member isOwner dropped
  rcases dropped_acts (step_acts taken) member dropped with old | ⟨old, rfl, isOld, kept⟩
  · exact owners.kept call old isOwner dropped
  · have noOwner := keeps old isOld
    rw [← kept.isOwner, isOwner] at noOwner
    cases noOwner

theorem OwnersKept.attended {concurrency : Nat} (owners : OwnersKept concurrency s) :
    Attended s := by
  have scheduled := owners.scheduled
  constructor
  · intro entry member
    obtain ⟨slot, isSlot, -, listed⟩ := scheduled.published.entry_slot entry member
    refine ⟨slot, isSlot, .inr ?_⟩
    cases task : slot.task with
    | unspawned =>
        obtain ⟨call, isCall, inSlot, isOwner, unreturned⟩ :=
          scheduled.owned slot (Table.mem_of_find? isSlot).1 task
        exact .inl ⟨call, isCall, inSlot, isOwner, unreturned, owners.kept call isCall isOwner⟩
    | running => exact .inr trivial
    | completing callbacks result => exact .inr trivial
    | removed => exact .inr trivial
    | finished =>
        rw [task] at listed
        exact listed.elim
  · intro idle slot member
    exact awaited_of_finished (scheduled.settled slot member)
      (idle.finished scheduled owners.kept slot member)

/-- A slot whose owner is dropped has nobody left that answers its callbacks. -/
theorem not_attended {concurrency : Nat} (scheduled : Scheduled concurrency s)
    (drops : ¬ s.KeepsOwners e) (taken : s.step e = some s') : ¬ Attended s' := by
  have acts := step_acts taken
  cases acts with
  | @drop call isCall waiting =>
      intro attended
      have isOwner : call.isOwner = true := by
        by_contra noOwner
        apply drops
        intro other isOther
        obtain rfl := Option.some.inj (isCall.symm.trans isOther)
        exact Bool.eq_false_iff.mpr noOwner
      have callMem := (Table.mem_of_find? isCall).1
      have pending : call.Pending := by
        rcases waiting with adding | acquiring
        · exact ⟨isOwner, by rw [adding]; nofun, by rw [adding]; nofun⟩
        · exact ⟨isOwner, by rw [acquiring]; nofun, by rw [acquiring]; nofun⟩
      obtain ⟨slot, isSlot, -⟩ := scheduled.wired.call_slot call callMem
      obtain ⟨slotMem, slotId⟩ := Table.mem_of_find? isSlot
      have unspawned := scheduled.wired.unspawned call callMem pending slot isSlot
      have isEntry := scheduled.published.slot_entry slot slotMem (by rw [unspawned]; trivial)
      obtain ⟨found, isFound, alive⟩ :=
        attended.listed ⟨slot.hashId, slot.slotId⟩ (Table.mem_of_find? isEntry).1
      have sameSlot : s.slots.find? slot.slotId = some found := isFound
      rw [slotId, isSlot] at sameSlot
      obtain rfl := Option.some.inj sameSlot
      rcases alive with answered | ⟨other, otherMem, inSlot, otherPending⟩ | inProgress
      · exact answered (scheduled.wired.unanswered slot slotMem (.inl unspawned))
      · rcases SeqTable.mem_replace otherMem with rfl | ⟨old, otherId⟩
        · exact otherPending.2.2 rfl
        · have same := scheduled.wired.owner other old call callMem otherPending.1 isOwner
            (inSlot.trans slotId)
          have sameId : other.callId = call.callId := congrArg EnqueueCall.callId same
          exact otherId sameId
      · rw [unspawned] at inProgress
        exact inProgress
  | _ => exact absurd trivial drops

end HashRequestScheduler

/-- In a run every slot in the map has a result, or a call or a task that will give it one,
and no callback is left unanswered at rest, exactly if no call that owns its slot is
dropped. -/
theorem attended_iff {concurrency : Nat} {s : HashRequestScheduler κ Req Res}
    {ts : List (SchedulerStep κ Req Res)}
    (run : (hashRequestScheduler κ Req Res concurrency).Run ts s) :
    (∀ x ∈ visited ts s, Attended x) ↔ ∀ t ∈ ts, KeepsOwners t.pre t.event := by
  apply run.all_visited_iff_guard (OwnersKept concurrency) Attended KeepsOwners
  · rintro _ rfl
    exact ⟨new_scheduled concurrency, nofun⟩
  · intro s e s' owners keeps taken
    exact ownersKept_step owners keeps taken
  · intro s owners
    exact owners.attended
  · intro s e s' owners drops taken
    exact not_attended owners.scheduled drops taken

namespace HashRequestScheduler

/-- The owner of a slot is dropped while it waits for a permit, after another call has
joined the slot. -/
def ownerDropped : List (SchedulerEvent HashId Unit Unit) :=
  [.enqueue chunk (), .addCallback 1, .enqueue chunk (), .addCallback 2, .drop 1]

/-- The calls have returned or are dropped, and no task was spawned. -/
def nothingRuns (s : HashRequestScheduler HashId Unit Unit) : Bool :=
  s.calls.rows.all (fun call => call.phase = .returned ∨ call.phase = .dropped) &&
    s.slots.rows.all fun slot => slot.task = .unspawned

theorem nothingRuns_idle {s : HashRequestScheduler HashId Unit Unit}
    (stopped : nothingRuns s = true) : s.Idle := by
  obtain ⟨calls, slots⟩ := Bool.and_eq_true_iff.mp stopped
  constructor
  · exact fun call member => of_decide_eq_true (List.all_eq_true.mp calls call member)
  · intro slot member
    rw [of_decide_eq_true (List.all_eq_true.mp slots slot member)]
    exact id

end HashRequestScheduler

/-- When the owner is dropped, the callbacks of its slot are never answered. -/
theorem attended_fails : ¬ ∀ s : HashRequestScheduler HashId Unit Unit,
    (hashRequestScheduler HashId Unit Unit 1).Reachable s → Attended s := by
  intro claimed
  have computed : ((hashRequestScheduler HashId Unit Unit 1).exec (new 1) ownerDropped).map
      (fun s => (nothingRuns s, s.slots.rows.map RequestSlot.awaited)) =
        some (true, [[1, 2]]) := by decide +kernel
  obtain ⟨s, ends, facts⟩ := Option.map_eq_some_iff.mp computed
  obtain ⟨stopped, awaited⟩ := Prod.mk.inj facts
  have initial : (hashRequestScheduler HashId Unit Unit 1).Init (new 1) := rfl
  have attended := claimed s (System.exec_reachable _ initial ends)
  have held : [1, 2] ∈ s.slots.rows.map RequestSlot.awaited := by
    rw [awaited]
    exact List.mem_cons_self
  obtain ⟨slot, member, isHeld⟩ := List.mem_map.mp held
  rw [attended.answered (nothingRuns_idle stopped) slot member] at isHeld
  cases isHeld

/-- A call that has joined a slot is dropped before its callback is added. -/
theorem attended_iff_joined : ∃ (s : HashRequestScheduler HashId Unit Unit)
    (ts : List (SchedulerStep HashId Unit Unit)),
    (hashRequestScheduler HashId Unit Unit 1).Run ts s ∧
    s.calls.rows.map EnqueueCall.phase = [.returned, .dropped] ∧
    ((∀ x ∈ visited ts s, Attended x) ↔ ∀ t ∈ ts, KeepsOwners t.pre t.event) := by
  have computed : ((hashRequestScheduler HashId Unit Unit 1).exec (new 1)
      [.enqueue chunk (), .enqueue chunk (), .drop 2, .addCallback 1, .acquirePermit 1]).map
        (fun s => s.calls.rows.map EnqueueCall.phase) = some [.returned, .dropped] := by
    decide +kernel
  obtain ⟨s, ends, phases⟩ := Option.map_eq_some_iff.mp computed
  have start : (hashRequestScheduler HashId Unit Unit 1).Run [] (new 1) := .init rfl
  obtain ⟨ts, run, -⟩ := start.exec _ ends
  exact ⟨s, _, run, phases, attended_iff run⟩

end Fs0
