import Fs0.Volume.DataFileCache

/-!
Contract: the permits and locks of a data file cache, over whole runs.

Owns:
- that no more calls transfer at once than the two semaphores allow;
- that a mutex is held only by a call that goes on;
- that every call ends, whatever the order of the steps, and that some call can go on until all
  have ended.

Does not own: fairness. A step that can happen need not be the next one.
-/

set_option autoImplicit false

namespace Fs0

open Lib

/-- How many calls may transfer at once. -/
def DataFileCacheConfig.limit (config : DataFileCacheConfig) (writes : Bool) : Nat :=
  max (if writes then config.maxWriters else config.maxReaders) 1

/-- Whether the call holds a permit for writes, or for reads. -/
def CacheCall.holds (writes : Bool) (c : CacheCall) : Nat :=
  match c.stage with
  | .transferring _ _ => if c.request.writes = writes then 1 else 0
  | _ => 0

/-- How many events the call can still go through. -/
def CacheCall.left (c : CacheCall) : Nat :=
  match c.stage with
  | .opening => c.request.size + 4
  | .opened _ => c.request.size + 3
  | .waiting _ => c.request.size + 2
  | .transferring _ buf => c.request.size + 1 - buf.length

/-- The events in which a call goes on. -/
def CacheEvent.works : CacheEvent → Bool
  | .reuse _ | .openFile _ _ | .preallocate _ _ | .acquire _ _ | .transfer _ _
  | .transferStops _ | .transferFails _ _ | .endRead _ | .syncData _ _ => true
  | _ => false

/-- How many events a new call leads to at most. -/
def CacheEvent.work : CacheEvent → Nat
  | .call request => request.size + 4
  | _ => 0

namespace DataFileCache

variable {config : DataFileCacheConfig} {s s' : DataFileCache} {e : CacheEvent}

theorem size_le_of_partly {request : CacheRequest} {buf : Bytes} (part : Partly request buf) :
    buf.length ≤ request.size := by
  cases request with
  | readAt index offset len => exact part
  | writeAt index offset bytes => exact part.length_le

def sum (s : DataFileCache) (f : CacheCall → Nat) : Nat := (s.calls.rows.map f).sum

/-- How many calls are transferring. -/
def running (s : DataFileCache) (writes : Bool) : Nat := s.sum (CacheCall.holds writes)

def work (s : DataFileCache) : Nat := s.sum CacheCall.left

/-! ## Sums over the calls -/

section Sums

variable (f : CacheCall → Nat) {c : CacheCall} {x : DataFileCache}

theorem sum_ends (same : x.calls = s.calls) (member : c ∈ s.calls.rows)
    (result : Fs0Result Bytes) : (x.ends c result).sum f + f c = s.sum f := by
  rw [sum, ends, same]
  exact SeqTable.sum_delete f member

theorem sum_endTransfer (same : x.calls = s.calls) (member : c ∈ s.calls.rows)
    (result : Fs0Result Bytes) : (x.endTransfer c result).sum f + f c = s.sum f := by
  rw [sum, endTransfer_calls, same]
  exact SeqTable.sum_delete f member

/-- A call that has its file waits for a permit, or is gone. -/
theorem sum_hasFile (same : x.calls = s.calls) (member : c ∈ s.calls.rows) (file : OpenFile) :
    (x.hasFile c file).sum f + f c = s.sum f ∨
      (x.hasFile c file).sum f + f c = s.sum f + f { c with stage := .waiting file } := by
  rw [sum, hasFile, same]
  dsimp only
  split
  · exact .inl (SeqTable.sum_delete f member)
  · exact .inr (SeqTable.sum_replace f member rfl)

/-- A call that is refused leaves the others as they were. -/
theorem sum_refused (s : DataFileCache) (request : CacheRequest) :
    (((s.calls.push (fun number => ⟨number, request, .opening, false⟩) fun _ => rfl).delete
      fun other => other.call == s.calls.seq + 1).rows.map f).sum = s.sum f := by
  have added := SeqTable.sum_push s.calls
    (fun number => (⟨number, request, .opening, false⟩ : CacheCall)) (fun _ => rfl) f
  have member : (⟨s.calls.seq + 1, request, .opening, false⟩ : CacheCall) ∈
      (s.calls.push (fun number => (⟨number, request, .opening, false⟩ : CacheCall))
        fun _ => rfl).rows := mem_appended.mpr (.inr rfl)
  have removed := SeqTable.sum_delete f member
  exact Nat.add_right_cancel (removed.trans added)

theorem sum_reopened (config : DataFileCacheConfig) (s : DataFileCache)
    (files : Nat → Option (DiskFile UInt8)) : (s.reopened config files).sum f = 0 := by
  unfold sum reopened
  rw [SeqTable.rows_delete, List.filter_eq_nil_iff.mpr (by simp)]
  rfl

end Sums

/-! ## Work -/

section Work

variable {c : CacheCall} {x : DataFileCache}

/-- A call that ends had something left to do. -/
theorem work_ends (same : x.calls = s.calls) (member : c ∈ s.calls.rows)
    (some : 0 < c.left) (result : Fs0Result Bytes) : (x.ends c result).work + 1 ≤ s.work := by
  have ended := sum_ends CacheCall.left same member result
  rw [work, work]
  omega

theorem work_endTransfer (handles : Handles s.slots s.files s.calls) (same : x.calls = s.calls)
    (member : c ∈ s.calls.rows) {file : OpenFile} {buf : Bytes}
    (here : c.stage = .transferring file buf) (result : Fs0Result Bytes) :
    (x.endTransfer c result).work + 1 ≤ s.work := by
  have ended := sum_endTransfer CacheCall.left same member result
  have fits := handles.stages c member
  rw [Fits, here] at fits
  have short : buf.length ≤ c.request.size := size_le_of_partly fits.2
  have left : c.left = c.request.size + 1 - buf.length := by rw [CacheCall.left, here]
  rw [work, work]
  omega

theorem work_hasFile (same : x.calls = s.calls) (member : c ∈ s.calls.rows) (file : OpenFile)
    (more : c.request.size + 2 < c.left) : (x.hasFile c file).work + 1 ≤ s.work := by
  have after : ({ c with stage := .waiting file } : CacheCall).left = c.request.size + 2 := rfl
  have changed := sum_hasFile CacheCall.left same member file
  rw [work, work]
  omega

/-- A call that goes on to a later stage. -/
theorem work_replace {c' : CacheCall} (member : c ∈ s.calls.rows) (isCall : c'.call = c.call)
    (less : c'.left < c.left) :
    ((s.calls.replace c').rows.map CacheCall.left).sum + 1 ≤ s.work := by
  have changed := SeqTable.sum_replace CacheCall.left member isCall
  rw [work, sum]
  omega

end Work

/-- A step in which a call goes on leaves less to do, and only a new call leaves more. -/
theorem work_step (handles : Handles s.slots s.files s.calls) (step : CacheStep config s e s') :
    s'.work + e.works.toNat ≤ s.work + e.work := by
  cases step with
  | begins request below => exact Nat.le_of_eq (SeqTable.sum_push s.calls _ _ CacheCall.left)
  | refuses request err =>
      have same := sum_refused CacheCall.left s request
      exact Nat.le_trans (Nat.le_of_eq same) (Nat.le_add_right _ _)
  | reuses c slot file member here found cached =>
      exact work_hasFile rfl member file (by simp [CacheCall.left, here])
  | openFails c err member here =>
      exact work_ends rfl member (by simp [CacheCall.left, here]) _
  | opensToWrite c member here writes =>
      exact work_replace member rfl (by simp [CacheCall.left, here])
  | opensToRead c member here there =>
      exact work_hasFile rfl member _ (by simp [CacheCall.left, here])
  | preallocates c file member here =>
      exact work_hasFile rfl member _ (by simp [CacheCall.left, here])
  | preallocateFails c file err member here =>
      refine work_ends ?_ member (by simp [CacheCall.left, here]) (.error (ioError err))
      rfl
  | acquires c file now member here left =>
      exact work_replace member rfl (by simp [CacheCall.left, here])
  | reads c file buf index offset len count f member here isRead found positive fits inside =>
      refine work_replace member rfl ?_
      simp only [CacheCall.left, here, isRead, CacheRequest.size, List.length_append, slice_length]
      omega
  | writes c file buf index offset count bytes f member here isWrite found positive fits =>
      refine work_replace member rfl ?_
      simp only [CacheCall.left, here, isWrite, CacheRequest.size, List.length_append,
        List.length_take, List.length_drop]
      omega
  | stops c file buf err member here atEnd => exact work_endTransfer handles rfl member here _
  | fails c file buf err member here of =>
      have ended := work_endTransfer handles rfl member here (.error (ioError err))
      rcases of with rfl | rfl
      · exact ended
      · exact ended
  | endsRead c file buf index offset len member here isRead whole =>
      exact work_endTransfer handles rfl member here _
  | syncs c file buf index offset bytes member here isWrite whole =>
      refine work_endTransfer handles ?_ member here (.ok [])
      rfl
  | leaves c file member here =>
      have gone := SeqTable.sum_delete CacheCall.left member
      exact Nat.le_trans (Nat.le_add_right _ _) (Nat.le_of_eq gone)
  | drops c member =>
      have same := SeqTable.map_replace member
        (rfl : ({ c with dropped := true } : CacheCall).call = c.call)
        (rfl : ({ c with dropped := true } : CacheCall).left = c.left)
      exact Nat.le_of_eq (congrArg List.sum same)
  | findsIdle index now => exact Nat.le_refl _
  | closesIdle index => exact Nat.le_refl _
  | restarts =>
      have none := sum_reopened CacheCall.left config s s.files
      exact Nat.le_trans (Nat.le_of_eq none) (Nat.zero_le _)
  | crashes gone lens torn =>
      have none := sum_reopened CacheCall.left config s (s.crashedFiles gone lens torn)
      exact Nat.le_trans (Nat.le_of_eq none) (Nat.zero_le _)

/-! ## Locks -/

/-- A mutex is held by a call that has opened the file of its slot. -/
def Locks (slots : List DataFileSlot) (calls : SeqTable CacheCall.call) : Prop :=
  ∀ index slot number, slots[index]? = some slot → slot.locked = some number →
    ∃ c ∈ calls.rows, c.call = number ∧ c.request.index = index ∧ ∃ file, c.stage = .opened file

section Locks

variable {slots : List DataFileSlot} {calls calls' : SeqTable CacheCall.call} {c : CacheCall}

theorem Locks.modify (locks : Locks slots calls) (index : Nat) (g : DataFileSlot → DataFileSlot)
    (keeps : ∀ slot, (g slot).locked = slot.locked) : Locks (slots.modify index g) calls := by
  intro other slot number found isLocked
  rw [List.getElem?_modify] at found
  obtain ⟨old, isOld, rfl⟩ := Option.map_eq_some_iff.mp found
  refine locks other old number isOld ?_
  split at isLocked
  · rw [← keeps, isLocked]
  · exact isLocked

theorem Locks.kept (locks : Locks slots calls)
    (keeps : ∀ d ∈ calls.rows, ∀ file, d.stage = .opened file →
      ∃ d' ∈ calls'.rows, d'.call = d.call ∧ d'.request = d.request ∧ d'.stage = d.stage) :
    Locks slots calls' := by
  intro index slot number found isLocked
  obtain ⟨d, member, isCall, isIndex, file, here⟩ := locks index slot number found isLocked
  obtain ⟨d', among, sameCall, sameRequest, sameStage⟩ := keeps d member file here
  exact ⟨d', among, sameCall.trans isCall, sameRequest ▸ isIndex, file, sameStage.trans here⟩

/-- The other calls are still there, as they were. -/
def Others (c : CacheCall) (calls calls' : SeqTable CacheCall.call) : Prop :=
  ∀ d ∈ calls.rows, d.call ≠ c.call → d ∈ calls'.rows

theorem others_delete (c : CacheCall) (calls : SeqTable CacheCall.call) :
    Others c calls (calls.delete fun other => other.call == c.call) :=
  fun _ member other => SeqTable.mem_delete.mpr ⟨member, by simpa using other⟩

theorem others_replace (calls : SeqTable CacheCall.call) {c c' : CacheCall}
    (isCall : c'.call = c.call) : Others c calls (calls.replace c') :=
  fun _ member other => SeqTable.mem_replace_of_ne member fun same => other (same.trans isCall)

theorem others_hasFile (s : DataFileCache) (c : CacheCall) (file : OpenFile) :
    Others c s.calls (s.hasFile c file).calls := by
  unfold hasFile
  dsimp only
  split
  · exact others_delete c s.calls
  · exact others_replace s.calls (c := c) rfl

/-- A call that holds no mutex changes. -/
theorem Locks.others (locks : Locks slots calls) (member : c ∈ calls.rows)
    (others : Others c calls calls') (free : ∀ file, c.stage ≠ .opened file) :
    Locks slots calls' := by
  refine locks.kept fun d among file here => ⟨d, others d among ?_, rfl, rfl, rfl⟩
  intro same
  obtain rfl := Table.eq_of_key_eq among member same
  exact free file here

theorem locks_reopened (config : DataFileCacheConfig) (s : DataFileCache)
    (files : Nat → Option (DiskFile UInt8)) :
    Locks (s.reopened config files).slots (s.reopened config files).calls := by
  intro index slot number found isLocked
  have isNew : slot = .new := List.eq_of_mem_replicate (List.mem_of_getElem? found)
  rw [isNew] at isLocked
  cases isLocked

/-- A call lets its mutex go. -/
theorem Locks.unlock (locks : Locks slots calls) (member : c ∈ calls.rows)
    (others : Others c calls calls') (g : DataFileSlot → DataFileSlot)
    (free : ∀ slot, (g slot).locked = none) :
    Locks (slots.modify c.request.index g) calls' := by
  intro index slot number found isLocked
  rw [List.getElem?_modify] at found
  obtain ⟨old, isOld, rfl⟩ := Option.map_eq_some_iff.mp found
  by_cases same : c.request.index = index
  · rw [if_pos same, free] at isLocked
    cases isLocked
  · rw [if_neg same] at isLocked
    obtain ⟨d, among, isCall, isIndex, holding⟩ := locks index old number isOld isLocked
    refine ⟨d, others d among fun one => same ?_, isCall, isIndex, holding⟩
    rw [← isIndex, Table.eq_of_key_eq among member one]

/-- A call takes the mutex of its slot. -/
theorem Locks.lock (locks : Locks slots calls) (member : c ∈ calls.rows)
    (here : c.stage = .opening) (file : OpenFile) :
    Locks (slots.modify c.request.index fun slot => { slot with locked := some c.call })
      (calls.replace { c with stage := .opened file }) := by
  have taken : ({ c with stage := .opened file } : CacheCall) ∈
      (calls.replace { c with stage := .opened file }).rows := SeqTable.mem_replace_self member rfl
  have before : Locks slots (calls.replace { c with stage := .opened file }) :=
    locks.others member (others_replace calls (c := c) rfl) fun other opened => by
      rw [here] at opened
      cases opened
  intro index slot number found isLocked
  rw [List.getElem?_modify] at found
  obtain ⟨old, isOld, rfl⟩ := Option.map_eq_some_iff.mp found
  by_cases same : c.request.index = index
  · rw [if_pos same] at isLocked
    exact ⟨_, taken, Option.some.inj isLocked, same, file, rfl⟩
  · rw [if_neg same] at isLocked
    exact before index old number isOld isLocked

end Locks

/-! ## Permits -/

/-- The permits that are left and the calls that transfer add up to the limit, and every call has
a slot. -/
structure Counted (config : DataFileCacheConfig) (s : DataFileCache) : Prop where
  permits : ∀ writes, s.permits writes + s.running writes = config.limit writes
  slots : s.slots.length = config.dataFiles
  inRange : ∀ c ∈ s.calls.rows, c.request.index < config.dataFiles
  locks : Locks s.slots s.calls

theorem permits_setPermits (s : DataFileCache) (kind writes : Bool) (permits : Nat) :
    (s.setPermits kind permits).permits writes =
      if kind = writes then permits else s.permits writes := by
  cases kind <;> cases writes <;> rfl

section Permits

variable {c : CacheCall} {x : DataFileCache} {writes : Bool}

theorem running_ends (same : x.calls = s.calls) (member : c ∈ s.calls.rows)
    (none : c.holds writes = 0) (result : Fs0Result Bytes) :
    (x.ends c result).running writes = s.running writes := by
  have ended := sum_ends (CacheCall.holds writes) same member result
  rw [running, running]
  omega

theorem running_hasFile (same : x.calls = s.calls) (member : c ∈ s.calls.rows)
    (none : c.holds writes = 0) (file : OpenFile) :
    (x.hasFile c file).running writes = s.running writes := by
  have after : ({ c with stage := .waiting file } : CacheCall).holds writes = 0 := rfl
  have changed := sum_hasFile (CacheCall.holds writes) same member file
  rw [running, running]
  omega

theorem running_replace {c' : CacheCall} (member : c ∈ s.calls.rows) (isCall : c'.call = c.call)
    (agree : c'.holds writes = c.holds writes) :
    ((s.calls.replace c').rows.map (CacheCall.holds writes)).sum = s.running writes :=
  congrArg List.sum (SeqTable.map_replace member isCall agree)

theorem permits_endTransfer (x : DataFileCache) (c : CacheCall) (result : Fs0Result Bytes) :
    (x.endTransfer c result).permits writes =
      if c.request.writes = writes then x.permits writes + 1 else x.permits writes := by
  have given : (x.endTransfer c result).permits writes = _ :=
    permits_setPermits x c.request.writes writes (x.permits c.request.writes + 1)
  rw [given]
  split
  · next same => rw [same]
  · rfl

/-- A transfer that is over gives its permit back. -/
theorem counted_endTransfer (sameCalls : x.calls = s.calls)
    (samePermits : x.permits writes = s.permits writes) (member : c ∈ s.calls.rows)
    {file : OpenFile} {buf : Bytes} (here : c.stage = .transferring file buf)
    (result : Fs0Result Bytes) :
    (x.endTransfer c result).permits writes + (x.endTransfer c result).running writes =
      s.permits writes + s.running writes := by
  have ended := sum_endTransfer (CacheCall.holds writes) sameCalls member result
  have held : c.holds writes = if c.request.writes = writes then 1 else 0 := by
    rw [CacheCall.holds, here]
  rw [permits_endTransfer, samePermits, running, running]
  split at held
  · next kind =>
    rw [if_pos kind]
    omega
  · next kind =>
    rw [if_neg kind]
    omega

end Permits

theorem limit_reopened (config : DataFileCacheConfig) (s : DataFileCache)
    (files : Nat → Option (DiskFile UInt8)) (writes : Bool) :
    (s.reopened config files).permits writes + (s.reopened config files).running writes =
      config.limit writes := by
  have none : (s.reopened config files).running writes = 0 := sum_reopened _ config s files
  rw [none]
  cases writes <;> rfl

/-- Only a reopening sets the permits anew. -/
theorem permits_step (counted : ∀ writes, s.permits writes + s.running writes = config.limit writes)
    (step : CacheStep config s e s') (writes : Bool) :
    s'.permits writes + s'.running writes = config.limit writes := by
  rw [← counted writes]
  have idle {c : CacheCall} (stage : CacheStage) (here : c.stage = stage)
      (none : ∀ file buf, stage ≠ .transferring file buf) : c.holds writes = 0 := by
    unfold CacheCall.holds
    split
    · next file buf transferring => exact absurd (here.symm.trans transferring) (none file buf)
    · rfl
  cases step with
  | begins request below =>
      exact congrArg _ (SeqTable.sum_push s.calls _ _ (CacheCall.holds writes))
  | refuses request err => exact congrArg _ (sum_refused (CacheCall.holds writes) s request)
  | reuses c slot file member here found cached =>
      exact congrArg _ (running_hasFile rfl member (idle _ here (by simp)) file)
  | openFails c err member here =>
      exact congrArg _ (running_ends rfl member (idle _ here (by simp)) _)
  | opensToWrite c member here writing =>
      refine congrArg _ (running_replace member rfl ?_)
      rw [idle _ here (by simp)]
      rfl
  | opensToRead c member here there =>
      exact congrArg _ (running_hasFile rfl member (idle _ here (by simp)) _)
  | preallocates c file member here =>
      exact congrArg _ (running_hasFile rfl member (idle _ here (by simp)) _)
  | preallocateFails c file err member here =>
      refine congrArg _ (running_ends ?_ member (idle _ here (by simp)) (.error (ioError err)))
      rfl
  | acquires c file now member here left =>
      have before : c.holds writes = 0 := idle _ here (by simp)
      have after : ({ c with stage := .transferring file [] } : CacheCall).holds writes =
          if c.request.writes = writes then 1 else 0 := rfl
      have started := SeqTable.sum_replace (CacheCall.holds writes) member
        (rfl : ({ c with stage := .transferring file [] } : CacheCall).call = c.call)
      show (s.setPermits c.request.writes (s.permits c.request.writes - 1)).permits writes +
        ((s.calls.replace { c with stage := .transferring file [] }).rows.map
          (CacheCall.holds writes)).sum = s.permits writes + s.sum (CacheCall.holds writes)
      rw [before, after] at started
      rw [permits_setPermits, sum]
      by_cases kind : c.request.writes = writes
      · rw [kind] at left
        rw [if_pos kind] at started ⊢
        rw [kind]
        omega
      · rw [if_neg kind] at started ⊢
        omega
  | reads c file buf index offset len count f member here isRead found positive fits inside =>
      refine congrArg _ (running_replace member rfl ?_)
      rw [CacheCall.holds, CacheCall.holds, here]
  | writes c file buf index offset count bytes f member here isWrite found positive fits =>
      refine congrArg _ (running_replace member rfl ?_)
      rw [CacheCall.holds, CacheCall.holds, here]
  | stops c file buf err member here atEnd => exact counted_endTransfer rfl rfl member here _
  | fails c file buf err member here of => exact counted_endTransfer rfl rfl member here _
  | endsRead c file buf index offset len member here isRead whole =>
      exact counted_endTransfer rfl rfl member here _
  | syncs c file buf index offset bytes member here isWrite whole =>
      refine counted_endTransfer ?_ ?_ member here (.ok [])
      · rfl
      · rfl
  | leaves c file member here =>
      have gone := SeqTable.sum_delete (CacheCall.holds writes) member
      rw [idle _ here (by simp)] at gone
      exact congrArg _ gone
  | drops c member => exact congrArg _ (running_replace member rfl rfl)
  | findsIdle index now => rfl
  | closesIdle index => rfl
  | restarts => rw [limit_reopened, counted]
  | crashes gone lens torn => rw [limit_reopened, counted]

theorem slots_step (slots : s.slots.length = config.dataFiles) (step : CacheStep config s e s') :
    s'.slots.length = config.dataFiles := by
  cases step with
  | opensToWrite c member here writing => exact (List.length_modify ..).trans slots
  | opensToRead c member here there => exact (List.length_modify ..).trans slots
  | preallocates c file member here => exact (List.length_modify ..).trans slots
  | preallocateFails c file err member here => exact (List.length_modify ..).trans slots
  | acquires c file now member here left =>
      obtain ⟨readSem, writeSem, isState⟩ :=
        setPermits_eq s c.request.writes (s.permits c.request.writes - 1)
      rw [isState]
      exact (List.length_modify ..).trans slots
  | stops c file buf err member here atEnd =>
      exact (congrArg _ (endTransfer_slots s c _)).trans slots
  | fails c file buf err member here of => exact (congrArg _ (endTransfer_slots s c _)).trans slots
  | endsRead c file buf index offset len member here isRead whole =>
      exact (congrArg _ (endTransfer_slots s c _)).trans slots
  | syncs c file buf index offset bytes member here isWrite whole =>
      exact (congrArg _ (endTransfer_slots _ c _)).trans slots
  | closesIdle index => exact (List.length_modify ..).trans slots
  | restarts => exact List.length_replicate
  | crashes gone lens torn => exact List.length_replicate
  | _ => exact slots

/-- A call asks for a file that has a slot. -/
theorem inRange_step (inRange : ∀ c ∈ s.calls.rows, c.request.index < config.dataFiles)
    (slots : s.slots.length = config.dataFiles) (step : CacheStep config s e s') :
    ∀ c ∈ s'.calls.rows, c.request.index < config.dataFiles := by
  have deleted {gone : CacheCall → Bool} {x : CacheCall} (member : x ∈ (s.calls.delete gone).rows) :
      x.request.index < config.dataFiles := inRange x (SeqTable.mem_delete.mp member).1
  have replaced {c c' x : CacheCall} (member : c ∈ s.calls.rows)
      (among : x ∈ (s.calls.replace c').rows) (same : c'.request = c.request) :
      x.request.index < config.dataFiles := by
    rcases SeqTable.mem_replace among with rfl | ⟨old, -⟩
    · rw [same]
      exact inRange c member
    · exact inRange x old
  have hasFile {x : DataFileCache} (same : x.calls = s.calls) {c y : CacheCall}
      (member : c ∈ s.calls.rows) {file : OpenFile} (among : y ∈ (x.hasFile c file).calls.rows) :
      y.request.index < config.dataFiles := by
    rw [DataFileCache.hasFile, same] at among
    dsimp only at among
    split at among
    · exact deleted among
    · exact replaced member among rfl
  cases step with
  | begins request below =>
      intro x among
      rcases mem_appended.mp among with old | rfl
      · exact inRange x old
      · exact slots ▸ below
  | refuses request err =>
      intro x among
      obtain ⟨among, other⟩ := SeqTable.mem_delete.mp among
      rcases mem_appended.mp among with old | rfl
      · exact inRange x old
      · simp at other
  | reuses c slot file member here found cached => exact fun x among => hasFile rfl member among
  | openFails c err member here => exact fun x among => deleted among
  | opensToWrite c member here writing => exact fun x among => replaced member among rfl
  | opensToRead c member here there =>
      refine fun x among => hasFile ?_ member among
      rfl
  | preallocates c file member here =>
      refine fun x among => hasFile ?_ member among
      rfl
  | preallocateFails c file err member here => exact fun x among => deleted among
  | acquires c file now member here left => exact fun x among => replaced member among rfl
  | reads c file buf index offset len count f member here isRead found positive fits inside =>
      exact fun x among => replaced member among rfl
  | writes c file buf index offset count bytes f member here isWrite found positive fits =>
      exact fun x among => replaced member among rfl
  | stops c file buf err member here atEnd =>
      rw [endTransfer_calls]
      exact fun x among => deleted among
  | fails c file buf err member here of =>
      rw [endTransfer_calls]
      exact fun x among => deleted among
  | endsRead c file buf index offset len member here isRead whole =>
      rw [endTransfer_calls]
      exact fun x among => deleted among
  | syncs c file buf index offset bytes member here isWrite whole =>
      rw [endTransfer_calls]
      exact fun x among => deleted among
  | leaves c file member here => exact fun x among => deleted among
  | drops c member => exact fun x among => replaced member among rfl
  | findsIdle index now => exact inRange
  | closesIdle index => exact inRange
  | restarts => exact fun x among => deleted among
  | crashes gone lens torn => exact fun x among => deleted among

theorem locks_step (handles : Handles s.slots s.files s.calls) (locks : Locks s.slots s.calls)
    (step : CacheStep config s e s') : Locks s'.slots s'.calls := by
  have free {c : CacheCall} {stage : CacheStage} (here : c.stage = stage)
      (other : ∀ file, stage ≠ .opened file) : ∀ file, c.stage ≠ .opened file :=
    fun file opened => other file (here.symm.trans opened)
  have endTransfer {c : CacheCall} {file : OpenFile} {buf : Bytes} (member : c ∈ s.calls.rows)
      (here : c.stage = .transferring file buf) : Locks s.slots
        (s.calls.delete fun other => other.call == c.call) :=
    locks.others member (others_delete c s.calls) (free here (by simp))
  cases step with
  | begins request below =>
      exact locks.kept fun d member file here =>
        ⟨d, mem_appended.mpr (.inl member), rfl, rfl, rfl⟩
  | refuses request err =>
      refine locks.kept fun d member file here =>
        ⟨d, SeqTable.mem_delete.mpr ⟨mem_appended.mpr (.inl member), ?_⟩, rfl, rfl, rfl⟩
      have below := s.calls.le_seq d member
      have other : d.call ≠ s.calls.seq + 1 := by omega
      simpa using other
  | reuses c slot file member here found cached =>
      exact locks.others member (others_hasFile s c file) (free here (by simp))
  | openFails c err member here =>
      exact locks.others member (others_delete c s.calls) (free here (by simp))
  | opensToWrite c member here writing => exact locks.lock member here _
  | opensToRead c member here there =>
      have kept : Locks s.slots (s.hasFile c ⟨c.request.index⟩).calls :=
        locks.others member (others_hasFile s c _) (free here (by simp))
      exact kept.modify _ _ fun slot => rfl
  | preallocates c file member here =>
      have fits := handles.stages c member
      rw [Fits, here] at fits
      have unlocked : Locks _ (s.hasFile c file).calls := locks.unlock member
        (others_hasFile s c file) (fun slot => { slot with file := some file, locked := none })
        fun slot => rfl
      rw [← fits.index_eq] at unlocked
      exact unlocked
  | preallocateFails c file err member here =>
      have fits := handles.stages c member
      rw [Fits, here] at fits
      have unlocked := locks.unlock member (others_delete c s.calls)
        (fun slot => { slot with locked := none }) fun slot => rfl
      rw [← fits.index_eq] at unlocked
      exact unlocked
  | acquires c file now member here left =>
      obtain ⟨readSem, writeSem, isState⟩ :=
        setPermits_eq s c.request.writes (s.permits c.request.writes - 1)
      rw [isState]
      have kept := locks.others member (others_replace s.calls
        (rfl : ({ c with stage := .transferring file [] } : CacheCall).call = c.call))
        (free here (by simp))
      exact kept.modify _ _ fun slot => rfl
  | reads c file buf index offset len count f member here isRead found positive fits inside =>
      refine locks.others member (others_replace s.calls ?_) (free here (by simp))
      rfl
  | writes c file buf index offset count bytes f member here isWrite found positive fits =>
      refine locks.others member (others_replace s.calls ?_) (free here (by simp))
      rfl
  | stops c file buf err member here atEnd =>
      rw [endTransfer_calls, endTransfer_slots]
      exact endTransfer member here
  | fails c file buf err member here of =>
      rw [endTransfer_calls, endTransfer_slots]
      exact endTransfer member here
  | endsRead c file buf index offset len member here isRead whole =>
      rw [endTransfer_calls, endTransfer_slots]
      exact endTransfer member here
  | syncs c file buf index offset bytes member here isWrite whole =>
      rw [endTransfer_calls, endTransfer_slots]
      exact endTransfer member here
  | leaves c file member here =>
      exact locks.others member (others_delete c s.calls) (free here (by simp))
  | drops c member =>
      refine locks.kept fun d among file here => ?_
      by_cases same : d.call = c.call
      · obtain rfl := Table.eq_of_key_eq among member same
        exact ⟨_, SeqTable.mem_replace_self member rfl, rfl, rfl, rfl⟩
      · exact ⟨d, SeqTable.mem_replace_of_ne among same, rfl, rfl, rfl⟩
  | findsIdle index now => exact locks
  | closesIdle index =>
      refine locks.modify _ _ fun slot => ?_
      split <;> rfl
  | restarts => exact locks_reopened config s _
  | crashes gone lens torn => exact locks_reopened config s _

theorem counted_of_reachable (reachable : (dataFileCache config).Reachable s) :
    s.Counted config := by
  obtain ⟨ts, run⟩ := reachable
  induction run with
  | init start =>
      obtain ⟨files, rfl⟩ := start
      have opened := locks_reopened config (.withCapacity config files) files
      refine ⟨fun writes => ?_, List.length_replicate, ?_, opened⟩
      · cases writes <;> rfl
      · exact fun c member => absurd member List.not_mem_nil
  | step run taken counted =>
      have step := step_cases taken
      exact ⟨permits_step counted.permits step, slots_step counted.slots step,
        inRange_step counted.inRange counted.slots step,
        locks_step (handles_of_reachable run.reachable) counted.locks step⟩

theorem work_run {ts : List (Transition DataFileCache CacheEvent)}
    (run : (dataFileCache config).Run ts s) :
    (ts.countP fun t => t.event.works) + s.work ≤ (ts.map fun t => t.event.work).sum := by
  induction run with
  | init start =>
      obtain ⟨files, rfl⟩ := start
      exact Nat.le_refl 0
  | @step ts s s' e run taken inductionHypothesis =>
      have less := work_step (handles_of_reachable run.reachable) (step_cases taken)
      rw [List.countP_cons, List.map_cons, List.sum_cons]
      have once : (if e.works = true then 1 else 0) = e.works.toNat := by
        cases e.works <;> rfl
      dsimp only at once ⊢
      omega

/-! ## Calls that go on -/

/-- Some call can take a step of its own. -/
def GoesOn (config : DataFileCacheConfig) (s : DataFileCache) : Prop :=
  ∃ e s', e.works = true ∧ (dataFileCache config).step s e = some s'

theorem goesOn_of_step {e : CacheEvent} {f : CacheCall → Option DataFileCache} {c : CacheCall}
    (works : e.works = true) (member : c ∈ s.calls.rows)
    (isStep : (dataFileCache config).step s e = s.callStep c.call f) (taken : (f c).isSome) :
    s.GoesOn config := by
  obtain ⟨s', taken⟩ := Option.isSome_iff_exists.mp taken
  have found : s.calls.find? c.call = some c := Table.find?_eq_some.mpr ⟨member, rfl⟩
  refine ⟨e, s', works, ?_⟩
  rw [isStep, callStep, found]
  exact taken

/-- A call that holds a mutex can fill its slot and let it go. -/
theorem goesOn_of_opened {c : CacheCall} {file : OpenFile} (member : c ∈ s.calls.rows)
    (here : c.stage = .opened file) : s.GoesOn config := by
  have taken : (s.preallocate c (.ok ())).isSome := by
    unfold preallocate
    rw [here]
    rfl
  exact goesOn_of_step (e := .preallocate c.call (.ok ())) rfl member rfl taken

/-- A call that holds a permit can go on with its transfer, or end. -/
theorem goesOn_of_transferring (handles : Handles s.slots s.files s.calls) {c : CacheCall}
    {file : OpenFile} {buf : Bytes} (member : c ∈ s.calls.rows)
    (here : c.stage = .transferring file buf) : s.GoesOn config := by
  have fits := handles.stages c member
  rw [Fits, here] at fits
  by_cases short : buf.length < c.request.size
  · have taken : (s.transferFails c (.os 5 "")).isSome := by
      rw [transferFails, here]
      dsimp only
      rw [if_pos short]
      rfl
    exact goesOn_of_step (e := .transferFails c.call (.os 5 "")) rfl member rfl taken
  · have whole : buf.length = c.request.size :=
      Nat.le_antisymm (size_le_of_partly fits.2) (Nat.le_of_not_lt short)
    cases isRequest : c.request with
    | readAt index offset len =>
        have whole : buf.length = len := by
          rw [whole, isRequest]
          rfl
        have taken : (s.endRead c).isSome := by
          rw [endRead, here, isRequest]
          dsimp only
          rw [if_pos whole]
          rfl
        exact goesOn_of_step (e := .endRead c.call) rfl member rfl taken
    | writeAt index offset bytes =>
        have whole : buf.length = bytes.length := by
          rw [whole, isRequest]
          rfl
        have taken : (s.syncData c (.error (.os 5 ""))).isSome := by
          rw [syncData, here, isRequest]
          dsimp only
          rw [if_pos whole]
          rfl
        exact goesOn_of_step (e := .syncData c.call (.error (.os 5 ""))) rfl member rfl taken

/-- A call that waits for a permit gets one, or another call holds it. -/
theorem goesOn_of_waiting (handles : Handles s.slots s.files s.calls) (counted : s.Counted config)
    {c : CacheCall} {file : OpenFile} (member : c ∈ s.calls.rows)
    (here : c.stage = .waiting file) : s.GoesOn config := by
  by_cases left : 0 < s.permits c.request.writes
  · have taken : (s.acquire c 0).isSome := by
      rw [acquire, here]
      dsimp only
      rw [if_pos left]
      rfl
    exact goesOn_of_step (e := .acquire c.call 0) rfl member rfl taken
  · have limit : 0 < config.limit c.request.writes :=
      Nat.lt_of_lt_of_le Nat.one_pos (Nat.le_max_right _ _)
    have total := counted.permits c.request.writes
    have held : 0 < s.running c.request.writes := by omega
    obtain ⟨count, among, positive⟩ := List.sum_pos_iff_exists_pos_nat.mp held
    obtain ⟨d, member, rfl⟩ := List.mem_map.mp among
    unfold CacheCall.holds at positive
    split at positive
    · next file buf transferring => exact goesOn_of_transferring handles member transferring
    · cases positive

/-- A call that waits for a mutex gets it, or the call that holds it goes on. -/
theorem goesOn_of_opening (counted : s.Counted config) {c : CacheCall} (member : c ∈ s.calls.rows)
    (here : c.stage = .opening) : s.GoesOn config := by
  have below : c.request.index < s.slots.length := counted.slots ▸ counted.inRange c member
  have found : s.slots[c.request.index]? = some s.slots[c.request.index] :=
    List.getElem?_eq_getElem below
  generalize s.slots[c.request.index] = slot at found
  cases isLocked : slot.locked with
  | some number =>
      obtain ⟨d, among, -, -, file, opened⟩ := counted.locks _ slot number found isLocked
      exact goesOn_of_opened among opened
  | none =>
      have free : s.freeSlot c = some slot := freeSlot_eq_some.mpr ⟨here, found, isLocked⟩
      cases cached : slot.file with
      | some file =>
          have taken : (s.reuse c).isSome := by
            rw [reuse, free, Option.bind_some, cached]
            rfl
          exact goesOn_of_step (e := .reuse c.call) rfl member rfl taken
      | none =>
          have taken : (s.openFile c (.error (.os 2 ""))).isSome := by
            rw [openFile, free, Option.bind_some, cached]
            rfl
          exact goesOn_of_step (e := .openFile c.call (.error (.os 2 ""))) rfl member rfl taken

theorem goesOn (handles : Handles s.slots s.files s.calls) (counted : s.Counted config)
    (some : s.calls.rows ≠ []) : s.GoesOn config := by
  obtain ⟨c, member⟩ := List.exists_mem_of_ne_nil _ some
  cases here : c.stage with
  | opening => exact goesOn_of_opening counted member here
  | opened file => exact goesOn_of_opened member here
  | waiting file => exact goesOn_of_waiting handles counted member here
  | transferring file buf => exact goesOn_of_transferring handles member here

end DataFileCache

/-! ## Calls end -/

/-- No more calls read or write at once than the semaphores allow. The calls go on until none is
left, and go through no more events than their buffers lead to, in whatever order. -/
theorem cache_calls_end {config : DataFileCacheConfig}
    {ts : List (Transition DataFileCache CacheEvent)} {s : DataFileCache}
    (run : (dataFileCache config).Run ts s) :
    (∀ writes, s.running writes ≤ config.limit writes) ∧
      (ts.countP fun t => t.event.works) ≤ (ts.map fun t => t.event.work).sum ∧
      (s.calls.rows ≠ [] → ∃ e s', e.works = true ∧ s.step config e = some s') := by
  have counted := DataFileCache.counted_of_reachable run.reachable
  refine ⟨fun writes => ?_, ?_, ?_⟩
  · exact Nat.le_of_add_left_le (Nat.le_of_eq (counted.permits writes))
  · exact Nat.le_of_add_right_le (DataFileCache.work_run run)
  · exact DataFileCache.goesOn (DataFileCache.handles_of_reachable run.reachable) counted

namespace DataFileCache.OneWriter

def config : DataFileCacheConfig := ⟨1, 1, 1⟩

def created : DataFileCache := .withCapacity config fun _ => none

/-- Two writes of one byte each. The second has the file that the first has opened, and waits for
its permit. -/
def events : List CacheEvent :=
  [.call (.writeAt 0 0 [7]), .call (.writeAt 0 1 [8]), .openFile 1 (.ok ()),
    .preallocate 1 (.ok ()), .reuse 2, .acquire 1 5]

def waiting : DataFileCache := ((dataFileCache config).exec created events).getD created

end DataFileCache.OneWriter

open DataFileCache.OneWriter in
theorem cache_calls_end_waiting : ∃ ts s, (dataFileCache config).Run ts s ∧
    s.running true = 1 ∧ s.running true ≤ config.limit true ∧
    (ts.countP fun t => t.event.works) ≤ (ts.map fun t => t.event.work).sum ∧
    ∃ e s', e.works = true ∧ s.step config e = some s' := by
  have start : (dataFileCache config).Run [] created := .init ⟨_, rfl⟩
  have ends : (dataFileCache config).exec created events = some waiting := rfl
  obtain ⟨ts, run, -⟩ := start.exec events ends
  obtain ⟨limited, bounded, goesOn⟩ := cache_calls_end run
  have two : waiting.calls.rows.length = 2 := rfl
  have some : waiting.calls.rows ≠ [] := by
    intro none
    rw [none] at two
    cases two
  exact ⟨_, waiting, run, rfl, limited true, bounded, goesOn some⟩

end Fs0
