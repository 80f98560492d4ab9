import Fs0.Volume.DataFileCache

/-!
Contract: bytes that `write_at` has written, until another write call has its range on them.

Owns:
- what a running write has made of the file, and what one that returned has made durable;
- that every later read gets these bytes, whatever the order of the steps, and over restarts
  and crashes.

Does not own: which ranges the chunks of a volume have.
-/

set_option autoImplicit false

namespace Fs0

open Lib

namespace DataFileCache

variable {config : DataFileCacheConfig} {s s' : DataFileCache} {e : CacheEvent}
  {files : Nat → Option (DiskFile UInt8)} {index p : Nat} {b : UInt8}

/-! ## Files -/

/-- A file is there and has a property. -/
def FileAt (files : Nat → Option (DiskFile UInt8)) (index : Nat) (Q : DiskFile UInt8 → Prop) :
    Prop :=
  ∃ f, files index = some f ∧ Q f

theorem FileAt.update {Q : DiskFile UInt8 → Prop} (at' : FileAt files index Q) {other : Nat}
    {file : Option (DiskFile UInt8)} (here : index = other → ∃ f, file = some f ∧ Q f) :
    FileAt (Function.update files other file) index Q := by
  obtain ⟨f, found, holds⟩ := at'
  by_cases same : index = other
  · obtain ⟨f', isFile, holds'⟩ := here same
    refine ⟨f', ?_, holds'⟩
    rw [same, Function.update_self, isFile]
  · exact ⟨f, by rw [Function.update_of_ne same, found], holds⟩

/-- What is said about one byte survives the calls of other bytes. -/
structure OfByte (p : Nat) (Q : DiskFile UInt8 → Prop) : Prop where
  grow : ∀ f len, Q f → Q (f.grow len)
  sync : ∀ f, Q f → Q f.sync
  write : ∀ f start written, p < start ∨ start + written.length ≤ p → Q f →
    Q (f.write start written)

theorem ofByte_holds : OfByte p fun f => f.Holds p b where
  grow _ _ holds := holds.grow
  sync _ holds := holds.sync
  write _ _ _ outside holds := holds.write outside

theorem ofByte_durable : OfByte p fun f => f.Durable p b where
  grow _ _ durable := durable.grow
  sync _ durable := durable.holds.durable
  write _ _ _ outside durable := durable.write outside

/-- No running write call is about to write a byte. -/
def Untouched (s : DataFileCache) (index p : Nat) : Prop :=
  ∀ c ∈ s.calls.rows, ∀ file buf offset bytes, c.stage = .transferring file buf →
    c.request = .writeAt index offset bytes →
    p < offset + buf.length ∨ offset + bytes.length ≤ p

/-- A step keeps what is said about a byte that no running call is about to write. -/
theorem fileAt_step {Q : DiskFile UInt8 → Prop} (ofByte : OfByte p Q)
    (handles : Handles s.slots s.files s.calls) (step : CacheStep config s e s')
    (at' : FileAt s.files index Q) (untouched : s.Untouched index p)
    (crash : ∀ gone lens torn, e = .crash gone lens torn →
      FileAt (s.crashedFiles gone lens torn) index Q) : FileAt s'.files index Q := by
  obtain ⟨f, found, holds⟩ := at'
  cases step with
  | opensToWrite c member here writes =>
      refine FileAt.update ⟨f, found, holds⟩ fun same => ⟨f, ?_, holds⟩
      rw [← same, found]
      rfl
  | preallocates c file member here =>
      have grown : FileAt (Function.update s.files file.index
          ((s.files file.index).map fun f => f.grow volumeDefaultDataFileSize)) index Q := by
        refine FileAt.update ⟨f, found, holds⟩ fun same =>
          ⟨_, ?_, ofByte.grow f volumeDefaultDataFileSize holds⟩
        rw [← same, found]
        rfl
      exact grown
  | writes c file buf index' offset count bytes f' member here isWrite found' positive fits =>
      have opened := handles.stages c member
      rw [Fits, here, isWrite] at opened
      have isIndex : file.index = index' := opened.1.index_eq
      refine FileAt.update ⟨f, found, holds⟩ fun same => ⟨_, rfl, ?_⟩
      rw [← same, found] at found'
      obtain rfl := Option.some.inj found'
      refine ofByte.write f _ _ ?_ holds
      have room : ((bytes.drop buf.length).take count).length ≤ count := List.length_take_le _ _
      obtain rfl : index' = index := isIndex.symm.trans same.symm
      rcases untouched c member file buf offset bytes here isWrite with before | after
      · exact .inl before
      · exact .inr (by omega)
  | acquires c file now member here left =>
      obtain ⟨readSem, writeSem, isState⟩ :=
        setPermits_eq s c.request.writes (s.permits c.request.writes - 1)
      rw [isState]
      exact ⟨f, found, holds⟩
  | stops c file buf err member here atEnd => exact endTransfer_files s c _ ▸ ⟨f, found, holds⟩
  | fails c file buf err member here of => exact endTransfer_files s c _ ▸ ⟨f, found, holds⟩
  | endsRead c file buf index' offset len member here isRead whole =>
      exact endTransfer_files s c _ ▸ ⟨f, found, holds⟩
  | syncs c file buf index' offset bytes member here isWrite whole =>
      rw [endTransfer_files]
      refine FileAt.update ⟨f, found, holds⟩ fun same => ⟨_, ?_, ofByte.sync f holds⟩
      rw [← same, found]
      rfl
  | crashes gone lens torn => exact crash gone lens torn rfl
  | _ => exact ⟨f, found, holds⟩

/-! ## Calls and history -/

/-- One `transfer` of a read. -/
inductive ReadMore (s : DataFileCache) (c : CacheCall) (file : OpenFile) : Bytes → Prop where
  | more (before : Bytes) (index offset len count : Nat) (f : DiskFile UInt8)
      (here : c.stage = .transferring file before) (isRead : c.request = .readAt index offset len)
      (found : s.files file.index = some f) (inside : offset + before.length + count ≤ f.len) :
      ReadMore s c file (before ++ slice f.values (offset + before.length) count)

/-- One `transfer` of a write. -/
inductive WrittenMore (s s' : DataFileCache) (c : CacheCall) (file : OpenFile) : Bytes → Prop where
  | more (before : Bytes) (index offset count : Nat) (bytes : Bytes) (f : DiskFile UInt8)
      (here : c.stage = .transferring file before)
      (isWrite : c.request = .writeAt index offset bytes) (found : s.files file.index = some f)
      (after : s'.files = Function.update s.files file.index
        (some (f.write (offset + before.length) ((bytes.drop before.length).take count)))) :
      WrittenMore s s' c file (before ++ (bytes.drop before.length).take count)

/-- A call with a buffer had it before, or has just started, or was given more. -/
theorem transferring_cases (step : CacheStep config s e s') {x : CacheCall}
    (member : x ∈ s'.calls.rows) {file : OpenFile} {buf : Bytes}
    (here : x.stage = .transferring file buf) :
    ∃ c ∈ s.calls.rows, c.call = x.call ∧ c.request = x.request ∧
      (c.stage = x.stage ∨ buf = [] ∨ s.ReadMore c file buf ∨ s.WrittenMore s' c file buf) := by
  have old (among : x ∈ s.calls.rows) : ∃ c ∈ s.calls.rows, c.call = x.call ∧
      c.request = x.request ∧ (c.stage = x.stage ∨ buf = [] ∨ s.ReadMore c file buf ∨
        s.WrittenMore s' c file buf) := ⟨x, among, rfl, rfl, .inl rfl⟩
  have kept {gone : CacheCall → Bool} (among : x ∈ (s.calls.delete gone).rows) :=
    old (SeqTable.mem_delete.mp among).1
  -- A call that has just got its file has no buffer.
  have hasFile {c : CacheCall} {opened : OpenFile} {calls : SeqTable CacheCall.call}
      (same : calls = s.calls) (among : x ∈ (if c.dropped then
        calls.delete fun other => other.call == c.call
        else calls.replace { c with stage := .waiting opened }).rows) : x ∈ s.calls.rows := by
    subst same
    split at among
    · exact (SeqTable.mem_delete.mp among).1
    · rcases SeqTable.mem_replace among with rfl | ⟨before, -⟩
      · cases here
      · exact before
  cases step with
  | begins request below =>
      rcases mem_appended.mp member with among | rfl
      · exact old among
      · cases here
  | refuses request err =>
      obtain ⟨among, gone⟩ := SeqTable.mem_delete.mp member
      rcases mem_appended.mp among with before | rfl
      · exact old before
      · cases here
  | reuses c slot opened among isOpening found cached => exact old (hasFile rfl member)
  | openFails c err among isOpening => exact kept member
  | opensToWrite c among isOpening writes =>
      rcases SeqTable.mem_replace member with rfl | ⟨before, -⟩
      · cases here
      · exact old before
  | opensToRead c among isOpening there => exact old (hasFile rfl member)
  | preallocates c opened among isOpened => exact old (hasFile rfl member)
  | preallocateFails c opened err among isOpened => exact kept member
  | acquires c opened now among isWaiting left =>
      obtain ⟨readSem, writeSem, isState⟩ :=
        setPermits_eq s c.request.writes (s.permits c.request.writes - 1)
      rw [isState] at member
      rcases SeqTable.mem_replace member with rfl | ⟨before, -⟩
      · cases here
        exact ⟨c, among, rfl, rfl, .inr (.inl rfl)⟩
      · exact old before
  | reads c opened before index offset len count f among was isRead found positive fits inside =>
      rcases SeqTable.mem_replace member with rfl | ⟨before, -⟩
      · cases here
        exact ⟨c, among, rfl, rfl, .inr (.inr (.inl
          (.more before index offset len count f was isRead found inside)))⟩
      · exact old before
  | writes c opened before index offset count bytes f among was isWrite found positive fits =>
      rcases SeqTable.mem_replace member with rfl | ⟨before, -⟩
      · cases here
        exact ⟨c, among, rfl, rfl, .inr (.inr (.inr
          (.more before index offset count bytes f was isWrite found rfl)))⟩
      · exact old before
  | stops c opened before err among was atEnd =>
      rw [endTransfer_calls] at member
      exact kept member
  | fails c opened before err among was of =>
      rw [endTransfer_calls] at member
      exact kept member
  | endsRead c opened before index offset len among was isRead whole =>
      rw [endTransfer_calls] at member
      exact kept member
  | syncs c opened before index offset bytes among was isWrite whole =>
      rw [endTransfer_calls] at member
      exact kept member
  | leaves c opened among isWaiting => exact kept member
  | drops c among =>
      rcases SeqTable.mem_replace member with rfl | ⟨before, -⟩
      · exact ⟨c, among, rfl, rfl, .inl rfl⟩
      · exact old before
  | findsIdle index now => exact old member
  | closesIdle index => exact old member
  | restarts => exact kept member
  | crashes gone lens torn => exact kept member

/-- The records that a step adds. -/
inductive Recorded (s s' : DataFileCache) : CacheRecord → Prop where
  | began (request : CacheRequest) : Recorded s s' (.began (s.calls.seq + 1) request)
  | failed (number : Nat) (request : CacheRequest) (err : Fs0Error) :
      Recorded s s' (.returned number request (.error err))
  | read (c : CacheCall) (file : OpenFile) (buf : Bytes) (member : c ∈ s.calls.rows)
      (here : c.stage = .transferring file buf) (isRead : c.request.writes = false)
      (whole : buf.length = c.request.size) :
      Recorded s s' (.returned c.call c.request (.ok buf))
  | wrote (c : CacheCall) (file : OpenFile) (buf : Bytes) (index offset : Nat) (bytes : Bytes)
      (member : c ∈ s.calls.rows) (here : c.stage = .transferring file buf)
      (isWrite : c.request = .writeAt index offset bytes) (whole : buf.length = bytes.length)
      (synced : s'.files = Function.update s.files file.index
        ((s.files file.index).map DiskFile.sync)) :
      Recorded s s' (.returned c.call c.request (.ok []))

/-- What a step adds to the history. -/
theorem recorded_of_step (step : CacheStep config s e s') :
    ∃ added, s'.history = added ++ s.history ∧ ∀ record ∈ added, s.Recorded s' record := by
  have same (isSame : s'.history = s.history) :
      ∃ added, s'.history = added ++ s.history ∧ ∀ record ∈ added, s.Recorded s' record :=
    ⟨[], isSame, fun record member => absurd member List.not_mem_nil⟩
  have ended {c : CacheCall} {result : Fs0Result Bytes}
      (isHistory : s'.history =
        if c.dropped then s.history else .returned c.call c.request result :: s.history)
      (recorded : s.Recorded s' (.returned c.call c.request result)) :
      ∃ added, s'.history = added ++ s.history ∧ ∀ record ∈ added, s.Recorded s' record := by
    by_cases dropped : c.dropped
    · exact same (isHistory.trans (if_pos dropped))
    · refine ⟨[.returned c.call c.request result], isHistory.trans (if_neg dropped), ?_⟩
      intro record member
      rw [List.mem_singleton.mp member]
      exact recorded
  cases step with
  | begins request below =>
      refine ⟨[.began (s.calls.seq + 1) request], rfl, fun record member => ?_⟩
      rw [List.mem_singleton.mp member]
      exact .began request
  | refuses request err =>
      refine ⟨[.returned (s.calls.seq + 1) request (.error err), .began (s.calls.seq + 1) request],
        rfl, fun record member => ?_⟩
      rcases List.mem_cons.mp member with rfl | member
      · exact .failed _ request err
      · rw [List.mem_singleton.mp member]
        exact .began request
  | openFails c err member here => exact ended rfl (.failed _ _ _)
  | preallocateFails c file err member here => exact ended rfl (.failed _ _ _)
  | acquires c file now member here left =>
      obtain ⟨readSem, writeSem, isState⟩ :=
        setPermits_eq s c.request.writes (s.permits c.request.writes - 1)
      refine same ?_
      rw [isState]
  | stops c file buf err member here atEnd =>
      exact ended (endTransfer_history s c _) (.failed _ _ _)
  | fails c file buf err member here of => exact ended (endTransfer_history s c _) (.failed _ _ _)
  | endsRead c file buf index offset len member here isRead whole =>
      exact ended (endTransfer_history s c _)
        (.read c file buf member here (by rw [isRead]; rfl) (by rw [isRead]; exact whole))
  | syncs c file buf index offset bytes member here isWrite whole =>
      exact ended (endTransfer_history _ c _)
        (.wrote c file buf index offset bytes member here isWrite whole (endTransfer_files _ c _))
  | _ => exact same rfl

theorem history_of_step (step : CacheStep config s e s') : s.history <:+ s'.history := by
  obtain ⟨added, isHistory, -⟩ := recorded_of_step step
  exact ⟨added, isHistory.symm⟩

/-- A record is an old one or one that the step adds. -/
theorem recorded_or_old (step : CacheStep config s e s') {record : CacheRecord}
    (member : record ∈ s'.history) : record ∈ s.history ∨ s.Recorded s' record := by
  obtain ⟨added, isHistory, recorded⟩ := recorded_of_step step
  rw [isHistory] at member
  rcases List.mem_append.mp member with new | old
  · exact .inr (recorded record new)
  · exact .inl old

/-! ## Bytes of one write call -/

/-- No other write call has its range on a byte. -/
def Alone (history : List CacheRecord) (w index p : Nat) : Prop :=
  ∀ number request, .began number request ∈ history → request.Covers index p → number = w

variable {history history' : List CacheRecord} {w : Nat}

theorem Alone.of_suffix (alone : Alone history' w index p) (suffix : history <:+ history') :
    Alone history w index p :=
  fun number request begun covers => alone number request (suffix.subset begun) covers

/-- What a running write has transferred is in the file, where no other write call has its
range. -/
def Written (s : DataFileCache) : Prop :=
  ∀ c ∈ s.calls.rows, ∀ file buf index offset bytes, c.stage = .transferring file buf →
    c.request = .writeAt index offset bytes →
    ∀ k b, buf[k]? = some b → Alone s.history c.call index (offset + k) →
      FileAt s.files index fun f => f.Holds (offset + k) b

/-- A running call that could write the byte has its range on it. -/
theorem untouched_of_covers (known : Known s.calls s.history)
    (passed : ∀ c ∈ s.calls.rows, ∀ file buf offset bytes, c.stage = .transferring file buf →
      c.request = .writeAt index offset bytes → .began c.call c.request ∈ s.history →
      c.request.Covers index p → p < offset + buf.length) : s.Untouched index p := by
  intro c member file buf offset bytes here isWrite
  by_cases covers : offset ≤ p ∧ p < offset + bytes.length
  · have inRange : c.request.Covers index p := by
      rw [isWrite]
      exact ⟨rfl, covers⟩
    exact .inl (passed c member file buf offset bytes here isWrite (known.began c member) inRange)
  · omega

theorem untouched_of_written (known : Known s.calls s.history) {c : CacheCall} {file : OpenFile}
    {buf bytes : Bytes} {offset k : Nat} (member : c ∈ s.calls.rows)
    (here : c.stage = .transferring file buf) (isWrite : c.request = .writeAt index offset bytes)
    (below : k < buf.length) (alone : Alone s.history c.call index (offset + k)) :
    s.Untouched index (offset + k) := by
  refine untouched_of_covers known ?_
  intro d among file' buf' offset' bytes' here' isWrite' begun covers
  obtain rfl := Table.eq_of_key_eq among member (alone d.call d.request begun covers)
  cases here.symm.trans here'
  cases isWrite.symm.trans isWrite'
  exact Nat.add_lt_add_left below offset

theorem untouched_of_settled (known : Known s.calls s.history) {request : CacheRequest}
    {result : Fs0Result Bytes} (ended : .returned w request result ∈ s.history)
    (alone : Alone s.history w index p) : s.Untouched index p := by
  refine untouched_of_covers known ?_
  intro c member file buf offset bytes here isWrite begun covers
  exact absurd (alone c.call c.request begun covers) ((known.returned _ _ _ ended).2 c member)

/-- A crash takes a file, whose directory entry has not reached the disk. -/
def loses (s : DataFileCache) (index : Nat) : CacheEvent → Bool
  | .crash gone _ _ => gone index && (s.files index).any fun f => !f.linked
  | _ => false

theorem durable_of_crash (durable : FileAt s.files index fun f => f.Durable p b)
    {gone : Nat → Bool} {lens : Nat → Nat} {torn : DataFiles}
    (kept : s.loses index (.crash gone lens torn) = false) :
    FileAt (s.crashedFiles gone lens torn) index fun f => f.Durable p b := by
  obtain ⟨f, found, isDurable⟩ := durable
  refine ⟨f.crashed (lens index) (torn index), ?_, isDurable.crashed _ _⟩
  rw [crashedFiles, found, Option.bind_some, if_neg]
  rintro ⟨isGone, unlinked⟩
  simp [loses, isGone, found, unlinked] at kept

/-- What a call has written stays as long as the call is there. -/
theorem written_step (known : Known s.calls s.history)
    (handles : Handles s.slots s.files s.calls) (written : s.Written)
    (step : CacheStep config s e s') {c x : CacheCall} (member : c ∈ s.calls.rows)
    (among : x ∈ s'.calls.rows) {file : OpenFile} {buf bytes : Bytes} {offset k : Nat}
    (here : c.stage = .transferring file buf) (isWrite : c.request = .writeAt index offset bytes)
    (value : buf[k]? = some b) (alone : Alone s.history c.call index (offset + k)) :
    FileAt s'.files index fun f => f.Holds (offset + k) b := by
  obtain ⟨below, -⟩ := List.getElem?_eq_some_iff.mp value
  refine fileAt_step ofByte_holds handles step
    (written c member file buf index offset bytes here isWrite k b value alone)
    (untouched_of_written known member here isWrite below alone) fun gone lens torn isCrash => ?_
  subst isCrash
  cases step with
  | fails d file' buf' err member' here' of => rcases of with same | same <;> cases same
  | crashes gone lens torn => simpa using (SeqTable.mem_delete.mp among).2

theorem Written.of_step (known : Known s.calls s.history)
    (handles : Handles s.slots s.files s.calls) (written : s.Written)
    (step : CacheStep config s e s') : s'.Written := by
  intro x among file buf index offset bytes here isWrite k b value alone
  obtain ⟨c, member, isCall, isRequest, outcome⟩ := transferring_cases step among here
  have before : Alone s.history c.call index (offset + k) := by
    rw [isCall]
    exact alone.of_suffix (history_of_step step)
  rw [← isRequest] at isWrite
  rcases outcome with same | rfl | more | more
  · exact written_step known handles written step member among (same.trans here) isWrite value before
  · cases value
  · cases more with
    | more _ _ _ _ _ _ _ isRead _ _ => cases isRead.symm.trans isWrite
  · cases more with
    | more buf index' offset' count bytes' f was isWrite' found after =>
        cases isWrite.symm.trans isWrite'
        by_cases below : k < buf.length
        · rw [List.getElem?_append_left below] at value
          exact written_step known handles written step member among was isWrite value before
        · rw [List.getElem?_append_right (Nat.le_of_not_lt below)] at value
          obtain ⟨inside, isValue⟩ := List.getElem?_eq_some_iff.mp value
          have fits := handles.stages c member
          rw [Fits, was, isWrite] at fits
          refine ⟨f.write (offset + buf.length) ((bytes.drop buf.length).take count), ?_, ?_⟩
          · rw [after, fits.1.index_eq]
            exact Function.update_self _ _ _
          · have there : (f.write (offset + buf.length) ((bytes.drop buf.length).take count)).Holds
                (offset + buf.length + (k - buf.length)) _ := DiskFile.holds_write inside
            have isAt : offset + buf.length + (k - buf.length) = offset + k := by omega
            rw [isValue, isAt] at there
            exact there

theorem written_of_reachable (reachable : (dataFileCache config).Reachable s) : s.Written := by
  obtain ⟨ts, run⟩ := reachable
  induction run with
  | init start =>
      obtain ⟨files, rfl⟩ := start
      exact fun c member => absurd member List.not_mem_nil
  | step run taken written =>
      exact written.of_step (known_of_reachable run.reachable) (handles_of_reachable run.reachable)
        (step_cases taken)

/-- What a write was asked to write is durable when it returns. -/
theorem durable_of_returned (handles : Handles s.slots s.files s.calls) (written : s.Written)
    (step : CacheStep config s e s') {offset k : Nat} {bytes result : Bytes}
    (returned : s'.history = .returned w (.writeAt index offset bytes) (.ok result) :: s.history)
    (value : bytes[k]? = some b) (alone : Alone s'.history w index (offset + k)) :
    FileAt s'.files index fun f => f.Durable (offset + k) b := by
  obtain ⟨added, isHistory, recorded⟩ := recorded_of_step step
  have isAdded : [.returned w (.writeAt index offset bytes) (.ok result)] = added :=
    List.append_cancel_right (returned.symm.trans isHistory)
  have new := recorded _ (isAdded ▸ List.mem_singleton_self _)
  generalize isRequest : CacheRequest.writeAt index offset bytes = request at new
  cases new with
  | read c file buf member here isRead whole =>
      rw [← isRequest] at isRead
      cases isRead
  | wrote c file buf index' offset' bytes' member here isWrite whole synced =>
      cases isRequest.trans isWrite
      have fits := handles.stages c member
      rw [Fits, here, isWrite] at fits
      -- The whole buffer was written, and the sync reaches all of the file.
      obtain rfl : buf = bytes := fits.2.eq_of_length whole
      obtain ⟨f, found, holds⟩ := written c member file buf index offset buf here isWrite k b value
        (alone.of_suffix (history_of_step step))
      have isIndex : file.index = index := fits.1.index_eq
      refine ⟨f.sync, ?_, holds.durable⟩
      rw [synced, isIndex, Function.update_self, found]
      rfl

/-- What is durable stays so, as long as no crash takes the file. -/
theorem durable_step (known : Known s.calls s.history)
    (handles : Handles s.slots s.files s.calls) (step : CacheStep config s e s')
    {request : CacheRequest} {result : Fs0Result Bytes}
    (ended : .returned w request result ∈ s.history) (alone : Alone s.history w index p)
    (kept : s.loses index e = false) (durable : FileAt s.files index fun f => f.Durable p b) :
    FileAt s'.files index fun f => f.Durable p b := by
  refine fileAt_step ofByte_durable handles step durable (untouched_of_settled known ended alone) ?_
  rintro gone lens torn rfl
  exact durable_of_crash durable kept

/-! ## Later reads -/

/-- A buffer that holds bytes of a file from an offset on agrees with a value at a position. -/
def Agrees (offset : Nat) (buf : Bytes) (p : Nat) (b : UInt8) : Prop :=
  ∀ j value, buf[j]? = some value → offset + j = p → value = b

theorem Agrees.slice {offset : Nat} {buf : Bytes} (agrees : Agrees offset buf p b)
    {f : DiskFile UInt8} (value : f.values p = b) (count : Nat) :
    Agrees offset (buf ++ slice f.values (offset + buf.length) count) p b := by
  intro j byte isByte isAt
  by_cases below : j < buf.length
  · rw [List.getElem?_append_left below] at isByte
    exact agrees j byte isByte isAt
  · rw [List.getElem?_append_right (Nat.le_of_not_lt below)] at isByte
    obtain ⟨inside, -⟩ := List.getElem?_eq_some_iff.mp isByte
    rw [slice_length] at inside
    rw [slice_getElem? _ _ _ _ inside] at isByte
    have same : offset + buf.length + (j - buf.length) = p := by omega
    rw [same] at isByte
    exact (Option.some.inj isByte).symm.trans value

/-- The reads that began after a call agree with a byte, those that run and those that
returned. -/
structure ReadsAgree (s : DataFileCache) (since index p : Nat) (b : UInt8) : Prop where
  running : ∀ c ∈ s.calls.rows, since < c.call → ∀ file buf offset len,
    c.stage = .transferring file buf → c.request = .readAt index offset len →
    Agrees offset buf p b
  ended : ∀ r offset len got, since < r →
    .returned r (.readAt index offset len) (.ok got) ∈ s.history →
    got.length = len ∧ Agrees offset got p b

theorem readsAgree_step {since : Nat} (handles : Handles s.slots s.files s.calls)
    (agree : s.ReadsAgree since index p b) (durable : FileAt s.files index fun f => f.Durable p b)
    (step : CacheStep config s e s') : s'.ReadsAgree since index p b where
  running x among later file buf offset len here isRead := by
    obtain ⟨c, member, isCall, isRequest, outcome⟩ := transferring_cases step among here
    rw [← isCall] at later
    rw [← isRequest] at isRead
    rcases outcome with same | rfl | more | more
    · exact agree.running c member later file buf offset len (same.trans here) isRead
    · intro j value isValue
      cases isValue
    · cases more with
      | more before index' offset' len' count f was isRead' found inside =>
          cases isRead.symm.trans isRead'
          have fits := handles.stages c member
          rw [Fits, was, isRead] at fits
          have isIndex : file.index = index := fits.1.index_eq
          obtain ⟨f', found', isDurable⟩ := durable
          rw [isIndex, found'] at found
          obtain rfl := Option.some.inj found
          exact (agree.running c member later file before offset len was isRead).slice
            isDurable.value count
    · cases more with
      | more _ _ _ _ _ _ _ isWrite _ _ => cases isWrite.symm.trans isRead
  ended r offset len got later returned := by
    rcases recorded_or_old step returned with old | new
    · exact agree.ended r offset len got later old
    · generalize isRequest : CacheRequest.readAt index offset len = request at new
      cases new with
      | read c file buf member here isRead whole =>
          refine ⟨?_, agree.running c member later file got offset len here isRequest.symm⟩
          rw [whole, ← isRequest]
          rfl
      | wrote c file buf index' offset' bytes member here isWrite whole synced =>
          cases isRequest.trans isWrite

/-! ## Runs -/

variable {later earlier : List (Transition DataFileCache CacheEvent)}
  {t : Transition DataFileCache CacheEvent}

theorem history_run (run : (dataFileCache config).Run (later ++ t :: earlier) s) :
    t.post.history <:+ s.history := by
  refine run.since (fun x => t.post.history <:+ x.history) List.suffix_rfl ?_
  intro x member reachable before taken
  exact before.trans (history_of_step (step_cases taken))

/-- The states of a run after one of its steps know its history, and the last one knows theirs. -/
theorem history_between (run : (dataFileCache config).Run (later ++ t :: earlier) s)
    {x : Transition DataFileCache CacheEvent} (member : x ∈ later) :
    t.post.history <:+ x.pre.history ∧ x.pre.history <:+ s.history := by
  obtain ⟨newer, older, rfl⟩ := List.append_of_mem member
  rw [List.append_assoc, List.cons_append] at run
  obtain ⟨before, taken⟩ := run.before
  exact ⟨history_run before, (history_of_step (step_cases taken)).trans (history_run run)⟩

/-- After a write has returned its bytes stay durable, and every read that begins agrees with
them, as long as no crash takes the file. -/
theorem readsAgree_run (run : (dataFileCache config).Run (later ++ t :: earlier) s)
    {offset k : Nat} {bytes result : Bytes}
    (wrote : t.post.history =
      .returned w (.writeAt index offset bytes) (.ok result) :: t.pre.history)
    (kept : ∀ x ∈ later, x.pre.loses index x.event = false)
    (value : bytes[k]? = some b) (alone : Alone s.history w index (offset + k)) :
    s.ReadsAgree t.post.calls.seq index (offset + k) b ∧
      FileAt s.files index fun f => f.Durable (offset + k) b := by
  obtain ⟨before, taken⟩ := run.before
  have ended : .returned w (.writeAt index offset bytes) (.ok result) ∈ t.post.history :=
    wrote ▸ List.mem_cons_self
  refine run.since (fun x => x.ReadsAgree t.post.calls.seq index (offset + k) b ∧
    FileAt x.files index fun f => f.Durable (offset + k) b) ⟨?_, ?_⟩ ?_
  · have known := known_of_reachable (before.reachable.step taken)
    constructor
    · exact fun c member newer => absurd newer (Nat.not_lt.mpr (t.post.calls.le_seq c member))
    · intro r start len got newer ended
      exact absurd newer (Nat.not_lt.mpr (known.numbered r _ (known.returned r _ _ ended).1))
  · exact durable_of_returned (handles_of_reachable before.reachable)
      (written_of_reachable before.reachable) (step_cases taken) wrote value
      (alone.of_suffix (history_run run))
  · rintro x member reachable ⟨agree, durable⟩ taken
    obtain ⟨older, newer⟩ := history_between run member
    have handles := handles_of_reachable reachable
    have step := step_cases taken
    exact ⟨readsAgree_step handles agree durable step,
      durable_step (known_of_reachable reachable) handles step (older.subset ended)
        (alone.of_suffix newer) (kept x member) durable⟩

end DataFileCache

/-! ## What is read back -/

open DataFileCache in
/-- Once a write has returned, a read that begins later gets the bytes it wrote, wherever no
other write call has its range, and is not stopped for the end of the file there. Callers may
go away, files may be closed and opened, and the process or the machine may go down meanwhile,
as long as no crash takes the directory entry of the file. -/
theorem written_bytes_read {config : DataFileCacheConfig}
    {later earlier : List (Transition DataFileCache CacheEvent)}
    {t : Transition DataFileCache CacheEvent} {s : DataFileCache}
    (run : (dataFileCache config).Run (later ++ t :: earlier) s)
    {w index offset : Nat} {bytes result : Bytes}
    (wrote : t.post.history =
      .returned w (.writeAt index offset bytes) (.ok result) :: t.pre.history)
    (kept : ∀ x ∈ later, x.pre.loses index x.event = false) :
    (∀ r start len got, t.post.calls.seq < r →
      .returned r (.readAt index start len) (.ok got) ∈ s.history →
      ∀ j k, j < len → k < bytes.length → start + j = offset + k →
        DataFileCache.Alone s.history w index (offset + k) → got[j]? = bytes[k]?) ∧
    ∀ x ∈ later, ∀ c ∈ x.pre.calls.rows, ∀ file start len buf,
      x.event = .transferStops c.call → c.request = .readAt index start len →
      c.stage = .transferring file buf →
      ∀ k < bytes.length, DataFileCache.Alone s.history w index (offset + k) →
        start + buf.length ≠ offset + k := by
  constructor
  · intro r start len got newer returned j k inRead inWritten same alone
    have value : bytes[k]? = some bytes[k] := List.getElem?_eq_getElem inWritten
    obtain ⟨whole, agrees⟩ :=
      (readsAgree_run run wrote kept value alone).1.ended r start len got newer returned
    have below : j < got.length := whole ▸ inRead
    rw [value, List.getElem?_eq_getElem below]
    exact congrArg some (agrees j _ (List.getElem?_eq_getElem below) same)
  · intro x member c among file start len buf isStop isRead here k inWritten alone isAt
    have suffix := (history_between run member).2
    obtain ⟨newer, older, rfl⟩ := List.append_of_mem member
    rw [List.append_assoc, List.cons_append] at run
    obtain ⟨before, taken⟩ := run.before
    obtain ⟨-, f, found, durable⟩ := readsAgree_run before wrote
      (fun y isOlder => kept y (List.mem_append_right _ (List.mem_cons_of_mem _ isOlder)))
      (List.getElem?_eq_getElem inWritten) (alone.of_suffix suffix)
    have step := step_cases taken
    rw [isStop] at step
    generalize x.post = after at step
    generalize isNumber : CacheEvent.transferStops c.call = e at step
    cases step with
    | stops d file' buf' err member' here' atEnd =>
        obtain rfl := Table.eq_of_key_eq among member' (CacheEvent.transferStops.inj isNumber)
        cases here.symm.trans here'
        obtain ⟨-, f', found', atEnd⟩ := atEnd index start len isRead
        have fits := (handles_of_reachable before.reachable).stages c among
        rw [Fits, here] at fits
        rw [fits.1.index_eq, isRead] at found'
        obtain rfl := Option.some.inj (found.symm.trans found')
        have inside := durable.holds.inside
        omega
    | fails d file' buf' err member' here' of =>
        rw [← isNumber] at of
        rcases of with same | same <;> cases same
    | _ => cases isNumber

namespace DataFileCache.TwoBytes

def config : DataFileCacheConfig := ⟨1, 1, 1⟩

def created : DataFileCache := .withCapacity config fun _ => none

/-- A write of two bytes, up to its sync. -/
def writing : List CacheEvent :=
  [.call (.writeAt 0 2 [7, 8]), .openFile 1 (.ok ()), .preallocate 1 (.ok ()), .acquire 1 5,
    .transfer 1 1, .transfer 1 1]

def written : DataFileCache := ((dataFileCache config).exec created writing).getD created

def synced : DataFileCache := (written.step config (.syncData 1 (.ok ()))).getD written

/-- A crash that leaves the new file and one that would take such a file, a read of the second
byte, and a read at the end of the file. -/
def reading : List CacheEvent :=
  [.crash (fun _ => false) (fun _ => 0) (fun _ _ => 9),
    .crash (fun _ => true) (fun _ => 0) (fun _ _ => 9),
    .call (.readAt 0 3 1), .openFile 2 (.ok ()), .acquire 2 6, .transfer 2 1, .endRead 2,
    .call (.readAt 0 volumeDefaultDataFileSize 1), .reuse 3, .acquire 3 7]

def reread : DataFileCache :=
  ((dataFileCache config).execWhile (fun s e => !s.loses 0 e) synced reading).getD synced

def stopped : DataFileCache := (reread.step config (.transferStops 3)).getD reread

theorem stopped_history : stopped.history =
    [.returned 3 (.readAt 0 volumeDefaultDataFileSize 1) (.error (ioError IoPlatform.failedToFill)),
      .began 3 (.readAt 0 volumeDefaultDataFileSize 1),
      .returned 2 (.readAt 0 3 1) (.ok [8]), .began 2 (.readAt 0 3 1),
      .returned 1 (.writeAt 0 2 [7, 8]) (.ok []), .began 1 (.writeAt 0 2 [7, 8])] := rfl

end DataFileCache.TwoBytes

open DataFileCache.TwoBytes in
/-- The machine goes down twice after the write of two bytes. -/
theorem written_bytes_read_crash : ∃ s got, (dataFileCache config).Reachable s ∧
    .returned 1 (.writeAt 0 2 [7, 8]) (.ok []) ∈ s.history ∧
    .returned 2 (.readAt 0 3 1) (.ok got) ∈ s.history ∧ got[0]? = some 8 ∧
    volumeDefaultDataFileSize + ([] : Bytes).length ≠ 2 + 1 := by
  have start : (dataFileCache config).Run [] created := .init ⟨_, rfl⟩
  have wrote : (dataFileCache config).exec created writing = some written := rfl
  have taken : (dataFileCache config).step written (.syncData 1 (.ok ())) = some synced := rfl
  have ends : (dataFileCache config).execWhile (fun s e => !s.loses 0 e) synced reading =
    some reread := rfl
  have stops : (dataFileCache config).step reread (.transferStops 3) = some stopped := rfl
  obtain ⟨before, run, -⟩ := start.exec writing wrote
  obtain ⟨after, run, kept⟩ := (run.step taken).execWhile reading ends
  have whole : (dataFileCache config).Run
      ((⟨reread, .transferStops 3, stopped⟩ :: after) ++
        ⟨written, .syncData 1 (.ok ()), synced⟩ :: (before ++ [])) stopped := run.step stops
  have ended : .returned 2 (.readAt 0 3 1) (.ok [8]) ∈ stopped.history := by simp [stopped_history]
  have alone : DataFileCache.Alone stopped.history 1 0 3 := by
    intro number request begun covers
    simp only [stopped_history, List.mem_cons, List.not_mem_nil, or_false, reduceCtorEq, false_or,
      CacheRecord.began.injEq] at begun
    rcases begun with ⟨-, rfl⟩ | ⟨-, rfl⟩ | ⟨rfl, -⟩
    · exact absurd covers not_false
    · exact absurd covers not_false
    · rfl
  have noneLost : ∀ x ∈ ⟨reread, .transferStops 3, stopped⟩ :: after,
      x.pre.loses 0 x.event = false := by
    intro x member
    rcases List.mem_cons.mp member with rfl | old
    · rfl
    · exact Bool.not_eq_true' _ ▸ kept x old
  obtain ⟨reads, stopsElsewhere⟩ := written_bytes_read whole rfl noneLost
  refine ⟨stopped, [8], whole.reachable, by simp [stopped_history], ended,
    reads 2 3 1 [8] (by decide) ended 0 1 (by decide) (by decide) rfl alone, ?_⟩
  exact stopsElsewhere _ List.mem_cons_self ⟨3, .readAt 0 volumeDefaultDataFileSize 1,
    .transferring ⟨0⟩ [], false⟩ (List.mem_singleton_self _) ⟨0⟩ _ 1 [] rfl rfl rfl 1 (by decide)
    alone

end Fs0
