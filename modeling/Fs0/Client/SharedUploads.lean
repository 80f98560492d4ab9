import Fs0.Client.UploadJobs

/-!
Contract: what the callbacks of uploads learn that share one execution.

Owns:
- the executions of a job along a run of its session, on its own and for others;
- that a callback given `Ok` finds its chunk on the volume of its job, and that one
  given `Err` is given an error of its own job, when only equal jobs share a slot;
- two jobs for different volumes of which the second is told that a chunk is stored
  which its volume lacks.

Does not own: whether an upload commits what it was told.
-/

set_option autoImplicit false

namespace Fs0

open Lib Fallible

namespace UploadSession

/-! ## Executions -/

/-- A job executed in the surroundings of a slot, from its creation on. At each step of
the session the job may take a step of its own. -/
inductive Executes (codec : UploadCodec) (slotId : Nat) (job : UploadChunkJob) :
    List (Transition UploadSession SessionEvent) → JobProgress → Prop where
  | start {ts : List (Transition UploadSession SessionEvent)}
      {t : Transition UploadSession SessionEvent}
      (absent : t.pre.scheduler.slots.find? slotId = none)
      (created : (t.post.scheduler.slots.find? slotId).isSome) :
      Executes codec slotId job (t :: ts) .asking
  | rest {ts : List (Transition UploadSession SessionEvent)}
      {t : Transition UploadSession SessionEvent} {progress : JobProgress}
      (before : Executes codec slotId job ts progress) : Executes codec slotId job (t :: ts) progress
  | step {ts : List (Transition UploadSession SessionEvent)}
      {t : Transition UploadSession SessionEvent} {progress : JobProgress} {e : JobEvent}
      {next : StorageServer × JobProgress} (before : Executes codec slotId job ts progress)
      (taken : job.step codec t.pre.files t.pre.storage progress e = some next) :
      Executes codec slotId job (t :: ts) next.2

/-- What the callback of a call may be given. -/
def Deserved (codec : UploadCodec) (ts : List (Transition UploadSession SessionEvent))
    (s : UploadSession) (call : EnqueueCall UploadChunkJob UploadChunkResponse) :
    Fs0Result UploadChunkResponse → Prop
  | .ok _ => s.storage.HasChunk call.request.volumeId call.request.chunkId
  | .error err => Executes codec call.slotId call.request ts (.done (.error err))

/-- Every callback was given what it deserves. -/
def Transparent (codec : UploadCodec) (ts : List (Transition UploadSession SessionEvent))
    (s : UploadSession) : Prop :=
  ∀ invocation ∈ s.scheduler.invoked, ∃ call,
    s.scheduler.calls.find? invocation.callId = some call ∧
      Deserved codec ts s call invocation.result

/-- A job that is enqueued while another one with its chunk id is in flight equals it. -/
def JoinsEqual (s : UploadSession) : SessionEvent → Prop
  | .enqueueUpload job =>
      ∀ entry ∈ s.scheduler.inFlight.find? job.chunkId,
        ∀ slot ∈ s.scheduler.slots.find? entry.slotId, slot.request = job
  | _ => True

instance (s : UploadSession) (e : SessionEvent) : Decidable (s.JoinsEqual e) := by
  cases e <;> unfold JoinsEqual <;> infer_instance

variable {codec : UploadCodec} {uploadConcurrency : Nat} {s s' : UploadSession}
  {ts : List (Transition UploadSession SessionEvent)} {e : SessionEvent}

/-! ## Steps of a session -/

/-- What an event does to a session. -/
inductive SessionStep (codec : UploadCodec) (s : UploadSession) :
    SessionEvent → UploadSession → Prop where
  | enqueued (job : UploadChunkJob)
      (scheduler : HashRequestScheduler HashId UploadChunkJob UploadChunkResponse)
      (stepped : s.scheduler.step (.enqueue job.chunkId job) = some scheduler) :
      SessionStep codec s (.enqueueUpload job) { s with scheduler := scheduler }
  | scheduled (event : SchedulerEvent HashId UploadChunkJob UploadChunkResponse)
      (scheduler : HashRequestScheduler HashId UploadChunkJob UploadChunkResponse)
      (isInternal : event.internal = true) (stepped : s.scheduler.step event = some scheduler) :
      SessionStep codec s (.scheduler event) { s with scheduler := scheduler }
  | worked (slot : RequestSlot HashId UploadChunkJob UploadChunkResponse) (event : JobEvent)
      (next : StorageServer × JobProgress)
      (isSlot : s.scheduler.slots.find? slot.slotId = some slot) (isRunning : slot.task = .running)
      (stepped : slot.request.step codec s.files s.storage (s.progress slot.slotId) event = some next) :
      SessionStep codec s (.job slot.slotId event)
        ({ s with storage := next.1 }.setProgress slot.slotId next.2)
  | completed (slotId : Nat) (result : Fs0Result UploadChunkResponse)
      (scheduler : HashRequestScheduler HashId UploadChunkJob UploadChunkResponse)
      (isDone : s.progress slotId = .done result)
      (stepped : s.scheduler.step (.complete slotId result) = some scheduler) :
      SessionStep codec s (.complete slotId) { s with scheduler := scheduler }
  | handled (event : StorageEvent) (storage : StorageServer) (keeps : event.deletesChunk = false)
      (stepped : StorageServer.step codec.blake3 codec.zstdDecompress s.storage event = some storage) :
      SessionStep codec s (.storage event) { s with storage := storage }
  | filed (files : SourceFiles) : SessionStep codec s (.setFiles files) { s with files := files }

theorem step_cases (taken : s.step codec e = some s') : SessionStep codec s e s' := by
  cases e with
  | enqueueUpload job =>
      simp only [step, onScheduler] at taken
      obtain ⟨scheduler, stepped, rfl⟩ := Option.map_eq_some_iff.mp taken
      exact .enqueued job scheduler stepped
  | scheduler event =>
      simp only [step, onScheduler] at taken
      split at taken
      next isInternal =>
        obtain ⟨scheduler, stepped, rfl⟩ := Option.map_eq_some_iff.mp taken
        exact .scheduled event scheduler isInternal stepped
      next => cases taken
  | job slotId event =>
      obtain ⟨slot, isSlot, ran⟩ := Option.bind_eq_some_iff.mp taken
      obtain ⟨-, rfl⟩ := Table.mem_of_find? isSlot
      split at ran
      next isRunning =>
        obtain ⟨next, stepped, rfl⟩ := Option.map_eq_some_iff.mp ran
        exact .worked slot event next isSlot isRunning stepped
      next => cases ran
  | complete slotId =>
      simp only [step, onScheduler] at taken
      split at taken
      next result isDone =>
        obtain ⟨scheduler, stepped, rfl⟩ := Option.map_eq_some_iff.mp taken
        exact .completed slotId result scheduler isDone stepped
      next => cases taken
  | storage event =>
      simp only [step] at taken
      split at taken
      next => cases taken
      next keeps =>
        obtain ⟨storage, stepped, rfl⟩ := Option.map_eq_some_iff.mp taken
        exact .handled event storage (by simpa using keeps) stepped
  | setFiles files =>
      obtain rfl := Option.some.inj taken
      exact .filed files

/-- A step of a job leaves the storage alone or is a request that it handles. -/
theorem storage_of_jobStep {files : SourceFiles} {job : UploadChunkJob} {storage : StorageServer}
    {progress : JobProgress} {event : JobEvent} {next : StorageServer × JobProgress}
    (taken : job.step codec files storage progress event = some next) :
    next.1 = storage ∨ ∃ request leaseNow now, StorageServer.step codec.blake3
      codec.zstdDecompress storage (.uploadChunk request leaseNow now) = some next.1 := by
  unfold UploadChunkJob.step at taken
  split at taken
  · split at taken
    · obtain rfl := Option.some.inj taken
      exact .inl rfl
    · cases taken
  · obtain rfl := Option.some.inj taken
    exact .inl rfl
  · split at taken
    · obtain rfl := Option.some.inj taken
      exact .inl rfl
    · obtain rfl := Option.some.inj taken
      exact .inl rfl
  · obtain ⟨after, stepped, rfl⟩ := Option.map_eq_some_iff.mp taken
    right
    split
    · exact ⟨_, _, _, stepped⟩
    · exact ⟨_, _, _, stepped⟩
  · obtain ⟨row, -, rest⟩ := Option.bind_eq_some_iff.mp taken
    obtain ⟨r, -, answered⟩ := Option.bind_eq_some_iff.mp rest
    obtain ⟨result, -, rfl⟩ := Option.map_eq_some_iff.mp answered
    exact .inl rfl
  · cases taken

/-- The storage of a session takes steps of its own only, and deletes no chunk. -/
theorem storage_cases (taken : s.step codec e = some s') :
    s'.storage = s.storage ∨ ∃ event, event.deletesChunk = false ∧
      StorageServer.step codec.blake3 codec.zstdDecompress s.storage event = some s'.storage := by
  cases step_cases taken with
  | worked slot event next isSlot isRunning stepped =>
      rcases storage_of_jobStep stepped with same | ⟨request, leaseNow, now, handled⟩
      · exact .inl same
      · exact .inr ⟨_, rfl, handled⟩
  | handled event storage keeps stepped => exact .inr ⟨event, keeps, stepped⟩
  | _ => exact .inl rfl

theorem hasChunk_of_step {volumeId : Nat} {chunkId : HashId}
    (has : s.storage.HasChunk volumeId chunkId) (taken : s.step codec e = some s') :
    s'.storage.HasChunk volumeId chunkId := by
  rcases storage_cases taken with same | ⟨event, keeps, stepped⟩
  · rwa [same]
  · exact has.of_step stepped keeps

theorem reachable_answered (run : (uploadSession codec uploadConcurrency).Run ts s) :
    s.storage.Answered := by
  apply run.invariant fun s => s.storage.Answered
  · exact fun s initial => StorageServer.answered_init initial.2.2
  · intro s e s' answered taken
    rcases storage_cases taken with same | ⟨event, keeps, stepped⟩
    · rwa [same]
    · exact answered.of_step stepped keeps

/-! ## A chunk that a job reports is there -/

/-- The answer to `HasChunk` for a chunk that a volume lacks. -/
theorem storage_hasChunk_of_none {db : VolumeDb} {chunkId : HashId}
    (absent : db.1.chunks.find? chunkId = none) :
    outcome (Storage.hasChunk chunkId db) = .ok (.hasChunk false none none) := by
  unfold Storage.hasChunk
  rw [bind_apply, attempt_apply, VolumeDb.loadChunk_of_none absent]
  rfl

theorem hasChunk_of_lens {storage : StorageServer} {job : UploadChunkJob}
    {response : UploadChunkResponse}
    (isDone : job.onLens (storage.hasChunk job.volumeId job.chunkId >>= DataResponse.chunkLens) =
      .done (.ok response)) : storage.HasChunk job.volumeId job.chunkId := by
  cases asked : storage.hasChunk job.volumeId job.chunkId with
  | error err =>
      rw [asked] at isDone
      cases isDone
  | ok answer =>
      obtain ⟨v, isVolume, answered⟩ := Fs0Result.bind_eq_ok.mp asked
      refine ⟨_, StorageServer.find?_of_volume isVolume, ?_⟩
      cases found : v.tables.chunks.find? job.chunkId with
      | some chunk => exact ⟨chunk, found⟩
      | none =>
          rw [storage_hasChunk_of_none found] at answered
          obtain rfl := Except.ok.inj answered
          rw [asked] at isDone
          cases isDone

/-- A job that is done with `Ok` has been told by the storage that it has the chunk. -/
theorem hasChunk_of_jobStep {files : SourceFiles} {job : UploadChunkJob} {storage : StorageServer}
    {progress : JobProgress} {event : JobEvent} {next : StorageServer × JobProgress}
    {response : UploadChunkResponse} (answered : storage.Answered)
    (taken : job.step codec files storage progress event = some next)
    (isDone : next.2 = .done (.ok response)) : storage.HasChunk job.volumeId job.chunkId := by
  unfold UploadChunkJob.step at taken
  split at taken
  · split at taken
    · obtain rfl := Option.some.inj taken
      cases isDone
    · cases taken
  · obtain rfl := Option.some.inj taken
    exact hasChunk_of_lens isDone
  · split at taken
    · obtain rfl := Option.some.inj taken
      cases isDone
    · obtain rfl := Option.some.inj taken
      cases isDone
  · obtain ⟨after, stepped, rfl⟩ := Option.map_eq_some_iff.mp taken
    split at isDone
    · cases isDone
    · cases isDone
  · obtain ⟨row, found, rest⟩ := Option.bind_eq_some_iff.mp taken
    obtain ⟨r, returned, rest⟩ := Option.bind_eq_some_iff.mp rest
    obtain ⟨result, isAnswer, rfl⟩ := Option.map_eq_some_iff.mp rest
    have among : r ∈ row.volume.returns := List.mem_of_mem_take (List.mem_of_getElem? returned)
    unfold UploadChunkJob.answer at isAnswer
    split at isAnswer
    next chunkId rawLen bytes given =>
      split at isAnswer
      next same =>
        obtain rfl := Option.some.inj isAnswer
        cases given with
        | error err => cases isDone
        | ok known =>
            rw [same.1] at among
            exact ⟨row, found, answered _ _ found _ _ _ _ among⟩
      next => cases isAnswer
    next => cases isAnswer
  · cases taken

/-- An execution that ended with `Ok` leaves its chunk on its volume. -/
theorem Executes.hasChunk {slotId : Nat} {job : UploadChunkJob} {progress : JobProgress}
    (executes : Executes codec slotId job ts progress)
    (run : (uploadSession codec uploadConcurrency).Run ts s) {response : UploadChunkResponse}
    (isDone : progress = .done (.ok response)) :
    s.storage.HasChunk job.volumeId job.chunkId := by
  induction executes generalizing s response with
  | start absent created => cases isDone
  | rest before inductionHypothesis =>
      cases run with
      | step run taken => exact hasChunk_of_step (inductionHypothesis run isDone) taken
  | step before stepped inductionHypothesis =>
      cases run with
      | step run taken =>
          exact hasChunk_of_step (hasChunk_of_jobStep (reachable_answered run) stepped isDone) taken

/-! ## The executions of the slots -/

/-- A slot is where the execution of its request stands, and has its result. -/
structure Executed (codec : UploadCodec) (ts : List (Transition UploadSession SessionEvent))
    (s : UploadSession) : Prop where
  wired : s.scheduler.Wired (· = ·)
  unused : ∀ slotId, s.scheduler.slots.seq < slotId → s.progress slotId = .asking
  executes : ∀ slot ∈ s.scheduler.slots.rows,
    Executes codec slot.slotId slot.request ts (s.progress slot.slotId)
  result : ∀ slot ∈ s.scheduler.slots.rows, ∀ result, slot.result = some result →
    s.progress slot.slotId = .done result

theorem executed_init (initial : (uploadSession codec uploadConcurrency).Init s) :
    Executed codec [] s := by
  obtain ⟨isNew, asking, -⟩ := initial
  constructor
  · rw [isNew]
    exact HashRequestScheduler.new_wired _
  · exact fun slotId _ => asking slotId
  · intro slot member
    rw [isNew] at member
    cases member
  · intro slot member
    rw [isNew] at member
    cases member

/-- The scheduler takes a step, and a result that is stored is that of the execution. -/
theorem Executed.onScheduler (executed : Executed codec ts s)
    {event : SchedulerEvent HashId UploadChunkJob UploadChunkResponse}
    {scheduler : HashRequestScheduler HashId UploadChunkJob UploadChunkResponse}
    (joins : s.scheduler.Joins (· = ·) event) (stepped : s.scheduler.step event = some scheduler)
    (isDone : ∀ slotId result, event = .complete slotId result →
      s.progress slotId = .done result) :
    Executed codec (⟨s, e, { s with scheduler := scheduler }⟩ :: ts)
      { s with scheduler := scheduler } := by
  have move := HashRequestScheduler.slots_move stepped
  have rows : ∀ slot ∈ scheduler.slots.rows,
      (s.scheduler.slots.seq < slot.slotId ∧ slot.result = none) ∨
        ∃ old ∈ s.scheduler.slots.rows, slot.slotId = old.slotId ∧ slot.request = old.request ∧
          (slot.result = old.result ∨
            ∃ result, event = .complete slot.slotId result ∧ slot.result = some result) := by
    intro slot member
    generalize scheduler.slots = after at move member
    cases move with
    | same => exact .inr ⟨slot, member, rfl, rfl, .inl rfl⟩
    | created hashId request =>
        rcases mem_appended.mp member with old | rfl
        · exact .inr ⟨slot, old, rfl, rfl, .inl rfl⟩
        · exact .inl ⟨Nat.lt_succ_self _, rfl⟩
    | moved old new found slotId request result =>
        rcases SeqTable.mem_replace member with rfl | ⟨kept, -⟩
        · exact .inr ⟨old, (Table.mem_of_find? found).1, slotId, request, result⟩
        · exact .inr ⟨slot, kept, rfl, rfl, .inl rfl⟩
  have grows : s.scheduler.slots.seq ≤ scheduler.slots.seq := by
    generalize scheduler.slots = after at move
    cases move with
    | same => exact Nat.le_refl _
    | created hashId request => exact Nat.le_succ _
    | moved old new found slotId request result => exact Nat.le_refl _
  constructor
  case wired => exact HashRequestScheduler.wired_step executed.wired joins (fun _ => rfl) stepped
  case unused => exact fun slotId next => executed.unused slotId (Nat.lt_of_le_of_lt grows next)
  case executes =>
      intro slot member
      rcases rows slot member with ⟨isNew, -⟩ | ⟨old, among, slotId, request, -⟩
      · have asking : s.progress slot.slotId = .asking := executed.unused _ isNew
        show Executes codec slot.slotId slot.request _ (s.progress slot.slotId)
        rw [asking]
        refine .start ?_ (Option.isSome_iff_exists.mpr ⟨slot, Table.find?_isSome_of_mem member⟩)
        apply Table.find?_eq_none.mpr
        intro other among same
        have atMost := s.scheduler.slots.le_seq other among
        omega
      · rw [slotId, request]
        exact .rest (executed.executes old among)
  case result =>
      intro slot member result isResult
      rcases rows slot member with ⟨-, none⟩ | ⟨old, among, slotId, -, same | ⟨other, rfl, isOther⟩⟩
      · rw [none] at isResult
        cases isResult
      · rw [slotId]
        exact executed.result old among result (same.symm.trans isResult)
      · obtain rfl := Option.some.inj (isOther.symm.trans isResult)
        exact isDone _ _ rfl

/-- Nothing happens to the slots and their executions. -/
theorem Executed.rest (executed : Executed codec ts s) {t : Transition UploadSession SessionEvent}
    (scheduler : s'.scheduler = s.scheduler) (progress : s'.progress = s.progress) :
    Executed codec (t :: ts) s' := by
  constructor
  case wired => rw [scheduler]; exact executed.wired
  case unused => rw [scheduler, progress]; exact executed.unused
  case executes =>
      rw [scheduler, progress]
      exact fun slot member => .rest (executed.executes slot member)
  case result => rw [scheduler, progress]; exact executed.result

theorem executed_of_run (run : (uploadSession codec uploadConcurrency).Run ts s)
    (equal : ∀ t ∈ ts, t.pre.JoinsEqual t.event) : Executed codec ts s := by
  induction run with
  | init initial => exact executed_init initial
  | @step ts s s' e run taken inductionHypothesis =>
      have executed := inductionHypothesis fun t member => equal t (List.mem_cons_of_mem _ member)
      have joins : s.JoinsEqual e := equal ⟨s, e, s'⟩ List.mem_cons_self
      cases step_cases taken with
      | enqueued job scheduler stepped =>
          have joined : s.scheduler.Joins (· = ·) (.enqueue job.chunkId job) := joins
          exact executed.onScheduler joined stepped nofun
      | scheduled event scheduler isInternal stepped =>
          have joined : s.scheduler.Joins (· = ·) event := by
            cases event with
            | enqueue => cases isInternal
            | _ => trivial
          refine executed.onScheduler joined stepped ?_
          rintro slotId result rfl
          cases isInternal
      | completed slotId result scheduler isDone stepped =>
          have joined : s.scheduler.Joins (· = ·) (.complete slotId result) := trivial
          refine executed.onScheduler joined stepped ?_
          intro other given same
          obtain ⟨rfl, rfl⟩ := SchedulerEvent.complete.inj same
          exact isDone
      | worked slot event next isSlot isRunning stepped =>
          obtain ⟨slotMem, -⟩ := Table.mem_of_find? isSlot
          constructor
          case wired => exact executed.wired
          case unused =>
              intro slotId later
              have atMost := s.scheduler.slots.le_seq slot slotMem
              have other : slotId ≠ slot.slotId := by
                intro same
                have fresh : s.scheduler.slots.seq < slotId := later
                omega
              exact (if_neg other).trans (executed.unused slotId later)
          case executes =>
              intro other member
              show Executes codec other.slotId other.request _
                (if other.slotId = slot.slotId then next.2 else s.progress other.slotId)
              split
              next same =>
                obtain rfl := Table.eq_of_key_eq member slotMem same
                exact .step (executed.executes other member) stepped
              next => exact .rest (executed.executes other member)
          case result =>
              intro other member result isResult
              show (if other.slotId = slot.slotId then next.2 else s.progress other.slotId) = _
              split
              next same =>
                obtain rfl := Table.eq_of_key_eq member slotMem same
                rw [executed.wired.unanswered other member (.inr isRunning)] at isResult
                cases isResult
              next => exact executed.result other member result isResult
      | handled event storage keeps stepped => exact executed.rest rfl rfl
      | filed files => exact executed.rest rfl rfl

/-- When every job that joins a request in flight equals the job under way, the
callbacks of a session are given what executing their own jobs gives. -/
theorem uploads_transparent (run : (uploadSession codec uploadConcurrency).Run ts s)
    (equal : ∀ t ∈ ts, t.pre.JoinsEqual t.event) : Transparent codec ts s := by
  intro invocation among
  have executed := executed_of_run run equal
  obtain ⟨call, slot, isCall, isSlot, isResult⟩ := executed.wired.invoked invocation among
  obtain ⟨slotMem, slotKey⟩ := Table.mem_of_find? isSlot
  obtain ⟨other, isOther, same⟩ := executed.wired.call_slot call (Table.mem_of_find? isCall).1
  obtain rfl := Option.some.inj (isSlot.symm.trans isOther)
  have executes := executed.executes slot slotMem
  rw [executed.result slot slotMem _ isResult] at executes
  rw [slotKey, same] at executes
  refine ⟨call, isCall, ?_⟩
  cases given : invocation.result with
  | ok response =>
      rw [given] at executes
      exact executes.hasChunk run rfl
  | error err =>
      rw [given] at executes
      exact executes

/-! ## Two volumes -/

namespace TwoVolumes

/-- Hashes by the first byte, and the identity for compression. -/
def plain : UploadCodec where
  blake3 := Volume.Scenario.blake3
  zstdCompress := .ok
  zstdDecompress := fun bytes _ => .ok bytes
  connectionError := fun err => err = .centralUnavailable

/-- A session that was just created for a storage of two volumes. -/
def initial : UploadSession where
  scheduler := .new 2
  progress := fun _ => .asking
  storage := ⟨false, ⟨[⟨1, Volume.Scenario.initial⟩, ⟨2, Volume.Scenario.initial⟩], by simp⟩, .empty⟩
  files := fun _ _ _ => .ok [7, 2, 3]

theorem initial_init : (uploadSession plain 2).Init initial := by
  refine ⟨rfl, fun _ => rfl, rfl, fun row member => ?_⟩
  rcases List.mem_cons.mp member with rfl | last
  · exact Volume.Scenario.initial_init
  · rw [List.mem_singleton.mp last]
    exact Volume.Scenario.initial_init

/-- The job of an upload to one of the volumes. -/
def job (volumeId : Nat) : UploadChunkJob :=
  ⟨4, 2, volumeId, Volume.Scenario.hash 7, 3, "/source", 0⟩

/-- Volume 1 has the chunk. -/
def stored : List SessionEvent :=
  [.storage (.grantUploadLease ⟨4, 2, 1, 0, 9, none⟩),
    .storage (.uploadChunk ⟨4, 2, 1, Volume.Scenario.hash 7, 3, [7, 2, 3]⟩ 1 1),
    .storage (.volume 1 (.write 1 3)), .storage (.volume 1 (.storeChunk 1))]

/-- A job for volume 1, and another one that joins it before it is asked about. -/
def joined (second : UploadChunkJob) : List SessionEvent :=
  [.enqueueUpload (job 1), .scheduler (.addCallback 1), .scheduler (.acquirePermit 1),
    .enqueueUpload second, .scheduler (.addCallback 2)]

/-- The first job ends, and both callbacks are invoked. -/
def ended (e : JobEvent) : List SessionEvent :=
  [.job 1 e, .complete 1, .scheduler (.invoke 1), .scheduler (.invoke 1)]

end TwoVolumes

/-- Two jobs that are equal share the error of the connection. -/
theorem uploads_transparent_shared : ∃ ts s, (uploadSession TwoVolumes.plain 2).Run ts s ∧
    s.scheduler.invoked.map Invocation.callId = [2, 1] ∧ Transparent TwoVolumes.plain ts s := by
  obtain ⟨s, ends, calls⟩ := Option.map_eq_some_iff.mp
    (show ((uploadSession TwoVolumes.plain 2).execWhile (fun s e => s.JoinsEqual e)
        TwoVolumes.initial (TwoVolumes.joined (TwoVolumes.job 1) ++
          TwoVolumes.ended (.fail .centralUnavailable))).map
        (fun s => s.scheduler.invoked.map Invocation.callId) = some [2, 1] from by decide +kernel)
  obtain ⟨ts, run, equal⟩ := (System.Run.init TwoVolumes.initial_init).execWhile _ ends
  rw [List.append_nil] at run
  exact ⟨ts, s, run, calls, uploads_transparent run fun t member => of_decide_eq_true (equal t member)⟩

/-- The callback of the job for volume 2 is given `Ok`, and volume 2 lacks the chunk. -/
theorem uploads_not_transparent : ¬ ∀ (codec : UploadCodec) (uploadConcurrency : Nat)
    (ts : List (Transition UploadSession SessionEvent)) (s : UploadSession),
    (uploadSession codec uploadConcurrency).Run ts s → Transparent codec ts s := by
  intro transparent
  obtain ⟨s, ends, facts⟩ := Option.map_eq_some_iff.mp
    (show ((uploadSession TwoVolumes.plain 2).exec TwoVolumes.initial
        (TwoVolumes.stored ++ TwoVolumes.joined (TwoVolumes.job 2) ++
          TwoVolumes.ended .hasChunk)).map
        (fun s => (s.scheduler.invoked, (s.scheduler.calls.find? 2).map EnqueueCall.request,
          (s.storage.volumes.find? 2).map fun row => row.volume.tables.chunks.rows)) =
      some ([⟨2, .ok ⟨Volume.Scenario.hash 7, 3, 3⟩⟩, ⟨1, .ok ⟨Volume.Scenario.hash 7, 3, 3⟩⟩],
        some (TwoVolumes.job 2), some []) from by decide +kernel)
  obtain ⟨ts, run, -⟩ := (System.Run.init TwoVolumes.initial_init).exec _ ends
  rw [List.append_nil] at run
  obtain ⟨invoked, rest⟩ := Prod.mk.inj facts
  obtain ⟨request, chunks⟩ := Prod.mk.inj rest
  obtain ⟨call, isCall, deserved⟩ := transparent _ _ ts s run _ (invoked ▸ List.mem_cons_self)
  rw [isCall] at request
  obtain ⟨row, found, chunk, isChunk⟩ := deserved
  have isJob : call.request = TwoVolumes.job 2 := Option.some.inj request
  rw [isJob] at found
  rw [show s.storage.volumes.find? 2 = some row from found] at chunks
  have none := (Table.mem_of_find? isChunk).1
  rw [show row.volume.tables.chunks.rows = [] from Option.some.inj chunks] at none
  cases none

end UploadSession

end Fs0
