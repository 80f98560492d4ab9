import Fs0.Client.Download

/-!
Contract: what it means that `download_file_chunks` returned `Ok`.

Owns:
- the invariant tying `InternalDownloadState` to the callbacks that have run;
- the exact runs in which `Ok` accounts for every callback.

Does not own: the layout of the chunks or the bytes they carry.
-/

set_option autoImplicit false

namespace Fs0

open Fs0.Lib

/-! ## Callbacks and the errors they record -/

/-- The callback received the chunk it asked for and sent its write job. -/
def CompletedChunk.Delivered (c : CompletedChunk) : Prop :=
  ∃ bytes : Bytes, c.result = .ok ⟨c.chunk.request.chunkId, bytes⟩ ∧
    bytes.length = c.chunk.rawLen ∧ c.sent = some ⟨c.chunk.rawOffset, bytes⟩

namespace InternalDownloadState

theorem recordError_eq (state : InternalDownloadState) (err : Fs0Error) :
    ∃ first, state.recordError err = { state with firstError := some first } := by
  unfold recordError
  cases recorded : state.firstError with
  | none => exact ⟨err, rfl⟩
  | some first =>
      refine ⟨first, ?_⟩
      rw [if_neg (by simp), ← recorded]

/-- A callback touches only the error field. Either it delivers its chunk and leaves
that alone too, or an error is recorded after it. -/
theorem receive_cases (state : InternalDownloadState) (chunk : ChunkDownload) (writerOpen : Bool)
    (result : Fs0Result DownloadChunkResult) :
    ∃ firstError job,
      state.receive chunk writerOpen result = ({ state with firstError := firstError }, job) ∧
        ((firstError = state.firstError ∧ CompletedChunk.Delivered ⟨chunk, result, job⟩) ∨
          (firstError ≠ none ∧ ¬ CompletedChunk.Delivered ⟨chunk, result, job⟩)) := by
  unfold receive
  cases result with
  | error err =>
      obtain ⟨first, recorded⟩ := state.recordError_eq err
      refine ⟨some first, none, by simp only [recorded], .inr ⟨by simp, ?_⟩⟩
      rintro ⟨bytes, received, -⟩
      cases received
  | ok response =>
      have unsent : ∀ result, ¬ CompletedChunk.Delivered ⟨chunk, result, none⟩ := by
        rintro result ⟨bytes, -, -, sent⟩
        cases sent
      by_cases mismatch :
          response.chunkId ≠ chunk.request.chunkId ∨ response.rawBytes.length ≠ chunk.rawLen
      · obtain ⟨first, recorded⟩ := state.recordError_eq
          (.invalidData "downloaded chunk metadata does not match request")
        refine ⟨some first, none, ?_, .inr ⟨by simp, unsent _⟩⟩
        simp only [mismatch, if_true, recorded]
      · simp only [mismatch, if_false]
        push Not at mismatch
        obtain ⟨sameId, sameLen⟩ := mismatch
        cases writerOpen with
        | false =>
            obtain ⟨first, recorded⟩ := state.recordError_eq
              (.internal "download writer task closed")
            refine ⟨some first, none, ?_, .inr ⟨by simp, unsent _⟩⟩
            simp only [Bool.false_eq_true, if_false, recorded]
        | true =>
            refine ⟨state.firstError, _, rfl, .inl ⟨rfl, response.rawBytes, ?_, sameLen, rfl⟩⟩
            rw [← sameId]

@[simp] theorem transferResult_eq_ok {firstError : Option Fs0Error} :
    transferResult firstError = .ok () ↔ firstError = none := by
  cases firstError with
  | none => simp [transferResult]
  | some err => simp [transferResult]

/-- The finishing block when every callback has run: the result is sent, and not waited for. -/
theorem finishScheduling_last {state : InternalDownloadState} (held : state.doneTx = true)
    (last : state.remainChunks = 0) :
    state.finishScheduling =
      ({ state with schedulingDone := true, doneTx := false, firstError := none },
        some (transferResult state.firstError), false) := by
  simp [finishScheduling, sendDone, last, held]

theorem finishScheduling_waits {state : InternalDownloadState} (more : state.remainChunks ≠ 0) :
    state.finishScheduling = ({ state with schedulingDone := true }, none, true) := by
  simp [finishScheduling, more]

/-- The counting half of the last callback after scheduling. -/
theorem complete_last {state : InternalDownloadState} (held : state.doneTx = true)
    (done : state.schedulingDone = true) (last : state.remainChunks - 1 = 0) :
    state.complete =
      ({ state with remainChunks := 0, doneTx := false, firstError := none },
        some (transferResult state.firstError)) := by
  simp [complete, sendDone, done, last, held]

theorem complete_counts {state : InternalDownloadState}
    (more : ¬ (state.schedulingDone = true ∧ state.remainChunks - 1 = 0)) :
    state.complete = ({ state with remainChunks := state.remainChunks - 1 }, none) := by
  simp only [complete, more, if_false]

end InternalDownloadState

/-! ## The invariant -/

namespace Download

def AllDelivered (s : Download) : Prop := ∀ c ∈ s.completed, c.Delivered

/-- While the sender is there, the recorded error speaks for all callbacks that have
run. Once it is taken every callback has run, and the channel holds their verdict. -/
structure SharedInv (s : Download) : Prop where
  remain : s.shared.remainChunks = s.pending.length
  total : s.shared.totalChunks = s.pending.length + s.completed.length
  held : s.shared.doneTx = true →
    (s.shared.firstError = none ↔ s.AllDelivered) ∧ s.doneRx = none
  taken : s.shared.doneTx = false → s.shared.schedulingDone = true ∧ s.pending = []
  verdict : s.doneRx = some (.ok ()) → s.pending = [] → s.AllDelivered

/-- What each phase knows about the shared state. -/
def PhaseInv (s : Download) : Prop :=
  match s.phase with
  | .waiting => s.shared.schedulingDone = true ∧ (s.pending = [] → s.shared.doneTx = false)
  | .returned (.ok ()) => s.pending = [] ∧ s.AllDelivered
  | .returned (.error _) => True
  | _ => s.shared.schedulingDone = false

structure Inv (s : Download) : Prop extends SharedInv s where
  phase : s.PhaseInv

/-- `Ok` was returned only after every callback ran and delivered its chunk. -/
def OkIsComplete (s : Download) : Prop :=
  s.phase = .returned (.ok ()) → s.pending = [] ∧ s.AllDelivered

theorem Inv.okIsComplete {s : Download} (inv : s.Inv) : s.OkIsComplete := by
  intro returned
  have phase := inv.phase
  rw [PhaseInv, returned] at phase
  exact phase

theorem inv_initial (plan : FileReadPlan) : (Download.initial plan).Inv where
  remain := rfl
  total := rfl
  held := by simp [Download.initial, InternalDownloadState.initial, AllDelivered]
  taken := by simp [Download.initial, InternalDownloadState.initial]
  verdict := by simp [Download.initial]
  phase := rfl

/-- The finishing block is entered after a callback that failed, and finds no other pending. -/
def FinishesUnread (s : Download) (e : DownloadEvent) : Prop :=
  e = .finishScheduling ∧ s.shared.remainChunks = 0 ∧ s.shared.firstError ≠ none

/-! ## What each step preserves -/

variable {plan : FileReadPlan} {storages : List StoragePeerInfo} {s s' : Download}

/-- The sender is still there until the block after the loop. -/
theorem Inv.held_of_bundles {rest : List FileBundleRef} (inv : s.Inv)
    (here : s.phase = .bundles rest) : s.shared.doneTx = true := by
  cases tx : s.shared.doneTx with
  | true => rfl
  | false =>
      have done := (inv.taken tx).1
      have phase := inv.phase
      rw [PhaseInv, here] at phase
      rw [phase] at done
      cases done

/-- The steps that leave the shared state and the callbacks alone. -/
theorem SharedInv.of_same (inv : s.SharedInv) (shared : s'.shared = s.shared)
    (doneRx : s'.doneRx = s.doneRx) (pending : s'.pending = s.pending)
    (completed : s'.completed = s.completed) : s'.SharedInv where
  remain := by
    rw [shared, pending]
    exact inv.remain
  total := by
    rw [shared, pending, completed]
    exact inv.total
  held := by
    rw [shared, doneRx, AllDelivered, completed]
    exact inv.held
  taken := by
    rw [shared, pending]
    exact inv.taken
  verdict := by
    rw [doneRx, pending, AllDelivered, completed]
    exact inv.verdict

theorem inv_listBundle {listing : Fs0Result (List BundleChunkRef)} (inv : s.Inv)
    (taken : s.listBundle storages listing = some s') : s'.Inv := by
  obtain ⟨bundle, rest, here, outcome⟩ := listBundle_cases taken
  have phase := inv.phase
  rw [PhaseInv, here] at phase
  rcases outcome with ⟨err, rfl⟩ | ⟨current, chunks, -, -, rfl⟩
  · exact ⟨inv.toSharedInv.of_same rfl rfl rfl rfl, trivial⟩
  · exact ⟨inv.toSharedInv.of_same rfl rfl rfl rfl, phase⟩

theorem inv_scheduleChunk (inv : s.Inv) (taken : s.scheduleChunk plan = some s') : s'.Inv := by
  rcases scheduleChunk_cases taken with
    ⟨current, rest, here, rfl⟩ | ⟨current, chunk, chunks, rest, here, outcome⟩
  · have phase := inv.phase
    rw [PhaseInv, here] at phase
    exact ⟨inv.toSharedInv.of_same rfl rfl rfl rfl, phase⟩
  · have phase := inv.phase
    rw [PhaseInv, here] at phase
    rcases outcome with ⟨err, rfl⟩ | ⟨job, -, rfl⟩
    · exact ⟨inv.toSharedInv.of_same rfl rfl rfl rfl, trivial⟩
    · refine ⟨⟨?_, ?_, inv.held, ?_, ?_⟩, phase⟩
      · simp [inv.remain]
      · simp [inv.total]
        omega
      · intro gone
        have done := (inv.taken gone).1
        rw [phase] at done
        cases done
      · simp

theorem inv_enqueued {result : Fs0Result Unit} (inv : s.Inv)
    (taken : s.enqueued result = some s') : s'.Inv := by
  obtain ⟨current, chunks, rest, here, outcome⟩ := enqueued_cases taken
  have phase := inv.phase
  rw [PhaseInv, here] at phase
  rcases outcome with ⟨err, rfl⟩ | rfl
  · exact ⟨inv.toSharedInv.of_same rfl rfl rfl rfl, trivial⟩
  · exact ⟨inv.toSharedInv.of_same rfl rfl rfl rfl, phase⟩

theorem inv_receiveDone (inv : s.Inv) (taken : s.receiveDone = some s') : s'.Inv := by
  obtain ⟨result, here, received, rfl⟩ := receiveDone_cases taken
  have gone : s.shared.doneTx = false := by
    cases tx : s.shared.doneTx with
    | false => rfl
    | true =>
        have unsent := (inv.held tx).2
        rw [received] at unsent
        cases unsent
  have empty := (inv.taken gone).2
  refine ⟨inv.toSharedInv.of_same rfl rfl rfl rfl, ?_⟩
  cases result with
  | error err => trivial
  | ok => exact ⟨empty, inv.verdict received empty⟩

theorem inv_writer {e : DownloadEvent}
    (writer : e = .writeJob ∨ (∃ torn err, e = .writeFails torn err) ∨ ∃ flush, e = .writerEnds flush)
    (inv : s.Inv) (taken : s.step plan storages e = some s') : s'.Inv := by
  obtain ⟨writeRx, writer, output, rfl⟩ := writer_cases writer taken
  exact ⟨inv.toSharedInv.of_same rfl rfl rfl rfl, inv.phase⟩

/-- The finishing block keeps the invariant unless it drops a recorded error. -/
theorem inv_finishScheduling (inv : s.Inv) (read : ¬ FinishesUnread s .finishScheduling)
    (taken : s.finishScheduling = some s') : s'.Inv := by
  obtain ⟨here, rfl⟩ := finishScheduling_cases taken
  have held := inv.held_of_bundles here
  obtain ⟨errors, unsent⟩ := inv.held held
  by_cases last : s.shared.remainChunks = 0
  · have noError : s.shared.firstError = none := by
      by_contra recorded
      exact read ⟨rfl, last, recorded⟩
    have empty : s.pending = [] := by
      rw [← List.length_eq_zero_iff, ← inv.remain]
      exact last
    have delivered := errors.mp noError
    rw [InternalDownloadState.finishScheduling_last held last]
    exact ⟨⟨inv.remain, inv.total, by simp, fun _ => ⟨rfl, empty⟩, fun _ _ => delivered⟩,
      ⟨empty, delivered⟩⟩
  · rw [InternalDownloadState.finishScheduling_waits last]
    refine ⟨⟨inv.remain, inv.total, inv.held, ?_, ?_⟩, rfl, ?_⟩
    · simp [held]
    · simp [unsent]
    · intro empty
      have zero := inv.remain
      rw [empty] at zero
      exact absurd zero last

/-- A callback does not move the loop. -/
theorem PhaseInv.of_callback (inv : s.PhaseInv) (phase : s'.phase = s.phase)
    (scheduling : s'.shared.schedulingDone = s.shared.schedulingDone)
    (running : s.phase ≠ .returned (.ok ()))
    (last : s.shared.schedulingDone = true → s'.pending = [] → s'.shared.doneTx = false) :
    s'.PhaseInv := by
  rw [PhaseInv] at inv ⊢
  rw [phase, scheduling]
  cases here : s.phase with
  | waiting =>
      rw [here] at inv
      exact ⟨inv.1, last inv.1⟩
  | returned result =>
      cases result with
      | ok => exact absurd here running
      | error err => trivial
  | bundles rest =>
      rw [here] at inv
      exact inv
  | chunks current chunks rest =>
      rw [here] at inv
      exact inv
  | enqueuing current chunks rest =>
      rw [here] at inv
      exact inv

theorem inv_callback {index : Nat} {result : Fs0Result DownloadChunkResult} (inv : s.Inv)
    (taken : s.callback index result = some s') : s'.Inv := by
  obtain ⟨chunk, found, rfl⟩ := callback_cases taken
  obtain ⟨below, -⟩ := List.getElem?_eq_some_iff.mp found
  have held : s.shared.doneTx = true := by
    cases tx : s.shared.doneTx with
    | true => rfl
    | false =>
        rw [(inv.taken tx).2] at below
        cases below
  have running : s.phase ≠ .returned (.ok ()) := by
    intro returned
    rw [(inv.okIsComplete returned).1] at below
    cases below
  obtain ⟨errors, unsent⟩ := inv.held held
  obtain ⟨firstError, job, received, outcome⟩ :=
    s.shared.receive_cases chunk (s.writer = .running) result
  rw [received]
  dsimp only
  have verdict : firstError = none ↔ ∀ c ∈ s.completed ++ [⟨chunk, result, job⟩], c.Delivered := by
    rw [List.forall_mem_append, List.forall_mem_singleton]
    rcases outcome with ⟨same, delivered⟩ | ⟨recorded, lost⟩
    · rw [same, errors]
      exact ⟨fun all => ⟨all, delivered⟩, fun both => both.1⟩
    · exact ⟨fun none => absurd none recorded, fun both => absurd both.2 lost⟩
  have fewer : (s.pending.eraseIdx index).length = s.pending.length - 1 :=
    List.length_eraseIdx_of_lt below
  have remain : s.shared.remainChunks - 1 = (s.pending.eraseIdx index).length := by
    rw [fewer, inv.remain]
  have total : s.shared.totalChunks = (s.pending.eraseIdx index).length +
      (s.completed ++ [(⟨chunk, result, job⟩ : CompletedChunk)]).length := by
    rw [fewer, inv.total, List.length_append, List.length_singleton]
    omega
  by_cases last : s.shared.schedulingDone = true ∧ s.shared.remainChunks - 1 = 0
  · have empty : s.pending.eraseIdx index = [] := by
      rw [← List.length_eq_zero_iff, ← remain, last.2]
    have finished :
        ({ s.shared with firstError := firstError } : InternalDownloadState).complete = _ :=
      InternalDownloadState.complete_last held last.1 last.2
    rw [finished]
    refine ⟨⟨?_, total, by simp, fun _ => ⟨last.1, empty⟩, ?_⟩, ?_⟩
    · rw [empty, List.length_nil]
    · intro sent _
      rw [Option.some_or, Option.some_inj, InternalDownloadState.transferResult_eq_ok] at sent
      exact verdict.mp sent
    · exact inv.phase.of_callback rfl rfl running fun _ _ => rfl
  · have counted :
        ({ s.shared with firstError := firstError } : InternalDownloadState).complete = _ :=
      InternalDownloadState.complete_counts last
    rw [counted]
    refine ⟨⟨remain, total, fun _ => ⟨verdict, unsent⟩, ?_, ?_⟩, ?_⟩
    · simp [held]
    · simp [unsent]
    · refine inv.phase.of_callback rfl rfl running fun done empty => ?_
      have drained : s.pending.eraseIdx index = [] := empty
      refine absurd ⟨done, ?_⟩ last
      rw [remain, drained, List.length_nil]

/-- Every step keeps the invariant, unless it finishes over an error nobody has read. -/
theorem inv_step {e : DownloadEvent} (inv : s.Inv) (read : ¬ FinishesUnread s e)
    (taken : s.step plan storages e = some s') : s'.Inv := by
  cases e with
  | listBundle listing => exact inv_listBundle inv taken
  | scheduleChunk => exact inv_scheduleChunk inv taken
  | enqueued result => exact inv_enqueued inv taken
  | callback index result => exact inv_callback inv taken
  | finishScheduling => exact inv_finishScheduling inv read taken
  | receiveDone => exact inv_receiveDone inv taken
  | writeJob => exact inv_writer (.inl rfl) inv taken
  | writeFails torn err => exact inv_writer (.inr (.inl ⟨torn, err, rfl⟩)) inv taken
  | writerEnds flush => exact inv_writer (.inr (.inr ⟨flush, rfl⟩)) inv taken

/-- A step that finishes over an unread error returns `Ok` although a callback failed. -/
theorem not_okIsComplete_of_finishesUnread {e : DownloadEvent} (inv : s.Inv)
    (unread : FinishesUnread s e) (taken : s.step plan storages e = some s') :
    ¬ s'.OkIsComplete := by
  obtain ⟨rfl, last, recorded⟩ := unread
  obtain ⟨here, rfl⟩ := finishScheduling_cases taken
  have held := inv.held_of_bundles here
  intro complete
  have returned := complete (by
    rw [InternalDownloadState.finishScheduling_last held last]
    rfl)
  exact recorded ((inv.held held).1.mpr returned.2)

end Download

/-! ## The exact runs in which `Ok` is complete -/

/-- In a run of a download, `Ok` accounts for every callback in every state exactly when
the block after the loop never finishes over a recorded error. -/
theorem download_okIsComplete_iff {plan : FileReadPlan} {storages : List StoragePeerInfo}
    {ts : List (Transition Download DownloadEvent)} {s : Download}
    (run : (downloadSystem plan storages).Run ts s) :
    (∀ x ∈ visited ts s, x.OkIsComplete) ↔ ∀ t ∈ ts, ¬ Download.FinishesUnread t.pre t.event := by
  refine run.all_visited_iff_guard Download.Inv Download.OkIsComplete
    (fun s e => ¬ Download.FinishesUnread s e) ?_ ?_ ?_ ?_
  · rintro s rfl
    exact Download.inv_initial plan
  · intro s e s' inv read taken
    exact Download.inv_step inv read taken
  · intro s inv
    exact inv.okIsComplete
  · intro s e s' inv unread taken
    exact Download.not_okIsComplete_of_finishesUnread inv (not_not.mp unread) taken

/-- A file of one byte in one bundle of one chunk, held by storage 1. -/
def oneChunkPlan : FileReadPlan where
  fileId := 1
  path := "/a"
  size := 1
  bundles := [⟨0, 1, 9, .repeating 2, [⟨1, 1⟩]⟩]

def oneChunkStorages : List StoragePeerInfo := [⟨1, "storage", [], []⟩]

def oneChunkListing : List BundleChunkRef := [⟨0, .repeating 1⟩]

/-- The events of a download of `oneChunkPlan` whose only chunk completes with `result`
before the loop has ended. -/
def oneChunkEvents (result : Fs0Result DownloadChunkResult) : List DownloadEvent :=
  [.listBundle (.ok oneChunkListing), .scheduleChunk, .callback 0 result, .enqueued (.ok ()),
    .scheduleChunk, .finishScheduling]

theorem download_okIsComplete_iff_delivered :
    ∃ ts s, (downloadSystem oneChunkPlan oneChunkStorages).Run ts s ∧
      s.phase = .returned (.ok ()) ∧
      ((∀ x ∈ visited ts s, x.OkIsComplete) ↔
        ∀ t ∈ ts, ¬ Download.FinishesUnread t.pre t.event) := by
  have start : (downloadSystem oneChunkPlan oneChunkStorages).Run [] (.initial oneChunkPlan) :=
    .init rfl
  obtain ⟨ts, run, -⟩ :=
    start.exec (oneChunkEvents (.ok ⟨.repeating 1, [7]⟩)) rfl
  exact ⟨_, _, run, rfl, download_okIsComplete_iff run⟩

/-- The callback runs first and fails; the block after the loop then sends the error into a
channel that nobody awaits and the function returns `Ok`. -/
theorem download_returns_ok_after_error :
    ∃ s, (downloadSystem oneChunkPlan oneChunkStorages).Reachable s ∧
      s.phase = .returned (.ok ()) ∧ s.doneRx = some (.error .chunkNotReady) ∧
      ¬ s.OkIsComplete := by
  have start : (downloadSystem oneChunkPlan oneChunkStorages).Init (.initial oneChunkPlan) := rfl
  refine ⟨_, System.exec_reachable (oneChunkEvents (.error .chunkNotReady)) start rfl,
    rfl, rfl, fun complete => ?_⟩
  obtain ⟨bytes, received, -⟩ := (complete rfl).2 _ List.mem_cons_self
  cases received

end Fs0
