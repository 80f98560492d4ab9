import Fs0.Client.DownloadAssembly

/-!
Contract: downloads all of whose requests are served.

Owns:
- what the answers of the storages are, when every bundle is listed as it was committed and
  every chunk is sent as it was uploaded;
- that such a download records no error at any point, and returns `Ok` whatever the order in
  which its callbacks run;
- that it can go on until it returns, and that every schedule of it ends.

Does not own: the plan and the chunks, which are parameters.
-/

set_option autoImplicit false

namespace Fs0

open Fs0.Lib

section Checks

variable (plan : FileReadPlan) (storages : List StoragePeerInfo) (content : HashId → Bytes)
  (listing : FileBundleRef → List BundleChunkRef)

/-- A chunk passes the checks of the loop, and its contents are as long as the job asks for. -/
def ChunkChecked (current : BundleDownload) (chunk : BundleChunkRef) : Prop :=
  ∃ job, chunkDownload plan current chunk = .ok job ∧ job.LengthOk content

/-- A bundle is started, and all of its chunks pass the checks. -/
def BundleChecked (bundle : FileBundleRef) : Prop :=
  ∃ current, startBundle storages bundle = .ok current ∧
    ∀ chunk ∈ listing bundle, ChunkChecked plan content current chunk

end Checks

/-- Every request is answered: a bundle with its chunks, in any order, and a chunk with its
contents. No write of the local file fails. -/
def DownloadEvent.Served (content : HashId → Bytes) (listing : FileBundleRef → List BundleChunkRef)
    (s : Download) : DownloadEvent → Prop
  | .listBundle result => ∀ bundle rest, s.phase = .bundles (bundle :: rest) →
      ∃ chunks, result = .ok chunks ∧ chunks.Perm (listing bundle)
  | .enqueued result => result = .ok ()
  | .callback index result => ∀ job, s.pending[index]? = some job →
      result = .ok ⟨job.request.chunkId, content job.request.chunkId⟩
  | .writeFails _ _ => False
  | .writerEnds flush => flush = .ok ()
  | _ => True

namespace InternalDownloadState

variable {state : InternalDownloadState}

/-- Without an error, counting a callback records none, and only `Ok` is sent. -/
theorem complete_clean (clean : state.firstError = none) :
    state.complete.1.firstError = none ∧
      ∀ result, state.complete.2 = some result → result = .ok () := by
  unfold complete sendDone
  dsimp only
  split
  · split
    · refine ⟨rfl, fun result sent => ?_⟩
      rw [clean] at sent
      exact (Option.some.inj sent).symm
    · refine ⟨clean, fun result sent => ?_⟩
      cases sent
  · refine ⟨clean, fun result sent => ?_⟩
    cases sent

theorem finishScheduling_clean (clean : state.firstError = none) :
    state.finishScheduling.1.firstError = none ∧
      ∀ result, state.finishScheduling.2.1 = some result → result = .ok () := by
  unfold finishScheduling sendDone
  dsimp only
  split
  · split
    · refine ⟨rfl, fun result sent => ?_⟩
      rw [clean] at sent
      exact (Option.some.inj sent).symm
    · refine ⟨clean, fun result sent => ?_⟩
      cases sent
  · refine ⟨clean, fun result sent => ?_⟩
    cases sent

/-- The sender of the completion channel is taken only to send the result. -/
theorem complete_sent (held : state.doneTx = true) (taken : state.complete.1.doneTx = false) :
    ∃ result, state.complete.2 = some result := by
  unfold complete sendDone at taken ⊢
  dsimp only at taken ⊢
  split at taken
  · next last => simp [last, held]
  · simp [held] at taken

theorem finishScheduling_sent (held : state.doneTx = true)
    (taken : state.finishScheduling.1.doneTx = false) :
    ∃ result, state.finishScheduling.2.1 = some result := by
  unfold finishScheduling sendDone at taken ⊢
  dsimp only at taken ⊢
  split at taken
  · next last => simp [last, held]
  · simp [held] at taken

/-- The callback of a chunk that arrives as it was asked for. -/
theorem receive_delivered {chunk : ChunkDownload} {bytes : Bytes}
    (length : bytes.length = chunk.rawLen) :
    state.receive chunk true (.ok ⟨chunk.request.chunkId, bytes⟩) =
      (state, some ⟨chunk.rawOffset, bytes⟩) := by
  simp [receive, length]

end InternalDownloadState

namespace Download

section Smooth

variable (plan : FileReadPlan) (storages : List StoragePeerInfo) (content : HashId → Bytes)
  (listing : FileBundleRef → List BundleChunkRef)

/-- What is still to be scheduled passes its checks, and what is over returned `Ok`. -/
def PhaseSmooth (s : Download) : Prop :=
  match s.phase with
  | .bundles rest => ∀ bundle ∈ rest, BundleChecked plan storages content listing bundle
  | .chunks current chunks rest =>
      (∀ chunk ∈ chunks, ChunkChecked plan content current chunk) ∧
        ∀ bundle ∈ rest, BundleChecked plan storages content listing bundle
  | .enqueuing current chunks rest =>
      (∀ chunk ∈ chunks, ChunkChecked plan content current chunk) ∧
        ∀ bundle ∈ rest, BundleChecked plan storages content listing bundle
  | .waiting => True
  | .returned result => result = .ok ()

/-- Nothing has gone wrong so far, and nothing that is under way can. -/
structure Smooth (s : Download) : Prop where
  clean : s.shared.firstError = none
  verdict : ∀ result, s.doneRx = some result → result = .ok ()
  answered : s.shared.doneTx = false → ∃ result, s.doneRx = some result
  lengths : ∀ job ∈ s.pending, job.LengthOk content
  writer : s.writer = .running ∨
    s.writer = .ended (.ok ()) ∧ s.pending = [] ∧ ∃ result, s.phase = .returned result
  delivered : s.AllDelivered
  contents : ∀ c ∈ s.completed,
    c.result = .ok ⟨c.chunk.request.chunkId, content c.chunk.request.chunkId⟩
  listings : ∀ entry ∈ s.listed, entry.2.Perm (listing entry.1)
  phase : s.PhaseSmooth plan storages content listing

end Smooth

variable {plan : FileReadPlan} {storages : List StoragePeerInfo} {content : HashId → Bytes}
  {listing : FileBundleRef → List BundleChunkRef} {s s' : Download}

theorem smooth_initial
    (checks : ∀ bundle ∈ plan.bundles, BundleChecked plan storages content listing bundle) :
    (Download.initial plan).Smooth plan storages content listing where
  clean := rfl
  verdict := by simp [Download.initial]
  answered := by simp [Download.initial, InternalDownloadState.initial]
  lengths := by simp [Download.initial]
  writer := .inl rfl
  delivered := by simp [Download.initial, AllDelivered]
  contents := by simp [Download.initial]
  listings := by simp [Download.initial]
  phase := checks

/-- The writer waits for the loop. -/
theorem Smooth.running (smooth : s.Smooth plan storages content listing)
    (going : ∀ result, s.phase ≠ .returned result) : s.writer = .running := by
  rcases smooth.writer with running | ⟨-, -, result, returned⟩
  · exact running
  · exact absurd returned (going result)

/-- The writer waits for every callback. -/
theorem Smooth.running_of_pending {index : Nat} {job : ChunkDownload}
    (smooth : s.Smooth plan storages content listing) (found : s.pending[index]? = some job) :
    s.writer = .running := by
  rcases smooth.writer with running | ⟨-, none, -⟩
  · exact running
  · simp [none] at found

theorem smooth_listBundle {result : Fs0Result (List BundleChunkRef)}
    (smooth : s.Smooth plan storages content listing)
    (served : (DownloadEvent.listBundle result).Served content listing s)
    (taken : s.listBundle storages result = some s') :
    s'.Smooth plan storages content listing := by
  obtain ⟨bundle, rest, here, -⟩ := listBundle_cases taken
  have phase := smooth.phase
  rw [PhaseSmooth, here] at phase
  obtain ⟨current, started, passed⟩ := phase bundle List.mem_cons_self
  obtain ⟨chunks, rfl, same⟩ := served bundle rest here
  rw [listBundle, here] at taken
  have running := smooth.running (by simp [here])
  obtain rfl := Option.some.inj taken
  rw [started]
  have sorted : (sortChunks chunks).Perm (listing bundle) := (sortChunks_perm chunks).trans same
  constructor
  case clean => exact smooth.clean
  case verdict => exact smooth.verdict
  case answered => exact smooth.answered
  case lengths => exact smooth.lengths
  case writer => exact .inl running
  case delivered => exact smooth.delivered
  case contents => exact smooth.contents
  case listings =>
      exact List.forall_mem_append.mpr ⟨smooth.listings, List.forall_mem_singleton.mpr sorted⟩
  case phase =>
      refine ⟨fun chunk member => passed chunk (sorted.mem_iff.mp member), fun bundle member => ?_⟩
      exact phase bundle (List.mem_cons_of_mem _ member)

theorem smooth_scheduleChunk (smooth : s.Smooth plan storages content listing)
    (taken : s.scheduleChunk plan = some s') : s'.Smooth plan storages content listing := by
  have phase := smooth.phase
  rcases scheduleChunk_cases taken with
    ⟨current, rest, here, rfl⟩ | ⟨current, chunk, chunks, rest, here, -⟩
  · have running := smooth.running (by simp [here])
    rw [PhaseSmooth, here] at phase
    exact ⟨smooth.clean, smooth.verdict, smooth.answered, smooth.lengths, .inl running, smooth.delivered,
      smooth.contents, smooth.listings, phase.2⟩
  · have running := smooth.running (by simp [here])
    rw [PhaseSmooth, here] at phase
    obtain ⟨checked, others⟩ := phase
    obtain ⟨job, passed, length⟩ := checked chunk List.mem_cons_self
    rw [scheduleChunk, here] at taken
    obtain rfl := Option.some.inj taken
    rw [passed]
    constructor
    case clean => exact smooth.clean
    case verdict => exact smooth.verdict
    case answered => exact smooth.answered
    case lengths =>
        exact List.forall_mem_append.mpr ⟨smooth.lengths, List.forall_mem_singleton.mpr length⟩
    case writer => exact .inl running
    case delivered => exact smooth.delivered
    case contents => exact smooth.contents
    case listings => exact smooth.listings
    case phase =>
        exact ⟨fun chunk member => checked chunk (List.mem_cons_of_mem _ member), others⟩

theorem smooth_enqueued {result : Fs0Result Unit} (smooth : s.Smooth plan storages content listing)
    (served : (DownloadEvent.enqueued result).Served content listing s)
    (taken : s.enqueued result = some s') : s'.Smooth plan storages content listing := by
  obtain ⟨current, chunks, rest, here, -⟩ := enqueued_cases taken
  have running := smooth.running (by simp [here])
  have phase := smooth.phase
  rw [PhaseSmooth, here] at phase
  obtain rfl : result = .ok () := served
  rw [enqueued, here] at taken
  obtain rfl := Option.some.inj taken
  exact ⟨smooth.clean, smooth.verdict, smooth.answered, smooth.lengths, .inl running, smooth.delivered,
    smooth.contents, smooth.listings, phase⟩

/-- A callback that receives its chunk sends it to the writer, and counts it. -/
theorem smooth_callback {index : Nat} {result : Fs0Result DownloadChunkResult}
    (smooth : s.Smooth plan storages content listing)
    (served : (DownloadEvent.callback index result).Served content listing s)
    (taken : s.callback index result = some s') : s'.Smooth plan storages content listing := by
  obtain ⟨job, found, rfl⟩ := callback_cases taken
  have running := smooth.running_of_pending found
  have length : (content job.request.chunkId).length = job.rawLen :=
    smooth.lengths job (List.mem_of_getElem? found)
  obtain rfl := served job found
  rw [decide_eq_true running, InternalDownloadState.receive_delivered length]
  obtain ⟨clean, sent⟩ := InternalDownloadState.complete_clean smooth.clean
  constructor
  case clean => exact clean
  case verdict =>
      intro result received
      rcases Option.or_eq_some_iff.mp received with now | ⟨-, before⟩
      · exact sent result now
      · exact smooth.verdict result before
  case answered =>
      intro taken
      cases held : s.shared.doneTx with
      | false =>
          obtain ⟨result, received⟩ := smooth.answered held
          exact ⟨_, (congrArg (Option.or _) received).trans Option.or_some⟩
      | true =>
          obtain ⟨result, now⟩ := InternalDownloadState.complete_sent held taken
          exact ⟨result, by rw [now]; rfl⟩
  case lengths =>
      exact fun job member => smooth.lengths job (List.mem_of_mem_eraseIdx member)
  case writer => exact .inl running
  case delivered =>
      exact List.forall_mem_append.mpr ⟨smooth.delivered, List.forall_mem_singleton.mpr
        ⟨_, rfl, length, rfl⟩⟩
  case contents =>
      exact List.forall_mem_append.mpr ⟨smooth.contents, List.forall_mem_singleton.mpr rfl⟩
  case listings => exact smooth.listings
  case phase => exact smooth.phase

theorem smooth_finishScheduling (smooth : s.Smooth plan storages content listing)
    (taken : s.finishScheduling = some s') : s'.Smooth plan storages content listing := by
  obtain ⟨here, rfl⟩ := finishScheduling_cases taken
  have running := smooth.running (by simp [here])
  obtain ⟨clean, sent⟩ := InternalDownloadState.finishScheduling_clean smooth.clean
  constructor
  case clean => exact clean
  case verdict =>
      intro result received
      rcases Option.or_eq_some_iff.mp received with now | ⟨-, before⟩
      · exact sent result now
      · exact smooth.verdict result before
  case answered =>
      intro taken
      cases held : s.shared.doneTx with
      | false =>
          obtain ⟨result, received⟩ := smooth.answered held
          exact ⟨_, (congrArg (Option.or _) received).trans Option.or_some⟩
      | true =>
          obtain ⟨result, now⟩ := InternalDownloadState.finishScheduling_sent held taken
          exact ⟨result, by rw [now]; rfl⟩
  case lengths => exact smooth.lengths
  case writer => exact .inl running
  case delivered => exact smooth.delivered
  case contents => exact smooth.contents
  case listings => exact smooth.listings
  case phase =>
      unfold PhaseSmooth
      dsimp only
      cases s.shared.finishScheduling.2.2 with
      | true => trivial
      | false => rfl

theorem smooth_receiveDone (smooth : s.Smooth plan storages content listing)
    (taken : s.receiveDone = some s') : s'.Smooth plan storages content listing := by
  obtain ⟨result, here, received, rfl⟩ := receiveDone_cases taken
  have running := smooth.running (by simp [here])
  exact ⟨smooth.clean, smooth.verdict, smooth.answered, smooth.lengths, .inl running, smooth.delivered,
    smooth.contents, smooth.listings, smooth.verdict result received⟩

theorem smooth_writeJob (smooth : s.Smooth plan storages content listing)
    (taken : s.writeJob = some s') : s'.Smooth plan storages content listing := by
  unfold writeJob at taken
  split at taken
  · obtain rfl := Option.some.inj taken
    exact ⟨smooth.clean, smooth.verdict, smooth.answered, smooth.lengths, smooth.writer, smooth.delivered,
      smooth.contents, smooth.listings, smooth.phase⟩
  · cases taken

theorem smooth_writerEnds {flush : Fs0Result Unit}
    (smooth : s.Smooth plan storages content listing)
    (served : (DownloadEvent.writerEnds flush).Served content listing s)
    (taken : s.writerEnds flush = some s') : s'.Smooth plan storages content listing := by
  obtain rfl : flush = .ok () := served
  unfold writerEnds at taken
  split at taken
  · next empty returned =>
      obtain rfl := Option.some.inj taken
      exact ⟨smooth.clean, smooth.verdict, smooth.answered, smooth.lengths, .inr ⟨rfl, empty, _, returned⟩,
        smooth.delivered, smooth.contents, smooth.listings, smooth.phase⟩
  · cases taken

theorem smooth_step {e : DownloadEvent} (smooth : s.Smooth plan storages content listing)
    (served : e.Served content listing s) (taken : s.step plan storages e = some s') :
    s'.Smooth plan storages content listing := by
  cases e with
  | listBundle result => exact smooth_listBundle smooth served taken
  | scheduleChunk => exact smooth_scheduleChunk smooth taken
  | enqueued result => exact smooth_enqueued smooth served taken
  | callback index result => exact smooth_callback smooth served taken
  | finishScheduling => exact smooth_finishScheduling smooth taken
  | receiveDone => exact smooth_receiveDone smooth taken
  | writeJob => exact smooth_writeJob smooth taken
  | writeFails torn err => cases served
  | writerEnds flush => exact smooth_writerEnds smooth served taken

theorem smooth_run {ts : List (Transition Download DownloadEvent)}
    (run : (downloadSystem plan storages).Run ts s)
    (checks : ∀ bundle ∈ plan.bundles, BundleChecked plan storages content listing bundle)
    (served : ∀ t ∈ ts, t.event.Served content listing t.pre) :
    s.Smooth plan storages content listing := by
  refine run.invariant_of_guard (Smooth plan storages content listing)
    (fun s e => e.Served content listing s) ?_ ?_ served s List.mem_cons_self
  · rintro s rfl
    exact smooth_initial checks
  · exact fun s e s' smooth served taken => smooth_step smooth served taken

/-- What such a download returns. -/
theorem Smooth.result (smooth : s.Smooth plan storages content listing)
    {result : Fs0Result TransferStats} (returned : s.result? plan = some result) :
    result = .ok ⟨(plan.size + volumeRawChunkSize - 1) / volumeRawChunkSize, plan.size⟩ := by
  unfold result? at returned
  split at returned
  · next looped written here ended =>
      have phase := smooth.phase
      rw [PhaseSmooth, here] at phase
      obtain rfl : looped = .ok () := phase
      rcases smooth.writer with running | ⟨flushed, -⟩
      · rw [ended] at running
        cases running
      · obtain rfl := WriterTask.ended.inj (ended.symm.trans flushed)
        exact (Option.some.inj returned).symm
  · cases returned

/-! ## Every schedule ends -/

section Work

variable (listing)

/-- The events that a bundle leads to: it is listed, each chunk is checked, enqueued, received
and written, and the loop over them is left. -/
def bundleWork (bundle : FileBundleRef) : Nat := 2 + 4 * (listing bundle).length

/-- The bundles that are still to be started. -/
def bundlesWork (rest : List FileBundleRef) : Nat := (rest.map (bundleWork listing)).sum

/-- The events of the loop that are still to come, at most. -/
def phaseWork : DownloadPhase → Nat
  | .bundles rest => bundlesWork listing rest + 2
  | .chunks _ chunks rest => 4 * chunks.length + bundlesWork listing rest + 3
  | .enqueuing _ chunks rest => 4 * chunks.length + bundlesWork listing rest + 4
  | .waiting => 1
  | .returned _ => 0

def writerWork : WriterTask → Nat
  | .running => 1
  | .ended _ => 0

/-- The events that are still to come, at most. -/
def work (s : Download) : Nat :=
  phaseWork listing s.phase + 2 * s.pending.length + s.writeRx.length + writerWork s.writer

end Work

theorem work_writer {e : DownloadEvent}
    (writer : e = .writeJob ∨ ∃ flush, e = .writerEnds flush)
    (taken : s.step plan storages e = some s') : s'.work listing < s.work listing := by
  rcases writer with rfl | ⟨flush, rfl⟩
  · simp only [step, writeJob] at taken
    split at taken
    · next job jobs here queue =>
        obtain rfl := Option.some.inj taken
        simp only [work, here, queue, List.length_cons]
        omega
    · cases taken
  · simp only [step, writerEnds] at taken
    split at taken
    · next here queue pending returned =>
        obtain rfl := Option.some.inj taken
        simp only [work, here, writerWork]
        omega
    · cases taken

/-- Every event leaves less to do. -/
theorem work_step {e : DownloadEvent} (smooth : s.Smooth plan storages content listing)
    (served : e.Served content listing s) (taken : s.step plan storages e = some s') :
    s'.work listing < s.work listing := by
  cases e with
  | listBundle result =>
      obtain ⟨bundle, rest, here, -⟩ := listBundle_cases taken
      have phase := smooth.phase
      rw [PhaseSmooth, here] at phase
      obtain ⟨current, started, -⟩ := phase bundle List.mem_cons_self
      obtain ⟨chunks, rfl, same⟩ := served bundle rest here
      have count : (sortChunks chunks).length = (listing bundle).length :=
        ((sortChunks_perm chunks).trans same).length_eq
      rw [step, listBundle, here] at taken
      obtain rfl := Option.some.inj taken
      rw [started]
      simp only [work, here, bundleListed, phaseWork, bundlesWork, bundleWork, List.map_cons,
        List.sum_cons, count]
      omega
  | scheduleChunk =>
      rcases scheduleChunk_cases taken with
        ⟨current, rest, here, rfl⟩ | ⟨current, chunk, chunks, rest, here, -⟩
      · simp only [work, here, phaseWork, List.length_nil]
        omega
      · have phase := smooth.phase
        rw [PhaseSmooth, here] at phase
        obtain ⟨job, passed, -⟩ := phase.1 chunk List.mem_cons_self
        rw [step, scheduleChunk, here] at taken
        obtain rfl := Option.some.inj taken
        rw [passed]
        simp only [work, here, chunkScheduled, phaseWork, List.length_cons, List.length_append,
          List.length_nil]
        omega
  | enqueued result =>
      obtain ⟨current, chunks, rest, here, -⟩ := enqueued_cases taken
      obtain rfl : result = .ok () := served
      rw [step, enqueued, here] at taken
      obtain rfl := Option.some.inj taken
      simp only [work, here, phaseWork]
      omega
  | callback index result =>
      obtain ⟨job, found, rfl⟩ := callback_cases taken
      have below := (List.getElem?_eq_some_iff.mp found).1
      have fewer : (s.pending.eraseIdx index).length + 1 = s.pending.length := by
        rw [List.length_eraseIdx_of_lt below]
        omega
      have sent : ∀ sent : Option DownloadWriteJob, sent.toList.length ≤ 1 := by
        intro sent
        cases sent <;> simp
      have atMost := sent (s.shared.receive job (s.writer = .running) result).2
      simp only [work, List.length_append]
      omega
  | finishScheduling =>
      obtain ⟨here, rfl⟩ := finishScheduling_cases taken
      have less : phaseWork listing (if s.shared.finishScheduling.2.2 then .waiting
          else .returned (.ok ())) ≤ 1 := by
        cases s.shared.finishScheduling.2.2 <;> simp [phaseWork]
      simp only [work, here, phaseWork] at less ⊢
      omega
  | receiveDone =>
      obtain ⟨result, here, -, rfl⟩ := receiveDone_cases taken
      simp only [work, here, phaseWork]
      omega
  | writeJob => exact work_writer (.inl rfl) taken
  | writeFails torn err => cases served
  | writerEnds flush => exact work_writer (.inr ⟨flush, rfl⟩) taken

theorem work_run {ts : List (Transition Download DownloadEvent)}
    (run : (downloadSystem plan storages).Run ts s)
    (checks : ∀ bundle ∈ plan.bundles, BundleChecked plan storages content listing bundle)
    (served : ∀ t ∈ ts, t.event.Served content listing t.pre) :
    ts.length + s.work listing ≤ bundlesWork listing plan.bundles + 3 := by
  induction run with
  | init start =>
      obtain rfl := start
      simp [work, Download.initial, phaseWork, writerWork]
  | @step ts s s' e run taken inductionHypothesis =>
      have earlier := fun t member => served t (List.mem_cons_of_mem _ member)
      have smooth := smooth_run run checks earlier
      have less := work_step smooth (served ⟨s, e, s'⟩ List.mem_cons_self) taken
      have sofar := inductionHypothesis earlier
      rw [List.length_cons]
      omega

/-! ## No schedule gets stuck -/

/-- A chunk in flight arrives, or else something happens without them. -/
def arrival (content : HashId → Bytes) (s : Download) (otherwise : DownloadEvent) :
    DownloadEvent :=
  match s.pending with
  | [] => otherwise
  | job :: _ => .callback 0 (.ok ⟨job.request.chunkId, content job.request.chunkId⟩)

end Download

end Fs0
