import Fs0.Client.DownloadCompletion
import Mathlib.Data.List.Perm.Basic

/-!
Contract: what a download has scheduled and written at each point of a run.

Owns:
- the jobs a listed bundle leads to, and the invariant that the callbacks pending and
  completed are exactly the jobs of what was listed so far;
- the invariant that the local file is the result of the write jobs sent so far, less
  those still queued.

Does not own: where the jobs lie in the file.
-/

set_option autoImplicit false

namespace Fs0

open Fs0.Lib

/-! ## The jobs of a listing -/

/-- The chunks of a listed bundle all passed their checks and became these jobs. -/
structure BundleJobs (plan : FileReadPlan) (storages : List StoragePeerInfo)
    (entry : FileBundleRef × List BundleChunkRef) (jobs : List ChunkDownload) : Prop where
  sorted : entry.2.Pairwise fun left right => left.chunkIndex ≤ right.chunkIndex
  checked : ∃ current, startBundle storages entry.1 = .ok current ∧
    List.Forall₂ (fun chunk job => chunkDownload plan current chunk = .ok job) entry.2 jobs

theorem startBundle_bundle {storages : List StoragePeerInfo} {bundle : FileBundleRef}
    {current : BundleDownload} (started : startBundle storages bundle = .ok current) :
    current.bundle = bundle ∧
      current.bundleOffset = bundle.bundleIndex * volumeBundleRawSize ∧
      findReplica storages bundle.replicas = some (current.replica, current.storage) := by
  unfold startBundle at started
  obtain ⟨bundleOffset, offset, started⟩ := Fs0Result.bind_eq_ok.mp started
  obtain ⟨⟨replica, storage⟩, found, started⟩ := Fs0Result.bind_eq_ok.mp started
  obtain rfl := Except.ok.inj started
  exact ⟨rfl, (checkedMul_eq_some.mp (okOr_eq_ok.mp offset)).2, okOr_eq_ok.mp found⟩

theorem sortChunks_perm (chunks : List BundleChunkRef) : (sortChunks chunks).Perm chunks :=
  List.perm_insertionSort _ chunks

theorem sortChunks_sorted (chunks : List BundleChunkRef) :
    (sortChunks chunks).Pairwise fun left right => left.chunkIndex ≤ right.chunkIndex := by
  have total : Std.Total fun left right : BundleChunkRef => left.chunkIndex ≤ right.chunkIndex :=
    ⟨fun left right => Nat.le_total left.chunkIndex right.chunkIndex⟩
  have trans : IsTrans BundleChunkRef fun left right => left.chunkIndex ≤ right.chunkIndex :=
    ⟨fun _ _ _ first second => Nat.le_trans first second⟩
  exact List.pairwise_insertionSort _ chunks

namespace Download

/-- The jobs whose callbacks have run or may still run. -/
def jobs (s : Download) : List ChunkDownload := s.pending ++ s.completed.map CompletedChunk.chunk

/-! ## What has been scheduled -/

/-- The loop is about to start the bundles `rest`; the jobs of all the others are scheduled. -/
def AtBundles (plan : FileReadPlan) (storages : List StoragePeerInfo) (s : Download)
    (rest : List FileBundleRef) : Prop :=
  ∃ jobs, plan.bundles = s.listed.map Prod.fst ++ rest ∧
    List.Forall₂ (BundleJobs plan storages) s.listed jobs ∧ s.jobs.Perm jobs.flatten

/-- The loop is inside bundle `current`, with `chunks` still to schedule. -/
def AtChunks (plan : FileReadPlan) (storages : List StoragePeerInfo) (s : Download)
    (current : BundleDownload) (chunks : List BundleChunkRef) (rest : List FileBundleRef) : Prop :=
  ∃ listed scheduled jobs last,
    s.listed = listed ++ [(current.bundle, scheduled ++ chunks)] ∧
    plan.bundles = s.listed.map Prod.fst ++ rest ∧
    startBundle storages current.bundle = .ok current ∧
    (scheduled ++ chunks).Pairwise (fun left right => left.chunkIndex ≤ right.chunkIndex) ∧
    List.Forall₂ (BundleJobs plan storages) listed jobs ∧
    List.Forall₂ (fun chunk job => chunkDownload plan current chunk = .ok job) scheduled last ∧
    s.jobs.Perm (jobs.flatten ++ last)

/-- What is scheduled, by where the loop stands. -/
def Scheduled (plan : FileReadPlan) (storages : List StoragePeerInfo) (s : Download) : Prop :=
  match s.phase with
  | .bundles rest => s.AtBundles plan storages rest
  | .chunks current chunks rest => s.AtChunks plan storages current chunks rest
  | .enqueuing current chunks rest => s.AtChunks plan storages current chunks rest
  | .waiting => s.AtBundles plan storages []
  | .returned (.ok ()) => s.AtBundles plan storages []
  | .returned (.error _) => True

variable {plan : FileReadPlan} {storages : List StoragePeerInfo} {s s' : Download}

theorem Scheduled.of_same (inv : s.Scheduled plan storages) (phase : s'.phase = s.phase)
    (listed : s'.listed = s.listed) (jobs : s'.jobs.Perm s.jobs) :
    s'.Scheduled plan storages := by
  have bundles : ∀ rest, s.AtBundles plan storages rest → s'.AtBundles plan storages rest := by
    rintro rest ⟨all, covers, checked, same⟩
    refine ⟨all, ?_, ?_, jobs.trans same⟩
    · rw [listed]
      exact covers
    · rw [listed]
      exact checked
  have chunks : ∀ current chunks rest, s.AtChunks plan storages current chunks rest →
      s'.AtChunks plan storages current chunks rest := by
    rintro current chunks rest ⟨before, scheduled, all, last, split, covers, started, sorted, checked,
      partly, same⟩
    refine ⟨before, scheduled, all, last, ?_, ?_, started, sorted, checked, partly, jobs.trans same⟩
    · rw [listed]
      exact split
    · rw [listed]
      exact covers
  rw [Scheduled] at inv ⊢
  rw [phase]
  cases here : s.phase with
  | bundles rest =>
      rw [here] at inv
      exact bundles rest inv
  | chunks current chunks' rest =>
      rw [here] at inv
      exact chunks current chunks' rest inv
  | enqueuing current chunks' rest =>
      rw [here] at inv
      exact chunks current chunks' rest inv
  | waiting =>
      rw [here] at inv
      exact bundles [] inv
  | returned result =>
      rw [here] at inv
      cases result with
      | error err => trivial
      | ok => exact bundles [] inv

theorem scheduled_listBundle {listing : Fs0Result (List BundleChunkRef)}
    (inv : s.Scheduled plan storages) (taken : s.listBundle storages listing = some s') :
    s'.Scheduled plan storages := by
  obtain ⟨bundle, rest, here, outcome⟩ := listBundle_cases taken
  rw [Scheduled, here] at inv
  rcases outcome with ⟨err, rfl⟩ | ⟨current, chunks, started, -, rfl⟩
  · trivial
  · obtain ⟨all, covers, checked, same⟩ := inv
    obtain ⟨sameBundle, -⟩ := startBundle_bundle started
    refine ⟨s.listed, [], all, [], ?_, ?_, ?_, ?_, checked, .nil, ?_⟩
    · rw [sameBundle]
      rfl
    · simpa using covers
    · rw [sameBundle]
      exact started
    · exact sortChunks_sorted chunks
    · simpa [Download.jobs] using same

theorem scheduled_scheduleChunk (inv : s.Scheduled plan storages)
    (taken : s.scheduleChunk plan = some s') : s'.Scheduled plan storages := by
  rcases scheduleChunk_cases taken with
    ⟨current, rest, here, rfl⟩ | ⟨current, chunk, chunks, rest, here, outcome⟩
  · rw [Scheduled, here] at inv
    obtain ⟨before, scheduled, all, last, split, covers, started, sorted, checked, partly, same⟩ := inv
    rw [List.append_nil] at split sorted
    refine ⟨all ++ [last], covers, ?_, ?_⟩
    · rw [show s.listed = _ from split]
      exact List.rel_append checked (.cons ⟨sorted, current, started, partly⟩ .nil)
    · simpa [Download.jobs] using same
  · rw [Scheduled, here] at inv
    rcases outcome with ⟨err, rfl⟩ | ⟨job, passed, rfl⟩
    · trivial
    · obtain ⟨before, scheduled, all, last, split, covers, started, sorted, checked, partly, same⟩ := inv
      refine ⟨before, scheduled ++ [chunk], all, last ++ [job], ?_, covers, started, ?_, checked,
        List.rel_append partly (.cons passed .nil), ?_⟩
      · simpa using split
      · simpa using sorted
      · have grown : (s.pending ++ [job] ++ s.completed.map CompletedChunk.chunk).Perm
            (s.jobs ++ [job]) := by
          rw [Download.jobs, List.append_assoc, List.append_assoc]
          exact (List.perm_append_comm).append_left _
        rw [← List.append_assoc]
        exact grown.trans (same.append_right [job])

theorem scheduled_enqueued {result : Fs0Result Unit} (inv : s.Scheduled plan storages)
    (taken : s.enqueued result = some s') : s'.Scheduled plan storages := by
  obtain ⟨current, chunks, rest, here, outcome⟩ := enqueued_cases taken
  rw [Scheduled, here] at inv
  rcases outcome with ⟨err, rfl⟩ | rfl
  · trivial
  · exact inv

theorem scheduled_callback {index : Nat} {result : Fs0Result DownloadChunkResult}
    (inv : s.Scheduled plan storages) (taken : s.callback index result = some s') :
    s'.Scheduled plan storages := by
  obtain ⟨chunk, found, rfl⟩ := callback_cases taken
  refine inv.of_same rfl rfl ?_
  obtain ⟨below, rfl⟩ := List.getElem?_eq_some_iff.mp found
  simp only [Download.jobs, List.map_append, List.map_cons, List.map_nil, ← List.append_assoc]
  have moved : (s.pending.eraseIdx index ++ s.completed.map CompletedChunk.chunk ++
      [s.pending[index]]).Perm
        (s.pending[index] :: s.pending.eraseIdx index ++ s.completed.map CompletedChunk.chunk) := by
    rw [List.cons_append]
    exact List.perm_append_singleton _ _
  exact moved.trans ((List.getElem_cons_eraseIdx_perm below).append_right _)

theorem scheduled_step {e : DownloadEvent} (inv : s.Scheduled plan storages)
    (taken : s.step plan storages e = some s') : s'.Scheduled plan storages := by
  cases e with
  | listBundle listing => exact scheduled_listBundle inv taken
  | scheduleChunk => exact scheduled_scheduleChunk inv taken
  | enqueued result => exact scheduled_enqueued inv taken
  | callback index result => exact scheduled_callback inv taken
  | finishScheduling =>
      obtain ⟨here, rfl⟩ := finishScheduling_cases taken
      rw [Scheduled, here] at inv
      rw [Scheduled]
      dsimp only
      split_ifs
      · exact inv
      · exact inv
  | receiveDone =>
      obtain ⟨result, here, -, rfl⟩ := receiveDone_cases taken
      rw [Scheduled, here] at inv
      cases result with
      | error err => trivial
      | ok => exact inv
  | writeJob =>
      obtain ⟨_, _, _, rfl⟩ := writer_cases (.inl rfl) taken
      exact inv.of_same rfl rfl (.refl _)
  | writeFails torn err =>
      obtain ⟨_, _, _, rfl⟩ := writer_cases (.inr (.inl ⟨torn, err, rfl⟩)) taken
      exact inv.of_same rfl rfl (.refl _)
  | writerEnds flush =>
      obtain ⟨_, _, _, rfl⟩ := writer_cases (.inr (.inr ⟨flush, rfl⟩)) taken
      exact inv.of_same rfl rfl (.refl _)

theorem scheduled_run {ts : List (Transition Download DownloadEvent)}
    (run : (downloadSystem plan storages).Run ts s) : s.Scheduled plan storages := by
  refine run.invariant (Scheduled plan storages) ?_ fun _ _ _ inv taken => scheduled_step inv taken
  rintro s rfl
  exact ⟨[], rfl, .nil, .refl _⟩

/-! ## What has been written -/

/-- The write jobs sent so far, oldest first. -/
def sentJobs (s : Download) : List DownloadWriteJob := s.completed.filterMap CompletedChunk.sent

/-- The local file after some write jobs. -/
def writeAll (plan : FileReadPlan) (jobs : List DownloadWriteJob) : LocalFile :=
  jobs.foldl (fun file job => file.write job.rawOffset job.rawBytes) (.create plan.size)

/-- A running writer has written all it was sent but the queue. One that ended well has
written everything, and nothing more will be sent. -/
def Written (plan : FileReadPlan) (s : Download) : Prop :=
  match s.writer with
  | .running => ∃ written, s.sentJobs = written ++ s.writeRx ∧ s.output = writeAll plan written
  | .ended (.ok ()) =>
      (∃ result, s.phase = .returned result) ∧ s.pending = [] ∧ s.output = writeAll plan s.sentJobs
  | .ended (.error _) => True

/-- The steps of the loop, which only run while it has not returned. -/
theorem Written.of_loop (inv : s.Written plan) (running : ∀ result, s.phase ≠ .returned result)
    (completed : s'.completed = s.completed) (writeRx : s'.writeRx = s.writeRx)
    (writer : s'.writer = s.writer) (output : s'.output = s.output) : s'.Written plan := by
  rw [Written] at inv ⊢
  rw [writer, writeRx, output, sentJobs, completed]
  cases here : s.writer with
  | running =>
      rw [here] at inv
      exact inv
  | ended result =>
      rw [here] at inv
      cases result with
      | error err => trivial
      | ok =>
          obtain ⟨⟨result, returned⟩, -⟩ := inv
          exact absurd returned (running result)

theorem written_callback {index : Nat} {result : Fs0Result DownloadChunkResult}
    (inv : s.Written plan) (taken : s.callback index result = some s') : s'.Written plan := by
  obtain ⟨chunk, found, rfl⟩ := callback_cases taken
  rw [Written] at inv ⊢
  dsimp only
  cases here : s.writer with
  | running =>
      rw [here] at inv
      obtain ⟨written, sent, output⟩ := inv
      refine ⟨written, ?_, output⟩
      rw [sentJobs] at sent ⊢
      have last : ∀ job, [(⟨chunk, result, job⟩ : CompletedChunk)].filterMap CompletedChunk.sent =
          job.toList := by
        intro job
        cases job with
        | none => rfl
        | some job => rfl
      rw [List.filterMap_append, sent, last, List.append_assoc]
  | ended outcome =>
      rw [here] at inv
      cases outcome with
      | error err => trivial
      | ok =>
          obtain ⟨-, empty, -⟩ := inv
          rw [empty] at found
          cases found

theorem written_step {e : DownloadEvent} (inv : s.Written plan)
    (taken : s.step plan storages e = some s') : s'.Written plan := by
  cases e with
  | listBundle listing =>
      obtain ⟨bundle, rest, here, outcome⟩ := listBundle_cases taken
      have running : ∀ result, s.phase ≠ .returned result := by simp [here]
      rcases outcome with ⟨err, rfl⟩ | ⟨current, chunks, -, -, rfl⟩
      · exact inv.of_loop running rfl rfl rfl rfl
      · exact inv.of_loop running rfl rfl rfl rfl
  | scheduleChunk =>
      rcases scheduleChunk_cases taken with
        ⟨current, rest, here, rfl⟩ | ⟨current, chunk, chunks, rest, here, outcome⟩
      · exact inv.of_loop (by simp [here]) rfl rfl rfl rfl
      · have running : ∀ result, s.phase ≠ .returned result := by simp [here]
        rcases outcome with ⟨err, rfl⟩ | ⟨job, -, rfl⟩
        · exact inv.of_loop running rfl rfl rfl rfl
        · exact inv.of_loop running rfl rfl rfl rfl
  | enqueued result =>
      obtain ⟨current, chunks, rest, here, outcome⟩ := enqueued_cases taken
      have running : ∀ result, s.phase ≠ .returned result := by simp [here]
      rcases outcome with ⟨err, rfl⟩ | rfl
      · exact inv.of_loop running rfl rfl rfl rfl
      · exact inv.of_loop running rfl rfl rfl rfl
  | callback index result => exact written_callback inv taken
  | finishScheduling =>
      obtain ⟨here, rfl⟩ := finishScheduling_cases taken
      exact inv.of_loop (by simp [here]) rfl rfl rfl rfl
  | receiveDone =>
      obtain ⟨result, here, -, rfl⟩ := receiveDone_cases taken
      exact inv.of_loop (by simp [here]) rfl rfl rfl rfl
  | writeJob =>
      simp only [step, writeJob] at taken
      split at taken
      · next job queued here queue =>
          obtain rfl := Option.some.inj taken
          rw [Written, here] at inv
          obtain ⟨written, sent, output⟩ := inv
          rw [Written]
          dsimp only
          rw [here]
          refine ⟨written ++ [job], ?_, ?_⟩
          · change s.sentJobs = _
            rw [sent, queue, List.append_assoc]
            rfl
          · rw [output, writeAll, writeAll, List.foldl_append]
            rfl
      · cases taken
  | writeFails torn err =>
      simp only [step, writeFails] at taken
      split at taken
      · obtain rfl := Option.some.inj taken
        trivial
      · cases taken
  | writerEnds flush =>
      simp only [step, writerEnds] at taken
      split at taken
      · next result here queue empty returned =>
          obtain rfl := Option.some.inj taken
          rw [Written, here] at inv
          obtain ⟨written, sent, output⟩ := inv
          cases flush with
          | error err => trivial
          | ok =>
              refine ⟨⟨result, returned⟩, empty, ?_⟩
              rw [queue, List.append_nil] at sent
              change s.output = writeAll plan s.sentJobs
              rw [sent]
              exact output
      · cases taken

theorem written_run {ts : List (Transition Download DownloadEvent)}
    (run : (downloadSystem plan storages).Run ts s) : s.Written plan := by
  refine run.invariant (Written plan) ?_ fun _ _ _ inv taken => written_step inv taken
  rintro s rfl
  exact ⟨[], rfl, rfl⟩

/-! ## Downloads without a failed callback -/

theorem completed_grows {e : DownloadEvent} (taken : s.step plan storages e = some s') :
    s.completed <+: s'.completed := by
  cases e with
  | listBundle listing =>
      obtain ⟨bundle, rest, -, ⟨err, rfl⟩ | ⟨current, chunks, -, -, rfl⟩⟩ := listBundle_cases taken
      · exact List.prefix_refl _
      · exact List.prefix_refl _
  | scheduleChunk =>
      rcases scheduleChunk_cases taken with
        ⟨current, rest, -, rfl⟩ | ⟨current, chunk, chunks, rest, -, ⟨err, rfl⟩ | ⟨job, -, rfl⟩⟩
      · exact List.prefix_refl _
      · exact List.prefix_refl _
      · exact List.prefix_refl _
  | enqueued result =>
      obtain ⟨current, chunks, rest, -, ⟨err, rfl⟩ | rfl⟩ := enqueued_cases taken
      · exact List.prefix_refl _
      · exact List.prefix_refl _
  | callback index result =>
      obtain ⟨chunk, -, rfl⟩ := callback_cases taken
      exact List.prefix_append _ _
  | finishScheduling =>
      obtain ⟨-, rfl⟩ := finishScheduling_cases taken
      exact List.prefix_refl _
  | receiveDone =>
      obtain ⟨result, -, -, rfl⟩ := receiveDone_cases taken
      exact List.prefix_refl _
  | writeJob =>
      obtain ⟨_, _, _, rfl⟩ := writer_cases (.inl rfl) taken
      exact List.prefix_refl _
  | writeFails torn err =>
      obtain ⟨_, _, _, rfl⟩ := writer_cases (.inr (.inl ⟨torn, err, rfl⟩)) taken
      exact List.prefix_refl _
  | writerEnds flush =>
      obtain ⟨_, _, _, rfl⟩ := writer_cases (.inr (.inr ⟨flush, rfl⟩)) taken
      exact List.prefix_refl _

/-- No error is recorded as long as every callback delivers its chunk. -/
theorem inv_of_allDelivered {ts : List (Transition Download DownloadEvent)}
    (run : (downloadSystem plan storages).Run ts s) (delivered : s.AllDelivered) : s.Inv := by
  refine run.invariant (fun s => s.AllDelivered → s.Inv) ?_ ?_ delivered
  · rintro s rfl -
    exact inv_initial plan
  · intro s e s' earlier taken delivered
    have before : s.AllDelivered := fun c member =>
      delivered c ((completed_grows taken).subset member)
    have inv := earlier before
    refine inv_step inv ?_ taken
    rintro ⟨rfl, -, recorded⟩
    obtain ⟨here, -⟩ := finishScheduling_cases taken
    exact recorded ((inv.held (inv.held_of_bundles here)).1.mpr before)

end Download

end Fs0
