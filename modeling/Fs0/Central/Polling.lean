import Fs0.Lib.Listing
import Fs0.Central.ChangeLog

/-!
Contract: a consumer that polls the change log of central.

Owns:
- the pages of the log as parts of the list of its events;
- the system of central and a consumer that always goes on after the last event it got;
- that the pages put together are at every moment the beginning of the log, and all of it
  once a page names no next event.

Does not own: what the events say of the files.
-/

set_option autoImplicit false

namespace Fs0

open Lib Fallible Listing

/-! ## Pages -/

/-- The entry of the log for an event. -/
def FileEventRow.log (row : FileEventRow) : FileChangeLog :=
  ⟨row.eventId, row.eventType, row.fileId,
    match row.newDir, row.newName with
    | some dir, some name => (joinFs0Path dir name).toOption
    | _, _ => none,
    row.createdAtMs⟩

theorem toFileChangeLog_eq (row : FileEventRow) : row.toFileChangeLog = .ok row.log := by
  obtain ⟨eventId, eventType, newDir, newName, fileId, createdAtMs⟩ := row
  unfold FileEventRow.toFileChangeLog FileEventRow.log
  cases newDir with
  | none => rfl
  | some dir =>
      cases newName with
      | none => rfl
      | some name =>
          dsimp only
          unfold joinFs0Path
          split <;> rfl

theorem mapM_toFileChangeLog (rows : List FileEventRow) :
    rows.mapM FileEventRow.toFileChangeLog = .ok (rows.map FileEventRow.log) := by
  rw [mapM_eq_ok, List.forall₂_map_right_iff]
  exact List.forall₂_same.mpr fun row _ => toFileChangeLog_eq row

/-- A page holds the next events up to the limit, and names the last one if there are more. -/
def pageOf (limit : Nat) (pending : List FileChangeLog) : FileChangeLogs :=
  if limit < pending.length then
    ⟨pending.take limit, (pending.take limit).getLast?.map FileChangeLog.eventId⟩
  else ⟨pending, none⟩

theorem getFileChangeLogs_eq_ok {afterEventId limit : Nat} {db db' : CentralDb}
    {page : FileChangeLogs} (ordered : EventsOrdered db.1.fileEvents)
    (read : CentralTx.getFileChangeLogs afterEventId limit db = .ok page db') :
    page = pageOf (min (max limit 1) 1024)
      ((db.1.fileEvents.rows.filter fun event => afterEventId < event.eventId).map
        FileEventRow.log) := by
  unfold CentralTx.getFileChangeLogs at read
  generalize min (max limit 1) 1024 = bound at read ⊢
  obtain ⟨-, read⟩ := CentralTx.bindU64_bind_eq_ok.mp read
  obtain ⟨-, read⟩ := CentralTx.bindU64_bind_eq_ok.mp read
  rw [CentralTx.query_bind_eq_ok] at read
  obtain ⟨events, mapped, read⟩ := lift_bind_eq_ok.mp read
  have sorted : (db.1.fileEvents.rows.filter fun event =>
      afterEventId < event.eventId).insertionSort (fun left right => left.eventId ≤ right.eventId) =
      db.1.fileEvents.rows.filter fun event => afterEventId < event.eventId :=
    (ordered.filter _).insertionSort_eq
  rw [sorted, mapM_toFileChangeLog] at mapped
  obtain rfl := Except.ok.inj mapped
  rw [List.map_take] at read
  generalize (db.1.fileEvents.rows.filter fun event => afterEventId < event.eventId).map
    FileEventRow.log = pending at read ⊢
  obtain ⟨more_iff, same, all⟩ := take_lookahead bound pending
  unfold pageOf
  rw [same] at read
  split at read
  · next more =>
    rw [if_pos (more_iff.mp more)]
    exact (EStateM.Result.ok.inj read).1.symm
  · next noMore =>
    rw [more_iff] at noMore
    rw [if_neg noMore]
    rw [all noMore] at read
    exact (EStateM.Result.ok.inj read).1.symm

/-- A page is the beginning of what is pending, and all of it if it names no next event. -/
theorem pageOf_leading (limit : Nat) (pending : List FileChangeLog) :
    (pageOf limit pending).operations <+: pending := by
  unfold pageOf
  split
  · exact List.take_prefix limit pending
  · exact List.prefix_rfl

theorem pageOf_all {limit : Nat} {pending : List FileChangeLog} (positive : 0 < limit)
    (isLast : (pageOf limit pending).nextEventId = none) :
    (pageOf limit pending).operations = pending := by
  unfold pageOf at isLast ⊢
  split
  · next more =>
    rw [if_pos more] at isLast
    have empty := List.getLast?_eq_none_iff.mp (Option.map_eq_none_iff.mp isLast)
    have len := congrArg List.length empty
    rw [List.length_take, List.length_nil] at len
    omega
  · rfl

/-! ## Events -/

namespace CentralTables

variable {before after : CentralTables}

/-- A transaction appends at most one event, and changes none. -/
theorem events_of_step (step : FileStep before after) :
    after.fileEvents = before.fileEvents ∨ ∃ kind newTarget fileId now,
      after.fileEvents = CentralTx.eventsWith before.fileEvents kind newTarget fileId now := by
  cases step with
  | kept files bundles events => exact .inl events
  | begun dirId name now files bundles events => exact .inl events
  | committed request now lease file compressedSize dir effect =>
      have events := congrArg CentralTables.fileEvents effect.others
      exact .inr ⟨_, _, _, _, events⟩
  | deleted fileId now effect =>
      have events := congrArg CentralTables.fileEvents effect.2
      exact .inr ⟨_, _, _, _, events⟩
  | copied sourceFileId targetPath now source target dirId name effect =>
      have events := congrArg CentralTables.fileEvents effect.others
      exact .inr ⟨_, _, _, _, events⟩
  | renamed fileId targetPath now file target dirId name effect =>
      have events := congrArg CentralTables.fileEvents effect.others
      exact .inr ⟨_, _, _, _, events⟩

theorem events_prefix (step : FileStep before after) :
    before.fileEvents.rows <+: after.fileEvents.rows := by
  rcases events_of_step step with same | ⟨kind, newTarget, fileId, now, grown⟩
  · exact same ▸ List.prefix_rfl
  · rw [grown]
    exact List.prefix_append _ _

theorem events_positive (step : FileStep before after)
    (positive : ∀ event ∈ before.fileEvents.rows, 0 < event.eventId) :
    ∀ event ∈ after.fileEvents.rows, 0 < event.eventId := by
  rcases events_of_step step with same | ⟨kind, newTarget, fileId, now, grown⟩
  · rwa [same]
  · rw [grown]
    intro event member
    rcases List.mem_append.mp member with old | new
    · exact positive event old
    · rw [List.mem_singleton.mp new]
      exact Nat.succ_pos _

end CentralTables

section Log

variable {config : CentralConfig} {s : Central}

theorem reachable_events_positive (reachable : (central config).Reachable s) :
    ∀ event ∈ s.tables.fileEvents.rows, 0 < event.eventId :=
  Central.tables_invariant (fun tables => ∀ event ∈ tables.fileEvents.rows, 0 < event.eventId)
    nofun (fun _ _ _ positive effect =>
      CentralTables.events_positive (CentralTables.fileStep_of_effect effect) positive) reachable

/-- The rows of the log are in the order of their numbers, which are different. -/
theorem reachable_events_ordered (reachable : (central config).Reachable s) :
    s.tables.fileEvents.rows.Pairwise fun left right => left.eventId < right.eventId := by
  have ordered := (reachable_logged reachable).referring.ordered
  have distinct := List.pairwise_map.mp s.tables.fileEvents.nodup
  exact (ordered.and distinct).imp fun both => Nat.lt_of_le_of_ne both.1 both.2

theorem events_prefix_of_step {s' : Central} {e : CentralEvent}
    (taken : (central config).step s e = some s') :
    s.tables.fileEvents.rows <+: s'.tables.fileEvents.rows := by
  rcases Central.step_tables taken with same | ⟨tx, -, effect⟩
  · exact same ▸ List.prefix_rfl
  · exact CentralTables.events_prefix (CentralTables.fileStep_of_effect effect)

end Log

/-! ## The consumer -/

/-- Central and the entries a consumer of its log has got so far. -/
structure Polling where
  server : Central
  received : List FileChangeLog

/-- The last event the consumer has got; 0 before the first one. -/
def Polling.lastEventId (s : Polling) : Nat :=
  (s.received.getLast?.map FileChangeLog.eventId).getD 0

inductive PollingEvent where
  | central (e : CentralEvent)
  | poll (limit : Nat)

/-- Central goes on, and at any time answers a poll from its tables, which the poll leaves as
they are. -/
def polling (config : CentralConfig) : System Polling PollingEvent where
  Init s := (central config).Init s.server ∧ s.received = []
  step s
    | .central e => ((central config).step s.server e).map fun server => { s with server := server }
    | .poll limit =>
        match ClientRequest.getFileChangeLogs s.lastEventId limit s.server.server with
        | .ok (.getFileChangeLogs page) _ => some { s with received := s.received ++ page.operations }
        | _ => none

namespace Polling

variable {config : CentralConfig} {s s' : Polling}

/-- The log as it is committed. -/
def log (s : Polling) : List FileChangeLog :=
  s.server.tables.fileEvents.rows.map FileEventRow.log

theorem step_cases {e : PollingEvent} (taken : (polling config).step s e = some s') :
    (∃ e', e = .central e' ∧ (central config).step s.server e' = some s'.server ∧
      s'.received = s.received) ∨
    ∃ limit page server, e = .poll limit ∧
      ClientRequest.getFileChangeLogs s.lastEventId limit s.server.server =
        .ok (.getFileChangeLogs page) server ∧
      s' = { s with received := s.received ++ page.operations } := by
  cases e with
  | central e =>
      obtain ⟨server, moved, rfl⟩ := Option.map_eq_some_iff.mp taken
      exact .inl ⟨e, rfl, moved, rfl⟩
  | poll limit =>
      simp only [polling] at taken
      split at taken
      · next page server answered =>
        exact .inr ⟨limit, page, server, rfl, answered, (Option.some.inj taken).symm⟩
      · cases taken

theorem server_reachable (reachable : (polling config).Reachable s) :
    (central config).Reachable s.server := by
  apply reachable.invariant (fun s => (central config).Reachable s.server)
  · intro s initial
    exact .init initial.1
  · intro s e s' known taken
    rcases step_cases taken with ⟨e', -, moved, -⟩ | ⟨limit, page, server, -, -, rfl⟩
    · exact known.step moved
    · exact known

/-- A page is cut from what the consumer has not got yet. -/
theorem page_eq {limit : Nat} {page : FileChangeLogs} {server : CentralServer}
    (reachable : (central config).Reachable s.server) (got : s.received <+: s.log)
    (answered : ClientRequest.getFileChangeLogs s.lastEventId limit s.server.server =
      .ok (.getFileChangeLogs page) server) :
    ∃ pending, s.received ++ pending = s.log ∧
      page = pageOf (min (max limit 1) 1024) pending := by
  obtain ⟨pending, split⟩ := got
  obtain ⟨first, rest, rows, isFirst, isRest⟩ := List.map_eq_append_iff.mp split.symm
  refine ⟨pending, split, ?_⟩
  obtain ⟨logs, server₁, inspected, ended⟩ := bind_eq_ok.mp answered
  obtain ⟨db, read, -⟩ := CentralM.inspect_eq_ok inspected
  obtain ⟨same, -⟩ := EStateM.Result.ok.inj ended
  obtain rfl := ControlResponse.getFileChangeLogs.inj same
  have ordered := reachable_events_ordered reachable
  have positive := reachable_events_positive reachable
  have isLast : s.lastEventId = (first.getLast?.map FileEventRow.eventId).getD 0 := by
    unfold lastEventId
    rw [← isFirst, List.getLast?_map, Option.map_map]
    rfl
  have unread : s.server.tables.fileEvents.rows.filter
      (fun event => s.lastEventId < event.eventId) = rest := by
    rw [rows] at ordered positive ⊢
    exact filter_after_last ordered positive isLast
  rw [← isRest, ← unread]
  exact getFileChangeLogs_eq_ok (reachable_logged reachable).referring.ordered read

theorem received_prefix (reachable : (polling config).Reachable s) : s.received <+: s.log := by
  have both : (central config).Reachable s.server ∧ s.received <+: s.log := by
    apply reachable.invariant (fun s => (central config).Reachable s.server ∧ s.received <+: s.log)
    · intro s initial
      refine ⟨.init initial.1, ?_⟩
      rw [initial.2]
      exact List.nil_prefix
    · rintro s e s' ⟨known, got⟩ taken
      rcases step_cases taken with ⟨e', -, moved, same⟩ | ⟨limit, page, server, -, answered, rfl⟩
      · refine ⟨known.step moved, ?_⟩
        rw [same]
        exact got.trans ((events_prefix_of_step moved).map FileEventRow.log)
      · obtain ⟨pending, split, rfl⟩ := page_eq known got answered
        refine ⟨known, ?_⟩
        show s.received ++ _ <+: s.log
        rw [← split]
        exact List.prefix_append_right_inj _ |>.mpr (pageOf_leading _ pending)
  exact both.2

end Polling

/-- In every run of central and a consumer that goes on after the last event it got, the
pages put together are the beginning of the committed log in the order of the numbers,
without gap or repetition; and a page that names no next event completes the log. -/
theorem changeLog_polled {config : CentralConfig} {s : Polling}
    (reachable : (polling config).Reachable s) :
    s.server.tables.fileEvents.rows.Pairwise (fun left right => left.eventId < right.eventId) ∧
    ∃ log, s.server.tables.fileEvents.rows.mapM FileEventRow.toFileChangeLog = .ok log ∧
      s.received <+: log ∧
      ∀ limit page server,
        ClientRequest.getFileChangeLogs s.lastEventId limit s.server.server =
          .ok (.getFileChangeLogs page) server →
        s.received ++ page.operations <+: log ∧
        (page.nextEventId = none → s.received ++ page.operations = log) := by
  have known := Polling.server_reachable reachable
  have got := Polling.received_prefix reachable
  refine ⟨reachable_events_ordered known, _, mapM_toFileChangeLog _, got, ?_⟩
  intro limit page server answered
  obtain ⟨pending, split, rfl⟩ := Polling.page_eq known got answered
  refine ⟨?_, fun isLast => ?_⟩
  · rw [show s.server.tables.fileEvents.rows.map FileEventRow.log = s.log from rfl, ← split]
    exact (List.prefix_append_right_inj _).mpr (pageOf_leading _ pending)
  · rw [pageOf_all (by omega) isLast]
    exact split

/-- A file is created, polled, renamed and polled again. -/
def Scenario.polledTwice : List PollingEvent :=
  (registered ++ updated 3 "/f" ++
      List.replicate 2 (CentralEvent.run 1 (inputs 3))).map .central ++
    [.poll 5] ++ (request 1 5 2 4 (.renameFile "/f" "/g")).map .central ++ [.poll 5]

theorem changeLog_polled_twice : ∃ s : Polling, (polling Scenario.config).Reachable s ∧
    s.received.map FileChangeLog.eventId = [1, 2] ∧
    s.server.tables.fileEvents.rows.Pairwise (fun left right => left.eventId < right.eventId) ∧
    ∃ log, s.server.tables.fileEvents.rows.mapM FileEventRow.toFileChangeLog = .ok log ∧
      s.received <+: log ∧
      ∀ limit page server,
        ClientRequest.getFileChangeLogs s.lastEventId limit s.server.server =
          .ok (.getFileChangeLogs page) server →
        s.received ++ page.operations <+: log ∧
        (page.nextEventId = none → s.received ++ page.operations = log) := by
  have computed : ((polling Scenario.config).exec ⟨.initial, []⟩ Scenario.polledTwice).map
      (fun s => s.received.map FileChangeLog.eventId) = some [1, 2] := by decide +kernel
  obtain ⟨s, ends, received⟩ := Option.map_eq_some_iff.mp computed
  have initial : (polling Scenario.config).Init ⟨.initial, []⟩ := ⟨rfl, rfl⟩
  have reachable := System.exec_reachable Scenario.polledTwice initial ends
  exact ⟨s, reachable, received, changeLog_polled reachable⟩

end Fs0
