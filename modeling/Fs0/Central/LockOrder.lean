import Fs0.Lib.Locking

/-!
Contract: the locks that central's handlers take, and when they deadlock.

Owns:
- the lock operations of each handler, with guards dropped where their scope ends;
- that handlers deadlock exactly by a report, a writer of the online volumes, and the holder
  of the database that wants to read them;
- the requests for locks that close such a cycle.

Does not own: what the handlers compute under the locks.
-/

set_option autoImplicit false

namespace Fs0

open Lib Lib.Locks

/-! ## The handlers -/

/-- The mutex and the locks of `CentralServer`. -/
inductive CentralLock where
  | db
  | onlineVolumes
  | storages
  | clients
deriving DecidableEq, Repr

/-- What runs in parallel: a request, or the end of a connection. -/
inductive CentralCall where
  | registerClient
  | registerStorage
  | unregisterClient
  | unregisterStorage
  | centralStatus
  | listDirectory
  | getFileReadPlan
  | getFileReadPlanById
  | hasBundle
  | deleteFile
  | deleteFileById
  | copyFile
  | copyFileById
  | renameFile
  | renameFileById
  | getFileChangeLogs
  | beginUpdate
  | commitUpdate
  | abortUpdate
  | createVolume
  | validateClientAuth
  | reportBundleReplica
  | updateStorageEndpoint
  | updateStorageVolumeOffset
deriving DecidableEq, Repr

abbrev CentralLockOps := List (LockOp CentralLock)

/-- A guard and what is done while it lives. -/
def guarded (lock : CentralLock) (mode : LockMode) (body : CentralLockOps) : CentralLockOps :=
  .acquire lock mode :: (body ++ [.release lock])

/-- `db.lock()`, a transaction that may fail, and what follows while it is open. -/
def lockedTx (body : CentralLockOps) : CentralLockOps := guarded .db .write (.check :: body)

def storagePeersSnapshotLocks : CentralLockOps := guarded .storages .read []

def broadcastEventLocks : CentralLockOps :=
  guarded .clients .read [] ++ guarded .storages .read []

/-- `storage_peer`, and the event if there is one. -/
def storageChangedLocks : CentralLockOps :=
  guarded .storages .read [] ++ .check :: broadcastEventLocks

def getFileReadPlanByIdLocks : CentralLockOps :=
  lockedTx (guarded .onlineVolumes .read [.check] ++ [.check])

/-- The locks of a handler. It may leave at a check, also when it has nothing left to do. -/
def CentralCall.locks : CentralCall → CentralLockOps
  | .registerClient => .check :: guarded .clients .write [] ++ storagePeersSnapshotLocks
  | .registerStorage =>
      .check :: lockedTx [] ++ guarded .onlineVolumes .write [.check] ++
        guarded .storages .write [] ++ storagePeersSnapshotLocks ++ storageChangedLocks
  | .unregisterClient => guarded .clients .write []
  | .unregisterStorage =>
      guarded .storages .write [] ++ guarded .onlineVolumes .write [] ++
        .check :: broadcastEventLocks
  -- The guard of the clients is a temporary of the expression that reads the storages.
  | .centralStatus => guarded .clients .read storagePeersSnapshotLocks
  | .listDirectory => lockedTx []
  | .getFileReadPlan => lockedTx [] ++ getFileReadPlanByIdLocks
  | .getFileReadPlanById => getFileReadPlanByIdLocks
  | .hasBundle => lockedTx []
  | .deleteFile => lockedTx [] ++ lockedTx []
  | .deleteFileById => lockedTx []
  | .copyFile => lockedTx [] ++ lockedTx []
  | .copyFileById => lockedTx []
  | .renameFile => lockedTx [] ++ lockedTx []
  | .renameFileById => lockedTx []
  | .getFileChangeLogs => lockedTx []
  | .beginUpdate =>
      storagePeersSnapshotLocks ++ .check :: lockedTx [] ++ guarded .storages .read [] ++
        .check :: lockedTx []
  | .commitUpdate =>
      lockedTx (guarded .onlineVolumes .read []) ++ lockedTx [] ++
        .check :: guarded .storages .read []
  | .abortUpdate =>
      lockedTx (guarded .onlineVolumes .read []) ++ .check :: guarded .storages .read []
  | .createVolume => lockedTx []
  | .validateClientAuth => guarded .clients .read [.check]
  | .reportBundleReplica => guarded .onlineVolumes .read (.check :: lockedTx [])
  | .updateStorageEndpoint => guarded .storages .write [.check] ++ storageChangedLocks
  | .updateStorageVolumeOffset => lockedTx [] ++ guarded .storages .write [.check]

/-- Central under any number of calls. -/
def centralLocks : System (Locks CentralLock) (LockEvent CentralCall) :=
  Locks.system CentralCall.locks

/-! ## Nesting -/

/-- The locks that are taken while others are held. -/
inductive CentralNesting : List (CentralLock × LockMode) → CentralLock → LockMode → Prop where
  | first (lock : CentralLock) (mode : LockMode) : CentralNesting [] lock mode
  | readOnline : CentralNesting [(.db, .write)] .onlineVolumes .read
  | report : CentralNesting [(.onlineVolumes, .read)] .db .write
  | status : CentralNesting [(.clients, .read)] .storages .read

theorem locks_nest (call : CentralCall) : Nests CentralNesting [] call.locks := by
  cases call <;> repeat constructor

/-- What is held while a further lock is taken. -/
theorem CentralNesting.holding {held : List (CentralLock × LockMode)} {lock other : CentralLock}
    {mode otherMode : LockMode} (allowed : CentralNesting held lock mode)
    (holds : (other, otherMode) ∈ held) :
    (other = .db ∧ otherMode = .write ∧ lock = .onlineVolumes ∧ mode = .read) ∨
      (other = .onlineVolumes ∧ otherMode = .read ∧ lock = .db ∧ mode = .write) ∨
      (other = .clients ∧ lock = .storages) := by
  cases allowed with
  | first => cases holds
  | readOnline =>
      obtain ⟨rfl, rfl⟩ := Prod.mk.inj (List.mem_singleton.mp holds)
      exact .inl ⟨rfl, rfl, rfl, rfl⟩
  | report =>
      obtain ⟨rfl, rfl⟩ := Prod.mk.inj (List.mem_singleton.mp holds)
      exact .inr (.inl ⟨rfl, rfl, rfl, rfl⟩)
  | status =>
      obtain ⟨rfl, rfl⟩ := Prod.mk.inj (List.mem_singleton.mp holds)
      exact .inr (.inr ⟨rfl, rfl⟩)

/-! ## The deadlock of three -/

/-- A report that holds the online volumes waits for the database, whose holder waits for
them behind a writer. -/
structure Tangled (s : Locks CentralLock) (report writer reader : Nat) : Prop where
  reportHolds : ⟨report, .onlineVolumes, .read⟩ ∈ s.held
  reportWaits : ⟨report, .db, .write⟩ ∈ s.queue
  readerHolds : ⟨reader, .db, .write⟩ ∈ s.held
  readerWaits : [⟨writer, .onlineVolumes, .write⟩, ⟨reader, .onlineVolumes, .read⟩].Sublist s.queue

section Deadlocks

variable {s s' : Locks CentralLock} {report writer reader : Nat}

theorem Tangled.deadlocked (tangled : Tangled s report writer reader) : s.Deadlocked := by
  have writerQueued := tangled.readerWaits.subset List.mem_cons_self
  have readerQueued := tangled.readerWaits.subset (List.mem_cons_of_mem _ List.mem_cons_self)
  refine ⟨{task | task = report ∨ task = writer ∨ task = reader}, ⟨report, .inl rfl⟩, ?_⟩
  rintro task (rfl | rfl | rfl)
  · exact ⟨reader, .inr (.inr rfl), _, tangled.reportWaits, rfl,
      .inl ⟨_, tangled.readerHolds, rfl, rfl, .inl rfl⟩⟩
  · exact ⟨report, .inl rfl, _, writerQueued, rfl,
      .inl ⟨_, tangled.reportHolds, rfl, rfl, .inr rfl⟩⟩
  · exact ⟨writer, .inr (.inl rfl), _, readerQueued, rfl,
      .inr ⟨⟨writer, .onlineVolumes, .write⟩, rfl, rfl, rfl, tangled.readerWaits⟩⟩

section Closed

variable {tasks : Set Nat} {claim : LockClaim CentralLock}

/-- A task of a deadlock does not wait for the storages or the clients. -/
theorem waits_for_db_or_online (disciplined : s.Disciplined CentralNesting)
    (closed : ∀ task ∈ tasks, ∃ other ∈ tasks, s.Waits task other)
    (member : claim ∈ s.queue) (among : claim.task ∈ tasks) :
    claim.lock = .db ∨ claim.lock = .onlineVolumes := by
  have noStorages : ∀ other ∈ s.queue, other.task ∈ tasks → other.lock ≠ .storages := by
    intro other isQueued isAmong isStorages
    obtain ⟨mode, wanted, -, -, holds, allowed⟩ :=
      exists_waiting_holder disciplined closed isQueued isAmong
    rw [isStorages] at holds
    rcases allowed.holding holds with ⟨isDb, -⟩ | ⟨isOnline, -⟩ | ⟨isClients, -⟩
    · cases isDb
    · cases isOnline
    · cases isClients
  cases isLock : claim.lock with
  | db => exact .inl rfl
  | onlineVolumes => exact .inr rfl
  | storages => exact absurd isLock (noStorages claim member among)
  | clients =>
      obtain ⟨mode, wanted, isQueued, isAmong, holds, allowed⟩ :=
        exists_waiting_holder disciplined closed member among
      rw [isLock] at holds
      rcases allowed.holding holds with ⟨isDb, -⟩ | ⟨isOnline, -⟩ | ⟨-, isStorages⟩
      · cases isDb
      · cases isOnline
      · exact absurd isStorages (noStorages wanted isQueued isAmong)

/-- If a task of a deadlock waits for the online volumes, then a report of it holds them. -/
theorem exists_report (disciplined : s.Disciplined CentralNesting)
    (closed : ∀ task ∈ tasks, ∃ other ∈ tasks, s.Waits task other)
    (member : claim ∈ s.queue) (among : claim.task ∈ tasks)
    (isOnline : claim.lock = .onlineVolumes) : ∃ report ∈ tasks,
      ⟨report, .onlineVolumes, .read⟩ ∈ s.held ∧ ⟨report, .db, .write⟩ ∈ s.queue := by
  obtain ⟨mode, ⟨report, lock, wantedMode⟩, isQueued, isAmong, holds, allowed⟩ :=
    exists_waiting_holder disciplined closed member among
  rw [isOnline] at holds
  rcases allowed.holding holds with ⟨isDb, -⟩ | ⟨-, rfl, isDb, isWrite⟩ | ⟨isClients, -⟩
  · cases isDb
  · obtain rfl : lock = .db := isDb
    obtain rfl : wantedMode = .write := isWrite
    exact ⟨report, isAmong, mem_heldBy.mp holds, isQueued⟩
  · cases isClients

/-- If a task of a deadlock waits for the database, then one that holds it waits to read the
online volumes. -/
theorem exists_reader (disciplined : s.Disciplined CentralNesting)
    (closed : ∀ task ∈ tasks, ∃ other ∈ tasks, s.Waits task other)
    (member : claim ∈ s.queue) (among : claim.task ∈ tasks) (isDb : claim.lock = .db) :
    ∃ reader ∈ tasks,
      ⟨reader, .db, .write⟩ ∈ s.held ∧ ⟨reader, .onlineVolumes, .read⟩ ∈ s.queue := by
  obtain ⟨mode, ⟨reader, lock, wantedMode⟩, isQueued, isAmong, holds, allowed⟩ :=
    exists_waiting_holder disciplined closed member among
  rw [isDb] at holds
  rcases allowed.holding holds with ⟨-, rfl, isOnline, isRead⟩ | ⟨isOnline, -⟩ | ⟨isClients, -⟩
  · obtain rfl : lock = .onlineVolumes := isOnline
    obtain rfl : wantedMode = .read := isRead
    exact ⟨reader, isAmong, mem_heldBy.mp holds, isQueued⟩
  · cases isOnline
  · cases isClients

end Closed

/-- A deadlock of handlers is one of three: a report, a writer and a reader of the online
volumes. -/
theorem deadlocked_iff (disciplined : s.Disciplined CentralNesting) :
    s.Deadlocked ↔ ∃ report writer reader, Tangled s report writer reader := by
  constructor
  · rintro ⟨tasks, ⟨task, isAmong⟩, closed⟩
    obtain ⟨-, -, claim, member, rfl, -⟩ := closed task isAmong
    -- The holder of the database waits for the online volumes, and a report holds these.
    have readerWaits : ∃ reader ∈ tasks,
        ⟨reader, .db, .write⟩ ∈ s.held ∧ ⟨reader, .onlineVolumes, .read⟩ ∈ s.queue := by
      rcases waits_for_db_or_online disciplined closed member isAmong with isDb | isOnline
      · exact exists_reader disciplined closed member isAmong isDb
      · obtain ⟨report, isReport, -, waits⟩ :=
          exists_report disciplined closed member isAmong isOnline
        exact exists_reader disciplined closed waits isReport rfl
    obtain ⟨reader, isReader, readerHolds, isWaiting⟩ := readerWaits
    obtain ⟨report, -, reportHolds, reportWaits⟩ :=
      exists_report disciplined closed isWaiting isReader rfl
    obtain ⟨other, isOther, waiting, isWaiter, same, reason⟩ := closed reader isReader
    obtain rfl := disciplined.unique isWaiter isWaiting same
    rcases reason with ⟨⟨_, lock, mode⟩, isHeld, rfl, isOnline, conflicts⟩ |
      ⟨⟨writer, lock, mode⟩, rfl, isOnline, isWrite, isAhead⟩
    · -- A writer that holds the online volumes waits for nothing.
      obtain rfl : lock = .onlineVolumes := isOnline
      obtain rfl : mode = .write := conflicts.resolve_right (by simp)
      obtain ⟨-, -, wanted, isQueued, isHolder, -⟩ := closed _ isOther
      have holds := mem_heldBy.mpr isHeld
      have allowed := disciplined.allowed isQueued
      rw [isHolder] at allowed
      rcases allowed.holding holds with ⟨isDb, -⟩ | ⟨-, isRead, -⟩ | ⟨isClients, -⟩
      · cases isDb
      · cases isRead
      · cases isClients
    · obtain rfl : lock = .onlineVolumes := isOnline
      obtain rfl : mode = .write := isWrite
      exact ⟨report, writer, reader, reportHolds, reportWaits, readerHolds, isAhead⟩
  · rintro ⟨report, writer, reader, tangled⟩
    exact tangled.deadlocked

/-! ## What closes the cycle -/

/-- A request for the second lock of a report, or of a handler that holds the database, that
finds the other two of the three handlers. -/
inductive Closes (s : Locks CentralLock) : LockEvent CentralCall → Prop where
  | report {report writer reader : Nat} {rest : CentralLockOps}
      (next : s.rest report = .acquire .db .write :: rest)
      (reportHolds : ⟨report, .onlineVolumes, .read⟩ ∈ s.held)
      (readerHolds : ⟨reader, .db, .write⟩ ∈ s.held)
      (readerWaits :
        [⟨writer, .onlineVolumes, .write⟩, ⟨reader, .onlineVolumes, .read⟩].Sublist s.queue) :
      Closes s (.request report)
  | reader {report writer reader : Nat} {rest : CentralLockOps}
      (next : s.rest reader = .acquire .onlineVolumes .read :: rest)
      (readerHolds : ⟨reader, .db, .write⟩ ∈ s.held)
      (writerWaits : ⟨writer, .onlineVolumes, .write⟩ ∈ s.queue)
      (reportHolds : ⟨report, .onlineVolumes, .read⟩ ∈ s.held)
      (reportWaits : ⟨report, .db, .write⟩ ∈ s.queue) : Closes s (.request reader)

variable {e : LockEvent CentralCall}

/-- Only a closing request tangles handlers that are not. -/
theorem tangled_of_step (disciplined : s.Disciplined CentralNesting)
    (stepped : Stepped CentralCall.locks s e s') (tangled : Tangled s' report writer reader) :
    Tangled s report writer reader ∨ Closes s e := by
  obtain ⟨reportHolds, reportWaits, readerHolds, readerWaits⟩ := tangled
  cases stepped with
  | spawn call => exact .inl ⟨reportHolds, reportWaits, readerHolds, readerWaits⟩
  | pass next => exact .inl ⟨reportHolds, reportWaits, readerHolds, readerWaits⟩
  | fail next => exact .inl ⟨reportHolds, reportWaits, readerHolds, readerWaits⟩
  | release next =>
      exact .inl ⟨(List.mem_filter.mp reportHolds).1, reportWaits,
        (List.mem_filter.mp readerHolds).1, readerWaits⟩
  | @grant task lock mode tail next queued grantable =>
      have reportQueued := List.mem_of_mem_erase reportWaits
      have readerQueued := List.mem_of_mem_erase
        (readerWaits.subset (List.mem_cons_of_mem _ List.mem_cons_self))
      -- A task with a new lock no longer waits for another one.
      have oldHolds : ∀ {held wanted : LockClaim CentralLock}, held ∈ ⟨task, lock, mode⟩ :: s.held →
          wanted ∈ s.queue → wanted.task = held.task → wanted.lock ≠ held.lock →
            held ∈ s.held := by
        intro held wanted isHeld isWanted same differ
        rcases List.mem_cons.mp isHeld with rfl | old
        · obtain rfl := disciplined.unique isWanted queued same
          exact absurd rfl differ
        · exact old
      exact .inl ⟨oldHolds reportHolds reportQueued rfl (by simp), reportQueued,
        oldHolds readerHolds readerQueued rfl (by simp),
        readerWaits.trans List.erase_sublist⟩
  | @request task lock mode tail next first =>
      rcases List.mem_append.mp reportWaits with reportQueued | isReport
      · rcases ahead_concat readerWaits with readerQueued | ⟨isReader, writerQueued⟩
        · exact .inl ⟨reportHolds, reportQueued, readerHolds, readerQueued⟩
        · obtain ⟨rfl, rfl, rfl⟩ := LockClaim.mk.inj isReader
          exact .inr (.reader next readerHolds writerQueued reportHolds reportQueued)
      · obtain ⟨rfl, rfl, rfl⟩ := LockClaim.mk.inj (List.mem_singleton.mp isReport)
        rcases ahead_concat readerWaits with readerQueued | ⟨isReader, -⟩
        · exact .inr (.report next reportHolds readerHolds readerQueued)
        · cases (LockClaim.mk.inj isReader).2.1

/-- A closing request tangles the handlers. -/
theorem Closes.tangled (closes : Closes s e) (stepped : Stepped CentralCall.locks s e s') :
    ∃ report writer reader, Tangled s' report writer reader := by
  cases closes with
  | @report report writer reader _ next reportHolds readerHolds readerWaits =>
      cases stepped with
      | request isNext first =>
          rw [next] at isNext
          obtain ⟨rfl, rfl⟩ := LockOp.acquire.inj (List.cons.inj isNext).1
          exact ⟨report, writer, reader, reportHolds, by simp, readerHolds,
            readerWaits.trans (List.sublist_append_left _ _)⟩
  | @reader report writer reader _ next readerHolds writerWaits reportHolds reportWaits =>
      cases stepped with
      | request isNext first =>
          rw [next] at isNext
          obtain ⟨rfl, rfl⟩ := LockOp.acquire.inj (List.cons.inj isNext).1
          exact ⟨report, writer, reader, reportHolds, List.mem_append_left _ reportWaits,
            readerHolds, (List.singleton_sublist.mpr writerWaits).append (.refl _)⟩

end Deadlocks

/-- No state of a run is deadlocked exactly if no request of the run closes a cycle of a
report, a writer and a reader of the online volumes. -/
theorem handlers_deadlock_free_iff {ts : List (Transition (Locks CentralLock)
    (LockEvent CentralCall))} {s : Locks CentralLock} (run : centralLocks.Run ts s) :
    (∀ x ∈ visited ts s, ¬ x.Deadlocked) ↔ ∀ t ∈ ts, ¬ Closes t.pre t.event := by
  apply run.all_visited_iff_guard
    (fun x => x.Disciplined CentralNesting ∧ ∀ report writer reader,
      ¬ Tangled x report writer reader) (fun x => ¬ x.Deadlocked) fun x e => ¬ Closes x e
  · rintro x rfl
    exact ⟨initial_disciplined, fun _ _ _ tangled => by cases tangled.reportHolds⟩
  · rintro x e x' ⟨disciplined, untangled⟩ opens taken
    have stepped := step_cases taken
    refine ⟨disciplined.preserved locks_nest stepped, fun report writer reader tangled => ?_⟩
    rcases tangled_of_step disciplined stepped tangled with before | closes
    · exact untangled _ _ _ before
    · exact opens closes
  · rintro x ⟨disciplined, untangled⟩ deadlocked
    obtain ⟨report, writer, reader, tangled⟩ := (deadlocked_iff disciplined).mp deadlocked
    exact untangled _ _ _ tangled
  · intro x e x' _ closes taken free
    obtain ⟨report, writer, reader, tangled⟩ :=
      (not_not.mp closes).tangled (step_cases taken)
    exact free tangled.deadlocked

/-! ## Three handlers that wait for each other -/

namespace Scenario

/-- A report has read the online volumes, a read plan has locked the database, and the end of
a connection waits to write the online volumes. -/
def threeHandlers : List (LockEvent CentralCall) :=
  [.spawn .reportBundleReplica, .spawn .getFileReadPlanById, .spawn .unregisterStorage,
    .request 0, .grant 0, .pass 0, .request 1, .grant 1, .pass 1,
    .request 2, .grant 2, .release 2, .request 2]

/-- Then the report and the read plan go on. -/
def deadlocked : List (LockEvent CentralCall) := threeHandlers ++ [.request 1, .request 0]

end Scenario

theorem handlers_deadlock : ¬ ∀ s, centralLocks.Reachable s → ¬ s.Deadlocked := by
  intro claimed
  have computed : (centralLocks.exec .initial Scenario.deadlocked).map
      (fun s => (s.held, s.queue)) =
        some ([⟨1, .db, .write⟩, ⟨0, .onlineVolumes, .read⟩],
          [⟨2, .onlineVolumes, .write⟩, ⟨1, .onlineVolumes, .read⟩, ⟨0, .db, .write⟩]) := by
    decide +kernel
  obtain ⟨s, ends, state⟩ := Option.map_eq_some_iff.mp computed
  obtain ⟨held, queue⟩ := Prod.mk.inj state
  have initial : centralLocks.Init .initial := rfl
  have tangled : Tangled s 0 2 1 :=
    ⟨by rw [held]; decide, by rw [queue]; decide, by rw [held]; decide, by rw [queue]; decide⟩
  exact claimed s (System.exec_reachable _ initial ends) tangled.deadlocked

theorem handlers_deadlock_free_iff_three : ∃ ts s, centralLocks.Run ts s ∧ s.held.length = 2 ∧
    ((∀ x ∈ visited ts s, ¬ x.Deadlocked) ↔ ∀ t ∈ ts, ¬ Closes t.pre t.event) := by
  have computed : (centralLocks.exec .initial Scenario.threeHandlers).map
      (fun s => s.held.length) = some 2 := by decide +kernel
  obtain ⟨s, ends, holds⟩ := Option.map_eq_some_iff.mp computed
  have initial : centralLocks.Init .initial := rfl
  obtain ⟨ts, run, -⟩ := (System.Run.init initial).exec Scenario.threeHandlers ends
  exact ⟨_, s, run, holds, handlers_deadlock_free_iff run⟩

end Fs0
