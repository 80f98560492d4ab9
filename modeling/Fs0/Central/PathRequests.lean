import Fs0.Central.AlikeSections
import Fs0.Central.ConnectionSteps
import Fs0.Central.ReplayedLog
import Fs0.Lib.Simulation

/-!
Contract: requests for a path, whose handlers resolve the path in one section and act on the
number of the file in another.

Owns:
- central with handlers that do both in one section;
- when the second section does what the request would do as a whole at that moment;
- that runs in which it always does end as runs of the central above, with the same messages
  and tables.

Does not own: requests that give the number of their file.
-/

set_option autoImplicit false

namespace Fs0

open Lib Fallible

/-! ## One section for a path -/

/-- The path of a request, and what its handler does with the number of the file there. -/
def ControlRequest.path? : ControlRequest → Option (String × (Nat → Handler))
  | .getFileReadPlan path => some (path, .getFileReadPlanById)
  | .deleteFile path => some (path, .deleteFileById)
  | .copyFile sourcePath targetPath =>
      some (sourcePath, fun fileId => .copyFileById fileId targetPath)
  | .renameFile sourcePath targetPath =>
      some (sourcePath, fun fileId => .renameFileById fileId targetPath)
  | _ => none

/-- Runs the next section of a handler. The first one of a client's request for a path goes
on with the number of the file. -/
def Handler.resumeAtomic (config : CentralConfig) (inputs : Inputs) (connection : Nat)
    (identity : ControlConnectionIdentity) : Handler → CentralM Progress
  | .start request =>
      match identity, request.path? with
      | .client _, some (path, act) => do
          let fileId ← ClientRequest.fileIdByPath path
          (act fileId).resume config inputs connection identity
      | _, _ => (Handler.start request).resume config inputs connection identity
  | handler => handler.resume config inputs connection identity

/-- Central, with requests for a path that run as one section. -/
def atomicCentral (config : CentralConfig) : System Central CentralEvent where
  Init s := s = Central.initial
  step := Central.stepWith config (Handler.resumeAtomic config)

section Requests

variable {config : CentralConfig} {inputs : Inputs} {connection clientId : Nat}
  {request : ControlRequest} {path : String} {act : Nat → Handler}

theorem ControlRequest.path?_cases (isPath : request.path? = some (path, act)) :
    request = .getFileReadPlan path ∧ act = .getFileReadPlanById ∨
    request = .deleteFile path ∧ act = .deleteFileById ∨
    (∃ targetPath, request = .copyFile path targetPath ∧
      act = fun fileId => .copyFileById fileId targetPath) ∨
    ∃ targetPath, request = .renameFile path targetPath ∧
      act = fun fileId => .renameFileById fileId targetPath := by
  cases request with
  | getFileReadPlan path =>
      obtain ⟨rfl, rfl⟩ := Prod.mk.inj (Option.some.inj isPath)
      exact .inl ⟨rfl, rfl⟩
  | deleteFile path =>
      obtain ⟨rfl, rfl⟩ := Prod.mk.inj (Option.some.inj isPath)
      exact .inr (.inl ⟨rfl, rfl⟩)
  | copyFile sourcePath targetPath =>
      obtain ⟨rfl, rfl⟩ := Prod.mk.inj (Option.some.inj isPath)
      exact .inr (.inr (.inl ⟨targetPath, rfl, rfl⟩))
  | renameFile sourcePath targetPath =>
      obtain ⟨rfl, rfl⟩ := Prod.mk.inj (Option.some.inj isPath)
      exact .inr (.inr (.inr ⟨targetPath, rfl, rfl⟩))
  | _ => cases isPath

theorem ControlRequest.resume_start (isPath : request.path? = some (path, act)) :
    (Handler.start request).resume config inputs connection (.client clientId) =
      CentralM.resolving path act := by
  rcases path?_cases isPath with
    ⟨rfl, rfl⟩ | ⟨rfl, rfl⟩ | ⟨targetPath, rfl, rfl⟩ | ⟨targetPath, rfl, rfl⟩ <;> rfl

theorem ControlRequest.act_awaits (isPath : request.path? = some (path, act)) (fileId : Nat) :
    (act fileId).awaits = false := by
  rcases path?_cases isPath with
    ⟨-, rfl⟩ | ⟨-, rfl⟩ | ⟨targetPath, -, rfl⟩ | ⟨targetPath, -, rfl⟩ <;> rfl

theorem Handler.resumeAtomic_path (isPath : request.path? = some (path, act)) :
    (Handler.start request).resumeAtomic config inputs connection (.client clientId) = (do
      let fileId ← ClientRequest.fileIdByPath path
      (act fileId).resume config inputs connection (.client clientId)) := by
  simp only [Handler.resumeAtomic, isPath]

theorem Handler.resumeAtomic_other {identity : ControlConnectionIdentity} {handler : Handler}
    (other : ∀ clientId request, identity = .client clientId → handler = .start request →
      request.path? = none) :
    handler.resumeAtomic config inputs connection identity =
      handler.resume config inputs connection identity := by
  cases handler with
  | start request =>
      cases identity with
      | client clientId => simp only [Handler.resumeAtomic, other clientId request rfl rfl]
      | storage storageId => rfl
      | anonymous => rfl
  | _ => rfl

/-- The lookup of a path reads the tables. -/
theorem ClientRequest.fileIdByPath_eq {server : CentralServer} (consistent : Consistent server.db)
    (path : String) : ∃ db, db.1 = server.db.1 ∧ Consistent db ∧
      fileIdByPath path server =
        lift ((server.db.1.fileByPath path).map FileRow.fileId) { server with db := db } := by
  obtain ⟨⟨tables, cache⟩, same, consistent', looked⟩ :=
    CentralTx.getFileByPath_eq consistent path
  obtain rfl : tables = server.db.1 := same
  refine ⟨(server.db.1, cache), rfl, consistent', ?_⟩
  have ran : fileIdByPathTx path server.db =
      lift ((server.db.1.fileByPath path).map FileRow.fileId) (server.db.1, cache) := by
    unfold fileIdByPathTx
    rw [bind_apply, looked]
    cases server.db.1.fileByPath path <;> rfl
  unfold fileIdByPath CentralM.inspect CentralM.locked Fallible.inspect
  rw [ran]
  cases server.db.1.fileByPath path <;> rfl

end Requests

/-! ## Requests for a file that is gone -/

/-- A request that fails for want of its file only. -/
def ControlRequest.FailsOnly (now : Nat) (tables : CentralTables) : ControlRequest → Prop
  | .getFileReadPlan _ => True
  | .deleteFile _ => True
  | .copyFile _ targetPath => ∃ target, splitFs0PathDirAndName targetPath = .ok target
  | .renameFile _ targetPath => now ≤ i64Max ∧ ∃ dir name dirId,
      splitFs0PathDirAndName targetPath = .ok (dir, name) ∧ tables.dirIdByPath dir = .ok dirId ∧
        tables.childDir dirId name = none ∧ tables.childFile dirId name = none
  | _ => False

namespace CentralTx

variable {db : CentralDb} {fileId now : Nat}

theorem getFileById_of_absent (fits : fileId ≤ i64Max) (absent : db.1.files.find? fileId = none) :
    getFileById fileId db = .error .notFound db := by
  unfold getFileById
  rw [bind_of_ok (bindU64_of_le fits), bind_of_ok (query_apply _ _), absent]
  rfl

end CentralTx

namespace ClientRequest

open CentralTx

variable {db : CentralDb} {fileId now : Nat}

theorem readPlanTx_of_absent (fits : fileId ≤ i64Max)
    (absent : db.1.files.find? fileId = none) :
    ∃ db', readPlanTx fileId db = .error .notFound db' :=
  ⟨db, bind_of_error (getFileById_of_absent fits absent)⟩

theorem deleteFileByIdTx_of_absent (fits : fileId ≤ i64Max)
    (absent : db.1.files.find? fileId = none) :
    ∃ db', deleteFileByIdTx fileId now db = .error .notFound db' := by
  let unbundled : CentralDb := ({ db.1 with
    fileBundles := db.1.fileBundles.delete fun row => row.fileId == fileId }, db.2)
  have ran : deleteFileBundlesByFileId fileId db = .ok () unbundled := by
    unfold deleteFileBundlesByFileId
    rw [bind_of_ok (bindU64_of_le fits)]
    exact execute_eq_ok.mpr ⟨rfl, rfl⟩
  have unchanged : execute (CentralTables.deleteFile fileId) unbundled = .ok 0 unbundled := by
    refine execute_eq_ok.mpr ⟨?_, rfl⟩
    unfold CentralTables.deleteFile
    rw [if_pos]
    exact Option.isNone_iff_eq_none.mpr absent
  refine ⟨unbundled, ?_⟩
  unfold deleteFileByIdTx CentralTx.deleteFileById
  rw [bind_of_ok ran, bind_of_error]
  rw [bind_of_ok (bindU64_of_le fits), bind_of_ok unchanged]
  rfl

theorem copyFileByIdTx_of_absent (fits : fileId ≤ i64Max)
    (absent : db.1.files.find? fileId = none) {targetPath : String} {target : String × String}
    (split : splitFs0PathDirAndName targetPath = .ok target) :
    ∃ db', copyFileByIdTx fileId targetPath now db = .error .notFound db' := by
  obtain ⟨dir, name⟩ := target
  refine ⟨db, ?_⟩
  unfold copyFileByIdTx CentralTx.copyFileById
  rw [split, bind_of_ok (lift_ok_apply _ _)]
  dsimp only
  rw [bind_of_error]
  rw [bind_of_ok (lift_ok_apply _ _)]
  exact bind_of_error (getFileById_of_absent fits absent)

theorem renameFileByIdTx_of_absent (consistent : Consistent db) (fits : fileId ≤ i64Max)
    (absent : db.1.files.find? fileId = none) (timely : now ≤ i64Max)
    {targetPath dir name : String} {dirId : Nat}
    (split : splitFs0PathDirAndName targetPath = .ok (dir, name))
    (resolved : db.1.dirIdByPath dir = .ok dirId) (noDir : db.1.childDir dirId name = none)
    (noFile : db.1.childFile dirId name = none) :
    ∃ db', renameFileByIdTx fileId targetPath now db = .error .notFound db' := by
  obtain ⟨names, rfl, located⟩ := consistent.laws.dirIdByPath_eq_ok.mp resolved
  obtain ⟨⟨tables, cache⟩, same, -, created⟩ := createDir_of_dirAt consistent located
  obtain rfl : tables = db.1 := same
  have dirFits := consistent.laws.fits (consistent.laws.isDir located)
  have free : ensureChildNameAvailable dirId name (some fileId) targetPath (db.1, cache) =
      .ok () (db.1, cache) := by
    unfold ensureChildNameAvailable
    rw [bind_of_ok (bindU64_of_le dirFits), bind_of_ok (query_apply _ _)]
    simp [bind_apply, require, noDir, noFile]
  have unchanged : execute (CentralTables.moveFile fileId dirId name now) (db.1, cache) =
      .ok 0 (db.1, cache) := by
    refine execute_eq_ok.mpr ⟨?_, rfl⟩
    unfold CentralTables.moveFile
    rw [absent]
    rfl
  refine ⟨(db.1, cache), ?_⟩
  unfold renameFileByIdTx CentralTx.renameFileById
  rw [split, bind_of_ok (lift_ok_apply _ _)]
  dsimp only
  rw [bind_of_error]
  rw [bind_of_ok (lift_ok_apply _ _)]
  dsimp only
  rw [bind_of_ok created, bind_of_ok free, bind_of_ok (bindU64_of_le fits),
    bind_of_ok (bindU64_of_le dirFits), bind_of_ok (bindU64_of_le timely),
    bind_of_ok unchanged]
  rfl

end ClientRequest

namespace CentralM

variable {α : Type} {server : CentralServer} {err : Fs0Error} {db : CentralDb}

theorem inspect_of_error {m : CentralTx α} (failed : m server.db = .error err db) :
    inspect m server = .error err { server with db := (server.db.1, db.2) } := by
  unfold inspect locked Fallible.inspect
  rw [failed]

theorem transact_of_error {commit : Option Fs0Error} {m : CentralTx α}
    (failed : m server.db = .error err db) :
    transact commit m server = .error err { server with db := (server.db.1, db.2) } := by
  unfold transact locked Fallible.transact
  rw [failed]

end CentralM

/-- The second section of such a request finds no file, and leaves the tables as they are. -/
theorem ControlRequest.act_of_absent {config : CentralConfig} {inputs : Inputs}
    {connection fileId : Nat} {identity : ControlConnectionIdentity} {server : CentralServer}
    {request : ControlRequest} {path : String} {act : Nat → Handler}
    (isPath : request.path? = some (path, act)) (consistent : Consistent server.db)
    (fits : fileId ≤ i64Max) (absent : server.db.1.files.find? fileId = none)
    (only : request.FailsOnly inputs.now server.db.1) :
    ∃ db, db.1 = server.db.1 ∧ (act fileId).resume config inputs connection identity server =
      .error .notFound { server with db := db } := by
  rcases path?_cases isPath with
    ⟨rfl, rfl⟩ | ⟨rfl, rfl⟩ | ⟨targetPath, rfl, rfl⟩ | ⟨targetPath, rfl, rfl⟩
  · obtain ⟨db, failed⟩ := ClientRequest.readPlanTx_of_absent fits absent
    exact ⟨(server.db.1, db.2), rfl,
      bind_of_error (bind_of_error (CentralM.inspect_of_error failed))⟩
  · obtain ⟨db, failed⟩ := ClientRequest.deleteFileByIdTx_of_absent fits absent
    exact ⟨(server.db.1, db.2), rfl,
      bind_of_error (bind_of_error (CentralM.transact_of_error failed))⟩
  · obtain ⟨target, split⟩ := only
    obtain ⟨db, failed⟩ := ClientRequest.copyFileByIdTx_of_absent fits absent split
    exact ⟨(server.db.1, db.2), rfl,
      bind_of_error (bind_of_error (CentralM.transact_of_error failed))⟩
  · obtain ⟨timely, dir, name, dirId, split, resolved, noDir, noFile⟩ := only
    obtain ⟨db, failed⟩ := ClientRequest.renameFileByIdTx_of_absent consistent fits absent
      timely split resolved noDir noFile
    exact ⟨(server.db.1, db.2), rfl,
      bind_of_error (bind_of_error (CentralM.transact_of_error failed))⟩

/-! ## Straying -/

/-- Acting on the file is what the request does as a whole at this moment: the path names the
file, or it names none and the request fails for that alone. -/
def ControlRequest.Straight (now : Nat) (tables : CentralTables) (request : ControlRequest)
    (path : String) (fileId : Nat) : Prop :=
  (∃ file, tables.fileByPath path = .ok file ∧ file.fileId = fileId) ∨
    tables.files.find? fileId = none ∧ tables.fileByPath path = .error .notFound ∧
      request.FailsOnly now tables

/-- The section that runs acts for a path on a file which that path no longer names. -/
def Central.Strays (s : Central) (e : CentralEvent) : Prop :=
  ∃ c inputs conn stream request path act fileId, e = .run c inputs ∧
    s.connections.find? c = some conn ∧ conn.handling = some ⟨stream, act fileId⟩ ∧
    .arrived stream (.control request) ∈ s.exchanges ∧ request.path? = some (path, act) ∧
    ¬ request.Straight inputs.now s.tables path fileId

/-! ## Simulation -/

/-- What a connection handles and what its counterpart does, which has not begun a request
whose path is resolved here. -/
inductive SameHandling (exchanges : List Exchange) (identity : ControlConnectionIdentity) :
    Option Handling → Option Handling → Prop where
  | same (handling : Option Handling) : SameHandling exchanges identity handling handling
  | resolved (stream clientId fileId : Nat) (request : ControlRequest) (path : String)
      (act : Nat → Handler) (isClient : identity = .client clientId)
      (isPath : request.path? = some (path, act)) (fits : fileId ≤ i64Max)
      (arrived : .arrived stream (.control request) ∈ exchanges) :
      SameHandling exchanges identity (some ⟨stream, act fileId⟩) (some ⟨stream, .start request⟩)

/-- Two connections with the same tasks, whose requests have all arrived. -/
structure Follows (exchanges : List Exchange) (conn conn' : ControlConnection) : Prop where
  same : conn' = { conn with handling := conn'.handling }
  handling : SameHandling exchanges conn.identity conn.handling conn'.handling
  waiting : ∀ task ∈ conn.waiting, .arrived task.stream task.request ∈ exchanges
  started : ∀ stream request, conn'.handling = some ⟨stream, .start request⟩ →
    .arrived stream (.control request) ∈ exchanges

/-- The two servers differ in their caches only, and the connections follow each other. -/
structure Simulates (s t : Central) : Prop where
  server : s.server.Alike SameTables t.server
  connections : SeqTable.Paired (Follows s.exchanges) s.connections t.connections
  streams : t.streams = s.streams
  exchanges : t.exchanges = s.exchanges

section Follows

variable {exchanges exchanges' : List Exchange} {conn conn' : ControlConnection}

theorem SameHandling.mono {identity : ControlConnectionIdentity} {left right : Option Handling}
    (same : SameHandling exchanges identity left right)
    (more : ∀ message ∈ exchanges, message ∈ exchanges') :
    SameHandling exchanges' identity left right := by
  cases same with
  | same => exact .same _
  | resolved stream clientId fileId request path act isClient isPath fits arrived =>
      exact .resolved stream clientId fileId request path act isClient isPath fits
        (more _ arrived)

theorem SameHandling.none_iff {identity : ControlConnectionIdentity} {left right : Option Handling}
    (same : SameHandling exchanges identity left right) : left = none ↔ right = none := by
  cases same with
  | same => exact Iff.rfl
  | resolved => simp

theorem SameHandling.isNone {identity : ControlConnectionIdentity} {left right : Option Handling}
    (same : SameHandling exchanges identity left right) : right.isNone = left.isNone := by
  cases same with
  | same => rfl
  | resolved => rfl

theorem Follows.mono (follows : Follows exchanges conn conn')
    (more : ∀ message ∈ exchanges, message ∈ exchanges') : Follows exchanges' conn conn' where
  same := follows.same
  handling := follows.handling.mono more
  waiting task member := more _ (follows.waiting task member)
  started stream request starts := more _ (follows.started stream request starts)

theorem Follows.connection (follows : Follows exchanges conn conn') :
    conn.connection = conn'.connection := by
  rw [follows.same]

/-- A connection that handles the same as its counterpart. -/
theorem Follows.of_same (waiting : ∀ task ∈ conn.waiting,
      .arrived task.stream task.request ∈ exchanges)
    (started : ∀ stream request, conn.handling = some ⟨stream, .start request⟩ →
      .arrived stream (.control request) ∈ exchanges) : Follows exchanges conn conn :=
  ⟨rfl, .same _, waiting, started⟩

end Follows

namespace Simulates

variable {s t : Central}

/-- Two connections that follow each other take the places of the ones they replace. -/
theorem replace (simulates : Simulates s t) {server server' : CentralServer}
    (alike : server.Alike SameTables server') {conn conn' : ControlConnection}
    {exchanges : List Exchange} (streams : Nat)
    (more : ∀ message ∈ s.exchanges, message ∈ exchanges)
    (follows : Follows exchanges conn conn') :
    Simulates ⟨server, s.connections.replace conn, streams, exchanges⟩
      ⟨server', t.connections.replace conn', streams, exchanges⟩ where
  server := alike
  connections := (simulates.connections.mono fun _ _ earlier => earlier.mono more).replace
    (fun _ _ earlier => earlier.connection) follows
  streams := rfl
  exchanges := rfl

theorem find? (simulates : Simulates s t) {c : Nat} {conn : ControlConnection}
    (found : s.connections.find? c = some conn) : ∃ handling,
      t.connections.find? c = some { conn with handling := handling } ∧
      Follows s.exchanges conn { conn with handling := handling } := by
  obtain ⟨conn', found', follows⟩ := simulates.connections.find?
    (fun _ _ earlier => earlier.connection) found
  refine ⟨conn'.handling, ?_, ?_⟩
  · rw [← follows.same]
    exact found'
  · rw [← follows.same]
    exact follows

variable {config : CentralConfig} {s' : Central} {e : CentralEvent}

theorem restart_alike {left right : CentralServer} (alike : left.Alike SameTables right) :
    (CentralServer.run (left.db.1, .new)).Alike SameTables
      (CentralServer.run (right.db.1, .new)) := by
  obtain ⟨db, rfl, same⟩ := alike
  exact ⟨(db.1, .new), rfl, same.tables, ⟨same.left.laws, DirCache.new_valid _⟩,
    ⟨same.right.laws, DirCache.new_valid _⟩⟩

/-- Dropping maps of both servers. -/
theorem maps_alike {left right : CentralServer} (alike : left.Alike SameTables right)
    {f : CentralServer → CentralServer}
    (blind : ∀ server db, f { server with db := db } = { f server with db := db })
    (keeps : ∀ server, (f server).db = server.db) : (f left).Alike SameTables (f right) := by
  obtain ⟨db, rfl, same⟩ := alike
  refine ⟨db, blind left db, ?_⟩
  rw [keeps]
  exact same

/-- An event that runs no section is the same event of the counterpart. -/
theorem step_other (simulates : Simulates s t) (taken : (central config).step s e = some s')
    (noRun : ∀ c inputs, e ≠ .run c inputs) :
    ∃ t', (atomicCentral config).step t e = some t' ∧ Simulates s' t' := by
  obtain ⟨server', connections', streams', exchanges'⟩ := t
  obtain ⟨alike, paired, streams, exchanges⟩ := simulates
  dsimp only at alike paired streams exchanges
  subst streams exchanges
  have simulates : Simulates s ⟨server', connections', s.streams, s.exchanges⟩ :=
    ⟨alike, paired, rfl, rfl⟩
  have kept : ∀ message ∈ s.exchanges, message ∈ s.exchanges := fun _ => id
  have found : ∀ {c conn}, s.connections.find? c = some conn → ∃ handling,
      connections'.find? c = some { conn with handling := handling } ∧
      Follows s.exchanges conn { conn with handling := handling } := simulates.find?
  cases e with
  | connect =>
      obtain rfl := Option.some.inj taken
      refine ⟨_, rfl, alike, paired.push (fun _ => rfl) fun n => ?_, rfl, rfl⟩
      exact .of_same (by simp [ControlConnection.new]) (by simp [ControlConnection.new])
  | restart =>
      obtain rfl := Option.some.inj taken
      exact ⟨_, rfl, restart_alike alike, paired.clear, rfl, rfl⟩
  | run c inputs => exact absurd rfl (noRun c inputs)
  | receive c request =>
      obtain ⟨conn, isConn, rest⟩ := Option.bind_eq_some_iff.mp taken
      obtain ⟨handling', found', follows⟩ := found isConn
      split at rest
      next accepting =>
        obtain rfl := Option.some.inj rest
        have more : ∀ message ∈ s.exchanges,
            message ∈ .arrived s.streams request :: s.exchanges := fun _ => List.mem_cons_of_mem _
        refine ⟨_, Option.bind_eq_some_iff.mpr ⟨_, found', if_pos accepting⟩,
          simulates.replace alike (s.streams + 1) more
            ⟨rfl, follows.handling.mono more, ?_, ?_⟩⟩
        · intro task member
          rcases List.mem_cons.mp member with rfl | member
          · exact List.mem_cons_self
          · exact more _ (follows.waiting task member)
        · exact fun stream request starts => more _ (follows.started stream request starts)
      · cases rest
  | lockIdentity c stream =>
      obtain ⟨conn, isConn, rest⟩ := Option.bind_eq_some_iff.mp taken
      obtain ⟨handling', found', follows⟩ := found isConn
      obtain ⟨⟨stream', request⟩, waits, locked⟩ := Option.bind_eq_some_iff.mp rest
      split at locked
      next unlocked =>
        obtain rfl := Option.some.inj locked
        have unlocked' : ({ conn with handling := handling' } : ControlConnection).unlocked := by
          unfold ControlConnection.unlocked at unlocked ⊢
          rw [follows.handling.isNone]
          exact unlocked
        have arrived := follows.waiting _ (List.mem_of_find?_eq_some waits)
        refine ⟨_, Option.bind_eq_some_iff.mpr ⟨_, found',
          Option.bind_eq_some_iff.mpr ⟨_, waits, if_pos unlocked'⟩⟩, ?_⟩
        cases request with
        | control request =>
            refine simulates.replace alike s.streams kept (.of_same ?_ ?_)
            · exact fun task member => follows.waiting task (List.mem_filter.mp member).1
            · intro other started starts
              obtain ⟨rfl, isStart⟩ := Handling.mk.inj (Option.some.inj starts)
              obtain rfl := Handler.start.inj isStart
              exact arrived
        | other =>
            have more : ∀ message ∈ s.exchanges,
                message ∈ Central.reply config stream' (.error .invalidRequest) :: s.exchanges :=
              fun _ => List.mem_cons_of_mem _
            refine simulates.replace alike s.streams more (.of_same ?_ ?_)
            · exact fun task member =>
                more _ (follows.waiting task (List.mem_filter.mp member).1)
            · intro other started starts
              cases starts
      · cases locked
  | acceptEnds c =>
      obtain ⟨conn, isConn, rest⟩ := Option.bind_eq_some_iff.mp taken
      obtain ⟨handling', found', follows⟩ := found isConn
      split at rest
      next accepting =>
        obtain rfl := Option.some.inj rest
        exact ⟨_, Option.bind_eq_some_iff.mpr ⟨_, found', if_pos accepting⟩,
          simulates.replace alike s.streams kept
            ⟨rfl, follows.handling, follows.waiting, follows.started⟩⟩
      · cases rest
  | dropWaiting c stream =>
      obtain ⟨conn, isConn, rest⟩ := Option.bind_eq_some_iff.mp taken
      obtain ⟨handling', found', follows⟩ := found isConn
      split at rest
      next ended =>
        obtain rfl := Option.some.inj rest
        exact ⟨_, Option.bind_eq_some_iff.mpr ⟨_, found', if_pos ended⟩,
          simulates.replace alike s.streams kept
            ⟨rfl, follows.handling, fun task member => follows.waiting task
              (List.mem_filter.mp member).1, follows.started⟩⟩
      · cases rest
  | abortHandler c =>
      obtain ⟨conn, isConn, rest⟩ := Option.bind_eq_some_iff.mp taken
      obtain ⟨handling', found', follows⟩ := found isConn
      obtain ⟨⟨stream, handler⟩, handles, rest⟩ := Option.bind_eq_some_iff.mp rest
      split at rest
      next aborts =>
        obtain rfl := Option.some.inj rest
        have same : handling' = some ⟨stream, handler⟩ := by
          have handling := follows.handling
          rw [handles] at handling
          cases handling with
          | same => rfl
          | resolved stream clientId fileId request path act isClient isPath fits arrived =>
              rw [ControlRequest.act_awaits isPath fileId] at aborts
              cases aborts.2
        refine ⟨_, Option.bind_eq_some_iff.mpr ⟨_, found',
          Option.bind_eq_some_iff.mpr ⟨_, same, if_pos aborts⟩⟩,
          simulates.replace alike s.streams kept (.of_same follows.waiting ?_)⟩
        intro other started starts
        cases starts
      · cases rest
  | unregister c =>
      obtain ⟨conn, isConn, rest⟩ := Option.bind_eq_some_iff.mp taken
      obtain ⟨handling', found', follows⟩ := found isConn
      split at rest
      next ends =>
        obtain rfl := Option.some.inj rest
        have ends' := And.intro ends.1 (follows.handling.none_iff.mp ends.2)
        refine ⟨_, Option.bind_eq_some_iff.mpr ⟨_, found', if_pos ends'⟩, ?_⟩
        obtain ⟨connection, phase, waiting, identity, handling⟩ := conn
        cases identity with
        | anonymous =>
            exact simulates.replace alike s.streams kept
              ⟨rfl, follows.handling, follows.waiting, follows.started⟩
        | client clientId =>
            have unregistered := maps_alike alike (f := CentralServer.unregisterClient clientId)
              (fun _ _ => rfl) fun _ => rfl
            exact simulates.replace unregistered s.streams kept
              ⟨rfl, follows.handling, follows.waiting, follows.started⟩
        | storage storageId =>
            have removed := maps_alike alike (f := CentralServer.removeStorage storageId)
              (fun _ _ => rfl) fun _ => rfl
            exact simulates.replace removed s.streams kept
              ⟨rfl, follows.handling, follows.waiting, follows.started⟩
      · cases rest
  | unmount c =>
      obtain ⟨conn, isConn, rest⟩ := Option.bind_eq_some_iff.mp taken
      obtain ⟨handling', found', follows⟩ := found isConn
      split at rest
      next storageId unmounting =>
        obtain rfl := Option.some.inj rest
        have unmounted := maps_alike alike (f := CentralServer.unmountStorage storageId)
          (fun _ _ => rfl) fun _ => rfl
        obtain ⟨connection, phase, waiting, identity, handling⟩ := conn
        obtain rfl : phase = .unmounting storageId := unmounting
        exact ⟨_, Option.bind_eq_some_iff.mpr ⟨_, found', rfl⟩,
          simulates.replace unmounted s.streams kept
            ⟨rfl, follows.handling, follows.waiting, follows.started⟩⟩
      · cases rest
  | finish c =>
      obtain ⟨conn, isConn, rest⟩ := Option.bind_eq_some_iff.mp taken
      obtain ⟨handling', found', follows⟩ := found isConn
      split at rest
      next unregistered =>
        obtain rfl := Option.some.inj rest
        exact ⟨_, Option.bind_eq_some_iff.mpr ⟨_, found', if_pos unregistered⟩,
          simulates.replace alike s.streams kept
            ⟨rfl, follows.handling, follows.waiting, follows.started⟩⟩
      · cases rest

/-- Two results with the same value or error, on servers that are alike. -/
structure EndsAlike (left right : EStateM.Result Fs0Error CentralServer Progress) : Prop where
  outcome : Lib.outcome left = Lib.outcome right
  server : (endState left).Alike SameTables (endState right)

theorem resume_endsAlike {inputs : Inputs} {connection : Nat}
    {identity : ControlConnectionIdentity} {handler : Handler} {left right : CentralServer}
    (alike : left.Alike SameTables right) (kept : ∀ tx, handler.transaction inputs identity =
      some tx → ¬ tx.LosesDir inputs.commit left.db.1) :
    EndsAlike (handler.resume config inputs connection identity left)
      (handler.resume config inputs connection identity right) := by
  have mirrors := Handler.resume_mirrors config inputs connection identity handler
  refine ⟨mirrors.outcome_eq alike, ?_⟩
  have ends := mirrors _ _ alike
  obtain ⟨db, rfl, same⟩ := alike
  have soundLeft := (Handler.resume_sound config inputs same.left connection identity handler
    kept left rfl).1
  have soundRight := (Handler.resume_sound config inputs same.right connection identity handler
    (same.tables ▸ kept) { left with db := db } rfl).1
  have equal : (endState (handler.resume config inputs connection identity left)).Alike
      EqualTables (endState (handler.resume config inputs connection identity
        { left with db := db })) := by
    cases ranLeft : handler.resume config inputs connection identity left <;>
      cases ranRight : handler.resume config inputs connection identity { left with db := db } <;>
        rw [ranLeft, ranRight] at ends
    · exact ends.2
    · exact ends.elim
    · exact ends.elim
    · exact ends.2
  obtain ⟨db', isRight, tables⟩ := equal
  rw [isRight] at soundRight
  exact ⟨db', isRight, tables, soundLeft, soundRight⟩

/-- Both handlers go on alike. -/
theorem advance (simulates : Simulates s t) {conn : ControlConnection}
    {handling' : Option Handling}
    (follows : Follows s.exchanges conn { conn with handling := handling' }) (stream : Nat)
    {left right : EStateM.Result Fs0Error CentralServer Progress} (ends : EndsAlike left right)
    (advances : ∀ progress server, left = .ok progress server → progress.Advances) :
    Simulates (s.advance config conn stream left)
      (t.advance config { conn with handling := handling' } stream right) := by
  obtain ⟨server', connections', streams', exchanges'⟩ := t
  obtain ⟨alike, paired, streams, exchanges⟩ := simulates
  dsimp only at alike paired streams exchanges
  subst streams exchanges
  have simulates : Simulates s ⟨server', connections', s.streams, s.exchanges⟩ :=
    ⟨alike, paired, rfl, rfl⟩
  have kept : ∀ message ∈ s.exchanges, message ∈ s.exchanges := fun _ => id
  have answered : ∀ response message, message ∈ s.exchanges →
      message ∈ Central.reply config stream response :: s.exchanges := fun _ _ => List.mem_cons_of_mem _
  obtain ⟨same, ended⟩ := ends
  have notStarted : ∀ {handler : Handler} {other : Nat} {request : ControlRequest},
      (Progress.next handler).Advances →
      some (⟨stream, handler⟩ : Handling) = some ⟨other, .start request⟩ → False := by
    intro handler other request advances starts
    obtain ⟨-, rfl⟩ := Handling.mk.inj (Option.some.inj starts)
    exact advances
  cases left with
  | error err l =>
      cases right with
      | ok progress r => cases same
      | error err' r =>
          obtain rfl := Except.error.inj same
          refine simulates.replace ended s.streams (answered _) (.of_same ?_ ?_)
          · exact fun task member => answered _ _ (follows.waiting task member)
          · intro other request starts
            cases starts
  | ok progress l =>
      cases right with
      | error err r => cases same
      | ok progress' r =>
          obtain rfl := Except.ok.inj same
          have going := advances progress l rfl
          cases progress with
          | next handler =>
              refine simulates.replace ended s.streams kept (.of_same follows.waiting ?_)
              exact fun other request starts => (notStarted going starts).elim
          | identify identity handler =>
              refine simulates.replace ended s.streams kept (.of_same follows.waiting ?_)
              refine fun other request starts => (notStarted ?_ starts).elim
              cases handler <;> trivial
          | respond response =>
              refine simulates.replace ended s.streams (answered _) (.of_same ?_ ?_)
              · exact fun task member => answered _ _ (follows.waiting task member)
              · intro other request starts
                cases starts

/-- Changing the caches of two servers that are alike. -/
theorem caches_alike {left right : CentralServer} (alike : left.Alike SameTables right)
    {db db' : CentralDb} (same : db.1 = left.db.1) (same' : db'.1 = right.db.1)
    (consistent : Consistent db) (consistent' : Consistent db') :
    ({ left with db := db } : CentralServer).Alike SameTables { right with db := db' } := by
  obtain ⟨_, rfl, sameTables⟩ := alike
  exact ⟨db', rfl, same.trans (sameTables.tables.trans same'.symm), consistent, consistent'⟩

theorem consistent_of_alike {left right : CentralServer} (alike : left.Alike SameTables right) :
    Consistent left.db ∧ Consistent right.db ∧ right.db.1 = left.db.1 := by
  obtain ⟨db, rfl, same⟩ := alike
  exact ⟨same.left, same.right, same.tables.symm⟩

/-- A client's request for a path, in one section. -/
theorem atomic_run (config : CentralConfig) {c clientId stream : Nat} (inputs : Inputs)
    {conn : ControlConnection}
    {request : ControlRequest} {path : String} {act : Nat → Handler}
    (isClient : conn.identity = .client clientId)
    (found : t.connections.find? c = some { conn with handling := some ⟨stream, .start request⟩ })
    (isPath : request.path? = some (path, act)) :
    (atomicCentral config).step t (.run c inputs) = some (t.advance config
      { conn with handling := some ⟨stream, .start request⟩ } stream ((do
        let fileId ← ClientRequest.fileIdByPath path
        (act fileId).resume config inputs c conn.identity) t.server)) := by
  have resumes : (Handler.start request).resumeAtomic config inputs c conn.identity = (do
      let fileId ← ClientRequest.fileIdByPath path
      (act fileId).resume config inputs c conn.identity) := by
    rw [isClient]
    exact Handler.resumeAtomic_path isPath
  rw [← resumes]
  exact Option.bind_eq_some_iff.mpr ⟨_, found, rfl⟩

/-- A section of a request whose path is to be resolved: it fails on both sides, or the
counterpart waits until it acts. -/
theorem step_resolving (simulates : Simulates s t) {c clientId stream : Nat}
    {conn : ControlConnection} {request : ControlRequest} {path : String} {act : Nat → Handler}
    (isClient : conn.identity = .client clientId)
    (found' : t.connections.find? c =
      some { conn with handling := some ⟨stream, .start request⟩ })
    (follows : Follows s.exchanges conn { conn with handling := some ⟨stream, .start request⟩ })
    (isPath : request.path? = some (path, act)) (inputs : Inputs) :
    ∃ t', Simulates (s.advance config conn stream (CentralM.resolving path act s.server)) t' ∧
      (t' = t ∨ (atomicCentral config).step t (.run c inputs) = some t') := by
  have step := atomic_run config inputs isClient found' isPath
  have alike := simulates.server
  obtain ⟨leftConsistent, rightConsistent, equal⟩ := consistent_of_alike alike
  obtain ⟨db, same, consistent, looked⟩ := ClientRequest.fileIdByPath_eq leftConsistent path
  obtain ⟨db', same', consistent', looked'⟩ := ClientRequest.fileIdByPath_eq rightConsistent path
  have changed := caches_alike alike same same' consistent consistent'
  rw [equal] at looked'
  unfold CentralM.resolving
  cases resolved : s.server.db.1.fileByPath path with
  | error err =>
      rw [resolved] at looked looked'
      refine ⟨_, simulates.advance follows stream ⟨?_, ?_⟩ ?_, .inr step⟩
      · rw [bind_of_error looked, bind_of_error looked']
        rfl
      · rw [bind_of_error looked, bind_of_error looked']
        exact changed
      · intro progress server ran
        rw [bind_of_error looked] at ran
        cases ran
  | ok file =>
      rw [resolved] at looked
      refine ⟨t, ?_, .inl rfl⟩
      rw [bind_of_ok looked]
      have fileAt := leftConsistent.laws.fileByPath_eq_ok.mp resolved
      have fits := (s.server.db.1.files.le_seq file fileAt.1).trans
        leftConsistent.laws.file_seq_fits
      have waits : Follows s.exchanges { conn with handling := some ⟨stream, act file.fileId⟩ }
          { conn with handling := some ⟨stream, .start request⟩ } :=
        ⟨rfl, .resolved stream clientId file.fileId request path act isClient isPath fits
          (follows.started stream request rfl), follows.waiting, follows.started⟩
      exact ⟨caches_alike alike same rfl consistent rightConsistent,
        simulates.connections.replace_left (fun _ _ earlier => earlier.connection)
          (Table.mem_of_find? found').1 waits, simulates.streams, simulates.exchanges⟩

/-- The second section of a request for a path, which the counterpart runs as a whole. -/
theorem step_resolved (simulates : Simulates s t) {c clientId stream fileId : Nat}
    {inputs : Inputs} {conn : ControlConnection} {request : ControlRequest} {path : String}
    {act : Nat → Handler} (isClient : conn.identity = .client clientId)
    (found' : t.connections.find? c =
      some { conn with handling := some ⟨stream, .start request⟩ })
    (follows : Follows s.exchanges conn { conn with handling := some ⟨stream, .start request⟩ })
    (isPath : request.path? = some (path, act)) (fits : fileId ≤ i64Max)
    (straight : request.Straight inputs.now s.tables path fileId)
    (kept : ∀ tx, (act fileId).transaction inputs conn.identity = some tx →
      ¬ tx.LosesDir inputs.commit s.server.db.1) :
    ∃ t', Simulates (s.advance config conn stream
        ((act fileId).resume config inputs c conn.identity s.server)) t' ∧
      (atomicCentral config).step t (.run c inputs) = some t' := by
  have step := atomic_run config inputs isClient found' isPath
  have alike := simulates.server
  obtain ⟨leftConsistent, rightConsistent, equal⟩ := consistent_of_alike alike
  obtain ⟨db', same', consistent', looked'⟩ := ClientRequest.fileIdByPath_eq rightConsistent path
  have changed := caches_alike alike rfl same' leftConsistent consistent'
  rw [equal] at looked'
  have advances := fun progress server => Handler.resume_advances config inputs c conn.identity
    (act fileId) s.server progress server
  rcases straight with ⟨file, resolved, rfl⟩ | ⟨absent, unresolved, only⟩
  · have resolved : s.server.db.1.fileByPath path = .ok file := resolved
    rw [resolved] at looked'
    rw [bind_of_ok looked'] at step
    exact ⟨_, simulates.advance follows stream (resume_endsAlike changed kept) advances, step⟩
  · have unresolved : s.server.db.1.fileByPath path = .error .notFound := unresolved
    rw [unresolved] at looked'
    have failing : ∃ db, db.1 = s.server.db.1 ∧
        (act fileId).resume config inputs c conn.identity s.server =
          .error .notFound { s.server with db := db } :=
      ControlRequest.act_of_absent isPath leftConsistent fits absent only
    obtain ⟨db, same, failed⟩ := failing
    have sound := (Handler.resume_sound config inputs leftConsistent c conn.identity (act fileId)
      kept s.server rfl).1
    rw [failed] at sound advances ⊢
    rw [bind_of_error looked'] at step
    have ends : EndsAlike (.error .notFound { s.server with db := db })
        (.error .notFound { t.server with db := db' }) :=
      ⟨rfl, caches_alike alike same same' sound consistent'⟩
    exact ⟨_, simulates.advance follows stream ends advances, step⟩

/-- A section is run by the counterpart as well, unless it resolves a path. -/
theorem step_run (simulates : Simulates s t) {c : Nat} {inputs : Inputs}
    (kept : ¬ s.LosesDir (.run c inputs)) (straight : ¬ s.Strays (.run c inputs))
    (taken : (central config).step s (.run c inputs) = some s') :
    ∃ t', Simulates s' t' ∧ (t' = t ∨ (atomicCentral config).step t (.run c inputs) = some t') := by
  obtain ⟨conn, ⟨stream, handler⟩, result, runs, rfl⟩ := Central.step_run taken
  obtain ⟨handling', found', follows⟩ := simulates.find? runs.found
  have keeps : ∀ tx, handler.transaction inputs conn.identity = some tx →
      ¬ tx.LosesDir inputs.commit s.tables := fun tx isTx loses =>
    kept ⟨c, inputs, tx, rfl, runs.transaction_eq.trans isTx, loses⟩
  have handling := follows.handling
  rw [runs.handles] at handling
  dsimp only at handling
  rw [← runs.ran]
  dsimp only
  cases handling with
  | same =>
      by_cases resolves : ∃ clientId request path act, conn.identity = .client clientId ∧
        handler = .start request ∧ request.path? = some (path, act)
      · obtain ⟨clientId, request, path, act, isClient, rfl, isPath⟩ := resolves
        have resumes : (Handler.start request).resume config inputs c conn.identity =
            CentralM.resolving path act := by
          rw [isClient]
          exact ControlRequest.resume_start isPath
        rw [resumes]
        exact simulates.step_resolving isClient found' follows isPath inputs
      · have other : ∀ clientId request, conn.identity = .client clientId →
            handler = .start request → request.path? = none := by
          intro clientId request isClient isStart
          cases isPath : request.path? with
          | none => rfl
          | some resolved =>
              exact absurd ⟨clientId, request, resolved.1, resolved.2, isClient, isStart, isPath⟩
                resolves
        have step : (atomicCentral config).step t (.run c inputs) = some (t.advance config
            { conn with handling := some ⟨stream, handler⟩ } stream
            (handler.resumeAtomic config inputs c conn.identity t.server)) :=
          Option.bind_eq_some_iff.mpr ⟨_, found', rfl⟩
        rw [Handler.resumeAtomic_other other] at step
        exact ⟨_, simulates.advance follows stream (resume_endsAlike simulates.server keeps)
          (fun progress server => Handler.resume_advances config inputs c conn.identity handler
            s.server progress server), .inr step⟩
  | resolved stream clientId fileId request path act isClient isPath fits arrived =>
      have straight : request.Straight inputs.now s.tables path fileId := by
        by_contra strays
        exact straight ⟨c, inputs, conn, stream, request, path, act, fileId, rfl, runs.found,
          runs.handles, arrived, isPath, strays⟩
      obtain ⟨t', simulates', step⟩ :=
        simulates.step_resolved isClient found' follows isPath fits straight keeps
      exact ⟨t', simulates', .inr step⟩

end Simulates

/-! ## Runs -/

/-- Central is simulated by the one with requests for a path in one section, as long as no
section strays and no directory is lost. -/
theorem simulation (config : CentralConfig) : Simulation (central config) (atomicCentral config)
    (fun s e => ¬ s.LosesDir e ∧ ¬ s.Strays e) Simulates where
  init := by
    rintro _ rfl
    exact ⟨Central.initial, rfl, ⟨_, rfl, .refl open_consistent⟩, SeqTable.paired_empty, rfl, rfl⟩
  step := by
    rintro s t e s' simulates ⟨kept, straight⟩ taken
    by_cases isRun : ∃ c inputs, e = .run c inputs
    · obtain ⟨c, inputs, rfl⟩ := isRun
      obtain ⟨t', simulates', same | step⟩ := simulates.step_run kept straight taken
      · exact ⟨t', simulates', .inl same⟩
      · exact ⟨t', simulates', .inr ⟨_, step⟩⟩
    · obtain ⟨t', step, simulates'⟩ := simulates.step_other taken fun c inputs same =>
        isRun ⟨c, inputs, same⟩
      exact ⟨t', simulates', .inr ⟨e, step⟩⟩

namespace Central

/-- Central reaches a state with these messages and tables when every request for a path runs
in one section. -/
def LooksAtomic (config : CentralConfig) (s : Central) : Prop :=
  ∃ t, (atomicCentral config).Reachable t ∧ t.exchanges = s.exchanges ∧ t.tables = s.tables

/-- A request to delete the file at a path removes no file that is elsewhere. -/
def DeletesAtPath (t : Transition Central CentralEvent) : Prop :=
  ∀ c inputs conn stream fileId path, t.event = .run c inputs →
    t.pre.connections.find? c = some conn →
    conn.handling = some ⟨stream, .deleteFileById fileId⟩ →
    .arrived stream (.control (.deleteFile path)) ∈ t.pre.exchanges →
    ∀ file ∈ t.pre.tables.files.rows, file ∉ t.post.tables.files.rows →
      t.pre.tables.FileAt path file

theorem deletesAtPath {config : CentralConfig} {s s' : Central} {e : CentralEvent}
    (consistent : Consistent s.server.db) (straight : ¬ s.Strays e)
    (taken : (central config).step s e = some s') : DeletesAtPath ⟨s, e, s'⟩ := by
  intro c inputs conn stream fileId path isRun found handles arrived file member gone
  dsimp only at isRun found arrived member gone ⊢
  subst isRun
  have names : (ControlRequest.deleteFile path).Straight inputs.now s.tables path fileId := by
    by_contra strays
    exact straight ⟨c, inputs, conn, stream, .deleteFile path, path, .deleteFileById, fileId, rfl,
      found, handles, arrived, rfl, strays⟩
  have isTransaction : s.transaction (.run c inputs) = some (.deleteFile fileId inputs.now) := by
    simp [transaction, found, handles, Handler.transaction]
  rcases step_tables taken with same | ⟨tx, isTx, effect⟩
  · rw [same] at gone
    exact absurd member gone
  · obtain rfl := Option.some.inj (isTx.symm.trans isTransaction)
    obtain ⟨-, after⟩ : FileDeleted s.tables s'.tables fileId inputs.now := effect
    have own : file.fileId = fileId := by
      by_contra other
      refine gone ?_
      rw [after]
      exact SeqTable.mem_delete.mpr ⟨member, beq_false_of_ne other⟩
    rcases names with ⟨named, resolved, isNamed⟩ | ⟨absent, -, -⟩
    · have namedAt := consistent.laws.fileByPath_eq_ok.mp resolved
      have same : file = named := Table.eq_of_key_eq member namedAt.1 (own.trans isNamed.symm)
      exact same ▸ namedAt
    · exact absurd own (Table.find?_eq_none.mp absent file member)

end Central

/-- Every state looks as if each request for a path had run as one step between its arrival
and its answer, and no request to delete a path removes a file that is elsewhere. -/
structure PathsAtomic (config : CentralConfig) (ts : List (Transition Central CentralEvent))
    (s : Central) : Prop where
  atomic : ∀ x ∈ visited ts s, x.LooksAtomic config
  deletes : ∀ t ∈ ts, Central.DeletesAtPath t

/-- Requests for a path are atomic in every run in which no section acts for a path on a file
that the path no longer names, and no `COMMIT` fails after a directory was made. -/
theorem pathsAtomic_of_run {config : CentralConfig} {s : Central}
    {ts : List (Transition Central CentralEvent)} (run : (central config).Run ts s)
    (kept : ∀ t ∈ ts, ¬ t.pre.LosesDir t.event) (straight : ∀ t ∈ ts, ¬ t.pre.Strays t.event) :
    PathsAtomic config ts s where
  atomic x member := by
    obtain ⟨t, reachable, simulates⟩ := (simulation config).reaches run
      (fun t among => ⟨kept t among, straight t among⟩) x member
    exact ⟨t, reachable, simulates.exchanges, (Simulates.consistent_of_alike simulates.server).2.2⟩
  deletes t member := by
    have visits : t.pre ∈ visited ts s := List.mem_cons_of_mem _ (List.mem_map_of_mem member)
    exact Central.deletesAtPath (Central.consistent_of_run run kept _ visits) (straight t member)
      (run.of_mem member).2

namespace Scenario

/-- An update of `/a` is begun, and a second client is on connection 3. -/
def twoClients : List CentralEvent :=
  registered ++ request 1 3 4 2 (.beginUpdate ⟨"/a", 0, none, none⟩) ++ [.connect] ++
    request 3 4 4 2 (.registerClient none "token" "0.2.4")

/-- The first client asks to delete `/a`, and the path is resolved before the second client
asks for something. -/
def deletedMeanwhile (other : ControlRequest) : List CentralEvent :=
  twoClients ++ [.receive 1 (.control (.deleteFile "/a")), .lockIdentity 1 5,
    .run 1 (inputs 3)] ++ request 3 6 2 4 other

def actsOn : Handler → Option Nat
  | .getFileReadPlanById fileId => some fileId
  | .deleteFileById fileId => some fileId
  | .copyFileById fileId _ => some fileId
  | .renameFileById fileId _ => some fileId
  | _ => none

/-- The path names the file, or neither is there. -/
def stillNames (tables : CentralTables) (path : String) (fileId : Nat) : Bool :=
  decide ((tables.fileByPath path).map FileRow.fileId = .ok fileId) ||
    (tables.files.find? fileId).isNone && decide (tables.fileByPath path = .error .notFound)

/-- Neither loses a directory nor acts for a path on a file elsewhere. -/
def keepsPaths (s : Central) (e : CentralEvent) : Bool :=
  keepsDirs s e && match e with
    | .run c _ => ((s.connections.find? c).bind ControlConnection.handling).all fun handling =>
        (actsOn handling.handler).all fun fileId => s.exchanges.all fun
          | .arrived stream (.control (.deleteFile path)) =>
              stream != handling.stream || stillNames s.tables path fileId
          | .arrived stream (.control request) =>
              stream != handling.stream || request.path?.isNone
          | _ => true
    | _ => true

theorem straight_of_stillNames {tables : CentralTables} {path : String} {fileId : Nat} (now : Nat)
    (still : stillNames tables path fileId = true) :
    (ControlRequest.deleteFile path).Straight now tables path fileId := by
  rcases Bool.or_eq_true_iff.mp still with named | gone
  · left
    have named := of_decide_eq_true named
    cases resolved : tables.fileByPath path with
    | error err =>
        rw [resolved] at named
        cases named
    | ok file =>
        rw [resolved] at named
        exact ⟨file, rfl, Except.ok.inj named⟩
  · obtain ⟨absent, unresolved⟩ := Bool.and_eq_true_iff.mp gone
    exact .inr ⟨Option.isNone_iff_eq_none.mp absent, of_decide_eq_true unresolved, trivial⟩

theorem not_strays {s : Central} {e : CentralEvent} (keeps : keepsPaths s e = true) :
    ¬ s.Strays e := by
  rintro ⟨c, inputs, conn, stream, request, path, act, fileId, rfl, found, handles, arrived,
    isPath, strays⟩
  obtain ⟨-, checks⟩ := Bool.and_eq_true_iff.mp keeps
  dsimp only at checks
  rw [found, Option.bind_some, handles, Option.all_some] at checks
  have acts : actsOn (act fileId) = some fileId := by
    rcases ControlRequest.path?_cases isPath with
      ⟨-, rfl⟩ | ⟨-, rfl⟩ | ⟨targetPath, -, rfl⟩ | ⟨targetPath, -, rfl⟩ <;> rfl
  dsimp only at checks
  rw [acts, Option.all_some] at checks
  have checked := List.all_eq_true.mp checks _ arrived
  rcases ControlRequest.path?_cases isPath with
    ⟨rfl, -⟩ | ⟨rfl, -⟩ | ⟨targetPath, rfl, -⟩ | ⟨targetPath, rfl, -⟩
  · simp [ControlRequest.path?] at checked
  · exact strays (straight_of_stillNames _ (by simpa using checked))
  · simp [ControlRequest.path?] at checked
  · simp [ControlRequest.path?] at checked

end Scenario

/-- Both clients ask to delete `/a`, and both requests find it: one of them is answered that
there is no such file. -/
theorem pathsAtomic_of_run_bothDelete : ∃ ts s, (central Scenario.config).Run ts s ∧
    .answered 5 (.error .notFound) ∈ s.exchanges ∧ PathsAtomic Scenario.config ts s := by
  obtain ⟨ts, s, run, kept, answered⟩ := Scenario.run_of_execWhile Scenario.keepsPaths
    (Scenario.deletedMeanwhile (.deleteFile "/a") ++ [.run 1 (Scenario.inputs 5)])
    (fun s => decide (.answered 5 (.error .notFound) ∈ s.exchanges)) true (by decide +kernel)
  refine ⟨ts, s, run, of_decide_eq_true answered, pathsAtomic_of_run run ?_ ?_⟩
  · exact fun t member => Scenario.not_losesDir (Bool.and_eq_true_iff.mp (kept t member)).1
  · exact fun t member => Scenario.not_strays (kept t member)

/-- While `/a` is resolved for its deletion the file is renamed: the file at `/b` is deleted. -/
theorem pathsAtomic_not_renamedMeanwhile : ¬ ∀ ts s, (central Scenario.config).Run ts s →
    PathsAtomic Scenario.config ts s := by
  intro claimed
  obtain ⟨ts, s, run, kept, ends⟩ := Scenario.run_of_execWhile Scenario.keepsDirs
    (Scenario.deletedMeanwhile (.renameFile "/a" "/b"))
    (fun s => decide (
      (s.connections.find? 1).bind ControlConnection.handling = some ⟨5, .deleteFileById 1⟩ ∧
      .arrived 5 (.control (.deleteFile "/a")) ∈ s.exchanges ∧
      s.tables.fileByPath "/a" = .error .notFound ∧ s.tables.files.rows.length = 1 ∧
      ((central Scenario.config).step s (.run 1 (Scenario.inputs 5))).map
        (fun s' => s'.tables.files.rows) = some [])) true (by decide +kernel)
  obtain ⟨handles, arrived, unresolved, one, deleted⟩ := of_decide_eq_true ends
  obtain ⟨conn, found, handles⟩ := Option.bind_eq_some_iff.mp handles
  obtain ⟨s', taken, rows⟩ := Option.map_eq_some_iff.mp deleted
  obtain ⟨file, isFile⟩ := List.length_eq_one_iff.mp one
  have member : file ∈ s.tables.files.rows := isFile ▸ List.mem_singleton_self file
  have gone : file ∉ s'.tables.files.rows := by simp [rows]
  have deletes := (claimed _ s' (run.step taken)).deletes _ List.mem_cons_self
  have fileAt := deletes 1 _ conn 5 1 "/a" rfl found handles arrived file member gone
  have consistent := Central.consistent_of_run run
    (fun t among => Scenario.not_losesDir (kept t among)) s List.mem_cons_self
  cases (consistent.laws.fileByPath_eq_ok.mpr fileAt).symm.trans unresolved

end Fs0
