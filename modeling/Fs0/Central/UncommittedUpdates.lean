import Fs0.Central.CacheRuns
import Fs0.Central.DirCacheRuns
import Fs0.Central.VolumeIsolation

/-!
Contract: what an update that is never committed leaves in the namespace.

Owns:
- the sections of an update that is refused, expires or is aborted, with no other request
  between them;
- the directories and files it leaves: those of before, and the empty file created for a new
  path when the lease was recorded.

Does not own: the sections of single requests, and what a commit does to a file.
-/

set_option autoImplicit false

namespace Fs0

open Lib Fallible

/-! ## Sections with nothing between them -/

/-- Each section starts on the database that the one before it has left. -/
def Alone (before : CentralDb) : List RequestSection → CentralDb → Prop
  | [], after => after = before
  | x :: rest, after => x.before.db = before ∧ Alone x.after.db rest after

theorem Alone.append {before after : CentralDb} {first second : List RequestSection}
    (alone : Alone before (first ++ second) after) :
    ∃ mid, Alone before first mid ∧ Alone mid second after := by
  induction first generalizing before with
  | nil => exact ⟨before, rfl, alone⟩
  | cons x rest inductionHypothesis =>
      obtain ⟨starts, later⟩ := alone
      obtain ⟨mid, head, tail⟩ := inductionHypothesis later
      exact ⟨mid, ⟨starts, head⟩, tail⟩

/-- The sections of an update that never commits: it is refused, or its lease expires or is
aborted. -/
inductive UncommittedUpdate (config : CentralConfig) (request : BeginUpdateRequest) :
    List RequestSection → Prop where
  | refused {c stream : Nat} {identity : ControlConnectionIdentity}
      {sections : List RequestSection} {err : Fs0Error}
      (run : RequestRun config c stream identity (.start (.beginUpdate request)) sections
        (.error err)) : UncommittedUpdate config request sections
  | expired {c stream : Nat} {identity : ControlConnectionIdentity}
      {sections : List RequestSection} {lease : UpdateLease}
      (run : RequestRun config c stream identity (.start (.beginUpdate request)) sections
        (.ok (.beginUpdate lease))) : UncommittedUpdate config request sections
  | aborted {c stream other otherStream : Nat} {identity otherIdentity : ControlConnectionIdentity}
      {sections aborting : List RequestSection} {lease : UpdateLease}
      {answer : Fs0Result ControlResponse}
      (run : RequestRun config c stream identity (.start (.beginUpdate request)) sections
        (.ok (.beginUpdate lease)))
      (abort : RequestRun config other otherStream otherIdentity
        (.start (.abortUpdate lease.leaseId lease.fileId)) aborting answer) :
      UncommittedUpdate config request (sections ++ aborting)

/-! ## What the namespace is -/

/-- A run in which no directory was lost to a failed `COMMIT` has led to the database. -/
def NoDirLost (config : CentralConfig) (db : CentralDb) : Prop :=
  ∃ ts s, (central config).Run ts s ∧ (∀ t ∈ ts, ¬ t.pre.LosesDir t.event) ∧ s.server.db = db

theorem NoDirLost.consistent {config : CentralConfig} {db : CentralDb}
    (noneLost : NoDirLost config db) : Consistent db := by
  obtain ⟨ts, s, run, kept, rfl⟩ := noneLost
  exact Central.consistent_of_run run kept s List.mem_cons_self

/-- The same directories and files, also as they are looked up, if the cache was valid. -/
structure SameNamespace (before after : CentralDb) : Prop where
  dirs : after.1.dirs = before.1.dirs
  files : after.1.files = before.1.files
  found : Consistent before → ∀ path,
    outcome (CentralTx.getFileByPath path after) = outcome (CentralTx.getFileByPath path before)
  listed : Consistent before → ∀ dir limit cursor,
    outcome (CentralTx.listDirectory dir limit cursor after) =
      outcome (CentralTx.listDirectory dir limit cursor before)

section Lookups

variable {before after : CentralDb}

theorem walkDown_congr {left right : CentralTables} (dirs : right.dirs = left.dirs)
    (names : List String) (dirId : Nat) :
    right.walkDown names dirId = left.walkDown names dirId := by
  have child : ∀ parent name, right.childDir parent name = left.childDir parent name := by
    intro parent name
    unfold CentralTables.childDir
    rw [dirs]
  induction names generalizing dirId with
  | nil => rfl
  | cons name rest inductionHypothesis =>
      unfold CentralTables.walkDown
      simp only [child, inductionHypothesis]

theorem dirIdByPath_congr {left right : CentralTables} (dirs : right.dirs = left.dirs)
    (path : String) : right.dirIdByPath path = left.dirIdByPath path := by
  unfold CentralTables.dirIdByPath
  simp only [walkDown_congr dirs]

/-- The databases have the same files. -/
def SameFiles (left right : CentralDb) : Prop := left.1.files = right.1.files

theorem query_sameFiles {α : Type} {select : CentralTables → α}
    (reads : ∀ left right : CentralTables, left.files = right.files → select left = select right) :
    Respects SameFiles (CentralTx.query select) :=
  fun left right same => ⟨reads left.1 right.1 same, same⟩

/-- A page is read from the rows of the files. -/
theorem listDirectory_congr {db db' resolved resolved' : CentralDb} {dir : String} {dirId : Nat}
    (leads : CentralTx.getDirIdByPath dir db = .ok dirId resolved)
    (leads' : CentralTx.getDirIdByPath dir db' = .ok dirId resolved')
    (files : resolved'.1.files = resolved.1.files) (limit : Nat) (cursor : Option Nat) :
    outcome (CentralTx.listDirectory dir limit cursor db') =
      outcome (CentralTx.listDirectory dir limit cursor db) := by
  unfold CentralTx.listDirectory
  rw [bind_of_ok leads, bind_of_ok leads']
  refine Agree.outcome_eq (R := SameFiles) (Q := fun _ => SameFiles) (E := SameFiles) ?_ files
  refine Respects.bind Respects.lift fun id => ?_
  refine Respects.bind Respects.lift fun rowLimit => ?_
  refine Respects.bind Respects.lift fun skipped => ?_
  refine Respects.bind (query_sameFiles fun left right same => by rw [same]) fun rows => ?_
  refine Respects.bind Respects.lift fun entries => ?_
  split <;> exact Respects.pure

theorem SameNamespace.of_tables (dirs : after.1.dirs = before.1.dirs)
    (files : after.1.files = before.1.files) (keeps : Consistent before → Consistent after) :
    SameNamespace before after where
  dirs := dirs
  files := files
  found := by
      intro consistent path
      have consistent' := keeps consistent
      obtain ⟨_, -, -, found⟩ := CentralTx.getFileByPath_eq consistent path
      obtain ⟨_, -, -, found'⟩ := CentralTx.getFileByPath_eq consistent' path
      have same : after.1.fileByPath path = before.1.fileByPath path := by
        unfold CentralTables.fileByPath CentralTables.childFile
        simp only [dirIdByPath_congr dirs, files]
      rw [found, found', same]
      cases before.1.fileByPath path <;> rfl
  listed := by
      intro consistent dir limit cursor
      have consistent' := keeps consistent
      obtain ⟨db, same, -, resolved⟩ := CentralTx.getDirIdByPath_eq consistent dir
      obtain ⟨db', same', -, resolved'⟩ := CentralTx.getDirIdByPath_eq consistent' dir
      rw [dirIdByPath_congr dirs] at resolved'
      cases leads : before.1.dirIdByPath dir with
      | error err =>
          rw [leads] at resolved resolved'
          unfold CentralTx.listDirectory
          rw [bind_of_error resolved, bind_of_error resolved']
          rfl
      | ok dirId =>
          rw [leads] at resolved resolved'
          apply listDirectory_congr resolved resolved'
          rw [same, same', files]

end Lookups

/-! ## What is left -/

/-- No file was found for the update, and its lease was recorded. -/
def BegunAnew (request : BeginUpdateRequest) (before after : CentralDb) : Prop :=
  outcome (CentralTx.getFileByPath request.path before) = .error .notFound ∧
    before.1.updateLeases.seq < after.1.updateLeases.seq

/-- The directories and files of before, and what `create_file` adds for the path. If the cache
was valid, the file is at the path. -/
structure EmptyFileLeft (path : String) (before after : CentralDb) (now : Nat) (file : FileRow) :
    Prop where
  empty : file.sizeBytes = 0
  files : after.1.files.rows = before.1.files.rows ++ [file]
  created : ∃ looked db, looked.1 = before.1 ∧
    CentralTx.createFile path now looked = .ok file db ∧
    after.1.dirs = db.1.dirs ∧ after.1.files = db.1.files
  added : Consistent before → ∃ tables, CentralTx.FileAdded before.1 path 0 0 now file tables ∧
    after.1.dirs = tables.dirs ∧ after.1.files = tables.files

/-- What an update that never commits leaves. -/
structure NamespaceLeft (request : BeginUpdateRequest) (before after : CentralDb) : Prop where
  kept : ¬ BegunAnew request before after → SameNamespace before after
  created : BegunAnew request before after →
    request.offset = 0 ∧ ∃ now file, EmptyFileLeft request.path before after now file
  consistent : Consistent before → Consistent after
  others : after.1 = { before.1 with
    dirs := after.1.dirs
    files := after.1.files
    updateLeases := after.1.updateLeases }

/-- Only rows of leases were deleted. -/
structure LeasesEnded (before after : CentralTables) : Prop where
  others : after = { before with updateLeases := after.updateLeases }
  seq : after.updateLeases.seq = before.updateLeases.seq

section Leases

variable {before mid after : CentralTables}

theorem LeasesEnded.refl (tables : CentralTables) : LeasesEnded tables tables := ⟨rfl, rfl⟩

theorem LeasesEnded.trans (first : LeasesEnded before mid) (second : LeasesEnded mid after) :
    LeasesEnded before after := by
  refine ⟨?_, second.seq.trans first.seq⟩
  rw [second.others, first.others]

theorem LeaseDropped.ended {leaseId : Nat} (dropped : LeaseDropped before after leaseId) :
    LeasesEnded before after := by
  have tables : after = _ := dropped
  rw [tables]
  exact ⟨rfl, rfl⟩

end Leases

/-- Ending leases afterwards changes nothing of what is left. -/
theorem NamespaceLeft.ended {request : BeginUpdateRequest} {before mid after : CentralDb}
    (left : NamespaceLeft request before mid) (ended : LeasesEnded mid.1 after.1)
    (keeps : Consistent mid → Consistent after) : NamespaceLeft request before after := by
  have dirs : after.1.dirs = mid.1.dirs := by rw [ended.others]
  have files : after.1.files = mid.1.files := by rw [ended.others]
  have sameBegun : BegunAnew request before after ↔ BegunAnew request before mid := by
    unfold BegunAnew
    rw [ended.seq]
  constructor
  case kept =>
      intro notBegun
      have kept := left.kept fun begun => notBegun (sameBegun.mpr begun)
      exact .of_tables (dirs.trans kept.dirs) (files.trans kept.files) fun consistent =>
        keeps (left.consistent consistent)
  case created =>
      intro begun
      obtain ⟨fromStart, now, file, empty, rows, ⟨looked, db, same, creating, keptDirs, keptFiles⟩,
        added⟩ := left.created (sameBegun.mp begun)
      refine ⟨fromStart, now, file, empty, files ▸ rows, ⟨looked, db, same, creating,
        dirs.trans keptDirs, files.trans keptFiles⟩, ?_⟩
      intro consistent
      obtain ⟨tables, isAdded, sameDirs, sameFiles⟩ := added consistent
      exact ⟨tables, isAdded, dirs.trans sameDirs, files.trans sameFiles⟩
  case consistent => exact fun consistent => keeps (left.consistent consistent)
  case others => rw [ended.others, left.others]

/-- Tables that did not change are left as they were. -/
theorem NamespaceLeft.of_tables {request : BeginUpdateRequest} {before after : CentralDb}
    (same : after.1 = before.1) (keeps : Consistent before → Consistent after) :
    NamespaceLeft request before after where
  kept _ := .of_tables (by rw [same]) (by rw [same]) keeps
  created begun := by
      have grown := begun.2
      rw [same] at grown
      exact absurd grown (Nat.lt_irrefl _)
  consistent := keeps
  others := by rw [same]

/-- A new file is created where none was found, with the missing directories on the way. -/
theorem createFile_left {path : String} {now : Nat} {file : FileRow} {db looked created : CentralDb}
    (found : CentralTx.getFileByPath path db = .error .notFound looked)
    (creating : CentralTx.createFile path now looked = .ok file created) :
    EmptyFileLeft path db created now file := by
  have same : looked.1 = db.1 := by
    have kept := (CentralTx.getFileByPath_readsOnly path).endState db
    rwa [found] at kept
  obtain ⟨dirs, dirId, name, isFile, tables⟩ := CentralTx.createFile_effect creating
  refine ⟨by rw [isFile]; rfl, ?_, ⟨looked, created, same, creating, rfl, rfl⟩, ?_⟩
  · rw [tables, isFile, same]
    rfl
  · intro consistent
    obtain ⟨looked', same', consistent', eq⟩ := CentralTx.getFileByPath_eq consistent path
    have isLooked : looked' = looked := by
      rw [found] at eq
      cases result : db.1.fileByPath path with
      | ok known =>
          rw [result] at eq
          cases eq
      | error err =>
          rw [result] at eq
          exact (EStateM.Result.error.inj eq).2.symm
    subst isLooked
    have at' := At.refl consistent'
    rw [same'] at at'
    have agreed := (CentralTx.createFile_agree path now).triple looked' at'
    rw [creating] at agreed
    exact ⟨created.1, agreed.2, rfl, rfl⟩

theorem beginUpdateTx_left {request : BeginUpdateRequest} {volumeId now : Nat}
    {lease : UpdateLease} {db db' : CentralDb}
    (ran : UpdateRequest.beginUpdateTx request volumeId now db = .ok lease db')
    (keeps : Consistent db → Consistent db') : NamespaceLeft request db db' := by
  obtain ⟨⟨file, baseSize⟩, db₁, taken, rest⟩ := bind_eq_ok.mp ran
  have rest := CentralTx.deleteExpiredUpdateLeases_bind_eq_ok rest
  obtain ⟨active, db₂, looked, rest⟩ := bind_eq_ok.mp rest
  obtain ⟨-, looked⟩ := CentralTx.bindU64_bind_eq_ok.mp looked
  obtain ⟨-, rfl⟩ := EStateM.Result.ok.inj looked
  obtain ⟨-, rest⟩ := require_bind_eq_ok.mp rest
  obtain ⟨-, -, tables⟩ := CentralTx.createUpdateLease_effect rest
  have dirs : db'.1.dirs = db₁.1.dirs := by rw [tables]
  have files : db'.1.files = db₁.1.files := by rw [tables]
  rcases UpdateRequest.fileForUpdate_cases taken with
    ⟨looked, found, -, -, same⟩ | ⟨looked, found, same, fromStart, creating, -⟩
  · have notBegun : ¬ BegunAnew request db db' := by
      rintro ⟨missing, -⟩
      rw [found] at missing
      cases missing
    refine ⟨fun _ => .of_tables (dirs.trans (by rw [same])) (files.trans (by rw [same])) keeps,
      fun begun => absurd begun notBegun, keeps, ?_⟩
    rw [tables, same]
  · have left := createFile_left found creating
    have others : db₁.1 = { db.1 with dirs := db₁.1.dirs, files := db₁.1.files } := by
      obtain ⟨dirs, dirId, name, -, created⟩ := CentralTx.createFile_effect creating
      rw [created, same]
    have begun : BegunAnew request db db' := by
      refine ⟨by rw [found, outcome_error], ?_⟩
      rw [tables, others]
      exact Nat.lt_succ_self _
    refine ⟨fun notBegun => absurd begun notBegun, fun _ => ⟨fromStart, now, file, left.empty,
      files ▸ left.files, ⟨looked, db₁, same, creating, dirs, files⟩, ?_⟩, keeps, ?_⟩
    · intro consistent
      obtain ⟨added, isAdded, sameDirs, sameFiles⟩ := left.added consistent
      exact ⟨added, isAdded, dirs.trans sameDirs, files.trans sameFiles⟩
    · rw [tables, others]

/-! ## The sections that end a lease -/

/-- The handler only ends a lease, or tells a storage about it. -/
def Handler.EndsLease : Handler → Prop
  | .start (.abortUpdate _ _) => True
  | .grantLease _ _ => True
  | .awaitGrant _ => True
  | .dropLease _ _ => True
  | .revokeLease _ _ _ => True
  | .awaitRevoke _ => True
  | _ => False

/-- The next section, if there is one, also only ends a lease. -/
def Progress.EndsLease (progress : Progress) : Prop :=
  ∀ handler, progress = .next handler → handler.EndsLease

section Sections

open CentralM

variable {config : CentralConfig} {inputs : Inputs} {identity : ControlConnectionIdentity}
  {connection : Nat}

theorem endsLease_next {handler : Handler} (ends : handler.EndsLease) :
    Yields Progress.EndsLease (pure (.next handler)) := by
  apply Yields.pure
  intro next isNext
  rw [← Progress.next.inj isNext]
  exact ends

theorem endsLease_respond (response : ControlResponse) :
    Yields Progress.EndsLease (pure (.respond response)) := by
  apply Yields.pure
  intro next isNext
  cases isNext

theorem resume_endsLease {handler : Handler} (ends : handler.EndsLease) :
    Yields Progress.EndsLease (handler.resume config inputs connection identity) := by
  cases handler with
  | start request =>
      cases request with
      | abortUpdate leaseId fileId =>
          cases identity with
          | client clientId =>
              apply Yields.bind
              intro storageId
              cases storageId with
              | none => exact endsLease_respond _
              | some storageId => exact endsLease_next trivial
          | storage storageId => exact Yields.throw _
          | anonymous => exact Yields.throw _
      | _ => exact ends.elim
  | grantLease storageId lease =>
      apply Yields.bind
      intro storages
      split
      · exact endsLease_next trivial
      · exact endsLease_next trivial
  | awaitGrant lease =>
      simp only [Handler.resume]
      split
      · exact endsLease_respond _
      · exact endsLease_next trivial
  | dropLease leaseId err => exact Yields.bind fun _ => Yields.throw _
  | revokeLease storageId leaseId response =>
      apply Yields.bind
      intro storages
      split
      · exact endsLease_next trivial
      · exact endsLease_respond _
  | awaitRevoke response => exact endsLease_respond _
  | _ => exact ends.elim

theorem resume_leasesEnded {handler : Handler} (ends : handler.EndsLease) (server : CentralServer) :
    LeasesEnded server.db.1
      (endState (handler.resume config inputs connection identity server)).db.1 := by
  rcases Handler.resume_changes config inputs connection identity handler server with
    same | ⟨tx, isTx, ran⟩
  · rw [same]
    exact .refl _
  · cases handler with
    | start request =>
        cases request with
        | abortUpdate leaseId fileId =>
            cases identity with
            | client clientId =>
                obtain rfl := Option.some.inj isTx
                exact ran.effect.2.ended
            | storage storageId => cases isTx
            | anonymous => cases isTx
        | _ => exact ends.elim
    | dropLease leaseId err =>
        obtain rfl := Option.some.inj isTx
        exact ran.effect.ended
    | grantLease storageId lease => cases isTx
    | awaitGrant lease => cases isTx
    | revokeLease storageId leaseId response => cases isTx
    | awaitRevoke response => cases isTx
    | _ => exact ends.elim

/-- A section that copies and renames nothing keeps the database consistent. -/
theorem resume_consistent {handler : Handler} {server : CentralServer}
    {result : EStateM.Result Fs0Error CentralServer Progress}
    (ran : handler.resume config inputs connection identity server = result)
    (untargeted : ∀ tx, handler.transaction inputs identity = some tx → tx.target = none)
    (consistent : Consistent server.db) : Consistent (endState result).db := by
  have kept : ∀ tx, handler.transaction inputs identity = some tx →
      ¬ tx.LosesDir inputs.commit server.db.1 := by
    rintro tx isTx ⟨-, path, -, isTarget, -⟩
    rw [untargeted tx isTx] at isTarget
    cases isTarget
  have sound := Handler.resume_sound config inputs consistent connection identity handler kept
  exact ran ▸ (sound server rfl).1

theorem endsLease_untargeted {handler : Handler} (ends : handler.EndsLease) (tx : Transaction)
    (isTx : handler.transaction inputs identity = some tx) : tx.target = none := by
  cases handler with
  | start request =>
      cases request with
      | abortUpdate leaseId fileId =>
          cases identity with
          | client clientId =>
              obtain rfl := Option.some.inj isTx
              rfl
          | storage storageId => cases isTx
          | anonymous => cases isTx
      | _ => exact ends.elim
  | dropLease leaseId err =>
      obtain rfl := Option.some.inj isTx
      rfl
  | grantLease storageId lease => cases isTx
  | awaitGrant lease => cases isTx
  | revokeLease storageId leaseId response => cases isTx
  | awaitRevoke response => cases isTx
  | _ => exact ends.elim

variable {c stream : Nat} {sections : List RequestSection} {answer : Fs0Result ControlResponse}
  {before after : CentralDb}

theorem sections_leasesEnded {handler : Handler} (ends : handler.EndsLease)
    (run : RequestRun config c stream identity handler sections answer)
    (alone : Alone before sections after) :
    LeasesEnded before.1 after.1 ∧ (Consistent before → Consistent after) := by
  induction run generalizing before with
  | fails _ runs =>
      obtain ⟨rfl, rfl⟩ := alone
      have ended := runs.ran ▸ resume_leasesEnded ends _
      have keeps := resume_consistent runs.ran (endsLease_untargeted ends)
      exact ⟨ended, keeps⟩
  | answers _ runs =>
      obtain ⟨rfl, rfl⟩ := alone
      have ended := runs.ran ▸ resume_leasesEnded ends _
      have keeps := resume_consistent runs.ran (endsLease_untargeted ends)
      exact ⟨ended, keeps⟩
  | goesOn _ runs _ _ inductionHypothesis =>
      obtain ⟨rfl, later⟩ := alone
      have ended := runs.ran ▸ resume_leasesEnded ends _
      have keeps := resume_consistent runs.ran (endsLease_untargeted ends)
      have goesOn := resume_endsLease ends _ _ _ runs.ran
      obtain ⟨endedLater, keepsLater⟩ := inductionHypothesis (goesOn _ rfl) later
      exact ⟨ended.trans endedLater, fun consistent => keepsLater (keeps consistent)⟩

/-! ## The sections of a begun update -/

theorem beginUpdate_start {request : BeginUpdateRequest} {server server' : CentralServer}
    {progress : Progress}
    (ran : handleControlRequest config inputs identity (.beginUpdate request) server =
      .ok progress server') :
    (∃ storageId volumeId, progress = .next (.beginUpdate request storageId volumeId)) ∧
      server' = server := by
  cases identity with
  | client clientId =>
      obtain ⟨⟨storageId, volumeId⟩, server₁, chosen, ended⟩ := bind_eq_ok.mp ran
      obtain ⟨rfl, rfl⟩ := EStateM.Result.ok.inj ended
      obtain ⟨peers, server₂, snapshot, chosen⟩ := bind_eq_ok.mp chosen
      obtain ⟨-, rfl⟩ := EStateM.Result.ok.inj snapshot
      obtain ⟨-, rfl⟩ := lift_eq_ok.mp chosen
      exact ⟨⟨storageId, volumeId, rfl⟩, rfl⟩
  | storage storageId => cases ran
  | anonymous => cases ran

theorem beginUpdate_left {request : BeginUpdateRequest} {storageId volumeId : Nat}
    (run : RequestRun config c stream identity (.beginUpdate request storageId volumeId) sections
      answer) (alone : Alone before sections after) : NamespaceLeft request before after := by
  have untargeted : ∀ inputs identity tx, (Handler.beginUpdate request storageId volumeId).transaction
      inputs identity = some tx → tx.target = none := by
    intro inputs identity tx isTx
    obtain rfl := Option.some.inj isTx
    rfl
  cases run with
  | fails _ runs =>
      obtain ⟨rfl, rfl⟩ := alone
      have keeps := resume_consistent runs.ran (untargeted _ _)
      rcases bind_eq_error.mp runs.ran with refused | ⟨_, _, -, ended⟩
      · exact .of_tables (transact_untouched refused).tables keeps
      · cases ended
  | answers _ runs =>
      obtain ⟨_, _, -, ended⟩ := bind_eq_ok.mp runs.ran
      cases (EStateM.Result.ok.inj ended).1
  | goesOn _ runs _ rest =>
      obtain ⟨rfl, later⟩ := alone
      have keeps := resume_consistent runs.ran (untargeted _ _)
      obtain ⟨lease, _, recorded, ended⟩ := bind_eq_ok.mp runs.ran
      obtain ⟨isNext, rfl⟩ := EStateM.Result.ok.inj ended
      obtain rfl := Progress.next.inj isNext
      obtain ⟨-, db, body, rfl⟩ := CentralM.transact_eq_ok recorded
      have ends : (Handler.grantLease storageId lease).EndsLease := trivial
      obtain ⟨ended, keepsLater⟩ := sections_leasesEnded ends rest later
      exact (beginUpdateTx_left body keeps).ended ended keepsLater

theorem request_left {request : BeginUpdateRequest}
    (run : RequestRun config c stream identity (.start (.beginUpdate request)) sections answer)
    (alone : Alone before sections after) : NamespaceLeft request before after := by
  cases run with
  | @fails s inputs conn _ _ _ server _ runs =>
      obtain ⟨rfl, rfl⟩ := alone
      have noTx : ∀ tx, (Handler.start (.beginUpdate request)).transaction inputs conn.identity ≠
          some tx := by
        intro tx isTx
        cases identity' : conn.identity <;> rw [identity'] at isTx <;> cases isTx
      have keeps := resume_consistent runs.ran fun tx isTx => absurd isTx (noTx tx)
      refine NamespaceLeft.of_tables ?_ keeps
      rcases Handler.resume_changes config inputs c conn.identity (.start (.beginUpdate request))
          s.server with same | ⟨tx, isTx, -⟩
      · rwa [runs.ran] at same
      · exact absurd isTx (noTx tx)
  | answers _ runs =>
      obtain ⟨⟨_, _, isNext⟩, -⟩ := beginUpdate_start runs.ran
      cases isNext
  | goesOn _ runs _ rest =>
      obtain ⟨rfl, later⟩ := alone
      obtain ⟨⟨storageId, volumeId, isNext⟩, rfl⟩ := beginUpdate_start runs.ran
      obtain rfl := Progress.next.inj isNext
      exact beginUpdate_left rest later

end Sections

/-- With no other request between its sections, an update that never commits leaves the
directories and files of before, and what `create_file` adds for the path exactly if no file
was found there and the lease was recorded. They are looked up as before, and the new file is
at the path, unless a directory had been lost to a failed `COMMIT` before. -/
theorem uncommitted_update_leaves {config : CentralConfig} {request : BeginUpdateRequest}
    {sections : List RequestSection} {before after : CentralDb}
    (uncommitted : UncommittedUpdate config request sections)
    (alone : Alone before sections after) :
    NamespaceLeft request before after ∧ (NoDirLost config before → Consistent before) := by
  refine ⟨?_, NoDirLost.consistent⟩
  cases uncommitted with
  | refused run => exact request_left run alone
  | expired run => exact request_left run alone
  | @aborted _ _ _ _ _ _ _ _ lease _ run abort =>
      obtain ⟨mid, begun, ended⟩ := alone.append
      have ends : (Handler.start (.abortUpdate lease.leaseId lease.fileId)).EndsLease := trivial
      obtain ⟨ended, keeps⟩ := sections_leasesEnded ends abort ended
      exact (request_left run begun).ended ended keeps

/-! ## A grant that times out -/

namespace Scenario

/-- The sections of the request on a connection, and the database after the last of them. -/
structure RanRequest where
  identity : ControlConnectionIdentity
  handling : Handling
  sections : List RequestSection
  after : CentralDb
  answer : Fs0Result ControlResponse

def ranRequest (c : Nat) : List Inputs → Central → Option RanRequest
  | [], _ => none
  | inputs :: rest, s => do
      let conn ← s.connections.find? c
      let handling ← conn.handling
      match handling.handler.resume config inputs c conn.identity s.server with
      | .error err server =>
          some ⟨conn.identity, handling, [⟨inputs, s.server, server⟩], server.db, .error err⟩
      | .ok (.respond response) server =>
          some ⟨conn.identity, handling, [⟨inputs, s.server, server⟩], server.db, .ok response⟩
      | .ok (.next handler) server => do
          let later ← ranRequest c rest
            ({ s with server := server }.setConnection
              { conn with handling := some ⟨handling.stream, handler⟩ })
          if later.handling = ⟨handling.stream, handler⟩ then
            some ⟨conn.identity, handling, ⟨inputs, s.server, server⟩ :: later.sections,
              later.after, later.answer⟩
          else none
      | .ok (.identify _ _) _ => none

theorem run_of_ranRequest {c : Nat} {inputs : List Inputs} {s : Central} {ran : RanRequest}
    (reachable : (central config).Reachable s) (computed : ranRequest c inputs s = some ran) :
    RequestRun config c ran.handling.stream ran.identity ran.handling.handler ran.sections
        ran.answer ∧ Alone s.server.db ran.sections ran.after := by
  induction inputs generalizing s ran with
  | nil => cases computed
  | cons first rest inductionHypothesis =>
      obtain ⟨conn, found, computed⟩ := Option.bind_eq_some_iff.mp computed
      obtain ⟨handling, handles, computed⟩ := Option.bind_eq_some_iff.mp computed
      split at computed
      next err server resumed =>
        obtain rfl := Option.some.inj computed
        exact ⟨.fails reachable ⟨found, handles, resumed⟩ rfl, rfl, rfl⟩
      next response server resumed =>
        obtain rfl := Option.some.inj computed
        exact ⟨.answers reachable ⟨found, handles, resumed⟩ rfl, rfl, rfl⟩
      next handler server resumed =>
        obtain ⟨later, ranLater, computed⟩ := Option.bind_eq_some_iff.mp computed
        split at computed
        next same =>
          obtain rfl := Option.some.inj computed
          have taken : (central config).step s (.run c first) = some
              ({ s with server := server }.setConnection
                { conn with handling := some ⟨handling.stream, handler⟩ }) := by
            refine Option.bind_eq_some_iff.mpr ⟨conn, found, ?_⟩
            refine Option.map_eq_some_iff.mpr ⟨handling, handles, ?_⟩
            rw [resumed]
            rfl
          obtain ⟨run, alone⟩ := inductionHypothesis (reachable.step taken) ranLater
          rw [same] at run
          exact ⟨.goesOn reachable ⟨found, handles, resumed⟩ rfl run, rfl, alone⟩
        next => cases computed
      next => cases computed

/-- The client begins an update of a file in a directory that does not exist. -/
def begunBelow : List CentralEvent :=
  registered ++ [.receive 1 (.control (.beginUpdate ⟨"/d/f", 0, none, none⟩)), .lockIdentity 1 3]

/-- A section that fails at its `COMMIT` is none of these. -/
def commits : CentralEvent → Bool
  | .run _ inputs => inputs.commit.isNone
  | _ => true

theorem begunBelow_commits {c : Nat} {inputs : Inputs} (member : .run c inputs ∈ begunBelow) :
    inputs.commit = none := by
  have all : begunBelow.all commits = true := by decide
  exact Option.isNone_iff_eq_none.mp (List.all_eq_true.mp all _ member)

/-- The storage does not answer the grant in time. -/
def timedOut : List Inputs :=
  [inputs 2, inputs 2, inputs 2,
    { inputs 2 with grant := .error (.internal "transport rpc timed out after 15s") }, inputs 2]

end Scenario

open Scenario in
/-- The sections of the update that times out, with the files before and after them. -/
theorem timedOut_runs : ∃ sections before after,
    UncommittedUpdate config ⟨"/d/f", 0, none, none⟩ sections ∧ Alone before sections after ∧
      NoDirLost config before ∧ before.1.files.rows.length = 0 ∧ after.1.files.rows.length = 1 := by
  have computed : (((central config).exec .initial begunBelow).bind fun s =>
      (ranRequest 1 timedOut s).map fun ran =>
        (ran.handling.handler, ran.answer.toOption, s.server.db.1.files.rows.length,
          ran.after.1.files.rows.length)) =
      some (.start (.beginUpdate ⟨"/d/f", 0, none, none⟩), none, 0, 1) := by decide +kernel
  obtain ⟨s, ends, computed⟩ := Option.bind_eq_some_iff.mp computed
  obtain ⟨ran, isRan, facts⟩ := Option.map_eq_some_iff.mp computed
  obtain ⟨isBegin, rest⟩ := Prod.mk.inj facts
  obtain ⟨failed, counts⟩ := Prod.mk.inj rest
  obtain ⟨noFile, oneFile⟩ := Prod.mk.inj counts
  have initial : (central config).Init .initial := rfl
  obtain ⟨ts, began, events⟩ := (System.Run.init initial).exec begunBelow ends
  obtain ⟨run, alone⟩ := run_of_ranRequest began.reachable isRan
  rw [isBegin] at run
  have noneLost : NoDirLost config s.server.db := by
    refine ⟨_, s, began, ?_, rfl⟩
    rintro t member ⟨c, inputs, tx, isRun, -, fails, -⟩
    have among : t.event ∈ begunBelow := by
      rw [← events]
      exact List.mem_map_of_mem (List.mem_reverse.mpr (by simpa using member))
    exact fails (begunBelow_commits (isRun ▸ among))
  refine ⟨ran.sections, s.server.db, ran.after, ?_, alone, noneLost, noFile, oneFile⟩
  cases answered : ran.answer with
  | ok response =>
      rw [answered] at failed
      cases failed
  | error err =>
      rw [answered] at run
      exact .refused run

/-- The file that was created for the lease stays when the grant times out. -/
theorem uncommitted_update_keeps_file : ¬ ∀ (config : CentralConfig) (request : BeginUpdateRequest)
    (sections : List RequestSection) (before after : CentralDb),
    UncommittedUpdate config request sections → Alone before sections after →
    SameNamespace before after := by
  intro claimed
  obtain ⟨sections, before, after, uncommitted, alone, -, noFile, oneFile⟩ := timedOut_runs
  have same := (claimed _ _ _ _ _ uncommitted alone).files
  rw [same, noFile] at oneFile
  cases oneFile

theorem uncommitted_update_leaves_timedOut : ∃ before after : CentralDb,
    before.1.files.rows.length = 0 ∧ after.1.files.rows.length = 1 ∧
      NamespaceLeft ⟨"/d/f", 0, none, none⟩ before after ∧ Consistent before := by
  obtain ⟨sections, before, after, uncommitted, alone, noneLost, noFile, oneFile⟩ := timedOut_runs
  obtain ⟨left, consistent⟩ := uncommitted_update_leaves uncommitted alone
  exact ⟨before, after, noFile, oneFile, left, consistent noneLost⟩

end Fs0
