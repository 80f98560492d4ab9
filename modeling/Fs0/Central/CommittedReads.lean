import Fs0.Central.FileCatalog
import Fs0.Central.Origins
import Fs0.Central.ReadPlans

/-!
Contract: what the readers of a file get.

Owns:
- what a commit or a copy makes of the content of a file, and which transactions change it;
- that a read plan is that of the last commit or copy that took effect.

Does not own: where the bundles of a plan are stored.
-/

set_option autoImplicit false

namespace Fs0

open Lib Fallible
open CentralTx (find?_filesMoved find?_filesResized)

/-! ## Contents -/

/-- The content of a file in the tables. -/
def CentralTables.contentOf (tables : CentralTables) (fileId : Nat) : Option FileContent :=
  (tables.files.find? fileId).map fun file => tables.fileContent fileId file.sizeBytes

namespace Transaction

/-- A transaction inserts or deletes a file, or replaces its content. -/
def Writes (before : CentralTables) (fileId : Nat) (tx : Transaction) : Prop :=
  tx.Touches before fileId ∧ ∀ targetPath now, tx ≠ .renameFile fileId targetPath now

/-- The content that a commit or a copy gives a file. -/
def written (before : CentralTables) (fileId : Nat) : Transaction → Option FileContent
  | .commitUpdate request _ =>
      if fileId = request.fileId then
        some ⟨request.newSize, request.bundles.map CommittedBundle.bundleId⟩
      else
        none
  | .copyFile sourceFileId _ _ =>
      if fileId = before.files.seq + 1 then before.contentOf sourceFileId else none
  | _ => none

end Transaction

namespace CentralTables

variable {before after : CentralTables} {fileId : Nat} {tx : Transaction}

/-- The content of a file changes only when it is written. -/
theorem contentOf_of_effect (effect : tx.Effect before after)
    (unwritten : ¬ tx.Writes before fileId) : after.contentOf fileId = before.contentOf fileId := by
  by_cases touched : tx.Touches before fileId
  · have isRename : ∃ targetPath now, tx = .renameFile fileId targetPath now := by
      by_contra other
      exact unwritten ⟨touched, fun targetPath now same => other ⟨targetPath, now, same⟩⟩
    obtain ⟨targetPath, now, rfl⟩ := isRename
    obtain ⟨file, target, dirId, name, moved⟩ := effect
    have isFiles : after.files = _ := congrArg CentralTables.files moved.others
    have sameBundles : after.fileBundles = before.fileBundles := by rw [moved.others]
    have row : after.files.find? fileId =
        (before.files.find? fileId).map (movedTo fileId dirId name now) := by
      rw [isFiles]
      exact find?_filesMoved
    unfold contentOf fileContent fileBundlesOf
    rw [row, sameBundles, Option.map_map]
    congr 1
    funext row
    rw [Function.comp_apply, movedTo]
    split <;> rfl
  · obtain ⟨file, bundles⟩ := rows_of_effect effect touched
    unfold contentOf fileContent fileBundlesOf
    rw [file, bundles]

/-- A commit or a copy gives a file the content it carries. -/
theorem contentOf_of_written (referring : before.Referring) (effect : tx.Effect before after)
    {content : FileContent} (writes : tx.written before fileId = some content) :
    after.contentOf fileId = some content := by
  cases tx with
  | commitUpdate request now =>
      obtain ⟨lease, file, compressedSize, dir, committed⟩ := effect
      rw [Transaction.written] at writes
      by_cases same : fileId = request.fileId
      · rw [if_pos same] at writes
        obtain rfl := Option.some.inj writes
        subst same
        have resized : after.files.find? request.fileId =
            some (resizedTo request.fileId request.newSize compressedSize now file) := by
          rw [committed.others]
          exact find?_filesResized.trans (congrArg _ committed.file_found)
        have size : (resizedTo request.fileId request.newSize compressedSize now file).sizeBytes =
            request.newSize := by
          rw [resizedTo, if_pos (Table.mem_of_find? committed.file_found).2]
        rw [contentOf, resized, Option.map_some, fileContent, size,
          CatalogStep.bundles_of_committed committed]
      · rw [if_neg same] at writes
        cases writes
  | copyFile sourceFileId targetPath now =>
      obtain ⟨source, target, dirId, name, copied⟩ := effect
      rw [Transaction.written] at writes
      by_cases same : fileId = before.files.seq + 1
      · rw [if_pos same, contentOf, copied.source_found, Option.map_some] at writes
        obtain rfl := Option.some.inj writes
        subst same
        rw [contentOf, copied.copy_found, Option.map_some, fileContent, fileContent,
          CatalogStep.bundles_of_copied referring copied]
        rfl
      · rw [if_neg same] at writes
        cases writes
  | _ => cases writes

end CentralTables

/-! ## Steps -/

/-- A handler is about to build the read plan of a file. -/
def Handler.ReadsPlan (fileId : Nat) (handler : Handler) : Prop :=
  handler = .start (.getFileReadPlanById fileId) ∨ handler = .getFileReadPlanById fileId

/-- What a read plan tells of the content of its file. -/
def FileReadPlan.content (plan : FileReadPlan) : FileContent :=
  ⟨plan.size, plan.bundles.map FileBundleRef.bundleId⟩

namespace Central

/-- A transaction that takes effect in a step. -/
def Commits (t : Transition Central CentralEvent) (tx : Transaction) : Prop :=
  t.pre.transaction t.event = some tx ∧ t.post.tables ≠ t.pre.tables

variable {config : CentralConfig} {s s' : Central} {e : CentralEvent}
  {t : Transition Central CentralEvent}

theorem Commits.effect {tx : Transaction} (commits : Commits t tx)
    (taken : (central config).step t.pre t.event = some t.post) :
    tx.Effect t.pre.tables t.post.tables := by
  obtain ⟨isTx, changed⟩ := commits
  rcases step_tables taken with same | ⟨other, isOther, effect⟩
  · exact absurd same changed
  · obtain rfl := Option.some.inj (isTx.symm.trans isOther)
    exact effect

/-- A step in which no transaction writes a file keeps its content. -/
theorem contentOf_of_step (taken : (central config).step t.pre t.event = some t.post)
    {fileId : Nat} (unwritten : ∀ tx, Commits t tx → ¬ tx.Writes t.pre.tables fileId) :
    t.post.tables.contentOf fileId = t.pre.tables.contentOf fileId := by
  by_cases same : t.post.tables = t.pre.tables
  · rw [same]
  · rcases step_tables taken with kept | ⟨tx, isTx, effect⟩
    · exact absurd kept same
    · exact CentralTables.contentOf_of_effect effect (unwritten tx ⟨isTx, same⟩)

/-- The response of a section that builds a read plan. -/
theorem plan_of_resume {handler : Handler} {fileId : Nat} (reads : handler.ReadsPlan fileId)
    {inputs : Inputs} {connection : Nat} {identity : ControlConnectionIdentity}
    {server server' : CentralServer} {plan : FileReadPlan}
    (ran : handler.resume config inputs connection identity server =
      .ok (.respond (.getFileReadPlanById plan)) server') :
    ClientRequest.getFileReadPlanById fileId server = .ok (.getFileReadPlanById plan) server' := by
  have responded : CentralM.responding (ClientRequest.getFileReadPlanById fileId) server =
      .ok (.respond (.getFileReadPlanById plan)) server' := by
    rcases reads with rfl | rfl
    · cases identity with
      | client clientId => exact ran
      | storage storageId => cases ran
      | anonymous => cases ran
    · exact ran
  obtain ⟨response, server₁, built, ended⟩ := bind_eq_ok.mp responded
  obtain ⟨same, rfl⟩ := EStateM.Result.ok.inj ended
  obtain rfl := Progress.respond.inj same
  exact built

/-- A plan tells of the content its file has in the tables. -/
theorem content_of_plan {fileId : Nat} {server server' : CentralServer} {plan : FileReadPlan}
    (built : ClientRequest.getFileReadPlanById fileId server =
      .ok (.getFileReadPlanById plan) server') :
    plan.fileId = fileId ∧ server.db.1.contentOf fileId = some plan.content := by
  rw [ClientRequest.getFileReadPlanById_eq] at built
  obtain ⟨_, file, isPlan, found, sameId, size, mapped⟩ :=
    ClientRequest.getFileReadPlanByIdIn_eq_ok built
  obtain rfl := ControlResponse.getFileReadPlanById.inj isPlan
  have parts := congrArg (List.map Prod.snd) (ClientRequest.parts_of_mapM mapped)
  rw [List.map_map, List.map_map] at parts
  refine ⟨sameId, ?_⟩
  rw [CentralTables.contentOf, found, Option.map_some, FileReadPlan.content, size]
  exact congrArg some (congrArg (FileContent.mk file.sizeBytes) parts.symm)

/-- A plan that is answered was built from the tables as they are. -/
theorem built_of_answered (taken : (central config).step s e = some s') {fileId stream : Nat}
    {plan : FileReadPlan} {handling : Handling} (runs : s.running e = some handling)
    (reads : handling.handler.ReadsPlan fileId)
    (answered : s'.exchanges =
      .answered stream (.control (.getFileReadPlanById plan)) :: s.exchanges) :
    ∃ server, ClientRequest.getFileReadPlanById fileId s.server =
      .ok (.getFileReadPlanById plan) server := by
  cases e with
  | run c inputs =>
      obtain ⟨conn, other, result, isRun, rfl⟩ := step_run taken
      have same : s.running (.run c inputs) = some other :=
        Option.bind_eq_some_iff.mpr ⟨conn, isRun.found, isRun.handles⟩
      obtain rfl := Option.some.inj (runs.symm.trans same)
      have ran := isRun.ran
      cases result with
      | error err server =>
          have isFirst := (List.cons.inj answered).1
          cases (reply_eq_answered.mp isFirst).2.2
      | ok progress server =>
          cases progress with
          | next handler => exact absurd answered.symm (List.cons_ne_self _ _)
          | identify identity handler => exact absurd answered.symm (List.cons_ne_self _ _)
          | respond response =>
              have isFirst := (List.cons.inj answered).1
              obtain rfl := ProtocolResponse.control.inj (reply_eq_answered.mp isFirst).2.2
              exact ⟨server, plan_of_resume reads ran⟩
  | _ => cases runs

/-- What a file was given last is what central still has of it. -/
theorem content_kept {config : CentralConfig} {between earlier : List (Transition Central CentralEvent)}
    {write : Transition Central CentralEvent} {s : Central}
    (run : (central config).Run (between ++ write :: earlier) s)
    {tx : Transaction} {fileId : Nat} {content : FileContent} (commits : Central.Commits write tx)
    (writes : tx.written write.pre.tables fileId = some content)
    (unwritten : ∀ t ∈ between, ∀ other, Central.Commits t other →
      ¬ other.Writes t.pre.tables fileId) : s.tables.contentOf fileId = some content := by
  obtain ⟨start, taken⟩ := run.before
  have referring := Central.tables_invariant CentralTables.Referring
    CentralTables.initial_referring (fun before tx after referring effect =>
      referring.preserved (CentralTables.fileStep_of_effect effect)) start.reachable
  refine run.since (fun s => s.tables.contentOf fileId = some content)
    (CentralTables.contentOf_of_written referring (commits.effect taken) writes) ?_
  intro t member _ here taken
  exact (Central.contentOf_of_step taken (unwritten t member)).trans here

end Central

/-- In every run, a read plan that is answered tells of the content that the last commit of
the file, or the copy that made it, had given it, whatever else is committed in between. -/
theorem read_of_written {config : CentralConfig}
    {later between earlier : List (Transition Central CentralEvent)}
    {write read : Transition Central CentralEvent} {s : Central}
    (run : (central config).Run (later ++ read :: (between ++ write :: earlier)) s)
    {tx : Transaction} {fileId stream : Nat} {content : FileContent} {plan : FileReadPlan}
    {handling : Handling} (commits : Central.Commits write tx)
    (writes : tx.written write.pre.tables fileId = some content)
    (unwritten : ∀ t ∈ between, ∀ other, Central.Commits t other →
      ¬ other.Writes t.pre.tables fileId)
    (runs : read.pre.running read.event = some handling) (reads : handling.handler.ReadsPlan fileId)
    (answered : read.post.exchanges =
      .answered stream (.control (.getFileReadPlanById plan)) :: read.pre.exchanges) :
    plan.fileId = fileId ∧ plan.content = content := by
  obtain ⟨before, taken⟩ := run.before
  have kept := Central.content_kept before commits writes unwritten
  obtain ⟨server, built⟩ := Central.built_of_answered taken runs reads answered
  obtain ⟨sameId, isContent⟩ := Central.content_of_plan built
  exact ⟨sameId, Option.some.inj (isContent.symm.trans kept)⟩

namespace Scenario

/-- The events up to the second section of the commit of a file. -/
def committing : List CentralEvent := (registered ++ uploaded 3 "/f").dropLast

/-- The commit is answered, the file is renamed, and a request for its plan is started. -/
def renamedAndAsked : List CentralEvent :=
  [.run 1 (inputs 3), .run 1 (inputs 3)] ++ request 1 6 1 4 (.renameFileById 1 "/g") ++
    [.receive 1 (.control (.getFileReadPlanById 1)), .lockIdentity 1 7]

/-- An event that at most renames a file. -/
def onlyRenames (s : Central) (e : CentralEvent) : Bool :=
  (s.transaction e).all fun tx => match tx with
    | .renameFile _ _ _ => true
    | _ => false

theorem not_writes {t : Transition Central CentralEvent} {fileId : Nat} {tx : Transaction}
    (renames : onlyRenames t.pre t.event = true) (commits : Central.Commits t tx) :
    ¬ tx.Writes t.pre.tables fileId := by
  rintro ⟨touched, isOther⟩
  unfold onlyRenames at renames
  rw [commits.1, Option.all_some] at renames
  cases tx with
  | renameFile renamed targetPath now =>
      obtain rfl : fileId = renamed := touched
      exact isOther targetPath now rfl
  | _ => cases renames

/-- The plan of a file that is answered in a step. -/
def answeredPlan (s s' : Central) : Option (Nat × FileReadPlan) :=
  match s'.exchanges with
  | .answered stream (.control (.getFileReadPlanById plan)) :: rest =>
      if rest = s.exchanges then some (stream, plan) else none
  | _ => none

theorem answeredPlan_eq_some {s s' : Central} {stream : Nat} {plan : FileReadPlan}
    (answered : answeredPlan s s' = some (stream, plan)) :
    s'.exchanges = .answered stream (.control (.getFileReadPlanById plan)) :: s.exchanges := by
  unfold answeredPlan at answered
  split at answered
  next other rest first =>
    split at answered
    next same =>
      obtain ⟨rfl, rfl⟩ := Prod.mk.inj (Option.some.inj answered)
      rw [first, same]
    next => cases answered
  next => cases answered

end Scenario

/-- A file of two bundles is renamed after its commit and read under its number. -/
theorem read_of_written_renamed : ∃ ts s stream plan, (central Scenario.config).Run ts s ∧
    .answered stream (.control (.getFileReadPlanById plan)) ∈ s.exchanges ∧
    plan.content = ⟨10, [Scenario.bundle, Scenario.bundle]⟩ := by
  let sys := central Scenario.config
  let written := CommitUpdateRequest.mk 1 1 0 10 [⟨Scenario.bundle, 5, 3⟩, ⟨Scenario.bundle, 5, 3⟩]
  obtain ⟨earlier, s₀, run, -, goesOn⟩ := Scenario.run_of_exec Scenario.committing
    (fun s => (sys.step s (.run 1 (Scenario.inputs 3))).bind fun s₁ =>
      (sys.execWhile Scenario.onlyRenames s₁ Scenario.renamedAndAsked).bind fun s₂ =>
        (sys.step s₂ (.run 1 (Scenario.inputs 5))).map fun s₃ =>
          (s.transaction (.run 1 (Scenario.inputs 3)), decide (s₁.tables = s.tables),
            s₂.running (.run 1 (Scenario.inputs 5)), (Scenario.answeredPlan s₂ s₃).isSome))
    (some (some (.commitUpdate written 3), false, some ⟨7, .start (.getFileReadPlanById 1)⟩, true))
    (by decide +kernel)
  obtain ⟨s₁, committed, goesOn⟩ := Option.bind_eq_some_iff.mp goesOn
  obtain ⟨s₂, ends, goesOn⟩ := Option.bind_eq_some_iff.mp goesOn
  obtain ⟨s₃, taken, facts⟩ := Option.map_eq_some_iff.mp goesOn
  obtain ⟨isTx, facts⟩ := Prod.mk.inj facts
  obtain ⟨changed, facts⟩ := Prod.mk.inj facts
  obtain ⟨runs, isPlan⟩ := Prod.mk.inj facts
  obtain ⟨⟨stream, plan⟩, isAnswered⟩ := Option.isSome_iff_exists.mp isPlan
  obtain ⟨between, asked, renames⟩ := (run.step committed).execWhile _ ends
  have answered := Scenario.answeredPlan_eq_some isAnswered
  have whole : sys.Run ([] ++ ⟨s₂, .run 1 (Scenario.inputs 5), s₃⟩ ::
      (between ++ ⟨s₀, .run 1 (Scenario.inputs 3), s₁⟩ :: earlier)) s₃ := asked.step taken
  obtain ⟨-, content⟩ := read_of_written whole ⟨isTx, of_decide_eq_false changed⟩
    (if_pos rfl) (fun t member other commits => Scenario.not_writes (renames t member) commits)
    runs (.inl rfl) answered
  exact ⟨_, s₃, stream, plan, whole, by rw [answered]; exact List.mem_cons_self, content⟩

end Fs0
