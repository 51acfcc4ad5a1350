import Haiker.Imports.Orchestrator
import Haiker.Imports.Lemmas.Commit
import Haiker.Imports.Lemmas.Orchestrator

/-!
This module contains who works on imports: the handler of the `parse_gpx` jobs, the command that
completes an upload and the cleanup, with the database and the object storage that answer their
commands, and how these answer. Metrics and the audit log are left out.
-/

open Rust
open ActivityCatalog (ActivityId)

namespace Imports

structure Storage where
  download : String → Except ImportError Bytes
  verifyUpload : String → Except ImportError UploadMetadata

-- `DuplicateCheckerAdapter::check`
def DuplicateCheckResult.ofFound : Option (ImportId × Option ActivityId) → DuplicateCheckResult
  | some (existingImportId, existingActivityId) => .exactDuplicate existingImportId existingActivityId
  | none => .notDuplicate

-- the transaction does not panic
def commitReply (result : Except (Fault ImportError) ActivityId) : Except ImportError ActivityId :=
  match result with
  | .ok activityId => .ok activityId
  | .error (.err e) => .error e
  | .error .panic => .error (.storageError "panic")

def answer (storage : Storage) : (command : Command) → Database → command.Reply × Database
  | .findById id, db => (.ok (PgImportRepository.findById id db.imports), db)
  | .update imp, db =>
    match PgImportRepository.update imp db.imports with
    | .ok imports => (.ok (), { db with imports })
    | .error e => (.error e, db)
  | .findAbandoned threshold, db => (.ok (PgImportRepository.findAbandoned threshold db.imports), db)
  | .download key, db => (storage.download key, db)
  | .verifyUpload key, db => (storage.verifyUpload key, db)
  | .check ownerId checksum, db =>
    (.ok (.ofFound (PgImportRepository.findCompletedByChecksum ownerId checksum db.imports)), db)
  | .commit externals data, db =>
    (commitReply (outcome (PgImportCommitter.commit externals data) db),
      after (PgImportCommitter.commit externals data) db)

structure ParseGpxJob where
  importId : Uuid
  ownerId : Uuid
  objectStorageKey : String
  correlationId : Uuid

namespace ParseGpxJobHandler

abbrev HandlerM := ExceptT String (Program Command.Reply)

-- `.map_err(|e| format!("..: {e}"))?`
def orFail {α : Type} (failed : String) (result : Except ImportError α) : HandlerM α :=
  ExceptT.mk (.done (result.mapError fun e => failed ++ ": " ++ e.display))

variable (externals : Externals) (job : ParseGpxJob)

def persistQueued (imp : Import) : HandlerM Unit := do
  orFail "failed to persist queued status" (← attempt (.update imp))

-- the transitions before the orchestrator
def queue : HandlerM Unit := do
  let importId := externals.commit.uuidToString job.importId
  match ← orFail "failed to load import" (← attempt (.findById { val := job.importId })) with
  | none => throw ("import " ++ importId ++ " not found")
  | some imp =>
    match imp.status with
    | .uploaded =>
      let imp ← orFail "failed to transition to validating" (imp.startValidation externals.now)
      let imp ← orFail "failed to transition to queued" (imp.queueForParsing externals.now)
      persistQueued imp
    | .validating =>
      let imp ← orFail "failed to transition to queued" (imp.queueForParsing externals.now)
      persistQueued imp
    | .queued | .parsing => return ()
    | other =>
      throw ("import " ++ importId ++ " is in unexpected state '" ++ other.display ++ "' for processing")

def processImport : ImportM ImportProcessingResult :=
  ImportOrchestrator.processImport externals { val := job.importId } { val := job.ownerId }
    job.objectStorageKey job.correlationId

-- after an error the import is loaded once more, for the metrics
def handle : HandlerM Unit := do
  queue externals job
  match ← ExceptT.lift (processImport externals job).run with
  | .ok _ => return ()
  | .error e =>
    let _ ← attempt (.findById { val := job.importId })
    throw e.display

end ParseGpxJobHandler

structure CompleteUploadCommand where
  importId : ImportId
  ownerId : Identity.UserId
  checksum : String

def MAX_FILE_SIZE_BYTES : Nat := 50 * 1024 * 1024

def ALLOWED_CONTENT_TYPES : List String := ["application/gpx+xml", "application/xml"]

section Upload

variable (now : Timestamp)

def failUpload {α : Type} (imp : Import) (reason : String) (error : ImportError) : ImportM α := do
  update (← ofExcept ((imp.fail now reason).mapError fun _ => error))
  throw error

def verifyUpload (imp : Import) (storageKey : String) : ImportM UploadMetadata := do
  match ← attempt (.verifyUpload storageKey) with
  | .ok metadata => return metadata
  | .error (.storageError _) => throw (.storageError "storage temporarily unavailable")
  | .error .objectNotFound => failUpload now imp "upload not found in storage" .objectNotFound
  | .error other => failUpload now imp other.display other

def checkUpload (imp : Import) (metadata : UploadMetadata) : ImportM Unit := do
  if MAX_FILE_SIZE_BYTES < metadata.contentLength then
    failUpload now imp "upload too large" .uploadTooLarge
  else if metadata.contentLength = 0 then
    failUpload now imp "upload is empty" (.validationFailed "upload is empty")
  else
    match metadata.contentType with
    | some contentType =>
      if contentType ∈ ALLOWED_CONTENT_TYPES then
        return ()
      else
        failUpload now imp "invalid media type" .invalidMediaType
    | none => return ()

-- `artifactId` is the generated one
def handleCompleteUpload (artifactId : RecordedActivity.SourceArtifactId)
    (uuidToString : Uuid → String) (cmd : CompleteUploadCommand) : ImportM Import := do
  let checksum ← ofExcept (Checksum.new cmd.checksum)
  match ← findById cmd.importId with
  | none => throw .notFound
  | some imp =>
    if imp.ownerId ≠ cmd.ownerId then
      throw .unauthorized
    else if imp.status ≠ .uploading then
      throw (.invalidTransition imp.status.display "uploaded")
    else
      let storageKey :=
        "imports/" ++ uuidToString cmd.ownerId.val ++ "/" ++ uuidToString cmd.importId.val
      let metadata ← verifyUpload now imp storageKey
      checkUpload now imp metadata
      let imp ← ofExcept (imp.completeUpload now artifactId checksum)
      update imp
      return imp

end Upload

section Cleanup

variable (now : Timestamp)

-- 30 minutes, in nanoseconds
def ABANDONED_TIMEOUT : Int := 30 * 60 * 1000000000

-- what cannot be failed stays as it is
def failAbandoned (imp : Import) : Import :=
  match imp.failWithCode now "import processing timed out" .timeout with
  | .ok failed => failed
  | .error _ => imp

structure CleanupResult where
  cleanedUp : Nat
  skipped : Nat

def failAbandonedImports (imports : List Import) : List Import × CleanupResult :=
  let cleanedUp := imports.countP fun imp => imp.status.isTerminal = false
  (imports.map (failAbandoned now), { cleanedUp, skipped := imports.length - cleanedUp })

def persistFailed : List Import → ImportM Unit
  | [] => return ()
  | imp :: imports => do
    if imp.status = .failed then
      let _ ← attempt (.update imp)
    persistFailed imports

def cleanupAbandonedImports : ImportM Nat := do
  let abandoned ← findAbandoned (now - ABANDONED_TIMEOUT)
  let (abandoned, result) := failAbandonedImports now abandoned
  persistFailed abandoned
  return result.cleanedUp

end Cleanup

/--
Who works on imports at the same time as others.
-/
inductive Actor where
  | worker (externals : Externals) (job : ParseGpxJob)
  | uploader (now : Timestamp) (artifactId : RecordedActivity.SourceArtifactId)
    (uuidToString : Uuid → String) (cmd : CompleteUploadCommand)
  | cleaner (now : Timestamp)

def Actor.program : Actor → Program Command.Reply Unit
  | .worker externals job => do
    let _ ← (ParseGpxJobHandler.handle externals job).run
  | .uploader now artifactId uuidToString cmd => do
    let _ ← (handleCompleteUpload now artifactId uuidToString cmd).run
  | .cleaner now => do
    let _ ← (cleanupAbandonedImports now).run

/-
How the commands are answered.
-/

variable {storage : Storage} {db : Database} {imp : Import}

theorem answer_findById (id : ImportId) (db : Database)
    : answer storage (.findById id) db = (.ok (PgImportRepository.findById id db.imports), db) := rfl

theorem answer_findById_of_found (storage : Storage) {id : ImportId} {row : ImportRow}
    (hrow : db.imports.find? id.val = some row)
    : answer storage (.findById id) db = (.ok (some (rowToImport row)), db) := by
  rw [answer_findById, PgImportRepository.findById, hrow]
  rfl

theorem answer_update_of_ok (storage : Storage) {imports : ImportTable}
    (h : PgImportRepository.update imp db.imports = .ok imports)
    : answer storage (.update imp) db = (.ok (), { db with imports }) := by
  simp only [answer, h]

theorem answer_update_of_error (storage : Storage) {e : ImportError}
    (h : PgImportRepository.update imp db.imports = .error e)
    : answer storage (.update imp) db = (.error e, db) := by
  simp only [answer, h]

theorem answer_commit_cases (storage : Storage) (externals : CommitExternals)
    (data : ImportCommitData) (db : Database)
    : (∃ e, answer storage (.commit externals data) db = (.error e, db))
        ∨ ∃ db', answer storage (.commit externals data) db = (.ok data.activityId, db')
          ∧ PgImportCommitter.Committed externals data db db' := by
  obtain ⟨e, hrun⟩ | ⟨db', hrun, hcommitted⟩ := PgImportCommitter.commit_cases externals data db
  . refine .inl ⟨e, ?_⟩
    simp only [answer, outcome_of_run_error hrun, after_of_run_error hrun, commitReply]
  . refine .inr ⟨db', ?_, hcommitted⟩
    simp only [answer, outcome_of_run_ok hrun, after_of_run_ok hrun, commitReply]

theorem exists_answer_update (storage : Storage) (db : Database) (h : imp.status ≠ .completed)
    : ∃ imports, PgImportRepository.update imp db.imports = .ok imports
        ∧ answer storage (.update imp) db = (.ok (), { db with imports }) := by
  obtain ⟨imports, hupdate⟩ : ∃ imports, PgImportRepository.update imp db.imports = .ok imports :=
    PgImportRepository.update_of_not_completed h
  exact ⟨imports, hupdate, answer_update_of_ok storage hupdate⟩

theorem answer_update_of_found (storage : Storage) (imp : Import) {id : Uuid} {row : ImportRow}
    (hid : imp.id.val = id) (hrow : db.imports.find? id = some row) (h : imp.status ≠ .completed)
    : ∃ imports, PgImportRepository.update imp db.imports = .ok imports
        ∧ answer storage (.update imp) db = (.ok (), { db with imports })
        ∧ imports.find? id = some (PgImportRepository.setImport imp row) := by
  subst hid
  obtain ⟨imports, hupdate, hanswer⟩ := exists_answer_update storage db h
  exact ⟨imports, hupdate, hanswer, PgImportRepository.find?_update_self hupdate hrow⟩

namespace ParseGpxJobHandler

variable {externals : Externals} {job : ParseGpxJob} {row : ImportRow} {σ : Type}
  {answer : (command : Command) → σ → command.Reply × σ}

@[simp]
theorem execute_orFail_ok {α : Type} (failed : String) (a : α) (s : σ)
    : execute answer (orFail failed (.ok a)) s = (.ok a, s) := rfl

theorem of_execute_orFail_eq_ok {α : Type} {failed : String} {result : Except ImportError α} {a : α}
    {s s' : σ} (h : execute answer (orFail failed result) s = (.ok a, s')) : result = .ok a := by
  cases result with
  | ok b => rw [← Except.ok.inj (congrArg Prod.fst h)]
  | error e => cases h

theorem execute_persistQueued_of_ok {imp : Import} {s s' : σ}
    (h : answer (.update imp) s = (.ok (), s'))
    : execute answer (persistQueued imp) s = (.ok (), s') := by
  unfold persistQueued
  rw [execute_bind, execute_attempt, h, Program.onOk_ok, execute_orFail_ok]

theorem execute_queue_cases (externals : Externals) {s : σ} (hfind : answer (.findById { val := job.importId }) s
      = (.ok (some imp), s))
    : (imp.status ∈ [.uploaded, .validating]
        ∧ ∀ s', answer (.update (imp.at_ externals.now .queued)) s = (.ok (), s') →
          execute answer (queue externals job) s = (.ok (), s'))
      ∨ (imp.status ∈ [.queued, .parsing] ∧ execute answer (queue externals job) s = (.ok (), s))
      ∨ (imp.status ∉ [.uploaded, .validating, .queued, .parsing]
        ∧ ∃ e, execute answer (queue externals job) s = (.error e, s)) := by
  unfold queue
  rw [execute_bind, execute_attempt, hfind, Program.onOk_ok, execute_bind, execute_orFail_ok,
    Program.onOk_ok]
  simp only
  cases hstatus : imp.status with
  | uploaded =>
    refine .inl ⟨by simp, ?_⟩
    intro s' hupdate
    rw [execute_bind, Import.startValidation_of_uploaded _ _ hstatus, execute_orFail_ok,
      Program.onOk_ok, execute_bind, Import.queueForParsing_of_validating _ _ rfl, execute_orFail_ok,
      Program.onOk_ok]
    exact execute_persistQueued_of_ok hupdate
  | validating =>
    refine .inl ⟨by simp, ?_⟩
    intro s' hupdate
    rw [execute_bind, Import.queueForParsing_of_validating _ _ hstatus, execute_orFail_ok,
      Program.onOk_ok]
    exact execute_persistQueued_of_ok hupdate
  | queued | parsing => exact .inr (.inl ⟨by simp, rfl⟩)
  | requested | uploading | committing | completed | failed | cancelled =>
    exact .inr (.inr ⟨by simp, _, rfl⟩)

-- the import is loaded once more after an error, which changes nothing
theorem execute_handle {s : σ}
    (hreads : ∀ id s, (answer (.findById id) s).2 = s)
    : (execute answer (handle externals job) s).2
        = (Program.onOk (execute answer (queue externals job) s) fun _ s' =>
          ((.ok () : Except String Unit), (execute answer (processImport externals job) s').2)).2 := by
  unfold handle
  rw [execute_bind]
  cases execute answer (queue externals job) s with
  | mk result s' =>
    cases result with
    | error e => rfl
    | ok _ =>
      simp only [Program.onOk_ok]
      rw [execute_bind, execute_lift, Program.onOk_ok]
      unfold execute
      cases (processImport externals job).run.run answer s' with
      | mk result s'' =>
        cases result with
        | ok _ => rfl
        | error e => exact hreads _ s''

end ParseGpxJobHandler

end Imports
