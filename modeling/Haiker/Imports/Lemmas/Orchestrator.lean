import Haiker.Imports.Orchestrator

/-!
This module contains what the stages of the import pipeline make of the replies of the collaborators.
-/

open Rust
open RouteVersioning (CorrectedStatistics RouteVersion)

namespace Imports

namespace Import

variable (now : Timestamp) (imp : Import)

-- the import in a later state
def at_ (status : ImportStatus) : Import := { imp with status, updatedAt := now }

def failed (reason : String) (code : FailureCode) : Import :=
  { imp.at_ now .failed with failureReason := some reason, failureCode := some code }

variable {now imp} in
theorem moveTo_eq_ok {target : ImportStatus} {imp' : Import} (h : imp.moveTo now target = .ok imp')
    : imp' = imp.at_ now target := by
  unfold moveTo ImportStatus.transitionTo at h
  split at h
  . cases h
  . split at h
    . exact (Except.ok.inj h).symm
    . cases h

variable {now imp} in
theorem of_failWithCode_eq_ok {reason : String} {code : FailureCode} {imp' : Import}
    (h : imp.failWithCode now reason code = .ok imp') : imp'.id = imp.id ∧ imp'.status = .failed := by
  unfold failWithCode at h
  cases hmove : imp.moveTo now .failed with
  | error e =>
    rw [hmove] at h
    cases h
  | ok moved =>
    rw [hmove] at h
    obtain rfl := Except.ok.inj h
    obtain rfl := moveTo_eq_ok hmove
    exact ⟨rfl, rfl⟩

variable {now imp} in
theorem of_fail_eq_ok {reason : String} {imp' : Import} (h : imp.fail now reason = .ok imp')
    : imp' = { imp.at_ now .failed with failureReason := some reason } := by
  unfold fail at h
  cases hmove : imp.moveTo now .failed with
  | error e =>
    rw [hmove] at h
    cases h
  | ok moved =>
    rw [hmove] at h
    obtain rfl := moveTo_eq_ok hmove
    exact (Except.ok.inj h).symm

variable {now imp} in
theorem of_completeUpload_eq_ok {artifactId : RecordedActivity.SourceArtifactId} {checksum : Checksum}
    {imp' : Import} (h : imp.completeUpload now artifactId checksum = .ok imp')
    : imp' = { imp.at_ now .uploaded with
        sourceArtifactId := some artifactId
        checksum := some checksum
      } := by
  unfold completeUpload at h
  cases hmove : imp.moveTo now .uploaded with
  | error e =>
    rw [hmove] at h
    cases h
  | ok moved =>
    rw [hmove] at h
    obtain rfl := moveTo_eq_ok hmove
    exact (Except.ok.inj h).symm

theorem failWithCode_of_not_terminal (h : imp.status.isTerminal = false) (reason : String)
    (code : FailureCode) : imp.failWithCode now reason code = .ok (imp.failed now reason code) := by
  have hvalid : imp.status.isValid .failed = true := by
    cases imp.status with
    | requested | uploading | uploaded | validating | queued | parsing | committing | completed | failed
    | cancelled => rfl
  simp [failWithCode, moveTo, ImportStatus.transitionTo, h, hvalid, failed, at_, bind, Except.bind,
    pure, Except.pure]

theorem startValidation_of_uploaded (h : imp.status = .uploaded)
    : imp.startValidation now = .ok (imp.at_ now .validating) := by
  simp [startValidation, moveTo, ImportStatus.transitionTo, h, ImportStatus.isTerminal,
    ImportStatus.isValid, at_, bind, Except.bind, pure, Except.pure]

theorem queueForParsing_of_validating (h : imp.status = .validating)
    : imp.queueForParsing now = .ok (imp.at_ now .queued) := by
  simp [queueForParsing, moveTo, ImportStatus.transitionTo, h, ImportStatus.isTerminal,
    ImportStatus.isValid, at_, bind, Except.bind, pure, Except.pure]

theorem startParsing_of_queued (h : imp.status = .queued)
    : imp.startParsing now = .ok (imp.at_ now .parsing) := by
  simp [startParsing, moveTo, ImportStatus.transitionTo, h, ImportStatus.isTerminal,
    ImportStatus.isValid, at_, bind, Except.bind, pure, Except.pure]

theorem startCommitting_of_parsing (h : imp.status = .parsing)
    : imp.startCommitting now = .ok (imp.at_ now .committing) := by
  simp [startCommitting, moveTo, ImportStatus.transitionTo, h, ImportStatus.isTerminal,
    ImportStatus.isValid, at_, bind, Except.bind, pure, Except.pure]

theorem complete_of_committing (h : imp.status = .committing)
    : imp.complete now = .ok (imp.at_ now .completed) := by
  simp [complete, moveTo, ImportStatus.transitionTo, h, ImportStatus.isTerminal,
    ImportStatus.isValid, at_, bind, Except.bind, pure, Except.pure]

end Import

namespace ImportOrchestrator

variable {α σ : Type} {answer : (command : Command) → σ → command.Reply × σ} {externals : Externals}
  {imp : Import}

/--
The import is failed and stored, if that succeeds.
-/
def Failing (answer : (command : Command) → σ → command.Reply × σ) (now : Timestamp) (imp : Import)
    (s : σ) (result : Except ImportError α × σ) : Prop :=
  ∃ error reason code, result
    = Program.onOk (answer (.update (imp.failed now reason code)) s) fun _ s' => (.error error, s')

theorem failing_failImport (h : imp.status.isTerminal = false) (now : Timestamp) (reason : String)
    (code : FailureCode) (error : ImportError) (s : σ)
    : Failing answer now imp s
      (execute answer (failImport now imp reason code error : ImportM α) s) := by
  refine ⟨error, reason, code, ?_⟩
  unfold failImport
  rw [execute_bind, execute_ofExcept, imp.failWithCode_of_not_terminal now h, Program.onOk_ok,
    execute_bind, execute_update]
  rfl

theorem Failing.onOk {β : Type} {now : Timestamp} {s : σ} {result : Except ImportError α × σ}
    (h : Failing answer now imp s result) (rest : α → σ → Except ImportError β × σ)
    : Failing answer now imp s (Program.onOk result rest) := by
  obtain ⟨error, reason, code, rfl⟩ := h
  refine ⟨error, reason, code, ?_⟩
  cases answer (.update (imp.failed now reason code)) s with
  | mk reply s' =>
    cases reply with
    | ok _ => rfl
    | error e => rfl

theorem Failing.isError {now : Timestamp} {s : σ} {result : Except ImportError α × σ}
    (h : Failing answer now imp s result) : ∃ e, result.1 = .error e := by
  obtain ⟨error, reason, code, rfl⟩ := h
  cases answer (.update (imp.failed now reason code)) s with
  | mk reply s' =>
    cases reply with
    | ok _ => exact ⟨_, rfl⟩
    | error e => exact ⟨e, rfl⟩

theorem execute_start_of_queued {id : ImportId} {s : σ}
    (hfind : answer (.findById id) s = (.ok (some imp), s)) (h : imp.status = .queued)
    : execute answer (start externals id) s
        = Program.onOk (answer (.update (imp.at_ externals.now .parsing)) s)
          fun _ s' => (.ok (imp.at_ externals.now .parsing), s') := by
  unfold start
  rw [execute_bind, execute_findById, hfind, Program.onOk_ok]
  simp only [if_pos h]
  rw [execute_bind, execute_ofExcept, imp.startParsing_of_queued externals.now h, Program.onOk_ok,
    execute_bind, execute_update]
  rfl

theorem execute_start_of_not_queued {id : ImportId} {s : σ}
    (hfind : answer (.findById id) s = (.ok (some imp), s)) (h : imp.status ≠ .queued)
    : execute answer (start externals id) s
        = (.error (.invalidTransition imp.status.display "parsing"), s) := by
  unfold start
  rw [execute_bind, execute_findById, hfind, Program.onOk_ok]
  simp only [if_neg h, execute_throw]

/--
The file is there, is the one that was uploaded, and can be parsed.
-/
structure Reads (answer : (command : Command) → σ → command.Reply × σ) (externals : Externals)
    (imp : Import) (key : String) (s : σ) (fileBytes : Bytes) (checksum : Checksum)
    (parseResult : GpxParseResult) : Prop where
  download : answer (.download key) s = (.ok fileBytes, s)
  stored : imp.checksum = some checksum
  hash : externals.sha256 fileBytes = checksum.value
  parse : externals.parseGpx fileBytes = .ok parseResult

variable {key : String} {s : σ} {fileBytes : Bytes} {checksum : Checksum} {parseResult : GpxParseResult}

theorem Reads.unique {fileBytes' : Bytes} {checksum' : Checksum} {parseResult' : GpxParseResult}
    (h : Reads answer externals imp key s fileBytes checksum parseResult)
    (h' : Reads answer externals imp key s fileBytes' checksum' parseResult')
    : checksum' = checksum ∧ parseResult' = parseResult := by
  have hbytes := h'.download
  rw [h.download] at hbytes
  obtain rfl : fileBytes = fileBytes' := by
    cases hbytes
    rfl
  have hchecksum := h'.stored
  rw [h.stored] at hchecksum
  have hparse := h'.parse
  rw [h.parse] at hparse
  exact ⟨(Option.some.inj hchecksum).symm, (Except.ok.inj hparse).symm⟩

theorem execute_readFile_of_reads
    (h : Reads answer externals imp key s fileBytes checksum parseResult)
    : execute answer (readFile externals imp key) s
        = (.ok (fileBytes, checksum.value, parseResult), s) := by
  unfold readFile
  rw [execute_bind, execute_attempt, h.download, Program.onOk_ok]
  simp only [h.stored, h.hash, if_pos, h.parse, execute_pure]

theorem execute_readFile_of_no_checksum
    (hdownload : answer (.download key) s = (.ok fileBytes, s)) (h : imp.checksum = none)
    : execute answer (readFile externals imp key) s
        = (.error (.validationFailed "import has no stored checksum"), s) := by
  unfold readFile
  rw [execute_bind, execute_attempt, hdownload, Program.onOk_ok]
  simp only [h, execute_throw]

theorem execute_readFile_cases (externals : Externals) (h : imp.status.isTerminal = false)
    (hdownload : (answer (.download key) s).2 = s)
    : (∃ fileBytes checksum parseResult,
        Reads answer externals imp key s fileBytes checksum parseResult)
      ∨ (imp.checksum = none ∧ ∃ fileBytes, answer (.download key) s = (.ok fileBytes, s))
      ∨ Failing answer externals.now imp s (execute answer (readFile externals imp key) s) := by
  have hpair : answer (.download key) s = ((answer (.download key) s).1, s) :=
    Prod.ext rfl hdownload
  cases hreply : (answer (.download key) s).1 with
  | error e =>
    right
    right
    unfold readFile
    rw [execute_bind, execute_attempt, hpair, hreply, Program.onOk_ok]
    exact failing_failImport h _ _ _ _ _
  | ok fileBytes =>
    rw [hreply] at hpair
    cases hchecksum : imp.checksum with
    | none => exact .inr (.inl ⟨rfl, fileBytes, hpair⟩)
    | some checksum =>
      by_cases hhash : externals.sha256 fileBytes = checksum.value
      . cases hparse : externals.parseGpx fileBytes with
        | ok parseResult =>
          exact .inl ⟨fileBytes, checksum, parseResult, ⟨hpair, hchecksum, hhash, hparse⟩⟩
        | error parseErr =>
          right
          right
          unfold readFile
          rw [execute_bind, execute_attempt, hpair, Program.onOk_ok]
          simp only [hchecksum, hhash, if_pos, hparse]
          exact failing_failImport h _ _ _ _ _
      . right
        right
        unfold readFile
        rw [execute_bind, execute_attempt, hpair, Program.onOk_ok]
        simp only [hchecksum, hhash, if_neg, not_false_iff]
        exact failing_failImport h _ _ _ _ _

variable {s' : σ} {importId : ImportId} {ownerId : Identity.UserId} {correlationId : Uuid}

theorem execute_finishDuplicate (h : imp.status = .parsing) (existingImportId : ImportId)
    (existingActivityId : Option ActivityCatalog.ActivityId) (s : σ)
    : execute answer (finishDuplicate externals imp existingImportId existingActivityId) s
        = Program.onOk
          (answer (.update ((imp.setActivity existingActivityId).at_ externals.now .completed)) s)
          fun _ s' => (.ok (.duplicate existingImportId existingActivityId), s') := by
  unfold finishDuplicate
  have hparsing : (imp.setActivity existingActivityId).status = .parsing := h
  rw [execute_bind, execute_ofExcept, Import.startCommitting_of_parsing _ _ hparsing, Program.onOk_ok,
    execute_bind, execute_ofExcept, Import.complete_of_committing _ _ rfl, Program.onOk_ok,
    execute_bind, execute_update]
  rfl

variable {normalized : NormalizedTrack} {computedHash : String}

theorem failing_finishNew {e : RecordedActivity.RecordedActivityError}
    (h : imp.status = .parsing) (hnormalize : externals.normalizeGpx parseResult = .error e)
    : Failing answer externals.now imp s (execute answer
        (finishNew externals imp importId ownerId key correlationId fileBytes computedHash parseResult)
        s) := by
  unfold finishNew
  rw [hnormalize]
  apply failing_failImport
  rw [h]
  rfl

theorem execute_finishNew (h : imp.status = .parsing)
    (hnormalize : externals.normalizeGpx parseResult = .ok normalized)
    : execute answer
        (finishNew externals imp importId ownerId key correlationId fileBytes computedHash parseResult)
        s
        = Program.onOk (answer (.update (imp.at_ externals.now .committing)) s)
          fun _ s' => execute answer (commitNew externals (imp.at_ externals.now .committing) importId
            ownerId key correlationId fileBytes computedHash normalized) s' := by
  unfold finishNew
  rw [hnormalize]
  simp only
  rw [execute_bind, execute_ofExcept, Import.startCommitting_of_parsing _ _ h, Program.onOk_ok,
    execute_bind, execute_update]

theorem newVersion_eq_error_iff
    : (∃ e, newVersion externals ownerId normalized = .error e)
        ↔ normalized.previewGeometry.length < 2 := by
  unfold newVersion RouteVersion.newInitial
  split
  . next h => simp [h]
  . next h => simp [h]

theorem execute_commitNew_of_no_version {e : RouteVersioning.RouteVersioningError}
    (h : newVersion externals ownerId normalized = .error e)
    : execute answer
        (commitNew externals imp importId ownerId key correlationId fileBytes computedHash normalized) s
        = (.error (.validationFailed ("route version validation failed: " ++ e.display)), s) := by
  unfold commitNew
  rw [h]
  simp only [execute_throw]

variable {version : RouteVersion}

theorem execute_commitNew_of_committed {activityId : ActivityCatalog.ActivityId}
    (h : newVersion externals ownerId normalized = .ok version)
    (hcommit : answer (.commit externals.commit (commitData externals imp importId ownerId key
      correlationId fileBytes computedHash normalized version)) s = (.ok activityId, s'))
    : execute answer
        (commitNew externals imp importId ownerId key correlationId fileBytes computedHash normalized) s
        = (.ok (.completed externals.activityId fileBytes.length
          normalized.recordedTrack.statistics.pointCount), s') := by
  unfold commitNew
  rw [h]
  simp only
  rw [execute_bind, execute_attempt, hcommit, Program.onOk_ok]
  simp only [execute_pure]

theorem execute_commitNew_of_not_committed {e : ImportError} (hstatus : imp.status = .committing)
    (h : newVersion externals ownerId normalized = .ok version)
    (hcommit : answer (.commit externals.commit (commitData externals imp importId ownerId key
      correlationId fileBytes computedHash normalized version)) s = (.error e, s'))
    : execute answer
        (commitNew externals imp importId ownerId key correlationId fileBytes computedHash normalized) s
        = (.error e, (answer (.update (imp.failed externals.now ("commit failed: " ++ e.display)
          .internalError)) s').2) := by
  have hterminal : imp.status.isTerminal = false := by
    rw [hstatus]
    rfl
  unfold commitNew
  rw [h]
  simp only
  rw [execute_bind, execute_attempt, hcommit, Program.onOk_ok]
  simp only
  rw [imp.failWithCode_of_not_terminal externals.now hterminal]
  simp only
  rw [execute_bind, execute_attempt, Program.onOk_ok, execute_throw]

theorem execute_finish
    : execute answer (finish externals imp importId ownerId key correlationId fileBytes checksum.value
        parseResult) s
        = Program.onOk (answer (.check ownerId checksum) s) fun result s' =>
          match result with
          | .exactDuplicate existingImportId existingActivityId =>
            execute answer (finishDuplicate externals imp existingImportId existingActivityId) s'
          | .notDuplicate =>
            execute answer (finishNew externals imp importId ownerId key correlationId fileBytes
              checksum.value parseResult) s' := by
  unfold finish
  rw [execute_bind, execute_ofExcept, Checksum.new_value, Program.onOk_ok, execute_bind,
    execute_check]
  congr
  funext result s'
  cases result with
  | notDuplicate => rfl
  | exactDuplicate id activityId => rfl

theorem execute_processImport {id : ImportId}
    (hfind : answer (.findById id) s = (.ok (some imp), s)) (h : imp.status = .queued)
    (hupdate : answer (.update (imp.at_ externals.now .parsing)) s = (.ok (), s'))
    : execute answer (processImport externals id ownerId key correlationId) s
        = Program.onOk (execute answer (readFile externals (imp.at_ externals.now .parsing) key) s')
          fun (fileBytes, computedHash, parseResult) s'' =>
            execute answer (finish externals (imp.at_ externals.now .parsing) id ownerId key
              correlationId fileBytes computedHash parseResult) s'' := by
  unfold processImport
  rw [execute_bind, execute_start_of_queued hfind h, hupdate, Program.onOk_ok, Program.onOk_ok,
    execute_bind]

end ImportOrchestrator

end Imports
