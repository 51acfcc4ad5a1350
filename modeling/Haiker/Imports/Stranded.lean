import Haiker.Imports.Lemmas.Orchestrator

/-!
This module contains the exits of the import pipeline that leave the import behind, for collaborators
that may give any result.
-/

open Rust
open RouteVersioning (CorrectedStatistics RouteVersion)

namespace Imports

/--
What the collaborators say, each call of its own. The repository either stores an update or fails.
-/
structure Collaborators where
  findById : Except ImportError Unit
  update : Import → Except ImportError Unit
  findAbandoned : Except ImportError (List Import)
  download : String → Except ImportError Bytes
  verifyUpload : String → Except ImportError UploadMetadata
  check : Identity.UserId → Checksum → Except ImportError DuplicateCheckResult
  commit : ImportCommitData → Except ImportError ActivityCatalog.ActivityId

namespace Collaborators

-- the state is the import that is stored
def answer (collaborators : Collaborators) : (command : Command) → Import → command.Reply × Import
  | .findById id, stored =>
    (collaborators.findById.map fun _ => if stored.id = id then some stored else none, stored)
  | .update imp, stored =>
    match collaborators.update imp with
    | .ok _ => (.ok (), imp)
    | .error e => (.error e, stored)
  | .findAbandoned _, stored => (collaborators.findAbandoned, stored)
  | .download key, stored => (collaborators.download key, stored)
  | .verifyUpload key, stored => (collaborators.verifyUpload key, stored)
  | .check ownerId checksum, stored => (collaborators.check ownerId checksum, stored)
  | .commit _ data, stored =>
    match collaborators.commit data with
    | .ok activityId =>
      (.ok activityId, { stored with status := .completed, activityId := some data.activityId })
    | .error e => (.error e, stored)

end Collaborators

variable (collaborators : Collaborators) (externals : Externals) (imp : Import)
  (ownerId : Identity.UserId) (key : String) (correlationId : Uuid)

-- the import that the pipeline goes on with once it has left `queued`
def parsing : Import := imp.at_ externals.now .parsing

def process : Except ImportError ImportProcessingResult × Import :=
  execute collaborators.answer
    (ImportOrchestrator.processImport externals imp.id ownerId key correlationId) imp

-- the import leaves `queued`
structure Moves : Prop where
  found : collaborators.findById = .ok ()
  stored : collaborators.update (parsing externals imp) = .ok ()

-- the exits by `?` once the file has been read
inductive StrandsOn (checksum : Checksum) (parseResult : GpxParseResult) : Prop where
  | check {e : ImportError} (h : collaborators.check ownerId checksum = .error e)
  | duplicate {existingImportId : ImportId}
    {existingActivityId : Option ActivityCatalog.ActivityId} {e : ImportError}
    (check : collaborators.check ownerId checksum
      = .ok (.exactDuplicate existingImportId existingActivityId))
    (h : collaborators.update
      (((parsing externals imp).setActivity existingActivityId).at_ externals.now .completed) = .error e)
  | committing {normalized : NormalizedTrack} {e : ImportError}
    (check : collaborators.check ownerId checksum = .ok .notDuplicate)
    (normalize : externals.normalizeGpx parseResult = .ok normalized)
    (h : collaborators.update ((parsing externals imp).at_ externals.now .committing) = .error e)
  | geometry {normalized : NormalizedTrack}
    (check : collaborators.check ownerId checksum = .ok .notDuplicate)
    (normalize : externals.normalizeGpx parseResult = .ok normalized)
    (h : normalized.previewGeometry.length < 2)

/--
The exits by `?` once the import has left `queued`. All other errors fail the import first.
-/
inductive Strands : Prop where
  | noChecksum {fileBytes : Bytes} (download : collaborators.download key = .ok fileBytes)
    (h : imp.checksum = none)
  | read {fileBytes : Bytes} {checksum : Checksum} {parseResult : GpxParseResult}
    (reads : ImportOrchestrator.Reads collaborators.answer externals (parsing externals imp) key
      (parsing externals imp) fileBytes checksum parseResult)
    (h : StrandsOn collaborators externals imp ownerId checksum parseResult)

-- an error after the import has left `queued` leaves it failed, with a reason
def EndsFailed (outcome : Except ImportError ImportProcessingResult × Import) : Prop :=
  ∀ e, outcome.1 = .error e → outcome.2.status ≠ .queued →
    outcome.2.status = .failed ∧ outcome.2.failureReason ≠ none

variable {collaborators externals imp ownerId key correlationId}

theorem answer_update_failed {now : Timestamp} {imp' : Import} {reason : String} {code : FailureCode}
    (hstores : ∀ failed : Import, failed.status = .failed → collaborators.update failed = .ok ())
    (stored : Import)
    : collaborators.answer (.update (imp'.failed now reason code)) stored
        = (.ok (), imp'.failed now reason code) := by
  simp only [Collaborators.answer, hstores (imp'.failed now reason code) rfl]

theorem answer_download {fileBytes : Bytes} (h : collaborators.download key = .ok fileBytes)
    (stored : Import) : collaborators.answer (.download key) stored = (.ok fileBytes, stored) :=
  congrArg (·, stored) h

theorem endsFailed_of_failing {imp' stored : Import}
    {outcome : Except ImportError ImportProcessingResult × Import}
    (hstores : ∀ failed : Import, failed.status = .failed → collaborators.update failed = .ok ())
    (h : ImportOrchestrator.Failing collaborators.answer externals.now imp' stored outcome)
    : EndsFailed outcome := by
  obtain ⟨error, reason, code, houtcome⟩ := h
  rw [houtcome, answer_update_failed hstores, Program.onOk_ok]
  intro e _ _
  exact ⟨rfl, Option.some_ne_none _⟩

theorem endsFailed_commitNew_iff {fileBytes : Bytes} {computedHash : String}
    {normalized : NormalizedTrack} {imp' stored : Import}
    (hstores : ∀ failed : Import, failed.status = .failed → collaborators.update failed = .ok ())
    (hcommitting : imp'.status = .committing) (hstored : stored.status = .committing)
    : EndsFailed (execute collaborators.answer (ImportOrchestrator.commitNew externals imp' imp.id
        ownerId key correlationId fileBytes computedHash normalized) stored)
        ↔ ¬normalized.previewGeometry.length < 2 := by
  rw [← ImportOrchestrator.newVersion_eq_error_iff ]
  cases hversion : ImportOrchestrator.newVersion externals ownerId normalized with
  | error e =>
    rw [ImportOrchestrator.execute_commitNew_of_no_version hversion]
    constructor
    . intro h
      have hfailed := (h _ rfl (by rw [hstored]; simp)).1
      rw [hstored] at hfailed
      simp at hfailed
    . intro h
      exact absurd ⟨e, rfl⟩ h
  | ok version =>
    refine iff_of_true ?_ (by simp)
    cases hcommit : collaborators.answer (.commit externals.commit
        (ImportOrchestrator.commitData externals imp' imp.id ownerId key correlationId fileBytes
          computedHash normalized version)) stored with
    | mk reply stored' =>
      cases reply with
      | ok activityId =>
        rw [ImportOrchestrator.execute_commitNew_of_committed hversion hcommit]
        intro e he
        cases he
      | error e =>
        rw [ImportOrchestrator.execute_commitNew_of_not_committed hcommitting hversion hcommit]
        rw [answer_update_failed hstores]
        intro _ _ _
        exact ⟨rfl, Option.some_ne_none _⟩

variable {fileBytes : Bytes} {checksum : Checksum} {parseResult : GpxParseResult}

-- `?` hands the error on and leaves the import as it is stored
theorem not_endsFailed_of_kept {e : ImportError} {stored : Import} (hqueued : stored.status ≠ .queued)
    (hfailed : stored.status ≠ .failed) : ¬EndsFailed (.error e, stored) :=
  fun h => hfailed (h e rfl hqueued).1

theorem endsFailed_finishDuplicate_iff {existingImportId : ImportId}
    {existingActivityId : Option ActivityCatalog.ActivityId}
    : EndsFailed (execute collaborators.answer (ImportOrchestrator.finishDuplicate externals
        (parsing externals imp) existingImportId existingActivityId) (parsing externals imp))
        ↔ ∀ e, collaborators.update (((parsing externals imp).setActivity existingActivityId).at_
          externals.now .completed) ≠ .error e := by
  rw [ImportOrchestrator.execute_finishDuplicate rfl]
  simp only [Collaborators.answer]
  cases hupdate : collaborators.update _ with
  | error e =>
    exact iff_of_false (not_endsFailed_of_kept (by simp [parsing, Import.at_])
      (by simp [parsing, Import.at_])) fun h => h e rfl
  | ok _ =>
    refine iff_of_true ?_ fun e he => by cases he
    intro e he
    cases he

theorem endsFailed_finishNew_iff {normalized : NormalizedTrack}
    (hstores : ∀ failed : Import, failed.status = .failed → collaborators.update failed = .ok ())
    (hnormalize : externals.normalizeGpx parseResult = .ok normalized)
    : EndsFailed (execute collaborators.answer (ImportOrchestrator.finishNew externals
        (parsing externals imp) imp.id ownerId key correlationId fileBytes checksum.value parseResult)
        (parsing externals imp))
        ↔ (∀ e, collaborators.update ((parsing externals imp).at_ externals.now .committing) ≠ .error e)
          ∧ ¬normalized.previewGeometry.length < 2 := by
  rw [ImportOrchestrator.execute_finishNew rfl hnormalize]
  simp only [Collaborators.answer]
  cases hupdate : collaborators.update _ with
  | error e =>
    exact iff_of_false (not_endsFailed_of_kept (by simp [parsing, Import.at_])
      (by simp [parsing, Import.at_])) fun h => h.1 e rfl
  | ok _ =>
    simp only [Program.onOk_ok]
    rw [endsFailed_commitNew_iff hstores rfl rfl]
    exact ⟨fun h => ⟨fun e he => (by cases he), h⟩, And.right⟩

theorem strandsOn_iff_of_duplicate {existingImportId : ImportId}
    {existingActivityId : Option ActivityCatalog.ActivityId}
    (hcheck : collaborators.check ownerId checksum
      = .ok (.exactDuplicate existingImportId existingActivityId))
    : StrandsOn collaborators externals imp ownerId checksum parseResult
        ↔ ∃ e, collaborators.update (((parsing externals imp).setActivity existingActivityId).at_
          externals.now .completed) = .error e := by
  constructor
  . intro h
    cases h with
    | duplicate check h =>
      rw [hcheck] at check
      cases check
      exact ⟨_, h⟩
    | check check | committing check | geometry check =>
      rw [hcheck] at check
      cases check
  . rintro ⟨e, h⟩
    exact .duplicate hcheck h

theorem strandsOn_iff_of_notDuplicate (hcheck : collaborators.check ownerId checksum = .ok .notDuplicate)
    : StrandsOn collaborators externals imp ownerId checksum parseResult
        ↔ ∃ normalized, externals.normalizeGpx parseResult = .ok normalized
          ∧ ((∃ e, collaborators.update ((parsing externals imp).at_ externals.now .committing) = .error e)
            ∨ normalized.previewGeometry.length < 2) := by
  constructor
  . intro h
    cases h with
    | committing _ normalize h => exact ⟨_, normalize, .inl ⟨_, h⟩⟩
    | geometry _ normalize h => exact ⟨_, normalize, .inr h⟩
    | check check | duplicate check =>
      rw [hcheck] at check
      cases check
  . rintro ⟨normalized, normalize, ⟨e, h⟩ | h⟩
    . exact .committing hcheck normalize h
    . exact .geometry hcheck normalize h

theorem endsFailed_finish_iff
    (hstores : ∀ failed : Import, failed.status = .failed → collaborators.update failed = .ok ())
    : EndsFailed (execute collaborators.answer (ImportOrchestrator.finish externals
        (parsing externals imp) imp.id ownerId key correlationId fileBytes checksum.value parseResult)
        (parsing externals imp))
        ↔ ¬StrandsOn collaborators externals imp ownerId checksum parseResult := by
  rw [ImportOrchestrator.execute_finish]
  simp only [Collaborators.answer]
  cases hcheck : collaborators.check ownerId checksum with
  | error e =>
    exact iff_of_false (not_endsFailed_of_kept (by simp [parsing, Import.at_])
      (by simp [parsing, Import.at_])) fun h => h (.check hcheck)
  | ok result =>
    simp only [Program.onOk_ok]
    cases result with
    | exactDuplicate existingImportId existingActivityId =>
      rw [strandsOn_iff_of_duplicate hcheck, endsFailed_finishDuplicate_iff, not_exists]
    | notDuplicate =>
      rw [strandsOn_iff_of_notDuplicate hcheck]
      cases hnormalize : externals.normalizeGpx parseResult with
      | error e =>
        refine iff_of_true (endsFailed_of_failing hstores
          (ImportOrchestrator.failing_finishNew rfl hnormalize)) ?_
        rintro ⟨normalized, h, _⟩
        cases h
      | ok normalized =>
        simp only
        rw [endsFailed_finishNew_iff hstores hnormalize]
        simp

theorem process_of_not_moves (hqueued : imp.status = .queued)
    (h : ¬Moves collaborators externals imp)
    : (process collaborators externals imp ownerId key correlationId).2 = imp := by
  unfold process ImportOrchestrator.processImport
  rw [execute_bind]
  cases hfind : collaborators.findById with
  | error e =>
    unfold ImportOrchestrator.start
    rw [execute_bind, execute_findById]
    simp [Collaborators.answer, hfind, Except.map]
  | ok _ =>
    have hanswer : collaborators.answer (.findById imp.id) imp = (.ok (some imp), imp) := by
      simp [Collaborators.answer, hfind, Except.map]
    rw [ImportOrchestrator.execute_start_of_queued hanswer hqueued]
    cases hupdate : collaborators.update (parsing externals imp) with
    | error e =>
      rw [parsing] at hupdate
      simp [Collaborators.answer, hupdate]
    | ok _ => exact absurd ⟨hfind, hupdate⟩ h

theorem process_of_moves (hqueued : imp.status = .queued) (h : Moves collaborators externals imp)
    : process collaborators externals imp ownerId key correlationId
        = Program.onOk
          (execute collaborators.answer (ImportOrchestrator.readFile externals (parsing externals imp) key)
            (parsing externals imp))
          fun (fileBytes, computedHash, parseResult) stored =>
            execute collaborators.answer (ImportOrchestrator.finish externals (parsing externals imp)
              imp.id ownerId key correlationId fileBytes computedHash parseResult) stored := by
  have hfind : collaborators.answer (.findById imp.id) imp = (.ok (some imp), imp) := by
    simp [Collaborators.answer, h.found, Except.map]
  have hupdate : collaborators.answer (.update (parsing externals imp)) imp
      = (.ok (), parsing externals imp) := by
    simp only [Collaborators.answer, h.stored]
  exact ImportOrchestrator.execute_processImport hfind hqueued hupdate

theorem endsFailed_process_iff_of_moves (hqueued : imp.status = .queued)
    (hstores : ∀ failed : Import, failed.status = .failed → collaborators.update failed = .ok ())
    (h : Moves collaborators externals imp)
    : EndsFailed (process collaborators externals imp ownerId key correlationId)
        ↔ ¬Strands collaborators externals imp ownerId key := by
  rw [process_of_moves hqueued h]
  have hterminal : (parsing externals imp).status.isTerminal = false := rfl
  have hkept : (collaborators.answer (.download key) (parsing externals imp)).2
      = parsing externals imp := rfl
  obtain ⟨fileBytes, checksum, parseResult, hreads⟩ | ⟨hchecksum, fileBytes, hdownload⟩ | hfailing :=
    ImportOrchestrator.execute_readFile_cases externals hterminal hkept
  . rw [ImportOrchestrator.execute_readFile_of_reads hreads, Program.onOk_ok,
      endsFailed_finish_iff hstores]
    refine not_congr ⟨.read hreads, ?_⟩
    intro hstrands
    cases hstrands with
    | noChecksum _ hnone => exact absurd (hnone.symm.trans hreads.stored) (Option.some_ne_none _).symm
    | read hreads' h' =>
      obtain ⟨rfl, rfl⟩ := hreads.unique hreads'
      exact h'
  . rw [ImportOrchestrator.execute_readFile_of_no_checksum hdownload hchecksum, Program.onOk_error]
    have hread : collaborators.download key = .ok fileBytes := congrArg Prod.fst hdownload
    exact iff_of_false (not_endsFailed_of_kept (by simp [parsing, Import.at_])
      (by simp [parsing, Import.at_])) fun h' => h' (.noChecksum hread hchecksum)
  . refine iff_of_true (endsFailed_of_failing hstores (hfailing.onOk _)) ?_
    intro hstrands
    have hfailed : (execute collaborators.answer (ImportOrchestrator.readFile externals
        (parsing externals imp) key) (parsing externals imp)).2.status ≠ .parsing := by
      obtain ⟨error, reason, code, hfailed⟩ := hfailing
      rw [hfailed, answer_update_failed hstores, Program.onOk_ok]
      simp [Import.failed, Import.at_]
    cases hstrands with
    | noChecksum hread hnone =>
      have hchecksum : (parsing externals imp).checksum = none := hnone
      rw [ImportOrchestrator.execute_readFile_of_no_checksum (answer_download hread _) hchecksum]
        at hfailed
      exact hfailed rfl
    | read hreads _ =>
      rw [ImportOrchestrator.execute_readFile_of_reads hreads] at hfailed
      exact hfailed rfl

/--
An error after the import has left `queued` leaves it failed exactly if no step hands on an error by `?`.
-/
theorem ends_failed_iff_not_strands (hqueued : imp.status = .queued)
    (hstores : ∀ failed : Import, failed.status = .failed → collaborators.update failed = .ok ())
    : EndsFailed (process collaborators externals imp ownerId key correlationId)
        ↔ (Moves collaborators externals imp → ¬Strands collaborators externals imp ownerId key) := by
  by_cases hmoves : Moves collaborators externals imp
  . rw [endsFailed_process_iff_of_moves hqueued hstores hmoves]
    exact ⟨fun h _ => h, fun h => h hmoves⟩
  . refine iff_of_true ?_ fun h => absurd h hmoves
    intro e _ hleft
    rw [process_of_not_moves hqueued hmoves] at hleft
    exact absurd hqueued hleft

def sampleChecksum : Checksum where
  value := String.ofList (List.replicate 64 'a')
  length_eq := by decide
  all_hex := by decide
  lower := by decide

def sampleImport : Import where
  id := ⟨⟨1⟩⟩
  ownerId := ⟨⟨2⟩⟩
  sourceArtifactId := some ⟨⟨3⟩⟩
  format := .gpx
  status := .queued
  checksum := some sampleChecksum
  failureReason := none
  failureCode := none
  idempotencyKey := "first"
  payloadHash := none
  activityId := none
  createdAt := 0
  updatedAt := 0

def sampleTrack : RecordedActivity.RecordedTrack where
  id := ⟨⟨4⟩⟩
  segments := [⟨[⟨⟨.fin 46, .fin 7⟩, none, none⟩, ⟨⟨.fin 47, .fin 7⟩, none, none⟩], by decide⟩]
  boundingBox := ⟨⟨.fin 46, .fin 7⟩, ⟨.fin 47, .fin 7⟩⟩
  statistics := ⟨.fin 111195, none, none, none, 2, 1⟩
  nonempty := List.cons_ne_nil _ _

def sampleExternals : Externals where
  now := 1000000
  activityId := ⟨⟨5⟩⟩
  sourceArtifactId := ⟨⟨6⟩⟩
  sourceRevisionId := ⟨⟨7⟩⟩
  recordedTrackId := ⟨⟨8⟩⟩
  routeVersionId := ⟨⟨9⟩⟩
  commit := ⟨1000000, ⟨10⟩, fun _ => "", fun _ => ""⟩
  sha256 _ := sampleChecksum.value
  parseGpx _ := .ok ⟨.gpx11, ⟨none, none, none⟩, [], 2⟩
  normalizeGpx _ := .ok ⟨sampleTrack, [⟨.fin 46, .fin 7⟩, ⟨.fin 47, .fin 7⟩], none, none, none⟩
  totalDistance _ := .fin 111195

-- the connection to the database is lost at the duplicate check, and only there
def sampleCollaborators : Collaborators where
  findById := .ok ()
  update _ := .ok ()
  findAbandoned := .ok []
  download _ := .ok []
  verifyUpload _ := .ok ⟨0, none⟩
  check _ _ := .error (.storageError "connection closed")
  commit data := .ok data.activityId

theorem ends_failed_iff_not_strands_sampleImport
    : EndsFailed (process sampleCollaborators sampleExternals sampleImport ⟨⟨2⟩⟩ "key" ⟨11⟩)
        ↔ (Moves sampleCollaborators sampleExternals sampleImport →
          ¬Strands sampleCollaborators sampleExternals sampleImport ⟨⟨2⟩⟩ "key") :=
  ends_failed_iff_not_strands rfl fun _ _ => rfl

theorem duplicate_check_strands
    : (∀ failed, sampleCollaborators.update failed = .ok ()) ∧ sampleImport.status = .queued
        ∧ (process sampleCollaborators sampleExternals sampleImport ⟨⟨2⟩⟩ "key" ⟨11⟩).1
          = .error (.storageError "connection closed")
        ∧ (process sampleCollaborators sampleExternals sampleImport ⟨⟨2⟩⟩ "key" ⟨11⟩).2.status = .parsing
        ∧ ¬EndsFailed
          (process sampleCollaborators sampleExternals sampleImport ⟨⟨2⟩⟩ "key" ⟨11⟩) := by
  have hprocess : process sampleCollaborators sampleExternals sampleImport ⟨⟨2⟩⟩ "key" ⟨11⟩
      = (.error (.storageError "connection closed"), parsing sampleExternals sampleImport) := by
    rw [process_of_moves rfl ⟨rfl, rfl⟩, ImportOrchestrator.execute_readFile_of_reads
      ⟨rfl, rfl, rfl, rfl⟩, Program.onOk_ok]
    simp only
    rw [ImportOrchestrator.execute_finish]
    rfl
  refine ⟨fun _ => rfl, rfl, ?_⟩
  rw [hprocess]
  exact ⟨rfl, rfl, not_endsFailed_of_kept (by decide) (by decide)⟩

end Imports
