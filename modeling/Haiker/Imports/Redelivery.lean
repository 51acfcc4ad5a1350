import Haiker.Imports.Duplicates

/-!
This module contains what a second delivery of a job makes of an import whose worker has crashed.
-/

open Rust

namespace Imports

-- the rows that a completed import refers to
structure HasActivity (db : Database) (row : ImportRow) (activityId : Uuid) : Prop where
  refers : row.activityId = some activityId
  activity : ∃ activity, db.activities.find? activityId = some activity
  version : ∃ version, db.routeVersions.find? version.id = some version
    ∧ version.activityId = activityId ∧ version.versionNumber = 1
  track : ∃ track revision, db.recordedTracks.find? track.id = some track
    ∧ db.sourceRevisions.find? track.sourceRevisionId = some revision ∧ revision.activityId = activityId

section Delivery

variable (storage : Storage) (externals : Externals) (job : ParseGpxJob) (db : Database)

-- the worker crashes when it has carried out `n` commands
def crashed (n : Nat) : Database :=
  ((ParseGpxJobHandler.handle externals job).run.steps (answer storage) n db).1

def delivered : Database :=
  (execute (answer storage) (ParseGpxJobHandler.handle externals job) db).2

-- a completed import has its rows
def Sound : Prop :=
  ∃ row, db.imports.find? job.importId = some row ∧ row.ownerId = job.ownerId
    ∧ (parseStatus row.status = .completed → ∃ activityId, HasActivity db row activityId)

-- the import is failed, or completed with its rows
def Finished : Prop :=
  ∃ row, db.imports.find? job.importId = some row
    ∧ (parseStatus row.status = .failed
      ∨ parseStatus row.status = .completed ∧ ∃ activityId, HasActivity db row activityId)

/--
What makes the pipeline leave an import behind that it has taken from the queue.
-/
inductive Stuck (stored : Option Checksum) : Prop where
  | noChecksum {fileBytes : Bytes} (download : storage.download job.objectStorageKey = .ok fileBytes)
    (h : stored = none)
  | duplicate {fileBytes : Bytes} {checksum : Checksum} {parseResult : GpxParseResult}
    (download : storage.download job.objectStorageKey = .ok fileBytes) (stored : stored = some checksum)
    (hash : externals.sha256 fileBytes = checksum.value)
    (parse : externals.parseGpx fileBytes = .ok parseResult)
    (h : PgImportRepository.findCompletedByChecksum { val := job.ownerId } checksum db.imports ≠ none)
  | geometry {fileBytes : Bytes} {checksum : Checksum} {parseResult : GpxParseResult}
    {normalized : NormalizedTrack}
    (download : storage.download job.objectStorageKey = .ok fileBytes) (stored : stored = some checksum)
    (hash : externals.sha256 fileBytes = checksum.value)
    (parse : externals.parseGpx fileBytes = .ok parseResult)
    (normalize : externals.normalizeGpx parseResult = .ok normalized)
    (h : normalized.previewGeometry.length < 2)

/--
The crash has left the import finished, or not yet parsing and with a file that gets through.
-/
def Restartable : Prop :=
  ∃ row, db.imports.find? job.importId = some row
    ∧ (parseStatus row.status ∈ [.failed, .completed]
      ∨ parseStatus row.status ∈ [.uploaded, .validating, .queued]
        ∧ ¬Stuck storage externals job db (rowToImport row).checksum)

end Delivery

variable {storage : Storage} {externals : Externals} {job : ParseGpxJob} {db db' : Database}
  {row : ImportRow} {imp : Import} {imports : ImportTable}

theorem parseStatus_eq_completed_iff {status : String}
    : parseStatus status = .completed ↔ status = "completed" := by
  constructor
  . intro h
    unfold parseStatus at h
    split at h
    all_goals first | rfl | cases h
  . rintro rfl
    rfl

theorem status_setImport (imp : Import) (row : ImportRow)
    : parseStatus (PgImportRepository.setImport imp row).status = imp.status :=
  parseStatus_display imp.status

theorem checksum_setImport (imp : Import) (row : ImportRow)
    : (rowToImport (PgImportRepository.setImport imp row)).checksum = imp.checksum := by
  simp only [rowToImport, PgImportRepository.setImport]
  cases imp.checksum with
  | none => rfl
  | some checksum => simp [Except.toOption]

-- writing a status that is not final keeps the completed imports of others
theorem findCompletedByChecksum_update (hid : imp.id.val = job.importId)
    (hrow : db.imports.find? job.importId = some row) (hold : parseStatus row.status ≠ .completed)
    (hnew : imp.status ≠ .completed)
    (hupdate : PgImportRepository.update imp db.imports = .ok imports) (ownerId : Identity.UserId)
    (checksum : Checksum)
    : PgImportRepository.findCompletedByChecksum ownerId checksum imports = none
        ↔ PgImportRepository.findCompletedByChecksum ownerId checksum db.imports = none := by
  have hboth : ∀ k, (imports.find? k).bind completedChecksum = (db.imports.find? k).bind completedChecksum := by
    intro k
    by_cases hk : k = imp.id.val
    . rw [← hid] at hrow
      have hnone : completedChecksum row = none := by
        rw [completedChecksum, if_neg]
        exact fun h => hold (parseStatus_eq_completed_iff.mpr h)
      rw [hk, PgImportRepository.find?_update_self hupdate hrow, hrow]
      simp [hnone, PgImportRepository.completedChecksum_setImport hnew]
    . rw [PgImportRepository.find?_update_ne hupdate hk]
  simp only [PgImportRepository.findCompletedByChecksum_eq_none_iff]
  constructor
  . intro h k row' hrow' hcompleted
    have hthere : (imports.find? k).bind completedChecksum = some (ownerId.val, checksum.value) := by
      rw [hboth, hrow', Option.bind_some, hcompleted]
    obtain ⟨row'', hrow'', hcompleted'⟩ := Option.bind_eq_some_iff.mp hthere
    exact h k row'' hrow'' hcompleted'
  . intro h k row' hrow' hcompleted
    have hthere : (db.imports.find? k).bind completedChecksum = some (ownerId.val, checksum.value) := by
      rw [← hboth, hrow', Option.bind_some, hcompleted]
    obtain ⟨row'', hrow'', hcompleted'⟩ := Option.bind_eq_some_iff.mp hthere
    exact h k row'' hrow'' hcompleted'

theorem sound_update (h : Sound job db) (hid : imp.id.val = job.importId) (hnew : imp.status ≠ .completed)
    : Sound job (answer storage (.update imp) db).2 := by
  obtain ⟨row, hrow, howner, _⟩ := h
  obtain ⟨imports, _, hanswer, hrow'⟩ := answer_update_of_found storage imp hid hrow hnew
  rw [hanswer]
  refine ⟨PgImportRepository.setImport imp row, hrow', howner, ?_⟩
  intro hcompleted
  rw [status_setImport] at hcompleted
  exact absurd hcompleted hnew

theorem hasActivity_of_committed {data : ImportCommitData} {commitExternals : CommitExternals}
    (h : PgImportCommitter.Committed commitExternals data db db')
    : HasActivity db' (PgImportCommitter.setCompleted commitExternals data row) data.activityId.val where
  refers := rfl
  activity := ⟨_, by rw [h.find?_activities, if_pos rfl]⟩
  version := ⟨PgImportCommitter.initialVersion commitExternals data,
    by rw [Sql.Table.find?_insert? h.routeVersions, if_pos rfl], rfl, rfl⟩
  track := ⟨PgImportCommitter.recordedTrack commitExternals data,
    PgImportCommitter.sourceRevision commitExternals data,
    by rw [Sql.Table.find?_insert? h.recordedTracks, if_pos rfl],
    by rw [Sql.Table.find?_insert? h.sourceRevisions]; exact if_pos rfl, rfl⟩

theorem sound_committed {data : ImportCommitData} {commitExternals : CommitExternals}
    (h : Sound job db) (hid : data.importId.val = job.importId)
    (hcommitted : PgImportCommitter.Committed commitExternals data db db') : Sound job db' := by
  obtain ⟨row, hrow, howner, _⟩ := h
  rw [← hid] at hrow
  refine ⟨PgImportCommitter.setCompleted commitExternals data row, ?_, howner, ?_⟩
  . rw [← hid]
    exact hcommitted.find?_import hrow
  . exact fun _ => ⟨_, hasActivity_of_committed hcommitted⟩

theorem not_finished_of_status (hrow : db.imports.find? job.importId = some row)
    (h : parseStatus row.status = .parsing ∨ parseStatus row.status = .committing)
    : ¬Finished job db := by
  rintro ⟨row', hrow', hstatus⟩
  obtain rfl : row = row' := Option.some.inj (hrow.symm.trans hrow')
  obtain h | h := h
  . rw [h] at hstatus
    simp at hstatus
  . rw [h] at hstatus
    simp at hstatus

theorem finished_of_failed (hid : imp.id.val = job.importId)
    (hrow : db.imports.find? job.importId = some row) {now : Timestamp} {reason : String}
    {code : FailureCode}
    : Finished job (answer storage (.update (imp.failed now reason code)) db).2 := by
  have hfailed : (imp.failed now reason code).status ≠ .completed := by
    simp [Import.failed, Import.at_]
  obtain ⟨imports, _, hanswer, hrow'⟩ :=
    answer_update_of_found storage (imp.failed now reason code) hid hrow hfailed
  rw [hanswer]
  exact ⟨_, hrow', .inl (status_setImport _ row)⟩

theorem finished_of_failing {α : Type} {outcome : Except ImportError α × Database} {now : Timestamp}
    (hid : imp.id.val = job.importId) (hrow : db.imports.find? job.importId = some row)
    (h : ImportOrchestrator.Failing (answer storage) now imp db outcome) : Finished job outcome.2 := by
  obtain ⟨error, reason, code, houtcome⟩ := h
  have hfailed : (imp.failed now reason code).status ≠ .completed := by
    simp [Import.failed, Import.at_]
  have hfinished : Finished job (answer storage (.update (imp.failed now reason code)) db).2 :=
    finished_of_failed hid hrow
  obtain ⟨imports, _, hanswer⟩ := exists_answer_update storage db hfailed
  rw [hanswer] at hfinished
  rw [houtcome, hanswer, Program.onOk_ok]
  exact hfinished

variable {normalized : NormalizedTrack} {fileBytes : Bytes} {checksum : Checksum}
  {parseResult : GpxParseResult}

theorem finished_commitNew_iff (hid : imp.id.val = job.importId) (hcommitting : imp.status = .committing)
    (hrow : db.imports.find? job.importId = some row) (hstored : parseStatus row.status = .committing)
    : Finished job (execute (answer storage) (ImportOrchestrator.commitNew externals imp
        { val := job.importId } { val := job.ownerId } job.objectStorageKey job.correlationId fileBytes
        checksum.value normalized) db).2
        ↔ ¬normalized.previewGeometry.length < 2 := by
  rw [← ImportOrchestrator.newVersion_eq_error_iff]
  cases hversion : ImportOrchestrator.newVersion externals { val := job.ownerId } normalized with
  | error e =>
    rw [ImportOrchestrator.execute_commitNew_of_no_version hversion]
    exact iff_of_false (not_finished_of_status hrow (.inr hstored)) fun h => h ⟨e, rfl⟩
  | ok version =>
    refine iff_of_true ?_ (by simp)
    obtain ⟨e, hcommit⟩ | ⟨db', hcommit, hcommitted⟩ := answer_commit_cases storage externals.commit
      (ImportOrchestrator.commitData externals imp { val := job.importId } { val := job.ownerId }
        job.objectStorageKey job.correlationId fileBytes checksum.value normalized version) db
    . rw [ImportOrchestrator.execute_commitNew_of_not_committed hcommitting hversion hcommit]
      exact finished_of_failed hid hrow
    . rw [ImportOrchestrator.execute_commitNew_of_committed hversion hcommit]
      have hrow' := hcommitted.find?_import hrow
      exact ⟨_, hrow', .inr ⟨rfl, _, hasActivity_of_committed hcommitted⟩⟩

theorem finished_finishNew_iff (hid : imp.id.val = job.importId) (hparsing : imp.status = .parsing)
    (hrow : db.imports.find? job.importId = some row)
    (hnormalize : externals.normalizeGpx parseResult = .ok normalized)
    : Finished job (execute (answer storage) (ImportOrchestrator.finishNew externals imp
        { val := job.importId } { val := job.ownerId } job.objectStorageKey job.correlationId fileBytes
        checksum.value parseResult) db).2
        ↔ ¬normalized.previewGeometry.length < 2 := by
  rw [ImportOrchestrator.execute_finishNew hparsing hnormalize]
  have hcommitting : (imp.at_ externals.now .committing).status ≠ .completed := by simp [Import.at_]
  obtain ⟨imports, _, hanswer, hrow'⟩ :=
    answer_update_of_found storage (imp.at_ externals.now .committing) hid hrow hcommitting
  rw [hanswer, Program.onOk_ok]
  exact finished_commitNew_iff hid rfl hrow' (status_setImport _ row)

theorem finished_finish_iff (hid : imp.id.val = job.importId) (hparsing : imp.status = .parsing)
    (hchecksum : imp.checksum = some checksum) (hrow : db.imports.find? job.importId = some row)
    (howner : row.ownerId = job.ownerId) (hstored : parseStatus row.status = .parsing)
    : Finished job (execute (answer storage) (ImportOrchestrator.finish externals imp
        { val := job.importId } { val := job.ownerId } job.objectStorageKey job.correlationId fileBytes
        checksum.value parseResult) db).2
        ↔ PgImportRepository.findCompletedByChecksum { val := job.ownerId } checksum db.imports = none
          ∧ ∀ normalized, externals.normalizeGpx parseResult = .ok normalized →
            ¬normalized.previewGeometry.length < 2 := by
  by_cases hfound : PgImportRepository.findCompletedByChecksum { val := job.ownerId } checksum db.imports
    = none
  . rw [ImportOrchestrator.execute_finish]
    simp only [answer, hfound, DuplicateCheckResult.ofFound, Program.onOk_ok, true_and]
    cases hnormalize : externals.normalizeGpx parseResult with
    | error e =>
      refine iff_of_true ?_ fun normalized h => by cases h
      exact finished_of_failing hid hrow (ImportOrchestrator.failing_finishNew hparsing hnormalize)
    | ok normalized =>
      rw [finished_finishNew_iff hid hparsing hrow hnormalize]
      constructor
      . intro h normalized' heq
        cases heq
        exact h
      . exact fun h => h normalized rfl
  . have hnot : row.status ≠ "completed" := by
      intro h
      rw [h] at hstored
      simp [parseStatus] at hstored
    have hrow' : db.imports.find? imp.id.val = some row := by rw [hid, hrow]
    rw [execute_finish_of_completed hrow' howner hnot hparsing hchecksum hfound]
    exact iff_of_false (not_finished_of_status hrow (.inl hstored)) fun h => hfound h.1

theorem stuck_iff_of_reads {stored : Option Checksum}
    (hdownload : storage.download job.objectStorageKey = .ok fileBytes) (hstored : stored = some checksum)
    (hhash : externals.sha256 fileBytes = checksum.value)
    (hparse : externals.parseGpx fileBytes = .ok parseResult)
    : Stuck storage externals job db stored
        ↔ PgImportRepository.findCompletedByChecksum { val := job.ownerId } checksum db.imports ≠ none
          ∨ ∃ normalized, externals.normalizeGpx parseResult = .ok normalized
            ∧ normalized.previewGeometry.length < 2 := by
  constructor
  . intro h
    cases h with
    | noChecksum _ h =>
      rw [h] at hstored
      cases hstored
    | duplicate download stored _ _ h =>
      obtain rfl := Option.some.inj (stored.symm.trans hstored)
      exact .inl h
    | geometry download _ _ parse normalize h =>
      obtain rfl := Except.ok.inj (download.symm.trans hdownload)
      obtain rfl := Except.ok.inj (parse.symm.trans hparse)
      exact .inr ⟨_, normalize, h⟩
  . rintro (h | ⟨normalized, normalize, h⟩)
    . exact .duplicate hdownload hstored hhash hparse h
    . exact .geometry hdownload hstored hhash hparse normalize h

-- an import that is failed on reading does not get stuck
theorem not_stuck_of_failing (imp : Import) (hrow : db.imports.find? job.importId = some row)
    (hparsing : parseStatus row.status = .parsing) (hid : imp.id.val = job.importId)
    (h : ImportOrchestrator.Failing (answer storage) externals.now imp db
      (execute (answer storage) (ImportOrchestrator.readFile externals imp job.objectStorageKey) db))
    : ¬Stuck storage externals job db' imp.checksum := by
  have hfinished := finished_of_failing hid hrow h
  obtain ⟨e, herror⟩ := h.isError
  intro hstuck
  cases hstuck with
  | noChecksum download hnone =>
    have hread : answer storage (.download job.objectStorageKey) db = (.ok _, db) :=
      congrArg (·, db) download
    rw [ImportOrchestrator.execute_readFile_of_no_checksum hread hnone] at hfinished
    exact not_finished_of_status hrow (.inl hparsing) hfinished
  | duplicate download stored hash parse _ | geometry download stored hash parse _ _ =>
    rw [ImportOrchestrator.execute_readFile_of_reads
      ⟨congrArg (·, db) download, stored, hash, parse⟩] at herror
    cases herror

theorem finished_processImport_iff (hrow : db.imports.find? job.importId = some row)
    (howner : row.ownerId = job.ownerId) (hqueued : parseStatus row.status = .queued)
    : Finished job (execute (answer storage) (ParseGpxJobHandler.processImport externals job) db).2
        ↔ ¬Stuck storage externals job db (rowToImport row).checksum := by
  have hkey : row.id = job.importId := Sql.Table.key_of_find? hrow
  have hfind : answer storage (.findById { val := job.importId }) db
      = (.ok (some (rowToImport row)), db) := answer_findById_of_found storage hrow
  have hid : (parsing externals (rowToImport row)).id.val = job.importId := hkey
  have hparsing : (parsing externals (rowToImport row)).status ≠ .completed := by
    simp [parsing, Import.at_]
  obtain ⟨imports, hupdate, hanswer, hrow'⟩ := answer_update_of_found storage _ hid hrow hparsing
  have hstored : parseStatus
      (PgImportRepository.setImport (parsing externals (rowToImport row)) row).status = .parsing :=
    status_setImport _ _
  have howner' : (PgImportRepository.setImport (parsing externals (rowToImport row)) row).ownerId
      = job.ownerId := howner
  have hfound := findCompletedByChecksum_update hid hrow (by rw [hqueued]; simp) hparsing hupdate
    { val := job.ownerId }
  have hterminal : (parsing externals (rowToImport row)).status.isTerminal = false := rfl
  have hkept : (answer storage (.download job.objectStorageKey) { db with imports }).2
      = { db with imports } := rfl
  unfold ParseGpxJobHandler.processImport
  rw [ImportOrchestrator.execute_processImport hfind hqueued hanswer]
  obtain ⟨fileBytes, checksum, parseResult, hreads⟩ | ⟨hchecksum, fileBytes, hdownload⟩ | hfailing :=
    ImportOrchestrator.execute_readFile_cases externals hterminal hkept
  . have hdownload : storage.download job.objectStorageKey = .ok fileBytes :=
      congrArg Prod.fst hreads.download
    have hchecksum : (rowToImport row).checksum = some checksum := hreads.stored
    rw [← parsing, ImportOrchestrator.execute_readFile_of_reads hreads, Program.onOk_ok]
    simp only
    rw [finished_finish_iff hid rfl hreads.stored hrow' howner' hstored, hfound,
      stuck_iff_of_reads hdownload hchecksum hreads.hash hreads.parse, not_or, not_not, not_exists]
    simp only [not_and]
  . have hread : storage.download job.objectStorageKey = .ok fileBytes := congrArg Prod.fst hdownload
    rw [← parsing, ImportOrchestrator.execute_readFile_of_no_checksum hdownload hchecksum,
      Program.onOk_error]
    exact iff_of_false (not_finished_of_status hrow' (.inl hstored)) fun h => h (.noChecksum hread hchecksum)
  . rw [← parsing]
    refine iff_of_true (finished_of_failing hid hrow' (hfailing.onOk _)) ?_
    exact not_stuck_of_failing (parsing externals (rowToImport row)) hrow' hstored hid hfailing

theorem Stuck.mono {stored : Option Checksum} (h : Stuck storage externals job db stored)
    (hfound : ∀ checksum,
      PgImportRepository.findCompletedByChecksum { val := job.ownerId } checksum db'.imports = none →
        PgImportRepository.findCompletedByChecksum { val := job.ownerId } checksum db.imports = none)
    : Stuck storage externals job db' stored := by
  cases h with
  | noChecksum download h => exact .noChecksum download h
  | duplicate download stored hash parse h =>
    exact .duplicate download stored hash parse fun hnone => h (hfound _ hnone)
  | geometry download stored hash parse normalize h =>
    exact .geometry download stored hash parse normalize h

theorem finished_iff_of_found (h : Sound job db) (hrow : db.imports.find? job.importId = some row)
    : Finished job db ↔ parseStatus row.status ∈ [.failed, .completed] := by
  obtain ⟨row', hrow', _, hcompleted⟩ := h
  obtain rfl : row = row' := Option.some.inj (hrow.symm.trans hrow')
  simp only [List.mem_cons, List.not_mem_nil, or_false]
  constructor
  . rintro ⟨row', hrow', hstatus⟩
    obtain rfl : row = row' := Option.some.inj (hrow.symm.trans hrow')
    exact hstatus.imp_right And.left
  . intro hstatus
    exact ⟨row, hrow, hstatus.imp_right fun h => ⟨h, hcompleted h⟩⟩

theorem restartable_iff_of_found (hrow : db.imports.find? job.importId = some row)
    : Restartable storage externals job db
        ↔ parseStatus row.status ∈ [.failed, .completed]
          ∨ parseStatus row.status ∈ [.uploaded, .validating, .queued]
            ∧ ¬Stuck storage externals job db (rowToImport row).checksum := by
  constructor
  . rintro ⟨row', hrow', h⟩
    obtain rfl : row = row' := Option.some.inj (hrow.symm.trans hrow')
    exact h
  . exact fun h => ⟨row, hrow, h⟩

theorem not_final_of_early {status : ImportStatus} (h : status ∈ [.uploaded, .validating, .queued])
    : status ∉ [.failed, .completed] := by
  simp only [List.mem_cons, List.not_mem_nil, or_false] at h
  obtain rfl | rfl | rfl := h
  . simp
  . simp
  . simp

theorem finished_delivered_iff (h : Sound job db)
    : Finished job (delivered storage externals job db) ↔ Restartable storage externals job db := by
  obtain ⟨row, hrow, howner, _⟩ := id h
  have hkey : row.id = job.importId := Sql.Table.key_of_find? hrow
  have hfind : answer storage (.findById { val := job.importId }) db
      = (.ok (some (rowToImport row)), db) := answer_findById_of_found storage hrow
  have hstatus : (rowToImport row).status = parseStatus row.status := rfl
  unfold delivered
  rw [ParseGpxJobHandler.execute_handle fun _ _ => rfl, restartable_iff_of_found hrow]
  obtain ⟨hearly, hqueue⟩ | ⟨hlate, hqueue⟩ | ⟨hother, e, hqueue⟩ :=
    ParseGpxJobHandler.execute_queue_cases externals hfind
  . have hid : ((rowToImport row).at_ externals.now .queued).id.val = job.importId := hkey
    have hqueued : ((rowToImport row).at_ externals.now .queued).status ≠ .completed := by
      simp [Import.at_]
    obtain ⟨imports, hupdate, hanswer, hrow'⟩ := answer_update_of_found storage _ hid hrow hqueued
    have hstored : parseStatus (PgImportRepository.setImport
        ((rowToImport row).at_ externals.now .queued) row).status = .queued := status_setImport _ _
    have howner' : (PgImportRepository.setImport ((rowToImport row).at_ externals.now .queued)
        row).ownerId = job.ownerId := howner
    have hold : parseStatus row.status ≠ .completed := by
      intro hcompleted
      rw [hstatus, hcompleted] at hearly
      simp at hearly
    have hfound := findCompletedByChecksum_update hid hrow hold hqueued hupdate { val := job.ownerId }
    have hchecksum := checksum_setImport ((rowToImport row).at_ externals.now .queued) row
    rw [hqueue _ hanswer, Program.onOk_ok, finished_processImport_iff hrow' howner' hstored, hchecksum]
    have hstuck : Stuck storage externals job { db with imports } (rowToImport row).checksum
        ↔ Stuck storage externals job db (rowToImport row).checksum :=
      ⟨fun h => h.mono fun c => (hfound c).mpr, fun h => h.mono fun c => (hfound c).mp⟩
    have hearly' : parseStatus row.status ∈ [.uploaded, .validating, .queued] := by
      rw [← hstatus]
      simp only [List.mem_cons, List.not_mem_nil, or_false] at hearly ⊢
      exact hearly.imp_right .inl
    have hnot := not_final_of_early hearly'
    exact (not_congr hstuck).trans ⟨fun h => .inr ⟨hearly', h⟩, fun h => (h.resolve_left hnot).2⟩
  . rw [hqueue, Program.onOk_ok]
    simp only [List.mem_cons, List.not_mem_nil, or_false] at hlate
    obtain hqueued | hparsing := hlate
    . have hearly : parseStatus row.status ∈ [.uploaded, .validating, .queued] := by
        rw [← hstatus, hqueued]
        simp
      rw [finished_processImport_iff hrow howner hqueued]
      exact ⟨fun h => .inr ⟨hearly, h⟩, fun h => (h.resolve_left (not_final_of_early hearly)).2⟩
    . have hnot : (rowToImport row).status ≠ .queued := by
        rw [hparsing]
        simp
      unfold ParseGpxJobHandler.processImport ImportOrchestrator.processImport
      rw [execute_bind, ImportOrchestrator.execute_start_of_not_queued hfind hnot, Program.onOk_error]
      refine iff_of_false (not_finished_of_status hrow (.inl hparsing)) ?_
      rw [← hstatus, hparsing]
      simp
  . rw [hqueue, Program.onOk_error, finished_iff_of_found h hrow]
    refine ⟨.inl, fun h => h.resolve_right ?_⟩
    rintro ⟨hearly, _⟩
    rw [← hstatus] at hearly
    simp only [List.mem_cons, List.not_mem_nil, or_false] at hearly hother
    exact hother (hearly.imp_right (Or.imp_right .inl))

/-
The states that a delivery passes through.
-/

theorem keeps_update (hid : imp.id.val = job.importId) (hnew : imp.status ≠ .completed)
    (h : Sound job db) : Keeps (answer storage) (Sound job) (update imp) db :=
  ⟨h, sound_update h hid hnew⟩

theorem keeps_failImport {α : Type} (hid : imp.id.val = job.importId) (h : Sound job db)
    (reason : String) (code : FailureCode) (error : ImportError)
    : Keeps (answer storage) (Sound job)
      (ImportOrchestrator.failImport externals.now imp reason code error : ImportM α) db := by
  unfold ImportOrchestrator.failImport
  refine Keeps.bind _ h ?_
  intro failed s' hfailed hs'
  obtain ⟨hid', hstatus⟩ := Import.of_failWithCode_eq_ok (congrArg Prod.fst hfailed)
  have hnew : failed.status ≠ .completed := by simp [hstatus]
  exact Keeps.bind _ (keeps_update (by rw [hid', hid]) hnew hs') fun _ _ _ hs'' => hs''

theorem keeps_start (h : Sound job db)
    : Keeps (answer storage) (Sound job) (ImportOrchestrator.start externals { val := job.importId })
      db := by
  unfold ImportOrchestrator.start
  refine Keeps.bind _ ⟨h, h⟩ ?_
  intro found s' hfound hs'
  have hfind := congrArg Prod.fst hfound
  simp only [execute_findById, answer_findById, Except.ok.injEq] at hfind
  cases found with
  | none => exact hs'
  | some imp =>
    have hid := PgImportRepository.id_of_findById hfind
    simp only
    split
    . refine Keeps.bind _ hs' ?_
      intro parsing s'' hparsing hs''
      obtain rfl := Import.moveTo_eq_ok (congrArg Prod.fst hparsing)
      have hnew : (imp.at_ externals.now .parsing).status ≠ .completed := by simp [Import.at_]
      exact Keeps.bind _ (keeps_update (congrArg (·.val) hid) hnew hs'') fun _ _ _ hs => hs
    . exact hs'

theorem keeps_readFile (hid : imp.id.val = job.importId) (h : Sound job db)
    : Keeps (answer storage) (Sound job)
      (ImportOrchestrator.readFile externals imp job.objectStorageKey) db := by
  unfold ImportOrchestrator.readFile
  refine Keeps.bind _ ⟨h, h⟩ ?_
  intro reply s' _ hs'
  cases reply with
  | error e => exact keeps_failImport hid hs' _ _ _
  | ok fileBytes =>
    simp only
    cases imp.checksum with
    | none => exact hs'
    | some checksum =>
      simp only
      split
      . cases externals.parseGpx fileBytes with
        | error e => exact keeps_failImport hid hs' _ _ _
        | ok parseResult => exact hs'
      . exact keeps_failImport hid hs' _ _ _

theorem keeps_commitNew {computedHash : String} (hid : imp.id.val = job.importId)
    (hcommitting : imp.status = .committing) (h : Sound job db)
    : Keeps (answer storage) (Sound job) (ImportOrchestrator.commitNew externals imp
        { val := job.importId } { val := job.ownerId } job.objectStorageKey job.correlationId fileBytes
        computedHash normalized) db := by
  unfold ImportOrchestrator.commitNew
  cases ImportOrchestrator.newVersion externals { val := job.ownerId } normalized with
  | error e => exact h
  | ok version =>
    have hcommit : Sound job (answer storage (.commit externals.commit
        (ImportOrchestrator.commitData externals imp { val := job.importId } { val := job.ownerId }
          job.objectStorageKey job.correlationId fileBytes computedHash normalized version)) db).2 := by
      obtain ⟨e, hcommit⟩ | ⟨db', hcommit, hcommitted⟩ := answer_commit_cases storage externals.commit _ db
      . rw [hcommit]
        exact h
      . rw [hcommit]
        exact sound_committed h rfl hcommitted
    refine Keeps.bind _ ⟨h, hcommit⟩ ?_
    intro reply s' _ hs'
    cases reply with
    | ok activityId => exact hs'
    | error e =>
      simp only
      have hterminal : imp.status.isTerminal = false := by
        rw [hcommitting]
        rfl
      rw [imp.failWithCode_of_not_terminal externals.now hterminal]
      have hnew : (imp.failed externals.now ("commit failed: " ++ e.display) .internalError).status
          ≠ .completed := by
        simp [Import.failed, Import.at_]
      exact Keeps.bind _ ⟨hs', sound_update hs' hid hnew⟩ fun _ _ _ hs'' => hs''

theorem keeps_finishNew {computedHash : String} (hid : imp.id.val = job.importId) (h : Sound job db)
    : Keeps (answer storage) (Sound job) (ImportOrchestrator.finishNew externals imp
        { val := job.importId } { val := job.ownerId } job.objectStorageKey job.correlationId fileBytes
        computedHash parseResult) db := by
  unfold ImportOrchestrator.finishNew
  cases externals.normalizeGpx parseResult with
  | error e => exact keeps_failImport hid h _ _ _
  | ok normalized =>
    refine Keeps.bind _ h ?_
    intro committing s' hcommitting hs'
    obtain rfl := Import.moveTo_eq_ok (congrArg Prod.fst hcommitting)
    have hnew : (imp.at_ externals.now .committing).status ≠ .completed := by simp [Import.at_]
    exact Keeps.bind _ ⟨hs', sound_update hs' hid hnew⟩ fun _ _ _ hs'' => keeps_commitNew hid rfl hs''

-- the index refuses the duplicate
theorem keeps_finishDuplicate (hid : imp.id.val = job.importId)
    (hchecksum : imp.checksum = some checksum) (hrow : db.imports.find? job.importId = some row)
    (hstored : parseStatus row.status = .parsing) (h : Sound job db) {existingImportId : ImportId}
    {existingActivityId : Option ActivityCatalog.ActivityId}
    (hfound : PgImportRepository.findCompletedByChecksum { val := job.ownerId } checksum db.imports
      = some (existingImportId, existingActivityId))
    : Keeps (answer storage) (Sound job)
      (ImportOrchestrator.finishDuplicate externals imp existingImportId existingActivityId) db := by
  have howner : row.ownerId = job.ownerId := by
    obtain ⟨row', hrow', howner, _⟩ := h
    obtain rfl : row = row' := Option.some.inj (hrow.symm.trans hrow')
    exact howner
  have hnot : row.status ≠ "completed" := by
    intro hcompleted
    rw [hcompleted] at hstored
    simp [parseStatus] at hstored
  obtain ⟨other, hother, hcompleted, _⟩ :=
    PgImportRepository.completed_of_findCompletedByChecksum hfound
  have hrow' : db.imports.find? imp.id.val = some row := by rw [hid, hrow]
  have hclash := clashes_of_completed externals hrow' howner hnot hchecksum hother hcompleted
    existingActivityId
  have hrow'' : db.imports.find?
      ((imp.setActivity existingActivityId).at_ externals.now .completed).id.val = some row := hrow'
  have hrefused := answer_update_of_error storage
    (PgImportRepository.update_of_clash hrow'' hclash)
  unfold ImportOrchestrator.finishDuplicate
  refine Keeps.bind _ h ?_
  intro committing s' hcommitting hs'
  refine Keeps.bind _ hs' ?_
  intro completed s'' hcomplete hs''
  obtain rfl : db = s' := congrArg Prod.snd hcommitting
  obtain rfl : db = s'' := congrArg Prod.snd hcomplete
  obtain rfl := Import.moveTo_eq_ok (congrArg Prod.fst hcommitting)
  obtain rfl := Import.moveTo_eq_ok (congrArg Prod.fst hcomplete)
  have hkept : Sound job (answer storage (.update
      ((imp.setActivity existingActivityId).at_ externals.now .completed)) db).2 := by
    rw [hrefused]
    exact h
  exact Keeps.bind _ ⟨h, hkept⟩ fun _ _ _ hs => hs

theorem keeps_finish (hid : imp.id.val = job.importId) (hchecksum : imp.checksum = some checksum)
    (hrow : db.imports.find? job.importId = some row) (hstored : parseStatus row.status = .parsing)
    (h : Sound job db)
    : Keeps (answer storage) (Sound job) (ImportOrchestrator.finish externals imp
        { val := job.importId } { val := job.ownerId } job.objectStorageKey job.correlationId fileBytes
        checksum.value parseResult) db := by
  unfold ImportOrchestrator.finish
  refine Keeps.bind _ h ?_
  intro checksum' s' hnew hs'
  obtain rfl : db = s' := congrArg Prod.snd hnew
  obtain rfl : checksum = checksum' := by
    have hsame := congrArg Prod.fst hnew
    rw [execute_ofExcept, Checksum.new_value] at hsame
    exact Except.ok.inj hsame
  refine Keeps.bind _ ⟨hs', hs'⟩ ?_
  intro result s'' hcheck hs''
  obtain rfl : db = s'' := congrArg Prod.snd hcheck
  have hresult := congrArg Prod.fst hcheck
  simp only [execute_check, answer, Except.ok.injEq] at hresult
  cases result with
  | notDuplicate => exact keeps_finishNew hid h
  | exactDuplicate existingImportId existingActivityId =>
    apply keeps_finishDuplicate hid hchecksum hrow hstored h
    cases hfound : PgImportRepository.findCompletedByChecksum { val := job.ownerId } checksum
        db.imports with
    | none =>
      rw [hfound] at hresult
      cases hresult
    | some found =>
      rw [hfound] at hresult
      cases hresult
      rfl

theorem of_execute_start_eq_ok (h : execute (answer storage)
      (ImportOrchestrator.start externals { val := job.importId }) db = (.ok imp, db'))
    : imp.id.val = job.importId ∧ imp.status = .parsing
        ∧ ∃ row, db'.imports.find? job.importId = some row ∧ parseStatus row.status = .parsing := by
  cases hrow : db.imports.find? job.importId with
  | none =>
    unfold ImportOrchestrator.start at h
    have hfind : answer storage (.findById { val := job.importId }) db = (.ok none, db) := by
      simp [answer_findById, PgImportRepository.findById, hrow]
    rw [execute_bind, execute_findById, hfind, Program.onOk_ok] at h
    cases h
  | some row =>
    have hkey : row.id = job.importId := Sql.Table.key_of_find? hrow
    have hfind : answer storage (.findById { val := job.importId }) db
        = (.ok (some (rowToImport row)), db) := answer_findById_of_found storage hrow
    by_cases hqueued : (rowToImport row).status = .queued
    . have hid : (parsing externals (rowToImport row)).id.val = job.importId := hkey
      have hparsing : (parsing externals (rowToImport row)).status ≠ .completed := by
        simp [parsing, Import.at_]
      obtain ⟨imports, _, hanswer, hrow'⟩ := answer_update_of_found storage _ hid hrow hparsing
      rw [ImportOrchestrator.execute_start_of_queued hfind hqueued, ← parsing, hanswer,
        Program.onOk_ok] at h
      obtain ⟨himp, rfl⟩ := Prod.mk.inj h
      obtain rfl := Except.ok.inj himp
      exact ⟨hid, rfl, _, hrow', status_setImport _ _⟩
    . rw [ImportOrchestrator.execute_start_of_not_queued hfind hqueued] at h
      cases h

theorem keeps_processImport (h : Sound job db)
    : Keeps (answer storage) (Sound job) (ParseGpxJobHandler.processImport externals job) db := by
  unfold ParseGpxJobHandler.processImport ImportOrchestrator.processImport
  refine Keeps.bind _ (keeps_start h) ?_
  intro imp s' hstart hs'
  obtain ⟨hid, hparsing, row, hrow, hstored⟩ := of_execute_start_eq_ok hstart
  have hterminal : imp.status.isTerminal = false := by
    rw [hparsing]
    rfl
  have hkept : (answer storage (.download job.objectStorageKey) s').2 = s' := rfl
  refine Keeps.bind _ (keeps_readFile hid hs') ?_
  intro read s'' hread hs''
  obtain ⟨fileBytes, checksum, parseResult, hreads⟩ | ⟨hchecksum, fileBytes, hdownload⟩ | hfailing :=
    ImportOrchestrator.execute_readFile_cases externals hterminal hkept
  . rw [ImportOrchestrator.execute_readFile_of_reads hreads] at hread
    cases hread
    exact keeps_finish hid hreads.stored hrow hstored hs'
  . rw [ImportOrchestrator.execute_readFile_of_no_checksum hdownload hchecksum] at hread
    cases hread
  . obtain ⟨e, herror⟩ := hfailing.isError
    rw [hread] at herror
    cases herror

theorem keeps_persistQueued (hid : imp.id.val = job.importId) (hnew : imp.status ≠ .completed)
    (h : Sound job db)
    : Keeps (answer storage) (Sound job) (ParseGpxJobHandler.persistQueued imp) db := by
  unfold ParseGpxJobHandler.persistQueued
  exact Keeps.bind _ ⟨h, sound_update h hid hnew⟩ fun _ _ _ hs' => hs'

theorem keeps_queue (h : Sound job db)
    : Keeps (answer storage) (Sound job) (ParseGpxJobHandler.queue externals job) db := by
  unfold ParseGpxJobHandler.queue
  refine Keeps.bind _ ⟨h, h⟩ ?_
  intro reply s' hreply hs'
  have hfind : answer storage (.findById { val := job.importId }) db = (reply, s') := by
    rw [execute_attempt] at hreply
    exact Prod.ext (Except.ok.inj (Prod.mk.inj hreply).1) (Prod.mk.inj hreply).2
  refine Keeps.bind _ hs' ?_
  intro found s'' hfound hs''
  obtain rfl := ParseGpxJobHandler.of_execute_orFail_eq_ok hfound
  cases found with
  | none => exact hs''
  | some imp =>
    have hid : imp.id = { val := job.importId } :=
      PgImportRepository.id_of_findById (Except.ok.inj (congrArg Prod.fst hfind))
    have hval : imp.id.val = job.importId := congrArg (·.val) hid
    simp only
    split
    . refine Keeps.bind _ hs'' ?_
      intro validating _ hvalidating hs
      obtain rfl := Import.moveTo_eq_ok (ParseGpxJobHandler.of_execute_orFail_eq_ok hvalidating)
      refine Keeps.bind _ hs ?_
      intro queued _ hqueued hs
      obtain rfl := Import.moveTo_eq_ok (ParseGpxJobHandler.of_execute_orFail_eq_ok hqueued)
      exact keeps_persistQueued hval (by simp [Import.at_]) hs
    . refine Keeps.bind _ hs'' ?_
      intro queued _ hqueued hs
      obtain rfl := Import.moveTo_eq_ok (ParseGpxJobHandler.of_execute_orFail_eq_ok hqueued)
      exact keeps_persistQueued hval (by simp [Import.at_]) hs
    . exact hs''
    . exact hs''
    . exact hs''

theorem keeps_handle (h : Sound job db)
    : Keeps (answer storage) (Sound job) (ParseGpxJobHandler.handle externals job) db := by
  unfold ParseGpxJobHandler.handle
  refine Keeps.bind _ (keeps_queue h) ?_
  intro _ s' _ hs'
  refine Keeps.bind _ ((keeps_lift _ _ _).mpr (keeps_processImport hs')) ?_
  intro result s'' _ hs''
  cases result with
  | ok _ => exact hs''
  | error e => exact Keeps.bind _ ⟨hs'', hs''⟩ fun _ _ _ hs => hs

theorem sound_crashed (h : Sound job db) (n : Nat) : Sound job (crashed storage externals job db n) :=
  Program.Always.steps _ (keeps_handle h) n

def sampleJob : ParseGpxJob where
  importId := ⟨1⟩
  ownerId := ⟨2⟩
  objectStorageKey := "key"
  correlationId := ⟨11⟩

def sampleUploaded : Database := { sampleImports with
  imports := ⟨[{ sampleQueued with status := "uploaded" }], by decide⟩
}

theorem sound_sampleUploaded : Sound sampleJob sampleUploaded :=
  ⟨_, rfl, rfl, fun h => by simp [parseStatus] at h⟩

def sampleStoredStatus (db : Database) : Option String := (db.imports.find? ⟨1⟩).map (·.status)

end Imports
