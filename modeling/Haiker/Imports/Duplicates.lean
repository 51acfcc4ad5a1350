import Haiker.Imports.Stranded
import Haiker.Imports.Workers

/-!
This module contains what becomes of an import whose file has been imported before.
-/

open Rust

namespace Imports

variable (storage : Storage) (externals : Externals) (db : Database) (id : ImportId) (key : String)
  (correlationId : Uuid) (row earlier : ImportRow)

-- the import is queued, and its file has the checksum of a completed import of the same owner
structure Duplicates : Prop where
  found : db.imports.find? id.val = some row
  queued : row.status = "queued"
  foundEarlier : db.imports.find? earlier.id = some earlier
  completed : earlier.status = "completed"
  owner : earlier.ownerId = row.ownerId
  file : ∃ fileBytes, storage.download key = .ok fileBytes
    ∧ earlier.checksum = some (externals.sha256 fileBytes)

def processStored : Except ImportError ImportProcessingResult × Database :=
  execute (answer storage)
    (ImportOrchestrator.processImport externals id { val := row.ownerId } key correlationId) db

-- the import is completed, and refers to the activity that is there already
def CompletesWithEarlier (outcome : Except ImportError ImportProcessingResult × Database) : Prop :=
  (∃ result, outcome.1 = .ok result)
    ∧ (∃ row', outcome.2.imports.find? id.val = some row' ∧ row'.status = "completed"
      ∧ row'.activityId = earlier.activityId)
    ∧ outcome.2.activities = db.activities

variable {storage externals db id key correlationId row earlier}

theorem completedChecksum_earlier (h : Duplicates storage externals db id key row earlier)
    {fileBytes : Bytes} (hdownload : storage.download key = .ok fileBytes)
    : completedChecksum earlier = some (row.ownerId, externals.sha256 fileBytes) := by
  obtain ⟨bytes, hbytes, hchecksum⟩ := h.file
  obtain rfl : bytes = fileBytes := Except.ok.inj (hbytes.symm.trans hdownload)
  exact PgImportRepository.completedChecksum_eq_some_iff.mpr ⟨h.owner, hchecksum, h.completed⟩

theorem Duplicates.id_ne (h : Duplicates storage externals db id key row earlier)
    : earlier.id ≠ id.val := by
  intro hid
  have hsame := h.foundEarlier
  rw [hid, h.found, Option.some.injEq] at hsame
  have hqueued := h.queued
  rw [hsame, h.completed] at hqueued
  exact absurd hqueued (by decide)

variable {imp : Import} {imports : ImportTable} {fileBytes : Bytes} {checksum : Checksum}
  {parseResult : GpxParseResult} {ownerId : Identity.UserId}

theorem clashes_of_completed (externals : Externals)
    (hrow : db.imports.find? imp.id.val = some row)
    (howner : row.ownerId = ownerId.val) (hnot : row.status ≠ "completed")
    (hchecksum : imp.checksum = some checksum) {other : ImportRow} {k : Uuid}
    (hother : db.imports.find? k = some other)
    (hcompleted : completedChecksum other = some (ownerId.val, checksum.value))
    (activityId : Option ActivityCatalog.ActivityId)
    : db.imports.clashes completedChecksum (PgImportRepository.setImport
        ((imp.setActivity activityId).at_ externals.now .completed) row) = true := by
  have hnew : completedChecksum (PgImportRepository.setImport
      ((imp.setActivity activityId).at_ externals.now .completed) row)
        = some (ownerId.val, checksum.value) := by
    rw [PgImportRepository.completedChecksum_eq_some_iff]
    refine ⟨howner, ?_, rfl⟩
    have hvalue : imp.checksum.map (·.value) = some checksum.value := by rw [hchecksum]; rfl
    exact hvalue
  have hne : k ≠ row.id := by
    intro hk
    have hkey : row.id = imp.id.val := Sql.Table.key_of_find? hrow
    rw [hk, hkey, hrow, Option.some.injEq] at hother
    rw [← hother] at hcompleted
    exact hnot (PgImportRepository.completedChecksum_eq_some_iff.mp hcompleted).2.2
  exact Sql.Table.clashes_eq_true_iff.mpr ⟨k, other, _, hother, hnew, hcompleted, hne⟩

/--
The duplicate is found, and then the index refuses the import that is to refer to it.
-/
theorem execute_finish_of_completed (hrow : db.imports.find? imp.id.val = some row)
    (howner : row.ownerId = ownerId.val) (hnot : row.status ≠ "completed")
    (hparsing : imp.status = .parsing) (hchecksum : imp.checksum = some checksum)
    (hfound : PgImportRepository.findCompletedByChecksum ownerId checksum db.imports ≠ none)
    : execute (answer storage) (ImportOrchestrator.finish externals imp id ownerId key correlationId
        fileBytes checksum.value parseResult) db
        = (.error (.storageError (duplicateKey "idx_imports_owner_checksum_completed")), db) := by
  obtain ⟨⟨existingImportId, existingActivityId⟩, hsome⟩ := Option.ne_none_iff_exists'.mp hfound
  obtain ⟨other, hother, hcompleted, _⟩ :=
    PgImportRepository.completed_of_findCompletedByChecksum hsome
  have hclash := clashes_of_completed externals hrow howner hnot hchecksum hother hcompleted
    existingActivityId
  have hrow' : db.imports.find?
      ((imp.setActivity existingActivityId).at_ externals.now .completed).id.val = some row := hrow
  rw [ImportOrchestrator.execute_finish]
  simp only [answer, hsome, DuplicateCheckResult.ofFound, Program.onOk_ok]
  rw [ImportOrchestrator.execute_finishDuplicate hparsing,
    answer_update_of_error _ (PgImportRepository.update_of_clash hrow' hclash), Program.onOk_error]

theorem processStored_of_duplicates (h : Duplicates storage externals db id key row earlier)
    : ∃ e, (processStored storage externals db id key correlationId row).1 = .error e := by
  have hfind := answer_findById_of_found storage h.found
  have hqueued : (rowToImport row).status = .queued := by
    simp [rowToImport, h.queued, parseStatus]
  have hkey : row.id = id.val := Sql.Table.key_of_find? h.found
  have hid : ((rowToImport row).at_ externals.now .parsing).id.val = id.val := hkey
  have hparsing : ((rowToImport row).at_ externals.now .parsing).status ≠ .completed := by
    simp [Import.at_]
  obtain ⟨imports, hupdate, hanswer, hrow⟩ := answer_update_of_found storage _ hid h.found hparsing
  have hterminal : ((rowToImport row).at_ externals.now .parsing).status.isTerminal = false := rfl
  have hkept : (answer storage (.download key) { db with imports }).2 = { db with imports } := rfl
  unfold processStored
  rw [ImportOrchestrator.execute_processImport hfind hqueued hanswer]
  obtain ⟨fileBytes, checksum, parseResult, hreads⟩ | ⟨hchecksum, fileBytes, hdownload⟩ | hfailing :=
    ImportOrchestrator.execute_readFile_cases externals hterminal hkept
  . rw [ImportOrchestrator.execute_readFile_of_reads hreads, Program.onOk_ok]
    simp only
    have hnot : (PgImportRepository.setImport ((rowToImport row).at_ externals.now .parsing) row).status
        ≠ "completed" := by
      simp [PgImportRepository.setImport, Import.at_, ImportStatus.display]
    have hdownload : storage.download key = .ok fileBytes := congrArg Prod.fst hreads.download
    have hvalue := completedChecksum_earlier h hdownload
    rw [hreads.hash] at hvalue
    have hearlier : imports.find? earlier.id = some earlier := by
      rw [PgImportRepository.find?_update_ne hupdate (by rw [hid]; exact h.id_ne), h.foundEarlier]
    have hfound : PgImportRepository.findCompletedByChecksum { val := row.ownerId } checksum imports
        ≠ none := by
      intro hnone
      exact PgImportRepository.findCompletedByChecksum_eq_none_iff.mp hnone _ _ hearlier hvalue
    rw [← hid] at hrow
    exact ⟨_, congrArg Prod.fst (execute_finish_of_completed hrow rfl hnot rfl hreads.stored hfound)⟩
  . rw [ImportOrchestrator.execute_readFile_of_no_checksum hdownload hchecksum, Program.onOk_error]
    exact ⟨_, rfl⟩
  . exact (hfailing.onOk _).isError

theorem not_completesWithEarlier_of_error {e : ImportError}
    {outcome : Except ImportError ImportProcessingResult × Database} (h : outcome.1 = .error e)
    : ¬CompletesWithEarlier db id earlier outcome := by
  rintro ⟨⟨result, hresult⟩, _, _⟩
  rw [h] at hresult
  cases hresult

/--
An import whose file has been imported before never ends as a duplicate.
-/
theorem duplicate_never_completes (h : Duplicates storage externals db id key row earlier)
    : ¬CompletesWithEarlier db id earlier
      (processStored storage externals db id key correlationId row) := by
  have herror : ∃ e, (processStored storage externals db id key correlationId row).1 = .error e :=
    processStored_of_duplicates h
  obtain ⟨e, he⟩ := herror
  exact not_completesWithEarlier_of_error he

def sampleQueued : ImportRow where
  id := ⟨1⟩
  ownerId := ⟨2⟩
  sourceArtifactId := some ⟨3⟩
  format := "gpx"
  status := "queued"
  checksum := some sampleChecksum.value
  failureReason := none
  failureCode := none
  idempotencyKey := "second"
  payloadHash := none
  activityId := none
  createdAt := 0
  updatedAt := 0

def sampleQueue : ImportTable := ⟨[sampleQueued], by decide⟩

def sampleEarlier : ImportRow := { sampleQueued with
  id := ⟨12⟩
  sourceArtifactId := some ⟨13⟩
  status := "completed"
  idempotencyKey := "first"
  activityId := some ⟨15⟩
}

def sampleImports : Database where
  routeEditing := .empty
  routeVersions := .empty
  activities := .empty
  outbox := .empty
  imports := ⟨[sampleEarlier, sampleQueued], by decide⟩
  sourceArtifacts := .empty
  sourceRevisions := .empty
  recordedTracks := .empty

def sampleStorage : Storage where
  download _ := .ok []
  verifyUpload _ := .ok ⟨0, none⟩

theorem duplicates_sampleImports
    : Duplicates sampleStorage sampleExternals sampleImports ⟨⟨1⟩⟩ "key" sampleQueued sampleEarlier where
  found := rfl
  queued := rfl
  foundEarlier := rfl
  completed := rfl
  owner := rfl
  file := ⟨[], rfl, rfl⟩

theorem duplicate_never_completes_sampleImports
    : ¬CompletesWithEarlier sampleImports ⟨⟨1⟩⟩ sampleEarlier
      (processStored sampleStorage sampleExternals sampleImports ⟨⟨1⟩⟩ "key" ⟨11⟩ sampleQueued) :=
  duplicate_never_completes duplicates_sampleImports

/--
The pipeline ends in an error of the database, and the import stays in `parsing`.
-/
theorem duplicate_refused_by_index
    : sampleImports.imports.Indexed completedChecksum
        ∧ Duplicates sampleStorage sampleExternals sampleImports ⟨⟨1⟩⟩ "key" sampleQueued sampleEarlier
        ∧ (processStored sampleStorage sampleExternals sampleImports ⟨⟨1⟩⟩ "key" ⟨11⟩ sampleQueued).1
          = .error (.storageError (duplicateKey "idx_imports_owner_checksum_completed"))
        ∧ ((processStored sampleStorage sampleExternals sampleImports ⟨⟨1⟩⟩ "key" ⟨11⟩
          sampleQueued).2.imports.find? ⟨1⟩).map (·.status) = some "parsing"
        ∧ ¬CompletesWithEarlier sampleImports ⟨⟨1⟩⟩ sampleEarlier
          (processStored sampleStorage sampleExternals sampleImports ⟨⟨1⟩⟩ "key" ⟨11⟩ sampleQueued) := by
  have herror : (processStored sampleStorage sampleExternals sampleImports ⟨⟨1⟩⟩ "key" ⟨11⟩
      sampleQueued).1 = .error (.storageError (duplicateKey "idx_imports_owner_checksum_completed")) := by
    decide
  have hindexed : sampleImports.imports.Indexed completedChecksum := by
    rw [Sql.Table.indexed_iff]
    decide
  exact ⟨hindexed, duplicates_sampleImports, herror, by decide,
    not_completesWithEarlier_of_error herror⟩

end Imports
