import Haiker.Imports.Copies

/-!
This module contains that the actors write what comes from their copies.
-/

open Rust

namespace Imports

theorem ImportStatus.before_failed {status : ImportStatus} (h : status.isTerminal = false)
    : status.Before .failed := by
  revert h
  cases status with
  | requested | uploading | uploaded | validating | queued | parsing | committing | completed | failed
  | cancelled => decide

variable {actor : Actor} {known : Known} {imp : Import}

theorem writesFrom_at_ {status : ImportStatus} (h : imp.status.Before status) (now : Timestamp)
    : WritesFrom actor imp (imp.at_ now status) := ⟨h, fun _ _ _ => ⟨rfl, rfl⟩⟩

namespace ImportOrchestrator

variable {externals : Externals} {job : ParseGpxJob} {α : Type}

theorem follows_failImport (hknown : known imp.id.val = some imp) (h : imp.status.isTerminal = false)
    (now : Timestamp) (reason : String) (code : FailureCode) (error : ImportError)
    (post : α → Known → Prop)
    : Follows actor (failImport now imp reason code error : ImportM α) known post := by
  unfold failImport
  rw [imp.failWithCode_of_not_terminal now h]
  apply Follows.bind
  apply follows_ofExcept
  intro failed hfailed
  obtain rfl := Except.ok.inj hfailed
  apply Follows.bind
  have hwrites : WritesFrom actor imp (imp.failed now reason code) :=
    ⟨ImportStatus.before_failed h, fun _ _ _ => ⟨rfl, rfl⟩⟩
  exact follows_update hknown hwrites (follows_throw _ _ _)

theorem follows_start {id : ImportId}
    : Follows actor (start externals id) known fun imp known =>
        known imp.id.val = some imp ∧ imp.status = .parsing ∧ imp.id = id := by
  unfold start
  apply Follows.bind
  apply follows_findById
  . exact follows_throw _ _ _
  . rintro imp rfl
    simp only
    split
    . next hqueued =>
      apply Follows.bind
      apply follows_ofExcept
      intro parsing hparsing
      obtain rfl := Import.moveTo_eq_ok hparsing
      apply Follows.bind
      have hbefore : imp.status.Before .parsing := by
        rw [hqueued]
        decide
      refine follows_update (Function.update_self ..) (writesFrom_at_ hbefore _) (follows_pure ?_)
      exact ⟨Function.update_self .., rfl, rfl⟩
    . exact follows_throw _ _ _

theorem follows_readFile (hknown : known imp.id.val = some imp) (h : imp.status.isTerminal = false)
    (key : String)
    : Follows actor (readFile externals imp key) known fun read known' =>
        known' = known ∧ imp.checksum.map (·.value) = some read.2.1 := by
  unfold readFile
  apply Follows.bind
  refine follows_attempt ?_ ?_
  . exact trivial
  intro reply _
  cases reply with
  | error e => exact follows_failImport hknown h _ _ _ _ _
  | ok fileBytes =>
    simp only
    cases hchecksum : imp.checksum with
    | none => exact follows_throw _ _ _
    | some checksum =>
      simp only
      split
      . next hhash =>
        cases externals.parseGpx fileBytes with
        | error e => exact follows_failImport hknown h _ _ _ _ _
        | ok parseResult => exact follows_pure ⟨rfl, by rw [hhash]; rfl⟩
      . exact follows_failImport hknown h _ _ _ _ _

theorem follows_finishDuplicate (hknown : known imp.id.val = some imp) (h : imp.status = .parsing)
    (existingImportId : ImportId) (existingActivityId : Option ActivityCatalog.ActivityId)
    : Follows actor (finishDuplicate externals imp existingImportId existingActivityId) known
        fun _ _ => True := by
  unfold finishDuplicate
  apply Follows.bind
  apply follows_ofExcept
  intro committing hcommitting
  obtain rfl := Import.moveTo_eq_ok hcommitting
  apply Follows.bind
  apply follows_ofExcept
  intro completed hcompleted
  obtain rfl := Import.moveTo_eq_ok hcompleted
  apply Follows.bind
  have hbefore : imp.status.Before .completed := by
    rw [h]
    decide
  have hwrites : WritesFrom actor imp
      (((imp.setActivity existingActivityId).at_ externals.now .committing).at_ externals.now .completed) :=
    ⟨hbefore, fun _ _ _ => ⟨rfl, rfl⟩⟩
  exact follows_update hknown hwrites (follows_pure trivial)

theorem follows_commitNew (imp : Import) (hknown : known imp.id.val = some imp) (h : imp.status = .committing)
    (hid : imp.id = { val := job.importId }) {computedHash : String}
    (hchecksum : imp.checksum.map (·.value) = some computedHash) (fileBytes : Bytes)
    (normalized : NormalizedTrack)
    : Follows (.worker externals job) (commitNew externals imp { val := job.importId }
        { val := job.ownerId } job.objectStorageKey job.correlationId fileBytes computedHash normalized)
        known fun _ _ => True := by
  have hterminal : imp.status.isTerminal = false := by
    rw [h]
    rfl
  unfold commitNew
  cases newVersion externals { val := job.ownerId } normalized with
  | error e => exact follows_throw _ _ _
  | ok version =>
    have hcommits : CommitsFrom (.worker externals job) imp (commitData externals imp
        { val := job.importId } { val := job.ownerId } job.objectStorageKey job.correlationId fileBytes
        computedHash normalized version) := by
      refine ⟨h, ⟨externals, job, rfl, rfl, rfl⟩, hchecksum, ?_⟩
      intro artifactId hartifact
      simp [commitData, hartifact]
    have hknown' : known job.importId = some imp := by
      rw [hid] at hknown
      exact hknown
    apply Follows.bind
    refine follows_attempt ?_ ?_
    . exact ⟨imp, hknown', hcommits⟩
    intro reply _
    cases reply with
    | ok activityId => exact follows_pure trivial
    | error e =>
      simp only
      rw [imp.failWithCode_of_not_terminal externals.now hterminal]
      apply Follows.bind
      have hwrites : ∀ reason code, WritesFrom (.worker externals job) imp
          (imp.failed externals.now reason code) := fun _ _ =>
        ⟨ImportStatus.before_failed hterminal, fun _ _ _ => ⟨rfl, rfl⟩⟩
      refine follows_attempt ?_ fun _ _ => follows_throw _ _ _
      exact ⟨imp, hknown, hwrites _ _⟩

theorem follows_finishNew (hknown : known imp.id.val = some imp) (h : imp.status = .parsing)
    (hid : imp.id = { val := job.importId }) {computedHash : String}
    (hchecksum : imp.checksum.map (·.value) = some computedHash) (fileBytes : Bytes)
    (parseResult : GpxParseResult)
    : Follows (.worker externals job) (finishNew externals imp { val := job.importId }
        { val := job.ownerId } job.objectStorageKey job.correlationId fileBytes computedHash parseResult)
        known fun _ _ => True := by
  unfold finishNew
  cases externals.normalizeGpx parseResult with
  | error e =>
    refine follows_failImport hknown ?_ _ _ _ _ _
    rw [h]
    rfl
  | ok normalized =>
    apply Follows.bind
    apply follows_ofExcept
    intro committing hcommitting
    obtain rfl := Import.moveTo_eq_ok hcommitting
    apply Follows.bind
    have hbefore : imp.status.Before .committing := by
      rw [h]
      decide
    refine follows_update hknown (writesFrom_at_ hbefore _) ?_
    exact follows_commitNew (imp.at_ externals.now .committing) (Function.update_self ..) rfl hid hchecksum
      _ _

theorem follows_finish (hknown : known imp.id.val = some imp) (h : imp.status = .parsing)
    (hid : imp.id = { val := job.importId }) {computedHash : String}
    (hchecksum : imp.checksum.map (·.value) = some computedHash) (fileBytes : Bytes)
    (parseResult : GpxParseResult)
    : Follows (.worker externals job) (finish externals imp { val := job.importId }
        { val := job.ownerId } job.objectStorageKey job.correlationId fileBytes computedHash parseResult)
        known fun _ _ => True := by
  unfold finish
  apply Follows.bind
  apply follows_ofExcept
  intro checksum _
  apply Follows.bind
  refine ⟨trivial, ?_⟩
  intro reply _ result _
  cases result with
  | exactDuplicate existingImportId existingActivityId => exact follows_finishDuplicate hknown h _ _
  | notDuplicate => exact follows_finishNew hknown h hid hchecksum _ _

end ImportOrchestrator

namespace ParseGpxJobHandler

variable {externals : Externals} {job : ParseGpxJob}

theorem follows_processImport
    : Follows (.worker externals job) (processImport externals job) known fun _ _ => True := by
  unfold processImport ImportOrchestrator.processImport
  apply Follows.bind
  apply ImportOrchestrator.follows_start.mono
  rintro imp known ⟨hknown, hparsing, hid⟩
  have hterminal : imp.status.isTerminal = false := by
    rw [hparsing]
    rfl
  apply Follows.bind
  apply (ImportOrchestrator.follows_readFile hknown hterminal _).mono
  rintro ⟨fileBytes, computedHash, parseResult⟩ _ ⟨rfl, hchecksum⟩
  exact ImportOrchestrator.follows_finish hknown hparsing hid hchecksum _ _

theorem follows_orFail {α : Type} {failed : String} {result : Except ImportError α}
    {post : α → Known → Prop} (h : ∀ a, result = .ok a → post a known)
    : Follows actor (orFail failed result) known post := by
  intro a ha
  cases result with
  | ok b => exact h a (by rw [← Except.ok.inj ha])
  | error e => cases ha

theorem follows_persistQueued {copy : Import} (hcopy : known imp.id.val = some copy)
    (hwrites : WritesFrom actor copy imp)
    : Follows actor (persistQueued imp) known fun _ _ => True := by
  unfold persistQueued
  apply Follows.bind
  refine follows_attempt ?_ fun _ _ => follows_orFail fun _ _ => trivial
  exact ⟨copy, hcopy, hwrites⟩

theorem follows_queue : Follows actor (queue externals job) known fun _ _ => True := by
  unfold queue
  apply Follows.bind
  refine follows_attempt ?_ ?_
  . exact trivial
  intro reply hreply
  apply Follows.bind
  apply follows_orFail
  intro found hfound
  subst hfound
  cases found with
  | none => exact follows_throw _ _ _
  | some imp =>
    simp only
    have hcopy : (known.learn (.findById { val := job.importId }) (.ok (some imp))) imp.id.val = some imp :=
      Function.update_self ..
    split
    . next huploaded =>
      apply Follows.bind
      apply follows_orFail
      intro validating hvalidating
      obtain rfl := Import.moveTo_eq_ok hvalidating
      apply Follows.bind
      apply follows_orFail
      intro queued hqueued
      obtain rfl := Import.moveTo_eq_ok hqueued
      have hbefore : imp.status.Before .queued := by
        rw [huploaded]
        decide
      exact follows_persistQueued hcopy ⟨hbefore, fun _ _ _ => ⟨rfl, rfl⟩⟩
    . next hvalidating =>
      apply Follows.bind
      apply follows_orFail
      intro queued hqueued
      obtain rfl := Import.moveTo_eq_ok hqueued
      have hbefore : imp.status.Before .queued := by
        rw [hvalidating]
        decide
      exact follows_persistQueued hcopy (writesFrom_at_ hbefore _)
    . exact follows_pure trivial
    . exact follows_pure trivial
    . exact follows_throw _ _ _

theorem follows_handle : Follows (.worker externals job) (handle externals job) known fun _ _ => True := by
  unfold handle
  apply Follows.bind
  apply follows_queue.mono
  intro _ known _
  apply Follows.bind
  apply follows_lift
  apply Program.Tracks.mono follows_processImport
  intro result known _
  cases result with
  | ok _ => exact follows_pure trivial
  | error e =>
    apply Follows.bind
    refine follows_attempt ?_ fun _ _ => follows_throw _ _ _
    exact trivial

end ParseGpxJobHandler

section Upload

variable {now : Timestamp} {artifactId : RecordedActivity.SourceArtifactId}
  {uuidToString : Uuid → String} {cmd : CompleteUploadCommand} {α : Type}

theorem follows_failUpload (hknown : known imp.id.val = some imp) (h : imp.status.isTerminal = false)
    (reason : String) (error : ImportError) (post : α → Known → Prop)
    : Follows actor (failUpload now imp reason error : ImportM α) known post := by
  unfold failUpload
  apply Follows.bind
  apply follows_ofExcept
  intro failed hfailed
  have hfail : imp.fail now reason = .ok failed := by
    cases hresult : imp.fail now reason with
    | error e =>
      rw [hresult] at hfailed
      cases hfailed
    | ok other =>
      rw [hresult] at hfailed
      exact hfailed
  obtain rfl := Import.of_fail_eq_ok hfail
  apply Follows.bind
  have hwrites : WritesFrom actor imp { imp.at_ now .failed with failureReason := some reason } :=
    ⟨ImportStatus.before_failed h, fun _ _ _ => ⟨rfl, rfl⟩⟩
  exact follows_update hknown hwrites (follows_throw _ _ _)

theorem follows_verifyUpload (hknown : known imp.id.val = some imp) (h : imp.status.isTerminal = false)
    (key : String)
    : Follows actor (verifyUpload now imp key) known fun _ known' => known' = known := by
  unfold verifyUpload
  apply Follows.bind
  refine follows_attempt ?_ ?_
  . exact trivial
  intro reply _
  split
  . exact follows_pure rfl
  . exact follows_throw _ _ _
  . exact follows_failUpload hknown h _ _ _
  . exact follows_failUpload hknown h _ _ _

theorem follows_checkUpload (hknown : known imp.id.val = some imp) (h : imp.status.isTerminal = false)
    (metadata : UploadMetadata)
    : Follows actor (checkUpload now imp metadata) known fun _ known' => known' = known := by
  unfold checkUpload
  split
  . exact follows_failUpload hknown h _ _ _
  . split
    . exact follows_failUpload hknown h _ _ _
    . split
      . split
        . exact follows_pure rfl
        . exact follows_failUpload hknown h _ _ _
      . exact follows_pure rfl

theorem follows_handleCompleteUpload
    : Follows (.uploader now artifactId uuidToString cmd)
        (handleCompleteUpload now artifactId uuidToString cmd) known fun imp known =>
          known imp.id.val = some imp ∧ imp.status = .uploaded ∧ imp.id = cmd.importId := by
  unfold handleCompleteUpload
  apply Follows.bind
  apply follows_ofExcept
  intro checksum _
  apply Follows.bind
  apply follows_findById
  . exact follows_throw _ _ _
  . intro imp hid
    simp only
    split
    . exact follows_throw _ _ _
    . split
      . exact follows_throw _ _ _
      . next huploading =>
        have hstatus : imp.status = .uploading := not_not.mp huploading
        have hterminal : imp.status.isTerminal = false := by
          rw [hstatus]
          rfl
        have hknown : Function.update known cmd.importId.val (some imp) imp.id.val = some imp := by
          rw [hid]
          exact Function.update_self ..
        apply Follows.bind
        apply (follows_verifyUpload hknown hterminal _).mono
        rintro metadata _ rfl
        apply Follows.bind
        apply (follows_checkUpload hknown hterminal _).mono
        rintro _ _ rfl
        apply Follows.bind
        apply follows_ofExcept
        intro uploaded huploaded
        obtain rfl := Import.of_completeUpload_eq_ok huploaded
        apply Follows.bind
        have hbefore : imp.status.Before .uploaded := by
          rw [hstatus]
          decide
        have hwrites : WritesFrom (.uploader now artifactId uuidToString cmd) imp
            { imp.at_ now .uploaded with
              sourceArtifactId := some artifactId
              checksum := some checksum
            } := ⟨hbefore, fun _ _ h => by cases h⟩
        refine follows_update hknown hwrites (follows_pure ?_)
        exact ⟨Function.update_self .., rfl, hid⟩

end Upload

section Cleanup

variable {now : Timestamp}

-- every import that is left to be stored is known as it was loaded
theorem follows_persistFailed {imports : List Import} (hdistinct : (imports.map (·.id.val)).Nodup)
    (hterminal : ∀ imp ∈ imports, imp.status.isTerminal = false)
    (hknown : ∀ imp ∈ imports, known imp.id.val = some imp)
    : Follows actor (persistFailed (imports.map (failAbandoned now))) known fun _ _ => True := by
  induction imports generalizing known with
  | nil => exact follows_pure trivial
  | cons imp imports ih =>
    have himp : imp.status.isTerminal = false := hterminal imp (List.mem_cons_self ..)
    have hfailed : failAbandoned now imp = imp.failed now "import processing timed out" .timeout := by
      unfold failAbandoned
      rw [imp.failWithCode_of_not_terminal now himp]
    have hwrites : WritesFrom actor imp (imp.failed now "import processing timed out" .timeout) :=
      ⟨ImportStatus.before_failed himp, fun _ _ _ => ⟨rfl, rfl⟩⟩
    rw [List.map_cons, List.nodup_cons] at hdistinct
    have hrest : ∀ known' : Known, (∀ other ∈ imports, known' other.id.val = known other.id.val) →
        Follows actor (persistFailed (imports.map (failAbandoned now))) known' fun _ _ => True := by
      intro known' hsame
      apply ih hdistinct.2
      . exact fun other hother => hterminal other (List.mem_cons_of_mem _ hother)
      . intro other hother
        rw [hsame other hother]
        exact hknown other (List.mem_cons_of_mem _ hother)
    rw [List.map_cons, hfailed, persistFailed]
    apply Follows.bind
    refine follows_attempt ?_ ?_
    . exact ⟨imp, hknown imp (List.mem_cons_self ..), hwrites⟩
    intro reply _
    apply hrest
    intro other hother
    cases reply with
    | error e => rfl
    | ok _ =>
      have hne : other.id.val ≠ imp.id.val := by
        intro hsame
        exact hdistinct.1 (hsame ▸ List.mem_map_of_mem hother)
      exact Function.update_of_ne hne ..

theorem follows_cleanupAbandonedImports
    : Follows actor (cleanupAbandonedImports now) known fun _ _ => True := by
  unfold cleanupAbandonedImports
  apply Follows.bind
  refine ⟨trivial, ?_⟩
  intro reply hreply abandoned habandoned
  subst habandoned
  obtain ⟨hdistinct, hterminal⟩ := hreply abandoned rfl
  apply Follows.bind
  have hknown : ∀ imp ∈ abandoned, (known.learn (.findAbandoned (now - ABANDONED_TIMEOUT))
      (.ok abandoned)) imp.id.val = some imp := by
    intro imp himp
    have hfind : abandoned.find? (fun other => other.id.val = imp.id.val) = some imp :=
      Sql.Table.find?_of_mem (t := ⟨abandoned, hdistinct⟩) himp
    simp [Known.learn, hfind]
  apply (follows_persistFailed hdistinct hterminal hknown).mono
  intro _ _ _
  exact follows_pure trivial

end Cleanup

theorem tracks_program (actor : Actor) (known : Known)
    : actor.program.Tracks (Asks actor) Tells Known.learn (fun _ _ => True) known := by
  cases actor with
  | worker externals job =>
    apply Program.Tracks.bind
    exact Program.Tracks.mono ParseGpxJobHandler.follows_handle fun _ _ _ => trivial
  | uploader now artifactId uuidToString cmd =>
    apply Program.Tracks.bind
    exact Program.Tracks.mono follows_handleCompleteUpload fun _ _ _ => trivial
  | cleaner now =>
    apply Program.Tracks.bind
    exact Program.Tracks.mono follows_cleanupAbandonedImports fun _ _ _ => trivial

theorem tells_answer (storage : Storage) (db : Database) (known : Known) (command : Command)
    : Tells known command (answer storage command db).1 := by
  cases command with
  | findById id =>
    intro imp himp
    exact PgImportRepository.id_of_findById (Except.ok.inj himp)
  | findAbandoned threshold =>
    intro imports himports
    obtain rfl := Except.ok.inj himports
    refine ⟨?_, ?_⟩
    . have hids : (PgImportRepository.findAbandoned threshold db.imports).map (·.id.val)
          = ((db.imports.rows.filter fun row =>
            row.status ∈ ["validating", "queued", "parsing", "committing"]
              ∧ row.updatedAt < threshold.toTimestamptz).map ImportRow.id) := by
        unfold PgImportRepository.findAbandoned
        rw [List.map_map]
        rfl
      rw [hids]
      exact (List.Sublist.map ImportRow.id List.filter_sublist).nodup db.imports.unique
    . intro imp himp
      obtain ⟨row, hrow, rfl⟩ := List.mem_map.mp himp
      have hstatus := (decide_eq_true_eq.mp (List.mem_filter.mp hrow).2).1
      simp only [List.mem_cons, List.not_mem_nil, or_false] at hstatus
      obtain h | h | h | h := hstatus
      . simp [rowToImport, h, parseStatus, ImportStatus.isTerminal]
      . simp [rowToImport, h, parseStatus, ImportStatus.isTerminal]
      . simp [rowToImport, h, parseStatus, ImportStatus.isTerminal]
      . simp [rowToImport, h, parseStatus, ImportStatus.isTerminal]
  | update | download | verifyUpload | check | commit => trivial

section Run

open Interleaving

variable {ι : Type} [DecidableEq ι] {actors : ι → Actor} {c : Config Database Client ι}

/--
Whatever the others do, every client writes what comes from its copies.
-/
def Tracking (actors : ι → Actor) (c : Config Database Client ι) : Prop :=
  ∀ i, (c.clients i).program.Tracks (Asks (actors i)) Tells Known.learn (fun _ _ => True)
    (c.clients i).known

theorem tracking_start (actors : ι → Actor) (storage : ι → Storage) (db : Database)
    : Tracking actors ⟨db, fun i => .start (storage i) (actors i)⟩ :=
  fun i => tracks_program (actors i) _

theorem Tracking.fire (h : Tracking actors c) (i : ι) : Tracking actors (fire Client.step c i) := by
  intro j
  by_cases hj : j = i
  . subst hj
    rw [fire_clients_self]
    exact (h j).step fun command _ => tells_answer _ _ _ command
  . rw [fire_clients_ne _ c hj]
    exact h j

end Run

end Imports
