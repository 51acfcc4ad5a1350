import Haiker.Imports.Workers

/-!
This module contains that what the pipeline commits is made of a file that it has downloaded, after it has
stored that it is parsing.
-/

open Rust
open RouteVersioning (CorrectedStatistics RouteVersion)

namespace Imports

abbrev Log := List (Program.Event Command.Reply)

/--
The data of a commit, as far as it comes from a file.
-/
structure MadeOfFile (externals : Externals) (key : String) (fileBytes : Bytes) (data : ImportCommitData)
    : Prop where
  objectStorageKey : data.objectStorageKey = key
  checksum : data.checksum = externals.sha256 fileBytes
  normalized : ∃ parseResult normalized, externals.parseGpx fileBytes = .ok parseResult
    ∧ externals.normalizeGpx parseResult = .ok normalized
    ∧ data.segments = normalized.recordedTrack.segments
    ∧ data.statistics = normalized.recordedTrack.statistics
    ∧ data.previewGeometry = normalized.previewGeometry
    ∧ data.correctedStatistics
      = CorrectedStatistics.calculateFromGeometry externals.totalDistance normalized.previewGeometry

/--
The import that is processed has been loaded, and stored as `parsing`.
-/
def StoredParsing (importId : ImportId) (log : Log) : Prop :=
  ∃ found imp, ⟨.findById importId, .ok (some found)⟩ ∈ log ∧ ⟨.update imp, .ok ()⟩ ∈ log
    ∧ imp.id = found.id ∧ imp.status = .parsing

-- only what has been downloaded is committed
def AsksLogged (externals : Externals) (importId : ImportId) (key : String) (log : Log) : Command → Prop
  | .download key' => key' = key ∧ StoredParsing importId log
  | .commit _ data =>
    ∃ fileBytes, ⟨.download key, .ok fileBytes⟩ ∈ log ∧ MadeOfFile externals key fileBytes data
  | _ => True

/--
The program downloads and commits in this order. `post` holds of its result.
-/
def Logs (externals : Externals) (importId : ImportId) (key : String) {α ε : Type}
    (program : ExceptT ε (Program Command.Reply) α) (log : Log) (post : α → Log → Prop) : Prop :=
  Program.Yields (AsksLogged externals importId key) (fun _ _ _ => True) Program.record program log post

variable {externals : Externals} {importId : ImportId} {key : String} {log : Log}

section Steps

variable {α β ε : Type}

theorem logs_ofExcept {result : Except ImportError α} {post : α → Log → Prop}
    (h : ∀ a, result = .ok a → post a log) : Logs externals importId key (ofExcept result) log post := h

theorem logs_update (imp : Import) {post : Unit → Log → Prop}
    (h : post () (log ++ [⟨.update imp, .ok ()⟩])) : Logs externals importId key (update imp) log post := by
  refine ⟨trivial, ?_⟩
  intro reply _ a ha
  subst ha
  exact h

theorem logs_failImport (now : Timestamp) (imp : Import) (reason : String) (code : FailureCode)
    (error : ImportError) (post : α → Log → Prop)
    : Logs externals importId key (ImportOrchestrator.failImport now imp reason code error : ImportM α) log post := by
  unfold ImportOrchestrator.failImport
  apply Program.Yields.bind
  apply logs_ofExcept
  intro failed _
  apply Program.Yields.bind
  apply logs_update
  exact Program.yields_throw _ _ _

end Steps

namespace ImportOrchestrator

theorem logs_start
    : Logs externals importId key (start externals importId) log fun _ log => StoredParsing importId log := by
  unfold start
  apply Program.Yields.bind
  refine ⟨trivial, ?_⟩
  intro reply _ found hfound
  subst hfound
  cases found with
  | none => exact Program.yields_throw _ _ _
  | some imp =>
    simp only
    split
    . apply Program.Yields.bind
      apply logs_ofExcept
      intro parsing hparsing
      have hid : parsing.id = imp.id := by
        rw [Import.moveTo_eq_ok hparsing]
        rfl
      have hstatus : parsing.status = .parsing := by
        rw [Import.moveTo_eq_ok hparsing]
        rfl
      apply Program.Yields.bind
      apply logs_update
      exact Program.yields_pure ⟨imp, parsing, by simp [Program.record], by simp [Program.record], hid, hstatus⟩
    . exact Program.yields_throw _ _ _

theorem logs_readFile (imp : Import) (hstored : StoredParsing importId log)
    : Logs externals importId key (readFile externals imp key) log fun read log =>
        ⟨.download key, .ok read.1⟩ ∈ log ∧ read.2.1 = externals.sha256 read.1
          ∧ externals.parseGpx read.1 = .ok read.2.2 := by
  unfold readFile
  apply Program.Yields.bind
  refine Program.yields_lift_call ?_ ?_
  . exact ⟨rfl, hstored⟩
  intro reply _
  cases reply with
  | error e => exact logs_failImport _ _ _ _ _ _
  | ok fileBytes =>
    simp only
    cases imp.checksum with
    | none => exact Program.yields_throw _ _ _
    | some checksum =>
      simp only
      split
      . cases hparse : externals.parseGpx fileBytes with
        | error e => exact logs_failImport _ _ _ _ _ _
        | ok parseResult => exact Program.yields_pure ⟨by simp [Program.record], rfl, hparse⟩
      . exact logs_failImport _ _ _ _ _ _

theorem logs_finishDuplicate (imp : Import) (existingImportId : ImportId)
    (existingActivityId : Option ActivityCatalog.ActivityId)
    : Logs externals importId key (finishDuplicate externals imp existingImportId existingActivityId) log
        fun _ _ => True := by
  unfold finishDuplicate
  apply Program.Yields.bind
  apply logs_ofExcept
  intro committing _
  apply Program.Yields.bind
  apply logs_ofExcept
  intro completed _
  apply Program.Yields.bind
  apply logs_update
  exact Program.yields_pure trivial

variable {ownerId : Identity.UserId} {correlationId : Uuid} {fileBytes : Bytes}
  {parseResult : GpxParseResult}

theorem logs_commitNew {normalized : NormalizedTrack} (imp : Import)
    (hdownload : ⟨.download key, .ok fileBytes⟩ ∈ log) (hparse : externals.parseGpx fileBytes = .ok parseResult)
    (hnormalize : externals.normalizeGpx parseResult = .ok normalized)
    : Logs externals importId key (commitNew externals imp importId ownerId key correlationId fileBytes
        (externals.sha256 fileBytes) normalized) log fun _ _ => True := by
  unfold commitNew
  cases hversion : newVersion externals ownerId normalized with
  | error e => exact Program.yields_throw _ _ _
  | ok version =>
    have hstatistics : version.correctedStatistics
        = CorrectedStatistics.calculateFromGeometry externals.totalDistance normalized.previewGeometry := by
      unfold newVersion RouteVersion.newInitial at hversion
      split at hversion
      . cases hversion
      . obtain rfl := Except.ok.inj hversion
        rfl
    have hmade : MadeOfFile externals key fileBytes (commitData externals imp importId ownerId key
        correlationId fileBytes (externals.sha256 fileBytes) normalized version) :=
      ⟨rfl, rfl, parseResult, normalized, hparse, hnormalize, rfl, rfl, rfl, hstatistics⟩
    apply Program.Yields.bind
    refine Program.yields_lift_call ?_ ?_
    . exact ⟨fileBytes, hdownload, hmade⟩
    intro reply _
    cases reply with
    | ok activityId => exact Program.yields_pure trivial
    | error e =>
      simp only
      cases imp.failWithCode externals.now ("commit failed: " ++ e.display) .internalError with
      | ok failed =>
        apply Program.Yields.bind
        refine Program.yields_lift_call ?_ fun _ _ => Program.yields_throw _ _ _
        exact trivial
      | error _ =>
        apply Program.Yields.bind
        refine Program.yields_lift_call ?_ fun _ _ => Program.yields_throw _ _ _
        exact trivial

theorem logs_finishNew (imp : Import) (hdownload : ⟨.download key, .ok fileBytes⟩ ∈ log)
    (hparse : externals.parseGpx fileBytes = .ok parseResult)
    : Logs externals importId key (finishNew externals imp importId ownerId key correlationId fileBytes
        (externals.sha256 fileBytes) parseResult) log fun _ _ => True := by
  unfold finishNew
  cases hnormalize : externals.normalizeGpx parseResult with
  | error e => exact logs_failImport _ _ _ _ _ _
  | ok normalized =>
    apply Program.Yields.bind
    apply logs_ofExcept
    intro committing _
    apply Program.Yields.bind
    apply logs_update
    exact logs_commitNew committing (List.mem_append_left _ hdownload) hparse hnormalize

theorem logs_finish (imp : Import) (hdownload : ⟨.download key, .ok fileBytes⟩ ∈ log)
    (hparse : externals.parseGpx fileBytes = .ok parseResult)
    : Logs externals importId key (finish externals imp importId ownerId key correlationId fileBytes
        (externals.sha256 fileBytes) parseResult) log fun _ _ => True := by
  unfold finish
  apply Program.Yields.bind
  apply logs_ofExcept
  intro checksum _
  apply Program.Yields.bind
  refine ⟨trivial, ?_⟩
  intro reply _ result _
  cases result with
  | exactDuplicate existingImportId existingActivityId => exact logs_finishDuplicate imp _ _
  | notDuplicate => exact logs_finishNew imp (List.mem_append_left _ hdownload) hparse

theorem logs_processImport
    : Logs externals importId key (processImport externals importId ownerId key correlationId) log
        fun _ _ => True := by
  unfold processImport
  apply Program.Yields.bind
  apply logs_start.mono
  intro imp log hstored
  apply Program.Yields.bind
  apply (logs_readFile imp hstored).mono
  rintro ⟨fileBytes, computedHash, parseResult⟩ log ⟨hdownload, hhash, hparse⟩
  obtain rfl : computedHash = externals.sha256 fileBytes := hhash
  exact logs_finish imp hdownload hparse

end ImportOrchestrator

namespace ParseGpxJobHandler

variable {job : ParseGpxJob} {α : Type}

theorem logs_orFail {failed : String} {result : Except ImportError α} {post : α → Log → Prop}
    (h : ∀ a, post a log) : Logs externals importId key (orFail failed result) log post := by
  intro a _
  exact h a

theorem logs_persistQueued (imp : Import)
    : Logs externals importId key (persistQueued imp) log fun _ _ => True := by
  unfold persistQueued
  apply Program.Yields.bind
  refine Program.yields_lift_call ?_ ?_
  . exact trivial
  intro reply _
  exact logs_orFail fun _ => trivial

theorem logs_queue : Logs externals importId key (queue externals job) log fun _ _ => True := by
  unfold queue
  apply Program.Yields.bind
  refine Program.yields_lift_call ?_ ?_
  . exact trivial
  intro reply _
  apply Program.Yields.bind
  apply logs_orFail
  intro found
  cases found with
  | none => exact Program.yields_throw _ _ _
  | some imp =>
    simp only
    split
    . apply Program.Yields.bind
      apply logs_orFail
      intro validating
      apply Program.Yields.bind
      apply logs_orFail
      intro queued
      exact logs_persistQueued queued
    . apply Program.Yields.bind
      apply logs_orFail
      intro queued
      exact logs_persistQueued queued
    . exact Program.yields_pure trivial
    . exact Program.yields_pure trivial
    . exact Program.yields_throw _ _ _

theorem logs_handle
    : Logs externals { val := job.importId } job.objectStorageKey (handle externals job) log
        fun _ _ => True := by
  unfold handle
  apply Program.Yields.bind
  apply logs_queue.mono
  intro _ log _
  apply Program.Yields.bind
  apply Program.Tracks.bind
  have hprocess : Logs externals { val := job.importId } job.objectStorageKey (processImport externals job) log
      fun _ _ => True := ImportOrchestrator.logs_processImport
  apply Program.Tracks.mono hprocess
  intro result log _ a ha
  cases ha
  cases result with
  | ok _ => exact Program.yields_pure trivial
  | error e =>
    apply Program.Yields.bind
    refine Program.yields_lift_call ?_ fun _ _ => Program.yields_throw _ _ _
    exact trivial

end ParseGpxJobHandler

end Imports
