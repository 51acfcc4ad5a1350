import Mathlib.Algebra.GroupWithZero.Nat
import Haiker.Exports.Commands

/-!
This module contains the handler of the `generate_export` jobs, and who works on exports. The payload of
a job is there as it has been enqueued, and metrics are left out.
-/

open Rust

namespace Exports

structure GenerateExportJob where
  exportJobId : Uuid
  activityId : Uuid
  routeVersionId : Uuid
  ownerId : Uuid
  format : String
  correlationId : Uuid

namespace GenerateExportJobHandler

abbrev HandlerM := ExceptT String (Program Command.Reply)

-- `.map_err(|e| format!("..: {e}"))?`
def orFail {α : Type} (failed : String) (result : Except String α) : HandlerM α :=
  ExceptT.mk (.done (result.mapError fun e => failed ++ ": " ++ e))

-- the same for the transitions
def orFailWith {α : Type} (failed : String) (result : Except ExportError α) : HandlerM α :=
  orFail failed (result.mapError (·.display))

-- 24 hours, in nanoseconds
def EXPIRATION : Int := 24 * 60 * 60 * 1000000000

def MAX_POINTS : Nat := 500000

section Store

variable (crates : Crates)

def storageKey (ownerId exportJobId : Uuid) : String :=
  "exports/" ++ crates.uuidToString ownerId ++ "/" ++ crates.uuidToString exportJobId ++ ".gpx"

def loadExportJob (exportJobId : Uuid) : HandlerM ExportJob := do
  match ← orFail "failed to query export job" (← attempt (.findById { val := exportJobId })) with
  | some job => return job
  | none => throw ("export job " ++ crates.uuidToString exportJobId ++ " not found")

def persistExportJob (job : ExportJob) : HandlerM Unit := do
  orFail "failed to update export job" (← attempt (.update job))

def loadGeometry (routeVersionId : Uuid) : HandlerM Json := do
  match ← orFail "failed to query route version geometry" (← attempt (.findGeometry routeVersionId)) with
  | some geometryJson => return geometryJson
  | none => throw ("route version " ++ crates.uuidToString routeVersionId ++ " not found")

end Store

variable (crates : Crates) (now : Timestamp) (timeoutSeconds : Int) (payload : GenerateExportJob)

-- what goes wrong is only logged
def markFailed (reason : String) : HandlerM Unit := do
  match ← ExceptT.lift (loadExportJob crates payload.exportJobId).run with
  | .error _ => return ()
  | .ok job =>
    if job.status.isTerminal then
      return ()
    else
      match job.fail now reason with
      | .error _ => return ()
      | .ok failed =>
        let _ ← attempt (.update failed)
        return ()

def failWith {α : Type} (reason : String) : HandlerM α := do
  markFailed crates now payload reason
  throw reason

-- step (i), when the object is there already
def completeExisting (key : String) : HandlerM Unit := do
  let job ← loadExportJob crates payload.exportJobId
  if job.status = .ready then
    return ()
  else
    let existingBytes ← orFail "failed to download existing export for checksum"
      (← attempt (.download key))
    let checksum := crates.sha256Hex existingBytes
    let job ←
      if job.status = .queued then
        orFailWith "failed to transition to generating" (job.startGenerating now)
      else
        pure job
    let job ←
      if job.status = .generating then
        orFailWith "failed to complete export job"
          (job.completeWithVerifiedChecksum now key checksum checksum (now + EXPIRATION))
      else
        pure job
    persistExportJob job

-- steps (b) and (c)
def readSegments : HandlerM (List (List GpxPoint)) := do
  match ← ExceptT.lift (loadGeometry crates payload.routeVersionId).run with
  | .error e => failWith crates now payload ("failed to load geometry: " ++ e)
  | .ok geometryJson =>
    match parseGeometryJson geometryJson with
    | .error e => failWith crates now payload ("failed to parse geometry_json: " ++ e)
    | .ok segments => return segments

-- step (d)
def readName : HandlerM (Option String) := do
  match ← attempt (.findTitle payload.activityId) with
  | .ok name => return name
  | .error _ => return none

def timeoutSecs : Int := if 0 < timeoutSeconds then timeoutSeconds else 300

-- steps (d.1) and (f)
def generate (input : GpxGeneratorInput) : HandlerM Bytes := do
  let totalPoints := (input.segments.map (·.length)).sum
  if MAX_POINTS < totalPoints then
    failWith crates now payload
      ("geometry exceeds maximum point count: " ++ toString totalPoints ++ " points (limit: "
        ++ toString MAX_POINTS ++ ")")
  else
    match ← attempt (.generate input) with
    | .ok gpxBytes => return gpxBytes
    | .error (.panicked joinErr) =>
      failWith crates now payload ("GPX generation task panicked: " ++ joinErr)
    | .error .timedOut =>
      failWith crates now payload
        ("GPX generation timed out after " ++ toString (timeoutSecs timeoutSeconds) ++ "s")

-- steps (j) and (j.1)
def store (key : String) (gpxBytes : Bytes) (checksum : String) : HandlerM String := do
  match ← attempt (.upload key gpxBytes) with
  | .error e => failWith crates now payload ("failed to upload export to storage: " ++ e)
  | .ok _ =>
    match ← attempt (.download key) with
    | .error e => failWith crates now payload ("failed to download export for verification: " ++ e)
    | .ok verifiedBytes =>
      let verifiedChecksum := crates.sha256Hex verifiedBytes
      if checksum = verifiedChecksum then
        return verifiedChecksum
      else
        failWith crates now payload
          ("post-upload verification failed: checksum mismatch (expected " ++ checksum ++ ", got "
            ++ verifiedChecksum ++ ")")

-- step (l)
def complete (key checksum verifiedChecksum : String) : HandlerM Unit := do
  let job ← loadExportJob crates payload.exportJobId
  if job.status = .generating then
    let job ← orFailWith "failed to complete export job"
      (job.completeWithVerifiedChecksum now key checksum verifiedChecksum (now + EXPIRATION))
    persistExportJob job

-- steps (b) to (l)
def finish (key : String) : HandlerM Unit := do
  let segments ← readSegments crates now payload
  let activityName ← readName payload
  let gpxBytes ← generate crates now timeoutSeconds payload { activityName, segments }
  let checksum := crates.sha256Hex gpxBytes
  let verifiedChecksum ← store crates now payload key gpxBytes checksum
  complete crates now payload key checksum verifiedChecksum

def process : HandlerM Unit := do
  let key := storageKey crates payload.ownerId payload.exportJobId
  if ← orFail "failed to check object existence" (← attempt (.exists_ key)) then
    completeExisting crates now payload key
  else
    let job ← loadExportJob crates payload.exportJobId
    match job.status with
    | .ready => return ()
    | .failed | .expired =>
      throw ("export job " ++ crates.uuidToString payload.exportJobId ++ " is in terminal state '"
        ++ job.status.display ++ "'")
    | .queued =>
      let job ← orFailWith "failed to transition to generating" (job.startGenerating now)
      persistExportJob job
      finish crates now timeoutSeconds payload key
    | .generating => finish crates now timeoutSeconds payload key

end GenerateExportJobHandler

/--
Who works on exports at the same time as others. A worker is one attempt at a job.
-/
inductive Actor where
  | worker (now : Timestamp) (timeoutSeconds : Int) (payload : GenerateExportJob)
  | expirer (now : Timestamp) (exportId : ExportJobId)
  | downloader (now : Timestamp) (exportId : ExportJobId) (callerId : Identity.UserId)
  | renamer (activityId : Uuid) (title : Option String)

-- what is returned for a download
def Actor.program (crates : Crates) : Actor → Program Command.Reply (Option ExportJob)
  | .worker now timeoutSeconds payload => do
    let _ ← (GenerateExportJobHandler.process crates now timeoutSeconds payload).run
    return none
  | .expirer now exportId => do
    let _ ← (handleExpireExport now exportId).run
    return none
  | .downloader now exportId callerId => do
    let result ← (handleDownloadExport now exportId callerId).run
    return result.toOption
  | .renamer activityId title => do
    let _ ← Program.call (.setTitle activityId title)
    return none

end Exports
