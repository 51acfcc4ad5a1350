import Haiker.Concurrency.Program
import Haiker.Imports.Commit

/-!
This module contains the import pipeline. The collaborators that it is given are commands, and nothing
else can be interrupted. One clock reading stands for all of a run, and `parse_gpx` and `normalize_gpx`
come in as functions.
-/

open Rust
open ActivityCatalog (ActivityId)
open RecordedActivity (RecordedActivityError)
open RouteVersioning (CorrectedStatistics RouteVersion)

abbrev Bytes := List UInt8

namespace Imports

inductive GpxParseErrorCode where
  | invalidXml
  | unsupportedVersion
  | tooManyPoints
  | tooManySegments
  | xmlTooDeep
  | externalEntity
  | invalidCoordinates
  | inputTooLarge
  deriving DecidableEq

def GpxParseErrorCode.display : GpxParseErrorCode → String
  | .invalidXml => "INVALID_XML"
  | .unsupportedVersion => "UNSUPPORTED_VERSION"
  | .tooManyPoints => "TOO_MANY_POINTS"
  | .tooManySegments => "TOO_MANY_SEGMENTS"
  | .xmlTooDeep => "XML_TOO_DEEP"
  | .externalEntity => "EXTERNAL_ENTITY"
  | .invalidCoordinates => "INVALID_COORDINATES"
  | .inputTooLarge => "INPUT_TOO_LARGE"

structure GpxParseError where
  code : GpxParseErrorCode
  message : String
  deriving DecidableEq

inductive GpxVersion where
  | gpx10
  | gpx11
  deriving DecidableEq

structure GpxMetadata where
  name : Option String
  description : Option String
  time : Option String
  deriving DecidableEq

structure GpxTrackPoint where
  lat : F64
  lon : F64
  elevation : Option F64
  time : Option String
  deriving DecidableEq

structure GpxTrackSegment where
  points : List GpxTrackPoint
  deriving DecidableEq

structure GpxTrack where
  name : Option String
  segments : List GpxTrackSegment
  deriving DecidableEq

structure GpxParseResult where
  version : GpxVersion
  metadata : GpxMetadata
  tracks : List GpxTrack
  totalPoints : Nat
  deriving DecidableEq

structure NormalizedTrack where
  recordedTrack : RecordedActivity.RecordedTrack
  previewGeometry : List RecordedActivity.Coordinate
  suggestedTitle : Option String
  startedAt : Option Timestamp
  endedAt : Option Timestamp

inductive DuplicateCheckResult where
  | notDuplicate
  | exactDuplicate (existingImportId : ImportId) (existingActivityId : Option ActivityId)
  deriving DecidableEq

inductive ImportProcessingResult where
  | completed (activityId : ActivityId) (fileSizeBytes pointCount : Nat)
  | duplicate (existingImportId : ImportId) (existingActivityId : Option ActivityId)
  deriving DecidableEq

structure UploadMetadata where
  contentLength : Nat
  contentType : Option String
  deriving DecidableEq

/--
The calls of the repository, the object storage, the duplicate checker and the committer.
-/
inductive Command where
  | findById (id : ImportId)
  | update (imp : Import)
  | findAbandoned (threshold : Timestamp)
  | download (key : String)
  | verifyUpload (key : String)
  | check (ownerId : Identity.UserId) (checksum : Checksum)
  | commit (externals : CommitExternals) (data : ImportCommitData)

abbrev Command.Reply : Command → Type
  | .findById _ => Except ImportError (Option Import)
  | .update _ => Except ImportError Unit
  | .findAbandoned _ => Except ImportError (List Import)
  | .download _ => Except ImportError Bytes
  | .verifyUpload _ => Except ImportError UploadMetadata
  | .check _ _ => Except ImportError DuplicateCheckResult
  | .commit _ _ => Except ImportError ActivityId

abbrev ImportM := ExceptT ImportError (Program Command.Reply)

-- `command.await?`, for commands of a known reply
def findById (id : ImportId) : ImportM (Option Import) := ExceptT.mk (.call (Command.findById id))

def update (imp : Import) : ImportM Unit := ExceptT.mk (.call (Command.update imp))

def findAbandoned (threshold : Timestamp) : ImportM (List Import) :=
  ExceptT.mk (.call (Command.findAbandoned threshold))

def check (ownerId : Identity.UserId) (checksum : Checksum) : ImportM DuplicateCheckResult :=
  ExceptT.mk (.call (Command.check ownerId checksum))

-- `command.await`, whose error the caller looks at
def attempt {ε : Type} (command : Command) : ExceptT ε (Program Command.Reply) command.Reply :=
  ExceptT.lift (.call command)

def ofExcept {α : Type} (result : Except ImportError α) : ImportM α := ExceptT.mk (.done result)

section Execute

/-
A program alone with its collaborators.
-/

variable {α β ε σ : Type} (answer : (command : Command) → σ → command.Reply × σ)

def execute (program : ExceptT ε (Program Command.Reply) α) (s : σ) : Except ε α × σ :=
  (ExceptT.run program).run answer s

@[simp]
theorem execute_pure (a : α) (s : σ)
    : execute answer (pure a : ExceptT ε (Program Command.Reply) α) s = (.ok a, s) := rfl

@[simp]
theorem execute_throw (e : ε) (s : σ)
    : execute answer (throw e : ExceptT ε (Program Command.Reply) α) s = (.error e, s) := rfl

@[simp]
theorem execute_bind (program : ExceptT ε (Program Command.Reply) α)
    (f : α → ExceptT ε (Program Command.Reply) β) (s : σ)
    : execute answer (program >>= f) s
        = Program.onOk (execute answer program s) fun a s' => execute answer (f a) s' :=
  Program.run_exceptBind answer program f s

@[simp]
theorem execute_findById (id : ImportId) (s : σ)
    : execute answer (findById id) s = answer (.findById id) s := rfl

@[simp]
theorem execute_update (imp : Import) (s : σ)
    : execute answer (update imp) s = answer (.update imp) s := rfl

@[simp]
theorem execute_check (ownerId : Identity.UserId) (checksum : Checksum) (s : σ)
    : execute answer (check ownerId checksum) s = answer (.check ownerId checksum) s := rfl

@[simp]
theorem execute_attempt (command : Command) (s : σ)
    : execute answer (attempt command : ExceptT ε (Program Command.Reply) command.Reply) s
        = (.ok (answer command s).1, (answer command s).2) := rfl

@[simp]
theorem execute_ofExcept (result : Except ImportError α) (s : σ)
    : execute answer (ofExcept result) s = (result, s) := rfl

-- a part whose error the caller looks at
theorem execute_lift (program : Program Command.Reply α) (s : σ)
    : execute answer (ExceptT.lift program : ExceptT ε (Program Command.Reply) α) s
        = (.ok (program.run answer s).1, (program.run answer s).2) :=
  Program.run_bind answer program (fun a => (pure (Except.ok a) : Program Command.Reply (Except ε α))) s

/--
`inv` holds of every state on the way.
-/
def Keeps (inv : σ → Prop) (program : ExceptT ε (Program Command.Reply) α) (s : σ) : Prop :=
  (ExceptT.run program).Always answer inv s

variable {inv : σ → Prop}

theorem keeps_bind (program : ExceptT ε (Program Command.Reply) α)
    (f : α → ExceptT ε (Program Command.Reply) β) (s : σ)
    : Keeps answer inv (program >>= f) s
        ↔ Keeps answer inv program s
          ∧ ∀ a s', execute answer program s = (.ok a, s') → Keeps answer inv (f a) s' :=
  Program.always_exceptBind answer program f s

theorem Keeps.bind {program : ExceptT ε (Program Command.Reply) α}
    {f : α → ExceptT ε (Program Command.Reply) β} {s : σ} (h : Keeps answer inv program s)
    (hf : ∀ a s', execute answer program s = (.ok a, s') → inv s' → Keeps answer inv (f a) s')
    : Keeps answer inv (program >>= f) s := by
  rw [keeps_bind]
  refine ⟨h, ?_⟩
  intro a s' hrun
  have hend : inv (execute answer program s).2 := h.run
  rw [hrun] at hend
  exact hf a s' hrun hend

theorem keeps_lift (program : Program Command.Reply α) (s : σ)
    : Keeps answer inv (ExceptT.lift program : ExceptT ε (Program Command.Reply) α) s
        ↔ program.Always answer inv s :=
  (Program.always_bind answer program
    (fun a => (pure (Except.ok a) : Program Command.Reply (Except ε α))) s).trans
      ⟨And.left, fun h => ⟨h, h.run⟩⟩

end Execute

/--
What the pipeline takes from elsewhere: the clock, new ids, the hash of the file, the GPX parser, the
normalization and the distance along a geometry.
-/
structure Externals where
  now : Timestamp
  activityId : ActivityId
  sourceArtifactId : RecordedActivity.SourceArtifactId
  sourceRevisionId : RecordedActivity.SourceRevisionId
  recordedTrackId : RecordedActivity.RecordedTrackId
  routeVersionId : RouteVersioning.RouteVersionId
  commit : CommitExternals
  sha256 : Bytes → String
  parseGpx : Bytes → Except GpxParseError GpxParseResult
  normalizeGpx : GpxParseResult → Except RecordedActivityError NormalizedTrack
  totalDistance : List (F64 × F64) → F64

namespace ImportOrchestrator

def PARSER_VERSION : String := "1.0.0"

-- the explicit failure path: the import is failed and stored, and the caller gets `error`
def failImport {α : Type} (now : Timestamp) (imp : Import) (reason : String) (code : FailureCode)
    (error : ImportError) : ImportM α := do
  update (← ofExcept (imp.failWithCode now reason code))
  throw error

variable (externals : Externals)

-- step 1
def start (importId : ImportId) : ImportM Import := do
  match ← findById importId with
  | none => throw .notFound
  | some imp =>
    if imp.status = .queued then
      let imp ← ofExcept (imp.startParsing externals.now)
      update imp
      return imp
    else
      throw (.invalidTransition imp.status.display "parsing")

-- steps 2 to 4
def readFile (imp : Import) (objectStorageKey : String)
    : ImportM (Bytes × String × GpxParseResult) := do
  match ← attempt (.download objectStorageKey) with
  | .error e =>
    failImport externals.now imp ("failed to download file: " ++ e.display) .storageUnavailable e
  | .ok fileBytes =>
    let computedHash := externals.sha256 fileBytes
    match imp.checksum with
    | none => throw (.validationFailed "import has no stored checksum")
    | some storedChecksum =>
      if computedHash = storedChecksum.value then
        match externals.parseGpx fileBytes with
        | .error parseErr =>
          let reason := "parsing failed: " ++ parseErr.message ++ " (" ++ parseErr.code.display ++ ")"
          failImport externals.now imp reason .parseError (.parsingFailed reason)
        | .ok parseResult => return (fileBytes, computedHash, parseResult)
      else
        failImport externals.now imp
          ("checksum mismatch: expected " ++ storedChecksum.value ++ ", got " ++ computedHash)
          .checksumMismatch (.checksumMismatch storedChecksum.value computedHash)

-- step 6
def finishDuplicate (imp : Import) (existingImportId : ImportId)
    (existingActivityId : Option ActivityId) : ImportM ImportProcessingResult := do
  let imp := imp.setActivity existingActivityId
  let imp ← ofExcept (imp.startCommitting externals.now)
  let imp ← ofExcept (imp.complete externals.now)
  update imp
  return .duplicate existingImportId existingActivityId

def commitData (imp : Import) (importId : ImportId) (ownerId : Identity.UserId)
    (objectStorageKey : String) (correlationId : Uuid) (fileBytes : Bytes) (computedHash : String)
    (normalized : NormalizedTrack) (routeVersion : RouteVersion) : ImportCommitData where
  ownerId
  importId
  correlationId
  sourceArtifactId := imp.sourceArtifactId.getD externals.sourceArtifactId
  objectStorageKey
  contentType := "application/gpx+xml"
  fileSizeBytes := fileBytes.length
  checksum := computedHash
  sourceRevisionId := externals.sourceRevisionId
  revisionNumber := 1
  parserVersion := PARSER_VERSION
  recordedTrackId := externals.recordedTrackId
  segments := normalized.recordedTrack.segments
  boundingBox := normalized.recordedTrack.boundingBox
  statistics := normalized.recordedTrack.statistics
  previewGeometry := normalized.previewGeometry
  activityId := externals.activityId
  activityTitle := normalized.suggestedTitle.getD "Imported Activity"
  activityType := .hike
  startedAt := normalized.startedAt
  endedAt := normalized.endedAt
  routeVersionId := routeVersion.id
  correctedStatistics := routeVersion.correctedStatistics

def newVersion (ownerId : Identity.UserId) (normalized : NormalizedTrack)
    : Except RouteVersioning.RouteVersioningError RouteVersion :=
  RouteVersion.newInitial externals.now externals.routeVersionId externals.activityId
    normalized.previewGeometry normalized.recordedTrack.boundingBox
    (CorrectedStatistics.calculateFromGeometry externals.totalDistance normalized.previewGeometry)
    PARSER_VERSION ownerId

-- step 9
def commitNew (imp : Import) (importId : ImportId) (ownerId : Identity.UserId)
    (objectStorageKey : String) (correlationId : Uuid) (fileBytes : Bytes) (computedHash : String)
    (normalized : NormalizedTrack) : ImportM ImportProcessingResult := do
  match newVersion externals ownerId normalized with
  | .error e => throw (.validationFailed ("route version validation failed: " ++ e.display))
  | .ok routeVersion =>
    let data := commitData externals imp importId ownerId objectStorageKey correlationId fileBytes
      computedHash normalized routeVersion
    match ← attempt (.commit externals.commit data) with
    | .ok _ =>
      return .completed externals.activityId fileBytes.length
        normalized.recordedTrack.statistics.pointCount
    | .error e =>
      match imp.failWithCode externals.now ("commit failed: " ++ e.display) .internalError with
      | .ok failed =>
        let _ ← attempt (.update failed)
        throw e
      | .error _ =>
        let _ ← attempt (.update imp)
        throw e

-- steps 7 and 8
def finishNew (imp : Import) (importId : ImportId) (ownerId : Identity.UserId)
    (objectStorageKey : String) (correlationId : Uuid) (fileBytes : Bytes) (computedHash : String)
    (parseResult : GpxParseResult) : ImportM ImportProcessingResult := do
  match externals.normalizeGpx parseResult with
  | .error e =>
    let reason := "normalization failed: " ++ e.display
    failImport externals.now imp reason .parseError (.parsingFailed reason)
  | .ok normalized =>
    let imp ← ofExcept (imp.startCommitting externals.now)
    update imp
    commitNew externals imp importId ownerId objectStorageKey correlationId fileBytes computedHash
      normalized

-- step 5 and what follows from it
def finish (imp : Import) (importId : ImportId) (ownerId : Identity.UserId)
    (objectStorageKey : String) (correlationId : Uuid) (fileBytes : Bytes) (computedHash : String)
    (parseResult : GpxParseResult) : ImportM ImportProcessingResult := do
  let checksum ← ofExcept (Checksum.new computedHash)
  match ← check ownerId checksum with
  | .exactDuplicate existingImportId existingActivityId =>
    finishDuplicate externals imp existingImportId existingActivityId
  | .notDuplicate =>
    finishNew externals imp importId ownerId objectStorageKey correlationId fileBytes computedHash
      parseResult

def processImport (importId : ImportId) (ownerId : Identity.UserId) (objectStorageKey : String)
    (correlationId : Uuid) : ImportM ImportProcessingResult := do
  let imp ← start externals importId
  let (fileBytes, computedHash, parseResult) ← readFile externals imp objectStorageKey
  finish externals imp importId ownerId objectStorageKey correlationId fileBytes computedHash
    parseResult

end ImportOrchestrator

end Imports
