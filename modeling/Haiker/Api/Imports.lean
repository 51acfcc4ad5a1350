import Haiker.Api.Error
import Haiker.Imports.Copies
import Haiker.Jobs.Enqueue

/-!
This module contains the endpoint that completes an upload, at work beside everybody else on the imports
and on the job queue. A job queue is configured. Each statement is a step of its own.
-/

open Rust
open Imports

namespace Api

def importErrorToApiError : ImportError → ApiError
  | .notFound | .unauthorized =>
    problem .notFound "NOT_FOUND" "import not found" "/problems/not-found" "Not Found"
  | .uploadTooLarge =>
    problem .unprocessableEntity "UPLOAD_TOO_LARGE" "file size exceeds the 50MB limit"
      "/problems/upload-too-large" "Upload Too Large"
  | .invalidMediaType =>
    problem .unprocessableEntity "INVALID_MEDIA_TYPE"
      "content type must be application/gpx+xml or application/xml"
      "/problems/invalid-media-type" "Invalid Media Type"
  | .objectNotFound =>
    problem .unprocessableEntity "OBJECT_NOT_FOUND" "uploaded object not found in storage"
      "/problems/object-not-found" "Object Not Found"
  | .invalidTransition from_ to_ =>
    problem .conflict "INVALID_STATE_TRANSITION" s!"cannot transition from {from_} to {to_}"
      "/problems/invalid-state-transition" "Invalid State Transition"
  | .duplicateIdempotencyKey =>
    problem .conflict "DUPLICATE_IDEMPOTENCY_KEY" "an import with this idempotency key already exists"
      "/problems/duplicate-idempotency-key" "Duplicate Idempotency Key"
  | .idempotencyPayloadMismatch =>
    problem .conflict "IDEMPOTENCY_PAYLOAD_MISMATCH" "idempotency key reused with different payload"
      "/problems/idempotency-conflict" "Idempotency Conflict"
  | .validationFailed message =>
    problem .unprocessableEntity "VALIDATION_FAILED" message
      "/problems/validation-failed" "Validation Failed"
  | .storageError _ =>
    problem .internalServerError "STORAGE_ERROR" "a storage error occurred"
      "/problems/storage-error" "Storage Error"
  | .unsupportedFormat | .duplicateChecksum | .checksumMismatch _ _ | .parsingFailed _ =>
    problem .internalServerError "INTERNAL_ERROR" "an unexpected error occurred"
      "/problems/internal-error" "Internal Server Error"

def BACKPRESSURE_ERROR_PREFIX : String := "BACKPRESSURE:"

def PARSE_GPX_JOB_TYPE : String := "parse_gpx"

-- `retryAfter` is the header of the name, in seconds
inductive CompletionResponse where
  | ok (imp : Import)
  | err (error : ApiError) (retryAfter : Option Nat)

def queueBackpressure : ApiError :=
  problem .tooManyRequests "QUEUE_BACKPRESSURE"
    "the processing queue is at capacity, please retry later"
    "/problems/queue-backpressure" "Service Temporarily Overloaded"

def jobEnqueueFailed : ApiError where
  status := .internalServerError
  code := "JOB_ENQUEUE_FAILED"
  message := "an unexpected error occurred"
  problemType := none
  title := none

-- what the enqueuer's error becomes
def enqueueError (e : String) : CompletionResponse :=
  if BACKPRESSURE_ERROR_PREFIX.isPrefixOf e then
    .err queueBackpressure (some 60)
  else
    .err jobEnqueueFailed none

/--
A request with what it meets: the clock, the object storage, the ids that are drawn, and the errors with
which the statements of the enqueuer are refused.
-/
structure CompletionRequest where
  cmd : CompleteUploadCommand
  now : Timestamp
  storage : Storage
  uuidToString : Uuid → String
  artifactId : RecordedActivity.SourceArtifactId
  jobId : Uuid
  retryId : Uuid
  refusals : List (Option String)

namespace CompletionRequest

variable (request : CompletionRequest)

def actor : Actor := .uploader request.now request.artifactId request.uuidToString request.cmd

def program : Program Command.Reply (Except ImportError Import) :=
  (handleCompleteUpload request.now request.artifactId request.uuidToString request.cmd).run

-- the payload is `ParseGpxJob`
def call (imp : Import) : JobQueue.EnqueueCall where
  jobType := PARSE_GPX_JOB_TYPE
  payload := .obj [
    ("import_id", .str (request.uuidToString imp.id.val)),
    ("owner_id", .str (request.uuidToString imp.ownerId.val)),
    ("object_storage_key", .str ("imports/" ++ request.uuidToString imp.ownerId.val ++ "/"
      ++ request.uuidToString imp.id.val)),
    ("correlation_id", .str (request.uuidToString imp.id.val))
  ]
  correlationId := imp.id.val
  id := request.jobId
  retryId := request.retryId

end CompletionRequest

structure Platform where
  db : Database
  queue : JobQueue.State

-- what the request knows of imports is recorded for the theorems
inductive CompletionPhase where
  | completing (program : Program Command.Reply (Except ImportError Import)) (known : Known)
  | enqueuing (imp : Import) (enqueuer : JobQueue.Enqueuer) (refusals : List (Option String))
  | answered (response : CompletionResponse)

structure Completion where
  request : CompletionRequest
  phase : CompletionPhase

namespace Completion

def start (request : CompletionRequest) : Completion where
  request
  phase := .completing request.program fun _ => none

-- the errors of the enqueuer are those that it is refused with, and an id that is taken
def enqueue (p : Platform) (imp : Import)
    : JobQueue.Enqueuer → List (Option String) → Platform × CompletionPhase
  | .returned _ _, _ => (p, .answered (.ok imp))
  | .failed, _ => (p, .answered (enqueueError ("failed to enqueue job: " ++ duplicateKey "jobs_pkey")))
  | _, some e :: _ => (p, .answered (enqueueError e))
  | enqueuer, refusals =>
    let (jobs, enqueuer) := enqueuer.step 0 p.queue.now p.queue.jobs
    ({ p with queue := { p.queue with jobs } }, .enqueuing imp enqueuer refusals.tail)

def step (p : Platform) (completion : Completion) : Platform × Completion :=
  let request := completion.request
  match completion.phase with
  | .completing (.done (.ok imp)) _ =>
    (p, { request, phase := .enqueuing imp (.inserting (request.call imp)) request.refusals })
  | .completing (.done (.error e)) _ =>
    (p, { request, phase := .answered (.err (importErrorToApiError e) none) })
  | .completing (.ask command next) known =>
    let (reply, db) := answer request.storage command p.db
    ({ p with db }, { request, phase := .completing (next reply) (known.learn command reply) })
  | .enqueuing imp enqueuer refusals =>
    let (p, phase) := enqueue p imp enqueuer refusals
    (p, { request, phase })
  | .answered response => (p, { request, phase := .answered response })

end Completion

/--
Who is at work: requests that complete uploads, whoever else works on imports, and whoever works on the
job queue.
-/
inductive PlatformParty where
  | completion (completion : Completion)
  | importer (client : Imports.Client)
  | queue (client : JobQueue.Client)

def PlatformParty.step (p : Platform) : PlatformParty → Platform × PlatformParty
  | .completion member =>
    let (p, member) := member.step p
    (p, .completion member)
  | .importer member =>
    let (db, member) := member.step p.db
    ({ p with db }, .importer member)
  | .queue member =>
    let (jobs, member) := member.step p.queue
    ({ p with queue := jobs }, .queue member)

end Api
