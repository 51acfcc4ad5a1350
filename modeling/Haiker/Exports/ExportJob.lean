import Haiker.RouteVersioning.PublicationCommit
import Haiker.Rust.Str

/-!
This module contains the export aggregate and its state machine. The time comes in as `now`.
-/

namespace Exports

structure ExportJobId where
  val : Uuid
  deriving DecidableEq

inductive ExportFormat where
  | gpx
  deriving DecidableEq

def ExportFormat.display : ExportFormat → String
  | .gpx => "gpx"

inductive ExportStatus where
  | queued
  | generating
  | ready
  | failed
  | expired
  deriving DecidableEq

inductive ExportError where
  | notFound
  | unauthorized
  | invalidTransition (from_ to_ : String)
  | idempotencyPayloadMismatch
  | routeVersionNotFound
  | activityNotFound
  | validationFailed (message : String)
  | persistenceError (message : String)
  | checksumMismatch (expected actual : String)
  | artifactExpired
  | notReady (status : String)
  deriving DecidableEq

-- the `#[error(..)]` texts
def ExportError.display : ExportError → String
  | .notFound => "export not found"
  | .unauthorized => "unauthorized"
  | .invalidTransition from_ to_ => "invalid transition from " ++ from_ ++ " to " ++ to_
  | .idempotencyPayloadMismatch => "idempotency key reused with different payload"
  | .routeVersionNotFound => "route version not found"
  | .activityNotFound => "activity not found"
  | .validationFailed message => "validation failed: " ++ message
  | .persistenceError message => "persistence error: " ++ message
  | .checksumMismatch expected actual =>
    "checksum mismatch: expected " ++ expected ++ ", got " ++ actual
  | .artifactExpired => "artifact expired"
  | .notReady status => "export not ready: current status is " ++ status

namespace ExportStatus

def isTerminal : ExportStatus → Bool
  | .ready | .failed | .expired => true
  | .queued | .generating => false

def display : ExportStatus → String
  | .queued => "queued"
  | .generating => "generating"
  | .ready => "ready"
  | .failed => "failed"
  | .expired => "expired"

def isValid : ExportStatus → ExportStatus → Bool
  | .queued, .generating => true
  | .generating, .ready => true
  | .ready, .expired => true
  | _, .failed => true
  | _, _ => false

def transitionTo (status target : ExportStatus) : Except ExportError ExportStatus :=
  if status.isTerminal then
    if status = .ready ∧ target = .expired then
      .ok target
    else if status = .expired ∧ target = .expired then
      .ok .expired
    else
      .error (.invalidTransition status.display target.display)
  else if status.isValid target then
    .ok target
  else
    .error (.invalidTransition status.display target.display)

end ExportStatus

structure ExportJob where
  id : ExportJobId
  activityId : ActivityCatalog.ActivityId
  routeVersionId : RouteVersioning.RouteVersionId
  requestedBy : Identity.UserId
  format : ExportFormat
  status : ExportStatus
  idempotencyKey : String
  payloadHash : Option String
  objectStorageKey : Option String
  checksum : Option String
  failureReason : Option String
  expiresAt : Option Timestamp
  createdAt : Timestamp
  updatedAt : Timestamp
  deriving DecidableEq

namespace ExportJob

def new (now : Timestamp) (id : ExportJobId) (requestedBy : Identity.UserId)
    (activityId : ActivityCatalog.ActivityId) (routeVersionId : RouteVersioning.RouteVersionId)
    (format : ExportFormat) (idempotencyKey : String) (payloadHash : Option String)
    : Except ExportError ExportJob :=
  if Rust.trim idempotencyKey = "" then
    .error (.validationFailed "idempotency key must not be empty")
  else
    .ok {
      id
      activityId
      routeVersionId
      requestedBy
      format
      status := .queued
      idempotencyKey
      payloadHash
      objectStorageKey := none
      checksum := none
      failureReason := none
      expiresAt := none
      createdAt := now
      updatedAt := now
    }

variable (now : Timestamp) (job : ExportJob)

-- the common part of the methods
def moveTo (target : ExportStatus) : Except ExportError ExportJob := do
  return { job with status := ← job.status.transitionTo target, updatedAt := now }

def startGenerating : Except ExportError ExportJob := job.moveTo now .generating

def completeWithVerifiedChecksum (objectStorageKey expectedChecksum verifiedChecksum : String)
    (expiresAt : Timestamp) : Except ExportError ExportJob :=
  if expectedChecksum ≠ verifiedChecksum then
    .error (.checksumMismatch expectedChecksum verifiedChecksum)
  else do
    return { ← job.moveTo now .ready with
      objectStorageKey := some objectStorageKey
      checksum := some expectedChecksum
      expiresAt := some expiresAt
    }

def fail (reason : String) : Except ExportError ExportJob := do
  return { ← job.moveTo now .failed with failureReason := some reason }

def expire : Except ExportError ExportJob :=
  if job.status = .expired then .ok job else job.moveTo now .expired

end ExportJob

end Exports
