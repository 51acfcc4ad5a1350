import Haiker.Api.Error
import Haiker.Api.RouteEditingDto
import Haiker.RouteEditing.Repository
import Haiker.RouteEditing.Draft

/-!
This module contains the route editing handlers. Each takes the context its request runs in, and is a
sequence of queries that the requests of other clients can get between.
-/

open Rust
open RouteEditing
open RouteEditing.PgRouteDraftRepository
open RouteVersioning

namespace Api

/--
The two gateway traits, as far as one request asks them.
-/
structure Gateways where
  validateActivityForDraft : ActivityCatalog.ActivityId → Identity.UserId → Except RouteEditingError Unit
  validateRouteVersionExists : Uuid → ActivityCatalog.ActivityId → Except RouteEditingError Unit
  getRouteVersionGeometry : Uuid → ActivityCatalog.ActivityId → Except RouteEditingError Geometry

structure Context where
  actor : Identity.UserId
  now : Timestamp
  gateways : Gateways

abbrev HandlerM := Method ApiError Store

-- `.map_err(route_editing_error_to_api_error)`
def repository {α : Type} (m : RepositoryM α) : HandlerM α := mapErr routeEditingErrorToApiError m

def gateway {α : Type} : Except RouteEditingError α → Except (Fault ApiError) α
  | .ok a => .ok a
  | .error e => .error (.err (routeEditingErrorToApiError e))

-- a domain method on a draft that has been loaded
def domain (m : DraftM Unit) (draft : RouteDraft) : Except (Fault ApiError) RouteDraft :=
  match m.run draft with
  | .ok _ draft => .ok draft
  | .error (.err e) _ => .error (.err (routeEditingErrorToApiError e))
  | .error .panic _ => .error .panic

def findDraft (draftId : RouteDraftId) : HandlerM RouteDraft := do
  match ← repository (findById draftId) with
  | some draft => return draft
  | none => fail (routeEditingErrorToApiError .draftNotFound)

def checkOwner (actor : Identity.UserId) (draft : RouteDraft) : Except (Fault ApiError) Unit :=
  if draft.ownerId ≠ actor then .error (.err ownershipNotFoundError) else .ok ()

/--
The requests that load a draft, change it and store it.
-/
inductive EditRequest where
  | apply (operationId : OperationId) (body : ApplyOperationRequest)
  | undo (body : UndoRedoRequest)
  | redo (body : UndoRedoRequest)
  | reset (body : UndoRedoRequest)
  | delete
  deriving DecidableEq

-- what a request does to the draft between loading and storing it
def EditRequest.edit (context : Context) (draft : RouteDraft)
    : EditRequest → Except (Fault ApiError) RouteDraft
  | .apply operationId body => do
    let operation ← match body.operation.toDomain with
      | .ok operation => .ok operation
      | .error message =>
        .error (.err (problem .unprocessableEntity "INVALID_OPERATION" message
          "/problems/invalid-operation" "Invalid Operation"))
    domain (RouteDraft.applyOperation context.now operationId operation body.expectedRevision) draft
  | .undo body => domain (RouteDraft.undo context.now body.expectedRevision) draft
  | .redo body => domain (RouteDraft.redo context.now body.expectedRevision) draft
  | .reset body => do
    let baseVersionId ← match draft.baseRouteVersionId with
      | some baseVersionId => .ok baseVersionId
      | none =>
        .error (.err (problem .unprocessableEntity "NO_BASE_ROUTE_VERSION"
          "draft has no base route version to reset to" "/problems/no-base-route-version"
          "No Base Route Version"))
    let baseGeometry ←
      gateway (context.gateways.getRouteVersionGeometry baseVersionId draft.activityId)
    domain (RouteDraft.reset context.now body.expectedRevision baseGeometry) draft
  | .delete => domain (RouteDraft.discard context.now) draft

-- check the owner, change the draft, store it
def editLoaded (context : Context) (request : EditRequest) (draft : RouteDraft) : HandlerM RouteDraft := do
  ofResult (checkOwner context.actor draft)
  let draft ← ofResult (request.edit context draft)
  repository (update draft)
  return draft

def editDraft (context : Context) (draftId : RouteDraftId) (request : EditRequest)
    : HandlerM RouteDraft := do
  editLoaded context request (← findDraft draftId)

-- the answer to an operation whose id is stored already, `draft` being the draft it is stored under
def replay (operationId : OperationId) (body : ApplyOperationRequest) (draft : RouteDraft)
    : Except (Fault ApiError) OperationResultResponse :=
  match draft.appliedOperations.find? fun e => e.id = operationId with
  | some entry =>
    match body.operation.toDomain with
    | .error message =>
      .error (.err {
        status := .unprocessableEntity
        code := "INVALID_OPERATION"
        message
        problemType := none
        title := none
      })
    | .ok incomingOperation =>
      if !entry.operation.partialEq incomingOperation then
        .error (.err (problem .conflict "IDEMPOTENCY_PAYLOAD_MISMATCH"
          "idempotency key reused with a different operation payload"
          "/problems/idempotency-conflict" "Idempotency conflict"))
      else
        let entryIndex := draft.appliedOperations.findIdx fun e => e.id = operationId
        .ok { draftId := draft.id.val, revision := entryIndex + 1, canUndo := true, canRedo := false }
  | none => .ok (operationResult draft)

def postApplyOperation (context : Context) (draftId : RouteDraftId) (operationId : OperationId)
    (body : ApplyOperationRequest) : HandlerM OperationResultResponse := do
  match ← repository (findByOperationId operationId) with
  | some existingDraftId =>
    let draft ← findDraft existingDraftId
    ofResult (replay operationId body draft)
  | none =>
    let draft ← editDraft context draftId (.apply operationId body)
    return operationResult draft

def postUndo (context : Context) (draftId : RouteDraftId) (body : UndoRedoRequest)
    : HandlerM OperationResultResponse := do
  return operationResult (← editDraft context draftId (.undo body))

def postRedo (context : Context) (draftId : RouteDraftId) (body : UndoRedoRequest)
    : HandlerM OperationResultResponse := do
  return operationResult (← editDraft context draftId (.redo body))

def postReset (context : Context) (draftId : RouteDraftId) (body : UndoRedoRequest)
    : HandlerM OperationResultResponse := do
  return operationResult (← editDraft context draftId (.reset body))

def deleteDraft (context : Context) (draftId : RouteDraftId) : HandlerM Unit := do
  let _ ← editDraft context draftId .delete

def getDraft (context : Context) (draftId : RouteDraftId) : HandlerM RouteDraftResponse := do
  let draft ← findDraft draftId
  ofResult (checkOwner context.actor draft)
  return draftToResponse draft

def validationErrorDto : PublicationValidationError → ValidationErrorDto
  | .noSegments =>
    { code := "NO_SEGMENTS", detail := "geometry must contain at least 1 segment" }
  | .insufficientPointsInSegment segmentIndex minimum actual => {
      code := "INSUFFICIENT_POINTS_IN_SEGMENT"
      detail := s!"segment {segmentIndex} has {actual} points, minimum is {minimum}"
    }
  | .invalidCoordinateInSegment segmentIndex pointIndex message => {
      code := "INVALID_COORDINATE_IN_SEGMENT"
      detail := s!"segment {segmentIndex}, point {pointIndex}: {message}"
    }
  | .noBaseVersion => { code := "NO_BASE_VERSION", detail := "draft has no base route version" }
  | .notOwner | .draftNotActive | .revisionMismatch .. =>
    { code := "PRECONDITION_FAILED", detail := "unexpected precondition error" }

-- the error that a failed precondition is answered with
def preconditionError : PublicationValidationError → Option ApiError
  | .notOwner => some ownershipNotFoundError
  | .draftNotActive => some (routeEditingErrorToApiError .draftNotActive)
  | .revisionMismatch expected actual =>
    some (routeEditingErrorToApiError (.revisionConflict expected actual))
  | _ => none

def postValidateDraft (context : Context) (draftId : RouteDraftId)
    (body : ValidateForPublicationRequest) : HandlerM ValidationResultResponse := do
  let draft ← findDraft draftId
  match validateForPublication draft body.expectedRevision context.actor with
  | .ok _ => return { valid := true, errors := [] }
  | .error errors =>
    match errors.findSome? preconditionError with
    | some e => fail e
    | none => return { valid := false, errors := errors.map validationErrorDto }

-- the answer to a publication that the committer has done, now or earlier
def publicationResponse (result : PublicationResult) : Except (Fault ApiError) PublicationResponse :=
  match CorrectedStatistics.fromJson result.correctedStatisticsJson with
  | some correctedStats => .ok {
      routeVersionId := result.routeVersionId.val
      versionNumber := result.versionNumber
      draftId := result.draftId.val
      correctedStatistics := {
        distanceMeters := correctedStats.distanceMeters
        pointCount := correctedStats.pointCount
        calculationVersion := correctedStats.calculationVersion
      }
    }
  | none =>
    .error (.err (problem .internalServerError "INTERNAL_ERROR"
      "failed to read corrected statistics from publication result" "/problems/internal-error"
      "Internal Server Error"))

def publicationCommitData (context : Context) (draftId : RouteDraftId) (idempotencyKey : Uuid)
    (body : PublishRouteDraftRequest) : PublicationCommitData where
  draftId
  expectedRevision := body.expectedRevision
  actorId := context.actor
  idempotencyKey
  editSummary := body.editSummary

def postPublishDraft (context : Context) (publicationCommitter : Option Externals)
    (draftId : RouteDraftId) (idempotencyKey : Uuid) (body : PublishRouteDraftRequest)
    : Method ApiError Database PublicationResponse := do
  let some committer := publicationCommitter
    | fail (problem .internalServerError "INTERNAL_ERROR" "publication service not configured"
        "/problems/internal-error" "Internal Server Error")
  let commitData := publicationCommitData context draftId idempotencyKey body
  let result ← mapErr routeVersioningErrorToApiError (commit committer commitData)
  ofResult (publicationResponse result)

-- the checks between looking for an active draft and making a new one
def newDraft (context : Context) (id : RouteDraftId) (activityId : ActivityCatalog.ActivityId)
    (body : CreateRouteDraftRequest) (geometry : Geometry) : Except (Fault ApiError) RouteDraft := do
  gateway (context.gateways.validateActivityForDraft activityId context.actor)
  if let some baseVersionId := body.baseRouteVersionId then
    gateway (context.gateways.validateRouteVersionExists baseVersionId activityId)
  gateway (RouteDraft.createFromGeometry id context.now context.actor activityId
    body.baseRouteVersionId geometry)

-- an active draft is the answer, unless it starts from another version than the one asked for
def existingDraft (body : CreateRouteDraftRequest) (draft : RouteDraft)
    : Except (Fault ApiError) RouteDraftResponse :=
  if body.baseRouteVersionId.isSome && body.baseRouteVersionId != draft.baseRouteVersionId then
    .error (.err (problem .conflict "IDEMPOTENCY_CONFLICT"
      "existing draft has a different baseRouteVersionId" "/problems/idempotency-conflict"
      "Idempotency Conflict"))
  else
    .ok (draftToResponse draft)

def postCreateDraft (context : Context) (id : RouteDraftId) (activityId : ActivityCatalog.ActivityId)
    (body : CreateRouteDraftRequest) : HandlerM RouteDraftResponse := do
  let geometry ← match geometryToDomain body.geometry with
    | .ok geometry => pure geometry
    | .error message =>
      fail (problem .unprocessableEntity "VALIDATION_FAILED" message "/problems/validation-failed"
        "Validation Failed")
  match ← repository (findActiveByActivity activityId context.actor) with
  | some draft => ofResult (existingDraft body draft)
  | none =>
    let draft ← ofResult (newDraft context id activityId body geometry)
    repository (save draft)
    return draftToResponse draft

end Api
