import Haiker.RouteVersioning.PublicationCommit

/-!
This module contains the errors that handlers answer with, and those that the errors of the route
editing and route versioning contexts become. The request id is added when the response is built and is not part of them.
-/

open Rust
open RouteEditing
open RouteVersioning

namespace Api

inductive StatusCode where
  | badRequest
  | notFound
  | conflict
  | unprocessableEntity
  | tooManyRequests
  | internalServerError
  deriving DecidableEq

structure ApiError where
  status : StatusCode
  code : String
  message : String
  problemType : Option String
  title : Option String
  deriving DecidableEq

-- an error with problem type and title
def problem (status : StatusCode) (code message problemType title : String) : ApiError where
  status
  code
  message
  problemType := some problemType
  title := some title

def routeEditingErrorToApiError : RouteEditingError → ApiError
  | .draftNotFound =>
    problem .notFound "NOT_FOUND" "route draft not found" "/problems/not-found" "Not Found"
  | .revisionConflict expected actual =>
    problem .conflict "ROUTE_DRAFT_REVISION_CONFLICT"
      s!"revision conflict: expected {expected}, got {actual}"
      "/problems/stale-route-draft" "Route draft revision is stale"
  | .draftNotActive =>
    problem .conflict "DRAFT_NOT_ACTIVE" "draft is not in active state"
      "/problems/draft-not-active" "Draft Not Active"
  | .invalidOperation message =>
    problem .unprocessableEntity "INVALID_OPERATION" message
      "/problems/invalid-operation" "Invalid Operation"
  | .operationFailed message =>
    problem .unprocessableEntity "OPERATION_FAILED" message
      "/problems/operation-failed" "Operation Failed"
  | .insufficientPoints minimum actual =>
    problem .unprocessableEntity "INSUFFICIENT_POINTS"
      s!"insufficient points: minimum {minimum}, got {actual}"
      "/problems/insufficient-points" "Insufficient Points"
  | .invalidSegmentIndex index count =>
    problem .unprocessableEntity "INVALID_SEGMENT_INDEX"
      s!"invalid segment index: {index}, segment count: {count}"
      "/problems/invalid-segment-index" "Invalid Segment Index"
  | .invalidPointIndex index count =>
    problem .unprocessableEntity "INVALID_POINT_INDEX"
      s!"invalid point index: {index}, point count: {count}"
      "/problems/invalid-point-index" "Invalid Point Index"
  | .nothingToUndo =>
    problem .unprocessableEntity "NOTHING_TO_UNDO" "nothing to undo"
      "/problems/nothing-to-undo" "Nothing To Undo"
  | .nothingToRedo =>
    problem .unprocessableEntity "NOTHING_TO_REDO" "nothing to redo"
      "/problems/nothing-to-redo" "Nothing To Redo"
  | .invalidCoordinate message =>
    problem .unprocessableEntity "INVALID_COORDINATE" message
      "/problems/invalid-coordinate" "Invalid Coordinate"
  | .activityNotFound =>
    problem .notFound "NOT_FOUND" "activity not found" "/problems/not-found" "Not Found"
  | .activityDeleted =>
    problem .unprocessableEntity "ACTIVITY_DELETED" "activity is deleted"
      "/problems/activity-deleted" "Activity Deleted"
  | .invalidBaseRouteVersion =>
    problem .unprocessableEntity "INVALID_BASE_ROUTE_VERSION" "invalid base route version"
      "/problems/invalid-base-route-version" "Invalid Base Route Version"
  | .replacementTooLarge maximum actual =>
    problem .unprocessableEntity "REPLACEMENT_TOO_LARGE"
      s!"replacement too large: maximum {maximum}, actual {actual}"
      "/problems/replacement-too-large" "Replacement Too Large"
  | .endpointContinuityViolation position expected actual =>
    let pair := fun c : Coordinate => s!"({c.latitude.display}, {c.longitude.display})"
    problem .unprocessableEntity "ENDPOINT_CONTINUITY_VIOLATION"
      s!"endpoint continuity violation at {position}: expected {pair expected}, got {pair actual}"
      "/problems/endpoint-continuity-violation" "Endpoint Continuity Violation"

def routeVersioningErrorToApiError : RouteVersioningError → ApiError
  | .draftNotFound | .notAuthorized =>
    problem .notFound "NOT_FOUND" "route draft not found" "/problems/not-found" "Not Found"
  | .revisionConflict expected actual =>
    problem .conflict "ROUTE_DRAFT_REVISION_CONFLICT"
      s!"revision conflict: expected {expected}, got {actual}"
      "/problems/stale-route-draft" "Route draft revision is stale"
  | .draftNotActive =>
    problem .conflict "DRAFT_NOT_ACTIVE" "draft is not in active state"
      "/problems/draft-not-active" "Draft Not Active"
  | .validationFailed errors =>
    problem .unprocessableEntity "VALIDATION_FAILED" ("; ".intercalate errors)
      "/problems/validation-failed" "Validation Failed"
  | .idempotencyConflict =>
    problem .conflict "IDEMPOTENCY_CONFLICT" "idempotency key reused with different parameters"
      "/problems/idempotency-conflict" "Idempotency Conflict"
  | .activityNotFound =>
    problem .notFound "NOT_FOUND" "activity not found" "/problems/not-found" "Not Found"
  | .persistenceError message =>
    problem .internalServerError "INTERNAL_ERROR" s!"internal error: {message}"
      "/problems/internal-error" "Internal Server Error"
  | .notFound | .immutable | .insufficientGeometry .. | .invalidVersionNumber .. =>
    problem .internalServerError "INTERNAL_ERROR" "unexpected error"
      "/problems/internal-error" "Internal Server Error"

-- what keeps the existence of a draft from those who do not own it
def ownershipNotFoundError : ApiError :=
  problem .notFound "NOT_FOUND" "route draft not found" "/problems/not-found" "Not Found"

theorem routeEditingErrorToApiError_draftNotFound
    : routeEditingErrorToApiError .draftNotFound = ownershipNotFoundError := rfl

end Api
