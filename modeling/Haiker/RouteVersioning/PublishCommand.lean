import Haiker.Concurrency.Program
import Haiker.RouteEditing.Draft
import Haiker.RouteVersioning.RouteVersion

/-!
This module contains the publication as the domain specifies it: a program over the repositories of the
drafts and of the versions and the gateway to the activities, whose calls may fail.
-/

open Rust
open ActivityCatalog (ActivityId)
open RecordedActivity (BoundingBox Coordinate)
open RouteEditing (PublicationValidationError RouteDraft RouteDraftId RouteEditingError)

namespace RouteVersioning

structure PublishRouteVersionCommand where
  draftId : RouteDraftId
  expectedRevision : Nat
  actorId : Identity.UserId
  idempotencyKey : Uuid
  editSummary : Option String
  deriving DecidableEq

/--
The calls of the two repositories and of the gateway.
-/
inductive PublishCall where
  | findByIdempotencyKey (key : Uuid)
  | findById (id : RouteDraftId)
  | findLatestByActivity (activityId : ActivityId)
  | save (version : RouteVersion)
  | update (draft : RouteDraft)
  | updateActivityCurrentVersion (activityId : ActivityId) (routeVersionId : RouteVersionId)
    (correctedSummary : Json)

abbrev PublishCall.Reply : PublishCall → Type
  | .findByIdempotencyKey _ => Except RouteVersioningError (Option RouteVersion)
  | .findById _ => Except RouteEditingError (Option RouteDraft)
  | .findLatestByActivity _ => Except RouteVersioningError (Option RouteVersion)
  | .save _ => Except RouteVersioningError Unit
  | .update _ => Except RouteEditingError Unit
  | .updateActivityCurrentVersion .. => Except RouteVersioningError Unit

abbrev PublishM := ExceptT RouteVersioningError (Program PublishCall.Reply)

namespace PublishM

-- `call.await?`
def findByIdempotencyKey (key : Uuid) : PublishM (Option RouteVersion) :=
  ExceptT.mk (.call (PublishCall.findByIdempotencyKey key))

def findLatestByActivity (activityId : ActivityId) : PublishM (Option RouteVersion) :=
  ExceptT.mk (.call (PublishCall.findLatestByActivity activityId))

def save (version : RouteVersion) : PublishM Unit :=
  ExceptT.mk (.call (PublishCall.save version))

def updateActivityCurrentVersion (activityId : ActivityId) (routeVersionId : RouteVersionId)
    (correctedSummary : Json) : PublishM Unit :=
  ExceptT.mk (.call (PublishCall.updateActivityCurrentVersion activityId routeVersionId
    correctedSummary))

-- `call.await`, whose error the caller maps
def findById (id : RouteDraftId) : PublishM (Except RouteEditingError (Option RouteDraft)) :=
  ExceptT.lift (.call (PublishCall.findById id))

def update (draft : RouteDraft) : PublishM (Except RouteEditingError Unit) :=
  ExceptT.lift (.call (PublishCall.update draft))

def ofExcept {α : Type} (result : Except RouteVersioningError α) : PublishM α :=
  ExceptT.mk (.done result)

end PublishM

-- `map_err(|_| error)?`
def orError {ε α : Type} (error : RouteVersioningError) : Except ε α → PublishM α
  | .ok a => pure a
  | .error _ => throw error

def flattenGeometry (segments : RouteEditing.Geometry) : List Coordinate :=
  segments.flatten.map fun point => {
    latitude := point.coordinate.latitude
    longitude := point.coordinate.longitude
  }

def validationMessage : PublicationValidationError → String
  | .notOwner => "not the draft owner"
  | .draftNotActive => "draft is not active"
  | .revisionMismatch expected actual =>
    s!"revision mismatch: expected {expected}, actual {actual}"
  | .noSegments => "geometry has no segments"
  | .insufficientPointsInSegment segmentIndex minimum actual =>
    s!"segment {segmentIndex} has insufficient points: minimum {minimum}, got {actual}"
  | .invalidCoordinateInSegment segmentIndex pointIndex message =>
    s!"segment {segmentIndex}, point {pointIndex}: {message}"
  | .noBaseVersion => "no base version set"

-- the errors of the authorization come alone
def mapValidationErrors : List PublicationValidationError → RouteVersioningError
  | [.notOwner] => .notAuthorized
  | [.draftNotActive] => .draftNotActive
  | [.revisionMismatch expected actual] => .revisionConflict expected actual
  | errors => .validationFailed (errors.map validationMessage)

namespace PublishRouteVersionCommand

variable (externals : Externals) (command : PublishRouteVersionCommand)

-- step 3
def validate (draft : RouteDraft) : Except RouteVersioningError Unit :=
  match RouteEditing.validateForPublication draft command.expectedRevision command.actorId with
  | .ok () => .ok ()
  | .error errors => .error (mapValidationErrors errors)

-- step 4
def boundingBox (flatGeometry : List Coordinate) : Except RouteVersioningError BoundingBox :=
  match BoundingBox.fromCoordinates flatGeometry with
  | some box => .ok box
  | none => .error (.validationFailed ["geometry produced no bounding box"])

-- step 6
def newVersion (draft : RouteDraft) (box : BoundingBox) (latestVersion : RouteVersion)
    : Except RouteVersioningError RouteVersion :=
  let flatGeometry := flattenGeometry draft.geometry
  let statistics := CorrectedStatistics.calculateFromGeometry externals.totalDistance flatGeometry
  RouteVersion.newFromPublication externals.now { val := externals.newVersionId } latestVersion.id
    (latestVersion.versionNumber + 1) draft.activityId flatGeometry box statistics
    statistics.calculationVersion command.editSummary command.actorId

-- steps 7 to 9
def store (draft : RouteDraft) (version : RouteVersion) : PublishM Unit := do
  PublishM.save version
  match (RouteDraft.publish externals.now).run draft with
  | .error _ _ => throw .draftNotActive
  | .ok _ draft =>
    orError (.persistenceError "failed to update draft") (← PublishM.update draft)
    PublishM.updateActivityCurrentVersion draft.activityId version.id
      version.correctedStatistics.toJson

-- steps 5 to 10
def publishDraft (draft : RouteDraft) (box : BoundingBox) : PublishM RouteVersion := do
  match ← PublishM.findLatestByActivity draft.activityId with
  | none => throw .activityNotFound
  | some latestVersion =>
    let version ← PublishM.ofExcept (command.newVersion externals draft box latestVersion)
    store externals draft version
    return version

-- steps 2 to 10
def publish : PublishM RouteVersion := do
  match ← orError .draftNotFound (← PublishM.findById command.draftId) with
  | none => throw .draftNotFound
  | some draft =>
    PublishM.ofExcept (command.validate draft)
    let box ← PublishM.ofExcept (boundingBox (flattenGeometry draft.geometry))
    command.publishDraft externals draft box

end PublishRouteVersionCommand

def executePublish (externals : Externals) (command : PublishRouteVersionCommand)
    : PublishM RouteVersion := do
  match ← PublishM.findByIdempotencyKey command.idempotencyKey with
  | some existing => return existing
  | none => command.publish externals

end RouteVersioning
