import Haiker.RouteEditing.Draft

/-!
This module contains the bodies of route editing requests and responses. A request's body is what
parsing its JSON gives, so the idempotency key is a UUID here already.
-/

open Rust
open RouteEditing

namespace Api

structure RoutePointDto where
  latitude : F64
  longitude : F64
  elevation : Option F64
  deriving DecidableEq

structure PositionDto where
  latitude : F64
  longitude : F64
  deriving DecidableEq

inductive OperationDto where
  | movePoint (segmentIndex pointIndex : Nat) (newPosition : PositionDto)
  | addPoint (segmentIndex afterPointIndex : Nat) (point : RoutePointDto)
  | deletePoint (segmentIndex pointIndex : Nat)
  | deleteSection (segmentIndex startIndex endIndex : Nat)
  | replaceSection (segmentIndex startIndex endIndex : Nat) (replacement : List RoutePointDto)
  | splitSegment (segmentIndex atPointIndex : Nat)
  | joinSegments (firstSegmentIndex secondSegmentIndex : Nat)
  deriving DecidableEq

structure CreateRouteDraftRequest where
  geometry : List (List RoutePointDto)
  baseRouteVersionId : Option Uuid
  deriving DecidableEq

structure ApplyOperationRequest where
  operation : OperationDto
  expectedRevision : Nat
  deriving DecidableEq

structure UndoRedoRequest where
  expectedRevision : Nat
  deriving DecidableEq

structure ValidateForPublicationRequest where
  expectedRevision : Nat
  deriving DecidableEq

structure PublishRouteDraftRequest where
  expectedRevision : Nat
  editSummary : Option String
  deriving DecidableEq

structure RouteDraftResponse where
  id : Uuid
  activityId : Uuid
  baseRouteVersionId : Option Uuid
  revision : Nat
  state : String
  geometry : List (List RoutePointDto)
  canUndo : Bool
  canRedo : Bool
  createdAt : Timestamp
  updatedAt : Timestamp
  deriving DecidableEq

structure OperationResultResponse where
  draftId : Uuid
  revision : Nat
  canUndo : Bool
  canRedo : Bool
  deriving DecidableEq

structure ValidationErrorDto where
  code : String
  detail : String
  deriving DecidableEq

structure ValidationResultResponse where
  valid : Bool
  errors : List ValidationErrorDto
  deriving DecidableEq

structure CorrectedStatisticsDto where
  distanceMeters : F64
  pointCount : Nat
  calculationVersion : String
  deriving DecidableEq

structure PublicationResponse where
  routeVersionId : Uuid
  versionNumber : Int
  draftId : Uuid
  correctedStatistics : CorrectedStatisticsDto
  deriving DecidableEq

namespace RoutePointDto

def toDomain (dto : RoutePointDto) : Except String RoutePoint :=
  match Coordinate.new dto.latitude dto.longitude with
  | .ok coordinate => .ok { coordinate, elevation := dto.elevation.map fun meters => { meters } }
  | .error e => .error ("invalid coordinate: " ++ e.display)

def fromDomain (point : RoutePoint) : RoutePointDto where
  latitude := point.coordinate.latitude
  longitude := point.coordinate.longitude
  elevation := point.elevation.map (·.meters)

end RoutePointDto

namespace OperationDto

def toDomain : OperationDto → Except String RouteOperation
  | .movePoint segmentIndex pointIndex newPosition =>
    match Coordinate.new newPosition.latitude newPosition.longitude with
    | .ok coordinate => .ok (.movePoint { value := segmentIndex } { value := pointIndex } coordinate)
    | .error e => .error (e.display)
  | .addPoint segmentIndex afterPointIndex point =>
    match point.toDomain with
    | .ok point => .ok (.addPoint { value := segmentIndex } { value := afterPointIndex } point)
    | .error e => .error e
  | .deletePoint segmentIndex pointIndex =>
    .ok (.deletePoint { value := segmentIndex } { value := pointIndex })
  | .deleteSection segmentIndex startIndex endIndex =>
    .ok (.deleteSection { value := segmentIndex } { value := startIndex } { value := endIndex })
  | .replaceSection segmentIndex startIndex endIndex replacement =>
    match replacement.mapM RoutePointDto.toDomain with
    | .ok replacement =>
      .ok (.replaceSection { value := segmentIndex } { value := startIndex } { value := endIndex }
        replacement)
    | .error e => .error e
  | .splitSegment segmentIndex atPointIndex =>
    .ok (.splitSegment { value := segmentIndex } { value := atPointIndex })
  | .joinSegments firstSegmentIndex secondSegmentIndex =>
    .ok (.joinSegments { value := firstSegmentIndex } { value := secondSegmentIndex })

end OperationDto

def geometryToDomain (dto : List (List RoutePointDto)) : Except String Geometry :=
  dto.mapM fun segment => segment.mapM RoutePointDto.toDomain

def geometryToDto (geometry : Geometry) : List (List RoutePointDto) :=
  geometry.map fun segment => segment.map RoutePointDto.fromDomain

def draftToResponse (draft : RouteDraft) : RouteDraftResponse where
  id := draft.id.val
  activityId := draft.activityId.val
  baseRouteVersionId := draft.baseRouteVersionId
  revision := draft.revision
  state := match draft.state with
    | .active => "active"
    | .published => "published"
    | .discarded => "discarded"
  geometry := geometryToDto draft.geometry
  canUndo := !draft.appliedOperations.isEmpty
  canRedo := !draft.undoneOperations.isEmpty
  createdAt := draft.createdAt
  updatedAt := draft.updatedAt

-- what the handlers of the four commands answer with
def operationResult (draft : RouteDraft) : OperationResultResponse where
  draftId := draft.id.val
  revision := draft.revision
  canUndo := !draft.appliedOperations.isEmpty
  canRedo := !draft.undoneOperations.isEmpty

end Api
