import Haiker.ActivityCatalog.Activity
import Haiker.Imports.Commit
import Haiker.RecordedActivity.Normalization

/-!
This module contains the repository of recorded routes and the query that reads one for its owner.
-/

open Rust
open ActivityCatalog (ActivityCatalogError PgActivityRepository.findById)
open Imports (Database RecordedTrackRow SourceRevisionRow)

namespace RecordedActivity

structure RouteSegment where
  points : List Coordinate
  deriving DecidableEq

structure RouteStatistics where
  distanceMeters : F64
  elevationGainMeters : Option F64
  elevationLossMeters : Option F64
  pointCount : Nat
  segmentCount : Nat
  deriving DecidableEq

structure RecordedRouteData where
  activityId : Uuid
  segments : List RouteSegment
  boundingBox : BoundingBox
  statistics : RouteStatistics
  deriving DecidableEq

structure RecordedRoutePreview where
  activityId : Uuid
  boundingBox : BoundingBox
  statistics : RouteStatistics
  deriving DecidableEq

inductive RecordedRouteResult where
  | full (data : RecordedRouteData)
  | preview (data : RecordedRoutePreview)
  deriving DecidableEq

-- the errors of the query
inductive RecordedRouteError where
  | notFound
  | persistence (message : String)
  deriving DecidableEq

namespace PgRecordedRouteRepository

-- an object with `latitude` and `longitude`
def parseCoordinate (j : Json) : Option Coordinate := do
  let lat ← (← j.get? "latitude").toF64?
  let lng ← (← j.get? "longitude").toF64?
  (Coordinate.new lat lng).toOption

def parsePoint (p : Json) : Option Coordinate := do
  parseCoordinate (← p.get? "coordinate")

-- `[lng, lat]`
def parsePointLegacy (p : Json) : Option Coordinate := do
  let arr ← p.asArr?
  let lng ← (← arr[0]?).toF64?
  let lat ← (← arr[1]?).toF64?
  (Coordinate.new lat lng).toOption

-- points that cannot be read are skipped, and segments without points too
def parseSegment (parsePoint : Json → Option Coordinate) (points : List Json) : Option RouteSegment :=
  let coords := points.filterMap parsePoint
  if coords.isEmpty then none else some { points := coords }

def parseGeometryLegacy (geometryJson : Json) : List RouteSegment :=
  match (geometryJson.get? "segments").bind Json.asArr? with
  | some segments => segments.filterMap fun seg => seg.asArr?.bind (parseSegment parsePointLegacy)
  | none => []

def parseGeometry (geometryJson : Json) : List RouteSegment :=
  match geometryJson.asArr? with
  | some segments =>
    segments.filterMap fun seg => ((seg.get? "points").bind Json.asArr?).bind (parseSegment parsePoint)
  | none => parseGeometryLegacy geometryJson

def parseBoundingBox (bboxJson : Json) : Option BoundingBox := do
  return {
    southWest := ← parseCoordinate (← bboxJson.get? "south_west")
    northEast := ← parseCoordinate (← bboxJson.get? "north_east")
  }

def readBoundingBox (bboxJson : Json) : BoundingBox :=
  (parseBoundingBox bboxJson).getD ⟨⟨.fin 0, .fin 0⟩, ⟨.fin 0, .fin 0⟩⟩

-- `n as u32`
def asU32 (n : Int) : Nat := (BitVec.ofInt 32 n).toNat

def statistics (row : RecordedTrackRow) : RouteStatistics where
  distanceMeters := row.distanceMeters
  elevationGainMeters := row.elevationGainMeters
  elevationLossMeters := row.elevationLossMeters
  pointCount := asU32 row.pointCount
  segmentCount := asU32 row.segmentCount

-- `recorded_tracks rt JOIN source_revisions sr ON sr.id = rt.source_revision_id`
def joined (db : Database) : List (SourceRevisionRow × RecordedTrackRow) :=
  db.recordedTracks.rows.filterMap fun rt =>
    (db.sourceRevisions.find? rt.sourceRevisionId).map fun sr => (sr, rt)

-- `ORDER BY sr.revision_number DESC LIMIT 1`
def newest : List (SourceRevisionRow × RecordedTrackRow) → Option (SourceRevisionRow × RecordedTrackRow)
  | [] => none
  | row :: rows =>
    match newest rows with
    | some other => if row.1.revisionNumber < other.1.revisionNumber then some other else some row
    | none => some row

-- `WHERE sr.activity_id = $1`
def findTrack (activityId : Uuid) (db : Database) : Option RecordedTrackRow :=
  (newest ((joined db).filter fun (sr, _) => sr.activityId = activityId)).map fun (_, rt) => rt

def getRecordedRoute (activityId : Uuid) (db : Database) : Option RecordedRouteData :=
  (findTrack activityId db).map fun row => {
    activityId
    segments := parseGeometry row.geometryJson
    boundingBox := readBoundingBox row.boundingBoxJson
    statistics := statistics row
  }

def getRecordedRoutePreview (activityId : Uuid) (db : Database) : Option RecordedRoutePreview :=
  (findTrack activityId db).map fun row => {
    activityId
    boundingBox := readBoundingBox row.boundingBoxJson
    statistics := statistics row
  }

end PgRecordedRouteRepository

def RecordedRouteError.ofCatalog : Fault ActivityCatalogError → Fault RecordedRouteError
  | .panic => .panic
  | .err (.persistenceError message) => .err (.persistence message)
  | .err _ => .err .notFound

-- activities of others and deleted ones are not found
def getRecordedRoute (activityId : Uuid) (ownerId : Identity.UserId) (preview : Bool) (db : Database)
    : Except (Fault RecordedRouteError) RecordedRouteResult := do
  let found ← (PgActivityRepository.findById ⟨activityId⟩ db.activities).mapError RecordedRouteError.ofCatalog
  let some activity := found.filter fun a => a.ownerId = ownerId ∧ a.lifecycleState ≠ .deleted
    | throw (.err .notFound)
  if preview then
    match PgRecordedRouteRepository.getRecordedRoutePreview activity.id.val db with
    | some routePreview => return .preview routePreview
    | none => throw (.err .notFound)
  else
    match PgRecordedRouteRepository.getRecordedRoute activity.id.val db with
    | some routeData => return .full routeData
    | none => throw (.err .notFound)

end RecordedActivity
