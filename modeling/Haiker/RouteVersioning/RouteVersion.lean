import Haiker.RecordedActivity.ValueObjects
import Haiker.RouteVersioning.PublicationCommit

/-!
This module contains route versions as the domain builds them, and how a stored one is read. What the JSON
parser says of a malformed value comes in as a function.
-/

open Rust
open RecordedActivity (BoundingBox Coordinate)

namespace RouteVersioning

-- the `#[error(..)]` texts; the errors of a failed validation are printed with `{:?}`
def RouteVersioningError.display : RouteVersioningError → String
  | .notFound => "route version not found"
  | .immutable => "route version is immutable and cannot be modified"
  | .insufficientGeometry minimum actual =>
    "insufficient geometry points: minimum " ++ toString minimum ++ ", got " ++ toString actual
  | .invalidVersionNumber minimum actual =>
    "invalid version number: minimum " ++ toString minimum ++ ", got " ++ toString actual
  | .draftNotFound => "draft not found"
  | .notAuthorized => "not authorized"
  | .revisionConflict expected actual =>
    "revision conflict: expected " ++ toString expected ++ ", actual " ++ toString actual
  | .draftNotActive => "draft is not active"
  | .validationFailed errors => "validation failed: " ++ toString (errors.map String.quote)
  | .idempotencyConflict => "idempotency conflict"
  | .activityNotFound => "activity not found"
  | .persistenceError message => "persistence error: " ++ message

namespace CorrectedStatistics

def CALCULATION_VERSION : String := "v1.0"

-- `totalDistance` is the sum of the distances between neighbours
def calculateFromGeometry (totalDistance : List (F64 × F64) → F64)
    (coords : List RecordedActivity.Coordinate) : CorrectedStatistics where
  distanceMeters := totalDistance (coords.map fun c => (c.latitude, c.longitude))
  pointCount := coords.length % UInt32.size
  calculationVersion := CALCULATION_VERSION

def toJson (statistics : CorrectedStatistics) : Json :=
  .obj [
    ("distance_meters", .ofF64 statistics.distanceMeters),
    ("point_count", .ofNat statistics.pointCount),
    ("calculation_version", .str statistics.calculationVersion)
  ]

end CorrectedStatistics

structure RouteVersion where
  id : RouteVersionId
  activityId : ActivityCatalog.ActivityId
  parentVersionId : Option RouteVersionId
  versionNumber : Int
  geometry : List RecordedActivity.Coordinate
  boundingBox : RecordedActivity.BoundingBox
  correctedStatistics : CorrectedStatistics
  calculationVersion : String
  editSummary : Option String
  createdBy : Identity.UserId
  createdAt : Timestamp
  deriving DecidableEq

namespace RouteVersion

-- `id` is the generated one
def newInitial (now : Timestamp) (id : RouteVersionId) (activityId : ActivityCatalog.ActivityId)
    (geometry : List RecordedActivity.Coordinate) (boundingBox : RecordedActivity.BoundingBox)
    (correctedStatistics : CorrectedStatistics) (calculationVersion : String)
    (createdBy : Identity.UserId) : Except RouteVersioningError RouteVersion :=
  if geometry.length < 2 then
    .error (.insufficientGeometry 2 geometry.length)
  else
    .ok {
      id
      activityId
      parentVersionId := none
      versionNumber := 1
      geometry
      boundingBox
      correctedStatistics
      calculationVersion
      editSummary := none
      createdBy
      createdAt := now
    }

def newFromPublication (now : Timestamp) (id parentVersionId : RouteVersionId) (versionNumber : Int)
    (activityId : ActivityCatalog.ActivityId) (geometry : List RecordedActivity.Coordinate)
    (boundingBox : RecordedActivity.BoundingBox) (correctedStatistics : CorrectedStatistics)
    (calculationVersion : String) (editSummary : Option String) (createdBy : Identity.UserId)
    : Except RouteVersioningError RouteVersion :=
  if versionNumber < 2 then
    .error (.invalidVersionNumber 2 versionNumber)
  else if geometry.length < 2 then
    .error (.insufficientGeometry 2 geometry.length)
  else
    .ok {
      id
      activityId
      parentVersionId := some parentVersionId
      versionNumber
      geometry
      boundingBox
      correctedStatistics
      calculationVersion
      editSummary
      createdBy
      createdAt := now
    }

end RouteVersion

structure SerdeErrors where
  geometry : Json → String
  boundingBox : Json → String
  correctedStatistics : Json → String

namespace PgRouteVersionRepository

-- `serde_json::from_value(value).map_err(..)?`
def deserialize {α : Type} (what : String) (error : Json → String) (read : Json → Option α)
    (value : Json) : Except RouteVersioningError α :=
  match read value with
  | some a => .ok a
  | none => .error (.persistenceError ("failed to deserialize " ++ what ++ ": " ++ error value))

-- the query has read the statistics, a column that may be null, before
def rowToRouteVersion (errors : SerdeErrors) (row : RouteVersionRow) (correctedStatisticsJson : Json)
    : Except RouteVersioningError RouteVersion := do
  let geometry ← deserialize "geometry" errors.geometry (Json.toList? Coordinate.fromJson)
    row.geometryJson
  let boundingBox ← deserialize "bounding_box" errors.boundingBox BoundingBox.fromJson
    row.boundingBoxJson
  let correctedStatistics ← deserialize "corrected_statistics" errors.correctedStatistics
    CorrectedStatistics.fromJson correctedStatisticsJson
  return {
    id := { val := row.id }
    activityId := { val := row.activityId }
    parentVersionId := row.parentVersionId.map fun val => { val }
    versionNumber := row.versionNumber
    geometry
    boundingBox
    correctedStatistics
    calculationVersion := row.calculationVersion
    editSummary := row.editSummary
    createdBy := { val := row.createdBy }
    createdAt := row.createdAt
  }

-- the row that `save` inserts
def rowOfVersion (version : RouteVersion) : RouteVersionRow where
  id := version.id.val
  activityId := version.activityId.val
  parentVersionId := version.parentVersionId.map (·.val)
  versionNumber := version.versionNumber
  geometryJson := .ofList Coordinate.toJson version.geometry
  boundingBoxJson := version.boundingBox.toJson
  correctedStatisticsJson := some version.correctedStatistics.toJson
  calculationVersion := version.calculationVersion
  editSummary := version.editSummary
  createdBy := version.createdBy.val
  createdAt := version.createdAt.toTimestamptz

variable {row : RouteVersionRow}

theorem rowToRouteVersion_of_read {geometry : List Coordinate} {box : BoundingBox}
    {statisticsJson : Json} {statistics : CorrectedStatistics}
    (hgeometry : row.geometryJson.toList? Coordinate.fromJson = some geometry)
    (hbox : BoundingBox.fromJson row.boundingBoxJson = some box)
    (hstatistics : CorrectedStatistics.fromJson statisticsJson = some statistics) (errors : SerdeErrors)
    : ∃ version, rowToRouteVersion errors row statisticsJson = .ok version
        ∧ version.geometry = geometry := by
  simp only [rowToRouteVersion, deserialize, hgeometry, hbox, hstatistics]
  exact ⟨_, rfl, rfl⟩

theorem rowToRouteVersion_of_unread (h : row.geometryJson.toList? Coordinate.fromJson = none)
    (errors : SerdeErrors) (statisticsJson : Json)
    : rowToRouteVersion errors row statisticsJson
        = .error (.persistenceError
          ("failed to deserialize geometry: " ++ errors.geometry row.geometryJson)) := by
  simp only [rowToRouteVersion, deserialize, h]
  rfl

end PgRouteVersionRepository

end RouteVersioning
