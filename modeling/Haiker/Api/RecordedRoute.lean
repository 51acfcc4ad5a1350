import Haiker.Api.Error
import Haiker.RecordedActivity.RecordedRoute

/-!
This module contains the handler that serves recorded routes: as GeoJSON, or as a preview without the
geometry.
-/

open Rust
open RecordedActivity

namespace Api

inductive RouteDetail where
  | full
  | preview
  deriving DecidableEq

structure GeoJsonGeometry where
  geometryType : String
  -- `[longitude, latitude]`
  coordinates : List (F64 × F64)

structure SegmentProperties where
  segmentIndex : Nat
  pointCount : Nat

structure GeoJsonFeature where
  featureType : String
  geometry : GeoJsonGeometry
  properties : SegmentProperties

structure RouteProperties where
  distanceMeters : F64
  elevationGainMeters : Option F64
  elevationLossMeters : Option F64
  pointCount : Nat
  segmentCount : Nat

-- `[west, south, east, north]`
structure Bbox where
  west : F64
  south : F64
  east : F64
  north : F64

structure RecordedRouteResponse where
  geojsonType : String
  bbox : Bbox
  features : List GeoJsonFeature
  properties : RouteProperties

structure RecordedRoutePreviewResponse where
  bbox : Bbox
  pointCount : Nat
  segmentCount : Nat
  distanceMeters : F64
  elevationGainMeters : Option F64
  elevationLossMeters : Option F64

/-
The derived `Serialize` implementations.
-/

def GeoJsonGeometry.toJson (geometry : GeoJsonGeometry) : Json :=
  .obj [
    ("type", .str geometry.geometryType),
    ("coordinates", .ofList (fun c => .arr [.ofF64 c.1, .ofF64 c.2]) geometry.coordinates)
  ]

def SegmentProperties.toJson (properties : SegmentProperties) : Json :=
  .obj [("segmentIndex", .ofNat properties.segmentIndex), ("pointCount", .ofNat properties.pointCount)]

def GeoJsonFeature.toJson (feature : GeoJsonFeature) : Json :=
  .obj [
    ("type", .str feature.featureType),
    ("geometry", feature.geometry.toJson),
    ("properties", feature.properties.toJson)
  ]

def Bbox.toJson (bbox : Bbox) : Json :=
  .arr [.ofF64 bbox.west, .ofF64 bbox.south, .ofF64 bbox.east, .ofF64 bbox.north]

-- `skip_serializing_if = "Option::is_none"`
def skipNone (name : String) (value : Option F64) : List (String × Json) :=
  value.toList.map fun x => (name, .ofF64 x)

def elevationFields (gain loss : Option F64) : List (String × Json) :=
  skipNone "elevationGainMeters" gain ++ skipNone "elevationLossMeters" loss

def RouteProperties.fields (properties : RouteProperties) : List (String × Json) :=
  ("distanceMeters", .ofF64 properties.distanceMeters)
  :: elevationFields properties.elevationGainMeters properties.elevationLossMeters
  ++ [("pointCount", .ofNat properties.pointCount), ("segmentCount", .ofNat properties.segmentCount)]

def RouteProperties.toJson (properties : RouteProperties) : Json := .obj properties.fields

def RecordedRouteResponse.toJson (response : RecordedRouteResponse) : Json :=
  .obj [
    ("type", .str response.geojsonType),
    ("bbox", response.bbox.toJson),
    ("features", .ofList GeoJsonFeature.toJson response.features),
    ("properties", response.properties.toJson)
  ]

def RecordedRoutePreviewResponse.toJson (response : RecordedRoutePreviewResponse) : Json :=
  .obj (
    [
      ("bbox", response.bbox.toJson),
      ("pointCount", .ofNat response.pointCount),
      ("segmentCount", .ofNat response.segmentCount),
      ("distanceMeters", .ofF64 response.distanceMeters)
    ]
    ++ elevationFields response.elevationGainMeters response.elevationLossMeters
  )

/-
The handler.
-/

def recordedRouteErrorToApiError : RecordedRouteError → ApiError
  | .notFound =>
    problem .notFound "NOT_FOUND" "recorded route not found" "/problems/not-found" "Not Found"
  | .persistence message =>
    problem .internalServerError "INTERNAL_ERROR" message "/problems/internal-error" "Internal Server Error"

def bboxOf (box : BoundingBox) : Bbox where
  west := box.southWest.longitude
  south := box.southWest.latitude
  east := box.northEast.longitude
  north := box.northEast.latitude

def featureOf (segment : RouteSegment) (segmentIndex : Nat) : GeoJsonFeature where
  featureType := "Feature"
  geometry := {
    geometryType := "LineString"
    coordinates := segment.points.map fun c => (c.longitude, c.latitude)
  }
  properties := { segmentIndex, pointCount := segment.points.length }

def recordedRouteResponse (data : RecordedRouteData) : RecordedRouteResponse where
  geojsonType := "FeatureCollection"
  bbox := bboxOf data.boundingBox
  features := data.segments.zipIdx.map fun (segment, i) => featureOf segment i
  properties := {
    distanceMeters := data.statistics.distanceMeters
    elevationGainMeters := data.statistics.elevationGainMeters
    elevationLossMeters := data.statistics.elevationLossMeters
    pointCount := data.statistics.pointCount
    segmentCount := data.statistics.segmentCount
  }

def recordedRoutePreviewResponse (preview : RecordedRoutePreview) : RecordedRoutePreviewResponse where
  bbox := bboxOf preview.boundingBox
  pointCount := preview.statistics.pointCount
  segmentCount := preview.statistics.segmentCount
  distanceMeters := preview.statistics.distanceMeters
  elevationGainMeters := preview.statistics.elevationGainMeters
  elevationLossMeters := preview.statistics.elevationLossMeters

-- a response with status 200
structure JsonResponse where
  contentType : String
  body : Json

def getRecordedRouteHandler (actor : Identity.UserId) (activityId : Uuid) (detail : RouteDetail)
    (db : Imports.Database) : Except (Fault ApiError) JsonResponse := do
  match getRecordedRoute activityId actor (detail = .preview) db with
  | .error .panic => throw .panic
  | .error (.err e) => throw (.err (recordedRouteErrorToApiError e))
  | .ok (.full data) => return ⟨"application/geo+json", (recordedRouteResponse data).toJson⟩
  | .ok (.preview preview) => return ⟨"application/json", (recordedRoutePreviewResponse preview).toJson⟩

end Api
