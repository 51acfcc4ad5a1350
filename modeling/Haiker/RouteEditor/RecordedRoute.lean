import Haiker.Api.RouteEditingDto
import Haiker.Api.RecordedRoute

/-!
This module contains what the editor makes of a recorded route that is served to it.
-/

open Rust

namespace RouteEditor

structure GeoJsonGeometry where
  type : String
  coordinates : List (List F64)
  deriving DecidableEq

structure GeoJsonFeature where
  geometry : GeoJsonGeometry
  properties : Option (List (String × Json))

structure RecordedRoute where
  bbox : List F64
  features : List GeoJsonFeature
  properties : Option (List (String × Json))

-- `z.record(z.string(), z.unknown()).nullable()`
def parseRecord : Json → Option (Option (List (String × Json)))
  | .obj fields => some (some fields)
  | .null => some none
  | _ => none

-- `z.literal(text)`
def parseLiteral (text : String) (j : Json) : Option Unit :=
  if j.asStr? = some text then some () else none

def GeoJsonGeometry.parse (j : Json) : Option GeoJsonGeometry := do
  return {
    type := ← (← j.get? "type").asStr?
    coordinates := ← (← j.get? "coordinates").toList? (Json.toList? Json.toF64?)
  }

def GeoJsonFeature.parse (j : Json) : Option GeoJsonFeature := do
  parseLiteral "Feature" (← j.get? "type")
  return {
    geometry := ← GeoJsonGeometry.parse (← j.get? "geometry")
    properties := ← parseRecord (← j.get? "properties")
  }

-- `RecordedRouteSchema`
def RecordedRoute.parse (j : Json) : Option RecordedRoute := do
  parseLiteral "FeatureCollection" (← j.get? "type")
  return {
    bbox := ← (← j.get? "bbox").toList? Json.toF64?
    features := ← (← j.get? "features").toList? GeoJsonFeature.parse
    properties := ← parseRecord (← j.get? "properties")
  }

-- a coordinate that is too short is left out
def routePoint : List F64 → Option Api.RoutePointDto
  | longitude :: latitude :: others => some { latitude, longitude, elevation := others.head? }
  | _ => none

def featureSegment (feature : GeoJsonFeature) : Option (List Api.RoutePointDto) :=
  if feature.geometry.type = "LineString" then
    let segment := feature.geometry.coordinates.filterMap routePoint
    if 2 ≤ segment.length then some segment else none
  else
    none

def recordedRouteToGeometry (recordedRoute : RecordedRoute) : List (List Api.RoutePointDto) :=
  let segments := recordedRoute.features.filterMap featureSegment
  if segments.isEmpty then
    [[⟨.fin 0, .fin 0, none⟩, ⟨.fin 1, .fin 1, none⟩]]
  else
    segments

end RouteEditor
