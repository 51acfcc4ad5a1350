import Haiker.RouteVersioning.PublicationCommit
import Haiker.RecordedActivity.ValueObjects

/-!
This module contains how the export worker reads the geometry of a route version, and what it makes of the
two forms of a geometry.
-/

open Rust
-- the worker declares the same struct once more
open RouteVersioning (GeometryPoint)

namespace Exports

structure GpxPoint where
  latitude : F64
  longitude : F64
  elevation : Option F64
  deriving DecidableEq

def gpxPoint (p : GeometryPoint) : GpxPoint where
  latitude := p.latitude
  longitude := p.longitude
  elevation := p.elevation

def parseGeometryJson (raw : Json) : Except String (List (List GpxPoint)) :=
  match raw.toList? (Json.toList? GeometryPoint.fromJson) with
  | some segments => .ok (segments.map fun seg => seg.map gpxPoint)
  | none =>
    match raw.toList? GeometryPoint.fromJson with
    | some points => .ok [points.map gpxPoint]
    | none => .error "geometry_json is neither a segmented array nor a flat point array"

end Exports

open RecordedActivity (Coordinate)

namespace RouteVersioning

def GeometryPoint.ofCoordinate (c : Coordinate) : GeometryPoint where
  latitude := c.latitude
  longitude := c.longitude
  elevation := none

theorem fromJson_coordinate {c : Coordinate} (h : c.InRange)
    : GeometryPoint.fromJson c.toJson = some (.ofCoordinate c) := by
  have hlatitude := Json.toF64?_ofF64_of_isFinite (F64.isFinite_of_inRange h.1)
  have hlongitude := Json.toF64?_ofF64_of_isFinite (F64.isFinite_of_inRange h.2)
  simp [GeometryPoint.fromJson, GeometryPoint.ofCoordinate, Coordinate.toJson, Json.structFields,
    List.lookup_cons, hlatitude, hlongitude]

-- a coordinate is an object and thus no segment
theorem readSegments_flat {coords : List Coordinate} (h : coords ≠ [])
    : readSegments (Json.ofList Coordinate.toJson coords) = none := by
  cases coords with
  | nil => contradiction
  | cons c rest =>
    apply Json.toList?_eq_none_of_mem (List.mem_map_of_mem (List.mem_cons_self (a := c) (l := rest)))
    rfl

theorem parseGeometryJson_flat {coords : List Coordinate} (h : ∀ c ∈ coords, c.InRange)
    (hne : coords ≠ [])
    : Exports.parseGeometryJson (Json.ofList Coordinate.toJson coords)
        = .ok [(coords.map GeometryPoint.ofCoordinate).map Exports.gpxPoint] := by
  have hsegments := readSegments_flat hne
  have hpoints : (Json.ofList Coordinate.toJson coords).toList? GeometryPoint.fromJson
      = some (coords.map GeometryPoint.ofCoordinate) := by
    apply Json.toList?_ofList_map
    intro c hmem
    exact fromJson_coordinate (h c hmem)
  unfold readSegments at hsegments
  simp only [Exports.parseGeometryJson, hsegments, hpoints]

theorem parseGeometryJson_segments {j : Json} {segments : List (List GeometryPoint)}
    (h : readSegments j = some segments)
    : Exports.parseGeometryJson j
        = .ok (segments.map fun segment => segment.map Exports.gpxPoint) := by
  unfold readSegments at h
  simp only [Exports.parseGeometryJson, h]

theorem gpxPoint_injective : Function.Injective Exports.gpxPoint := by
  intro p q h
  cases p
  cases q
  simpa [Exports.gpxPoint] using h

end RouteVersioning
