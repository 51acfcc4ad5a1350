import Haiker.Json.Basic
import Haiker.RouteEditing.Operations

/-!
This module contains the JSON forms that the derived `Serialize` and `Deserialize` implementations
give geometries and operations.
-/

open Rust

namespace RouteEditing

namespace Coordinate

def toJson (c : Coordinate) : Json :=
  .obj [("latitude", .ofF64 c.latitude), ("longitude", .ofF64 c.longitude)]

def fromJson (j : Json) : Option Coordinate :=
  match j.structFields ["latitude", "longitude"] with
  | some [some latitude, some longitude] => do
    return { latitude := ← latitude.toF64?, longitude := ← longitude.toF64? }
  | _ => none

end Coordinate

namespace Elevation

def toJson (e : Elevation) : Json := .ofF64 e.meters

def fromJson (j : Json) : Option Elevation := j.toF64?.map fun meters => { meters }

end Elevation

namespace RoutePoint

def toJson (p : RoutePoint) : Json :=
  .obj [("coordinate", p.coordinate.toJson), ("elevation", .ofOption Elevation.toJson p.elevation)]

def fromJson (j : Json) : Option RoutePoint :=
  match j.structFields ["coordinate", "elevation"] with
  | some [some coordinate, some elevation] => do
    return {
      coordinate := ← Coordinate.fromJson coordinate
      elevation := ← elevation.toOption? Elevation.fromJson
    }
  -- an optional field may be missing
  | some [some coordinate, none] => do
    return { coordinate := ← Coordinate.fromJson coordinate, elevation := none }
  | _ => none

end RoutePoint

namespace SegmentIndex

def toJson (i : SegmentIndex) : Json := .ofNat i.value

def fromJson (j : Json) : Option SegmentIndex := j.toNat?.map fun value => { value }

end SegmentIndex

namespace PointIndex

def toJson (i : PointIndex) : Json := .ofNat i.value

def fromJson (j : Json) : Option PointIndex := j.toNat?.map fun value => { value }

end PointIndex

namespace RouteOperation

def toJson : RouteOperation → Json
  | .movePoint segmentIndex pointIndex newPosition =>
    .obj [("MovePoint", .obj [
      ("segment_index", segmentIndex.toJson),
      ("point_index", pointIndex.toJson),
      ("new_position", newPosition.toJson)
    ])]
  | .addPoint segmentIndex afterPointIndex point =>
    .obj [("AddPoint", .obj [
      ("segment_index", segmentIndex.toJson),
      ("after_point_index", afterPointIndex.toJson),
      ("point", point.toJson)
    ])]
  | .deletePoint segmentIndex pointIndex =>
    .obj [("DeletePoint", .obj [
      ("segment_index", segmentIndex.toJson),
      ("point_index", pointIndex.toJson)
    ])]
  | .deleteSection segmentIndex startIndex endIndex =>
    .obj [("DeleteSection", .obj [
      ("segment_index", segmentIndex.toJson),
      ("start_index", startIndex.toJson),
      ("end_index", endIndex.toJson)
    ])]
  | .replaceSection segmentIndex startIndex endIndex replacement =>
    .obj [("ReplaceSection", .obj [
      ("segment_index", segmentIndex.toJson),
      ("start_index", startIndex.toJson),
      ("end_index", endIndex.toJson),
      ("replacement", .ofList RoutePoint.toJson replacement)
    ])]
  | .splitSegment segmentIndex atPointIndex =>
    .obj [("SplitSegment", .obj [
      ("segment_index", segmentIndex.toJson),
      ("at_point_index", atPointIndex.toJson)
    ])]
  | .joinSegments firstSegmentIndex secondSegmentIndex =>
    .obj [("JoinSegments", .obj [
      ("first_segment_index", firstSegmentIndex.toJson),
      ("second_segment_index", secondSegmentIndex.toJson)
    ])]

def variantFromJson (variant : String) (content : Json) : Option RouteOperation :=
  match variant with
  | "MovePoint" =>
    match content.variantFields ["segment_index", "point_index", "new_position"] with
    | some [some segmentIndex, some pointIndex, some newPosition] => do
      return .movePoint (← SegmentIndex.fromJson segmentIndex) (← PointIndex.fromJson pointIndex)
        (← Coordinate.fromJson newPosition)
    | _ => none
  | "AddPoint" =>
    match content.variantFields ["segment_index", "after_point_index", "point"] with
    | some [some segmentIndex, some afterPointIndex, some point] => do
      return .addPoint (← SegmentIndex.fromJson segmentIndex) (← PointIndex.fromJson afterPointIndex)
        (← RoutePoint.fromJson point)
    | _ => none
  | "DeletePoint" =>
    match content.variantFields ["segment_index", "point_index"] with
    | some [some segmentIndex, some pointIndex] => do
      return .deletePoint (← SegmentIndex.fromJson segmentIndex) (← PointIndex.fromJson pointIndex)
    | _ => none
  | "DeleteSection" =>
    match content.variantFields ["segment_index", "start_index", "end_index"] with
    | some [some segmentIndex, some startIndex, some endIndex] => do
      return .deleteSection (← SegmentIndex.fromJson segmentIndex) (← PointIndex.fromJson startIndex)
        (← PointIndex.fromJson endIndex)
    | _ => none
  | "ReplaceSection" =>
    match content.variantFields ["segment_index", "start_index", "end_index", "replacement"] with
    | some [some segmentIndex, some startIndex, some endIndex, some replacement] => do
      return .replaceSection (← SegmentIndex.fromJson segmentIndex)
        (← PointIndex.fromJson startIndex) (← PointIndex.fromJson endIndex)
        (← replacement.toList? RoutePoint.fromJson)
    | _ => none
  | "SplitSegment" =>
    match content.variantFields ["segment_index", "at_point_index"] with
    | some [some segmentIndex, some atPointIndex] => do
      return .splitSegment (← SegmentIndex.fromJson segmentIndex)
        (← PointIndex.fromJson atPointIndex)
    | _ => none
  | "JoinSegments" =>
    match content.variantFields ["first_segment_index", "second_segment_index"] with
    | some [some firstSegmentIndex, some secondSegmentIndex] => do
      return .joinSegments (← SegmentIndex.fromJson firstSegmentIndex)
        (← SegmentIndex.fromJson secondSegmentIndex)
    | _ => none
  | _ => none

def fromJson (j : Json) : Option RouteOperation :=
  j.variant?.bind fun (variant, content) => variantFromJson variant content

end RouteOperation

/-
Numbers that are not finite become `null`, which is no number when it is read back. Everything else
is read as it was written.
-/

structure Coordinate.Finite (c : Coordinate) : Prop where
  latitude : c.latitude.isFinite = true
  longitude : c.longitude.isFinite = true

structure RoutePoint.Finite (p : RoutePoint) : Prop where
  coordinate : p.coordinate.Finite
  elevation : ∀ e, p.elevation = some e → e.meters.isFinite = true

def RouteOperation.Finite : RouteOperation → Prop
  | .movePoint _ _ newPosition => newPosition.Finite
  | .addPoint _ _ point => point.Finite
  | .replaceSection _ _ _ replacement => ∀ point ∈ replacement, point.Finite
  | .deletePoint .. | .deleteSection .. | .splitSegment .. | .joinSegments .. => True

theorem Coordinate.fromJson_toJson {c : Coordinate} (h : c.Finite)
    : fromJson c.toJson = some c := by
  have hlat := Json.toF64?_ofF64_of_isFinite h.latitude
  have hlon := Json.toF64?_ofF64_of_isFinite h.longitude
  simp [fromJson, toJson, Json.structFields, List.lookup_cons, hlat, hlon]

theorem Elevation.fromJson_toJson {e : Elevation} (h : e.meters.isFinite = true)
    : fromJson e.toJson = some e := by
  simp [fromJson, toJson, Json.toF64?_ofF64_of_isFinite h]

theorem Elevation.toJson_ne_null {e : Elevation} (h : e.meters.isFinite = true)
    : e.toJson ≠ .null := by
  intro hnull
  have := fromJson_toJson h
  simp [hnull, fromJson, Json.toF64?] at this

theorem RoutePoint.fromJson_toJson {p : RoutePoint} (h : p.Finite)
    : fromJson p.toJson = some p := by
  have helevation : (Json.ofOption Elevation.toJson p.elevation).toOption? Elevation.fromJson
      = some p.elevation := by
    apply Json.toOption?_ofOption
    . intro e he
      exact Elevation.toJson_ne_null (h.elevation e he)
    . intro e he
      exact Elevation.fromJson_toJson (h.elevation e he)
  have hcoordinate := Coordinate.fromJson_toJson h.coordinate
  simp [fromJson, toJson, Json.structFields, List.lookup_cons, hcoordinate, helevation]

@[simp]
theorem SegmentIndex.fromJson_toJson (i : SegmentIndex) : fromJson i.toJson = some i := rfl

@[simp]
theorem PointIndex.fromJson_toJson (i : PointIndex) : fromJson i.toJson = some i := rfl

theorem RouteOperation.fromJson_toJson {operation : RouteOperation} (h : operation.Finite)
    : fromJson operation.toJson = some operation := by
  cases operation with
  | movePoint i k position =>
    have := Coordinate.fromJson_toJson h
    simp [fromJson, toJson, Json.variant?, variantFromJson, Json.variantFields, List.lookup_cons, this]
  | addPoint i k point =>
    have := RoutePoint.fromJson_toJson h
    simp [fromJson, toJson, Json.variant?, variantFromJson, Json.variantFields, List.lookup_cons, this]
  | replaceSection i first last replacement =>
    have : (Json.ofList RoutePoint.toJson replacement).toList? RoutePoint.fromJson
        = some replacement := by
      apply Json.toList?_ofList
      intro point hmem
      exact RoutePoint.fromJson_toJson (h point hmem)
    simp [fromJson, toJson, Json.variant?, variantFromJson, Json.variantFields, List.lookup_cons, this]
  | deletePoint | deleteSection | splitSegment | joinSegments =>
    simp [fromJson, toJson, Json.variant?, variantFromJson, Json.variantFields, List.lookup_cons]

/-
What is read is finite, as there are no other numbers in JSON.
-/

theorem Coordinate.finite_of_fromJson {j : Json} {c : Coordinate} (h : fromJson j = some c)
    : c.Finite := by
  unfold fromJson at h
  split at h
  . simp only [Option.pure_def, Option.bind_eq_bind, Option.bind_eq_some_iff, Option.some.injEq] at h
    obtain ⟨latitude, hlat, longitude, hlon, rfl⟩ := h
    exact ⟨Json.isFinite_of_toF64? hlat, Json.isFinite_of_toF64? hlon⟩
  . cases h

theorem Elevation.finite_of_toOption? {j : Json} {elevation : Option Elevation}
    (h : j.toOption? fromJson = some elevation)
    : ∀ e, elevation = some e → e.meters.isFinite = true := by
  rintro e rfl
  unfold Json.toOption? at h
  split at h
  . cases h
  . simp only [fromJson, Option.map_map, Option.map_eq_some_iff, Function.comp,
      Option.some.injEq] at h
    obtain ⟨meters, hmeters, rfl⟩ := h
    exact Json.isFinite_of_toF64? hmeters

theorem RoutePoint.finite_of_fromJson {j : Json} {p : RoutePoint} (h : fromJson j = some p)
    : p.Finite := by
  unfold fromJson at h
  split at h
  . simp only [Option.pure_def, Option.bind_eq_bind, Option.bind_eq_some_iff, Option.some.injEq] at h
    obtain ⟨coordinate, hcoordinate, elevation, helevation, rfl⟩ := h
    exact ⟨Coordinate.finite_of_fromJson hcoordinate, Elevation.finite_of_toOption? helevation⟩
  . simp only [Option.pure_def, Option.bind_eq_bind, Option.bind_eq_some_iff, Option.some.injEq] at h
    obtain ⟨coordinate, hcoordinate, rfl⟩ := h
    refine ⟨Coordinate.finite_of_fromJson hcoordinate, ?_⟩
    rintro e he
    cases he
  . cases h

theorem RouteOperation.finite_of_variantFromJson {variant : String} {content : Json}
    {operation : RouteOperation} (h : variantFromJson variant content = some operation)
    : operation.Finite := by
  unfold variantFromJson at h
  split at h
  -- the variants that carry points
  case h_1 =>
    split at h
    . simp only [Option.pure_def, Option.bind_eq_bind, Option.bind_eq_some_iff, Option.some.injEq] at h
      obtain ⟨_, _, _, _, newPosition, hposition, rfl⟩ := h
      exact Coordinate.finite_of_fromJson hposition
    . cases h
  case h_2 =>
    split at h
    . simp only [Option.pure_def, Option.bind_eq_bind, Option.bind_eq_some_iff, Option.some.injEq] at h
      obtain ⟨_, _, _, _, point, hpoint, rfl⟩ := h
      exact RoutePoint.finite_of_fromJson hpoint
    . cases h
  case h_5 =>
    split at h
    . simp only [Option.pure_def, Option.bind_eq_bind, Option.bind_eq_some_iff, Option.some.injEq] at h
      obtain ⟨_, _, _, _, _, _, replacement, hreplacement, rfl⟩ := h
      intro point hmem
      obtain ⟨item, hitem⟩ := Json.mem_of_toList? hreplacement point hmem
      exact RoutePoint.finite_of_fromJson hitem
    . cases h
  -- those that carry indices only
  case h_3 | h_6 | h_7 =>
    split at h
    . simp only [Option.pure_def, Option.bind_eq_bind, Option.bind_eq_some_iff, Option.some.injEq] at h
      obtain ⟨_, _, _, _, rfl⟩ := h
      trivial
    . cases h
  case h_4 =>
    split at h
    . simp only [Option.pure_def, Option.bind_eq_bind, Option.bind_eq_some_iff, Option.some.injEq] at h
      obtain ⟨_, _, _, _, _, _, rfl⟩ := h
      trivial
    . cases h
  case h_8 => cases h

theorem RouteOperation.finite_of_fromJson {j : Json} {operation : RouteOperation}
    (h : fromJson j = some operation) : operation.Finite := by
  rw [fromJson, Option.bind_eq_some_iff] at h
  obtain ⟨_, _, h⟩ := h
  exact finite_of_variantFromJson h

end RouteEditing
