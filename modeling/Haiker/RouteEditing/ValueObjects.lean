import Haiker.Ids
import Haiker.Rust.F64
import Haiker.Rust.Method

/-!
This module contains the value objects and the errors of the route editing context.
-/

open Rust

namespace RouteEditing

/--
Maximum number of points allowed in a single `replaceSection` replacement.
-/
def MAX_REPLACEMENT_POINTS : Nat := 500

structure Coordinate where
  latitude : F64
  longitude : F64
  deriving DecidableEq

structure Elevation where
  meters : F64
  deriving DecidableEq

structure RoutePoint where
  coordinate : Coordinate
  elevation : Option Elevation
  deriving DecidableEq

structure PointIndex where
  value : Nat
  deriving DecidableEq

structure SegmentIndex where
  value : Nat
  deriving DecidableEq

structure OperationId where
  val : Uuid
  deriving DecidableEq

structure RouteDraftId where
  val : Uuid
  deriving DecidableEq

abbrev Segment := List RoutePoint

abbrev Geometry := List Segment

inductive RouteEditingError where
  | draftNotFound
  | revisionConflict (expected actual : Nat)
  | draftNotActive
  | invalidOperation (message : String)
  | operationFailed (message : String)
  | insufficientPoints (minimum actual : Nat)
  | invalidSegmentIndex (index count : Nat)
  | invalidPointIndex (index count : Nat)
  | nothingToUndo
  | nothingToRedo
  | invalidCoordinate (message : String)
  | activityNotFound
  | activityDeleted
  | invalidBaseRouteVersion
  | replacementTooLarge (maximum actual : Nat)
  | endpointContinuityViolation (position : String) (expected actual : Coordinate)
  deriving DecidableEq

-- the `#[error(..)]` texts
def RouteEditingError.display : RouteEditingError → String
  | .draftNotFound => "draft not found"
  | .revisionConflict expected actual =>
    s!"revision conflict: expected {expected}, got {actual}"
  | .draftNotActive => "draft is not active"
  | .invalidOperation message => s!"invalid operation: {message}"
  | .operationFailed message => s!"operation failed: {message}"
  | .insufficientPoints minimum actual =>
    s!"insufficient points: minimum {minimum}, got {actual}"
  | .invalidSegmentIndex index count =>
    s!"invalid segment index: {index}, segment count: {count}"
  | .invalidPointIndex index count => s!"invalid point index: {index}, point count: {count}"
  | .nothingToUndo => "nothing to undo"
  | .nothingToRedo => "nothing to redo"
  | .invalidCoordinate message => s!"invalid coordinate: {message}"
  | .activityNotFound => "activity not found"
  | .activityDeleted => "activity is deleted"
  | .invalidBaseRouteVersion => "invalid base route version"
  | .replacementTooLarge maximum actual =>
    s!"replacement too large: maximum {maximum}, actual {actual}"
  | .endpointContinuityViolation position expected actual =>
    let pair := fun c : Coordinate => s!"{c.latitude.display}, {c.longitude.display}"
    s!"endpoint continuity violation at {position}: expected ({pair expected}), got ({pair actual})"

namespace Coordinate

/--
The derived `PartialEq`, which compares the fields as `f64`.
-/
def partialEq (a b : Coordinate) : Bool :=
  a.latitude.partialEq b.latitude && a.longitude.partialEq b.longitude

def new (latitude longitude : F64) : Except RouteEditingError Coordinate :=
  if !latitude.inRange (-90) 90 then
    .error (.invalidCoordinate s!"latitude must be between -90 and 90, got {latitude.display}")
  else if !longitude.inRange (-180) 180 then
    .error (.invalidCoordinate s!"longitude must be between -180 and 180, got {longitude.display}")
  else
    .ok { latitude, longitude }

/--
Latitude and longitude are numbers within [-90, 90] and [-180, 180].
-/
structure InRange (c : Coordinate) : Prop where
  latitude : ∃ q, c.latitude = .fin q ∧ -90 ≤ q ∧ q ≤ 90
  longitude : ∃ q, c.longitude = .fin q ∧ -180 ≤ q ∧ q ≤ 180

theorem inRange_of_new {latitude longitude : F64} {c : Coordinate}
    (h : new latitude longitude = .ok c) : c.InRange := by
  unfold new at h
  split at h
  . simp at h
  . next hlat =>
    split at h
    . simp at h
    . next hlon =>
      simp only [Except.ok.injEq] at h
      subst h
      simp only [Bool.not_eq_true', Bool.not_eq_false] at hlat hlon
      exact ⟨F64.inRange_iff.mp hlat, F64.inRange_iff.mp hlon⟩

theorem new_eq_ok_iff {latitude longitude : F64} {c : Coordinate}
    : new latitude longitude = .ok c
        ↔
      c = ⟨latitude, longitude⟩ ∧ latitude.inRange (-90) 90 = true
        ∧ longitude.inRange (-180) 180 = true := by
  unfold new
  split
  . next hlat => simp at hlat; simp [hlat]
  . next hlat =>
    split
    . next hlon => simp at hlon; simp [hlon]
    . next hlon =>
      simp at hlat hlon
      simp [hlat, hlon, eq_comm]

theorem partialEq_iff_of_inRange {a b : Coordinate} (ha : a.InRange)
    : a.partialEq b = true ↔ a = b := by
  obtain ⟨lat, hlat, _⟩ := ha.latitude
  obtain ⟨lon, hlon, _⟩ := ha.longitude
  cases a with
  | mk _ _ =>
  cases b with
  | mk _ _ =>
  simp only at hlat hlon
  subst hlat hlon
  simp [partialEq, F64.partialEq_iff]

end Coordinate

namespace RoutePoint

/--
The derived `PartialEq` of `Option<Elevation>`.
-/
def elevationPartialEq : Option Elevation → Option Elevation → Bool
  | none, none => true
  | some a, some b => a.meters.partialEq b.meters
  | _, _ => false

def partialEq (a b : RoutePoint) : Bool :=
  a.coordinate.partialEq b.coordinate && elevationPartialEq a.elevation b.elevation

theorem partialEq_self_iff {point : RoutePoint} (h : point.coordinate.InRange)
    : point.partialEq point = true ↔ point.elevation ≠ some ⟨.nan⟩ := by
  have hcoordinate := (Coordinate.partialEq_iff_of_inRange h).mpr rfl
  rw [partialEq, hcoordinate, Bool.true_and]
  cases point.elevation with
  | none => simp [elevationPartialEq]
  | some elevation =>
    cases elevation with
    | mk meters => simp [elevationPartialEq, F64.partialEq_iff]

end RoutePoint

end RouteEditing
