import Haiker.Ids
import Haiker.Json.Basic
import Haiker.Rust.Str

/-!
This module contains the value objects of the recorded activity context, the JSON forms that the derived
`Serialize` and `Deserialize` implementations give them, and the legs of an activity.
-/

open Rust
open ActivityCatalog (ActivityId)

/--
A `NaiveDate` as days since the epoch.
-/
abbrev NaiveDate := Int

namespace RecordedActivity

structure SourceArtifactId where
  val : Uuid
  deriving DecidableEq

structure SourceRevisionId where
  val : Uuid
  deriving DecidableEq

structure RecordedTrackId where
  val : Uuid
  deriving DecidableEq

-- the errors of the normalization
inductive RecordedActivityError where
  | invalidCoordinate (message : String)
  | insufficientPoints (minimum actual : Nat)
  | noSegments
  deriving DecidableEq

def RecordedActivityError.display : RecordedActivityError → String
  | .invalidCoordinate message => "invalid coordinate: " ++ message
  | .insufficientPoints minimum actual =>
    "insufficient points: minimum " ++ toString minimum ++ ", got " ++ toString actual
  | .noSegments => "recorded track must have at least one segment"

structure Coordinate where
  latitude : F64
  longitude : F64
  deriving DecidableEq

namespace Coordinate

def toJson (c : Coordinate) : Json :=
  .obj [("latitude", .ofF64 c.latitude), ("longitude", .ofF64 c.longitude)]

def fromJson (j : Json) : Option Coordinate :=
  match j.structFields ["latitude", "longitude"] with
  | some [some latitude, some longitude] => do
    return { latitude := ← latitude.toF64?, longitude := ← longitude.toF64? }
  | _ => none

-- what `Coordinate::new` checks
def InRange (c : Coordinate) : Prop :=
  c.latitude.inRange (-90) 90 = true ∧ c.longitude.inRange (-180) 180 = true

theorem fromJson_toJson {c : Coordinate} (h : c.InRange) : fromJson c.toJson = some c := by
  have hlatitude := Json.toF64?_ofF64_of_isFinite (F64.isFinite_of_inRange h.1)
  have hlongitude := Json.toF64?_ofF64_of_isFinite (F64.isFinite_of_inRange h.2)
  simp [fromJson, toJson, Json.structFields, List.lookup_cons, hlatitude, hlongitude]

end Coordinate

structure Elevation where
  meters : F64
  deriving DecidableEq

structure TrackPoint where
  coordinate : Coordinate
  elevation : Option Elevation
  timestamp : Option Timestamp
  deriving DecidableEq

structure TrackSegment where
  points : List TrackPoint
  enough : 2 ≤ points.length

-- `write` is the text of a timestamp
def TrackPoint.toJson (write : Timestamp → String) (p : TrackPoint) : Json :=
  .obj [
    ("coordinate", p.coordinate.toJson),
    ("elevation", .ofOption (fun e => .ofF64 e.meters) p.elevation),
    ("timestamp", .ofOption (fun t => .str (write t)) p.timestamp)
  ]

def TrackSegment.toJson (write : Timestamp → String) (segment : TrackSegment) : Json :=
  .obj [("points", .ofList (TrackPoint.toJson write) segment.points)]

structure BoundingBox where
  southWest : Coordinate
  northEast : Coordinate
  deriving DecidableEq

namespace BoundingBox

def fromCoordinates (coords : List Coordinate) : Option BoundingBox :=
  let least := fun xs : List F64 => xs.foldl F64.min (.fin F64.greatest)
  let greatest := fun xs : List F64 => xs.foldl F64.max (.fin (-F64.greatest))
  let latitudes := coords.map (·.latitude)
  let longitudes := coords.map (·.longitude)
  if coords.isEmpty then
    none
  else
    some {
      southWest := { latitude := least latitudes, longitude := least longitudes }
      northEast := { latitude := greatest latitudes, longitude := greatest longitudes }
    }

def toJson (box : BoundingBox) : Json :=
  .obj [("south_west", box.southWest.toJson), ("north_east", box.northEast.toJson)]

def fromJson (j : Json) : Option BoundingBox :=
  match j.structFields ["south_west", "north_east"] with
  | some [some southWest, some northEast] => do
    return {
      southWest := ← Coordinate.fromJson southWest
      northEast := ← Coordinate.fromJson northEast
    }
  | _ => none

end BoundingBox

structure RecordedStatistics where
  distanceMeters : F64
  durationSeconds : Option F64
  elevationGainMeters : Option F64
  elevationLossMeters : Option F64
  pointCount : Nat
  segmentCount : Nat
  deriving DecidableEq

def RecordedStatistics.toJson (statistics : RecordedStatistics) : Json :=
  .obj [
    ("distance_meters", .ofF64 statistics.distanceMeters),
    ("duration_seconds", .ofOption .ofF64 statistics.durationSeconds),
    ("elevation_gain_meters", .ofOption .ofF64 statistics.elevationGainMeters),
    ("elevation_loss_meters", .ofOption .ofF64 statistics.elevationLossMeters),
    ("point_count", .ofNat statistics.pointCount),
    ("segment_count", .ofNat statistics.segmentCount)
  ]

-- `RecordedTrack::new` requires a segment
structure RecordedTrack where
  id : RecordedTrackId
  segments : List TrackSegment
  boundingBox : BoundingBox
  statistics : RecordedStatistics
  nonempty : segments ≠ []

/-
The legs of an activity.
-/

def MAX_LEGS_PER_ACTIVITY : Nat := 30

def MAX_LEG_TITLE_LENGTH : Nat := 255

structure LegId where
  val : Uuid
  deriving DecidableEq

-- the errors of the legs
inductive LegError where
  | invalidLegTitle (message : String)
  | invalidLegNumber (legNumber : Nat) (reason : String)
  | maxLegsExceeded (activityId : ActivityId) (max : Nat)
  | legNotFound (legId : LegId)
  | persistence (message : String)
  deriving DecidableEq

structure LegTitle where
  val : String
  nonempty : val ≠ ""
  length_le : val.utf8ByteSize ≤ MAX_LEG_TITLE_LENGTH

def LegTitle.new (value : String) : Except LegError LegTitle :=
  let trimmed := trim value
  if hempty : trimmed = "" then
    throw (.invalidLegTitle "leg title must not be empty")
  else if hlength : trimmed.utf8ByteSize ≤ MAX_LEG_TITLE_LENGTH then
    return ⟨trimmed, hempty, hlength⟩
  else
    throw (.invalidLegTitle
      ("leg title must not exceed " ++ toString MAX_LEG_TITLE_LENGTH ++ " characters, got "
        ++ toString trimmed.utf8ByteSize))

structure Leg where
  id : LegId
  activityId : ActivityId
  legNumber : Nat
  title : Option LegTitle
  date : NaiveDate
  sourceRevisionId : Option SourceRevisionId
  recordedTrackId : Option RecordedTrackId
  createdAt : Timestamp
  updatedAt : Timestamp

-- `id` is the one that `LegId::generate` draws
def Leg.new (now : Timestamp) (id : LegId) (activityId : ActivityId) (legNumber : Nat)
    (title : Option LegTitle) (date : NaiveDate) (sourceRevisionId : Option SourceRevisionId)
    (recordedTrackId : Option RecordedTrackId) : Except LegError Leg :=
  if legNumber < 1 then
    throw (.invalidLegNumber legNumber "leg number must be at least 1")
  else if MAX_LEGS_PER_ACTIVITY < legNumber then
    throw (.maxLegsExceeded activityId MAX_LEGS_PER_ACTIVITY)
  else
    return {
      id
      activityId
      legNumber
      title
      date
      sourceRevisionId
      recordedTrackId
      createdAt := now
      updatedAt := now
    }

def Leg.rename (now : Timestamp) (title : Option LegTitle) (leg : Leg) : Leg :=
  { leg with title, updatedAt := now }

def Leg.updateDate (now : Timestamp) (date : NaiveDate) (leg : Leg) : Leg :=
  { leg with date, updatedAt := now }

def Leg.updateLegNumber (now : Timestamp) (legNumber : Nat) (leg : Leg) : Except LegError Leg :=
  if legNumber < 1 then
    throw (.invalidLegNumber legNumber "leg number must be at least 1")
  else if MAX_LEGS_PER_ACTIVITY < legNumber then
    throw (.maxLegsExceeded leg.activityId MAX_LEGS_PER_ACTIVITY)
  else
    return { leg with legNumber, updatedAt := now }

end RecordedActivity
