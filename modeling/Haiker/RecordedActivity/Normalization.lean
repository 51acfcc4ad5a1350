import Haiker.Imports.Orchestrator
import Haiker.Rust.FloatOps

/-!
This module contains the normalization of a parsed GPX file. The distance between two points and what
`chrono` makes of a timestamp come in as functions, and points count without a bound.
-/

open Rust
open Imports (GpxParseResult GpxTrackPoint GpxTrackSegment NormalizedTrack)

namespace RecordedActivity

def Coordinate.new (latitude longitude : F64) : Except RecordedActivityError Coordinate :=
  if !latitude.inRange (-90) 90 then
    .error (.invalidCoordinate s!"latitude must be between -90 and 90, got {latitude.display}")
  else if !longitude.inRange (-180) 180 then
    .error (.invalidCoordinate s!"longitude must be between -180 and 180, got {longitude.display}")
  else
    .ok { latitude, longitude }

def TrackSegment.new (points : List TrackPoint) : Except RecordedActivityError TrackSegment :=
  if h : 2 ≤ points.length then
    .ok ⟨points, h⟩
  else
    .error (.insufficientPoints 2 points.length)

-- `id` is the generated one
def RecordedTrack.new (id : RecordedTrackId) (segments : List TrackSegment) (boundingBox : BoundingBox)
    (statistics : RecordedStatistics) : Except RecordedActivityError RecordedTrack :=
  if h : segments = [] then
    .error .noSegments
  else
    .ok ⟨id, segments, boundingBox, statistics, h⟩

def MAX_PREVIEW_POINTS : Nat := 1000

/--
What the normalization takes from elsewhere.
-/
structure NormalizationExternals where
  distance : Coordinate → Coordinate → F64
  parseTimestamp : String → Option Timestamp
  recordedTrackId : RecordedTrackId

/-
The statistics of the elevations.
-/

def ELEVATION_DEAD_BAND : ℚ := 2

structure ElevationState where
  gain : F64
  loss : F64
  hasElevation : Bool
  prevElevation : Option F64

def ElevationState.start : ElevationState := ⟨.fin 0, .fin 0, false, none⟩

def ElevationState.next (s : ElevationState) (meters : F64) : ElevationState :=
  let s' := { s with hasElevation := true, prevElevation := some meters }
  match s.prevElevation with
  | none => s'
  | some prev =>
    let diff := meters.sub prev
    if (F64.fin ELEVATION_DEAD_BAND).le diff then
      { s' with gain := s.gain.add diff }
    else if diff.le (.fin (-ELEVATION_DEAD_BAND)) then
      { s' with loss := s.loss.add diff.abs }
    else
      s'

def calculateElevationStats (elevations : List (Option Elevation)) : Option F64 × Option F64 :=
  let s := (elevations.filterMap id).foldl (fun s e => s.next e.meters) ElevationState.start
  if s.hasElevation then (some s.gain, some s.loss) else (none, none)

/-
The loop over the segments.
-/

-- `windows(2)`
def adjacent {α : Type} : List α → List (α × α)
  | [] => []
  | [_] => []
  | a :: b :: rest => (a, b) :: adjacent (b :: rest)

structure Loop where
  segments : List TrackSegment
  coordinates : List Coordinate
  elevations : List (Option Elevation)
  timestamps : List Timestamp
  totalDistance : F64
  totalPoints : Nat

namespace Loop

def start : Loop := ⟨[], [], [], [], .fin 0, 0⟩

variable (externals : NormalizationExternals)

def trackPoint (pt : GpxTrackPoint) : Except RecordedActivityError TrackPoint := do
  return {
    coordinate := ← Coordinate.new pt.lat pt.lon
    elevation := pt.elevation.map fun meters => { meters }
    timestamp := pt.time.bind externals.parseTimestamp
  }

def addPoints (loop : Loop) (trackPoints : List TrackPoint) (segment : TrackSegment) : Loop where
  segments := loop.segments ++ [segment]
  coordinates := loop.coordinates ++ trackPoints.map (·.coordinate)
  elevations := loop.elevations ++ trackPoints.map (·.elevation)
  timestamps := loop.timestamps ++ trackPoints.filterMap (·.timestamp)
  totalDistance := (adjacent trackPoints).foldl
    (fun total (a, b) => total.add (externals.distance a.coordinate b.coordinate)) loop.totalDistance
  totalPoints := loop.totalPoints + trackPoints.length

-- a segment that is too short is skipped
def step (loop : Loop) (segment : GpxTrackSegment) : Except RecordedActivityError Loop :=
  if segment.points.length < 2 then
    .ok loop
  else do
    let trackPoints ← segment.points.mapM (trackPoint externals)
    return loop.addPoints externals trackPoints (← TrackSegment.new trackPoints)

def run (parseResult : GpxParseResult) : Except RecordedActivityError Loop :=
  (parseResult.tracks.flatMap (·.segments)).foldlM (step externals) start

end Loop

/-
The results.
-/

-- `index` is rounded, and kept in range
def simplifyPreview (coords : List Coordinate) (maxPoints : Nat) : List Coordinate :=
  if coords.length ≤ maxPoints then
    coords
  else if maxPoints < 2 then
    coords.take 1
  else
    let step := (F64.ofInt (coords.length - 1)).div (F64.ofInt (maxPoints - 1))
    (List.range maxPoints).filterMap fun (i : Nat) =>
      coords[min (((F64.ofInt i).mul step).roundToUsize) (coords.length - 1)]?

-- the sorted timestamps
def durationSeconds (timestamps : List Timestamp) : Option F64 :=
  if 2 ≤ timestamps.length then
    let nanoseconds := timestamps.getLast?.getD 0 - timestamps.head?.getD 0
    let duration := (F64.ofInt (nanoseconds.tdiv 1000000)).div (.fin 1000)
    if (F64.fin 0).lt duration then some duration else none
  else
    none

def suggestedTitle (parseResult : GpxParseResult) : Option String :=
  (parseResult.tracks.head?.bind (·.name)).or parseResult.metadata.name

def Loop.finish (externals : NormalizationExternals) (parseResult : GpxParseResult) (loop : Loop)
    : Except RecordedActivityError NormalizedTrack := do
  if loop.segments.isEmpty then
    throw .noSegments
  let some boundingBox := BoundingBox.fromCoordinates loop.coordinates | throw .noSegments
  let (elevationGain, elevationLoss) := calculateElevationStats loop.elevations
  let timestamps := loop.timestamps.insertionSort (· ≤ ·)
  let recordedTrack ← RecordedTrack.new externals.recordedTrackId loop.segments boundingBox {
    distanceMeters := loop.totalDistance
    durationSeconds := durationSeconds timestamps
    elevationGainMeters := elevationGain
    elevationLossMeters := elevationLoss
    pointCount := loop.totalPoints
    segmentCount := loop.segments.length
  }
  return {
    recordedTrack
    previewGeometry := simplifyPreview loop.coordinates MAX_PREVIEW_POINTS
    suggestedTitle := suggestedTitle parseResult
    startedAt := timestamps.head?
    endedAt := timestamps.getLast?
  }

def normalizeGpx (externals : NormalizationExternals) (parseResult : GpxParseResult)
    : Except RecordedActivityError NormalizedTrack := do
  let loop ← Loop.run externals parseResult
  loop.finish externals parseResult

end RecordedActivity
