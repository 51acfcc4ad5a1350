import Haiker.RecordedActivity.LegPersistence
import Haiker.RecordedActivity.RecordedRoute
import Mathlib.Data.List.Dedup

/-!
This module contains the statistics of the legs of an activity, as they are read and added up. They are
over any kind of numbers, those of the code being `f64`.
-/

open Rust
open ActivityCatalog (Activity ActivityId)
open Imports (Database RecordedTrackRow)

namespace RecordedActivity

structure LegSummary (ν : Type) where
  distanceMeters : ν
  elevationGainMeters : Option ν
  elevationLossMeters : Option ν
  pointCount : Nat
  durationSeconds : Option ν
  deriving DecidableEq

-- `None` only if both are
def combineOptional {ν : Type} [Add ν] : Option ν → Option ν → Option ν
  | some x, some y => some (x + y)
  | some x, none => some x
  | none, some y => some y
  | none, none => none

/--
`a + b` on `u32`, as a build with overflow checks runs it.
-/
def addU32 {ε : Type} (a b : Nat) : Except (Fault ε) Nat :=
  if a + b < UInt32.size then .ok (a + b) else .error .panic

namespace LegSummary

variable {ν : Type}

def empty [Zero ν] : LegSummary ν where
  distanceMeters := 0
  elevationGainMeters := none
  elevationLossMeters := none
  pointCount := 0
  durationSeconds := none

def combine [Add ν] (self other : LegSummary ν) : Except (Fault LegError) (LegSummary ν) := do
  return {
    distanceMeters := self.distanceMeters + other.distanceMeters
    elevationGainMeters := combineOptional self.elevationGainMeters other.elevationGainMeters
    elevationLossMeters := combineOptional self.elevationLossMeters other.elevationLossMeters
    pointCount := ← addU32 self.pointCount other.pointCount
    durationSeconds := combineOptional self.durationSeconds other.durationSeconds
  }

end LegSummary

/--
What the repository answers to the calls that only read.
-/
structure LegRepository (ν : Type) where
  listLegs : ActivityId → Except LegError (List Leg)
  getLegSummary : LegId → Except LegError (Option (LegSummary ν))

namespace PgLegRepository

-- `legs l JOIN recorded_tracks rt ON rt.id = l.recorded_track_id`
def findTrack (legs : LegTable) (db : Database) (legId : LegId) : Option RecordedTrackRow := do
  let leg ← legs.legs.find? legId.val
  db.recordedTracks.find? (← leg.recordedTrackId)

-- the duration is not stored with the track
def durationSeconds (rt : RecordedTrackRow) : PgLegRepository → Option F64
  | .platform => do
    let secs := F64.ofInt (((← rt.endedAt) - (← rt.startedAt)).tdiv 1000000000)
    if (F64.fin 0).lt secs then some secs else none
  | .infrastructure => none

def getLegSummary (legs : LegTable) (db : Database) (legId : LegId) (repo : PgLegRepository)
    : Option (LegSummary F64) :=
  (findTrack legs db legId).map fun rt => {
    distanceMeters := rt.distanceMeters
    elevationGainMeters := rt.elevationGainMeters
    elevationLossMeters := rt.elevationLossMeters
    pointCount := PgRecordedRouteRepository.asU32 rt.pointCount
    durationSeconds := durationSeconds rt repo
  }

-- over these tables, and without a failure of the database
def answering (legs : LegTable) (db : Database) (repo : PgLegRepository) : LegRepository F64 where
  listLegs activityId := ((RecordedActivity.listLegs activityId).run legs).1
  getLegSummary legId := .ok (getLegSummary legs db legId repo)

end PgLegRepository

instance : Zero F64 := ⟨.fin 0⟩

instance : Add F64 := ⟨F64.add⟩

/-
The statistics of an activity.
-/

structure LegWithSummary (ν : Type) where
  leg : Leg
  summary : LegSummary ν

structure ActivityLegStats (ν : Type) where
  total : LegSummary ν
  perLeg : List (LegWithSummary ν)

section Queries

variable {ν : Type} [Add ν] [Zero ν] (repo : LegRepository ν)

def ActivityLegStats.next (stats : ActivityLegStats ν) (leg : Leg)
    : Except (Fault LegError) (ActivityLegStats ν) := do
  let summary := (← (repo.getLegSummary leg.id).mapError Fault.err).getD .empty
  return {
    total := ← stats.total.combine summary
    perLeg := stats.perLeg ++ [{ leg, summary }]
  }

def getAggregatedStats (activityId : ActivityId) : Except (Fault LegError) (ActivityLegStats ν) := do
  let legs ← (repo.listLegs activityId).mapError Fault.err
  legs.foldlM (ActivityLegStats.next repo) { total := .empty, perLeg := [] }

end Queries

structure ActivityLegSummary (ν : Type) where
  id : Uuid
  legNumber : Nat
  title : Option String
  date : NaiveDate
  recordedSummary : Option (LegSummary ν)

structure ActivityAggregatedStats (ν : Type) where
  totalDistance : ν
  totalElevationGain : Option ν
  totalDays : Nat
  totalLegs : Nat

structure ActivityDetailResponse (ν : Type) where
  id : Uuid
  title : String
  activityType : String
  startedAt : Option Timestamp
  endedAt : Option Timestamp
  lifecycleState : String
  recordedSummary : Option Json
  correctedSummary : Option Json
  currentRouteVersionId : Option Uuid
  legs : Option (List (ActivityLegSummary ν))
  aggregatedStats : Option (ActivityAggregatedStats ν)
  createdAt : Timestamp
  updatedAt : Timestamp

/--
The variables of the loop of `get_activity_detail`.
-/
structure DetailLoop (ν : Type) where
  legSummaries : List (ActivityLegSummary ν)
  totalDistance : ν
  totalElevationGain : Option ν
  dates : List NaiveDate

section Detail

variable {ν : Type} [Add ν] [Zero ν] (repo : LegRepository ν)

-- a summary that cannot be read counts as none
def DetailLoop.next (loop : DetailLoop ν) (leg : Leg) : DetailLoop ν :=
  let summary := (repo.getLegSummary leg.id).toOption.join
  {
    legSummaries := loop.legSummaries ++ [{
      id := leg.id.val
      legNumber := leg.legNumber
      title := leg.title.map (·.val)
      date := leg.date
      recordedSummary := summary
    }]
    totalDistance :=
      match summary with
      | some s => loop.totalDistance + s.distanceMeters
      | none => loop.totalDistance
    totalElevationGain :=
      match summary.bind (·.elevationGainMeters) with
      | some gain => some (loop.totalElevationGain.getD 0 + gain)
      | none => loop.totalElevationGain
    dates := loop.dates.insert leg.date
  }

def detailLoop (legs : List Leg) : DetailLoop ν :=
  legs.foldl (DetailLoop.next repo) {
    legSummaries := []
    totalDistance := 0
    totalElevationGain := none
    dates := []
  }

-- `activity` is the one that `get_activity` has found
def getActivityDetail (activity : Activity) : ActivityDetailResponse ν :=
  let legs := ((repo.listLegs activity.id).toOption).getD []
  let loop := detailLoop repo legs
  {
    id := activity.id.val
    title := activity.title.text
    activityType := activity.activityType.display
    startedAt := activity.startedAt
    endedAt := activity.endedAt
    lifecycleState := activity.lifecycleState.display
    recordedSummary := activity.recordedSummary
    correctedSummary := activity.correctedSummary
    currentRouteVersionId := activity.currentRouteVersionId.map (·.val)
    legs := if legs.isEmpty then none else some loop.legSummaries
    aggregatedStats :=
      if legs.isEmpty then
        none
      else
        some {
          totalDistance := loop.totalDistance
          totalElevationGain := loop.totalElevationGain
          totalDays := loop.dates.length % UInt32.size
          totalLegs := legs.length % UInt32.size
        }
    createdAt := activity.createdAt
    updatedAt := activity.updatedAt
  }

end Detail

end RecordedActivity
