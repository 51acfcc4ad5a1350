import Haiker.Imports.Persistence
import Haiker.RouteVersioning.RouteVersion

/-!
This module contains the transaction that commits a parsed import. The audit log is left out.
-/

open Rust
open RecordedActivity (RecordedTrackId SourceArtifactId SourceRevisionId)
open RouteVersioning (CorrectedStatistics RouteVersionId RouteVersionRow)

namespace Imports

structure ImportCommitData where
  ownerId : Identity.UserId
  importId : ImportId
  correlationId : Uuid
  sourceArtifactId : SourceArtifactId
  objectStorageKey : String
  contentType : String
  fileSizeBytes : Int
  checksum : String
  sourceRevisionId : SourceRevisionId
  revisionNumber : Int
  parserVersion : String
  recordedTrackId : RecordedTrackId
  segments : List RecordedActivity.TrackSegment
  boundingBox : RecordedActivity.BoundingBox
  statistics : RecordedActivity.RecordedStatistics
  previewGeometry : List RecordedActivity.Coordinate
  activityId : ActivityCatalog.ActivityId
  activityTitle : String
  activityType : ActivityCatalog.ActivityType
  startedAt : Option Timestamp
  endedAt : Option Timestamp
  routeVersionId : RouteVersionId
  correctedStatistics : CorrectedStatistics

structure SourceArtifactRow where
  id : Uuid
  importId : Uuid
  ownerId : Uuid
  objectStorageKey : String
  contentType : String
  sizeBytes : Int
  checksum : String
  createdAt : Timestamp

structure SourceRevisionRow where
  id : Uuid
  activityId : Uuid
  sourceArtifactId : Uuid
  revisionNumber : Int
  provider : String
  parserVersion : String
  importedAt : Timestamp

structure RecordedTrackRow where
  id : Uuid
  sourceRevisionId : Uuid
  geometryJson : Json
  boundingBoxJson : Json
  startedAt : Option Timestamp
  endedAt : Option Timestamp
  distanceMeters : F64
  elevationGainMeters : Option F64
  elevationLossMeters : Option F64
  pointCount : Int
  segmentCount : Int
  calculationVersion : String
  createdAt : Timestamp

structure Database extends RouteVersioning.Database where
  imports : ImportTable
  sourceArtifacts : Sql.Table SourceArtifactRow.id
  sourceRevisions : Sql.Table SourceRevisionRow.id
  recordedTracks : Sql.Table RecordedTrackRow.id

-- `UNIQUE(activity_id, revision_number)`
def revisionSlot (row : SourceRevisionRow) : Option (Uuid × Int) :=
  some (row.activityId, row.revisionNumber)

-- `UNIQUE(activity_id, version_number)`
def versionSlot (row : RouteVersionRow) : Option (Uuid × Int) :=
  some (row.activityId, row.versionNumber)

/--
What the committer takes from elsewhere: the database's clock, the id of the event and the text forms of
UUIDs and timestamps.
-/
structure CommitExternals where
  now : Timestamp
  newEventId : Uuid
  uuidToString : Uuid → String
  timestampToString : Timestamp → String

namespace PgImportCommitter

abbrev CommitM := Method ImportError Database

-- `n as i32`
def asI32 (n : Nat) : Int := (BitVec.ofNat 32 n).toInt

variable (externals : CommitExternals) (data : ImportCommitData)

def sourceArtifact : SourceArtifactRow where
  id := data.sourceArtifactId.val
  importId := data.importId.val
  ownerId := data.ownerId.val
  objectStorageKey := data.objectStorageKey
  contentType := data.contentType
  sizeBytes := data.fileSizeBytes
  checksum := data.checksum
  createdAt := externals.now.toTimestamptz

def sourceRevision : SourceRevisionRow where
  id := data.sourceRevisionId.val
  activityId := data.activityId.val
  sourceArtifactId := data.sourceArtifactId.val
  revisionNumber := data.revisionNumber
  provider := "gpx_import"
  parserVersion := data.parserVersion
  importedAt := externals.now.toTimestamptz

def recordedTrack : RecordedTrackRow where
  id := data.recordedTrackId.val
  sourceRevisionId := data.sourceRevisionId.val
  geometryJson :=
    .ofList (RecordedActivity.TrackSegment.toJson externals.timestampToString) data.segments
  boundingBoxJson := data.boundingBox.toJson
  startedAt := data.startedAt.map Timestamp.toTimestamptz
  endedAt := data.endedAt.map Timestamp.toTimestamptz
  distanceMeters := data.statistics.distanceMeters
  elevationGainMeters := data.statistics.elevationGainMeters
  elevationLossMeters := data.statistics.elevationLossMeters
  pointCount := asI32 data.statistics.pointCount
  segmentCount := asI32 data.statistics.segmentCount
  calculationVersion := data.parserVersion
  createdAt := externals.now.toTimestamptz

def activity : ActivityCatalog.ActivityRow where
  id := data.activityId.val
  ownerId := data.ownerId.val
  title := data.activityTitle
  activityType := data.activityType.display
  startedAt := data.startedAt.map Timestamp.toTimestamptz
  endedAt := data.endedAt.map Timestamp.toTimestamptz
  currentRouteVersionId := none
  recordedSummaryJson := none
  correctedSummaryJson := none
  createdAt := externals.now.toTimestamptz
  updatedAt := externals.now.toTimestamptz

def initialVersion : RouteVersionRow where
  id := data.routeVersionId.val
  activityId := data.activityId.val
  parentVersionId := none
  versionNumber := 1
  geometryJson := .ofList RecordedActivity.Coordinate.toJson data.previewGeometry
  boundingBoxJson := data.boundingBox.toJson
  correctedStatisticsJson := some data.correctedStatistics.toJson
  calculationVersion := data.parserVersion
  editSummary := some "Initial import"
  createdBy := data.ownerId.val
  createdAt := externals.now.toTimestamptz

-- `SET current_route_version_id = .., recorded_summary_json = .., corrected_summary_json = ..`
def setSummaries (row : ActivityCatalog.ActivityRow) : ActivityCatalog.ActivityRow :=
  { ActivityCatalog.setCurrentVersion externals.now data.routeVersionId.val
      data.correctedStatistics.toJson row with
    recordedSummaryJson := some data.statistics.toJson }

theorem id_setSummaries (row : ActivityCatalog.ActivityRow)
    : (setSummaries externals data row).id = row.id := rfl

-- `SET status = 'completed', activity_id = $2, updated_at = now()`
def setCompleted (row : ImportRow) : ImportRow := { row with
  status := "completed"
  activityId := some data.activityId.val
  updatedAt := externals.now.toTimestamptz
}

theorem id_setCompleted (row : ImportRow) : (setCompleted externals data row).id = row.id := rfl

-- `none` if another import of the checksum is completed
def completeImport (imports : ImportTable) : Option ImportTable :=
  match imports.find? data.importId.val with
  | none => some imports
  | some row =>
    if imports.clashes completedChecksum (setCompleted externals data row) then
      none
    else
      some (imports.updateWhere (fun row => row.id = data.importId.val) (setCompleted externals data)
        (id_setCompleted externals data))

def committedEvent : RouteVersioning.OutboxRow where
  id := externals.newEventId
  aggregateType := "import"
  aggregateId := externals.uuidToString data.importId.val
  eventType := "ImportedActivityCommitted"
  payload := .obj [
    ("import_id", .str (externals.uuidToString data.importId.val)),
    ("activity_id", .str (externals.uuidToString data.activityId.val)),
    ("owner_id", .str (externals.uuidToString data.ownerId.val)),
    ("route_version_id", .str (externals.uuidToString data.routeVersionId.val)),
    ("distance_meters", .ofF64 data.statistics.distanceMeters),
    ("duration_seconds", .ofOption .ofF64 data.statistics.durationSeconds),
    ("elevation_gain_meters", .ofOption .ofF64 data.statistics.elevationGainMeters)
  ]
  correlationId := some data.correlationId

-- a statement that violates a constraint
def refuse {α : Type} (failed constraint : String) : CommitM α :=
  fail (.storageError (failed ++ ": " ++ duplicateKey constraint))

def insertSource : CommitM Unit := do
  let db ← get
  match db.sourceArtifacts.insert? (sourceArtifact externals data) with
  | none => refuse "failed to insert source_artifact" "source_artifacts_pkey"
  | some sourceArtifacts => modify fun db => { db with sourceArtifacts }
  match db.sourceRevisions.insert? (sourceRevision externals data) with
  | none => refuse "failed to insert source_revision" "source_revisions_pkey"
  | some sourceRevisions =>
    if db.sourceRevisions.clashes revisionSlot (sourceRevision externals data) then
      refuse "failed to insert source_revision" "source_revisions_activity_id_revision_number_key"
    else
      modify fun db => { db with sourceRevisions }
  match db.recordedTracks.insert? (recordedTrack externals data) with
  | none => refuse "failed to insert recorded_track" "recorded_tracks_pkey"
  | some recordedTracks => modify fun db => { db with recordedTracks }

def insertActivity : CommitM Unit := do
  let db ← get
  match db.activities.insert? (activity externals data) with
  | none => refuse "failed to insert activity" "activities_pkey"
  | some activities => modify fun db => { db with activities }
  match db.routeVersions.insert? (initialVersion externals data) with
  | none => refuse "failed to insert route_version" "route_versions_pkey"
  | some routeVersions =>
    if db.routeVersions.clashes versionSlot (initialVersion externals data) then
      refuse "failed to insert route_version" "route_versions_activity_id_version_number_key"
    else
      modify fun db => { db with routeVersions }
  modify fun db => { db with
    activities := db.activities.updateWhere (fun row => row.id = data.activityId.val)
      (setSummaries externals data) (id_setSummaries externals data)
  }

def finishImport : CommitM Unit := do
  let db ← get
  match completeImport externals data db.imports with
  | none => refuse "failed to update import status" "idx_imports_owner_checksum_completed"
  | some imports => modify fun db => { db with imports }
  match db.outbox.insert? (committedEvent externals data) with
  | none => refuse "failed to write outbox event" "outbox_pkey"
  | some outbox => modify fun db => { db with outbox }

def commit : CommitM ActivityCatalog.ActivityId :=
  transaction do
    insertSource externals data
    insertActivity externals data
    finishImport externals data
    return data.activityId

end PgImportCommitter

end Imports
