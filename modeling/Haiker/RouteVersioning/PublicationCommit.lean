import Haiker.ActivityCatalog.Activities
import Haiker.RouteEditing.Repository

/-!
This module contains the publication of a draft, with its drafts table taken to be the one that the
repository writes. The lookup of the idempotency key comes before the row of the draft is locked; from
there on the transaction is alone with the draft. Version numbers count without a bound.
-/

open Rust

namespace RouteVersioning

structure RouteVersionId where
  val : Uuid
  deriving DecidableEq

inductive RouteVersioningError where
  | notFound
  | immutable
  | insufficientGeometry (minimum actual : Nat)
  | invalidVersionNumber (minimum actual : Int)
  | draftNotFound
  | notAuthorized
  | revisionConflict (expected actual : Nat)
  | draftNotActive
  | validationFailed (errors : List String)
  | idempotencyConflict
  | activityNotFound
  | persistenceError (message : String)
  deriving DecidableEq

structure PublicationCommitData where
  draftId : RouteEditing.RouteDraftId
  expectedRevision : Nat
  actorId : Identity.UserId
  idempotencyKey : Uuid
  editSummary : Option String
  deriving DecidableEq

structure PublicationResult where
  routeVersionId : RouteVersionId
  versionNumber : Int
  draftId : RouteEditing.RouteDraftId
  correctedStatisticsJson : Json

structure RouteVersionRow where
  id : Uuid
  activityId : Uuid
  parentVersionId : Option Uuid
  versionNumber : Int
  geometryJson : Json
  boundingBoxJson : Json
  correctedStatisticsJson : Option Json
  calculationVersion : String
  editSummary : Option String
  createdBy : Uuid
  createdAt : Timestamp

structure OutboxRow where
  id : Uuid
  aggregateType : String
  aggregateId : String
  eventType : String
  payload : Json
  correlationId : Option Uuid

structure Database where
  routeEditing : RouteEditing.Store
  routeVersions : Sql.Table RouteVersionRow.id
  activities : ActivityCatalog.ActivityTable
  outbox : Sql.Table OutboxRow.id

/--
What the committer takes from elsewhere: the clock, new ids, the text form of UUIDs, the hash of some
values, floating point trigonometry and what the JSON parser says of a malformed geometry.
-/
structure Externals where
  now : Timestamp
  newVersionId : Uuid
  newEventId : Uuid
  uuidToString : Uuid → String
  parseUuid : String → Except String Uuid
  hash : RouteEditing.RouteDraftId → Nat → Option String → String
  totalDistance : List (F64 × F64) → F64
  geometryError : Json → String

structure GeometryPoint where
  latitude : F64
  longitude : F64
  elevation : Option F64

namespace GeometryPoint

def fromJson (j : Json) : Option GeometryPoint :=
  match j.structFields ["latitude", "longitude", "elevation"] with
  | some [some latitude, some longitude, some elevation] => do
    return {
      latitude := ← latitude.toF64?
      longitude := ← longitude.toF64?
      elevation := ← elevation.toOption? Json.toF64?
    }
  -- an optional field may be missing
  | some [some latitude, some longitude, none] => do
    return { latitude := ← latitude.toF64?, longitude := ← longitude.toF64?, elevation := none }
  | _ => none

end GeometryPoint

abbrev CommitM := Method RouteVersioningError Database

-- the actor is not a part of it
def computePayloadFingerprint (externals : Externals) (data : PublicationCommitData) : String :=
  externals.hash data.draftId data.expectedRevision data.editSummary

/-
Step 1: the event that an earlier commit under this key has left.
-/

def existingEvent (db : Database) (idempotencyKey : Uuid) : Option OutboxRow :=
  db.outbox.rows.find? fun row =>
    row.aggregateType = "route_version" && row.correlationId = some idempotencyKey

-- an event without a fingerprint is taken to be of the same request
def fingerprintMatches (externals : Externals) (data : PublicationCommitData) (event : OutboxRow)
    : Bool :=
  match (event.payload.get? "_fingerprint").bind Json.asStr? with
  | some storedFingerprint => storedFingerprint == computePayloadFingerprint externals data
  | none => true

-- the earlier result, `none` if there is no such event or no such version
def replayCommit (externals : Externals) (data : PublicationCommitData) (db : Database)
    : Except RouteVersioningError (Option PublicationResult) := do
  let some event := existingEvent db data.idempotencyKey | return none
  unless fingerprintMatches externals data event do
    throw .idempotencyConflict
  match externals.parseUuid event.aggregateId with
  | .error e => throw (.persistenceError ("invalid aggregate_id in outbox: " ++ e))
  | .ok versionId =>
    match db.routeVersions.find? versionId with
    | none => return none
    | some row =>
      match row.correctedStatisticsJson with
      | none =>
        throw (.persistenceError ("failed to fetch existing version: error occurred while decoding "
          ++ "column 1: unexpected null; try decoding as an `Option`"))
      | some correctedStatisticsJson =>
        return some {
          routeVersionId := { val := versionId }
          versionNumber := row.versionNumber
          draftId := data.draftId
          correctedStatisticsJson
        }

/-
Steps 2 to 5: what the transaction reads once it has locked the draft.
-/

def lockDraft (data : PublicationCommitData) (db : Database)
    : Except RouteVersioningError RouteEditing.DraftRow := do
  let some row := db.routeEditing.drafts.find? data.draftId.val | throw .draftNotFound
  if row.ownerId ≠ data.actorId.val then
    throw .notAuthorized
  if row.state ≠ "active" then
    throw .draftNotActive
  if row.revision ≠ data.expectedRevision then
    throw (.revisionConflict data.expectedRevision row.revision)
  return row

-- the draft's geometry as the committer reads it
def readSegments (geometryJson : Json) : Option (List (List GeometryPoint)) :=
  geometryJson.toList? (Json.toList? GeometryPoint.fromJson)

def flatCoords (externals : Externals) (geometryJson : Json)
    : Except RouteVersioningError (List (F64 × F64)) := do
  let some segments := geometryJson.toList? (Json.toList? GeometryPoint.fromJson)
    | throw (.validationFailed
      ["failed to parse draft geometry: " ++ externals.geometryError geometryJson])
  let flatCoords := segments.flatten.map fun p => (p.latitude, p.longitude)
  if flatCoords.length < 2 then
    throw (.validationFailed ["geometry must have at least 2 points"])
  return flatCoords

def boundingBoxJson (flatCoords : List (F64 × F64)) : Json :=
  let least := fun xs : List F64 => xs.foldl F64.min (.fin F64.greatest)
  let greatest := fun xs : List F64 => xs.foldl F64.max (.fin (-F64.greatest))
  let latitudes := flatCoords.map (·.1)
  let longitudes := flatCoords.map (·.2)
  let corner := fun latitude longitude : F64 =>
    Json.obj [("latitude", .ofF64 latitude), ("longitude", .ofF64 longitude)]
  .obj [
    ("south_west", corner (least latitudes) (least longitudes)),
    ("north_east", corner (greatest latitudes) (greatest longitudes))
  ]

def correctedStatisticsJson (externals : Externals) (flatCoords : List (F64 × F64)) : Json :=
  .obj [
    ("distance_meters", .ofF64 (externals.totalDistance flatCoords)),
    ("point_count", .ofNat flatCoords.length),
    ("calculation_version", .str "v1.0")
  ]

structure CorrectedStatistics where
  distanceMeters : F64
  pointCount : Nat
  calculationVersion : String
  deriving DecidableEq

namespace CorrectedStatistics

def fromJson (j : Json) : Option CorrectedStatistics :=
  match j.structFields ["distance_meters", "point_count", "calculation_version"] with
  | some [some distanceMeters, some pointCount, some calculationVersion] => do
    return {
      distanceMeters := ← distanceMeters.toF64?
      pointCount := ← pointCount.toU32?
      calculationVersion := ← calculationVersion.asStr?
    }
  | _ => none

end CorrectedStatistics

-- `ORDER BY version_number DESC LIMIT 1`
def latest : List RouteVersionRow → Option RouteVersionRow
  | [] => none
  | row :: rows =>
    match latest rows with
    | some other => if row.versionNumber < other.versionNumber then some other else some row
    | none => some row

def latestVersion (activityId : Uuid) (db : Database)
    : Except RouteVersioningError RouteVersionRow :=
  match latest (db.routeVersions.rows.filter fun row => row.activityId = activityId) with
  | some row => .ok row
  | none => .error .activityNotFound

/-
Steps 6 to 10: what the transaction writes. The audit log is left out.
-/

def newVersion (externals : Externals) (data : PublicationCommitData) (draft : RouteEditing.DraftRow)
    (parent : RouteVersionRow) (flatCoords : List (F64 × F64)) : RouteVersionRow where
  id := externals.newVersionId
  activityId := draft.activityId
  parentVersionId := some parent.id
  versionNumber := parent.versionNumber + 1
  geometryJson := draft.geometry
  boundingBoxJson := boundingBoxJson flatCoords
  correctedStatisticsJson := some (correctedStatisticsJson externals flatCoords)
  calculationVersion := "v1.0"
  editSummary := data.editSummary
  createdBy := data.actorId.val
  createdAt := externals.now.toTimestamptz

-- `SET state = 'published', updated_at = now()`
def setPublished (now : Timestamp) (row : RouteEditing.DraftRow) : RouteEditing.DraftRow :=
  { row with state := "published", updatedAt := now.toTimestamptz }

theorem id_setPublished (now : Timestamp) (row : RouteEditing.DraftRow)
    : (setPublished now row).id = row.id := rfl

def markPublished (now : Timestamp) (draftId : RouteEditing.RouteDraftId)
    (s : RouteEditing.Store) : RouteEditing.Store := { s with
  drafts := s.drafts.updateWhere (fun row => row.id = draftId.val) (setPublished now)
    (id_setPublished now)
}

def publishedEvent (externals : Externals) (data : PublicationCommitData) (version : RouteVersionRow)
    : OutboxRow where
  id := externals.newEventId
  aggregateType := "route_version"
  aggregateId := externals.uuidToString version.id
  eventType := "RouteVersionPublished"
  payload := .obj [
    ("route_version_id", .str (externals.uuidToString version.id)),
    ("activity_id", .str (externals.uuidToString version.activityId)),
    ("draft_id", .str (externals.uuidToString data.draftId.val)),
    ("version_number", .int version.versionNumber),
    ("actor_id", .str (externals.uuidToString data.actorId.val)),
    ("_fingerprint", .str (computePayloadFingerprint externals data))
  ]
  correlationId := some data.idempotencyKey

def duplicateKey (constraint : String) : String :=
  "error returned from database: duplicate key value violates unique constraint \""
    ++ constraint ++ "\""

def ofExcept {α : Type} : Except RouteVersioningError α → CommitM α
  | .ok a => pure a
  | .error e => fail e

def publish (externals : Externals) (data : PublicationCommitData) : CommitM PublicationResult := do
  let db ← get
  let draft ← ofExcept (lockDraft data db)
  let flatCoords ← ofExcept (flatCoords externals draft.geometry)
  let parent ← ofExcept (latestVersion draft.activityId db)
  let version := newVersion externals data draft parent flatCoords
  match db.routeVersions.insert? version with
  | none =>
    fail (.persistenceError ("failed to insert route version: " ++ duplicateKey "route_versions_pkey"))
  | some routeVersions => modify fun db => { db with routeVersions }
  modify fun db => { db with
    activities := ActivityCatalog.updateCurrentVersion externals.now draft.activityId version.id
      (correctedStatisticsJson externals flatCoords) db.activities
  }
  modify fun db => { db with
    routeEditing := markPublished externals.now data.draftId db.routeEditing
  }
  match db.outbox.insert? (publishedEvent externals data version) with
  | none => fail (.persistenceError ("failed to write outbox event: " ++ duplicateKey "outbox_pkey"))
  | some outbox => modify fun db => { db with outbox }
  return {
    routeVersionId := { val := version.id }
    versionNumber := version.versionNumber
    draftId := data.draftId
    correctedStatisticsJson := correctedStatisticsJson externals flatCoords
  }

def commit (externals : Externals) (data : PublicationCommitData) : CommitM PublicationResult :=
  transaction do
    match ← ofExcept (replayCommit externals data (← get)) with
    | some result => return result
    | none => publish externals data

end RouteVersioning
