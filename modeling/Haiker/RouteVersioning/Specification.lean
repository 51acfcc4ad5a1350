import Haiker.Exports.ExportWorker
import Haiker.RouteEditing.WellFormed
import Haiker.RouteVersioning.Lemmas.PublicationCommit
import Haiker.RouteVersioning.PublishCommand
import Haiker.RouteVersioning.RouteVersion

/-!
This module contains the publication of the domain over the tables that the committer works on, and when
the two come to the same. No call of a repository fails here, so that the update of the draft is the one
past its optimistic lock.
-/

open Rust
open RecordedActivity (BoundingBox Coordinate)
open RouteEditing (DraftRow)

namespace RouteVersioning

/--
What a repository makes of the JSON columns of a version.
-/
abbrev Contents := RouteVersionRow → List Coordinate × BoundingBox × CorrectedStatistics

def versionOfRow (contents : Contents) (row : RouteVersionRow) : RouteVersion where
  id := { val := row.id }
  activityId := { val := row.activityId }
  parentVersionId := row.parentVersionId.map fun val => { val }
  versionNumber := row.versionNumber
  geometry := (contents row).1
  boundingBox := (contents row).2.1
  correctedStatistics := (contents row).2.2
  calculationVersion := row.calculationVersion
  editSummary := row.editSummary
  createdBy := { val := row.createdBy }
  createdAt := row.createdAt

-- the version that has been published under the key
def versionOfKey (externals : Externals) (db : Database) (key : Uuid) : Option RouteVersionRow :=
  match existingEvent db key with
  | none => none
  | some event =>
    match externals.parseUuid event.aggregateId with
    | .ok versionId => db.routeVersions.find? versionId
    | .error _ => none

def updateDraft (draft : RouteEditing.RouteDraft) (s : RouteEditing.Store) : RouteEditing.Store where
  drafts := s.drafts.updateWhere (fun row => row.id = draft.id.val)
    (RouteEditing.PgRouteDraftRepository.setDraft draft)
    (RouteEditing.PgRouteDraftRepository.id_setDraft draft)
  draftOperations := RouteEditing.PgRouteDraftRepository.writeOperations draft s.draftOperations

def PublishCall.carryOut (externals : Externals) (contents : Contents)
    : (call : PublishCall) → Database → call.Reply × Database
  | .findByIdempotencyKey key, db =>
    (.ok ((versionOfKey externals db key).map (versionOfRow contents)), db)
  | .findById id, db =>
    (.ok ((db.routeEditing.drafts.find? id.val).map fun row =>
      RouteEditing.PgRouteDraftRepository.draftOfRows row
        (RouteEditing.PgRouteDraftRepository.selectOperations db.routeEditing row.id)), db)
  | .findLatestByActivity activityId, db =>
    match latestVersion activityId.val db with
    | .ok row => (.ok (some (versionOfRow contents row)), db)
    | .error _ => (.ok none, db)
  | .save version, db =>
    match db.routeVersions.insert? (PgRouteVersionRepository.rowOfVersion version) with
    | some routeVersions => (.ok (), { db with routeVersions })
    | none =>
      (.error (.persistenceError
        ("failed to save route version: " ++ duplicateKey "route_versions_pkey")), db)
  | .update draft, db => (.ok (), { db with routeEditing := updateDraft draft db.routeEditing })
  | .updateActivityCurrentVersion activityId routeVersionId correctedSummary, db =>
    (.ok (), { db with
      activities := ActivityCatalog.updateCurrentVersion externals.now activityId.val
        routeVersionId.val correctedSummary db.activities
    })

def PublicationCommitData.command (data : PublicationCommitData) : PublishRouteVersionCommand where
  draftId := data.draftId
  expectedRevision := data.expectedRevision
  actorId := data.actorId
  idempotencyKey := data.idempotencyKey
  editSummary := data.editSummary

-- the same request to the domain
def executed (externals : Externals) (contents : Contents) (data : PublicationCommitData)
    (db : Database) : Except RouteVersioningError RouteVersion × Database :=
  Program.execute (PublishCall.carryOut externals contents) (executePublish externals data.command) db

/--
Two versions that differ in their ids and texts at most. Their geometries are compared as the export
worker reads them, which knows both forms.
-/
structure SameVersion (a b : RouteVersionRow) : Prop where
  versionNumber : a.versionNumber = b.versionNumber
  parentVersionId : a.parentVersionId = b.parentVersionId
  geometry : Exports.parseGeometryJson a.geometryJson = Exports.parseGeometryJson b.geometryJson
  boundingBox : a.boundingBoxJson = b.boundingBoxJson
  pointCount : a.correctedStatisticsJson.bind (Json.get? "point_count")
    = b.correctedStatisticsJson.bind (Json.get? "point_count")
  distanceMeters : a.correctedStatisticsJson.bind (Json.get? "distance_meters")
    = b.correctedStatisticsJson.bind (Json.get? "distance_meters")

structure SameOutcome (data : PublicationCommitData) (result : PublicationResult) (db₁ : Database)
    (version : RouteVersion) (db₂ : Database) : Prop where
  versionNumber : result.versionNumber = version.versionNumber
  version : ∃ row₁ row₂, db₁.routeVersions.find? result.routeVersionId.val = some row₁
    ∧ db₂.routeVersions.find? version.id.val = some row₂ ∧ SameVersion row₁ row₂
  draft : (db₁.routeEditing.drafts.find? data.draftId.val).map (·.state)
    = (db₂.routeEditing.drafts.find? data.draftId.val).map (·.state)
  pointer : ∀ activityId, (db₁.activities.find? activityId).map (·.currentRouteVersionId)
    = (db₂.activities.find? activityId).map (·.currentRouteVersionId)

/--
Both succeed with the same outcome, or both fail with the same kind of error and change nothing.
-/
def Agree (externals : Externals) (contents : Contents) (data : PublicationCommitData) (db : Database)
    : Prop :=
  match (commit externals data).run db, executed externals contents data db with
  | .ok result db₁, (.ok version, db₂) => SameOutcome data result db₁ version db₂
  | .error (.err e₁) db₁, (.error e₂, db₂) => e₁.ctorIdx = e₂.ctorIdx ∧ db₁ = db ∧ db₂ = db
  | _, _ => False

-- new ids are in no table
structure Fresh (externals : Externals) (db : Database) : Prop where
  version : db.routeVersions.find? externals.newVersionId = none
  event : db.outbox.find? externals.newEventId = none

/-
When the two agree
-/

-- the draft that both would publish
structure Publishes (data : PublicationCommitData) (db : Database) (row : DraftRow) : Prop where
  found : db.routeEditing.drafts.find? data.draftId.val = some row
  owner : row.ownerId = data.actorId.val
  active : row.state = "active"
  revision : row.revision = data.expectedRevision

-- what the domain asks of it
structure Publishable (row : DraftRow) : Prop where
  geometry : RouteEditing.ValidGeometry (RouteEditing.jsonToGeometry row.geometry)
  base : row.baseRouteVersionId ≠ none

-- what the committer asks of it
def Readable (row : DraftRow) : Prop :=
  ∃ segments, readSegments row.geometry = some segments ∧ 2 ≤ segments.flatten.length

-- the coordinates that the domain makes of it
def coordinates (row : DraftRow) : List Coordinate :=
  flattenGeometry (RouteEditing.jsonToGeometry row.geometry)

-- the same as a segment, which has no elevations
def oneSegment (row : DraftRow) : List GeometryPoint :=
  (coordinates row).map GeometryPoint.ofCoordinate

structure Fits (db : Database) (row : DraftRow) : Prop where
  accepted : Readable row ↔ Publishable row
  same : Publishable row → ∀ parent, latestVersion row.activityId db = .ok parent →
    1 ≤ parent.versionNumber ∧ readSegments row.geometry = some [oneSegment row]
      ∧ (oneSegment row).length < UInt32.size

/--
The event under the key, if there is one, is of the same request, and its version is there with its
statistics; without such a version, the draft that both would publish is one that they read alike.
-/
structure Equivalent (externals : Externals) (data : PublicationCommitData) (db : Database) : Prop where
  key : ∀ event, existingEvent db data.idempotencyKey = some event →
    VersionGone externals data db event ∨ ∃ row json, VersionThere externals data db event row json
  draft : versionOfKey externals db data.idempotencyKey = none → ∀ row, Publishes data db row →
    Fits db row

end RouteVersioning
