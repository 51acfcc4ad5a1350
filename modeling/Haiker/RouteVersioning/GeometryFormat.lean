import Haiker.Exports.ExportWorker
import Haiker.Imports.Lemmas.Commit
import Haiker.RouteEditing.WellFormed
import Haiker.RouteVersioning.Lemmas.PublicationCommit
import Haiker.RouteVersioning.RouteVersion
import Haiker.Transactions.VersionChain

/-!
This module contains the JSON forms of a geometry that are stored (the nested one of the drafts, the flat
list of the imported versions and the copy that a publication makes of its draft) and which of the
readers take which of them.
-/

open Rust
open Imports (CommitExternals ImportCommitData)
open RecordedActivity (BoundingBox Coordinate)

namespace RouteVersioning

namespace GeometryPoint

def ofRoutePoint (p : RouteEditing.RoutePoint) : GeometryPoint where
  latitude := p.coordinate.latitude
  longitude := p.coordinate.longitude
  elevation := p.elevation.map (·.meters)

def coordinate (p : GeometryPoint) : Coordinate where
  latitude := p.latitude
  longitude := p.longitude

end GeometryPoint

inductive Writer where
  | draftRepository
  | importCommitter
  | publicationCommitter
  deriving DecidableEq

inductive Reader where
  | publicationCommitter
  | versionRepository
  | exportWorker
  deriving DecidableEq

/--
Drafts are read by the committer, and versions by the two others.
-/
def Writer.feeds : Writer → Reader → Bool
  | .draftRepository, reader => reader = .publicationCommitter
  | .importCommitter, reader | .publicationCommitter, reader => reader ≠ .publicationCommitter

/--
The segments that a writer has stored, and the JSON that it has stored for them.
-/
inductive Writes : Writer → List (List GeometryPoint) → Json → Prop where
  | draft (geometry : RouteEditing.Geometry)
    : Writes .draftRepository (geometry.map fun segment => segment.map GeometryPoint.ofRoutePoint)
        (RouteEditing.geometryToJson geometry)
  -- `RouteVersion::new_initial` has seen to the two points and `Coordinate::new` to the ranges
  | initial {externals : CommitExternals} {data : ImportCommitData} {db db' : Imports.Database}
    {activityId : ActivityCatalog.ActivityId} {row : RouteVersionRow}
    (hcoordinates : ∀ c ∈ data.previewGeometry, c.InRange) (hlength : 2 ≤ data.previewGeometry.length)
    (hrun : (Imports.PgImportCommitter.commit externals data).run db = .ok activityId db')
    (hnew : db.routeVersions.find? row.id = none)
    (hrow : db'.routeVersions.find? row.id = some row)
    : Writes .importCommitter [data.previewGeometry.map GeometryPoint.ofCoordinate] row.geometryJson
  | published {externals : Externals} {data : PublicationCommitData} {db db' : Database}
    {result : PublicationResult} {row : RouteVersionRow} {draft : RouteEditing.DraftRow}
    {segments : List (List GeometryPoint)}
    (hdraft : db.routeEditing.drafts.find? data.draftId.val = some draft)
    (hsegments : readSegments draft.geometry = some segments)
    (hrun : (commit externals data).run db = .ok result db')
    (hnew : db.routeVersions.find? row.id = none)
    (hrow : db'.routeVersions.find? row.id = some row)
    : Writes .publicationCommitter segments row.geometryJson

/--
The reader accepts the JSON as the geometry of these segments, as far as it tells segments and
elevations. The repository reads whole rows, so that the rest of the row is one that it can read.
-/
def Reader.Takes : Reader → List (List GeometryPoint) → Json → Prop
  | .publicationCommitter, segments, j => readSegments j = some segments
  | .versionRepository, segments, j =>
    ∀ (errors : SerdeErrors) (row : RouteVersionRow) (box : BoundingBox) (statisticsJson : Json)
      (statistics : CorrectedStatistics), row.geometryJson = j →
      BoundingBox.fromJson row.boundingBoxJson = some box →
      CorrectedStatistics.fromJson statisticsJson = some statistics →
      ∃ version,
        PgRouteVersionRepository.rowToRouteVersion errors row statisticsJson = .ok version
          ∧ version.geometry = segments.flatten.map GeometryPoint.coordinate
  | .exportWorker, segments, j =>
    Exports.parseGeometryJson j = .ok (segments.map fun segment => segment.map Exports.gpxPoint)

/--
Every reader takes what is stored for it.
-/
def OneFormat : Prop :=
  ∀ writer reader segments j, Writes writer segments j → writer.feeds reader = true →
    reader.Takes segments j

/--
No point of a draft is read, and no published version is read by the repository.
-/
def Understood : Writer → Reader → List (List GeometryPoint) → Prop
  | .draftRepository, _, segments => ∀ segment ∈ segments, segment = []
  | .publicationCommitter, .versionRepository, _ => False
  | _, _, _ => True

/-
Drafts
-/

theorem fromJson_routePoint (p : RouteEditing.RoutePoint)
    : GeometryPoint.fromJson p.toJson = none := by
  simp [GeometryPoint.fromJson, RouteEditing.RoutePoint.toJson, Json.structFields, List.lookup_cons]

theorem readSegments_geometryToJson_of_empty {geometry : RouteEditing.Geometry}
    (h : ∀ segment ∈ geometry, segment = [])
    : readSegments (RouteEditing.geometryToJson geometry)
        = some (geometry.map fun segment => segment.map GeometryPoint.ofRoutePoint) := by
  apply Json.toList?_ofList_map
  intro segment hmem
  rw [h segment hmem]
  rfl

theorem readSegments_geometryToJson_of_mem {geometry : RouteEditing.Geometry}
    {segment : RouteEditing.Segment} {p : RouteEditing.RoutePoint} (hsegment : segment ∈ geometry)
    (hpoint : p ∈ segment)
    : readSegments (RouteEditing.geometryToJson geometry) = none := by
  apply Json.toList?_eq_none_of_mem (List.mem_map_of_mem hsegment)
  apply Json.toList?_eq_none_of_mem (List.mem_map_of_mem hpoint)
  exact fromJson_routePoint p

theorem takes_draft_iff (geometry : RouteEditing.Geometry)
    : Reader.publicationCommitter.Takes
          (geometry.map fun segment => segment.map GeometryPoint.ofRoutePoint)
          (RouteEditing.geometryToJson geometry)
        ↔
      ∀ segment ∈ geometry, segment = [] := by
  constructor
  . intro htakes segment hsegment
    cases segment with
    | nil => rfl
    | cons p rest =>
      have hnone := readSegments_geometryToJson_of_mem hsegment (List.mem_cons_self (a := p) (l := rest))
      rw [Reader.Takes, hnone] at htakes
      cases htakes
  . exact readSegments_geometryToJson_of_empty

/-
The flat list of an imported version
-/

theorem coordinates_ofCoordinates (coords : List Coordinate)
    : (coords.map GeometryPoint.ofCoordinate).map GeometryPoint.coordinate = coords := by
  rw [List.map_map]
  exact List.map_id coords

theorem toList?_flat {coords : List Coordinate} (h : ∀ c ∈ coords, c.InRange)
    : (Json.ofList Coordinate.toJson coords).toList? Coordinate.fromJson = some coords := by
  apply Json.toList?_ofList
  intro c hmem
  exact Coordinate.fromJson_toJson (h c hmem)

/-
The copy of a draft's geometry in a published version
-/

-- points are objects or arrays
theorem toF64?_of_point {j : Json} {p : GeometryPoint} (h : GeometryPoint.fromJson j = some p)
    : j.toF64? = none := by
  cases j with
  | int | float => simp [GeometryPoint.fromJson, Json.structFields] at h
  | null | bool | str | arr | obj => rfl

/--
Segments are arrays, which are read as a coordinate if they are of two numbers.
-/
theorem fromJson_segment {j : Json} {segment : List GeometryPoint}
    (h : j.toList? GeometryPoint.fromJson = some segment) : Coordinate.fromJson j = none := by
  obtain ⟨items, rfl, hitems⟩ := Json.eq_arr_of_toList? h
  cases items with
  | nil => rfl
  | cons first rest =>
    obtain ⟨_, _, hfirst⟩ := Json.exists_of_mem_of_mapM hitems List.mem_cons_self
    have hnumber := toF64?_of_point hfirst
    unfold Coordinate.fromJson
    split
    . next latitude longitude hfields =>
      simp only [Json.structFields] at hfields
      split at hfields
      . simp only [List.map_cons, Option.some.injEq, List.cons.injEq] at hfields
        rw [← hfields.1, hnumber]
        rfl
      . cases hfields
    . rfl

theorem toList?_segments {j : Json} {segments : List (List GeometryPoint)}
    (h : readSegments j = some segments) (hne : segments ≠ [])
    : j.toList? Coordinate.fromJson = none := by
  obtain ⟨items, rfl, hitems⟩ := Json.eq_arr_of_toList? h
  cases items with
  | nil =>
    cases hitems
    contradiction
  | cons first rest =>
    obtain ⟨segment, _, hsegment⟩ := Json.exists_of_mem_of_mapM hitems List.mem_cons_self
    exact Json.toList?_eq_none_of_mem List.mem_cons_self (fromJson_segment hsegment)

-- the repository reads the geometry of a row as a flat list, whatever else is in the row
theorem takes_versionRepository {segments : List (List GeometryPoint)} {j : Json}
    (h : j.toList? Coordinate.fromJson = some (segments.flatten.map GeometryPoint.coordinate))
    : Reader.versionRepository.Takes segments j := by
  intro errors row box statisticsJson statistics hj hbox hstatistics
  exact PgRouteVersionRepository.rowToRouteVersion_of_read (by rw [hj, h]) hbox hstatistics errors

theorem not_takes_versionRepository {segments : List (List GeometryPoint)} {j : Json}
    (h : j.toList? Coordinate.fromJson = none) : ¬Reader.versionRepository.Takes segments j := by
  intro htakes
  let corner : Coordinate := { latitude := .fin 0, longitude := .fin 0 }
  let box : BoundingBox := { southWest := corner, northEast := corner }
  let row : RouteVersionRow :=
    { Transactions.sampleVersion with geometryJson := j, boundingBoxJson := box.toJson }
  let statistics : CorrectedStatistics := ⟨.fin 0, 2, "v1.0"⟩
  let errors : SerdeErrors := ⟨fun _ => "", fun _ => "", fun _ => ""⟩
  obtain ⟨_, hread, _⟩ := htakes errors row box statistics.toJson statistics rfl rfl rfl
  rw [PgRouteVersionRepository.rowToRouteVersion_of_unread h] at hread
  cases hread

/-
Each writer with its readers
-/

theorem geometryJson_of_initial {externals : CommitExternals} {data : ImportCommitData}
    {db db' : Imports.Database} {activityId : ActivityCatalog.ActivityId} {row : RouteVersionRow}
    (hrun : (Imports.PgImportCommitter.commit externals data).run db = .ok activityId db')
    (hnew : db.routeVersions.find? row.id = none) (hrow : db'.routeVersions.find? row.id = some row)
    : row.geometryJson = .ofList Coordinate.toJson data.previewGeometry := by
  obtain ⟨e, hfailed⟩ | ⟨_, hcommitted, hall⟩ :=
    Imports.PgImportCommitter.commit_cases externals data db
  . rw [hfailed] at hrun
    cases hrun
  . rw [hcommitted] at hrun
    cases hrun
    obtain rfl | hold := Sql.Table.find?_of_insert? hall.routeVersions hrow
    . rfl
    . rw [hnew] at hold
      cases hold

theorem geometryJson_of_published {externals : Externals} {data : PublicationCommitData}
    {db db' : Database} {result : PublicationResult} {row : RouteVersionRow}
    {draft : RouteEditing.DraftRow} {segments : List (List GeometryPoint)}
    (hdraft : db.routeEditing.drafts.find? data.draftId.val = some draft)
    (hsegments : readSegments draft.geometry = some segments)
    (hrun : (commit externals data).run db = .ok result db')
    (hnew : db.routeVersions.find? row.id = none) (hrow : db'.routeVersions.find? row.id = some row)
    : row.geometryJson = draft.geometry ∧ segments ≠ [] := by
  obtain ⟨locked, hall⟩ := published_of_commit hrun hnew hrow
  obtain ⟨hfound, _⟩ := lockDraft_eq_ok hall.locked
  rw [hdraft] at hfound
  cases hfound
  obtain ⟨coords, parent, hcoords, _, rfl⟩ := hall.built
  refine ⟨rfl, ?_⟩
  rintro rfl
  have hread : draft.geometry.toList? (Json.toList? GeometryPoint.fromJson) = some [] := hsegments
  simp [flatCoords, hread, throw, throwThe, MonadExceptOf.throw, bind, Except.bind] at hcoords

/--
A reader takes what a writer has stored for it exactly if the two understand each other.
-/
theorem takes_iff {writer : Writer} {reader : Reader} {segments : List (List GeometryPoint)} {j : Json}
    (h : Writes writer segments j) (hfeeds : writer.feeds reader = true)
    : reader.Takes segments j ↔ Understood writer reader segments := by
  cases h with
  | draft geometry =>
    cases reader with
    | publicationCommitter => simpa [Understood] using takes_draft_iff geometry
    | versionRepository | exportWorker => cases hfeeds
  | initial hcoordinates hlength hrun hnew hrow =>
    rw [geometryJson_of_initial hrun hnew hrow]
    cases reader with
    | publicationCommitter => cases hfeeds
    | versionRepository =>
      simp only [Understood, iff_true]
      apply takes_versionRepository
      rw [List.flatten_singleton, coordinates_ofCoordinates]
      exact toList?_flat hcoordinates
    | exportWorker =>
      simp only [Understood, iff_true]
      apply parseGeometryJson_flat hcoordinates
      rintro hnil
      simp [hnil] at hlength
  | published hdraft hsegments hrun hnew hrow =>
    obtain ⟨hgeometry, hne⟩ := geometryJson_of_published hdraft hsegments hrun hnew hrow
    rw [hgeometry]
    cases reader with
    | publicationCommitter => cases hfeeds
    | versionRepository =>
      simp only [Understood, iff_false]
      exact not_takes_versionRepository (toList?_segments hsegments hne)
    | exportWorker =>
      simp only [Understood, iff_true]
      exact parseGeometryJson_segments hsegments

-- a draft in latitudes and longitudes, which no repository has stored, and its publication
def sampleSegments : List (List GeometryPoint) :=
  [[⟨.fin 46, .fin 7, none⟩, ⟨.fin 47, .fin 7, none⟩]]

def sampleRow : RouteVersionRow :=
  newVersion (Transactions.sampleExternals 20) ⟨⟨⟨10⟩⟩, 0, ⟨⟨3⟩⟩, ⟨30⟩, none⟩
    (Transactions.sampleDraft ⟨10⟩) Transactions.sampleVersion [(.fin 46, .fin 7), (.fin 47, .fin 7)]

theorem writes_sampleRow : Writes .publicationCommitter sampleSegments sampleRow.geometryJson :=
  @Writes.published (Transactions.sampleExternals 20) ⟨⟨⟨10⟩⟩, 0, ⟨⟨3⟩⟩, ⟨30⟩, none⟩
    Transactions.sampleDatabase.toDatabase _ _ sampleRow (Transactions.sampleDraft ⟨10⟩) sampleSegments
    rfl rfl rfl rfl rfl

theorem takes_iff_sampleRow
    : Reader.exportWorker.Takes sampleSegments sampleRow.geometryJson
        ∧ ¬Reader.versionRepository.Takes sampleSegments sampleRow.geometryJson :=
  ⟨(takes_iff writes_sampleRow rfl).mpr trivial, (takes_iff writes_sampleRow rfl).not.mpr not_false⟩

open RouteEditing.RouteDraft (sampleGeometry) in
/--
A valid draft of three points is not read by the committer, and a published version of two is not read by
the repository.
-/
theorem not_oneFormat
    : RouteEditing.ValidGeometry sampleGeometry
        ∧ readSegments (RouteEditing.geometryToJson sampleGeometry) = none
        ∧ sampleRow.geometryJson.toList? Coordinate.fromJson = none
        ∧ ¬OneFormat := by
  refine ⟨?_, rfl, rfl, ?_⟩
  . exact RouteEditing.ValidGeometry.of_built ⟨by decide, by decide⟩ (by decide)
  . intro h
    have hread := h _ .publicationCommitter _ _ (.draft sampleGeometry) rfl
    cases hread

end RouteVersioning
