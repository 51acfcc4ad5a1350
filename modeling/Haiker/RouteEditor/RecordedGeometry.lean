import Haiker.Imports.InitialVersion
import Haiker.RecordedActivity.Lemmas.RecordedRoute
import Haiker.RouteEditor.RecordedRoute

/-!
This module contains when a recording reaches the editor as it has been committed: when it has no
elevations, since they are not read.
-/

open Rust
open RecordedActivity
open ActivityCatalog.PgActivityRepository (readTitle)
open Imports (CommitExternals Database ImportCommitData)
open Imports.PgImportCommitter
open PgRecordedRouteRepository (Fresh Stored commitAll routeSegment stored_commitAll)

namespace RouteEditor

def recordedPoint (p : TrackPoint) : Api.RoutePointDto where
  latitude := p.coordinate.latitude
  longitude := p.coordinate.longitude
  elevation := p.elevation.map (·.meters)

def recordedGeometry (segments : List TrackSegment) : List (List Api.RoutePointDto) :=
  segments.map fun segment => segment.points.map recordedPoint

-- west, south, east and north
def boxNumbers (box : BoundingBox) : List F64 :=
  [box.southWest.longitude, box.southWest.latitude, box.northEast.longitude, box.northEast.latitude]

/--
A body has the bounding box that has been committed, and the object `statistics` the statistics. Counts are
of type `u32`.
-/
structure Serves (data : ImportCommitData) (body statistics : Json) : Prop where
  bbox : (body.get? "bbox").bind (Json.toList? Json.toF64?)
    = some (boxNumbers data.boundingBox)
  distanceMeters : (statistics.get? "distanceMeters").bind Json.toF64? = some data.statistics.distanceMeters
  elevationGainMeters : (statistics.get? "elevationGainMeters").map Json.toF64?
    = data.statistics.elevationGainMeters.map some
  elevationLossMeters : (statistics.get? "elevationLossMeters").map Json.toF64?
    = data.statistics.elevationLossMeters.map some
  pointCount : (statistics.get? "pointCount").bind Json.toNat?
    = some (data.statistics.pointCount % UInt32.size)
  segmentCount : (statistics.get? "segmentCount").bind Json.toNat?
    = some (data.statistics.segmentCount % UInt32.size)

/--
The owner of a recording is served all of it.
-/
structure ReachesEditor (data : ImportCommitData) (db : Database) : Prop where
  full : ∃ response route properties,
    Api.getRecordedRouteHandler data.ownerId data.activityId.val .full db = .ok response
      ∧ RecordedRoute.parse response.body = some route
      ∧ recordedRouteToGeometry route = recordedGeometry data.segments
      ∧ response.body.get? "properties" = some properties
      ∧ Serves data response.body properties
  preview : ∃ response,
    Api.getRecordedRouteHandler data.ownerId data.activityId.val .preview db = .ok response
      ∧ Serves data response.body response.body

/-
What the handler answers.
-/

def servedResponse (data : ImportCommitData) : Api.RouteDetail → Api.JsonResponse
  | .full => ⟨"application/geo+json", (Api.recordedRouteResponse (committedRoute data)).toJson⟩
  | .preview => ⟨"application/json", (Api.recordedRoutePreviewResponse (committedPreview data)).toJson⟩

section Served

variable {externals : CommitExternals} {data : ImportCommitData} {db : Database}

theorem handler_of_stored (h : Stored externals data db) (hrecorded : WellRecorded data)
    (detail : Api.RouteDetail)
    : (¬Readable data.activityTitle
          ∧ ∃ e, Api.getRecordedRouteHandler data.ownerId data.activityId.val detail db = .error e)
        ∨ Readable data.activityTitle
          ∧ Api.getRecordedRouteHandler data.ownerId data.activityId.val detail db
            = .ok (servedResponse data detail) := by
  unfold Api.getRecordedRouteHandler
  rw [getRecordedRoute_of_stored h hrecorded]
  cases hread : readTitle data.activityTitle with
  | error fault =>
    refine .inl ⟨?_, ?_⟩
    . rintro ⟨title, htitle⟩
      rw [hread] at htitle
      cases htitle
    . simp only [Except.mapError, Except.map]
      cases RecordedRouteError.ofCatalog fault with
      | panic => exact ⟨_, rfl⟩
      | err e => exact ⟨_, rfl⟩
  | ok title =>
    refine .inr ⟨⟨title, hread⟩, ?_⟩
    cases detail with
    | full => rfl
    | preview => rfl

/-
What the editor makes of a segment.
-/

def parsedFeature (segment : RouteSegment) (segmentIndex : Nat) : GeoJsonFeature where
  geometry := ⟨"LineString", segment.points.map fun c => [c.longitude, c.latitude]⟩
  properties := some [("segmentIndex", .ofNat segmentIndex), ("pointCount", .ofNat segment.points.length)]

-- a point on the ground
def groundPoint (c : Coordinate) : Api.RoutePointDto where
  latitude := c.latitude
  longitude := c.longitude
  elevation := none

theorem parse_featureOf {segment : RouteSegment} (h : ∀ c ∈ segment.points, c.InRange) (segmentIndex : Nat)
    : GeoJsonFeature.parse (Api.featureOf segment segmentIndex).toJson
        = some (parsedFeature segment segmentIndex) := by
  have hcoordinates : Json.toList? (Json.toList? Json.toF64?)
      (.ofList (fun c => .arr [.ofF64 c.1, .ofF64 c.2]) (segment.points.map fun c => (c.longitude, c.latitude)))
        = some (segment.points.map fun c => [c.longitude, c.latitude]) := by
    rw [Json.toList?_ofList_map (fun c => [c.1, c.2]), List.map_map]
    . rfl
    . intro pair hpair
      obtain ⟨c, hc, rfl⟩ := List.mem_map.mp hpair
      have hlatitude := Json.toF64?_ofF64_of_isFinite (F64.isFinite_of_inRange (h c hc).1)
      have hlongitude := Json.toF64?_ofF64_of_isFinite (F64.isFinite_of_inRange (h c hc).2)
      simp [Json.toList?, hlatitude, hlongitude]
  simp [GeoJsonFeature.parse, GeoJsonGeometry.parse, Api.GeoJsonFeature.toJson, Api.GeoJsonGeometry.toJson,
    Api.SegmentProperties.toJson, Api.featureOf, parsedFeature, parseLiteral, parseRecord, Json.get?,
    Json.asStr?, List.lookup_cons, hcoordinates]

theorem featureSegment_parsedFeature {segment : RouteSegment} (h : 2 ≤ segment.points.length)
    (segmentIndex : Nat)
    : featureSegment (parsedFeature segment segmentIndex) = some (segment.points.map groundPoint) := by
  have hpoints : (segment.points.map fun c => [c.longitude, c.latitude]).filterMap routePoint
      = segment.points.map groundPoint := filterMap_map_of_some fun _ _ => rfl
  unfold featureSegment parsedFeature
  simp only [hpoints, List.length_map]
  simp [h]

-- the statistics of a recording as its properties
def servedProperties (data : ImportCommitData) : List (String × Json) :=
  (Api.recordedRouteResponse (committedRoute data)).properties.fields

def parsedRoute (data : ImportCommitData) : RecordedRoute where
  bbox := boxNumbers data.boundingBox
  features := (data.segments.map routeSegment).zipIdx.map fun entry => parsedFeature entry.1 entry.2
  properties := some (servedProperties data)

section Recorded

variable (hrecorded : WellRecorded data)
include hrecorded

theorem toList?_bboxOf
    : Json.toList? Json.toF64? (Api.bboxOf data.boundingBox).toJson = some (boxNumbers data.boundingBox) := by
  have hwest := Json.toF64?_ofF64_of_isFinite (F64.isFinite_of_inRange hrecorded.southWest.2)
  have hsouth := Json.toF64?_ofF64_of_isFinite (F64.isFinite_of_inRange hrecorded.southWest.1)
  have heast := Json.toF64?_ofF64_of_isFinite (F64.isFinite_of_inRange hrecorded.northEast.2)
  have hnorth := Json.toF64?_ofF64_of_isFinite (F64.isFinite_of_inRange hrecorded.northEast.1)
  simp [Json.toList?, Api.Bbox.toJson, Api.bboxOf, boxNumbers, hwest, hsouth, heast, hnorth]

theorem toList?_features
    : Json.toList? GeoJsonFeature.parse
        (.ofList Api.GeoJsonFeature.toJson (Api.recordedRouteResponse (committedRoute data)).features)
        = some (parsedRoute data).features := by
  show Json.toList? GeoJsonFeature.parse (.arr (List.map _ (List.map _ _))) = _
  rw [List.map_map]
  apply Json.toList?_ofList_map
  intro entry hentry
  obtain ⟨segment, hsegment, heq⟩ := List.mem_map.mp (List.fst_mem_of_mem_zipIdx hentry)
  apply parse_featureOf
  intro c hc
  rw [← heq] at hc
  obtain ⟨p, hp, rfl⟩ := List.mem_map.mp hc
  exact hrecorded.inRange segment hsegment p hp

theorem parse_served : RecordedRoute.parse (servedResponse data .full).body = some (parsedRoute data) := by
  have hbbox := toList?_bboxOf hrecorded
  have hfeatures := toList?_features hrecorded
  show (do
    parseLiteral "FeatureCollection" (.str "FeatureCollection")
    let bbox ← (Api.bboxOf data.boundingBox).toJson.toList? Json.toF64?
    let features ← (Json.ofList Api.GeoJsonFeature.toJson
      (Api.recordedRouteResponse (committedRoute data)).features).toList? GeoJsonFeature.parse
    let properties ← parseRecord (.obj (servedProperties data))
    return { bbox, features, properties : RecordedRoute }) = _
  rw [hbbox, hfeatures]
  rfl

/--
The editor starts with every segment and every point, and with no elevations.
-/
theorem recordedRouteToGeometry_parsedRoute
    : recordedRouteToGeometry (parsedRoute data)
        = data.segments.map fun segment => segment.points.map fun p => groundPoint p.coordinate := by
  have hsegments : (parsedRoute data).features.filterMap featureSegment
      = data.segments.map fun segment => segment.points.map fun p => groundPoint p.coordinate := by
    have hall : ∀ entry ∈ (data.segments.map routeSegment).zipIdx,
        featureSegment (parsedFeature entry.1 entry.2) = some (entry.1.points.map groundPoint) := by
      intro entry hentry
      obtain ⟨segment, hsegment, heq⟩ := List.mem_map.mp (List.fst_mem_of_mem_zipIdx hentry)
      apply featureSegment_parsedFeature
      rw [← heq]
      show 2 ≤ (segment.points.map _).length
      rw [List.length_map]
      exact segment.enough
    unfold parsedRoute
    rw [filterMap_map_of_some hall]
    calc
      _ = ((data.segments.map routeSegment).zipIdx.map Prod.fst).map fun segment =>
          segment.points.map groundPoint := List.map_map.symm
      _ = (data.segments.map routeSegment).map fun segment => segment.points.map groundPoint := by
        rw [List.zipIdx_map_fst]
      _ = _ := by
        rw [List.map_map]
        apply List.map_congr_left
        intro segment _
        exact List.map_map
  unfold recordedRouteToGeometry
  rw [hsegments]
  simp [hrecorded.nonempty]

theorem serves_of_finite (hnone : NoElevations data.segments)
    (hfinite : data.statistics.distanceMeters.isFinite = true)
    : Serves data (servedResponse data .full).body (.obj (servedProperties data))
        ∧ Serves data (servedResponse data .preview).body (servedResponse data .preview).body := by
  have hbbox := toList?_bboxOf hrecorded
  have hdistance := Json.toF64?_ofF64_of_isFinite hfinite
  obtain ⟨hgain, hloss⟩ := hrecorded.elevations hnone
  have hfields : Api.elevationFields data.statistics.elevationGainMeters data.statistics.elevationLossMeters
      = [] := by
    rw [hgain, hloss]
    rfl
  have hproperties : servedProperties data = [
        ("distanceMeters", .ofF64 data.statistics.distanceMeters),
        ("pointCount", .ofNat (data.statistics.pointCount % UInt32.size)),
        ("segmentCount", .ofNat (data.statistics.segmentCount % UInt32.size))
      ] := congrArg (fun fields => _ :: fields ++ _) hfields
  have hpreview : (servedResponse data .preview).body = .obj [
        ("bbox", (Api.bboxOf data.boundingBox).toJson),
        ("pointCount", .ofNat (data.statistics.pointCount % UInt32.size)),
        ("segmentCount", .ofNat (data.statistics.segmentCount % UInt32.size)),
        ("distanceMeters", .ofF64 data.statistics.distanceMeters)
      ] := congrArg (fun fields => Json.obj (_ ++ fields)) hfields
  constructor
  . rw [hproperties]
    constructor
    . exact hbbox
    . exact hdistance
    . rw [hgain]
      rfl
    . rw [hloss]
      rfl
    . rfl
    . rfl
  . rw [hpreview]
    constructor
    . exact hbbox
    . exact hdistance
    . rw [hgain]
      rfl
    . rw [hloss]
      rfl
    . rfl
    . rfl

end Recorded

theorem groundPoints_eq_recordedGeometry_iff {segments : List TrackSegment}
    : (segments.map fun segment => segment.points.map fun p => groundPoint p.coordinate)
          = recordedGeometry segments
        ↔ NoElevations segments := by
  have hpoint : ∀ p : TrackPoint, groundPoint p.coordinate = recordedPoint p ↔ p.elevation = none := by
    intro p
    simp [groundPoint, recordedPoint]
  unfold recordedGeometry NoElevations
  rw [List.map_inj_left]
  apply forall₂_congr
  intro segment _
  rw [List.map_inj_left]
  simp only [hpoint]

theorem reachesEditor_iff_of_stored (h : Stored externals data db) (hrecorded : WellRecorded data)
    : ReachesEditor data db
        ↔ NoElevations data.segments ∧ data.statistics.distanceMeters.isFinite = true
          ∧ Readable data.activityTitle := by
  constructor
  . rintro ⟨⟨response, route, properties, hanswer, hparse, hgeometry, hproperties, hserves⟩, _⟩
    obtain ⟨_, e, herror⟩ | ⟨hreadable, hserved⟩ := handler_of_stored h hrecorded .full
    . rw [herror] at hanswer
      cases hanswer
    . obtain rfl := Except.ok.inj (hanswer.symm.trans hserved)
      obtain rfl := Option.some.inj (hparse.symm.trans (parse_served hrecorded))
      have hbody : (servedResponse data .full).body.get? "properties" = some (.obj (servedProperties data)) :=
        rfl
      obtain rfl := Option.some.inj (hproperties.symm.trans hbody)
      rw [recordedRouteToGeometry_parsedRoute hrecorded] at hgeometry
      exact ⟨groundPoints_eq_recordedGeometry_iff.mp hgeometry, Json.isFinite_of_toF64? hserves.distanceMeters,
        hreadable⟩
  . rintro ⟨hnone, hfinite, hreadable⟩
    have hserved : ∀ detail, Api.getRecordedRouteHandler data.ownerId data.activityId.val detail db
        = .ok (servedResponse data detail) := by
      intro detail
      obtain ⟨hunreadable, _⟩ | ⟨_, hserved⟩ := handler_of_stored h hrecorded detail
      . exact absurd hreadable hunreadable
      . exact hserved
    obtain ⟨hfull, hpreview⟩ := serves_of_finite hrecorded hnone hfinite
    constructor
    . refine ⟨_, _, _, hserved .full, parse_served hrecorded, ?_, rfl, hfull⟩
      rw [recordedRouteToGeometry_parsedRoute hrecorded]
      exact groundPoints_eq_recordedGeometry_iff.mpr hnone
    . exact ⟨_, hserved .preview, hpreview⟩

end Served

/--
A recording that has been committed, before and after any other imports, reaches the editor as it is exactly
if it has no elevations. Its distance has to be a number, and its title one that can be read.
-/
theorem recording_reaches_editor_iff {normalization : NormalizationExternals}
    {parseResult : Imports.GpxParseResult} {externals : CommitExternals} {data : ImportCommitData}
    (hnormalizes : Normalizes normalization parseResult data) {db db' : Database} (hfresh : Fresh db)
    (before later : List (CommitExternals × ImportCommitData)) {activityId : ActivityCatalog.ActivityId}
    (hcommit : (commit externals data).run (commitAll before db) = .ok activityId db')
    : ReachesEditor data (commitAll later db')
        ↔ NoElevations data.segments ∧ data.statistics.distanceMeters.isFinite = true
          ∧ Readable data.activityTitle :=
  reachesEditor_iff_of_stored (stored_commitAll before later hfresh hcommit)
    (wellRecorded_of_normalizes hnormalizes)

/-
A file with two points, and its commit to a database without recordings.
-/

section Sample

variable (elevation : Option F64)

def sampleFilePoint (latitude : ℚ) : Imports.GpxTrackPoint where
  lat := .fin latitude
  lon := .fin 7
  elevation
  time := none

def sampleRecordedFile : Imports.GpxParseResult where
  version := .gpx11
  metadata := ⟨none, none, none⟩
  tracks := [⟨none, [⟨[sampleFilePoint elevation 46, sampleFilePoint elevation 47]⟩]⟩]
  totalPoints := 2

def sampleTrackPoint (latitude : ℚ) : TrackPoint where
  coordinate := ⟨.fin latitude, .fin 7⟩
  elevation := elevation.map fun meters => { meters }
  timestamp := none

def sampleSegment : TrackSegment where
  points := [sampleTrackPoint elevation 46, sampleTrackPoint elevation 47]
  enough := Nat.le_refl 2

def sampleRecording : ImportCommitData where
  ownerId := ⟨⟨2⟩⟩
  importId := ⟨⟨1⟩⟩
  correlationId := ⟨11⟩
  sourceArtifactId := ⟨⟨6⟩⟩
  objectStorageKey := "key"
  contentType := "application/gpx+xml"
  fileSizeBytes := 1024
  checksum := Imports.sampleChecksum.value
  sourceRevisionId := ⟨⟨7⟩⟩
  revisionNumber := 1
  parserVersion := "1.0.0"
  recordedTrackId := ⟨⟨4⟩⟩
  segments := [sampleSegment elevation]
  boundingBox := ⟨⟨.fin 46, .fin 7⟩, ⟨.fin 47, .fin 7⟩⟩
  statistics := {
    distanceMeters := .fin 1
    durationSeconds := none
    elevationGainMeters := elevation.map fun _ => .fin 0
    elevationLossMeters := elevation.map fun _ => .fin 0
    pointCount := 2
    segmentCount := 1
  }
  previewGeometry := [⟨.fin 46, .fin 7⟩, ⟨.fin 47, .fin 7⟩]
  activityId := ⟨⟨5⟩⟩
  activityTitle := "Imported Activity"
  activityType := .hike
  startedAt := none
  endedAt := none
  routeVersionId := ⟨⟨9⟩⟩
  correctedStatistics := .calculateFromGeometry (fun _ => .fin 1) [⟨.fin 46, .fin 7⟩, ⟨.fin 47, .fin 7⟩]

def sampleFresh : Database := { Imports.sampleImports with imports := Imports.sampleQueue }

def sampleAfter : Database :=
  Rust.after (commit Imports.sampleExternals.commit (sampleRecording elevation)) sampleFresh

theorem commit_sampleRecording
    : (commit Imports.sampleExternals.commit (sampleRecording elevation)).run sampleFresh
        = .ok ⟨⟨5⟩⟩ (sampleAfter elevation) := rfl

theorem fresh_sampleFresh : Fresh sampleFresh := ⟨rfl, rfl⟩

-- the parts of a recording that are compared
def recordedParts (normalized : Imports.NormalizedTrack)
    : List (List TrackPoint) × BoundingBox × RecordedStatistics :=
  (normalized.recordedTrack.segments.map (·.points), normalized.recordedTrack.boundingBox,
    normalized.recordedTrack.statistics)

theorem normalizes_sampleRecording
    (h : (normalizeGpx Imports.sampleNormalization (sampleRecordedFile elevation)).toOption.map recordedParts
      = some ([(sampleSegment elevation).points], (sampleRecording elevation).boundingBox,
        (sampleRecording elevation).statistics))
    : Normalizes Imports.sampleNormalization (sampleRecordedFile elevation) (sampleRecording elevation) := by
  cases hnormalize : normalizeGpx Imports.sampleNormalization (sampleRecordedFile elevation) with
  | error e =>
    rw [hnormalize] at h
    cases h
  | ok normalized =>
    rw [hnormalize] at h
    obtain ⟨hpoints, hparts⟩ := Prod.mk.inj (Option.some.inj h)
    obtain ⟨hbox, hstatistics⟩ := Prod.mk.inj hparts
    have hinjective : Function.Injective TrackSegment.points := by
      rintro ⟨points, _⟩ ⟨_, _⟩ rfl
      rfl
    have hsegments : normalized.recordedTrack.segments = [sampleSegment elevation] :=
      List.map_injective_iff.mpr hinjective hpoints
    exact ⟨normalized, hnormalize, hsegments.symm, hbox.symm, hstatistics.symm⟩

theorem readable_sampleRecording : Readable (sampleRecording elevation).activityTitle := by
  have hread : (readTitle "Imported Activity").toOption.isSome = true := by decide
  show Readable "Imported Activity"
  unfold Readable
  cases hresult : readTitle "Imported Activity" with
  | error e =>
    rw [hresult] at hread
    cases hread
  | ok title => exact ⟨title, rfl⟩

end Sample

theorem recording_reaches_editor_iff_sampleRecording
    : ReachesEditor (sampleRecording none) (sampleAfter none) := by
  have hnormalizes : Normalizes Imports.sampleNormalization (sampleRecordedFile none) (sampleRecording none) :=
    normalizes_sampleRecording none (by decide +kernel)
  have hiff := recording_reaches_editor_iff hnormalizes fresh_sampleFresh [] [] (commit_sampleRecording none)
  refine hiff.mpr ⟨?_, rfl, readable_sampleRecording none⟩
  simp [NoElevations, sampleRecording, sampleSegment, sampleTrackPoint]

/--
Both points are at 1200 meters, and the editor has them without an elevation.
-/
theorem elevations_are_lost
    : Normalizes Imports.sampleNormalization (sampleRecordedFile (some (.fin 1200)))
          (sampleRecording (some (.fin 1200)))
        ∧ (commit Imports.sampleExternals.commit (sampleRecording (some (.fin 1200)))).run sampleFresh
          = .ok ⟨⟨5⟩⟩ (sampleAfter (some (.fin 1200)))
        ∧ recordedGeometry (sampleRecording (some (.fin 1200))).segments
          = [[⟨.fin 46, .fin 7, some (.fin 1200)⟩, ⟨.fin 47, .fin 7, some (.fin 1200)⟩]]
        ∧ ((Api.getRecordedRouteHandler ⟨⟨2⟩⟩ ⟨5⟩ .full (sampleAfter (some (.fin 1200)))).toOption.bind
            fun response => (RecordedRoute.parse response.body).map recordedRouteToGeometry)
          = some [[⟨.fin 46, .fin 7, none⟩, ⟨.fin 47, .fin 7, none⟩]]
        ∧ ¬ReachesEditor (sampleRecording (some (.fin 1200))) (sampleAfter (some (.fin 1200))) := by
  have hnormalizes : Normalizes Imports.sampleNormalization (sampleRecordedFile (some (.fin 1200)))
      (sampleRecording (some (.fin 1200))) := normalizes_sampleRecording _ (by decide +kernel)
  have hstored := stored_commitAll [] [] fresh_sampleFresh (commit_sampleRecording (some (.fin 1200)))
  refine ⟨hnormalizes, rfl, rfl, by decide, ?_⟩
  intro hreaches
  obtain ⟨hnone, _⟩ := (reachesEditor_iff_of_stored hstored (wellRecorded_of_normalizes hnormalizes)).mp hreaches
  cases hnone _ List.mem_cons_self _ List.mem_cons_self

end RouteEditor
