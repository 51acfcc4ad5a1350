import Haiker.Imports.Lemmas.Commit
import Haiker.RecordedActivity.Conservation
import Haiker.RecordedActivity.RecordedRoute
import Haiker.Sql.Index

/-!
This module contains what the repository of recorded routes reads of a track that an import has committed,
also when other imports have been committed since.
-/

open Rust
open ActivityCatalog.PgActivityRepository (readTitle)
open Imports (CommitExternals Database ImportCommitData RecordedTrackRow SourceRevisionRow)
open Imports.PgImportCommitter

namespace RecordedActivity

-- nothing is skipped
theorem filterMap_map_of_some {α β γ : Type} {write : α → β} {read : β → Option γ} {f : α → γ} {as : List α}
    (h : ∀ a ∈ as, read (write a) = some (f a)) : (as.map write).filterMap read = as.map f := by
  rw [List.filterMap_map, ← List.filterMap_eq_map]
  exact List.filterMap_congr h

namespace PgRecordedRouteRepository

/-
The columns of a track.
-/

theorem parseCoordinate_toJson {c : Coordinate} (h : c.InRange) : parseCoordinate c.toJson = some c := by
  have hlatitude := Json.toF64?_ofF64_of_isFinite (F64.isFinite_of_inRange h.1)
  have hlongitude := Json.toF64?_ofF64_of_isFinite (F64.isFinite_of_inRange h.2)
  have hnew : Coordinate.new c.latitude c.longitude = .ok c := coordinate_new_eq_ok_iff.mpr ⟨h, rfl⟩
  simp [parseCoordinate, Coordinate.toJson, Json.get?, List.lookup_cons, hlatitude, hlongitude, hnew,
    Except.toOption]

theorem parsePoint_toJson (write : Timestamp → String) {p : TrackPoint} (h : p.coordinate.InRange)
    : parsePoint (p.toJson write) = some p.coordinate := parseCoordinate_toJson h

theorem parseSegment_map {parsePoint : Json → Option Coordinate} {write : TrackPoint → Json}
    {points : List TrackPoint} (hne : points ≠ []) (h : ∀ p ∈ points, parsePoint (write p) = some p.coordinate)
    : parseSegment parsePoint (points.map write) = some ⟨points.map (·.coordinate)⟩ := by
  unfold parseSegment
  rw [filterMap_map_of_some h]
  simp [hne]

def routeSegment (segment : TrackSegment) : RouteSegment where
  points := segment.points.map (·.coordinate)

theorem parseGeometry_ofList (write : Timestamp → String) {segments : List TrackSegment}
    (h : ∀ segment ∈ segments, ∀ p ∈ segment.points, p.coordinate.InRange)
    : parseGeometry (.ofList (TrackSegment.toJson write) segments) = segments.map routeSegment := by
  unfold parseGeometry
  simp only [Json.ofList, Json.asArr?]
  apply filterMap_map_of_some
  intro segment hsegment
  apply parseSegment_map
  . exact List.ne_nil_of_length_pos (Nat.lt_of_lt_of_le Nat.zero_lt_two segment.enough)
  . exact fun p hp => parsePoint_toJson write (h segment hsegment p hp)

theorem readBoundingBox_toJson {box : BoundingBox} (hsouthWest : box.southWest.InRange)
    (hnorthEast : box.northEast.InRange) : readBoundingBox box.toJson = box := by
  simp [readBoundingBox, parseBoundingBox, BoundingBox.toJson, Json.get?, List.lookup_cons,
    parseCoordinate_toJson hsouthWest, parseCoordinate_toJson hnorthEast]

theorem asU32_asI32 (n : Nat) : asU32 (asI32 n) = n % UInt32.size := by
  unfold asU32 asI32
  rw [BitVec.ofInt_toInt, BitVec.toNat_ofNat]

/-
The track of an activity.
-/

/--
`REFERENCES` from the tracks to the revisions. That of the revisions to the activities is not declared.
-/
structure Linked (db : Database) : Prop where
  tracks : db.recordedTracks.Refers RecordedTrackRow.sourceRevisionId db.sourceRevisions
  revisions : db.sourceRevisions.Refers SourceRevisionRow.activityId db.activities

-- nothing has been imported
structure Fresh (db : Database) : Prop where
  tracks : db.recordedTracks = .empty
  revisions : db.sourceRevisions = .empty

theorem linked_of_fresh {db : Database} (h : Fresh db) : Linked db where
  tracks := by
    intro k row hrow
    rw [h.tracks] at hrow
    cases hrow
  revisions := by
    intro k row hrow
    rw [h.revisions] at hrow
    cases hrow

section Commit

variable {externals : CommitExternals} {data : ImportCommitData} {db db' : Database}

theorem find?_activities_of_committed (h : Committed externals data db db')
    : db.activities.find? data.activityId.val = none := by
  obtain ⟨_, hinsert, _⟩ := h.activities
  exact Sql.Table.find?_eq_none_of_insert? hinsert

theorem Linked.committed (hlinked : Linked db) (h : Committed externals data db db') : Linked db' where
  tracks := hlinked.tracks.insert? h.sourceRevisions h.recordedTracks rfl
  revisions := by
    intro k row hrow
    rw [h.find?_activities]
    split
    . exact ⟨_, rfl⟩
    . next hother =>
      obtain rfl | hold := Sql.Table.find?_of_insert? h.sourceRevisions hrow
      . exact absurd rfl hother
      . exact hlinked.revisions k row hold

theorem joined_of_committed (hlinked : Linked db) (h : Committed externals data db db')
    : joined db' = joined db ++ [(sourceRevision externals data, recordedTrack externals data)] := by
  have hnew : db'.sourceRevisions.find? (recordedTrack externals data).sourceRevisionId
      = some (sourceRevision externals data) := by
    rw [Sql.Table.find?_insert? h.sourceRevisions]
    exact if_pos rfl
  unfold joined
  rw [Sql.Table.rows_insert? h.recordedTracks, List.filterMap_append]
  congr 1
  swap
  . simp [hnew]
  apply List.filterMap_congr
  intro rt hrt
  obtain ⟨sr, hsr⟩ := hlinked.tracks rt.id rt (Sql.Table.find?_of_mem hrt)
  rw [hsr, Sql.Table.find?_insert?_of_some h.sourceRevisions hsr]

-- no track is of an activity that is not there
theorem filter_joined_of_none (hlinked : Linked db) {activityId : Uuid}
    (hnone : db.activities.find? activityId = none)
    : (joined db).filter (fun (sr, _) => sr.activityId = activityId) = [] := by
  rw [List.filter_eq_nil_iff]
  rintro ⟨sr, rt⟩ hmem hsame
  obtain ⟨rt', _, hjoin⟩ := List.mem_filterMap.mp hmem
  obtain ⟨sr', hsr, heq⟩ := Option.map_eq_some_iff.mp hjoin
  obtain ⟨rfl, rfl⟩ := Prod.mk.inj heq
  have hactivity : sr'.activityId = activityId := of_decide_eq_true hsame
  obtain ⟨row, hrow⟩ := hlinked.revisions _ _ hsr
  rw [hactivity, hnone] at hrow
  cases hrow

/--
The activity and its only track are as the commit has left them.
-/
structure Stored (externals : CommitExternals) (data : ImportCommitData) (db : Database) : Prop where
  linked : Linked db
  track : (joined db).filter (fun (sr, _) => sr.activityId = data.activityId.val)
    = [(sourceRevision externals data, recordedTrack externals data)]
  activity : db.activities.find? data.activityId.val
    = some (setSummaries externals data (activity externals data))

theorem stored_of_committed (hlinked : Linked db) (h : Committed externals data db db')
    : Stored externals data db' where
  linked := hlinked.committed h
  track := by
    rw [joined_of_committed hlinked h, List.filter_append,
      filter_joined_of_none hlinked (find?_activities_of_committed h), List.nil_append]
    apply List.filter_eq_self.mpr
    intro row hrow
    obtain rfl := List.mem_singleton.mp hrow
    exact decide_eq_true rfl
  activity := by
    rw [h.find?_activities]
    exact if_pos rfl

theorem Stored.committed (hstored : Stored externals data db) {externals' : CommitExternals}
    {data' : ImportCommitData} (h : Committed externals' data' db db') : Stored externals data db' := by
  have hother : data.activityId.val ≠ data'.activityId.val := by
    intro hsame
    have hnone := find?_activities_of_committed h
    rw [← hsame, hstored.activity] at hnone
    cases hnone
  constructor
  . exact hstored.linked.committed h
  . rw [joined_of_committed hstored.linked h, List.filter_append, hstored.track]
    have hnot : ¬(sourceRevision externals' data').activityId = data.activityId.val := Ne.symm hother
    simp [hnot]
  . rw [h.find?_activities, if_neg hother]
    exact hstored.activity

/--
A sequence of commits, of which some may fail.
-/
def commitAll (commits : List (CommitExternals × ImportCommitData)) (db : Database) : Database :=
  commits.foldl (fun db (externals, data) => Rust.after (commit externals data) db) db

-- what every commit keeps is kept by all of them
theorem commitAll_induction {P : Database → Prop}
    (hstep : ∀ externals data db db', P db → Committed externals data db db' → P db')
    (commits : List (CommitExternals × ImportCommitData)) (h : P db) : P (commitAll commits db) := by
  induction commits generalizing db with
  | nil => exact h
  | cons first commits ih =>
    obtain ⟨externals, data⟩ := first
    apply ih
    simp only [Rust.after]
    rcases commit_cases externals data db with ⟨e, hrun⟩ | ⟨db', hrun, hcommitted⟩
    . rw [hrun]
      exact h
    . rw [hrun]
      exact hstep externals data db db' h hcommitted

theorem stored_commitAll (before later : List (CommitExternals × ImportCommitData)) (hfresh : Fresh db)
    {activityId : ActivityCatalog.ActivityId}
    (h : (commit externals data).run (commitAll before db) = .ok activityId db')
    : Stored externals data (commitAll later db') := by
  have hlinked : Linked (commitAll before db) :=
    commitAll_induction (fun _ _ _ _ => Linked.committed) before (linked_of_fresh hfresh)
  have hcommitted : Committed externals data (commitAll before db) db' := by
    rcases commit_cases externals data (commitAll before db) with ⟨e, hrun⟩ | ⟨db'', hrun, hcommitted⟩
    . rw [hrun] at h
      cases h
    . rw [hrun] at h
      cases h
      exact hcommitted
  exact commitAll_induction (fun _ _ _ _ hstored => hstored.committed) later
    (stored_of_committed hlinked hcommitted)

theorem findTrack_of_stored (h : Stored externals data db)
    : findTrack data.activityId.val db = some (recordedTrack externals data) := by
  unfold findTrack
  rw [h.track]
  rfl

end Commit

end PgRecordedRouteRepository

/-
A recording that has been normalized.
-/

/--
What is committed is what the normalization makes of a file.
-/
def Normalizes (normalization : NormalizationExternals) (parseResult : Imports.GpxParseResult)
    (data : ImportCommitData) : Prop :=
  ∃ normalized, normalizeGpx normalization parseResult = .ok normalized
    ∧ data.segments = normalized.recordedTrack.segments
    ∧ data.boundingBox = normalized.recordedTrack.boundingBox
    ∧ data.statistics = normalized.recordedTrack.statistics

def NoElevations (segments : List TrackSegment) : Prop :=
  ∀ segment ∈ segments, ∀ p ∈ segment.points, p.elevation = none

structure WellRecorded (data : ImportCommitData) : Prop where
  nonempty : data.segments ≠ []
  inRange : ∀ segment ∈ data.segments, ∀ p ∈ segment.points, p.coordinate.InRange
  southWest : data.boundingBox.southWest.InRange
  northEast : data.boundingBox.northEast.InRange
  elevations : NoElevations data.segments →
    data.statistics.elevationGainMeters = none ∧ data.statistics.elevationLossMeters = none

section Normalized

variable {normalization : NormalizationExternals} {parseResult : Imports.GpxParseResult}
  {data : ImportCommitData}

theorem inRange_corners {coords : List Coordinate} {box : BoundingBox} (hrange : ∀ c ∈ coords, c.InRange)
    (h : box.Bounds coords) : box.southWest.InRange ∧ box.northEast.InRange := by
  obtain ⟨south, hsouth, hsouth'⟩ := h.south
  obtain ⟨west, hwest, hwest'⟩ := h.west
  obtain ⟨north, hnorth, hnorth'⟩ := h.north
  obtain ⟨east, heast, heast'⟩ := h.east
  refine ⟨⟨?_, ?_⟩, ?_, ?_⟩
  . rw [← hsouth']
    exact (hrange south hsouth).1
  . rw [← hwest']
    exact (hrange west hwest).2
  . rw [← hnorth']
    exact (hrange north hnorth).1
  . rw [← heast']
    exact (hrange east heast).2

theorem calculateElevationStats_of_none {elevations : List (Option Elevation)} (h : ∀ e ∈ elevations, e = none)
    : calculateElevationStats elevations = (none, none) := by
  have hnil : elevations.filterMap id = [] := List.filterMap_eq_nil_iff.mpr h
  unfold calculateElevationStats
  rw [hnil]
  rfl

theorem wellRecorded_of_normalizes (h : Normalizes normalization parseResult data) : WellRecorded data := by
  obtain ⟨normalized, hnormalize, hsegments, hbox, hstatistics⟩ := h
  have hfrom := normalizedFrom_of_normalizeGpx hnormalize
  have hrange := inRange_of_normalizeGpx hnormalize
  have hpoints := hfrom.segments
  rw [← hsegments] at hpoints
  have hcoords : ∀ c ∈ ((longEnough (segmentsOf parseResult)).flatMap (·.points)).map coordinateOf,
      c.InRange := by
    intro c hc
    obtain ⟨pt, hpt, rfl⟩ := List.mem_map.mp hc
    obtain ⟨segment, hsegment, hpt⟩ := List.mem_flatMap.mp hpt
    exact hrange segment hsegment pt hpt
  have hcorners := inRange_corners hcoords (BoundingBox.bounds_of_fromCoordinates hcoords hfrom.boundingBox)
  rw [← hbox] at hcorners
  constructor
  . rw [hsegments]
    exact normalized.recordedTrack.nonempty
  . intro segment hsegment p hp
    have hmem : segment.points ∈ data.segments.map (·.points) := List.mem_map_of_mem hsegment
    rw [hpoints] at hmem
    obtain ⟨input, hinput, heq⟩ := List.mem_map.mp hmem
    rw [← heq] at hp
    obtain ⟨pt, hpt, rfl⟩ := List.mem_map.mp hp
    exact hrange input hinput pt hpt
  . exact hcorners.1
  . exact hcorners.2
  . intro hnone
    rw [hstatistics]
    refine Prod.mk.inj (hfrom.elevations.trans (calculateElevationStats_of_none ?_))
    intro e he
    obtain ⟨pt, hpt, rfl⟩ := List.mem_map.mp he
    obtain ⟨input, hinput, hpt⟩ := List.mem_flatMap.mp hpt
    have hmem : input.points.map (toTrackPoint normalization) ∈ data.segments.map (·.points) := by
      rw [hpoints]
      exact List.mem_map_of_mem hinput
    obtain ⟨segment, hsegment, heq⟩ := List.mem_map.mp hmem
    apply hnone segment hsegment
    rw [heq]
    exact List.mem_map_of_mem hpt

end Normalized

/-
The query.
-/

section Query

variable {externals : CommitExternals} {data : ImportCommitData} {db : Database}

-- the cut of a title that is too long is not inside of a character
def Readable (title : String) : Prop := ∃ read, readTitle title = .ok read

def committedStatistics (statistics : RecordedStatistics) : RouteStatistics where
  distanceMeters := statistics.distanceMeters
  elevationGainMeters := statistics.elevationGainMeters
  elevationLossMeters := statistics.elevationLossMeters
  pointCount := statistics.pointCount % UInt32.size
  segmentCount := statistics.segmentCount % UInt32.size

def committedRoute (data : ImportCommitData) : RecordedRouteData where
  activityId := data.activityId.val
  segments := data.segments.map PgRecordedRouteRepository.routeSegment
  boundingBox := data.boundingBox
  statistics := committedStatistics data.statistics

def committedPreview (data : ImportCommitData) : RecordedRoutePreview where
  activityId := data.activityId.val
  boundingBox := data.boundingBox
  statistics := committedStatistics data.statistics

def committedResult (data : ImportCommitData) (preview : Bool) : RecordedRouteResult :=
  if preview then .preview (committedPreview data) else .full (committedRoute data)

theorem statistics_recordedTrack (externals : CommitExternals) (data : ImportCommitData)
    : PgRecordedRouteRepository.statistics (recordedTrack externals data)
        = committedStatistics data.statistics := by
  simp [PgRecordedRouteRepository.statistics, committedStatistics, recordedTrack,
    PgRecordedRouteRepository.asU32_asI32]

open ActivityCatalog.PgActivityRepository in
theorem rowToActivity_cases (row : ActivityCatalog.ActivityRow)
    : (∃ fault, readTitle row.title = .error fault ∧ rowToActivity row = .error fault)
        ∨ ∃ title a, readTitle row.title = .ok title ∧ rowToActivity row = .ok a ∧ a.id.val = row.id
          ∧ a.ownerId.val = row.ownerId ∧ a.lifecycleState = parseLifecycleState row.lifecycleState := by
  unfold rowToActivity
  cases readTitle row.title with
  | error fault => exact .inl ⟨fault, rfl, rfl⟩
  | ok title => exact .inr ⟨title, _, rfl, rfl, rfl, rfl, rfl⟩

open PgRecordedRouteRepository in
theorem getRecordedRoute_of_stored (h : Stored externals data db) (hrecorded : WellRecorded data)
    (preview : Bool)
    : getRecordedRoute data.activityId.val data.ownerId preview db
        = ((readTitle data.activityTitle).mapError RecordedRouteError.ofCatalog).map fun _ =>
            committedResult data preview := by
  have hbox : readBoundingBox (recordedTrack externals data).boundingBoxJson = data.boundingBox :=
    readBoundingBox_toJson hrecorded.southWest hrecorded.northEast
  have hgeometry : parseGeometry (recordedTrack externals data).geometryJson = data.segments.map routeSegment :=
    parseGeometry_ofList externals.timestampToString hrecorded.inRange
  have hfull : PgRecordedRouteRepository.getRecordedRoute data.activityId.val db
      = some (committedRoute data) := by
    unfold PgRecordedRouteRepository.getRecordedRoute
    rw [findTrack_of_stored h, Option.map_some, hbox, hgeometry, statistics_recordedTrack]
    rfl
  have hpreview : getRecordedRoutePreview data.activityId.val db = some (committedPreview data) := by
    unfold getRecordedRoutePreview
    rw [findTrack_of_stored h, Option.map_some, hbox, statistics_recordedTrack]
    rfl
  have htitle : (setSummaries externals data (activity externals data)).title = data.activityTitle := rfl
  unfold RecordedActivity.getRecordedRoute ActivityCatalog.PgActivityRepository.findById
  rw [h.activity, ← htitle]
  rcases rowToActivity_cases (setSummaries externals data (activity externals data)) with
    ⟨fault, hread, hrow⟩ | ⟨title, found, hread, hrow, hid, howner, hstate⟩
  . simp only [hread, hrow]
    rfl
  . have hid : found.id.val = data.activityId.val := hid
    have howner : found.ownerId = data.ownerId := congrArg Identity.UserId.mk howner
    have hstate : found.lifecycleState = .active := hstate
    have hfilter : (some found).filter (fun a => a.ownerId = data.ownerId ∧ a.lifecycleState ≠ .deleted)
        = some found := by
      simp [howner, hstate]
    simp only [hread, hrow, Except.map, Except.mapError, bind, Except.bind, hfilter, hid, hfull, hpreview]
    cases preview with
    | false => rfl
    | true => rfl

end Query

end RecordedActivity
