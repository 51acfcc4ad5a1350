import Mathlib.Algebra.Order.BigOperators.Group.List
import Haiker.RecordedActivity.Normalization

/-!
This module contains what the normalization makes of the coordinates of a file, and the distances along a
track that is put together from segments.
-/

open Rust
open Imports (GpxParseResult GpxTrackPoint GpxTrackSegment NormalizedTrack)

namespace RecordedActivity

/-
The segments that are long enough.
-/

def coordinateOf (pt : GpxTrackPoint) : Coordinate where
  latitude := pt.lat
  longitude := pt.lon

def kept (segments : List GpxTrackSegment) : List (List Coordinate) :=
  (segments.filter fun segment => 2 ≤ segment.points.length).map fun segment =>
    segment.points.map coordinateOf

def recordedCoordinates (segments : List TrackSegment) : List (List Coordinate) :=
  segments.map fun segment => segment.points.map (·.coordinate)

-- the distances between neighbours
def distances (distance : Coordinate → Coordinate → F64) (coords : List Coordinate) : List F64 :=
  (adjacent coords).map fun (a, b) => distance a b

section Kept

-- the segments of a file, track by track
def segmentsOf (parseResult : GpxParseResult) : List GpxTrackSegment :=
  parseResult.tracks.flatMap (·.segments)

def longEnough (segments : List GpxTrackSegment) : List GpxTrackSegment :=
  segments.filter fun segment => 2 ≤ segment.points.length

variable (externals : NormalizationExternals)

-- `gpx_point_to_track_point` of a point in range
def toTrackPoint (pt : GpxTrackPoint) : TrackPoint where
  coordinate := coordinateOf pt
  elevation := pt.elevation.map fun meters => { meters }
  timestamp := pt.time.bind externals.parseTimestamp

def timestampsOf (points : List GpxTrackPoint) : List Timestamp :=
  points.filterMap fun pt => (toTrackPoint externals pt).timestamp

def elevationsOf (points : List GpxTrackPoint) : List (Option Elevation) :=
  points.map fun pt => (toTrackPoint externals pt).elevation

variable {externals}

theorem coordinate_new_eq_ok_iff {latitude longitude : F64} {c : Coordinate}
    : Coordinate.new latitude longitude = .ok c ↔ c.InRange ∧ c = ⟨latitude, longitude⟩ := by
  unfold Coordinate.new Coordinate.InRange
  split
  . next hlat =>
    rw [Bool.not_eq_true'] at hlat
    simp only [reduceCtorEq, false_iff, not_and]
    rintro ⟨hlatitude, _⟩ rfl
    rw [hlat] at hlatitude
    cases hlatitude
  . split
    . next hlon =>
      rw [Bool.not_eq_true'] at hlon
      simp only [reduceCtorEq, false_iff, not_and]
      rintro ⟨_, hlongitude⟩ rfl
      rw [hlon] at hlongitude
      cases hlongitude
    . next hlat hlon =>
      simp only [Bool.not_eq_true', Bool.not_eq_false] at hlat hlon
      constructor
      . intro h
        obtain rfl := Except.ok.inj h
        exact ⟨⟨hlat, hlon⟩, rfl⟩
      . rintro ⟨_, rfl⟩
        rfl

theorem trackPoint_eq_ok_iff {pt : GpxTrackPoint} {p : TrackPoint}
    : Loop.trackPoint externals pt = .ok p
        ↔ (coordinateOf pt).InRange ∧ p = toTrackPoint externals pt := by
  unfold Loop.trackPoint
  cases hnew : Coordinate.new pt.lat pt.lon with
  | error e =>
    simp only [bind, Except.bind, reduceCtorEq, false_iff, not_and]
    intro hrange
    have hok : Coordinate.new pt.lat pt.lon = .ok (coordinateOf pt) :=
      coordinate_new_eq_ok_iff.mpr ⟨hrange, rfl⟩
    rw [hnew] at hok
    cases hok
  | ok c =>
    obtain ⟨hrange, rfl⟩ := coordinate_new_eq_ok_iff.mp hnew
    constructor
    . intro h
      exact ⟨hrange, (Except.ok.inj h).symm⟩
    . rintro ⟨_, rfl⟩
      rfl

theorem mapM_trackPoint_eq_ok_iff {pts : List GpxTrackPoint} {points : List TrackPoint}
    : pts.mapM (Loop.trackPoint externals) = .ok points
        ↔ (∀ pt ∈ pts, (coordinateOf pt).InRange) ∧ points = pts.map (toTrackPoint externals) := by
  induction pts generalizing points with
  | nil =>
    rw [List.mapM_nil]
    constructor
    . intro h
      exact ⟨fun pt hpt => absurd hpt List.not_mem_nil, (Except.ok.inj h).symm⟩
    . rintro ⟨_, rfl⟩
      rfl
  | cons pt pts ih =>
    rw [List.mapM_cons, List.forall_mem_cons, List.map_cons]
    cases hpt : Loop.trackPoint externals pt with
    | error e =>
      simp only [bind, Except.bind, reduceCtorEq, false_iff, not_and]
      rintro ⟨hrange, _⟩
      rw [trackPoint_eq_ok_iff.mpr ⟨hrange, rfl⟩] at hpt
      cases hpt
    | ok p =>
      obtain ⟨hrange, rfl⟩ := trackPoint_eq_ok_iff.mp hpt
      cases hpts : pts.mapM (Loop.trackPoint externals) with
      | error e =>
        simp only [bind, Except.bind, reduceCtorEq, false_iff, not_and]
        rintro ⟨_, hranges⟩
        rw [ih.mpr ⟨hranges, rfl⟩] at hpts
        cases hpts
      | ok rest =>
        obtain ⟨hranges, rfl⟩ := ih.mp hpts
        constructor
        . intro h
          exact ⟨⟨hrange, hranges⟩, (Except.ok.inj h).symm⟩
        . rintro ⟨_, rfl⟩
          rfl

theorem adjacent_map {α β : Type} (f : α → β) (as : List α)
    : adjacent (as.map f) = (adjacent as).map fun (a, b) => (f a, f b) := by
  induction as with
  | nil => rfl
  | cons a as ih =>
    cases as with
    | nil => rfl
    | cons b as =>
      simp only [List.map_cons, adjacent] at ih ⊢
      rw [ih]

/--
What the loop has got together from so many segments.
-/
structure Loop.Holds (externals : NormalizationExternals) (loop : Loop) (input : List GpxTrackSegment)
    : Prop where
  segments : loop.segments.map (·.points)
    = input.map fun segment => segment.points.map (toTrackPoint externals)
  coordinates : loop.coordinates = (input.flatMap (·.points)).map coordinateOf
  elevations : loop.elevations = elevationsOf externals (input.flatMap (·.points))
  timestamps : loop.timestamps = timestampsOf externals (input.flatMap (·.points))
  totalPoints : loop.totalPoints = (input.flatMap (·.points)).length
  totalDistance : loop.totalDistance
    = ((kept input).flatMap (distances externals.distance)).foldl F64.add (.fin 0)

theorem Loop.holds_start : Loop.start.Holds externals [] := ⟨rfl, rfl, rfl, rfl, rfl, rfl⟩

theorem Loop.Holds.addPoints {loop : Loop} {segments : List GpxTrackSegment} {segment : GpxTrackSegment}
    (h : loop.Holds externals segments) {trackSegment : TrackSegment} (hlong : 2 ≤ segment.points.length)
    (hsame : trackSegment.points = segment.points.map (toTrackPoint externals))
    : (loop.addPoints externals (segment.points.map (toTrackPoint externals)) trackSegment).Holds externals
        (segments ++ [segment]) := by
  have hflat : (segments ++ [segment]).flatMap (·.points) = segments.flatMap (·.points) ++ segment.points := by
    rw [List.flatMap_append, List.flatMap_singleton]
  have hkept : kept (segments ++ [segment]) = kept segments ++ [segment.points.map coordinateOf] := by
    simp [kept, List.filter_append, hlong]
  constructor
  . simp only [Loop.addPoints, List.map_append, List.map_cons, List.map_nil, h.segments, hsame]
  . simp only [Loop.addPoints, hflat, List.map_append, h.coordinates, List.map_map]
    rfl
  . simp only [Loop.addPoints, hflat, elevationsOf, List.map_append, h.elevations, List.map_map]
    rfl
  . simp only [Loop.addPoints, hflat, timestampsOf, List.filterMap_append, h.timestamps, List.filterMap_map]
    rfl
  . simp only [Loop.addPoints, hflat, List.length_append, h.totalPoints, List.length_map]
  . simp only [Loop.addPoints, hkept, List.flatMap_append, List.flatMap_singleton, List.foldl_append,
      h.totalDistance, distances, adjacent_map, List.map_map, List.foldl_map]
    rfl

-- what a segment does to what has been got together
theorem Loop.step_eq_ok_iff {loop loop' : Loop} {segment : GpxTrackSegment}
    : loop.step externals segment = .ok loop'
        ↔ segment.points.length < 2 ∧ loop' = loop
          ∨ 2 ≤ segment.points.length ∧ (∀ pt ∈ segment.points, (coordinateOf pt).InRange)
            ∧ ∃ trackSegment : TrackSegment,
              trackSegment.points = segment.points.map (toTrackPoint externals)
              ∧ loop' = loop.addPoints externals (segment.points.map (toTrackPoint externals))
                  trackSegment := by
  unfold Loop.step
  split
  . next hshort =>
    constructor
    . intro h
      exact .inl ⟨hshort, (Except.ok.inj h).symm⟩
    . rintro (⟨_, rfl⟩ | ⟨hlong, _⟩)
      . rfl
      . omega
  . next hlong =>
    cases hpoints : segment.points.mapM (Loop.trackPoint externals) with
    | error e =>
      simp only [bind, Except.bind, reduceCtorEq, false_iff, not_or, not_and]
      refine ⟨fun hshort => absurd hshort hlong, ?_⟩
      intro _ hrange
      rw [mapM_trackPoint_eq_ok_iff.mpr ⟨hrange, rfl⟩] at hpoints
      cases hpoints
    | ok points =>
      obtain ⟨hrange, rfl⟩ := mapM_trackPoint_eq_ok_iff.mp hpoints
      have hlength : 2 ≤ (segment.points.map (toTrackPoint externals)).length := by
        rw [List.length_map]
        omega
      have hnew : TrackSegment.new (segment.points.map (toTrackPoint externals)) = .ok ⟨_, hlength⟩ :=
        dif_pos hlength
      simp only [bind, Except.bind, hnew]
      constructor
      . intro h
        exact .inr ⟨by omega, hrange, _, rfl, (Except.ok.inj h).symm⟩
      . rintro (⟨hshort, _⟩ | ⟨_, _, trackSegment, hsame, rfl⟩)
        . omega
        . cases trackSegment with
          | mk points enough =>
            obtain rfl : points = _ := hsame
            rfl

theorem Loop.Holds.run {loop loop' : Loop} {done segments : List GpxTrackSegment}
    (h : loop.Holds externals done) (hrun : segments.foldlM (Loop.step externals) loop = .ok loop')
    : loop'.Holds externals (done ++ longEnough segments) := by
  induction segments generalizing loop done with
  | nil =>
    obtain rfl := Except.ok.inj hrun
    rw [longEnough, List.filter_nil, List.append_nil]
    exact h
  | cons segment segments ih =>
    rw [List.foldlM_cons] at hrun
    cases hstep : loop.step externals segment with
    | error e =>
      rw [hstep] at hrun
      cases hrun
    | ok next =>
      rw [hstep] at hrun
      rcases Loop.step_eq_ok_iff.mp hstep with ⟨hshort, rfl⟩ | ⟨hlong, _, trackSegment, hsame, rfl⟩
      . have hskip : longEnough (segment :: segments) = longEnough segments :=
          List.filter_cons_of_neg (by simpa using hshort)
        rw [hskip]
        exact ih h hrun
      . have hkeep : longEnough (segment :: segments) = segment :: longEnough segments :=
          List.filter_cons_of_pos (by simpa using hlong)
        have hrest := ih (h.addPoints hlong hsame) hrun
        rw [hkeep]
        rw [List.append_assoc, List.singleton_append] at hrest
        exact hrest

theorem Loop.exists_run {segments : List GpxTrackSegment}
    (hrange : ∀ segment ∈ segments, ∀ pt ∈ segment.points, (coordinateOf pt).InRange) (loop : Loop)
    : ∃ loop', segments.foldlM (Loop.step externals) loop = .ok loop' := by
  induction segments generalizing loop with
  | nil => exact ⟨loop, rfl⟩
  | cons segment segments ih =>
    have hfirst := hrange segment List.mem_cons_self
    obtain ⟨next, hnext⟩ : ∃ next, loop.step externals segment = .ok next := by
      by_cases hlong : 2 ≤ segment.points.length
      . have hlength : 2 ≤ (segment.points.map (toTrackPoint externals)).length := by
          rw [List.length_map]
          exact hlong
        exact ⟨_, Loop.step_eq_ok_iff.mpr (.inr ⟨hlong, hfirst, ⟨_, hlength⟩, rfl, rfl⟩)⟩
      . exact ⟨loop, Loop.step_eq_ok_iff.mpr (.inl ⟨Nat.not_le.mp hlong, rfl⟩)⟩
    obtain ⟨loop', hrun⟩ := ih (fun s hs => hrange s (List.mem_cons_of_mem _ hs)) next
    refine ⟨loop', ?_⟩
    rw [List.foldlM_cons, hnext]
    exact hrun

-- no point out of range gets through
theorem Loop.inRange_of_run {loop loop' : Loop} {segments : List GpxTrackSegment}
    (hrun : segments.foldlM (Loop.step externals) loop = .ok loop')
    : ∀ segment ∈ longEnough segments, ∀ pt ∈ segment.points, (coordinateOf pt).InRange := by
  induction segments generalizing loop with
  | nil => exact fun segment hsegment => absurd hsegment List.not_mem_nil
  | cons segment segments ih =>
    rw [List.foldlM_cons] at hrun
    cases hstep : loop.step externals segment with
    | error e =>
      rw [hstep] at hrun
      cases hrun
    | ok next =>
      rw [hstep] at hrun
      have hrest := ih hrun
      rcases Loop.step_eq_ok_iff.mp hstep with ⟨hshort, _⟩ | ⟨hlong, hrange, _⟩
      . have hskip : longEnough (segment :: segments) = longEnough segments :=
          List.filter_cons_of_neg (by simpa using hshort)
        rw [hskip]
        exact hrest
      . have hkeep : longEnough (segment :: segments) = segment :: longEnough segments :=
          List.filter_cons_of_pos (by simpa using hlong)
        rw [hkeep, List.forall_mem_cons]
        exact ⟨hrange, hrest⟩

theorem simplifyPreview_of_le {coords : List Coordinate} {maxPoints : Nat} (h : coords.length ≤ maxPoints)
    : simplifyPreview coords maxPoints = coords := if_pos h

theorem length_simplifyPreview_le (coords : List Coordinate) {maxPoints : Nat} (h : 2 ≤ maxPoints)
    : (simplifyPreview coords maxPoints).length ≤ maxPoints := by
  unfold simplifyPreview
  split
  . assumption
  . rw [if_neg (not_lt.mpr h)]
    apply (List.length_filterMap_le ..).trans
    rw [List.length_range]

/--
What is made of the segments that are kept.
-/
structure NormalizedFrom (externals : NormalizationExternals) (input : List GpxTrackSegment)
    (normalized : NormalizedTrack) : Prop where
  segments : normalized.recordedTrack.segments.map (·.points)
    = input.map fun segment => segment.points.map (toTrackPoint externals)
  boundingBox : BoundingBox.fromCoordinates ((input.flatMap (·.points)).map coordinateOf)
    = some normalized.recordedTrack.boundingBox
  distanceMeters : normalized.recordedTrack.statistics.distanceMeters
    = ((kept input).flatMap (distances externals.distance)).foldl F64.add (.fin 0)
  durationSeconds : normalized.recordedTrack.statistics.durationSeconds
    = durationSeconds ((timestampsOf externals (input.flatMap (·.points))).insertionSort (· ≤ ·))
  elevations : (normalized.recordedTrack.statistics.elevationGainMeters,
      normalized.recordedTrack.statistics.elevationLossMeters)
    = calculateElevationStats (elevationsOf externals (input.flatMap (·.points)))
  pointCount : normalized.recordedTrack.statistics.pointCount = (input.flatMap (·.points)).length
  segmentCount : normalized.recordedTrack.statistics.segmentCount = input.length
  previewGeometry : normalized.previewGeometry
    = simplifyPreview ((input.flatMap (·.points)).map coordinateOf) MAX_PREVIEW_POINTS
  startedAt : normalized.startedAt
    = ((timestampsOf externals (input.flatMap (·.points))).insertionSort (· ≤ ·)).head?
  endedAt : normalized.endedAt
    = ((timestampsOf externals (input.flatMap (·.points))).insertionSort (· ≤ ·)).getLast?

theorem Loop.Holds.length_segments {loop : Loop} {segments : List GpxTrackSegment}
    (h : loop.Holds externals segments) : loop.segments.length = segments.length := by
  have hlength := congrArg List.length h.segments
  rw [List.length_map, List.length_map] at hlength
  exact hlength

theorem Loop.Holds.finish_nil {loop : Loop} {parseResult : GpxParseResult} (h : loop.Holds externals [])
    : loop.finish externals parseResult = .error .noSegments := by
  have hnil : loop.segments = [] := List.eq_nil_of_length_eq_zero h.length_segments
  unfold Loop.finish
  rw [hnil]
  rfl

theorem Loop.Holds.finish {loop : Loop} {segments : List GpxTrackSegment} (parseResult : GpxParseResult)
    (h : loop.Holds externals segments) (hne : segments.flatMap (·.points) ≠ [])
    : ∃ normalized, loop.finish externals parseResult = .ok normalized
        ∧ NormalizedFrom externals segments normalized := by
  have hsegments : loop.segments ≠ [] := by
    intro hnil
    have hlength := h.length_segments
    rw [hnil] at hlength
    obtain rfl := List.eq_nil_of_length_eq_zero hlength.symm
    exact hne rfl
  have hempty : loop.segments.isEmpty = false := by simpa using hsegments
  obtain ⟨box, hbox⟩ : ∃ box, BoundingBox.fromCoordinates loop.coordinates = some box := by
    have hcoordinates : loop.coordinates.isEmpty = false := by
      rw [h.coordinates]
      simpa using hne
    unfold BoundingBox.fromCoordinates
    rw [hcoordinates]
    exact ⟨_, rfl⟩
  unfold Loop.finish RecordedTrack.new
  simp only [hempty, Bool.false_eq_true, if_false, hbox, dif_neg hsegments]
  refine ⟨_, rfl, ?_⟩
  exact {
    segments := h.segments
    boundingBox := by rw [← h.coordinates, hbox]
    distanceMeters := h.totalDistance
    durationSeconds := by rw [← h.timestamps]
    elevations := by rw [← h.elevations]
    pointCount := h.totalPoints
    segmentCount := h.length_segments
    previewGeometry := by rw [← h.coordinates]
    startedAt := by rw [← h.timestamps]
    endedAt := by rw [← h.timestamps]
  }

theorem flatMap_points_ne_nil {segments : List GpxTrackSegment} (hne : longEnough segments ≠ [])
    : (longEnough segments).flatMap (·.points) ≠ [] := by
  obtain ⟨segment, rest, heq⟩ := List.exists_cons_of_ne_nil hne
  have hmem : segment ∈ longEnough segments := heq ▸ List.mem_cons_self
  have hlong : 2 ≤ segment.points.length := by simpa using (List.mem_filter.mp hmem).2
  rw [heq, List.flatMap_cons]
  intro hnil
  rw [(List.append_eq_nil_iff.mp hnil).1] at hlong
  simp at hlong

theorem normalizeGpx_cases {parseResult : GpxParseResult} {loop : Loop}
    (hrun : Loop.run externals parseResult = .ok loop)
    : (longEnough (segmentsOf parseResult) = []
          ∧ normalizeGpx externals parseResult = .error .noSegments)
        ∨ ∃ normalized, normalizeGpx externals parseResult = .ok normalized
          ∧ NormalizedFrom externals (longEnough (segmentsOf parseResult)) normalized := by
  have hholds : loop.Holds externals (longEnough (segmentsOf parseResult)) := Loop.holds_start.run hrun
  have hfinish : normalizeGpx externals parseResult = loop.finish externals parseResult := by
    unfold normalizeGpx
    rw [hrun]
    rfl
  rw [hfinish]
  by_cases hne : longEnough (segmentsOf parseResult) = []
  . rw [hne] at hholds
    exact .inl ⟨hne, hholds.finish_nil⟩
  . exact .inr (hholds.finish parseResult (flatMap_points_ne_nil hne))

theorem normalizedFrom_of_normalizeGpx {parseResult : GpxParseResult} {normalized : NormalizedTrack}
    (h : normalizeGpx externals parseResult = .ok normalized)
    : NormalizedFrom externals (longEnough (segmentsOf parseResult)) normalized := by
  cases hrun : Loop.run externals parseResult with
  | error e =>
    unfold normalizeGpx at h
    rw [hrun] at h
    cases h
  | ok loop =>
    rcases normalizeGpx_cases hrun with ⟨_, herror⟩ | ⟨normalized', hok, hfrom⟩
    . rw [herror] at h
      cases h
    . rw [hok] at h
      obtain rfl := Except.ok.inj h
      exact hfrom

theorem suggestedTitle_of_normalizeGpx {parseResult : GpxParseResult} {normalized : NormalizedTrack}
    (h : normalizeGpx externals parseResult = .ok normalized)
    : normalized.suggestedTitle = suggestedTitle parseResult := by
  unfold normalizeGpx at h
  cases hrun : Loop.run externals parseResult with
  | error e =>
    rw [hrun] at h
    cases h
  | ok loop =>
    rw [hrun] at h
    have hfinish : loop.finish externals parseResult = .ok normalized := h
    unfold Loop.finish RecordedTrack.new at hfinish
    by_cases hsegments : loop.segments = []
    . rw [hsegments] at hfinish
      cases hfinish
    . have hempty : loop.segments.isEmpty = false := by simpa using hsegments
      simp only [hempty, Bool.false_eq_true, if_false, dif_neg hsegments] at hfinish
      cases hbox : BoundingBox.fromCoordinates loop.coordinates with
      | none =>
        rw [hbox] at hfinish
        cases hfinish
      | some boundingBox =>
        rw [hbox] at hfinish
        obtain rfl := Except.ok.inj hfinish
        rfl

theorem inRange_of_normalizeGpx {parseResult : GpxParseResult} {normalized : NormalizedTrack}
    (h : normalizeGpx externals parseResult = .ok normalized)
    : ∀ segment ∈ longEnough (segmentsOf parseResult), ∀ pt ∈ segment.points, (coordinateOf pt).InRange := by
  cases hrun : Loop.run externals parseResult with
  | error e =>
    unfold normalizeGpx at h
    rw [hrun] at h
    cases h
  | ok loop => exact Loop.inRange_of_run hrun

/--
What is normalized, as far as the coordinates and the distances go.
-/
structure Normalized (distance : Coordinate → Coordinate → F64) (coords : List (List Coordinate))
    (normalized : NormalizedTrack) : Prop where
  segments : recordedCoordinates normalized.recordedTrack.segments = coords
  pointCount : normalized.recordedTrack.statistics.pointCount = coords.flatten.length
  distanceMeters : normalized.recordedTrack.statistics.distanceMeters
    = (coords.flatMap (distances distance)).foldl F64.add (.fin 0)
  previewGeometry : normalized.previewGeometry = simplifyPreview coords.flatten MAX_PREVIEW_POINTS

theorem kept_longEnough (segments : List GpxTrackSegment) : kept (longEnough segments) = kept segments := by
  simp [kept, longEnough]

theorem flatten_kept (segments : List GpxTrackSegment)
    : (kept segments).flatten = ((longEnough segments).flatMap (·.points)).map coordinateOf := by
  rw [List.map_flatMap, List.flatMap_def]
  rfl

theorem normalized_of_normalizeGpx {parseResult : GpxParseResult} {normalized : NormalizedTrack}
    (h : normalizeGpx externals parseResult = .ok normalized)
    : Normalized externals.distance (kept (segmentsOf parseResult)) normalized := by
  have hfrom := normalizedFrom_of_normalizeGpx h
  constructor
  . have hpoints := congrArg (List.map (List.map TrackPoint.coordinate)) hfrom.segments
    rw [List.map_map, List.map_map] at hpoints
    exact hpoints.trans (List.map_congr_left fun segment _ => List.map_map)
  . rw [hfrom.pointCount, flatten_kept, List.length_map]
  . rw [hfrom.distanceMeters, kept_longEnough]
  . rw [hfrom.previewGeometry, flatten_kept]

end Kept

/-
The distances along the points, and those across the gaps.
-/

section Gaps

-- the last of the one list, with the first of the other
def seam {α : Type} (as bs : List α) : List (α × α) :=
  match as.getLast?, bs.head? with
  | some a, some b => [(a, b)]
  | _, _ => []

theorem seam_nil_right {α : Type} (as : List α) : seam as [] = [] := by
  unfold seam
  cases as.getLast? <;> rfl

theorem adjacent_append {α : Type} (as bs : List α)
    : adjacent (as ++ bs) = adjacent as ++ (seam as bs ++ adjacent bs) := by
  induction as with
  | nil => rfl
  | cons a as ih =>
    cases as with
    | nil => cases bs <;> rfl
    | cons a' as =>
      have hseam : seam (a :: a' :: as) bs = seam (a' :: as) bs := by
        unfold seam
        rw [List.getLast?_cons_cons]
      have hcons : ∀ cs, adjacent (a :: a' :: cs) = (a, a') :: adjacent (a' :: cs) := fun _ => rfl
      rw [hseam, List.cons_append, List.cons_append, hcons, hcons, ← List.cons_append, ih, List.cons_append]

variable (distance : Coordinate → Coordinate → F64)

def joint (as bs : List Coordinate) : List F64 :=
  match as.getLast?, bs.head? with
  | some a, some b => [distance a b]
  | _, _ => []

-- from every segment to the next one
def gaps (coords : List (List Coordinate)) : List F64 :=
  (adjacent coords).flatMap fun (as, bs) => joint distance as bs

theorem joint_eq (as bs : List Coordinate)
    : joint distance as bs = (seam as bs).map fun (a, b) => distance a b := by
  unfold joint seam
  cases as.getLast? with
  | none => rfl
  | some a => cases bs.head? <;> rfl

theorem distances_append (as bs : List Coordinate)
    : distances distance (as ++ bs) = distances distance as ++ (joint distance as bs ++ distances distance bs) := by
  unfold distances
  rw [adjacent_append, joint_eq, List.map_append, List.map_append]

theorem joint_flatten {as bs : List Coordinate} {coords : List (List Coordinate)} (h : bs ≠ [])
    : joint distance as ((bs :: coords).flatten) = joint distance as bs := by
  obtain ⟨b, bs, rfl⟩ := List.exists_cons_of_ne_nil h
  rfl

theorem perm_distances_flatten {coords : List (List Coordinate)} (h : ∀ as ∈ coords, as ≠ [])
    : (distances distance coords.flatten).Perm
        (coords.flatMap (distances distance) ++ gaps distance coords) := by
  induction coords with
  | nil => exact .refl _
  | cons as coords ih =>
    have hrest := ih fun bs hbs => h bs (List.mem_cons_of_mem _ hbs)
    cases coords with
    | nil =>
      have hjoint : joint distance as [] = [] := by rw [joint_eq, seam_nil_right, List.map_nil]
      have hgaps : gaps distance [as] = [] := rfl
      rw [List.flatten_cons, distances_append, List.flatten_nil, hjoint, hgaps, List.flatMap_singleton,
        List.append_nil]
      exact .of_eq (List.append_nil _)
    | cons bs coords =>
      have hbs : bs ≠ [] := h bs (by simp)
      have hgaps : gaps distance (as :: bs :: coords) = joint distance as bs ++ gaps distance (bs :: coords) := rfl
      rw [List.flatten_cons, distances_append, joint_flatten distance hbs, List.flatMap_cons, hgaps,
        List.append_assoc]
      apply List.Perm.append_left
      exact (hrest.append_left _).trans (List.perm_append_comm_assoc ..)

theorem sum_distances_flatten {coords : List (List Coordinate)} (h : ∀ as ∈ coords, as ≠ [])
    (hgaps : ∀ d ∈ gaps distance coords, d = .fin 0) {total : F64} (htotal : total.Rounded)
    : (distances distance coords.flatten).foldl F64.add total
        = (coords.flatMap (distances distance)).foldl F64.add total := by
  induction coords generalizing total with
  | nil => rfl
  | cons as coords ih =>
    have hfirst := F64.rounded_foldl_add (distances distance as) htotal
    cases coords with
    | nil => simp
    | cons bs coords =>
      have hbs : bs ≠ [] := h bs (by simp)
      have hcons : gaps distance (as :: bs :: coords) = joint distance as bs ++ gaps distance (bs :: coords) := rfl
      rw [hcons] at hgaps
      have hjoint := F64.foldl_add_zeros (fun d hd => hgaps d (List.mem_append_left _ hd)) hfirst
      have hrest := ih (fun cs hcs => h cs (List.mem_cons_of_mem _ hcs))
        (fun d hd => hgaps d (List.mem_append_right _ hd)) hfirst
      have hflatMap : (as :: bs :: coords).flatMap (distances distance)
          = distances distance as ++ (bs :: coords).flatMap (distances distance) := List.flatMap_cons ..
      rw [List.flatten_cons, distances_append, joint_flatten distance hbs, List.foldl_append,
        List.foldl_append, hjoint, hrest, hflatMap, List.foldl_append]

/--
Without rounding a distance across a gap shows in the sum.
-/
theorem gaps_of_sum {coords : List (List Coordinate)} (h : ∀ as ∈ coords, as ≠ [])
    (hnonneg : ∀ d ∈ gaps distance coords, 0 ≤ d.value)
    (hflat : F64.Exact 0 (distances distance coords.flatten))
    (hsegments : F64.Exact 0 (coords.flatMap (distances distance)))
    (hsum : (distances distance coords.flatten).foldl F64.add (.fin 0)
      = (coords.flatMap (distances distance)).foldl F64.add (.fin 0))
    : ∀ d ∈ gaps distance coords, d = .fin 0 := by
  have hperm := perm_distances_flatten distance h
  rw [F64.foldl_add_of_exact hflat, F64.foldl_add_of_exact hsegments] at hsum
  have htotal := (hperm.map F64.value).sum_eq
  rw [List.map_append, List.sum_append] at htotal
  have hgaps : ((gaps distance coords).map F64.value).sum = 0 := by
    have hvalue := F64.fin.inj hsum
    linarith
  intro d hd
  have hfinite : d.isFinite = true := F64.isFinite_of_exact hflat (hperm.mem_iff.mpr (List.mem_append_right _ hd))
  have hzero : d.value = 0 :=
    List.all_zero_of_le_zero_le_of_sum_eq_zero (by simpa using hnonneg) hgaps (List.mem_map_of_mem hd)
  cases d with
  | fin q => exact congrArg F64.fin hzero
  | nan | negInf | posInf => cases hfinite

end Gaps

end RecordedActivity
