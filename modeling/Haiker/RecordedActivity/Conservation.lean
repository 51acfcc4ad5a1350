import Haiker.RecordedActivity.Lemmas.Normalization

/-!
This module contains what the normalization keeps of a file: the segments that are long enough, with all
their points, and what it says about the whole of them.
-/

open Rust
open Imports (GpxParseResult GpxTrackPoint GpxTrackSegment NormalizedTrack)

namespace RecordedActivity

/-
The bounding box.
-/

namespace BoundingBox

def Contains (box : BoundingBox) (c : Coordinate) : Prop :=
  box.southWest.latitude.le c.latitude = true ∧ c.latitude.le box.northEast.latitude = true
  ∧ box.southWest.longitude.le c.longitude = true ∧ c.longitude.le box.northEast.longitude = true

/--
The box is no larger than it has to be.
-/
structure Bounds (box : BoundingBox) (coords : List Coordinate) : Prop where
  contains : ∀ c ∈ coords, box.Contains c
  south : ∃ c ∈ coords, c.latitude = box.southWest.latitude
  west : ∃ c ∈ coords, c.longitude = box.southWest.longitude
  north : ∃ c ∈ coords, c.latitude = box.northEast.latitude
  east : ∃ c ∈ coords, c.longitude = box.northEast.longitude

theorem exists_values {xs : List F64} {bound : ℚ} (hxs : ∀ x ∈ xs, x.inRange (-bound) bound = true)
    : ∃ qs : List ℚ, xs = qs.map .fin ∧ ∀ q ∈ qs, -bound ≤ q ∧ q ≤ bound := by
  induction xs with
  | nil => exact ⟨[], rfl, by simp⟩
  | cons x xs ih =>
    obtain ⟨qs, rfl, hqs⟩ := ih fun x hx => hxs x (List.mem_cons_of_mem _ hx)
    obtain ⟨q, rfl, hq⟩ := F64.inRange_iff.mp (hxs x List.mem_cons_self)
    refine ⟨q :: qs, rfl, ?_⟩
    rw [List.forall_mem_cons]
    exact ⟨hq, hqs⟩

theorem least_spec {xs : List F64} {bound : ℚ} (hne : xs ≠ []) (hbound : bound ≤ F64.greatest)
    (hxs : ∀ x ∈ xs, x.inRange (-bound) bound = true)
    : xs.foldl F64.min (.fin F64.greatest) ∈ xs
        ∧ ∀ x ∈ xs, (xs.foldl F64.min (.fin F64.greatest)).le x = true := by
  obtain ⟨qs, rfl, hqs⟩ := exists_values hxs
  have hnonempty : qs ≠ [] := fun hnil => hne (by rw [hnil, List.map_nil])
  obtain ⟨m, hm⟩ := Option.isSome_iff_exists.mp (List.isSome_min?_of_ne_nil hnonempty)
  obtain ⟨hmem, hleast⟩ := List.min?_eq_some_iff.mp hm
  have hfold : qs.foldl min F64.greatest = m := by
    rw [List.foldl_min, hm, Option.getD_some, min_eq_right ((hqs m hmem).2.trans hbound)]
  rw [F64.foldl_min_fin, hfold]
  exact ⟨List.mem_map_of_mem hmem, by simpa [F64.le] using hleast⟩

theorem greatest_spec {xs : List F64} {bound : ℚ} (hne : xs ≠ []) (hbound : bound ≤ F64.greatest)
    (hxs : ∀ x ∈ xs, x.inRange (-bound) bound = true)
    : xs.foldl F64.max (.fin (-F64.greatest)) ∈ xs
        ∧ ∀ x ∈ xs, x.le (xs.foldl F64.max (.fin (-F64.greatest))) = true := by
  obtain ⟨qs, rfl, hqs⟩ := exists_values hxs
  have hnonempty : qs ≠ [] := fun hnil => hne (by rw [hnil, List.map_nil])
  obtain ⟨m, hm⟩ := Option.isSome_iff_exists.mp (List.isSome_max?_of_ne_nil hnonempty)
  obtain ⟨hmem, hgreatest⟩ := List.max?_eq_some_iff.mp hm
  have hfold : qs.foldl max (-F64.greatest) = m := by
    rw [List.foldl_max, hm, Option.getD_some, max_eq_right ((neg_le_neg hbound).trans (hqs m hmem).1)]
  rw [F64.foldl_max_fin, hfold]
  exact ⟨List.mem_map_of_mem hmem, by simpa [F64.le] using hgreatest⟩

theorem bounds_of_fromCoordinates {coords : List Coordinate} {box : BoundingBox}
    (hrange : ∀ c ∈ coords, c.InRange) (h : fromCoordinates coords = some box) : box.Bounds coords := by
  unfold fromCoordinates at h
  simp only at h
  split at h
  . cases h
  . next hne =>
    obtain rfl := Option.some.inj h
    have hlatitudes : ∀ x ∈ coords.map (·.latitude), x.inRange (-90) 90 = true := by
      intro x hx
      obtain ⟨c, hc, rfl⟩ := List.mem_map.mp hx
      exact (hrange c hc).1
    have hlongitudes : ∀ x ∈ coords.map (·.longitude), x.inRange (-180) 180 = true := by
      intro x hx
      obtain ⟨c, hc, rfl⟩ := List.mem_map.mp hx
      exact (hrange c hc).2
    have hnonempty : ∀ f : Coordinate → F64, coords.map f ≠ [] := by
      intro f hnil
      rw [List.map_eq_nil_iff] at hnil
      exact hne (by rw [hnil]; rfl)
    have h90 : (90 : ℚ) ≤ F64.greatest := by decide +kernel
    have h180 : (180 : ℚ) ≤ F64.greatest := by decide +kernel
    obtain ⟨hsouth, hsouth'⟩ := least_spec (hnonempty _) h90 hlatitudes
    obtain ⟨hwest, hwest'⟩ := least_spec (hnonempty _) h180 hlongitudes
    obtain ⟨hnorth, hnorth'⟩ := greatest_spec (hnonempty _) h90 hlatitudes
    obtain ⟨heast, heast'⟩ := greatest_spec (hnonempty _) h180 hlongitudes
    constructor
    . intro c hc
      have hlatitude : c.latitude ∈ coords.map (·.latitude) := List.mem_map_of_mem hc
      have hlongitude : c.longitude ∈ coords.map (·.longitude) := List.mem_map_of_mem hc
      exact ⟨hsouth' _ hlatitude, hnorth' _ hlatitude, hwest' _ hlongitude, heast' _ hlongitude⟩
    . exact List.mem_map.mp hsouth
    . exact List.mem_map.mp hwest
    . exact List.mem_map.mp hnorth
    . exact List.mem_map.mp heast

end BoundingBox

/-
The timestamps.
-/

/--
The whole milliseconds from the earliest to the latest, in seconds, if there is one.
-/
def elapsedSeconds (timestamps : List Timestamp) : Option F64 :=
  match timestamps.min?, timestamps.max? with
  | some first, some last =>
    let milliseconds := (last - first) / 1000000
    if 0 < milliseconds then some ((F64.ofInt milliseconds).div (.fin 1000)) else none
  | _, _ => none

section Timestamps

variable (timestamps : List Timestamp)

theorem head?_insertionSort : (timestamps.insertionSort (· ≤ ·)).head? = timestamps.min? := by
  have hperm := timestamps.perm_insertionSort (· ≤ ·)
  have hsorted := timestamps.pairwise_insertionSort (· ≤ ·)
  cases hsort : timestamps.insertionSort (· ≤ ·) with
  | nil =>
    rw [hsort] at hperm
    rw [List.Perm.eq_nil hperm.symm]
    rfl
  | cons first rest =>
    rw [hsort] at hperm hsorted
    symm
    rw [List.head?_cons, List.min?_eq_some_iff]
    refine ⟨hperm.mem_iff.mp List.mem_cons_self, ?_⟩
    intro t ht
    cases hperm.mem_iff.mpr ht with
    | head => exact le_refl first
    | tail _ ht => exact List.rel_of_pairwise_cons hsorted ht

theorem getLast?_insertionSort : (timestamps.insertionSort (· ≤ ·)).getLast? = timestamps.max? := by
  have hperm := timestamps.perm_insertionSort (· ≤ ·)
  have hsorted := timestamps.pairwise_insertionSort (· ≤ ·)
  rcases List.eq_nil_or_concat (timestamps.insertionSort (· ≤ ·)) with hsort | ⟨rest, last, hsort⟩
  . rw [hsort] at hperm ⊢
    rw [List.Perm.eq_nil hperm.symm]
    rfl
  . rw [hsort] at hperm hsorted ⊢
    symm
    rw [List.concat_eq_append] at hperm hsorted ⊢
    rw [List.getLast?_concat, List.max?_eq_some_iff]
    refine ⟨hperm.mem_iff.mp (by simp), ?_⟩
    intro t ht
    rcases List.mem_append.mp (hperm.mem_iff.mpr ht) with hrest | hlast
    . exact (List.pairwise_append.mp hsorted).2.2 t hrest last (by simp)
    . exact (List.mem_singleton.mp hlast).le

theorem durationSeconds_insertionSort
    : durationSeconds (timestamps.insertionSort (· ≤ ·)) = elapsedSeconds timestamps := by
  unfold durationSeconds elapsedSeconds
  rw [head?_insertionSort, getLast?_insertionSort, List.length_insertionSort]
  cases hmin : timestamps.min? with
  | none =>
    rw [List.min?_eq_none_iff] at hmin
    rw [hmin]
    rfl
  | some first =>
    obtain ⟨hfirst, hleast⟩ := List.min?_eq_some_iff.mp hmin
    cases hmax : timestamps.max? with
    | none =>
      rw [List.max?_eq_none_iff] at hmax
      rw [hmax] at hfirst
      cases hfirst
    | some last =>
      obtain ⟨hlast, hgreatest⟩ := List.max?_eq_some_iff.mp hmax
      have horder : 0 ≤ last - first := Int.sub_nonneg_of_le (hleast last hlast)
      simp only [Option.getD_some, Int.tdiv_eq_ediv_of_nonneg horder]
      by_cases hpositive : 0 < (last - first) / 1000000
      . have hlength : 2 ≤ timestamps.length := by
          by_contra hshort
          match timestamps, hshort with
          | [], _ => cases hfirst
          | [t], _ =>
            obtain rfl := List.mem_singleton.mp hfirst
            obtain rfl := List.mem_singleton.mp hlast
            simp at hpositive
          | _ :: _ :: _, hshort => simp at hshort
        rw [if_pos hlength, if_pos hpositive, if_pos (F64.lt_div_ofInt hpositive)]
      . have hzero : (last - first) / 1000000 = 0 :=
          le_antisymm (not_lt.mp hpositive) (Int.ediv_nonneg horder (by decide))
        have hnone : (F64.fin 0).lt ((F64.ofInt 0).div (.fin 1000)) = false := by decide +kernel
        rw [if_neg hpositive, hzero, hnone]
        simp

end Timestamps

/-
The whole of it.
-/

def PointsInRange (parseResult : GpxParseResult) : Prop :=
  ∀ segment ∈ segmentsOf parseResult, ∀ pt ∈ segment.points, (coordinateOf pt).InRange

instance (parseResult : GpxParseResult) : Decidable (PointsInRange parseResult) := by
  unfold PointsInRange Coordinate.InRange
  infer_instance

/--
`normalized` says the right thing about the segments of `input`, all of which it has.
-/
structure Conserves (externals : NormalizationExternals) (input : List GpxTrackSegment)
    (normalized : NormalizedTrack) : Prop where
  segments : normalized.recordedTrack.segments.map (·.points)
    = input.map fun segment => segment.points.map (toTrackPoint externals)
  pointCount : normalized.recordedTrack.statistics.pointCount = (input.flatMap (·.points)).length
  segmentCount : normalized.recordedTrack.statistics.segmentCount = input.length
  boundingBox : normalized.recordedTrack.boundingBox.Bounds ((input.flatMap (·.points)).map coordinateOf)
  startedAt : normalized.startedAt = (timestampsOf externals (input.flatMap (·.points))).min?
  endedAt : normalized.endedAt = (timestampsOf externals (input.flatMap (·.points))).max?
  durationSeconds : normalized.recordedTrack.statistics.durationSeconds
    = elapsedSeconds (timestampsOf externals (input.flatMap (·.points)))

section Conserves

variable {externals : NormalizationExternals} {parseResult : GpxParseResult} {normalized : NormalizedTrack}

theorem conserves_of_normalizeGpx (hrange : PointsInRange parseResult)
    (h : normalizeGpx externals parseResult = .ok normalized)
    : Conserves externals (longEnough (segmentsOf parseResult)) normalized := by
  have hfrom := normalizedFrom_of_normalizeGpx h
  constructor
  . exact hfrom.segments
  . exact hfrom.pointCount
  . exact hfrom.segmentCount
  . apply BoundingBox.bounds_of_fromCoordinates _ hfrom.boundingBox
    intro c hc
    obtain ⟨pt, hpt, rfl⟩ := List.mem_map.mp hc
    obtain ⟨segment, hsegment, hpt⟩ := List.mem_flatMap.mp hpt
    exact hrange segment (List.mem_filter.mp hsegment).1 pt hpt
  . rw [hfrom.startedAt, head?_insertionSort]
  . rw [hfrom.endedAt, getLast?_insertionSort]
  . rw [hfrom.durationSeconds, durationSeconds_insertionSort]

theorem exists_normalized_iff (hrange : PointsInRange parseResult)
    : (∃ normalized, normalizeGpx externals parseResult = .ok normalized)
        ↔ ∃ segment ∈ segmentsOf parseResult, 2 ≤ segment.points.length := by
  obtain ⟨loop, hrun⟩ : ∃ loop, Loop.run externals parseResult = .ok loop := Loop.exists_run hrange Loop.start
  have hlong : longEnough (segmentsOf parseResult) = []
      ↔ ¬∃ segment ∈ segmentsOf parseResult, 2 ≤ segment.points.length := by
    simp [longEnough, List.filter_eq_nil_iff]
  rcases normalizeGpx_cases hrun with ⟨hnil, herror⟩ | ⟨normalized, hok, hfrom⟩
  . rw [herror]
    simp [hlong.mp hnil]
  . have hne : longEnough (segmentsOf parseResult) ≠ [] := by
      intro hnil
      have hbox := hfrom.boundingBox
      rw [hnil] at hbox
      cases hbox
    rw [Ne, hlong, not_not] at hne
    exact ⟨fun _ => hne, fun _ => ⟨normalized, hok⟩⟩

end Conserves

/--
A file is normalized if one of its segments is long enough, and then these are kept. Only the duration goes
by whole milliseconds.
-/
theorem segments_conserved (externals : NormalizationExternals) (parseResult : GpxParseResult)
    (hrange : PointsInRange parseResult)
    : ((∃ normalized, normalizeGpx externals parseResult = .ok normalized)
          ↔ ∃ segment ∈ segmentsOf parseResult, 2 ≤ segment.points.length)
        ∧ ∀ normalized, normalizeGpx externals parseResult = .ok normalized →
          Conserves externals (longEnough (segmentsOf parseResult)) normalized :=
  ⟨exists_normalized_iff hrange, fun _ h => conserves_of_normalizeGpx hrange h⟩

/-
A file whose last points are so many nanoseconds apart.
-/

def timedPoint (time : String) : GpxTrackPoint where
  lat := .fin 46
  lon := .fin 7
  elevation := some (.fin 560)
  time := some time

def timedFile (second : String) : GpxParseResult where
  version := .gpx11
  metadata := ⟨none, none, none⟩
  tracks := [
    ⟨none, [⟨[timedPoint "2024-05-01T10:00:00Z"]⟩, ⟨[]⟩]⟩,
    ⟨some "Way home", [⟨[timedPoint "2024-05-01T10:00:00Z", timedPoint second]⟩]⟩
  ]
  totalPoints := 3

def timedNormalization : NormalizationExternals where
  distance _ _ := .fin 0
  parseTimestamp
    | "2024-05-01T10:00:00Z" => some 1714557600000000000
    | "2024-05-01T10:00:00.0001Z" => some 1714557600000100000
    | "2024-05-01T11:00:00Z" => some 1714561200000000000
    | _ => none
  recordedTrackId := ⟨⟨4⟩⟩

theorem segments_conserved_timedFile
    : (∃ normalized, normalizeGpx timedNormalization (timedFile "2024-05-01T11:00:00Z") = .ok normalized)
      ∧ ∀ normalized, normalizeGpx timedNormalization (timedFile "2024-05-01T11:00:00Z") = .ok normalized →
        normalized.recordedTrack.statistics.durationSeconds = some (.fin 3600) := by
  have hrange : PointsInRange (timedFile "2024-05-01T11:00:00Z") := by decide
  obtain ⟨hexists, hconserves⟩ := segments_conserved timedNormalization _ hrange
  refine ⟨hexists.mpr (by decide), ?_⟩
  intro normalized h
  rw [(hconserves normalized h).durationSeconds]
  decide +kernel

/--
Less than a millisecond is no duration.
-/
theorem short_recording_without_duration
    : PointsInRange (timedFile "2024-05-01T10:00:00.0001Z")
      ∧ ∃ normalized, normalizeGpx timedNormalization (timedFile "2024-05-01T10:00:00.0001Z") = .ok normalized
        ∧ normalized.startedAt = some 1714557600000000000
        ∧ normalized.endedAt = some 1714557600000100000
        ∧ normalized.recordedTrack.statistics.durationSeconds = none := by
  refine ⟨by decide, ?_⟩
  have hok : (normalizeGpx timedNormalization (timedFile "2024-05-01T10:00:00.0001Z")).toOption.map (fun normalized =>
      (normalized.startedAt, normalized.endedAt, normalized.recordedTrack.statistics.durationSeconds))
        = some (some 1714557600000000000, some 1714557600000100000, none) := by
    decide +kernel
  cases hnormalized : normalizeGpx timedNormalization (timedFile "2024-05-01T10:00:00.0001Z") with
  | error e =>
    rw [hnormalized] at hok
    cases hok
  | ok normalized =>
    rw [hnormalized] at hok
    obtain ⟨hstarted, hrest⟩ := Prod.mk.inj (Option.some.inj hok)
    obtain ⟨hended, hduration⟩ := Prod.mk.inj hrest
    exact ⟨normalized, rfl, hstarted, hended, hduration⟩

end RecordedActivity
