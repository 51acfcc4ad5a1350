import Haiker.RecordedActivity.Lemmas.Normalization

/-!
This module contains when the statistics of a recording are the sums of those of its segments: when the
elevation stays level across the gaps.
-/

open Rust
open Imports (GpxParseResult GpxTrackPoint GpxTrackSegment NormalizedTrack)

namespace RecordedActivity

/-
The neighbours in a list that is put together from several ones.
-/

section Seams

variable {α : Type}

-- the neighbours that come from different lists
def seams : List (List α) → List (α × α)
  | [] => []
  | as :: rest => seam as rest.flatten ++ seams rest

theorem perm_adjacent_flatten (parts : List (List α))
    : (adjacent parts.flatten).Perm (parts.flatMap adjacent ++ seams parts) := by
  induction parts with
  | nil => exact .refl _
  | cons as rest ih =>
    rw [List.flatten_cons, adjacent_append, List.flatMap_cons, List.append_assoc, seams]
    apply List.Perm.append_left
    exact (ih.append_left _).trans (List.perm_append_comm_assoc ..)

/-
What is picked out of the neighbours, list by list.
-/

variable {β : Type} {pick : List (α × α) → List β} (hnil : pick [] = [])
  (happend : ∀ ps qs, pick (ps ++ qs) = pick ps ++ pick qs)
include hnil happend

theorem pick_flatMap (parts : List (List α))
    : pick (parts.flatMap adjacent) = (parts.map fun part => pick (adjacent part)).flatten := by
  induction parts with
  | nil => exact hnil
  | cons part parts ih => rw [List.flatMap_cons, happend, ih, List.map_cons, List.flatten_cons]

theorem pick_flatten {parts : List (List α)} (h : pick (seams parts) = [])
    : pick (adjacent parts.flatten) = (parts.map fun part => pick (adjacent part)).flatten := by
  induction parts with
  | nil => exact hnil
  | cons part parts ih =>
    rw [seams, happend, List.append_eq_nil_iff] at h
    rw [List.flatten_cons, adjacent_append, happend, happend, h.1, List.nil_append, ih h.2, List.map_cons,
      List.flatten_cons]

end Seams

/-
What is added up for the elevations.
-/

def differences (pairs : List (F64 × F64)) : List F64 := pairs.map fun (a, b) => b.sub a

-- what counts as gain
def climbs (pairs : List (F64 × F64)) : List F64 :=
  (differences pairs).filter fun diff => (F64.fin ELEVATION_DEAD_BAND).le diff

-- what counts as loss
def drops (pairs : List (F64 × F64)) : List F64 :=
  ((differences pairs).filter fun diff => diff.le (.fin (-ELEVATION_DEAD_BAND))).map F64.abs

def sumOf (ds : List F64) : F64 := ds.foldl F64.add (.fin 0)

def metersOf (segment : GpxTrackSegment) : List F64 := segment.points.filterMap (·.elevation)

section Elevations

theorem climbs_append (ps qs : List (F64 × F64)) : climbs (ps ++ qs) = climbs ps ++ climbs qs := by
  simp [climbs, differences]

theorem drops_append (ps qs : List (F64 × F64)) : drops (ps ++ qs) = drops ps ++ drops qs := by
  simp [drops, differences]

theorem climbs_perm {ps qs : List (F64 × F64)} (h : ps.Perm qs) : (climbs ps).Perm (climbs qs) :=
  (h.map _).filter _

theorem drops_perm {ps qs : List (F64 × F64)} (h : ps.Perm qs) : (drops ps).Perm (drops qs) :=
  ((h.map _).filter _).map _

-- no difference is both
theorem not_drop_of_climb {diff : F64} (h : (F64.fin ELEVATION_DEAD_BAND).le diff = true)
    : diff.le (.fin (-ELEVATION_DEAD_BAND)) = false := by
  cases diff with
  | fin q =>
    have hclimb : (2 : ℚ) ≤ q := of_decide_eq_true h
    exact decide_eq_false (not_le.mpr (lt_of_lt_of_le (by norm_num [ELEVATION_DEAD_BAND]) hclimb))
  | nan | negInf => cases h
  | posInf => rfl

theorem pos_of_mem_climbs {pairs : List (F64 × F64)} {d : F64} (h : d ∈ climbs pairs)
    (hfinite : d.isFinite = true) : 0 < d.value := by
  have hclimb := (List.mem_filter.mp h).2
  cases d with
  | fin q =>
    have hdiff : (2 : ℚ) ≤ q := of_decide_eq_true hclimb
    exact lt_of_lt_of_le (by norm_num) hdiff
  | nan | negInf | posInf => cases hfinite

theorem pos_of_mem_drops {pairs : List (F64 × F64)} {d : F64} (h : d ∈ drops pairs)
    (hfinite : d.isFinite = true) : 0 < d.value := by
  obtain ⟨diff, hdiff, rfl⟩ := List.mem_map.mp h
  have hdrop := (List.mem_filter.mp hdiff).2
  cases diff with
  | fin q =>
    have hdiff : q ≤ (-2 : ℚ) := of_decide_eq_true hdrop
    exact abs_pos_of_neg (lt_of_le_of_lt hdiff (by norm_num))
  | nan | negInf | posInf => cases hfinite

theorem ElevationState.run_next (meters : List F64) (s : ElevationState)
    : (meters.foldl ElevationState.next s).gain
          = (climbs (adjacent (s.prevElevation.toList ++ meters))).foldl F64.add s.gain
        ∧ (meters.foldl ElevationState.next s).loss
          = (drops (adjacent (s.prevElevation.toList ++ meters))).foldl F64.add s.loss := by
  induction meters generalizing s with
  | nil => cases s.prevElevation <;> exact ⟨rfl, rfl⟩
  | cons m meters ih =>
    obtain ⟨hgain, hloss⟩ := ih (s.next m)
    cases hprev : s.prevElevation with
    | none =>
      have hnext : s.next m = { s with hasElevation := true, prevElevation := some m } := by
        unfold ElevationState.next
        rw [hprev]
      rw [hnext] at hgain hloss
      rw [List.foldl_cons, hnext]
      exact ⟨hgain, hloss⟩
    | some prev =>
      have hpairs : adjacent ((some prev).toList ++ m :: meters) = [(prev, m)] ++ adjacent (m :: meters) := rfl
      have hthen : (s.next m).prevElevation = some m := by
        unfold ElevationState.next
        simp only [hprev]
        split
        . rfl
        . split <;> rfl
      rw [hthen] at hgain hloss
      rw [List.foldl_cons, hgain, hloss, hpairs, climbs_append, drops_append, List.foldl_append, List.foldl_append]
      suffices hstep : (s.next m).gain = (climbs [(prev, m)]).foldl F64.add s.gain
          ∧ (s.next m).loss = (drops [(prev, m)]).foldl F64.add s.loss by
        rw [hstep.1, hstep.2]
        exact ⟨rfl, rfl⟩
      unfold ElevationState.next climbs drops differences
      simp only [hprev, List.map_cons, List.map_nil, List.filter_cons, List.filter_nil]
      by_cases hclimb : (F64.fin ELEVATION_DEAD_BAND).le (m.sub prev) = true
      . simp [hclimb, not_drop_of_climb hclimb]
      . by_cases hdrop : (m.sub prev).le (.fin (-ELEVATION_DEAD_BAND)) = true
        . simp [hclimb, hdrop]
        . simp [hclimb, hdrop]

theorem ElevationState.hasElevation_run (meters : List F64) {s : ElevationState} (h : s.hasElevation = true)
    : (meters.foldl ElevationState.next s).hasElevation = true := by
  induction meters generalizing s with
  | nil => exact h
  | cons m meters ih =>
    apply ih
    unfold ElevationState.next
    cases s.prevElevation with
    | none => rfl
    | some prev =>
      simp only
      split
      . rfl
      . split <;> rfl

theorem calculateElevationStats_getD (elevations : List (Option Elevation))
    : ((calculateElevationStats elevations).1.getD (.fin 0)
          = sumOf (climbs (adjacent ((elevations.filterMap id).map (·.meters)))))
        ∧ ((calculateElevationStats elevations).2.getD (.fin 0)
          = sumOf (drops (adjacent ((elevations.filterMap id).map (·.meters))))) := by
  obtain ⟨hgain, hloss⟩ := ElevationState.run_next ((elevations.filterMap id).map (·.meters)) .start
  rw [List.foldl_map] at hgain hloss
  unfold calculateElevationStats sumOf
  simp only
  cases helevation : ((elevations.filterMap id).foldl (fun s e => s.next e.meters)
    ElevationState.start).hasElevation with
  | true => exact ⟨hgain, hloss⟩
  | false =>
    cases hpresent : elevations.filterMap id with
    | nil => exact ⟨rfl, rfl⟩
    | cons e rest =>
      have hrun : ((rest.map (·.meters)).foldl ElevationState.next (ElevationState.start.next e.meters)).hasElevation
          = true := ElevationState.hasElevation_run _ rfl
      rw [hpresent, ← List.foldl_map, List.map_cons, List.foldl_cons, hrun] at helevation
      cases helevation

end Elevations

/-
Sums of sums.
-/

section Sums

/--
Neither is `whole` rounded when it is added up, nor are the `parts` and their sums.
-/
structure SumsExactly (whole : List F64) (parts : List (List F64)) : Prop where
  whole : F64.Exact 0 whole
  each : ∀ part ∈ parts, F64.Exact 0 part
  sums : F64.Exact 0 (parts.map sumOf)

variable {whole gaps : List F64} {parts : List (List F64)}

theorem sumOf_of_exact {ds : List F64} (h : F64.Exact 0 ds) : sumOf ds = .fin (ds.map F64.value).sum := by
  unfold sumOf
  rw [F64.foldl_add_of_exact h, zero_add]

theorem sumOf_sums (hparts : ∀ part ∈ parts, F64.Exact 0 part) (hsums : F64.Exact 0 (parts.map sumOf))
    : sumOf (parts.map sumOf) = .fin (parts.flatten.map F64.value).sum := by
  have hvalues : (parts.map sumOf).map F64.value = parts.map fun part => (part.map F64.value).sum := by
    rw [List.map_map]
    apply List.map_congr_left
    intro part hpart
    rw [Function.comp_apply, sumOf_of_exact (hparts part hpart)]
    rfl
  rw [sumOf_of_exact hsums, hvalues, List.map_flatten, List.sum_flatten, List.map_map]
  rfl

theorem sumOf_eq_iff (h : SumsExactly whole parts) (hperm : whole.Perm (parts.flatten ++ gaps))
    (hpos : ∀ d ∈ gaps, d.isFinite = true → 0 < d.value)
    : sumOf whole = sumOf (parts.map sumOf) ↔ gaps = [] := by
  have htotal := (hperm.map F64.value).sum_eq
  rw [List.map_append, List.sum_append] at htotal
  rw [sumOf_of_exact h.whole, sumOf_sums h.each h.sums, htotal, F64.fin.injEq, add_eq_left]
  constructor
  . intro hzero
    by_contra hne
    have hvalues : ∀ v ∈ gaps.map F64.value, 0 < v := by
      intro v hv
      obtain ⟨d, hd, rfl⟩ := List.mem_map.mp hv
      exact hpos d hd (F64.isFinite_of_exact h.whole (hperm.mem_iff.mpr (List.mem_append_right _ hd)))
    have hsum := List.sum_pos _ hvalues (by simpa using hne)
    exact hsum.ne' hzero
  . rintro rfl
    rfl

end Sums

/-
The statistics of the segments, each taken alone.
-/

-- a file with this segment only
def alone (segment : GpxTrackSegment) : GpxParseResult where
  version := .gpx11
  metadata := ⟨none, none, none⟩
  tracks := [⟨none, [segment]⟩]
  totalPoints := segment.points.length

/--
The statistics of `whole` are the sums of those of the `parts`.
-/
structure Additive (whole : RecordedStatistics) (parts : List RecordedStatistics) : Prop where
  distanceMeters : whole.distanceMeters = sumOf (parts.map (·.distanceMeters))
  elevationGain : whole.elevationGainMeters.getD (.fin 0)
    = sumOf (parts.map fun part => part.elevationGainMeters.getD (.fin 0))
  elevationLoss : whole.elevationLossMeters.getD (.fin 0)
    = sumOf (parts.map fun part => part.elevationLossMeters.getD (.fin 0))
  pointCount : whole.pointCount = (parts.map (·.pointCount)).sum
  segmentCount : whole.segmentCount = (parts.map (·.segmentCount)).sum

/--
The sum of `whole` goes over the terms of the `parts`, one after the other, so that it is their sum but for
the rounding.
-/
def SplitsInto (whole : F64) (parts : List F64) : Prop :=
  ∃ terms : List (List F64), whole = sumOf terms.flatten ∧ parts = terms.map sumOf

structure Splits (whole : RecordedStatistics) (parts : List RecordedStatistics) : Prop where
  distanceMeters : SplitsInto whole.distanceMeters (parts.map (·.distanceMeters))
  elevationGain : SplitsInto (whole.elevationGainMeters.getD (.fin 0))
    (parts.map fun part => part.elevationGainMeters.getD (.fin 0))
  elevationLoss : SplitsInto (whole.elevationLossMeters.getD (.fin 0))
    (parts.map fun part => part.elevationLossMeters.getD (.fin 0))
  pointCount : whole.pointCount = (parts.map (·.pointCount)).sum
  segmentCount : whole.segmentCount = (parts.map (·.segmentCount)).sum

/--
From the last elevation before a gap to the first one after it there is no difference that counts.
-/
def Level (input : List GpxTrackSegment) : Prop :=
  ∀ pair ∈ seams (input.map metersOf), climbs [pair] = [] ∧ drops [pair] = []

instance (input : List GpxTrackSegment) : Decidable (Level input) :=
  inferInstanceAs (Decidable (∀ pair ∈ seams (input.map metersOf), climbs [pair] = [] ∧ drops [pair] = []))

/--
No sum is rounded.
-/
structure Unrounded (distance : Coordinate → Coordinate → F64) (input : List GpxTrackSegment) : Prop where
  distanceMeters : SumsExactly ((kept input).flatMap (distances distance))
    ((kept input).map (distances distance))
  elevationGain : SumsExactly (climbs (adjacent (input.map metersOf).flatten))
    (input.map fun segment => climbs (adjacent (metersOf segment)))
  elevationLoss : SumsExactly (drops (adjacent (input.map metersOf).flatten))
    (input.map fun segment => drops (adjacent (metersOf segment)))

/--
What is added up for these segments.
-/
structure AddsUp (distance : Coordinate → Coordinate → F64) (input : List GpxTrackSegment)
    (statistics : RecordedStatistics) : Prop where
  distanceMeters : statistics.distanceMeters = sumOf ((kept input).flatMap (distances distance))
  elevationGain : statistics.elevationGainMeters.getD (.fin 0)
    = sumOf (climbs (adjacent (input.map metersOf).flatten))
  elevationLoss : statistics.elevationLossMeters.getD (.fin 0)
    = sumOf (drops (adjacent (input.map metersOf).flatten))
  pointCount : statistics.pointCount = (input.map fun segment => segment.points.length).sum
  segmentCount : statistics.segmentCount = input.length

section Additive

variable {externals : NormalizationExternals} {input : List GpxTrackSegment}

theorem meters_elevationsOf (input : List GpxTrackSegment)
    : ((elevationsOf externals (input.flatMap (·.points))).filterMap id).map (·.meters)
        = (input.map metersOf).flatten := by
  have hpoint : ∀ pt : GpxTrackPoint,
      (Option.map Elevation.meters ((toTrackPoint externals pt).elevation)) = pt.elevation := by
    intro pt
    unfold toTrackPoint
    cases pt.elevation <;> rfl
  unfold elevationsOf metersOf
  rw [List.filterMap_map, List.map_filterMap, ← List.flatMap_def, ← List.filterMap_flatMap]
  apply List.filterMap_congr
  intro pt _
  exact hpoint pt

theorem NormalizedFrom.addsUp {normalized : NormalizedTrack} (h : NormalizedFrom externals input normalized)
    : AddsUp externals.distance input normalized.recordedTrack.statistics := by
  obtain ⟨hgain, hloss⟩ := calculateElevationStats_getD (elevationsOf externals (input.flatMap (·.points)))
  rw [← h.elevations, meters_elevationsOf] at hgain hloss
  constructor
  . exact h.distanceMeters
  . exact hgain
  . exact hloss
  . rw [h.pointCount, List.length_flatMap]
  . exact h.segmentCount

-- what the parts add up to, one by one
theorem map_eq_of_forall₂ {α β γ : Type} {R : α → β → Prop} {as : List α} {bs : List β} {f : α → γ} {g : β → γ}
    (h : List.Forall₂ R as bs) (hfg : ∀ a ∈ as, ∀ b, R a b → f a = g b) : as.map f = bs.map g := by
  induction h with
  | nil => rfl
  | cons hab _ ih =>
    rw [List.map_cons, List.map_cons, hfg _ List.mem_cons_self _ hab,
      ih fun a ha => hfg a (List.mem_cons_of_mem _ ha)]

theorem level_iff
    : Level input ↔ climbs (seams (input.map metersOf)) = [] ∧ drops (seams (input.map metersOf)) = [] := by
  unfold Level
  induction seams (input.map metersOf) with
  | nil => exact ⟨fun _ => ⟨rfl, rfl⟩, fun _ _ h => absurd h List.not_mem_nil⟩
  | cons pair pairs ih =>
    have hclimbs : climbs (pair :: pairs) = climbs [pair] ++ climbs pairs := climbs_append [pair] pairs
    have hdrops : drops (pair :: pairs) = drops [pair] ++ drops pairs := drops_append [pair] pairs
    rw [List.forall_mem_cons, ih, hclimbs, hdrops, List.append_eq_nil_iff, List.append_eq_nil_iff]
    tauto

/--
Each of the segments has been taken alone.
-/
def Alone (externals : NormalizationExternals) (input : List GpxTrackSegment) (parts : List RecordedStatistics)
    : Prop :=
  List.Forall₂ (fun segment part => ∃ normalized, normalizeGpx externals (alone segment) = .ok normalized
    ∧ normalized.recordedTrack.statistics = part) input parts

theorem Alone.map_eq {α : Type} {parts : List RecordedStatistics} {f : GpxTrackSegment → α}
    {g : RecordedStatistics → α} (h : Alone externals input parts)
    (hlong : ∀ segment ∈ input, 2 ≤ segment.points.length)
    (hfg : ∀ segment part, 2 ≤ segment.points.length → AddsUp externals.distance [segment] part →
      f segment = g part)
    : input.map f = parts.map g := by
  apply map_eq_of_forall₂ h
  rintro segment hsegment part ⟨normalized, hok, rfl⟩
  have hkept : longEnough (segmentsOf (alone segment)) = [segment] := by
    simp [longEnough, segmentsOf, alone, hlong segment hsegment]
  have hfrom := normalizedFrom_of_normalizeGpx hok
  rw [hkept] at hfrom
  exact hfg segment _ (hlong segment hsegment) hfrom.addsUp

/--
What is added up for each of the parts.
-/
structure PartsAddUp (distance : Coordinate → Coordinate → F64) (input : List GpxTrackSegment)
    (parts : List RecordedStatistics) : Prop where
  distanceMeters : parts.map (·.distanceMeters) = ((kept input).map (distances distance)).map sumOf
  elevationGain : parts.map (fun part => part.elevationGainMeters.getD (.fin 0))
    = (input.map fun segment => climbs (adjacent (metersOf segment))).map sumOf
  elevationLoss : parts.map (fun part => part.elevationLossMeters.getD (.fin 0))
    = (input.map fun segment => drops (adjacent (metersOf segment))).map sumOf
  pointCount : parts.map (·.pointCount) = input.map fun segment => segment.points.length
  segmentCount : parts.map (·.segmentCount) = input.map fun _ => 1

theorem Alone.partsAddUp {parts : List RecordedStatistics} (h : Alone externals input parts)
    (hlong : ∀ segment ∈ input, 2 ≤ segment.points.length) : PartsAddUp externals.distance input parts := by
  constructor
  . have hkept : (kept input).map (distances externals.distance)
        = input.map fun segment => distances externals.distance (segment.points.map coordinateOf) := by
      have hall : input.filter (fun segment => 2 ≤ segment.points.length) = input := by simpa using hlong
      rw [kept, hall, List.map_map]
      rfl
    rw [hkept, List.map_map]
    symm
    apply h.map_eq hlong
    intro segment part hsegment hpart
    rw [hpart.distanceMeters]
    simp [kept, hsegment]
  . rw [List.map_map]
    symm
    apply h.map_eq hlong
    intro segment part _ hpart
    rw [hpart.elevationGain, List.map_singleton, List.flatten_singleton]
    rfl
  . rw [List.map_map]
    symm
    apply h.map_eq hlong
    intro segment part _ hpart
    rw [hpart.elevationLoss, List.map_singleton, List.flatten_singleton]
    rfl
  . symm
    apply h.map_eq hlong
    intro segment part _ hpart
    rw [hpart.pointCount, List.map_singleton, List.sum_singleton]
  . symm
    apply h.map_eq hlong
    intro segment part _ hpart
    exact hpart.segmentCount.symm

variable {whole : RecordedStatistics} {parts : List RecordedStatistics}

theorem AddsUp.pointCount_eq (h : AddsUp externals.distance input whole)
    (hparts : PartsAddUp externals.distance input parts) : whole.pointCount = (parts.map (·.pointCount)).sum := by
  rw [h.pointCount, hparts.pointCount]

theorem AddsUp.segmentCount_eq (h : AddsUp externals.distance input whole)
    (hparts : PartsAddUp externals.distance input parts)
    : whole.segmentCount = (parts.map (·.segmentCount)).sum := by
  rw [h.segmentCount, hparts.segmentCount, List.map_const', List.sum_replicate_nat, Nat.mul_one]

theorem AddsUp.splits (h : AddsUp externals.distance input whole)
    (hparts : PartsAddUp externals.distance input parts) (hlevel : Level input) : Splits whole parts := by
  constructor
  . refine ⟨_, ?_, hparts.distanceMeters⟩
    rw [h.distanceMeters, List.flatMap_def]
  . refine ⟨_, ?_, hparts.elevationGain⟩
    rw [h.elevationGain, pick_flatten rfl climbs_append (level_iff.mp hlevel).1, List.map_map]
    rfl
  . refine ⟨_, ?_, hparts.elevationLoss⟩
    rw [h.elevationLoss, pick_flatten rfl drops_append (level_iff.mp hlevel).2, List.map_map]
    rfl
  . exact h.pointCount_eq hparts
  . exact h.segmentCount_eq hparts

theorem AddsUp.additive_iff (h : AddsUp externals.distance input whole)
    (hparts : PartsAddUp externals.distance input parts)
    (hunrounded : Unrounded externals.distance input) : Additive whole parts ↔ Level input := by
  have hperm := perm_adjacent_flatten (input.map metersOf)
  have hclimbs := climbs_perm hperm
  have hdrops := drops_perm hperm
  rw [climbs_append, pick_flatMap rfl climbs_append, List.map_map] at hclimbs
  rw [drops_append, pick_flatMap rfl drops_append, List.map_map] at hdrops
  have hgain := sumOf_eq_iff hunrounded.elevationGain hclimbs fun _ hd => pos_of_mem_climbs hd
  have hloss := sumOf_eq_iff hunrounded.elevationLoss hdrops fun _ hd => pos_of_mem_drops hd
  rw [← hparts.elevationGain, ← h.elevationGain] at hgain
  rw [← hparts.elevationLoss, ← h.elevationLoss] at hloss
  rw [level_iff, ← hgain, ← hloss]
  constructor
  . intro hadditive
    exact ⟨hadditive.elevationGain, hadditive.elevationLoss⟩
  . rintro ⟨hgain', hloss'⟩
    constructor
    . have hall : (((kept input).flatMap (distances externals.distance)).Perm
          (((kept input).map (distances externals.distance)).flatten ++ [])) := by
        rw [List.append_nil, List.flatMap_def]
      rw [h.distanceMeters, hparts.distanceMeters]
      exact (sumOf_eq_iff hunrounded.distanceMeters hall fun d hd => absurd hd List.not_mem_nil).mpr rfl
    . exact hgain'
    . exact hloss'
    . exact h.pointCount_eq hparts
    . exact h.segmentCount_eq hparts

theorem exists_alone (hlong : ∀ segment ∈ input, 2 ≤ segment.points.length)
    (hrange : ∀ segment ∈ input, ∀ pt ∈ segment.points, (coordinateOf pt).InRange)
    : ∃ parts, Alone externals input parts := by
  induction input with
  | nil => exact ⟨[], .nil⟩
  | cons segment input ih =>
    rw [List.forall_mem_cons] at hlong hrange
    obtain ⟨parts, hparts⟩ := ih hlong.2 hrange.2
    have hsegments : segmentsOf (alone segment) = [segment] := rfl
    have hkept : longEnough (segmentsOf (alone segment)) ≠ [] := by
      simp [longEnough, hsegments, hlong.1]
    obtain ⟨loop, hrun⟩ : ∃ loop, Loop.run externals (alone segment) = .ok loop := by
      apply Loop.exists_run
      simpa [alone] using hrange.1
    rcases normalizeGpx_cases hrun with ⟨hnil, _⟩ | ⟨normalized, hok, _⟩
    . exact absurd hnil hkept
    . exact ⟨_, .cons ⟨normalized, hok, rfl⟩ hparts⟩

end Additive

def levelPoint (meters : ℚ) : GpxTrackPoint where
  lat := .fin 46
  lon := .fin 7
  elevation := some (.fin meters)
  time := none

def levelFile (first second : ℚ) : GpxParseResult where
  version := .gpx11
  metadata := ⟨none, none, none⟩
  tracks := [
    ⟨none, [⟨[levelPoint first, levelPoint (first + 5)]⟩, ⟨[levelPoint 9000]⟩]⟩,
    ⟨none, [⟨[levelPoint second, levelPoint (second - 5)]⟩]⟩
  ]
  totalPoints := 5

def levelNormalization : NormalizationExternals where
  distance _ _ := .fin 0
  parseTimestamp _ := none
  recordedTrackId := ⟨⟨4⟩⟩

def statisticsOf (parseResult : GpxParseResult) : Option RecordedStatistics :=
  (normalizeGpx levelNormalization parseResult).toOption.map (·.recordedTrack.statistics)

theorem exists_normalized_of_statisticsOf {parseResult : GpxParseResult} {statistics : RecordedStatistics}
    (h : statisticsOf parseResult = some statistics)
    : ∃ normalized, normalizeGpx levelNormalization parseResult = .ok normalized
        ∧ normalized.recordedTrack.statistics = statistics := by
  unfold statisticsOf at h
  cases hok : normalizeGpx levelNormalization parseResult with
  | error e =>
    rw [hok] at h
    cases h
  | ok normalized =>
    rw [hok] at h
    exact ⟨normalized, rfl, Option.some.inj h⟩

def levelStatistics (gain loss : ℚ) (pointCount segmentCount : Nat) : RecordedStatistics where
  distanceMeters := .fin 0
  durationSeconds := none
  elevationGainMeters := some (.fin gain)
  elevationLossMeters := some (.fin loss)
  pointCount := pointCount
  segmentCount := segmentCount

end RecordedActivity
