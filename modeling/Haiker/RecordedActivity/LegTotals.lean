import Mathlib.Algebra.BigOperators.Group.List.Basic
import Mathlib.Data.List.ReduceOption
import Haiker.Imports.Limits
import Haiker.RecordedActivity.LegStats
import Haiker.RecordedActivity.Lemmas.Normalization
import Haiker.RecordedActivity.Lemmas.RecordedRoute

/-!
This module contains that the statistics of an activity are the sums of those of its legs over exact
arithmetic, in whichever order and groups they are added up, and that no counter overflows.
-/

open Rust
open ActivityCatalog (Activity ActivityId)
open Imports (GpxParseResult NormalizedTrack parseGpx)
open Imports.PgImportCommitter (asI32)

namespace RecordedActivity

open PgRecordedRouteRepository (asU32)

/--
The repository answers every call for the legs of an activity.
-/
structure Answers {ν : Type} (repo : LegRepository ν) (activityId : ActivityId) (legs : List Leg)
    (summaries : List (Option (LegSummary ν))) : Prop where
  listLegs : repo.listLegs activityId = .ok legs
  getLegSummary : legs.map (fun leg => repo.getLegSummary leg.id) = summaries.map .ok

-- legs without statistics count as empty ones
def filled {ν : Type} [Zero ν] (answers : List (Option (LegSummary ν))) : List (LegSummary ν) :=
  answers.map fun answer => answer.getD .empty

section Sums

variable {ν : Type} [AddCommMonoid ν]

/--
The sum of the values that are there, `none` if there are none.
-/
def sumOfPresent (values : List (Option ν)) : Option ν :=
  if values.reduceOption.isEmpty then none else some values.reduceOption.sum

/--
Every field of `total` is the sum of this field.
-/
structure IsTotal (summaries : List (LegSummary ν)) (total : LegSummary ν) : Prop where
  distanceMeters : total.distanceMeters = (summaries.map (·.distanceMeters)).sum
  elevationGainMeters : total.elevationGainMeters = sumOfPresent (summaries.map (·.elevationGainMeters))
  elevationLossMeters : total.elevationLossMeters = sumOfPresent (summaries.map (·.elevationLossMeters))
  pointCount : total.pointCount = (summaries.map (·.pointCount)).sum
  durationSeconds : total.durationSeconds = sumOfPresent (summaries.map (·.durationSeconds))

/-
The optional values under `combineOptional`.
-/

@[simp]
theorem combineOptional_none (a : Option ν) : combineOptional a none = a := by cases a <;> rfl

@[simp]
theorem none_combineOptional (a : Option ν) : combineOptional none a = a := by cases a <;> rfl

theorem combineOptional_comm (a b : Option ν) : combineOptional a b = combineOptional b a := by
  cases a <;> cases b <;> simp [combineOptional, add_comm]

theorem combineOptional_assoc (a b c : Option ν)
    : combineOptional (combineOptional a b) c = combineOptional a (combineOptional b c) := by
  cases a <;> cases b <;> cases c <;> simp [combineOptional, add_assoc]

theorem sumOfPresent_cons (value : Option ν) (values : List (Option ν))
    : sumOfPresent (value :: values) = combineOptional value (sumOfPresent values) := by
  cases value with
  | none => rw [none_combineOptional, sumOfPresent, List.reduceOption_cons_of_none, sumOfPresent]
  | some x =>
    unfold sumOfPresent
    rw [List.reduceOption_cons_of_some, List.sum_cons]
    cases values.reduceOption with
    | nil => simp [combineOptional]
    | cons y ys => rfl

/-
The statistics without a bound on the counter.
-/

namespace LegSummary

instance : Add (LegSummary ν) where
  add a b := {
    distanceMeters := a.distanceMeters + b.distanceMeters
    elevationGainMeters := combineOptional a.elevationGainMeters b.elevationGainMeters
    elevationLossMeters := combineOptional a.elevationLossMeters b.elevationLossMeters
    pointCount := a.pointCount + b.pointCount
    durationSeconds := combineOptional a.durationSeconds b.durationSeconds
  }

theorem add_eq (a b : LegSummary ν) : a + b = {
    distanceMeters := a.distanceMeters + b.distanceMeters
    elevationGainMeters := combineOptional a.elevationGainMeters b.elevationGainMeters
    elevationLossMeters := combineOptional a.elevationLossMeters b.elevationLossMeters
    pointCount := a.pointCount + b.pointCount
    durationSeconds := combineOptional a.durationSeconds b.durationSeconds
  } := rfl

instance : Zero (LegSummary ν) := ⟨.empty⟩

instance : AddCommMonoid (LegSummary ν) where
  nsmul := nsmulRec
  add_assoc a b c := by simp [add_eq, combineOptional_assoc, add_assoc]
  add_comm a b := by simp [add_eq, combineOptional_comm, add_comm]
  zero_add a := by
    show empty + a = a
    simp [add_eq, empty]
  add_zero a := by
    show a + empty = a
    simp [add_eq, empty]

@[simp]
theorem pointCount_add (a b : LegSummary ν) : (a + b).pointCount = a.pointCount + b.pointCount := rfl

theorem empty_eq_zero : (empty : LegSummary ν) = 0 := rfl

theorem combine_of_lt {a b : LegSummary ν} (h : (a + b).pointCount < UInt32.size)
    : a.combine b = .ok (a + b) := by
  have hcount : (addU32 a.pointCount b.pointCount : Except (Fault LegError) Nat)
      = .ok (a + b).pointCount := if_pos h
  unfold combine
  rw [hcount]
  rfl

theorem combine_of_le {a b : LegSummary ν} (h : UInt32.size ≤ (a + b).pointCount)
    : a.combine b = .error .panic := by
  have hcount : (addU32 a.pointCount b.pointCount : Except (Fault LegError) Nat)
      = .error .panic := if_neg (Nat.not_lt.mpr h)
  unfold combine
  rw [hcount]
  rfl

end LegSummary

theorem isTotal_sum (summaries : List (LegSummary ν)) : IsTotal summaries summaries.sum := by
  induction summaries with
  | nil => exact ⟨rfl, rfl, rfl, rfl, rfl⟩
  | cons summary summaries ih =>
    rw [List.sum_cons]
    constructor
    . rw [List.map_cons, List.sum_cons, ← ih.distanceMeters]
      rfl
    . rw [List.map_cons, sumOfPresent_cons, ← ih.elevationGainMeters]
      rfl
    . rw [List.map_cons, sumOfPresent_cons, ← ih.elevationLossMeters]
      rfl
    . rw [List.map_cons, List.sum_cons, ← ih.pointCount]
      rfl
    . rw [List.map_cons, sumOfPresent_cons, ← ih.durationSeconds]
      rfl

/-
The loop of `get_aggregated_stats`.
-/

-- as far as the counter holds it
def bounded (total : LegSummary ν) : Except (Fault LegError) (LegSummary ν) :=
  if total.pointCount < UInt32.size then .ok total else .error .panic

theorem combine_eq_bounded (a b : LegSummary ν) : a.combine b = bounded (a + b) := by
  unfold bounded
  split
  . next h => exact LegSummary.combine_of_lt h
  . next h => exact LegSummary.combine_of_le (Nat.not_lt.mp h)

theorem bounded_add (a b : LegSummary ν)
    : bounded (a + b) = (do (← bounded a).combine (← bounded b)) := by
  by_cases ha : a.pointCount < UInt32.size
  . by_cases hb : b.pointCount < UInt32.size
    . have hleft : bounded a = .ok a := if_pos ha
      have hright : bounded b = .ok b := if_pos hb
      rw [hleft, hright, ← combine_eq_bounded]
      rfl
    . have hleft : bounded a = .ok a := if_pos ha
      have hright : bounded b = .error .panic := if_neg hb
      have hsum : ¬(a + b).pointCount < UInt32.size := by
        rw [LegSummary.pointCount_add]
        omega
      rw [hleft, hright, bounded, if_neg hsum]
      rfl
  . have hleft : bounded a = .error .panic := if_neg ha
    have hsum : ¬(a + b).pointCount < UInt32.size := by
      rw [LegSummary.pointCount_add]
      omega
    rw [hleft, bounded, if_neg hsum]
    rfl

variable {repo : LegRepository ν} {activityId : ActivityId} {legs : List Leg}
  {answers : List (Option (LegSummary ν))}

theorem ActivityLegStats.next_of_answer {leg : Leg} {answer : Option (LegSummary ν)}
    (h : repo.getLegSummary leg.id = .ok answer) (stats : ActivityLegStats ν)
    : stats.next repo leg = (bounded (stats.total + answer.getD .empty)).map fun total =>
        { total, perLeg := stats.perLeg ++ [⟨leg, answer.getD .empty⟩] } := by
  unfold next
  rw [h, ← combine_eq_bounded]
  show (stats.total.combine (answer.getD .empty)).bind (fun total =>
    .ok (ActivityLegStats.mk total (stats.perLeg ++ [⟨leg, answer.getD .empty⟩]))) = _
  cases stats.total.combine (answer.getD .empty) <;> rfl

theorem ActivityLegStats.run_next (stats : ActivityLegStats ν) (hstats : stats.total.pointCount < UInt32.size)
    (h : legs.map (fun leg => repo.getLegSummary leg.id) = answers.map .ok)
    : legs.foldlM (next repo) stats = (bounded (stats.total + (filled answers).sum)).map fun total =>
        { total, perLeg := stats.perLeg ++ legs.zipWith LegWithSummary.mk (filled answers) } := by
  induction legs generalizing answers stats with
  | nil =>
    obtain rfl : answers = [] := List.map_eq_nil_iff.mp h.symm
    have hsum : bounded (stats.total + (filled ([] : List (Option (LegSummary ν)))).sum) = .ok stats.total := by
      show bounded (stats.total + 0) = _
      rw [add_zero, bounded, if_pos hstats]
    rw [hsum, List.zipWith_nil_left, List.append_nil]
    rfl
  | cons leg legs ih =>
    cases answers with
    | nil => cases h
    | cons answer answers =>
      obtain ⟨hanswer, hrest⟩ := List.cons.inj h
      have hfilled : filled (answer :: answers) = answer.getD .empty :: filled answers := rfl
      rw [List.foldlM_cons, next_of_answer hanswer, hfilled, List.sum_cons, ← add_assoc]
      unfold bounded
      by_cases hfits : (stats.total + answer.getD .empty).pointCount < UInt32.size
      . rw [if_pos hfits]
        refine (ih _ hfits hrest).trans ?_
        rw [bounded, List.append_assoc]
        rfl
      . have hover : ¬(stats.total + answer.getD .empty + (filled answers).sum).pointCount < UInt32.size := by
          rw [LegSummary.pointCount_add]
          omega
        rw [if_neg hfits, if_neg hover]
        rfl

theorem getAggregatedStats_eq (h : Answers repo activityId legs answers)
    : getAggregatedStats repo activityId = (bounded (filled answers).sum).map fun total =>
        { total, perLeg := legs.zipWith LegWithSummary.mk (filled answers) } := by
  have hrun := ActivityLegStats.run_next { total := .empty, perLeg := [] }
    (Nat.zero_lt_succ _) h.getLegSummary
  unfold getAggregatedStats
  rw [h.listLegs]
  refine hrun.trans ?_
  rw [LegSummary.empty_eq_zero, zero_add]
  rfl

theorem map_total (h : Answers repo activityId legs answers)
    : (getAggregatedStats repo activityId).map (·.total) = bounded (filled answers).sum := by
  rw [getAggregatedStats_eq h]
  cases bounded (filled answers).sum <;> rfl

/-
The loop of `get_activity_detail`.
-/

theorem DetailLoop.next_of_answer {leg : Leg} {answer : Option (LegSummary ν)}
    (h : repo.getLegSummary leg.id = .ok answer) (loop : DetailLoop ν)
    : (loop.next repo leg).totalDistance = loop.totalDistance + (answer.getD .empty).distanceMeters
        ∧ (loop.next repo leg).totalElevationGain
          = combineOptional loop.totalElevationGain (answer.getD .empty).elevationGainMeters := by
  unfold next
  rw [h]
  cases answer with
  | none =>
    constructor
    . exact (add_zero _).symm
    . exact (combineOptional_none _).symm
  | some summary =>
    refine ⟨rfl, ?_⟩
    obtain ⟨_, gain, _, _, _⟩ := summary
    cases gain with
    | none => exact (combineOptional_none _).symm
    | some gain => cases loop.totalElevationGain <;> simp [Except.toOption, combineOptional]

theorem DetailLoop.run_next (loop : DetailLoop ν)
    (h : legs.map (fun leg => repo.getLegSummary leg.id) = answers.map .ok)
    : (legs.foldl (next repo) loop).totalDistance = loop.totalDistance + (filled answers).sum.distanceMeters
        ∧ (legs.foldl (next repo) loop).totalElevationGain
          = combineOptional loop.totalElevationGain (filled answers).sum.elevationGainMeters := by
  induction legs generalizing answers loop with
  | nil =>
    obtain rfl : answers = [] := List.map_eq_nil_iff.mp h.symm
    exact ⟨(add_zero _).symm, (combineOptional_none _).symm⟩
  | cons leg legs ih =>
    cases answers with
    | nil => cases h
    | cons answer answers =>
      obtain ⟨hanswer, hrest⟩ := List.cons.inj h
      obtain ⟨hdistance, hgain⟩ := next_of_answer hanswer loop
      obtain ⟨ihdistance, ihgain⟩ := ih (loop.next repo leg) hrest
      rw [List.foldl_cons, ihdistance, ihgain, hdistance, hgain, add_assoc, combineOptional_assoc]
      exact ⟨rfl, rfl⟩

/--
The detail page reports the distance and the elevation gain of `total`, if the activity has a leg.
-/
def Agrees (detail : ActivityDetailResponse ν) (legs : List Leg) (total : LegSummary ν) : Prop :=
  (legs = [] ∧ detail.aggregatedStats = none)
    ∨ legs ≠ [] ∧ ∃ stats, detail.aggregatedStats = some stats
      ∧ stats.totalDistance = total.distanceMeters ∧ stats.totalElevationGain = total.elevationGainMeters

theorem getActivityDetail_agrees (h : Answers repo activityId legs answers) {activity : Activity}
    (hid : activity.id = activityId) : Agrees (getActivityDetail repo activity) legs (filled answers).sum := by
  subst hid
  have hlegs : ((repo.listLegs activity.id).toOption).getD [] = legs := by rw [h.listLegs]; rfl
  unfold getActivityDetail
  simp only [hlegs]
  let start : DetailLoop ν := { legSummaries := [], totalDistance := 0, totalElevationGain := none, dates := [] }
  obtain ⟨hdistance, hgain⟩ : (legs.foldl (DetailLoop.next repo) start).totalDistance
        = start.totalDistance + (filled answers).sum.distanceMeters
      ∧ (legs.foldl (DetailLoop.next repo) start).totalElevationGain
        = combineOptional start.totalElevationGain (filled answers).sum.elevationGainMeters :=
    start.run_next h.getLegSummary
  rw [zero_add] at hdistance
  rw [none_combineOptional] at hgain
  cases legs with
  | nil => exact .inl ⟨rfl, rfl⟩
  | cons leg legs => exact .inr ⟨List.cons_ne_nil _ _, _, rfl, hdistance, hgain⟩

end Sums

section Counters

variable {ν : Type} [Zero ν] {answers : List (Option (LegSummary ν))}

/-
The counters.
-/

/--
The statistics of a recording that the import accepts.
-/
def Importable (statistics : RecordedStatistics) : Prop :=
  ∃ (codec : Xml.Codec) (input : Bytes) (parseResult : GpxParseResult) (externals : NormalizationExternals)
    (normalized : NormalizedTrack), Imports.parseGpx codec input = .ok parseResult
      ∧ normalizeGpx externals parseResult = .ok normalized ∧ normalized.recordedTrack.statistics = statistics

theorem Importable.counts_le {statistics : RecordedStatistics} (h : Importable statistics)
    : statistics.pointCount ≤ Imports.GpxParser.MAX_POINTS
        ∧ statistics.segmentCount ≤ Imports.GpxParser.MAX_SEGMENTS := by
  obtain ⟨codec, input, parseResult, externals, normalized, hparse, hnormalize, rfl⟩ := h
  obtain ⟨text, s, haccepted⟩ := Imports.GpxParser.accepted_of_parseGpx hparse
  have hlimited := haccepted.limited
  have hfrom := normalizedFrom_of_normalizeGpx hnormalize
  have hkept : (longEnough (segmentsOf parseResult)).Sublist (segmentsOf parseResult) := List.filter_sublist
  rw [hfrom.pointCount, hfrom.segmentCount]
  refine ⟨?_, hkept.length_le.trans hlimited.segments⟩
  rw [List.length_flatMap]
  exact ((hkept.map _).sum_le_sum (fun _ _ => Nat.zero_le _)).trans hlimited.points

theorem sum_map_le {α : Type} {f : α → Nat} {bound : Nat} {items : List α} (h : ∀ item ∈ items, f item ≤ bound)
    : (items.map f).sum ≤ items.length * bound := by
  have hle := List.sum_le_card_nsmul (items.map f) bound (by simpa using h)
  rwa [List.length_map, nsmul_eq_mul, Nat.cast_id] at hle

/--
Statistics that the repository reads back from the tracks of the legs, as far as they have one.
-/
def Recorded (answers : List (Option (LegSummary ν))) (tracks : List (Option RecordedStatistics)) : Prop :=
  answers.map (Option.map (·.pointCount))
    = tracks.map (Option.map fun statistics => asU32 (asI32 statistics.pointCount))

theorem pointCounts_of_recorded {tracks : List (Option RecordedStatistics)} (h : Recorded answers tracks)
    (himported : ∀ statistics, some statistics ∈ tracks → Importable statistics)
    : ((filled answers).map (·.pointCount)).sum = (tracks.reduceOption.map (·.pointCount)).sum := by
  induction answers generalizing tracks with
  | nil =>
    obtain rfl : tracks = [] := List.map_eq_nil_iff.mp h.symm
    rfl
  | cons answer answers ih =>
    cases tracks with
    | nil => cases h
    | cons track tracks =>
      obtain ⟨hcount, hrest⟩ := List.cons.inj h
      have ihrest := ih hrest fun statistics hmem => himported statistics (List.mem_cons_of_mem _ hmem)
      have hfilled : filled (answer :: answers) = answer.getD .empty :: filled answers := rfl
      rw [hfilled, List.map_cons, List.sum_cons, ihrest]
      cases track with
      | none =>
        obtain rfl : answer = none := by simpa using hcount
        rw [List.reduceOption_cons_of_none]
        exact Nat.zero_add _
      | some statistics =>
        obtain ⟨summary, rfl, hsummary⟩ : ∃ summary, answer = some summary
            ∧ summary.pointCount = asU32 (asI32 statistics.pointCount) := by
          simpa using hcount
        have hle := (himported statistics List.mem_cons_self).counts_le.1
        have hsize : Imports.GpxParser.MAX_POINTS < UInt32.size := by decide
        rw [PgRecordedRouteRepository.asU32_asI32, Nat.mod_eq_of_lt (by omega)] at hsummary
        rw [List.reduceOption_cons_of_some, List.map_cons, List.sum_cons, ← hsummary]
        rfl

theorem counters_of_recorded {tracks : List (Option RecordedStatistics)}
    (himported : ∀ statistics, some statistics ∈ tracks → Importable statistics)
    (hlength : tracks.length ≤ MAX_LEGS_PER_ACTIVITY)
    : (tracks.reduceOption.map (·.pointCount)).sum < UInt32.size
        ∧ (tracks.reduceOption.map (·.segmentCount)).sum < UInt32.size := by
  have hmem : ∀ statistics ∈ tracks.reduceOption, Importable statistics := by
    intro statistics hmem
    exact himported statistics (List.reduceOption_mem_iff.mp hmem)
  have hpoints := sum_map_le fun statistics hstatistics => (hmem statistics hstatistics).counts_le.1
  have hsegments := sum_map_le fun statistics hstatistics => (hmem statistics hstatistics).counts_le.2
  have hcount : tracks.reduceOption.length ≤ MAX_LEGS_PER_ACTIVITY :=
    (List.reduceOption_length_le tracks).trans hlength
  have hpoints' := Nat.mul_le_mul_right Imports.GpxParser.MAX_POINTS hcount
  have hsegments' := Nat.mul_le_mul_right Imports.GpxParser.MAX_SEGMENTS hcount
  constructor
  . exact (hpoints.trans hpoints').trans_lt (by decide)
  . exact (hsegments.trans hsegments').trans_lt (by decide)

end Counters

section Sums

variable {ν : Type} [AddCommMonoid ν] {repo : LegRepository ν} {activityId : ActivityId} {legs : List Leg}
  {answers : List (Option (LegSummary ν))}

/--
The statistics of an activity are the sums of those of its legs, absent values being left out, and the
detail page agrees with them. The legs may come in any order and may be added up in groups. With as many
legs as there may be, all of them imported, no counter overflows.
-/
theorem aggregated_stats_fold (h : Answers repo activityId legs answers)
    : (((filled answers).map (·.pointCount)).sum < UInt32.size →
        ∃ stats, getAggregatedStats repo activityId = .ok stats ∧ IsTotal (filled answers) stats.total
          ∧ stats.perLeg = legs.zipWith LegWithSummary.mk (filled answers)
          ∧ ∀ activity : Activity, activity.id = activityId →
            Agrees (getActivityDetail repo activity) legs stats.total)
      ∧ (UInt32.size ≤ ((filled answers).map (·.pointCount)).sum →
        getAggregatedStats repo activityId = .error .panic)
      ∧ (∀ (repo' : LegRepository ν) activityId' legs' answers', Answers repo' activityId' legs' answers' →
        answers'.Perm answers →
          (getAggregatedStats repo' activityId').map (·.total)
            = (getAggregatedStats repo activityId).map (·.total))
      ∧ (∀ (repo₁ repo₂ : LegRepository ν) activityId₁ activityId₂ legs₁ legs₂ answers₁ answers₂,
        Answers repo₁ activityId₁ legs₁ answers₁ → Answers repo₂ activityId₂ legs₂ answers₂ →
          answers = answers₁ ++ answers₂ →
            (getAggregatedStats repo activityId).map (·.total) = do
              (← getAggregatedStats repo₁ activityId₁).total.combine
                (← getAggregatedStats repo₂ activityId₂).total)
      ∧ ∀ tracks, Recorded answers tracks → (∀ statistics, some statistics ∈ tracks → Importable statistics) →
        legs.length ≤ MAX_LEGS_PER_ACTIVITY →
          ((filled answers).map (·.pointCount)).sum = (tracks.reduceOption.map (·.pointCount)).sum
            ∧ (tracks.reduceOption.map (·.pointCount)).sum < UInt32.size
            ∧ (tracks.reduceOption.map (·.segmentCount)).sum < UInt32.size := by
  have hsum := (isTotal_sum (filled answers)).pointCount
  have heq := getAggregatedStats_eq h
  refine ⟨?_, ?_, ?_, ?_, ?_⟩
  . intro hfits
    rw [← hsum] at hfits
    rw [bounded, if_pos hfits] at heq
    exact ⟨_, heq, isTotal_sum _, rfl, fun _ hid => getActivityDetail_agrees h hid⟩
  . intro hover
    rw [← hsum] at hover
    rw [bounded, if_neg (Nat.not_lt.mpr hover)] at heq
    exact heq
  . intro repo' activityId' legs' answers' h' hperm
    have hsums : (filled answers').sum = (filled answers).sum := (hperm.map _).sum_eq
    rw [map_total h, map_total h', hsums]
  . rintro repo₁ repo₂ activityId₁ activityId₂ legs₁ legs₂ answers₁ answers₂ h₁ h₂ rfl
    have hfilled : filled (answers₁ ++ answers₂) = filled answers₁ ++ filled answers₂ := List.map_append
    rw [map_total h, hfilled, List.sum_append, bounded_add, getAggregatedStats_eq h₁, getAggregatedStats_eq h₂]
    cases bounded (filled answers₁).sum with
    | error e => rfl
    | ok total => cases bounded (filled answers₂).sum <;> rfl
  . intro tracks hrecorded himported hlength
    have hlengths : tracks.length = legs.length := by
      have hanswers := congrArg List.length h.getLegSummary
      have htracks := congrArg List.length hrecorded
      simp only [List.length_map] at hanswers htracks
      omega
    exact ⟨pointCounts_of_recorded hrecorded himported, counters_of_recorded himported (hlengths ▸ hlength)⟩

end Sums

/-
Two legs of which one has no track.
-/

def sampleLeg (n : Nat) : Leg where
  id := ⟨⟨n⟩⟩
  activityId := ⟨⟨7⟩⟩
  legNumber := n
  title := none
  date := 19919
  sourceRevisionId := none
  recordedTrackId := none
  createdAt := 0
  updatedAt := 0

def sampleSummary : LegSummary ℚ where
  distanceMeters := 2500
  elevationGainMeters := some 120
  elevationLossMeters := none
  pointCount := 310
  durationSeconds := none

def sampleLegRepository : LegRepository ℚ where
  listLegs _ := .ok [sampleLeg 1, sampleLeg 2]
  getLegSummary legId := .ok (if legId = ⟨⟨1⟩⟩ then some sampleSummary else none)

theorem aggregated_stats_fold_sampleLegs
    : ∃ stats, getAggregatedStats sampleLegRepository ⟨⟨7⟩⟩ = .ok stats
        ∧ IsTotal [sampleSummary, .empty] stats.total := by
  have hanswers : Answers sampleLegRepository ⟨⟨7⟩⟩ [sampleLeg 1, sampleLeg 2]
      [some sampleSummary, none] := ⟨rfl, rfl⟩
  obtain ⟨stats, hstats, htotal, _⟩ := (aggregated_stats_fold hanswers).1 (by decide)
  exact ⟨stats, hstats, htotal⟩

/-
The code adds with `f64`. As long as no operation rounds, that makes no difference.
-/

namespace LegSummary

def toF64 (summary : LegSummary ℚ) : LegSummary F64 where
  distanceMeters := .fin summary.distanceMeters
  elevationGainMeters := summary.elevationGainMeters.map .fin
  elevationLossMeters := summary.elevationLossMeters.map .fin
  pointCount := summary.pointCount
  durationSeconds := summary.durationSeconds.map .fin

-- the sum of two numbers, if both are there
def Exact (a b : Option ℚ) : Prop := ∀ x ∈ a, ∀ y ∈ b, (F64.fin x).add (.fin y) = .fin (x + y)

structure Unrounded (a b : LegSummary ℚ) : Prop where
  distanceMeters : Exact (some a.distanceMeters) (some b.distanceMeters)
  elevationGainMeters : Exact a.elevationGainMeters b.elevationGainMeters
  elevationLossMeters : Exact a.elevationLossMeters b.elevationLossMeters
  durationSeconds : Exact a.durationSeconds b.durationSeconds

def RunsUnrounded : LegSummary ℚ → List (LegSummary ℚ) → Prop
  | _, [] => True
  | total, summary :: summaries => total.Unrounded summary ∧ (total + summary).RunsUnrounded summaries

theorem combineOptional_fin {a b : Option ℚ} (h : Exact a b)
    : combineOptional (a.map F64.fin) (b.map F64.fin) = (combineOptional a b).map F64.fin := by
  cases a with
  | none => cases b <;> rfl
  | some x =>
    cases b with
    | none => rfl
    | some y => exact congrArg some (h x rfl y rfl)

theorem combine_toF64 {a b : LegSummary ℚ} (h : a.Unrounded b)
    : a.toF64.combine b.toF64 = (a.combine b).map toF64 := by
  have hdistance : (F64.fin a.distanceMeters) + (F64.fin b.distanceMeters)
      = F64.fin (a.distanceMeters + b.distanceMeters) := h.distanceMeters _ rfl _ rfl
  unfold combine
  simp only [toF64, hdistance, combineOptional_fin h.elevationGainMeters,
    combineOptional_fin h.elevationLossMeters, combineOptional_fin h.durationSeconds]
  cases (addU32 a.pointCount b.pointCount : Except (Fault LegError) Nat) <;> rfl

end LegSummary

def LegRepository.toF64 (repo : LegRepository ℚ) : LegRepository F64 where
  listLegs := repo.listLegs
  getLegSummary legId := (repo.getLegSummary legId).map (Option.map LegSummary.toF64)

def ActivityLegStats.toF64 (stats : ActivityLegStats ℚ) : ActivityLegStats F64 where
  total := stats.total.toF64
  perLeg := stats.perLeg.map fun leg => ⟨leg.leg, leg.summary.toF64⟩

section Rounding

variable {repo : LegRepository ℚ} {activityId : ActivityId} {legs : List Leg}
  {answers : List (Option (LegSummary ℚ))}

theorem ActivityLegStats.next_toF64 {leg : Leg} {answer : Option (LegSummary ℚ)}
    (h : repo.getLegSummary leg.id = .ok answer) {stats : ActivityLegStats ℚ}
    (hexact : stats.total.Unrounded (answer.getD .empty))
    : stats.toF64.next repo.toF64 leg = (stats.next repo leg).map toF64 := by
  have hanswer : repo.toF64.getLegSummary leg.id = .ok (answer.map LegSummary.toF64) := by
    show (repo.getLegSummary leg.id).map _ = _
    rw [h]
    rfl
  have hsummary : (answer.map LegSummary.toF64).getD .empty = (answer.getD .empty).toF64 := by
    cases answer <;> rfl
  have hcombine := LegSummary.combine_toF64 hexact
  unfold next
  rw [h, hanswer]
  show (stats.total.toF64.combine ((answer.map LegSummary.toF64).getD .empty)).bind (fun total =>
      .ok (ActivityLegStats.mk total (stats.toF64.perLeg ++ [⟨leg, (answer.map LegSummary.toF64).getD .empty⟩])))
    = ((stats.total.combine (answer.getD .empty)).bind (fun total =>
      .ok (ActivityLegStats.mk total (stats.perLeg ++ [⟨leg, answer.getD .empty⟩])))).map toF64
  rw [hsummary, hcombine]
  cases stats.total.combine (answer.getD .empty) with
  | error e => rfl
  | ok total =>
    show Except.ok _ = Except.ok _
    simp [toF64]

theorem ActivityLegStats.run_toF64 (stats : ActivityLegStats ℚ)
    (h : legs.map (fun leg => repo.getLegSummary leg.id) = answers.map .ok)
    (hexact : stats.total.RunsUnrounded (filled answers))
    : legs.foldlM (next repo.toF64) stats.toF64 = (legs.foldlM (next repo) stats).map toF64 := by
  induction legs generalizing answers stats with
  | nil => rfl
  | cons leg legs ih =>
    cases answers with
    | nil => cases h
    | cons answer answers =>
      obtain ⟨hanswer, hrest⟩ := List.cons.inj h
      obtain ⟨hexact, hthen⟩ := hexact
      rw [List.foldlM_cons, List.foldlM_cons, next_toF64 hanswer hexact, next_of_answer hanswer]
      unfold bounded
      split
      . exact ih _ hrest hthen
      . rfl

theorem getAggregatedStats_toF64 (h : Answers repo activityId legs answers)
    (hexact : LegSummary.empty.RunsUnrounded (filled answers))
    : getAggregatedStats repo.toF64 activityId
        = (getAggregatedStats repo activityId).map ActivityLegStats.toF64 := by
  have hlegs : repo.toF64.listLegs activityId = .ok legs := h.listLegs
  unfold getAggregatedStats
  rw [hlegs, h.listLegs]
  exact ActivityLegStats.run_toF64 { total := .empty, perLeg := [] } h.getLegSummary hexact

end Rounding

/-
The counters do not depend on how the numbers are added.
-/

section Stored

variable {ν : Type} [Add ν] [Zero ν] {repo : LegRepository ν} {legs : List Leg}
  {answers : List (Option (LegSummary ν))}

theorem ActivityLegStats.exists_run_next (stats : ActivityLegStats ν)
    (h : legs.map (fun leg => repo.getLegSummary leg.id) = answers.map .ok)
    (hfits : stats.total.pointCount + ((filled answers).map (·.pointCount)).sum < UInt32.size)
    : ∃ stats', legs.foldlM (next repo) stats = .ok stats'
        ∧ stats'.total.pointCount = stats.total.pointCount + ((filled answers).map (·.pointCount)).sum := by
  induction legs generalizing answers stats with
  | nil =>
    obtain rfl : answers = [] := List.map_eq_nil_iff.mp h.symm
    exact ⟨stats, rfl, rfl⟩
  | cons leg legs ih =>
    cases answers with
    | nil => cases h
    | cons answer answers =>
      obtain ⟨hanswer, hrest⟩ := List.cons.inj h
      have hfilled : filled (answer :: answers) = answer.getD .empty :: filled answers := rfl
      rw [hfilled, List.map_cons, List.sum_cons, ← Nat.add_assoc] at hfits ⊢
      have hcount : (addU32 stats.total.pointCount (answer.getD .empty).pointCount : Except (Fault LegError) Nat)
          = .ok (stats.total.pointCount + (answer.getD .empty).pointCount) := if_pos (by omega)
      obtain ⟨stats', hnext, htotal⟩ : ∃ stats', stats.next repo leg = .ok stats'
          ∧ stats'.total.pointCount = stats.total.pointCount + (answer.getD .empty).pointCount := by
        have hread : repo.getLegSummary leg.id = .ok answer := hanswer
        unfold next LegSummary.combine
        rw [hread]
        simp only [Except.mapError, bind, Except.bind, hcount]
        exact ⟨_, rfl, rfl⟩
      rw [← htotal] at hfits ⊢
      rw [List.foldlM_cons, hnext]
      exact ih stats' hrest hfits

end Stored

namespace PgLegRepository

variable {table : LegTable} {db : Imports.Database}

/--
The tracks that the legs refer to have been written by imports.
-/
def TracksImported (table : LegTable) (db : Imports.Database) : Prop :=
  ∀ legId rt, findTrack table db legId = some rt → ∃ externals data,
    rt = Imports.PgImportCommitter.recordedTrack externals data ∧ Importable data.statistics

theorem exists_recorded (h : TracksImported table db) (repo : PgLegRepository) (legs : List Leg)
    : ∃ tracks, Recorded (legs.map fun leg => getLegSummary table db leg.id repo) tracks
        ∧ ∀ statistics, some statistics ∈ tracks → Importable statistics := by
  induction legs with
  | nil => exact ⟨[], rfl, fun _ hmem => absurd hmem List.not_mem_nil⟩
  | cons leg legs ih =>
    obtain ⟨tracks, hrecorded, himportable⟩ := ih
    cases htrack : findTrack table db leg.id with
    | none =>
      have hnone : getLegSummary table db leg.id repo = none := by
        unfold getLegSummary
        rw [htrack]
        rfl
      refine ⟨none :: tracks, ?_, fun statistics hmem => himportable statistics (by simpa using hmem)⟩
      unfold Recorded
      rw [List.map_cons, List.map_cons, List.map_cons, hnone, hrecorded]
      rfl
    | some rt =>
      obtain ⟨externals, data, hrow, himported⟩ := h leg.id rt htrack
      have hcount : (getLegSummary table db leg.id repo).map (·.pointCount)
          = some (asU32 (asI32 data.statistics.pointCount)) := by
        unfold getLegSummary
        rw [htrack, hrow]
        rfl
      refine ⟨some data.statistics :: tracks, ?_, ?_⟩
      . unfold Recorded
        rw [List.map_cons, List.map_cons, List.map_cons, hcount, hrecorded]
        rfl
      . intro statistics hmem
        cases List.mem_cons.mp hmem with
        | inl heq => exact (Option.some.inj heq).symm ▸ himported
        | inr hmem => exact himportable statistics hmem

/--
What the repository reads from its tables adds up without an overflow.
-/
theorem exists_getAggregatedStats (repo : PgLegRepository) {activityId : ActivityId}
    (hlength : (table.numbers activityId.val).length ≤ MAX_LEGS_PER_ACTIVITY)
    (himported : TracksImported table db)
    : ∃ stats, getAggregatedStats (repo.answering table db) activityId = .ok stats := by
  let legs := (table.legs.selectOrdered (fun row => row.activityId = activityId.val) (·.legNumber)).map rowToLeg
  have hlegs : (repo.answering table db).listLegs activityId = .ok legs := rfl
  have hanswers : ∀ listed : List Leg, listed.map (fun leg => (repo.answering table db).getLegSummary leg.id)
      = (listed.map fun leg => getLegSummary table db leg.id repo).map .ok := by
    intro listed
    rw [List.map_map]
    rfl
  have hcount : legs.length = (table.numbers activityId.val).length := by
    simp only [legs, LegTable.numbers, List.length_map]
    exact List.length_insertionSort ..
  obtain ⟨tracks, hrecorded, himportable⟩ := exists_recorded himported repo legs
  have htracks := congrArg List.length hrecorded
  simp only [List.length_map] at htracks
  have hfits := (counters_of_recorded himportable (by omega)).1
  rw [← pointCounts_of_recorded hrecorded himportable] at hfits
  obtain ⟨stats, hrun, _⟩ := ActivityLegStats.exists_run_next { total := .empty, perLeg := [] } (hanswers legs)
    ((Nat.zero_add _).trans_lt hfits)
  refine ⟨stats, ?_⟩
  unfold getAggregatedStats
  rw [hlegs]
  exact hrun

end PgLegRepository

end RecordedActivity
