import Mathlib.Tactic.Linarith
import Haiker.RecordedActivity.Lemmas.Normalization

/-!
This module contains the laws of the elevation gain and loss over exact arithmetic: what becomes of them
when the recording is reversed, and how much the dead band leaves out.
-/

open Rust

namespace RecordedActivity

namespace Exact

/-
`calculate_elevation_stats` without rounding.
-/

structure ElevationState where
  gain : ℚ
  loss : ℚ
  hasElevation : Bool
  prevElevation : Option ℚ

def ElevationState.start : ElevationState := ⟨0, 0, false, none⟩

def ElevationState.next (s : ElevationState) (meters : ℚ) : ElevationState :=
  let s' := { s with hasElevation := true, prevElevation := some meters }
  match s.prevElevation with
  | none => s'
  | some prev =>
    let diff := meters - prev
    if ELEVATION_DEAD_BAND ≤ diff then
      { s' with gain := s.gain + diff }
    else if diff ≤ -ELEVATION_DEAD_BAND then
      { s' with loss := s.loss + |diff| }
    else
      s'

-- the elevations that are there
def known (elevations : List (Option ℚ)) : List ℚ := elevations.filterMap id

def calculateElevationStats (elevations : List (Option ℚ)) : Option ℚ × Option ℚ :=
  let s := (known elevations).foldl ElevationState.next ElevationState.start
  if s.hasElevation then (some s.gain, some s.loss) else (none, none)

/-
It is what the code computes as long as no operation rounds.
-/

def ElevationState.toF64 (s : ElevationState) : RecordedActivity.ElevationState where
  gain := .fin s.gain
  loss := .fin s.loss
  hasElevation := s.hasElevation
  prevElevation := s.prevElevation.map .fin

/--
Neither the difference to the last elevation is rounded nor the sum it is added to.
-/
def ElevationState.Unrounded (s : ElevationState) (meters : ℚ) : Prop :=
  ∀ prev ∈ s.prevElevation,
    (F64.fin meters).sub (.fin prev) = .fin (meters - prev)
      ∧ (F64.fin s.gain).add (.fin (meters - prev)) = .fin (s.gain + (meters - prev))
      ∧ (F64.fin s.loss).add (.fin |meters - prev|) = .fin (s.loss + |meters - prev|)

def ElevationState.RunsUnrounded : ElevationState → List ℚ → Prop
  | _, [] => True
  | s, meters :: rest => s.Unrounded meters ∧ (s.next meters).RunsUnrounded rest

instance (s : ElevationState) (meters : ℚ) : Decidable (s.Unrounded meters) :=
  inferInstanceAs (Decidable (∀ prev ∈ s.prevElevation, _))

instance ElevationState.decidableRunsUnrounded : (s : ElevationState) → (meters : List ℚ) →
    Decidable (s.RunsUnrounded meters)
  | _, [] => isTrue trivial
  | s, meters :: rest =>
    have := decidableRunsUnrounded (s.next meters) rest
    inferInstanceAs (Decidable (s.Unrounded meters ∧ (s.next meters).RunsUnrounded rest))

def recorded (elevations : List (Option ℚ)) : List (Option Elevation) :=
  elevations.map fun elevation => elevation.map fun meters => { meters := .fin meters }

theorem ElevationState.next_toF64 {s : ElevationState} {meters : ℚ} (h : s.Unrounded meters)
    : s.toF64.next (.fin meters) = (s.next meters).toF64 := by
  unfold RecordedActivity.ElevationState.next ElevationState.next
  cases hprev : s.prevElevation with
  | none => simp [toF64, hprev]
  | some prev =>
    obtain ⟨hdiff, hgain, hloss⟩ := h prev hprev
    have hprevious : s.toF64.prevElevation = some (.fin prev) := by simp [toF64, hprev]
    simp only [hprevious, hdiff, F64.le, decide_eq_true_eq]
    split
    . simp [toF64, hgain]
    . split
      . simp [toF64, F64.abs, hloss]
      . simp [toF64]

theorem ElevationState.foldl_toF64 {meters : List ℚ} {s : ElevationState} (h : s.RunsUnrounded meters)
    : (meters.map F64.fin).foldl RecordedActivity.ElevationState.next s.toF64
        = (meters.foldl ElevationState.next s).toF64 := by
  induction meters generalizing s with
  | nil => rfl
  | cons m meters ih =>
    rw [List.map_cons, List.foldl_cons, next_toF64 h.1, ih h.2]
    rfl

theorem meters_recorded (elevations : List (Option ℚ))
    : ((recorded elevations).filterMap id).map (·.meters) = (known elevations).map F64.fin := by
  induction elevations with
  | nil => rfl
  | cons elevation elevations ih =>
    cases elevation with
    | none => exact ih
    | some meters => exact congrArg (F64.fin meters :: ·) ih

theorem calculateElevationStats_recorded {elevations : List (Option ℚ)}
    (h : ElevationState.start.RunsUnrounded (known elevations))
    : RecordedActivity.calculateElevationStats (recorded elevations)
        = ((calculateElevationStats elevations).1.map .fin, (calculateElevationStats elevations).2.map .fin) := by
  have hrun : ((recorded elevations).filterMap id).foldl (fun s e => s.next e.meters)
      RecordedActivity.ElevationState.start
      = ((known elevations).foldl ElevationState.next .start).toF64 := by
    rw [← ElevationState.foldl_toF64 h, ← meters_recorded, List.foldl_map]
    rfl
  unfold RecordedActivity.calculateElevationStats calculateElevationStats
  simp only [hrun, ElevationState.toF64]
  split <;> rfl

/-
What the differences count as.
-/

def differences (meters : List ℚ) : List ℚ := (adjacent meters).map fun (a, b) => b - a

def climb (diff : ℚ) : ℚ := if ELEVATION_DEAD_BAND ≤ diff then diff else 0

def drop (diff : ℚ) : ℚ := if diff ≤ -ELEVATION_DEAD_BAND then |diff| else 0

-- the differences that do not count
def ignored (meters : List ℚ) : List ℚ :=
  (differences meters).filter fun diff => |diff| < ELEVATION_DEAD_BAND

theorem deadBand_pos : 0 < ELEVATION_DEAD_BAND := by norm_num [ELEVATION_DEAD_BAND]

theorem climb_of_drop {diff : ℚ} (h : diff ≤ -ELEVATION_DEAD_BAND) : climb diff = 0 := by
  have hpos := deadBand_pos
  exact if_neg (by linarith)

theorem drop_of_climb {diff : ℚ} (h : ELEVATION_DEAD_BAND ≤ diff) : drop diff = 0 := by
  have hpos := deadBand_pos
  exact if_neg (by linarith)

theorem climb_neg (diff : ℚ) : climb (-diff) = drop diff := by
  unfold climb drop
  by_cases h : diff ≤ -ELEVATION_DEAD_BAND
  . have hpos := deadBand_pos
    rw [if_pos h, if_pos (by linarith), abs_of_nonpos (by linarith)]
  . rw [if_neg h, if_neg (by linarith)]

theorem drop_neg (diff : ℚ) : drop (-diff) = climb diff := by
  rw [← climb_neg, neg_neg]

theorem climb_sub_drop (diff : ℚ)
    : climb diff - drop diff = diff - if |diff| < ELEVATION_DEAD_BAND then diff else 0 := by
  have hpos := deadBand_pos
  by_cases hclimb : ELEVATION_DEAD_BAND ≤ diff
  . have habs : ¬|diff| < ELEVATION_DEAD_BAND := not_lt.mpr (hclimb.trans (le_abs_self diff))
    rw [drop_of_climb hclimb, if_neg habs]
    unfold climb
    rw [if_pos hclimb]
  . by_cases hdrop : diff ≤ -ELEVATION_DEAD_BAND
    . have habs : ¬|diff| < ELEVATION_DEAD_BAND := by
        rw [abs_of_nonpos (by linarith)]
        linarith
      rw [climb_of_drop hdrop, if_neg habs]
      unfold drop
      rw [if_pos hdrop, abs_of_nonpos (by linarith)]
      ring
    . have habs : |diff| < ELEVATION_DEAD_BAND := abs_lt.mpr ⟨by linarith, by linarith⟩
      unfold climb drop
      rw [if_neg hclimb, if_neg hdrop, if_pos habs]
      ring

theorem ElevationState.next_of_some (s : ElevationState) (prev meters : ℚ) (h : s.prevElevation = some prev)
    : (s.next meters).gain = s.gain + climb (meters - prev)
        ∧ (s.next meters).loss = s.loss + drop (meters - prev)
        ∧ (s.next meters).prevElevation = some meters := by
  unfold ElevationState.next
  simp only [h]
  by_cases hclimb : ELEVATION_DEAD_BAND ≤ meters - prev
  . rw [if_pos hclimb, drop_of_climb hclimb]
    exact ⟨by rw [climb, if_pos hclimb], (add_zero _).symm, rfl⟩
  . rw [if_neg hclimb]
    by_cases hdrop : meters - prev ≤ -ELEVATION_DEAD_BAND
    . rw [if_pos hdrop, climb_of_drop hdrop]
      exact ⟨(add_zero _).symm, by rw [drop, if_pos hdrop], rfl⟩
    . rw [if_neg hdrop, climb, if_neg hclimb, drop, if_neg hdrop]
      exact ⟨(add_zero _).symm, (add_zero _).symm, rfl⟩

/--
What has been added up when some more elevations have been met.
-/
theorem ElevationState.run_next (meters : List ℚ) (s : ElevationState)
    : (meters.foldl ElevationState.next s).gain
          = s.gain + ((differences (s.prevElevation.toList ++ meters)).map climb).sum
        ∧ (meters.foldl ElevationState.next s).loss
          = s.loss + ((differences (s.prevElevation.toList ++ meters)).map drop).sum := by
  induction meters generalizing s with
  | nil => cases s.prevElevation <;> simp [differences, adjacent]
  | cons m meters ih =>
    obtain ⟨hgain, hloss⟩ := ih (s.next m)
    rw [List.foldl_cons, hgain, hloss]
    cases hprev : s.prevElevation with
    | none =>
      have hnext : s.next m = { s with hasElevation := true, prevElevation := some m } := by
        unfold ElevationState.next
        rw [hprev]
      rw [hnext]
      exact ⟨rfl, rfl⟩
    | some prev =>
      obtain ⟨hclimb, hdrop, hthen⟩ := s.next_of_some prev m hprev
      have hpairs : differences ((some prev).toList ++ m :: meters)
          = (m - prev) :: differences (m :: meters) := rfl
      have hrest : (some m).toList ++ meters = m :: meters := rfl
      rw [hthen, hclimb, hdrop, hpairs, hrest, List.map_cons, List.map_cons, List.sum_cons, List.sum_cons]
      exact ⟨add_assoc .., add_assoc ..⟩

theorem ElevationState.hasElevation_run (meters : List ℚ) (s : ElevationState)
    : (meters.foldl ElevationState.next s).hasElevation = (s.hasElevation || !meters.isEmpty) := by
  induction meters generalizing s with
  | nil => simp
  | cons m meters ih =>
    have hnext : (s.next m).hasElevation = true := by
      unfold ElevationState.next
      cases s.prevElevation with
      | none => rfl
      | some prev =>
        simp only
        split
        . rfl
        . split <;> rfl
    rw [List.foldl_cons, ih, hnext]
    simp

theorem calculateElevationStats_eq (elevations : List (Option ℚ))
    : calculateElevationStats elevations
        = if known elevations = [] then
            (none, none)
          else
            (some ((differences (known elevations)).map climb).sum,
              some ((differences (known elevations)).map drop).sum) := by
  obtain ⟨hgain, hloss⟩ := ElevationState.run_next (known elevations) .start
  have hhas := ElevationState.hasElevation_run (known elevations) .start
  unfold calculateElevationStats
  simp only [hgain, hloss, hhas]
  cases known elevations with
  | nil => rfl
  | cons m meters => simp [ElevationState.start]

/-
The recording the other way round.
-/

theorem adjacent_reverse {α : Type} (as : List α)
    : adjacent as.reverse = ((adjacent as).map Prod.swap).reverse := by
  induction as with
  | nil => rfl
  | cons a as ih =>
    rw [List.reverse_cons, adjacent_append, ih]
    cases as with
    | nil => rfl
    | cons b bs =>
      have hseam : seam (b :: bs).reverse [a] = [(b, a)] := by
        unfold seam
        rw [List.getLast?_reverse]
        rfl
      rw [hseam]
      simp [adjacent]

theorem differences_reverse (meters : List ℚ)
    : differences meters.reverse = ((differences meters).map Neg.neg).reverse := by
  unfold differences
  rw [adjacent_reverse, List.map_reverse, List.map_map, List.map_map]
  congr 2
  funext pair
  simp

theorem known_reverse (elevations : List (Option ℚ)) : known elevations.reverse = (known elevations).reverse :=
  List.filterMap_reverse

theorem calculateElevationStats_reverse (elevations : List (Option ℚ))
    : calculateElevationStats elevations.reverse = (calculateElevationStats elevations).swap := by
  rw [calculateElevationStats_eq, calculateElevationStats_eq, known_reverse, differences_reverse]
  have hclimbs : climb ∘ Neg.neg = drop := funext climb_neg
  have hdrops : drop ∘ Neg.neg = climb := funext drop_neg
  simp only [List.reverse_eq_nil_iff, List.map_reverse, List.map_map, List.sum_reverse, hclimbs, hdrops]
  split <;> rfl

theorem calculateElevationStats_congr {elevations others : List (Option ℚ)} (h : known others = known elevations)
    : calculateElevationStats others = calculateElevationStats elevations := by
  rw [calculateElevationStats_eq, calculateElevationStats_eq, h]

/-
From the first elevation to the last.
-/

theorem sum_differences (first : ℚ) (meters : List ℚ)
    : (differences (first :: meters)).sum = (first :: meters).getLast (List.cons_ne_nil _ _) - first := by
  induction meters generalizing first with
  | nil => simp [differences, adjacent]
  | cons m meters ih =>
    have hcons : differences (first :: m :: meters) = (m - first) :: differences (m :: meters) := rfl
    rw [hcons, List.sum_cons, ih, List.getLast_cons (List.cons_ne_nil _ _)]
    ring

theorem sum_climb_sub_sum_drop (diffs : List ℚ)
    : (diffs.map climb).sum - (diffs.map drop).sum
        = diffs.sum - (diffs.filter fun diff => |diff| < ELEVATION_DEAD_BAND).sum := by
  induction diffs with
  | nil => simp
  | cons diff diffs ih =>
    have hdiff := climb_sub_drop diff
    rw [List.map_cons, List.map_cons, List.sum_cons, List.sum_cons, List.sum_cons, List.filter_cons]
    split
    . next h =>
      rw [if_pos (by simpa using h)] at hdiff
      rw [List.sum_cons]
      linarith
    . next h =>
      rw [if_neg (by simpa using h)] at hdiff
      linarith

theorem abs_sum_ignored_le (meters : List ℚ)
    : |(ignored meters).sum| ≤ (ignored meters).length * ELEVATION_DEAD_BAND := by
  have hsmall : ∀ diff ∈ ignored meters, |diff| ≤ ELEVATION_DEAD_BAND := by
    intro diff hdiff
    have hlt := (List.mem_filter.mp hdiff).2
    exact (of_decide_eq_true hlt).le
  generalize ignored meters = diffs at hsmall
  induction diffs with
  | nil => simp
  | cons diff diffs ih =>
    have hrest := ih fun d hd => hsmall d (List.mem_cons_of_mem _ hd)
    have hdiff := hsmall diff List.mem_cons_self
    have habs := abs_add_le diff diffs.sum
    rw [List.sum_cons, List.length_cons]
    push_cast
    linarith

/--
Gain and loss leave out the differences within the dead band, and no other.
-/
def Balanced (elevations : List (Option ℚ)) (gain loss : ℚ) : Prop :=
  ∃ first last, (known elevations).head? = some first ∧ (known elevations).getLast? = some last
    ∧ gain - loss = last - first - (ignored (known elevations)).sum
    ∧ |gain - loss - (last - first)| ≤ (ignored (known elevations)).length * ELEVATION_DEAD_BAND

theorem balanced_calculateElevationStats {elevations : List (Option ℚ)} {gain loss : ℚ}
    (h : calculateElevationStats elevations = (some gain, some loss)) : Balanced elevations gain loss := by
  rw [calculateElevationStats_eq] at h
  unfold Balanced
  cases hknown : known elevations with
  | nil =>
    rw [hknown] at h
    cases h
  | cons first meters =>
    rw [hknown, if_neg (List.cons_ne_nil _ _)] at h
    obtain ⟨hgain, hloss⟩ := Prod.mk.inj h
    have hbalance := sum_climb_sub_sum_drop (differences (first :: meters))
    rw [Option.some.inj hgain, Option.some.inj hloss, sum_differences] at hbalance
    have hignored := abs_sum_ignored_le (first :: meters)
    refine ⟨first, _, rfl, List.getLast?_eq_some_getLast (List.cons_ne_nil _ _), hbalance, ?_⟩
    rw [hbalance, sub_right_comm, sub_self, zero_sub, abs_neg]
    exact hignored

/--
Backwards, gain and loss change places. Elevations that are missing make no difference, and gain less loss is
the difference between the last and the first elevation but for what is within the dead band. The code
computes the same as long as it rounds nothing.
-/
theorem elevation_stats_laws (elevations : List (Option ℚ))
    : calculateElevationStats elevations.reverse = (calculateElevationStats elevations).swap
        ∧ (∀ others, known others = known elevations →
          calculateElevationStats others = calculateElevationStats elevations)
        ∧ (∀ gain loss, calculateElevationStats elevations = (some gain, some loss) →
          Balanced elevations gain loss)
        ∧ (ElevationState.start.RunsUnrounded (known elevations) →
          RecordedActivity.calculateElevationStats (recorded elevations)
            = ((calculateElevationStats elevations).1.map .fin, (calculateElevationStats elevations).2.map .fin)) :=
  ⟨calculateElevationStats_reverse elevations, fun _ h => calculateElevationStats_congr h,
    fun _ _ h => balanced_calculateElevationStats h, calculateElevationStats_recorded⟩

def steadyClimb : List (Option ℚ) := [some 0, none, some 1, some 2, some 3]

theorem unrounded_steadyClimb : ElevationState.start.RunsUnrounded (known steadyClimb) := by decide +kernel

theorem elevation_stats_laws_steadyClimb
    : RecordedActivity.calculateElevationStats (recorded steadyClimb) = (some (.fin 0), some (.fin 0))
        ∧ Balanced steadyClimb 0 0
        ∧ calculateElevationStats [some 0, some 1, some 2, some 3] = calculateElevationStats steadyClimb := by
  obtain ⟨_, hgaps, hbalanced, hcode⟩ := elevation_stats_laws steadyClimb
  have hstats : calculateElevationStats steadyClimb = (some 0, some 0) := by decide +kernel
  refine ⟨?_, hbalanced 0 0 hstats, hgaps _ rfl⟩
  rw [hcode unrounded_steadyClimb, hstats]
  rfl

-- what the dead band would have to be like for nothing to accumulate
def WithinDeadBand (elevations : List (Option ℚ)) : Prop :=
  ∀ gain loss first last, calculateElevationStats elevations = (some gain, some loss) →
    (known elevations).head? = some first → (known elevations).getLast? = some last →
      |gain - loss - (last - first)| < ELEVATION_DEAD_BAND

/--
Three metres in steps of one metre are no gain.
-/
theorem steady_climb_is_lost
    : calculateElevationStats steadyClimb = (some 0, some 0) ∧ ¬WithinDeadBand steadyClimb := by
  have hstats : calculateElevationStats steadyClimb = (some 0, some 0) := by decide +kernel
  refine ⟨hstats, fun h => ?_⟩
  have hlt := h 0 0 0 3 hstats rfl rfl
  norm_num [ELEVATION_DEAD_BAND] at hlt

end Exact

end RecordedActivity
