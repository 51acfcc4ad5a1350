import Mathlib.Data.Rat.Floor
import Mathlib.Order.Monotone.Basic
import Haiker.RecordedActivity.Lemmas.Normalization

/-!
This module contains the sampling of the preview over exact arithmetic: which points are taken, and that they
are spread evenly.
-/

open Rust

namespace RecordedActivity

namespace Exact

-- `simplify_preview` without rounding the step and its multiples
def previewStep (length maxPoints : Nat) : ℚ := (length - 1 : Nat) / (maxPoints - 1 : Nat)

def previewIndex (length maxPoints i : Nat) : Nat :=
  min (i * previewStep length maxPoints + 1 / 2).floor.toNat (length - 1)

def simplifyPreview (coords : List Coordinate) (maxPoints : Nat) : List Coordinate :=
  if coords.length ≤ maxPoints then
    coords
  else if maxPoints < 2 then
    coords.take 1
  else
    (List.range maxPoints).filterMap fun i => coords[previewIndex coords.length maxPoints i]?

/--
Neither the step nor one of the multiples that are taken of it is rounded, and the indices are ones of the
machine.
-/
def PreviewUnrounded (length maxPoints : Nat) : Prop :=
  length ≤ usizeSize
    ∧ (F64.ofInt (length - 1)).div (F64.ofInt (maxPoints - 1)) = .fin (previewStep length maxPoints)
    ∧ ∀ i < maxPoints,
      (F64.ofInt i).mul (.fin (previewStep length maxPoints)) = .fin (i * previewStep length maxPoints)

instance (length maxPoints : Nat) : Decidable (PreviewUnrounded length maxPoints) :=
  inferInstanceAs (Decidable (_ ∧ _ ∧ _))

theorem simplifyPreview_unrounded {coords : List Coordinate} {maxPoints : Nat}
    (h : PreviewUnrounded coords.length maxPoints)
    : RecordedActivity.simplifyPreview coords maxPoints = simplifyPreview coords maxPoints := by
  obtain ⟨hfits, hstep, hproducts⟩ := h
  unfold RecordedActivity.simplifyPreview simplifyPreview
  split
  . rfl
  . split
    . rfl
    . simp only [hstep]
      apply List.filterMap_congr
      intro i hi
      rw [hproducts i (List.mem_range.mp hi)]
      unfold previewIndex F64.roundToUsize
      congr 1
      show min (min _ _) _ = min _ _
      omega

/-
The index without fractions.
-/

def sampleIndex (n m i : Nat) : Nat := (2 * (i * n) + m) / (2 * m)

theorem floor_eq_sampleIndex (n i : Nat) {m : Nat} (h : 0 < m)
    : (i * (n / m : ℚ) + 1 / 2).floor.toNat = sampleIndex n m i := by
  have hm : (m : ℚ) ≠ 0 := by exact_mod_cast h.ne'
  have hquotient : (i * (n / m : ℚ) + 1 / 2) = ((2 * (i * n) + m : Nat) : ℚ) / (2 * m : Nat) := by
    push_cast
    field_simp
  rw [hquotient]
  exact congrArg Int.toNat (Rat.floor_natCast_div_natCast ..)

theorem sampleIndex_zero (n : Nat) {m : Nat} (h : 0 < m) : sampleIndex n m 0 = 0 := by
  unfold sampleIndex
  rw [Nat.zero_mul]
  exact Nat.div_eq_of_lt (by omega)

theorem sampleIndex_self (n : Nat) {m : Nat} (h : 0 < m) : sampleIndex n m m = n := by
  unfold sampleIndex
  rw [← Nat.mul_assoc, Nat.mul_add_div (by omega), Nat.div_eq_of_lt (by omega), Nat.add_zero]

/--
From one index to the next it is the whole step, or one more.
-/
theorem sampleIndex_succ (n i : Nat) {m : Nat} (h : 0 < m)
    : sampleIndex n m i + n / m ≤ sampleIndex n m (i + 1)
        ∧ sampleIndex n m (i + 1) ≤ sampleIndex n m i + n / m + 1 := by
  have hsplit : 2 * ((i + 1) * n) + m = 2 * (i * n) + m + 2 * (n % m) + 2 * m * (n / m) := by
    have hn := Nat.mod_add_div n m
    rw [Nat.add_mul, Nat.one_mul, Nat.mul_assoc 2 m]
    omega
  have hmod := Nat.mod_lt n h
  have hpos : 0 < 2 * m := by omega
  have hnext : sampleIndex n m (i + 1) = (2 * (i * n) + m + 2 * (n % m)) / (2 * m) + n / m := by
    unfold sampleIndex
    rw [hsplit, Nat.add_mul_div_left _ _ hpos]
  have hlower : sampleIndex n m i ≤ (2 * (i * n) + m + 2 * (n % m)) / (2 * m) :=
    Nat.div_le_div_right (Nat.le_add_right ..)
  have hupper : (2 * (i * n) + m + 2 * (n % m)) / (2 * m) ≤ sampleIndex n m i + 1 := by
    unfold sampleIndex
    rw [← Nat.add_div_right _ hpos]
    exact Nat.div_le_div_right (by omega)
  omega

theorem strictMono_sampleIndex {n m : Nat} (h : 0 < m) (hle : m ≤ n) : StrictMono (sampleIndex n m) := by
  apply strictMono_nat_of_lt_succ
  intro i
  have hstep := Nat.div_pos hle h
  have hsucc := sampleIndex_succ n i h
  omega

theorem previewIndex_eq {length maxPoints i : Nat} (h : 2 ≤ maxPoints) (hlt : maxPoints < length)
    (hi : i < maxPoints) : previewIndex length maxPoints i = sampleIndex (length - 1) (maxPoints - 1) i := by
  have hpos : 0 < maxPoints - 1 := by omega
  unfold previewIndex previewStep
  rw [floor_eq_sampleIndex _ _ hpos]
  apply Nat.min_eq_left
  calc sampleIndex (length - 1) (maxPoints - 1) i
    _ ≤ sampleIndex (length - 1) (maxPoints - 1) (maxPoints - 1) :=
      (strictMono_sampleIndex hpos (by omega)).monotone (by omega)
    _ = length - 1 := sampleIndex_self _ hpos

/-
Points at indices.
-/

def gapsBetween (indices : List Nat) : List Nat := (adjacent indices).map fun (a, b) => b - a

/--
`chosen` are the points at `indices`, as many as there may be, evenly spread from the first to the last one.
-/
structure Samples (coords : List Coordinate) (maxPoints : Nat) (chosen : List Coordinate) (indices : List Nat)
    : Prop where
  points : chosen.map some = indices.map (coords[·]?)
  increasing : indices.Pairwise (· < ·)
  length : chosen.length = min coords.length maxPoints
  first : ∀ i ∈ indices.head?, i = 0
  last : ∀ i ∈ indices.getLast?, i + 1 = coords.length
  even : ∀ gap ∈ gapsBetween indices, ∀ gap' ∈ gapsBetween indices, gap ≤ gap' + 1

theorem adjacent_range' (start count : Nat)
    : adjacent (List.range' start (count + 1)) = (List.range' start count).map fun i => (i, i + 1) := by
  induction count generalizing start with
  | zero => rfl
  | succ count ih =>
    rw [List.range'_succ (n := count), List.map_cons, ← ih (start + 1)]
    rfl

theorem mem_gapsBetween {f : Nat → Nat} {count gap : Nat}
    (h : gap ∈ gapsBetween ((List.range count).map f)) : ∃ i, i + 1 < count ∧ gap = f (i + 1) - f i := by
  cases count with
  | zero => cases h
  | succ count =>
    unfold gapsBetween at h
    rw [adjacent_map, List.range_eq_range', adjacent_range', List.map_map, List.map_map] at h
    obtain ⟨i, hi, rfl⟩ := List.mem_map.mp h
    rw [← List.range_eq_range'] at hi
    exact ⟨i, Nat.succ_lt_succ (List.mem_range.mp hi), rfl⟩

theorem samples_all {coords : List Coordinate} {maxPoints : Nat} (h : coords.length ≤ maxPoints)
    : Samples coords maxPoints coords (List.range coords.length) where
  points := by
    apply List.ext_getElem
    . simp
    . intro i hi _
      rw [List.length_map] at hi
      simp [hi]
  increasing := List.pairwise_lt_range
  length := (Nat.min_eq_left h).symm
  first := by
    intro i hi
    rw [List.head?_range] at hi
    split at hi
    . cases hi
    . exact (Option.some.inj hi).symm
  last := by
    intro i hi
    rw [List.getLast?_range] at hi
    split at hi
    . cases hi
    . have := Option.some.inj hi
      omega
  even := by
    intro gap hgap gap' hgap'
    rw [← List.map_id (List.range _)] at hgap hgap'
    obtain ⟨i, _, rfl⟩ := mem_gapsBetween hgap
    obtain ⟨j, _, rfl⟩ := mem_gapsBetween hgap'
    simp only [id]
    omega

theorem filterMap_of_isSome {α β : Type} {f : α → Option β} {as : List α} (h : ∀ a ∈ as, (f a).isSome)
    : (as.filterMap f).map some = as.map f := by
  induction as with
  | nil => rfl
  | cons a as ih =>
    obtain ⟨b, hb⟩ := Option.isSome_iff_exists.mp (h a List.mem_cons_self)
    rw [List.filterMap_cons_some hb, List.map_cons, List.map_cons, ih fun x hx => h x (List.mem_cons_of_mem _ hx),
      hb]

theorem samples_some {coords : List Coordinate} {maxPoints : Nat} (h : 2 ≤ maxPoints)
    (hlt : maxPoints < coords.length)
    : Samples coords maxPoints (simplifyPreview coords maxPoints)
        ((List.range maxPoints).map (sampleIndex (coords.length - 1) (maxPoints - 1))) := by
  have hpos : 0 < maxPoints - 1 := by omega
  have hmono := strictMono_sampleIndex (n := coords.length - 1) hpos (by omega)
  have hself := sampleIndex_self (coords.length - 1) hpos
  have hindex : ∀ i ∈ List.range maxPoints, coords[previewIndex coords.length maxPoints i]?
      = coords[sampleIndex (coords.length - 1) (maxPoints - 1) i]? := by
    intro i hi
    rw [previewIndex_eq h hlt (List.mem_range.mp hi)]
  have hpoints : (simplifyPreview coords maxPoints).map some
      = (List.range maxPoints).map fun i => coords[sampleIndex (coords.length - 1) (maxPoints - 1) i]? := by
    unfold simplifyPreview
    rw [if_neg (by omega), if_neg (by omega), List.filterMap_congr hindex]
    apply filterMap_of_isSome
    intro i hi
    have hle := hmono.monotone (Nat.le_sub_one_of_lt (List.mem_range.mp hi))
    rw [hself] at hle
    rw [isSome_getElem?]
    omega
  constructor
  case points => rw [hpoints, List.map_map]; rfl
  case increasing =>
    rw [List.pairwise_map]
    exact List.pairwise_lt_range.imp (hmono ·)
  case length =>
    have hlength := congrArg List.length hpoints
    rw [List.length_map, List.length_map, List.length_range] at hlength
    omega
  case first =>
    intro i hi
    rw [List.head?_map, List.head?_range, if_neg (by omega)] at hi
    rw [← Option.some.inj hi]
    exact sampleIndex_zero _ hpos
  case last =>
    intro i hi
    rw [List.getLast?_map, List.getLast?_range, if_neg (by omega)] at hi
    rw [← Option.some.inj hi, hself]
    omega
  case even =>
    intro gap hgap gap' hgap'
    obtain ⟨i, _, rfl⟩ := mem_gapsBetween hgap
    obtain ⟨j, _, rfl⟩ := mem_gapsBetween hgap'
    have hi := sampleIndex_succ (coords.length - 1) i hpos
    have hj := sampleIndex_succ (coords.length - 1) j hpos
    omega

/--
The preview is an even sample of the points, from the first to the last one. The code computes the same as long
as it rounds nothing but the index.
-/
theorem simplify_preview_samples (coords : List Coordinate) (maxPoints : Nat) (h : 2 ≤ maxPoints)
    : (∃ indices, Samples coords maxPoints (simplifyPreview coords maxPoints) indices)
        ∧ (PreviewUnrounded coords.length maxPoints →
          RecordedActivity.simplifyPreview coords maxPoints = simplifyPreview coords maxPoints) := by
  refine ⟨?_, simplifyPreview_unrounded⟩
  by_cases hle : coords.length ≤ maxPoints
  . have hall : simplifyPreview coords maxPoints = coords := if_pos hle
    rw [hall]
    exact ⟨_, samples_all hle⟩
  . exact ⟨_, samples_some h (by omega)⟩

def sampledLine : List Coordinate :=
  [46, 47, 48, 49, 50, 51].map fun latitude => { latitude := .fin latitude, longitude := .fin 7 }

theorem simplify_preview_samples_sampledLine
    : (∃ indices, Samples sampledLine 3 (simplifyPreview sampledLine 3) indices)
        ∧ (RecordedActivity.simplifyPreview sampledLine 3).map (·.latitude) = [.fin 46, .fin 49, .fin 51] := by
  obtain ⟨hsamples, hcode⟩ := simplify_preview_samples sampledLine 3 (by decide)
  refine ⟨hsamples, ?_⟩
  have hunrounded : PreviewUnrounded sampledLine.length 3 := by decide +kernel
  rw [hcode hunrounded]
  decide +kernel

end Exact

end RecordedActivity
