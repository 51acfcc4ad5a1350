import Haiker.Rust.FloatOps

/-!
This module contains how far rounding takes a value, and that what has been rounded to some decimal places is
not changed by rounding it to them once more.
-/

namespace Rust

theorem abs_roundTiesEven_sub_le {num den : Nat} (hden : 0 < den)
    : |(roundTiesEven num den : ℚ) - num / den| ≤ 1 / 2 := by
  have hpos : (0 : ℚ) < den := by exact_mod_cast hden
  have hdiv : (num : ℚ) = (num / den : Nat) * den + (num % den : Nat) := by
    exact_mod_cast (Nat.div_add_mod' num den).symm
  have hsplit : (num : ℚ) / den = (num / den : Nat) + (num % den : Nat) / den := by
    rw [div_eq_iff hpos.ne', add_mul, div_mul_cancel₀ _ hpos.ne']
    exact hdiv
  have hrest : ((num % den : Nat) : ℚ) / den < 1 := by
    rw [div_lt_one hpos]
    exact_mod_cast Nat.mod_lt num hden
  have hrest' : (0 : ℚ) ≤ (num % den : Nat) / den := by positivity
  unfold roundTiesEven
  simp only
  rw [hsplit]
  split
  . next hup =>
    have hhalf : (1 : ℚ) / 2 ≤ (num % den : Nat) / den := by
      rw [div_le_div_iff₀ (by norm_num) hpos, one_mul, mul_comm]
      exact_mod_cast (by omega : den ≤ 2 * (num % den))
    rw [abs_le]
    push_cast at *
    constructor
    . linarith
    . linarith
  . next hdown =>
    have hhalf : ((num % den : Nat) : ℚ) / den ≤ 1 / 2 := by
      rw [div_le_div_iff₀ hpos (by norm_num), one_mul, mul_comm]
      exact_mod_cast (by omega : 2 * (num % den) ≤ den)
    rw [abs_le]
    constructor
    . linarith
    . linarith

theorem roundTiesEven_eq_of_abs_lt {num den m : Nat} (hden : 0 < den) (h : |(num : ℚ) / den - m| < 1 / 2)
    : roundTiesEven num den = m := by
  have hround : |(roundTiesEven num den : ℚ) - num / den| ≤ 1 / 2 := abs_roundTiesEven_sub_le hden
  have hnear : |((roundTiesEven num den : Int) : ℚ) - (m : Int)| < 1 := by
    push_cast
    calc
      |(roundTiesEven num den : ℚ) - m|
          ≤ |(roundTiesEven num den : ℚ) - num / den| + |(num : ℚ) / den - m| := abs_sub_le _ _ _
      _ < 1 := by linarith
  have hsame : (roundTiesEven num den : Int) - m = 0 := by
    rw [← Int.abs_lt_one_iff]
    exact_mod_cast hnear
  omega

namespace F64

-- the numerator and the denominator of a multiple
theorem natAbs_num_mul_div_den (q : ℚ) (n : Nat) : ((q.num.natAbs * n : Nat) : ℚ) / q.den = |q| * n := by
  have hden : (q.den : ℚ) ≠ 0 := by exact_mod_cast q.den_nz
  have habs : |q| * q.den = q.num.natAbs := by
    rw [Nat.cast_natAbs, Int.cast_abs, ← Rat.mul_den_eq_num, abs_mul, Nat.abs_cast]
  rw [div_eq_iff hden, Nat.cast_mul, ← habs]
  ring

theorem abs_nearest_sub_le {q r : ℚ} (h : nearest q = .fin r) : |r - q| ≤ ulp q / 2 := by
  have hround := @abs_roundTiesEven_sub_le (|q| / ulp q).num.natAbs _ (|q| / ulp q).den_pos
  have hquotient := natAbs_num_mul_div_den (|q| / ulp q) 1
  rw [Nat.mul_one, Nat.cast_one, mul_one, abs_of_nonneg (div_nonneg (abs_nonneg q) (ulp_pos q).le)] at hquotient
  rw [hquotient] at hround
  unfold nearest signed at h
  simp only at h
  generalize roundTiesEven (|q| / ulp q).num.natAbs (|q| / ulp q).den = steps at hround h
  have hmagnitude : |steps * ulp q - (|q|)| ≤ ulp q / 2 := by
    calc
      |steps * ulp q - (|q|)| = |(steps - |q| / ulp q) * ulp q| := by
        rw [sub_mul, div_mul_cancel₀ _ (ulp_pos q).ne']
      _ = |steps - |q| / ulp q| * ulp q := by rw [abs_mul, abs_of_pos (ulp_pos q)]
      _ ≤ 1 / 2 * ulp q := mul_le_mul_of_nonneg_right hround (ulp_pos q).le
      _ = ulp q / 2 := by ring
  split at h
  . split at h
    . cases h
    . cases h
  . cases h
    by_cases hsign : q < 0
    . rw [abs_of_neg hsign, sub_neg_eq_add] at hmagnitude
      simp only [hsign, decide_true, if_true]
      rw [← abs_neg]
      convert hmagnitude using 2
      ring
    . rw [abs_of_nonneg (not_lt.mp hsign)] at hmagnitude
      simpa [hsign] using hmagnitude

theorem ulp_le_of_normal {q : ℚ} (h : 2 ^ (-1022 : Int) ≤ |q|) : ulp q ≤ |q| / 2 ^ 52 := by
  have hpos : 0 < |q| := lt_of_lt_of_le (zpow_pos (by norm_num) _) h
  have hlog : -1022 ≤ Int.log 2 |q| := by
    apply (Int.zpow_le_iff_le_log (by decide) hpos).mp
    exact_mod_cast h
  have hle : ((2 : Nat) : ℚ) ^ Int.log 2 |q| ≤ |q| := Int.zpow_log_le_self (by decide) hpos
  rw [ulp, max_eq_left hlog, zpow_sub₀ (by norm_num), zpow_ofNat]
  apply div_le_div_of_nonneg_right _ (by positivity)
  exact_mod_cast hle

/-
The decimals.
-/

-- how many units of the last decimal place the value is rounded to
def decimals (precision : Nat) (q : ℚ) : Nat := roundTiesEven (q.num.natAbs * 10 ^ precision) q.den

def decimal (precision : Nat) (q : ℚ) : ℚ :=
  if q < 0 then -(decimals precision q / 10 ^ precision) else decimals precision q / 10 ^ precision

theorem roundedTo_fin (precision : Nat) (q : ℚ) : (F64.fin q).roundedTo precision = nearest (decimal precision q) := rfl

variable {precision bound : Nat} {q r : ℚ}

theorem abs_decimal : |decimal precision q| = decimals precision q / 10 ^ precision := by
  have hnonneg : (0 : ℚ) ≤ decimals precision q / 10 ^ precision := by positivity
  unfold decimal
  split
  . rw [abs_neg, abs_of_nonneg hnonneg]
  . exact abs_of_nonneg hnonneg

theorem abs_decimals_sub_le (precision : Nat) (q : ℚ)
    : |(decimals precision q : ℚ) - |q| * 10 ^ precision| ≤ 1 / 2 := by
  have hround := @abs_roundTiesEven_sub_le (q.num.natAbs * 10 ^ precision) _ q.den_pos
  rw [natAbs_num_mul_div_den] at hround
  exact_mod_cast hround

theorem decimals_le (h : |q| ≤ bound) : decimals precision q ≤ bound * 10 ^ precision := by
  have hscaled : |q| * 10 ^ precision ≤ bound * 10 ^ precision :=
    mul_le_mul_of_nonneg_right h (by positivity)
  have hround := (abs_le.mp (abs_decimals_sub_le precision q)).2
  have hlt : (decimals precision q : ℚ) < (bound * 10 ^ precision + 1 : Nat) := by
    push_cast
    linarith
  exact Nat.lt_succ_iff.mp (by exact_mod_cast hlt)

theorem abs_decimal_sub_le : |decimal precision q - q| ≤ 1 / 2 / 10 ^ precision := by
  have hpos : (0 : ℚ) < 10 ^ precision := by positivity
  have hround := abs_decimals_sub_le precision q
  have hmagnitude : |decimals precision q / 10 ^ precision - (|q|)| ≤ 1 / 2 / 10 ^ precision := by
    rw [div_sub' hpos.ne', abs_div, abs_of_pos hpos, mul_comm]
    exact div_le_div_of_nonneg_right hround hpos.le
  unfold decimal
  split
  . next hsign =>
    rw [abs_of_neg hsign, sub_neg_eq_add] at hmagnitude
    rw [← abs_neg]
    convert hmagnitude using 2
    ring
  . next hsign =>
    rw [abs_of_nonneg (not_lt.mp hsign)] at hmagnitude
    exact hmagnitude

/--
Rounding to an `f64` takes a decimal by less than half a unit of its last place.
-/
theorem abs_sub_decimal_lt (hprecision : 10 ^ precision ≤ (2 : ℚ) ^ (1022 : Int))
    (hbound : bound * 10 ^ precision < 2 ^ 52) (h : |q| ≤ bound) (hround : (F64.fin q).roundedTo precision = .fin r)
    : |r - decimal precision q| < 1 / 2 / 10 ^ precision := by
  have hpos : (0 : ℚ) < 10 ^ precision := by positivity
  rw [roundedTo_fin] at hround
  by_cases hzero : decimals precision q = 0
  . have hdecimal : decimal precision q = 0 := by
      rw [← abs_eq_zero, abs_decimal, hzero, Nat.cast_zero, zero_div]
    rw [hdecimal, nearest_zero] at hround
    cases hround
    rw [hdecimal, sub_zero, abs_zero]
    positivity
  . have hone : (1 : ℚ) ≤ decimals precision q := by exact_mod_cast Nat.one_le_iff_ne_zero.mpr hzero
    have hnormal : 2 ^ (-1022 : Int) ≤ |decimal precision q| := by
      rw [abs_decimal, le_div_iff₀ hpos, zpow_neg, inv_mul_le_iff₀ (zpow_pos (by norm_num) _)]
      calc
        (10 : ℚ) ^ precision ≤ 2 ^ (1022 : Int) * 1 := by rw [mul_one]; exact hprecision
        _ ≤ 2 ^ (1022 : Int) * decimals precision q := mul_le_mul_of_nonneg_left hone (zpow_pos (by norm_num) _).le
    have hdecimals : (decimals precision q : ℚ) < 2 ^ 52 := by
      exact_mod_cast lt_of_le_of_lt (decimals_le h) hbound
    calc
      |r - decimal precision q| ≤ ulp (decimal precision q) / 2 := abs_nearest_sub_le hround
      _ ≤ |decimal precision q| / 2 ^ 52 / 2 := by
        exact div_le_div_of_nonneg_right (ulp_le_of_normal hnormal) (by norm_num)
      _ = decimals precision q / 2 ^ 52 * (1 / 2 / 10 ^ precision) := by
        rw [abs_decimal]
        ring
      _ < 1 * (1 / 2 / 10 ^ precision) := by
        apply mul_lt_mul_of_pos_right _ (by positivity)
        rw [div_lt_one (by positivity)]
        exact hdecimals
      _ = 1 / 2 / 10 ^ precision := one_mul _

theorem decimal_of_abs_sub_lt (hnear : |r - decimal precision q| < 1 / 2 / 10 ^ precision)
    (hsign : decimals precision q ≠ 0) : decimal precision r = decimal precision q := by
  have hpos : (0 : ℚ) < 10 ^ precision := by positivity
  have hunit : 1 / 10 ^ precision ≤ |decimal precision q| := by
    rw [abs_decimal]
    apply div_le_div_of_nonneg_right _ hpos.le
    exact_mod_cast Nat.one_le_iff_ne_zero.mpr hsign
  have hhalf : 1 / 2 / 10 ^ precision ≤ (1 / 10 ^ precision : ℚ) := by
    apply div_le_div_of_nonneg_right (by norm_num) hpos.le
  have hnegative : r < 0 ↔ decimal precision q < 0 := by
    constructor
    . intro hr
      by_contra hdecimal
      rw [abs_of_nonneg (not_lt.mp hdecimal)] at hunit
      have := (abs_lt.mp hnear).1
      linarith
    . intro hdecimal
      rw [abs_of_neg hdecimal] at hunit
      have := (abs_lt.mp hnear).2
      linarith
  have hnegative' : decimal precision q < 0 ↔ q < 0 := by
    have hmagnitude : (0 : ℚ) < decimals precision q / 10 ^ precision := by
      have hdecimals : (0 : ℚ) < decimals precision q := by exact_mod_cast Nat.pos_of_ne_zero hsign
      positivity
    unfold decimal
    split
    . next hq => simp [hq, hmagnitude]
    . next hq => simp [hq, hmagnitude.le]
  have hsame : decimals precision r = decimals precision q := by
    apply roundTiesEven_eq_of_abs_lt r.den_pos
    have habs : |(|r|) - (|decimal precision q|)| < 1 / 2 / 10 ^ precision :=
      lt_of_le_of_lt (abs_abs_sub_abs_le _ _) hnear
    rw [abs_decimal, sub_div' hpos.ne', abs_div, abs_of_pos hpos, div_lt_div_iff_of_pos_right hpos] at habs
    have hscaled := natAbs_num_mul_div_den r (10 ^ precision)
    push_cast at hscaled ⊢
    rw [hscaled]
    exact habs
  unfold decimal
  rw [hsame]
  simp only [hnegative.trans hnegative']

/--
What has been rounded stays as it is.
-/
theorem roundedTo_roundedTo (hprecision : 10 ^ precision ≤ (2 : ℚ) ^ (1022 : Int))
    (hbound : bound * 10 ^ precision < 2 ^ 52) (h : |q| ≤ bound)
    : ((F64.fin q).roundedTo precision).roundedTo precision = (F64.fin q).roundedTo precision := by
  cases hround : (F64.fin q).roundedTo precision with
  | fin r =>
    by_cases hzero : decimals precision q = 0
    . have hdecimal : decimal precision q = 0 := by
        rw [← abs_eq_zero, abs_decimal, hzero, Nat.cast_zero, zero_div]
      rw [roundedTo_fin, hdecimal, nearest_zero] at hround
      cases hround
      have hnone : decimal precision 0 = 0 := by simp [decimal, decimals, roundTiesEven]
      rw [roundedTo_fin, hnone, nearest_zero]
    . rw [roundedTo_fin, decimal_of_abs_sub_lt (abs_sub_decimal_lt hprecision hbound h hround) hzero, ← roundedTo_fin]
      exact hround
  | nan | negInf | posInf => rfl

/--
Rounding takes a value by less than a unit of the last place.
-/
theorem abs_roundedTo_sub_lt (hprecision : 10 ^ precision ≤ (2 : ℚ) ^ (1022 : Int))
    (hbound : bound * 10 ^ precision < 2 ^ 52) (h : |q| ≤ bound) (hround : (F64.fin q).roundedTo precision = .fin r)
    : |r - q| < 1 / 10 ^ precision := by
  calc
    |r - q| ≤ |r - decimal precision q| + |decimal precision q - q| := abs_sub_le _ _ _
    _ < 1 / 2 / 10 ^ precision + 1 / 2 / 10 ^ precision :=
      add_lt_add_of_lt_of_le (abs_sub_decimal_lt hprecision hbound h hround) abs_decimal_sub_le
    _ = 1 / 10 ^ precision := by ring

end F64

end Rust
