import Haiker.Rust.Method
import Haiker.Rust.ParseF64

/-!
This module contains the arithmetic of `f64`: the exact result, rounded to the nearest value. There is one
zero, so that a division by it has the sign of the dividend.
-/

namespace Rust

namespace F64

/--
`a < b`. NaN is comparable to nothing.
-/
def lt (a b : F64) : Bool := a.le b && !a.partialEq b

def add : F64 → F64 → F64
  | .fin a, .fin b => nearest (a + b)
  | .posInf, .fin _ | .fin _, .posInf | .posInf, .posInf => .posInf
  | .negInf, .fin _ | .fin _, .negInf | .negInf, .negInf => .negInf
  | .posInf, .negInf | .negInf, .posInf | .nan, _ | _, .nan => .nan

def sub (a b : F64) : F64 := a.add b.neg

def infinite (negative : Bool) : F64 := if negative then .negInf else .posInf

def mul : F64 → F64 → F64
  | .fin a, .fin b => nearest (a * b)
  | .posInf, .fin a | .fin a, .posInf => if a = 0 then .nan else infinite (a < 0)
  | .negInf, .fin a | .fin a, .negInf => if a = 0 then .nan else infinite (0 < a)
  | .posInf, .posInf | .negInf, .negInf => .posInf
  | .posInf, .negInf | .negInf, .posInf => .negInf
  | .nan, _ | _, .nan => .nan

def div : F64 → F64 → F64
  | .fin a, .fin b =>
    if b = 0 then
      if a = 0 then .nan else infinite (a < 0)
    else
      nearest (a / b)
  | .fin _, .posInf | .fin _, .negInf => .fin 0
  | .posInf, .fin b => infinite (b < 0)
  | .negInf, .fin b => infinite (0 ≤ b)
  | .posInf, .posInf | .posInf, .negInf | .negInf, .posInf | .negInf, .negInf | .nan, _ | _, .nan => .nan

def abs : F64 → F64
  | .fin a => .fin |a|
  | .posInf | .negInf => .posInf
  | .nan => .nan

-- `n as f64`
def ofInt (n : Int) : F64 := nearest n

/--
`x.round() as usize`: halves away from zero, and what is out of range to its end.
-/
def roundToUsize : F64 → Nat
  | .fin a => Nat.min (a + 1 / 2).floor.toNat (usizeSize - 1)
  | .posInf => usizeSize - 1
  | .negInf | .nan => 0

example : add (nearest (1 / 10)) (nearest (2 / 10)) ≠ nearest (3 / 10) := by decide +kernel

/-
What is rounded stays as it is when it is rounded again.
-/

def exponent (q : ℚ) : Int := Int.log 2 |q| ⊔ -1022

theorem ulp_eq (q : ℚ) : ulp q = 2 ^ (exponent q - 52) := rfl

theorem ulp_pos (q : ℚ) : 0 < ulp q := zpow_pos (by norm_num) _

theorem abs_lt_two_pow (q : ℚ) : |q| < 2 ^ (exponent q + 1) := by
  by_cases hq : |q| = 0
  . rw [hq]
    exact zpow_pos (by norm_num) _
  . have hpos : 0 < |q| := lt_of_le_of_ne (abs_nonneg q) (Ne.symm hq)
    have hlog : |q| < ((2 : Nat) : ℚ) ^ (exponent q + 1) := by
      apply (Int.lt_zpow_iff_log_lt (by decide) hpos).mpr
      exact Int.lt_add_one_of_le (Int.le_max_left _ _)
    exact_mod_cast hlog

theorem nearest_of_steps {q : ℚ} {m : Nat} (hsteps : |q| = m * ulp q) (hfinite : |q| ≤ greatest)
    : nearest q = .fin q := by
  have hwhole : |q| / ulp q = m := by rw [div_eq_iff (ulp_pos q).ne', hsteps]
  have hround : roundTiesEven m 1 = m := by simp [roundTiesEven, Nat.mod_one]
  unfold nearest
  simp only [hwhole, Rat.num_natCast, Int.natAbs_natCast, Rat.den_natCast, hround]
  rw [← hsteps, signed, if_neg (not_lt.mpr hfinite)]
  by_cases hsign : q < 0
  . simp [hsign, abs_of_neg hsign]
  . simp [hsign, abs_of_nonneg (not_lt.mp hsign)]

-- rounding goes up to the next power of two at most
theorem exists_steps {q r : ℚ} {n : Nat} (hr : |r| = n * ulp q)
    (hround : n = roundTiesEven (|q| / ulp q).num.natAbs (|q| / ulp q).den)
    : ∃ m : Nat, |r| = m * ulp r := by
  by_cases hle : exponent r ≤ exponent q
  . obtain ⟨k, hk⟩ := Int.le.dest hle
    refine ⟨n * 2 ^ k, ?_⟩
    have hulp : ulp q = 2 ^ k * ulp r := by
      rw [ulp_eq, ulp_eq, ← zpow_natCast, ← zpow_add₀ (by norm_num), ← hk]
      congr 1
      omega
    rw [hr, hulp]
    push_cast
    ring
  . have hn : n ≤ 2 ^ 53 := by
      rw [hround]
      apply roundTiesEven_le_of_le (div_nonneg (abs_nonneg q) (ulp_pos q).le)
      rw [div_le_iff₀ (ulp_pos q), ulp_eq, Nat.cast_pow, Nat.cast_ofNat, ← zpow_natCast,
        ← zpow_add₀ (by norm_num)]
      have hexponent : (53 : Nat) + (exponent q - 52) = exponent q + 1 := by omega
      rw [hexponent]
      exact (abs_lt_two_pow q).le
    have hupper : |r| ≤ 2 ^ (exponent q + 1) := by
      have hexponent : exponent q + 1 = (53 : Nat) + (exponent q - 52) := by omega
      rw [hr, hexponent, zpow_add₀ (by norm_num), zpow_natCast, ← ulp_eq]
      apply mul_le_mul_of_nonneg_right _ (ulp_pos q).le
      exact_mod_cast hn
    by_cases hzero : |r| = 0
    . exact ⟨0, by rw [hzero, Nat.cast_zero, zero_mul]⟩
    . have hpos : 0 < |r| := lt_of_le_of_ne (abs_nonneg r) (Ne.symm hzero)
      have hlog : exponent q + 1 ≤ Int.log 2 |r| := by
        have hq : -1022 ≤ exponent q := Int.le_max_right _ _
        unfold exponent at hle hq ⊢
        omega
      have hlower : ((2 : Nat) : ℚ) ^ (exponent q + 1) ≤ |r| :=
        (Int.zpow_le_iff_le_log (by decide) hpos).mpr hlog
      have hpower : |r| = ((2 : Nat) : ℚ) ^ (exponent q + 1) :=
        le_antisymm (by exact_mod_cast hupper) hlower
      have hexponent : exponent r = exponent q + 1 := by
        have hq : -1022 ≤ exponent q := Int.le_max_right _ _
        unfold exponent at hq ⊢
        rw [hpower, Int.log_zpow (by decide)]
        unfold exponent
        omega
      refine ⟨2 ^ 52, ?_⟩
      have hsplit : exponent q + 1 = (52 : Nat) + (exponent q + 1 - 52) := by omega
      rw [ulp_eq, hexponent, hpower, hsplit, zpow_add₀ (by norm_num), zpow_natCast]
      push_cast
      ring_nf

theorem nearest_nearest {q r : ℚ} (h : nearest q = .fin r) : nearest r = .fin r := by
  unfold nearest at h
  simp only at h
  generalize hround : roundTiesEven (|q| / ulp q).num.natAbs (|q| / ulp q).den = n at h
  have hnonneg : 0 ≤ n * ulp q := mul_nonneg (Nat.cast_nonneg n) (ulp_pos q).le
  unfold signed at h
  split at h
  . split at h
    . cases h
    . cases h
  . next hfinite =>
    have habs : |r| = n * ulp q := by
      rw [← F64.fin.inj h]
      split
      . rw [abs_neg, abs_of_nonneg hnonneg]
      . exact abs_of_nonneg hnonneg
    obtain ⟨m, hm⟩ := exists_steps habs hround.symm
    apply nearest_of_steps hm
    rw [habs]
    exact not_lt.mp hfinite

/--
What a sum can be.
-/
def Rounded : F64 → Prop
  | .fin q => nearest q = .fin q
  | _ => True

theorem rounded_nearest (q : ℚ) : (nearest q).Rounded := by
  cases h : nearest q with
  | fin r => exact nearest_nearest h
  | nan | negInf | posInf => exact trivial

theorem rounded_add (a b : F64) : (a.add b).Rounded := by
  cases a with
  | fin p =>
    cases b with
    | fin q => exact rounded_nearest (p + q)
    | nan | negInf | posInf => exact trivial
  | nan | negInf | posInf => cases b <;> exact trivial

theorem add_zero_of_rounded {a : F64} (h : a.Rounded) : a.add (.fin 0) = a := by
  cases a with
  | fin q =>
    show nearest (q + 0) = .fin q
    rw [add_zero]
    exact h
  | nan | negInf | posInf => rfl

theorem rounded_foldl_add (ds : List F64) {total : F64} (h : total.Rounded)
    : (ds.foldl add total).Rounded := by
  induction ds generalizing total with
  | nil => exact h
  | cons d ds ih => exact ih (rounded_add total d)

theorem foldl_add_zeros {ds : List F64} (hds : ∀ d ∈ ds, d = .fin 0) {total : F64} (h : total.Rounded)
    : ds.foldl add total = total := by
  induction ds with
  | nil => rfl
  | cons d ds ih =>
    rw [List.foldl_cons, hds d List.mem_cons_self, add_zero_of_rounded h]
    exact ih fun d' hd' => hds d' (List.mem_cons_of_mem d hd')

/-
What is rounded stays positive.
-/

theorem one_le_roundTiesEven {q : ℚ} (h : 1 ≤ q) : 1 ≤ roundTiesEven q.num.natAbs q.den := by
  have hnonneg : 0 ≤ q.num := Rat.num_nonneg.mpr (zero_le_one.trans h)
  have hnum : q.den ≤ q.num.natAbs := by
    have hle := (Rat.le_iff 1 q).mp h
    rw [Rat.num_one, Rat.den_one, one_mul] at hle
    omega
  have hwhole : 1 ≤ q.num.natAbs / q.den := (Nat.one_le_div_iff q.den_pos).mpr hnum
  unfold roundTiesEven
  simp only
  split <;> omega

theorem ulp_le {q : ℚ} (h : 2 ^ (-1074 : Int) ≤ q) : ulp q ≤ q := by
  have hpos : 0 < q := lt_of_lt_of_le (zpow_pos (by norm_num) _) h
  have habs : |q| = q := abs_of_pos hpos
  rw [ulp_eq]
  by_cases hsubnormal : exponent q = -1022
  . rw [hsubnormal]
    exact h
  . have hexponent : exponent q ≤ Int.log 2 |q| := by
      unfold exponent at hsubnormal ⊢
      omega
    have hlower : ((2 : Nat) : ℚ) ^ exponent q ≤ |q| :=
      (Int.zpow_le_iff_le_log (by decide) (abs_pos.mpr hpos.ne')).mpr hexponent
    rw [habs] at hlower
    apply le_trans _ (by exact_mod_cast hlower : (2 : ℚ) ^ exponent q ≤ q)
    exact zpow_le_zpow_right₀ (by norm_num) (by omega)

theorem nearest_of_pos {q : ℚ} (h : 2 ^ (-1074 : Int) ≤ q)
    : nearest q = .posInf ∨ ∃ r, nearest q = .fin r ∧ ulp q ≤ r := by
  have hpos : 0 < q := lt_of_lt_of_le (zpow_pos (by norm_num) _) h
  have hsteps : 1 ≤ |q| / ulp q := by
    rw [abs_of_pos hpos, one_le_div (ulp_pos q)]
    exact ulp_le h
  have hround : (1 : ℚ) ≤ roundTiesEven (|q| / ulp q).num.natAbs (|q| / ulp q).den := by
    exact_mod_cast one_le_roundTiesEven hsteps
  unfold nearest
  simp only [decide_eq_false (not_lt.mpr hpos.le), signed, Bool.false_eq_true, if_false]
  split
  . exact .inl rfl
  . exact .inr ⟨_, rfl, le_mul_of_one_le_left (ulp_pos q).le hround⟩

theorem two_pow_le_ulp {q : ℚ} (h : 1 ≤ q) : 2 ^ (-52 : Int) ≤ ulp q := by
  have hlog : 0 ≤ Int.log 2 |q| := by
    apply (Int.zpow_le_iff_le_log (by decide) (zero_lt_one.trans_le (h.trans (le_abs_self q)))).mp
    rw [zpow_zero]
    exact h.trans (le_abs_self q)
  rw [ulp_eq]
  apply zpow_le_zpow_right₀ (by norm_num)
  unfold exponent
  omega

theorem div_fin (a : ℚ) {b : ℚ} (hb : b ≠ 0) : (fin a).div (fin b) = nearest (a / b) := by
  simp only [div, if_neg hb]

/--
`n as f64 / 1000.0` of a positive `n`.
-/
theorem lt_div_ofInt {n : Int} (h : 0 < n) : (F64.fin 0).lt ((ofInt n).div (.fin 1000)) = true := by
  have hone : (1 : ℚ) ≤ n := by exact_mod_cast h
  have hleast : (2 : ℚ) ^ (-1074 : Int) ≤ 2 ^ (-62 : Int) := zpow_le_zpow_right₀ (by norm_num) (by norm_num)
  have hn : (2 : ℚ) ^ (-1074 : Int) ≤ n := hleast.trans (le_trans (by norm_num) hone)
  unfold ofInt
  rcases nearest_of_pos hn with hinf | ⟨r, hr, hstep⟩
  . rw [hinf]
    rfl
  . rw [hr]
    have hlower : (2 : ℚ) ^ (-62 : Int) ≤ r / 1000 := by
      have hsmall : (2 : ℚ) ^ (-62 : Int) * 1000 ≤ 2 ^ (-52 : Int) := by norm_num
      rw [le_div_iff₀ (by norm_num)]
      exact hsmall.trans ((two_pow_le_ulp hone).trans hstep)
    rw [div_fin r (by norm_num)]
    rcases nearest_of_pos (hleast.trans hlower) with hinf | ⟨r', hr', hstep'⟩
    . rw [hinf]
      rfl
    . rw [hr']
      have hpos : 0 < r' := lt_of_lt_of_le (ulp_pos _) hstep'
      simp [lt, le, hpos.le, hpos.ne]

/-
Sums that need no rounding.
-/

def value : F64 → ℚ
  | .fin q => q
  | _ => 0

/--
Along the way every sum is one of the values.
-/
def Exact (total : ℚ) : List F64 → Prop
  | [] => True
  | d :: ds => d.isFinite = true ∧ (F64.fin total).add d = .fin (total + d.value) ∧ Exact (total + d.value) ds

instance decidableExact : (total : ℚ) → (ds : List F64) → Decidable (Exact total ds)
  | _, [] => isTrue trivial
  | total, d :: ds =>
    have := decidableExact (total + d.value) ds
    inferInstanceAs (Decidable (d.isFinite = true ∧ (F64.fin total).add d = .fin (total + d.value)
      ∧ Exact (total + d.value) ds))

theorem isFinite_of_exact {ds : List F64} {total : ℚ} (h : Exact total ds) {d : F64} (hd : d ∈ ds)
    : d.isFinite = true := by
  induction ds generalizing total with
  | nil => cases hd
  | cons d' ds ih =>
    cases hd with
    | head => exact h.1
    | tail _ hd => exact ih h.2.2 hd

theorem foldl_add_of_exact {ds : List F64} {total : ℚ} (h : Exact total ds)
    : ds.foldl add (.fin total) = .fin (total + (ds.map value).sum) := by
  induction ds generalizing total with
  | nil => simp
  | cons d ds ih => rw [List.foldl_cons, h.2.1, ih h.2.2, List.map_cons, List.sum_cons, add_assoc]

end F64

end Rust
