import Mathlib.Data.Int.Log
import Mathlib.Data.Rat.Floor
import Mathlib.Algebra.Order.Floor.Semiring
import Haiker.Rust.F64
import Haiker.Rust.Str

/-!
This module contains how texts are read as `f64` and `i32` values: that what is written with a fixed number of
decimal places is read as the value that is nearest to the rounded one, and that `str::parse::<i32>` takes back
what `to_string` makes of an `i32`.
-/

namespace Rust

namespace F64

/--
The step between the `f64` values around `q`.
-/
def ulp (q : ℚ) : ℚ := 2 ^ ((Int.log 2 |q| ⊔ -1022) - 52)

def signed (negative : Bool) (magnitude : ℚ) : F64 :=
  if greatest < magnitude then
    if negative then .negInf else .posInf
  else
    .fin (if negative then -magnitude else magnitude)

/--
The `f64` that is nearest to `q`, the even one of two that are equally near.
-/
def nearest (q : ℚ) : F64 :=
  let steps := |q| / ulp q
  signed (q < 0) (roundTiesEven steps.num.natAbs steps.den * ulp q)

example : nearest (1 / 10) = .fin (3602879701896397 / 2 ^ 55) := by decide +kernel

-- the decimals with so many digits around `magnitude` that are read as `magnitude`, the nearest first
def decimalsOf (magnitude : ℚ) (digits : Nat) : List ℚ :=
  let scale : ℚ := 10 ^ ((digits : Int) - 1 - Int.log 10 magnitude)
  let low : Int := (magnitude * scale).floor
  let near : List ℚ := if magnitude * scale - low ≤ 1 / 2 then [low, low + 1] else [low + 1, low]
  (near.map (· / scale)).filter fun decimal => nearest decimal = .fin magnitude

/--
The shortest decimal that is read as the value. It is what `{}` prints.
-/
def shortest : F64 → F64
  | .fin q =>
    let decimal := ((List.range' 1 17).flatMap (decimalsOf |q|)).head?.getD |q|
    .fin (if q < 0 then -decimal else decimal)
  | x => x

example : (shortest (nearest (913 / 10))).display = "91.3" := by decide +kernel

def neg : F64 → F64
  | .nan => .nan
  | .negInf => .posInf
  | .posInf => .negInf
  | .fin q => .fin (-q)

/-
`str::parse::<f64>`
-/

def parseDigits (cs : List Char) : Option Nat :=
  if cs.isEmpty ∨ cs.any (!·.isDigit) then none else some (Nat.ofDigitChars 10 cs 0)

def parseExponent : List Char → Option Int
  | [] => some 0
  | c :: cs =>
    if c = 'e' ∨ c = 'E' then
      match cs with
      | '-' :: ds => (parseDigits ds).map fun n => -(n : Int)
      | '+' :: ds => (parseDigits ds).map fun n => (n : Int)
      | ds => (parseDigits ds).map fun n => (n : Int)
    else
      none

-- the digits before and after the point, and what comes after them
def scale (whole fraction rest : List Char) : Option ℚ :=
  if (whole ++ fraction).isEmpty then
    none
  else
    (parseExponent rest).map fun (exponent : Int) =>
      (Nat.ofDigitChars 10 (whole ++ fraction) 0 : ℚ) * 10 ^ (exponent - (fraction.length : Int))

def parseNumber (cs : List Char) : Option ℚ :=
  let whole := cs.takeWhile Char.isDigit
  match cs.dropWhile Char.isDigit with
  | '.' :: rest => scale whole (rest.takeWhile Char.isDigit) (rest.dropWhile Char.isDigit)
  | rest => scale whole [] rest

def parseUnsigned (cs : List Char) : Option F64 :=
  match parseNumber cs with
  | some q => some (nearest q)
  | none =>
    let lower := String.ofList (cs.map (·.toLower))
    if lower = "inf" ∨ lower = "infinity" then
      some .posInf
    else if lower = "nan" then
      some .nan
    else
      none

def parse (s : String) : Option F64 :=
  match s.toList with
  | '-' :: cs => (parseUnsigned cs).map neg
  | '+' :: cs => parseUnsigned cs
  | cs => parseUnsigned cs

example : parse "-11.25e1" = some (.fin (-225 / 2)) := by decide +kernel

example : parse "1." = some (.fin 1) ∧ parse "." = none ∧ parse "-Infinity" = some .negInf := by
  decide +kernel

/-
What is read from the digits of a number.
-/

theorem parseNumber_whole {ds : List Char} (hds : ∀ c ∈ ds, c.isDigit) (hne : ds ≠ [])
    : parseNumber ds = some (Nat.ofDigitChars 10 ds 0) := by
  obtain ⟨htake, hdrop⟩ := takeWhile_append_stop [] hds (by simp)
  rw [List.append_nil] at htake hdrop
  simp [parseNumber, htake, hdrop, scale, parseExponent, hne]

theorem parseNumber_fraction {ds fs : List Char} (hds : ∀ c ∈ ds, c.isDigit) (hne : ds ≠ [])
    (hfs : ∀ c ∈ fs, c.isDigit)
    : parseNumber (ds ++ '.' :: fs)
        = some ((Nat.ofDigitChars 10 (ds ++ fs) 0 : ℚ) / 10 ^ fs.length) := by
  obtain ⟨htake, hdrop⟩ := takeWhile_append_stop ( '.' :: fs) hds (by simp)
  obtain ⟨htake', hdrop'⟩ := takeWhile_append_stop [] hfs (by simp)
  rw [List.append_nil] at htake' hdrop'
  simp [parseNumber, htake, hdrop, htake', hdrop', scale, parseExponent, hne, zpow_neg, div_eq_mul_inv]

theorem neg_signed {negative : Bool} {magnitude : ℚ}
    : neg (signed negative magnitude) = signed (!negative) magnitude := by
  unfold signed
  cases negative with
  | false =>
    split
    . rfl
    . rfl
  | true =>
    split
    . rfl
    . simp [neg]

theorem nearest_zero : nearest 0 = .fin 0 := by decide +kernel

theorem nearest_neg (q : ℚ) : nearest (-q) = neg (nearest q) := by
  by_cases hq : q = 0
  . rw [hq, neg_zero, nearest_zero]
    rfl
  . have hsign : decide (-q < 0) = !decide (q < 0) := by
      rw [← decide_not, decide_eq_decide, neg_lt_zero, not_lt]
      exact ⟨le_of_lt, fun h => lt_of_le_of_ne h (Ne.symm hq)⟩
    unfold nearest ulp
    simp only [abs_neg, neg_signed, hsign]

theorem parse_signed {cs : List Char} {q : ℚ} (negative : Bool) (hdigit : ∀ c ∈ cs.head?, c.isDigit)
    (h : parseNumber cs = some q)
    : parse (String.ofList ((if negative then ['-'] else []) ++ cs))
        = some (nearest (if negative then -q else q)) := by
  have hunsigned : parseUnsigned cs = some (nearest q) := by rw [parseUnsigned, h]
  cases negative with
  | true => simp [parse, hunsigned, nearest_neg]
  | false =>
    simp only [parse, String.toList_ofList, Bool.false_eq_true, if_false, List.nil_append]
    split
    . exact absurd (hdigit '-' rfl) (by decide)
    . exact absurd (hdigit '+' rfl) (by decide)
    . exact hunsigned

/-
The range of what is nearest.
-/

theorem roundTiesEven_le {num den bound : Nat} (hden : 0 < den) (h : num ≤ bound * den)
    : roundTiesEven num den ≤ bound := by
  have hwhole : num / den ≤ bound := by
    rw [← Nat.mul_div_cancel bound hden]
    exact Nat.div_le_div_right h
  unfold roundTiesEven
  simp only
  split
  . next hup =>
    by_contra hover
    have hexact : num / den = bound := by omega
    have hmod := Nat.div_add_mod num den
    rw [hexact] at hmod
    have hrest : num % den = 0 := by
      have hcomm : den * bound = bound * den := Nat.mul_comm den bound
      omega
    rw [hrest] at hup
    omega
  . exact hwhole

theorem roundTiesEven_le_of_le {q : ℚ} (hq : 0 ≤ q) {bound : Nat} (h : q ≤ bound)
    : roundTiesEven q.num.natAbs q.den ≤ bound := by
  apply roundTiesEven_le q.den_pos
  have hnum : (q.num.natAbs : ℚ) = q * q.den := by
    rw [Rat.mul_den_eq_num, ← Int.cast_natCast, Int.natAbs_of_nonneg (Rat.num_nonneg.mpr hq)]
  have hle : (q.num.natAbs : ℚ) ≤ (bound * q.den : Nat) := by
    rw [hnum, Nat.cast_mul]
    exact mul_le_mul_of_nonneg_right h (Nat.cast_nonneg _)
  exact_mod_cast hle

-- below 2 ^ 52 the whole numbers are among the steps
theorem exists_ulp {q : ℚ} (h : |q| < 2 ^ 52) : ∃ k : Nat, ulp q = (2 ^ k)⁻¹ := by
  have hlog : Int.log 2 |q| ≤ 52 := by
    by_cases hq : |q| = 0
    . rw [hq, Int.log_zero_right]
      decide
    . have hpos : 0 < |q| := lt_of_le_of_ne (abs_nonneg q) (Ne.symm hq)
      apply le_of_lt
      apply (Int.lt_zpow_iff_log_lt (by decide) hpos).mp
      exact_mod_cast h
  refine ⟨(52 - (Int.log 2 |q| ⊔ -1022)).toNat, ?_⟩
  have hexponent : (Int.log 2 |q| ⊔ -1022) - 52 = -((52 - (Int.log 2 |q| ⊔ -1022)).toNat : Int) := by
    omega
  rw [ulp, hexponent, zpow_neg, zpow_natCast]

theorem nearest_inRange {q : ℚ} {bound : Nat} (hbound : bound < 2 ^ 52) (h : |q| ≤ bound)
    : (nearest q).inRange (-bound) bound = true := by
  have hsmall : |q| < 2 ^ 52 := lt_of_le_of_lt h (by exact_mod_cast hbound)
  obtain ⟨k, hk⟩ := exists_ulp hsmall
  have hpos : (0 : ℚ) < 2 ^ k := by positivity
  have hsteps : |q| / ulp q ≤ (bound * 2 ^ k : Nat) := by
    rw [hk, div_inv_eq_mul, Nat.cast_mul, Nat.cast_pow]
    exact mul_le_mul_of_nonneg_right h hpos.le
  have hnonneg : 0 ≤ |q| / ulp q := by
    rw [hk, div_inv_eq_mul]
    positivity
  have hround := roundTiesEven_le_of_le hnonneg hsteps
  unfold nearest
  simp only
  generalize roundTiesEven (|q| / ulp q).num.natAbs (|q| / ulp q).den = steps at hround ⊢
  have hvalue : (steps : ℚ) * ulp q ≤ bound := by
    rw [hk, mul_inv_le_iff₀ hpos]
    exact_mod_cast hround
  have hvalue' : 0 ≤ (steps : ℚ) * ulp q := by
    rw [hk]
    positivity
  have hfinite : ¬greatest < (steps : ℚ) * ulp q := by
    have hgreatest : ((2 ^ 52 : Nat) : ℚ) ≤ greatest := by decide +kernel
    have hbound' : (bound : ℚ) ≤ (2 ^ 52 : Nat) := by exact_mod_cast hbound.le
    exact not_lt.mpr (hvalue.trans (hbound'.trans hgreatest))
  rw [signed, if_neg hfinite, inRange_iff]
  refine ⟨_, rfl, ?_⟩
  split
  . exact ⟨neg_le_neg hvalue, by linarith⟩
  . exact ⟨by linarith, hvalue⟩

/--
The value that is rounded to some decimal places, as far as the `f64` values go.
-/
def roundedTo (precision : Nat) : F64 → F64
  | .fin q =>
    let magnitude : ℚ := roundTiesEven (q.num.natAbs * 10 ^ precision) q.den / 10 ^ precision
    nearest (if q < 0 then -magnitude else magnitude)
  | x => x

theorem roundedTo_inRange {q : ℚ} {bound : Nat} (precision : Nat) (hbound : bound < 2 ^ 52)
    (h : |q| ≤ bound) : ((F64.fin q).roundedTo precision).inRange (-bound) bound = true := by
  have hscaled : roundTiesEven (q.num.natAbs * 10 ^ precision) q.den ≤ bound * 10 ^ precision := by
    apply roundTiesEven_le q.den_pos
    have hnum : (q.num.natAbs : ℚ) = |q| * q.den := by
      rw [Rat.abs_def, Rat.divInt_eq_div, Int.cast_natCast, Int.cast_natCast, div_mul_cancel₀]
      exact_mod_cast q.den_nz
    have hle : (q.num.natAbs : ℚ) ≤ (bound * q.den : Nat) := by
      rw [hnum, Nat.cast_mul]
      exact mul_le_mul_of_nonneg_right h (Nat.cast_nonneg _)
    have hle' : q.num.natAbs ≤ bound * q.den := by exact_mod_cast hle
    calc q.num.natAbs * 10 ^ precision ≤ bound * q.den * 10 ^ precision := Nat.mul_le_mul_right _ hle'
      _ = bound * 10 ^ precision * q.den := by ring
  unfold roundedTo
  apply nearest_inRange hbound
  have hpos : (0 : ℚ) < 10 ^ precision := by positivity
  have hmagnitude : |(roundTiesEven (q.num.natAbs * 10 ^ precision) q.den : ℚ) / 10 ^ precision| ≤ bound := by
    rw [abs_of_nonneg (by positivity), div_le_iff₀ hpos]
    exact_mod_cast hscaled
  split
  . rw [abs_neg]
    exact hmagnitude
  . exact hmagnitude

end F64

def FitsI32 (n : Int) : Prop := -2147483648 ≤ n ∧ n ≤ 2147483647

instance (n : Int) : Decidable (FitsI32 n) := inferInstanceAs (Decidable (_ ∧ _))

def checkI32 (n : Int) : Option Int := if FitsI32 n then some n else none

def parseI32 (s : String) : Option Int :=
  match s.toList with
  | '-' :: cs => (F64.parseDigits cs).bind fun n => checkI32 (-(n : Int))
  | '+' :: cs => (F64.parseDigits cs).bind fun n => checkI32 n
  | cs => (F64.parseDigits cs).bind fun n => checkI32 n

example : parseI32 "+07" = some 7 ∧ parseI32 "2147483648" = none := by decide

theorem parseDigits_toDigits (n : Nat) : F64.parseDigits (Nat.toDigits 10 n) = some n := by
  have hdigits : ∀ c ∈ Nat.toDigits 10 n, c.isDigit = true :=
    fun c hc => Nat.isDigit_of_mem_toDigits (by decide) (by decide) hc
  unfold F64.parseDigits
  rw [if_neg, Nat.ofDigitChars_ten_toDigits]
  rw [not_or, List.isEmpty_iff, Bool.not_eq_true, List.any_eq_false]
  exact ⟨Nat.toDigits_ne_nil, fun c hc => by simp [hdigits c hc]⟩

-- a sign stands in front or not at all
theorem parseI32_of_digit {c : Char} {cs : List Char} (h : c.isDigit = true)
    : parseI32 (String.ofList (c :: cs)) = (F64.parseDigits (c :: cs)).bind fun n => checkI32 n := by
  unfold parseI32
  rw [String.toList_ofList]
  split
  . next heq =>
    rw [(List.cons.inj heq).1] at h
    cases h
  . next heq =>
    rw [(List.cons.inj heq).1] at h
    cases h
  . rfl

theorem parseI32_toString {n : Int} (h : FitsI32 n) : parseI32 (toString n) = some n := by
  rw [Int.toString_eq_repr, Int.repr_eq_if]
  split
  . next hnonneg =>
    obtain ⟨c, cs, hcons⟩ := List.exists_cons_of_ne_nil (Nat.toDigits_ne_nil (n := n.toNat) (b := 10))
    have hdigit : c.isDigit = true := by
      apply Nat.isDigit_of_mem_toDigits (b := 10) (n := n.toNat) (by decide) (by decide)
      rw [hcons]
      exact List.mem_cons_self
    rw [Nat.repr_eq_ofList_toDigits, hcons, parseI32_of_digit hdigit, ← hcons, parseDigits_toDigits,
      Option.bind_some, Int.toNat_of_nonneg hnonneg]
    exact if_pos h
  . next hneg =>
    have hlist : ("-" ++ (-n).toNat.repr).toList = '-' :: Nat.toDigits 10 (-n).toNat := by
      rw [String.toList_append, Nat.toList_repr]
      rfl
    unfold parseI32
    rw [hlist]
    simp only [parseDigits_toDigits, Option.bind_some]
    rw [Int.toNat_of_nonneg (by omega), neg_neg]
    exact if_pos h

end Rust
