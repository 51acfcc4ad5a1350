import Mathlib.Algebra.Order.Ring.Rat

/-!
This module contains the `f64` values as far as programs compare, store and print them: the finite
ones as rationals, the two infinities and NaN. The two zeros, which compare equal, are one value
here. They are written with a fixed number of decimal places as well.
-/

namespace Rust

inductive F64 where
  | nan
  | negInf
  | posInf
  | fin (value : ℚ)
  deriving DecidableEq

namespace F64

/--
`a == b`. NaN is equal to nothing.
-/
def partialEq : F64 → F64 → Bool
  | .negInf, .negInf => true
  | .posInf, .posInf => true
  | .fin a, .fin b => a = b
  | _, _ => false

/--
`a <= b`. NaN is comparable to nothing.
-/
def le : F64 → F64 → Bool
  | .nan, _ => false
  | _, .nan => false
  | .negInf, _ => true
  | _, .posInf => true
  | .fin a, .fin b => a ≤ b
  | _, _ => false

/--
`(lo..=hi).contains(&x)`.
-/
def inRange (lo hi : ℚ) (x : F64) : Bool :=
  (F64.fin lo).le x && x.le (.fin hi)

/--
`a.min(b)` and `a.max(b)`. NaN counts as missing.
-/
def min : F64 → F64 → F64
  | .nan, b => b
  | a, .nan => a
  | a, b => if a.le b then a else b

def max : F64 → F64 → F64
  | .nan, b => b
  | a, .nan => a
  | a, b => if a.le b then b else a

/--
`f64::MAX`. The least finite value, `f64::MIN`, is its negation.
-/
def greatest : ℚ := (2 ^ 53 - 1) * 2 ^ 971

def isFinite : F64 → Bool
  | .fin _ => true
  | _ => false

/--
The decimal digits of `num / den` for `num < den`, at most `fuel` of them.
-/
def fractionDigits (num den : Nat) : (fuel : Nat) → List Char
  | 0 => []
  | fuel + 1 =>
    if num = 0 then
      []
    else
      Nat.digitChar (10 * num / den) :: fractionDigits (10 * num % den) den fuel

/--
What `{}` prints: a decimal without exponent, and no fraction part on whole numbers.
-/
def display : F64 → String
  | .nan => "NaN"
  | .negInf => "-inf"
  | .posInf => "inf"
  | .fin q =>
    let sign := if q < 0 then "-" else ""
    let whole := toString (q.num.natAbs / q.den)
    match fractionDigits (q.num.natAbs % q.den) q.den 17 with
    | [] => sign ++ whole
    | digits => sign ++ whole ++ "." ++ String.ofList digits

@[simp]
theorem partialEq_fin (a b : ℚ) : (F64.fin a).partialEq (.fin b) = decide (a = b) := rfl

theorem partialEq_iff {a b : F64} : a.partialEq b = true ↔ a = b ∧ a ≠ .nan := by
  cases a <;> cases b <;> simp [partialEq]

theorem inRange_iff {lo hi : ℚ} {x : F64} :
    x.inRange lo hi = true ↔ ∃ q, x = .fin q ∧ lo ≤ q ∧ q ≤ hi := by
  cases x <;> simp [inRange, le]

theorem isFinite_of_inRange {lo hi : ℚ} {x : F64} (h : x.inRange lo hi = true) :
    x.isFinite = true := by
  obtain ⟨q, rfl, _⟩ := inRange_iff.mp h
  rfl

theorem min_fin (a b : ℚ) : (fin a).min (fin b) = fin (Min.min a b) := by
  rw [min_def]
  simp only [F64.min, le, decide_eq_true_eq]
  split <;> rfl

theorem max_fin (a b : ℚ) : (fin a).max (fin b) = fin (Max.max a b) := by
  rw [max_def]
  simp only [F64.max, le, decide_eq_true_eq]
  split <;> rfl

theorem foldl_min_fin (qs : List ℚ) (q : ℚ)
    : (qs.map fin).foldl F64.min (.fin q) = .fin (qs.foldl Min.min q) := by
  rw [List.foldl_map]
  exact List.foldl_hom fin min_fin

theorem foldl_max_fin (qs : List ℚ) (q : ℚ)
    : (qs.map fin).foldl F64.max (.fin q) = .fin (qs.foldl Max.max q) := by
  rw [List.foldl_map]
  exact List.foldl_hom fin max_fin

example : (F64.fin (-45 / 4)).display = "-11.25" := by decide +kernel

end F64

/--
`num / den` rounded to a whole number, to the even one of two that are equally near.
-/
def roundTiesEven (num den : Nat) : Nat :=
  let whole := num / den
  let twice := 2 * (num % den)
  if den < twice ∨ twice = den ∧ whole % 2 = 1 then whole + 1 else whole

/--
The last `precision` decimal digits of `n`.
-/
def lastDigits (n : Nat) : (precision : Nat) → List Char
  | 0 => []
  | precision + 1 => lastDigits (n / 10) precision ++ [Nat.digitChar (n % 10)]

/--
What `{:.precision$}` prints for a positive precision.
-/
def F64.displayFixed (precision : Nat) : F64 → String
  | .nan => "NaN"
  | .negInf => "-inf"
  | .posInf => "inf"
  | .fin q =>
    let sign := if q < 0 then "-" else ""
    let scaled := roundTiesEven (q.num.natAbs * 10 ^ precision) q.den
    sign ++ toString (scaled / 10 ^ precision) ++ "." ++ String.ofList (lastDigits scaled precision)

example : (F64.fin (-45 / 4)).displayFixed 7 = "-11.2500000" := by decide +kernel

end Rust
