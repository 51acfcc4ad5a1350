import Mathlib.Tactic.Linarith
import Haiker.RateLimiting.RateLimit
import Haiker.Simulation.Eviction

/-!
This module contains that the rate limiter lets in no more calls than its tokens allow, and that nobody
can tell whether buckets are evicted.
-/

open Rust

namespace RateLimiting

namespace TokenBucket

variable {bucket : TokenBucket} {now : ℚ}

/--
A bucket whose capacity is `rpm` tokens, which it gets in a minute.
-/
structure Good (rpm : Nat) (bucket : TokenBucket) : Prop where
  maxTokens : bucket.maxTokens = rpm
  refillRate : bucket.refillRate = rpm / 60
  nonneg : 0 ≤ bucket.tokens

theorem good_new (rpm : Nat) (now : ℚ) : Good rpm (.new rpm (rpm / 60) now) where
  maxTokens := rfl
  refillRate := rfl
  nonneg := Nat.cast_nonneg rpm

-- refilling at once changes nothing
theorem refill_new (rpm : Nat) (rate now : ℚ) : (new rpm rate now).refill now = new rpm rate now := by
  unfold refill
  simp [new, durationSince]

theorem refill_of_lt (h : bucket.lastRefill < now) : bucket.refill now = { bucket with
      tokens := min (bucket.tokens + (now - bucket.lastRefill) * bucket.refillRate) bucket.maxTokens
      lastRefill := now
    } := by
  have helapsed : durationSince now bucket.lastRefill = now - bucket.lastRefill :=
    max_eq_right (by linarith)
  unfold refill
  simp only [helapsed]
  exact if_pos (by linarith)

theorem refill_of_le (h : now ≤ bucket.lastRefill) : bucket.refill now = bucket := by
  have helapsed : durationSince now bucket.lastRefill = 0 := max_eq_left (by linarith)
  unfold refill
  simp only [helapsed]
  exact if_neg (lt_irrefl 0)

variable {rpm : Nat}

theorem Good.refill (h : Good rpm bucket) (now : ℚ) : Good rpm (bucket.refill now) := by
  rcases lt_or_ge bucket.lastRefill now with hlt | hle
  . have hrate : (0 : ℚ) ≤ rpm / 60 := by positivity
    have hmax : (0 : ℚ) ≤ rpm := Nat.cast_nonneg rpm
    have hadded : 0 ≤ (now - bucket.lastRefill) * (rpm / 60 : ℚ) := mul_nonneg (by linarith) hrate
    rw [refill_of_lt hlt]
    refine ⟨h.maxTokens, h.refillRate, ?_⟩
    show 0 ≤ min _ _
    rw [h.refillRate, h.maxTokens]
    exact le_min (by linarith [h.nonneg]) hmax
  . rw [refill_of_le hle]
    exact h

theorem Good.consumed (h : Good rpm bucket) (hone : 1 ≤ bucket.tokens)
    : Good rpm { bucket with tokens := bucket.tokens - 1 } where
  maxTokens := h.maxTokens
  refillRate := h.refillRate
  nonneg := by
    show 0 ≤ bucket.tokens - 1
    linarith

theorem Good.refill_stale (h : Good rpm bucket) (hstale : RateLimiter.EVICTION_AGE ≤ now - bucket.lastRefill)
    : bucket.refill now = .new rpm (rpm / 60) now := by
  have hage : RateLimiter.EVICTION_AGE = 120 := rfl
  have hlt : bucket.lastRefill < now := by linarith
  have hrate : (0 : ℚ) ≤ rpm / 60 := by positivity
  have hadded : 120 * (rpm / 60 : ℚ) ≤ (now - bucket.lastRefill) * (rpm / 60 : ℚ) :=
    mul_le_mul_of_nonneg_right (by linarith) hrate
  have hmax : (0 : ℚ) ≤ rpm := Nat.cast_nonneg rpm
  have hfull : (rpm : ℚ) ≤ bucket.tokens + (now - bucket.lastRefill) * (rpm / 60) := by
    linarith [h.nonneg]
  rw [refill_of_lt hlt, h.refillRate, h.maxTokens, min_eq_right hfull]
  rfl

theorem Good.tryConsume (h : Good rpm bucket) (now : ℚ) : Good rpm (bucket.tryConsume now).1 := by
  unfold TokenBucket.tryConsume
  dsimp only
  split
  . next hone => exact (h.refill now).consumed hone
  . exact h.refill now

theorem lastRefill_refill_of_le (h : bucket.lastRefill ≤ now) : (bucket.refill now).lastRefill = now := by
  rcases lt_or_ge bucket.lastRefill now with hlt | hle
  . rw [refill_of_lt hlt]
  . rw [refill_of_le hle]
    exact le_antisymm h hle

theorem lastRefill_tryConsume (h : bucket.lastRefill ≤ now)
    : (bucket.tryConsume now).1.lastRefill = now := by
  unfold TokenBucket.tryConsume
  dsimp only
  split
  . exact lastRefill_refill_of_le h
  . exact lastRefill_refill_of_le h

/-
What a bucket can still let in.
-/

/--
The tokens that can still be taken from the bucket between `a` and `b`.
-/
def budget (a b : ℚ) (bucket : TokenBucket) : ℚ :=
  if bucket.lastRefill < a then
    bucket.maxTokens + bucket.refillRate * (b - a)
  else
    bucket.tokens + bucket.refillRate * (b - bucket.lastRefill)

variable {a b : ℚ}

theorem Good.budget_nonneg (h : Good rpm bucket) (hab : a ≤ b) (hlast : bucket.lastRefill ≤ b)
    : 0 ≤ bucket.budget a b := by
  have hrate : (0 : ℚ) ≤ rpm / 60 := by positivity
  have hmax : (0 : ℚ) ≤ rpm := Nat.cast_nonneg rpm
  unfold budget
  rw [h.refillRate, h.maxTokens]
  split
  . have hadded : 0 ≤ (rpm / 60 : ℚ) * (b - a) := mul_nonneg hrate (by linarith)
    linarith
  . have hadded : 0 ≤ (rpm / 60 : ℚ) * (b - bucket.lastRefill) := mul_nonneg hrate (by linarith)
    linarith [h.nonneg]

theorem budget_new (rpm : Nat) (now : ℚ)
    : (new rpm (rpm / 60) now).budget a b ≤ rpm + rpm / 60 * (b - a) := by
  have hrate : (0 : ℚ) ≤ rpm / 60 := by positivity
  unfold budget
  split
  . exact le_refl _
  . next hlate =>
    have hlate : a ≤ now := not_lt.mp hlate
    have hless : (rpm / 60 : ℚ) * (b - now) ≤ rpm / 60 * (b - a) :=
      mul_le_mul_of_nonneg_left (by linarith) hrate
    show (rpm : ℚ) + rpm / 60 * (b - now) ≤ rpm + rpm / 60 * (b - a)
    linarith

-- refilling brings no token that is not in the budget
theorem Good.budget_refill (h : Good rpm bucket) (now : ℚ)
    : (bucket.refill now).budget a b ≤ bucket.budget a b := by
  have hrate : (0 : ℚ) ≤ rpm / 60 := by positivity
  rcases lt_or_ge bucket.lastRefill now with hlt | hle
  . rw [refill_of_lt hlt]
    simp only [budget, h.refillRate, h.maxTokens]
    rcases lt_or_ge now a with hearly | hlate
    . rw [if_pos hearly, if_pos (hlt.trans hearly)]
    . rw [if_neg (not_lt.mpr hlate)]
      split
      . have hfull := min_le_right (bucket.tokens + (now - bucket.lastRefill) * (rpm / 60 : ℚ)) rpm
        have hless : (rpm / 60 : ℚ) * (b - now) ≤ rpm / 60 * (b - a) :=
          mul_le_mul_of_nonneg_left (by linarith) hrate
        linarith
      . have hadded := min_le_left (bucket.tokens + (now - bucket.lastRefill) * (rpm / 60 : ℚ)) rpm
        have hsplit : (rpm / 60 : ℚ) * (b - bucket.lastRefill)
            = (now - bucket.lastRefill) * (rpm / 60) + rpm / 60 * (b - now) := by ring
        linarith
  . rw [refill_of_le hle]

-- a call that is let in from `a` on has its token from the budget
theorem Good.budget_tryConsume (h : Good rpm bucket) (hlast : bucket.lastRefill ≤ now)
    : (bucket.tryConsume now).1.budget a b
        + (if (bucket.tryConsume now).2 = true ∧ a ≤ now then 1 else 0) ≤ bucket.budget a b := by
  have hrefill := h.budget_refill (a := a) (b := b) now
  have hnow := lastRefill_refill_of_le hlast
  unfold TokenBucket.tryConsume
  dsimp only
  split
  . have htaken : budget a b { bucket.refill now with tokens := (bucket.refill now).tokens - 1 }
        = (bucket.refill now).budget a b - if a ≤ now then 1 else 0 := by
      simp only [budget, hnow]
      rcases lt_or_ge now a with hearly | hlate
      . rw [if_pos hearly, if_pos hearly, if_neg (not_le.mpr hearly), sub_zero]
      . rw [if_neg (not_lt.mpr hlate), if_neg (not_lt.mpr hlate), if_pos hlate]
        ring
    rw [htaken]
    simp only [true_and]
    linarith
  . simp only [Bool.false_eq_true, false_and, if_false, add_zero]
    exact hrefill

end TokenBucket

namespace RateLimiter

variable (config : RateLimitConfig)

/--
What `check` does with the bucket under the key.
-/
def answer (k : RateLimitKey × RouteCategory) (now : ℚ) (entry : Option TokenBucket)
    : TokenBucket × Except Nat Unit :=
  let bucket := entry.getD (.new (config.rpmForCategory k.2) (config.rpmForCategory k.2 / 60) now)
  match bucket.tryConsume now with
  | (bucket, true) => (bucket, .ok ())
  | (bucket, false) => (bucket, .error bucket.secondsUntilRefill)

/--
A limiter that never evicts buckets.
-/
def serveKeeping : Buckets → Call → Buckets × Except Nat Unit := Eviction.serve (answer config) Eviction.keep

variable {config}

theorem serve_eq : serve config = Eviction.serve (answer config) evict := by
  funext buckets call
  unfold serve check Eviction.serve answer
  dsimp only
  split
  . next heq => rw [heq]
  . next heq => rw [heq]

theorem answer_fst (k : RateLimitKey × RouteCategory) (now : ℚ) (entry : Option TokenBucket)
    : (answer config k now entry).1
        = ((entry.getD (.new (config.rpmForCategory k.2) (config.rpmForCategory k.2 / 60) now)).tryConsume
            now).1 := by
  unfold answer
  dsimp only
  split
  . next heq => rw [heq]
  . next heq => rw [heq]

theorem answer_snd_eq_ok (k : RateLimitKey × RouteCategory) (now : ℚ) (entry : Option TokenBucket)
    : (answer config k now entry).2 = .ok ()
        ↔ ((entry.getD (.new (config.rpmForCategory k.2) (config.rpmForCategory k.2 / 60) now)).tryConsume
            now).2 = true := by
  unfold answer
  dsimp only
  split
  . next heq => simp [heq]
  . next heq => simp [heq]

/-
Nobody can tell whether buckets are evicted.
-/

def StaleAt (bucket : TokenBucket) (now : ℚ) : Prop := EVICTION_AGE ≤ now - bucket.lastRefill

theorem good_answer {k : RateLimitKey × RouteCategory} {now : ℚ} {entry : Option TokenBucket}
    (h : ∀ bucket, entry = some bucket → bucket.Good (config.rpmForCategory k.2))
    : (answer config k now entry).1.Good (config.rpmForCategory k.2) := by
  rw [answer_fst]
  apply TokenBucket.Good.tryConsume
  cases entry with
  | none => exact TokenBucket.good_new _ now
  | some bucket => exact h bucket rfl

theorem evict_get? (now : ℚ) (buckets : Buckets) (k : RateLimitKey × RouteCategory)
    : (evict now buckets).get? k = buckets.get? k
        ∨ (evict now buckets).get? k = none ∧ ∃ bucket, buckets.get? k = some bucket ∧ StaleAt bucket now := by
  unfold evict
  split
  . rw [HashMap.get?_retain]
    cases hentry : buckets.get? k with
    | none => exact .inl rfl
    | some bucket =>
      by_cases hfresh : TokenBucket.durationSince now bucket.lastRefill < EVICTION_AGE
      . exact .inl (by simp [hfresh])
      . refine .inr ⟨by simpa using not_lt.mp hfresh, bucket, rfl, ?_⟩
        rcases max_choice 0 (now - bucket.lastRefill) with hzero | helapsed
        . rw [TokenBucket.durationSince, hzero] at hfresh
          exact absurd (show (0 : ℚ) < EVICTION_AGE by norm_num [EVICTION_AGE]) hfresh
        . rw [TokenBucket.durationSince, helapsed] at hfresh
          exact not_lt.mp hfresh
  . exact .inl rfl

theorem answer_stale {k : RateLimitKey × RouteCategory} {bucket : TokenBucket} {now later : ℚ}
    (hgood : bucket.Good (config.rpmForCategory k.2)) (hstale : StaleAt bucket now) (hle : now ≤ later)
    : answer config k later (some bucket) = answer config k later none := by
  have hlong : EVICTION_AGE ≤ later - bucket.lastRefill := by
    unfold StaleAt at hstale
    linarith
  have hsame : bucket.tryConsume later
      = (TokenBucket.new (config.rpmForCategory k.2) (config.rpmForCategory k.2 / 60) later).tryConsume
        later := by
    unfold TokenBucket.tryConsume
    rw [hgood.refill_stale hlong, TokenBucket.refill_new]
  unfold answer
  dsimp only
  rw [Option.getD_some, Option.getD_none, hsame]

theorem transparent : Eviction.Transparent (answer config) evict
    (fun k bucket => bucket.Good (config.rpmForCategory k.2)) (fun _ => StaleAt) where
  good_new := fun k now => good_answer (by simp)
  good_answer := by
    intro k now bucket hgood
    apply good_answer
    intro other hother
    rw [← Option.some.inj hother]
    exact hgood
  evicts := evict_get?
  invisible := fun _ _ _ _ hgood hstale hle => answer_stale hgood hstale hle

/-
What is let in under one key.
-/

/--
The call is let in between `a` and `b`.
-/
def within (a b : ℚ) (answered : Call × Except Nat Unit) : Bool :=
  a ≤ answered.1.2 ∧ answered.1.2 ≤ b ∧ answered.2 = .ok ()

/--
What can still be let in under the key.
-/
def budget (config : RateLimitConfig) (k : RateLimitKey × RouteCategory) (a b : ℚ) (entry : Option TokenBucket)
    : ℚ :=
  entry.elim (config.rpmForCategory k.2 + config.rpmForCategory k.2 / 60 * (b - a)) (TokenBucket.budget a b)

/--
The bucket under the key, last refilled no later than `now`.
-/
def Kept (config : RateLimitConfig) (k : RateLimitKey × RouteCategory) (now : ℚ) (entry : Option TokenBucket)
    : Prop :=
  ∀ bucket, entry = some bucket → bucket.Good (config.rpmForCategory k.2) ∧ bucket.lastRefill ≤ now

variable {k : RateLimitKey × RouteCategory} {entry : Option TokenBucket} {now a b : ℚ}

theorem Kept.mono (h : Kept config k now entry) {later : ℚ} (hle : now ≤ later)
    : Kept config k later entry :=
  fun bucket hentry => ⟨(h bucket hentry).1, (h bucket hentry).2.trans hle⟩

theorem Kept.answer (h : Kept config k now entry) : Kept config k now (some (answer config k now entry).1) := by
  intro bucket hbucket
  rw [← Option.some.inj hbucket]
  refine ⟨good_answer fun old hold => (h old hold).1, ?_⟩
  rw [answer_fst]
  cases entry with
  | none => exact (TokenBucket.lastRefill_tryConsume (le_refl now)).le
  | some old => exact (TokenBucket.lastRefill_tryConsume (h old rfl).2).le

theorem Kept.budget_nonneg (h : Kept config k now entry) (hab : a ≤ b) (hb : now ≤ b)
    : 0 ≤ budget config k a b entry := by
  cases entry with
  | none =>
    have hadded : 0 ≤ (config.rpmForCategory k.2 / 60 : ℚ) * (b - a) :=
      mul_nonneg (by positivity) (by linarith)
    have hmax : (0 : ℚ) ≤ config.rpmForCategory k.2 := Nat.cast_nonneg _
    simp only [budget, Option.elim_none]
    linarith
  | some bucket => exact (h bucket rfl).1.budget_nonneg hab ((h bucket rfl).2.trans hb)

theorem Kept.budget_answer (h : Kept config k now entry) (hb : now ≤ b)
    : budget config k a b (some (RateLimiter.answer config k now entry).1)
        + (if within a b ((k, now), (RateLimiter.answer config k now entry).2) then 1 else 0)
      ≤ budget config k a b entry := by
  have hwithin : within a b ((k, now), (RateLimiter.answer config k now entry).2) = true
      ↔ ((entry.getD (.new (config.rpmForCategory k.2) (config.rpmForCategory k.2 / 60) now)).tryConsume
          now).2 = true ∧ a ≤ now := by
    simp [within, answer_snd_eq_ok, hb, and_comm]
  rw [answer_fst]
  simp only [hwithin]
  cases entry with
  | none =>
    exact ((TokenBucket.good_new _ now).budget_tryConsume (le_refl now)).trans (TokenBucket.budget_new _ now)
  | some bucket => exact (h bucket rfl).1.budget_tryConsume (h bucket rfl).2

/--
Of the calls under one key no more are let in between `a` and `b` than the budget.
-/
theorem countP_within_le {buckets : Buckets} {calls : List Call} (hkey : ∀ call ∈ calls, call.1 = k)
    (hsorted : (calls.map Prod.snd).Pairwise (· ≤ ·)) (hnow : ∀ call ∈ calls, now ≤ call.2) (hab : a ≤ b)
    (hb : now ≤ b) (h : Kept config k now (buckets.get? k))
    : ((calls.zip (Lockstep.trace (serveKeeping config) buckets calls)).countP (within a b) : ℚ)
        ≤ budget config k a b (buckets.get? k) := by
  induction calls generalizing buckets now with
  | nil =>
    simp only [List.zip_nil_left, List.countP_nil, Nat.cast_zero]
    exact h.budget_nonneg hab hb
  | cons call calls ih =>
    obtain ⟨key, time⟩ := call
    obtain rfl : key = k := hkey (key, time) List.mem_cons_self
    rw [List.map_cons, List.pairwise_cons] at hsorted
    have hle : now ≤ time := hnow (key, time) List.mem_cons_self
    have hlater : ∀ call ∈ calls, time ≤ call.2 := fun call hcall =>
      hsorted.1 call.2 (List.mem_map_of_mem hcall)
    rcases le_or_gt time b with htime | hlate
    . have hstep := (h.mono hle).budget_answer (a := a) htime
      have hentry : (serveKeeping config buckets (key, time)).1.get? key
          = some (answer config key time (buckets.get? key)).1 := by
        simp only [serveKeeping, Eviction.serve, Eviction.keep, HashMap.get?_insert, if_true]
      have hkept : Kept config key time ((serveKeeping config buckets (key, time)).1.get? key) := by
        rw [hentry]
        exact (h.mono hle).answer
      have hrest := ih (fun call hcall => hkey call (List.mem_cons_of_mem _ hcall)) hsorted.2 hlater htime hkept
      rw [hentry] at hrest
      rw [Lockstep.trace, List.zip_cons_cons, List.countP_cons, Nat.cast_add, Nat.cast_ite, Nat.cast_one,
        Nat.cast_zero]
      exact (add_le_add_left hrest _).trans hstep
    . -- nothing from here on is within the interval
      have hnone : (((key, time) :: calls).zip
          (Lockstep.trace (serveKeeping config) buckets ((key, time) :: calls))).countP (within a b) = 0 := by
        rw [List.countP_eq_zero]
        rintro ⟨call, result⟩ hpair
        have hcall := (List.of_mem_zip hpair).1
        have hafter : b < call.2 := by
          rcases List.mem_cons.mp hcall with rfl | hcall
          . exact hlate
          . exact hlate.trans_le (hlater call hcall)
        simp [within, hafter]
      rw [hnone, Nat.cast_zero]
      exact h.budget_nonneg hab hb

theorem exists_earlier (calls : List Call) (a : ℚ) : ∃ now ≤ a, ∀ call ∈ calls, now ≤ call.2 := by
  induction calls with
  | nil => exact ⟨a, le_refl a, by simp⟩
  | cons call calls ih =>
    obtain ⟨now, hle, hnow⟩ := ih
    refine ⟨min call.2 now, (min_le_right _ _).trans hle, ?_⟩
    intro other hother
    rcases List.mem_cons.mp hother with rfl | hother
    . exact min_le_left _ _
    . exact (min_le_right _ _).trans (hnow other hother)

/--
What the calls under some keys are answered is what a limiter answers that never evicts buckets and gets
only those calls.
-/
theorem answered_filter {calls : List Call} (hsorted : (calls.map Prod.snd).Pairwise (· ≤ ·))
    (only : RateLimitKey × RouteCategory → Bool)
    : (answered config calls).filter (fun pair => only pair.1.1)
        = (calls.filter fun call => only call.1).zip
          (Lockstep.trace (serveKeeping config) .empty (calls.filter fun call => only call.1)) := by
  obtain ⟨now, _, hnow⟩ := exists_earlier calls 0
  unfold answered
  rw [serve_eq]
  exact transparent.trace_filter hsorted hnow fun k _ => Eviction.same_empty k

end RateLimiter

end RateLimiting
