import Haiker.RateLimiting.RollingWindow
import Haiker.RateLimiting.TokenConservation

/-!
This module contains whether a rejected caller is let in after the time it is told to wait. The rate limiter
rounds this time up, the upload quota cuts off the part of a second.
-/

open Rust
open Lockstep

namespace RateLimiting

namespace UploadQuota

variable (quota : UploadQuota)

/--
Whatever others call in the meantime, the next call of the user is accepted if it comes at `start` or later.
-/
def AcceptsFrom (state : State) (userId : Uuid) (start : Nat) : Prop :=
  ∀ others : List Call, (∀ call ∈ others, call.userId ≠ userId) → ∀ now, start ≤ now →
    (quota.checkAndIncrementAt (finalState quota.serve state others) userId now).2 = .ok ()

-- when the window of the user expires
def windowEnd (state : State) (userId : Uuid) (now : Nat) : Nat :=
  ((state.get? userId).getD (0, now)).2 + quota.windowDuration

/--
The time that is left in the window is a second at most, or a whole number of seconds, of which none is
due to a window that starts later.
-/
def WholeSeconds (state : State) (userId : Uuid) (now : Nat) : Prop :=
  quota.windowEnd state userId now - now ≤ fromSecs 1
    ∨ fromSecs 1 ∣ quota.windowEnd state userId now - now
      ∧ quota.windowEnd state userId now ≤ now + quota.windowDuration

variable {quota} {state : State} {userId : Uuid} {now count start : Nat}

theorem evict_get? (now : Nat) (state : State) (userId : Uuid)
    : (quota.evict now state).get? userId = state.get? userId
        ∨ (quota.evict now state).get? userId = none := by
  unfold evict
  split
  . rw [HashMap.get?_retain]
    cases state.get? userId with
    | none => exact .inl rfl
    | some entry =>
      by_cases hyoung : durationSince now entry.2 < quota.windowDuration
      . exact .inl (by simp [hyoung])
      . exact .inr (by simpa using Nat.not_lt.mp hyoung)
  . exact .inl rfl

theorem evict_get?_of_young (hyoung : durationSince now start < quota.windowDuration)
    (hentry : state.get? userId = some (count, start))
    : (quota.evict now state).get? userId = some (count, start) := by
  unfold evict
  split
  . rw [HashMap.get?_retain, hentry]
    simp [hyoung]
  . exact hentry

-- a window that has expired is replaced, and so is one that has been evicted
theorem window_of_expired (hpos : 0 < quota.maxImports)
    (hentry : ∀ entry, state.get? userId = some entry → quota.windowDuration ≤ durationSince now entry.2)
    : (quota.window userId now (quota.evict now state)).1 < quota.maxImports := by
  unfold window
  cases hget : (quota.evict now state).get? userId with
  | none => simpa using hpos
  | some entry =>
    have hold : state.get? userId = some entry := by
      rcases evict_get? now state userId with hsame | hnone
      . rw [← hsame, hget]
      . rw [hnone] at hget
        cases hget
    have hexpired := hentry entry hold
    simpa [hexpired] using hpos

theorem accepted_of_room (h : (quota.window userId now (quota.evict now state)).1 < quota.maxImports)
    : (quota.checkAndIncrementAt state userId now).2 = .ok () := by
  unfold checkAndIncrementAt
  simp only
  rw [if_neg (Nat.not_le.mpr h)]

theorem window_of_young (hyoung : durationSince now start < quota.windowDuration)
    (hentry : state.get? userId = some (count, start))
    : quota.window userId now (quota.evict now state) = (count, start) := by
  unfold window
  rw [evict_get?_of_young hyoung hentry]
  exact if_neg (Nat.not_le.mpr hyoung)

theorem rejected_of_young (hyoung : durationSince now start < quota.windowDuration)
    (hentry : state.get? userId = some (count, start)) (hfull : quota.maxImports ≤ count)
    : (quota.checkAndIncrementAt state userId now).1.get? userId = some (count, start)
        ∧ (quota.checkAndIncrementAt state userId now).2 = .error {
          secondsUntilReset := max (asSecs (quota.windowDuration - durationSince now start)) 1
        } := by
  unfold checkAndIncrementAt
  simp only [window_of_young hyoung hentry, evict_get?_of_young hyoung hentry, Option.getD_some]
  rw [if_pos hfull]
  exact ⟨HashMap.get?_insert_self .., rfl⟩

/--
Who is rejected has a window that is full and has not expired.
-/
theorem exists_of_rejected {e : QuotaExceeded} (hpos : 0 < quota.maxImports)
    (h : (quota.checkAndIncrementAt state userId now).2 = .error e)
    : ∃ count start, state.get? userId = some (count, start) ∧ quota.maxImports ≤ count
        ∧ durationSince now start < quota.windowDuration := by
  have hfull : quota.maxImports ≤ (quota.window userId now (quota.evict now state)).1 := by
    by_contra hroom
    rw [accepted_of_room (Nat.not_le.mp hroom)] at h
    cases h
  cases hentry : state.get? userId with
  | none =>
    have hroom : (quota.window userId now (quota.evict now state)).1 < quota.maxImports := by
      apply window_of_expired hpos
      rw [hentry]
      intro entry hsome
      cases hsome
    omega
  | some entry =>
    by_cases hexpired : quota.windowDuration ≤ durationSince now entry.2
    . have hroom : (quota.window userId now (quota.evict now state)).1 < quota.maxImports := by
        apply window_of_expired hpos
        rw [hentry]
        intro other hsome
        exact Option.some.inj hsome ▸ hexpired
      omega
    . have hyoung := Nat.not_le.mp hexpired
      refine ⟨entry.1, entry.2, rfl, ?_, hyoung⟩
      rw [window_of_young hyoung hentry] at hfull
      exact hfull

/-
The calls of others.
-/

theorem get?_serve_of_ne {call : Call} (hother : call.userId ≠ userId)
    : (quota.serve state call).1.get? userId = state.get? userId
        ∨ (quota.serve state call).1.get? userId = none := by
  have hget : (quota.serve state call).1.get? userId = (quota.evict call.now state).get? userId := by
    unfold serve checkAndIncrementAt
    simp only
    split
    . exact HashMap.get?_insert_of_ne hother.symm ..
    . exact HashMap.get?_insert_of_ne hother.symm ..
  rw [hget]
  exact evict_get? call.now state userId

theorem acceptsFrom_iff (hpos : 0 < quota.maxImports) {from_ : Nat}
    (hentry : state.get? userId = some (count, start)) (hfull : quota.maxImports ≤ count)
    (hwindow : 0 < quota.windowDuration)
    : quota.AcceptsFrom state userId from_ ↔ start + quota.windowDuration ≤ from_ := by
  constructor
  . intro haccepts
    by_contra hearly
    have hyoung : durationSince from_ start < quota.windowDuration := by
      unfold durationSince
      omega
    have hok := haccepts [] (List.forall_mem_nil _) from_ (Nat.le_refl _)
    rw [finalState_nil, (rejected_of_young hyoung hentry hfull).2] at hok
    cases hok
  . intro hlate others hothers now hnow
    apply accepted_of_room
    apply window_of_expired hpos
    intro entry hget
    have hkept : (finalState quota.serve state others).get? userId = state.get? userId
        ∨ (finalState quota.serve state others).get? userId = none :=
      finalState_keeps (fun state : State => state.get? userId) fun _ call hcall =>
        get?_serve_of_ne (hothers call hcall)
    rcases hkept with hsame | hnone
    . rw [hsame, hentry] at hget
      cases hget
      unfold durationSince
      show quota.windowDuration ≤ now - start
      omega
    . rw [hnone] at hget
      cases hget

-- cutting off the part of a second
theorem covers_iff {window now start : Nat} (hyoung : durationSince now start < window)
    : start + window ≤ now + fromSecs (max (asSecs (window - durationSince now start)) 1)
        ↔ start + window - now ≤ fromSecs 1
          ∨ fromSecs 1 ∣ start + window - now ∧ start + window ≤ now + window := by
  unfold durationSince fromSecs asSecs at *
  norm_num at *
  omega

/--
A call that is rejected at `now` in any state: the user's next call is accepted from the time on that the
answer names, exactly if the time left in the window is a second at most or a whole number of seconds.
-/
theorem acceptsFrom_iff_wholeSeconds (hpos : 0 < quota.maxImports) {e : QuotaExceeded}
    (h : (quota.checkAndIncrementAt state userId now).2 = .error e)
    : quota.AcceptsFrom (quota.checkAndIncrementAt state userId now).1 userId (now + fromSecs e.secondsUntilReset)
        ↔ quota.WholeSeconds state userId now := by
  obtain ⟨count, start, hentry, hfull, hyoung⟩ := exists_of_rejected hpos h
  obtain ⟨hkept, hrejected⟩ := rejected_of_young hyoung hentry hfull
  rw [h] at hrejected
  obtain rfl := Except.error.inj hrejected
  rw [acceptsFrom_iff hpos hkept hfull (by omega), covers_iff hyoung]
  unfold WholeSeconds windowEnd
  rw [hentry]
  rfl

end UploadQuota

namespace TokenBucket

variable {rpm : Nat} {bucket : TokenBucket} {now : ℚ}

theorem lastRefill_tryConsume_le {later : ℚ} (h : bucket.lastRefill ≤ later) (hle : now ≤ later)
    : (bucket.tryConsume now).1.lastRefill ≤ later := by
  have hrefill : (bucket.refill now).lastRefill ≤ later := by
    rcases lt_or_ge bucket.lastRefill now with hlt | hge
    . rw [refill_of_lt hlt]
      exact hle
    . rw [refill_of_le hge]
      exact h
  unfold tryConsume
  dsimp only
  split
  . exact hrefill
  . exact hrefill

/--
The seconds are the least whole number of seconds in which the missing part of a token is refilled. They
are not cut off, as this takes a minute at most.
-/
theorem Good.secondsUntilRefill (h : Good rpm bucket) (hrpm : 0 < rpm) (hempty : bucket.tokens < 1)
    : 1 ≤ bucket.secondsUntilRefill ∧ bucket.secondsUntilRefill ≤ 60
        ∧ 1 ≤ bucket.tokens + bucket.secondsUntilRefill * bucket.refillRate
        ∧ bucket.tokens + (bucket.secondsUntilRefill - 1 : ℚ) * bucket.refillRate < 1 := by
  have hone : (1 : ℚ) ≤ rpm := by exact_mod_cast hrpm
  have hrate : 0 < bucket.refillRate := by
    rw [h.refillRate]
    linarith
  have hmissing : 0 < (1 - bucket.tokens) / bucket.refillRate := div_pos (by linarith) hrate
  have hminute : (1 - bucket.tokens) / bucket.refillRate ≤ 60 := by
    rw [div_le_iff₀ hrate, h.refillRate]
    linarith [h.nonneg]
  have hceil : 1 ≤ ⌈(1 - bucket.tokens) / bucket.refillRate⌉ := Int.one_le_ceil_iff.mpr hmissing
  have hceil' : ⌈(1 - bucket.tokens) / bucket.refillRate⌉ ≤ 60 := Int.ceil_le.mpr (by exact_mod_cast hminute)
  have hseconds : (bucket.secondsUntilRefill : Int) = ⌈(1 - bucket.tokens) / bucket.refillRate⌉ := by
    unfold TokenBucket.secondsUntilRefill
    rw [if_neg (not_le.mpr hempty), if_neg hrate.ne']
    omega
  have hcast : (bucket.secondsUntilRefill : ℚ) = ⌈(1 - bucket.tokens) / bucket.refillRate⌉ := by
    exact_mod_cast hseconds
  refine ⟨by omega, by omega, ?_, ?_⟩
  . have hle := Int.le_ceil ((1 - bucket.tokens) / bucket.refillRate)
    rw [div_le_iff₀ hrate] at hle
    rw [hcast]
    linarith
  . have hlt := Int.ceil_lt_add_one ((1 - bucket.tokens) / bucket.refillRate)
    rw [← sub_lt_iff_lt_add, lt_div_iff₀ hrate] at hlt
    rw [hcast]
    linarith

end TokenBucket

namespace RateLimiter

variable (config : RateLimitConfig)

/--
Whatever comes under other keys in the meantime, the next call under the key is let in if it comes at
`start` or later.
-/
def AcceptsFrom (buckets : Buckets) (k : RateLimitKey × RouteCategory) (start : ℚ) : Prop :=
  ∀ others : List Call, (∀ call ∈ others, call.1 ≠ k) → ∀ now, start ≤ now →
    (check config (finalState (serve config) buckets others) k.1 k.2 now).2 = .ok ()

variable {config} {buckets : Buckets} {k : RateLimitKey × RouteCategory} {now : ℚ}

theorem check_eq (buckets : Buckets) (k : RateLimitKey × RouteCategory) (now : ℚ)
    : check config buckets k.1 k.2 now
        = ((evict now buckets).insert k (answer config k now ((evict now buckets).get? k)).1,
          (answer config k now ((evict now buckets).get? k)).2) := by
  have hserve : serve config buckets (k, now) = Eviction.serve (answer config) evict buckets (k, now) := by
    rw [serve_eq]
  exact hserve

theorem get?_serve_of_ne {call : Call} (hother : call.1 ≠ k)
    : (serve config buckets call).1.get? k = buckets.get? k ∨ (serve config buckets call).1.get? k = none := by
  have hserve : serve config buckets call = check config buckets call.1.1 call.1.2 call.2 := rfl
  rw [hserve, check_eq, HashMap.get?_insert_of_ne hother.symm]
  rcases evict_get? call.2 buckets k with hsame | hnone
  . exact .inl hsame
  . exact .inr hnone.1

theorem kept_evict (h : Kept config k now (buckets.get? k)) (time : ℚ)
    : Kept config k now ((evict time buckets).get? k) := by
  rcases evict_get? time buckets k with hsame | hnone
  . rw [hsame]
    exact h
  . rw [hnone.1]
    intro bucket hbucket
    cases hbucket

theorem kept_serve {call : Call} (h : Kept config k now (buckets.get? k)) (hle : call.1 = k → call.2 ≤ now)
    : Kept config k now ((serve config buckets call).1.get? k) := by
  by_cases hkey : call.1 = k
  . obtain ⟨key, time⟩ := call
    obtain rfl : key = k := hkey
    have hevicted := kept_evict h time
    have hget : (serve config buckets (key, time)).1.get? key
        = some (answer config key time ((evict time buckets).get? key)).1 := by
      show (check config buckets key.1 key.2 time).1.get? key = _
      rw [check_eq]
      exact HashMap.get?_insert_self ..
    rw [hget]
    intro bucket hbucket
    obtain rfl := Option.some.inj hbucket
    refine ⟨good_answer fun old hold => (hevicted old hold).1, ?_⟩
    rw [answer_fst]
    apply TokenBucket.lastRefill_tryConsume_le _ (hle rfl)
    cases hentry : (evict time buckets).get? key with
    | none => exact hle rfl
    | some old => exact (hevicted old hentry).2
  . have hother : (serve config buckets call).1.get? k = buckets.get? k
        ∨ (serve config buckets call).1.get? k = none := get?_serve_of_ne hkey
    rcases hother with hsame | hnone
    . rw [hsame]
      exact h
    . rw [hnone]
      intro bucket hbucket
      cases hbucket

-- no call under the key has come later than `now`
theorem kept_run {calls : List Call} (hle : ∀ call ∈ calls, call.1 = k → call.2 ≤ now)
    : Kept config k now ((finalState (serve config) .empty calls).get? k) := by
  have hempty : Kept config k now ((HashMap.empty : Buckets).get? k) := by
    intro bucket hbucket
    cases hbucket
  exact finalState_invariant (fun buckets : Buckets => Kept config k now (buckets.get? k))
    (fun _ call hcall h => kept_serve h (hle call hcall)) hempty

/--
Who is rejected has a bucket without a whole token, and it is told how long the bucket takes for one.
-/
theorem exists_of_rejected {s : Nat} (hkept : Kept config k now (buckets.get? k))
    (h : (check config buckets k.1 k.2 now).2 = .error s)
    : ∃ bucket : TokenBucket, (check config buckets k.1 k.2 now).1.get? k = some bucket
        ∧ bucket.Good (config.rpmForCategory k.2) ∧ bucket.lastRefill = now ∧ bucket.tokens < 1
        ∧ bucket.secondsUntilRefill = s := by
  have hevicted := kept_evict hkept now
  rw [check_eq] at h ⊢
  simp only [HashMap.get?_insert_self, Option.some.injEq, exists_eq_left']
  generalize hentry : (evict now buckets).get? k = entry at *
  let bucket := entry.getD (.new (config.rpmForCategory k.2) (config.rpmForCategory k.2 / 60) now)
  have hbucket : bucket.Good (config.rpmForCategory k.2) ∧ bucket.lastRefill ≤ now := by
    cases entry with
    | none => exact ⟨TokenBucket.good_new _ now, le_refl now⟩
    | some old => exact hevicted old rfl
  have hempty : (bucket.refill now).tokens < 1 := by
    by_contra hone
    have htaken : (bucket.tryConsume now).2 = true := by
      unfold TokenBucket.tryConsume
      simp only [if_pos (not_lt.mp hone)]
    rw [(answer_snd_eq_ok k now entry).mpr htaken] at h
    cases h
  have hconsume : bucket.tryConsume now = (bucket.refill now, false) := by
    unfold TokenBucket.tryConsume
    simp only [if_neg (not_le.mpr hempty)]
  have hanswer : answer config k now entry = (bucket.refill now, .error (bucket.refill now).secondsUntilRefill) := by
    unfold answer
    dsimp only
    split
    . next heq =>
      rw [hconsume] at heq
      cases heq
    . next heq =>
      rw [hconsume] at heq
      cases heq
      rfl
  rw [hanswer] at h ⊢
  exact ⟨hbucket.1.refill now, TokenBucket.lastRefill_refill_of_le hbucket.2, hempty, Except.error.inj h⟩

theorem accepted_of_token {entry : Option TokenBucket} (hentry : (evict now buckets).get? k = entry)
    (h : 1 ≤ ((entry.getD (.new (config.rpmForCategory k.2) (config.rpmForCategory k.2 / 60) now)).refill
      now).tokens) : (check config buckets k.1 k.2 now).2 = .ok () := by
  rw [check_eq, hentry]
  apply (answer_snd_eq_ok k now entry).mpr
  unfold TokenBucket.tryConsume
  simp only [if_pos h]

theorem accepted_of_none (hrpm : 0 < config.rpmForCategory k.2) (hentry : (evict now buckets).get? k = none)
    : (check config buckets k.1 k.2 now).2 = .ok () := by
  apply accepted_of_token hentry
  rw [Option.getD_none, TokenBucket.refill_new]
  show (1 : ℚ) ≤ config.rpmForCategory k.2
  exact_mod_cast hrpm

section Rejected

variable {bucket : TokenBucket} (hrpm : 0 < config.rpmForCategory k.2)
  (hentry : buckets.get? k = some bucket) (hgood : bucket.Good (config.rpmForCategory k.2))
  (hlast : bucket.lastRefill = now) (hempty : bucket.tokens < 1)
include hrpm hentry hgood hlast hempty

theorem acceptsFrom_seconds : AcceptsFrom config buckets k (now + bucket.secondsUntilRefill) := by
  intro others hothers later hlater
  obtain ⟨hone, _, hfull, _⟩ := hgood.secondsUntilRefill hrpm hempty
  have hseconds : (1 : ℚ) ≤ bucket.secondsUntilRefill := by exact_mod_cast hone
  have hkept : (finalState (serve config) buckets others).get? k = some bucket
      ∨ (finalState (serve config) buckets others).get? k = none := by
    rw [← hentry]
    exact finalState_keeps (fun buckets : Buckets => buckets.get? k) fun _ call hcall =>
      get?_serve_of_ne (hothers call hcall)
  have hfound : (evict later (finalState (serve config) buckets others)).get? k = some bucket
      ∨ (evict later (finalState (serve config) buckets others)).get? k = none := by
    rcases evict_get? later (finalState (serve config) buckets others) k with hsame | hnone
    . rw [hsame]
      exact hkept
    . exact .inr hnone.1
  rcases hfound with hsome | hnone
  . apply accepted_of_token hsome
    have hrate : 0 ≤ bucket.refillRate := by
      rw [hgood.refillRate]
      positivity
    have hlater' : (bucket.secondsUntilRefill : ℚ) * bucket.refillRate
        ≤ (later - bucket.lastRefill) * bucket.refillRate :=
      mul_le_mul_of_nonneg_right (by linarith) hrate
    have hmax : (1 : ℚ) ≤ bucket.maxTokens := by
      rw [hgood.maxTokens]
      exact_mod_cast hrpm
    rw [Option.getD_some, TokenBucket.refill_of_lt (by linarith)]
    exact le_min (by linarith) hmax
  . exact accepted_of_none hrpm hnone

theorem rejected_second_before
    : (check config buckets k.1 k.2 (now + (bucket.secondsUntilRefill - 1 : ℚ))).2 ≠ .ok () := by
  obtain ⟨hone, hminute, _, hmissing⟩ := hgood.secondsUntilRefill hrpm hempty
  have hseconds : (1 : ℚ) ≤ bucket.secondsUntilRefill := by exact_mod_cast hone
  have hseconds' : (bucket.secondsUntilRefill : ℚ) ≤ 60 := by exact_mod_cast hminute
  generalize hlater : now + (bucket.secondsUntilRefill - 1 : ℚ) = later
  have hfound : (evict later buckets).get? k = some bucket := by
    rcases evict_get? later buckets k with hsame | ⟨_, other, hother, hstale⟩
    . rw [hsame, hentry]
    . rw [hentry] at hother
      obtain rfl := Option.some.inj hother
      have hage : EVICTION_AGE = 120 := rfl
      unfold StaleAt at hstale
      linarith
  have htokens : (bucket.refill later).tokens < 1 := by
    rcases lt_or_ge bucket.lastRefill later with hlt | hge
    . rw [TokenBucket.refill_of_lt hlt]
      have helapsed : later - bucket.lastRefill = bucket.secondsUntilRefill - 1 := by linarith
      rw [helapsed]
      exact min_lt_of_left_lt hmissing
    . rw [TokenBucket.refill_of_le hge]
      exact hempty
  rw [check_eq, hfound]
  intro hok
  have htaken := (answer_snd_eq_ok k later (some bucket)).mp hok
  rw [Option.getD_some] at htaken
  unfold TokenBucket.tryConsume at htaken
  simp only [if_neg (not_le.mpr htokens)] at htaken
  cases htaken

end Rejected

/--
A call that is rejected: the next one is let in from the time on that the answer names, and not yet a second
earlier.
-/
theorem acceptsFrom_of_rejected {s : Nat} (hrpm : 0 < config.rpmForCategory k.2)
    (hkept : Kept config k now (buckets.get? k)) (h : (check config buckets k.1 k.2 now).2 = .error s)
    : AcceptsFrom config (check config buckets k.1 k.2 now).1 k (now + s)
        ∧ 1 ≤ s
        ∧ (check config (check config buckets k.1 k.2 now).1 k.1 k.2 (now + (s - 1 : ℚ))).2 ≠ .ok () := by
  obtain ⟨bucket, hentry, hgood, hlast, hempty, rfl⟩ := exists_of_rejected hkept h
  refine ⟨acceptsFrom_seconds hrpm hentry hgood hlast hempty, ?_, ?_⟩
  . exact (hgood.secondsUntilRefill hrpm hempty).1
  . exact rejected_second_before hrpm hentry hgood hlast hempty

end RateLimiter

/--
A rejected caller that comes back after the seconds it has been told, or later. For every run of calls
before: the upload quota accepts it exactly if the time left in its window was a second at most or a
whole number of seconds. The rate limiter always lets it in, but not a second earlier.
-/
theorem retry_after_iff (quota : UploadQuota) (config : RateLimitConfig)
    : (∀ (calls : List UploadQuota.Call) userId now e, 0 < quota.maxImports →
        (quota.checkAndIncrementAt (finalState quota.serve .empty calls) userId now).2 = .error e →
          (quota.AcceptsFrom (quota.checkAndIncrementAt (finalState quota.serve .empty calls) userId now).1 userId
              (now + fromSecs e.secondsUntilReset)
            ↔ quota.WholeSeconds (finalState quota.serve .empty calls) userId now))
      ∧ ∀ (calls : List RateLimiter.Call) key category (now : ℚ) s, 0 < config.rpmForCategory category →
        (∀ call ∈ calls, call.1 = (key, category) → call.2 ≤ now) →
          let buckets := finalState (RateLimiter.serve config) .empty calls
          (RateLimiter.check config buckets key category now).2 = .error s →
            RateLimiter.AcceptsFrom config (RateLimiter.check config buckets key category now).1 (key, category)
                (now + s)
              ∧ 1 ≤ s
              ∧ (RateLimiter.check config (RateLimiter.check config buckets key category now).1 key category
                (now + (s - 1 : ℚ))).2 ≠ .ok () := by
  constructor
  . intro calls userId now e hpos h
    exact UploadQuota.acceptsFrom_iff_wholeSeconds hpos h
  . intro calls key category now s hrpm hle buckets h
    exact RateLimiter.acceptsFrom_of_rejected (k := (key, category)) hrpm (RateLimiter.kept_run hle) h

/--
One import a day, and a second call half a second after the first: it is told to wait for 86399 seconds, and
rejected then.
-/
theorem rejected_after_reset
    : ((UploadQuota.new 1).checkAndIncrementAt (finalState (UploadQuota.new 1).serve .empty [⟨⟨1⟩, 0⟩]) ⟨1⟩
          500000000).2 = .error ⟨86399⟩
      ∧ ¬(UploadQuota.new 1).AcceptsFrom
        ((UploadQuota.new 1).checkAndIncrementAt (finalState (UploadQuota.new 1).serve .empty [⟨⟨1⟩, 0⟩]) ⟨1⟩
          500000000).1 ⟨1⟩ (500000000 + fromSecs 86399) := by
  refine ⟨by decide, ?_⟩
  intro haccepts
  have hok := haccepts [] (List.forall_mem_nil _) (500000000 + fromSecs 86399) (Nat.le_refl _)
  exact absurd hok (by decide)

end RateLimiting
