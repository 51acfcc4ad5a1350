import Mathlib.Data.Rat.Floor
import Haiker.Ids
import Haiker.Rust.HashMap
import Haiker.Simulation.Lockstep

/-!
This module contains the rate limiter. Instants are seconds, and they and the tokens are exact. The clock
is read once for each call.
-/

open Rust

namespace RateLimiting

structure RateLimitConfig where
  authRpm : Nat
  importsRpm : Nat
  mutationsRpm : Nat
  readsRpm : Nat
  exportsRpm : Nat

inductive RouteCategory where
  | auth
  | import_
  | mutation
  | read
  | export_
  deriving DecidableEq

def RateLimitConfig.default : RateLimitConfig where
  authRpm := 5
  importsRpm := 10
  mutationsRpm := 30
  readsRpm := 120
  exportsRpm := 10

def RateLimitConfig.rpmForCategory (config : RateLimitConfig) : RouteCategory → Nat
  | .auth => config.authRpm
  | .import_ => config.importsRpm
  | .mutation => config.mutationsRpm
  | .read => config.readsRpm
  | .export_ => config.exportsRpm

inductive RateLimitKey where
  | userId (userId : Uuid)
  | ipAddr (ip : String)
  deriving DecidableEq

structure TokenBucket where
  tokens : ℚ
  maxTokens : ℚ
  refillRate : ℚ
  lastRefill : ℚ
  deriving DecidableEq

namespace TokenBucket

def new (maxTokens : Nat) (refillRate : ℚ) (now : ℚ) : TokenBucket where
  tokens := maxTokens
  maxTokens
  refillRate
  lastRefill := now

-- `now.duration_since(earlier)`, zero if `earlier` is later
def durationSince (now earlier : ℚ) : ℚ := max 0 (now - earlier)

def refill (now : ℚ) (bucket : TokenBucket) : TokenBucket :=
  let elapsed := durationSince now bucket.lastRefill
  if 0 < elapsed then
    { bucket with
      tokens := min (bucket.tokens + elapsed * bucket.refillRate) bucket.maxTokens
      lastRefill := now
    }
  else
    bucket

def tryConsume (now : ℚ) (bucket : TokenBucket) : TokenBucket × Bool :=
  let bucket := bucket.refill now
  if 1 ≤ bucket.tokens then
    ({ bucket with tokens := bucket.tokens - 1 }, true)
  else
    (bucket, false)

-- `as u64` of the quotient, which is infinite if the rate is zero
def secondsUntilRefill (bucket : TokenBucket) : Nat :=
  if 1 ≤ bucket.tokens then
    0
  else if bucket.refillRate = 0 then
    2 ^ 64 - 1
  else
    min ⌈(1 - bucket.tokens) / bucket.refillRate⌉.toNat (2 ^ 64 - 1)

end TokenBucket

namespace RateLimiter

abbrev Buckets := HashMap (RateLimitKey × RouteCategory) TokenBucket

def EVICTION_THRESHOLD : Nat := 10000

-- seconds
def EVICTION_AGE : ℚ := 120

def evict (now : ℚ) (buckets : Buckets) : Buckets :=
  if EVICTION_THRESHOLD < buckets.len then
    buckets.retain fun _ bucket => TokenBucket.durationSince now bucket.lastRefill < EVICTION_AGE
  else
    buckets

def check (config : RateLimitConfig) (buckets : Buckets) (key : RateLimitKey) (category : RouteCategory)
    (now : ℚ) : Buckets × Except Nat Unit :=
  let buckets := evict now buckets
  let bucket := (buckets.get? (key, category)).getD
    (TokenBucket.new (config.rpmForCategory category) (config.rpmForCategory category / 60) now)
  match bucket.tryConsume now with
  | (bucket, true) => (buckets.insert (key, category) bucket, .ok ())
  | (bucket, false) => (buckets.insert (key, category) bucket, .error bucket.secondsUntilRefill)

/-
Calls one after the other.
-/

-- who calls what, and when
abbrev Call := (RateLimitKey × RouteCategory) × ℚ

def serve (config : RateLimitConfig) (buckets : Buckets) (call : Call) : Buckets × Except Nat Unit :=
  check config buckets call.1.1 call.1.2 call.2

/--
The calls with their answers.
-/
def answered (config : RateLimitConfig) (calls : List Call) : List (Call × Except Nat Unit) :=
  calls.zip (Lockstep.trace (serve config) .empty calls)

end RateLimiter

end RateLimiting
