import Mathlib.Algebra.GroupWithZero.Nat
import Haiker.Ids
import Haiker.Rust.HashMap
import Haiker.Simulation.Lockstep

/-!
This module contains the upload quota. Instants and durations are nanoseconds.
-/

open Rust

namespace RateLimiting

def fromSecs (secs : Nat) : Nat := secs * 10 ^ 9

def asSecs (duration : Nat) : Nat := duration / 10 ^ 9

-- `now.duration_since(earlier)`, zero if `earlier` is later
def durationSince (now earlier : Nat) : Nat := now - earlier

structure QuotaExceeded where
  secondsUntilReset : Nat
  deriving DecidableEq

structure UploadQuota where
  maxImports : Nat
  windowDuration : Nat

namespace UploadQuota

-- the count and the start of the window for each user
abbrev State := HashMap Uuid (Nat × Nat)

def new (maxImportsPerDay : Nat) : UploadQuota where
  maxImports := maxImportsPerDay
  windowDuration := fromSecs (24 * 60 * 60)

def EVICTION_THRESHOLD : Nat := 10000

variable (quota : UploadQuota)

def evict (now : Nat) (state : State) : State :=
  if EVICTION_THRESHOLD < state.len then
    state.retain fun _ (_, windowStart) => durationSince now windowStart < quota.windowDuration
  else
    state

-- the entry of the user, which starts anew if its window has expired
def window (userId : Uuid) (now : Nat) (state : State) : Nat × Nat :=
  let entry := (state.get? userId).getD (0, now)
  if quota.windowDuration ≤ durationSince now entry.2 then (0, now) else entry

def checkAndIncrementAt (state : State) (userId : Uuid) (now : Nat)
    : State × Except QuotaExceeded Unit :=
  let state := quota.evict now state
  let elapsed := durationSince now ((state.get? userId).getD (0, now)).2
  let entry := quota.window userId now state
  if quota.maxImports ≤ entry.1 then
    let secondsUntilReset := max (asSecs (quota.windowDuration - elapsed)) 1
    (state.insert userId entry, .error { secondsUntilReset })
  else
    (state.insert userId (entry.1 + 1, entry.2), .ok ())

/-
Calls one after the other.
-/

structure Call where
  userId : Uuid
  now : Nat
  deriving DecidableEq

def serve (state : State) (call : Call) : State × Except QuotaExceeded Unit :=
  quota.checkAndIncrementAt state call.userId call.now

def accepted (calls : List Call) : List Call := Lockstep.admitted quota.serve .empty calls

end UploadQuota

end RateLimiting
