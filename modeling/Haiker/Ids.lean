import Mathlib.Init

/-!
This module contains the identifiers that several contexts share. All of them are UUIDs under
different names.
-/

structure Uuid where
  bits : BitVec 128
  deriving DecidableEq

namespace Identity

structure UserId where
  val : Uuid
  deriving DecidableEq

end Identity

namespace ActivityCatalog

structure ActivityId where
  val : Uuid
  deriving DecidableEq

end ActivityCatalog

/--
A `DateTime<Utc>` as nanoseconds since the epoch.
-/
abbrev Timestamp := Int

/--
What a `TIMESTAMPTZ` column keeps of a point in time: whole microseconds.
-/
def Timestamp.toTimestamptz (t : Timestamp) : Timestamp := t - t % 1000
