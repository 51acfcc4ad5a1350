import Mathlib.Data.Int.ConditionallyCompleteOrder
import Mathlib.Data.Prod.Lex
import Mathlib.Order.ConditionallyCompleteLattice.Basic
import Mathlib.Order.WithBot
import Haiker.ActivityCatalog.Activity
import Haiker.ActivityCatalog.Base64
import Haiker.Pagination.Keyset
import Haiker.Rust.UuidText

/-!
This module contains the listing of an owner's activities and the cursors it hands out. The database does not
fail by itself.
-/

open Rust
open Identity (UserId)
open Pagination (Page)

namespace ActivityCatalog

def DEFAULT_PAGE_SIZE : Nat := 25

def MAX_PAGE_SIZE : Nat := 100

structure CursorPayload where
  startedAt : Option String
  id : String
  deriving DecidableEq

/--
What the cursors take from `serde_json`, `chrono` and `uuid`.
-/
structure CursorExternals where
  payloadToString : CursorPayload → String
  payloadFromString : String → Option CursorPayload
  timestampToString : Timestamp → String
  parseTimestamp : String → Option Timestamp
  parseUuid : String → Option Uuid

section Cursors

variable (externals : CursorExternals)

def encodeCursor (payload : CursorPayload) : String := base64Encode (externals.payloadToString payload)

def decodeCursor (cursor : String) : Except ActivityCatalogError CursorPayload := do
  let json ← (base64Decode cursor).mapError fun _ => .invalidCursor "invalid base64 encoding"
  match externals.payloadFromString json with
  | some payload => return payload
  | none => throw (.invalidCursor "invalid cursor format")

variable {externals}

theorem decodeCursor_encodeCursor {payload : CursorPayload}
    (h : externals.payloadFromString (externals.payloadToString payload) = some payload)
    : decodeCursor externals (encodeCursor externals payload) = .ok payload := by
  unfold decodeCursor encodeCursor
  rw [base64Decode_base64Encode]
  simp only [Except.mapError, bind, Except.bind, h]
  rfl

end Cursors

namespace PgActivityRepository

/--
What the cursor says about the last item of the page before.
-/
structure Position where
  startedAt : Option Timestamp
  id : Uuid

def Position.ofRow (row : ActivityRow) : Position := ⟨row.startedAt, row.id⟩

-- `started_at DESC NULLS LAST, id DESC`, of which the greatest comes first
def Position.rank (position : Position) : WithBot Timestamp ×ₗ Nat :=
  toLex (position.startedAt.elim ⊥ WithBot.some, position.id.bits.toNat)

def readCursor (externals : CursorExternals)
    : Option String → Except ActivityCatalogError (Option Position)
  | none => return none
  | some cursor => do
    let payload ← decodeCursor externals cursor
    let some id := externals.parseUuid payload.id | throw (.invalidCursor "invalid id in cursor")
    match payload.startedAt with
    | none => return some { startedAt := none, id }
    | some text =>
      let some startedAt := externals.parseTimestamp text
        | throw (.invalidCursor "invalid started_at in cursor")
      return some { startedAt := some startedAt, id }

-- the conditions of the three queries
def isAfter (cursor : Option Position) (row : ActivityRow) : Bool :=
  match cursor with
  | none => true
  | some { startedAt := some startedAt, id } =>
    row.startedAt.any (· < startedAt.toTimestamptz)
      || row.startedAt.any (· = startedAt.toTimestamptz) && decide (row.id.bits < id.bits)
      || row.startedAt.isNone
  | some { startedAt := none, id } => row.startedAt.isNone && decide (row.id.bits < id.bits)

def ownedActivities (ownerId : UserId) (activities : ActivityTable) : List ActivityRow :=
  activities.rows.filter fun row => row.ownerId = ownerId.val ∧ row.lifecycleState ≠ "deleted"

-- without the limit
def selectActivities (ownerId : UserId) (cursor : Option Position) (activities : ActivityTable)
    : List ActivityRow :=
  Pagination.descending (fun row => (Position.ofRow row).rank)
    ((ownedActivities ownerId activities).filter (isAfter cursor))

def cursorOf (externals : CursorExternals) (last : Activity) : String :=
  encodeCursor externals {
    startedAt := last.startedAt.map externals.timestampToString
    id := last.id.val.hyphenated
  }

def listActivities (externals : CursorExternals) (ownerId : UserId) (cursor : Option String) (pageSize : Nat)
    (activities : ActivityTable) : Except (Fault ActivityCatalogError) (Page Activity) := do
  let position ← (readCursor externals cursor).mapError Fault.err
  -- one more, to see whether there are more
  let rows := (selectActivities ownerId position activities).take (pageSize + 1)
  let hasMore := decide (pageSize < rows.length)
  let items ← (rows.take pageSize).mapM rowToActivity
  return {
    items
    nextCursor := if hasMore then items.getLast?.map (cursorOf externals) else none
    hasMore
  }

end PgActivityRepository

-- `page_size.unwrap_or(DEFAULT_PAGE_SIZE).clamp(1, MAX_PAGE_SIZE)`
def pageSizeOf (pageSize : Option Nat) : Nat := min (max (pageSize.getD DEFAULT_PAGE_SIZE) 1) MAX_PAGE_SIZE

def listActivities (externals : CursorExternals) (ownerId : UserId) (cursor : Option String)
    (pageSize : Option Nat) (activities : ActivityTable) : Except (Fault ActivityCatalogError) (Page Activity) :=
  PgActivityRepository.listActivities externals ownerId cursor (pageSizeOf pageSize) activities

def getActivity (activityId : ActivityId) (ownerId : UserId) (activities : ActivityTable)
    : Except (Fault ActivityCatalogError) Activity := do
  let found ← PgActivityRepository.findById activityId activities
  match found.filter fun a => a.ownerId = ownerId ∧ a.lifecycleState ≠ .deleted with
  | some activity => return activity
  | none => throw (.err .activityNotFound)

end ActivityCatalog
