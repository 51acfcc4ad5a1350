import Haiker.ActivityCatalog.Activity
import Haiker.Pagination.Keyset
import Haiker.Rust.ParseF64

/-!
This module contains the listing of an activity's route versions. The database does not fail by itself.
-/

open Rust
open ActivityCatalog (ActivityCatalogError ActivityId ActivityTable)
open Pagination (Page)

namespace RouteVersioning

def DEFAULT_PAGE_SIZE : Nat := 25

def MAX_PAGE_SIZE : Nat := 100

namespace PgRouteVersionRepository

def parseCursor : Option String → Except RouteVersioningError (Option Int)
  | none => .ok none
  | some cursor =>
    match parseI32 cursor with
    | some n => .ok (some n)
    | none => .error (.persistenceError "invalid cursor format")

def versionsOf (activityId : ActivityId) (db : Database) : List RouteVersionRow :=
  db.routeVersions.rows.filter fun row => row.activityId = activityId.val

-- `WHERE .. AND version_number < cursor ORDER BY version_number DESC`, without a limit
def selectVersions (activityId : ActivityId) (cursorVersion : Option Int) (db : Database)
    : List RouteVersionRow :=
  Pagination.descending RouteVersionRow.versionNumber
    ((versionsOf activityId db).filter fun row => cursorVersion.all (row.versionNumber < ·))

-- how the row comes out of the query, which wants the statistics
def decodeRow (row : RouteVersionRow) : Except RouteVersioningError (RouteVersionRow × Json) :=
  match row.correctedStatisticsJson with
  | some json => .ok (row, json)
  | none =>
    .error (.persistenceError ("failed to list route versions: error occurred while decoding "
      ++ "column 6: unexpected null; try decoding as an `Option`"))

def readRow (errors : SerdeErrors) (fetched : RouteVersionRow × Json) : Except RouteVersioningError RouteVersion :=
  rowToRouteVersion errors fetched.1 fetched.2

def listByActivity (errors : SerdeErrors) (activityId : ActivityId) (cursor : Option String) (pageSize : Nat)
    (db : Database) : Except RouteVersioningError (Page RouteVersion) := do
  let cursorVersion ← parseCursor cursor
  -- one more, to see whether there are more
  let rows ← ((selectVersions activityId cursorVersion db).take (pageSize + 1)).mapM decodeRow
  let hasMore := decide (pageSize < rows.length)
  let items ← (rows.take pageSize).mapM (readRow errors)
  return {
    items
    nextCursor := if hasMore then items.getLast?.map fun v => toString v.versionNumber else none
    hasMore
  }

end PgRouteVersionRepository

def verifyActivityOwnership (activityId : ActivityId) (ownerId : Identity.UserId) (activities : ActivityTable)
    : Except (Fault RouteVersioningError) Unit :=
  match ActivityCatalog.PgActivityRepository.findById activityId activities with
  | .error (.err (.persistenceError message)) => .error (.err (.persistenceError message))
  | .error (.err _) => .error (.err .notFound)
  | .error .panic => .error .panic
  | .ok none => .error (.err .notFound)
  | .ok (some activity) =>
    if activity.ownerId = ownerId ∧ activity.lifecycleState ≠ .deleted then
      .ok ()
    else
      .error (.err .notFound)

-- `page_size.unwrap_or(DEFAULT_PAGE_SIZE).clamp(1, MAX_PAGE_SIZE)`
def pageSizeOf (pageSize : Option Nat) : Nat := min (max (pageSize.getD DEFAULT_PAGE_SIZE) 1) MAX_PAGE_SIZE

def listRouteVersions (errors : SerdeErrors) (activityId : ActivityId) (ownerId : Identity.UserId)
    (cursor : Option String) (pageSize : Option Nat) (db : Database)
    : Except (Fault RouteVersioningError) (Page RouteVersion) := do
  verifyActivityOwnership activityId ownerId db.activities
  (PgRouteVersionRepository.listByActivity errors activityId cursor (pageSizeOf pageSize) db).mapError Fault.err

end RouteVersioning
