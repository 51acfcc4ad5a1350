import Haiker.ActivityCatalog.Queries
import Haiker.Api.Error
import Haiker.RecordedActivity.LegUpdates

/-!
This module contains the handler that changes a leg, with the errors it answers with. No transaction is around
its statements.
-/

open Rust
open Sql (Faults)
open ActivityCatalog (ActivityCatalogError ActivityId)
open RecordedActivity

namespace Api

structure UpdateLegRequest where
  -- `some none` clears the title
  title : Option (Option String)
  date : Option NaiveDate
  legNumber : Option Nat

structure LegDetailResponse where
  id : Uuid
  legNumber : Nat
  title : Option String
  date : NaiveDate
  sourceRevisionId : Option Uuid
  recordedTrackId : Option Uuid
  recordedSummary : Option (LegSummary F64)
  createdAt : Timestamp
  updatedAt : Timestamp

def legNotFoundError : ApiError :=
  problem .notFound "NOT_FOUND" "leg not found" "/problems/not-found" "Not Found"

def legErrorToApiError : LegError → ApiError
  | .legNotFound _ => legNotFoundError
  | .invalidLegTitle message =>
    problem .unprocessableEntity "VALIDATION_FAILED" message "/problems/validation-failed" "Validation Failed"
  | .invalidLegNumber _ reason =>
    problem .unprocessableEntity "VALIDATION_FAILED" reason "/problems/validation-failed" "Validation Failed"
  | .maxLegsExceeded _ max =>
    problem .unprocessableEntity "MAX_LEGS_EXCEEDED" s!"maximum number of legs ({max}) exceeded"
      "/problems/max-legs-exceeded" "Maximum Legs Exceeded"
  | .persistence _ =>
    problem .internalServerError "INTERNAL_ERROR" "a persistence error occurred"
      "/problems/internal-error" "Internal Server Error"

def activityNotFoundError : ApiError :=
  problem .notFound "NOT_FOUND" "activity not found" "/problems/not-found" "Not Found"

abbrev LegHandler := Method ApiError (LegTable × Nat)

section Handlers

variable (faults : Faults) (repo : PgLegRepository) (now : Timestamp) (db : Imports.Database)

-- every error counts as an activity that is not there
def verifyActivityOwnership (userId : Identity.UserId) (activityId : Uuid) : LegHandler ActivityId := do
  let _ ← mapErr (fun _ : ActivityCatalogError => activityNotFoundError)
    (Sql.statement faults .persistenceError fun legs =>
      (ActivityCatalog.getActivity ⟨activityId⟩ userId db.activities, legs))
  return ⟨activityId⟩

variable (legId : LegId)

-- "Apply title update if present"
def patchTitle : Option (Option String) → LegHandler Unit
  | none => return ()
  | some title => do
    let _ ← mapErr legErrorToApiError (LegMethod.renameLeg faults now legId title)
    return ()

-- "Apply date update if present"
def patchDate : Option NaiveDate → LegHandler Unit
  | none => return ()
  | some newDate => do
    let _ ← mapErr legErrorToApiError (LegMethod.updateLegDate faults now legId newDate)
    return ()

-- "Apply reorder if present"
def patchPosition : Option Nat → LegHandler Unit
  | none => return ()
  | some newPosition => mapErr legErrorToApiError (LegMethod.reorderLeg faults repo now legId newPosition)

def legDetailResponse (detail : LegDetail) : LegDetailResponse where
  id := detail.leg.id.val
  legNumber := detail.leg.legNumber
  title := detail.leg.title.map (·.val)
  date := detail.leg.date
  sourceRevisionId := detail.leg.sourceRevisionId.map (·.val)
  recordedTrackId := detail.leg.recordedTrackId.map (·.val)
  recordedSummary := detail.summary
  createdAt := detail.leg.createdAt
  updatedAt := detail.leg.updatedAt

def patchLeg (userId : Identity.UserId) (activityId : Uuid) (body : UpdateLegRequest)
    : LegHandler LegDetailResponse := do
  let _ ← verifyActivityOwnership faults db userId activityId
  match ← mapErr legErrorToApiError (LegMethod.execute faults (findLeg legId)) with
  | none => fail legNotFoundError
  | some existing =>
    if existing.activityId.val ≠ activityId then
      fail legNotFoundError
    else
      patchTitle faults now legId body.title
      patchDate faults now legId body.date
      patchPosition faults repo now legId body.legNumber
      let updatedDetail ← mapErr legErrorToApiError (LegMethod.getLegDetail faults repo legId db)
      return legDetailResponse updatedDetail

end Handlers

end Api
