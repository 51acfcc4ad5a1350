import Haiker.Ids
import Haiker.Json.Basic
import Haiker.Sql.Table

/-!
This module contains the table `activity_catalog.activities`.
-/

namespace ActivityCatalog

structure ActivityRow where
  id : Uuid
  ownerId : Uuid
  title : String
  activityType : String
  startedAt : Option Timestamp
  endedAt : Option Timestamp
  currentRouteVersionId : Option Uuid
  recordedSummaryJson : Option Json
  correctedSummaryJson : Option Json
  createdAt : Timestamp
  updatedAt : Timestamp
  -- `DEFAULT 'active'`
  lifecycleState : String := "active"

abbrev ActivityTable := Sql.Table ActivityRow.id

inductive ActivityType where
  | hike
  | walk
  | run
  | other
  deriving DecidableEq

def ActivityType.display : ActivityType → String
  | .hike => "hike"
  | .walk => "walk"
  | .run => "run"
  | .other => "other"

-- `SET current_route_version_id = .., corrected_summary_json = .., updated_at = now()`
def setCurrentVersion (now : Timestamp) (versionId : Uuid) (correctedSummaryJson : Json)
    (row : ActivityRow) : ActivityRow := { row with
  currentRouteVersionId := some versionId
  correctedSummaryJson := some correctedSummaryJson
  updatedAt := now.toTimestamptz
}

theorem id_setCurrentVersion (now : Timestamp) (versionId : Uuid) (json : Json) (row : ActivityRow)
    : (setCurrentVersion now versionId json row).id = row.id := rfl

def updateCurrentVersion (now : Timestamp) (activityId versionId : Uuid) (correctedSummaryJson : Json)
    (activities : ActivityTable) : ActivityTable :=
  activities.updateWhere (fun row => row.id = activityId)
    (setCurrentVersion now versionId correctedSummaryJson)
    (id_setCurrentVersion now versionId correctedSummaryJson)

theorem find?_updateCurrentVersion (now : Timestamp) (activityId versionId : Uuid) (json : Json)
    (activities : ActivityTable) (k : Uuid)
    : (updateCurrentVersion now activityId versionId json activities).find? k
        =
      (activities.find? k).map fun row =>
        if row.id = activityId then setCurrentVersion now versionId json row else row := by
  unfold updateCurrentVersion
  rw [Sql.Table.find?_updateWhere]
  simp

end ActivityCatalog
