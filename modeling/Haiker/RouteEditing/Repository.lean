import Haiker.RouteEditing.Draft
import Haiker.RouteEditing.Serde
import Haiker.Sql.Table

/-!
This module contains the tables `route_editing.drafts` and `route_editing.draft_operations` and the
repository on them. The revision column holds no negative numbers, and the database does not fail by
itself.
-/

open Rust

namespace RouteEditing

structure DraftRow where
  id : Uuid
  activityId : Uuid
  ownerId : Uuid
  baseRouteVersionId : Option Uuid
  revision : Nat
  geometry : Json
  state : String
  createdAt : Timestamp
  updatedAt : Timestamp

structure DraftOperationRow where
  draftId : Uuid
  operationId : Uuid
  operationType : String
  operationData : Json
  sequenceNumber : Nat
  isUndone : Bool

structure Store where
  drafts : Sql.Table DraftRow.id
  draftOperations : Sql.Table DraftOperationRow.operationId

def Store.empty : Store where
  drafts := .empty
  draftOperations := .empty

def stateToStr : DraftState → String
  | .active => "active"
  | .published => "published"
  | .discarded => "discarded"

def parseState : String → DraftState
  | "active" => .active
  | "published" => .published
  | "discarded" => .discarded
  | _ => .discarded

def geometryToJson (geometry : Geometry) : Json := .ofList (.ofList RoutePoint.toJson) geometry

def jsonToGeometry (value : Json) : Geometry :=
  (value.toList? (Json.toList? RoutePoint.fromJson)).getD []

def operationTypeStr : RouteOperation → String
  | .movePoint .. => "move_point"
  | .addPoint .. => "add_point"
  | .deletePoint .. => "delete_point"
  | .deleteSection .. => "delete_section"
  | .replaceSection .. => "replace_section"
  | .splitSegment .. => "split_segment"
  | .joinSegments .. => "join_segments"

-- `json!({"operation": .., "geometry_before": ..})`
def operationData (entry : OperationEntry) : Json :=
  .obj [
    ("operation", entry.operation.toJson),
    ("geometry_before", geometryToJson entry.geometryBefore)
  ]

-- the two fields of `StoredOperation`
def storedOperation (data : Json) : Json × Json :=
  match data.structFields ["operation", "geometry_before"] with
  | some [some operation, some geometryBefore] => (operation, geometryBefore)
  | _ => (.null, .arr [])

-- `none` for a malformed operation, which loading skips
def entryOfRow (row : DraftOperationRow) : Option OperationEntry := do
  let (operation, geometryBefore) := storedOperation row.operationData
  return {
    id := { val := row.operationId }
    operation := ← RouteOperation.fromJson operation
    geometryBefore := jsonToGeometry geometryBefore
  }

def operationRow (draftId : RouteDraftId) (isUndone : Bool) (entry : OperationEntry)
    (sequenceNumber : Nat) : DraftOperationRow where
  draftId := draftId.val
  operationId := entry.id.val
  operationType := operationTypeStr entry.operation
  operationData := operationData entry
  sequenceNumber
  isUndone

-- the rows of the operations on one stack, numbered from `offset`
def operationRows (draftId : RouteDraftId) (isUndone : Bool) (offset : Nat)
    (entries : List OperationEntry) : List DraftOperationRow :=
  (entries.zipIdx offset).map fun (entry, sequenceNumber) =>
    operationRow draftId isUndone entry sequenceNumber

namespace PgRouteDraftRepository

abbrev RepositoryM := Method RouteEditingError Store

-- `SELECT .. WHERE draft_id = $1 ORDER BY sequence_number ASC`
def selectOperations (s : Store) (draftId : Uuid) : List DraftOperationRow :=
  s.draftOperations.selectOrdered (fun row => row.draftId = draftId) (·.sequenceNumber)

def draftOfRows (row : DraftRow) (opRows : List DraftOperationRow) : RouteDraft where
  id := { val := row.id }
  activityId := { val := row.activityId }
  ownerId := { val := row.ownerId }
  baseRouteVersionId := row.baseRouteVersionId
  revision := row.revision
  geometry := jsonToGeometry row.geometry
  appliedOperations := (opRows.filter fun row => !row.isUndone).filterMap entryOfRow
  undoneOperations := (opRows.filter fun row => row.isUndone).filterMap entryOfRow
  state := parseState row.state
  createdAt := row.createdAt
  updatedAt := row.updatedAt

def loadDraftWithOperations (row : DraftRow) : RepositoryM RouteDraft := do
  let opRows := selectOperations (← get) row.id
  return draftOfRows row opRows

def findById (id : RouteDraftId) : RepositoryM (Option RouteDraft) := do
  match (← get).drafts.find? id.val with
  | some row => return some (← loadDraftWithOperations row)
  | none => return none

def findActiveByActivity (activityId : ActivityCatalog.ActivityId) (ownerId : Identity.UserId)
    : RepositoryM (Option RouteDraft) := do
  let matching := fun row : DraftRow =>
    row.activityId = activityId.val ∧ row.ownerId = ownerId.val ∧ row.state = "active"
  match (← get).drafts.rows.find? fun row => matching row with
  | some row => return some (← loadDraftWithOperations row)
  | none => return none

def findByOperationId (operationId : OperationId) : RepositoryM (Option RouteDraftId) := do
  let row := (← get).draftOperations.find? operationId.val
  return row.map fun row => { val := row.draftId }

def duplicateKey (constraint : String) : RouteEditingError :=
  .operationFailed ("database error: error returned from database: duplicate key value violates "
    ++ "unique constraint \"" ++ constraint ++ "\"")

def insertOperation (row : DraftOperationRow) : RepositoryM Unit := do
  let s ← get
  match s.draftOperations.insert? row with
  | some draftOperations => set { s with draftOperations }
  | none => fail (duplicateKey "draft_operations_operation_id_key")

def rowOfDraft (draft : RouteDraft) : DraftRow where
  id := draft.id.val
  activityId := draft.activityId.val
  ownerId := draft.ownerId.val
  baseRouteVersionId := draft.baseRouteVersionId
  revision := draft.revision
  geometry := geometryToJson draft.geometry
  state := stateToStr draft.state
  createdAt := draft.createdAt.toTimestamptz
  updatedAt := draft.updatedAt.toTimestamptz

def save (draft : RouteDraft) : RepositoryM Unit := transaction do
  let s ← get
  match s.drafts.insert? (rowOfDraft draft) with
  | some drafts => set { s with drafts }
  | none => fail (duplicateKey "drafts_pkey")
  for row in operationRows draft.id false 0 draft.appliedOperations do
    insertOperation row

-- `SET revision = $2, geometry = $3, state = $4, updated_at = $5`
def setDraft (draft : RouteDraft) (row : DraftRow) : DraftRow := { row with
  revision := draft.revision
  geometry := geometryToJson draft.geometry
  state := stateToStr draft.state
  updatedAt := draft.updatedAt.toTimestamptz
}

theorem id_setDraft (draft : RouteDraft) (row : DraftRow) : (setDraft draft row).id = row.id := rfl

-- `DO UPDATE SET sequence_number = $5, is_undone = ..`
def setPosition (row old : DraftOperationRow) : DraftOperationRow := { old with
  sequenceNumber := row.sequenceNumber
  isUndone := row.isUndone
}

theorem operationId_setPosition (row old : DraftOperationRow)
    : (setPosition row old).operationId = old.operationId := rfl

def setUndone (isUndone : Bool) (row : DraftOperationRow) : DraftOperationRow := { row with isUndone }

theorem operationId_setUndone (isUndone : Bool) (row : DraftOperationRow)
    : (setUndone isUndone row).operationId = row.operationId := rfl

abbrev OperationTable := Sql.Table DraftOperationRow.operationId

-- mark all operations of the draft as undone, then set the applied ones back
def setFlags (draft : RouteDraft) (operations : OperationTable) : OperationTable :=
  let ofDraft := fun row : DraftOperationRow => decide (row.draftId = draft.id.val)
  let appliedIds := draft.appliedOperations.map (·.id.val)
  let operations := operations.updateWhere (fun row => ofDraft row && !row.isUndone)
    (setUndone true) (operationId_setUndone true)
  if appliedIds.isEmpty then
    operations
  else
    operations.updateWhere (fun row => ofDraft row && appliedIds.contains row.operationId)
      (setUndone false) (operationId_setUndone false)

-- insert the operations of both stacks, a row that is there only gets its new position
def upsertStacks (draft : RouteDraft) (operations : OperationTable) : OperationTable :=
  let operations := operations.upsertAll (operationRows draft.id false 0 draft.appliedOperations)
    setPosition operationId_setPosition
  let offset := draft.appliedOperations.length
  operations.upsertAll (operationRows draft.id true offset draft.undoneOperations)
    setPosition operationId_setPosition

-- delete what is on neither stack any more
def deleteDropped (draft : RouteDraft) (operations : OperationTable) : OperationTable :=
  let ofDraft := fun row : DraftOperationRow => decide (row.draftId = draft.id.val)
  let allIds := (draft.appliedOperations ++ draft.undoneOperations).map (·.id.val)
  if allIds.isEmpty then
    operations.deleteWhere ofDraft
  else
    operations.deleteWhere fun row => ofDraft row && !allIds.contains row.operationId

-- the part of `update` that follows the optimistic lock
def writeOperations (draft : RouteDraft) (operations : OperationTable) : OperationTable :=
  deleteDropped draft (upsertStacks draft (setFlags draft operations))

def update (draft : RouteDraft) : RepositoryM Unit := transaction do
  let expectedRevision := (draft.revision : Int) - 1
  let s ← get
  let locked := fun row : DraftRow =>
    decide (row.id = draft.id.val) && decide ((row.revision : Int) = expectedRevision)
  let rowsAffected := s.drafts.count locked
  set { s with drafts := s.drafts.updateWhere locked (setDraft draft) (id_setDraft draft) }
  if rowsAffected = 0 then
    fail (.revisionConflict (← subUsize draft.revision 1) draft.revision)
  modify fun s => { s with draftOperations := writeOperations draft s.draftOperations }

end PgRouteDraftRepository

end RouteEditing
