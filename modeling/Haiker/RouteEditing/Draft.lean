import Haiker.RouteEditing.Operations

/-!
This module contains the `RouteDraft` aggregate with the commands on it, and the check whether it can be
published. Identifiers and points in time that the code generates are arguments here. The revision counts
without a bound.
-/

open Rust

namespace RouteEditing

inductive DraftState where
  | active
  | published
  | discarded
  deriving DecidableEq

structure OperationEntry where
  id : OperationId
  operation : RouteOperation
  geometryBefore : Geometry
  deriving DecidableEq

structure RouteDraft where
  id : RouteDraftId
  activityId : ActivityCatalog.ActivityId
  ownerId : Identity.UserId
  baseRouteVersionId : Option Uuid
  revision : Nat
  geometry : Geometry
  -- both stacks have their top at the end
  appliedOperations : List OperationEntry
  undoneOperations : List OperationEntry
  state : DraftState
  createdAt : Timestamp
  updatedAt : Timestamp
  deriving DecidableEq

abbrev DraftM := Method RouteEditingError RouteDraft

def validateGeometry (geometry : Geometry) : Except RouteEditingError Unit := do
  if geometry.isEmpty then
    throw (.invalidOperation "geometry must contain at least 1 segment")
  for segment in geometry do
    if segment.length < 2 then
      throw (.insufficientPoints 2 segment.length)

-- `?` on a result that does not depend on the draft
def ofExcept {α : Type} : Except RouteEditingError α → DraftM α
  | .ok a => pure a
  | .error e => fail e

-- run a method that works on the geometry alone
def onGeometry (m : GeometryM Unit) : DraftM Unit := fun draft =>
  match m.run draft.geometry with
  | .ok _ geometry => .ok () { draft with geometry }
  | .error e geometry => .error e { draft with geometry }

namespace RouteDraft

def createFromGeometry (id : RouteDraftId) (now : Timestamp) (ownerId : Identity.UserId)
    (activityId : ActivityCatalog.ActivityId) (baseRouteVersionId : Option Uuid)
    (geometry : Geometry) : Except RouteEditingError RouteDraft := do
  validateGeometry geometry
  return {
    id
    activityId
    ownerId
    baseRouteVersionId
    revision := 0
    geometry
    appliedOperations := []
    undoneOperations := []
    state := .active
    createdAt := now
    updatedAt := now
  }

def checkActive : DraftM Unit := do
  if (← get).state ≠ .active then
    fail .draftNotActive

def checkRevision (expected : Nat) : DraftM Unit := do
  let draft ← get
  if expected ≠ draft.revision then
    fail (.revisionConflict expected draft.revision)

-- `self.revision += 1; self.updated_at = Utc::now();`
def touch (now : Timestamp) : DraftM Unit :=
  modify fun draft => { draft with revision := draft.revision + 1, updatedAt := now }

def applyOperation (now : Timestamp) (operationId : OperationId) (operation : RouteOperation)
    (expectedRevision : Nat) : DraftM Unit := do
  checkActive
  checkRevision expectedRevision
  if (← get).appliedOperations.any fun e => e.id = operationId then
    return
  let geometryBefore := (← get).geometry
  onGeometry (executeOperation operation)
  modify fun draft => { draft with
    undoneOperations := []
    appliedOperations := draft.appliedOperations ++ [{ id := operationId, operation, geometryBefore }]
  }
  touch now

def undo (now : Timestamp) (expectedRevision : Nat) : DraftM Unit := do
  checkActive
  checkRevision expectedRevision
  let draft ← get
  match draft.appliedOperations.getLast? with
  | none => fail .nothingToUndo
  | some entry =>
    set { draft with
      appliedOperations := draft.appliedOperations.dropLast
      geometry := entry.geometryBefore
      undoneOperations :=
        draft.undoneOperations ++ [{ entry with geometryBefore := draft.geometry }]
    }
    touch now

def redo (now : Timestamp) (expectedRevision : Nat) : DraftM Unit := do
  checkActive
  checkRevision expectedRevision
  let draft ← get
  match draft.undoneOperations.getLast? with
  | none => fail .nothingToRedo
  | some entry =>
    set { draft with
      undoneOperations := draft.undoneOperations.dropLast
      geometry := entry.geometryBefore
      appliedOperations :=
        draft.appliedOperations ++ [{ entry with geometryBefore := draft.geometry }]
    }
    touch now

def reset (now : Timestamp) (expectedRevision : Nat) (baseGeometry : Geometry) : DraftM Unit := do
  checkActive
  checkRevision expectedRevision
  ofExcept (validateGeometry baseGeometry)
  modify fun draft => { draft with
    geometry := baseGeometry
    appliedOperations := []
    undoneOperations := []
  }
  touch now

def publish (now : Timestamp) : DraftM Unit := do
  checkActive
  modify fun draft => { draft with state := .published, updatedAt := now }

def discard (now : Timestamp) : DraftM Unit := do
  checkActive
  modify fun draft => { draft with state := .discarded, updatedAt := now }

end RouteDraft

/--
The four ways to edit a draft. Each takes the revision that the caller expects the draft to have.
-/
inductive Command where
  | apply (operationId : OperationId) (operation : RouteOperation)
  | undo
  | redo
  | reset (baseGeometry : Geometry)
  deriving DecidableEq

def Command.exec (now : Timestamp) (expectedRevision : Nat) : Command → DraftM Unit
  | .apply operationId operation =>
    RouteDraft.applyOperation now operationId operation expectedRevision
  | .undo => RouteDraft.undo now expectedRevision
  | .redo => RouteDraft.redo now expectedRevision
  | .reset baseGeometry => RouteDraft.reset now expectedRevision baseGeometry

/--
All methods that change a draft.
-/
inductive Call where
  | edit (expectedRevision : Nat) (command : Command)
  | publish
  | discard
  deriving DecidableEq

def Call.exec (now : Timestamp) : Call → DraftM Unit
  | .edit expectedRevision command => command.exec now expectedRevision
  | .publish => RouteDraft.publish now
  | .discard => RouteDraft.discard now

def MIN_POINTS_PER_SEGMENT : Nat := 2

inductive PublicationValidationError where
  | notOwner
  | draftNotActive
  | revisionMismatch (expected actual : Nat)
  | noSegments
  | insufficientPointsInSegment (segmentIndex minimum actual : Nat)
  | invalidCoordinateInSegment (segmentIndex pointIndex : Nat) (message : String)
  | noBaseVersion
  deriving DecidableEq

-- the errors of one point
def coordinateErrors (segmentIndex pointIndex : Nat) (point : RoutePoint)
    : List PublicationValidationError :=
  let lat := point.coordinate.latitude
  let lon := point.coordinate.longitude
  (if !lat.inRange (-90) 90 then
    [.invalidCoordinateInSegment segmentIndex pointIndex
      s!"latitude must be between -90 and 90, got {lat.display}"]
  else
    [])
  ++
  (if !lon.inRange (-180) 180 then
    [.invalidCoordinateInSegment segmentIndex pointIndex
      s!"longitude must be between -180 and 180, got {lon.display}"]
  else
    [])

def segmentErrors (segmentIndex : Nat) (segment : Segment) : List PublicationValidationError :=
  (if segment.length < MIN_POINTS_PER_SEGMENT then
    [.insufficientPointsInSegment segmentIndex MIN_POINTS_PER_SEGMENT segment.length]
  else
    [])
  ++
  segment.zipIdx.flatMap fun (point, pointIndex) => coordinateErrors segmentIndex pointIndex point

def validateForPublication (draft : RouteDraft) (expectedRevision : Nat) (owner : Identity.UserId)
    : Except (List PublicationValidationError) Unit :=
  if draft.ownerId ≠ owner then
    .error [.notOwner]
  else if draft.state ≠ .active then
    .error [.draftNotActive]
  else if draft.revision ≠ expectedRevision then
    .error [.revisionMismatch expectedRevision draft.revision]
  else
    let geometryErrors :=
      if draft.geometry.isEmpty then
        [.noSegments]
      else
        draft.geometry.zipIdx.flatMap fun (segment, segmentIndex) => segmentErrors segmentIndex segment
    let baseErrors := if draft.baseRouteVersionId.isNone then [.noBaseVersion] else []
    match geometryErrors ++ baseErrors with
    | [] => .ok ()
    | errors => .error errors

end RouteEditing
