import Haiker.RouteEditor.Autosave
import Haiker.Simulation.Runs

/-!
This module contains the state of the editor, its reducer, and what the user, the browser and the answers of the
server make the editor dispatch. Indices are those of an array, and an index that is out of range finds nothing.
-/

open Rust
open RouteEditing

namespace RouteEditor

inductive EditorTool where
  | select
  | move
  | add
  | delete
  | split
  | join
  | drawSection
  deriving DecidableEq

structure SectionSelection where
  segmentIndex : Nat
  startIndex : Nat
  endIndex : Nat
  deriving DecidableEq

inductive Selection where
  | point (segmentIndex pointIndex : Nat)
  | range (selection : SectionSelection)
  deriving DecidableEq

structure DragState where
  segmentIndex : Nat
  pointIndex : Nat
  original : Api.PositionDto
  preview : Api.PositionDto
  deriving DecidableEq

structure DrawingState where
  segmentIndex : Nat
  startIndex : Nat
  endIndex : Nat
  points : List Api.RoutePointDto
  isActive : Bool
  deriving DecidableEq

abbrev DtoGeometry := List (List Api.RoutePointDto)

structure EditorState where
  currentTool : EditorTool
  selection : Option Selection
  draftId : Option RouteDraftId
  revision : Nat
  optimisticGeometry : Option DtoGeometry
  baseGeometry : Option DtoGeometry
  canUndo : Bool
  canRedo : Bool
  conflictError : Option String
  isOperationPending : Bool
  isOffline : Bool
  conflictServerDraft : Option Api.RouteDraftResponse
  conflictLocalOps : List PendingOperation
  drag : Option DragState
  drawing : Option DrawingState

def initialState : EditorState where
  currentTool := .select
  selection := none
  draftId := none
  revision := 0
  optimisticGeometry := none
  baseGeometry := none
  canUndo := false
  canRedo := false
  conflictError := none
  isOperationPending := false
  isOffline := false
  conflictServerDraft := none
  conflictLocalOps := []
  drag := none
  drawing := none

inductive EditorAction where
  | setTool (tool : EditorTool)
  | setSelection (selection : Option Selection)
  | clearSelection
  | setDraft (draftId : RouteDraftId) (revision : Nat) (geometry baseGeometry : DtoGeometry)
  | operationStart
  | operationSuccess (revision : Nat) (geometry : DtoGeometry) (canUndo canRedo : Bool)
  | operationFailure (error : String)
  | setConflict (message : String)
  | clearConflict
  | setOptimisticGeometry (geometry : DtoGeometry)
  | setCanUndoRedo (canUndo canRedo : Bool)
  | setConflictState (serverDraft : Api.RouteDraftResponse) (localOps : List PendingOperation)
  | resolveConflictReload
  | resolveConflictRetry
  | setOnlineStatus (isOnline : Bool)
  | dragStart (segmentIndex pointIndex : Nat) (position : Api.PositionDto)
  | dragPreview (position : Api.PositionDto)
  | dragEnd
  | dragCancel
  | drawingStart (segmentIndex startIndex endIndex : Nat) (firstPoint : Api.RoutePointDto)
  | drawingAddPoint (point : Api.RoutePointDto)
  | drawingRemoveLastPoint
  | drawingCancel
  | drawingCommit
  | drawingFinish

def positionOf (pt : Api.RoutePointDto) : Api.PositionDto := ⟨pt.latitude, pt.longitude⟩

-- `{ ...pt, latitude, longitude }`
def movedTo (position : Api.PositionDto) (pt : Api.RoutePointDto) : Api.RoutePointDto :=
  { pt with latitude := position.latitude, longitude := position.longitude }

-- what the preview and the cancellation of a drag do with the geometry
def placePoint (segmentIndex pointIndex : Nat) (position : Api.PositionDto) (geometry : DtoGeometry) : DtoGeometry :=
  geometry.mapIdx fun sIdx segment =>
    if sIdx ≠ segmentIndex then
      segment
    else
      segment.mapIdx fun pIdx pt => if pIdx ≠ pointIndex then pt else movedTo position pt

-- `RESOLVE_CONFLICT_RELOAD` and `RESOLVE_CONFLICT_RETRY`
def EditorState.resolveConflict (state : EditorState) : EditorState := { state with
  revision := (state.conflictServerDraft.map (·.revision)).getD state.revision
  optimisticGeometry := (state.conflictServerDraft.map (·.geometry)).or state.optimisticGeometry
  canUndo := (state.conflictServerDraft.map (·.canUndo)).getD state.canUndo
  canRedo := (state.conflictServerDraft.map (·.canRedo)).getD state.canRedo
  conflictServerDraft := none
  conflictLocalOps := []
  conflictError := none
}

def conflictMessage (revision localOps : Nat) : String :=
  s!"Revision conflict: server is at revision {revision}. You have {localOps} pending operation(s)."

def editorReducer (state : EditorState) : EditorAction → EditorState
  | .setTool tool => { state with currentTool := tool, selection := none, drawing := none }
  | .setSelection selection => { state with selection }
  | .clearSelection => { state with selection := none }
  | .setDraft draftId revision geometry baseGeometry => { state with
      draftId := some draftId
      revision
      optimisticGeometry := some geometry
      baseGeometry := some baseGeometry
      conflictError := none
    }
  | .operationStart => { state with isOperationPending := true }
  | .operationSuccess revision geometry canUndo canRedo => { state with
      revision
      optimisticGeometry := some geometry
      canUndo
      canRedo
      isOperationPending := false
      conflictError := none
    }
  | .operationFailure error => { state with isOperationPending := false, conflictError := some error }
  | .setConflict message => { state with conflictError := some message }
  | .clearConflict => { state with conflictError := none }
  | .setOptimisticGeometry geometry => { state with optimisticGeometry := some geometry }
  | .setCanUndoRedo canUndo canRedo => { state with canUndo, canRedo }
  | .setConflictState serverDraft localOps => { state with
      conflictServerDraft := some serverDraft
      conflictLocalOps := localOps
      conflictError := some (conflictMessage serverDraft.revision localOps.length)
      isOperationPending := false
    }
  | .resolveConflictReload => state.resolveConflict
  | .resolveConflictRetry => state.resolveConflict
  | .setOnlineStatus isOnline => { state with isOffline := !isOnline }
  | .dragStart segmentIndex pointIndex position => { state with
      drag := some { segmentIndex, pointIndex, original := position, preview := position }
    }
  | .dragPreview position =>
    match state.drag with
    | none => state
    | some drag => { state with
        drag := some { drag with preview := position }
        optimisticGeometry :=
          state.optimisticGeometry.map (placePoint drag.segmentIndex drag.pointIndex position)
      }
  | .dragEnd => { state with drag := none }
  | .dragCancel =>
    match state.drag with
    | none => state
    | some drag => { state with
        drag := none
        optimisticGeometry :=
          state.optimisticGeometry.map (placePoint drag.segmentIndex drag.pointIndex drag.original)
      }
  | .drawingStart segmentIndex startIndex endIndex firstPoint => { state with
      drawing := some { segmentIndex, startIndex, endIndex, points := [firstPoint], isActive := true }
    }
  | .drawingAddPoint point =>
    match state.drawing with
    | some { segmentIndex, startIndex, endIndex, points, isActive := true } => { state with
        drawing := some { segmentIndex, startIndex, endIndex, points := points ++ [point], isActive := true }
      }
    | _ => state
  | .drawingRemoveLastPoint =>
    match state.drawing with
    | some { segmentIndex, startIndex, endIndex, points, isActive := true } =>
      -- the first point stays
      if points.length ≤ 1 then
        state
      else { state with
        drawing := some { segmentIndex, startIndex, endIndex, points := points.dropLast, isActive := true }
      }
    | _ => state
  | .drawingCancel => { state with drawing := none }
  | .drawingCommit => { state with drawing := state.drawing.map fun drawing => { drawing with isActive := false } }
  | .drawingFinish => { state with drawing := none }

end RouteEditor
