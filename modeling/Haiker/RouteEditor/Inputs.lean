import Haiker.RouteEditor.EditorState

/-!
This module contains what the user, the browser and the answers of the server make the editor dispatch, and
the editor along a run of these inputs. The actions of one handler are dispatched at once.
-/

open RouteEditing

namespace RouteEditor

-- `geo-utils.ts`
def MAX_REPLACEMENT_POINTS : Nat := 500

-- `SelectionModel.ts`
def computeSelection (current : Option Selection) (segmentIndex pointIndex : Nat) (shiftKey : Bool) : Selection :=
  match shiftKey, current with
  | true, some (.point segmentIndex' pointIndex') =>
    if segmentIndex' = segmentIndex then
      let startIndex := min pointIndex' pointIndex
      let endIndex := max pointIndex' pointIndex
      if startIndex = endIndex then
        .point segmentIndex pointIndex
      else
        .range { segmentIndex, startIndex, endIndex }
    else
      .point segmentIndex pointIndex
  | _, _ => .point segmentIndex pointIndex

namespace EditorState

variable (state : EditorState)

def segment? (segmentIndex : Nat) : Option (List Api.RoutePointDto) :=
  state.optimisticGeometry.bind (·[segmentIndex]?)

def isDrawing : Bool := state.drawing.any (·.isActive)

-- the points that a section selection highlights
def sectionPoints (segmentIndex startIndex endIndex : Nat) : List Api.RoutePointDto :=
  (((state.segment? segmentIndex).getD []).take (endIndex + 1)).drop startIndex

/-
`useDrawReplacementSection`.
-/

def startDrawing (selection : SectionSelection) : List EditorAction :=
  match (state.segment? selection.segmentIndex).bind (·[selection.startIndex]?) with
  | some startPoint =>
    [.drawingStart selection.segmentIndex selection.startIndex selection.endIndex startPoint]
  | none => []

def addPoint (position : Api.PositionDto) : List EditorAction :=
  match state.drawing with
  | some { points, isActive := true, .. } =>
    if points.length ≥ MAX_REPLACEMENT_POINTS - 1 then
      []
    else
      [.drawingAddPoint { latitude := position.latitude, longitude := position.longitude, elevation := none }]
  | _ => []

-- the operation that is dispatched, or the message
def finishDrawing : Except String Api.OperationDto :=
  match state.drawing with
  | some { segmentIndex, startIndex, endIndex, points, isActive := true } => do
    if points.length < 2 then
      throw "At least 2 points are required to finish drawing."
    let some geometry := state.optimisticGeometry | throw "No geometry available."
    let some segment := geometry[segmentIndex]? | throw "Invalid segment."
    let some endPoint := segment[endIndex]? | throw "Invalid end point."
    let finalPoints := points ++ [endPoint]
    if finalPoints.length > MAX_REPLACEMENT_POINTS then
      throw s!"Too many points in the replacement (maximum {MAX_REPLACEMENT_POINTS})."
    return .replaceSection segmentIndex startIndex endIndex finalPoints
  | _ => throw "No active drawing to finish."

/-
`RouteEditor`.
-/

-- `dispatchOperation`, `handleUndo`, `handleRedo` and `handleReset`
def startRequest : List EditorAction :=
  if state.draftId.isSome && !state.isOffline then [.operationStart] else []

end EditorState

inductive Input where
  | setTool (tool : EditorTool)
  | clickPoint (segmentIndex pointIndex : Nat) (shiftKey : Bool)
  | clearSelection
  -- the effects that follow a rendering
  | render
  | setOnline (isOnline : Bool)
  | mousedown (segmentIndex pointIndex : Nat) (position : Api.PositionDto)
  | mousemove (position : Api.PositionDto)
  | mouseup
  | cancelDrag
  | drawPoint (position : Api.PositionDto)
  | removeLastPoint
  | finishDrawing
  | cancelDrawing
  -- any other edit, undo, redo and reset
  | request
  | draftCreated (draft : Api.RouteDraftResponse) (baseGeometry : DtoGeometry)
  | draftFetched (draft : Api.RouteDraftResponse)
  | succeeded (revision : Nat) (geometry : DtoGeometry) (canUndo canRedo : Bool)
  | failed (error : String)
  | conflicting (serverDraft : Api.RouteDraftResponse) (localOps : List PendingOperation)
  | setConflict (message : String)
  | clearConflict
  | reload
  | retry

def Input.actions (state : EditorState) : Input → List EditorAction
  | .setTool tool => [.setTool tool]
  | .clickPoint segmentIndex pointIndex shiftKey =>
    if state.drag.isSome || (state.currentTool = .drawSection && state.isDrawing) then
      []
    else
      [.setSelection (some (computeSelection state.selection segmentIndex pointIndex shiftKey))]
  | .clearSelection => [.clearSelection]
  | .render =>
    match state.selection with
    | some (.range selection) =>
      if state.currentTool = .drawSection && !state.isDrawing && !state.isOperationPending then
        state.startDrawing selection
      else
        []
    | _ => []
  | .setOnline isOnline => [.setOnlineStatus isOnline]
  | .mousedown segmentIndex pointIndex position =>
    if state.currentTool = .move then [.dragStart segmentIndex pointIndex position] else []
  | .mousemove position => if state.drag.isSome then [.dragPreview position] else []
  -- `onDragEnd` and `onMovePoint`
  | .mouseup => if state.drag.isSome then .dragEnd :: state.startRequest else []
  | .cancelDrag => if state.drag.isSome then [.dragCancel] else []
  | .drawPoint position =>
    if state.currentTool = .drawSection && state.isDrawing && !state.drag.isSome then
      state.addPoint position
    else
      []
  | .removeLastPoint => [.drawingRemoveLastPoint]
  | .finishDrawing =>
    match state.finishDrawing with
    | .ok _ => state.startRequest ++ [.drawingFinish]
    | .error message => [.operationFailure message]
  | .cancelDrawing => [.drawingCancel]
  | .request => state.startRequest
  | .draftCreated draft baseGeometry =>
    [.setDraft ⟨draft.id⟩ draft.revision draft.geometry baseGeometry,
      .setCanUndoRedo draft.canUndo draft.canRedo]
  | .draftFetched draft => [.setCanUndoRedo draft.canUndo draft.canRedo]
  | .succeeded revision geometry canUndo canRedo => [.operationSuccess revision geometry canUndo canRedo]
  | .failed error => [.operationFailure error]
  | .conflicting serverDraft localOps => [.setConflictState serverDraft localOps]
  | .setConflict message => [.setConflict message]
  | .clearConflict => [.clearConflict]
  | .reload => [.resolveConflictReload]
  | .retry => [.resolveConflictRetry]

/--
The editor, what the server answered last, and the points that the drawing is to replace.
-/
structure Editor where
  state : EditorState
  served : Option DtoGeometry
  selected : List Api.RoutePointDto

def Editor.start : Editor where
  state := initialState
  served := none
  selected := []

-- the geometry that a response brings
def EditorState.carried (state : EditorState) : EditorAction → Option DtoGeometry
  | .setDraft _ _ geometry _ => some geometry
  | .operationSuccess _ geometry _ _ => some geometry
  | .resolveConflictReload | .resolveConflictRetry => state.conflictServerDraft.map (·.geometry)
  | _ => none

def Editor.dispatch (e : Editor) (action : EditorAction) : Editor where
  state := editorReducer e.state action
  served := (e.state.carried action).or e.served
  selected := match action with
    | .drawingStart segmentIndex startIndex endIndex _ =>
      e.state.sectionPoints segmentIndex startIndex endIndex
    | _ => e.selected

def Editor.step (e : Editor) (input : Input) : Editor := (input.actions e.state).foldl Editor.dispatch e

end RouteEditor
