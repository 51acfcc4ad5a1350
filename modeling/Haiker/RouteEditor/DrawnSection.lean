import Haiker.RouteEditor.ShownGeometry
import Haiker.RouteEditing.ListEdits

/-!
This module contains when the replacement of a section that the user has drawn goes through and replaces what
was selected.
-/

open Rust
open RouteEditing

namespace RouteEditor

/-
Points and geometries as the server reads them.
-/

section Reading

def InRange (pt : Api.RoutePointDto) : Prop := (Coordinate.mk pt.latitude pt.longitude).InRange

def pointOf (pt : Api.RoutePointDto) : RoutePoint where
  coordinate := ⟨pt.latitude, pt.longitude⟩
  elevation := pt.elevation.map fun meters => { meters }

theorem fromDomain_pointOf (pt : Api.RoutePointDto) : Api.RoutePointDto.fromDomain (pointOf pt) = pt := by
  obtain ⟨latitude, longitude, elevation⟩ := pt
  cases elevation <;> rfl

theorem toDomain_of_inRange {pt : Api.RoutePointDto} (h : InRange pt) : pt.toDomain = .ok (pointOf pt) := by
  have hnew : Coordinate.new pt.latitude pt.longitude = .ok ⟨pt.latitude, pt.longitude⟩ :=
    Coordinate.new_eq_ok_iff.mpr ⟨rfl, F64.inRange_iff.mpr h.latitude, F64.inRange_iff.mpr h.longitude⟩
  unfold Api.RoutePointDto.toDomain
  rw [hnew]
  rfl

theorem mapM_eq_ok_map {α β ε : Type} {f : α → Except ε β} {g : α → β} {as : List α}
    (h : ∀ a ∈ as, f a = .ok (g a)) : as.mapM f = .ok (as.map g) := by
  induction as with
  | nil => rfl
  | cons a as ih =>
    rw [List.mapM_cons, h a List.mem_cons_self, ih fun b hb => h b (List.mem_cons_of_mem a hb)]
    rfl

/--
A geometry that a draft can have.
-/
structure Sound (geometry : DtoGeometry) : Prop where
  points : ∀ segment ∈ geometry, ∀ pt ∈ segment, InRange pt
  segments : geometry.length ≤ vecCapacity
  lengths : ∀ segment ∈ geometry, segment.length ≤ vecCapacity

def routeOf (geometry : DtoGeometry) : Geometry := geometry.map (·.map pointOf)

theorem map_fromDomain_pointOf (segment : List Api.RoutePointDto)
    : (segment.map pointOf).map Api.RoutePointDto.fromDomain = segment := by
  rw [List.map_map]
  exact List.map_id'' fromDomain_pointOf segment

theorem geometryToDto_routeOf (geometry : DtoGeometry) : Api.geometryToDto (routeOf geometry) = geometry := by
  unfold Api.geometryToDto routeOf
  rw [List.map_map]
  exact List.map_id'' map_fromDomain_pointOf geometry

theorem Sound.geometryToDomain {geometry : DtoGeometry} (h : Sound geometry)
    : Api.geometryToDomain geometry = .ok (routeOf geometry) :=
  mapM_eq_ok_map fun segment hsegment =>
    mapM_eq_ok_map fun pt hpt => toDomain_of_inRange (h.points segment hsegment pt hpt)

theorem sound_geometryToDto {g : Geometry} (hvalid : ValidGeometry g) (hfits : FitsVec g)
    : Sound (Api.geometryToDto g) := by
  unfold Api.geometryToDto
  constructor
  . rintro _ hmem _ hpt
    obtain ⟨segment, hsegment, rfl⟩ := List.mem_map.mp hmem
    obtain ⟨point, hpoint, rfl⟩ := List.mem_map.mp hpt
    exact hvalid.inRange segment hsegment point hpoint
  . rw [List.length_map]
    exact hfits.segments
  . rintro _ hmem
    obtain ⟨segment, hsegment, rfl⟩ := List.mem_map.mp hmem
    rw [List.length_map]
    exact hfits.points segment hsegment

-- `execute_operation` on the geometry that the client shows
def executed (geometry : DtoGeometry) (operation : Api.OperationDto) : Option DtoGeometry :=
  match Api.geometryToDomain geometry, operation.toDomain with
  | .ok g, .ok operation =>
    match (executeOperation operation).run g with
    | .ok () g' => some (Api.geometryToDto g')
    | .error _ _ => none
  | _, _ => none

theorem run_checkEndpoint {g : Geometry} {segment : Segment} {k : PointIndex} {point : RoutePoint}
    (hk : segment[k.value]? = some point) (h : point.coordinate.InRange) (position : String)
    : (checkEndpoint position segment k (some point)).run g = .ok () g := by
  have heq := (Coordinate.partialEq_iff_of_inRange h).mpr rfl
  simp [checkEndpoint, run_index hk, heq]

theorem executed_eq {geometry : DtoGeometry} (hsound : Sound geometry) {i first last : Nat}
    {replacement : List Api.RoutePointDto} (hreplacement : ∀ pt ∈ replacement, InRange pt)
    {segment : List Api.RoutePointDto} (hs : geometry[i]? = some segment) (hle : first ≤ last)
    (hlt : last < segment.length) (hmin : 2 ≤ replacement.length)
    (hmax : replacement.length ≤ RouteEditing.MAX_REPLACEMENT_POINTS)
    (hstart : replacement.head? = segment[first]?) (hend : replacement.getLast? = segment[last]?)
    : executed geometry (.replaceSection i first last replacement)
        = some (geometry.set i (segment.take first ++ replacement ++ segment.drop (last + 1))) := by
  have hoperation : Api.OperationDto.toDomain (.replaceSection i first last replacement)
      = .ok (.replaceSection ⟨i⟩ ⟨first⟩ ⟨last⟩ (replacement.map pointOf)) := by
    have hread : replacement.mapM Api.RoutePointDto.toDomain = .ok (replacement.map pointOf) :=
      mapM_eq_ok_map fun pt hpt => toDomain_of_inRange (hreplacement pt hpt)
    simp only [Api.OperationDto.toDomain, hread]
  have hsegment : (routeOf geometry)[i]? = some (segment.map pointOf) := by
    unfold routeOf
    rw [List.getElem?_map, hs]
    rfl
  -- the ends of the replacement are points of the segment
  have hends : ∀ (k : Nat) (position : String) (pt : Option Api.RoutePointDto), k < segment.length →
      pt = segment[k]? →
        (checkEndpoint position (segment.map pointOf) ⟨k⟩ (pt.map pointOf)).run (routeOf geometry)
          = .ok () (routeOf geometry) := by
    rintro k position _ hk rfl
    rw [List.getElem?_eq_getElem hk]
    apply run_checkEndpoint
    . rw [List.getElem?_map, List.getElem?_eq_getElem hk]
      rfl
    . exact hsound.points segment (List.mem_of_getElem? hs) _ (List.getElem_mem hk)
  have hfits : segment.length ≤ vecCapacity := hsound.lengths segment (List.mem_of_getElem? hs)
  have hmax' : replacement.length ≤ vecCapacity := hmax.trans (by decide)
  have hrun : (executeOperation (.replaceSection ⟨i⟩ ⟨first⟩ ⟨last⟩ (replacement.map pointOf))).run (routeOf geometry)
      = .ok () ((routeOf geometry).set i ((segment.map pointOf).take first ++ replacement.map pointOf
        ++ (segment.map pointOf).drop (last + 1))) := by
    apply run_replaceSection hsegment hle
    . rwa [List.length_map]
    . rw [List.length_map]
      omega
    . rw [List.length_map]
      omega
    . rw [List.head?_map]
      exact hends first "start" _ (hle.trans_lt hlt) hstart
    . rw [List.getLast?_map]
      exact hends last "end" _ hlt hend
    . have hcount : last - first ≤ vecCapacity := by omega
      exact add_lt_usizeSize hcount (by decide)
    . have hrest : segment.length - (last - first + 1) ≤ vecCapacity := by omega
      rw [List.length_map, List.length_map]
      exact add_lt_usizeSize hrest hmax'
  unfold executed
  rw [hsound.geometryToDomain, hoperation]
  dsimp only
  rw [hrun]
  dsimp only
  have hset : (routeOf geometry).set i ((segment.map pointOf).take first ++ replacement.map pointOf
      ++ (segment.map pointOf).drop (last + 1))
        = routeOf (geometry.set i (segment.take first ++ replacement ++ segment.drop (last + 1))) := by
    unfold routeOf
    rw [List.map_set, List.map_append, List.map_append, List.map_take, List.map_drop]
  rw [hset, geometryToDto_routeOf]

end Reading

/-
What an editor comes to whose positions are in range.
-/

def PositionInRange (position : Api.PositionDto) : Prop :=
  (Coordinate.mk position.latitude position.longitude).InRange

def Selection.Ordered : Selection → Prop
  | .point _ _ => True
  | .range selection => selection.startIndex < selection.endIndex

theorem ordered_computeSelection (current : Option Selection) (segmentIndex pointIndex : Nat) (shiftKey : Bool)
    : (computeSelection current segmentIndex pointIndex shiftKey).Ordered := by
  unfold computeSelection
  split
  . split
    . dsimp only
      split
      . trivial
      . next hne =>
        show min _ _ < max _ _
        omega
    . trivial
  . trivial

/--
The drawing goes on from the first of the points that were selected.
-/
structure DrawingState.Begun (selected : List Api.RoutePointDto) (drawing : DrawingState) : Prop where
  ordered : drawing.startIndex < drawing.endIndex
  nonempty : drawing.points ≠ []
  first : drawing.points.head? = selected.head?
  inRange : ∀ pt ∈ drawing.points, InRange pt

structure Editor.Ready (e : Editor) : Prop where
  shown : ∀ geometry ∈ e.state.optimisticGeometry, Sound geometry
  conflict : ∀ draft ∈ e.state.conflictServerDraft, Sound draft.geometry
  drag : ∀ drag ∈ e.state.drag, PositionInRange drag.original
  selection : ∀ selection ∈ e.state.selection, selection.Ordered
  drawing : ∀ drawing ∈ e.state.drawing, drawing.Begun e.selected

def EditorAction.Sane (state : EditorState) : EditorAction → Prop
  | .setSelection selection => ∀ s ∈ selection, s.Ordered
  | .setDraft _ _ geometry _ | .operationSuccess _ geometry _ _ | .setOptimisticGeometry geometry => Sound geometry
  | .setConflictState serverDraft _ => Sound serverDraft.geometry
  | .dragStart _ _ position | .dragPreview position => PositionInRange position
  | .drawingStart segmentIndex startIndex endIndex firstPoint =>
    startIndex < endIndex ∧ InRange firstPoint
      ∧ (state.sectionPoints segmentIndex startIndex endIndex).head? = some firstPoint
  | .drawingAddPoint point => InRange point
  | _ => True

/--
Where the user points at is on the earth, and the geometries that the server answers with are those of drafts.
-/
def Input.Sane : Input → Prop
  | .draftCreated draft _ => Sound draft.geometry
  | .succeeded _ geometry _ _ => Sound geometry
  | .conflicting serverDraft _ => Sound serverDraft.geometry
  | .mousedown _ _ position | .mousemove position | .drawPoint position => PositionInRange position
  | _ => True

theorem Sound.placePoint {geometry : DtoGeometry} (h : Sound geometry) {position : Api.PositionDto}
    (hposition : PositionInRange position) (i k : Nat) : Sound (placePoint i k position geometry) := by
  have hsegments : ∀ segment ∈ RouteEditor.placePoint i k position geometry, ∃ segment' ∈ geometry,
      segment.length = segment'.length ∧ ∀ pt ∈ segment, pt ∈ segment' ∨ InRange pt := by
    intro segment hsegment
    obtain ⟨i', hi', rfl⟩ := List.mem_mapIdx.mp hsegment
    refine ⟨geometry[i'], List.getElem_mem hi', ?_⟩
    split
    . exact ⟨rfl, fun pt hpt => .inl hpt⟩
    . refine ⟨List.length_mapIdx, ?_⟩
      intro pt hpt
      obtain ⟨k', hk', rfl⟩ := List.mem_mapIdx.mp hpt
      split
      . exact .inl (List.getElem_mem hk')
      . exact .inr hposition
  constructor
  . intro segment hsegment pt hpt
    obtain ⟨segment', hsegment', _, hpoints⟩ := hsegments segment hsegment
    obtain hold | hnew := hpoints pt hpt
    . exact h.points segment' hsegment' pt hold
    . exact hnew
  . unfold RouteEditor.placePoint
    rw [List.length_mapIdx]
    exact h.segments
  . intro segment hsegment
    obtain ⟨segment', hsegment', hlength, _⟩ := hsegments segment hsegment
    rw [hlength]
    exact h.lengths segment' hsegment'

namespace Editor

theorem ready_start : Editor.start.Ready := by
  constructor <;> rintro _ ⟨⟩

theorem Ready.placed {e : Editor} (h : e.Ready) {position : Api.PositionDto} (hposition : PositionInRange position)
    (i k : Nat) : ∀ geometry ∈ e.state.optimisticGeometry.map (placePoint i k position), Sound geometry := by
  intro geometry hgeometry
  obtain ⟨shown, hshown, rfl⟩ := Option.map_eq_some_iff.mp hgeometry
  exact (h.shown shown hshown).placePoint hposition i k

theorem Ready.resolved {e : Editor} (h : e.Ready)
    : ∀ geometry ∈ (e.state.conflictServerDraft.map (·.geometry)).or e.state.optimisticGeometry, Sound geometry := by
  intro geometry hgeometry
  cases hdraft : e.state.conflictServerDraft with
  | none =>
    rw [hdraft] at hgeometry
    exact h.shown geometry hgeometry
  | some draft =>
    rw [hdraft] at hgeometry
    obtain rfl := Option.some.inj hgeometry
    exact h.conflict draft hdraft

theorem Ready.draw {e : Editor} (h : e.Ready) {drawing : DrawingState} (hdrawing : drawing.Begun e.selected)
    : Ready { e with state := { e.state with drawing := some drawing } } := by
  refine ⟨h.shown, h.conflict, h.drag, h.selection, ?_⟩
  rintro _ ⟨⟩
  exact hdrawing

theorem Ready.dispatch_dragPreview {e : Editor} (h : e.Ready) {position : Api.PositionDto}
    (hposition : PositionInRange position) : (e.dispatch (.dragPreview position)).Ready := by
  cases hdrag : e.state.drag with
  | none =>
    have hsame : e.dispatch (.dragPreview position) = e := by
      simp [Editor.dispatch, editorReducer, EditorState.carried, hdrag]
    rw [hsame]
    exact h
  | some drag =>
    have hdispatch : e.dispatch (.dragPreview position) = { e with
        state := { e.state with
          drag := some { drag with preview := position }
          optimisticGeometry :=
            e.state.optimisticGeometry.map (placePoint drag.segmentIndex drag.pointIndex position)
        }
      } := by
      simp [Editor.dispatch, editorReducer, EditorState.carried, hdrag]
    rw [hdispatch]
    refine ⟨h.placed hposition _ _, h.conflict, ?_, h.selection, h.drawing⟩
    rintro _ ⟨⟩
    exact h.drag drag hdrag

theorem Ready.dispatch_dragCancel {e : Editor} (h : e.Ready) : (e.dispatch .dragCancel).Ready := by
  cases hdrag : e.state.drag with
  | none =>
    have hsame : e.dispatch .dragCancel = e := by
      simp [Editor.dispatch, editorReducer, EditorState.carried, hdrag]
    rw [hsame]
    exact h
  | some drag =>
    have hdispatch : e.dispatch .dragCancel = { e with
        state := { e.state with
          drag := none
          optimisticGeometry :=
            e.state.optimisticGeometry.map (placePoint drag.segmentIndex drag.pointIndex drag.original)
        }
      } := by
      simp [Editor.dispatch, editorReducer, EditorState.carried, hdrag]
    rw [hdispatch]
    refine ⟨h.placed (h.drag drag hdrag) _ _, h.conflict, ?_, h.selection, h.drawing⟩
    rintro _ ⟨⟩

theorem Ready.dispatch_drawingAddPoint {e : Editor} (h : e.Ready) {pt : Api.RoutePointDto} (hpt : InRange pt)
    : (e.dispatch (.drawingAddPoint pt)).Ready := by
  unfold Editor.dispatch editorReducer
  dsimp only
  split
  . next i first last points hdrawing =>
    obtain ⟨hordered, hnonempty, hfirst, hrange⟩ := h.drawing _ hdrawing
    apply h.draw
    refine ⟨hordered, List.append_ne_nil_of_left_ne_nil hnonempty _, ?_, ?_⟩
    . rw [List.head?_append_of_ne_nil _ hnonempty]
      exact hfirst
    . intro pt' hpt'
      obtain hold | hnew := List.mem_append.mp hpt'
      . exact hrange pt' hold
      . obtain rfl := List.mem_singleton.mp hnew
        exact hpt
  . exact h

theorem Ready.dispatch_drawingRemoveLastPoint {e : Editor} (h : e.Ready)
    : (e.dispatch .drawingRemoveLastPoint).Ready := by
  unfold Editor.dispatch editorReducer
  dsimp only
  split
  . next i first last points hdrawing =>
    obtain ⟨hordered, hnonempty, hfirst, hrange⟩ := h.drawing _ hdrawing
    split
    . exact h
    . next hlong =>
      obtain ⟨pt, rest, rfl⟩ := List.exists_cons_of_ne_nil hnonempty
      have hrest : rest ≠ [] := by
        rintro rfl
        exact hlong (Nat.le_refl 1)
      apply h.draw
      refine ⟨hordered, ?_, ?_, fun pt' hpt' => hrange pt' (List.dropLast_subset _ hpt')⟩
      . rw [List.dropLast_cons_of_ne_nil hrest]
        exact List.cons_ne_nil _ _
      . rw [List.dropLast_cons_of_ne_nil hrest]
        exact hfirst
  . exact h

theorem Ready.dispatch {e : Editor} (h : e.Ready) {action : EditorAction} (haction : action.Sane e.state)
    : (e.dispatch action).Ready := by
  have hnone : ∀ {α : Type} {P : α → Prop}, ∀ a ∈ (none : Option α), P a := by
    rintro α P a ⟨⟩
  have hsome : ∀ {α : Type} {P : α → Prop} {b : α}, P b → ∀ a ∈ some b, P a := by
    rintro α P b hb a ⟨⟩
    exact hb
  cases action with
  | setTool tool => exact ⟨h.shown, h.conflict, h.drag, hnone, hnone⟩
  | setSelection selection => exact ⟨h.shown, h.conflict, h.drag, haction, h.drawing⟩
  | clearSelection => exact ⟨h.shown, h.conflict, h.drag, hnone, h.drawing⟩
  | setDraft draftId revision geometry baseGeometry =>
    exact ⟨hsome haction, h.conflict, h.drag, h.selection, h.drawing⟩
  | operationSuccess revision geometry canUndo canRedo =>
    exact ⟨hsome haction, h.conflict, h.drag, h.selection, h.drawing⟩
  | setOptimisticGeometry geometry => exact ⟨hsome haction, h.conflict, h.drag, h.selection, h.drawing⟩
  | setConflictState serverDraft localOps => exact ⟨h.shown, hsome haction, h.drag, h.selection, h.drawing⟩
  | resolveConflictReload => exact ⟨h.resolved, hnone, h.drag, h.selection, h.drawing⟩
  | resolveConflictRetry => exact ⟨h.resolved, hnone, h.drag, h.selection, h.drawing⟩
  | dragStart i k position => exact ⟨h.shown, h.conflict, hsome haction, h.selection, h.drawing⟩
  | dragPreview position => exact h.dispatch_dragPreview haction
  | dragEnd => exact ⟨h.shown, h.conflict, hnone, h.selection, h.drawing⟩
  | dragCancel => exact h.dispatch_dragCancel
  | drawingStart i first last pt =>
    obtain ⟨hordered, hrange, hfirst⟩ := haction
    refine ⟨h.shown, h.conflict, h.drag, h.selection, hsome ⟨hordered, List.cons_ne_nil _ _, hfirst.symm, ?_⟩⟩
    intro pt' hpt'
    obtain rfl := List.mem_singleton.mp hpt'
    exact hrange
  | drawingAddPoint pt => exact h.dispatch_drawingAddPoint haction
  | drawingRemoveLastPoint => exact h.dispatch_drawingRemoveLastPoint
  | drawingCancel => exact ⟨h.shown, h.conflict, h.drag, h.selection, hnone⟩
  | drawingCommit =>
    refine ⟨h.shown, h.conflict, h.drag, h.selection, ?_⟩
    intro drawing hdrawing
    obtain ⟨before, hbefore, rfl⟩ := Option.map_eq_some_iff.mp hdrawing
    obtain ⟨hordered, hnonempty, hfirst, hrange⟩ := h.drawing before hbefore
    exact ⟨hordered, hnonempty, hfirst, hrange⟩
  | drawingFinish => exact ⟨h.shown, h.conflict, h.drag, h.selection, hnone⟩
  | operationStart | operationFailure | setConflict | clearConflict | setCanUndoRedo | setOnlineStatus =>
    exact ⟨h.shown, h.conflict, h.drag, h.selection, h.drawing⟩

theorem Ready.foldl {e : Editor} (h : e.Ready) {actions : List EditorAction}
    (hactions : ∀ action ∈ actions, ∀ state, action.Sane state) : (actions.foldl Editor.dispatch e).Ready :=
  List.foldlRecOn actions Editor.dispatch h fun e' h' action haction => h'.dispatch (hactions action haction e'.state)

theorem Ready.startDrawing {e : Editor} (h : e.Ready) {selection : SectionSelection}
    (hselection : selection.startIndex < selection.endIndex)
    : ((e.state.startDrawing selection).foldl Editor.dispatch e).Ready := by
  unfold EditorState.startDrawing
  split
  . next startPoint hstart =>
    obtain ⟨segment, hsegment, hstart⟩ := Option.bind_eq_some_iff.mp hstart
    apply h.dispatch
    refine ⟨hselection, ?_, ?_⟩
    . obtain ⟨geometry, hgeometry, hi⟩ := Option.bind_eq_some_iff.mp hsegment
      exact (h.shown geometry hgeometry).points segment (List.mem_of_getElem? hi) _ (List.mem_of_getElem? hstart)
    . unfold EditorState.sectionPoints
      rw [hsegment, Option.getD_some, List.head?_drop, List.getElem?_take_of_lt (by omega)]
      exact hstart
  . exact h

theorem sane_startRequest (state state' : EditorState) {action : EditorAction} (h : action ∈ state.startRequest)
    : action.Sane state' := by
  unfold EditorState.startRequest at h
  split at h
  . obtain rfl := List.mem_singleton.mp h
    trivial
  . cases h

theorem sane_of_mem_actions {input : Input} (hinput : input.Sane) (hrender : input ≠ .render)
    {state : EditorState} {action : EditorAction} (h : action ∈ input.actions state) (state' : EditorState)
    : action.Sane state' := by
  cases input with
  | render => exact absurd rfl hrender
  | succeeded | conflicting =>
    obtain rfl := List.mem_singleton.mp h
    exact hinput
  | clickPoint segmentIndex pointIndex shiftKey =>
    unfold Input.actions at h
    dsimp only at h
    split at h
    . cases h
    . obtain rfl := List.mem_singleton.mp h
      rintro _ ⟨⟩
      exact ordered_computeSelection state.selection segmentIndex pointIndex shiftKey
  | mousedown | mousemove =>
    unfold Input.actions at h
    dsimp only at h
    split at h
    . obtain rfl := List.mem_singleton.mp h
      exact hinput
    . cases h
  | mouseup =>
    unfold Input.actions at h
    dsimp only at h
    split at h
    . obtain rfl | h := List.mem_cons.mp h
      . trivial
      . exact sane_startRequest state state' h
    . cases h
  | cancelDrag =>
    unfold Input.actions at h
    dsimp only at h
    split at h
    . obtain rfl := List.mem_singleton.mp h
      trivial
    . cases h
  | drawPoint position =>
    unfold Input.actions EditorState.addPoint at h
    dsimp only at h
    split at h
    . split at h
      . split at h
        . cases h
        . obtain rfl := List.mem_singleton.mp h
          exact hinput
      . cases h
    . cases h
  | finishDrawing =>
    unfold Input.actions at h
    dsimp only at h
    split at h
    . obtain h | h := List.mem_append.mp h
      . exact sane_startRequest state state' h
      . obtain rfl := List.mem_singleton.mp h
        trivial
    . obtain rfl := List.mem_singleton.mp h
      trivial
  | request => exact sane_startRequest state state' h
  | draftCreated draft baseGeometry =>
    obtain rfl | h := List.mem_cons.mp h
    . exact hinput
    . obtain rfl := List.mem_singleton.mp h
      trivial
  | setTool | clearSelection | setOnline | removeLastPoint | cancelDrawing | draftFetched | failed | setConflict
  | clearConflict | reload | retry =>
    obtain rfl := List.mem_singleton.mp h
    trivial

theorem Ready.step {e : Editor} (h : e.Ready) {input : Input} (hinput : input.Sane) : (e.step input).Ready := by
  by_cases hrender : input = .render
  . subst hrender
    unfold Editor.step Input.actions
    dsimp only
    split
    . next selection hselection =>
      split
      . exact h.startDrawing (h.selection _ hselection)
      . exact h
    . exact h
  . exact h.foldl fun action haction => sane_of_mem_actions hinput hrender haction

theorem ready_run {inputs : List Input} (hinputs : ∀ input ∈ inputs, input.Sane)
    : (Runs.run Editor.step .start inputs).Ready :=
  List.foldlRecOn inputs Editor.step ready_start fun _ h input hinput => h.step (hinputs input hinput)

end Editor

/-
What is dispatched when the drawing is finished.
-/

theorem finishDrawing_eq_ok {state : EditorState} {operation : Api.OperationDto}
    (h : state.finishDrawing = .ok operation)
    : ∃ drawing geometry segment endPoint, state.drawing = some drawing
        ∧ state.optimisticGeometry = some geometry ∧ geometry[drawing.segmentIndex]? = some segment
        ∧ segment[drawing.endIndex]? = some endPoint ∧ drawing.points.length + 1 ≤ MAX_REPLACEMENT_POINTS
        ∧ operation = .replaceSection drawing.segmentIndex drawing.startIndex drawing.endIndex
          (drawing.points ++ [endPoint]) := by
  unfold EditorState.finishDrawing at h
  split at h
  . next i first last points hdrawing =>
    by_cases hshort : points.length < 2
    . simp [hshort, bind, Except.bind, throw, throwThe, MonadExceptOf.throw] at h
    simp only [hshort, if_false, bind, Except.bind, pure, Except.pure] at h
    cases hgeometry : state.optimisticGeometry with
    | none =>
      rw [hgeometry] at h
      cases h
    | some geometry =>
      rw [hgeometry] at h
      dsimp only at h
      cases hsegment : geometry[i]? with
      | none =>
        rw [hsegment] at h
        cases h
      | some segment =>
        rw [hsegment] at h
        dsimp only at h
        cases hend : segment[last]? with
        | none =>
          rw [hend] at h
          cases h
        | some endPoint =>
          rw [hend] at h
          dsimp only at h
          rw [List.length_append, List.length_singleton] at h
          by_cases hlarge : points.length + 1 > MAX_REPLACEMENT_POINTS
          . rw [if_pos hlarge] at h
            cases h
          . rw [if_neg hlarge] at h
            cases h
            exact ⟨_, geometry, segment, endPoint, hdrawing, rfl, hsegment, hend, Nat.not_lt.mp hlarge, rfl⟩
  . cases h

/--
What the server asks of a section and its replacement.
-/
structure Acceptable (segment : List Api.RoutePointDto) (first last : Nat) (replacement : List Api.RoutePointDto)
    : Prop where
  ordered : first ≤ last
  inSegment : last < segment.length
  two_le : 2 ≤ replacement.length
  length_le : replacement.length ≤ 500
  starts : replacement.head?.map positionOf = (segment[first]?).map positionOf
  ends : replacement.getLast?.map positionOf = (segment[last]?).map positionOf

/--
The operation goes through, and puts the replacement in the place of what was selected, and of that only.
-/
def Editor.ReplacesSelected (e : Editor) : Api.OperationDto → Prop
  | .replaceSection i first last replacement =>
    ∃ geometry segment segment' geometry', e.state.optimisticGeometry = some geometry ∧ geometry[i]? = some segment
      ∧ Acceptable segment first last replacement
      ∧ executed geometry (.replaceSection i first last replacement) = some geometry'
      ∧ (segment.take (last + 1)).drop first = e.selected
      ∧ Lists.Replaced segment first (last + 1) replacement segment'
      ∧ Lists.Replaced geometry i (i + 1) [segment'] geometry'
  | _ => False

-- the points of the section are those that were there when the drawing was started
def Editor.KeepsSelected (e : Editor) : Api.OperationDto → Prop
  | .replaceSection i first last _ => e.state.sectionPoints i first last = e.selected
  | _ => False

theorem Editor.Ready.replacesSelected_iff {e : Editor} (h : e.Ready) {operation : Api.OperationDto}
    (hfinish : e.state.finishDrawing = .ok operation) : e.ReplacesSelected operation ↔ e.KeepsSelected operation := by
  obtain ⟨drawing, geometry, segment, endPoint, hdrawing, hgeometry, hsegment, hend, hlength, rfl⟩ :=
    finishDrawing_eq_ok hfinish
  have hpoints : e.state.sectionPoints drawing.segmentIndex drawing.startIndex drawing.endIndex
      = (segment.take (drawing.endIndex + 1)).drop drawing.startIndex := by
    unfold EditorState.sectionPoints EditorState.segment?
    rw [hgeometry, Option.bind_some, hsegment, Option.getD_some]
  unfold ReplacesSelected KeepsSelected
  dsimp only
  rw [hpoints]
  constructor
  . rintro ⟨geometry', segment', _, _, hgeometry', hsegment', _, _, hselected, _⟩
    rw [hgeometry, Option.some.injEq] at hgeometry'
    subst hgeometry'
    rw [hsegment, Option.some.injEq] at hsegment'
    subst hsegment'
    exact hselected
  . intro hselected
    obtain ⟨hordered, hnonempty, hfirst, hrange⟩ := h.drawing drawing hdrawing
    have hsound : Sound geometry := h.shown geometry hgeometry
    have hlast : drawing.endIndex < segment.length := (List.getElem?_eq_some_iff.mp hend).1
    have hstarts : (drawing.points ++ [endPoint]).head? = segment[drawing.startIndex]? := by
      rw [List.head?_append_of_ne_nil _ hnonempty, hfirst, ← hselected, List.head?_drop,
        List.getElem?_take_of_lt (by omega)]
    have hends : (drawing.points ++ [endPoint]).getLast? = segment[drawing.endIndex]? := by
      rw [List.getLast?_concat, hend]
    have hmin : 2 ≤ (drawing.points ++ [endPoint]).length := by
      have hpositive := List.length_pos_iff.mpr hnonempty
      rw [List.length_append, List.length_singleton]
      omega
    have hmax : (drawing.points ++ [endPoint]).length ≤ 500 := by
      rw [List.length_append]
      exact hlength
    have hreplacement : ∀ pt ∈ drawing.points ++ [endPoint], InRange pt := by
      intro pt hpt
      obtain hdrawn | hpt := List.mem_append.mp hpt
      . exact hrange pt hdrawn
      . obtain rfl := List.mem_singleton.mp hpt
        exact hsound.points segment (List.mem_of_getElem? hsegment) pt (List.mem_of_getElem? hend)
    have hexecuted := executed_eq hsound hreplacement hsegment hordered.le hlast hmin hmax hstarts hends
    have hsection := Lists.replaced_take_drop (drawing.points ++ [endPoint])
      (hordered.le.trans (Nat.le_succ drawing.endIndex)) hlast
    refine ⟨geometry, segment, _, _, hgeometry, hsegment, ?_, hexecuted, hselected, hsection,
      Lists.replaced_set hsegment⟩
    exact ⟨hordered.le, hlast, hmin, hmax, congrArg _ hstarts, congrArg _ hends⟩

/--
Whatever is drawn, and whatever is edited in the meantime: what is dispatched when the drawing is finished goes
through and replaces what was selected if and only if the points of the section are still those that were selected.
-/
theorem drawing_accepted_iff {inputs : List Input} (hinputs : ∀ input ∈ inputs, input.Sane)
    {operation : Api.OperationDto}
    (hfinish : (Runs.run Editor.step .start inputs).state.finishDrawing = .ok operation)
    : (Runs.run Editor.step .start inputs).ReplacesSelected operation
        ↔ (Runs.run Editor.step .start inputs).KeepsSelected operation :=
  (Editor.ready_run hinputs).replacesSelected_iff hfinish

section Sample

def latitudes (qs : List ℚ) : DtoGeometry := [qs.map sampleDto]

-- a section from the first of five points to the third, and an edit that is answered in the meantime
def sampleDrawing (geometry : DtoGeometry) : List Input :=
  [.draftCreated { sampleResponse with geometry := latitudes [46, 47, 48, 49, 50] } [], .setTool .drawSection,
    .clickPoint 0 0 false, .clickPoint 0 2 true, .render, .drawPoint ⟨.fin 40, .fin 8⟩,
    .drawPoint ⟨.fin 41, .fin 8⟩, .removeLastPoint, .request, .succeeded 1 geometry true false]

def drawnEditor (geometry : DtoGeometry) : Editor := Runs.run Editor.step .start (sampleDrawing geometry)

def drawnOperation (endPoint : Api.RoutePointDto) : Api.OperationDto :=
  .replaceSection 0 0 2 [sampleDto 46, ⟨.fin 40, .fin 8, none⟩, endPoint]

theorem inRange_sampleDto {latitude : ℚ} (hlow : -90 ≤ latitude) (hhigh : latitude ≤ 90)
    : InRange (sampleDto latitude) := ⟨⟨latitude, rfl, hlow, hhigh⟩, ⟨7, rfl, by decide, by decide⟩⟩

theorem sound_latitudes {qs : List ℚ} (hrange : ∀ q ∈ qs, -90 ≤ q ∧ q ≤ 90) (hlength : qs.length ≤ vecCapacity)
    : Sound (latitudes qs) := by
  constructor
  . intro segment hsegment pt hpt
    obtain rfl := List.mem_singleton.mp hsegment
    obtain ⟨q, hq, rfl⟩ := List.mem_map.mp hpt
    obtain ⟨hlow, hhigh⟩ := hrange q hq
    exact inRange_sampleDto hlow hhigh
  . show 1 ≤ vecCapacity
    decide
  . intro segment hsegment
    obtain rfl := List.mem_singleton.mp hsegment
    rwa [List.length_map]

theorem sane_sampleDrawing {geometry : DtoGeometry} (h : Sound geometry)
    : ∀ input ∈ sampleDrawing geometry, input.Sane := by
  have hcreated : Sound (latitudes [46, 47, 48, 49, 50]) := sound_latitudes (by decide) (by decide)
  have hposition : ∀ latitude : ℚ, -90 ≤ latitude → latitude ≤ 90 → PositionInRange ⟨.fin latitude, .fin 8⟩ :=
    fun latitude hlow hhigh => ⟨⟨latitude, rfl, hlow, hhigh⟩, ⟨8, rfl, by decide, by decide⟩⟩
  unfold sampleDrawing
  simp only [List.forall_mem_cons]
  exact ⟨hcreated, trivial, trivial, trivial, trivial, hposition 40 (by decide) (by decide),
    hposition 41 (by decide) (by decide), trivial, trivial, h, List.forall_mem_nil _⟩

/--
A point is added after the section.
-/
theorem drawing_accepted_iff_sampleDrawing
    : (drawnEditor (latitudes [46, 47, 48, 49, 50, 51])).ReplacesSelected (drawnOperation (sampleDto 48)) := by
  have hsound : Sound (latitudes [46, 47, 48, 49, 50, 51]) := sound_latitudes (by decide) (by decide)
  have hfinish : (Runs.run Editor.step .start (sampleDrawing (latitudes [46, 47, 48, 49, 50, 51]))).state.finishDrawing
      = .ok (drawnOperation (sampleDto 48)) := by rfl
  exact (drawing_accepted_iff (sane_sampleDrawing hsound) hfinish).mpr rfl

theorem not_replacesSelected {geometry : DtoGeometry} (h : Sound geometry) {operation : Api.OperationDto}
    (hfinish : (drawnEditor geometry).state.finishDrawing = .ok operation)
    (hkeeps : ¬(drawnEditor geometry).KeepsSelected operation) : ¬(drawnEditor geometry).ReplacesSelected operation :=
  ((Editor.ready_run (sane_sampleDrawing h)).replacesSelected_iff hfinish).not.mpr hkeeps

/--
If a point comes before the section, then the replacement is refused. If two points of the section are deleted,
then the point at 49 degrees is lost, which was not selected.
-/
theorem drawing_not_accepted
    : ((drawnEditor (latitudes [45, 46, 47, 48, 49, 50])).state.finishDrawing = .ok (drawnOperation (sampleDto 47))
        ∧ executed (latitudes [45, 46, 47, 48, 49, 50]) (drawnOperation (sampleDto 47)) = none
        ∧ ¬(drawnEditor (latitudes [45, 46, 47, 48, 49, 50])).ReplacesSelected (drawnOperation (sampleDto 47)))
      ∧ (drawnEditor (latitudes [46, 49, 50])).state.finishDrawing = .ok (drawnOperation (sampleDto 50))
      ∧ executed (latitudes [46, 49, 50]) (drawnOperation (sampleDto 50))
        = some [[sampleDto 46, ⟨.fin 40, .fin 8, none⟩, sampleDto 50]]
      ∧ ¬(drawnEditor (latitudes [46, 49, 50])).ReplacesSelected (drawnOperation (sampleDto 50)) := by
  have hadded : (drawnEditor (latitudes [45, 46, 47, 48, 49, 50])).state.finishDrawing
      = .ok (drawnOperation (sampleDto 47)) := by rfl
  have hdeleted : (drawnEditor (latitudes [46, 49, 50])).state.finishDrawing = .ok (drawnOperation (sampleDto 50)) := by
    rfl
  refine ⟨⟨hadded, by rfl, ?_⟩, hdeleted, by rfl, ?_⟩
  . apply not_replacesSelected (sound_latitudes (by decide) (by decide)) hadded
    show ¬_ = _
    decide
  . apply not_replacesSelected (sound_latitudes (by decide) (by decide)) hdeleted
    show ¬_ = _
    decide

end Sample

end RouteEditor
