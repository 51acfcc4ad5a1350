import Haiker.RouteEditor.Inputs

/-!
This module contains when the editor shows the geometry that the server answered last.
-/

namespace RouteEditor

/-
Where the points are, and what else there is of a geometry.
-/

section Positions

def pointAt? (geometry : Option DtoGeometry) (i k : Nat) : Option Api.RoutePointDto :=
  (geometry.bind (·[i]?)).bind (·[k]?)

def position? (geometry : Option DtoGeometry) (i k : Nat) : Option Api.PositionDto :=
  (pointAt? geometry i k).map positionOf

def elevations (geometry : DtoGeometry) : List (List (Option Rust.F64)) :=
  geometry.map fun segment => segment.map (·.elevation)

-- the geometries differ in positions only
def SameShape (shown served : Option DtoGeometry) : Prop := shown.map elevations = served.map elevations

theorem eq_of_position_of_elevation {pt pt' : Api.RoutePointDto} (hposition : positionOf pt = positionOf pt')
    (helevation : pt.elevation = pt'.elevation) : pt = pt' := by
  obtain ⟨latitude, longitude, elevation⟩ := pt
  obtain ⟨hlatitude, hlongitude⟩ := Api.PositionDto.mk.inj hposition
  cases helevation
  cases hlatitude
  cases hlongitude
  rfl

theorem eq_of_map_eq {α β : Type} {f : α → β} {l l' : List α} (hmap : l.map f = l'.map f)
    (h : ∀ (i : Nat) (a a' : α), l[i]? = some a → l'[i]? = some a' → f a = f a' → a = a') : l = l' := by
  apply List.ext_getElem?
  intro i
  have hi : (l[i]?).map f = (l'[i]?).map f := by rw [← List.getElem?_map, ← List.getElem?_map, hmap]
  cases ha : l[i]? <;> cases ha' : l'[i]? <;> rw [ha, ha'] at hi
  . cases hi
  . cases hi
  . exact congrArg some (h i _ _ ha ha' (Option.some.inj hi))

theorem eq_of_positions_of_elevations {geometry geometry' : DtoGeometry}
    (hshape : elevations geometry = elevations geometry')
    (h : ∀ i k, position? (some geometry) i k = position? (some geometry') i k) : geometry = geometry' := by
  apply eq_of_map_eq hshape
  intro i segment segment' hi hi' hsegment
  apply eq_of_map_eq hsegment
  intro k pt pt' hk hk' helevation
  have hposition := h i k
  simp only [position?, pointAt?, Option.bind_some, hi, hi', hk, hk', Option.map_some, Option.some.injEq] at hposition
  exact eq_of_position_of_elevation hposition helevation

theorem SameShape.eq_iff {shown served : Option DtoGeometry} (h : SameShape shown served)
    : shown = served ↔ ∀ i k, position? shown i k = position? served i k := by
  constructor
  . rintro rfl i k
    rfl
  . intro hpositions
    unfold SameShape at h
    cases shown <;> cases served
    . rfl
    . cases h
    . cases h
    . exact congrArg some (eq_of_positions_of_elevations (Option.some.inj h) hpositions)

variable (i k : Nat) (position : Api.PositionDto)

@[simp]
theorem elevations_placePoint (geometry : DtoGeometry)
    : elevations (placePoint i k position geometry) = elevations geometry := by
  unfold elevations placePoint
  apply List.ext_getElem?
  intro i'
  rw [List.getElem?_map, List.getElem?_map, List.getElem?_mapIdx, Option.map_map]
  congr 1
  funext segment
  rw [Function.comp_apply]
  split
  . rfl
  . apply List.ext_getElem?
    intro k'
    rw [List.getElem?_map, List.getElem?_map, List.getElem?_mapIdx, Option.map_map]
    congr 1
    funext pt
    rw [Function.comp_apply]
    split <;> rfl

theorem SameShape.placePoint {shown served : Option DtoGeometry} (h : SameShape shown served)
    : SameShape (shown.map (placePoint i k position)) served := by
  have helevations : elevations ∘ RouteEditor.placePoint i k position = elevations := by
    funext geometry
    exact elevations_placePoint i k position geometry
  unfold SameShape
  rw [Option.map_map, helevations]
  exact h

theorem SameShape.or {geometry shown served : Option DtoGeometry} (h : SameShape shown served)
    : SameShape (geometry.or shown) (geometry.or served) := by
  cases geometry with
  | none => exact h
  | some geometry => rfl

theorem pointAt?_placePoint (shown : Option DtoGeometry) (i' k' : Nat)
    : pointAt? (shown.map (placePoint i k position)) i' k'
        =
      if i' = i ∧ k' = k then
        (pointAt? shown i' k').map (movedTo position)
      else
        pointAt? shown i' k' := by
  cases shown with
  | none => simp [pointAt?]
  | some geometry =>
    unfold pointAt? placePoint
    rw [Option.map_some, Option.bind_some, Option.bind_some, List.getElem?_mapIdx]
    cases geometry[i']? with
    | none => simp
    | some segment =>
      by_cases hi : i' = i
      . by_cases hk : k' = k <;> simp [hi, hk]
      . simp [hi]

theorem position?_placePoint (shown : Option DtoGeometry) (i' k' : Nat)
    : position? (shown.map (placePoint i k position)) i' k'
        =
      if i' = i ∧ k' = k then
        (position? shown i' k').map fun _ => position
      else
        position? shown i' k' := by
  unfold position?
  rw [pointAt?_placePoint]
  split
  . rw [Option.map_map, Option.map_map]
    rfl
  . rfl

theorem SameShape.pointAt? {shown served : Option DtoGeometry} (h : SameShape shown served)
    : (pointAt? shown i k).map (·.elevation) = (pointAt? served i k).map (·.elevation) := by
  have helevations : ∀ geometry : Option DtoGeometry, (RouteEditor.pointAt? geometry i k).map (·.elevation)
      = ((geometry.map elevations).bind (·[i]?)).bind (·[k]?) := by
    intro geometry
    unfold RouteEditor.pointAt? elevations
    cases geometry with
    | none => rfl
    | some geometry => cases hi : geometry[i]? <;> simp [hi]
  rw [helevations, helevations, show shown.map elevations = served.map elevations from h]

end Positions

namespace Editor

/-
The actions that have nothing to do with the geometry.
-/

structure SameView (e e' : Editor) : Prop where
  drag : e'.state.drag = e.state.drag
  isOperationPending : e'.state.isOperationPending = e.state.isOperationPending
  optimisticGeometry : e'.state.optimisticGeometry = e.state.optimisticGeometry
  served : e'.served = e.served

theorem SameView.refl (e : Editor) : SameView e e := ⟨rfl, rfl, rfl, rfl⟩

theorem SameView.trans {e e' e'' : Editor} (h : SameView e e') (h' : SameView e' e'') : SameView e e'' where
  drag := h'.drag.trans h.drag
  isOperationPending := h'.isOperationPending.trans h.isOperationPending
  optimisticGeometry := h'.optimisticGeometry.trans h.optimisticGeometry
  served := h'.served.trans h.served

end Editor

def EditorAction.isPassive : EditorAction → Bool
  | .setTool _ | .setSelection _ | .clearSelection => true
  | .setConflict _ | .clearConflict | .setCanUndoRedo _ _ | .setOnlineStatus _ => true
  | .drawingStart _ _ _ _ | .drawingAddPoint _ | .drawingRemoveLastPoint => true
  | .drawingCancel | .drawingCommit | .drawingFinish => true
  | _ => false

namespace Editor

theorem sameView_dispatch (e : Editor) {action : EditorAction} (h : action.isPassive = true)
    : SameView e (e.dispatch action) := by
  cases action with
  | drawingAddPoint point =>
    unfold dispatch editorReducer
    dsimp only
    split <;> exact ⟨rfl, rfl, rfl, rfl⟩
  | drawingRemoveLastPoint =>
    unfold dispatch editorReducer
    dsimp only
    split
    . split <;> exact ⟨rfl, rfl, rfl, rfl⟩
    . exact ⟨rfl, rfl, rfl, rfl⟩
  | _ => first | exact ⟨rfl, rfl, rfl, rfl⟩ | cases h

theorem sameView_foldl (e : Editor) {actions : List EditorAction} (h : ∀ action ∈ actions, action.isPassive = true)
    : SameView e (actions.foldl dispatch e) := by
  induction actions generalizing e with
  | nil => exact .refl e
  | cons action actions ih =>
    exact (sameView_dispatch e (h action List.mem_cons_self)).trans
      (ih (e.dispatch action) fun other hother => h other (List.mem_cons_of_mem _ hother))

end Editor

def Input.isPassive : Input → Bool
  | .setTool _ | .clickPoint _ _ _ | .clearSelection | .render | .setOnline _ => true
  | .drawPoint _ | .removeLastPoint | .cancelDrawing => true
  | .draftFetched _ | .setConflict _ | .clearConflict => true
  | _ => false

theorem isPassive_of_mem_actions {input : Input} (h : input.isPassive = true) {state : EditorState}
    {action : EditorAction} (haction : action ∈ input.actions state) : action.isPassive = true := by
  cases input with
  | render =>
    unfold Input.actions EditorState.startDrawing at haction
    dsimp only at haction
    split at haction
    . split at haction
      . split at haction
        . obtain rfl := List.mem_singleton.mp haction
          rfl
        . cases haction
      . cases haction
    . cases haction
  | drawPoint position =>
    unfold Input.actions EditorState.addPoint at haction
    dsimp only at haction
    split at haction
    . split at haction
      . split at haction
        . cases haction
        . obtain rfl := List.mem_singleton.mp haction
          rfl
      . cases haction
    . cases haction
  | clickPoint segmentIndex pointIndex shiftKey =>
    unfold Input.actions at haction
    dsimp only at haction
    split at haction
    . cases haction
    . obtain rfl := List.mem_singleton.mp haction
      rfl
  | setTool | clearSelection | setOnline | removeLastPoint | cancelDrawing | draftFetched | setConflict | clearConflict =>
    obtain rfl := List.mem_singleton.mp haction
    rfl
  | _ => cases h

/-
One step.
-/

namespace Editor

/--
Whenever nothing is dragged and nothing is pending, the geometry is the one of the last response.
-/
def ShowsServed (e : Editor) : Prop :=
  e.state.drag = none → e.state.isOperationPending = false → e.state.optimisticGeometry = e.served

-- the point is shown elsewhere than where the last response has it
def Displaced (e : Editor) (i k : Nat) : Prop :=
  position? e.state.optimisticGeometry i k ≠ position? e.served i k

/--
The input does not end the last activity of the editor while a displaced point is shown.
-/
def Harmless (e : Editor) : Input → Prop
  | .failed _ => e.state.drag = none → ∀ i k, ¬e.Displaced i k
  | .conflicting _ _ => e.state.drag = none → ∀ i k, ¬e.Displaced i k
  -- the drawing is refused
  | .finishDrawing =>
    e.state.drag = none → e.state.finishDrawing.toOption = none → ∀ i k, ¬e.Displaced i k
  -- no request is sent
  | .mouseup =>
    e.state.drag.isSome = true → e.state.startRequest = [] → e.state.isOperationPending = false →
      ∀ i k, ¬e.Displaced i k
  | .cancelDrag =>
    ∀ drag, e.state.drag = some drag → e.state.isOperationPending = false →
      (∀ i k, e.Displaced i k → i = drag.segmentIndex ∧ k = drag.pointIndex)
        ∧ ∀ position, position? e.served drag.segmentIndex drag.pointIndex = some position →
          position = drag.original
  | _ => True

theorem SameView.showsServed {e e' : Editor} (h : SameView e e') : e'.ShowsServed ↔ e.ShowsServed := by
  unfold ShowsServed
  rw [h.drag, h.isOperationPending, h.optimisticGeometry, h.served]

def Shaped (e : Editor) : Prop := SameShape e.state.optimisticGeometry e.served

theorem Shaped.eq_iff {e : Editor} (h : e.Shaped)
    : e.state.optimisticGeometry = e.served ↔ ∀ i k, ¬e.Displaced i k := by
  unfold Displaced
  simp only [not_not]
  exact SameShape.eq_iff h

-- a point is where the cancellation puts it, or where it is shown already
theorem Shaped.placePoint_eq_iff {e : Editor} (h : e.Shaped) (i k : Nat) (original : Api.PositionDto)
    : e.state.optimisticGeometry.map (placePoint i k original) = e.served
        ↔ (∀ i' k', e.Displaced i' k' → i' = i ∧ k' = k)
          ∧ ∀ position, position? e.served i k = some position → position = original := by
  rw [(SameShape.placePoint i k original h).eq_iff]
  simp only [position?_placePoint]
  constructor
  . intro hpositions
    constructor
    . intro i' k' hdisplaced
      by_contra hother
      apply hdisplaced
      rw [← hpositions i' k', if_neg hother]
    . intro position hposition
      have hplaced := hpositions i k
      rw [if_pos ⟨rfl, rfl⟩, hposition, Option.map_eq_some_iff] at hplaced
      obtain ⟨_, _, hplaced⟩ := hplaced
      exact hplaced.symm
  . rintro ⟨hothers, horiginal⟩ i' k'
    by_cases hpoint : i' = i ∧ k' = k
    . obtain ⟨rfl, rfl⟩ := hpoint
      rw [if_pos ⟨rfl, rfl⟩]
      have hpoint := h.pointAt? i' k'
      unfold position? at horiginal ⊢
      cases hshown : pointAt? e.state.optimisticGeometry i' k' <;> cases hserved : pointAt? e.served i' k' <;>
        rw [hshown, hserved] at hpoint
      . rfl
      . cases hpoint
      . cases hpoint
      . rw [hserved] at horiginal
        rw [Option.map_some, Option.map_some, Option.map_some, horiginal _ rfl]
    . rw [if_neg hpoint]
      by_contra hdisplaced
      exact hpoint (hothers i' k' hdisplaced)

theorem startRequest_cases (state : EditorState)
    : state.startRequest = [] ∨ state.startRequest = [.operationStart] := by
  unfold EditorState.startRequest
  split
  . exact .inr rfl
  . exact .inl rfl

theorem showsServed_of_pending {e : Editor} (h : e.state.isOperationPending = true) : e.ShowsServed := by
  intro _ hpending
  rw [h] at hpending
  cases hpending

theorem showsServed_of_drag {e : Editor} (h : e.state.drag.isSome = true) : e.ShowsServed := by
  intro hdrag
  rw [hdrag] at h
  cases h

theorem showsServed_resolveConflict {e : Editor} (h : e.ShowsServed) {e' : Editor}
    (hstate : e'.state = e.state.resolveConflict)
    (hserved : e'.served = (e.state.conflictServerDraft.map (·.geometry)).or e.served) : e'.ShowsServed := by
  unfold ShowsServed
  rw [hstate, hserved]
  intro hdrag hpending
  show (e.state.conflictServerDraft.map (·.geometry)).or e.state.optimisticGeometry = _
  rw [h hdrag hpending]

-- a request is given up
theorem Shaped.showsServed_settled_iff {e e' : Editor} (h : e.Shaped) (hdrag : e'.state.drag = e.state.drag)
    (hpending : e'.state.isOperationPending = false)
    (hshown : e'.state.optimisticGeometry = e.state.optimisticGeometry) (hserved : e'.served = e.served)
    : e'.ShowsServed ↔ (e.state.drag = none → ∀ i k, ¬e.Displaced i k) := by
  rw [← h.eq_iff]
  unfold ShowsServed
  rw [hdrag, hpending, hshown, hserved]
  exact ⟨fun hshows hdrag => hshows hdrag rfl, fun hshows hdrag _ => hshows hdrag⟩

theorem Shaped.showsServed_mouseup_iff {e : Editor} (hshaped : e.Shaped) (h : e.ShowsServed)
    : (e.step .mouseup).ShowsServed ↔ e.Harmless .mouseup := by
  cases hdrag : e.state.drag with
  | none =>
    have hstep : e.step .mouseup = e := by simp [step, Input.actions, hdrag]
    rw [hstep]
    refine iff_of_true h ?_
    intro hsome
    rw [hdrag] at hsome
    cases hsome
  | some drag =>
    have hstep : e.step .mouseup = e.state.startRequest.foldl dispatch (e.dispatch .dragEnd) := by
      simp [step, Input.actions, hdrag]
    rw [hstep]
    obtain hnone | hstart := startRequest_cases e.state
    . rw [hnone]
      unfold Harmless
      rw [← hshaped.eq_iff, hdrag]
      constructor
      . intro hshows _ _ hpending
        exact hshows rfl hpending
      . intro hharmless _ hpending
        exact hharmless rfl hnone hpending
    . rw [hstart]
      refine iff_of_true (showsServed_of_pending rfl) ?_
      intro _ hnone
      rw [hstart] at hnone
      cases hnone

theorem Shaped.showsServed_cancelDrag_iff {e : Editor} (hshaped : e.Shaped) (h : e.ShowsServed)
    : (e.step .cancelDrag).ShowsServed ↔ e.Harmless .cancelDrag := by
  cases hdrag : e.state.drag with
  | none =>
    have hstep : e.step .cancelDrag = e := by simp [step, Input.actions, hdrag]
    rw [hstep]
    refine iff_of_true h ?_
    intro drag hsome
    rw [hdrag] at hsome
    cases hsome
  | some drag =>
    have hstep : e.step .cancelDrag = { e with
        state := { e.state with
          drag := none
          optimisticGeometry :=
            e.state.optimisticGeometry.map (placePoint drag.segmentIndex drag.pointIndex drag.original)
        }
      } := by
      simp [step, Input.actions, dispatch, editorReducer, EditorState.carried, hdrag]
    rw [hstep]
    constructor
    . intro hshows other hother hpending
      rw [hdrag, Option.some.injEq] at hother
      subst hother
      exact (hshaped.placePoint_eq_iff _ _ _).mp (hshows rfl hpending)
    . intro hharmless _ hpending
      exact (hshaped.placePoint_eq_iff _ _ _).mpr (hharmless drag hdrag hpending)

theorem Shaped.showsServed_finishDrawing_iff {e : Editor} (hshaped : e.Shaped) (h : e.ShowsServed)
    : (e.step .finishDrawing).ShowsServed ↔ e.Harmless .finishDrawing := by
  cases hfinish : e.state.finishDrawing with
  | error message =>
    have hstep : e.step .finishDrawing = e.dispatch (.operationFailure message) := by
      simp [step, Input.actions, hfinish]
    have hsettled : (e.dispatch (.operationFailure message)).ShowsServed
        ↔ (e.state.drag = none → ∀ i k, ¬e.Displaced i k) := hshaped.showsServed_settled_iff rfl rfl rfl rfl
    rw [hstep, hsettled]
    unfold Harmless
    rw [hfinish]
    exact ⟨fun hharmless hdrag _ => hharmless hdrag, fun hharmless hdrag => hharmless hdrag rfl⟩
  | ok operation =>
    have hstep : e.step .finishDrawing
        = (e.state.startRequest.foldl dispatch e).dispatch .drawingFinish := by
      simp [step, Input.actions, hfinish]
    have hfinished : ∀ e' : Editor, SameView e' (e'.dispatch .drawingFinish) := fun e' => sameView_dispatch e' rfl
    rw [hstep, (hfinished _).showsServed]
    have hharmless : e.Harmless .finishDrawing := by
      intro _ hnone
      rw [hfinish] at hnone
      cases hnone
    refine iff_of_true ?_ hharmless
    obtain hnone | hstart := startRequest_cases e.state
    . rw [hnone]
      exact h
    . rw [hstart]
      exact showsServed_of_pending rfl

theorem Shaped.showsServed_step_iff {e : Editor} (hshaped : e.Shaped) (h : e.ShowsServed) (input : Input)
    : (e.step input).ShowsServed ↔ e.Harmless input := by
  by_cases hpassive : input.isPassive = true
  . have hview : SameView e (e.step input) := sameView_foldl e fun _ => isPassive_of_mem_actions hpassive
    rw [hview.showsServed]
    cases input with
    | _ => first | exact iff_of_true h trivial | cases hpassive
  . cases input with
    | failed error => exact hshaped.showsServed_settled_iff rfl rfl rfl rfl
    | conflicting serverDraft localOps => exact hshaped.showsServed_settled_iff rfl rfl rfl rfl
    | mousedown segmentIndex pointIndex position =>
      refine iff_of_true ?_ trivial
      unfold step Input.actions
      dsimp only
      split
      . exact showsServed_of_drag rfl
      . exact h
    | mousemove position =>
      refine iff_of_true ?_ trivial
      cases hdrag : e.state.drag with
      | none =>
        have hstep : e.step (.mousemove position) = e := by simp [step, Input.actions, hdrag]
        rw [hstep]
        exact h
      | some drag =>
        apply showsServed_of_drag
        simp [step, Input.actions, dispatch, editorReducer, hdrag]
    | mouseup => exact hshaped.showsServed_mouseup_iff h
    | cancelDrag => exact hshaped.showsServed_cancelDrag_iff h
    | finishDrawing => exact hshaped.showsServed_finishDrawing_iff h
    | request =>
      refine iff_of_true ?_ trivial
      unfold step Input.actions
      dsimp only
      obtain hnone | hstart := startRequest_cases e.state
      . rw [hnone]
        exact h
      . rw [hstart]
        exact showsServed_of_pending rfl
    | draftCreated draft baseGeometry => exact iff_of_true (fun _ _ => rfl) trivial
    | succeeded revision geometry canUndo canRedo => exact iff_of_true (fun _ _ => rfl) trivial
    | reload => exact iff_of_true (showsServed_resolveConflict h rfl rfl) trivial
    | retry => exact iff_of_true (showsServed_resolveConflict h rfl rfl) trivial
    | _ => exact absurd rfl hpassive

theorem Shaped.dispatch {e : Editor} (h : e.Shaped) {action : EditorAction}
    (hset : ∀ geometry, action ≠ .setOptimisticGeometry geometry) : (e.dispatch action).Shaped := by
  by_cases hpassive : action.isPassive = true
  . have hview := sameView_dispatch e hpassive
    unfold Shaped
    rw [hview.optimisticGeometry, hview.served]
    exact h
  . cases action with
    | setOptimisticGeometry geometry => exact absurd rfl (hset geometry)
    | setDraft draftId revision geometry baseGeometry => exact rfl
    | operationSuccess revision geometry canUndo canRedo => exact rfl
    | resolveConflictReload => exact SameShape.or h
    | resolveConflictRetry => exact SameShape.or h
    | dragPreview position =>
      unfold Shaped Editor.dispatch editorReducer
      dsimp only
      split
      . exact h
      . exact SameShape.placePoint _ _ _ h
    | dragCancel =>
      unfold Shaped Editor.dispatch editorReducer
      dsimp only
      split
      . exact h
      . exact SameShape.placePoint _ _ _ h
    | operationStart | operationFailure | setConflictState | dragStart | dragEnd => exact h
    | _ => exact absurd rfl hpassive

theorem not_mem_actions (state : EditorState) (input : Input) (geometry : DtoGeometry)
    : .setOptimisticGeometry geometry ∉ input.actions state := by
  intro hmem
  by_cases hpassive : input.isPassive = true
  . cases isPassive_of_mem_actions hpassive hmem
  . have hrequest : .setOptimisticGeometry geometry ∉ state.startRequest := by
      obtain h | h := startRequest_cases state <;> simp [h]
    cases input with
    | mousedown | mousemove | cancelDrag =>
      unfold Input.actions at hmem
      dsimp only at hmem
      split at hmem <;> simp at hmem
    | mouseup =>
      unfold Input.actions at hmem
      dsimp only at hmem
      split at hmem
      . simp [hrequest] at hmem
      . cases hmem
    | finishDrawing =>
      unfold Input.actions at hmem
      dsimp only at hmem
      split at hmem
      . simp [hrequest] at hmem
      . simp at hmem
    | request => exact hrequest hmem
    | draftCreated | succeeded | failed | conflicting | reload | retry => simp [Input.actions] at hmem
    | _ => exact absurd rfl hpassive

theorem Shaped.foldl {e : Editor} (h : e.Shaped) {actions : List EditorAction}
    (hset : ∀ geometry, .setOptimisticGeometry geometry ∉ actions) : (actions.foldl Editor.dispatch e).Shaped := by
  induction actions generalizing e with
  | nil => exact h
  | cons action actions ih =>
    apply ih (h.dispatch _)
    . intro geometry hmem
      exact hset geometry (List.mem_cons_of_mem _ hmem)
    . rintro geometry rfl
      exact hset geometry List.mem_cons_self

theorem Shaped.step {e : Editor} (h : e.Shaped) (input : Input) : (e.step input).Shaped :=
  h.foldl (not_mem_actions e.state input)

end Editor

/--
In every state that a run of the editor comes to it shows the geometry of the last response whenever nothing is
dragged and nothing is pending, if and only if all steps are harmless.
-/
theorem shows_served_iff (inputs : List Input)
    : (∀ k, (Runs.run Editor.step .start (inputs.take k)).ShowsServed)
        ↔ Runs.Along Editor.step Editor.Harmless .start inputs := by
  apply Runs.run_take_iff_along Editor.step (fun e input (hshaped : e.Shaped) => hshaped.step input)
  . intro e input hshaped h
    exact hshaped.showsServed_step_iff h input
  . exact rfl
  . intro _ _
    rfl

section Sample

def sampleDto (latitude : ℚ) : Api.RoutePointDto := ⟨.fin latitude, .fin 7, none⟩

def sampleResponse : Api.RouteDraftResponse where
  id := ⟨10⟩
  activityId := ⟨2⟩
  baseRouteVersionId := none
  revision := 0
  state := "active"
  geometry := [[sampleDto 46, sampleDto 47, sampleDto 48]]
  canUndo := false
  canRedo := false
  createdAt := 0
  updatedAt := 0

def sampleStart : List Input := [.draftCreated sampleResponse sampleResponse.geometry, .setTool .move]

-- the second point is dragged
def sampleDrag : List Input := [.mousedown 0 1 ⟨.fin 47, .fin 7⟩, .mousemove ⟨.fin 45, .fin 7⟩]

/--
A move that is rejected stays, so does a drag that is released offline, and a drag that is cancelled after a
point was deleted moves another one.
-/
theorem preview_stays
    : ¬(Runs.run Editor.step .start (sampleStart ++ sampleDrag ++ [.mouseup, .failed "Revision conflict"])).ShowsServed
        ∧ ¬(Runs.run Editor.step .start (sampleStart ++ sampleDrag ++ [.setOnline false, .mouseup])).ShowsServed
        ∧ ¬(Runs.run Editor.step .start (sampleStart ++ [.clickPoint 0 0 false, .request, .clearSelection]
          ++ sampleDrag ++ [.succeeded 1 [[sampleDto 47, sampleDto 48]] true false, .cancelDrag])).ShowsServed := by
  refine ⟨?_, ?_, ?_⟩
  . intro h
    have hsame := h rfl rfl
    revert hsame
    decide
  . intro h
    have hsame := h rfl rfl
    revert hsame
    decide
  . intro h
    have hsame := h rfl rfl
    revert hsame
    decide

end Sample

end RouteEditor
