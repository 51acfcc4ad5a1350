import Haiker.RouteEditing.Lemmas.Draft

/-!
This module contains the invariant of the drafts that the aggregate's methods can reach: the geometry
and every snapshot on the two stacks are valid, and no operation is on the stacks twice.
-/

open Rust

namespace RouteEditing

-- what a caller that makes its points with `Coordinate::new` can have
def Coordinate.Built (c : Coordinate) : Prop :=
  ∃ latitude longitude, Coordinate.new latitude longitude = .ok c

def RouteOperation.coordinates : RouteOperation → List Coordinate
  | .movePoint _ _ newPosition => [newPosition]
  | .addPoint _ _ point => [point.coordinate]
  | .replaceSection _ _ _ replacement => replacement.map (·.coordinate)
  | .deletePoint .. | .deleteSection .. | .splitSegment .. | .joinSegments .. => []

def Command.coordinates : Command → List Coordinate
  | .apply _ operation => operation.coordinates
  | .reset baseGeometry => baseGeometry.flatten.map (·.coordinate)
  | .undo | .redo => []

def Call.coordinates : Call → List Coordinate
  | .edit _ command => command.coordinates
  | .publish | .discard => []

structure ValidGeometry (g : Geometry) : Prop where
  wellShaped : WellShaped g
  inRange : AllPoints (fun point => point.coordinate.InRange) g

namespace RouteDraft

def operations (draft : RouteDraft) : List OperationEntry :=
  draft.appliedOperations ++ draft.undoneOperations

structure WellFormed (draft : RouteDraft) : Prop where
  geometry : ValidGeometry draft.geometry
  snapshots : ∀ entry ∈ draft.operations, ValidGeometry entry.geometryBefore
  distinct : (draft.operations.map (·.id)).Nodup

-- one call after the other, each on what the one before has left, whether that succeeded or not
def runCalls (draft : RouteDraft) (calls : List (Timestamp × Call)) : RouteDraft :=
  calls.foldl (fun draft call => after (call.2.exec call.1) draft) draft

end RouteDraft

theorem Coordinate.built_iff {c : Coordinate}
    : c.Built ↔ c.latitude.inRange (-90) 90 = true ∧ c.longitude.inRange (-180) 180 = true := by
  constructor
  . rintro ⟨latitude, longitude, hnew⟩
    rw [new_eq_ok_iff] at hnew
    rw [hnew.1]
    exact hnew.2
  . intro h
    refine ⟨c.latitude, c.longitude, ?_⟩
    rw [new_eq_ok_iff]
    exact ⟨rfl, h⟩

instance {c : Coordinate} : Decidable c.Built := decidable_of_iff _ Coordinate.built_iff.symm

theorem Coordinate.Built.inRange {c : Coordinate} (h : c.Built) : c.InRange := by
  obtain ⟨_, _, hnew⟩ := h
  apply Coordinate.inRange_of_new hnew

theorem RouteOperation.supplies_of_built {operation : RouteOperation}
    (h : ∀ c ∈ operation.coordinates, c.Built)
    : operation.Supplies fun point => point.coordinate.InRange := by
  cases operation with
  | movePoint _ _ newPosition =>
    intro point _
    apply Coordinate.Built.inRange
    apply h
    simp [coordinates]
  | addPoint _ _ point =>
    apply Coordinate.Built.inRange
    apply h
    simp [coordinates]
  | replaceSection _ _ _ replacement =>
    intro point hmem
    apply Coordinate.Built.inRange
    apply h
    simp only [coordinates, List.mem_map]
    exact ⟨point, hmem, rfl⟩
  | deletePoint | deleteSection | splitSegment | joinSegments => trivial

theorem ValidGeometry.of_built {g : Geometry} (hshape : WellShaped g)
    (h : ∀ c ∈ g.flatten.map (·.coordinate), c.Built) : ValidGeometry g := by
  constructor
  . exact hshape
  . intro segment hsegment point hpoint
    apply Coordinate.Built.inRange
    apply h
    rw [List.mem_map]
    exact ⟨point, List.mem_flatten.mpr ⟨segment, hsegment, hpoint⟩, rfl⟩

theorem ValidGeometry.executeOperation {operation : RouteOperation} {g g' : Geometry}
    (h : ValidGeometry g) (hbuilt : ∀ c ∈ operation.coordinates, c.Built)
    (hexec : (executeOperation operation).run g = .ok () g') : ValidGeometry g' := by
  have heffect := effect_of_executeOperation hexec
  constructor
  . apply heffect.wellShaped h.wellShaped
  . apply heffect.allPoints (RouteOperation.supplies_of_built hbuilt) h.inRange

namespace RouteDraft

variable {draft draft' : RouteDraft} {now : Timestamp}

-- undo and redo move one entry to the other stack and swap its snapshot with the geometry
structure Swapped (draft draft' : RouteDraft) (entry : OperationEntry) (others : List OperationEntry) :
    Prop where
  before : draft.operations.Perm (entry :: others)
  after : draft'.operations.Perm ({ entry with geometryBefore := draft.geometry } :: others)
  geometry : draft'.geometry = entry.geometryBefore

theorem swapped_afterUndo {entry : OperationEntry}
    (hlast : draft.appliedOperations.getLast? = some entry)
    : Swapped draft (draft.afterUndo now entry) entry
        (draft.appliedOperations.dropLast ++ draft.undoneOperations) := by
  constructor
  . rw [operations]
    nth_rewrite 1 [← List.dropLast_append_getLast? entry hlast]
    rw [List.append_assoc, List.singleton_append]
    apply List.perm_middle
  . rw [operations, afterUndo, ← List.append_assoc]
    apply List.perm_append_singleton
  . rfl

theorem swapped_afterRedo {entry : OperationEntry}
    (hlast : draft.undoneOperations.getLast? = some entry)
    : Swapped draft (draft.afterRedo now entry) entry
        (draft.appliedOperations ++ draft.undoneOperations.dropLast) := by
  constructor
  . rw [operations]
    nth_rewrite 1 [← List.dropLast_append_getLast? entry hlast]
    rw [← List.append_assoc]
    apply List.perm_append_singleton
  . rw [operations, afterRedo, List.append_assoc, List.singleton_append]
    apply List.perm_middle
  . rfl

theorem Swapped.ids {entry : OperationEntry} {others : List OperationEntry}
    (h : Swapped draft draft' entry others)
    : (draft'.operations.map (·.id)).Perm (draft.operations.map (·.id)) := by
  have hbefore := h.before.map (·.id)
  have hafter := h.after.map (·.id)
  simp only [List.map_cons] at hbefore hafter
  apply hafter.trans hbefore.symm

theorem nodup_of_edited {command : Command} (h : (draft.operations.map (·.id)).Nodup)
    (hedited : Edited now draft command draft') : (draft'.operations.map (·.id)).Nodup := by
  cases hedited with
  | replayed => exact h
  | applied hfresh =>
    rw [operations, List.map_append] at h
    simp only [operations, afterApply, List.append_nil, List.map_append, List.map_cons, List.map_nil]
    rw [List.perm_append_comm.nodup_iff, List.singleton_append, List.nodup_cons]
    exact ⟨hfresh, (List.nodup_append.mp h).1⟩
  | undone hlast =>
    rw [(swapped_afterUndo hlast).ids.nodup_iff]
    exact h
  | redone hlast =>
    rw [(swapped_afterRedo hlast).ids.nodup_iff]
    exact h
  | reset => simp [operations, afterReset]

/--
Every operation on the stacks was there before or is the one the command applies.
-/
theorem source_of_edited {command : Command} {entry : OperationEntry}
    (hedited : Edited now draft command draft') (hmem : entry ∈ draft'.operations)
    : (∃ old ∈ draft.operations, old.id = entry.id ∧ old.operation = entry.operation)
        ∨ command = .apply entry.id entry.operation := by
  have hswap : ∀ {moved others}, Swapped draft draft' moved others →
      ∃ old ∈ draft.operations, old.id = entry.id ∧ old.operation = entry.operation := by
    intro moved others hswapped
    rw [hswapped.after.mem_iff, List.mem_cons] at hmem
    cases hmem with
    | inl hentry =>
      refine ⟨moved, ?_, by rw [hentry], by rw [hentry]⟩
      rw [hswapped.before.mem_iff]
      exact List.mem_cons_self
    | inr hother =>
      refine ⟨entry, ?_, rfl, rfl⟩
      rw [hswapped.before.mem_iff]
      exact List.mem_cons_of_mem _ hother
  cases hedited with
  | replayed => exact .inl ⟨entry, hmem, rfl, rfl⟩
  | applied =>
    simp only [operations, afterApply, List.append_nil, List.mem_append, List.mem_singleton] at hmem
    cases hmem with
    | inl hold => exact .inl ⟨entry, List.mem_append_left _ hold, rfl, rfl⟩
    | inr hnew => exact .inr (by rw [hnew])
  | undone hlast => exact .inl (hswap (swapped_afterUndo hlast))
  | redone hlast => exact .inl (hswap (swapped_afterRedo hlast))
  | reset => simp [operations, afterReset] at hmem

-- `P` holds of the geometry and of every snapshot on the stacks
structure Snapshots (P : Geometry → Prop) (draft : RouteDraft) : Prop where
  geometry : P draft.geometry
  snapshots : ∀ entry ∈ draft.operations, P entry.geometryBefore

/--
What operations and resets keep of a geometry, all commands keep of the geometry and the snapshots.
-/
theorem Snapshots.edited {P : Geometry → Prop} {command : Command} (h : Snapshots P draft)
    (happly : ∀ id operation g, command = .apply id operation →
      (executeOperation operation).run draft.geometry = .ok () g → P g)
    (hreset : ∀ g, command = .reset g → validateGeometry g = .ok () → P g)
    (hedited : Edited now draft command draft') : Snapshots P draft' := by
  have hswap : ∀ {entry others}, Swapped draft draft' entry others → Snapshots P draft' := by
    intro entry others hswapped
    have hmem : ∀ e ∈ entry :: others, P e.geometryBefore := by
      intro e he
      apply h.snapshots
      rw [hswapped.before.mem_iff]
      exact he
    constructor
    . rw [hswapped.geometry]
      exact hmem entry List.mem_cons_self
    . intro e he
      rw [hswapped.after.mem_iff, List.mem_cons] at he
      cases he with
      | inl hentry =>
        rw [hentry]
        exact h.geometry
      | inr hother => exact hmem e (List.mem_cons_of_mem _ hother)
  cases hedited with
  | replayed => exact h
  | applied hfresh hexec =>
    constructor
    . exact happly _ _ _ rfl hexec
    . intro entry hmem
      simp only [operations, afterApply, List.append_nil, List.mem_append, List.mem_singleton] at hmem
      cases hmem with
      | inl hold => exact h.snapshots entry (List.mem_append_left _ hold)
      | inr hnew =>
        rw [hnew]
        exact h.geometry
  | undone hlast => exact hswap (swapped_afterUndo hlast)
  | redone hlast => exact hswap (swapped_afterRedo hlast)
  | reset hbase =>
    constructor
    . exact hreset _ rfl hbase
    . simp [operations, afterReset]

theorem WellFormed.edited {command : Command} (h : draft.WellFormed)
    (hbuilt : ∀ c ∈ command.coordinates, c.Built) (hedited : Edited now draft command draft')
    : draft'.WellFormed := by
  have hsnapshots : Snapshots ValidGeometry draft' := by
    apply Snapshots.edited ⟨h.geometry, h.snapshots⟩ _ _ hedited
    . rintro id operation g rfl hexec
      exact h.geometry.executeOperation hbuilt hexec
    . rintro g rfl hbase
      rw [validateGeometry_eq_ok_iff] at hbase
      exact .of_built hbase hbuilt
  exact ⟨hsnapshots.geometry, hsnapshots.snapshots, nodup_of_edited h.distinct hedited⟩

theorem WellFormed.call {call : Call} (h : draft.WellFormed)
    (hbuilt : ∀ c ∈ call.coordinates, c.Built) : (after (call.exec now) draft).WellFormed := by
  cases call with
  | edit expectedRevision command =>
    rcases command.exec_cases now expectedRevision draft with ⟨_, herr⟩ | ⟨_, _, _, hedited, hok⟩
    . rw [Call.exec, after_of_run_error herr]
      exact h
    . rw [Call.exec, after_of_run_ok hok]
      exact h.edited hbuilt hedited
  | publish =>
    rw [Call.exec]
    by_cases hactive : draft.state = .active
    . rw [after_of_run_ok (run_publish hactive)]
      exact ⟨h.geometry, h.snapshots, h.distinct⟩
    . rw [after_of_run_error (run_publish_of_not_active hactive)]
      exact h
  | discard =>
    rw [Call.exec]
    by_cases hactive : draft.state = .active
    . rw [after_of_run_ok (run_discard hactive)]
      exact ⟨h.geometry, h.snapshots, h.distinct⟩
    . rw [after_of_run_error (run_discard_of_not_active hactive)]
      exact h

theorem WellFormed.runCalls {calls : List (Timestamp × Call)} (h : draft.WellFormed)
    (hbuilt : ∀ call ∈ calls, ∀ c ∈ call.2.coordinates, c.Built)
    : (draft.runCalls calls).WellFormed := by
  induction calls generalizing draft with
  | nil => exact h
  | cons call calls ih =>
    rw [RouteDraft.runCalls, List.foldl_cons]
    apply ih
    . apply h.call
      apply hbuilt
      exact List.mem_cons_self
    . intro other hmem
      apply hbuilt
      exact List.mem_cons_of_mem _ hmem

theorem createFromGeometry_eq_ok_iff {id : RouteDraftId} {ownerId : Identity.UserId}
    {activityId : ActivityCatalog.ActivityId} {baseRouteVersionId : Option Uuid} {g : Geometry}
    : createFromGeometry id now ownerId activityId baseRouteVersionId g = .ok draft
        ↔
      WellShaped g ∧ draft = {
        id
        activityId
        ownerId
        baseRouteVersionId
        revision := 0
        geometry := g
        appliedOperations := []
        undoneOperations := []
        state := .active
        createdAt := now
        updatedAt := now
      } := by
  rw [← validateGeometry_eq_ok_iff, createFromGeometry]
  cases validateGeometry g with
  | error e => simp [bind, Except.bind]
  | ok _ => simp [bind, Except.bind, pure, Except.pure, eq_comm]

/--
The drafts that any calls reach from a new one.
-/
theorem wellFormed_of_reachable (id : RouteDraftId) (ownerId : Identity.UserId)
    (activityId : ActivityCatalog.ActivityId) (baseRouteVersionId : Option Uuid) (g : Geometry)
    (hcreate : createFromGeometry id now ownerId activityId baseRouteVersionId g = .ok draft)
    (hbuilt : ∀ c ∈ g.flatten.map (·.coordinate), c.Built)
    (calls : List (Timestamp × Call)) (hcalls : ∀ call ∈ calls, ∀ c ∈ call.2.coordinates, c.Built)
    : (draft.runCalls calls).WellFormed := by
  rw [createFromGeometry_eq_ok_iff] at hcreate
  obtain ⟨hshape, rfl⟩ := hcreate
  apply WellFormed.runCalls
  . constructor
    . apply ValidGeometry.of_built hshape hbuilt
    . simp [operations]
    . simp [operations]
  . exact hcalls

-- a point and a draft to try things out on
def samplePoint (latitude : ℚ) : RoutePoint where
  coordinate := { latitude := .fin latitude, longitude := .fin 7 }
  elevation := some { meters := .fin 500 }

def sampleGeometry : Geometry := [[samplePoint 46, samplePoint 47, samplePoint 48]]

def sampleDraft : RouteDraft where
  id := ⟨⟨1⟩⟩
  activityId := ⟨⟨2⟩⟩
  ownerId := ⟨⟨3⟩⟩
  baseRouteVersionId := none
  revision := 0
  geometry := sampleGeometry
  appliedOperations := []
  undoneOperations := []
  state := .active
  createdAt := 0
  updatedAt := 0

theorem wellFormed_sampleDraft : sampleDraft.WellFormed where
  geometry := by
    apply ValidGeometry.of_built
    . rw [← validateGeometry_eq_ok_iff]
      rfl
    . decide
  snapshots := by
    intro entry hmem
    cases hmem
  distinct := List.nodup_nil

theorem wellFormed_of_reachable_sampleDraft
    : (sampleDraft.runCalls [
        (1000, .edit 0 (.apply ⟨⟨10⟩⟩ (.movePoint ⟨0⟩ ⟨1⟩ (samplePoint 50).coordinate))),
        (2000, .edit 1 (.apply ⟨⟨11⟩⟩ (.deletePoint ⟨0⟩ ⟨2⟩))),
        (3000, .edit 2 (.apply ⟨⟨12⟩⟩ (.deletePoint ⟨0⟩ ⟨0⟩))),
        (4000, .edit 2 .undo),
        (5000, .discard)
      ]).WellFormed := by
  apply wellFormed_of_reachable ⟨⟨1⟩⟩ ⟨⟨3⟩⟩ ⟨⟨2⟩⟩ none sampleGeometry
  . rfl
  . decide
  . decide

end RouteDraft

end RouteEditing
