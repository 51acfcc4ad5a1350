import Haiker.RouteEditing.Repository
import Haiker.RouteEditing.WellFormed

/-!
This module contains what the repository's methods read from the tables and what they leave there, and the
drafts that JSON loses nothing of, those with finite numbers: they are what drafts are loaded as, and what
commands with finite numbers make of them.
-/

open Rust

namespace RouteEditing

namespace PgRouteDraftRepository

-- the draft that reading its row and then its operation rows gives
def loaded (s : Store) (id : RouteDraftId) : Option RouteDraft :=
  (s.drafts.find? id.val).map fun row => draftOfRows row (selectOperations s id.val)

-- the rows of both stacks
def stackRows (draft : RouteDraft) : List DraftOperationRow :=
  operationRows draft.id false 0 draft.appliedOperations
    ++ operationRows draft.id true draft.appliedOperations.length draft.undoneOperations

-- the optimistic lock lets the update through
def Unlocked (s : Store) (draft : RouteDraft) : Prop :=
  ∃ row, s.drafts.find? draft.id.val = some row ∧ row.revision + 1 = draft.revision

-- the store after an update that the optimistic lock has let through
def updated (s : Store) (draft : RouteDraft) : Store where
  drafts := s.drafts.updateWhere
    (fun row => decide (row.id = draft.id.val) && decide ((row.revision : Int) = draft.revision - 1))
    (setDraft draft) (id_setDraft draft)
  draftOperations := writeOperations draft s.draftOperations

-- every operation belongs to a draft, which a foreign key sees to
def Referential (s : Store) : Prop :=
  ∀ k row, s.draftOperations.find? k = some row → (s.drafts.find? row.draftId).isSome = true

variable {s s' : Store} {draft draft' : RouteDraft} {row : DraftRow} {k : Uuid}

instance : Decidable (Unlocked s draft) :=
  match h : s.drafts.find? draft.id.val with
  | none => .isFalse (by simp [Unlocked, h])
  | some row => decidable_of_iff (row.revision + 1 = draft.revision) (by simp [Unlocked, h])

@[simp]
theorem run_findById (id : RouteDraftId) (s : Store) : (findById id).run s = .ok (loaded s id) s := by
  unfold findById loaded
  simp only [EStateM.run_bind, EStateM.run_get]
  cases h : s.drafts.find? id.val with
  | none => rfl
  | some row =>
    have : row.id = id.val := Sql.Table.key_of_find? h
    rw [← this]
    rfl

@[simp]
theorem run_findByOperationId (operationId : OperationId) (s : Store)
    : (findByOperationId operationId).run s
        = .ok ((s.draftOperations.find? operationId.val).map fun row => ⟨row.draftId⟩) s := by
  rfl

-- the draft that is found, if there is one, is read from the store as it is
theorem run_findActiveByActivity (activityId : ActivityCatalog.ActivityId)
    (ownerId : Identity.UserId) (s : Store)
    : ∃ found, (findActiveByActivity activityId ownerId).run s = .ok found s
        ∧ (found = none ↔ ∀ row ∈ s.drafts.rows,
          ¬(row.activityId = activityId.val ∧ row.ownerId = ownerId.val ∧ row.state = "active")) := by
  unfold findActiveByActivity
  simp only [EStateM.run_bind, EStateM.run_get]
  cases hfind : s.drafts.rows.find? fun row =>
      decide (row.activityId = activityId.val ∧ row.ownerId = ownerId.val ∧ row.state = "active") with
  | none =>
    refine ⟨none, rfl, ?_⟩
    rw [List.find?_eq_none] at hfind
    simpa using hfind
  | some row =>
    refine ⟨some (draftOfRows row (selectOperations s row.id)), rfl, ?_⟩
    have hmatching := List.find?_some hfind
    rw [decide_eq_true_eq] at hmatching
    simp only [reduceCtorEq, false_iff]
    intro h
    exact h row (List.mem_of_find?_eq_some hfind) hmatching

theorem id_of_loaded {id : RouteDraftId} (h : loaded s id = some draft) : draft.id = id := by
  simp only [loaded, Option.map_eq_some_iff] at h
  obtain ⟨row, hrow, rfl⟩ := h
  have : row.id = id.val := Sql.Table.key_of_find? hrow
  simp [draftOfRows, this]

theorem count_locked_eq_zero_iff
    : s.drafts.count (fun row => decide (row.id = draft.id.val)
          && decide ((row.revision : Int) = draft.revision - 1)) = 0
        ↔
      ¬Unlocked s draft := by
  rw [Sql.Table.count_eq_zero_iff, Unlocked]
  constructor
  . rintro h ⟨row, hrow, hrevision⟩
    have hid : row.id = draft.id.val := Sql.Table.key_of_find? hrow
    have := h _ row hrow
    simp only [hid, decide_true, Bool.true_and, decide_eq_false_iff_not] at this
    omega
  . intro h k row hrow
    have hk : row.id = k := Sql.Table.key_of_find? hrow
    simp only [Bool.and_eq_false_iff, decide_eq_false_iff_not]
    by_cases hid : row.id = draft.id.val
    . apply Or.inr
      intro hrevision
      apply h
      refine ⟨row, ?_, by omega⟩
      rw [← hid, hk]
      exact hrow
    . exact .inl hid

theorem run_update (draft : RouteDraft) (s : Store)
    : (update draft).run s
        =
      if Unlocked s draft then
        .ok () (updated s draft)
      else if draft.revision = 0 then
        .error .panic s
      else
        .error (.err (.revisionConflict (draft.revision - 1) draft.revision)) s := by
  unfold update
  rw [run_transaction]
  simp only [EStateM.run_bind, EStateM.run_get, EStateM.run_set]
  by_cases h : Unlocked s draft
  . have : ¬ s.drafts.count (fun row => decide (row.id = draft.id.val)
        && decide ((row.revision : Int) = draft.revision - 1)) = 0 := by
      rw [count_locked_eq_zero_iff, not_not]
      exact h
    simp [this, h, updated]
  . rw [if_neg h, if_pos (count_locked_eq_zero_iff.mpr h)]
    by_cases hzero : draft.revision = 0
    . simp [hzero, subUsize]
    . have : 1 ≤ draft.revision := by omega
      simp [hzero, run_subUsize this]

theorem run_save (h : draft.appliedOperations = []) (s : Store)
    : (save draft).run s
        =
      match s.drafts.insert? (rowOfDraft draft) with
      | some drafts => .ok () { s with drafts }
      | none => .error (.err (duplicateKey "drafts_pkey")) s := by
  unfold save
  rw [run_transaction]
  simp only [EStateM.run_bind, EStateM.run_get]
  cases s.drafts.insert? (rowOfDraft draft) with
  | none => simp
  | some drafts => simp [h, operationRows]

/--
A draft is saved under an id that no draft and, by the foreign key, no operation has had.
-/
theorem eq_of_save (hreferential : Referential s) (h : draft.appliedOperations = [])
    (hsave : (save draft).run s = .ok () s')
    : s'.draftOperations = s.draftOperations
        ∧ (∀ k, s'.drafts.find? k = if k = draft.id.val then some (rowOfDraft draft) else s.drafts.find? k)
        ∧ ∀ k row, s.draftOperations.find? k = some row → row.draftId ≠ draft.id.val := by
  rw [run_save h] at hsave
  split at hsave
  . next drafts hinsert =>
    injection hsave with _ hs
    subst hs
    refine ⟨rfl, Sql.Table.find?_insert? hinsert, ?_⟩
    intro k row hrow hdraft
    have hfree : s.drafts.find? draft.id.val = none := Sql.Table.find?_eq_none_of_insert? hinsert
    have := hreferential k row hrow
    rw [hdraft, hfree] at this
    cases this
  . cases hsave

theorem find?_drafts_updated (hrow : s.drafts.find? draft.id.val = some row)
    (hrevision : row.revision + 1 = draft.revision) (k : Uuid)
    : (updated s draft).drafts.find? k
        = if k = draft.id.val then some (setDraft draft row) else s.drafts.find? k := by
  have hid : row.id = draft.id.val := Sql.Table.key_of_find? hrow
  rw [updated, Sql.Table.find?_updateWhere]
  split
  . next hk =>
    have hlocked : (row.revision : Int) = draft.revision - 1 := by omega
    simp [hk, hrow, hid, hlocked]
  . next hk =>
    cases hother : s.drafts.find? k with
    | none => rfl
    | some other =>
      have : other.id = k := Sql.Table.key_of_find? hother
      simp [this, hk]

theorem operationId_of_entryOfRow {row : DraftOperationRow} {entry : OperationEntry}
    (h : entryOfRow row = some entry) : row.operationId = entry.id.val := by
  simp only [entryOfRow, Option.pure_def, Option.bind_eq_bind, Option.bind_eq_some_iff,
    Option.some.injEq] at h
  obtain ⟨_, _, rfl⟩ := h
  rfl

theorem operations_draftOfRows (row : DraftRow) (opRows : List DraftOperationRow)
    : (draftOfRows row opRows).operations.Perm (opRows.filterMap entryOfRow) := by
  simp only [RouteDraft.operations, draftOfRows]
  rw [← List.filterMap_append]
  apply List.Perm.filterMap
  apply List.perm_append_comm.trans
  apply List.filter_append_perm

theorem operations_of_loaded {id : RouteDraftId} (h : loaded s id = some draft)
    : draft.operations.Perm ((selectOperations s id.val).filterMap entryOfRow) := by
  simp only [loaded, Option.map_eq_some_iff] at h
  obtain ⟨row, _, rfl⟩ := h
  apply operations_draftOfRows

theorem row_of_loaded {id : RouteDraftId} {entry : OperationEntry} (h : loaded s id = some draft)
    (hmem : entry ∈ draft.operations)
    : ∃ row, s.draftOperations.find? entry.id.val = some row ∧ row.draftId = id.val
        ∧ entryOfRow row = some entry := by
  rw [(operations_of_loaded h).mem_iff, List.mem_filterMap] at hmem
  obtain ⟨row, hrow, hentry⟩ := hmem
  rw [selectOperations, Sql.Table.mem_selectOrdered] at hrow
  rw [operationId_of_entryOfRow hentry, decide_eq_true_eq] at hrow
  exact ⟨row, hrow.1, hrow.2, hentry⟩

theorem distinct_draftOfRows (row : DraftRow) {opRows : List DraftOperationRow}
    (hkeys : (opRows.map (·.operationId)).Nodup)
    : ((draftOfRows row opRows).operations.map (·.id)).Nodup := by
  rw [((operations_draftOfRows row opRows).map _).nodup_iff]
  induction opRows with
  | nil => simp
  | cons row rows ih =>
    rw [List.map_cons, List.nodup_cons] at hkeys
    rw [List.filterMap_cons]
    cases hentry : entryOfRow row with
    | none => exact ih hkeys.2
    | some entry =>
      simp only [List.map_cons, List.nodup_cons]
      refine ⟨?_, ih hkeys.2⟩
      intro hmem
      apply hkeys.1
      obtain ⟨other, hother, hid⟩ := List.mem_map.mp hmem
      obtain ⟨otherRow, hmem, hotherRow⟩ := List.mem_filterMap.mp hother
      rw [operationId_of_entryOfRow hentry, ← hid, ← operationId_of_entryOfRow hotherRow]
      exact List.mem_map_of_mem hmem

theorem nodup_selectOperations (s : Store) (draftId : Uuid)
    : ((selectOperations s draftId).map (·.operationId)).Nodup :=
  s.draftOperations.nodup_key_selectOrdered (fun row => row.draftId = draftId) (·.sequenceNumber)

theorem distinct_of_loaded {id : RouteDraftId} (h : loaded s id = some draft)
    : (draft.operations.map (·.id)).Nodup := by
  simp only [loaded, Option.map_eq_some_iff] at h
  obtain ⟨row, _, rfl⟩ := h
  exact distinct_draftOfRows row (nodup_selectOperations s id.val)

end PgRouteDraftRepository

structure OperationEntry.Finite (entry : OperationEntry) : Prop where
  operation : entry.operation.Finite
  geometryBefore : AllPoints RoutePoint.Finite entry.geometryBefore

-- the points that a command brings in are finite
def Command.Finite : Command → Prop
  | .apply _ operation => operation.Finite
  | .reset baseGeometry => AllPoints RoutePoint.Finite baseGeometry
  | .undo | .redo => True

structure FiniteDraft (draft : RouteDraft) : Prop where
  geometry : AllPoints RoutePoint.Finite draft.geometry
  operations : ∀ entry ∈ draft.operations, entry.Finite

namespace PgRouteDraftRepository

variable {s : Store} {draft draft' : RouteDraft} {id : RouteDraftId} {isUndone : Bool}

theorem parseState_stateToStr (state : DraftState) : parseState (stateToStr state) = state := by
  cases state with
  | active | published | discarded => rfl

theorem jsonToGeometry_geometryToJson {g : Geometry} (h : AllPoints RoutePoint.Finite g)
    : jsonToGeometry (geometryToJson g) = g := by
  have hread : (geometryToJson g).toList? (Json.toList? RoutePoint.fromJson) = some g := by
    apply Json.toList?_ofList
    intro segment hsegment
    apply Json.toList?_ofList
    intro point hpoint
    exact RoutePoint.fromJson_toJson (h segment hsegment point hpoint)
  rw [jsonToGeometry, hread, Option.getD_some]

theorem entryOfRow_operationRow {entry : OperationEntry} (h : entry.Finite) (position : Nat)
    : entryOfRow (operationRow id isUndone entry position) = some entry := by
  have hstored : storedOperation (operationData entry)
      = (entry.operation.toJson, geometryToJson entry.geometryBefore) := by
    simp [storedOperation, operationData, Json.structFields, List.lookup_cons]
  simp [entryOfRow, operationRow, hstored, RouteOperation.fromJson_toJson h.operation,
    jsonToGeometry_geometryToJson h.geometryBefore]

theorem supplies_of_finite {operation : RouteOperation} (h : operation.Finite)
    : operation.Supplies RoutePoint.Finite := by
  cases operation with
  | movePoint _ _ newPosition =>
    intro point hpoint
    exact ⟨h, hpoint.elevation⟩
  | addPoint => exact h
  | replaceSection => exact h
  | deletePoint | deleteSection | splitSegment | joinSegments => trivial

theorem finite_of_edited {command : Command} {now : Timestamp} (hfinite : FiniteDraft draft)
    (hcommand : Command.Finite command) (hedited : Edited now draft command draft')
    : FiniteDraft draft' := by
  have hsnapshots : RouteDraft.Snapshots (AllPoints RoutePoint.Finite) draft' := by
    apply RouteDraft.Snapshots.edited ⟨hfinite.geometry, fun e he => (hfinite.operations e he).geometryBefore⟩
      _ _ hedited
    . rintro id operation g rfl hexec
      exact (effect_of_executeOperation hexec).allPoints (supplies_of_finite hcommand) hfinite.geometry
    . rintro g rfl _
      exact hcommand
  refine ⟨hsnapshots.geometry, ?_⟩
  intro entry hmem
  refine ⟨?_, hsnapshots.snapshots entry hmem⟩
  cases RouteDraft.source_of_edited hedited hmem with
  | inl hold =>
    obtain ⟨old, holdMem, _, hoperation⟩ := hold
    rw [← hoperation]
    exact (hfinite.operations old holdMem).operation
  | inr hnew =>
    rw [hnew] at hcommand
    exact hcommand

theorem allPoints_jsonToGeometry (value : Json)
    : AllPoints RoutePoint.Finite (jsonToGeometry value) := by
  unfold jsonToGeometry
  cases h : value.toList? (Json.toList? RoutePoint.fromJson) with
  | none =>
    intro segment hsegment
    simp at hsegment
  | some g =>
    intro segment hsegment point hpoint
    obtain ⟨item, hitem⟩ := Json.mem_of_toList? h segment hsegment
    obtain ⟨_, hread⟩ := Json.mem_of_toList? hitem point hpoint
    exact RoutePoint.finite_of_fromJson hread

theorem finite_of_entryOfRow {row : DraftOperationRow} {entry : OperationEntry}
    (h : entryOfRow row = some entry) : entry.Finite := by
  simp only [entryOfRow, Option.pure_def, Option.bind_eq_bind, Option.bind_eq_some_iff,
    Option.some.injEq] at h
  obtain ⟨operation, hread, rfl⟩ := h
  exact ⟨RouteOperation.finite_of_fromJson hread, allPoints_jsonToGeometry _⟩

theorem finite_of_draftOfRows (row : DraftRow) (opRows : List DraftOperationRow)
    : FiniteDraft (draftOfRows row opRows) where
  geometry := allPoints_jsonToGeometry row.geometry
  operations := by
    intro entry hmem
    cases List.mem_append.mp hmem with
    | inl h =>
      obtain ⟨_, _, hentry⟩ := List.mem_filterMap.mp h
      exact finite_of_entryOfRow hentry
    | inr h =>
      obtain ⟨_, _, hentry⟩ := List.mem_filterMap.mp h
      exact finite_of_entryOfRow hentry

theorem finite_of_loaded (h : loaded s id = some draft) : FiniteDraft draft := by
  rw [loaded, Option.map_eq_some_iff] at h
  obtain ⟨row, _, rfl⟩ := h
  exact finite_of_draftOfRows row _

end PgRouteDraftRepository

end RouteEditing
