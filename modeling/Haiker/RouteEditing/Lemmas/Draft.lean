import Haiker.RouteEditing.Draft
import Haiker.RouteEditing.Lemmas.Geometry

/-!
This module contains what each method of the aggregate does to a draft: a failing one leaves the
draft as it was, a successful one has the effect given here.
-/

open Rust

namespace RouteEditing

theorem forIn_segments_eq_ok_iff {g : Geometry}
    : (forIn g PUnit.unit fun segment _ =>
        if segment.length < 2 then do
          throw (RouteEditingError.insufficientPoints 2 segment.length)
          pure (ForInStep.yield PUnit.unit)
        else (pure (ForInStep.yield PUnit.unit) : Except RouteEditingError (ForInStep PUnit)))
          = .ok PUnit.unit
        ↔
      ∀ segment ∈ g, 2 ≤ segment.length := by
  induction g with
  | nil => simp [pure, Except.pure]
  | cons segment g ih =>
    rw [List.forIn_cons]
    by_cases hlen : segment.length < 2
    . simp [hlen, throw, throwThe, MonadExceptOf.throw, bind, Except.bind]
    . rw [if_neg hlen]
      have : 2 ≤ segment.length := by omega
      simpa [this] using ih

theorem validateGeometry_eq_ok_iff {g : Geometry} : validateGeometry g = .ok () ↔ WellShaped g := by
  unfold validateGeometry
  cases g with
  | nil =>
    constructor
    . intro h
      simp [throw, throwThe, MonadExceptOf.throw, bind, Except.bind] at h
    . intro h
      exact absurd rfl h.nonempty
  | cons segment g =>
    have hok : ∀ x : Except RouteEditingError PUnit, (x >>= fun _ => pure ()) = .ok () ↔ x = .ok () := by
      intro x
      cases x with
      | error e => simp [bind, Except.bind]
      | ok _ => simp [bind, Except.bind, pure, Except.pure]
    simp only [List.isEmpty_cons, Bool.false_eq_true, ↓reduceIte]
    rw [hok, forIn_segments_eq_ok_iff]
    constructor
    . intro h
      exact ⟨by simp, h⟩
    . intro h
      exact h.two_le

theorem run_onGeometry (operation : RouteOperation) (draft : RouteDraft)
    : (onGeometry (executeOperation operation)).run draft
        =
      match (executeOperation operation).run draft.geometry with
      | .ok _ geometry => .ok () { draft with geometry }
      | .error e _ => .error e draft := by
  rw [EStateM.run, onGeometry]
  cases h : (executeOperation operation).run draft.geometry with
  | ok _ geometry => rfl
  | error e geometry => rw [executeOperation_error h]

variable {now : Timestamp} {draft draft' : RouteDraft} {expectedRevision : Nat}

namespace RouteDraft

/-
The drafts that the methods leave when they succeed.
-/

def afterApply (draft : RouteDraft) (now : Timestamp) (operationId : OperationId)
    (operation : RouteOperation) (geometry : Geometry) : RouteDraft := { draft with
  geometry
  appliedOperations := draft.appliedOperations
    ++ [{ id := operationId, operation, geometryBefore := draft.geometry }]
  undoneOperations := []
  revision := draft.revision + 1
  updatedAt := now
}

def afterUndo (draft : RouteDraft) (now : Timestamp) (entry : OperationEntry) : RouteDraft :=
  { draft with
    geometry := entry.geometryBefore
    appliedOperations := draft.appliedOperations.dropLast
    undoneOperations := draft.undoneOperations ++ [{ entry with geometryBefore := draft.geometry }]
    revision := draft.revision + 1
    updatedAt := now
  }

def afterRedo (draft : RouteDraft) (now : Timestamp) (entry : OperationEntry) : RouteDraft :=
  { draft with
    geometry := entry.geometryBefore
    appliedOperations := draft.appliedOperations ++ [{ entry with geometryBefore := draft.geometry }]
    undoneOperations := draft.undoneOperations.dropLast
    revision := draft.revision + 1
    updatedAt := now
  }

def afterReset (draft : RouteDraft) (now : Timestamp) (baseGeometry : Geometry) : RouteDraft :=
  { draft with
    geometry := baseGeometry
    appliedOperations := []
    undoneOperations := []
    revision := draft.revision + 1
    updatedAt := now
  }

theorem run_checkActive (h : draft.state = .active) : checkActive.run draft = .ok () draft := by
  simp [checkActive, h]

theorem run_checkActive_of_ne (h : draft.state ≠ .active)
    : checkActive.run draft = .error (.err .draftNotActive) draft := by
  simp [checkActive, h]

theorem run_checkRevision : (checkRevision draft.revision).run draft = .ok () draft := by
  simp [checkRevision]

theorem run_checkRevision_of_ne (h : expectedRevision ≠ draft.revision)
    : (checkRevision expectedRevision).run draft
        = .error (.err (.revisionConflict expectedRevision draft.revision)) draft := by
  simp [checkRevision, h]

theorem run_applyOperation (operationId : OperationId) (operation : RouteOperation)
    (h : draft.state = .active)
    : (applyOperation now operationId operation draft.revision).run draft
        =
      if operationId ∈ draft.appliedOperations.map (·.id) then
        .ok () draft
      else
        match (executeOperation operation).run draft.geometry with
        | .ok _ geometry => .ok () (draft.afterApply now operationId operation geometry)
        | .error e _ => .error e draft := by
  unfold applyOperation
  simp only [EStateM.run_bind, run_checkActive h, run_checkRevision, EStateM.run_get]
  have hany : (draft.appliedOperations.any fun e => decide (e.id = operationId)) = true
      ↔ operationId ∈ draft.appliedOperations.map (·.id) := by
    simp
  by_cases hmem : operationId ∈ draft.appliedOperations.map (·.id)
  . rw [if_pos (hany.mpr hmem), if_pos hmem]
    simp
  . rw [if_neg (fun h => hmem (hany.mp h)), if_neg hmem]
    simp only [EStateM.run_bind, EStateM.run_get, run_onGeometry]
    cases hexec : (executeOperation operation).run draft.geometry with
    | ok _ geometry => simp [touch, afterApply]
    | error e _ => simp

theorem run_undo (h : draft.state = .active)
    : (undo now draft.revision).run draft
        =
      match draft.appliedOperations.getLast? with
      | none => .error (.err .nothingToUndo) draft
      | some entry => .ok () (draft.afterUndo now entry) := by
  unfold undo
  simp only [EStateM.run_bind, run_checkActive h, run_checkRevision, EStateM.run_get]
  cases draft.appliedOperations.getLast? with
  | none => simp
  | some entry => simp [touch, afterUndo]

theorem run_redo (h : draft.state = .active)
    : (redo now draft.revision).run draft
        =
      match draft.undoneOperations.getLast? with
      | none => .error (.err .nothingToRedo) draft
      | some entry => .ok () (draft.afterRedo now entry) := by
  unfold redo
  simp only [EStateM.run_bind, run_checkActive h, run_checkRevision, EStateM.run_get]
  cases draft.undoneOperations.getLast? with
  | none => simp
  | some entry => simp [touch, afterRedo]

theorem run_reset (baseGeometry : Geometry) (h : draft.state = .active)
    : (reset now draft.revision baseGeometry).run draft
        =
      match validateGeometry baseGeometry with
      | .ok _ => .ok () (draft.afterReset now baseGeometry)
      | .error e => .error (.err e) draft := by
  unfold reset
  simp only [EStateM.run_bind, run_checkActive h, run_checkRevision]
  cases validateGeometry baseGeometry with
  | ok _ => simp [ofExcept, touch, afterReset]
  | error e => simp [ofExcept]

theorem run_publish (h : draft.state = .active)
    : (publish now).run draft = .ok () { draft with state := .published, updatedAt := now } := by
  simp [publish, run_checkActive h]

theorem run_publish_of_not_active (h : draft.state ≠ .active)
    : (publish now).run draft = .error (.err .draftNotActive) draft := by
  simp [publish, run_checkActive_of_ne h]

theorem run_discard (h : draft.state = .active)
    : (discard now).run draft = .ok () { draft with state := .discarded, updatedAt := now } := by
  simp [discard, run_checkActive h]

theorem run_discard_of_not_active (h : draft.state ≠ .active)
    : (discard now).run draft = .error (.err .draftNotActive) draft := by
  simp [discard, run_checkActive_of_ne h]

end RouteDraft

namespace Command

open RouteDraft

theorem run_exec_of_not_active (command : Command) (h : draft.state ≠ .active)
    : (command.exec now expectedRevision).run draft = .error (.err .draftNotActive) draft := by
  cases command with
  | apply | undo | redo | reset =>
    simp [exec, applyOperation, RouteDraft.undo, RouteDraft.redo, RouteDraft.reset,
      run_checkActive_of_ne h]

theorem run_exec_of_conflict (command : Command) (h : draft.state = .active)
    (hrevision : expectedRevision ≠ draft.revision)
    : (command.exec now expectedRevision).run draft
        = .error (.err (.revisionConflict expectedRevision draft.revision)) draft := by
  cases command with
  | apply | undo | redo | reset =>
    simp [exec, applyOperation, RouteDraft.undo, RouteDraft.redo, RouteDraft.reset,
      run_checkActive h, run_checkRevision_of_ne hrevision]

end Command

/--
What a successful command has done to the draft.
-/
inductive Edited (now : Timestamp) (draft : RouteDraft) : Command → RouteDraft → Prop where
  | replayed {operationId operation}
      (hmem : operationId ∈ draft.appliedOperations.map (·.id))
      : Edited now draft (.apply operationId operation) draft
  | applied {operationId operation geometry}
      (hfresh : operationId ∉ draft.appliedOperations.map (·.id))
      (hexec : (executeOperation operation).run draft.geometry = .ok () geometry)
      : Edited now draft (.apply operationId operation)
          (draft.afterApply now operationId operation geometry)
  | undone {entry} (hlast : draft.appliedOperations.getLast? = some entry)
      : Edited now draft .undo (draft.afterUndo now entry)
  | redone {entry} (hlast : draft.undoneOperations.getLast? = some entry)
      : Edited now draft .redo (draft.afterRedo now entry)
  | reset {baseGeometry} (hbase : validateGeometry baseGeometry = .ok ())
      : Edited now draft (.reset baseGeometry) (draft.afterReset now baseGeometry)

namespace Command

open RouteDraft

theorem exec_cases (now : Timestamp) (expectedRevision : Nat) (command : Command)
    (draft : RouteDraft)
    : (∃ e, (command.exec now expectedRevision).run draft = .error e draft)
        ∨
      draft.state = .active ∧ expectedRevision = draft.revision
        ∧ ∃ draft', Edited now draft command draft'
          ∧ (command.exec now expectedRevision).run draft = .ok () draft' := by
  by_cases hactive : draft.state = .active
  . by_cases hrevision : expectedRevision = draft.revision
    . subst hrevision
      cases command with
      | apply operationId operation =>
        simp only [exec]
        rw [run_applyOperation operationId operation hactive]
        split
        . next hmem => exact .inr ⟨hactive, trivial, _, .replayed hmem, rfl⟩
        . next hfresh =>
          cases hexec : (executeOperation operation).run draft.geometry with
          | ok _ geometry => exact .inr ⟨hactive, trivial, _, .applied hfresh hexec, rfl⟩
          | error e _ => exact .inl ⟨e, rfl⟩
      | undo =>
        simp only [exec]
        rw [run_undo hactive]
        cases hlast : draft.appliedOperations.getLast? with
        | none => exact .inl ⟨_, rfl⟩
        | some entry => exact .inr ⟨hactive, trivial, _, .undone hlast, rfl⟩
      | redo =>
        simp only [exec]
        rw [run_redo hactive]
        cases hlast : draft.undoneOperations.getLast? with
        | none => exact .inl ⟨_, rfl⟩
        | some entry => exact .inr ⟨hactive, trivial, _, .redone hlast, rfl⟩
      | reset baseGeometry =>
        simp only [exec]
        rw [run_reset baseGeometry hactive]
        cases hbase : validateGeometry baseGeometry with
        | ok _ => exact .inr ⟨hactive, trivial, _, .reset hbase, rfl⟩
        | error e => exact .inl ⟨_, rfl⟩
    . exact .inl ⟨_, run_exec_of_conflict command hactive hrevision⟩
  . exact .inl ⟨_, run_exec_of_not_active command hactive⟩

theorem run_exec_error {command : Command} {e : Fault RouteEditingError}
    (h : (command.exec now expectedRevision).run draft = .error e draft') : draft' = draft := by
  cases exec_cases now expectedRevision command draft with
  | inl herr =>
    obtain ⟨_, herr⟩ := herr
    rw [herr] at h
    injection h with _ h
    exact h.symm
  | inr hok =>
    obtain ⟨_, _, _, _, hok⟩ := hok
    rw [hok] at h
    cases h

theorem edited_of_run_exec {command : Command}
    (h : (command.exec now expectedRevision).run draft = .ok () draft')
    : draft.state = .active ∧ expectedRevision = draft.revision
        ∧ Edited now draft command draft' := by
  cases exec_cases now expectedRevision command draft with
  | inl herr =>
    obtain ⟨_, herr⟩ := herr
    rw [herr] at h
    cases h
  | inr hok =>
    obtain ⟨hactive, hrevision, _, hedited, hok⟩ := hok
    rw [hok] at h
    injection h with _ h
    rw [← h]
    exact ⟨hactive, hrevision, hedited⟩

end Command

namespace Edited

/-
No command touches what identifies a draft, nor its state.
-/

variable {command : Command}

theorem id_eq (h : Edited now draft command draft') : draft'.id = draft.id := by
  cases h with
  | replayed | applied | undone | redone | reset => rfl

theorem ownerId_eq (h : Edited now draft command draft') : draft'.ownerId = draft.ownerId := by
  cases h with
  | replayed | applied | undone | redone | reset => rfl

theorem activityId_eq (h : Edited now draft command draft') : draft'.activityId = draft.activityId := by
  cases h with
  | replayed | applied | undone | redone | reset => rfl

theorem baseRouteVersionId_eq (h : Edited now draft command draft')
    : draft'.baseRouteVersionId = draft.baseRouteVersionId := by
  cases h with
  | replayed | applied | undone | redone | reset => rfl

theorem state_eq (h : Edited now draft command draft') : draft'.state = draft.state := by
  cases h with
  | replayed | applied | undone | redone | reset => rfl

/--
A successful command raises the revision by one, or it is an operation that was applied before.
-/
theorem raised_or_replayed (h : Edited now draft command draft')
    : draft'.revision = draft.revision + 1
        ∨
      draft' = draft ∧ ∃ operationId operation, command = .apply operationId operation
        ∧ operationId ∈ draft.appliedOperations.map (·.id) := by
  cases h with
  | replayed hmem => exact .inr ⟨rfl, _, _, rfl, hmem⟩
  | applied | undone | redone | reset => exact .inl rfl

end Edited

/-
What a command does does not depend on when the draft was made or changed.
-/

def RouteDraft.withoutTimes (draft : RouteDraft) : RouteDraft :=
  { draft with createdAt := 0, updatedAt := 0 }

namespace Command

open RouteDraft

variable {other : RouteDraft}

-- the two results differ in the times of the draft at most
def SameResult (result expected : EStateM.Result (Fault RouteEditingError) RouteDraft Unit) : Prop :=
  match result, expected with
  | .ok _ draft, .ok _ draft' => draft.withoutTimes = draft'.withoutTimes
  | .error e draft, .error e' draft' => e = e' ∧ draft.withoutTimes = draft'.withoutTimes
  | _, _ => False

theorem run_exec_congr (now : Timestamp) (expectedRevision : Nat) (command : Command)
    (h : other.withoutTimes = draft.withoutTimes)
    : SameResult ((command.exec now expectedRevision).run other)
        ((command.exec now expectedRevision).run draft) := by
  simp only [RouteDraft.withoutTimes, RouteDraft.mk.injEq] at h
  obtain ⟨_, _, _, _, hrev, hgeometry, happlied, hundone, hstate, _⟩ := id h
  by_cases hactive : draft.state = .active
  . have hactive' : other.state = .active := hstate.trans hactive
    by_cases hrevision : expectedRevision = draft.revision
    . subst hrevision
      cases command with
      | apply operationId operation =>
        have hother := @run_applyOperation now other operationId operation hactive'
        rw [hrev, happlied, hgeometry] at hother
        simp only [exec]
        rw [hother, run_applyOperation operationId operation hactive]
        split
        . simp [SameResult, withoutTimes, h]
        . split
          . simp [SameResult, withoutTimes, afterApply, h]
          . simp [SameResult, withoutTimes, h]
      | undo =>
        have hother := @run_undo now other hactive'
        rw [hrev, happlied] at hother
        simp only [exec]
        rw [hother, run_undo hactive]
        split
        . simp [SameResult, withoutTimes, h]
        . simp [SameResult, withoutTimes, afterUndo, h]
      | redo =>
        have hother := @run_redo now other hactive'
        rw [hrev, hundone] at hother
        simp only [exec]
        rw [hother, run_redo hactive]
        split
        . simp [SameResult, withoutTimes, h]
        . simp [SameResult, withoutTimes, afterRedo, h]
      | reset baseGeometry =>
        have hother := @run_reset now other baseGeometry hactive'
        rw [hrev] at hother
        simp only [exec]
        rw [hother, run_reset baseGeometry hactive]
        split
        . simp [SameResult, withoutTimes, afterReset, h]
        . simp [SameResult, withoutTimes, h]
    . have hrevision' : expectedRevision ≠ other.revision := by rw [hrev]; exact hrevision
      rw [run_exec_of_conflict command hactive hrevision,
        run_exec_of_conflict command hactive' hrevision']
      simp [SameResult, withoutTimes, h]
  . have hactive' : other.state ≠ .active := by rw [hstate]; exact hactive
    rw [run_exec_of_not_active command hactive, run_exec_of_not_active command hactive']
    simp [SameResult, withoutTimes, h]

end Command

end RouteEditing
