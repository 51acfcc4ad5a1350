import Haiker.RouteEditing.WellFormed

/-!
This module contains what is left of a draft by the calls that have no effect: those that fail, and the
application of an operation that has been applied before.
-/

open Rust

namespace RouteEditing

namespace RouteDraft

variable {now : Timestamp} {draft draft' : RouteDraft}

theorem run_publish_error {e : Fault RouteEditingError} (h : (publish now).run draft = .error e draft')
    : draft' = draft := by
  by_cases hactive : draft.state = .active
  . rw [run_publish hactive] at h
    cases h
  . rw [run_publish_of_not_active hactive] at h
    cases h
    rfl

theorem run_discard_error {e : Fault RouteEditingError} (h : (discard now).run draft = .error e draft')
    : draft' = draft := by
  by_cases hactive : draft.state = .active
  . rw [run_discard hactive] at h
    cases h
  . rw [run_discard_of_not_active hactive] at h
    cases h
    rfl

theorem run_call_error {call : Call} {e : Fault RouteEditingError}
    (h : (call.exec now).run draft = .error e draft') : draft' = draft := by
  cases call with
  | edit expectedRevision command => exact Command.run_exec_error h
  | publish => exact run_publish_error h
  | discard => exact run_discard_error h

theorem run_applyOperation_of_applied {operationId : OperationId} (operation : RouteOperation)
    (hactive : draft.state = .active) (hmem : operationId ∈ draft.appliedOperations.map (·.id))
    : (applyOperation now operationId operation draft.revision).run draft = .ok () draft := by
  rw [run_applyOperation operationId operation hactive, if_pos hmem]

/--
A call that fails leaves the draft as it is, and so does an operation that the active draft has already.
-/
theorem unchanged_of_failure (draft : RouteDraft) (now : Timestamp)
    : (∀ (call : Call) e draft', (call.exec now).run draft = .error e draft' → draft' = draft)
        ∧ ∀ operationId operation, draft.state = .active →
          operationId ∈ draft.appliedOperations.map (·.id) →
            (applyOperation now operationId operation draft.revision).run draft = .ok () draft := by
  constructor
  . intro call e draft' h
    exact run_call_error h
  . intro operationId operation hactive hmem
    exact run_applyOperation_of_applied operation hactive hmem

theorem unchanged_of_failure_sampleDraft
    : ∃ e draft', (Call.exec 2000 (.edit 7 .undo)).run sampleDraft = .error e draft'
        ∧ draft' = sampleDraft := by
  have hrun : (Call.exec 2000 (.edit 7 .undo)).run sampleDraft
      = .error (.err (.revisionConflict 7 0)) sampleDraft :=
    Command.run_exec_of_conflict .undo rfl (by decide)
  exact ⟨_, _, hrun, (unchanged_of_failure sampleDraft 2000).1 _ _ _ hrun⟩

-- a draft with an operation that has been published
def samplePublished : RouteDraft := { sampleDraft with
  revision := 1
  geometry := [[samplePoint 46, samplePoint 48]]
  appliedOperations := [{
    id := ⟨⟨10⟩⟩
    operation := .deletePoint ⟨0⟩ ⟨1⟩
    geometryBefore := sampleGeometry
  }]
  state := .published
}

theorem wellFormed_samplePublished : samplePublished.WellFormed where
  geometry := by
    apply ValidGeometry.of_built
    . rw [← validateGeometry_eq_ok_iff]
      rfl
    . decide
  snapshots := by
    intro entry hmem
    obtain rfl := List.mem_singleton.mp hmem
    exact wellFormed_sampleDraft.geometry
  distinct := by decide

/--
A draft that is no longer active refuses every operation, also those that it has.
-/
theorem applied_refused_when_published
    : ¬∀ draft : RouteDraft, draft.WellFormed → ∀ now operationId operation,
        operationId ∈ draft.appliedOperations.map (·.id) →
          (applyOperation now operationId operation draft.revision).run draft = .ok () draft := by
  intro h
  have hok := h samplePublished wellFormed_samplePublished 2000 ⟨⟨10⟩⟩ (.deletePoint ⟨0⟩ ⟨1⟩) (by decide)
  have hrefused : (Command.exec 2000 1 (.apply ⟨⟨10⟩⟩ (.deletePoint ⟨0⟩ ⟨1⟩))).run samplePublished = _ :=
    Command.run_exec_of_not_active _ (by decide)
  cases hok.symm.trans hrefused

end RouteDraft

end RouteEditing
