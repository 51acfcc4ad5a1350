import Haiker.Api.Lemmas.RouteEditing
import Haiker.RouteEditing.Persistence

/-!
This module contains what becomes of a request to discard a draft. The discarded draft keeps its
revision, but an update takes the revision it is given for one above the stored one.
-/

open Rust
open RouteEditing
open RouteEditing.PgRouteDraftRepository

namespace Api

-- deleting the draft succeeds and leaves it in the store as a discarded one
def DeleteDiscards (context : Context) (draftId : RouteDraftId) (s : Store) : Prop :=
  ∃ s' row row', (deleteDraft context draftId).run s = .ok () s'
    ∧ s.drafts.find? draftId.val = some row ∧ s'.drafts.find? draftId.val = some row'
    ∧ row'.state = stateToStr .discarded ∧ row'.geometry = row.geometry

variable {context : Context} {draftId : RouteDraftId} {draft : RouteDraft} {s : Store}

theorem edit_delete (h : draft.state = .active)
    : EditRequest.edit context draft .delete
        = .ok { draft with state := .discarded, updatedAt := context.now } := by
  rw [EditRequest.edit]
  apply domain_of_run
  exact RouteDraft.run_discard h

/--
A request to delete an active draft never succeeds. It panics on a draft that was not edited yet, and
meets a conflict on every other one.
-/
theorem deleteDraft_never_discards (hloaded : loaded s draftId = some draft)
    (hactive : draft.state = .active) (howner : draft.ownerId = context.actor)
    : ¬DeleteDiscards context draftId s
        ∧ (deleteDraft context draftId).run s
            =
          if draft.revision = 0 then
            .error .panic s
          else
            .error (.err (routeEditingErrorToApiError
              (.revisionConflict (draft.revision - 1) draft.revision))) s := by
  have hlock : ¬Unlocked s { draft with state := .discarded, updatedAt := context.now } := by
    apply not_unlocked_of_loaded hloaded
    . have hid := id_of_loaded hloaded
      exact hid
    . rfl
  have hrun : (deleteDraft context draftId).run s
      = if draft.revision = 0 then
          .error .panic s
        else
          .error (.err (routeEditingErrorToApiError
            (.revisionConflict (draft.revision - 1) draft.revision))) s := by
    have hedit := run_editDraft_of_edit hloaded howner (edit_delete hactive)
    rw [if_neg hlock] at hedit
    unfold deleteDraft
    rw [EStateM.run_bind, hedit]
    split_ifs
    . rfl
    . rfl
  refine ⟨?_, hrun⟩
  rintro ⟨s', row, row', hok, _⟩
  rw [hrun] at hok
  split at hok
  . cases hok
  . cases hok

theorem deleteDraft_never_discards_sampleDraft
    : ¬DeleteDiscards sampleContext ⟨⟨1⟩⟩ sampleStore
        ∧ (deleteDraft sampleContext ⟨⟨1⟩⟩).run sampleStore = .error .panic sampleStore := by
  apply @deleteDraft_never_discards sampleContext ⟨⟨1⟩⟩ RouteDraft.sampleDraft sampleStore
  . rfl
  . rfl
  . rfl

-- the sample draft after one edit
def sampleEditedStore : Store :=
  after (postApplyOperation sampleContext ⟨⟨1⟩⟩ ⟨⟨10⟩⟩ (sampleMove 50 0)) sampleStore

/--
The owner cannot discard the draft, neither as it was created nor after an edit, and asking for a new
draft of the activity gives the old one again.
-/
theorem sampleDraft_not_discarded
    : outcome (deleteDraft sampleContext ⟨⟨1⟩⟩) sampleStore = .error .panic
        ∧ outcome (deleteDraft sampleContext ⟨⟨1⟩⟩) sampleEditedStore
            = .error (.err (routeEditingErrorToApiError (.revisionConflict 0 1)))
        ∧ ¬DeleteDiscards sampleContext ⟨⟨1⟩⟩ sampleStore
        ∧ ¬DeleteDiscards sampleContext ⟨⟨1⟩⟩ sampleEditedStore
        ∧ (outcome (postCreateDraft sampleContext ⟨⟨5⟩⟩ ⟨⟨2⟩⟩ ⟨[], none⟩)
            (after (deleteDraft sampleContext ⟨⟨1⟩⟩) sampleEditedStore)).toOption.map (·.id)
              = some ⟨1⟩ := by
  have hnew : outcome (deleteDraft sampleContext ⟨⟨1⟩⟩) sampleStore = .error .panic := rfl
  have hedited : outcome (deleteDraft sampleContext ⟨⟨1⟩⟩) sampleEditedStore
      = .error (.err (routeEditingErrorToApiError (.revisionConflict 0 1))) := by
    decide
  refine ⟨hnew, hedited, ?_, ?_, by decide⟩
  . rintro ⟨s', row, row', hok, _⟩
    rw [outcome_of_run_ok hok] at hnew
    cases hnew
  . rintro ⟨s', row, row', hok, _⟩
    rw [outcome_of_run_ok hok] at hedited
    cases hedited

end Api
