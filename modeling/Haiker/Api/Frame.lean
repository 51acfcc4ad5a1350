import Haiker.Api.Clients
import Haiker.RouteEditing.Persistence

/-!
This module contains when clients that edit different drafts at the same time leave each other's
drafts alone. Operation ids are looked up before the draft is read, so two clients with the same one
can both get past the lookup.
-/

open Rust
open RouteEditing
open RouteEditing.PgRouteDraftRepository
open Interleaving

namespace Api

variable {ι : Type} [DecidableEq ι]

-- what the client's next step commits concerns the client's draft only
def CommitsFramed (c : Config Store Client ι) (i : ι) : Prop :=
  ∀ draft, Client.committing c.shared (c.clients i) = some draft →
    draft.id = (c.clients i).draftId ∧ Framed c.shared (fire Client.step c i).shared draft

-- the client's next step commits no operation that is stored under another draft
def CommitsOwnIds (c : Config Store Client ι) (i : ι) : Prop :=
  ∀ draft, Client.committing c.shared (c.clients i) = some draft → OwnIds c.shared draft

theorem commitsFramed_iff {c : Config Store Client ι} {i : ι} (h : (c.clients i).Sound)
    : CommitsFramed c i ↔ CommitsOwnIds c i := by
  apply forall_congr'
  intro draft
  apply forall_congr'
  intro hcommit
  have hdistinct := Client.distinct_of_committing h hcommit
  obtain ⟨_, _, _, hlock, _⟩ := Client.of_committing h hcommit
  have hstore : (fire Client.step c i).shared = updated c.shared draft :=
    Client.store_step_of_committing hcommit
  rw [hstore, framed_updated_iff hdistinct hlock]
  constructor
  . intro hframed
    exact hframed.2
  . intro hown
    exact ⟨Client.id_of_committing h hcommit, hown⟩

/--
In every run of clients on any drafts: all commits concern the draft of their client only, exactly if
none of them stores an operation whose id another draft has.
-/
theorem commits_framed_iff_own_ids (c : Config Store Client ι)
    (hwaiting : ∀ i, (c.clients i).Waiting) (schedule : List ι)
    : Along Client.step CommitsFramed c schedule ↔ Along Client.step CommitsOwnIds c schedule := by
  have hsound : Holds (fun _ : Store => True) (fun (_ : ι) _ client => Client.Sound client) c :=
    ⟨trivial, fun i => Client.sound_of_waiting (hwaiting i)⟩
  apply hsound.along_congr
  . intro c i h
    exact commitsFramed_iff (h.2 i)
  . intro _ s client _ h
    exact ⟨trivial, Client.sound_step s h⟩
  . intro _ _ _ _ _ _ _ _ h
    exact h

-- a second draft of the same owner
def sampleSecondDraft : RouteDraft :=
  { RouteDraft.sampleDraft with id := ⟨⟨6⟩⟩, activityId := ⟨⟨7⟩⟩ }

-- both drafts, the second one with an operation already
def sampleTwoDrafts : Store :=
  serve ⟨⟨6⟩⟩ (after (save sampleSecondDraft) sampleStore)
    (sampleContext, .apply ⟨⟨11⟩⟩ (sampleMove 49 0))

-- a client for each draft, both with the operation id 10
def sampleClients : Bool → Client
  | false => ⟨sampleContext, ⟨⟨1⟩⟩, .apply ⟨⟨10⟩⟩ (sampleMove 50 0), .start⟩
  | true => ⟨sampleContext, ⟨⟨6⟩⟩, .apply ⟨⟨10⟩⟩ (sampleMove 50 1), .start⟩

-- both look the operation id up, then one client is served, and the other up to its commit
def sampleSchedule : List Bool :=
  [false, true, false, false, false, false, true, true, true]

theorem commits_framed_iff_own_ids_sampleClients
    : Along Client.step CommitsFramed ⟨sampleTwoDrafts, sampleClients⟩ (sampleSchedule ++ [true])
        ↔
      Along Client.step CommitsOwnIds ⟨sampleTwoDrafts, sampleClients⟩
        (sampleSchedule ++ [true]) := by
  apply commits_framed_iff_own_ids
  intro i
  cases i with
  | false => exact .inl rfl
  | true => exact .inl rfl

-- the stores before and after the last commit
def sampleBefore : Config Store Client Bool :=
  run Client.step ⟨sampleTwoDrafts, sampleClients⟩ sampleSchedule

def sampleAfter : Store := (fire Client.step sampleBefore true).shared

/--
The second client's commit moves the operation of the first draft, and its own operation is not
stored: it is lost when the second draft is read again.
-/
theorem commit_moves_foreign_operation
    : ¬Along Client.step CommitsFramed ⟨sampleTwoDrafts, sampleClients⟩ (sampleSchedule ++ [true])
        ∧ (sampleBefore.shared.draftOperations.find? ⟨10⟩).map
            (fun row => (row.draftId, row.sequenceNumber)) = some (⟨1⟩, 0)
        ∧ (sampleAfter.draftOperations.find? ⟨10⟩).map
            (fun row => (row.draftId, row.sequenceNumber)) = some (⟨1⟩, 1)
        ∧ (loaded sampleAfter ⟨⟨6⟩⟩).map (fun draft => (draft.revision, history draft))
            = some (2, [(⟨11⟩, false)]) := by
  have hbefore : (sampleBefore.shared.draftOperations.find? ⟨10⟩).map
      (fun row => (row.draftId, row.sequenceNumber)) = some (⟨1⟩, 0) := by
    decide
  have hafter : (sampleAfter.draftOperations.find? ⟨10⟩).map
      (fun row => (row.draftId, row.sequenceNumber)) = some (⟨1⟩, 1) := by
    decide
  refine ⟨?_, hbefore, hafter, by decide⟩
  intro h
  have hlast : CommitsFramed sampleBefore true := h.last
  cases hcommit : Client.committing sampleBefore.shared (sampleBefore.clients true) with
  | none =>
    have hsome : (Client.committing sampleBefore.shared (sampleBefore.clients true)).isSome = true := by
      decide
    rw [hcommit] at hsome
    cases hsome
  | some draft =>
    obtain ⟨hid, hframed⟩ := hlast draft hcommit
    have hdraft : (sampleBefore.clients true).draftId = ⟨⟨6⟩⟩ := rfl
    rw [hdraft] at hid
    obtain ⟨row, hrow, hposition⟩ := Option.map_eq_some_iff.mp hbefore
    rw [Prod.mk.injEq] at hposition
    have hother : row.draftId ≠ draft.id.val := by
      rw [hposition.1, hid]
      decide
    have hsame := (hframed.operations ⟨10⟩ row hother).mpr hrow
    rw [← sampleAfter] at hsame
    rw [hsame, Option.map_some, hposition.2] at hafter
    simp at hafter

end Api
