import Haiker.Api.Lemmas.RouteEditing
import Haiker.RouteEditing.Lemmas.Commit

/-!
This module contains requests on one draft that are handled one after the other, and what a sequence
of them can do to the store.
-/

open Rust
open RouteEditing
open RouteEditing.PgRouteDraftRepository

namespace Api

-- what a request leaves, whatever its answer
def serve (draftId : RouteDraftId) (s : Store) : Context × EditRequest → Store
  | (context, .apply operationId body) => after (postApplyOperation context draftId operationId body) s
  | (context, .undo body) => after (postUndo context draftId body) s
  | (context, .redo body) => after (postRedo context draftId body) s
  | (context, .reset body) => after (postReset context draftId body) s
  | (context, .delete) => after (deleteDraft context draftId) s

def serveAll (draftId : RouteDraftId) (s : Store) (requests : List (Context × EditRequest)) : Store :=
  requests.foldl (serve draftId) s

-- the numbers that a request brings in are finite, as all numbers in JSON are
def FiniteRequest (context : Context) : EditRequest → Prop
  | .apply _ body => ∀ operation, body.operation.toDomain = .ok operation → operation.Finite
  | .reset _ => ∀ baseVersionId activityId baseGeometry,
    context.gateways.getRouteVersionGeometry baseVersionId activityId = .ok baseGeometry →
      AllPoints RoutePoint.Finite baseGeometry
  | .undo _ | .redo _ | .delete => True

variable {context : Context} {draftId : RouteDraftId} {request : EditRequest}
  {operationId : OperationId} {body : ApplyOperationRequest} {draft draft' : RouteDraft}
  {s s' s'' : Store} {row : DraftOperationRow}

theorem run_findStored (operationId : OperationId) (s : Store)
    : (repository (findByOperationId operationId)).run s
        = .ok ((s.draftOperations.find? operationId.val).map fun row => ⟨row.draftId⟩) s := by
  rw [repository, run_mapErr, run_findByOperationId]

theorem run_postApply_of_none (h : s.draftOperations.find? operationId.val = none)
    : (postApplyOperation context draftId operationId body).run s
        = (editDraft context draftId (.apply operationId body) >>= fun draft =>
            pure (operationResult draft)).run s := by
  unfold postApplyOperation
  rw [EStateM.run_bind, run_findStored, h]
  rfl

theorem run_postApply_of_some (h : s.draftOperations.find? operationId.val = some row)
    : (postApplyOperation context draftId operationId body).run s
        = (findDraft ⟨row.draftId⟩ >>= fun draft =>
            ofResult (replay operationId body draft)).run s := by
  unfold postApplyOperation
  rw [EStateM.run_bind, run_findStored, h]
  rfl

theorem run_postApply_of_loaded (h : s.draftOperations.find? operationId.val = some row)
    (hloaded : loaded s ⟨row.draftId⟩ = some draft)
    : (postApplyOperation context draftId operationId body).run s
        = (ofResult (replay operationId body draft) : HandlerM OperationResultResponse).run s := by
  rw [run_postApply_of_some h, EStateM.run_bind, run_findDraft_of_loaded hloaded]

theorem after_postApply_of_some (h : s.draftOperations.find? operationId.val = some row)
    : after (postApplyOperation context draftId operationId body) s = s := by
  cases hloaded : loaded s ⟨row.draftId⟩ with
  | none =>
    apply after_of_run_error
    . rw [run_postApply_of_some h, EStateM.run_bind, run_findDraft_of_none hloaded]
  | some draft =>
    cases hreplay : replay operationId body draft with
    | ok answer =>
      apply after_of_run_ok
      . rw [run_postApply_of_loaded h hloaded, hreplay, run_ofResult_ok]
    | error e =>
      apply after_of_run_error
      . rw [run_postApply_of_loaded h hloaded, hreplay, run_ofResult_error]

theorem serve_eq_edit (hnew : ∀ operationId body, request = .apply operationId body →
      s.draftOperations.find? operationId.val = none)
    : serve draftId s (context, request) = after (editDraft context draftId request) s := by
  cases request with
  | apply operationId body =>
    have hnone := hnew operationId body rfl
    rw [serve, ← after_bind_pure _ operationResult]
    unfold after
    rw [run_postApply_of_none hnone]
  | undo body => rw [serve, postUndo, after_bind_pure]
  | redo body => rw [serve, postRedo, after_bind_pure]
  | reset body => rw [serve, postReset, after_bind_pure]
  | delete => exact after_bind_pure (editDraft context draftId .delete) (fun _ => ()) s

/--
A request leaves the store as it was, or it is the edit of a draft that it has loaded. An operation
that it applies was not stored before.
-/
theorem serve_cases (draftId : RouteDraftId) (s : Store) (context : Context) (request : EditRequest)
    : serve draftId s (context, request) = s
        ∨
      ∃ draft draft', loaded s draftId = some draft ∧ request.edit context draft = .ok draft'
        ∧ Unlocked s draft' ∧ serve draftId s (context, request) = updated s draft'
        ∧ ∀ operationId body, request = .apply operationId body →
          s.draftOperations.find? operationId.val = none := by
  by_cases hnew : ∀ operationId body, request = .apply operationId body →
      s.draftOperations.find? operationId.val = none
  . rw [serve_eq_edit hnew]
    rcases editDraft_cases context draftId request s with
      ⟨e, hrun⟩ | ⟨draft, draft', hloaded, _, hedit, hlock, hrun⟩
    . exact .inl (after_of_run_error hrun)
    . exact .inr ⟨draft, draft', hloaded, hedit, hlock, after_of_run_ok hrun, hnew⟩
  . push Not at hnew
    obtain ⟨operationId, body, rfl, hstored⟩ := hnew
    rw [← Option.isSome_iff_ne_none, Option.isSome_iff_exists] at hstored
    obtain ⟨row, hrow⟩ := hstored
    exact .inl (after_postApply_of_some hrow)

theorem unlocked_revision (hlock : Unlocked s draft')
    : ∃ row, s.drafts.find? draft'.id.val = some row ∧ row.revision + 1 = draft'.revision
        ∧ (updated s draft').drafts.find? draft'.id.val = some (setDraft draft' row) := by
  obtain ⟨row, hrow, hrevision⟩ := hlock
  refine ⟨row, hrow, hrevision, ?_⟩
  rw [find?_drafts_updated hrow hrevision, if_pos rfl]

theorem finite_of_asks {command : Command} {expectedRevision : Nat} (h : FiniteRequest context request)
    (hasks : Asks context draft request expectedRevision command) : command.Finite := by
  cases hasks with
  | apply hoperation => exact h _ hoperation
  | undo => trivial
  | redo => trivial
  | reset _ hgeometry => exact h _ _ _ hgeometry

theorem finite_of_edit (h : FiniteRequest context request) (hfinite : FiniteDraft draft)
    (hedit : request.edit context draft = .ok draft') : FiniteDraft draft' := by
  obtain ⟨_, ⟨_, hasks, hedited⟩ | ⟨_, rfl⟩⟩ := edit_cases hedit
  . exact finite_of_edited hfinite (finite_of_asks h hasks) hedited
  . exact ⟨hfinite.geometry, hfinite.operations⟩

/--
Of the operations on the stacks only the one that the request brings in can be stored under another
draft.
-/
theorem ownIds_of_edit (hloaded : loaded s draftId = some draft)
    (hedit : request.edit context draft = .ok draft')
    (hnew : ∀ operationId body, request = .apply operationId body →
      s.draftOperations.find? operationId.val = none)
    : OwnIds s draft' := by
  have hid : draft'.id = draftId := (id_of_edit hedit).trans (id_of_loaded hloaded)
  have hold : ∀ old ∈ draft.operations, ∀ row, s.draftOperations.find? old.id.val = some row →
      row.draftId = draft'.id.val := by
    intro old hmem row hrow
    obtain ⟨stored, hstored, hdraft, _⟩ := row_of_loaded hloaded hmem
    rw [hstored, Option.some.injEq] at hrow
    rw [← hrow, hdraft, hid]
  intro entry hmem row hrow
  obtain ⟨_, ⟨command, hasks, hedited⟩ | ⟨_, rfl⟩⟩ := edit_cases hedit
  . rcases RouteDraft.source_of_edited hedited hmem with ⟨old, holdMem, hsame, _⟩ | rfl
    . rw [← hsame] at hrow
      exact hold old holdMem row hrow
    . generalize draft.revision = expectedRevision at hasks
      cases hasks with
      | apply hoperation =>
        have hnone := hnew _ _ rfl
        rw [hrow] at hnone
        cases hnone
  . exact hold entry hmem row hrow

/--
What requests on a draft leave of the store, in the order from `s` to `s'`.
-/
structure Evolved (draftId : RouteDraftId) (s s' : Store) : Prop where
  operations : ∀ k row, row.draftId ≠ draftId.val →
    (s'.draftOperations.find? k = some row ↔ s.draftOperations.find? k = some row)
  loaded : ∀ id, id ≠ draftId → loaded s' id = loaded s id
  revision : s' = s ∨ ∃ row row', s.drafts.find? draftId.val = some row
    ∧ s'.drafts.find? draftId.val = some row' ∧ row.revision < row'.revision
  readable : Readable s draftId → Readable s' draftId

theorem Evolved.refl (draftId : RouteDraftId) (s : Store) : Evolved draftId s s where
  operations := fun _ _ _ => Iff.rfl
  loaded := fun _ _ => rfl
  revision := .inl rfl
  readable := id

theorem Evolved.trans (h : Evolved draftId s s') (h' : Evolved draftId s' s'')
    : Evolved draftId s s'' where
  operations := by
    intro k row hother
    rw [h'.operations k row hother, h.operations k row hother]
  loaded := by
    intro id hid
    rw [h'.loaded id hid, h.loaded id hid]
  revision := by
    rcases h.revision with rfl | ⟨row, row', hrow, hrow', hlt⟩
    . exact h'.revision
    . rcases h'.revision with rfl | ⟨mid, row'', hmid, hrow'', hlt'⟩
      . exact .inr ⟨row, row', hrow, hrow', hlt⟩
      . rw [hrow', Option.some.injEq] at hmid
        rw [← hmid] at hlt'
        exact .inr ⟨row, row'', hrow, hrow'', by omega⟩
  readable := fun hreadable => h'.readable (h.readable hreadable)

theorem evolved_serve (draftId : RouteDraftId) (s : Store) (hfinite : FiniteRequest context request)
    : Evolved draftId s (serve draftId s (context, request)) := by
  rcases serve_cases draftId s context request with
    hsame | ⟨draft, draft', hloaded, hedit, hlock, hserve, hnew⟩
  . rw [hsame]
    exact .refl draftId s
  . rw [hserve]
    have hid : draft'.id = draftId := (id_of_edit hedit).trans (id_of_loaded hloaded)
    have hdistinct := nodup_of_edit hedit (distinct_of_loaded hloaded)
    have hframed := (framed_updated_iff hdistinct hlock).mpr (ownIds_of_edit hloaded hedit hnew)
    constructor
    . rw [← hid]
      exact hframed.operations
    . rw [← hid]
      exact hframed.loaded
    . obtain ⟨row, hrow, hrevision, hrow'⟩ := unlocked_revision hlock
      rw [hid] at hrow hrow'
      refine .inr ⟨row, _, hrow, hrow', ?_⟩
      have hwritten : (setDraft draft' row).revision = draft'.revision := rfl
      omega
    . intro hreadable
      rw [← hid] at hreadable ⊢
      exact readable_updated hreadable hdistinct
        (finite_of_edit hfinite (finite_of_loaded hloaded) hedit)

theorem evolved_serveAll (draftId : RouteDraftId) (s : Store)
    {requests : List (Context × EditRequest)} (hfinite : ∀ r ∈ requests, FiniteRequest r.1 r.2)
    : Evolved draftId s (serveAll draftId s requests) := by
  induction requests generalizing s with
  | nil => exact .refl draftId s
  | cons r requests ih =>
    rw [List.forall_mem_cons] at hfinite
    have hstep := evolved_serve draftId s hfinite.1
    exact hstep.trans (ih (serve draftId s r) hfinite.2)

end Api
