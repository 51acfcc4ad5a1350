import Haiker.Api.Lemmas.Requests
import Haiker.RouteVersioning.Lemmas.PublicationCommit

/-!
This module contains the requests on one draft, with the handlers that answer them on the database.
-/

open Rust
open RouteEditing
open RouteEditing.PgRouteDraftRepository
open RouteVersioning

namespace Api

inductive Request where
  | get
  | edit (request : EditRequest)
  | validate (body : ValidateForPublicationRequest)
  | publish (idempotencyKey : Uuid) (body : PublishRouteDraftRequest)

inductive Response where
  | draft (response : RouteDraftResponse)
  | result (response : OperationResultResponse)
  | noContent
  | validation (response : ValidationResultResponse)
  | publication (response : PublicationResponse)
  deriving DecidableEq

-- a handler that uses the tables of the drafts only
def onRouteEditing {α : Type} (m : HandlerM α) : Method ApiError Database α := fun db =>
  match m.run db.routeEditing with
  | .ok a routeEditing => .ok a { db with routeEditing }
  | .error e routeEditing => .error e { db with routeEditing }

-- the routes of the router
def handle (context : Context) (publicationCommitter : Option Externals) (draftId : RouteDraftId)
    : Request → Method ApiError Database Response
  | .get => return .draft (← onRouteEditing (getDraft context draftId))
  | .edit (.apply operationId body) =>
    return .result (← onRouteEditing (postApplyOperation context draftId operationId body))
  | .edit (.undo body) => return .result (← onRouteEditing (postUndo context draftId body))
  | .edit (.redo body) => return .result (← onRouteEditing (postRedo context draftId body))
  | .edit (.reset body) => return .result (← onRouteEditing (postReset context draftId body))
  | .edit .delete => do
    onRouteEditing (deleteDraft context draftId)
    return .noContent
  | .validate body => return .validation (← onRouteEditing (postValidateDraft context draftId body))
  | .publish idempotencyKey body =>
    return .publication
      (← postPublishDraft context publicationCommitter draftId idempotencyKey body)

variable {context : Context} {publicationCommitter : Option Externals} {draftId : RouteDraftId}
  {db : Database} {draft : RouteDraft}

theorem run_onRouteEditing {α : Type} (m : HandlerM α) (db : Database)
    : (onRouteEditing m).run db
        =
      match m.run db.routeEditing with
      | .ok a routeEditing => .ok a { db with routeEditing }
      | .error e routeEditing => .error e { db with routeEditing } := by
  rfl

theorem run_onRouteEditing_bind_pure {α β : Type} (m : HandlerM α) (f : α → β) (db : Database)
    : (do return f (← onRouteEditing m)).run db
        =
      match m.run db.routeEditing with
      | .ok a routeEditing => .ok (f a) { db with routeEditing }
      | .error e routeEditing => .error e { db with routeEditing } := by
  rw [EStateM.run_bind, run_onRouteEditing]
  cases m.run db.routeEditing with
  | ok | error => rfl

-- what a request that has changed the draft is answered with
def editResponse (draft : RouteDraft) : EditRequest → Response
  | .delete => .noContent
  | .apply .. | .undo .. | .redo .. | .reset .. => .result (operationResult draft)

theorem run_handle_edit {request : EditRequest}
    (hnew : ∀ operationId body, request = .apply operationId body →
      db.routeEditing.draftOperations.find? operationId.val = none)
    : (handle context publicationCommitter draftId (.edit request)).run db
        =
      match (editDraft context draftId request).run db.routeEditing with
      | .ok draft routeEditing => .ok (editResponse draft request) { db with routeEditing }
      | .error e routeEditing => .error e { db with routeEditing } := by
  cases request with
  | apply operationId body =>
    have hnone := hnew operationId body rfl
    unfold handle
    rw [run_onRouteEditing_bind_pure, run_postApply_of_none hnone, EStateM.run_bind]
    cases (editDraft context draftId (.apply operationId body)).run db.routeEditing with
    | ok | error => rfl
  | undo body =>
    unfold handle postUndo
    rw [run_onRouteEditing_bind_pure, EStateM.run_bind]
    cases (editDraft context draftId (.undo body)).run db.routeEditing with
    | ok | error => rfl
  | redo body =>
    unfold handle postRedo
    rw [run_onRouteEditing_bind_pure, EStateM.run_bind]
    cases (editDraft context draftId (.redo body)).run db.routeEditing with
    | ok | error => rfl
  | reset body =>
    unfold handle postReset
    rw [run_onRouteEditing_bind_pure, EStateM.run_bind]
    cases (editDraft context draftId (.reset body)).run db.routeEditing with
    | ok | error => rfl
  | delete =>
    have hdelete : (handle context publicationCommitter draftId (.edit .delete)).run db = _ :=
      run_onRouteEditing_bind_pure (deleteDraft context draftId) (fun _ => Response.noContent) db
    unfold deleteDraft at hdelete
    rw [EStateM.run_bind] at hdelete
    rw [hdelete]
    cases (editDraft context draftId .delete).run db.routeEditing with
    | ok | error => rfl

theorem run_handle_apply_of_loaded {operationId : OperationId} {body : ApplyOperationRequest}
    {row : DraftOperationRow}
    (hrow : db.routeEditing.draftOperations.find? operationId.val = some row)
    (hloaded : loaded db.routeEditing ⟨row.draftId⟩ = some draft)
    : (handle context publicationCommitter draftId (.edit (.apply operationId body))).run db
        =
      match replay operationId body draft with
      | .ok answer => .ok (.result answer) db
      | .error e => .error e db := by
  unfold handle
  rw [run_onRouteEditing_bind_pure, run_postApply_of_loaded hrow hloaded]
  cases replay operationId body draft with
  | ok | error => rfl

theorem run_handle_publish (idempotencyKey : Uuid) (publishBody : PublishRouteDraftRequest)
    (db : Database)
    : (handle context (some externals) draftId (.publish idempotencyKey publishBody)).run db
        =
      match (commit externals
          (publicationCommitData context draftId idempotencyKey publishBody)).run db with
      | .ok result db =>
        match publicationResponse result with
        | .ok response => .ok (.publication response) db
        | .error e => .error e db
      | .error (.err e) db => .error (.err (routeVersioningErrorToApiError e)) db
      | .error .panic db => .error .panic db := by
  unfold handle postPublishDraft
  simp only [EStateM.run_bind, run_mapErr]
  cases (commit externals
      (publicationCommitData context draftId idempotencyKey publishBody)).run db with
  | ok result db =>
    cases hresponse : publicationResponse result with
    | ok | error => simp [hresponse]
  | error e db =>
    cases e with
    | panic | err => rfl

end Api
