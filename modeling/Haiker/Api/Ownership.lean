import Haiker.Api.Router
import Haiker.RouteEditing.Persistence

/-!
This module contains when a request keeps to the draft that it names: it answers with the same error
if its actor does not own that draft, and with something about that draft if it succeeds.
-/

open Rust
open RouteEditing
open RouteEditing.PgRouteDraftRepository
open RouteVersioning

namespace Api

-- the outbox says that the version was made from the draft
def PublishedFrom (externals : Externals) (db : Database) (draftId : RouteDraftId) (versionId : Uuid)
    : Prop :=
  ∃ event ∈ db.outbox.rows, event.aggregateType = "route_version"
    ∧ (event.aggregateId = externals.uuidToString versionId
      ∨ externals.parseUuid event.aggregateId = .ok versionId)
    ∧ (event.payload.get? "draft_id").bind Json.asStr? = some (externals.uuidToString draftId.val)

-- the response is about the draft, `db` being the database it was read from
def Describes (context : Context) (publicationCommitter : Option Externals) (draftId : RouteDraftId)
    (db : Database) : Request → Response → Prop
  | .get, .draft response =>
    ∃ draft, loaded db.routeEditing draftId = some draft ∧ response = draftToResponse draft
  | .edit _, .result response => response.draftId = draftId.val
  | .edit .delete, .noContent => True
  | .validate body, .validation response =>
    ∃ draft, loaded db.routeEditing draftId = some draft
      ∧ (response.valid = true
        ↔ validateForPublication draft body.expectedRevision context.actor = .ok ())
  | .publish _ _, .publication response =>
    response.draftId = draftId.val ∧ ∃ externals, publicationCommitter = some externals
      ∧ PublishedFrom externals db draftId response.routeVersionId
  | _, _ => False

/--
The request keeps to the draft that it names.
-/
def KeepsToDraft (context : Context) (publicationCommitter : Option Externals)
    (draftId : RouteDraftId) (db : Database) (request : Request) : Prop :=
  (¬Owned db.routeEditing context.actor draftId →
    outcome (handle context publicationCommitter draftId request) db
      = .error (.err ownershipNotFoundError))
  ∧ ∀ response, outcome (handle context publicationCommitter draftId request) db = .ok response →
    Describes context publicationCommitter draftId
      (after (handle context publicationCommitter draftId request) db) request response

-- the applied entry with this operation id is of another operation than the one in the body
def Mismatched (operationId : OperationId) (body : ApplyOperationRequest) (draft : RouteDraft) : Prop :=
  ∃ entry, draft.appliedOperations.find? (fun e => e.id = operationId) = some entry
    ∧ ∀ operation, body.operation.toDomain = .ok operation →
      entry.operation.partialEq operation = false

-- the version of the event is gone, or it was made from the draft and the draft belongs to the actor
def EventOfDraft (externals : Externals) (commitData : PublicationCommitData) (db : Database)
    (event : RouteVersioning.OutboxRow) : Prop :=
  VersionGone externals commitData db event
    ∨ Owned db.routeEditing commitData.actorId commitData.draftId
      ∧ ∀ row json, VersionThere externals commitData db event row json →
        (CorrectedStatistics.fromJson json).isSome = true →
          PublishedFrom externals db commitData.draftId row.id

/--
What the database has under the idempotency key of the request is not used, or it belongs to the draft
and the draft to the actor.
-/
def KeyOfDraft (context : Context) (publicationCommitter : Option Externals) (draftId : RouteDraftId)
    (db : Database) : Request → Prop
  | .edit (.apply operationId body) =>
    ∀ row draft, db.routeEditing.draftOperations.find? operationId.val = some row →
      loaded db.routeEditing ⟨row.draftId⟩ = some draft →
        Owned db.routeEditing context.actor draftId
          ∧ (row.draftId = draftId.val ∨ Mismatched operationId body draft)
  | .publish idempotencyKey body =>
    match publicationCommitter with
    | none => Owned db.routeEditing context.actor draftId
    | some externals =>
      ∀ event, existingEvent db idempotencyKey = some event →
        EventOfDraft externals (publicationCommitData context draftId idempotencyKey body) db event
  | _ => True

variable {context : Context} {publicationCommitter : Option Externals} {draftId : RouteDraftId}
  {db db' : Database} {request : Request}

theorem keepsToDraft_of_run_error {e : Fault ApiError}
    (h : (handle context publicationCommitter draftId request).run db = .error e db')
    : KeepsToDraft context publicationCommitter draftId db request
        ↔ (¬Owned db.routeEditing context.actor draftId → e = .err ownershipNotFoundError) := by
  unfold KeepsToDraft
  rw [outcome_of_run_error h]
  simp

theorem keepsToDraft_of_run_ok {response : Response}
    (h : (handle context publicationCommitter draftId request).run db = .ok response db')
    : KeepsToDraft context publicationCommitter draftId db request
        ↔ Owned db.routeEditing context.actor draftId
          ∧ Describes context publicationCommitter draftId db' request response := by
  unfold KeepsToDraft
  rw [outcome_of_run_ok h, after_of_run_ok h]
  simp

theorem owned_iff_of_loaded {s : Store} {actor : Identity.UserId} {draft : RouteDraft}
    (h : loaded s draftId = some draft) : Owned s actor draftId ↔ draft.ownerId = actor := by
  unfold Owned
  simp [h]

theorem not_owned_of_none {s : Store} {actor : Identity.UserId} (h : loaded s draftId = none)
    : ¬Owned s actor draftId := by
  unfold Owned
  simp [h]

theorem keepsToDraft_get (context : Context) (publicationCommitter : Option Externals)
    (draftId : RouteDraftId) (db : Database)
    : KeepsToDraft context publicationCommitter draftId db .get := by
  have hrun : (handle context publicationCommitter draftId .get).run db = _ :=
    run_onRouteEditing_bind_pure (getDraft context draftId) Response.draft db
  unfold getDraft at hrun
  rw [EStateM.run_bind] at hrun
  cases hloaded : loaded db.routeEditing draftId with
  | none =>
    rw [run_findDraft_of_none hloaded] at hrun
    rw [keepsToDraft_of_run_error hrun]
    intro _
    rfl
  | some draft =>
    rw [run_findDraft_of_loaded hloaded] at hrun
    simp only [EStateM.run_bind] at hrun
    by_cases howner : draft.ownerId = context.actor
    . rw [checkOwner_eq_ok howner, run_ofResult_ok] at hrun
      rw [keepsToDraft_of_run_ok hrun, owned_iff_of_loaded hloaded]
      exact ⟨howner, draft, hloaded, rfl⟩
    . rw [checkOwner_eq_error howner, run_ofResult_error] at hrun
      rw [keepsToDraft_of_run_error hrun]
      intro _
      rfl

theorem keepsToDraft_validate (context : Context) (publicationCommitter : Option Externals)
    (draftId : RouteDraftId) (db : Database) (body : ValidateForPublicationRequest)
    : KeepsToDraft context publicationCommitter draftId db (.validate body) := by
  have hrun : (handle context publicationCommitter draftId (.validate body)).run db = _ :=
    run_onRouteEditing_bind_pure (postValidateDraft context draftId body) Response.validation db
  unfold postValidateDraft at hrun
  rw [EStateM.run_bind] at hrun
  cases hloaded : loaded db.routeEditing draftId with
  | none =>
    rw [run_findDraft_of_none hloaded] at hrun
    rw [keepsToDraft_of_run_error hrun]
    intro _
    rfl
  | some draft =>
    rw [run_findDraft_of_loaded hloaded] at hrun
    by_cases howner : draft.ownerId = context.actor
    . cases hvalid : validateForPublication draft body.expectedRevision context.actor with
      | ok _ =>
        simp only [hvalid] at hrun
        rw [keepsToDraft_of_run_ok hrun, owned_iff_of_loaded hloaded]
        refine ⟨howner, draft, hloaded, ?_⟩
        simp [hvalid]
      | error errors =>
        simp only [hvalid] at hrun
        cases hprecondition : errors.findSome? preconditionError with
        | some e =>
          simp only [hprecondition, run_fail] at hrun
          rw [keepsToDraft_of_run_error hrun, owned_iff_of_loaded hloaded]
          intro h
          exact absurd howner h
        | none =>
          simp only [hprecondition] at hrun
          rw [keepsToDraft_of_run_ok hrun, owned_iff_of_loaded hloaded]
          refine ⟨howner, draft, hloaded, ?_⟩
          simp [hvalid]
    . have hvalid : validateForPublication draft body.expectedRevision context.actor
          = .error [.notOwner] := by
        unfold validateForPublication
        rw [if_pos howner]
      simp only [hvalid] at hrun
      rw [keepsToDraft_of_run_error hrun]
      intro _
      rfl

theorem keepsToDraft_edit {request : EditRequest}
    (hnew : ∀ operationId body, request = .apply operationId body →
      db.routeEditing.draftOperations.find? operationId.val = none)
    : KeepsToDraft context publicationCommitter draftId db (.edit request) := by
  have hrun : (handle context publicationCommitter draftId (.edit request)).run db = _ :=
    run_handle_edit hnew
  rcases editDraft_cases context draftId request db.routeEditing with
    ⟨e, hedit⟩ | ⟨draft, draft', hloaded, howner, hedited, _, hedit⟩
  . rw [hedit] at hrun
    rw [keepsToDraft_of_run_error hrun]
    intro howned
    rw [run_editDraft_of_not_owned howned] at hedit
    injection hedit with he
    exact he.symm
  . rw [hedit] at hrun
    rw [keepsToDraft_of_run_ok hrun]
    refine ⟨⟨draft, hloaded, howner⟩, ?_⟩
    have hid : draft'.id = draftId := (id_of_edit hedited).trans (id_of_loaded hloaded)
    cases request with
    | delete => trivial
    | apply | undo | redo | reset =>
      have : (operationResult draft').draftId = draftId.val := by
        rw [← hid]
        rfl
      exact this

/-
The idempotency key of an operation.
-/

variable {operationId : OperationId} {body : ApplyOperationRequest} {row : DraftOperationRow}
  {draft : RouteDraft}

/--
A replay is about the draft that the operation is stored under, or it is an error, which never says
that there is no such draft.
-/
theorem replay_cases_of_key (operationId : OperationId) (body : ApplyOperationRequest)
    (draft : RouteDraft)
    : (∃ answer, replay operationId body draft = .ok answer ∧ answer.draftId = draft.id.val
          ∧ ¬Mismatched operationId body draft)
        ∨
      ∃ e, replay operationId body draft = .error (.err e) ∧ e ≠ ownershipNotFoundError
        ∧ Mismatched operationId body draft := by
  unfold replay Mismatched
  cases hfind : draft.appliedOperations.find? fun e => e.id = operationId with
  | none =>
    refine .inl ⟨operationResult draft, rfl, rfl, ?_⟩
    rintro ⟨entry, hentry, _⟩
    cases hentry
  | some entry =>
    cases hoperation : body.operation.toDomain with
    | error message =>
      refine .inr ⟨_, rfl, ?_, entry, rfl, ?_⟩
      . simp [ownershipNotFoundError, problem]
      . intro operation h
        cases h
    | ok operation =>
      cases heq : entry.operation.partialEq operation with
      | false =>
        refine .inr ⟨problem .conflict "IDEMPOTENCY_PAYLOAD_MISMATCH"
          "idempotency key reused with a different operation payload"
          "/problems/idempotency-conflict" "Idempotency conflict", ?_, ?_, entry, rfl, ?_⟩
        . simp [heq]
        . simp [ownershipNotFoundError, problem]
        . intro other hother
          injection hother with hother
          rw [← hother, heq]
      | true =>
        refine .inl ⟨{
          draftId := draft.id.val
          revision := (draft.appliedOperations.findIdx fun e => e.id = operationId) + 1
          canUndo := true
          canRedo := false
        }, ?_, rfl, ?_⟩
        . simp [heq]
        . rintro ⟨other, hother, hmismatch⟩
          injection hother with hother
          have hfalse := hmismatch operation rfl
          rw [← hother, heq] at hfalse
          cases hfalse

theorem keepsToDraft_apply_iff_of_loaded
    (hrow : db.routeEditing.draftOperations.find? operationId.val = some row)
    (hloaded : loaded db.routeEditing ⟨row.draftId⟩ = some draft)
    : KeepsToDraft context publicationCommitter draftId db (.edit (.apply operationId body))
        ↔ Owned db.routeEditing context.actor draftId
          ∧ (row.draftId = draftId.val ∨ Mismatched operationId body draft) := by
  have hrun : (handle context publicationCommitter draftId (.edit (.apply operationId body))).run db
      = _ := run_handle_apply_of_loaded hrow hloaded
  rcases replay_cases_of_key operationId body draft with
    ⟨answer, hreplay, hanswer, hmatched⟩ | ⟨e, hreplay, he, hmismatched⟩
  . rw [hreplay] at hrun
    rw [keepsToDraft_of_run_ok hrun]
    have hid : draft.id = ⟨row.draftId⟩ := id_of_loaded hloaded
    have hdescribes : Describes context publicationCommitter draftId db
        (.edit (.apply operationId body)) (.result answer) ↔ answer.draftId = draftId.val := Iff.rfl
    rw [hdescribes, hanswer, hid, or_iff_left hmatched]
  . rw [hreplay] at hrun
    rw [keepsToDraft_of_run_error hrun, Fault.err.injEq, not_imp_comm]
    constructor
    . intro h
      exact ⟨h he, .inr hmismatched⟩
    . rintro ⟨howned, _⟩ _
      exact howned

theorem keepsToDraft_apply_of_not_loaded
    (hrow : db.routeEditing.draftOperations.find? operationId.val = some row)
    (hloaded : loaded db.routeEditing ⟨row.draftId⟩ = none)
    : KeepsToDraft context publicationCommitter draftId db (.edit (.apply operationId body)) := by
  have hrun : (handle context publicationCommitter draftId (.edit (.apply operationId body))).run db
      = .error (.err ownershipNotFoundError) db := by
    unfold handle
    rw [run_onRouteEditing_bind_pure, run_postApply_of_some hrow, EStateM.run_bind,
      run_findDraft_of_none hloaded]
  rw [keepsToDraft_of_run_error hrun]
  intro _
  rfl

theorem keepsToDraft_apply_iff (context : Context) (publicationCommitter : Option Externals)
    (draftId : RouteDraftId) (db : Database) (operationId : OperationId)
    (body : ApplyOperationRequest)
    : KeepsToDraft context publicationCommitter draftId db (.edit (.apply operationId body))
        ↔ KeyOfDraft context publicationCommitter draftId db (.edit (.apply operationId body)) := by
  unfold KeyOfDraft
  cases hrow : db.routeEditing.draftOperations.find? operationId.val with
  | none =>
    constructor
    . intro _ row draft hsome
      rw [hrow] at hsome
      cases hsome
    . intro _
      apply keepsToDraft_edit
      intro other _ heq
      injection heq with heq _
      rw [← heq, hrow]
  | some row =>
    cases hloaded : loaded db.routeEditing ⟨row.draftId⟩ with
    | none =>
      constructor
      . intro _ other draft hother hdraft
        rw [hrow, Option.some.injEq] at hother
        rw [← hother, hloaded] at hdraft
        cases hdraft
      . intro _
        exact keepsToDraft_apply_of_not_loaded hrow hloaded
    | some draft =>
      rw [keepsToDraft_apply_iff_of_loaded hrow hloaded]
      constructor
      . intro h other other' hother hdraft
        rw [hrow, Option.some.injEq] at hother
        subst hother
        rw [hloaded, Option.some.injEq] at hdraft
        rw [← hdraft]
        exact h
      . intro h
        exact h row draft hrow hloaded

/-
The idempotency key of a publication.
-/

variable {externals : Externals} {idempotencyKey : Uuid} {publishBody : PublishRouteDraftRequest}
  {result : PublicationResult}

theorem publicationResponse_cases (result : PublicationResult)
    : (∃ response, publicationResponse result = .ok response
          ∧ (CorrectedStatistics.fromJson result.correctedStatisticsJson).isSome = true
          ∧ response.draftId = result.draftId.val
          ∧ response.routeVersionId = result.routeVersionId.val)
        ∨
      ∃ e, publicationResponse result = .error (.err e) ∧ e ≠ ownershipNotFoundError
        ∧ CorrectedStatistics.fromJson result.correctedStatisticsJson = none := by
  unfold publicationResponse
  cases CorrectedStatistics.fromJson result.correctedStatisticsJson with
  | none =>
    refine .inr ⟨_, rfl, ?_, rfl⟩
    simp [ownershipNotFoundError, problem]
  | some correctedStats => exact .inl ⟨_, rfl, rfl, rfl, rfl⟩

theorem keepsToDraft_publish_iff_of_commit
    (hcommit : (commit externals (publicationCommitData context draftId idempotencyKey
      publishBody)).run db = .ok result db')
    (hdraftId : result.draftId = draftId)
    : KeepsToDraft context (some externals) draftId db (.publish idempotencyKey publishBody)
        ↔ Owned db.routeEditing context.actor draftId
          ∧ ((CorrectedStatistics.fromJson result.correctedStatisticsJson).isSome = true →
            PublishedFrom externals db' draftId result.routeVersionId.val) := by
  have hrun : (handle context (some externals) draftId
      (.publish idempotencyKey publishBody)).run db = _ := run_handle_publish idempotencyKey publishBody db
  rw [hcommit] at hrun
  rcases publicationResponse_cases result with
    ⟨response, hresponse, hstats, hid, hversion⟩ | ⟨e, hresponse, he, hstats⟩
  . simp only [hresponse] at hrun
    rw [keepsToDraft_of_run_ok hrun]
    have hdescribes : Describes context (some externals) draftId db'
        (.publish idempotencyKey publishBody) (.publication response)
          ↔ response.draftId = draftId.val ∧ ∃ committer, some externals = some committer
            ∧ PublishedFrom committer db' draftId response.routeVersionId := Iff.rfl
    rw [hdescribes, hid, hversion, hdraftId]
    simp [hstats]
  . simp only [hresponse] at hrun
    rw [keepsToDraft_of_run_error hrun, Fault.err.injEq, hstats]
    simp [he]

theorem keepsToDraft_publish_iff_of_error {e : RouteVersioningError}
    (hcommit : (commit externals (publicationCommitData context draftId idempotencyKey
      publishBody)).run db = .error (.err e) db')
    : KeepsToDraft context (some externals) draftId db (.publish idempotencyKey publishBody)
        ↔ (¬Owned db.routeEditing context.actor draftId →
          routeVersioningErrorToApiError e = ownershipNotFoundError) := by
  have hrun : (handle context (some externals) draftId
      (.publish idempotencyKey publishBody)).run db = _ := run_handle_publish idempotencyKey publishBody db
  rw [hcommit] at hrun
  rw [keepsToDraft_of_run_error hrun, Fault.err.injEq]

theorem owned_of_locked {data : PublicationCommitData} {draft : DraftRow}
    (h : lockDraft data db = .ok draft) : Owned db.routeEditing data.actorId data.draftId := by
  obtain ⟨hrow, howner, _⟩ := lockDraft_eq_ok h
  refine ⟨draftOfRows draft (selectOperations db.routeEditing data.draftId.val), ?_, ?_⟩
  . rw [loaded, hrow, Option.map_some]
  . rw [draftOfRows, howner]

theorem publishedFrom_of_published {data : PublicationCommitData} {draft : DraftRow}
    {version : RouteVersionRow} (h : Published externals data db db' result draft version)
    : PublishedFrom externals db' data.draftId result.routeVersionId.val := by
  refine ⟨publishedEvent externals data version, ?_, rfl, ?_, rfl⟩
  . have hrow := Sql.Table.find?_insert? h.event (publishedEvent externals data version).id
    rw [if_pos rfl] at hrow
    exact Sql.Table.mem_of_find? hrow
  . rw [h.routeVersionId]
    exact .inl rfl

/--
A publication that no earlier one has used the key of.
-/
theorem keepsToDraft_publish_of_new
    (hnew : replayCommit externals (publicationCommitData context draftId idempotencyKey publishBody)
      db = .ok none)
    : KeepsToDraft context (some externals) draftId db (.publish idempotencyKey publishBody) := by
  have hcommit := run_commit_of_new hnew
  rcases publish_cases externals (publicationCommitData context draftId idempotencyKey publishBody)
    db with ⟨e, hrun⟩ | ⟨db', result, draft, version, hrun, hpublished⟩
  . rw [hrun] at hcommit
    rw [keepsToDraft_publish_iff_of_error hcommit]
    intro howned
    have hlock : lockDraft (publicationCommitData context draftId idempotencyKey publishBody) db
        = .error .draftNotFound
          ∨ lockDraft (publicationCommitData context draftId idempotencyKey publishBody) db
            = .error .notAuthorized := by
      apply lockDraft_of_not_owned
      intro row hrow howner
      apply howned
      refine ⟨draftOfRows row (selectOperations db.routeEditing draftId.val), ?_, ?_⟩
      . rw [loaded]
        exact congrArg _ hrow
      . rw [draftOfRows, howner]
        rfl
    rcases hlock with hlock | hlock
    . rw [run_publish_of_not_locked hlock] at hrun
      injection hrun with he
      injection he with he
      rw [← he]
      rfl
    . rw [run_publish_of_not_locked hlock] at hrun
      injection hrun with he
      injection he with he
      rw [← he]
      rfl
  . rw [hrun] at hcommit
    rw [keepsToDraft_publish_iff_of_commit hcommit hpublished.draftId]
    refine ⟨owned_of_locked hpublished.locked, ?_⟩
    intro _
    exact publishedFrom_of_published hpublished

theorem keepsToDraft_publish_iff_of_event {event : RouteVersioning.OutboxRow}
    (hevent : existingEvent db idempotencyKey = some event)
    : KeepsToDraft context (some externals) draftId db (.publish idempotencyKey publishBody)
        ↔ EventOfDraft externals (publicationCommitData context draftId idempotencyKey publishBody) db
          event := by
  generalize hdata : publicationCommitData context draftId idempotencyKey publishBody = commitData
  have hkey : existingEvent db commitData.idempotencyKey = some event := by
    rw [← hdata]
    exact hevent
  have hactor : commitData.actorId = context.actor := by
    rw [← hdata]
    rfl
  have hdraft : commitData.draftId = draftId := by
    rw [← hdata]
    rfl
  unfold EventOfDraft
  by_cases hgone : VersionGone externals commitData db event
  . have hnew := replayCommit_of_gone hkey hgone
    rw [← hdata] at hnew
    constructor
    . intro _
      exact .inl hgone
    . intro _
      exact keepsToDraft_publish_of_new hnew
  . rw [or_iff_right hgone, hactor, hdraft]
    by_cases hthere : ∃ row json, VersionThere externals commitData db event row json
    . obtain ⟨row, json, hthere⟩ := hthere
      have hcommit := run_commit_of_replay (replayCommit_of_there hkey hthere)
      rw [← hdata] at hcommit
      rw [keepsToDraft_publish_iff_of_commit hcommit rfl]
      apply and_congr_right
      intro _
      constructor
      . intro h other json' hother
        obtain ⟨rfl, rfl⟩ := hthere.unique hother
        exact h
      . intro h
        exact h row json hthere
    . push Not at hthere
      have hcommit : ∃ e, (commit externals commitData).run db = .error (.err e) db
          ∧ routeVersioningErrorToApiError e ≠ ownershipNotFoundError := by
        rcases replayCommit_of_neither hkey hgone hthere with hreplay | ⟨message, hreplay⟩
        . refine ⟨_, run_commit_of_error hreplay, ?_⟩
          simp [ownershipNotFoundError, problem, routeVersioningErrorToApiError]
        . refine ⟨_, run_commit_of_error hreplay, ?_⟩
          simp [ownershipNotFoundError, problem, routeVersioningErrorToApiError]
      obtain ⟨e, hcommit, he⟩ := hcommit
      rw [← hdata] at hcommit
      rw [keepsToDraft_publish_iff_of_error hcommit]
      simp [he, hthere]

theorem keepsToDraft_publish_iff (context : Context) (publicationCommitter : Option Externals)
    (draftId : RouteDraftId) (db : Database) (idempotencyKey : Uuid)
    (publishBody : PublishRouteDraftRequest)
    : KeepsToDraft context publicationCommitter draftId db (.publish idempotencyKey publishBody)
        ↔ KeyOfDraft context publicationCommitter draftId db
          (.publish idempotencyKey publishBody) := by
  unfold KeyOfDraft
  cases publicationCommitter with
  | none =>
    have hrun : (handle context none draftId (.publish idempotencyKey publishBody)).run db
        = .error (.err (problem .internalServerError "INTERNAL_ERROR"
            "publication service not configured" "/problems/internal-error"
            "Internal Server Error")) db := rfl
    rw [keepsToDraft_of_run_error hrun]
    simp [ownershipNotFoundError, problem]
  | some externals =>
    cases hevent : existingEvent db idempotencyKey with
    | none =>
      constructor
      . intro _ event hsome
        rw [hevent] at hsome
        cases hsome
      . intro _
        exact keepsToDraft_publish_of_new (replayCommit_of_no_event hevent)
    | some event =>
      rw [keepsToDraft_publish_iff_of_event hevent]
      constructor
      . intro h other hother
        rw [hevent, Option.some.injEq] at hother
        rw [← hother]
        exact h
      . intro h
        exact h event hevent

/--
For every store and every request: it keeps to the draft that it names, exactly if what is stored
under its idempotency key does.
-/
theorem keeps_to_draft_iff (context : Context) (publicationCommitter : Option Externals)
    (draftId : RouteDraftId) (db : Database) (request : Request)
    : KeepsToDraft context publicationCommitter draftId db request
        ↔ KeyOfDraft context publicationCommitter draftId db request := by
  cases request with
  | get => exact iff_of_true (keepsToDraft_get context publicationCommitter draftId db) trivial
  | validate body =>
    exact iff_of_true (keepsToDraft_validate context publicationCommitter draftId db body) trivial
  | publish idempotencyKey body =>
    exact keepsToDraft_publish_iff context publicationCommitter draftId db idempotencyKey body
  | edit request =>
    cases request with
    | apply operationId body =>
      exact keepsToDraft_apply_iff context publicationCommitter draftId db operationId body
    | undo | redo | reset | delete =>
      refine iff_of_true (keepsToDraft_edit ?_) trivial
      intro operationId body heq
      cases heq

-- somebody else than the owner of the sample draft
def sampleStranger : Context := { sampleContext with actor := ⟨⟨9⟩⟩ }

-- the sample draft, with an operation under the key 10
def sampleKeyed : Database where
  routeEditing := after (postApplyOperation sampleContext ⟨⟨1⟩⟩ ⟨⟨10⟩⟩ (sampleMove 50 0)) sampleStore
  routeVersions := .empty
  activities := .empty
  outbox := .empty

/--
Who sends the key and the body of an operation on somebody else's draft is told about that draft, and
not that the draft of the request does not exist.
-/
theorem stranger_reads_foreign_draft
    : outcome (handle sampleStranger none ⟨⟨77⟩⟩ (.edit (.apply ⟨⟨10⟩⟩ (sampleMove 50 0)))) sampleKeyed
          = .ok (.result { draftId := ⟨1⟩, revision := 1, canUndo := true, canRedo := false })
        ∧ ¬Owned sampleKeyed.routeEditing sampleStranger.actor ⟨⟨77⟩⟩
        ∧ ¬KeepsToDraft sampleStranger none ⟨⟨77⟩⟩ sampleKeyed
          (.edit (.apply ⟨⟨10⟩⟩ (sampleMove 50 0))) := by
  have hanswer : outcome (handle sampleStranger none ⟨⟨77⟩⟩
      (.edit (.apply ⟨⟨10⟩⟩ (sampleMove 50 0)))) sampleKeyed
        = .ok (.result { draftId := ⟨1⟩, revision := 1, canUndo := true, canRedo := false }) := by
    decide
  have howned : ¬Owned sampleKeyed.routeEditing sampleStranger.actor ⟨⟨77⟩⟩ := by
    apply not_owned_of_none
    rw [loaded, Option.map_eq_none_iff]
    decide
  refine ⟨hanswer, howned, ?_⟩
  rintro ⟨hnotFound, _⟩
  have hsame := hnotFound howned
  rw [hanswer] at hsame
  cases hsame

end Api
