import Haiker.Api.RouteEditing
import Haiker.RouteEditing.Lemmas.Repository

/-!
This module contains what the handlers do in one go: which errors they answer with, and what a
request that succeeds has done to the draft and to the store.
-/

open Rust
open RouteEditing
open RouteEditing.PgRouteDraftRepository

namespace Api

variable {context : Context} {draftId : RouteDraftId} {request : EditRequest}
  {draft draft' : RouteDraft} {s s' : Store}

theorem run_findDraft_of_loaded (h : loaded s draftId = some draft)
    : (findDraft draftId).run s = .ok draft s := by
  have hfind : (repository (findById draftId)).run s = .ok (some draft) s := by
    rw [repository, run_mapErr, run_findById, h]
  unfold findDraft
  simp [hfind]

theorem run_findDraft_of_none (h : loaded s draftId = none)
    : (findDraft draftId).run s = .error (.err ownershipNotFoundError) s := by
  have hfind : (repository (findById draftId)).run s = .ok none s := by
    rw [repository, run_mapErr, run_findById, h]
  unfold findDraft
  simp [hfind, routeEditingErrorToApiError_draftNotFound]

theorem checkOwner_eq_ok (h : draft.ownerId = context.actor)
    : checkOwner context.actor draft = .ok () := by
  simp [checkOwner, h]

theorem checkOwner_eq_error (h : draft.ownerId ≠ context.actor)
    : checkOwner context.actor draft = .error (.err ownershipNotFoundError) := by
  simp [checkOwner, h]

-- there is a draft under this id, and the actor owns it
def Owned (s : Store) (actor : Identity.UserId) (draftId : RouteDraftId) : Prop :=
  ∃ draft, loaded s draftId = some draft ∧ draft.ownerId = actor

theorem run_editDraft_of_edit (hloaded : loaded s draftId = some draft)
    (howner : draft.ownerId = context.actor) (hedit : request.edit context draft = .ok draft')
    : (editDraft context draftId request).run s
        =
      if Unlocked s draft' then
        .ok draft' (updated s draft')
      else if draft'.revision = 0 then
        .error .panic s
      else
        .error (.err (routeEditingErrorToApiError
          (.revisionConflict (draft'.revision - 1) draft'.revision))) s := by
  unfold editDraft editLoaded
  simp only [EStateM.run_bind, run_findDraft_of_loaded hloaded, checkOwner_eq_ok howner,
    run_ofResult_ok, hedit]
  rw [repository, run_mapErr, run_update]
  by_cases hlock : Unlocked s draft'
  . simp [hlock]
  . by_cases hzero : draft'.revision = 0
    . simp [hlock, hzero]
    . simp [hlock, hzero]

theorem run_editDraft_of_edit_error {e : Fault ApiError} (hloaded : loaded s draftId = some draft)
    (howner : draft.ownerId = context.actor) (hedit : request.edit context draft = .error e)
    : (editDraft context draftId request).run s = .error e s := by
  unfold editDraft editLoaded
  simp only [EStateM.run_bind, run_findDraft_of_loaded hloaded, checkOwner_eq_ok howner,
    run_ofResult_ok, hedit, run_ofResult_error]

/--
An edit stores the draft it has loaded and changed, or it fails and leaves the store as it was.
-/
theorem editDraft_cases (context : Context) (draftId : RouteDraftId) (request : EditRequest)
    (s : Store)
    : (∃ e, (editDraft context draftId request).run s = .error e s)
        ∨
      ∃ draft draft', loaded s draftId = some draft ∧ draft.ownerId = context.actor
        ∧ request.edit context draft = .ok draft' ∧ Unlocked s draft'
        ∧ (editDraft context draftId request).run s = .ok draft' (updated s draft') := by
  cases hloaded : loaded s draftId with
  | none =>
    refine .inl ⟨.err ownershipNotFoundError, ?_⟩
    unfold editDraft
    rw [EStateM.run_bind, run_findDraft_of_none hloaded]
  | some draft =>
    by_cases howner : draft.ownerId = context.actor
    . cases hedit : request.edit context draft with
      | error e =>
        exact .inl ⟨e, run_editDraft_of_edit_error hloaded howner hedit⟩
      | ok draft' =>
        have hrun := run_editDraft_of_edit hloaded howner hedit
        split_ifs at hrun with hlock hzero
        . exact .inr ⟨draft, draft', rfl, howner, hedit, hlock, hrun⟩
        . exact .inl ⟨_, hrun⟩
        . exact .inl ⟨_, hrun⟩
    . refine .inl ⟨.err ownershipNotFoundError, ?_⟩
      unfold editDraft editLoaded
      simp only [EStateM.run_bind, run_findDraft_of_loaded hloaded, checkOwner_eq_error howner,
        run_ofResult_error]

theorem run_editDraft_of_not_owned (h : ¬Owned s context.actor draftId)
    : (editDraft context draftId request).run s = .error (.err ownershipNotFoundError) s := by
  unfold editDraft editLoaded
  cases hloaded : loaded s draftId with
  | none => simp [run_findDraft_of_none hloaded]
  | some draft =>
    have : draft.ownerId ≠ context.actor := fun howner => h ⟨draft, hloaded, howner⟩
    simp [run_findDraft_of_loaded hloaded, checkOwner_eq_error this]

/--
The command that a request asks for, with the revision it expects.
-/
inductive Asks (context : Context) (draft : RouteDraft) : EditRequest → Nat → Command → Prop where
  | apply {operationId body operation} (hoperation : body.operation.toDomain = .ok operation)
      : Asks context draft (.apply operationId body) body.expectedRevision
          (.apply operationId operation)
  | undo {body} : Asks context draft (.undo body) body.expectedRevision .undo
  | redo {body} : Asks context draft (.redo body) body.expectedRevision .redo
  | reset {body baseVersionId baseGeometry} (hbase : draft.baseRouteVersionId = some baseVersionId)
      (hgeometry : context.gateways.getRouteVersionGeometry baseVersionId draft.activityId
        = .ok baseGeometry)
      : Asks context draft (.reset body) body.expectedRevision (.reset baseGeometry)

theorem domain_eq_ok {m : DraftM Unit} (h : domain m draft = .ok draft') : m.run draft = .ok () draft' := by
  unfold domain at h
  split at h
  . next d hrun =>
    injection h with h
    rw [hrun, h]
  . cases h
  . cases h

theorem domain_of_run {m : DraftM Unit} (h : m.run draft = .ok () draft') : domain m draft = .ok draft' := by
  unfold domain
  rw [h]

theorem edit_cases (h : request.edit context draft = .ok draft')
    : draft.state = .active
        ∧ ((∃ command, Asks context draft request draft.revision command
            ∧ Edited context.now draft command draft')
          ∨ request = .delete
            ∧ draft' = { draft with state := .discarded, updatedAt := context.now }) := by
  have hedited : ∀ {expectedRevision command}, Asks context draft request expectedRevision command →
      (command.exec context.now expectedRevision).run draft = .ok () draft' →
        draft.state = .active ∧ ∃ command, Asks context draft request draft.revision command
          ∧ Edited context.now draft command draft' := by
    intro expectedRevision command hasks hrun
    obtain ⟨hactive, rfl, hedited⟩ := Command.edited_of_run_exec hrun
    exact ⟨hactive, command, hasks, hedited⟩
  cases request with
  | apply operationId body =>
    simp only [EditRequest.edit] at h
    cases hoperation : body.operation.toDomain with
    | error message =>
      rw [hoperation] at h
      cases h
    | ok operation =>
      rw [hoperation] at h
      obtain ⟨hactive, hcommand⟩ := hedited (.apply hoperation) (domain_eq_ok h)
      exact ⟨hactive, .inl hcommand⟩
  | undo body =>
    obtain ⟨hactive, hcommand⟩ := hedited .undo (domain_eq_ok h)
    exact ⟨hactive, .inl hcommand⟩
  | redo body =>
    obtain ⟨hactive, hcommand⟩ := hedited .redo (domain_eq_ok h)
    exact ⟨hactive, .inl hcommand⟩
  | reset body =>
    simp only [EditRequest.edit] at h
    cases hbase : draft.baseRouteVersionId with
    | none =>
      rw [hbase] at h
      cases h
    | some baseVersionId =>
      rw [hbase] at h
      replace h : (gateway (context.gateways.getRouteVersionGeometry baseVersionId
          draft.activityId) >>= fun baseGeometry =>
            domain (RouteDraft.reset context.now body.expectedRevision baseGeometry) draft)
          = .ok draft' := h
      cases hgeometry : context.gateways.getRouteVersionGeometry baseVersionId draft.activityId with
      | error e =>
        rw [hgeometry] at h
        cases h
      | ok baseGeometry =>
        rw [hgeometry] at h
        obtain ⟨hactive, hcommand⟩ := hedited (.reset hbase hgeometry) (domain_eq_ok h)
        exact ⟨hactive, .inl hcommand⟩
  | delete =>
    have hrun := domain_eq_ok h
    by_cases hactive : draft.state = .active
    . rw [RouteDraft.run_discard hactive] at hrun
      injection hrun with _ hrun
      exact ⟨hactive, .inr ⟨rfl, hrun.symm⟩⟩
    . rw [RouteDraft.run_discard_of_not_active hactive] at hrun
      cases hrun

-- neither the owner nor the id of a draft is changed
theorem id_of_edit (h : request.edit context draft = .ok draft') : draft'.id = draft.id := by
  obtain ⟨_, ⟨_, _, hedited⟩ | ⟨_, rfl⟩⟩ := edit_cases h
  . exact hedited.id_eq
  . rfl

theorem nodup_of_edit (h : request.edit context draft = .ok draft')
    (hdistinct : (draft.operations.map (·.id)).Nodup) : (draft'.operations.map (·.id)).Nodup := by
  obtain ⟨_, ⟨_, _, hedited⟩ | ⟨_, rfl⟩⟩ := edit_cases h
  . exact RouteDraft.nodup_of_edited hdistinct hedited
  . exact hdistinct

theorem revision_of_loaded (h : loaded s draftId = some draft)
    : ∃ row, s.drafts.find? draftId.val = some row ∧ row.revision = draft.revision := by
  rw [loaded, Option.map_eq_some_iff] at h
  obtain ⟨row, hrow, rfl⟩ := h
  exact ⟨row, hrow, rfl⟩

-- a draft that still has the revision it was loaded with does not get past the optimistic lock
theorem not_unlocked_of_loaded (h : loaded s draftId = some draft)
    (hid : draft'.id = draftId) (hrevision : draft'.revision = draft.revision)
    : ¬Unlocked s draft' := by
  rintro ⟨other, hother, hlock⟩
  obtain ⟨row, hrow, hloaded⟩ := revision_of_loaded h
  rw [hid, hrow, Option.some.injEq] at hother
  rw [← hother] at hlock
  omega

theorem bind_eq_ok {ε α β : Type} {x : Except ε α} {f : α → Except ε β} {b : β}
    (h : (x >>= f) = .ok b) : ∃ a, x = .ok a ∧ f a = .ok b := by
  cases x with
  | error e => cases h
  | ok a => exact ⟨a, rfl, h⟩

theorem gateway_eq_ok {α : Type} {x : Except RouteEditingError α} {a : α} (h : gateway x = .ok a)
    : x = .ok a := by
  cases x with
  | error e => cases h
  | ok b =>
    injection h with h
    rw [h]

theorem create_of_newDraft {id : RouteDraftId} {activityId : ActivityCatalog.ActivityId}
    {body : CreateRouteDraftRequest} {geometry : Geometry}
    (h : newDraft context id activityId body geometry = .ok draft)
    : RouteDraft.createFromGeometry id context.now context.actor activityId body.baseRouteVersionId
        geometry = .ok draft := by
  unfold newDraft at h
  obtain ⟨_, _, h⟩ := bind_eq_ok h
  cases hbase : body.baseRouteVersionId with
  | none =>
    rw [hbase] at h
    exact gateway_eq_ok h
  | some baseVersionId =>
    rw [hbase] at h
    obtain ⟨_, _, h⟩ := bind_eq_ok h
    exact gateway_eq_ok h

-- gateways that know the version 4, and allow every draft
def sampleGateways : Gateways where
  validateActivityForDraft := fun _ _ => .ok ()
  validateRouteVersionExists := fun _ _ => .ok ()
  getRouteVersionGeometry := fun baseVersionId _ =>
    if baseVersionId = ⟨4⟩ then .ok RouteDraft.sampleGeometry else .error .invalidBaseRouteVersion

-- the owner of the sample draft
def sampleContext : Context where
  actor := ⟨⟨3⟩⟩
  now := 1000
  gateways := sampleGateways

def sampleMove (latitude : ℚ) (expectedRevision : Nat) : ApplyOperationRequest where
  operation := .movePoint 0 1 { latitude := .fin latitude, longitude := .fin 7 }
  expectedRevision

end Api
