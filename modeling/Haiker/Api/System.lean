import Haiker.Api.Clients
import Haiker.RouteVersioning.Lemmas.PublicationCommit

/-!
This module contains requests of all kinds that work on the database at the same time: edits,
publications and creations of drafts.
-/

open Rust
open RouteEditing
open RouteEditing.PgRouteDraftRepository
open RouteVersioning

namespace Api

inductive PublicationPhase where
  | start
  -- there was no event under the idempotency key
  | passed
  | finished
  deriving DecidableEq

structure Publication where
  externals : Externals
  data : PublicationCommitData
  phase : PublicationPhase

namespace Publication

def goto (publication : Publication) (phase : PublicationPhase) : Publication :=
  { publication with phase }

-- from the lock on the draft's row to its end, the transaction is one step
def step (db : Database) (publication : Publication) : Database × Publication :=
  match publication.phase with
  | .start =>
    match replayCommit publication.externals publication.data db with
    | .ok none => (db, publication.goto .passed)
    | .ok (some _) | .error _ => (db, publication.goto .finished)
  | .passed =>
    (after (transaction (publish publication.externals publication.data)) db,
      publication.goto .finished)
  | .finished => (db, publication)

end Publication

inductive CreationPhase where
  | start
  -- no draft of the activity was active
  | checked (geometry : Geometry)
  | finished
  deriving DecidableEq

structure Creation where
  context : Context
  id : RouteDraftId
  activityId : ActivityCatalog.ActivityId
  body : CreateRouteDraftRequest
  phase : CreationPhase

namespace Creation

def goto (creation : Creation) (phase : CreationPhase) : Creation := { creation with phase }

-- the draft that the request makes of its geometry
def new (creation : Creation) (geometry : Geometry) : Except (Fault ApiError) RouteDraft :=
  newDraft creation.context creation.id creation.activityId creation.body geometry

def check (s : Store) (creation : Creation) : CreationPhase :=
  match geometryToDomain creation.body.geometry with
  | .error _ => .finished
  | .ok geometry =>
    match outcome (findActiveByActivity creation.activityId creation.context.actor) s with
    | .ok none => .checked geometry
    | .ok (some _) | .error _ => .finished

def step (s : Store) (creation : Creation) : Store × Creation :=
  match creation.phase with
  | .start => (s, creation.goto (check s creation))
  | .checked geometry =>
    match creation.new geometry with
    | .ok draft => (after (save draft) s, creation.goto .finished)
    | .error _ => (s, creation.goto .finished)
  | .finished => (s, creation)

end Creation

inductive Task where
  | edit (client : Client)
  | publish (publication : Publication)
  | create (creation : Creation)

namespace Task

def step (db : Database) : Task → Database × Task
  | .edit client =>
    let (routeEditing, client) := client.step db.routeEditing
    ({ db with routeEditing }, .edit client)
  | .publish publication =>
    let (db, publication) := publication.step db
    (db, .publish publication)
  | .create creation =>
    let (routeEditing, creation) := creation.step db.routeEditing
    ({ db with routeEditing }, .create creation)

end Task

/-
What a step can do to the store.
-/

variable {db : Database} {s : Store} {publication : Publication} {creation : Creation}
  {draft : RouteDraft}

namespace Publication

theorem step_cases (db : Database) (publication : Publication)
    : (publication.step db).1 = db
        ∨ ∃ row, db.routeEditing.drafts.find? publication.data.draftId.val = some row
          ∧ row.state = "active"
          ∧ (publication.step db).1.routeEditing
            = markPublished publication.externals.now publication.data.draftId db.routeEditing := by
  unfold step
  cases publication.phase with
  | start =>
    apply Or.inl
    simp only
    split
    . rfl
    . rfl
    . rfl
  | passed =>
    rcases publish_cases publication.externals publication.data db with
      ⟨e, hrun⟩ | ⟨db', result, row, version, hrun, hpublished⟩
    . exact .inl (after_of_run_error hrun)
    . obtain ⟨hrow, _, hactive, _⟩ := lockDraft_eq_ok hpublished.locked
      refine .inr ⟨row, hrow, hactive, ?_⟩
      simp only [after_of_run_ok hrun, hpublished.routeEditing]
  | finished => exact .inl rfl

/--
A publication that is alone does in its steps what the commit does in one go.
-/
theorem run_alone (db : Database) (publication : Publication)
    : (Interleaving.run step ⟨db, fun _ : Unit => publication.goto .start⟩
        (List.replicate 2 ())).shared
          = after (commit publication.externals publication.data) db := by
  rw [List.replicate_succ, Interleaving.run_cons, Interleaving.fire_alone]
  unfold after
  simp only [step, goto]
  cases hreplay : replayCommit publication.externals publication.data db with
  | error e =>
    rw [run_commit_of_error hreplay]
    rfl
  | ok result =>
    cases result with
    | none =>
      rw [run_commit_of_new hreplay]
      rfl
    | some result =>
      rw [run_commit_of_replay hreplay]
      rfl

end Publication

namespace Creation

-- the draft that the next step of a creation inserts
def inserting (s : Store) (creation : Creation) : Option RouteDraft :=
  match creation.phase with
  | .checked geometry =>
    match creation.new geometry with
    | .ok draft => if s.drafts.find? draft.id.val = none then some draft else none
    | .error _ => none
  | .start | .finished => none

theorem new_eq_ok {geometry : Geometry} (h : creation.new geometry = .ok draft)
    : draft.id = creation.id ∧ draft.activityId = creation.activityId
        ∧ draft.ownerId = creation.context.actor ∧ draft.state = .active
        ∧ draft.appliedOperations = [] := by
  have hcreate := create_of_newDraft h
  rw [RouteDraft.createFromGeometry_eq_ok_iff] at hcreate
  obtain ⟨_, rfl⟩ := hcreate
  exact ⟨rfl, rfl, rfl, rfl, rfl⟩

theorem inserting_eq_some_iff
    : inserting s creation = some draft
        ↔ ∃ geometry, creation.phase = .checked geometry ∧ creation.new geometry = .ok draft
          ∧ s.drafts.find? draft.id.val = none := by
  unfold inserting
  cases creation.phase with
  | start | finished => simp
  | checked geometry =>
    cases hnew : creation.new geometry with
    | error e => simp [hnew]
    | ok other =>
      simp only [hnew, Option.ite_none_right_eq_some, Option.some.injEq, CreationPhase.checked.injEq]
      constructor
      . rintro ⟨hfree, rfl⟩
        exact ⟨geometry, rfl, hnew, hfree⟩
      . rintro ⟨_, rfl, hother, hfree⟩
        rw [hnew] at hother
        injection hother with hother
        subst hother
        exact ⟨hfree, rfl⟩

theorem step_of_inserting (h : inserting s creation = some draft)
    : ∃ drafts, s.drafts.insert? (rowOfDraft draft) = some drafts
        ∧ (creation.step s).1 = { s with drafts } := by
  obtain ⟨geometry, hphase, hnew, hfree⟩ := inserting_eq_some_iff.mp h
  obtain ⟨_, _, _, _, happlied⟩ := new_eq_ok hnew
  have hrun := run_save happlied s
  cases hinsert : s.drafts.insert? (rowOfDraft draft) with
  | none =>
    rw [Sql.Table.insert?_eq_none_iff] at hinsert
    rw [rowOfDraft, hfree] at hinsert
    cases hinsert
  | some drafts =>
    rw [hinsert] at hrun
    refine ⟨drafts, rfl, ?_⟩
    unfold step
    simp only [hphase, hnew, after_of_run_ok hrun]

theorem step_of_not_inserting (h : inserting s creation = none) : (creation.step s).1 = s := by
  unfold step
  unfold inserting at h
  cases hphase : creation.phase with
  | start | finished => rfl
  | checked geometry =>
    simp only [hphase] at h ⊢
    cases hnew : creation.new geometry with
    | error e => rfl
    | ok draft =>
      simp only [hnew] at h ⊢
      obtain ⟨_, _, _, _, happlied⟩ := new_eq_ok hnew
      have hrun := run_save happlied s
      split at hrun
      . next drafts hinsert =>
        have hfree : s.drafts.find? (rowOfDraft draft).id = none :=
          Sql.Table.find?_eq_none_of_insert? hinsert
        rw [rowOfDraft] at hfree
        simp [hfree] at h
      . exact after_of_run_error hrun

theorem run_finished (s : Store) (creation : Creation) (n : Nat)
    : (Interleaving.run step ⟨s, fun _ : Unit => creation.goto .finished⟩
        (List.replicate n ())).shared = s := by
  induction n with
  | zero => rfl
  | succ n ih =>
    rw [List.replicate_succ, Interleaving.run_cons, Interleaving.fire_alone]
    exact ih

theorem run_checked (s : Store) (creation : Creation) (geometry : Geometry)
    : (Interleaving.run step ⟨s, fun _ : Unit => creation.goto (.checked geometry)⟩
        (List.replicate 1 ())).shared
          =
      match creation.new geometry with
      | .ok draft => after (save draft) s
      | .error _ => s := by
  rw [List.replicate_succ, Interleaving.run_cons, Interleaving.fire_alone]
  simp only [step, goto, new]
  split
  . rfl
  . rfl

/--
A creation that is alone does in its steps what the handler does in one go.
-/
theorem run_alone (s : Store) (creation : Creation)
    : (Interleaving.run step ⟨s, fun _ : Unit => creation.goto .start⟩ (List.replicate 2 ())).shared
        = after (postCreateDraft creation.context creation.id creation.activityId creation.body)
            s := by
  have hcheck : step s (creation.goto .start) = (s, creation.goto (check s creation)) := rfl
  rw [List.replicate_succ, Interleaving.run_cons, Interleaving.fire_alone, hcheck, check]
  unfold postCreateDraft
  cases geometryToDomain creation.body.geometry with
  | error message =>
    simp only
    rw [run_finished]
    rfl
  | ok geometry =>
    obtain ⟨found, hfind, _⟩ :=
      run_findActiveByActivity creation.activityId creation.context.actor s
    have hrepository : (repository (findActiveByActivity creation.activityId
        creation.context.actor)).run s = .ok found s := by
      rw [repository, run_mapErr, hfind]
    simp only [outcome_of_run_ok hfind]
    unfold after
    rw [EStateM.run_bind, EStateM.run_pure]
    simp only [EStateM.run_bind, hrepository]
    cases found with
    | some draft =>
      simp only
      rw [run_finished]
      cases existingDraft creation.body draft with
      | ok response => rfl
      | error e => rfl
    | none =>
      simp only
      rw [run_checked, new]
      cases newDraft creation.context creation.id creation.activityId creation.body geometry with
      | error e => rfl
      | ok draft =>
        simp only [run_ofResult_ok, EStateM.run_bind, repository, run_mapErr, after]
        cases (save draft).run s with
        | ok _ s' => rfl
        | error e s' =>
          cases e with
          | err e => rfl
          | panic => rfl

end Creation

end Api
