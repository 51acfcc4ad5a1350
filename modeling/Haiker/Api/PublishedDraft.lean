import Haiker.Api.System
import Haiker.RouteEditing.Persistence

/-!
This module contains when a published draft stays as it was published. A publication changes the state
of the draft but not its revision, which is all that the update of an edit asks for.
-/

open Rust
open RouteEditing
open RouteEditing.PgRouteDraftRepository
open RouteVersioning
open Interleaving

namespace Api

variable {ι : Type} [DecidableEq ι]

section Draft

variable (draftId : RouteDraftId)

/--
If the draft is published, the step of client `i` leaves state, geometry, revision and operations.
-/
def KeepsPublished (c : Config Database Task ι) (i : ι) : Prop :=
  ∀ row, c.shared.routeEditing.drafts.find? draftId.val = some row → row.state = "published" →
    ∃ row', (fire Task.step c i).shared.routeEditing.drafts.find? draftId.val = some row'
      ∧ row'.state = "published" ∧ row'.geometry = row.geometry ∧ row'.revision = row.revision
      ∧ selectOperations (fire Task.step c i).shared.routeEditing draftId.val
        = selectOperations c.shared.routeEditing draftId.val

-- the step of client `i` is no update that finds the draft published and at the revision it asks for
def UpdatesUnpublished (c : Config Database Task ι) (i : ι) : Prop :=
  ∀ client draft row, c.clients i = .edit client →
    Client.committing c.shared.routeEditing client = some draft →
      c.shared.routeEditing.drafts.find? draftId.val = some row → row.state ≠ "published"

-- the edit requests are on the draft
def EditsDraft (task : Task) : Prop :=
  ∀ client, task = .edit client → client.draftId = draftId ∧ client.Sound

end Draft

variable {draftId : RouteDraftId} {db : Database} {row : DraftRow}

theorem editsDraft_step (db : Database) {task : Task} (h : EditsDraft draftId task)
    : EditsDraft draftId (Task.step db task).2 := by
  cases task with
  | edit client =>
    obtain ⟨hid, hsound⟩ := h client rfl
    intro other hother
    simp only [Task.step, Task.edit.injEq] at hother
    rw [← hother]
    refine ⟨?_, Client.sound_step _ hsound⟩
    rw [Client.draftId_step, hid]
  | publish publication =>
    intro client hclient
    cases hclient
  | create creation =>
    intro client hclient
    cases hclient

/-
The steps that leave a published draft alone.
-/

theorem publication_keeps (publication : Publication)
    (hrow : db.routeEditing.drafts.find? draftId.val = some row) (hpublished : row.state = "published")
    : (publication.step db).1.routeEditing.drafts.find? draftId.val = some row
        ∧ selectOperations (publication.step db).1.routeEditing draftId.val
          = selectOperations db.routeEditing draftId.val := by
  rcases publication.step_cases db with hsame | ⟨active, hactive, hstate, hstore⟩
  . rw [hsame]
    exact ⟨hrow, rfl⟩
  . have hid : row.id = draftId.val := Sql.Table.key_of_find? hrow
    have hne : row.id ≠ publication.data.draftId.val := by
      intro heq
      rw [← heq, hid, hrow, Option.some.injEq] at hactive
      rw [← hactive, hpublished] at hstate
      simp at hstate
    rw [hstore, find?_markPublished, hrow, Option.map_some, if_neg hne]
    exact ⟨rfl, rfl⟩

theorem creation_keeps {s : Store} (creation : Creation)
    (hrow : s.drafts.find? draftId.val = some row)
    : (creation.step s).1.drafts.find? draftId.val = some row
        ∧ selectOperations (creation.step s).1 draftId.val = selectOperations s draftId.val := by
  cases hinserting : creation.inserting s with
  | none =>
    rw [Creation.step_of_not_inserting hinserting]
    exact ⟨hrow, rfl⟩
  | some draft =>
    obtain ⟨drafts, hinsert, hstore⟩ := Creation.step_of_inserting hinserting
    have hfree := Sql.Table.find?_eq_none_of_insert? hinsert
    have hne : draftId.val ≠ (rowOfDraft draft).id := by
      intro heq
      rw [← heq, hrow] at hfree
      cases hfree
    rw [hstore]
    refine ⟨?_, rfl⟩
    rw [Sql.Table.find?_insert? hinsert, if_neg hne, hrow]

/--
An edit leaves a published draft alone exactly if it does not update it, as an update would raise the
revision.
-/
theorem keepsPublished_iff {c : Config Database Task ι} {i : ι}
    (h : EditsDraft draftId (c.clients i))
    : KeepsPublished draftId c i ↔ UpdatesUnpublished draftId c i := by
  unfold KeepsPublished UpdatesUnpublished fire
  cases hclient : c.clients i with
  | publish publication =>
    constructor
    . intro _ _ _ _ hedit
      cases hedit
    . intro _ row hrow hpublished
      obtain ⟨hkept, hoperations⟩ := publication_keeps publication hrow hpublished
      exact ⟨row, hkept, hpublished, rfl, rfl, hoperations⟩
  | create creation =>
    constructor
    . intro _ _ _ _ hedit
      cases hedit
    . intro _ row hrow hpublished
      obtain ⟨hkept, hoperations⟩ := creation_keeps creation hrow
      exact ⟨row, hkept, hpublished, rfl, rfl, hoperations⟩
  | edit client =>
    obtain ⟨hid, hsound⟩ := h client hclient
    have hstore : (Task.step c.shared (.edit client)).1.routeEditing
        = (client.step c.shared.routeEditing).1 := rfl
    rw [hstore]
    constructor
    . intro hkeeps other draft row hother hcommit hrow hpublished
      injection hother with hother
      subst hother
      obtain ⟨row', hrow', _, _, hrevision, _⟩ := hkeeps row hrow hpublished
      obtain ⟨_, _, _, hlock, _⟩ := Client.of_committing hsound hcommit
      have hdraft : draft.id = draftId := (Client.id_of_committing hsound hcommit).trans hid
      obtain ⟨found, hfound, hraised, hwritten⟩ := unlocked_revision hlock
      rw [hdraft, hrow, Option.some.injEq] at hfound
      rw [Client.store_step_of_committing hcommit, ← hdraft, hwritten, Option.some.injEq] at hrow'
      have hstored : (setDraft draft found).revision = draft.revision := rfl
      rw [← hrow', hstored] at hrevision
      rw [← hfound] at hraised
      omega
    . intro hcond row hrow hpublished
      have hsame : (client.step c.shared.routeEditing).1 = c.shared.routeEditing := by
        rw [Client.store_step]
        cases hcommit : client.committing c.shared.routeEditing with
        | none => rfl
        | some draft => exact absurd hpublished (hcond client draft row rfl hcommit hrow)
      rw [hsame]
      exact ⟨row, hrow, hpublished, rfl, rfl, rfl⟩

/--
In every run of publications and creations together with edits of one draft: from the moment the draft
is published, no step changes its state, geometry, revision or operations, exactly if no update runs
that finds the draft published and still at the revision it was edited at.
-/
theorem published_immutable_iff (draftId : RouteDraftId) (c : Config Database Task ι)
    (hclients : ∀ i client, c.clients i = .edit client → client.draftId = draftId ∧ client.Waiting)
    (schedule : List ι)
    : Along Task.step (KeepsPublished draftId) c schedule
        ↔ Along Task.step (UpdatesUnpublished draftId) c schedule := by
  have hedits : Holds (fun _ : Database => True) (fun (_ : ι) _ task => EditsDraft draftId task) c := by
    refine ⟨trivial, ?_⟩
    intro i client hclient
    obtain ⟨hid, hwaiting⟩ := hclients i client hclient
    exact ⟨hid, Client.sound_of_waiting hwaiting⟩
  apply hedits.along_congr
  . intro c i h
    exact keepsPublished_iff (h.2 i)
  . intro _ db task _ h
    exact ⟨trivial, editsDraft_step db h⟩
  . intro _ _ _ _ _ _ _ _ h
    exact h

-- a draft of two points, in the form that the publication parses
def samplePublishable : Database where
  routeEditing := {
    drafts := {
      rows := [{
        id := ⟨1⟩
        activityId := ⟨2⟩
        ownerId := ⟨3⟩
        baseRouteVersionId := some ⟨4⟩
        revision := 0
        geometry := .arr [.arr [
          .obj [("latitude", .int 46), ("longitude", .int 7)],
          .obj [("latitude", .int 47), ("longitude", .int 7)]
        ]]
        state := "active"
        createdAt := 0
        updatedAt := 0
      }]
      unique := List.nodup_singleton _
    }
    draftOperations := .empty
  }
  routeVersions := {
    rows := [{
      id := ⟨4⟩
      activityId := ⟨2⟩
      parentVersionId := none
      versionNumber := 1
      geometryJson := .arr []
      boundingBoxJson := .null
      correctedStatisticsJson := none
      calculationVersion := "v1.0"
      editSummary := none
      createdBy := ⟨3⟩
      createdAt := 0
    }]
    unique := List.nodup_singleton _
  }
  activities := .empty
  outbox := .empty

def sampleExternals : Externals where
  now := 2000
  newVersionId := ⟨8⟩
  newEventId := ⟨9⟩
  uuidToString := fun id => toString id.bits.toNat
  parseUuid := fun text => match text.toNat? with
    | some n => .ok ⟨n⟩
    | none => .error "invalid character"
  hash := fun draftId expectedRevision _ =>
    toString draftId.val.bits.toNat ++ ":" ++ toString expectedRevision
  totalDistance := fun coords => .fin (111195 * (coords.length - 1))
  geometryError := fun _ => "invalid type"

-- a reset of the draft and its publication
def samplePublishers : Bool → Task
  | false => .edit ⟨sampleContext, ⟨⟨1⟩⟩, .reset { expectedRevision := 0 }, .start⟩
  | true => .publish {
      externals := sampleExternals
      data := {
        draftId := ⟨⟨1⟩⟩
        expectedRevision := 0
        actorId := ⟨⟨3⟩⟩
        idempotencyKey := ⟨20⟩
        editSummary := none
      }
      phase := .start
    }

-- the draft is loaded and reset, published, and then the reset is stored
def sampleLateUpdate : List Bool := [false, false, false, false, true, true]

theorem published_immutable_iff_samplePublishers
    : Along Task.step (KeepsPublished ⟨⟨1⟩⟩) ⟨samplePublishable, samplePublishers⟩
          (sampleLateUpdate ++ [false])
        ↔
      Along Task.step (UpdatesUnpublished ⟨⟨1⟩⟩) ⟨samplePublishable, samplePublishers⟩
        (sampleLateUpdate ++ [false]) := by
  apply published_immutable_iff
  intro i client hclient
  cases i with
  | false =>
    injection hclient with hclient
    rw [← hclient]
    exact ⟨rfl, .inl rfl⟩
  | true => cases hclient

-- the row of the draft, as far as the publication fixes it
def samplePublishedRow (schedule : List Bool) : Option (String × Nat × Nat) :=
  ((run Task.step ⟨samplePublishable, samplePublishers⟩ schedule).shared.routeEditing.drafts.find?
    ⟨1⟩).map fun row => (row.state, row.revision, (jsonToGeometry row.geometry).length)

/--
The update of an edit that was loaded before the publication makes the published draft active again,
with another revision and another geometry.
-/
theorem published_draft_active_again
    : samplePublishedRow sampleLateUpdate = some ("published", 0, 0)
        ∧ samplePublishedRow (sampleLateUpdate ++ [false]) = some ("active", 1, 1)
        ∧ ¬Along Task.step (KeepsPublished ⟨⟨1⟩⟩) ⟨samplePublishable, samplePublishers⟩
          (sampleLateUpdate ++ [false]) := by
  have hbefore : samplePublishedRow sampleLateUpdate = some ("published", 0, 0) := by
    decide
  have hafter : samplePublishedRow (sampleLateUpdate ++ [false]) = some ("active", 1, 1) := by
    decide
  refine ⟨hbefore, hafter, ?_⟩
  intro h
  obtain ⟨row, hrow, hpublished⟩ := Option.map_eq_some_iff.mp hbefore
  rw [Prod.mk.injEq] at hpublished
  have hlast : KeepsPublished ⟨⟨1⟩⟩
      (run Task.step ⟨samplePublishable, samplePublishers⟩ sampleLateUpdate) false := h.last
  obtain ⟨row', hrow', hkept, _⟩ := hlast row hrow hpublished.1
  rw [samplePublishedRow, run_append] at hafter
  have hfire : (run Task.step (run Task.step ⟨samplePublishable, samplePublishers⟩ sampleLateUpdate)
      [false]).shared.routeEditing.drafts.find? ⟨1⟩ = some row' := hrow'
  rw [hfire, Option.map_some, Option.some.injEq, Prod.mk.injEq, hkept] at hafter
  simp at hafter

end Api
