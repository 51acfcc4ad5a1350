import Haiker.RouteEditing.Lemmas.Repository
import Haiker.RouteVersioning.Equivalence

/-!
This module contains when the publication of the domain leaves nothing behind if it fails. The update of
the draft is the one of its repository, which has an optimistic lock, and any call may fail without effect.
-/

open Rust
open RecordedActivity (BoundingBox)
open RouteEditing (DraftRow RouteDraft)

namespace RouteVersioning

/--
Which calls fail, and with what message.
-/
abbrev PublishFaults := Nat → Option String

namespace PublishCall

def failed (message : String) : (call : PublishCall) → call.Reply
  | .findByIdempotencyKey _ | .findLatestByActivity _ | .save _ | .updateActivityCurrentVersion .. =>
    .error (.persistenceError message)
  | .findById _ | .update _ => .error (.operationFailed message)

def perform (externals : Externals) (contents : Contents) : (call : PublishCall) → Database → call.Reply × Database
  | .update draft, db =>
    match (RouteEditing.PgRouteDraftRepository.update draft).run db.routeEditing with
    | .ok _ routeEditing => (.ok (), { db with routeEditing })
    | .error (.err e) routeEditing => (.error e, { db with routeEditing })
    -- `draft.revision - 1` in the error, which a build without overflow checks wraps around
    | .error .panic routeEditing =>
      (.error (.revisionConflict (usizeSize - 1) draft.revision), { db with routeEditing })
  | .updateActivityCurrentVersion activityId routeVersionId correctedSummary, db =>
    match db.activities.find? activityId.val with
    | none => (.error .activityNotFound, db)
    | some _ =>
      carryOut externals contents (.updateActivityCurrentVersion activityId routeVersionId correctedSummary) db
  | call, db => call.carryOut externals contents db

-- the state is the database with the number of calls that have been made
def answer (externals : Externals) (contents : Contents) (faults : PublishFaults) (call : PublishCall)
    (s : Database × Nat) : call.Reply × Database × Nat :=
  match faults s.2 with
  | some message => (call.failed message, s.1, s.2 + 1)
  | none =>
    let (reply, db) := call.perform externals contents s.1
    (reply, db, s.2 + 1)

end PublishCall

def PublishRouteVersionCommand.data (command : PublishRouteVersionCommand) : PublicationCommitData where
  draftId := command.draftId
  expectedRevision := command.expectedRevision
  actorId := command.actorId
  idempotencyKey := command.idempotencyKey
  editSummary := command.editSummary

section Publication

variable (externals : Externals) (contents : Contents) (faults : PublishFaults)
  (command : PublishRouteVersionCommand) (db : Database)

def publication : Except RouteVersioningError RouteVersion × Database :=
  let (result, db, _) :=
    Program.execute (PublishCall.answer externals contents faults) (executePublish externals command) (db, 0)
  (result, db)

/--
No version is new, the drafts are in the states that they were in, and so are the pointers.
-/
structure Unpublished (db' : Database) : Prop where
  versions : db'.routeVersions = db.routeVersions
  drafts : ∀ id, (db'.routeEditing.drafts.find? id).map (·.state)
    = (db.routeEditing.drafts.find? id).map (·.state)
  pointers : ∀ id, (db'.activities.find? id).map (·.currentRouteVersionId)
    = (db.activities.find? id).map (·.currentRouteVersionId)

/--
A draft that can be published, with the version that it comes after.
-/
structure Ready (row : DraftRow) (parent : RouteVersionRow) : Prop where
  publishes : Publishes command.data db row
  publishable : Publishable row
  latest : latestVersion row.activityId db = .ok parent
  number : 1 ≤ parent.versionNumber
  fresh : db.routeVersions.find? externals.newVersionId = none

-- the key is of a version that is there, or there is a draft to publish, of an activity that is there
def Valid : Prop :=
  versionOfKey externals db command.idempotencyKey ≠ none
    ∨ ∃ row parent, Ready externals command db row parent ∧ db.activities.find? row.activityId ≠ none

/--
A failure leaves nothing behind, and a valid command succeeds if no collaborator fails.
-/
structure Atomic : Prop where
  failure : ∀ e, (publication externals contents faults command db).1 = .error e →
    Unpublished db (publication externals contents faults command db).2
  success : (∀ n, faults n = none) → Valid externals command db →
    ∃ version, (publication externals contents faults command db).1 = .ok version

-- there is a draft to publish, and no call up to the one that saves the version fails
def WillSave (n : Nat) : Prop :=
  (∀ k, n ≤ k → k ≤ 3 → faults k = none) ∧ ∃ row parent, Ready externals command db row parent

/--
Nothing has been published under the key, and the version is saved.
-/
def Saves : Prop :=
  versionOfKey externals db command.idempotencyKey = none ∧ WillSave externals faults command db 0

end Publication

variable {externals : Externals} {contents : Contents} {faults : PublishFaults}
  {command : PublishRouteVersionCommand} {db : Database} {row : DraftRow}
  {parent : RouteVersionRow} {n : Nat}

theorem answer_of_fault {message : String} (h : faults n = some message) (call : PublishCall)
    : call.answer externals contents faults (db, n) = (call.failed message, db, n + 1) := by
  unfold PublishCall.answer
  rw [h]

theorem answer_of_none (h : faults n = none) (call : PublishCall)
    : call.answer externals contents faults (db, n)
        = ((call.perform externals contents db).1, (call.perform externals contents db).2, n + 1) := by
  unfold PublishCall.answer
  rw [h]

/-
The draft is never updated: its revision is the stored one, not the one after it.
-/

theorem update_refused (externals : Externals) (contents : Contents) (faults : PublishFaults)
    (hfound : db.routeEditing.drafts.find? row.id = some row) {draft : RouteDraft}
    (hid : draft.id.val = row.id) (hrevision : draft.revision = row.revision) (n : Nat)
    : ∃ e, (PublishCall.update draft).answer externals contents faults (db, n) = (.error e, db, n + 1) := by
  have hlocked : ¬RouteEditing.PgRouteDraftRepository.Unlocked db.routeEditing draft := by
    rintro ⟨other, hother, hnext⟩
    rw [hid, hfound, Option.some.injEq] at hother
    subst hother
    omega
  cases hfault : faults n with
  | some message => exact ⟨_, answer_of_fault hfault _⟩
  | none =>
    rw [answer_of_none hfault, PublishCall.perform, RouteEditing.PgRouteDraftRepository.run_update,
      if_neg hlocked]
    by_cases hzero : draft.revision = 0
    . rw [if_pos hzero]
      exact ⟨_, rfl⟩
    . rw [if_neg hzero]
      exact ⟨_, rfl⟩

/--
The publication fails, one step after it has saved the version or without having written anything.
-/
structure Fails (saves : Prop) (db : Database)
    (result : Except RouteVersioningError RouteVersion × Database × Nat) : Prop where
  error : ∃ e, result.1 = .error e
  saved : saves → result.2.1.routeVersions ≠ db.routeVersions
  clean : ¬saves → result.2.1 = db

theorem fails_of_not {saves : Prop} (h : ¬saves) (e : RouteVersioningError) (n : Nat)
    : Fails saves db (.error e, db, n) :=
  ⟨⟨e, rfl⟩, fun hsaves => absurd hsaves h, fun _ => rfl⟩

theorem not_willSave_of_fault {message : String} (h : faults n = some message) (hn : n ≤ 3)
    : ¬WillSave externals faults command db n := by
  intro hsaves
  have hnone := hsaves.1 n le_rfl hn
  rw [h] at hnone
  cases hnone

theorem willSave_succ (h : faults n = none)
    : WillSave externals faults command db n ↔ WillSave externals faults command db (n + 1) := by
  unfold WillSave
  apply and_congr_left'
  constructor
  . intro hcalls k hn hk
    exact hcalls k (by omega) hk
  . intro hcalls k hn hk
    by_cases heq : k = n
    . rw [heq, h]
    . exact hcalls k (by omega) hk

theorem Ready.row_eq {row' : DraftRow} (h : Ready externals command db row parent)
    (hfound : db.routeEditing.drafts.find? command.draftId.val = some row') : row = row' :=
  Option.some.inj (h.publishes.found.symm.trans hfound)

theorem Ready.latest_of_found {row' : DraftRow} (h : Ready externals command db row parent)
    (hfound : db.routeEditing.drafts.find? command.draftId.val = some row')
    : latestVersion row'.activityId db = .ok parent := by
  rw [← h.row_eq hfound]
  exact h.latest

section Loaded

variable (externals : Externals) (contents : Contents) (faults : PublishFaults) (box : BoundingBox)
  (hpublishes : Publishes command.data db row)

include hpublishes

theorem fails_store (hok : Publishable row) (hlatest : latestVersion row.activityId db = .ok parent)
    (hnumber : 1 ≤ parent.versionNumber)
    : Fails (WillSave externals faults command db 3) db
        (Program.execute (PublishCall.answer externals contents faults) (do
          PublishRouteVersionCommand.store externals (loadedDraft db row)
            (specifiedVersion externals command.data row parent box)
          return specifiedVersion externals command.data row parent box) (db, 3)) := by
  have hactive : (loadedDraft db row).state = .active := parseState_eq_active_iff.mpr hpublishes.active
  have hfound : db.routeEditing.drafts.find? row.id = some row := by
    have hrow := hpublishes.found
    rw [← Sql.Table.key_of_find? hrow] at hrow
    exact hrow
  unfold PublishRouteVersionCommand.store
  simp only [Program.execute_bind, execute_save]
  cases hfault : faults 3 with
  | some message =>
    rw [answer_of_fault hfault]
    exact fails_of_not (not_willSave_of_fault hfault le_rfl) _ _
  | none =>
    rw [answer_of_none hfault]
    simp only [PublishCall.perform, PublishCall.carryOut]
    cases hinsert : db.routeVersions.insert? (PgRouteVersionRepository.rowOfVersion
        (specifiedVersion externals command.data row parent box)) with
    | none =>
      refine fails_of_not ?_ _ _
      rintro ⟨_, _, _, hready⟩
      rw [Sql.Table.insert?_eq_none_iff] at hinsert
      have hfresh := hready.fresh
      change (db.routeVersions.find? externals.newVersionId).isSome = true at hinsert
      rw [hfresh] at hinsert
      cases hinsert
    | some routeVersions =>
      have hrefused : ∃ e, (PublishCall.update
            { loadedDraft db row with state := .published, updatedAt := externals.now }).answer externals
              contents faults ({ db with routeVersions }, 4)
          = (.error e, { db with routeVersions }, 5) := by
        apply update_refused
        . exact hfound
        . rfl
        . rfl
      obtain ⟨e, hupdate⟩ := hrefused
      simp only [Program.onOk_ok, RouteEditing.RouteDraft.run_publish hactive, Program.execute_bind,
        execute_update, hupdate]
      refine ⟨⟨_, rfl⟩, ?_, ?_⟩
      . intro _ hsame
        have hsame : routeVersions = db.routeVersions := hsame
        have hnone := Sql.Table.find?_eq_none_of_insert? hinsert
        rw [← hsame, Sql.Table.find?_insert? hinsert, if_pos rfl] at hnone
        cases hnone
      . intro hnot
        refine absurd ⟨?_, row, parent, hpublishes, hok, hlatest, hnumber, ?_⟩ hnot
        . intro k hk hk'
          rw [show k = 3 by omega, hfault]
        . exact Sql.Table.find?_eq_none_of_insert? hinsert

theorem fails_publishDraft (hok : Publishable row)
    : Fails (WillSave externals faults command db 2) db
        (Program.execute (PublishCall.answer externals contents faults)
          (command.publishDraft externals (loadedDraft db row) box) (db, 2)) := by
  have hlatestReply : ∀ latest, latestVersion row.activityId db = latest →
      PublishCall.perform externals contents (.findLatestByActivity (loadedDraft db row).activityId) db
        = (.ok (latest.toOption.map (versionOfRow contents)), db) := by
    rintro latest hlatest
    have hlatest' : latestVersion (loadedDraft db row).activityId.val db = latest := hlatest
    simp only [PublishCall.perform, PublishCall.carryOut, hlatest']
    cases latest with
    | error e => rfl
    | ok parent => rfl
  unfold PublishRouteVersionCommand.publishDraft
  simp only [Program.execute_bind, execute_findLatestByActivity]
  cases hfault : faults 2 with
  | some message =>
    rw [answer_of_fault hfault]
    exact fails_of_not (not_willSave_of_fault hfault (by omega)) _ _
  | none =>
    rw [answer_of_none hfault, willSave_succ hfault]
    cases hlatest : latestVersion row.activityId db with
    | error e =>
      rw [hlatestReply _ hlatest]
      refine fails_of_not ?_ _ _
      rintro ⟨_, _, _, hready⟩
      have hparent := hready.latest_of_found hpublishes.found
      rw [hlatest] at hparent
      cases hparent
    | ok parent =>
      rw [hlatestReply _ hlatest]
      have hnew : command.newVersion externals (loadedDraft db row) box (versionOfRow contents parent)
          = if parent.versionNumber + 1 < 2 then
              .error (.invalidVersionNumber 2 (parent.versionNumber + 1))
            else
              .ok (specifiedVersion externals command.data row parent box) := by
        show command.data.command.newVersion _ _ _ _ = _
        exact newVersion_loadedDraft contents hok.two_le
      simp only [Except.toOption, Option.map_some, Program.onOk_ok, Program.execute_bind,
        execute_ofExcept, hnew]
      split
      . next hfirst =>
        refine fails_of_not ?_ _ _
        rintro ⟨_, _, _, hready⟩
        have hparent := hready.latest_of_found hpublishes.found
        rw [hlatest] at hparent
        cases hparent
        have := hready.number
        omega
      . next hnumber =>
        have hstore := fails_store externals contents faults box hpublishes hok hlatest (by omega)
        rw [Program.execute_bind] at hstore
        exact hstore

end Loaded

theorem publishes_of_validate (hfound : db.routeEditing.drafts.find? command.draftId.val = some row)
    (h : command.validate (loadedDraft db row) = .ok ())
    : Publishes command.data db row ∧ Publishable row := by
  have hvalidate := validate_loadedDraft command.data db row
  have hcommand : command.data.command = command := rfl
  rw [hcommand, h] at hvalidate
  split at hvalidate
  . cases hvalidate
  . next howner =>
    split at hvalidate
    . cases hvalidate
    . next hactive =>
      split at hvalidate
      . cases hvalidate
      . next hrevision =>
        split at hvalidate
        . next hnil =>
          exact ⟨⟨hfound, not_not.mp howner, not_not.mp hactive, not_not.mp hrevision⟩,
            (publishable_iff db row).mpr hnil⟩
        . cases hvalidate

theorem Ready.validate (h : Ready externals command db row parent)
    : command.validate (loadedDraft db row) = .ok () := by
  have hvalidate := h.publishes.validate
  rw [if_pos ((publishable_iff db row).mp h.publishable)] at hvalidate
  exact hvalidate

section Command

variable (externals : Externals) (contents : Contents) (faults : PublishFaults)
  (command : PublishRouteVersionCommand) (db : Database)

theorem fails_publish
    : Fails (WillSave externals faults command db 1) db
        (Program.execute (PublishCall.answer externals contents faults) (command.publish externals) (db, 1)) := by
  unfold PublishRouteVersionCommand.publish
  simp only [Program.execute_bind, execute_findById]
  cases hfault : faults 1 with
  | some message =>
    rw [answer_of_fault hfault]
    exact fails_of_not (not_willSave_of_fault hfault (by omega)) _ _
  | none =>
    rw [answer_of_none hfault, willSave_succ hfault]
    simp only [PublishCall.perform, PublishCall.carryOut]
    cases hfound : db.routeEditing.drafts.find? command.draftId.val with
    | none =>
      refine fails_of_not ?_ _ _
      rintro ⟨_, _, _, hready⟩
      have hrow := hready.publishes.found
      have hrow : db.routeEditing.drafts.find? command.draftId.val = some _ := hrow
      rw [hfound] at hrow
      cases hrow
    | some row =>
      simp only [Option.map_some, Program.onOk_ok, execute_orError_ok, Program.execute_bind, execute_ofExcept]
      have hloaded : RouteEditing.PgRouteDraftRepository.draftOfRows row
          (RouteEditing.PgRouteDraftRepository.selectOperations db.routeEditing row.id) = loadedDraft db row := rfl
      rw [hloaded]
      cases hvalidate : command.validate (loadedDraft db row) with
      | error e =>
        refine fails_of_not ?_ _ _
        rintro ⟨_, _, _, hready⟩
        have hvalid := hready.validate
        rw [hready.row_eq hfound, hvalidate] at hvalid
        cases hvalid
      | ok _ =>
        obtain ⟨hpublishes, hok⟩ := publishes_of_validate hfound hvalidate
        obtain ⟨box, hbox, _⟩ := boundingBox_of_ne_nil hok.ne_nil
        have hbox' : PublishRouteVersionCommand.boundingBox (flattenGeometry (loadedDraft db row).geometry)
            = .ok box := hbox
        simp only [Program.onOk_ok, hbox']
        exact fails_publishDraft externals contents faults box hpublishes hok

variable {faults}

theorem publication_of_version {version : RouteVersionRow} (hfault : faults 0 = none)
    (h : versionOfKey externals db command.idempotencyKey = some version)
    : publication externals contents faults command db = (.ok (versionOfRow contents version), db) := by
  unfold publication executePublish
  simp only [Program.execute_bind, execute_findByIdempotencyKey, answer_of_none hfault,
    PublishCall.perform, PublishCall.carryOut, h, Option.map_some, Program.onOk_ok, Program.execute_pure]

theorem publication_of_fault {message : String} (hfault : faults 0 = some message)
    : publication externals contents faults command db = (.error (.persistenceError message), db) := by
  unfold publication executePublish
  simp only [Program.execute_bind, execute_findByIdempotencyKey, answer_of_fault hfault]
  rfl

theorem publication_of_none (hfault : faults 0 = none)
    (h : versionOfKey externals db command.idempotencyKey = none)
    : ∃ n, Fails (WillSave externals faults command db 1) db
        ((publication externals contents faults command db).1,
          (publication externals contents faults command db).2, n) := by
  have hfails := fails_publish externals contents faults command db
  unfold publication executePublish
  simp only [Program.execute_bind, execute_findByIdempotencyKey, answer_of_none hfault,
    PublishCall.perform, PublishCall.carryOut, h, Option.map_none, Program.onOk_ok]
  exact ⟨_, hfails⟩

end Command

theorem unpublished_refl (db : Database) : Unpublished db db := ⟨rfl, fun _ => rfl, fun _ => rfl⟩

/--
A publication is atomic, and succeeds if it should, exactly if it does not come to save a version.
-/
theorem atomic_iff_saves_nothing (externals : Externals) (contents : Contents) (faults : PublishFaults)
    (command : PublishRouteVersionCommand) (db : Database)
    : Atomic externals contents faults command db ↔ ¬Saves externals faults command db := by
  cases hfault : faults 0 with
  | some message =>
    have hresult := publication_of_fault externals contents command db hfault
    refine iff_of_true ⟨?_, ?_⟩ ?_
    . intro _ _
      rw [hresult]
      exact unpublished_refl db
    . intro hhealthy
      rw [hhealthy 0] at hfault
      cases hfault
    . intro hsaves
      exact not_willSave_of_fault hfault (by omega) hsaves.2
  | none =>
    cases hkey : versionOfKey externals db command.idempotencyKey with
    | some version =>
      have hresult := publication_of_version externals contents command db hfault hkey
      refine iff_of_true ⟨?_, ?_⟩ ?_
      . intro _ _
        rw [hresult]
        exact unpublished_refl db
      . intro _ _
        rw [hresult]
        exact ⟨_, rfl⟩
      . intro hsaves
        rw [hsaves.1] at hkey
        cases hkey
    | none =>
      obtain ⟨n, hfails⟩ := publication_of_none externals contents command db hfault hkey
      obtain ⟨e, herror⟩ := hfails.error
      constructor
      . intro hatomic hsaves
        exact hfails.saved ((willSave_succ hfault).mp hsaves.2) (hatomic.failure e herror).versions
      . intro hnot
        have hclean : (publication externals contents faults command db).2 = db := by
          apply hfails.clean
          intro hsaves
          exact hnot ⟨hkey, (willSave_succ hfault).mpr hsaves⟩
        refine ⟨?_, ?_⟩
        . intro _ _
          rw [hclean]
          exact unpublished_refl db
        . intro hhealthy hvalid
          obtain hthere | ⟨row, parent, hready, _⟩ := hvalid
          . exact absurd hkey hthere
          . exact absurd ⟨hkey, fun k _ _ => hhealthy k, row, parent, hready⟩ hnot

-- a draft that has been edited once
def sampleEdited : Database := { sampleStore with
  routeEditing := { drafts := ⟨[{ sampleStored with revision := 1 }], by decide⟩, draftOperations := .empty }
}

def samplePublish : PublishRouteVersionCommand := ⟨⟨⟨10⟩⟩, 1, ⟨⟨3⟩⟩, ⟨30⟩, none⟩

theorem healthy_publication_fails
    : (publication (Transactions.sampleExternals 20) sampleContents (fun _ => none) samplePublish
          sampleEdited).1 = .error (.persistenceError "failed to update draft")
        ∧ ((publication (Transactions.sampleExternals 20) sampleContents (fun _ => none) samplePublish
          sampleEdited).2.routeVersions.find? ⟨20⟩).isSome
        ∧ ¬Atomic (Transactions.sampleExternals 20) sampleContents (fun _ => none) samplePublish
          sampleEdited := by
  have hfails : (publication (Transactions.sampleExternals 20) sampleContents (fun _ => none) samplePublish
      sampleEdited).1 = .error (.persistenceError "failed to update draft") := rfl
  have hsaved : ((publication (Transactions.sampleExternals 20) sampleContents (fun _ => none) samplePublish
      sampleEdited).2.routeVersions.find? ⟨20⟩).isSome := rfl
  refine ⟨hfails, hsaved, ?_⟩
  intro h
  rw [(h.failure _ hfails).versions] at hsaved
  cases hsaved

end RouteVersioning
