import Haiker.RouteEditing.Lemmas.Validation
import Haiker.RouteVersioning.Specification

/-!
This module contains what the publication of the domain comes to over the tables, one lemma for each way
out of it.
-/

open Rust
open RecordedActivity (BoundingBox Coordinate)
open RouteEditing (DraftRow RouteDraft collectedErrors)

namespace RouteVersioning

section Execute

variable {σ α ε : Type} (answer : (call : PublishCall) → σ → call.Reply × σ) (s : σ)

@[simp]
theorem execute_findByIdempotencyKey (key : Uuid)
    : Program.execute answer (PublishM.findByIdempotencyKey key) s
        = answer (.findByIdempotencyKey key) s := rfl

@[simp]
theorem execute_findLatestByActivity (activityId : ActivityCatalog.ActivityId)
    : Program.execute answer (PublishM.findLatestByActivity activityId) s
        = answer (.findLatestByActivity activityId) s := rfl

@[simp]
theorem execute_save (version : RouteVersion)
    : Program.execute answer (PublishM.save version) s = answer (.save version) s := rfl

@[simp]
theorem execute_updateActivityCurrentVersion (activityId : ActivityCatalog.ActivityId)
    (routeVersionId : RouteVersionId) (correctedSummary : Json)
    : Program.execute answer
          (PublishM.updateActivityCurrentVersion activityId routeVersionId correctedSummary) s
        = answer (.updateActivityCurrentVersion activityId routeVersionId correctedSummary) s := rfl

@[simp]
theorem execute_findById (id : RouteEditing.RouteDraftId)
    : Program.execute answer (PublishM.findById id) s
        = (.ok (answer (.findById id) s).1, (answer (.findById id) s).2) := rfl

@[simp]
theorem execute_update (draft : RouteDraft)
    : Program.execute answer (PublishM.update draft) s
        = (.ok (answer (.update draft) s).1, (answer (.update draft) s).2) := rfl

@[simp]
theorem execute_ofExcept (result : Except RouteVersioningError α)
    : Program.execute answer (PublishM.ofExcept result) s = (result, s) := rfl

@[simp]
theorem execute_orError_ok (error : RouteVersioningError) (a : α)
    : Program.execute answer (orError error (.ok a : Except ε α)) s = (.ok a, s) := rfl

end Execute

section Validate

variable {errors : List RouteEditing.PublicationValidationError}

theorem mapValidationErrors_of_collected (h : ∀ e ∈ errors, e.Collected)
    : mapValidationErrors errors = .validationFailed (errors.map validationMessage) := by
  unfold mapValidationErrors
  split
  . exact (h _ List.mem_cons_self).elim
  . exact (h _ List.mem_cons_self).elim
  . exact (h _ List.mem_cons_self).elim
  . rfl

end Validate

variable {externals : Externals} (contents : Contents) {data : PublicationCommitData} {db : Database}
  {row : DraftRow}

theorem executed_of_version {version : RouteVersionRow}
    (h : versionOfKey externals db data.idempotencyKey = some version)
    : executed externals contents data db = (.ok (versionOfRow contents version), db) := by
  unfold executed executePublish
  simp only [PublicationCommitData.command, Program.execute_bind, execute_findByIdempotencyKey,
    PublishCall.carryOut, h, Option.map_some, Program.onOk_ok, Program.execute_pure]

/-
Without a version under the key, the draft decides.
-/

-- what the domain loads of the row
def loadedDraft (db : Database) (row : DraftRow) : RouteDraft :=
  RouteEditing.PgRouteDraftRepository.draftOfRows row
    (RouteEditing.PgRouteDraftRepository.selectOperations db.routeEditing row.id)

theorem parseState_eq_active_iff {state : String}
    : RouteEditing.parseState state = .active ↔ state = "active" := by
  unfold RouteEditing.parseState
  split <;> simp_all

theorem validate_loadedDraft (data : PublicationCommitData) (db : Database) (row : DraftRow)
    : data.command.validate (loadedDraft db row)
        = if row.ownerId ≠ data.actorId.val then
            .error .notAuthorized
          else if row.state ≠ "active" then
            .error .draftNotActive
          else if row.revision ≠ data.expectedRevision then
            .error (.revisionConflict data.expectedRevision row.revision)
          else if collectedErrors (loadedDraft db row) = [] then
            .ok ()
          else
            .error (.validationFailed ((collectedErrors (loadedDraft db row)).map validationMessage)) := by
  have howner : (loadedDraft db row).ownerId = data.command.actorId ↔ row.ownerId = data.actorId.val :=
    ⟨fun h => congrArg (·.val) h, fun h => congrArg Identity.UserId.mk h⟩
  have hstate : (loadedDraft db row).state = .active ↔ row.state = "active" := parseState_eq_active_iff
  have hrevision : (loadedDraft db row).revision = data.command.expectedRevision
      ↔ row.revision = data.expectedRevision := Iff.rfl
  unfold PublishRouteVersionCommand.validate
  rw [RouteEditing.validateForPublication_eq]
  by_cases hheld : row.ownerId = data.actorId.val
  . rw [if_neg (not_not.mpr (howner.mpr hheld)), if_neg (not_not.mpr hheld)]
    by_cases hactive : row.state = "active"
    . rw [if_neg (not_not.mpr (hstate.mpr hactive)), if_neg (not_not.mpr hactive)]
      by_cases hexpected : row.revision = data.expectedRevision
      . rw [if_neg (not_not.mpr (hrevision.mpr hexpected)), if_neg (not_not.mpr hexpected)]
        by_cases hnil : collectedErrors (loadedDraft db row) = []
        . rw [if_pos hnil, if_pos hnil]
        . rw [if_neg hnil, if_neg hnil]
          simp only
          rw [mapValidationErrors_of_collected fun e he => RouteEditing.collected_of_mem he]
      . rw [if_pos (mt hrevision.mp hexpected), if_pos hexpected]
        rfl
    . rw [if_pos (mt hstate.mp hactive), if_pos hactive]
      rfl
  . rw [if_pos (mt howner.mp hheld), if_pos hheld]
    rfl

theorem lockDraft_eq_ok_iff : lockDraft data db = .ok row ↔ Publishes data db row := by
  constructor
  . intro h
    obtain ⟨hfound, howner, hactive, hrevision⟩ := lockDraft_eq_ok h
    exact ⟨hfound, howner, hactive, hrevision⟩
  . intro h
    rw [lockDraft_of_found h.found, if_neg (not_not.mpr h.owner), if_neg (not_not.mpr h.active),
      if_neg (not_not.mpr h.revision)]

theorem Publishes.validate (h : Publishes data db row)
    : data.command.validate (loadedDraft db row)
        = if collectedErrors (loadedDraft db row) = [] then
            .ok ()
          else
            .error (.validationFailed
              ((collectedErrors (loadedDraft db row)).map validationMessage)) := by
  rw [validate_loadedDraft, if_neg (not_not.mpr h.owner), if_neg (not_not.mpr h.active),
    if_neg (not_not.mpr h.revision)]

theorem publishable_iff (db : Database) (row : DraftRow)
    : Publishable row ↔ collectedErrors (loadedDraft db row) = [] := by
  rw [RouteEditing.collectedErrors_eq_nil_iff]
  exact ⟨fun h => ⟨h.geometry, h.base⟩, fun h => ⟨h.1, h.2⟩⟩

section New

variable (hkey : versionOfKey externals db data.idempotencyKey = none)

include hkey

theorem executed_of_new
    : executed externals contents data db
        = Program.execute (PublishCall.carryOut externals contents) (data.command.publish externals)
            db := by
  unfold executed executePublish
  have hnone : (PublishCall.carryOut externals contents
      (.findByIdempotencyKey data.command.idempotencyKey) db) = (.ok none, db) := by
    simp only [PublishCall.carryOut, PublicationCommitData.command, hkey, Option.map_none]
  rw [Program.execute_bind, execute_findByIdempotencyKey, hnone]
  rfl

theorem executed_of_no_draft (h : db.routeEditing.drafts.find? data.draftId.val = none)
    : executed externals contents data db = (.error .draftNotFound, db) := by
  rw [executed_of_new contents hkey]
  unfold PublishRouteVersionCommand.publish
  simp only [PublicationCommitData.command, Program.execute_bind, execute_findById,
    PublishCall.carryOut, h, Option.map_none, Program.onOk_ok, execute_orError_ok,
    Program.execute_throw]

theorem executed_of_refused {e : RouteVersioningError}
    (hfound : db.routeEditing.drafts.find? data.draftId.val = some row)
    (h : data.command.validate (loadedDraft db row) = .error e)
    : executed externals contents data db = (.error e, db) := by
  rw [executed_of_new contents hkey]
  unfold PublishRouteVersionCommand.publish
  have hload : PublishCall.carryOut externals contents (.findById data.command.draftId) db
      = (.ok (some (loadedDraft db row)), db) := by
    simp only [PublishCall.carryOut, PublicationCommitData.command, hfound, Option.map_some, loadedDraft]
  simp only [Program.execute_bind, execute_findById, hload, Program.onOk_ok, execute_orError_ok,
    execute_ofExcept, h, Program.onOk_error]

/--
A draft that the committer does not lock is refused with the same error.
-/
theorem executed_of_not_locked {e : RouteVersioningError} (h : lockDraft data db = .error e)
    : executed externals contents data db = (.error e, db) := by
  cases hfound : db.routeEditing.drafts.find? data.draftId.val with
  | none =>
    rw [lockDraft_of_absent hfound] at h
    cases h
    exact executed_of_no_draft contents hkey hfound
  | some row =>
    rw [lockDraft_of_found hfound] at h
    apply executed_of_refused contents hkey hfound
    rw [validate_loadedDraft]
    split at h
    . next howner =>
      cases h
      rw [if_pos howner]
    . next howner =>
      rw [if_neg howner]
      split at h
      . next hstate =>
        cases h
        rw [if_pos hstate]
      . next hstate =>
        rw [if_neg hstate]
        split at h
        . next hrevision =>
          cases h
          rw [if_pos hrevision]
        . cases h

theorem executed_of_unpublishable (h : Publishes data db row) (hnot : ¬Publishable row)
    : ∃ messages, executed externals contents data db = (.error (.validationFailed messages), db) := by
  rw [publishable_iff db] at hnot
  have hvalidate := h.validate
  rw [if_neg hnot] at hvalidate
  exact ⟨_, executed_of_refused contents hkey h.found hvalidate⟩

end New

/-
A draft that is let through
-/

theorem Publishable.two_le (h : Publishable row) : 2 ≤ (coordinates row).length := by
  have hshape := h.geometry.wellShaped
  unfold coordinates flattenGeometry
  rw [List.length_map]
  cases hgeometry : RouteEditing.jsonToGeometry row.geometry with
  | nil => exact absurd hgeometry hshape.nonempty
  | cons segment rest =>
    have hsegment := hshape.two_le segment (by rw [hgeometry]; exact List.mem_cons_self)
    rw [List.flatten_cons, List.length_append]
    omega

theorem Publishable.ne_nil (h : Publishable row) : coordinates row ≠ [] := by
  intro hnil
  have := h.two_le
  simp [hnil] at this

theorem Publishable.inRange (h : Publishable row) : ∀ c ∈ coordinates row, c.InRange := by
  intro c hc
  unfold coordinates flattenGeometry at hc
  rw [List.mem_map] at hc
  obtain ⟨point, hpoint, rfl⟩ := hc
  obtain ⟨segment, hsegment, hmem⟩ := List.mem_flatten.mp hpoint
  exact RouteEditing.Coordinate.inRange_iff.mp (h.geometry.inRange segment hsegment point hmem)

-- both fold the same minima and maxima
theorem boundingBox_of_ne_nil {coords : List Coordinate} (h : coords ≠ [])
    : ∃ box, PublishRouteVersionCommand.boundingBox coords = .ok box
        ∧ box.toJson = boundingBoxJson (coords.map fun c => (c.latitude, c.longitude)) := by
  unfold PublishRouteVersionCommand.boundingBox BoundingBox.fromCoordinates boundingBoxJson
  cases coords with
  | nil => contradiction
  | cons c rest =>
    refine ⟨_, rfl, ?_⟩
    simp [BoundingBox.toJson, Coordinate.toJson, List.map_map, Function.comp_def]

-- the version that the domain makes of the draft
def specifiedVersion (externals : Externals) (data : PublicationCommitData) (row : DraftRow)
    (parent : RouteVersionRow) (box : BoundingBox) : RouteVersion where
  id := { val := externals.newVersionId }
  activityId := { val := row.activityId }
  parentVersionId := some { val := parent.id }
  versionNumber := parent.versionNumber + 1
  geometry := coordinates row
  boundingBox := box
  correctedStatistics :=
    CorrectedStatistics.calculateFromGeometry externals.totalDistance (coordinates row)
  calculationVersion := CorrectedStatistics.CALCULATION_VERSION
  editSummary := data.editSummary
  createdBy := data.actorId
  createdAt := externals.now

variable {parent : RouteVersionRow} {box : BoundingBox}

theorem newVersion_loadedDraft (hlength : 2 ≤ (coordinates row).length)
    : data.command.newVersion externals (loadedDraft db row) box (versionOfRow contents parent)
        = if parent.versionNumber + 1 < 2 then
            .error (.invalidVersionNumber 2 (parent.versionNumber + 1))
          else
            .ok (specifiedVersion externals data row parent box) := by
  unfold PublishRouteVersionCommand.newVersion RouteVersion.newFromPublication
  have hlength' : ¬(flattenGeometry (loadedDraft db row).geometry).length < 2 := not_lt.mpr hlength
  simp only [if_neg hlength']
  rfl

section Publishable

variable (hkey : versionOfKey externals db data.idempotencyKey = none) (h : Publishes data db row)
  (hok : Publishable row)

include hkey h hok

theorem executed_of_publishable
    (hbox : PublishRouteVersionCommand.boundingBox (coordinates row) = .ok box)
    : executed externals contents data db
        = Program.execute (PublishCall.carryOut externals contents)
          (data.command.publishDraft externals (loadedDraft db row) box) db := by
  rw [executed_of_new contents hkey]
  unfold PublishRouteVersionCommand.publish
  have hload : PublishCall.carryOut externals contents (.findById data.command.draftId) db
      = (.ok (some (loadedDraft db row)), db) := by
    simp only [PublishCall.carryOut, PublicationCommitData.command, h.found, Option.map_some,
      loadedDraft]
  have hvalidate := h.validate
  rw [if_pos ((publishable_iff db row).mp hok)] at hvalidate
  have hbox' : PublishRouteVersionCommand.boundingBox (flattenGeometry (loadedDraft db row).geometry)
      = .ok box := hbox
  simp only [Program.execute_bind, execute_findById, hload, Program.onOk_ok, execute_orError_ok,
    execute_ofExcept, hvalidate, hbox']

theorem executed_of_no_version {e : RouteVersioningError}
    (hparent : latestVersion row.activityId db = .error e)
    : executed externals contents data db = (.error .activityNotFound, db) := by
  obtain ⟨box, hbox, _⟩ := boundingBox_of_ne_nil hok.ne_nil
  rw [executed_of_publishable contents hkey h hok hbox]
  unfold PublishRouteVersionCommand.publishDraft
  have hlatest : PublishCall.carryOut externals contents
      (.findLatestByActivity (loadedDraft db row).activityId) db = (.ok none, db) := by
    have hparent' : latestVersion (loadedDraft db row).activityId.val db = .error e := hparent
    simp only [PublishCall.carryOut, hparent']
  simp only [Program.execute_bind, execute_findLatestByActivity, hlatest, Program.onOk_ok,
    Program.execute_throw]

theorem executed_of_parent (hparent : latestVersion row.activityId db = .ok parent)
    (hbox : PublishRouteVersionCommand.boundingBox (coordinates row) = .ok box)
    : executed externals contents data db
        = Program.onOk
          (if parent.versionNumber + 1 < 2 then
            .error (.invalidVersionNumber 2 (parent.versionNumber + 1))
          else
            .ok (specifiedVersion externals data row parent box), db)
          fun version s => Program.execute (PublishCall.carryOut externals contents) (do
            PublishRouteVersionCommand.store externals (loadedDraft db row) version
            return version) s := by
  rw [executed_of_publishable contents hkey h hok hbox]
  unfold PublishRouteVersionCommand.publishDraft
  have hlatest : PublishCall.carryOut externals contents
      (.findLatestByActivity (loadedDraft db row).activityId) db
      = (.ok (some (versionOfRow contents parent)), db) := by
    have hparent' : latestVersion (loadedDraft db row).activityId.val db = .ok parent := hparent
    simp only [PublishCall.carryOut, hparent']
  simp only [Program.execute_bind, execute_findLatestByActivity, hlatest, Program.onOk_ok,
    execute_ofExcept, newVersion_loadedDraft contents hok.two_le]

theorem executed_of_first (hparent : latestVersion row.activityId db = .ok parent)
    (hnumber : parent.versionNumber + 1 < 2)
    : executed externals contents data db
        = (.error (.invalidVersionNumber 2 (parent.versionNumber + 1)), db) := by
  obtain ⟨box, hbox, _⟩ := boundingBox_of_ne_nil hok.ne_nil
  rw [executed_of_parent contents hkey h hok hparent hbox, if_pos hnumber, Program.onOk_error]

/--
The draft is published: the version is saved, the draft is updated and the activity points to it.
-/
theorem executed_of_saved {routeVersions : Sql.Table RouteVersionRow.id}
    (hparent : latestVersion row.activityId db = .ok parent) (hnumber : ¬parent.versionNumber + 1 < 2)
    (hbox : PublishRouteVersionCommand.boundingBox (coordinates row) = .ok box)
    (hinserted : db.routeVersions.insert? (PgRouteVersionRepository.rowOfVersion
      (specifiedVersion externals data row parent box)) = some routeVersions)
    : executed externals contents data db
        = (.ok (specifiedVersion externals data row parent box), { db with
            routeVersions
            routeEditing := updateDraft
              { loadedDraft db row with state := .published, updatedAt := externals.now }
              db.routeEditing
            activities := ActivityCatalog.updateCurrentVersion externals.now row.activityId
              externals.newVersionId
              (CorrectedStatistics.calculateFromGeometry externals.totalDistance
                (coordinates row)).toJson
              db.activities
          }) := by
  have hactive : (loadedDraft db row).state = .active := parseState_eq_active_iff.mpr h.active
  rw [executed_of_parent contents hkey h hok hparent hbox, if_neg hnumber, Program.onOk_ok]
  unfold PublishRouteVersionCommand.store
  simp only [Program.execute_bind, execute_save, PublishCall.carryOut, hinserted, Program.onOk_ok,
    RouteEditing.RouteDraft.run_publish hactive, execute_update, execute_orError_ok,
    execute_updateActivityCurrentVersion, Program.execute_pure]
  rfl

end Publishable

end RouteVersioning
