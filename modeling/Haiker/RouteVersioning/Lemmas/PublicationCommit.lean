import Haiker.RouteVersioning.PublicationCommit
import Haiker.RouteEditing.Lemmas.Repository

/-!
This module contains what the commit of a publication reads, checks and leaves in the database.
-/

open Rust
open RouteEditing (DraftRow)

namespace RouteVersioning

variable {externals : Externals} {data : PublicationCommitData} {db db' : Database}

@[simp]
theorem run_ofExcept_ok {α : Type} (a : α) (db : Database)
    : (ofExcept (.ok a)).run db = .ok a db := rfl

@[simp]
theorem run_ofExcept_error {α : Type} (e : RouteVersioningError) (db : Database)
    : (ofExcept (.error e) : CommitM α).run db = .error (.err e) db := rfl

/--
The publication of the locked draft as a new version, with all that it has written.
-/
structure Published (externals : Externals) (data : PublicationCommitData) (db db' : Database)
    (result : PublicationResult) (draft : DraftRow) (version : RouteVersionRow) : Prop where
  locked : lockDraft data db = .ok draft
  built : ∃ coords parent, flatCoords externals draft.geometry = .ok coords
    ∧ latestVersion draft.activityId db = .ok parent
    ∧ version = newVersion externals data draft parent coords
  inserted : db.routeVersions.insert? version = some db'.routeVersions
  event : db.outbox.insert? (publishedEvent externals data version) = some db'.outbox
  routeEditing : db'.routeEditing = markPublished externals.now data.draftId db.routeEditing
  routeVersionId : result.routeVersionId = ⟨version.id⟩
  draftId : result.draftId = data.draftId
  activities : ∃ json, version.correctedStatisticsJson = some json
    ∧ db'.activities = ActivityCatalog.updateCurrentVersion externals.now draft.activityId version.id json
      db.activities

theorem run_publish_of_not_locked {e : RouteVersioningError} (h : lockDraft data db = .error e)
    : (transaction (publish externals data)).run db = .error (.err e) db := by
  unfold publish
  rw [run_transaction]
  simp only [EStateM.run_bind, EStateM.run_get, h, run_ofExcept_error]

theorem run_publish_of_not_coords {draft : DraftRow} {e : RouteVersioningError}
    (hlock : lockDraft data db = .ok draft) (h : flatCoords externals draft.geometry = .error e)
    : (transaction (publish externals data)).run db = .error (.err e) db := by
  unfold publish
  rw [run_transaction]
  simp only [EStateM.run_bind, EStateM.run_get, hlock, h, run_ofExcept_ok, run_ofExcept_error]

theorem run_publish_of_not_parent {draft : DraftRow} {coords : List (F64 × F64)}
    {e : RouteVersioningError} (hlock : lockDraft data db = .ok draft)
    (hcoords : flatCoords externals draft.geometry = .ok coords)
    (h : latestVersion draft.activityId db = .error e)
    : (transaction (publish externals data)).run db = .error (.err e) db := by
  unfold publish
  rw [run_transaction]
  simp only [EStateM.run_bind, EStateM.run_get, hlock, hcoords, h, run_ofExcept_ok,
    run_ofExcept_error]

section Build

variable {draft : DraftRow} {coords : List (F64 × F64)} {parent : RouteVersionRow}
  (hlock : lockDraft data db = .ok draft) (hcoords : flatCoords externals draft.geometry = .ok coords)
  (hparent : latestVersion draft.activityId db = .ok parent)

include hlock hcoords hparent

theorem run_publish_of_duplicate
    (h : db.routeVersions.insert? (newVersion externals data draft parent coords) = none)
    : ∃ e, (transaction (publish externals data)).run db = .error (.err e) db := by
  unfold publish
  rw [run_transaction]
  simp only [EStateM.run_bind, EStateM.run_get, hlock, hcoords, hparent, h, run_ofExcept_ok, run_fail]
  exact ⟨_, rfl⟩

variable {routeVersions : Sql.Table RouteVersionRow.id}
  (hinserted : db.routeVersions.insert? (newVersion externals data draft parent coords)
    = some routeVersions)

include hinserted

theorem run_publish_of_duplicate_event
    (h : db.outbox.insert? (publishedEvent externals data
      (newVersion externals data draft parent coords)) = none)
    : ∃ e, (transaction (publish externals data)).run db = .error (.err e) db := by
  unfold publish
  rw [run_transaction]
  simp only [EStateM.run_bind, EStateM.run_get, hlock, hcoords, hparent, hinserted, h, run_ofExcept_ok,
    EStateM.run_modify, run_fail]
  exact ⟨_, rfl⟩

theorem run_publish_of_inserted {outbox : Sql.Table OutboxRow.id}
    (hevent : db.outbox.insert? (publishedEvent externals data
      (newVersion externals data draft parent coords)) = some outbox)
    : (transaction (publish externals data)).run db
        = .ok {
            routeVersionId := { val := externals.newVersionId }
            versionNumber := parent.versionNumber + 1
            draftId := data.draftId
            correctedStatisticsJson := correctedStatisticsJson externals coords
          } { db with
            routeVersions
            activities := ActivityCatalog.updateCurrentVersion externals.now draft.activityId
              externals.newVersionId (correctedStatisticsJson externals coords) db.activities
            routeEditing := markPublished externals.now data.draftId db.routeEditing
            outbox
          } := by
  unfold publish
  rw [run_transaction]
  simp only [EStateM.run_bind, EStateM.run_get, hlock, hcoords, hparent, hinserted, hevent,
    run_ofExcept_ok, EStateM.run_modify]
  rfl

end Build

theorem publish_cases (externals : Externals) (data : PublicationCommitData) (db : Database)
    : (∃ e, (transaction (publish externals data)).run db = .error (.err e) db)
        ∨ ∃ db' result draft version,
          (transaction (publish externals data)).run db = .ok result db'
            ∧ Published externals data db db' result draft version := by
  cases hlock : lockDraft data db with
  | error e => exact .inl ⟨e, run_publish_of_not_locked hlock⟩
  | ok draft =>
    cases hcoords : flatCoords externals draft.geometry with
    | error e => exact .inl ⟨e, run_publish_of_not_coords hlock hcoords⟩
    | ok coords =>
      cases hparent : latestVersion draft.activityId db with
      | error e => exact .inl ⟨e, run_publish_of_not_parent hlock hcoords hparent⟩
      | ok parent =>
        cases hversion : db.routeVersions.insert? (newVersion externals data draft parent coords) with
        | none => exact .inl (run_publish_of_duplicate hlock hcoords hparent hversion)
        | some routeVersions =>
          cases hevent : db.outbox.insert?
              (publishedEvent externals data (newVersion externals data draft parent coords)) with
          | none =>
            exact .inl (run_publish_of_duplicate_event hlock hcoords hparent hversion hevent)
          | some outbox =>
            have hrun := run_publish_of_inserted hlock hcoords hparent hversion hevent
            exact .inr ⟨_, _, draft, _, hrun,
              ⟨hlock, ⟨coords, parent, hcoords, hparent, rfl⟩, hversion, hevent, rfl, rfl, rfl, _, rfl, rfl⟩⟩

theorem lockDraft_of_absent (h : db.routeEditing.drafts.find? data.draftId.val = none)
    : lockDraft data db = .error .draftNotFound := by
  unfold lockDraft
  rw [h]
  rfl

theorem lockDraft_of_found {row : DraftRow}
    (h : db.routeEditing.drafts.find? data.draftId.val = some row)
    : lockDraft data db
        = if row.ownerId ≠ data.actorId.val then
            .error .notAuthorized
          else if row.state ≠ "active" then
            .error .draftNotActive
          else if row.revision ≠ data.expectedRevision then
            .error (.revisionConflict data.expectedRevision row.revision)
          else
            .ok row := by
  unfold lockDraft
  rw [h]
  simp only
  split
  . rfl
  . split
    . rfl
    . split
      . rfl
      . rfl

theorem lockDraft_eq_ok {draft : DraftRow} (h : lockDraft data db = .ok draft)
    : db.routeEditing.drafts.find? data.draftId.val = some draft
        ∧ draft.ownerId = data.actorId.val ∧ draft.state = "active"
        ∧ draft.revision = data.expectedRevision := by
  cases hrow : db.routeEditing.drafts.find? data.draftId.val with
  | none =>
    rw [lockDraft_of_absent hrow] at h
    cases h
  | some row =>
    rw [lockDraft_of_found hrow] at h
    split at h
    . cases h
    . next howner =>
      split at h
      . cases h
      . next hstate =>
        split at h
        . cases h
        . next hrevision =>
          cases h
          exact ⟨rfl, not_not.mp howner, not_not.mp hstate, not_not.mp hrevision⟩

/--
A draft that does not exist and one of somebody else give two errors, which the API does not tell
apart.
-/
theorem lockDraft_of_not_owned
    (h : ∀ row, db.routeEditing.drafts.find? data.draftId.val = some row →
      row.ownerId ≠ data.actorId.val)
    : lockDraft data db = .error .draftNotFound ∨ lockDraft data db = .error .notAuthorized := by
  cases hrow : db.routeEditing.drafts.find? data.draftId.val with
  | none => exact .inl (lockDraft_of_absent hrow)
  | some row =>
    apply Or.inr
    rw [lockDraft_of_found hrow, if_pos (h row hrow)]

theorem find?_markPublished (now : Timestamp) (draftId : RouteEditing.RouteDraftId)
    (s : RouteEditing.Store) (k : Uuid)
    : (markPublished now draftId s).drafts.find? k
        = (s.drafts.find? k).map fun row => if row.id = draftId.val then setPublished now row else row := by
  rw [markPublished, Sql.Table.find?_updateWhere]
  simp

theorem latest_eq_some {rows : List RouteVersionRow} {row : RouteVersionRow} (h : latest rows = some row)
    : row ∈ rows ∧ ∀ other ∈ rows, other.versionNumber ≤ row.versionNumber := by
  induction rows generalizing row with
  | nil => cases h
  | cons first rows ih =>
    unfold latest at h
    cases hrest : latest rows with
    | none =>
      rw [hrest, Option.some.injEq] at h
      subst h
      have hempty : rows = [] := by
        cases rows with
        | nil => rfl
        | cons second rows =>
          unfold latest at hrest
          split at hrest
          . split at hrest
            . cases hrest
            . cases hrest
          . cases hrest
      subst hempty
      simp
    | some last =>
      obtain ⟨hmem, hmax⟩ := ih hrest
      rw [hrest] at h
      simp only at h
      split at h
      . next hlt =>
        rw [Option.some.injEq] at h
        subst h
        refine ⟨List.mem_cons_of_mem _ hmem, ?_⟩
        simp only [List.forall_mem_cons]
        exact ⟨Int.le_of_lt hlt, hmax⟩
      . next hle =>
        rw [Option.some.injEq] at h
        subst h
        refine ⟨List.mem_cons_self, ?_⟩
        simp only [List.forall_mem_cons]
        exact ⟨Int.le_refl _, fun other hother => (hmax other hother).trans (Int.not_lt.mp hle)⟩

theorem latestVersion_eq_ok {activityId : Uuid} {db : Database} {row : RouteVersionRow}
    (h : latestVersion activityId db = .ok row)
    : db.routeVersions.find? row.id = some row ∧ row.activityId = activityId
        ∧ ∀ other, db.routeVersions.find? other.id = some other → other.activityId = activityId →
          other.versionNumber ≤ row.versionNumber := by
  unfold latestVersion at h
  split at h
  . next found hlatest =>
    obtain rfl := Except.ok.inj h
    obtain ⟨hmem, hmax⟩ := latest_eq_some hlatest
    rw [List.mem_filter, decide_eq_true_eq] at hmem
    refine ⟨Sql.Table.find?_of_mem hmem.1, hmem.2, ?_⟩
    intro other hother hactivity
    apply hmax
    rw [List.mem_filter, decide_eq_true_eq]
    exact ⟨Sql.Table.mem_of_find? hother, hactivity⟩
  . cases h

/-
What an earlier commit under the same key makes of a commit.
-/

-- the version of the event is not there any more
def VersionGone (externals : Externals) (data : PublicationCommitData) (db : Database)
    (event : OutboxRow) : Prop :=
  fingerprintMatches externals data event = true
    ∧ ∃ versionId, externals.parseUuid event.aggregateId = .ok versionId
      ∧ db.routeVersions.find? versionId = none

-- the version of the event that is there, with its statistics
def VersionThere (externals : Externals) (data : PublicationCommitData) (db : Database)
    (event : OutboxRow) (row : RouteVersionRow) (json : Json) : Prop :=
  fingerprintMatches externals data event = true
    ∧ ∃ versionId, externals.parseUuid event.aggregateId = .ok versionId
      ∧ db.routeVersions.find? versionId = some row ∧ row.correctedStatisticsJson = some json

theorem VersionThere.unique {event : OutboxRow} {row row' : RouteVersionRow} {json json' : Json}
    (h : VersionThere externals data db event row json)
    (h' : VersionThere externals data db event row' json') : row = row' ∧ json = json' := by
  obtain ⟨_, versionId, hparse, hfind, hjson⟩ := h
  obtain ⟨_, versionId', hparse', hfind', hjson'⟩ := h'
  rw [hparse, Except.ok.injEq] at hparse'
  rw [← hparse', hfind, Option.some.injEq] at hfind'
  rw [← hfind', hjson, Option.some.injEq] at hjson'
  exact ⟨hfind', hjson'⟩

theorem replayCommit_of_no_event (h : existingEvent db data.idempotencyKey = none)
    : replayCommit externals data db = .ok none := by
  unfold replayCommit
  rw [h]
  rfl

theorem replayCommit_of_gone {event : OutboxRow} (h : existingEvent db data.idempotencyKey = some event)
    (hgone : VersionGone externals data db event) : replayCommit externals data db = .ok none := by
  obtain ⟨hmatches, versionId, hparse, hfind⟩ := hgone
  unfold replayCommit
  simp only [h, hmatches, hparse, hfind]
  rfl

theorem replayCommit_of_there {event : OutboxRow} {row : RouteVersionRow} {json : Json}
    (h : existingEvent db data.idempotencyKey = some event)
    (hthere : VersionThere externals data db event row json)
    : replayCommit externals data db = .ok (some {
        routeVersionId := { val := row.id }
        versionNumber := row.versionNumber
        draftId := data.draftId
        correctedStatisticsJson := json
      }) := by
  obtain ⟨hmatches, versionId, hparse, hfind, hjson⟩ := hthere
  have hid : row.id = versionId := Sql.Table.key_of_find? hfind
  unfold replayCommit
  simp only [h, hmatches, hparse, hfind, hjson, hid]
  rfl

/--
An event whose version is not gone, and not there with its statistics either, is an error that is not
about the draft.
-/
theorem replayCommit_of_neither {event : OutboxRow}
    (h : existingEvent db data.idempotencyKey = some event)
    (hgone : ¬VersionGone externals data db event)
    (hthere : ∀ row json, ¬VersionThere externals data db event row json)
    : replayCommit externals data db = .error .idempotencyConflict
        ∨ ∃ message, replayCommit externals data db = .error (.persistenceError message) := by
  unfold replayCommit
  cases hmatches : fingerprintMatches externals data event with
  | false =>
    apply Or.inl
    simp only [h, hmatches]
    rfl
  | true =>
    apply Or.inr
    simp only [h, hmatches]
    cases hparse : externals.parseUuid event.aggregateId with
    | error e => exact ⟨_, rfl⟩
    | ok versionId =>
      cases hfind : db.routeVersions.find? versionId with
      | none => exact absurd ⟨hmatches, versionId, hparse, hfind⟩ hgone
      | some row =>
        cases hjson : row.correctedStatisticsJson with
        | none =>
          simp only [hfind, hjson]
          exact ⟨_, rfl⟩
        | some json => exact absurd ⟨hmatches, versionId, hparse, hfind, hjson⟩ (hthere row json)

theorem run_commit_of_error {e : RouteVersioningError}
    (h : replayCommit externals data db = .error e)
    : (commit externals data).run db = .error (.err e) db := by
  unfold commit
  rw [run_transaction]
  simp only [EStateM.run_bind, EStateM.run_get, h, run_ofExcept_error]

theorem run_commit_of_replay {result : PublicationResult}
    (h : replayCommit externals data db = .ok (some result))
    : (commit externals data).run db = .ok result db := by
  unfold commit
  rw [run_transaction]
  simp only [EStateM.run_bind, EStateM.run_get, h, run_ofExcept_ok, EStateM.run_pure]

theorem run_commit_of_new (h : replayCommit externals data db = .ok none)
    : (commit externals data).run db = (transaction (publish externals data)).run db := by
  unfold commit
  rw [run_transaction, run_transaction]
  simp only [EStateM.run_bind, EStateM.run_get, h, run_ofExcept_ok]

/--
A commit publishes a new version, or it leaves everything as it is.
-/
theorem commit_cases (externals : Externals) (data : PublicationCommitData) (db : Database)
    : (after (commit externals data) db = db
          ∧ ¬(replayCommit externals data db = .ok none
            ∧ ∃ result db', (commit externals data).run db = .ok result db'))
        ∨ replayCommit externals data db = .ok none ∧ ∃ result draft version,
          (commit externals data).run db = .ok result (after (commit externals data) db)
            ∧ Published externals data db (after (commit externals data) db) result draft version := by
  cases hreplay : replayCommit externals data db with
  | error e =>
    refine .inl ⟨after_of_run_error (run_commit_of_error hreplay), ?_⟩
    rintro ⟨hnone, _⟩
    cases hnone
  | ok earlier =>
    cases earlier with
    | some earlier =>
      refine .inl ⟨after_of_run_ok (run_commit_of_replay hreplay), ?_⟩
      rintro ⟨hnone, _⟩
      cases hnone
    | none =>
      have hcommit := run_commit_of_new hreplay
      obtain ⟨e, hfailed⟩ | ⟨db', result, draft, version, hpublished, hall⟩ :=
        publish_cases externals data db
      . rw [hfailed] at hcommit
        refine .inl ⟨after_of_run_error hcommit, ?_⟩
        rintro ⟨_, _, _, hok⟩
        rw [hcommit] at hok
        cases hok
      . rw [hpublished] at hcommit
        rw [after_of_run_ok hcommit]
        exact .inr ⟨rfl, result, draft, version, hcommit, hall⟩

theorem published_of_commit {result : PublicationResult} {row : RouteVersionRow}
    (hrun : (commit externals data).run db = .ok result db')
    (hnew : db.routeVersions.find? row.id = none) (hrow : db'.routeVersions.find? row.id = some row)
    : ∃ draft, Published externals data db db' result draft row := by
  cases hreplay : replayCommit externals data db with
  | error e =>
    rw [run_commit_of_error hreplay] at hrun
    cases hrun
  | ok earlier =>
    cases earlier with
    | some earlier =>
      rw [run_commit_of_replay hreplay] at hrun
      cases hrun
      rw [hnew] at hrow
      cases hrow
    | none =>
      rw [run_commit_of_new hreplay] at hrun
      obtain ⟨e, hfailed⟩ | ⟨_, _, draft, version, hpublished, hall⟩ :=
        publish_cases externals data db
      . rw [hfailed] at hrun
        cases hrun
      . rw [hpublished] at hrun
        cases hrun
        obtain rfl | hold := Sql.Table.find?_of_insert? hall.inserted hrow
        . exact ⟨draft, hall⟩
        . rw [hnew] at hold
          cases hold

end RouteVersioning
