import Haiker.RouteVersioning.Lemmas.Specification
import Haiker.Transactions.VersionChain

/-!
This module contains when the committer does what the domain specifies.
-/

open Rust
open RecordedActivity (BoundingBox Coordinate)
open RouteEditing (DraftRow)

namespace RouteVersioning

variable {externals : Externals} {contents : Contents} {data : PublicationCommitData} {db : Database}
  {row : DraftRow}

/-
What the committer reads
-/

theorem flatCoords_of_segments {segments : List (List GeometryPoint)} {j : Json}
    (hread : readSegments j = some segments) (hlength : 2 ≤ segments.flatten.length)
    (externals : Externals)
    : flatCoords externals j = .ok (segments.flatten.map fun p => (p.latitude, p.longitude)) := by
  unfold readSegments at hread
  unfold flatCoords
  simp only [hread, List.length_map, if_neg (not_lt.mpr hlength)]
  rfl

theorem flatCoords_of_not_readable (h : ¬Readable row) (externals : Externals)
    : ∃ messages, flatCoords externals row.geometry = .error (.validationFailed messages) := by
  unfold flatCoords
  cases hread : row.geometry.toList? (Json.toList? GeometryPoint.fromJson) with
  | none => exact ⟨_, rfl⟩
  | some segments =>
    have hlength : segments.flatten.length < 2 := by
      by_contra hle
      exact h ⟨segments, hread, not_lt.mp hle⟩
    simp only [List.length_map, if_pos hlength]
    exact ⟨_, rfl⟩

/-
A version under the key
-/

theorem versionOfKey_of_no_event (externals : Externals)
    (h : existingEvent db data.idempotencyKey = none)
    : versionOfKey externals db data.idempotencyKey = none := by
  unfold versionOfKey
  rw [h]

theorem versionOfKey_of_gone {event : OutboxRow}
    (h : existingEvent db data.idempotencyKey = some event)
    (hgone : VersionGone externals data db event)
    : versionOfKey externals db data.idempotencyKey = none := by
  obtain ⟨_, versionId, hparse, hfind⟩ := hgone
  unfold versionOfKey
  simp only [h, hparse, hfind]

theorem versionOfKey_of_there {event : OutboxRow} {version : RouteVersionRow} {json : Json}
    (h : existingEvent db data.idempotencyKey = some event)
    (hthere : VersionThere externals data db event version json)
    : versionOfKey externals db data.idempotencyKey = some version := by
  obtain ⟨_, versionId, hparse, hfind, _⟩ := hthere
  unfold versionOfKey
  simp only [h, hparse, hfind]

/--
A replay: both give the version that is there and change nothing.
-/
theorem agree_of_there {event : OutboxRow} {version : RouteVersionRow} {json : Json}
    (h : existingEvent db data.idempotencyKey = some event)
    (hthere : VersionThere externals data db event version json)
    : Agree externals contents data db := by
  have hcommit := run_commit_of_replay (replayCommit_of_there h hthere)
  have hexecuted := executed_of_version contents (versionOfKey_of_there h hthere)
  obtain ⟨_, versionId, _, hfind, _⟩ := hthere
  have hid : db.routeVersions.find? version.id = some version := by
    rw [Sql.Table.key_of_find? hfind, hfind]
  unfold Agree
  rw [hcommit, hexecuted]
  exact ⟨rfl, ⟨version, version, hid, hid, ⟨rfl, rfl, rfl, rfl, rfl, rfl⟩⟩, rfl, fun _ => rfl⟩

/-
A new version
-/

theorem pointCount_committed (externals : Externals) (coords : List (F64 × F64))
    : (correctedStatisticsJson externals coords).get? "point_count" = some (.ofNat coords.length) := by
  simp [correctedStatisticsJson, Json.get?, List.lookup_cons]

theorem pointCount_specified (statistics : CorrectedStatistics)
    : statistics.toJson.get? "point_count" = some (.ofNat statistics.pointCount) := by
  simp [CorrectedStatistics.toJson, Json.get?, List.lookup_cons]

/--
The version that the committer inserts, and the one that the domain saves.
-/
theorem sameVersion_iff {segments : List (List GeometryPoint)} {parent : RouteVersionRow}
    {box : BoundingBox} (hread : readSegments row.geometry = some segments) (hok : Publishable row)
    (hbox : box.toJson
      = boundingBoxJson ((coordinates row).map fun c => (c.latitude, c.longitude)))
    : SameVersion
          (newVersion externals data row parent
            (segments.flatten.map fun p => (p.latitude, p.longitude)))
          (PgRouteVersionRepository.rowOfVersion (specifiedVersion externals data row parent box))
        ↔
      segments = [oneSegment row] ∧ (oneSegment row).length < UInt32.size := by
  have hlength : (oneSegment row).length = (coordinates row).length := List.length_map _
  have hcommitted := parseGeometryJson_segments hread
  have hspecified := parseGeometryJson_flat hok.inRange hok.ne_nil
  constructor
  . intro h
    have hgeometry := h.geometry
    simp only [newVersion, PgRouteVersionRepository.rowOfVersion, specifiedVersion] at hgeometry
    rw [hcommitted, hspecified, Except.ok.injEq] at hgeometry
    have hsegments : segments = [oneSegment row] := by
      have hinjective := (gpxPoint_injective.list_map).list_map
      exact hinjective hgeometry
    refine ⟨hsegments, ?_⟩
    have hcount := h.pointCount
    simp only [newVersion, PgRouteVersionRepository.rowOfVersion, specifiedVersion, Option.bind_some,
      pointCount_committed, pointCount_specified, CorrectedStatistics.calculateFromGeometry,
      hsegments, List.flatten_singleton, List.length_map, hlength, Option.some.injEq,
      Json.ofNat_inj] at hcount
    rw [hlength, hcount]
    exact Nat.mod_lt _ (by decide)
  . rintro ⟨rfl, hsize⟩
    have hcoords : ([oneSegment row].flatten.map fun p => (p.latitude, p.longitude))
        = (coordinates row).map fun c => (c.latitude, c.longitude) := by
      rw [List.flatten_singleton, oneSegment, List.map_map]
      rfl
    rw [hcoords]
    constructor
    . rfl
    . rfl
    . exact hcommitted.trans hspecified.symm
    . exact hbox.symm
    . simp only [newVersion, PgRouteVersionRepository.rowOfVersion, specifiedVersion,
        Option.bind_some, pointCount_committed, pointCount_specified,
        CorrectedStatistics.calculateFromGeometry, List.length_map]
      rw [Nat.mod_eq_of_lt (hlength ▸ hsize)]
    . rfl

section Published

variable {segments : List (List GeometryPoint)} {parent : RouteVersionRow}
  (hlock : lockDraft data db = .ok row) (hread : readSegments row.geometry = some segments)
  (hlength : 2 ≤ segments.flatten.length)
  (hparent : latestVersion row.activityId db = .ok parent) (hfresh : Fresh externals db)

include hlock hread hlength hparent hfresh

/--
Nothing is in the way of the new rows, so that the committer publishes what it reads.
-/
theorem run_publish_of_fresh
    : ∃ result db', (transaction (publish externals data)).run db = .ok result db'
        ∧ result.routeVersionId = ⟨externals.newVersionId⟩
        ∧ result.versionNumber = parent.versionNumber + 1
        ∧ db.routeVersions.insert? (newVersion externals data row parent
          (segments.flatten.map fun p => (p.latitude, p.longitude))) = some db'.routeVersions
        ∧ db'.routeEditing = markPublished externals.now data.draftId db.routeEditing
        ∧ ∃ json, db'.activities = ActivityCatalog.updateCurrentVersion externals.now row.activityId
          externals.newVersionId json db.activities := by
  have hcoords := flatCoords_of_segments hread hlength externals
  cases hinserted : db.routeVersions.insert? (newVersion externals data row parent
      (segments.flatten.map fun p => (p.latitude, p.longitude))) with
  | none =>
    rw [Sql.Table.insert?_eq_none_iff] at hinserted
    have hversion : db.routeVersions.find? externals.newVersionId = none := hfresh.version
    simp [newVersion, hversion] at hinserted
  | some routeVersions =>
    cases hevent : db.outbox.insert? (publishedEvent externals data (newVersion externals data row parent
        (segments.flatten.map fun p => (p.latitude, p.longitude)))) with
    | none =>
      rw [Sql.Table.insert?_eq_none_iff] at hevent
      have hevent' : db.outbox.find? externals.newEventId = none := hfresh.event
      simp [publishedEvent, hevent'] at hevent
    | some outbox =>
      have hrun := run_publish_of_inserted hlock hcoords hparent hinserted hevent
      exact ⟨_, _, hrun, rfl, rfl, rfl, rfl, _, rfl⟩

end Published

/-
A draft without a version under its key
-/

-- the errors about an earlier commit or the database, which the domain does not have here
def AboutStore : RouteVersioningError → Prop
  | .idempotencyConflict | .persistenceError _ => True
  | _ => False

theorem aboutStore_of_ctorIdx {e e' : RouteVersioningError} (h : e.ctorIdx = e'.ctorIdx)
    (hstore : AboutStore e) : AboutStore e' := by
  cases e with
  | idempotencyConflict | persistenceError => cases e' <;> first | trivial | cases h
  | _ => exact hstore.elim

theorem not_aboutStore_of_lockDraft {e : RouteVersioningError} (h : lockDraft data db = .error e)
    : ¬AboutStore e := by
  cases hfound : db.routeEditing.drafts.find? data.draftId.val with
  | none =>
    rw [lockDraft_of_absent hfound] at h
    cases h
    exact id
  | some row =>
    rw [lockDraft_of_found hfound] at h
    split at h
    . cases h
      exact id
    . split at h
      . cases h
        exact id
      . split at h
        . cases h
          exact id
        . cases h

section New

variable (contents) (hkey : versionOfKey externals db data.idempotencyKey = none)
  (hfresh : Fresh externals db)

include hkey hfresh

/--
A draft that the domain lets through comes to an error before anything is written, or to its version.
-/
theorem executed_of_valid (h : Publishes data db row) (hok : Publishable row)
    : (∃ e, latestVersion row.activityId db = .error e
          ∧ executed externals contents data db = (.error .activityNotFound, db))
        ∨ ∃ parent, latestVersion row.activityId db = .ok parent
          ∧ ((parent.versionNumber < 1 ∧ ∃ n,
              executed externals contents data db = (.error (.invalidVersionNumber 2 n), db))
            ∨ (1 ≤ parent.versionNumber ∧ ∃ box db',
              box.toJson = boundingBoxJson ((coordinates row).map fun c => (c.latitude, c.longitude))
              ∧ executed externals contents data db
                = (.ok (specifiedVersion externals data row parent box), db')
              ∧ db.routeVersions.insert? (PgRouteVersionRepository.rowOfVersion
                (specifiedVersion externals data row parent box)) = some db'.routeVersions
              ∧ db'.routeEditing = updateDraft
                { loadedDraft db row with state := .published, updatedAt := externals.now }
                db.routeEditing
              ∧ ∃ json, db'.activities = ActivityCatalog.updateCurrentVersion externals.now
                row.activityId externals.newVersionId json db.activities)) := by
  cases hparent : latestVersion row.activityId db with
  | error e => exact .inl ⟨e, rfl, executed_of_no_version contents hkey h hok hparent⟩
  | ok parent =>
    refine .inr ⟨parent, rfl, ?_⟩
    by_cases hnumber : parent.versionNumber + 1 < 2
    . exact .inl ⟨by omega, _, executed_of_first contents hkey h hok hparent hnumber⟩
    . obtain ⟨box, hbox, hjson⟩ := boundingBox_of_ne_nil hok.ne_nil
      cases hinserted : db.routeVersions.insert? (PgRouteVersionRepository.rowOfVersion
          (specifiedVersion externals data row parent box)) with
      | none =>
        rw [Sql.Table.insert?_eq_none_iff] at hinserted
        have hversion : db.routeVersions.find? externals.newVersionId = none := hfresh.version
        simp [PgRouteVersionRepository.rowOfVersion, specifiedVersion, hversion] at hinserted
      | some routeVersions =>
        have hexecuted := executed_of_saved contents hkey h hok hparent hnumber hbox
          hinserted
        exact .inr ⟨by omega, box, _, hjson, hexecuted, hinserted, rfl, _, rfl⟩

/--
The domain fails before it has written anything.
-/
theorem of_executed_error {e : RouteVersioningError} {db' : Database}
    (h : executed externals contents data db = (.error e, db')) : ¬AboutStore e ∧ db' = db := by
  cases hlock : lockDraft data db with
  | error e' =>
    rw [executed_of_not_locked contents hkey hlock] at h
    cases h
    exact ⟨not_aboutStore_of_lockDraft hlock, rfl⟩
  | ok row =>
    have hpublishes := lockDraft_eq_ok_iff.mp hlock
    by_cases hok : Publishable row
    . obtain ⟨_, _, hexecuted⟩ | ⟨_, _, ⟨_, _, hexecuted⟩ | ⟨_, _, _, _, hexecuted, _⟩⟩ :=
        executed_of_valid contents hkey hfresh hpublishes hok
      . rw [hexecuted] at h
        cases h
        exact ⟨id, rfl⟩
      . rw [hexecuted] at h
        cases h
        exact ⟨id, rfl⟩
      . rw [hexecuted] at h
        cases h
    . obtain ⟨_, hexecuted⟩ := executed_of_unpublishable contents hkey hpublishes hok
      rw [hexecuted] at h
      cases h
      exact ⟨id, rfl⟩

end New

theorem agree_iff_of_error {e : RouteVersioningError}
    (hcommit : (commit externals data).run db = .error (.err e) db)
    : Agree externals contents data db
        ↔
      ∃ e', executed externals contents data db = (.error e', db) ∧ e.ctorIdx = e'.ctorIdx := by
  unfold Agree
  rw [hcommit]
  cases executed externals contents data db with
  | mk result db' =>
    cases result with
    | ok version => simp
    | error e' =>
      constructor
      . rintro ⟨hkind, _, rfl⟩
        exact ⟨e', rfl, hkind⟩
      . rintro ⟨_, heq, hkind⟩
        cases heq
        exact ⟨hkind, rfl, rfl⟩

/--
What the two leave of the draft and of the pointer is the same, so that the versions decide.
-/
theorem sameOutcome_iff {result : PublicationResult} {version : RouteVersion} {db₁ db₂ : Database}
    {row₁ row₂ : RouteVersionRow} {draft : RouteEditing.RouteDraft} {activityId : Uuid}
    (hfound : (db.routeEditing.drafts.find? data.draftId.val).isSome)
    (hnumber : result.versionNumber = version.versionNumber)
    (hrow₁ : db₁.routeVersions.find? result.routeVersionId.val = some row₁)
    (hrow₂ : db₂.routeVersions.find? version.id.val = some row₂)
    (hdrafts₁ : db₁.routeEditing = markPublished externals.now data.draftId db.routeEditing)
    (hdrafts₂ : db₂.routeEditing = updateDraft draft db.routeEditing)
    (hdraft : draft.id = data.draftId ∧ draft.state = .published)
    (hpointer₁ : ∃ json, db₁.activities = ActivityCatalog.updateCurrentVersion externals.now
      activityId externals.newVersionId json db.activities)
    (hpointer₂ : ∃ json, db₂.activities = ActivityCatalog.updateCurrentVersion externals.now
      activityId externals.newVersionId json db.activities)
    : SameOutcome data result db₁ version db₂ ↔ SameVersion row₁ row₂ := by
  constructor
  . intro h
    obtain ⟨_, _, hrow, hrow', hsame⟩ := h.version
    rw [hrow₁, Option.some.injEq] at hrow
    rw [hrow₂, Option.some.injEq] at hrow'
    rw [hrow, hrow']
    exact hsame
  . intro hsame
    refine ⟨hnumber, ⟨row₁, row₂, hrow₁, hrow₂, hsame⟩, ?_, ?_⟩
    . obtain ⟨row, hrow⟩ := Option.isSome_iff_exists.mp hfound
      have hid : row.id = data.draftId.val := Sql.Table.key_of_find? hrow
      rw [hdrafts₁, hdrafts₂, find?_markPublished, updateDraft, Sql.Table.find?_updateWhere, hrow]
      simp [hid, hdraft.1, setPublished, RouteEditing.PgRouteDraftRepository.setDraft, hdraft.2,
        RouteEditing.stateToStr]
    . intro k
      obtain ⟨_, hpointer₁⟩ := hpointer₁
      obtain ⟨_, hpointer₂⟩ := hpointer₂
      rw [hpointer₁, hpointer₂, ActivityCatalog.find?_updateCurrentVersion,
        ActivityCatalog.find?_updateCurrentVersion, Option.map_map, Option.map_map]
      congr 1
      funext row
      simp only [Function.comp_apply]
      split
      . rfl
      . rfl

section Decide

variable (hkey : versionOfKey externals db data.idempotencyKey = none)
  (hreplay : replayCommit externals data db = .ok none) (hfresh : Fresh externals db)

include hkey hreplay hfresh

/--
A draft that both take gives two versions, unless there is none before it; the domain wants a first one
with a positive number.
-/
theorem agree_iff_of_taken (h : Publishes data db row) (hreadable : Readable row)
    (hok : Publishable row)
    : Agree externals contents data db
        ↔
      ∀ parent, latestVersion row.activityId db = .ok parent →
        1 ≤ parent.versionNumber ∧ readSegments row.geometry = some [oneSegment row]
          ∧ (oneSegment row).length < UInt32.size := by
  obtain ⟨segments, hread, hlength⟩ := hreadable
  have hlock := lockDraft_eq_ok_iff.mpr h
  obtain ⟨e, hparent, hexecuted⟩ | ⟨parent, hparent, hnumbered⟩ :=
    executed_of_valid contents hkey hfresh h hok
  . have hcommit : (commit externals data).run db = .error (.err e) db := by
      rw [run_commit_of_new hreplay]
      exact run_publish_of_not_parent hlock (flatCoords_of_segments hread hlength externals) hparent
    have hnone : e = .activityNotFound := by
      unfold latestVersion at hparent
      split at hparent
      . cases hparent
      . cases hparent
        rfl
    rw [agree_iff_of_error hcommit, hexecuted, hparent, hnone]
    simp
  . obtain ⟨result, db₁, hrun, hid, hnumber, hinserted, hdrafts, hpointer⟩ :=
      run_publish_of_fresh hlock hread hlength hparent hfresh
    have hcommit : (commit externals data).run db = .ok result db₁ := by
      rw [run_commit_of_new hreplay, hrun]
    have hone : (∀ parent', latestVersion row.activityId db = .ok parent' →
        1 ≤ parent'.versionNumber ∧ readSegments row.geometry = some [oneSegment row]
          ∧ (oneSegment row).length < UInt32.size)
        ↔ 1 ≤ parent.versionNumber ∧ segments = [oneSegment row]
          ∧ (oneSegment row).length < UInt32.size := by
      simp [hparent, hread]
    rw [hone]
    obtain ⟨hfirst, _, hexecuted⟩ | ⟨hpositive, box, db₂, hbox, hexecuted, hsaved, hupdated, hpointer₂⟩ :=
      hnumbered
    . unfold Agree
      rw [hcommit, hexecuted]
      simp only [false_iff]
      omega
    . have hrow₁ : db₁.routeVersions.find? result.routeVersionId.val = some (newVersion externals data
          row parent (segments.flatten.map fun p => (p.latitude, p.longitude))) := by
        rw [Sql.Table.find?_insert? hinserted, hid]
        exact if_pos rfl
      have hrow₂ : db₂.routeVersions.find? (specifiedVersion externals data row parent box).id.val
          = some (PgRouteVersionRepository.rowOfVersion
            (specifiedVersion externals data row parent box)) := by
        rw [Sql.Table.find?_insert? hsaved]
        exact if_pos rfl
      have hdraft : (loadedDraft db row).id = data.draftId := by
        have := Sql.Table.key_of_find? h.found
        exact congrArg RouteEditing.RouteDraftId.mk this
      unfold Agree
      rw [hcommit, hexecuted]
      simp only
      rw [sameOutcome_iff (by rw [h.found]; rfl) hnumber hrow₁ hrow₂ hdrafts hupdated ⟨hdraft, rfl⟩
        hpointer hpointer₂, sameVersion_iff hread hok hbox]
      simp [hpositive]

theorem agree_iff_of_publishes (h : Publishes data db row)
    : Agree externals contents data db ↔ Fits db row := by
  have hlock := lockDraft_eq_ok_iff.mpr h
  by_cases hreadable : Readable row
  . by_cases hok : Publishable row
    . rw [agree_iff_of_taken hkey hreplay hfresh h hreadable hok]
      constructor
      . intro hsame
        exact ⟨by simp [hreadable, hok], fun _ => hsame⟩
      . intro hfits
        exact hfits.same hok
    -- the committer goes on to the versions of the activity
    . obtain ⟨messages, hexecuted⟩ := executed_of_unpublishable contents hkey h hok
      obtain ⟨segments, hread, hlength⟩ := hreadable
      have hnot : ¬Fits db row := by
        intro hfits
        exact hok (hfits.accepted.mp ⟨segments, hread, hlength⟩)
      simp only [hnot, iff_false]
      cases hparent : latestVersion row.activityId db with
      | error e =>
        have hcommit : (commit externals data).run db = .error (.err e) db := by
          rw [run_commit_of_new hreplay]
          exact run_publish_of_not_parent hlock (flatCoords_of_segments hread hlength externals) hparent
        rw [agree_iff_of_error hcommit, hexecuted]
        unfold latestVersion at hparent
        split at hparent
        . cases hparent
        . cases hparent
          rintro ⟨_, heq, hkind⟩
          cases heq
          cases hkind
      | ok parent =>
        obtain ⟨result, db₁, hrun, _⟩ := run_publish_of_fresh hlock hread hlength hparent hfresh
        unfold Agree
        rw [run_commit_of_new hreplay, hrun, hexecuted]
        exact id
  . obtain ⟨messages, hcoords⟩ := flatCoords_of_not_readable hreadable externals
    have hcommit : (commit externals data).run db = .error (.err (.validationFailed messages)) db := by
      rw [run_commit_of_new hreplay]
      exact run_publish_of_not_coords hlock hcoords
    rw [agree_iff_of_error hcommit]
    by_cases hok : Publishable row
    . have hnot : ¬Fits db row := by
        intro hfits
        exact hreadable (hfits.accepted.mpr hok)
      simp only [hnot, iff_false]
      rintro ⟨e, heq, hkind⟩
      obtain ⟨_, _, hexecuted⟩ | ⟨_, _, ⟨_, _, hexecuted⟩ | ⟨_, _, _, _, hexecuted, _⟩⟩ :=
        executed_of_valid contents hkey hfresh h hok
      . rw [hexecuted] at heq
        cases heq
        cases hkind
      . rw [hexecuted] at heq
        cases heq
        cases hkind
      . rw [hexecuted] at heq
        cases heq
    . obtain ⟨_, hexecuted⟩ := executed_of_unpublishable contents hkey h hok
      rw [hexecuted]
      constructor
      . intro _
        exact ⟨by simp [hreadable, hok], fun h => absurd h hok⟩
      . intro _
        exact ⟨_, rfl, rfl⟩

theorem agree_iff_of_new
    : Agree externals contents data db ↔ ∀ row, Publishes data db row → Fits db row := by
  cases hlock : lockDraft data db with
  | error e =>
    have hcommit : (commit externals data).run db = .error (.err e) db := by
      rw [run_commit_of_new hreplay]
      exact run_publish_of_not_locked hlock
    rw [agree_iff_of_error hcommit, executed_of_not_locked contents hkey hlock]
    constructor
    . intro _ row hpublishes
      rw [lockDraft_eq_ok_iff.mpr hpublishes] at hlock
      cases hlock
    . intro _
      exact ⟨e, rfl, rfl⟩
  | ok row =>
    have h := lockDraft_eq_ok_iff.mp hlock
    rw [agree_iff_of_publishes hkey hreplay hfresh h]
    constructor
    . intro hfits other hother
      have heq := h.found.symm.trans hother.found
      cases heq
      exact hfits
    . intro hall
      exact hall row h

end Decide

/--
A conflict of the key, or a version that cannot be given back, is an error that the domain does not have.
-/
theorem not_agree_of_replay_error {e : RouteVersioningError} (hfresh : Fresh externals db)
    (hreplay : replayCommit externals data db = .error e) (hstore : AboutStore e)
    : ¬Agree externals contents data db := by
  rw [agree_iff_of_error (run_commit_of_error hreplay)]
  rintro ⟨e', hexecuted, hkind⟩
  cases hkey : versionOfKey externals db data.idempotencyKey with
  | some version =>
    rw [executed_of_version contents hkey] at hexecuted
    cases hexecuted
  | none =>
    have hnot := (of_executed_error contents hkey hfresh hexecuted).1
    exact hnot (aboutStore_of_ctorIdx hkind hstore)

open RouteEditing.RouteDraft (sampleGeometry)

-- a valid draft, as the repository stores it
def sampleStored : DraftRow :=
  { Transactions.sampleDraft ⟨10⟩ with geometry := RouteEditing.geometryToJson sampleGeometry }

def sampleStore : Database := { Transactions.sampleDatabase.toDatabase with
  routeEditing := { drafts := ⟨[sampleStored], by decide⟩, draftOperations := .empty }
}

def sampleContents : Contents := fun _ =>
  ([], ⟨⟨.fin 0, .fin 0⟩, ⟨.fin 0, .fin 0⟩⟩, ⟨.fin 0, 0, "v1.0"⟩)

def samplePublication (draftId : Uuid) : PublicationCommitData :=
  ⟨⟨draftId⟩, 0, ⟨⟨3⟩⟩, ⟨30⟩, none⟩

theorem fresh_sampleStore : Fresh (Transactions.sampleExternals 20) sampleStore := ⟨rfl, rfl⟩

theorem publishable_sampleStored : Publishable sampleStored where
  geometry := RouteEditing.ValidGeometry.of_built ⟨by decide, by decide⟩ (by decide)
  base := by decide

theorem not_readable_sampleStored : ¬Readable sampleStored := by
  rintro ⟨_, hread, _⟩
  cases hread

end RouteVersioning
