import Haiker.Imports.Commit
import Haiker.Imports.Persistence

/-!
This module contains what the commit of an import leaves in the database.
-/

open Rust

namespace Imports

namespace PgImportCommitter

variable {externals : CommitExternals} {data : ImportCommitData} {db db' : Database}

-- all rows have been inserted, and the import has become completed
structure Committed (externals : CommitExternals) (data : ImportCommitData) (db db' : Database) : Prop
    where
  sourceArtifacts :
    db.sourceArtifacts.insert? (sourceArtifact externals data) = some db'.sourceArtifacts
  sourceRevisions :
    db.sourceRevisions.insert? (sourceRevision externals data) = some db'.sourceRevisions
  recordedTracks : db.recordedTracks.insert? (recordedTrack externals data) = some db'.recordedTracks
  activities : ∃ activities, db.activities.insert? (activity externals data) = some activities
    ∧ db'.activities = activities.updateWhere (fun row => row.id = data.activityId.val)
      (setSummaries externals data) (id_setSummaries externals data)
  routeVersions : db.routeVersions.insert? (initialVersion externals data) = some db'.routeVersions
  versionFree : db.routeVersions.clashes versionSlot (initialVersion externals data) = false
  imports : completeImport externals data db.imports = some db'.imports
  outbox : db.outbox.insert? (committedEvent externals data) = some db'.outbox
  routeEditing : db'.routeEditing = db.routeEditing

theorem insertSource_cases (externals : CommitExternals) (data : ImportCommitData) (db : Database)
    : (∃ e db', (insertSource externals data).run db = .error (.err e) db')
        ∨ ∃ sourceArtifacts sourceRevisions recordedTracks,
          db.sourceArtifacts.insert? (sourceArtifact externals data) = some sourceArtifacts
            ∧ db.sourceRevisions.insert? (sourceRevision externals data) = some sourceRevisions
            ∧ db.recordedTracks.insert? (recordedTrack externals data) = some recordedTracks
            ∧ (insertSource externals data).run db
              = .ok () { db with sourceArtifacts, sourceRevisions, recordedTracks } := by
  unfold insertSource
  simp only [EStateM.run_bind, EStateM.run_get]
  cases hartifact : db.sourceArtifacts.insert? (sourceArtifact externals data) with
  | none => exact .inl ⟨_, _, rfl⟩
  | some sourceArtifacts =>
    cases hrevision : db.sourceRevisions.insert? (sourceRevision externals data) with
    | none => exact .inl ⟨_, _, rfl⟩
    | some sourceRevisions =>
      cases hclash : db.sourceRevisions.clashes revisionSlot (sourceRevision externals data) with
      | true => exact .inl ⟨_, _, rfl⟩
      | false =>
        cases htrack : db.recordedTracks.insert? (recordedTrack externals data) with
        | none => exact .inl ⟨_, _, rfl⟩
        | some recordedTracks => exact .inr ⟨_, _, _, rfl, rfl, rfl, rfl⟩

theorem insertActivity_cases (externals : CommitExternals) (data : ImportCommitData) (db : Database)
    : (∃ e db', (insertActivity externals data).run db = .error (.err e) db')
        ∨ ∃ activities routeVersions,
          db.activities.insert? (activity externals data) = some activities
            ∧ db.routeVersions.insert? (initialVersion externals data) = some routeVersions
            ∧ db.routeVersions.clashes versionSlot (initialVersion externals data) = false
            ∧ (insertActivity externals data).run db
              = .ok () { db with
                  routeVersions
                  activities := activities.updateWhere (fun row => row.id = data.activityId.val)
                    (setSummaries externals data) (id_setSummaries externals data)
                } := by
  unfold insertActivity
  simp only [EStateM.run_bind, EStateM.run_get]
  cases hactivity : db.activities.insert? (activity externals data) with
  | none => exact .inl ⟨_, _, rfl⟩
  | some activities =>
    cases hversion : db.routeVersions.insert? (initialVersion externals data) with
    | none => exact .inl ⟨_, _, rfl⟩
    | some routeVersions =>
      cases hclash : db.routeVersions.clashes versionSlot (initialVersion externals data) with
      | true => exact .inl ⟨_, _, rfl⟩
      | false => exact .inr ⟨_, _, rfl, rfl, rfl, rfl⟩

theorem finishImport_cases (externals : CommitExternals) (data : ImportCommitData) (db : Database)
    : (∃ e db', (finishImport externals data).run db = .error (.err e) db')
        ∨ ∃ imports outbox, completeImport externals data db.imports = some imports
          ∧ db.outbox.insert? (committedEvent externals data) = some outbox
          ∧ (finishImport externals data).run db = .ok () { db with imports, outbox } := by
  unfold finishImport
  simp only [EStateM.run_bind, EStateM.run_get]
  cases himport : completeImport externals data db.imports with
  | none => exact .inl ⟨_, _, rfl⟩
  | some imports =>
    cases houtbox : db.outbox.insert? (committedEvent externals data) with
    | none => exact .inl ⟨_, _, rfl⟩
    | some outbox => exact .inr ⟨_, _, rfl, rfl, rfl⟩

/--
A commit has done all of its writes, or it has failed and done none.
-/
theorem commit_cases (externals : CommitExternals) (data : ImportCommitData) (db : Database)
    : (∃ e, (commit externals data).run db = .error (.err e) db)
        ∨ ∃ db', (commit externals data).run db = .ok data.activityId db'
          ∧ Committed externals data db db' := by
  unfold commit
  rw [run_transaction]
  simp only [EStateM.run_bind]
  obtain ⟨e, db', hsource⟩ | ⟨_, _, _, hartifact, hrevision, htrack, hsource⟩ :=
    insertSource_cases externals data db
  . rw [hsource]
    exact .inl ⟨e, rfl⟩
  rw [hsource]
  simp only
  obtain ⟨e, db', hinsert⟩ | ⟨_, _, hactivity, hversion, hfree, hinsert⟩ :=
    insertActivity_cases externals data _
  . rw [hinsert]
    exact .inl ⟨e, rfl⟩
  rw [hinsert]
  simp only
  obtain ⟨e, db', hfinish⟩ | ⟨_, _, himport, houtbox, hfinish⟩ :=
    finishImport_cases externals data _
  . rw [hfinish]
    exact .inl ⟨e, rfl⟩
  rw [hfinish]
  exact .inr ⟨_, rfl,
    ⟨hartifact, hrevision, htrack, ⟨_, hactivity, rfl⟩, hversion, hfree, himport, houtbox, rfl⟩⟩

theorem find?_completeImport {imports imports' : ImportTable}
    (h : completeImport externals data imports = some imports') (k : Uuid)
    : imports'.find? k
        =
      (imports.find? k).map fun row =>
        if row.id = data.importId.val then setCompleted externals data row else row := by
  unfold completeImport at h
  cases hrow : imports.find? data.importId.val with
  | none =>
    rw [hrow] at h
    obtain rfl : imports = imports' := Option.some.inj h
    cases hk : imports.find? k with
    | none => rfl
    | some row =>
      have hne : row.id ≠ data.importId.val := by
        intro hid
        rw [← Sql.Table.key_of_find? hk, hid, hrow] at hk
        cases hk
      simp [hne]
  | some row =>
    rw [hrow] at h
    simp only at h
    split at h
    . cases h
    . obtain rfl := Option.some.inj h
      rw [Sql.Table.find?_updateWhere]
      simp

theorem Committed.find?_imports_ne (h : Committed externals data db db') {k : Uuid}
    (hk : k ≠ data.importId.val) : db'.imports.find? k = db.imports.find? k := by
  rw [find?_completeImport h.imports]
  cases hrow : db.imports.find? k with
  | none => rfl
  | some row =>
    have hid : row.id = k := Sql.Table.key_of_find? hrow
    simp [hid, hk]

theorem Committed.find?_import (h : Committed externals data db db') {row : ImportRow}
    (hrow : db.imports.find? data.importId.val = some row)
    : db'.imports.find? data.importId.val = some (setCompleted externals data row) := by
  have hid : row.id = data.importId.val := Sql.Table.key_of_find? hrow
  simp [find?_completeImport h.imports, hrow, hid]

-- no other import of the owner with the checksum is completed
theorem Committed.free (h : Committed externals data db db') {row : ImportRow}
    (hrow : db.imports.find? data.importId.val = some row)
    : db.imports.clashes completedChecksum (setCompleted externals data row) = false := by
  have himports := h.imports
  unfold completeImport at himports
  rw [hrow] at himports
  simp only at himports
  split at himports
  . cases himports
  . next hfree => exact Bool.not_eq_true _ ▸ hfree

theorem Committed.find?_activities (h : Committed externals data db db') (k : Uuid)
    : db'.activities.find? k
        =
      if k = data.activityId.val then
        some (setSummaries externals data (activity externals data))
      else
        db.activities.find? k := by
  obtain ⟨activities, hinsert, hupdate⟩ := h.activities
  have hid : (activity externals data).id = data.activityId.val := rfl
  rw [hupdate, Sql.Table.find?_updateWhere, Sql.Table.find?_insert? hinsert, hid]
  by_cases hk : k = data.activityId.val
  . rw [if_pos hk, if_pos hk]
    simp [hid]
  . rw [if_neg hk, if_neg hk]
    cases hrow : db.activities.find? k with
    | none => rfl
    | some row =>
      have hk' : row.id = k := Sql.Table.key_of_find? hrow
      simp [hk', hk]

end PgImportCommitter

end Imports
