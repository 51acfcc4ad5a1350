import Haiker.Imports.Lemmas.Commit
import Haiker.RouteVersioning.Lemmas.PublicationCommit
import Haiker.Transactions.Session

/-!
This module contains what the statements look at and what the transactions leave when they commit.
-/

open Rust
open RouteVersioning

namespace Transactions

/--
What is locked by the key is the same in both databases.
-/
def Same (db db' : Imports.Database) : Key → Prop
  | .artifact id => db'.sourceArtifacts.find? id = db.sourceArtifacts.find? id
  | .revision id => db'.sourceRevisions.find? id = db.sourceRevisions.find? id
  | .revisionSlot slot => ∀ id, (db'.sourceRevisions.find? id).bind Imports.revisionSlot = some slot
    ↔ (db.sourceRevisions.find? id).bind Imports.revisionSlot = some slot
  | .track id => db'.recordedTracks.find? id = db.recordedTracks.find? id
  | .activity id => db'.activities.find? id = db.activities.find? id
  | .version id => db'.routeVersions.find? id = db.routeVersions.find? id
  | .versionSlot slot => ∀ id, (db'.routeVersions.find? id).bind Imports.versionSlot = some slot
    ↔ (db.routeVersions.find? id).bind Imports.versionSlot = some slot
  | .draft id => db'.routeEditing.drafts.find? id = db.routeEditing.drafts.find? id
  | .import_ id => db'.imports.find? id = db.imports.find? id
  | .completed checksum => ∀ id, (db'.imports.find? id).bind Imports.completedChecksum = some checksum
    ↔ (db.imports.find? id).bind Imports.completedChecksum = some checksum
  | .event id => db'.outbox.find? id = db.outbox.find? id

theorem Same.refl (db : Imports.Database) (k : Key) : Same db db k := by
  cases k with
  | artifact | revision | track | activity | version | draft | import_ | event => rfl
  | revisionSlot | versionSlot | completed => exact fun _ => Iff.rfl

section Statements

variable {α ν ε : Type} {key : α → Uuid} [DecidableEq ν]
  {table : Imports.Database → Sql.Table key} {index : α → Option ν} {rowKey : Uuid → Key}
  {indexKey : ν → Key}

theorem local_insert (row : α) (pkey taken : ε)
    (hrow : ∀ db db' id, Same db db' (rowKey id) → (table db').find? id = (table db).find? id)
    (hindex : ∀ db db' v, Same db db' (indexKey v) →
      ∀ id, ((table db').find? id).bind index = some v ↔ ((table db).find? id).bind index = some v)
    : (insert table index rowKey indexKey row pkey taken).Local Same := by
  intro db db' hsame
  refine ⟨rfl, ?_⟩
  have hfind := hrow db db' (key row) (hsame _ List.mem_cons_self)
  have hclashes : (table db').clashes index row = (table db).clashes index row := by
    apply Sql.Table.clashes_congr
    intro v hv
    apply hindex
    apply hsame
    simp [insert, hv]
  simp only [insert, hfind, hclashes]

theorem local_insertRow (row : α) (pkey : ε)
    (hrow : ∀ db db' id, Same db db' (rowKey id) → (table db').find? id = (table db).find? id)
    : (insertRow table rowKey row pkey).Local Same := by
  intro db db' hsame
  refine ⟨rfl, ?_⟩
  have hfind := hrow db db' (key row) (hsame _ List.mem_cons_self)
  simp only [insertRow, hfind]

theorem local_updateRow (k : Key) : (updateRow k : SqlStatement ε).Local Same :=
  fun _ _ _ => ⟨rfl, rfl⟩

theorem accepted_insert {row : α} {pkey taken : ε} {db : Imports.Database}
    (h : (insert table index rowKey indexKey row pkey taken).refused db = none)
    : (∃ table', (table db).insert? row = some table') ∧ (table db).clashes index row = false := by
  unfold insert at h
  simp only at h
  split at h
  . cases h
  . next hfree =>
    split at h
    . cases h
    . next hclash =>
      rw [← Sql.Table.insert?_eq_none_iff] at hfree
      exact ⟨Option.ne_none_iff_exists'.mp hfree, Bool.not_eq_true _ ▸ hclash⟩

theorem accepted_insertRow {row : α} {pkey : ε} {db : Imports.Database}
    (h : (insertRow table rowKey row pkey).refused db = none)
    : ∃ table', (table db).insert? row = some table' := by
  unfold insertRow at h
  simp only at h
  split at h
  . cases h
  . next hfree =>
    rw [← Sql.Table.insert?_eq_none_iff] at hfree
    exact Option.ne_none_iff_exists'.mp hfree

end Statements

/-
The publication
-/

namespace Publication

variable {publication : Publication} {basis : Basis}

theorem local_statements (publication : Publication) (basis : Basis)
    : ∀ statement ∈ publication.statements basis, statement.Local Same := by
  simp only [statements, List.forall_mem_cons, List.not_mem_nil, false_imp_iff, implies_true, and_true]
  refine ⟨?_, local_updateRow _, local_updateRow _, ?_⟩
  . exact local_insert _ _ _ (fun _ _ _ h => h) (fun _ _ _ h => h)
  . exact local_insertRow _ _ (fun _ _ _ h => h)

/--
What the statements have written, once it is committed.
-/
structure Wrote (publication : Publication) (basis : Basis) (db db' : RouteVersioning.Database)
    (result : PublicationResult) : Prop where
  inserted : db.routeVersions.insert? (publication.version basis) = some db'.routeVersions
  activities : db'.activities = ActivityCatalog.updateCurrentVersion publication.externals.now
    basis.draft.activityId (publication.version basis).id
    (correctedStatisticsJson publication.externals basis.flatCoords) db.activities
  routeEditing : db'.routeEditing
    = markPublished publication.externals.now publication.data.draftId db.routeEditing
  event : db.outbox.insert? (publishedEvent publication.externals publication.data
    (publication.version basis)) = some db'.outbox
  result : result = {
    routeVersionId := { val := (publication.version basis).id }
    versionNumber := (publication.version basis).versionNumber
    draftId := publication.data.draftId
    correctedStatisticsJson := correctedStatisticsJson publication.externals basis.flatCoords
  }

theorem write_of_accepted {db : Imports.Database}
    (h : ∀ statement ∈ publication.statements basis, statement.refused db = none)
    : ∃ db' result, (transaction (publication.write basis)).run db.toDatabase = .ok result db'
        ∧ publication.Wrote basis db.toDatabase db' result
        ∧ db.routeVersions.clashes Imports.versionSlot (publication.version basis) = false := by
  simp only [statements, List.forall_mem_cons] at h
  obtain ⟨hversion, _, _, hevent, _⟩ := h
  obtain ⟨⟨routeVersions, hinsert⟩, hfree⟩ := accepted_insert hversion
  obtain ⟨outbox, houtbox⟩ := accepted_insertRow hevent
  rw [run_transaction]
  unfold write
  simp only [EStateM.run_bind, EStateM.run_get, hinsert, houtbox]
  exact ⟨_, _, rfl, ⟨hinsert, rfl, rfl, houtbox, rfl⟩, hfree⟩

-- everything but what is locked stays as it is
theorem Wrote.same {db : Imports.Database} {db' : RouteVersioning.Database} {result : PublicationResult}
    (h : publication.Wrote basis db.toDatabase db' result) {k : Key}
    (hk : ∀ statement ∈ publication.statements basis, k ∉ statement.keys db)
    : Same db { db with toDatabase := db' } k := by
  simp only [statements, List.forall_mem_cons] at hk
  simp only [insert, insertRow, updateRow, Imports.versionSlot, Option.toList_some, List.map_cons,
    List.map_nil, List.mem_cons, List.not_mem_nil, or_false, not_or, false_imp_iff, implies_true,
    and_true] at hk
  obtain ⟨⟨hversion, hslot⟩, hactivity, hdraft, hevent⟩ := hk
  cases k with
  | artifact | revision | track | import_ => rfl
  | revisionSlot | completed => exact fun _ => Iff.rfl
  | version id =>
    simp only [Key.version.injEq] at hversion
    simp only [Same]
    rw [Sql.Table.find?_insert? h.inserted, if_neg hversion]
  | versionSlot slot =>
    simp only [Key.versionSlot.injEq] at hslot
    intro id
    simp only
    rw [Sql.Table.bind_find?_insert? h.inserted]
    exact fun hsame => hslot (Option.some.inj hsame).symm
  | activity id =>
    simp only [Key.activity.injEq] at hactivity
    simp only [Same, h.activities, ActivityCatalog.find?_updateCurrentVersion]
    cases hrow : db.activities.find? id with
    | none => rfl
    | some row =>
      have hid : row.id = id := Sql.Table.key_of_find? hrow
      simp [hid, hactivity]
  | draft id =>
    simp only [Key.draft.injEq] at hdraft
    simp only [Same, h.routeEditing, find?_markPublished]
    cases hrow : db.routeEditing.drafts.find? id with
    | none => rfl
    | some row =>
      have hid : row.id = id := Sql.Table.key_of_find? hrow
      simp [hid, hdraft]
  | event id =>
    simp only [Key.event.injEq] at hevent
    simp only [Same]
    rw [Sql.Table.find?_insert? h.event, if_neg hevent]

end Publication

/-
The import
-/

namespace ImportCommit

open Imports (completedChecksum)
open Imports.PgImportCommitter

variable {importCommit : ImportCommit}

-- no row that is locked makes the update fail, but another completed import of the checksum does
theorem refused_updateImport (importCommit : ImportCommit) (db : Imports.Database)
    : importCommit.updateImport.refused db
        = (match db.imports.find? importCommit.data.importId.val with
          | none => none
          | some row =>
            if db.imports.clashes completedChecksum
                (setCompleted importCommit.externals importCommit.data row) then
              some (refusal "failed to update import status" "idx_imports_owner_checksum_completed")
            else
              none) := by
  simp only [updateImport, completeImport]
  cases db.imports.find? importCommit.data.importId.val with
  | none => rfl
  | some row =>
    cases hclash : db.imports.clashes completedChecksum
        (setCompleted importCommit.externals importCommit.data row) with
    | true => simp [hclash]
    | false => simp [hclash]

theorem local_updateImport (importCommit : ImportCommit) : importCommit.updateImport.Local Same := by
  intro db db' hsame
  have hrow : db'.imports.find? importCommit.data.importId.val
      = db.imports.find? importCommit.data.importId.val := hsame _ List.mem_cons_self
  refine ⟨by simp only [updateImport, hrow], ?_⟩
  rw [refused_updateImport, refused_updateImport, hrow]
  cases hfound : db.imports.find? importCommit.data.importId.val with
  | none => rfl
  | some row =>
    have hclashes : db'.imports.clashes completedChecksum
        (setCompleted importCommit.externals importCommit.data row)
        = db.imports.clashes completedChecksum
          (setCompleted importCommit.externals importCommit.data row) := by
      apply Sql.Table.clashes_congr
      intro checksum hchecksum
      have hkey : Key.completed checksum ∈ importCommit.updateImport.keys db := by
        simp [updateImport, hfound, hchecksum]
      exact hsame _ hkey
    simp only [hclashes]

theorem local_statements (importCommit : ImportCommit)
    : ∀ statement ∈ importCommit.statements, statement.Local Same := by
  simp only [statements, List.forall_mem_cons, List.not_mem_nil, false_imp_iff, implies_true, and_true]
  refine ⟨?_, ?_, ?_, ?_, ?_, local_updateRow _, local_updateImport importCommit, ?_⟩
  . exact local_insertRow _ _ (fun _ _ _ h => h)
  . exact local_insert _ _ _ (fun _ _ _ h => h) (fun _ _ _ h => h)
  . exact local_insertRow _ _ (fun _ _ _ h => h)
  . exact local_insertRow _ _ (fun _ _ _ h => h)
  . exact local_insert _ _ _ (fun _ _ _ h => h) (fun _ _ _ h => h)
  . exact local_insertRow _ _ (fun _ _ _ h => h)

theorem commit_of_accepted {db : Imports.Database}
    (h : ∀ statement ∈ importCommit.statements, statement.refused db = none)
    : ∃ db', (commit importCommit.externals importCommit.data).run db
          = .ok importCommit.data.activityId db'
        ∧ Committed importCommit.externals importCommit.data db db' := by
  simp only [statements, List.forall_mem_cons] at h
  obtain ⟨hartifact, hrevision, htrack, hactivity, hversion, _, himport, hevent, _⟩ := h
  obtain ⟨_, hartifact⟩ := accepted_insertRow hartifact
  obtain ⟨⟨_, hrevision⟩, hrevisionFree⟩ := accepted_insert hrevision
  obtain ⟨_, htrack⟩ := accepted_insertRow htrack
  obtain ⟨_, hactivity⟩ := accepted_insertRow hactivity
  obtain ⟨⟨_, hversion⟩, hversionFree⟩ := accepted_insert hversion
  obtain ⟨_, hevent⟩ := accepted_insertRow hevent
  have hcomplete : ∃ imports,
      completeImport importCommit.externals importCommit.data db.imports = some imports := by
    simp only [updateImport] at himport
    cases hcompleted : completeImport importCommit.externals importCommit.data db.imports with
    | none =>
      rw [hcompleted] at himport
      cases himport
    | some imports => exact ⟨imports, rfl⟩
  obtain ⟨_, hcomplete⟩ := hcomplete
  obtain ⟨e, hrun⟩ | hcommitted := commit_cases importCommit.externals importCommit.data db
  . exfalso
    unfold Imports.PgImportCommitter.commit at hrun
    rw [run_transaction] at hrun
    simp only [insertSource, insertActivity, finishImport, bind_assoc, EStateM.run_bind, EStateM.run_get,
      EStateM.run_modify, LawfulMonadStateOf.modify_bind_modify, Function.comp_apply, hartifact, hrevision,
      hrevisionFree, htrack, hactivity, hversion, hversionFree, hcomplete, hevent, Bool.false_eq_true,
      ↓reduceIte] at hrun
    cases hrun
  . exact hcommitted

-- a value that a row has before it is completed, it has afterwards too
theorem completedChecksum_completed (externals : Imports.CommitExternals) (data : Imports.ImportCommitData)
    {row : Imports.ImportRow} {checksum : Uuid × String} (h : completedChecksum row = some checksum)
    : completedChecksum (setCompleted externals data row) = some checksum := by
  rw [Imports.PgImportRepository.completedChecksum_eq_some_iff] at h ⊢
  exact ⟨h.1, h.2.1, rfl⟩

-- everything but what is locked stays as it is
theorem same_of_committed {db db' : Imports.Database}
    (h : Committed importCommit.externals importCommit.data db db') {k : Key}
    (hk : ∀ statement ∈ importCommit.statements, k ∉ statement.keys db)
    : Same db db' k := by
  simp only [statements, List.forall_mem_cons] at hk
  simp only [insert, insertRow, updateRow, Imports.versionSlot, Imports.revisionSlot, Option.toList_some,
    List.map_cons, List.map_nil, List.mem_cons, List.not_mem_nil, or_false, not_or, false_imp_iff,
    implies_true, and_true] at hk
  obtain ⟨hartifact, ⟨hrevision, hrevisionSlot⟩, htrack, hactivity, ⟨hversion, hversionSlot⟩, _, himport,
    hevent⟩ := hk
  cases k with
  | artifact id =>
    simp only [Key.artifact.injEq] at hartifact
    simp only [Same]
    rw [Sql.Table.find?_insert? h.sourceArtifacts, if_neg hartifact]
  | revision id =>
    simp only [Key.revision.injEq] at hrevision
    simp only [Same]
    rw [Sql.Table.find?_insert? h.sourceRevisions, if_neg hrevision]
  | revisionSlot slot =>
    simp only [Key.revisionSlot.injEq] at hrevisionSlot
    intro id
    rw [Sql.Table.bind_find?_insert? h.sourceRevisions]
    exact fun hslot => hrevisionSlot (Option.some.inj hslot).symm
  | track id =>
    simp only [Key.track.injEq] at htrack
    simp only [Same]
    rw [Sql.Table.find?_insert? h.recordedTracks, if_neg htrack]
  | activity id =>
    simp only [Key.activity.injEq] at hactivity
    simp only [Same]
    rw [h.find?_activities]
    exact if_neg hactivity
  | version id =>
    simp only [Key.version.injEq] at hversion
    simp only [Same]
    rw [Sql.Table.find?_insert? h.routeVersions, if_neg hversion]
  | versionSlot slot =>
    simp only [Key.versionSlot.injEq] at hversionSlot
    intro id
    rw [Sql.Table.bind_find?_insert? h.routeVersions]
    exact fun hslot => hversionSlot (Option.some.inj hslot).symm
  | draft id =>
    simp only [Same]
    rw [h.routeEditing]
  | import_ id =>
    simp only [Key.import_.injEq, updateImport, List.mem_cons, not_or] at himport
    exact h.find?_imports_ne himport.1
  | completed checksum =>
    intro id
    by_cases hid : id = importCommit.data.importId.val
    . subst hid
      cases hrow : db.imports.find? importCommit.data.importId.val with
      | none => rw [find?_completeImport h.imports, hrow, Option.map_none]
      | some row =>
        rw [h.find?_import hrow, Option.bind_some, Option.bind_some]
        have hnew : completedChecksum (setCompleted importCommit.externals importCommit.data row)
            ≠ some checksum := by
          intro hentered
          apply himport
          simp [updateImport, hrow, hentered]
        exact iff_of_false hnew fun hold => hnew (completedChecksum_completed _ _ hold)
    . rw [h.find?_imports_ne hid]
  | event id =>
    simp only [Key.event.injEq] at hevent
    simp only [Same]
    rw [Sql.Table.find?_insert? h.outbox, if_neg hevent]

end ImportCommit

end Transactions
