import Haiker.Imports.Lifecycle

/-!
This module contains when a file is imported no more than once by each owner. What excludes a second
activity is the index on the completed imports, as long as a completed import stays completed.
-/

open Rust
open Interleaving

namespace Imports

section Database

variable (db : Database)

-- the activity that a revision is of has been made from the file with the checksum
structure MadeFrom (ownerId : Uuid) (checksum : String) (revision : SourceRevisionRow) : Prop where
  stored : db.sourceRevisions.find? revision.id = some revision
  artifact : ∃ artifact, db.sourceArtifacts.find? revision.sourceArtifactId = some artifact
    ∧ artifact.ownerId = ownerId ∧ artifact.checksum = checksum

/--
There is no more than one of all that is made from a file.
-/
structure AtMostOne : Prop where
  activity : ∀ ownerId checksum revision revision', MadeFrom db ownerId checksum revision →
    MadeFrom db ownerId checksum revision' → revision.activityId = revision'.activityId
  track : ∀ ownerId checksum revision revision' track track', MadeFrom db ownerId checksum revision →
    MadeFrom db ownerId checksum revision' → db.recordedTracks.find? track.id = some track →
      track.sourceRevisionId = revision.id → db.recordedTracks.find? track'.id = some track' →
        track'.sourceRevisionId = revision'.id → track = track'
  version : ∀ ownerId checksum revision revision' version version',
    MadeFrom db ownerId checksum revision → MadeFrom db ownerId checksum revision' →
      db.routeVersions.find? version.id = some version → version.activityId = revision.activityId →
        version.versionNumber = 1 → db.routeVersions.find? version'.id = some version' →
          version'.activityId = revision'.activityId → version'.versionNumber = 1 → version = version'

/--
The constraints, and what the imports leave: each file that has been committed is the one of a completed
import, and has one revision and one track.
-/
structure WellKept : Prop where
  completedOnce : db.imports.Indexed completedChecksum
  versionOnce : db.routeVersions.Indexed versionSlot
  completed : ∀ artifact, db.sourceArtifacts.find? artifact.id = some artifact →
    ∃ row, db.imports.find? artifact.importId = some row
      ∧ completedChecksum row = some (artifact.ownerId, artifact.checksum)
      ∧ row.sourceArtifactId = some artifact.id
  artifact : db.sourceRevisions.Refers SourceRevisionRow.sourceArtifactId db.sourceArtifacts
  revisionOnce : db.sourceRevisions.Indexed fun row => some row.sourceArtifactId
  revision : db.recordedTracks.Refers RecordedTrackRow.sourceRevisionId db.sourceRevisions
  trackOnce : db.recordedTracks.Indexed fun row => some row.sourceRevisionId

-- the checksums are as the repository writes them, and come with the id of the artifact
structure Uploads : Prop where
  readable : ∀ id row, db.imports.find? id = some row →
    row.checksum = (rowToImport row).checksum.map (·.value)
  artifact : ∀ id row, db.imports.find? id = some row → row.checksum ≠ none → row.sourceArtifactId ≠ none

end Database

variable {db db' : Database}

theorem WellKept.artifact_unique (h : WellKept db) {artifact artifact' : SourceArtifactRow}
    (hartifact : db.sourceArtifacts.find? artifact.id = some artifact)
    (hartifact' : db.sourceArtifacts.find? artifact'.id = some artifact')
    (howner : artifact.ownerId = artifact'.ownerId) (hchecksum : artifact.checksum = artifact'.checksum)
    : artifact = artifact' := by
  obtain ⟨row, hrow, hcompleted, hid⟩ := h.completed artifact hartifact
  obtain ⟨row', hrow', hcompleted', hid'⟩ := h.completed artifact' hartifact'
  rw [← howner, ← hchecksum] at hcompleted'
  rw [← h.completedOnce.eq hrow hrow' hcompleted hcompleted', hid, Option.some.injEq] at hid'
  rw [hid', hartifact', Option.some.injEq] at hartifact
  exact hartifact.symm

theorem WellKept.revision_unique (h : WellKept db) {ownerId : Uuid} {checksum : String}
    {revision revision' : SourceRevisionRow} (hmade : MadeFrom db ownerId checksum revision)
    (hmade' : MadeFrom db ownerId checksum revision') : revision = revision' := by
  obtain ⟨artifact, hartifact, howner, hchecksum⟩ := hmade.artifact
  obtain ⟨artifact', hartifact', howner', hchecksum'⟩ := hmade'.artifact
  have hid : artifact.id = revision.sourceArtifactId := Sql.Table.key_of_find? hartifact
  have hid' : artifact'.id = revision'.sourceArtifactId := Sql.Table.key_of_find? hartifact'
  rw [← hid] at hartifact
  rw [← hid'] at hartifact'
  have hsame := h.artifact_unique hartifact hartifact' (howner.trans howner'.symm)
    (hchecksum.trans hchecksum'.symm)
  have hsource : revision'.sourceArtifactId = revision.sourceArtifactId := by
    rw [← hid, ← hid', hsame]
  exact Sql.Table.Indexed.eq h.revisionOnce hmade.stored hmade'.stored rfl (congrArg some hsource)

theorem WellKept.atMostOne (h : WellKept db) : AtMostOne db where
  activity := by
    intro ownerId checksum revision revision' hmade hmade'
    rw [h.revision_unique hmade hmade']
  track := by
    intro ownerId checksum revision revision' track track' hmade hmade' htrack hof htrack' hof'
    have hsource : track'.sourceRevisionId = track.sourceRevisionId := by
      rw [hof, hof', h.revision_unique hmade hmade']
    exact Sql.Table.Indexed.eq h.trackOnce htrack htrack' rfl (congrArg some hsource)
  version := by
    intro ownerId checksum revision revision' version version' hmade hmade' hversion hof hfirst
      hversion' hof' hfirst'
    have hslot : versionSlot version = some (revision.activityId, 1) := by
      rw [versionSlot, hof, hfirst]
    have hslot' : versionSlot version' = some (revision.activityId, 1) := by
      rw [versionSlot, hof', hfirst', h.revision_unique hmade hmade']
    exact h.versionOnce.eq hversion hversion' hslot hslot'

-- which file an import is of
def fileOf (row : ImportRow) : Uuid × Option String × Option Uuid :=
  (row.ownerId, row.checksum, row.sourceArtifactId)

-- the imports are of the files that they were of in the beginning
def SameFiles (initial db : Database) : Prop :=
  ∀ id, (db.imports.find? id).map fileOf = (initial.imports.find? id).map fileOf

-- and so are the copies of an actor
def KnownFiles (initial : Database) (known : Known) : Prop :=
  ∀ id copy, known id = some copy → ∃ row, initial.imports.find? id = some row
    ∧ copy.checksum = (rowToImport row).checksum
    ∧ copy.sourceArtifactId = (rowToImport row).sourceArtifactId

variable {initial : Database} {known : Known} {imp copy : Import} {row : ImportRow} {id : Uuid}

theorem SameFiles.initial_row (h : SameFiles initial db) (hrow : db.imports.find? id = some row)
    : ∃ row', initial.imports.find? id = some row' ∧ fileOf row' = fileOf row := by
  have hsame := h id
  rw [hrow, Option.map_some] at hsame
  exact Option.map_eq_some_iff.mp hsame.symm

theorem SameFiles.loaded (h : SameFiles initial db) (hrow : db.imports.find? id = some row)
    : ∃ row', initial.imports.find? id = some row'
        ∧ (rowToImport row).checksum = (rowToImport row').checksum
        ∧ (rowToImport row).sourceArtifactId = (rowToImport row').sourceArtifactId := by
  obtain ⟨row', hrow', hfile⟩ := h.initial_row hrow
  simp only [fileOf, Prod.mk.injEq] at hfile
  exact ⟨row', hrow', by simp only [rowToImport, hfile.2.1], by simp only [rowToImport, hfile.2.2]⟩

-- what a worker writes does not change the file
theorem fileOf_setImport (h : SameFiles initial db) (huploads : Uploads initial)
    (hknown : KnownFiles initial known) (hcopy : known imp.id.val = some copy)
    (hchecksum : imp.checksum = copy.checksum) (hartifact : imp.sourceArtifactId = copy.sourceArtifactId)
    (hrow : db.imports.find? imp.id.val = some row)
    : fileOf (PgImportRepository.setImport imp row) = fileOf row := by
  obtain ⟨row', hrow', hfile⟩ := h.initial_row hrow
  obtain ⟨row'', hrow'', hchecksum', hartifact'⟩ := hknown _ _ hcopy
  obtain rfl : row' = row'' := Option.some.inj (hrow'.symm.trans hrow'')
  have hread := huploads.readable _ _ hrow'
  rw [← hfile]
  simp only [fileOf, Prod.mk.injEq] at hfile ⊢
  refine ⟨hfile.1.symm, ?_, ?_⟩
  . rw [hread, ← hchecksum', ← hchecksum]
    rfl
  . have hvals : imp.sourceArtifactId.map (·.val) = row'.sourceArtifactId := by
      rw [hartifact, hartifact', rowToImport]
      cases row'.sourceArtifactId with
      | none => rfl
      | some artifactId => rfl
    exact hvals

theorem SameFiles.update (h : SameFiles initial db) {imports : ImportTable}
    (hupdate : PgImportRepository.update imp db.imports = .ok imports)
    (hkept : ∀ row, db.imports.find? imp.id.val = some row →
      fileOf (PgImportRepository.setImport imp row) = fileOf row)
    : SameFiles initial { db with imports } := by
  intro id
  rw [← h id]
  by_cases hid : id = imp.id.val
  . subst hid
    cases hrow : db.imports.find? imp.id.val with
    | none => simp [PgImportRepository.find?_update hupdate, hrow]
    | some row =>
      simp [PgImportRepository.find?_update_self hupdate hrow, hkept row hrow]
  . simp only
    rw [PgImportRepository.find?_update_ne hupdate hid]

theorem KnownFiles.insert (h : KnownFiles initial known)
    (himp : ∃ row, initial.imports.find? imp.id.val = some row
      ∧ imp.checksum = (rowToImport row).checksum
      ∧ imp.sourceArtifactId = (rowToImport row).sourceArtifactId)
    : KnownFiles initial (Function.update known imp.id.val (some imp)) := by
  intro id copy hcopy
  by_cases hid : id = imp.id.val
  . subst hid
    rw [Function.update_self, Option.some.injEq] at hcopy
    rw [← hcopy]
    exact himp
  . rw [Function.update_of_ne hid] at hcopy
    exact h id copy hcopy

theorem KnownFiles.learn (h : KnownFiles initial known) (hsame : SameFiles initial db) (storage : Storage)
    (command : Command)
    (hupdate : ∀ imp, command = .update imp → ∃ copy, known imp.id.val = some copy
      ∧ imp.checksum = copy.checksum ∧ imp.sourceArtifactId = copy.sourceArtifactId)
    : KnownFiles initial (known.learn command (answer storage command db).1) := by
  cases command with
  | download | verifyUpload | check | commit => exact h
  | findById id =>
    cases hrow : db.imports.find? id.val with
    | none =>
      rw [answer_findById, PgImportRepository.findById, hrow]
      exact h
    | some row =>
      rw [answer_findById_of_found storage hrow]
      have hkey : row.id = id.val := Sql.Table.key_of_find? hrow
      rw [← hkey] at hrow
      exact h.insert (hsame.loaded hrow)
  | update imp =>
    obtain ⟨copy, hcopy, hchecksum, hartifact⟩ := hupdate imp rfl
    obtain ⟨row, hrow, hchecksum', hartifact'⟩ := h _ _ hcopy
    cases hresult : PgImportRepository.update imp db.imports with
    | error e =>
      rw [answer_update_of_error storage hresult]
      exact h
    | ok imports =>
      rw [answer_update_of_ok storage hresult]
      exact h.insert ⟨row, hrow, hchecksum.trans hchecksum', hartifact.trans hartifact'⟩
  | findAbandoned threshold =>
    intro id copy hcopy
    simp only [answer, Known.learn, Option.or_eq_some_iff] at hcopy
    obtain hfound | ⟨_, hcopy⟩ := hcopy
    . have hid := List.find?_some hfound
      have hmem := List.mem_of_find?_eq_some hfound
      obtain ⟨row, hrow, rfl⟩ := List.mem_map.mp hmem
      have hkey : row.id = id := of_decide_eq_true hid
      rw [← hkey]
      exact hsame.loaded (Sql.Table.find?_of_mem (List.mem_filter.mp hrow).1)
    . exact h id copy hcopy

theorem WellKept.update (h : WellKept db) {imports : ImportTable}
    (hupdate : PgImportRepository.update imp db.imports = .ok imports)
    (hkept : ∀ row, db.imports.find? imp.id.val = some row →
      fileOf (PgImportRepository.setImport imp row) = fileOf row)
    (hcompleted : ∀ row, db.imports.find? imp.id.val = some row → row.status = "completed" →
      imp.status = .completed)
    : WellKept { db with imports } := by
  refine { h with completedOnce := ?_, completed := ?_ }
  . cases hrow : db.imports.find? imp.id.val with
    | none =>
      unfold PgImportRepository.update at hupdate
      rw [hrow] at hupdate
      obtain rfl : db.imports = imports := Except.ok.inj hupdate
      exact h.completedOnce
    | some row =>
      have hkey : row.id = imp.id.val := Sql.Table.key_of_find? hrow
      have hstored : imports.find? (PgImportRepository.setImport imp row).id
          = some (PgImportRepository.setImport imp row) := by
        rw [PgImportRepository.id_setImport, hkey]
        exact PgImportRepository.find?_update_self hupdate hrow
      apply h.completedOnce.changed hstored
      . intro k hk
        rw [PgImportRepository.id_setImport, hkey] at hk
        exact PgImportRepository.find?_update_ne hupdate hk
      . exact (PgImportRepository.update_eq_ok_iff_of_found hrow).mp ⟨imports, hupdate⟩
  . intro artifact hartifact
    obtain ⟨row, hrow, hvalue, hsource⟩ := h.completed artifact hartifact
    by_cases hid : artifact.importId = imp.id.val
    . rw [hid] at hrow ⊢
      obtain ⟨howner, hchecksum, hstatus⟩ := PgImportRepository.completedChecksum_eq_some_iff.mp hvalue
      have hfile := hkept row hrow
      simp only [fileOf, Prod.mk.injEq] at hfile
      refine ⟨_, PgImportRepository.find?_update_self hupdate hrow, ?_, hfile.2.2.trans hsource⟩
      rw [PgImportRepository.completedChecksum_eq_some_iff]
      refine ⟨hfile.1.trans howner, hfile.2.1.trans hchecksum, ?_⟩
      exact congrArg ImportStatus.display (hcompleted row hrow hstatus)
    . exact ⟨row, by rw [PgImportRepository.find?_update_ne hupdate hid, hrow], hvalue, hsource⟩

theorem SameFiles.committed (h : SameFiles initial db) {externals : CommitExternals}
    {data : ImportCommitData} (hcommitted : PgImportCommitter.Committed externals data db db')
    : SameFiles initial db' := by
  intro id
  rw [← h id]
  by_cases hid : id = data.importId.val
  . subst hid
    cases hrow : db.imports.find? data.importId.val with
    | none => simp [PgImportCommitter.find?_completeImport hcommitted.imports, hrow]
    | some row =>
      rw [hcommitted.find?_import hrow]
      rfl
  . rw [hcommitted.find?_imports_ne hid]

-- the import that is completed is of the file of the new artifact
theorem completedChecksum_setCompleted {externals : CommitExternals} {data : ImportCommitData}
    (hfile : fileOf row = (data.ownerId.val, some data.checksum, some data.sourceArtifactId.val))
    : completedChecksum (PgImportCommitter.setCompleted externals data row)
        = some (data.ownerId.val, data.checksum) := by
  simp only [fileOf, Prod.mk.injEq] at hfile
  rw [PgImportRepository.completedChecksum_eq_some_iff]
  exact ⟨hfile.1, hfile.2.1, rfl⟩

theorem WellKept.committed (h : WellKept db) {externals : CommitExternals} {data : ImportCommitData}
    (hcommitted : PgImportCommitter.Committed externals data db db')
    (hrow : db.imports.find? data.importId.val = some row)
    (hfile : fileOf row = (data.ownerId.val, some data.checksum, some data.sourceArtifactId.val))
    : WellKept db' where
  completedOnce := by
    have hkey : row.id = data.importId.val := Sql.Table.key_of_find? hrow
    have hstored : db'.imports.find? (PgImportCommitter.setCompleted externals data row).id
        = some (PgImportCommitter.setCompleted externals data row) := by
      rw [PgImportCommitter.id_setCompleted, hkey]
      exact hcommitted.find?_import hrow
    apply h.completedOnce.changed hstored
    . intro k hk
      rw [PgImportCommitter.id_setCompleted, hkey] at hk
      exact hcommitted.find?_imports_ne hk
    . exact hcommitted.free hrow
  versionOnce := h.versionOnce.insert? hcommitted.routeVersions hcommitted.versionFree
  completed := by
    intro artifact hartifact
    obtain hnew | hold := Sql.Table.find?_of_insert? hcommitted.sourceArtifacts hartifact
    . subst hnew
      have hsource : row.sourceArtifactId = some data.sourceArtifactId.val := by
        simp only [fileOf, Prod.mk.injEq] at hfile
        exact hfile.2.2
      exact ⟨_, hcommitted.find?_import hrow, completedChecksum_setCompleted hfile, hsource⟩
    . obtain ⟨row', hrow', hcompleted, hsource⟩ := h.completed artifact hold
      refine ⟨row', ?_, hcompleted, hsource⟩
      rw [hcommitted.find?_imports_ne, hrow']
      -- the import of an artifact that is there already is not the one that is completed
      intro hid
      rw [hid, hrow, Option.some.injEq] at hrow'
      simp only [fileOf, Prod.mk.injEq] at hfile
      rw [← hrow', hfile.2.2, Option.some.injEq] at hsource
      have hfree : db.sourceArtifacts.find? data.sourceArtifactId.val = none :=
        Sql.Table.find?_eq_none_of_insert? hcommitted.sourceArtifacts
      rw [hsource, hold] at hfree
      cases hfree
  artifact := h.artifact.insert? hcommitted.sourceArtifacts hcommitted.sourceRevisions rfl
  revisionOnce := by
    apply h.revisionOnce.insert? hcommitted.sourceRevisions
    exact h.artifact.free (Sql.Table.find?_eq_none_of_insert? hcommitted.sourceArtifacts)
  revision := h.revision.insert? hcommitted.sourceRevisions hcommitted.recordedTracks rfl
  trackOnce := by
    apply h.trackOnce.insert? hcommitted.recordedTracks
    exact h.revision.free (Sql.Table.find?_eq_none_of_insert? hcommitted.sourceRevisions)

-- the copy that a commit is made from is of the file that is stored
theorem fileOf_committed {actor : Actor} {data : ImportCommitData} (h : SameFiles initial db)
    (huploads : Uploads initial) (hknown : KnownFiles initial known)
    (howners : ∀ externals job row, actor = .worker externals job →
      initial.imports.find? job.importId = some row → row.ownerId = job.ownerId)
    (hcopy : known data.importId.val = some copy) (hcommits : CommitsFrom actor copy data)
    : ∃ row, db.imports.find? data.importId.val = some row
        ∧ fileOf row = (data.ownerId.val, some data.checksum, some data.sourceArtifactId.val) := by
  obtain ⟨row', hrow', hchecksum, hartifact⟩ := hknown _ _ hcopy
  have hsame := h data.importId.val
  rw [hrow', Option.map_some] at hsame
  obtain ⟨row, hrow, hfile⟩ := Option.map_eq_some_iff.mp hsame
  refine ⟨row, hrow, ?_⟩
  have howner : row'.ownerId = data.ownerId.val := by
    obtain ⟨externals, job, hactor, hid, howner⟩ := hcommits.worker
    rw [hid] at hrow'
    rw [howner]
    exact howners externals job row' hactor hrow'
  have hstored : row'.checksum = some data.checksum := by
    rw [huploads.readable _ _ hrow', ← hchecksum]
    exact hcommits.checksum
  have hsource : row'.sourceArtifactId = some data.sourceArtifactId.val := by
    obtain ⟨artifactId, hsome⟩ := Option.ne_none_iff_exists'.mp
      (huploads.artifact _ _ hrow' (by simp [hstored]))
    have hloaded : copy.sourceArtifactId = some { val := artifactId } := by
      rw [hartifact, rowToImport, hsome, Option.map_some]
    rw [hsome, hcommits.artifact _ hloaded]
  rw [hfile, fileOf, howner, hstored, hsource]

/--
What a worker asks for keeps all of it, as long as a completed import stays completed.
-/
theorem WellKept.answer (h : WellKept db) (hsame : SameFiles initial db) (huploads : Uploads initial)
    (hknown : KnownFiles initial known) (storage : Storage) {externals : Externals} {job : ParseGpxJob}
    (howner : ∀ row, initial.imports.find? job.importId = some row → row.ownerId = job.ownerId)
    {command : Command} (hasks : Asks (.worker externals job) known command)
    (hkeeps : ∀ imp row, command = .update imp → db.imports.find? imp.id.val = some row →
      row.status = "completed" → imp.status = .completed)
    : WellKept (Imports.answer storage command db).2
        ∧ SameFiles initial (Imports.answer storage command db).2 := by
  cases command with
  | findById | findAbandoned | download | verifyUpload | check => exact ⟨h, hsame⟩
  | update imp =>
    obtain ⟨copy, hcopy, hwrites⟩ := hasks
    obtain ⟨hchecksum, hartifact⟩ := hwrites.kept externals job rfl
    have hkept : ∀ row, db.imports.find? imp.id.val = some row →
        fileOf (PgImportRepository.setImport imp row) = fileOf row := fun _ hrow =>
      fileOf_setImport hsame huploads hknown hcopy hchecksum hartifact hrow
    cases hupdate : PgImportRepository.update imp db.imports with
    | error e =>
      rw [answer_update_of_error storage hupdate]
      exact ⟨h, hsame⟩
    | ok imports =>
      rw [answer_update_of_ok storage hupdate]
      exact ⟨h.update hupdate hkept fun row => hkeeps imp row rfl, hsame.update hupdate hkept⟩
  | commit commitExternals data =>
    obtain ⟨copy, hcopy, hcommits⟩ := hasks
    obtain ⟨e, hanswer⟩ | ⟨db', hanswer, hcommitted⟩ :=
      answer_commit_cases storage commitExternals data db
    . rw [hanswer]
      exact ⟨h, hsame⟩
    . rw [hanswer]
      have howners : ∀ externals' job' row, Actor.worker externals job = .worker externals' job' →
          initial.imports.find? job'.importId = some row → row.ownerId = job'.ownerId := by
        intro externals' job' row hactor
        cases hactor
        exact howner row
      obtain ⟨row, hrow, hfile⟩ := fileOf_committed hsame huploads hknown howners hcopy hcommits
      exact ⟨h.committed hcommitted hrow hfile, hsame.committed hcommitted⟩

-- the next command takes a completed import back
def Client.overwrites (client : Client) (db : Database) : Bool :=
  match client.program.command? with
  | some (.update imp) =>
    match db.imports.find? imp.id.val with
    | some row => row.status = "completed" ∧ imp.status ≠ .completed
    | none => false
  | _ => false

theorem completed_of_not_overwrites {client : Client} (h : client.overwrites db = false)
    (hcommand : client.program.command? = some (.update imp))
    (hrow : db.imports.find? imp.id.val = some row) (hcompleted : row.status = "completed")
    : imp.status = .completed := by
  unfold Client.overwrites at h
  rw [hcommand] at h
  simp only [hrow, hcompleted, true_and, decide_eq_false_iff_not, not_not] at h
  exact h

section Run

variable {ι : Type} [DecidableEq ι]

-- the client does not store anything else over an import that is stored as completed
def KeepsCompleted (c : Config Database Client ι) (i : ι) : Prop :=
  (c.clients i).overwrites c.shared = false

instance (c : Config Database Client ι) (i : ι) : Decidable (KeepsCompleted c i) :=
  inferInstanceAs (Decidable (_ = _))

-- there is no more than one of each after the step, and a commit that fails has left nothing
structure OneActivity (c : Config Database Client ι) (i : ι) : Prop where
  atMostOne : AtMostOne (fire Client.step c i).shared
  nothingLeft : ∀ externals data e, (c.clients i).program.command? = some (.commit externals data) →
    outcome (PgImportCommitter.commit externals data) c.shared = .error e →
      (fire Client.step c i).shared = c.shared

structure Reached (initial : Database) (actors : ι → Actor) (c : Config Database Client ι) : Prop where
  wellKept : WellKept c.shared
  sameFiles : SameFiles initial c.shared
  known : ∀ i, KnownFiles initial (c.clients i).known
  tracking : Tracking actors c

variable {externals : ι → Externals} {jobs : ι → ParseGpxJob} {c : Config Database Client ι} {i : ι}

theorem Reached.fire (h : Reached initial (fun i => .worker (externals i) (jobs i)) c)
    (huploads : Uploads initial)
    (howners : ∀ i row, initial.imports.find? (jobs i).importId = some row →
      row.ownerId = (jobs i).ownerId)
    (hkeeps : KeepsCompleted c i)
    : Reached initial (fun i => .worker (externals i) (jobs i)) (fire Client.step c i) := by
  have htracks := h.tracking i
  have hknown := h.known i
  have hshared : (Interleaving.fire Client.step c i).shared = ((c.clients i).step c.shared).1 := rfl
  have hclient : (Interleaving.fire Client.step c i).clients i = ((c.clients i).step c.shared).2 := by
    rw [fire_clients_self]
  have hstep : WellKept ((c.clients i).step c.shared).1 ∧ SameFiles initial ((c.clients i).step c.shared).1
      ∧ KnownFiles initial ((c.clients i).step c.shared).2.known := by
    unfold KeepsCompleted at hkeeps
    revert hkeeps htracks hknown
    cases c.clients i with
    | mk storage program known =>
      intro hkeeps htracks hknown
      cases program with
      | done result => exact ⟨h.wellKept, h.sameFiles, hknown⟩
      | ask command next =>
        have hasks := htracks.1
        obtain ⟨hwellKept, hsameFiles⟩ := h.wellKept.answer h.sameFiles huploads hknown storage (howners i)
          hasks fun imp row hcommand => completed_of_not_overwrites hkeeps (congrArg some hcommand)
        refine ⟨hwellKept, hsameFiles, hknown.learn h.sameFiles storage command ?_⟩
        rintro imp rfl
        obtain ⟨copy, hcopy, hwrites⟩ := hasks
        exact ⟨copy, hcopy, hwrites.kept _ _ rfl⟩
  refine ⟨hstep.1, hstep.2.1, ?_, h.tracking.fire i⟩
  intro j
  by_cases hj : j = i
  . subst hj
    rw [hclient]
    exact hstep.2.2
  . rw [fire_clients_ne _ c hj]
    exact h.known j

theorem oneActivity_of_reached (h : Reached initial (fun i => .worker (externals i) (jobs i))
    (fire Client.step c i)) : OneActivity c i where
  atMostOne := h.wellKept.atMostOne
  nothingLeft := by
    intro commitExternals data e hcommand herror
    obtain ⟨e', hrun⟩ | ⟨db', hrun, _⟩ := PgImportCommitter.commit_cases commitExternals data c.shared
    . have hshared : (Interleaving.fire Client.step c i).shared
          = ((c.clients i).program.step (answer (c.clients i).storage) c.shared).1 := rfl
      rw [hshared]
      cases hprogram : (c.clients i).program with
      | done result => rfl
      | ask command next =>
        rw [hprogram] at hcommand
        obtain rfl := Option.some.inj hcommand
        exact after_of_run_error hrun
    . rw [outcome_of_run_ok hrun] at herror
      cases herror

/--
No file is imported twice as long as nobody stores anything over a completed import.
-/
theorem one_activity_of_keeps_completed (externals : ι → Externals) (jobs : ι → ParseGpxJob)
    (storage : ι → Storage) (initial : Database) (hkept : WellKept initial) (huploads : Uploads initial)
    (howners : ∀ i row, initial.imports.find? (jobs i).importId = some row →
      row.ownerId = (jobs i).ownerId) (schedule : List ι)
    (hkeeps : Along Client.step KeepsCompleted
      ⟨initial, fun i => .start (storage i) (.worker (externals i) (jobs i))⟩ schedule)
    : Along Client.step OneActivity
        ⟨initial, fun i => .start (storage i) (.worker (externals i) (jobs i))⟩ schedule := by
  have hstart : Reached initial (fun i => .worker (externals i) (jobs i))
      ⟨initial, fun i => .start (storage i) (.worker (externals i) (jobs i))⟩ := by
    refine ⟨hkept, fun _ => rfl, ?_, tracking_start _ _ _⟩
    intro i id copy hcopy
    cases hcopy
  exact Along.of_reached Client.step
    (fun c i h hstep => oneActivity_of_reached (h.fire huploads howners hstep))
    (fun c i h hstep => h.fire huploads howners hstep) hstart hkeeps

end Run

inductive SampleWorker where
  | first
  | second
  | later
  deriving DecidableEq

-- the ids that each worker makes are its own
def sampleWorkerExternals (n : Nat) : Externals := { sampleExternals with
  activityId := ⟨⟨n⟩⟩
  sourceRevisionId := ⟨⟨n + 1⟩⟩
  recordedTrackId := ⟨⟨n + 2⟩⟩
  routeVersionId := ⟨⟨n + 3⟩⟩
  commit := ⟨1000000, ⟨n + 4⟩, fun _ => "", fun _ => ""⟩
}

def sampleWorkerIds : SampleWorker → Nat
  | .first => 20
  | .second => 30
  | .later => 40

-- one job has been delivered twice, the other one is for another import of the file
def sampleWorkerJob : SampleWorker → ParseGpxJob
  | .first | .second => sampleJob
  | .later => { sampleJob with importId := ⟨12⟩ }

def sampleTwice : Database := { sampleImports with
  imports := ⟨[{ sampleEarlier with status := "queued", activityId := none }, sampleQueued], by decide⟩
}

def sampleWorkers : Config Database Client SampleWorker :=
  ⟨sampleTwice, fun i => .start sampleStorage
    (.worker (sampleWorkerExternals (sampleWorkerIds i)) (sampleWorkerJob i))⟩

theorem wellKept_sampleTwice : WellKept sampleTwice where
  completedOnce := by
    rw [Sql.Table.indexed_iff]
    decide
  versionOnce := by
    intro k k' row row' v hrow
    cases hrow
  completed := by
    intro artifact hartifact
    cases hartifact
  artifact := by
    intro k row hrow
    cases hrow
  revisionOnce := by
    intro k k' row row' v hrow
    cases hrow
  revision := by
    intro k row hrow
    cases hrow
  trackOnce := by
    intro k k' row row' v hrow
    cases hrow

theorem uploads_sampleTwice : Uploads sampleTwice where
  readable := by
    intro id row hrow
    have hmem := Sql.Table.mem_of_find? hrow
    simp only [sampleTwice, List.mem_cons, List.not_mem_nil, or_false] at hmem
    obtain rfl | rfl := hmem
    . decide
    . decide
  artifact := by
    intro id row hrow _
    have hmem := Sql.Table.mem_of_find? hrow
    simp only [sampleTwice, List.mem_cons, List.not_mem_nil, or_false] at hmem
    obtain rfl | rfl := hmem
    . exact Option.some_ne_none _
    . exact Option.some_ne_none _

-- one worker after the other
def sampleTurns : List SampleWorker :=
  List.replicate 7 .first ++ List.replicate 7 .second ++ List.replicate 7 .later

theorem one_activity_of_keeps_completed_sampleWorkers
    : Along Client.step OneActivity sampleWorkers sampleTurns := by
  refine one_activity_of_keeps_completed _ _ _ _ wellKept_sampleTwice uploads_sampleTwice ?_ _ ?_
  . intro i row hrow
    have hmem := Sql.Table.mem_of_find? hrow
    simp only [sampleTwice, List.mem_cons, List.not_mem_nil, or_false] at hmem
    obtain rfl | rfl := hmem
    . cases i with
      | first | second | later => rfl
    . cases i with
      | first | second | later => rfl
  . change Along Client.step KeepsCompleted sampleWorkers sampleTurns
    decide

-- both workers load the import and come as far as the commit, the first one commits, and the second one
-- stores that it has failed
def sampleRace : List SampleWorker :=
  [.first, .first, .second, .second] ++ List.replicate 4 .first ++ List.replicate 4 .second
    ++ [.first, .second, .second]

-- and then the other import is worked on
def sampleLater : List SampleWorker := sampleRace ++ List.replicate 6 .later

def sampleMade (db : Database) (revisionId : Uuid) : Option (Uuid × Option (Uuid × String)) :=
  (db.sourceRevisions.find? revisionId).map fun revision => (revision.activityId,
    (db.sourceArtifacts.find? revision.sourceArtifactId).map fun artifact =>
      (artifact.ownerId, artifact.checksum))

theorem madeFrom_of_sampleMade {ownerId activityId : Uuid} {checksum : String}
    (h : sampleMade db id = some (activityId, some (ownerId, checksum)))
    : ∃ revision, MadeFrom db ownerId checksum revision ∧ revision.activityId = activityId := by
  obtain ⟨revision, hrevision, hmade⟩ := Option.map_eq_some_iff.mp h
  rw [Prod.mk.injEq, Option.map_eq_some_iff] at hmade
  obtain ⟨hactivity, artifact, hartifact, hfile⟩ := hmade
  rw [Prod.mk.injEq] at hfile
  have hkey : revision.id = id := Sql.Table.key_of_find? hrevision
  rw [← hkey] at hrevision
  exact ⟨revision, ⟨hrevision, artifact, hartifact, hfile.1, hfile.2⟩, hactivity⟩

/--
The worker that loses the race takes the completed import back, and the file is imported once more.
-/
theorem second_activity_after_race
    : (run Client.step sampleWorkers sampleRace).shared.statusOf ⟨1⟩ = some .failed
        ∧ sampleMade (run Client.step sampleWorkers (sampleLater ++ [.later])).shared ⟨21⟩
          = some (⟨20⟩, some (⟨2⟩, sampleChecksum.value))
        ∧ sampleMade (run Client.step sampleWorkers (sampleLater ++ [.later])).shared ⟨41⟩
          = some (⟨40⟩, some (⟨2⟩, sampleChecksum.value))
        ∧ ¬Along Client.step OneActivity sampleWorkers (sampleLater ++ [.later]) := by
  have hfirst : sampleMade (run Client.step sampleWorkers (sampleLater ++ [.later])).shared ⟨21⟩
      = some (⟨20⟩, some (⟨2⟩, sampleChecksum.value)) := by
    decide
  have hlater : sampleMade (run Client.step sampleWorkers (sampleLater ++ [.later])).shared ⟨41⟩
      = some (⟨40⟩, some (⟨2⟩, sampleChecksum.value)) := by
    decide
  refine ⟨by decide, hfirst, hlater, ?_⟩
  intro h
  rw [run_append] at hfirst hlater
  obtain ⟨revision, hmade, hactivity⟩ := madeFrom_of_sampleMade hfirst
  obtain ⟨revision', hmade', hactivity'⟩ := madeFrom_of_sampleMade hlater
  have hsame := (Along.last Client.step h).atMostOne.activity _ _ _ _ hmade hmade'
  rw [hactivity, hactivity'] at hsame
  revert hsame
  decide

end Imports
