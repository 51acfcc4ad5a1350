import Haiker.Concurrency.Locks
import Haiker.Imports.Commit

/-!
This module contains the transactions that commit publications and imports, statement by statement. Each
statement reads what has been committed by then (READ COMMITTED), and waits for the locks of others: rows
that they have locked or changed, and values of unique indexes that they have inserted. What a transaction
writes becomes visible when it commits. The audit log is left out.
-/

open Rust
open RouteEditing (DraftRow)
open RouteVersioning

namespace Transactions

/--
What a transaction can lock: a row by its primary key, or a value of a unique index.
-/
inductive Key where
  | artifact (id : Uuid)
  | revision (id : Uuid)
  | revisionSlot (slot : Uuid × Int)
  | track (id : Uuid)
  | activity (id : Uuid)
  | version (id : Uuid)
  | versionSlot (slot : Uuid × Int)
  | draft (id : Uuid)
  | import_ (id : Uuid)
  | completed (checksum : Uuid × String)
  | event (id : Uuid)
  deriving DecidableEq

structure Session (ι : Type) where
  db : Imports.Database
  locks : Locks Key ι

abbrev SqlStatement (ε : Type) := Statement Imports.Database Key ε

section Statements

variable {α ν ε : Type} {key : α → Uuid} [DecidableEq ν]

-- `INSERT`, with the errors of the primary key and of the unique index
def insert (table : Imports.Database → Sql.Table key) (index : α → Option ν) (rowKey : Uuid → Key)
    (indexKey : ν → Key) (row : α) (pkey taken : ε) : SqlStatement ε where
  keys _ := rowKey (key row) :: (index row).toList.map indexKey
  refused db :=
    if ((table db).find? (key row)).isSome then
      some pkey
    else if (table db).clashes index row then
      some taken
    else
      none

-- `INSERT` into a table that has no other index
def insertRow (table : Imports.Database → Sql.Table key) (rowKey : Uuid → Key) (row : α) (pkey : ε)
    : SqlStatement ε where
  keys _ := [rowKey (key row)]
  refused db := if ((table db).find? (key row)).isSome then some pkey else none

-- `UPDATE` of a row, which no constraint can refuse
def updateRow (rowKey : Key) : SqlStatement ε where
  keys _ := [rowKey]
  refused _ := none

end Statements

/-
The publication
-/

-- what the publication has read
structure Basis where
  draft : DraftRow
  flatCoords : List (F64 × F64)
  parent : RouteVersionRow

inductive PublicationPhase where
  | start
  -- there was no event under the idempotency key
  | passed
  -- the row of the draft is locked
  | locked (draft : DraftRow) (flatCoords : List (F64 × F64))
  | writing (basis : Basis) (remaining : List (SqlStatement RouteVersioningError))
  | finished (result : Except RouteVersioningError PublicationResult)

structure Publication where
  externals : Externals
  data : PublicationCommitData
  phase : PublicationPhase

namespace Publication

variable {ι : Type} [DecidableEq ι]

def goto (publication : Publication) (phase : PublicationPhase) : Publication :=
  { publication with phase }

-- steps 3 and 4, which work on the row that has been locked
def readDraft (publication : Publication) (db : RouteVersioning.Database)
    : Except RouteVersioningError (DraftRow × List (F64 × F64)) := do
  let draft ← lockDraft publication.data db
  return (draft, ← flatCoords publication.externals draft.geometry)

def version (publication : Publication) (basis : Basis) : RouteVersionRow :=
  newVersion publication.externals publication.data basis.draft basis.parent basis.flatCoords

-- steps 6 to 10
def statements (publication : Publication) (basis : Basis) : List (SqlStatement RouteVersioningError) :=
  let version := publication.version basis
  let notInserted := fun constraint =>
    .persistenceError ("failed to insert route version: " ++ duplicateKey constraint)
  [
    insert (·.routeVersions) Imports.versionSlot .version .versionSlot version
      (notInserted "route_versions_pkey") (notInserted "route_versions_activity_id_version_number_key"),
    updateRow (.activity basis.draft.activityId),
    updateRow (.draft publication.data.draftId.val),
    insertRow (·.outbox) .event (publishedEvent publication.externals publication.data version)
      (.persistenceError ("failed to write outbox event: " ++ duplicateKey "outbox_pkey"))
  ]

-- what steps 6 to 10 leave
def write (publication : Publication) (basis : Basis) : CommitM PublicationResult := do
  let db ← get
  let version := publication.version basis
  match db.routeVersions.insert? version with
  | none =>
    fail (.persistenceError ("failed to insert route version: " ++ duplicateKey "route_versions_pkey"))
  | some routeVersions => modify fun db => { db with routeVersions }
  modify fun db => { db with
    activities := ActivityCatalog.updateCurrentVersion publication.externals.now basis.draft.activityId
      version.id (correctedStatisticsJson publication.externals basis.flatCoords) db.activities
  }
  modify fun db => { db with
    routeEditing := markPublished publication.externals.now publication.data.draftId db.routeEditing
  }
  match db.outbox.insert? (publishedEvent publication.externals publication.data version) with
  | none => fail (.persistenceError ("failed to write outbox event: " ++ duplicateKey "outbox_pkey"))
  | some outbox => modify fun db => { db with outbox }
  return {
    routeVersionId := { val := version.id }
    versionNumber := version.versionNumber
    draftId := publication.data.draftId
    correctedStatisticsJson := correctedStatisticsJson publication.externals basis.flatCoords
  }

-- the transaction does not panic
def reply (result : Except (Fault RouteVersioningError) PublicationResult)
    : Except RouteVersioningError PublicationResult :=
  match result with
  | .ok result => .ok result
  | .error (.err e) => .error e
  | .error .panic => .error (.persistenceError "panic")

def finish (me : ι) (s : Session ι) (publication : Publication) (db : RouteVersioning.Database)
    (result : Except RouteVersioningError PublicationResult) : Session ι × Publication :=
  (⟨{ s.db with toDatabase := db }, s.locks.release me⟩, publication.goto (.finished result))

-- `?` drops the transaction
def rollback (me : ι) (s : Session ι) (publication : Publication) (e : RouteVersioningError)
    : Session ι × Publication :=
  publication.finish me s s.db.toDatabase (.error e)

def step (me : ι) (s : Session ι) (publication : Publication) : Session ι × Publication :=
  match publication.phase with
  | .start =>
    match replayCommit publication.externals publication.data s.db.toDatabase with
    | .ok none => (s, publication.goto .passed)
    | .ok (some result) => publication.finish me s s.db.toDatabase (.ok result)
    | .error e => publication.rollback me s e
  | .passed =>
    -- `FOR UPDATE` waits, and then it reads the row as it is
    if s.locks.available me [.draft publication.data.draftId.val] then
      match publication.readDraft s.db.toDatabase with
      | .error e => publication.rollback me s e
      | .ok (draft, coords) =>
        ({ s with locks := s.locks.acquire me [.draft publication.data.draftId.val] },
          publication.goto (.locked draft coords))
    else
      (s, publication)
  | .locked draft coords =>
    match latestVersion draft.activityId s.db.toDatabase with
    | .error e => publication.rollback me s e
    | .ok parent =>
      (s, publication.goto
        (.writing ⟨draft, coords, parent⟩ (publication.statements ⟨draft, coords, parent⟩)))
  | .writing basis (statement :: remaining) =>
    match statement.run me s.db s.locks with
    | none => (s, publication)
    | some (.error e) => publication.rollback me s e
    | some (.ok locks) => ({ s with locks }, publication.goto (.writing basis remaining))
  | .writing basis [] =>
    let write := transaction (publication.write basis)
    publication.finish me s (after write s.db.toDatabase) (reply (outcome write s.db.toDatabase))
  | .finished _ => (s, publication)

end Publication

/-
The import
-/

inductive ImportPhase where
  | writing (remaining : List (SqlStatement Imports.ImportError))
  | finished (result : Except Imports.ImportError ActivityCatalog.ActivityId)

structure ImportCommit where
  externals : Imports.CommitExternals
  data : Imports.ImportCommitData
  phase : ImportPhase

namespace ImportCommit

open Imports (ImportError)
open Imports.PgImportCommitter

variable {ι : Type} [DecidableEq ι]

def goto (importCommit : ImportCommit) (phase : ImportPhase) : ImportCommit :=
  { importCommit with phase }

def refusal (failed constraint : String) : ImportError :=
  .storageError (failed ++ ": " ++ Imports.duplicateKey constraint)

-- `UPDATE imports.imports`, whose row enters the partial index
def updateImport (importCommit : ImportCommit) : SqlStatement ImportError where
  keys db :=
    let entered := fun row =>
      (Imports.completedChecksum (setCompleted importCommit.externals importCommit.data row)).toList
    .import_ importCommit.data.importId.val
      :: ((db.imports.find? importCommit.data.importId.val).toList.flatMap entered).map .completed
  refused db :=
    match completeImport importCommit.externals importCommit.data db.imports with
    | none => some (refusal "failed to update import status" "idx_imports_owner_checksum_completed")
    | some _ => none

def statements (importCommit : ImportCommit) : List (SqlStatement ImportError) :=
  let externals := importCommit.externals
  let data := importCommit.data
  [
    insertRow (·.sourceArtifacts) .artifact (sourceArtifact externals data)
      (refusal "failed to insert source_artifact" "source_artifacts_pkey"),
    insert (·.sourceRevisions) Imports.revisionSlot .revision .revisionSlot (sourceRevision externals data)
      (refusal "failed to insert source_revision" "source_revisions_pkey")
      (refusal "failed to insert source_revision" "source_revisions_activity_id_revision_number_key"),
    insertRow (·.recordedTracks) .track (recordedTrack externals data)
      (refusal "failed to insert recorded_track" "recorded_tracks_pkey"),
    insertRow (·.activities) .activity (activity externals data)
      (refusal "failed to insert activity" "activities_pkey"),
    insert (·.routeVersions) Imports.versionSlot .version .versionSlot (initialVersion externals data)
      (refusal "failed to insert route_version" "route_versions_pkey")
      (refusal "failed to insert route_version" "route_versions_activity_id_version_number_key"),
    -- the row of its own activity
    updateRow (.activity data.activityId.val),
    importCommit.updateImport,
    insertRow (·.outbox) .event (committedEvent externals data)
      (refusal "failed to write outbox event" "outbox_pkey")
  ]

def start (externals : Imports.CommitExternals) (data : Imports.ImportCommitData) : ImportCommit :=
  let importCommit : ImportCommit := { externals, data, phase := .writing [] }
  importCommit.goto (.writing importCommit.statements)

-- the transaction does not panic
def reply (result : Except (Fault ImportError) ActivityCatalog.ActivityId)
    : Except ImportError ActivityCatalog.ActivityId :=
  match result with
  | .ok activityId => .ok activityId
  | .error (.err e) => .error e
  | .error .panic => .error (.storageError "panic")

def finish (me : ι) (s : Session ι) (importCommit : ImportCommit) (db : Imports.Database)
    (result : Except ImportError ActivityCatalog.ActivityId) : Session ι × ImportCommit :=
  (⟨db, s.locks.release me⟩, importCommit.goto (.finished result))

def step (me : ι) (s : Session ι) (importCommit : ImportCommit) : Session ι × ImportCommit :=
  match importCommit.phase with
  | .writing (statement :: remaining) =>
    match statement.run me s.db s.locks with
    | none => (s, importCommit)
    | some (.error e) => importCommit.finish me s s.db (.error e)
    | some (.ok locks) => ({ s with locks }, importCommit.goto (.writing remaining))
  | .writing [] =>
    let commit := commit importCommit.externals importCommit.data
    importCommit.finish me s (after commit s.db) (reply (outcome commit s.db))
  | .finished _ => (s, importCommit)

end ImportCommit

inductive Transaction where
  | publish (publication : Publication)
  | commit (importCommit : ImportCommit)
  -- the connection was lost before the commit
  | broken

namespace Transaction

variable {ι : Type} [DecidableEq ι]

def isFinished : Transaction → Bool
  | .publish publication =>
    match publication.phase with
    | .finished _ => true
    | _ => false
  | .commit importCommit =>
    match importCommit.phase with
    | .finished _ => true
    | _ => false
  | .broken => true

def step (me : ι) (s : Session ι) : Transaction → Session ι × Transaction
  | .publish publication =>
    let (s, publication) := publication.step me s
    (s, .publish publication)
  | .commit importCommit =>
    let (s, importCommit) := importCommit.step me s
    (s, .commit importCommit)
  | .broken => (s, .broken)

end Transaction

/--
A transaction on a connection that lasts for a number of steps, or as long as it takes.
-/
structure Client (ι : Type) where
  me : ι
  lasts : Option Nat
  transaction : Transaction

def Client.step {ι : Type} [DecidableEq ι] (s : Session ι) (client : Client ι) : Session ι × Client ι :=
  if client.transaction.isFinished then
    (s, client)
  else if client.lasts = some 0 then
    ({ s with locks := s.locks.release client.me }, { client with transaction := .broken })
  else
    let (s, transaction) := client.transaction.step client.me s
    (s, { client with lasts := client.lasts.map (· - 1), transaction })

end Transactions
