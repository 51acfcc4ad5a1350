import Haiker.ActivityCatalog.Activity
import Haiker.Concurrency.Program
import Haiker.Concurrency.Interleaving
import Haiker.RouteVersioning.Lemmas.PublicationCommit

/-!
This module contains the commands on an activity as programs over the repositories of the activities and
of the route versions, clients that rename, delete, select a version of and publish to activities at the same
time, command by command, and what it means that nothing of it gets lost. A publication is one command: its
transaction comes all at once. The audit log is left out, and the database does not fail by itself.
-/

open Rust
open Interleaving

namespace ActivityCatalog

inductive Command where
  | findById (id : ActivityId)
  -- `find_by_id` of the route versions
  | findVersion (id : RouteVersioning.RouteVersionId)
  | update (activity : Activity)
  | commit (externals : RouteVersioning.Externals) (data : RouteVersioning.PublicationCommitData)

abbrev Command.Reply : Command → Type
  | .findById _ => Except (Fault ActivityCatalogError) (Option Activity)
  | .findVersion _ => Except RouteVersioning.RouteVersioningError (Option RouteVersioning.RouteVersion)
  | .update _ => Except (Fault ActivityCatalogError) Unit
  | .commit _ _ => Except (Fault RouteVersioning.RouteVersioningError) RouteVersioning.PublicationResult

section Answer

variable (errors : RouteVersioning.SerdeErrors)

def findVersion (id : RouteVersioning.RouteVersionId) (db : RouteVersioning.Database)
    : Except RouteVersioning.RouteVersioningError (Option RouteVersioning.RouteVersion) :=
  match db.routeVersions.find? id.val with
  | none => .ok none
  | some row =>
    match row.correctedStatisticsJson with
    | some json => (RouteVersioning.PgRouteVersionRepository.rowToRouteVersion errors row json).map some
    | none =>
      .error (.persistenceError ("failed to find route version: error occurred while decoding "
        ++ "column 6: unexpected null; try decoding as an `Option`"))

def answer : (command : Command) → RouteVersioning.Database → command.Reply × RouteVersioning.Database
  | .findById id, db => (PgActivityRepository.findById id db.activities, db)
  | .findVersion id, db => (findVersion errors id db, db)
  | .update activity, db =>
    (.ok (), { db with activities := PgActivityRepository.update activity db.activities })
  | .commit externals data, db =>
    (outcome (RouteVersioning.commit externals data) db, after (RouteVersioning.commit externals data) db)

end Answer

abbrev ActivityM := ExceptT (Fault ActivityCatalogError) (Program Command.Reply)

namespace ActivityM

def findById (id : ActivityId) : ActivityM (Option Activity) := ExceptT.mk (.call (Command.findById id))

def update (activity : Activity) : ActivityM Unit := ExceptT.mk (.call (Command.update activity))

def ofExcept {α : Type} (result : Except (Fault ActivityCatalogError) α) : ActivityM α :=
  ExceptT.mk (.done result)

-- `map_err(|e| ..)?` on what the route versions answer
def findVersion (id : RouteVersioning.RouteVersionId) : ActivityM (Option RouteVersioning.RouteVersion) :=
  ExceptT.mk do
    let reply ← Program.call (Command.findVersion id)
    return reply.mapError fun e => Fault.err (.persistenceError e.display)

end ActivityM

section Commands

variable (now : Timestamp) (activityId : ActivityId) (ownerId : Identity.UserId)

-- the activity is there, and the owner's
def loadOwn : ActivityM Activity := do
  match ← ActivityM.findById activityId with
  | none => throw (.err .activityNotFound)
  | some activity =>
    if activity.ownerId ≠ ownerId then
      throw (.err .unauthorized)
    else
      return activity

-- and it has not been deleted
def loadActive : ActivityM Activity := do
  let activity ← loadOwn activityId ownerId
  if activity.lifecycleState = .deleted then
    throw (.err .activityNotFound)
  else
    return activity

def renameActivity (newTitle : String) : ActivityM Activity := do
  let title ← ActivityM.ofExcept (ActivityTitle.new newTitle)
  let activity ← loadActive activityId ownerId
  ActivityM.update (activity.updateTitle now title)
  return activity.updateTitle now title

def deleteActivity : ActivityM Unit := do
  let activity ← loadOwn activityId ownerId
  if activity.lifecycleState = .deleted then
    return ()
  else
    ActivityM.update (activity.delete now)

-- the version belongs to the activity
def loadVersion (routeVersionId : RouteVersioning.RouteVersionId) : ActivityM RouteVersioning.RouteVersion := do
  match ← ActivityM.findVersion routeVersionId with
  | none => throw (.err .versionNotBelongsToActivity)
  | some version =>
    if version.activityId ≠ activityId then
      throw (.err .versionNotBelongsToActivity)
    else
      return version

def selectCurrentRouteVersion (routeVersionId : RouteVersioning.RouteVersionId) : ActivityM Activity := do
  let activity ← loadActive activityId ownerId
  let version ← loadVersion activityId routeVersionId
  let selected := activity.selectCurrentRouteVersion now routeVersionId version.correctedStatistics.toJson
  ActivityM.update selected
  return selected

end Commands

inductive Job where
  | rename (now : Timestamp) (activityId : ActivityId) (ownerId : Identity.UserId) (newTitle : String)
  | delete (now : Timestamp) (activityId : ActivityId) (ownerId : Identity.UserId)
  | select (now : Timestamp) (activityId : ActivityId) (ownerId : Identity.UserId)
    (routeVersionId : RouteVersioning.RouteVersionId)
  | publish (externals : RouteVersioning.Externals) (data : RouteVersioning.PublicationCommitData)

-- whether the method succeeds
def succeeds {α : Type} (method : ActivityM α) : Program Command.Reply Bool :=
  method.run.bind fun result => .done result.isOk

def Job.program : Job → Program Command.Reply Bool
  | .rename now activityId ownerId newTitle => succeeds (renameActivity now activityId ownerId newTitle)
  | .delete now activityId ownerId => succeeds (deleteActivity now activityId ownerId)
  | .select now activityId ownerId routeVersionId =>
    succeeds (selectCurrentRouteVersion now activityId ownerId routeVersionId)
  | .publish externals data => .ask (.commit externals data) fun reply => .done reply.isOk

/--
A client with what is left of its program.
-/
structure Client where
  job : Job
  program : Program Command.Reply Bool

def Client.start (job : Job) : Client where
  job
  program := job.program

def Client.step (errors : RouteVersioning.SerdeErrors) (db : RouteVersioning.Database) (client : Client)
    : RouteVersioning.Database × Client :=
  let (db, program) := client.program.step (answer errors) db
  (db, { client with program })

/-
What the jobs change.
-/

inductive Column where
  | title
  | lifecycleState
  -- the pointer and the summary of the version
  | currentVersion
  deriving DecidableEq

def Job.column : Job → Column
  | .rename .. => .title
  | .delete .. => .lifecycleState
  | .select .. | .publish .. => .currentVersion

def Same : Column → ActivityRow → ActivityRow → Prop
  | .title, a, b => a.title = b.title
  | .lifecycleState, a, b => a.lifecycleState = b.lifecycleState
  | .currentVersion, a, b =>
    a.currentRouteVersionId = b.currentRouteVersionId ∧ a.correctedSummaryJson = b.correctedSummaryJson

/--
The row is as the job is to leave it.
-/
def Job.Effect (errors : RouteVersioning.SerdeErrors) (db : RouteVersioning.Database) (row : ActivityRow)
    : Job → Prop
  | .rename _ _ _ newTitle => ∃ title, ActivityTitle.new newTitle = .ok title ∧ row.title = title.text
  | .delete .. => row.lifecycleState = "deleted"
  | .select _ _ _ routeVersionId =>
    row.currentRouteVersionId = some routeVersionId.val
      ∧ ∃ version, findVersion errors routeVersionId db = .ok (some version)
        ∧ row.correctedSummaryJson = some version.correctedStatistics.toJson
  | .publish externals _ =>
    row.currentRouteVersionId = some externals.newVersionId
      ∧ ∃ version, db.routeVersions.find? externals.newVersionId = some version
        ∧ row.correctedSummaryJson = version.correctedStatisticsJson

/--
The next command of the client is the one that its success rests on, and changes the activity.
-/
def Client.Sets (client : Client) (db : RouteVersioning.Database) (id : Uuid) : Prop :=
  match client.program.command? with
  | some (.update activity) => activity.id.val = id
  | some (.commit externals data) =>
    RouteVersioning.replayCommit externals data db = .ok none
      ∧ (∃ result db', (RouteVersioning.commit externals data).run db = .ok result db')
      ∧ ∃ draft, RouteVersioning.lockDraft data db = .ok draft ∧ draft.activityId = id
  | _ => False

section Run

variable {ι : Type} [DecidableEq ι] (errors : RouteVersioning.SerdeErrors)

/--
What a client has done to an activity is still there at the end of the run, if nobody has changed the same
column of it since.
-/
def Survives (c : Config RouteVersioning.Database Client ι) (schedule : List ι) : Prop :=
  ∀ before i later id, schedule = before ++ i :: later →
    ((run (Client.step errors) c before).clients i).Sets (run (Client.step errors) c before).shared id →
      Along (Client.step errors)
        (fun c' j => (c'.clients j).job.column = (c.clients i).job.column → ¬(c'.clients j).Sets c'.shared id)
        (run (Client.step errors) c (before ++ [i])) later →
        ∀ row, (run (Client.step errors) c schedule).shared.activities.find? id = some row →
          (c.clients i).job.Effect errors (run (Client.step errors) c schedule).shared row

/--
If client `i` is about to write its copy of an activity back, then the row has in the columns that the
client is not to change what the copy has.
-/
def UpToDate (c : Config RouteVersioning.Database Client ι) (i : ι) : Prop :=
  ∀ activity, (c.clients i).program.command? = some (.update activity) →
    ∀ row, c.shared.activities.find? activity.id.val = some row →
      ∀ column, column ≠ (c.clients i).job.column →
        Same column (PgActivityRepository.setActivity activity row) row

end Run

end ActivityCatalog
