import Haiker.Concurrency.Program
import Haiker.Exports.ExportJob
import Haiker.Exports.GpxGenerator
import Haiker.Imports.Orchestrator
import Haiker.Sql.Table

/-!
This module contains what the code of the exports asks of the database, the object storage and the
runtime, with what they do to it, and the commands on an export. Any of the calls may fail, with or
without effect, and an upload may store anything. The one clock reading `now` stands for all of a call.
-/

open Rust

namespace Exports

/--
What the crates `uuid`, `sha2` with `hex` and `quick_xml` do.
-/
structure Crates where
  uuidToString : Uuid → String
  sha256Hex : Bytes → String
  escape : String → String

inductive GenerationFault where
  | panicked (joinErr : String)
  | timedOut

inductive Command where
  | findById (id : ExportJobId)
  | update (job : ExportJob)
  | findGeometry (routeVersionId : Uuid)
  | findTitle (activityId : Uuid)
  -- `generate_gpx` on a blocking task, with the timeout
  | generate (input : GpxGeneratorInput)
  | exists_ (key : String)
  | download (key : String)
  | upload (key : String) (body : Bytes)
  | delete (key : String)
  -- an activity gets another title
  | setTitle (activityId : Uuid) (title : Option String)

abbrev Command.Reply : Command → Type
  | .findById _ => Except String (Option ExportJob)
  | .update _ => Except String Unit
  | .findGeometry _ => Except String (Option Json)
  | .findTitle _ => Except String (Option String)
  | .generate _ => Except GenerationFault Bytes
  | .exists_ _ => Except String Bool
  | .download _ => Except String Bytes
  | .upload _ _ => Except String Unit
  | .delete _ => Except String Unit
  | .setTitle _ _ => Except String Unit

/-
The database, the object storage and the runtime.
-/

-- a call that does not go through, and whether it has had its effect nevertheless
structure Failure where
  message : String
  takesEffect : Bool

/--
What goes wrong with the `n`th call.
-/
structure Faults where
  failure : Nat → Option Failure
  generation : Nat → Option GenerationFault
  -- what an upload leaves in the storage, `none` for what has been there
  stored : Nat → Bytes → Option Bytes

-- an object, and whether the upload has stored what it was given
structure StoredObject where
  bytes : Bytes
  asGiven : Bool

abbrev ExportTable := Sql.Table ExportJob.id

/--
`geometries` are the ones of the route versions, which do not change, and `titles` those of the activities.
-/
structure State where
  exportJobs : ExportTable
  geometries : Uuid → Option Json
  titles : Uuid → Option String
  objects : String → Option StoredObject
  faults : Faults
  calls : Nat

-- the columns that `persist_export_job` sets
def setExport (job row : ExportJob) : ExportJob := { row with
  status := job.status
  format := job.format
  objectStorageKey := job.objectStorageKey
  checksum := job.checksum
  failureReason := job.failureReason
  expiresAt := job.expiresAt.map Timestamp.toTimestamptz
  updatedAt := job.updatedAt.toTimestamptz
}

theorem id_setExport (job row : ExportJob) : (setExport job row).id = row.id := rfl

def persist (job : ExportJob) (exportJobs : ExportTable) : ExportTable :=
  exportJobs.updateWhere (fun row => row.id = job.id) (setExport job) (id_setExport job)

def put (key : String) (object : Option StoredObject) (objects : String → Option StoredObject)
    : String → Option StoredObject :=
  fun k => if k = key then object else objects k

namespace State

variable (s : State)

-- the state after a call that goes through
def carryOut (command : Command) : State :=
  match command with
  | .update job => { s with exportJobs := persist job s.exportJobs }
  | .upload key body =>
    match s.faults.stored s.calls body with
    | some bytes => { s with objects := put key (some ⟨bytes, bytes = body⟩) s.objects }
    | none => s
  | .delete key => { s with objects := put key none s.objects }
  | .setTitle activityId title =>
    { s with titles := fun id => if id = activityId then title else s.titles id }
  | .findById _ | .findGeometry _ | .findTitle _ | .generate _ | .exists_ _ | .download _ => s

-- a call that goes through, or takes effect although it is said to have failed
def takesEffect : Bool :=
  match s.faults.failure s.calls with
  | some failure => failure.takesEffect
  | none => true

def after (command : Command) : State :=
  let s' := if s.takesEffect then s.carryOut command else s
  { s' with calls := s.calls + 1 }

def fails {α : Type} (reply : Except String α) : Except String α :=
  match s.faults.failure s.calls with
  | some failure => .error failure.message
  | none => reply

end State

section Answer

variable (crates : Crates)

def gpxBytes (input : GpxGeneratorInput) : Bytes := (generateGpx crates.escape input).toUTF8.data.toList

def reply (s : State) : (command : Command) → command.Reply
  | .findById id => s.fails (.ok (s.exportJobs.find? id))
  | .update _ => s.fails (.ok ())
  | .findGeometry routeVersionId => s.fails (.ok (s.geometries routeVersionId))
  | .findTitle activityId => s.fails (.ok (s.titles activityId))
  | .generate input =>
    match s.faults.generation s.calls with
    | some fault => .error fault
    | none => .ok (gpxBytes crates input)
  | .exists_ key => s.fails (.ok (s.objects key).isSome)
  | .download key =>
    s.fails (match s.objects key with
      | some object => .ok object.bytes
      | none => .error ("object not found: " ++ key))
  | .upload _ _ => s.fails (.ok ())
  | .delete _ => s.fails (.ok ())
  | .setTitle _ _ => s.fails (.ok ())

def answer (command : Command) (s : State) : command.Reply × State :=
  (reply crates s command, s.after command)

end Answer

/-
The commands on an export.
-/

abbrev ExportM := ExceptT ExportError (Program Command.Reply)

-- a call of the repository or the artifact store
def orPersistenceError {α : Type} (result : Except String α) : ExportM α :=
  ExceptT.mk (.done (result.mapError .persistenceError))

def attempt {ε : Type} (command : Command) : ExceptT ε (Program Command.Reply) command.Reply :=
  ExceptT.lift (.call command)

def ofExcept {ε α : Type} (result : Except ε α) : ExceptT ε (Program Command.Reply) α :=
  ExceptT.mk (.done result)

def deleteArtifact (job : ExportJob) : ExportM Unit := do
  match job.objectStorageKey with
  | some key => orPersistenceError (← attempt (.delete key))
  | none => return ()

def handleExpireExport (now : Timestamp) (exportId : ExportJobId) : ExportM Unit := do
  match ← orPersistenceError (← attempt (.findById exportId)) with
  | none => throw .notFound
  | some job =>
    if job.status = .expired then
      return ()
    else
      deleteArtifact job
      let job ← ofExcept (job.expire now)
      orPersistenceError (← attempt (.update job))

-- what is checked of the export that is to be downloaded
def checkDownload (now : Timestamp) (callerId : Identity.UserId) (job : ExportJob)
    : Except ExportError ExportJob :=
  if job.requestedBy ≠ callerId then
    .error .notFound
  else if job.status ≠ .ready then
    .error (.notReady job.status.display)
  else if job.expiresAt.any (· ≤ now) then
    .error .artifactExpired
  else
    .ok job

def handleDownloadExport (now : Timestamp) (exportId : ExportJobId) (callerId : Identity.UserId)
    : ExportM ExportJob := do
  match ← orPersistenceError (← attempt (.findById exportId)) with
  | none => throw .notFound
  | some job => ofExcept (checkDownload now callerId job)

end Exports
