import Haiker.Concurrency.Interleaving
import Haiker.Exports.Commands
import Haiker.Imports.StartImport
import Haiker.Sql.Index

/-!
This module contains the command that requests an export, and calls of it at the same time on a table of
exports that does not fail.
-/

open Rust
open Interleaving

namespace Exports

structure RequestExportCommand where
  ownerId : Identity.UserId
  activityId : ActivityCatalog.ActivityId
  routeVersionId : RouteVersioning.RouteVersionId
  format : ExportFormat
  idempotencyKey : String

/--
What the crate `sha2` does, the clock and the id that is drawn.
-/
structure RequestExternals where
  sha256Hex : Bytes → String
  now : Timestamp
  exportId : ExportJobId

inductive RequestCommand where
  | findByIdempotencyKey (ownerId : Identity.UserId) (key : String)
  | verifyOwnedRouteVersion (activityId : ActivityCatalog.ActivityId)
    (routeVersionId : RouteVersioning.RouteVersionId) (ownerId : Identity.UserId)
  | save (job : ExportJob)

abbrev RequestCommand.Reply : RequestCommand → Type
  | .findByIdempotencyKey _ _ => Except ExportError (Option ExportJob)
  | .verifyOwnedRouteVersion _ _ _ => Except ExportError Unit
  | .save _ => Except ExportError Unit

abbrev RequestM := ExceptT ExportError (Program RequestCommand.Reply)

-- `Uuid::as_bytes`
def asBytes (id : Uuid) : Bytes := (List.range 16).map fun i => UInt8.ofNat (id.bits.toNat / 256 ^ (15 - i))

def computePayloadHash (sha256Hex : Bytes → String) (activityId : ActivityCatalog.ActivityId)
    (routeVersionId : RouteVersioning.RouteVersionId) (format : ExportFormat) : String :=
  sha256Hex
    (asBytes activityId.val ++ [0] ++ asBytes routeVersionId.val ++ [0] ++ Imports.strBytes format.display)

section RequestExport

variable (externals : RequestExternals) (cmd : RequestExportCommand)

def RequestExportCommand.payloadHash : String :=
  computePayloadHash externals.sha256Hex cmd.activityId cmd.routeVersionId cmd.format

-- the export is there already
def replay (existing : ExportJob) : Except ExportError ExportJob :=
  if existing.payloadHash.any (· ≠ cmd.payloadHash externals) then
    .error .idempotencyPayloadMismatch
  else
    .ok existing

def newExport : Except ExportError ExportJob :=
  ExportJob.new externals.now externals.exportId cmd.ownerId cmd.activityId cmd.routeVersionId cmd.format
    cmd.idempotencyKey (some (cmd.payloadHash externals))

def create : RequestM ExportJob := do
  ExceptT.mk (.call (RequestCommand.verifyOwnedRouteVersion cmd.activityId cmd.routeVersionId cmd.ownerId))
  let job ← ExceptT.mk (.done (newExport externals cmd))
  ExceptT.mk (.call (RequestCommand.save job))
  return job

def handleRequestExport : RequestM ExportJob := do
  if trim cmd.idempotencyKey = "" then
    throw (.validationFailed "idempotency key must not be empty")
  else
    match ← ExceptT.mk (.call (RequestCommand.findByIdempotencyKey cmd.ownerId cmd.idempotencyKey)) with
    | some existing => ExceptT.mk (.done (replay externals cmd existing))
    | none => create externals cmd

end RequestExport

/-
The table of the exports, with `UNIQUE(requested_by, idempotency_key)`.
-/

namespace ExportRepository

def keySlot (job : ExportJob) : Identity.UserId × String := (job.requestedBy, job.idempotencyKey)

def ownerKey (job : ExportJob) : Option (Identity.UserId × String) := some (keySlot job)

-- `refusal` is the message of the database
def save (refusal : String) (job : ExportJob) (exportJobs : ExportTable) : Except ExportError ExportTable :=
  if exportJobs.clashes ownerKey job then
    .error (.persistenceError refusal)
  else
    match exportJobs.insert? job with
    | some exportJobs => .ok exportJobs
    | none => .error (.persistenceError refusal)

def findByIdempotencyKey (ownerId : Identity.UserId) (key : String) (exportJobs : ExportTable)
    : Option ExportJob :=
  exportJobs.rows.find? fun row => keySlot row = (ownerId, key)

end ExportRepository

/--
A call with what is left of its program, and what the gateway tells it of the route version.
-/
structure Requester where
  externals : RequestExternals
  cmd : RequestExportCommand
  verdict : Except ExportError Unit
  program : Program RequestCommand.Reply (Except ExportError ExportJob)

namespace Requester

def start (externals : RequestExternals) (cmd : RequestExportCommand) (verdict : Except ExportError Unit)
    : Requester where
  externals
  cmd
  verdict
  program := (handleRequestExport externals cmd).run

def answer (refusal : String) (verdict : Except ExportError Unit)
    : (command : RequestCommand) → ExportTable → command.Reply × ExportTable
  | .findByIdempotencyKey ownerId key, exportJobs =>
    (.ok (ExportRepository.findByIdempotencyKey ownerId key exportJobs), exportJobs)
  | .verifyOwnedRouteVersion _ _ _, exportJobs => (verdict, exportJobs)
  | .save job, exportJobs =>
    match ExportRepository.save refusal job exportJobs with
    | .ok exportJobs => (.ok (), exportJobs)
    | .error e => (.error e, exportJobs)

def step (refusal : String) (exportJobs : ExportTable) (requester : Requester) : ExportTable × Requester :=
  let (exportJobs, program) := requester.program.step (answer refusal requester.verdict) exportJobs
  (exportJobs, { requester with program })

-- what the next command makes the call return
def returns (refusal : String) (exportJobs : ExportTable) (requester : Requester)
    : Option (Except ExportError ExportJob) :=
  match requester.program with
  | .done _ => none
  | .ask command next =>
    match next (answer refusal requester.verdict command exportJobs).1 with
    | .done result => some result
    | .ask _ _ => none

def slot (requester : Requester) : Identity.UserId × String :=
  (requester.cmd.ownerId, requester.cmd.idempotencyKey)

/--
There is one export under the key. If the call is of the same payload it returns it, and else that the
payloads do not match.
-/
def Replays (requester : Requester) (exportJobs : ExportTable) (result : Except ExportError ExportJob)
    : Prop :=
  ∃ row, exportJobs.Holds ExportRepository.keySlot requester.slot row
    ∧ if row.payloadHash.any (· ≠ requester.cmd.payloadHash requester.externals) then
        result = .error .idempotencyPayloadMismatch
      else
        result = .ok row

end Requester

section Run

variable {ι : Type} [DecidableEq ι] (refusal : String)

/--
What a call that the gateway lets through returns after the step of client `i` is right.
-/
def ReturnsReplay (c : Config ExportTable Requester ι) (i : ι) : Prop :=
  (c.clients i).verdict = .ok () → ∀ result,
    (c.clients i).returns refusal c.shared = some result →
      (c.clients i).Replays (fire (Requester.step refusal) c i).shared result

/--
If client `i` is about to save its export, then there is none under its key yet, nor one with its id.
-/
def SavesFirst (c : Config ExportTable Requester ι) (i : ι) : Prop :=
  ∀ job, (c.clients i).program.command? = some (.save job) →
    c.shared.Vacant ExportRepository.keySlot (c.clients i).slot job.id

end Run

end Exports
