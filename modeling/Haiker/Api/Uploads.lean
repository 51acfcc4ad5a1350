import Mathlib.Data.Fintype.Basic
import Haiker.Api.ImportJobs
import Haiker.Imports.Idempotency
import Haiker.Imports.Lemmas.Downloads
import Haiker.Rust.UuidText

/-!
This module contains the object storage under the imports: the calls that are issued upload URLs, the
clients that write through them, and everybody who works on the imports. The storage can fail to answer. It
does not lose what has been written.
-/

open Rust
open Imports
open Interleaving

namespace Api

-- the object is that of the import
def IsObjectOf (key : String) (importId : Uuid) : Prop :=
  '/' :: importId.hyphenated.toList <:+ key.toList

instance (key : String) (importId : Uuid) : Decidable (IsObjectOf key importId) :=
  inferInstanceAs (Decidable (_ <:+ _))

-- the import has left `uploading`
def HasLeft (db : Database) (importId : Uuid) : Prop :=
  ∃ status ∈ db.statusOf importId, ImportStatus.uploading.rank < status.rank

instance (db : Database) (importId : Uuid) : Decidable (HasLeft db importId) :=
  inferInstanceAs (Decidable (∃ status ∈ db.statusOf importId, _ < status.rank))

-- the object is that of an import that has left `uploading`
def Settled (db : Database) (key : String) : Prop :=
  ∃ row ∈ db.imports.rows, IsObjectOf key row.id ∧ HasLeft db row.id

instance (db : Database) (key : String) : Decidable (Settled db key) :=
  inferInstanceAs (Decidable (∃ row ∈ db.imports.rows, _))

/--
An upload URL. It is recorded for the theorems whether its import had left `uploading` when it was issued.
-/
structure UploadUrl where
  key : String
  late : Bool

/--
The imports whose upload has been completed are recorded for the theorems.
-/
structure ObjectWorld where
  db : Database
  objects : String → Option Bytes
  urls : List UploadUrl
  completed : List Uuid

-- the upload of the import has been completed, if the command has been carried out
def completes : (command : Command) → command.Reply → List Uuid
  | .update imp, .ok () =>
    if ImportStatus.uploaded.rank ≤ imp.status.rank ∧ imp.status.rank ≤ ImportStatus.completed.rank then
      [imp.id.val]
    else
      []
  | _, _ => []

/--
A worker on imports. It asks the object storage at most once, which may be out of order then. What it knows
and its log are recorded for the theorems.
-/
structure Peer where
  actor : Actor
  outage : Option ImportError
  verifyUpload : String → Except ImportError UploadMetadata
  program : Program Command.Reply Unit
  known : Known
  log : Log

namespace Peer

def start (actor : Actor) (outage : Option ImportError)
    (verifyUpload : String → Except ImportError UploadMetadata) : Peer where
  actor
  outage
  verifyUpload
  program := actor.program
  known _ := none
  log := []

def storage (peer : Peer) (objects : String → Option Bytes) : Storage where
  download key :=
    match peer.outage with
    | some e => .error e
    | none =>
      match objects key with
      | some bytes => .ok bytes
      | none => .error (.storageError ("object not found: " ++ key))
  verifyUpload := peer.verifyUpload

def step (w : ObjectWorld) (peer : Peer) : ObjectWorld × Peer :=
  match peer.program with
  | .done _ => (w, peer)
  | .ask command next =>
    let (reply, db) := answer (peer.storage w.objects) command w.db
    ({ w with
      db
      completed := w.completed ++ completes command reply
    }, { peer with
      program := next reply
      known := peer.known.learn command reply
      log := Program.record peer.log command reply
    })

-- the worker as it is on its own
def client (peer : Peer) (w : ObjectWorld) : Imports.Client where
  storage := peer.storage w.objects
  program := peer.program
  known := peer.known

end Peer

/--
Who works with the object storage: calls that start imports, whoever works on them, and clients with what
they are going to write, each through one of the URLs.
-/
inductive StorageParty where
  | starter (starter : Starter)
  | peer (peer : Peer)
  | writer (writes : List (Nat × Bytes))

-- the URL that the call is issued
def issued (db : Database) (starter : Starter) : List UploadUrl :=
  match starter.program.command? with
  | some (.generateUploadUrl key) => [{ key, late := Settled db key }]
  | _ => []

-- the object is that of an import whose upload has been completed
def ObjectWorld.HasCompleted (w : ObjectWorld) (key : String) : Prop :=
  ∃ importId ∈ w.completed, IsObjectOf key importId

instance (w : ObjectWorld) (key : String) : Decidable (w.HasCompleted key) :=
  inferInstanceAs (Decidable (∃ importId ∈ w.completed, _))

def ObjectWorld.write (w : ObjectWorld) (n : Nat) (bytes : Bytes) : ObjectWorld :=
  match w.urls[n]? with
  | some uploadUrl => { w with objects := Function.update w.objects uploadUrl.key (some bytes) }
  | none => w

section Step

variable (url : String → String)

def StorageParty.step (w : ObjectWorld) : StorageParty → ObjectWorld × StorageParty
  | .starter member =>
    let (imports, next) := member.step url w.db.imports
    ({ w with
      db := { w.db with imports }
      urls := w.urls ++ issued w.db member
    }, .starter next)
  | .peer member =>
    let (w, next) := member.step w
    (w, .peer next)
  | .writer [] => (w, .writer [])
  | .writer ((n, bytes) :: writes) => (w.write n bytes, .writer writes)

end Step

/--
No URL has been issued for an import that had left `uploading`, and what is stored of every artifact has its checksum.
-/
structure OriginalsKept (sha256 : Bytes → String) (w : ObjectWorld) : Prop where
  urls : ∀ uploadUrl ∈ w.urls, uploadUrl.late = false
  artifacts : ∀ row ∈ w.db.sourceArtifacts.rows, ∃ bytes,
    w.objects row.objectStorageKey = some bytes ∧ sha256 bytes = row.checksum

namespace StorageParty

-- the call is about to look up its key: what it is going to replay
def finds (w : ObjectWorld) : StorageParty → Option Import
  | .starter member =>
    match member.program.command? with
    | some (.findByIdempotencyKey ownerId key) =>
      (PgImportRepository.findByIdempotencyKey ownerId key w.db.imports).filter fun existing =>
        !existing.payloadHash.any (· ≠ member.cmd.payloadHash member.externals)
    | _ => none
  | _ => none

-- the call returns the import as soon as it has its URL
def replays : StorageParty → Option Import
  | .starter member =>
    match member.program with
    | .ask (.generateUploadUrl _) next =>
      match next (.ok "") with
      | .done (.ok result) => some result.imp
      | _ => none
    | _ => none
  | _ => none

def writes (importId : Uuid) (w : ObjectWorld) : StorageParty → Option ImportStatus
  | .peer member => (member.client w).writes importId w.db
  | _ => none

-- the id that the call draws
def draws : StorageParty → Option ImportId
  | .starter member => some member.externals.importId
  | _ => none

-- the client is about to write through the URL
def uses (w : ObjectWorld) : StorageParty → Option UploadUrl
  | .writer ((n, _) :: _) => w.urls[n]?
  | _ => none

end StorageParty

section Run

variable {ι : Type} [DecidableEq ι] (c : Config ObjectWorld StorageParty ι) (i : ι)

/--
A call that replays an import finds it in `uploading`, and nobody writes the import before the call has its
URL.
-/
structure ReplaysInTime : Prop where
  found : ∀ existing ∈ (c.clients i).finds c.shared, existing.status = .uploading
  kept : ∀ j, ∀ existing ∈ (c.clients j).replays, (c.clients i).writes existing.id.val c.shared = none

-- a URL from before the upload was completed is not used after that
def WritesInTime : Prop :=
  ∀ uploadUrl ∈ (c.clients i).uses c.shared,
    uploadUrl.late = false → ¬c.shared.HasCompleted uploadUrl.key

instance [Fintype ι] : Decidable (ReplaysInTime c i) :=
  decidable_of_iff
    ((∀ existing ∈ (c.clients i).finds c.shared, existing.status = .uploading)
      ∧ ∀ j, ∀ existing ∈ (c.clients j).replays, (c.clients i).writes existing.id.val c.shared = none)
    ⟨fun h => ⟨h.1, h.2⟩, fun h => ⟨h.1, h.2⟩⟩

instance : Decidable (WritesInTime c i) :=
  inferInstanceAs (Decidable (∀ uploadUrl ∈ (c.clients i).uses c.shared, _))

-- nobody has begun yet, and there is one hash function
def StorageParty.Starting (sha256 : Bytes → String) : StorageParty → Prop
  | .starter member =>
    member = .start member.externals member.cmd ∧ member.externals.uuidToString = Uuid.hyphenated
  | .peer member =>
    member = .start member.actor member.outage member.verifyUpload
      ∧ ∀ externals job, member.actor = .worker externals job →
        externals.sha256 = sha256
          ∧ job.objectStorageKey = storageKey Uuid.hyphenated ⟨job.ownerId⟩ ⟨job.importId⟩
  | .writer _ => True

-- no id is drawn twice
def DrawsApart (parties : ι → StorageParty) : Prop :=
  ∀ i j, i ≠ j → ∀ importId ∈ (parties i).draws, (parties j).draws ≠ some importId

end Run

end Api
