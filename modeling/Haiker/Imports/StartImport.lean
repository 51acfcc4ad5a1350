import Haiker.Imports.Workers

/-!
This module contains the command that starts an import, with what it asks of the repository and the
object storage. The storage issues an upload URL for whatever key it is asked for.
-/

open Rust

namespace Imports

structure StartImportCommand where
  ownerId : Identity.UserId
  idempotencyKey : String
  filename : String
  contentType : String
  fileSizeBytes : Nat

structure StartImportResult where
  imp : Import
  uploadUrl : String

/--
What the crates `uuid` and `sha2` do, the clock and the id that is drawn.
-/
structure StartExternals where
  uuidToString : Uuid → String
  sha256Hex : Bytes → String
  now : Timestamp
  importId : ImportId

inductive StartCommand where
  | findByIdempotencyKey (ownerId : Identity.UserId) (key : String)
  | generateUploadUrl (key : String)
  | save (imp : Import)

abbrev StartCommand.Reply : StartCommand → Type
  | .findByIdempotencyKey _ _ => Except ImportError (Option Import)
  | .generateUploadUrl _ => Except ImportError String
  | .save _ => Except ImportError Unit

abbrev StartM := ExceptT ImportError (Program StartCommand.Reply)

namespace StartM

def findByIdempotencyKey (ownerId : Identity.UserId) (key : String) : StartM (Option Import) :=
  ExceptT.mk (.call (StartCommand.findByIdempotencyKey ownerId key))

def generateUploadUrl (key : String) : StartM String :=
  ExceptT.mk (.call (StartCommand.generateUploadUrl key))

def save (imp : Import) : StartM Unit := ExceptT.mk (.call (StartCommand.save imp))

def ofExcept {α : Type} (result : Except ImportError α) : StartM α := ExceptT.mk (.done result)

end StartM

-- `u64::to_le_bytes`
def toLeBytes (n : Nat) : Bytes := (List.range 8).map fun i => UInt8.ofNat (n / 256 ^ i)

def strBytes (s : String) : Bytes := s.toUTF8.data.toList

def computePayloadHash (sha256Hex : Bytes → String) (filename contentType : String) (fileSizeBytes : Nat)
    : String :=
  sha256Hex (strBytes filename ++ [0] ++ strBytes contentType ++ [0] ++ toLeBytes fileSizeBytes)

-- where the file of an import is uploaded
def storageKey (uuidToString : Uuid → String) (ownerId : Identity.UserId) (importId : ImportId) : String :=
  "imports/" ++ uuidToString ownerId.val ++ "/" ++ uuidToString importId.val

namespace StartImportCommand

variable (externals : StartExternals) (cmd : StartImportCommand)

def validate : Except ImportError Unit :=
  if MAX_FILE_SIZE_BYTES < cmd.fileSizeBytes then
    .error .uploadTooLarge
  else if cmd.contentType ∉ ALLOWED_CONTENT_TYPES then
    .error .invalidMediaType
  else if trim cmd.filename = "" then
    .error (.validationFailed "filename must not be empty")
  else
    .ok ()

def payloadHash : String :=
  computePayloadHash externals.sha256Hex cmd.filename cmd.contentType cmd.fileSizeBytes

end StartImportCommand

section StartImport

variable (externals : StartExternals) (cmd : StartImportCommand)

-- `generate_upload_url` for the file of the import
def uploadUrlOf (imp : Import) : StartM String :=
  StartM.generateUploadUrl (storageKey externals.uuidToString cmd.ownerId imp.id)

-- the import is there already
def replay (existing : Import) : StartM StartImportResult := do
  if existing.payloadHash.any (· ≠ cmd.payloadHash externals) then
    throw .idempotencyPayloadMismatch
  else
    let uploadUrl ← uploadUrlOf externals cmd existing
    return { imp := existing, uploadUrl }

def newImport : Except ImportError Import := do
  let imp ← Import.new externals.now externals.importId cmd.ownerId .gpx cmd.idempotencyKey
    (some (cmd.payloadHash externals))
  imp.startUpload externals.now

def create : StartM StartImportResult := do
  let imp ← StartM.ofExcept (newImport externals cmd)
  let uploadUrl ← uploadUrlOf externals cmd imp
  StartM.save imp
  return { imp, uploadUrl }

def handleStartImport : StartM StartImportResult := do
  StartM.ofExcept cmd.validate
  match ← StartM.findByIdempotencyKey cmd.ownerId cmd.idempotencyKey with
  | some existing => replay externals cmd existing
  | none => create externals cmd

end StartImport

end Imports
