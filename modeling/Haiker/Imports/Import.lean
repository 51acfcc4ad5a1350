import Haiker.RecordedActivity.ValueObjects
import Haiker.Rust.Str

/-!
This module contains the import aggregate and its state machine. The time comes in as `now`.
-/

namespace Imports

structure ImportId where
  val : Uuid
  deriving DecidableEq

inductive ImportFormat where
  | gpx
  deriving DecidableEq

def ImportFormat.display : ImportFormat → String
  | .gpx => "gpx"

inductive ImportStatus where
  | requested
  | uploading
  | uploaded
  | validating
  | queued
  | parsing
  | committing
  | completed
  | failed
  | cancelled
  deriving DecidableEq

inductive ImportError where
  | unsupportedFormat
  | invalidTransition (from_ to_ : String)
  | notFound
  | unauthorized
  | duplicateIdempotencyKey
  | duplicateChecksum
  | checksumMismatch (expected actual : String)
  | uploadTooLarge
  | invalidMediaType
  | parsingFailed (reason : String)
  | objectNotFound
  | storageError (message : String)
  | validationFailed (message : String)
  | idempotencyPayloadMismatch
  deriving DecidableEq

-- the `#[error(..)]` texts
def ImportError.display : ImportError → String
  | .unsupportedFormat => "unsupported file format"
  | .invalidTransition from_ to_ => "invalid transition from " ++ from_ ++ " to " ++ to_
  | .notFound => "import not found"
  | .unauthorized => "unauthorized"
  | .duplicateIdempotencyKey => "duplicate idempotency key"
  | .duplicateChecksum => "duplicate checksum"
  | .checksumMismatch expected actual =>
    "checksum mismatch: expected " ++ expected ++ ", got " ++ actual
  | .uploadTooLarge => "upload too large"
  | .invalidMediaType => "invalid media type"
  | .parsingFailed reason => "parsing failed: " ++ reason
  | .objectNotFound => "upload not found in storage"
  | .storageError message => "storage error: " ++ message
  | .validationFailed message => "validation failed: " ++ message
  | .idempotencyPayloadMismatch => "idempotency key reused with different payload"

inductive FailureCode where
  | parseError
  | checksumMismatch
  | fileTooLarge
  | invalidFormat
  | storageUnavailable
  | timeout
  | internalError
  deriving DecidableEq

namespace FailureCode

def parse (s : String) : Option FailureCode :=
  match s with
  | "PARSE_ERROR" => some .parseError
  | "CHECKSUM_MISMATCH" => some .checksumMismatch
  | "FILE_TOO_LARGE" => some .fileTooLarge
  | "INVALID_FORMAT" => some .invalidFormat
  | "STORAGE_UNAVAILABLE" => some .storageUnavailable
  | "TIMEOUT" => some .timeout
  | "INTERNAL_ERROR" => some .internalError
  | _ => none

def asStr : FailureCode → String
  | .parseError => "PARSE_ERROR"
  | .checksumMismatch => "CHECKSUM_MISMATCH"
  | .fileTooLarge => "FILE_TOO_LARGE"
  | .invalidFormat => "INVALID_FORMAT"
  | .storageUnavailable => "STORAGE_UNAVAILABLE"
  | .timeout => "TIMEOUT"
  | .internalError => "INTERNAL_ERROR"

@[simp]
theorem parse_asStr (code : FailureCode) : parse code.asStr = some code := by
  cases code with
  | parseError | checksumMismatch | fileTooLarge | invalidFormat | storageUnavailable | timeout
  | internalError => rfl

end FailureCode

def isHexdigit (c : Char) : Bool :=
  '0' ≤ c && c ≤ '9' || 'a' ≤ c && c ≤ 'f' || 'A' ≤ c && c ≤ 'F'

-- 64 hexadecimal digits, the letters in lower case
structure Checksum where
  value : String
  length_eq : value.utf8ByteSize = 64
  all_hex : value.toList.all isHexdigit = true
  lower : value.toList.map Char.toLower = value.toList
  deriving DecidableEq

namespace Checksum

-- `to_lowercase`; what it makes of other letters than ASCII ones is no hexadecimal digit
def toLowercase (value : String) : String := String.ofList (value.toList.map Char.toLower)

theorem toLower_toLower (c : Char) : c.toLower.toLower = c.toLower := by
  delta Char.toLower
  split
  . split
    . next hupper hlower =>
      have hA : 'A'.val.toNat = 65 := rfl
      have hZ : 'Z'.val.toNat = 90 := rfl
      have ha : ('a'.val - 'A'.val).toNat = 32 := rfl
      simp only [ge_iff_le, UInt32.le_iff_toNat_le, UInt32.toNat_add] at hupper hlower
      omega
    . rfl
  . rfl

theorem map_toLower_toLowercase (value : String)
    : (toLowercase value).toList.map Char.toLower = (toLowercase value).toList := by
  unfold toLowercase
  rw [String.toList_ofList, List.map_map]
  apply List.map_congr_left
  intro c _
  exact toLower_toLower c

def new (value : String) : Except ImportError Checksum :=
  let value' := toLowercase value
  if hlength : value'.utf8ByteSize = 64 then
    if hhex : value'.toList.all isHexdigit = true then
      .ok ⟨value', hlength, hhex, map_toLower_toLowercase value⟩
    else
      .error (.validationFailed "checksum must contain only hexadecimal characters")
  else
    .error (.validationFailed
      ("checksum must be exactly 64 hex characters, got " ++ toString value'.utf8ByteSize))

theorem toLowercase_value (checksum : Checksum) : toLowercase checksum.value = checksum.value := by
  rw [toLowercase, checksum.lower, String.ofList_toList]

@[simp]
theorem new_value (checksum : Checksum) : new checksum.value = .ok checksum := by
  unfold new
  simp only [toLowercase_value]
  rw [dif_pos checksum.length_eq, dif_pos checksum.all_hex]

end Checksum

namespace ImportStatus

def isTerminal : ImportStatus → Bool
  | .completed | .failed | .cancelled => true
  | _ => false

def display : ImportStatus → String
  | .requested => "requested"
  | .uploading => "uploading"
  | .uploaded => "uploaded"
  | .validating => "validating"
  | .queued => "queued"
  | .parsing => "parsing"
  | .committing => "committing"
  | .completed => "completed"
  | .failed => "failed"
  | .cancelled => "cancelled"

def isValid : ImportStatus → ImportStatus → Bool
  | .requested, .uploading => true
  | .uploading, .uploaded => true
  | .uploaded, .validating => true
  | .validating, .queued => true
  | .queued, .parsing => true
  | .parsing, .committing => true
  | .committing, .completed => true
  | _, .failed => true
  | _, .cancelled => true
  | _, _ => false

def transitionTo (status target : ImportStatus) : Except ImportError ImportStatus :=
  if status.isTerminal then
    .error (.invalidTransition status.display target.display)
  else if status.isValid target then
    .ok target
  else
    .error (.invalidTransition status.display target.display)

end ImportStatus

structure Import where
  id : ImportId
  ownerId : Identity.UserId
  sourceArtifactId : Option RecordedActivity.SourceArtifactId
  format : ImportFormat
  status : ImportStatus
  checksum : Option Checksum
  failureReason : Option String
  failureCode : Option FailureCode
  idempotencyKey : String
  payloadHash : Option String
  activityId : Option ActivityCatalog.ActivityId
  createdAt : Timestamp
  updatedAt : Timestamp
  deriving DecidableEq

namespace Import

-- `id` is the generated one
def new (now : Timestamp) (id : ImportId) (ownerId : Identity.UserId) (format : ImportFormat)
    (idempotencyKey : String) (payloadHash : Option String) : Except ImportError Import :=
  if Rust.trim idempotencyKey = "" then
    .error (.validationFailed "idempotency key must not be empty")
  else
    .ok {
      id
      ownerId
      sourceArtifactId := none
      format
      status := .requested
      checksum := none
      failureReason := none
      failureCode := none
      idempotencyKey
      payloadHash
      activityId := none
      createdAt := now
      updatedAt := now
    }

variable (now : Timestamp) (imp : Import)

def setActivity (activityId : Option ActivityCatalog.ActivityId) : Import := { imp with activityId }

-- the common part of the methods
def moveTo (target : ImportStatus) : Except ImportError Import := do
  return { imp with status := ← imp.status.transitionTo target, updatedAt := now }

def startUpload : Except ImportError Import := imp.moveTo now .uploading

def completeUpload (sourceArtifactId : RecordedActivity.SourceArtifactId) (checksum : Checksum)
    : Except ImportError Import := do
  return { ← imp.moveTo now .uploaded with
    sourceArtifactId := some sourceArtifactId
    checksum := some checksum
  }

def startValidation : Except ImportError Import := imp.moveTo now .validating

def queueForParsing : Except ImportError Import := imp.moveTo now .queued

def startParsing : Except ImportError Import := imp.moveTo now .parsing

def startCommitting : Except ImportError Import := imp.moveTo now .committing

def complete : Except ImportError Import := imp.moveTo now .completed

def fail (reason : String) : Except ImportError Import := do
  return { ← imp.moveTo now .failed with failureReason := some reason }

def failWithCode (reason : String) (code : FailureCode) : Except ImportError Import := do
  return { ← imp.moveTo now .failed with failureReason := some reason, failureCode := some code }

end Import

end Imports
