import Haiker.Imports.Import
import Haiker.Sql.Index

/-!
This module contains the table `imports.imports` and the repository on it, with what it reads and leaves in
the table. The database does not fail by itself.
-/

namespace Imports

structure ImportRow where
  id : Uuid
  ownerId : Uuid
  sourceArtifactId : Option Uuid
  format : String
  status : String
  checksum : Option String
  failureReason : Option String
  failureCode : Option String
  idempotencyKey : String
  payloadHash : Option String
  activityId : Option Uuid
  createdAt : Timestamp
  updatedAt : Timestamp

abbrev ImportTable := Sql.Table ImportRow.id

def duplicateKey (constraint : String) : String :=
  "error returned from database: duplicate key value violates unique constraint \""
    ++ constraint ++ "\""

-- `UNIQUE(owner_id, idempotency_key)`
def ownerKey (row : ImportRow) : Option (Uuid × String) := some (row.ownerId, row.idempotencyKey)

-- `idx_imports_owner_checksum_completed`
def completedChecksum (row : ImportRow) : Option (Uuid × String) :=
  if row.status = "completed" then row.checksum.map fun checksum => (row.ownerId, checksum) else none

def parseStatus : String → ImportStatus
  | "requested" => .requested
  | "uploading" => .uploading
  | "uploaded" => .uploaded
  | "validating" => .validating
  | "queued" => .queued
  | "parsing" => .parsing
  | "committing" => .committing
  | "completed" => .completed
  | "failed" => .failed
  | "cancelled" => .cancelled
  | _ => .failed

@[simp]
theorem parseStatus_display (status : ImportStatus) : parseStatus status.display = status := by
  cases status with
  | requested | uploading | uploaded | validating | queued | parsing | committing | completed | failed
  | cancelled => rfl

def rowToImport (row : ImportRow) : Import where
  id := { val := row.id }
  ownerId := { val := row.ownerId }
  sourceArtifactId := row.sourceArtifactId.map fun val => { val }
  format := .gpx
  status := parseStatus row.status
  checksum := row.checksum.bind fun c => (Checksum.new c).toOption
  failureReason := row.failureReason
  failureCode := row.failureCode.bind FailureCode.parse
  idempotencyKey := row.idempotencyKey
  payloadHash := row.payloadHash
  activityId := row.activityId.map fun val => { val }
  createdAt := row.createdAt
  updatedAt := row.updatedAt

namespace PgImportRepository

-- the columns that `save` sets
def importRow (imp : Import) : ImportRow where
  id := imp.id.val
  ownerId := imp.ownerId.val
  sourceArtifactId := imp.sourceArtifactId.map (·.val)
  format := imp.format.display
  status := imp.status.display
  checksum := imp.checksum.map (·.value)
  failureReason := imp.failureReason
  failureCode := imp.failureCode.map (·.asStr)
  idempotencyKey := imp.idempotencyKey
  payloadHash := imp.payloadHash
  activityId := imp.activityId.map (·.val)
  createdAt := imp.createdAt.toTimestamptz
  updatedAt := imp.updatedAt.toTimestamptz

def save (imp : Import) (imports : ImportTable) : Except ImportError ImportTable :=
  if imports.clashes ownerKey (importRow imp) then
    .error (.storageError (duplicateKey "imports_owner_id_idempotency_key_key"))
  else if imports.clashes completedChecksum (importRow imp) then
    .error (.storageError (duplicateKey "idx_imports_owner_checksum_completed"))
  else
    match imports.insert? (importRow imp) with
    | some imports => .ok imports
    | none => .error (.storageError (duplicateKey "imports_pkey"))

def findByIdempotencyKey (ownerId : Identity.UserId) (key : String) (imports : ImportTable)
    : Option Import :=
  (imports.rows.find? fun row => row.ownerId = ownerId.val ∧ row.idempotencyKey = key).map rowToImport

def findById (id : ImportId) (imports : ImportTable) : Option Import :=
  (imports.find? id.val).map rowToImport

def findCompletedByChecksum (ownerId : Identity.UserId) (checksum : Checksum) (imports : ImportTable)
    : Option (ImportId × Option ActivityCatalog.ActivityId) :=
  let completed := fun row : ImportRow =>
    row.ownerId = ownerId.val ∧ row.checksum = some checksum.value ∧ row.status = "completed"
  (imports.rows.find? completed).map fun row =>
    ({ val := row.id }, row.activityId.map fun val => { val })

-- the columns that `update` sets
def setImport (imp : Import) (row : ImportRow) : ImportRow := { row with
  sourceArtifactId := imp.sourceArtifactId.map (·.val)
  status := imp.status.display
  checksum := imp.checksum.map (·.value)
  failureReason := imp.failureReason
  failureCode := imp.failureCode.map (·.asStr)
  activityId := imp.activityId.map (·.val)
  updatedAt := imp.updatedAt.toTimestamptz
}

theorem id_setImport (imp : Import) (row : ImportRow) : (setImport imp row).id = row.id := rfl

def update (imp : Import) (imports : ImportTable) : Except ImportError ImportTable :=
  match imports.find? imp.id.val with
  | none => .ok imports
  | some row =>
    if imports.clashes completedChecksum (setImport imp row) then
      .error (.storageError (duplicateKey "idx_imports_owner_checksum_completed"))
    else
      .ok (imports.updateWhere (fun row => row.id = imp.id.val) (setImport imp) (id_setImport imp))

def findAbandoned (threshold : Timestamp) (imports : ImportTable) : List Import :=
  (imports.rows.filter fun row =>
    row.status ∈ ["validating", "queued", "parsing", "committing"] ∧ row.updatedAt < threshold.toTimestamptz).map
      rowToImport

end PgImportRepository

theorem display_inj {status status' : ImportStatus} : status.display = status'.display ↔ status = status' := by
  constructor
  . intro h
    rw [← parseStatus_display status, h, parseStatus_display]
  . intro h
    rw [h]

namespace PgImportRepository

variable {imp : Import} {imports imports' : ImportTable} {row : ImportRow} {k : Uuid}

theorem id_of_findById {id : ImportId} (h : findById id imports = some imp) : imp.id = id := by
  obtain ⟨row, hrow, rfl⟩ := Option.map_eq_some_iff.mp h
  have hid : row.id = id.val := Sql.Table.key_of_find? hrow
  simp [rowToImport, hid]

theorem completedChecksum_eq_some_iff {ownerId : Uuid} {checksum : String}
    : completedChecksum row = some (ownerId, checksum)
        ↔ row.ownerId = ownerId ∧ row.checksum = some checksum ∧ row.status = "completed" := by
  unfold completedChecksum
  split
  . next h =>
    simp only [h, Option.map_eq_some_iff, Prod.mk.injEq, and_true]
    constructor
    . rintro ⟨_, hchecksum, howner, rfl⟩
      exact ⟨howner, hchecksum⟩
    . rintro ⟨howner, hchecksum⟩
      exact ⟨_, hchecksum, howner, rfl⟩
  . next h => simp [h]

theorem completedChecksum_setImport (h : imp.status ≠ .completed)
    : completedChecksum (setImport imp row) = none := by
  have hstatus : (setImport imp row).status ≠ "completed" := by
    intro hcompleted
    exact h (display_inj.mp hcompleted)
  rw [completedChecksum, if_neg hstatus]

theorem find?_update (h : update imp imports = .ok imports') (k : Uuid)
    : imports'.find? k
        =
      (imports.find? k).map fun row => if row.id = imp.id.val then setImport imp row else row := by
  unfold update at h
  cases hrow : imports.find? imp.id.val with
  | none =>
    rw [hrow] at h
    obtain rfl : imports = imports' := Except.ok.inj h
    cases hk : imports.find? k with
    | none => rfl
    | some row =>
      have hne : row.id ≠ imp.id.val := by
        intro hid
        rw [← Sql.Table.key_of_find? hk, hid, hrow] at hk
        cases hk
      simp [hne]
  | some row =>
    rw [hrow] at h
    simp only at h
    split at h
    . cases h
    . obtain rfl := Except.ok.inj h
      rw [Sql.Table.find?_updateWhere]
      simp

theorem find?_update_self (h : update imp imports = .ok imports')
    (hrow : imports.find? imp.id.val = some row)
    : imports'.find? imp.id.val = some (setImport imp row) := by
  have hid : row.id = imp.id.val := Sql.Table.key_of_find? hrow
  simp [find?_update h, hrow, hid]

theorem find?_update_ne (h : update imp imports = .ok imports') (hk : k ≠ imp.id.val)
    : imports'.find? k = imports.find? k := by
  rw [find?_update h]
  cases hrow : imports.find? k with
  | none => rfl
  | some row =>
    have hid : row.id = k := Sql.Table.key_of_find? hrow
    simp [hid, hk]

theorem update_of_not_completed (h : imp.status ≠ .completed)
    : ∃ imports', update imp imports = .ok imports' := by
  unfold update
  cases imports.find? imp.id.val with
  | none => exact ⟨_, rfl⟩
  | some row =>
    have hfree : imports.clashes completedChecksum (setImport imp row) = false := by
      rw [Sql.Table.clashes_eq_false_iff]
      intro k other v _ hv
      rw [completedChecksum_setImport h] at hv
      cases hv
    exact ⟨_, by simp [hfree]; rfl⟩

theorem update_eq_ok_iff_of_found (hrow : imports.find? imp.id.val = some row)
    : (∃ imports', update imp imports = .ok imports')
        ↔ imports.clashes completedChecksum (setImport imp row) = false := by
  unfold update
  rw [hrow]
  simp only
  split
  . next h => simp [h]
  . next h => simp [h]

theorem update_of_clash (hrow : imports.find? imp.id.val = some row)
    (h : imports.clashes completedChecksum (setImport imp row) = true)
    : update imp imports
        = .error (.storageError (duplicateKey "idx_imports_owner_checksum_completed")) := by
  unfold update
  rw [hrow]
  simp only [h, if_pos]

theorem findCompletedByChecksum_eq_none_iff {ownerId : Identity.UserId} {checksum : Checksum}
    : findCompletedByChecksum ownerId checksum imports = none
        ↔ ∀ k row, imports.find? k = some row →
          completedChecksum row ≠ some (ownerId.val, checksum.value) := by
  simp only [findCompletedByChecksum, Option.map_eq_none_iff, List.find?_eq_none, decide_eq_true_eq,
    ne_eq, completedChecksum_eq_some_iff]
  constructor
  . intro h k row hrow
    exact h row (Sql.Table.mem_of_find? hrow)
  . intro h row hmem
    exact h row.id row (Sql.Table.find?_of_mem hmem)

theorem completed_of_findCompletedByChecksum {ownerId : Identity.UserId} {checksum : Checksum}
    {importId : ImportId} {activityId : Option ActivityCatalog.ActivityId}
    (h : findCompletedByChecksum ownerId checksum imports = some (importId, activityId))
    : ∃ row, imports.find? importId.val = some row
        ∧ completedChecksum row = some (ownerId.val, checksum.value)
        ∧ activityId = row.activityId.map fun val => { val } := by
  simp only [findCompletedByChecksum, Option.map_eq_some_iff, Prod.mk.injEq] at h
  obtain ⟨row, hfind, rfl, rfl⟩ := h
  have hcompleted := List.find?_some hfind
  rw [decide_eq_true_eq, ← completedChecksum_eq_some_iff] at hcompleted
  exact ⟨row, Sql.Table.find?_of_mem (List.mem_of_find?_eq_some hfind), hcompleted, rfl⟩

end PgImportRepository

end Imports
