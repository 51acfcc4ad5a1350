import Mathlib.Data.String.Basic
import Haiker.Api.RouteEditing
import Haiker.IndexedDb.ObjectStore

/-!
This module contains the edits that the editor keeps in the browser until the server has confirmed
them, and their replay. The order of the keys is the order of their texts.
-/

open RouteEditing

namespace RouteEditor

structure PendingOperation where
  id : String
  draftId : RouteDraftId
  operation : Api.OperationDto
  expectedRevision : Nat
  timestamp : Timestamp
  confirmed : Bool
  deriving DecidableEq

-- `record.confirmed = true`
def PendingOperation.confirm (record : PendingOperation) : PendingOperation :=
  { record with confirmed := true }

abbrev PendingStore := IndexedDb.ObjectStore PendingOperation.id

def savePendingOperation (store : PendingStore) (op : PendingOperation) : PendingStore := store.put op

def confirmOperation (store : PendingStore) (id : String) : PendingStore :=
  match store.get id with
  | some record => store.put record.confirm
  | none => store

def getUnconfirmedOperations (store : PendingStore) (draftId : RouteDraftId) : List PendingOperation :=
  (store.getAll fun op => op.draftId = draftId).filter fun op => !op.confirmed

def clearOperationsForDraft (store : PendingStore) (draftId : RouteDraftId) : PendingStore :=
  store.deleteWhere fun op => op.draftId = draftId

-- the id is `crypto.randomUUID()`, the time is `Date.now()`
def pendingOperation (draftId : RouteDraftId) (id : String) (now : Timestamp)
    (operation : Api.OperationDto) (expectedRevision : Nat) : PendingOperation where
  id
  draftId
  operation
  expectedRevision
  timestamp := now
  confirmed := false

def saveOperation (draftId : RouteDraftId) (id : String) (now : Timestamp) (operation : Api.OperationDto)
    (expectedRevision : Nat) (store : PendingStore) : PendingStore :=
  savePendingOperation store (pendingOperation draftId id now operation expectedRevision)

/--
What a request of the editor gets from outside: the key that `applyOperation` draws for it, and the
context that the server handles it in.
-/
structure Draw where
  idempotencyKey : OperationId
  context : Api.Context

/--
The loop of `handleRetryOperations` and `handleReplayRecovery`, with nobody else at the server: how many
operations were applied, and what is stored then.
-/
def replayOperations (draftId : RouteDraftId) (draws : Nat → Draw) (currentRevision successCount : Nat)
    (s : Store) : List PendingOperation → Nat × Store
  | [] => (successCount, s)
  | pendingOp :: ops =>
    let body := { operation := pendingOp.operation, expectedRevision := currentRevision }
    let draw := draws successCount
    match (Api.postApplyOperation draw.context draftId draw.idempotencyKey body).run s with
    | .ok result s => replayOperations draftId draws result.revision (successCount + 1) s ops
    | .error _ s => (successCount, s)

end RouteEditor
