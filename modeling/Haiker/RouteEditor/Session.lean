import Haiker.Api.System
import Haiker.RouteEditor.Autosave

/-!
This module contains the editor of one draft as it runs in the browser, together with the draft API.
Between two steps of a handler of the editor, which an `await` separates, everything else can happen: the
page can be loaded again, requests can be handled, the user can go on.
-/

open RouteEditing
open RouteVersioning

namespace RouteEditor

inductive Failure where
  -- status 409
  | conflict
  | other
  deriving DecidableEq

/--
A request that the browser has sent. It is lost if the server never handles it.
-/
structure Flight where
  -- the id of the pending operation that it carries
  edit : Option String
  handler : Api.Client
  -- the revision in the result
  answer : Option (Except Failure Nat)

/--
How far a handler of the editor has got.
-/
inductive Handler where
  -- `dispatchOperation`
  | saved (op : PendingOperation)
  | sent (flight : Nat) (id : String)
  | succeeded (id : String) (revision : Nat)
  | confirmed (revision : Nat)
  | refetching (revision : Nat)
  -- `handleUndo`, `handleRedo` and `handleReset`
  | commanded (flight : Nat) (isReset : Bool)
  | cleaning
  -- `handleConflict`
  | conflicting
  -- `handleReplayRecovery`, before it knows the revision of the server
  | recovering (ops : List PendingOperation)
  -- the loop of `handleReplayRecovery` and `handleRetryOperations`
  | replaying (currentRevision : Nat) (ops : List PendingOperation)
  | awaiting (flight : Nat) (ops : List PendingOperation)
  -- what follows the loop
  | refreshing

-- what is gone when the page is loaded again
structure Page where
  isOpen : Bool
  isOffline : Bool
  revision : Nat
  -- the revision of `conflictServerDraft`
  conflictRevision : Option Nat
  conflictLocalOps : List PendingOperation
  isChecked : Bool
  recoveryOps : List PendingOperation
  handlers : List Handler

-- what is in IndexedDB
structure Disk where
  pending : PendingStore
  baseRevision : Option Nat

structure World where
  db : Database
  flights : List Flight
  -- the revisions that the draft was answered with, which caches keep
  served : List Nat
  -- the edits that the server has applied, with the last one first
  applied : List String
  disk : Disk
  page : Page

def Page.loading : Page where
  isOpen := false
  isOffline := false
  revision := 0
  conflictRevision := none
  conflictLocalOps := []
  isChecked := false
  recoveryOps := []
  handlers := []

def World.start (db : Database) : World where
  db
  flights := []
  served := []
  applied := []
  disk := { pending := .empty, baseRevision := none }
  page := .loading

section Client

variable (draftId : RouteDraftId)

namespace World

def goOn (w : World) (handlers : List Handler) : World :=
  { w with page := { w.page with handlers := w.page.handlers ++ handlers } }

def setRevision (w : World) (revision : Nat) : World :=
  { w with page := { w.page with revision } }

def saveBaseRevision (w : World) (revision : Nat) : World :=
  { w with disk := { w.disk with baseRevision := some revision } }

-- `clearRecovery` and `dismissRecovery`
def clearRecovery (w : World) : World := { w with
  disk := { pending := clearOperationsForDraft w.disk.pending draftId, baseRevision := none }
  page := { w.page with recoveryOps := [] }
}

def setConflictState (w : World) (revision : Nat) (ops : List PendingOperation) : World :=
  { w with page := { w.page with conflictRevision := some revision, conflictLocalOps := ops } }

-- `resolveConflictReload` and `resolveConflictRetry`
def resolveConflict (w : World) : World := { w with
  page := { w.page with
    revision := w.page.conflictRevision.getD w.page.revision
    conflictRevision := none
    conflictLocalOps := []
  }
}

def unconfirmed (w : World) : List PendingOperation := getUnconfirmedOperations w.disk.pending draftId

-- the request has the number `w.flights.length`
def send (w : World) (draw : Draw) (edit : Option String) (request : Api.EditRequest) : World :=
  let handler := { context := draw.context, draftId, request, phase := .start }
  { w with flights := w.flights ++ [{ edit, handler, answer := none }] }

def answer? (w : World) (flight : Nat) : Option (Except Failure Nat) :=
  w.flights[flight]?.bind (·.answer)

end World

def applyRequest (draw : Draw) (op : PendingOperation) (expectedRevision : Nat) : Api.EditRequest :=
  .apply draw.idempotencyKey { operation := op.operation, expectedRevision }

-- the mutations call `handleConflict` on their own
def Failure.handlers : Failure → List Handler
  | .conflict => [.conflicting]
  | .other => []

/--
A handler that has been waiting goes on. `w` is without it, `response` is the answer to the request for
the draft, if the handler makes one and it does not fail.
-/
def Handler.resume (draw : Draw) (response : Option Nat) (w : World) : Handler → World
  | .saved op =>
    let w' := w.send draftId draw (some op.id) (applyRequest draw op op.expectedRevision)
    w'.goOn [.sent w.flights.length op.id]
  | .sent flight id =>
    match w.answer? flight with
    | none => w.goOn [.sent flight id]
    | some (.ok revision) => w.goOn [.succeeded id revision]
    | some (.error e) => w.goOn e.handlers
  | .succeeded id revision =>
    let pending := confirmOperation w.disk.pending id
    { w with disk := { w.disk with pending } }.goOn [.confirmed revision]
  | .confirmed revision => (w.saveBaseRevision revision).goOn [.refetching revision]
  | .refetching revision => w.setRevision revision
  | .commanded flight isReset =>
    match w.answer? flight with
    | none => w.goOn [.commanded flight isReset]
    | some (.ok revision) => (w.setRevision revision).goOn (bif isReset then [.cleaning] else [])
    | some (.error e) => w.goOn e.handlers
  | .cleaning => w.clearRecovery draftId
  | .conflicting =>
    match response with
    | some revision => w.setConflictState revision (w.unconfirmed draftId)
    | none => w
  | .recovering ops =>
    match response with
    | some revision => w.goOn [.replaying revision ops]
    | none => w
  -- all operations were applied
  | .replaying _ [] => (w.clearRecovery draftId).goOn [.refreshing]
  | .replaying currentRevision (op :: ops) =>
    let w' := w.send draftId draw (some op.id) (applyRequest draw op currentRevision)
    w'.goOn [.awaiting w.flights.length ops]
  | .awaiting flight ops =>
    match w.answer? flight with
    | none => w.goOn [.awaiting flight ops]
    | some (.ok revision) => w.goOn [.replaying revision ops]
    | some (.error e) => w.goOn (.refreshing :: e.handlers)
  | .refreshing =>
    match response with
    | some revision => (w.setRevision revision).saveBaseRevision revision
    | none => w

-- the request, or the answer to it, is lost
def Handler.fail (w : World) : Handler → World
  | .sent _ _ | .commanded _ _ => w
  | .awaiting _ _ => w.goOn [.refreshing]
  | handler => w.goOn [handler]

inductive CommandKind where
  | undo
  | redo
  | reset
  deriving DecidableEq

def CommandKind.request (expectedRevision : Nat) : CommandKind → Api.EditRequest
  | .undo => .undo { expectedRevision }
  | .redo => .redo { expectedRevision }
  | .reset => .reset { expectedRevision }

/--
The server works on a request. A key that was drawn for it is not stored, so the request is answered by
its edit or by an error.
-/
def Flight.serve (flight : Flight) (s : Store) (failure : Failure) : Flight :=
  let handler := (flight.handler.step s).2
  let answer := match flight.handler.committing s with
    | some draft => some (.ok draft.revision)
    | none =>
      match flight.handler.phase, handler.phase with
      | .finished, _ => flight.answer
      | _, .finished => some (.error failure)
      | _, _ => flight.answer
  { flight with handler, answer }

-- the edit that the server applies, if it does now
def Flight.applies (flight : Flight) (s : Store) : List String :=
  bif flight.handler.commits s then flight.edit.toList else []

inductive Event where
  -- the browser
  | createDraft (response : Nat)
  | checkRecovery
  | setOnline (isOnline : Bool)
  | reconnect (response : Nat)
  | dispatchOperation (id : String) (now : Timestamp) (operation : Api.OperationDto)
  | command (kind : CommandKind) (draw : Draw)
  | reloadDraft (response : Nat)
  | acceptServerState
  | retryOperations
  | dismissConflict
  | replayRecovery
  | discardRecovery
  | resume (handler : Nat) (draw : Draw) (response : Nat)
  | lose (handler : Nat)
  | reloadPage
  -- the server
  | getDraft
  | serve (flight : Nat) (failure : Failure)
  | other (task : Api.Task)

def World.step (w : World) : Event → World
  | .createDraft response =>
    match w.page.isOpen, w.served[response]? with
    | false, some revision =>
      { w with page := { w.page with isOpen := true, revision } }.saveBaseRevision revision
    | _, _ => w
  | .checkRecovery =>
    if w.page.isOpen && !w.page.isChecked then
      let page := { w.page with isChecked := true }
      match w.unconfirmed draftId with
      | [] => { w with page }
      | ops => { w with page := { page with recoveryOps := ops } }
    else
      w
  | .setOnline isOnline => { w with page := { w.page with isOffline := !isOnline } }
  | .reconnect response =>
    match w.page.isOpen, w.served[response]? with
    | true, some revision =>
      if revision ≠ w.disk.baseRevision.getD w.page.revision then
        match w.unconfirmed draftId with
        | [] => w.setRevision revision
        | ops => w.setConflictState revision ops
      else
        w
    | _, _ => w
  | .dispatchOperation id now operation =>
    if w.page.isOpen && !w.page.isOffline then
      let op := pendingOperation draftId id now operation w.page.revision
      let pending := saveOperation draftId id now operation w.page.revision w.disk.pending
      { w with disk := { w.disk with pending } }.goOn [.saved op]
    else
      w
  | .command kind draw =>
    if w.page.isOpen && !w.page.isOffline then
      let w' := w.send draftId draw none (kind.request w.page.revision)
      w'.goOn [.commanded w.flights.length (kind = .reset)]
    else
      w
  | .reloadDraft response =>
    match w.served[response]? with
    | some revision => w.setRevision revision
    | none => w
  | .acceptServerState =>
    bif w.page.isOpen then
      (w.clearRecovery draftId).resolveConflict
    else
      w
  | .retryOperations =>
    bif w.page.isOpen then
      let revision := w.page.conflictRevision.getD w.page.revision
      w.resolveConflict.goOn [.replaying revision w.page.conflictLocalOps]
    else
      w
  | .dismissConflict => w.resolveConflict
  | .replayRecovery =>
    bif w.page.isOpen then
      w.goOn [.recovering w.page.recoveryOps]
    else
      w
  | .discardRecovery =>
    bif w.page.isOpen then
      w.clearRecovery draftId
    else
      w
  | .resume i draw response =>
    match w.page.handlers[i]? with
    | some handler =>
      let w' := { w with page := { w.page with handlers := w.page.handlers.eraseIdx i } }
      handler.resume draftId draw w.served[response]? w'
    | none => w
  | .lose i =>
    match w.page.handlers[i]? with
    | some handler =>
      handler.fail { w with page := { w.page with handlers := w.page.handlers.eraseIdx i } }
    | none => w
  | .reloadPage => { w with page := .loading }
  | .getDraft => { w with
      served := w.served ++ ((w.db.routeEditing.drafts.find? draftId.val).map (·.revision)).toList
    }
  | .serve i failure =>
    match w.flights[i]? with
    | some flight => { w with
        db := (Api.Task.step w.db (.edit flight.handler)).1
        flights := w.flights.set i (flight.serve w.db.routeEditing failure)
        applied := flight.applies w.db.routeEditing ++ w.applied
      }
    | none => w
  | .other task => { w with db := (task.step w.db).1 }

end Client

end RouteEditor
