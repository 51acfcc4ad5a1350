import Haiker.ActivityCatalog.Commands
import Haiker.Api.Legs

/-!
This module contains the endpoints of the activities and of their legs as programs over the statements that they
run, which the statements of other requests can get between. Alone, they do what the commands and the handler on
whole tables do. The audit log is left out. The database does not fail by itself.
-/

open Rust
open ActivityCatalog (Activity ActivityCatalogError ActivityId ActivityM CursorExternals)
open Identity (UserId)
open Pagination (Page)
open RecordedActivity
open RouteVersioning (SerdeErrors)

namespace Api

namespace Catalog

/-
The statements.
-/

inductive LegStatement where
  | listLegs (activityId : ActivityId)
  | findLeg (legId : LegId)
  | saveLeg (leg : Leg)
  | updateLeg (leg : Leg)
  | deleteLeg (legId : LegId)
  | nextLegNumber (activityId : ActivityId)
  | shiftLegs (now : Timestamp) (legId : LegId) (activityId : ActivityId) (currentPosition newPosition : Nat)
  | placeLeg (now : Timestamp) (legId : LegId) (newPosition : Nat)

abbrev LegStatement.Reply : LegStatement → Type
  | .listLegs _ => List Leg
  | .findLeg _ => Option Leg
  | .nextLegNumber _ => Nat
  | .saveLeg _ | .updateLeg _ | .deleteLeg _ | .shiftLegs .. | .placeLeg .. => Unit

-- the repository of the infrastructure crate is the one that the endpoints use
def LegStatement.execute : (statement : LegStatement) → LegM statement.Reply
  | .listLegs activityId => RecordedActivity.listLegs activityId
  | .findLeg legId => RecordedActivity.findLeg legId
  | .saveLeg leg => RecordedActivity.saveLeg leg
  | .updateLeg leg => RecordedActivity.updateLeg leg
  | .deleteLeg legId => RecordedActivity.deleteLeg legId
  | .nextLegNumber activityId => RecordedActivity.nextLegNumber activityId
  | .shiftLegs now legId activityId currentPosition newPosition =>
    LegMethod.shiftLegs .infrastructure now legId activityId currentPosition newPosition
  | .placeLeg now legId newPosition => LegMethod.placeLeg now legId newPosition

inductive Statement where
  | activity (command : ActivityCatalog.Command)
  | listActivities (cursors : CursorExternals) (ownerId : UserId) (cursor : Option String)
    (pageSize : Option Nat)
  | leg (statement : LegStatement)
  | getLegSummary (legId : LegId)

abbrev Statement.Reply : Statement → Type
  | .activity command => command.Reply
  | .listActivities .. => Except (Fault ActivityCatalogError) (Page Activity)
  | .leg statement => Except LegError statement.Reply
  | .getLegSummary _ => Option (LegSummary F64)

/--
The tables of the endpoints.
-/
structure Tables where
  db : Imports.Database
  legs : LegTable

def answer (errors : SerdeErrors) : (statement : Statement) → Tables → statement.Reply × Tables
  | .activity command, s =>
    ((ActivityCatalog.answer errors command s.db.toDatabase).1,
      { s with db := { s.db with
        toDatabase := (ActivityCatalog.answer errors command s.db.toDatabase).2
      } })
  | .listActivities cursors ownerId cursor pageSize, s =>
    (ActivityCatalog.listActivities cursors ownerId cursor pageSize s.db.activities, s)
  | .leg statement, s => ((statement.execute.run s.legs).1, { s with legs := (statement.execute.run s.legs).2 })
  | .getLegSummary legId, s => (PgLegRepository.getLegSummary s.legs s.db legId .infrastructure, s)

/-
The commands on legs.
-/

abbrev LegProgram := ExceptT LegError (Program Statement.Reply)

def legStatement (statement : LegStatement) : LegProgram statement.Reply :=
  ExceptT.mk (.call (Statement.leg statement))

def ofExcept {ε α : Type} (result : Except ε α) : ExceptT ε (Program Statement.Reply) α :=
  ExceptT.mk (.done result)

section LegCommands

variable (now : Timestamp) (legId : LegId)

def addLeg (activityId : ActivityId) (title : Option String) (date : NaiveDate)
    (sourceRevisionId : Option SourceRevisionId) (recordedTrackId : Option RecordedTrackId) : LegProgram Leg := do
  let legNumber ← legStatement (.nextLegNumber activityId)
  if MAX_LEGS_PER_ACTIVITY < legNumber then
    throw (.maxLegsExceeded activityId MAX_LEGS_PER_ACTIVITY)
  else
    let legTitle ← ofExcept (title.mapM LegTitle.new)
    let leg ← ofExcept (Leg.new now legId activityId legNumber legTitle date sourceRevisionId recordedTrackId)
    legStatement (.saveLeg leg)
    return leg

-- `find_leg(leg_id).await?.ok_or(LegNotFound { leg_id })?`
def loadLeg : LegProgram Leg := do
  match ← legStatement (.findLeg legId) with
  | some leg => return leg
  | none => throw (.legNotFound legId)

def renameLeg (newTitle : Option String) : LegProgram Leg := do
  let title ← ofExcept (newTitle.mapM LegTitle.new)
  let leg ← loadLeg legId
  legStatement (.updateLeg (leg.rename now title))
  return leg.rename now title

def updateLegDate (newDate : NaiveDate) : LegProgram Leg := do
  let leg ← loadLeg legId
  legStatement (.updateLeg (leg.updateDate now newDate))
  return leg.updateDate now newDate

def reorderLegs (activityId : ActivityId) (newPosition : Nat) : LegProgram Unit := do
  let currentLeg ← loadLeg legId
  if currentLeg.legNumber = newPosition then
    return ()
  else
    legStatement (.shiftLegs now legId activityId currentLeg.legNumber newPosition)
    legStatement (.placeLeg now legId newPosition)

def reorderLeg (newPosition : Nat) : LegProgram Unit := do
  if newPosition < 1 then
    throw (.invalidLegNumber newPosition "position must be at least 1")
  else if MAX_LEGS_PER_ACTIVITY < newPosition then
    throw (.maxLegsExceeded ⟨⟨0⟩⟩ MAX_LEGS_PER_ACTIVITY)
  else
    let leg ← loadLeg legId
    reorderLegs now legId leg.activityId newPosition

-- the loop of `remove_leg`, `idx` legs having been met
def renumber : Nat → List Leg → LegProgram Unit
  | _, [] => return ()
  | idx, remainingLeg :: remainingLegs => do
    let expectedNumber := idx + 1
    if remainingLeg.legNumber ≠ expectedNumber then
      let remainingLeg ← ofExcept (remainingLeg.updateLegNumber now expectedNumber)
      legStatement (.updateLeg remainingLeg)
    renumber (idx + 1) remainingLegs

def removeLeg : LegProgram Unit := do
  let leg ← loadLeg legId
  legStatement (.deleteLeg legId)
  let remainingLegs ← legStatement (.listLegs leg.activityId)
  renumber now 0 (remainingLegs.insertionSort fun a b => a.legNumber ≤ b.legNumber)

def getLegDetail : LegProgram LegDetail := do
  let leg ← loadLeg legId
  let summary ← ExceptT.lift (.call (Statement.getLegSummary legId))
  return { leg, summary }

end LegCommands

/-
The endpoints.
-/

abbrev Endpoint := ExceptT (Fault ApiError) (Program Statement.Reply)

-- `map_err(f)`, through which a panic goes
def mapFault {ε ε' : Type} (f : ε → ε') : Fault ε → Fault ε'
  | .err e => .err (f e)
  | .panic => .panic

def activityErrorToApiError : ActivityCatalogError → ApiError
  | .activityNotFound => activityNotFoundError
  -- not to be told from an activity that is not there
  | .unauthorized => activityNotFoundError
  | .invalidTitle message =>
    problem .unprocessableEntity "VALIDATION_FAILED" message "/problems/validation-failed" "Validation Failed"
  | .versionNotBelongsToActivity =>
    problem .unprocessableEntity "VERSION_NOT_BELONGS_TO_ACTIVITY" "version does not belong to this activity"
      "/problems/validation-failed" "Validation Failed"
  | .invalidCursor message =>
    problem .badRequest "INVALID_CURSOR" message "/problems/invalid-cursor" "Invalid Cursor"
  | .persistenceError _ =>
    problem .internalServerError "INTERNAL_ERROR" "a persistence error occurred" "/problems/internal-error"
      "Internal Server Error"

def overActivities {α : Type} : Program ActivityCatalog.Command.Reply α → Program Statement.Reply α
  | .done result => .done result
  | .ask command next => .ask (.activity command) fun reply => overActivities (next reply)

def activityMethod {α : Type} (method : ActivityM α) : Endpoint α :=
  ExceptT.adapt (mapFault activityErrorToApiError) (ExceptT.mk (overActivities method.run))

def legMethod {α : Type} (method : LegProgram α) : Endpoint α :=
  ExceptT.adapt (fun e => .err (legErrorToApiError e)) method

structure ActivitySummaryResponse where
  id : Uuid
  title : String
  activityType : String
  startedAt : Option Timestamp
  endedAt : Option Timestamp
  recordedSummary : Option Json
  correctedSummary : Option Json
  createdAt : Timestamp
  updatedAt : Timestamp

structure PaginationMeta where
  cursor : Option String
  hasMore : Bool
  pageSize : Nat

structure ActivityListResponse where
  items : List ActivitySummaryResponse
  pagination : PaginationMeta

structure LegSummaryResponse where
  id : Uuid
  legNumber : Nat
  title : Option String
  date : NaiveDate
  recordedSummary : Option (LegSummary F64)
  createdAt : Timestamp
  updatedAt : Timestamp

structure LegListResponse where
  items : List LegSummaryResponse

def activitySummaryResponse (a : Activity) : ActivitySummaryResponse where
  id := a.id.val
  title := a.title.text
  activityType := a.activityType.display
  startedAt := a.startedAt
  endedAt := a.endedAt
  recordedSummary := a.recordedSummary
  correctedSummary := a.correctedSummary
  createdAt := a.createdAt
  updatedAt := a.updatedAt

-- the answer to a change of the activity, without the legs
def activityResponse (activity : Activity) : ActivityDetailResponse F64 where
  id := activity.id.val
  title := activity.title.text
  activityType := activity.activityType.display
  startedAt := activity.startedAt
  endedAt := activity.endedAt
  lifecycleState := activity.lifecycleState.display
  recordedSummary := activity.recordedSummary
  correctedSummary := activity.correctedSummary
  currentRouteVersionId := activity.currentRouteVersionId.map (·.val)
  legs := none
  aggregatedStats := none
  createdAt := activity.createdAt
  updatedAt := activity.updatedAt

def legSummaryResponse : Leg × Option (LegSummary F64) → LegSummaryResponse
  | (leg, summary) => {
    id := leg.id.val
    legNumber := leg.legNumber
    title := leg.title.map (·.val)
    date := leg.date
    recordedSummary := summary
    createdAt := leg.createdAt
    updatedAt := leg.updatedAt
  }

def getActivities (cursors : CursorExternals) (ownerId : UserId) (cursor : Option String)
    (pageSize : Option Nat) : Endpoint ActivityListResponse := do
  let page ← ExceptT.adapt (mapFault activityErrorToApiError)
    (ExceptT.mk (.call (Statement.listActivities cursors ownerId cursor pageSize)))
  let items := page.items.map activitySummaryResponse
  return {
    items
    pagination := {
      cursor := page.nextCursor
      hasMore := page.hasMore
      pageSize := items.length % UInt32.size
    }
  }

section Endpoints

variable (now : Timestamp) (ownerId : UserId) (activityId : Uuid)

def getActivity : ActivityM Activity := do
  match (← ActivityM.findById ⟨activityId⟩).filter fun a => a.ownerId = ownerId ∧ a.lifecycleState ≠ .deleted with
  | some activity => return activity
  | none => throw (.err .activityNotFound)

-- a statement for each leg
def readSummaries : List Leg → Endpoint (List (Leg × Option (LegSummary F64)))
  | [] => return []
  | leg :: legs => do
    let summary ← ExceptT.lift (.call (Statement.getLegSummary leg.id))
    let rest ← readSummaries legs
    return (leg, summary) :: rest

-- what has been read, as the response is made from it
def replaying (legs : List (Leg × Option (LegSummary F64))) : LegRepository F64 where
  listLegs _ := .ok (legs.map (·.1))
  getLegSummary legId := .ok ((legs.find? fun entry => entry.1.id = legId).bind (·.2))

def getActivityDetail : Endpoint (ActivityDetailResponse F64) := do
  let activity ← activityMethod (getActivity ownerId activityId)
  -- `unwrap_or_default()`
  let reply ← ExceptT.lift (legStatement (.listLegs activity.id)).run
  let legs ← readSummaries (reply.toOption.getD [])
  return RecordedActivity.getActivityDetail (replaying legs) activity

def patchActivityTitle (title : String) : Endpoint (ActivityDetailResponse F64) := do
  let activity ← activityMethod (ActivityCatalog.renameActivity now ⟨activityId⟩ ownerId title)
  return activityResponse activity

def deleteActivityHandler : Endpoint Unit :=
  activityMethod (ActivityCatalog.deleteActivity now ⟨activityId⟩ ownerId)

-- of a header that is not there or not text, `none`
def extractIdempotencyKey : Option String → Except ApiError String
  | none =>
    .error (problem .badRequest "MISSING_IDEMPOTENCY_KEY" "Idempotency-Key header is required"
      "/problems/missing-idempotency-key" "Missing Idempotency Key")
  | some key =>
    if trim key = "" then
      .error (problem .badRequest "MISSING_IDEMPOTENCY_KEY" "Idempotency-Key header must not be empty"
        "/problems/missing-idempotency-key" "Missing Idempotency Key")
    else
      .ok key

-- the key is not looked at again
def postSelectCurrentRouteVersion (header : Option String) (routeVersionId : Uuid)
    : Endpoint (ActivityDetailResponse F64) := do
  let _ ← ofExcept ((extractIdempotencyKey header).mapError .err)
  let activity ← activityMethod
    (ActivityCatalog.selectCurrentRouteVersion now ⟨activityId⟩ ownerId ⟨routeVersionId⟩)
  return activityResponse activity

-- every error counts as an activity that is not there
def verifyActivityOwnership : Endpoint ActivityId := do
  let _ ← ExceptT.adapt (mapFault fun _ => activityNotFoundError)
    (ExceptT.mk (overActivities (getActivity ownerId activityId).run))
  return ⟨activityId⟩

def postAddLeg (newLegId : LegId) (title : Option String) (date : NaiveDate) : Endpoint LegDetailResponse := do
  let id ← verifyActivityOwnership ownerId activityId
  let leg ← legMethod (addLeg now newLegId id title date none none)
  return legDetailResponse { leg, summary := none }

def getLegs : Endpoint LegListResponse := do
  let id ← verifyActivityOwnership ownerId activityId
  let legs ← legMethod (legStatement (.listLegs id))
  let items ← readSummaries legs
  return { items := items.map legSummaryResponse }

variable (legId : LegId)

-- the leg is read before it is known whose it is
def getLegDetailHandler : Endpoint LegDetailResponse := do
  let _ ← verifyActivityOwnership ownerId activityId
  let detail ← legMethod (getLegDetail legId)
  if detail.leg.activityId.val ≠ activityId then
    throw (.err legNotFoundError)
  else
    return legDetailResponse detail

-- "Verify the leg belongs to the requested activity"
def verifyLeg : Endpoint Unit := do
  match ← legMethod (legStatement (.findLeg legId)) with
  | none => throw (.err legNotFoundError)
  | some existing =>
    if existing.activityId.val ≠ activityId then
      throw (.err legNotFoundError)
    else
      return ()

-- "Apply title update if present"
def patchTitle : Option (Option String) → Endpoint Unit
  | none => return ()
  | some title => do
    let _ ← legMethod (renameLeg now legId title)
    return ()

-- "Apply date update if present"
def patchDate : Option NaiveDate → Endpoint Unit
  | none => return ()
  | some newDate => do
    let _ ← legMethod (updateLegDate now legId newDate)
    return ()

-- "Apply reorder if present"
def patchPosition : Option Nat → Endpoint Unit
  | none => return ()
  | some newPosition => legMethod (reorderLeg now legId newPosition)

def patchLeg (body : UpdateLegRequest) : Endpoint LegDetailResponse := do
  let _ ← verifyActivityOwnership ownerId activityId
  verifyLeg activityId legId
  patchTitle now legId body.title
  patchDate now legId body.date
  patchPosition now legId body.legNumber
  let updatedDetail ← legMethod (getLegDetail legId)
  return legDetailResponse updatedDetail

def deleteLegHandler : Endpoint Unit := do
  let _ ← verifyActivityOwnership ownerId activityId
  verifyLeg activityId legId
  legMethod (removeLeg now legId)

end Endpoints

/-
The requests of all users.
-/

inductive Request where
  | getActivities (cursor : Option String) (pageSize : Option Nat)
  | getActivityDetail (activityId : Uuid)
  | patchActivityTitle (activityId : Uuid) (title : String)
  | deleteActivity (activityId : Uuid)
  | selectCurrentRouteVersion (activityId : Uuid) (idempotencyKey : Option String) (routeVersionId : Uuid)
  | addLeg (activityId : Uuid) (title : Option String) (date : NaiveDate)
  | getLegs (activityId : Uuid)
  | getLegDetail (activityId legId : Uuid)
  | patchLeg (activityId legId : Uuid) (body : UpdateLegRequest)
  | deleteLeg (activityId legId : Uuid)

inductive Response where
  | activities (body : ActivityListResponse)
  | activity (body : ActivityDetailResponse F64)
  | leg (body : LegDetailResponse)
  | legs (body : LegListResponse)
  | noContent

/--
A request with the user it is made for, its time and the id that `LegId::generate` draws for it.
-/
structure Call where
  user : UserId
  request : Request
  now : Timestamp
  newLegId : Uuid

def Call.endpoint (cursors : CursorExternals) (call : Call) : Endpoint Response :=
  match call.request with
  | .getActivities cursor pageSize => .activities <$> getActivities cursors call.user cursor pageSize
  | .getActivityDetail activityId => .activity <$> getActivityDetail call.user activityId
  | .patchActivityTitle activityId title =>
    .activity <$> patchActivityTitle call.now call.user activityId title
  | .deleteActivity activityId => (fun _ => .noContent) <$> deleteActivityHandler call.now call.user activityId
  | .selectCurrentRouteVersion activityId idempotencyKey routeVersionId =>
    .activity <$> postSelectCurrentRouteVersion call.now call.user activityId idempotencyKey routeVersionId
  | .addLeg activityId title date =>
    .leg <$> postAddLeg call.now call.user activityId ⟨call.newLegId⟩ title date
  | .getLegs activityId => .legs <$> getLegs call.user activityId
  | .getLegDetail activityId legId => .leg <$> getLegDetailHandler call.user activityId ⟨legId⟩
  | .patchLeg activityId legId body => .leg <$> patchLeg call.now call.user activityId ⟨legId⟩ body
  | .deleteLeg activityId legId =>
    (fun _ => .noContent) <$> deleteLegHandler call.now call.user activityId ⟨legId⟩

/-
What the programs do when they are alone.
-/

/--
When it is alone, the program does to the legs what the command does.
-/
def ActsAs {α : Type} (program : LegProgram α) (x : LegM α) : Prop :=
  ∀ errors s, Program.execute (answer errors) program s
    = ((x.run s.legs).1, { s with legs := (x.run s.legs).2 })

section ActsAs

variable {α β : Type}

theorem actsAs_pure (a : α) : ActsAs (pure a) (pure a) := fun _ _ => rfl

theorem actsAs_throw (e : LegError) : ActsAs (throw e : LegProgram α) (throw e) := fun _ _ => rfl

theorem actsAs_statement (statement : LegStatement) : ActsAs (legStatement statement) statement.execute :=
  fun _ _ => rfl

theorem actsAs_ofExcept (result : Except LegError α) : ActsAs (ofExcept result) (liftM result) := by
  cases result with
  | ok | error => exact fun _ _ => rfl

theorem ActsAs.bind {program : LegProgram α} {x : LegM α} {f : α → LegProgram β} {g : α → LegM β}
    (h : ActsAs program x) (hnext : ∀ a, ActsAs (f a) (g a)) : ActsAs (program >>= f) (x >>= g) := by
  intro errors s
  rw [Program.execute_bind, LegM.run_bind, h errors s]
  rcases x.run s.legs with ⟨e | a, t⟩
  . rfl
  . exact hnext a errors { s with legs := t }

/--
A leg that is not there ends both.
-/
theorem ActsAs.load {f : Leg → LegProgram α} {x : Option Leg → LegM α} (legId : LegId)
    (hnone : x none = throw (.legNotFound legId)) (hsome : ∀ leg, ActsAs (f leg) (x (some leg)))
    : ActsAs (loadLeg legId >>= f) (findLeg legId >>= x) := by
  intro errors s
  have hload : Program.execute (answer errors) (loadLeg legId) s
      = (((s.legs.legs.find? legId.val).map rowToLeg).elim (.error (.legNotFound legId)) .ok, s) := by
    unfold loadLeg
    rw [Program.execute_bind, actsAs_statement (.findLeg legId) errors s]
    cases hrow : s.legs.legs.find? legId.val with
    | none | some => simp [LegStatement.execute, run_findLeg, hrow]
  rw [Program.execute_bind, LegM.run_bind, hload, run_findLeg]
  cases (s.legs.legs.find? legId.val).map rowToLeg with
  | none =>
    simp only [hnone]
    rfl
  | some leg => exact hsome leg errors s

theorem actsAs_addLeg (now : Timestamp) (legId : LegId) (activityId : ActivityId) (title : Option String)
    (date : NaiveDate) (sourceRevisionId : Option SourceRevisionId) (recordedTrackId : Option RecordedTrackId)
    : ActsAs (addLeg now legId activityId title date sourceRevisionId recordedTrackId)
        (RecordedActivity.addLeg now legId activityId title date sourceRevisionId recordedTrackId) := by
  unfold addLeg RecordedActivity.addLeg
  apply (actsAs_statement (.nextLegNumber activityId)).bind
  intro legNumber
  split
  . exact actsAs_throw _
  . have htitle : ActsAs (ofExcept (title.mapM LegTitle.new))
        (title.mapM fun title => liftM (LegTitle.new title)) := by
      cases title with
      | none => exact fun _ _ => rfl
      | some title =>
        cases hnew : LegTitle.new title with
        | ok | error =>
          intro errors s
          simp only [Option.mapM_some, hnew]
          rfl
    apply htitle.bind
    intro legTitle
    apply (actsAs_ofExcept _).bind
    intro leg
    apply (actsAs_statement (.saveLeg leg)).bind
    exact fun _ => actsAs_pure leg

theorem actsAs_reorderLegs (now : Timestamp) (legId : LegId) (activityId : ActivityId) (newPosition : Nat)
    : ActsAs (reorderLegs now legId activityId newPosition)
        (PgLegRepository.infrastructure.reorderLegs now activityId legId newPosition) := by
  unfold reorderLegs PgLegRepository.reorderLegs PgLegRepository.currentPosition
  simp only [bind_assoc, pure_bind]
  apply ActsAs.load legId rfl
  intro leg
  simp only [Option.map_some]
  split
  . exact actsAs_pure ()
  . have hmoves : ActsAs _ (LegMethod.shiftLegs .infrastructure now legId activityId leg.legNumber newPosition
        >>= fun _ => LegMethod.placeLeg now legId newPosition) :=
      (actsAs_statement (.shiftLegs now legId activityId leg.legNumber newPosition)).bind fun _ =>
        actsAs_statement (.placeLeg now legId newPosition)
    unfold LegMethod.shiftLegs at hmoves
    by_cases hup : newPosition < leg.legNumber
    . rw [if_pos hup] at hmoves ⊢
      exact hmoves
    . rw [if_neg hup] at hmoves ⊢
      exact hmoves

theorem actsAs_reorderLeg (now : Timestamp) (legId : LegId) (newPosition : Nat)
    : ActsAs (reorderLeg now legId newPosition)
        (RecordedActivity.reorderLeg .infrastructure now legId newPosition) := by
  unfold reorderLeg RecordedActivity.reorderLeg
  split
  . exact actsAs_throw _
  . split
    . exact actsAs_throw _
    . exact .load legId rfl fun leg => actsAs_reorderLegs now legId leg.activityId newPosition

theorem actsAs_renumber (now : Timestamp) (idx : Nat) (legs : List Leg)
    : ActsAs (renumber now idx legs) (RecordedActivity.renumber now idx legs) := by
  induction legs generalizing idx with
  | nil => exact actsAs_pure ()
  | cons leg legs ih =>
    unfold renumber RecordedActivity.renumber
    dsimp only
    split
    . apply (actsAs_ofExcept (leg.updateLegNumber now (idx + 1))).bind
      intro leg
      exact (actsAs_statement (.updateLeg leg)).bind fun _ => ih (idx + 1)
    . exact ih (idx + 1)

theorem actsAs_removeLeg (now : Timestamp) (legId : LegId)
    : ActsAs (removeLeg now legId) (RecordedActivity.removeLeg now legId) := by
  unfold removeLeg RecordedActivity.removeLeg
  apply ActsAs.load legId rfl
  intro leg
  apply (actsAs_statement (.deleteLeg legId)).bind
  intro _
  apply (actsAs_statement (.listLegs leg.activityId)).bind
  exact fun _ => actsAs_renumber now 0 _

end ActsAs

/--
How a method ends, with what it leaves.
-/
def ended {ε σ α : Type} (result : Except ε α) (s : σ) : EStateM.Result ε σ α :=
  match result with
  | .ok a => .ok a s
  | .error e => .error e s

/--
When it is alone, the program does what the method does if none of its statements fails, up to the
number of statements. It leaves the other tables as they are.
-/
def Handles {ε ε' α : Type} (fault : ε' → Fault ε) (program : ExceptT ε' (Program Statement.Reply) α)
    (method : Imports.Database → Method ε (LegTable × Nat) α) : Prop :=
  ∀ errors s n, (Program.execute (answer errors) program s).2.db = s.db
    ∧ ∃ n', (method s.db).run (s.legs, n)
        = ended ((Program.execute (answer errors) program s).1.mapError fault)
          ((Program.execute (answer errors) program s).2.legs, n')

section Alone

variable {ε ε' α β : Type} {fault : ε' → Fault ε} {program : ExceptT ε' (Program Statement.Reply) α}
  {method : Imports.Database → Method ε (LegTable × Nat) α}

theorem handles_pure (a : α) : Handles fault (pure a) fun _ => pure a := fun _ _ n => ⟨rfl, n, rfl⟩

theorem handles_throw (e : ε') : Handles fault (throw e : ExceptT ε' (Program Statement.Reply) α)
    fun _ => throw (fault e) := fun _ _ n => ⟨rfl, n, rfl⟩

theorem Handles.bind {f : α → ExceptT ε' (Program Statement.Reply) β}
    {g : Imports.Database → α → Method ε (LegTable × Nat) β} (h : Handles fault program method)
    (hnext : ∀ a, Handles fault (f a) fun db => g db a)
    : Handles fault (program >>= f) fun db => method db >>= g db := by
  intro errors s n
  obtain ⟨hdb, n', hrun⟩ := h errors s n
  rw [Program.execute_bind, EStateM.run_bind, hrun]
  rcases hprogram : Program.execute (answer errors) program s with ⟨e | a, s'⟩
  . rw [hprogram] at hdb
    exact ⟨hdb, n', rfl⟩
  -- what comes next has the same other tables
  . rw [hprogram] at hdb
    rw [← hdb]
    exact hnext a errors s' n'

theorem ActsAs.handles {program : LegProgram α} {x : LegM α} {method : LegMethod α} (h : ActsAs program x)
    (hagrees : LegMethod.Agrees method x) : Handles .err program fun _ => method := by
  intro errors s n
  obtain ⟨n', hrun⟩ := hagrees s.legs n
  rw [h errors s, hrun]
  refine ⟨rfl, n', ?_⟩
  rcases x.run s.legs with ⟨_ | _, t⟩
  . rfl
  . rfl

theorem handles_statement (statement : LegStatement)
    : Handles .err (legStatement statement) fun _ => LegMethod.execute (fun _ => none) statement.execute :=
  (actsAs_statement statement).handles (LegMethod.agrees_execute statement.execute)

theorem handles_getLegSummary (legId : LegId)
    : Handles .err (ExceptT.lift (.call (Statement.getLegSummary legId)))
        fun db => LegMethod.execute (fun _ => none) do
          return PgLegRepository.infrastructure.getLegSummary (← get) db legId :=
  fun _ _ n => ⟨rfl, n + 1, rfl⟩

theorem handles_ofExcept (result : Except LegError α)
    : Handles .err (ofExcept result) fun _ => ofResult (result.mapError .err) := by
  cases result with
  | ok a => exact handles_pure a
  | error e => exact handles_throw e

theorem handles_loadLeg (legId : LegId)
    : Handles .err (loadLeg legId) fun _ => LegMethod.loadLeg (fun _ => none) legId := by
  unfold loadLeg LegMethod.loadLeg
  apply (handles_statement (.findLeg legId)).bind
  intro found
  cases found with
  | none => exact handles_throw _
  | some leg => exact handles_pure leg

theorem handles_renameLeg (now : Timestamp) (legId : LegId) (newTitle : Option String)
    : Handles .err (renameLeg now legId newTitle)
        fun _ => LegMethod.renameLeg (fun _ => none) now legId newTitle := by
  unfold renameLeg LegMethod.renameLeg
  apply (handles_ofExcept (newTitle.mapM LegTitle.new)).bind
  intro title
  apply (handles_loadLeg legId).bind
  intro leg
  apply (handles_statement (.updateLeg (leg.rename now title))).bind
  exact fun _ => handles_pure _

theorem handles_updateLegDate (now : Timestamp) (legId : LegId) (newDate : NaiveDate)
    : Handles .err (updateLegDate now legId newDate)
        fun _ => LegMethod.updateLegDate (fun _ => none) now legId newDate := by
  unfold updateLegDate LegMethod.updateLegDate
  apply (handles_loadLeg legId).bind
  intro leg
  apply (handles_statement (.updateLeg (leg.updateDate now newDate))).bind
  exact fun _ => handles_pure _

theorem handles_reorderLeg (now : Timestamp) (legId : LegId) (newPosition : Nat)
    : Handles .err (reorderLeg now legId newPosition)
        fun _ => LegMethod.reorderLeg (fun _ => none) .infrastructure now legId newPosition :=
  (actsAs_reorderLeg now legId newPosition).handles
    (LegMethod.agrees_reorderLeg .infrastructure now legId newPosition)

theorem handles_getLegDetail (legId : LegId)
    : Handles .err (getLegDetail legId) (LegMethod.getLegDetail (fun _ => none) .infrastructure legId) := by
  unfold getLegDetail LegMethod.getLegDetail
  apply (handles_loadLeg legId).bind
  intro leg
  apply (handles_getLegSummary legId).bind
  exact fun _ => handles_pure _

/-
The endpoint that changes a leg.
-/

theorem execute_adapt (errors : SerdeErrors) (g : ε → ε') (program : ExceptT ε (Program Statement.Reply) α)
    (s : Tables)
    : Program.execute (answer errors) (ExceptT.adapt g program) s
        = ((Program.execute (answer errors) program s).1.mapError g, (Program.execute (answer errors) program s).2) :=
  Program.run_bind (answer errors) program.run (fun result => pure (result.mapError g)) s

theorem Handles.adapt {ε₂ : Type} {g : ε' → Fault ε₂} {f : ε → ε₂} (h : Handles fault program method)
    (hfault : ∀ e, g e = mapFault f (fault e))
    : Handles id (ExceptT.adapt g program) fun db => mapErr f (method db) := by
  intro errors s n
  obtain ⟨hdb, n', hrun⟩ := h errors s n
  rw [execute_adapt]
  refine ⟨hdb, n', ?_⟩
  rw [run_mapErr, hrun]
  cases (Program.execute (answer errors) program s).1 with
  | ok a => rfl
  | error e =>
    simp only [Except.mapError, ended, hfault, id]
    cases fault e with
    | err | panic => rfl

theorem handles_legMethod {program : LegProgram α} {method : Imports.Database → LegMethod α}
    (h : Handles .err program method)
    : Handles id (legMethod program) fun db => mapErr legErrorToApiError (method db) :=
  h.adapt fun _ => rfl

theorem run_overActivities (errors : SerdeErrors) (program : Program ActivityCatalog.Command.Reply α) (s : Tables)
    : (overActivities program).run (answer errors) s
        = ((program.run (ActivityCatalog.answer errors) s.db.toDatabase).1,
          { s with db := { s.db with
            toDatabase := (program.run (ActivityCatalog.answer errors) s.db.toDatabase).2
          } }) := by
  induction program generalizing s with
  | done result => rfl
  | ask command next ih => exact ih _ _

theorem execute_overActivities (errors : SerdeErrors) (x : ActivityM α) (s : Tables)
    : Program.execute (answer errors) (ExceptT.mk (overActivities x.run)) s
        = ((Program.execute (ActivityCatalog.answer errors) x s.db.toDatabase).1,
          { s with db := { s.db with
            toDatabase := (Program.execute (ActivityCatalog.answer errors) x s.db.toDatabase).2
          } }) := run_overActivities errors x.run s

theorem execute_getActivity (errors : SerdeErrors) (ownerId : UserId) (activityId : Uuid)
    (db : RouteVersioning.Database)
    : Program.execute (ActivityCatalog.answer errors) (getActivity ownerId activityId) db
        = (ActivityCatalog.getActivity ⟨activityId⟩ ownerId db.activities, db) := by
  unfold getActivity ActivityCatalog.getActivity
  rw [Program.execute_bind]
  change Program.onOk (ActivityCatalog.PgActivityRepository.findById ⟨activityId⟩ db.activities, db) _ = _
  cases ActivityCatalog.PgActivityRepository.findById ⟨activityId⟩ db.activities with
  | error e => rfl
  | ok found =>
    rw [Program.onOk_ok]
    change _ = (Except.bind (.ok found) _, db)
    simp only [Except.bind]
    cases found.filter fun a => a.ownerId = ownerId ∧ a.lifecycleState ≠ .deleted with
    | none | some => rfl

theorem handles_verifyActivityOwnership (ownerId : UserId) (activityId : Uuid)
    : Handles id (verifyActivityOwnership ownerId activityId)
        fun db => Api.verifyActivityOwnership (fun _ => none) db ownerId activityId := by
  have hget : Handles id (ExceptT.mk (overActivities (getActivity ownerId activityId).run))
      fun db => Sql.statement (fun _ => none) .persistenceError fun legs : LegTable =>
        (ActivityCatalog.getActivity ⟨activityId⟩ ownerId db.activities, legs) := by
    intro errors s n
    rw [execute_overActivities, execute_getActivity]
    refine ⟨rfl, n + 1, ?_⟩
    unfold Sql.statement EStateM.run
    simp only
    cases ActivityCatalog.getActivity ⟨activityId⟩ ownerId s.db.activities with
    | ok | error => rfl
  exact (hget.adapt fun _ => rfl).bind fun _ => handles_pure _

-- what the handler makes of the leg it has found
def verifyFound (activityId : Uuid) : Option Leg → LegHandler Unit
  | none => fail legNotFoundError
  | some existing => if existing.activityId.val ≠ activityId then fail legNotFoundError else return ()

theorem handles_verifyLeg (activityId : Uuid) (legId : LegId)
    : Handles id (verifyLeg activityId legId) fun _ =>
        mapErr legErrorToApiError (LegMethod.execute (fun _ => none) (findLeg legId))
          >>= verifyFound activityId := by
  unfold verifyLeg
  apply (handles_legMethod (handles_statement (.findLeg legId))).bind
  intro found
  cases found with
  | none => exact handles_throw _
  | some existing =>
    simp only [verifyFound]
    split
    . exact handles_throw _
    . exact handles_pure ()

theorem handles_patchTitle (now : Timestamp) (legId : LegId) (title : Option (Option String))
    : Handles id (patchTitle now legId title) fun _ => Api.patchTitle (fun _ => none) now legId title := by
  cases title with
  | none => exact handles_pure ()
  | some title => exact (handles_legMethod (handles_renameLeg now legId title)).bind fun _ => handles_pure ()

theorem handles_patchDate (now : Timestamp) (legId : LegId) (date : Option NaiveDate)
    : Handles id (patchDate now legId date) fun _ => Api.patchDate (fun _ => none) now legId date := by
  cases date with
  | none => exact handles_pure ()
  | some newDate => exact (handles_legMethod (handles_updateLegDate now legId newDate)).bind fun _ => handles_pure ()

theorem handles_patchPosition (now : Timestamp) (legId : LegId) (position : Option Nat)
    : Handles id (patchPosition now legId position)
        fun _ => Api.patchPosition (fun _ => none) .infrastructure now legId position := by
  cases position with
  | none => exact handles_pure ()
  | some newPosition => exact handles_legMethod (handles_reorderLeg now legId newPosition)

theorem handles_patchLeg (now : Timestamp) (ownerId : UserId) (activityId : Uuid) (legId : LegId)
    (body : UpdateLegRequest)
    : Handles id (patchLeg now ownerId activityId legId body)
        fun db => Api.patchLeg (fun _ => none) .infrastructure now db legId ownerId activityId body := by
  unfold patchLeg Api.patchLeg
  apply (handles_verifyActivityOwnership ownerId activityId).bind
  intro _
  have hrest := (handles_verifyLeg activityId legId).bind fun _ =>
    (handles_patchTitle now legId body.title).bind fun _ =>
      (handles_patchDate now legId body.date).bind fun _ =>
        (handles_patchPosition now legId body.legNumber).bind fun _ =>
          (handles_legMethod (handles_getLegDetail legId)).bind fun detail =>
            handles_pure (legDetailResponse detail)
  convert hrest using 2 with db
  rw [bind_assoc]
  congr 1
  funext found
  cases found with
  | none => rfl
  | some existing =>
    simp only [verifyFound]
    split
    . rfl
    . rfl

/-
The endpoint that reads an activity.
-/

theorem execute_readSummaries (errors : SerdeErrors) (legs : List Leg) (s : Tables)
    : Program.execute (answer errors) (readSummaries legs) s
        = (.ok (legs.map fun leg => (leg, PgLegRepository.infrastructure.getLegSummary s.legs s.db leg.id)), s) := by
  induction legs with
  | nil => rfl
  | cons leg legs ih =>
    unfold readSummaries
    rw [Program.execute_bind]
    change Program.onOk (.ok (PgLegRepository.infrastructure.getLegSummary s.legs s.db leg.id), s) _ = _
    rw [Program.onOk_ok, Program.execute_bind, ih]
    rfl

theorem getLegSummary_replaying {f : LegId → Option (LegSummary F64)} {legs : List Leg} {leg : Leg}
    (hleg : leg ∈ legs)
    : (replaying (legs.map fun leg => (leg, f leg.id))).getLegSummary leg.id = .ok (f leg.id) := by
  unfold replaying
  simp only [Except.ok.injEq]
  cases hfound : (legs.map fun leg => (leg, f leg.id)).find? fun entry => entry.1.id = leg.id with
  | none =>
    rw [List.find?_eq_none] at hfound
    have := hfound _ (List.mem_map_of_mem hleg)
    simp at this
  | some entry =>
    have hid := List.find?_some hfound
    obtain ⟨found, _, rfl⟩ := List.mem_map.mp (List.mem_of_find?_eq_some hfound)
    simp only [decide_eq_true_eq] at hid
    simp [hid]

theorem detailLoop_congr {repo repo' : LegRepository F64} {legs : List Leg}
    (h : ∀ leg ∈ legs, repo.getLegSummary leg.id = repo'.getLegSummary leg.id)
    : detailLoop repo legs = detailLoop repo' legs := by
  unfold detailLoop
  apply List.foldl_ext
  intro loop leg hleg
  unfold DetailLoop.next
  rw [h leg hleg]

theorem getActivityDetail_replaying (legs : LegTable) (db : Imports.Database) (activity : Activity)
    : RecordedActivity.getActivityDetail
          (replaying ((((listLegs activity.id).run legs).1.toOption.getD []).map fun leg =>
            (leg, PgLegRepository.infrastructure.getLegSummary legs db leg.id))) activity
        = RecordedActivity.getActivityDetail (PgLegRepository.infrastructure.answering legs db) activity := by
  have hlist : ((PgLegRepository.infrastructure.answering legs db).listLegs activity.id).toOption.getD []
      = ((listLegs activity.id).run legs).1.toOption.getD [] := rfl
  have hreplayed : ∀ read : List Leg, ((replaying (read.map fun leg =>
      (leg, PgLegRepository.infrastructure.getLegSummary legs db leg.id))).listLegs activity.id).toOption.getD []
      = read := by
    intro read
    simp only [replaying, List.map_map, Function.comp_def, List.map_id']
    rfl
  have hloop : ∀ read : List Leg, detailLoop (replaying (read.map fun leg =>
      (leg, PgLegRepository.infrastructure.getLegSummary legs db leg.id))) read
      = detailLoop (PgLegRepository.infrastructure.answering legs db) read :=
    fun _ => detailLoop_congr fun _ =>
      getLegSummary_replaying (f := fun id => PgLegRepository.infrastructure.getLegSummary legs db id)
  unfold RecordedActivity.getActivityDetail
  simp only [hlist, hreplayed, hloop]

theorem execute_getActivityDetail (errors : SerdeErrors) (ownerId : UserId) (activityId : Uuid) (s : Tables)
    : Program.execute (answer errors) (getActivityDetail ownerId activityId) s
        = (((ActivityCatalog.getActivity ⟨activityId⟩ ownerId s.db.activities).mapError
            (mapFault activityErrorToApiError)).map
              (RecordedActivity.getActivityDetail (PgLegRepository.infrastructure.answering s.legs s.db)), s) := by
  unfold getActivityDetail activityMethod
  rw [Program.execute_bind, execute_adapt, execute_overActivities, execute_getActivity]
  cases ActivityCatalog.getActivity ⟨activityId⟩ ownerId s.db.activities with
  | error e => rfl
  | ok activity =>
    simp only [Except.mapError, Program.onOk_ok]
    rw [Program.execute_bind]
    have hlist : Program.execute (answer errors)
        (ExceptT.lift (legStatement (.listLegs activity.id)).run : Endpoint _) s
        = (.ok ((RecordedActivity.listLegs activity.id).run s.legs).1, s) := rfl
    rw [hlist, Program.onOk_ok, Program.execute_bind, execute_readSummaries, Program.onOk_ok]
    rw [getActivityDetail_replaying]
    rfl

end Alone

end Catalog

end Api
