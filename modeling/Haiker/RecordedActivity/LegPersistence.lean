import Haiker.RecordedActivity.ValueObjects
import Haiker.Sql.Table

/-!
This module contains the table `recorded_activity.legs` with its unique constraints, the statements of the
leg repositories, and the commands that change which legs an activity has, and in which order. There are two
repositories, which only differ in how they reorder.
-/

open ActivityCatalog (ActivityId)

namespace RecordedActivity

structure LegRow where
  id : Uuid
  activityId : Uuid
  legNumber : Nat
  title : Option String
  date : NaiveDate
  sourceRevisionId : Option Uuid
  recordedTrackId : Option Uuid
  createdAt : Timestamp
  updatedAt : Timestamp

-- the columns of `UNIQUE(activity_id, leg_number)`
def LegRow.place (row : LegRow) : Uuid × Nat := (row.activityId, row.legNumber)

structure LegTable where
  legs : Sql.Table LegRow.id
  unique : (legs.rows.map LegRow.place).Nodup

namespace LegTable

def empty : LegTable where
  legs := .empty
  unique := List.nodup_nil

/--
`UPDATE legs SET f WHERE p`, `none` if two rows then have the same place. A check after each row refuses
no less.
-/
def update? (t : LegTable) (p : LegRow → Bool) (f : LegRow → LegRow) (hf : ∀ row, (f row).id = row.id)
    : Option LegTable :=
  let legs := t.legs.updateWhere p f hf
  if h : (legs.rows.map LegRow.place).Nodup then some ⟨legs, h⟩ else none

/--
`INSERT INTO legs`, with the name of the constraint that refuses it.
-/
def insert (t : LegTable) (row : LegRow) : Except String LegTable :=
  match t.legs.insert? row with
  | none => throw "legs_pkey"
  | some legs =>
    if h : (legs.rows.map LegRow.place).Nodup then
      return ⟨legs, h⟩
    else
      throw "legs_activity_id_leg_number_key"

/--
`DELETE FROM legs WHERE id = $1`
-/
def delete (t : LegTable) (id : Uuid) : LegTable where
  legs := t.legs.deleteWhere fun row => row.id = id
  unique := (List.Sublist.map LegRow.place List.filter_sublist).nodup t.unique

/--
The leg numbers of an activity.
-/
def numbers (t : LegTable) (activityId : Uuid) : List Nat :=
  (t.legs.rows.filter fun row => row.activityId = activityId).map (·.legNumber)

end LegTable

-- statements without a transaction around them
abbrev LegM := ExceptT LegError (StateM LegTable)

def LegM.run {α : Type} (x : LegM α) (t : LegTable) : Except LegError α × LegTable :=
  StateT.run (ExceptT.run x) t

def uniqueViolation (constraint : String) : LegError :=
  .persistence ("error returned from database: duplicate key value violates unique constraint \""
    ++ constraint ++ "\"")

-- an `UPDATE` that may be refused
def executeUpdate (p : LegRow → Bool) (f : LegRow → LegRow) (hf : ∀ row, (f row).id = row.id)
    : LegM Unit := do
  match (← get).update? p f hf with
  | some t => set t
  | none => throw (uniqueViolation "legs_activity_id_leg_number_key")

def rowToLeg (row : LegRow) : Leg where
  id := ⟨row.id⟩
  activityId := ⟨row.activityId⟩
  legNumber := row.legNumber
  title := row.title.bind fun title => (LegTitle.new title).toOption
  date := row.date
  sourceRevisionId := row.sourceRevisionId.map .mk
  recordedTrackId := row.recordedTrackId.map .mk
  createdAt := row.createdAt
  updatedAt := row.updatedAt

-- what is bound to the `INSERT`
def Leg.toRow (leg : Leg) : LegRow where
  id := leg.id.val
  activityId := leg.activityId.val
  legNumber := leg.legNumber
  title := leg.title.map (·.val)
  date := leg.date
  sourceRevisionId := leg.sourceRevisionId.map (·.val)
  recordedTrackId := leg.recordedTrackId.map (·.val)
  createdAt := leg.createdAt
  updatedAt := leg.updatedAt

def listLegs (activityId : ActivityId) : LegM (List Leg) := do
  let t ← get
  return (t.legs.selectOrdered (fun row => row.activityId = activityId.val) (·.legNumber)).map rowToLeg

def findLeg (legId : LegId) : LegM (Option Leg) := do
  return ((← get).legs.find? legId.val).map rowToLeg

def saveLeg (leg : Leg) : LegM Unit := do
  match (← get).insert leg.toRow with
  | .ok t => set t
  | .error constraint => throw (uniqueViolation constraint)

def updateLeg (leg : Leg) : LegM Unit :=
  executeUpdate (fun row => row.id = leg.id.val)
    (fun row => { row with
      legNumber := leg.legNumber
      title := leg.title.map (·.val)
      date := leg.date
      sourceRevisionId := leg.sourceRevisionId.map (·.val)
      recordedTrackId := leg.recordedTrackId.map (·.val)
      updatedAt := leg.updatedAt
    })
    (fun _ => rfl)

def deleteLeg (legId : LegId) : LegM Unit := modify (·.delete legId.val)

-- `SELECT MAX(leg_number)`, `0` if there is no leg
def nextLegNumber (activityId : ActivityId) : LegM Nat := do
  return ((← get).numbers activityId.val).foldr max 0 + 1

-- the two repositories of that name
inductive PgLegRepository where
  | platform
  | infrastructure

namespace PgLegRepository

-- the number of the leg to be moved
def currentPosition (activityId : ActivityId) (legId : LegId) : PgLegRepository → LegM (Option Nat)
  | .platform => do
    return (((← get).legs.find? legId.val).filter fun row => row.activityId = activityId.val).map
      (·.legNumber)
  | .infrastructure => do
    return (← findLeg legId).map (·.legNumber)

-- `AND id != $4`
def shifts (legId : LegId) (row : LegRow) : PgLegRepository → Bool
  | .platform => true
  | .infrastructure => row.id ≠ legId.val

def reorderLegs (now : Timestamp) (activityId : ActivityId) (legId : LegId) (newPosition : Nat)
    (repo : PgLegRepository) : LegM Unit := do
  match ← repo.currentPosition activityId legId with
  | none => throw (.legNotFound legId)
  | some currentPosition =>
    if currentPosition = newPosition then
      return ()
    if newPosition < currentPosition then
      -- moving up
      executeUpdate
        (fun row => row.activityId = activityId.val ∧ newPosition ≤ row.legNumber
          ∧ row.legNumber < currentPosition ∧ repo.shifts legId row)
        (fun row => { row with legNumber := row.legNumber + 1, updatedAt := now })
        (fun _ => rfl)
    else
      -- moving down
      executeUpdate
        (fun row => row.activityId = activityId.val ∧ currentPosition < row.legNumber
          ∧ row.legNumber ≤ newPosition ∧ repo.shifts legId row)
        (fun row => { row with legNumber := row.legNumber - 1, updatedAt := now })
        (fun _ => rfl)
    executeUpdate (fun row => row.id = legId.val)
      (fun row => { row with legNumber := newPosition, updatedAt := now })
      (fun _ => rfl)

end PgLegRepository

-- `id` is the one that the new leg gets
def addLeg (now : Timestamp) (id : LegId) (activityId : ActivityId) (title : Option String)
    (date : NaiveDate) (sourceRevisionId : Option SourceRevisionId)
    (recordedTrackId : Option RecordedTrackId) : LegM Leg := do
  let legNumber ← nextLegNumber activityId
  if MAX_LEGS_PER_ACTIVITY < legNumber then
    throw (.maxLegsExceeded activityId MAX_LEGS_PER_ACTIVITY)
  let legTitle ← title.mapM fun title => liftM (LegTitle.new title)
  let leg ← liftM (Leg.new now id activityId legNumber legTitle date sourceRevisionId recordedTrackId)
  saveLeg leg
  return leg

def reorderLeg (repo : PgLegRepository) (now : Timestamp) (legId : LegId) (newPosition : Nat)
    : LegM Unit := do
  if newPosition < 1 then
    throw (.invalidLegNumber newPosition "position must be at least 1")
  if MAX_LEGS_PER_ACTIVITY < newPosition then
    throw (.maxLegsExceeded ⟨⟨0⟩⟩ MAX_LEGS_PER_ACTIVITY)
  match ← findLeg legId with
  | none => throw (.legNotFound legId)
  | some leg => repo.reorderLegs now leg.activityId legId newPosition

-- the loop of `remove_leg`, `idx` legs having been met
def renumber (now : Timestamp) : Nat → List Leg → LegM Unit
  | _, [] => return ()
  | idx, remainingLeg :: remainingLegs => do
    let expectedNumber := idx + 1
    if remainingLeg.legNumber ≠ expectedNumber then
      let remainingLeg ← liftM (remainingLeg.updateLegNumber now expectedNumber)
      updateLeg remainingLeg
    renumber now (idx + 1) remainingLegs

def removeLeg (now : Timestamp) (legId : LegId) : LegM Unit := do
  match ← findLeg legId with
  | none => throw (.legNotFound legId)
  | some leg =>
    deleteLeg legId
    let remainingLegs ← listLegs leg.activityId
    renumber now 0 (remainingLegs.insertionSort fun a b => a.legNumber ≤ b.legNumber)

inductive LegCommand where
  | addLeg (now : Timestamp) (id : LegId) (activityId : ActivityId) (title : Option String)
    (date : NaiveDate) (sourceRevisionId : Option SourceRevisionId)
    (recordedTrackId : Option RecordedTrackId)
  | reorderLeg (now : Timestamp) (legId : LegId) (newPosition : Nat)
  | removeLeg (now : Timestamp) (legId : LegId)

def LegCommand.execute (repo : PgLegRepository) : LegCommand → LegM Unit
  | .addLeg now id activityId title date sourceRevisionId recordedTrackId => do
    let _ ← RecordedActivity.addLeg now id activityId title date sourceRevisionId recordedTrackId
  | .reorderLeg now legId newPosition => RecordedActivity.reorderLeg repo now legId newPosition
  | .removeLeg now legId => RecordedActivity.removeLeg now legId

end RecordedActivity
