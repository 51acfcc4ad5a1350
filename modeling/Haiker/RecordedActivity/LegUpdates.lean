import Haiker.RecordedActivity.LegPersistence
import Haiker.RecordedActivity.LegStats
import Haiker.RecordedActivity.Lemmas.Legs
import Haiker.Sql.Statements

/-!
This module contains the commands that change one leg. Their statements run without a transaction around
them, and each one may fail.
-/

open Rust
open Sql (Faults)
open ActivityCatalog (ActivityId)

namespace RecordedActivity

structure LegDetail where
  leg : Leg
  summary : Option (LegSummary F64)

abbrev LegMethod := Method LegError (LegTable × Nat)

namespace LegMethod

section Commands

variable (faults : Faults)

def execute {α : Type} (x : LegM α) : LegMethod α :=
  Sql.statement faults .persistence fun t => ((x.run t).1.mapError .err, (x.run t).2)

variable (repo : PgLegRepository) (now : Timestamp) (legId : LegId)

-- `find_leg(leg_id).await?.ok_or(LegNotFound { leg_id })?`
def loadLeg : LegMethod Leg := do
  match ← execute faults (findLeg legId) with
  | some leg => return leg
  | none => fail (.legNotFound legId)

def renameLeg (newTitle : Option String) : LegMethod Leg := do
  let title ← ofResult ((newTitle.mapM LegTitle.new).mapError .err)
  let leg ← loadLeg faults legId
  let leg := leg.rename now title
  execute faults (updateLeg leg)
  return leg

def updateLegDate (newDate : NaiveDate) : LegMethod Leg := do
  let leg ← loadLeg faults legId
  let leg := leg.updateDate now newDate
  execute faults (updateLeg leg)
  return leg

theorem id_incremented (now : Timestamp) (row : LegRow)
    : { row with legNumber := row.legNumber + 1, updatedAt := now }.id = row.id := rfl

theorem id_decremented (now : Timestamp) (row : LegRow)
    : { row with legNumber := row.legNumber - 1, updatedAt := now }.id = row.id := rfl

theorem id_numbered (now : Timestamp) (number : Nat) (row : LegRow)
    : { row with legNumber := number, updatedAt := now }.id = row.id := rfl

-- the statement that makes room for the moved leg
def shiftLegs (activityId : ActivityId) (currentPosition newPosition : Nat) : LegM Unit :=
  if newPosition < currentPosition then
    -- moving up
    executeUpdate
      (fun row => row.activityId = activityId.val ∧ newPosition ≤ row.legNumber
        ∧ row.legNumber < currentPosition ∧ repo.shifts legId row)
      (fun row => { row with legNumber := row.legNumber + 1, updatedAt := now })
      (id_incremented now)
  else
    -- moving down
    executeUpdate
      (fun row => row.activityId = activityId.val ∧ currentPosition < row.legNumber
        ∧ row.legNumber ≤ newPosition ∧ repo.shifts legId row)
      (fun row => { row with legNumber := row.legNumber - 1, updatedAt := now })
      (id_decremented now)

def placeLeg (newPosition : Nat) : LegM Unit :=
  executeUpdate (fun row => row.id = legId.val)
    (fun row => { row with legNumber := newPosition, updatedAt := now })
    (id_numbered now newPosition)

def reorderLegs (activityId : ActivityId) (newPosition : Nat) : LegMethod Unit := do
  match ← execute faults (repo.currentPosition activityId legId) with
  | none => fail (.legNotFound legId)
  | some currentPosition =>
    if currentPosition = newPosition then
      return ()
    else
      execute faults (shiftLegs repo now legId activityId currentPosition newPosition)
      execute faults (placeLeg now legId newPosition)

def reorderLeg (newPosition : Nat) : LegMethod Unit := do
  if newPosition < 1 then
    fail (.invalidLegNumber newPosition "position must be at least 1")
  else if MAX_LEGS_PER_ACTIVITY < newPosition then
    fail (.maxLegsExceeded ⟨⟨0⟩⟩ MAX_LEGS_PER_ACTIVITY)
  else
    let leg ← loadLeg faults legId
    reorderLegs faults repo now legId leg.activityId newPosition

def getLegDetail (db : Imports.Database) : LegMethod LegDetail := do
  let leg ← loadLeg faults legId
  let summary ← execute faults do return repo.getLegSummary (← get) db legId
  return { leg, summary }

end Commands

/-
Without failures of statements.
-/

/--
The method does what the command does.
-/
def Agrees {α : Type} (m : LegMethod α) (x : LegM α) : Prop :=
  ∀ t n, ∃ n', m.run (t, n)
    = match x.run t with
      | (.ok a, t') => .ok a (t', n')
      | (.error e, t') => .error (.err e) (t', n')

section Agreement

variable {α β : Type} {m : LegMethod α} {x : LegM α}

theorem agrees_pure (a : α) : Agrees (pure a) (pure a) := fun _ n => ⟨n, rfl⟩

theorem agrees_fail (e : LegError) : Agrees (fail e : LegMethod α) (throw e) := fun _ n => ⟨n, rfl⟩

theorem agrees_execute (x : LegM α) : Agrees (execute (fun _ => none) x) x := by
  intro t n
  refine ⟨n + 1, ?_⟩
  unfold execute Sql.statement EStateM.run
  simp only
  rcases x.run t with ⟨_ | _, t'⟩
  . rfl
  . rfl

theorem Agrees.bind {f : α → LegMethod β} {g : α → LegM β} (h : Agrees m x)
    (hnext : ∀ a, Agrees (f a) (g a)) : Agrees (m >>= f) (x >>= g) := by
  intro t n
  obtain ⟨n', hrun⟩ := h t n
  rw [EStateM.run_bind, LegM.run_bind, hrun]
  rcases x.run t with ⟨e | a, t'⟩
  . exact ⟨n', rfl⟩
  . exact hnext a t' n'

theorem agrees_reorderLegs (repo : PgLegRepository) (now : Timestamp) (legId : LegId)
    (activityId : ActivityId) (newPosition : Nat)
    : Agrees (reorderLegs (fun _ => none) repo now legId activityId newPosition)
        (repo.reorderLegs now activityId legId newPosition) := by
  unfold reorderLegs PgLegRepository.reorderLegs
  apply (agrees_execute _).bind
  intro current
  cases current with
  | none => exact agrees_fail _
  | some currentPosition =>
    simp only
    split
    . exact agrees_pure ()
    . unfold shiftLegs
      split
      . exact (agrees_execute _).bind fun _ => agrees_execute _
      . exact (agrees_execute _).bind fun _ => agrees_execute _

theorem agrees_reorderLeg (repo : PgLegRepository) (now : Timestamp) (legId : LegId) (newPosition : Nat)
    : Agrees (reorderLeg (fun _ => none) repo now legId newPosition)
        (RecordedActivity.reorderLeg repo now legId newPosition) := by
  unfold reorderLeg RecordedActivity.reorderLeg
  split
  . exact agrees_fail _
  . split
    . exact agrees_fail _
    . unfold loadLeg
      rw [bind_assoc]
      apply (agrees_execute _).bind
      intro found
      cases found with
      | none => exact agrees_fail _
      | some leg => exact agrees_reorderLegs repo now legId leg.activityId newPosition

end Agreement

end LegMethod

end RecordedActivity
