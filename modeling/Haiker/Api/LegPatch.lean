import Haiker.Api.Legs
import Haiker.RecordedActivity.LegAttempts

/-!
This module contains when the handler that changes a leg stores all that is requested, or else nothing.
-/

open Rust
open Sql (Attempt Ends Faults Harmless)
open RecordedActivity

namespace Api

/--
The leg has its title, date and number, and the legs of its activity have their numbers.
-/
structure LegUnchanged (legId : LegId) (t t' : LegTable) : Prop where
  leg : (t'.legs.find? legId.val).map (fun row => (row.title, row.date, row.legNumber))
    = (t.legs.find? legId.val).map fun row => (row.title, row.date, row.legNumber)
  siblings : ∀ id row other, t.legs.find? legId.val = some row → t.legs.find? id = some other →
    other.activityId = row.activityId → (t'.legs.find? id).map (·.legNumber) = some other.legNumber

/--
The leg has what is requested, of which the title is without the white space around it.
-/
def LegStored (legId : LegId) (body : UpdateLegRequest) (t : LegTable) : Prop :=
  ∃ row, t.legs.find? legId.val = some row
    ∧ (∀ title, body.title = some title → row.title = title.map trim)
    ∧ (∀ date, body.date = some date → row.date = date)
    ∧ ∀ legNumber, body.legNumber = some legNumber → row.legNumber = legNumber

section Patch

variable (faults : Faults) (repo : PgLegRepository) (now : Timestamp) (db : Imports.Database) (legId : LegId)
  (userId : Identity.UserId) (activityId : Uuid) (body : UpdateLegRequest) (t : LegTable)

/--
A request that fails changes nothing, and after one that succeeds all is stored.
-/
structure AllOrNothing : Prop where
  failure : ∀ e, outcome (patchLeg faults repo now db legId userId activityId body) (t, 0) = .error e →
    LegUnchanged legId t (after (patchLeg faults repo now db legId userId activityId body) (t, 0)).1
  success : ∀ response,
    outcome (patchLeg faults repo now db legId userId activityId body) (t, 0) = .ok response →
      LegStored legId body (after (patchLeg faults repo now db legId userId activityId body) (t, 0)).1

-- the statements of the request, if none of them fails
def patchAttempts : List Attempt :=
  { refused := !(ActivityCatalog.getActivity ⟨activityId⟩ userId db.activities).isOk, changes := false }
  :: match t.legs.find? legId.val with
    | none => [{ refused := true, changes := false }]
    | some row =>
      { refused := row.activityId ≠ activityId, changes := false }
      :: (body.title.elim [] (titleAttempts row.title)
        ++ (body.date.elim [] (dateAttempts (body.title.elim row.title storedTitle) row.date)
        ++ (body.legNumber.elim [] (positionAttempts row.legNumber (t.numbers row.activityId))
        -- the leg that is answered with
        ++ [{ refused := false, changes := false }, { refused := false, changes := false }])))

end Patch

variable {faults : Faults} {repo : PgLegRepository} {now : Timestamp} {db : Imports.Database} {legId : LegId}
  {userId : Identity.UserId} {activityId : Uuid} {body : UpdateLegRequest} {t t' : LegTable} {row : LegRow}

/-
What has been changed so far.
-/

theorem legUnchanged_refl (legId : LegId) (t : LegTable) : LegUnchanged legId t t where
  leg := rfl
  siblings := by
    intro id row other _ hother _
    rw [hother, Option.map_some]

theorem unchanged_of_rewrites {row' : LegRow} (hrow : t.legs.find? legId.val = some row)
    (h : t.Rewrites t' row') (hid : row'.id = legId.val) (hnumber : row'.legNumber = row.legNumber)
    : LegUnchanged legId t t' ↔ row'.title = row.title ∧ row'.date = row.date := by
  have hleg : t'.legs.find? legId.val = some row' := by
    rw [← hid]
    exact h.leg
  constructor
  . intro hunchanged
    have hsame := hunchanged.leg
    rw [hleg, hrow, Option.map_some, Option.map_some, Option.some.injEq, Prod.mk.injEq, Prod.mk.injEq] at hsame
    exact ⟨hsame.1, hsame.2.1⟩
  . rintro ⟨htitle, hdate⟩
    constructor
    . rw [hleg, hrow, Option.map_some, Option.map_some, htitle, hdate, hnumber]
    . intro id _ other _ hother _
      by_cases hsame : id = legId.val
      . rw [hsame, hrow, Option.some.injEq] at hother
        rw [hsame, hleg, Option.map_some, hnumber, hother]
      . rw [h.others id (hid ▸ hsame), hother, Option.map_some]

theorem mem_numbers_of_rewrites {row' : LegRow} (hrow : t.legs.find? legId.val = some row)
    (h : t.Rewrites t' row') (hid : row'.id = legId.val) (hactivity : row'.activityId = row.activityId)
    (hnumber : row'.legNumber = row.legNumber) (number : Nat)
    : number ∈ t'.numbers row.activityId ↔ number ∈ t.numbers row.activityId := by
  have hleg : t'.legs.find? legId.val = some row' := by
    rw [← hid]
    exact h.leg
  have hsame : ∀ id, (t'.legs.find? id).map (fun row => (row.activityId, row.legNumber))
      = (t.legs.find? id).map fun row => (row.activityId, row.legNumber) := by
    intro id
    by_cases hk : id = legId.val
    . rw [hk, hleg, hrow, Option.map_some, Option.map_some, hactivity, hnumber]
    . rw [h.others id (hid ▸ hk)]
  have hiff : ∀ t : LegTable, number ∈ t.numbers row.activityId
      ↔ ∃ id, (t.legs.find? id).map (fun row => (row.activityId, row.legNumber))
        = some (row.activityId, number) := by
    intro t
    simp only [LegTable.mem_numbers, Option.map_eq_some_iff, Prod.mk.injEq]
  rw [hiff, hiff]
  simp only [hsame]

theorem unchanged_of_shifts {t'' : LegTable} {row' : LegRow} {newPosition : Nat}
    (hrow : t.legs.find? legId.val = some row) (h : t.Rewrites t' row') (hid : row'.id = legId.val)
    (hactivity : row'.activityId = row.activityId) (hnumber : row'.legNumber = row.legNumber)
    (hshifts : t'.Shifts t'' row' newPosition)
    : LegUnchanged legId t t''
        ↔ LegUnchanged legId t t'
          ∧ (t'.numbers row'.activityId).any (makesRoom row'.legNumber newPosition) = false := by
  have hleg := hshifts.leg
  have hleg' := h.leg
  rw [hid] at hleg hleg'
  constructor
  . intro hunchanged
    constructor
    . rw [unchanged_of_rewrites hrow h hid hnumber]
      have hsame := hunchanged.leg
      rw [hleg, hrow, Option.map_some, Option.map_some, Option.some.injEq, Prod.mk.injEq, Prod.mk.injEq] at hsame
      exact ⟨hsame.1, hsame.2.1⟩
    . rw [List.any_eq_false]
      intro number hmem
      obtain ⟨id, other, hother, hof, rfl⟩ := LegTable.mem_numbers.mp hmem
      rw [Bool.not_eq_true]
      by_cases hk : id = legId.val
      . rw [hk, hleg', Option.some.injEq] at hother
        rw [← hother, makesRoom_self]
      . rw [← hshifts.others id other hother hof]
        rw [h.others id (hid ▸ hk)] at hother
        exact hunchanged.siblings id row other hrow hother (hof.trans hactivity)
  . rintro ⟨hunchanged, hany⟩
    constructor
    . rw [hleg, ← hleg']
      exact hunchanged.leg
    . intro id found other hfound hother hof
      rw [hrow, Option.some.injEq] at hfound
      rw [← hfound, ← hactivity] at hof
      by_cases hk : id = legId.val
      . rw [hk, hrow, Option.some.injEq] at hother
        rw [hk, hleg, Option.map_some, hnumber, hother]
      . rw [← h.others id (hid ▸ hk)] at hother
        rw [hshifts.others id other hother hof, ← Bool.not_eq_true]
        exact List.any_eq_false.mp hany other.legNumber (LegTable.mem_numbers.mpr ⟨id, other, hother, hof, rfl⟩)

theorem changed_of_moved {row' : LegRow} (hrow : t.legs.find? legId.val = some row)
    (hleg : t'.legs.find? legId.val = some row') (hne : row'.legNumber ≠ row.legNumber)
    : ¬LegUnchanged legId t t' := by
  intro hunchanged
  have hsame := hunchanged.leg
  rw [hleg, hrow, Option.map_some, Option.map_some, Option.some.injEq, Prod.mk.injEq, Prod.mk.injEq] at hsame
  exact hne hsame.2.2

/-
The row after its fields have been changed.
-/

def retitled (now : Timestamp) (title : Option (Option String)) (row : LegRow) : LegRow :=
  title.elim row fun title => { row with title := storedTitle title, updatedAt := now }

def redated (now : Timestamp) (date : Option NaiveDate) (row : LegRow) : LegRow :=
  date.elim row fun date => { row with title := storedTitle row.title, date, updatedAt := now }

@[simp]
theorem id_retitled (title : Option (Option String)) : (retitled now title row).id = row.id := by
  cases title with
  | none | some => rfl

@[simp]
theorem activityId_retitled (title : Option (Option String))
    : (retitled now title row).activityId = row.activityId := by
  cases title with
  | none | some => rfl

@[simp]
theorem legNumber_retitled (title : Option (Option String))
    : (retitled now title row).legNumber = row.legNumber := by
  cases title with
  | none | some => rfl

@[simp]
theorem date_retitled (title : Option (Option String)) : (retitled now title row).date = row.date := by
  cases title with
  | none | some => rfl

@[simp]
theorem title_retitled (title : Option (Option String))
    : (retitled now title row).title = title.elim row.title storedTitle := by
  cases title with
  | none | some => rfl

@[simp]
theorem id_redated (date : Option NaiveDate) : (redated now date row).id = row.id := by
  cases date with
  | none | some => rfl

@[simp]
theorem activityId_redated (date : Option NaiveDate) : (redated now date row).activityId = row.activityId := by
  cases date with
  | none | some => rfl

@[simp]
theorem legNumber_redated (date : Option NaiveDate) : (redated now date row).legNumber = row.legNumber := by
  cases date with
  | none | some => rfl

@[simp]
theorem date_redated (date : Option NaiveDate) : (redated now date row).date = date.getD row.date := by
  cases date with
  | none | some => rfl

@[simp]
theorem title_redated (date : Option NaiveDate)
    : (redated now date row).title = date.elim row.title fun _ => storedTitle row.title := by
  cases date with
  | none | some => rfl

/-
The steps of the handler.
-/

section Phases

variable {n : Nat} {changed : Bool} {rest : Prop} {E : LegTable → Prop} (hE : E t ↔ changed = false)
include hE

theorem ends_verifyActivityOwnership {Q : ActivityCatalog.ActivityId → LegTable × Nat → Prop}
    : Ends (verifyActivityOwnership faults db userId activityId) (t, n) E Q
        ↔ Harmless faults
          [⟨!(ActivityCatalog.getActivity ⟨activityId⟩ userId db.activities).isOk, false⟩] n changed
          (Q ⟨activityId⟩ (t, n + 1)) := by
  unfold verifyActivityOwnership
  rw [Sql.ends_bind, Sql.ends_mapErr]
  cases hactivity : ActivityCatalog.getActivity ⟨activityId⟩ userId db.activities with
  | error e =>
    rw [Sql.ends_statement_of_error rfl hE]
    exact (Sql.harmless_of_refused false _).symm
  | ok activity =>
    rw [Sql.ends_statement_of_ok rfl hE false]
    rfl

section Row

variable (hrow : t.legs.find? legId.val = some row)
include hrow

theorem ends_patchTitle {Q : Unit → LegTable × Nat → Prop} (title : Option (Option String))
    (hQ : ∀ t', (∀ newTitle, title = some newTitle → storedTitle newTitle = newTitle.map trim) →
      t.Rewrites t' (retitled now title row) →
        (Q () (t', n + (title.elim [] (titleAttempts row.title)).length) ↔ rest))
    : Ends (patchTitle faults now legId title) (t, n) E Q
        ↔ Harmless faults (title.elim [] (titleAttempts row.title)) n changed rest := by
  cases title with
  | none =>
    apply hQ t _ (LegTable.Rewrites.refl hrow)
    intro _ h
    cases h
  | some title =>
    unfold patchTitle
    rw [Sql.ends_bind, Sql.ends_mapErr]
    apply LegMethod.ends_renameLeg hrow hE title
    intro _ t' htrim hrewrites
    apply hQ t' _ hrewrites
    intro newTitle h
    cases h
    exact htrim

theorem ends_patchDate {Q : Unit → LegTable × Nat → Prop} (date : Option NaiveDate)
    (hQ : ∀ t', t.Rewrites t' (redated now date row) →
      (Q () (t', n + (date.elim [] (dateAttempts row.title row.date)).length) ↔ rest))
    : Ends (patchDate faults now legId date) (t, n) E Q
        ↔ Harmless faults (date.elim [] (dateAttempts row.title row.date)) n changed rest := by
  cases date with
  | none => exact hQ t (LegTable.Rewrites.refl hrow)
  | some date =>
    unfold patchDate
    rw [Sql.ends_bind, Sql.ends_mapErr]
    exact LegMethod.ends_updateLegDate hrow hE date fun _ t' => hQ t'

/--
The leg has the position, and if it has been there, all is as before.
-/
structure Placed (now : Timestamp) (position : Option Nat) (row : LegRow) (t t' : LegTable) : Prop where
  stays : (∀ newPosition, position = some newPosition → newPosition = row.legNumber) → t' = t
  moves : ∀ newPosition, position = some newPosition → newPosition ≠ row.legNumber →
    t'.legs.find? row.id = some { row with legNumber := newPosition, updatedAt := now }

theorem ends_patchPosition {Q : Unit → LegTable × Nat → Prop} (position : Option Nat)
    (hshifts : ∀ newPosition t', t.Shifts t' row newPosition →
      (E t' ↔ (changed || (t.numbers row.activityId).any (makesRoom row.legNumber newPosition)) = false))
    (hQ : ∀ t', Placed now position row t t' →
      (Q () (t', n + (position.elim []
        (positionAttempts row.legNumber (t.numbers row.activityId))).length) ↔ rest))
    : Ends (patchPosition faults repo now legId position) (t, n) E Q
        ↔ Harmless faults (position.elim [] (positionAttempts row.legNumber (t.numbers row.activityId))) n
          changed rest := by
  cases position with
  | none =>
    apply hQ t ⟨fun _ => rfl, _⟩
    intro _ h
    cases h
  | some newPosition =>
    unfold patchPosition
    rw [Sql.ends_mapErr]
    apply LegMethod.ends_reorderLeg hrow hE repo newPosition (hshifts newPosition)
    . intro hsame
      have hlength : (positionAttempts row.legNumber (t.numbers row.activityId) newPosition).length = 2 := by
        simp [positionAttempts, hsame]
      rw [← hlength]
      apply hQ t ⟨fun _ => rfl, _⟩
      intro other h hne
      cases h
      exact absurd hsame hne
    . intro hne t' hplaced
      have hlength : (positionAttempts row.legNumber (t.numbers row.activityId) newPosition).length = 4 := by
        simp [positionAttempts, hne]
      rw [← hlength]
      apply hQ t' ⟨fun hstays => absurd (hstays newPosition rfl) hne, _⟩
      intro other h _
      cases h
      exact hplaced

end Row

end Phases

-- the leg in the end, and whether something has been changed
theorem exists_placed {changed : Bool} {row₂ : LegRow} {t₂ t₃ : LegTable} {position : Option Nat}
    (hrow : t.legs.find? legId.val = some row) (hnumber : row₂.legNumber = row.legNumber)
    (hrow₂ : t₂.legs.find? legId.val = some row₂) (hE₂ : LegUnchanged legId t t₂ ↔ changed = false)
    (h : Placed now position row₂ t₂ t₃) (numbers : List Nat)
    : ∃ row₃, t₃.legs.find? legId.val = some row₃ ∧ row₃.title = row₂.title ∧ row₃.date = row₂.date
        ∧ (∀ newPosition, position = some newPosition → row₃.legNumber = newPosition)
        ∧ (LegUnchanged legId t t₃
          ↔ (changed || (position.elim [] (positionAttempts row₂.legNumber numbers)).any (·.changes)) = false) := by
  have hid := Sql.Table.key_of_find? hrow₂
  by_cases hstays : ∀ newPosition, position = some newPosition → newPosition = row₂.legNumber
  . obtain rfl := h.stays hstays
    refine ⟨row₂, hrow₂, rfl, rfl, fun newPosition hrequested => (hstays newPosition hrequested).symm, ?_⟩
    rw [hE₂]
    cases hposition : position with
    | none => simp
    | some newPosition => simp [positionAttempts, hstays newPosition hposition]
  . simp only [not_forall] at hstays
    obtain ⟨newPosition, rfl, hne⟩ := hstays
    have hleg := h.moves newPosition rfl hne
    rw [hid] at hleg
    refine ⟨_, hleg, rfl, rfl, ?_, ?_⟩
    . intro other hrequested
      cases hrequested
      rfl
    . apply iff_of_false (changed_of_moved hrow hleg (hnumber ▸ hne))
      simp [positionAttempts, hne]

theorem ends_patches (hrow : t.legs.find? legId.val = some row) (n : Nat)
    : Ends (do
          patchTitle faults now legId body.title
          patchDate faults now legId body.date
          patchPosition faults repo now legId body.legNumber
          let updatedDetail ← mapErr legErrorToApiError (LegMethod.getLegDetail faults repo legId db)
          return legDetailResponse updatedDetail)
        (t, n) (LegUnchanged legId t) (fun _ s => LegStored legId body s.1)
        ↔ Harmless faults
          (body.title.elim [] (titleAttempts row.title)
            ++ (body.date.elim [] (dateAttempts (body.title.elim row.title storedTitle) row.date)
            ++ (body.legNumber.elim [] (positionAttempts row.legNumber (t.numbers row.activityId))
            ++ [⟨false, false⟩, ⟨false, false⟩])))
          n false True := by
  have hid := Sql.Table.key_of_find? hrow
  rw [Sql.ends_bind, Sql.harmless_append]
  apply ends_patchTitle (iff_of_true (legUnchanged_refl legId t) rfl) hrow
  intro t₁ htrim h₁
  have hrow₁ := h₁.leg
  rw [id_retitled, hid] at hrow₁
  have hE₁ : LegUnchanged legId t t₁
      ↔ (false || (body.title.elim [] (titleAttempts row.title)).any (·.changes)) = false := by
    rw [unchanged_of_rewrites hrow h₁ (by simp [hid]) (by simp)]
    cases body.title with
    | none | some => simp [titleAttempts]
  have htitle₁ : (retitled now body.title row).title = body.title.elim row.title storedTitle :=
    title_retitled body.title
  have hdate₁ : (retitled now body.title row).date = row.date := date_retitled body.title
  rw [Sql.ends_bind, Sql.harmless_append, ← htitle₁, ← hdate₁]
  apply ends_patchDate hE₁ hrow₁
  intro t₂ h₂
  have hrow₂ := h₂.leg
  rw [id_redated, id_retitled, hid] at hrow₂
  have hrewrites := h₁.trans h₂ (by simp)
  have hE₂ : LegUnchanged legId t t₂
      ↔ ((false || (body.title.elim [] (titleAttempts row.title)).any (·.changes))
          || (body.date.elim [] (dateAttempts (retitled now body.title row).title
            (retitled now body.title row).date)).any (·.changes)) = false := by
    rw [unchanged_of_rewrites hrow hrewrites (by simp [hid]) (by simp)]
    cases body.title with
    | none | some =>
      cases body.date with
      | none | some => simp [titleAttempts, dateAttempts]
  have hattempts : positionAttempts row.legNumber (t.numbers row.activityId)
      = positionAttempts (redated now body.date (retitled now body.title row)).legNumber
        (t₂.numbers (redated now body.date (retitled now body.title row)).activityId) := by
    funext newPosition
    rw [legNumber_redated, legNumber_retitled, activityId_redated, activityId_retitled]
    apply positionAttempts_congr
    intro number
    exact (mem_numbers_of_rewrites hrow hrewrites (by simp [hid]) (by simp) (by simp) number).symm
  rw [Sql.ends_bind, Sql.harmless_append, hattempts]
  apply ends_patchPosition hE₂ hrow₂
  . intro newPosition t' hshifts
    rw [unchanged_of_shifts hrow hrewrites (by simp [hid]) (by simp) (by simp) hshifts, hE₂,
      ← Bool.or_eq_false_iff]
  . intro t₃ hplaced
    obtain ⟨row₃, hrow₃, htitle, hdate, hnumber, hE₃⟩ := exists_placed hrow (by simp) hrow₂ hE₂ hplaced
      (t₂.numbers (redated now body.date (retitled now body.title row)).activityId)
    rw [Sql.ends_bind, Sql.ends_mapErr]
    apply LegMethod.ends_getLegDetail hrow₃ hE₃
    intro detail
    rw [Sql.ends_pure]
    refine iff_of_true ⟨row₃, hrow₃, ?_, ?_, hnumber⟩ trivial
    . intro title hrequested
      rw [htitle, ← htrim title hrequested, title_redated, title_retitled, hrequested]
      cases body.date with
      | none => rfl
      | some => exact storedTitle_storedTitle title
    . intro date hrequested
      rw [hdate, date_redated, hrequested, Option.getD_some]

/--
A patch of a leg is all or nothing exactly if nothing fails after a statement that changes something.
-/
theorem patch_all_or_nothing_iff (faults : Faults) (repo : PgLegRepository) (now : Timestamp)
    (db : Imports.Database) (legId : LegId) (userId : Identity.UserId) (activityId : Uuid)
    (body : UpdateLegRequest) (t : LegTable)
    : AllOrNothing faults repo now db legId userId activityId body t
        ↔ Harmless faults (patchAttempts db legId userId activityId body t) 0 false True := by
  have hE : LegUnchanged legId t t ↔ false = false := iff_of_true (legUnchanged_refl legId t) rfl
  have hends : AllOrNothing faults repo now db legId userId activityId body t
      ↔ Ends (patchLeg faults repo now db legId userId activityId body) (t, 0) (LegUnchanged legId t)
        fun _ s => LegStored legId body s.1 := by
    rw [Sql.ends_iff]
    exact ⟨fun h => ⟨h.failure, h.success⟩, fun h => ⟨h.1, h.2⟩⟩
  rw [hends]
  unfold patchLeg patchAttempts
  rw [Sql.ends_bind, ends_verifyActivityOwnership hE]
  refine Iff.trans ?_ (Sql.harmless_cons _ _).symm
  apply Sql.harmless_congr
  have hfind := run_findLeg legId t
  rw [Sql.ends_bind, Sql.ends_mapErr, LegMethod.ends_execute_of_ok hfind hE false]
  cases hrow : t.legs.find? legId.val with
  | none => simp [Harmless, hE]
  | some row =>
    refine Iff.trans ?_ (Sql.harmless_cons _ _).symm
    by_cases hof : row.activityId = activityId
    . have hof' : ¬(rowToLeg row).activityId.val ≠ activityId := not_not.mpr hof
      simp only [Option.map_some, if_neg hof']
      rw [ends_patches hrow]
      simp [Harmless, hof]
    . have hof' : (rowToLeg row).activityId.val ≠ activityId := hof
      simp only [Option.map_some, if_pos hof']
      simp [Harmless, hof, hE]

def sampleHike : ActivityCatalog.ActivityRow where
  id := ⟨9⟩
  ownerId := ⟨3⟩
  title := "Two days"
  activityType := "hike"
  startedAt := none
  endedAt := none
  currentRouteVersionId := none
  recordedSummaryJson := none
  correctedSummaryJson := none
  createdAt := 0
  updatedAt := 0

def sampleHikes : Imports.Database where
  routeEditing := .empty
  routeVersions := .empty
  activities := ⟨[sampleHike], by decide⟩
  outbox := .empty
  imports := .empty
  sourceArtifacts := .empty
  sourceRevisions := .empty
  recordedTracks := .empty

-- a new date, and a position that no leg can have
def samplePatch : UpdateLegRequest where
  title := none
  date := some 1
  legNumber := some 0

/--
The answer is that the position is not valid, and the date has been changed.
-/
theorem patch_not_all_or_nothing
    : outcome (patchLeg (fun _ => none) .infrastructure 0 sampleHikes ⟨⟨2⟩⟩ ⟨⟨3⟩⟩ ⟨9⟩ samplePatch) (sampleLegs, 0)
          = .error (.err (legErrorToApiError (.invalidLegNumber 0 "position must be at least 1")))
        ∧ (sampleLegs.legs.find? ⟨2⟩).map (·.date) = some 0
        ∧ (((after (patchLeg (fun _ => none) .infrastructure 0 sampleHikes ⟨⟨2⟩⟩ ⟨⟨3⟩⟩ ⟨9⟩ samplePatch)
          (sampleLegs, 0)).1).legs.find? ⟨2⟩).map (·.date) = some 1
        ∧ ¬AllOrNothing (fun _ => none) .infrastructure 0 sampleHikes ⟨⟨2⟩⟩ ⟨⟨3⟩⟩ ⟨9⟩ samplePatch sampleLegs := by
  have hfails : outcome (patchLeg (fun _ => none) .infrastructure 0 sampleHikes ⟨⟨2⟩⟩ ⟨⟨3⟩⟩ ⟨9⟩ samplePatch)
      (sampleLegs, 0) = .error (.err (legErrorToApiError (.invalidLegNumber 0 "position must be at least 1"))) := by
    rfl
  have hdate : (((after (patchLeg (fun _ => none) .infrastructure 0 sampleHikes ⟨⟨2⟩⟩ ⟨⟨3⟩⟩ ⟨9⟩ samplePatch)
      (sampleLegs, 0)).1).legs.find? ⟨2⟩).map (·.date) = some 1 := by
    rfl
  refine ⟨hfails, rfl, hdate, ?_⟩
  intro h
  have hunchanged := (h.failure _ hfails).leg
  have hdates := congrArg (Option.map fun leg => leg.2.1) hunchanged
  rw [Option.map_map, Option.map_map] at hdates
  have hsame : some (1 : NaiveDate) = some 0 := hdate.symm.trans hdates
  cases hsame

end Api
