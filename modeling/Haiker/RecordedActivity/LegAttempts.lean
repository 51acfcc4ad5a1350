import Haiker.RecordedActivity.LegNumbering
import Haiker.RecordedActivity.LegUpdates

/-!
This module contains what is known beforehand of the statements that a command on one leg runs: which of them
are refused, and which of them change what is stored.
-/

open Rust
open Sql (Attempt Ends Faults Harmless)
open ActivityCatalog (ActivityId)

namespace RecordedActivity

-- what is read from a stored title, and stored again
def storedTitle (title : Option String) : Option String :=
  title.bind fun title => ((LegTitle.new title).toOption).map (·.val)

def titleAttempts (title newTitle : Option String) : List Attempt :=
  [
    { refused := !(newTitle.mapM LegTitle.new).isOk, changes := false },
    { refused := false, changes := storedTitle newTitle ≠ title }
  ]

def dateAttempts (title : Option String) (date newDate : NaiveDate) : List Attempt :=
  [
    { refused := false, changes := false },
    { refused := false, changes := storedTitle title ≠ title ∨ newDate ≠ date }
  ]

-- whether a leg makes room for the one that is moved
def makesRoom (number newPosition other : Nat) : Bool :=
  newPosition ≤ other ∧ other < number ∨ number < other ∧ other ≤ newPosition

-- the number next to that of the leg, on the way to the new position
def nextNumber (number newPosition : Nat) : Nat :=
  if newPosition < number then number - 1 else number + 1

def positionAttempts (number : Nat) (numbers : List Nat) (newPosition : Nat) : List Attempt :=
  { refused := newPosition < 1 ∨ MAX_LEGS_PER_ACTIVITY < newPosition, changes := false }
  :: { refused := false, changes := false }
  :: if newPosition = number then
    []
  else
    [
      {
        refused := numbers.contains (nextNumber number newPosition)
        changes := numbers.any (makesRoom number newPosition)
      },
      { refused := false, changes := true }
    ]

theorem title_rowToLeg (row : LegRow) : (rowToLeg row).title.map (·.val) = storedTitle row.title := by
  unfold rowToLeg storedTitle
  cases row.title with
  | none | some => rfl

theorem LegTitle.val_of_new {value : String} {title : LegTitle} (h : LegTitle.new value = .ok title)
    : title.val = trim value := by
  unfold LegTitle.new at h
  simp only at h
  split at h
  . cases h
  . split at h
    . cases h
      rfl
    . cases h

theorem LegTitle.new_trim (value : String) : LegTitle.new (trim value) = LegTitle.new value := by
  unfold LegTitle.new
  simp only [trim_trim]

@[simp]
theorem storedTitle_storedTitle (title : Option String) : storedTitle (storedTitle title) = storedTitle title := by
  cases title with
  | none => rfl
  | some value =>
    cases hnew : LegTitle.new value with
    | error e => simp [storedTitle, hnew, Except.toOption]
    | ok legTitle => simp [storedTitle, hnew, Except.toOption, LegTitle.val_of_new hnew, LegTitle.new_trim]

-- a title that is not refused
theorem storedTitle_of_mapM {newTitle : Option String} {title : Option LegTitle}
    (h : newTitle.mapM LegTitle.new = .ok title)
    : storedTitle newTitle = title.map (·.val) ∧ storedTitle newTitle = newTitle.map trim := by
  cases newTitle with
  | none =>
    cases h
    exact ⟨rfl, rfl⟩
  | some value =>
    rw [Option.mapM_some] at h
    cases hnew : LegTitle.new value with
    | error e =>
      rw [hnew] at h
      cases h
    | ok legTitle =>
      rw [hnew] at h
      cases h
      simp [storedTitle, hnew, Except.toOption, LegTitle.val_of_new hnew]

theorem positionAttempts_congr {numbers numbers' : List Nat}
    (h : ∀ number, number ∈ numbers ↔ number ∈ numbers') (number newPosition : Nat)
    : positionAttempts number numbers newPosition = positionAttempts number numbers' newPosition := by
  have hcontains : numbers.contains (nextNumber number newPosition)
      = numbers'.contains (nextNumber number newPosition) := by
    rw [Bool.eq_iff_iff, List.contains_iff_mem, List.contains_iff_mem, h]
  have hany : numbers.any (makesRoom number newPosition) = numbers'.any (makesRoom number newPosition) := by
    rw [Bool.eq_iff_iff, List.any_eq_true, List.any_eq_true]
    simp only [h]
  rw [positionAttempts, positionAttempts, hcontains, hany]

/-
What the statements change.
-/

/--
The row is written over the one with its id.
-/
structure LegTable.Rewrites (t t' : LegTable) (row : LegRow) : Prop where
  leg : t'.legs.find? row.id = some row
  others : ∀ id, id ≠ row.id → t'.legs.find? id = t.legs.find? id

/--
The legs of the activity that make room have other numbers.
-/
structure LegTable.Shifts (t t' : LegTable) (row : LegRow) (newPosition : Nat) : Prop where
  leg : t'.legs.find? row.id = some row
  others : ∀ id other, t.legs.find? id = some other → other.activityId = row.activityId →
    ((t'.legs.find? id).map (·.legNumber) = some other.legNumber
      ↔ makesRoom row.legNumber newPosition other.legNumber = false)

variable {t t' : LegTable} {row : LegRow} {k : Uuid} {now : Timestamp} {newPosition : Nat}

theorem LegTable.Rewrites.refl (hrow : t.legs.find? k = some row) : t.Rewrites t row where
  leg := by
    rw [Sql.Table.key_of_find? hrow]
    exact hrow
  others := fun _ _ => rfl

theorem LegTable.Rewrites.trans {t'' : LegTable} {row' : LegRow} (h : t.Rewrites t' row)
    (h' : t'.Rewrites t'' row') (hid : row'.id = row.id) : t.Rewrites t'' row' where
  leg := h'.leg
  others := by
    intro id hne
    rw [h'.others id hne, h.others id (hid ▸ hne)]

theorem LegTable.rewrites_of_updateWhere {f : LegRow → LegRow} {hf : ∀ row, (f row).id = row.id}
    (hrow : t.legs.find? k = some row) (hlegs : t'.legs = t.legs.updateWhere (fun row => row.id = k) f hf)
    : t.Rewrites t' (f row) where
  leg := by
    have hid := Sql.Table.key_of_find? hrow
    rw [hlegs, Sql.Table.find?_updateWhere, hf, hid, hrow, Option.map_some]
    simp [hid]
  others := by
    intro id hid
    have hk := Sql.Table.key_of_find? hrow
    rw [hf, hk] at hid
    rw [hlegs, Sql.Table.find?_updateWhere]
    cases hother : t.legs.find? id with
    | none => rfl
    | some other =>
      have hkey := Sql.Table.key_of_find? hother
      rw [Option.map_some]
      simp [hkey, hid]

theorem LegTable.exists_rewrite {f : LegRow → LegRow} (hf : ∀ row, (f row).id = row.id)
    (hrow : t.legs.find? k = some row) (hplace : (f row).place = row.place)
    : ∃ t', t.update? (fun row => row.id = k) f hf = some t' ∧ t.Rewrites t' (f row) := by
  have hkeeps : ∀ other ∈ t.legs.rows, (if other.id = k then f other else other).place = other.place := by
    intro other hother
    split
    . next hid =>
      have hfind := Sql.Table.find?_of_mem hother
      rw [hid, hrow, Option.some.injEq] at hfind
      rw [← hfind]
      exact hplace
    . rfl
  obtain ⟨t', hupdate, hlegs⟩ := update?_of_inj (t := t) (p := fun row => row.id = k) hf (by
    intro other hother other' hother' hsame
    simp only [decide_eq_true_eq] at hsame
    rw [← hkeeps other hother, hsame, hkeeps other' hother'])
  exact ⟨t', hupdate, rewrites_of_updateWhere hrow hlegs⟩

-- what an update with the leg stores
def LegRow.write (leg : Leg) (row : LegRow) : LegRow := { row with
  legNumber := leg.legNumber
  title := leg.title.map (·.val)
  date := leg.date
  sourceRevisionId := leg.sourceRevisionId.map (·.val)
  recordedTrackId := leg.recordedTrackId.map (·.val)
  updatedAt := leg.updatedAt
}

-- the leg has been read before, and keeps its place
theorem run_updateLeg (leg : Leg) (hrow : t.legs.find? k = some row) (hid : leg.id = (rowToLeg row).id)
    (hnumber : leg.legNumber = (rowToLeg row).legNumber)
    : ∃ t', (updateLeg leg).run t = (.ok (), t') ∧ t.Rewrites t' (row.write leg) := by
  have hkey : k = leg.id.val := by
    rw [hid, ← Sql.Table.key_of_find? hrow]
    rfl
  subst hkey
  have hplace : (row.write leg).place = row.place := Prod.ext rfl hnumber
  obtain ⟨t', hupdate, hrewrites⟩ := LegTable.exists_rewrite (f := LegRow.write leg) (fun _ => rfl) hrow hplace
  exact ⟨t', run_executeUpdate_of_some hupdate, hrewrites⟩

/-
Moving a leg.
-/

theorem makesRoom_eq_true {number other : Nat}
    : makesRoom number newPosition other = true
        ↔ newPosition ≤ other ∧ other < number ∨ number < other ∧ other ≤ newPosition := by
  rw [makesRoom, decide_eq_true_eq]

theorem makesRoom_self (number newPosition : Nat) : makesRoom number newPosition number = false := by
  simp [makesRoom]

-- the number that a leg of the activity then has
def shiftedNumber (number newPosition other : Nat) : Nat :=
  if makesRoom number newPosition other then
    if newPosition < number then other + 1 else other - 1
  else
    other

theorem shiftedNumber_eq_iff {number other : Nat}
    : shiftedNumber number newPosition other = other ↔ makesRoom number newPosition other = false := by
  unfold shiftedNumber
  split
  . next hroom =>
    rw [makesRoom_eq_true] at hroom
    apply iff_of_false
    . split
      . omega
      . omega
    . rw [Bool.not_eq_false, makesRoom_eq_true]
      exact hroom
  . next hstays => exact iff_of_true rfl (Bool.not_eq_true _ ▸ hstays)

-- no leg comes to the new position
theorem shiftedNumber_ne {number : Nat} (hne : newPosition ≠ number) (other : Nat)
    : shiftedNumber number newPosition other ≠ newPosition := by
  unfold shiftedNumber
  split
  . next hroom =>
    rw [makesRoom_eq_true] at hroom
    split
    . omega
    . omega
  . next hstays =>
    rw [makesRoom_eq_true] at hstays
    omega

theorem shiftedNumber_inj {number other other' : Nat} (hother : other ≠ nextNumber number newPosition)
    (hother' : other' ≠ nextNumber number newPosition)
    (h : shiftedNumber number newPosition other = shiftedNumber number newPosition other') : other = other' := by
  unfold nextNumber at hother hother'
  simp only [shiftedNumber, makesRoom_eq_true] at h
  by_cases hup : newPosition < number
  . simp only [if_pos hup] at h hother hother'
    split at h <;> split at h <;> omega
  . simp only [if_neg hup] at h hother hother'
    split at h <;> split at h <;> omega

namespace LegMethod

section Shift

variable (repo : PgLegRepository) (now : Timestamp) {legId : LegId} (newPosition : Nat)
  (hrow : t.legs.find? legId.val = some row)
include hrow

-- the two directions as one
theorem exists_shift
    : ∃ p f, ∃ hf : ∀ row, (f row).id = row.id,
      shiftLegs repo now legId ⟨row.activityId⟩ row.legNumber newPosition = executeUpdate p f hf
        ∧ (∀ other ∈ t.legs.rows, p other = true
          ↔ other.activityId = row.activityId ∧ makesRoom row.legNumber newPosition other.legNumber = true)
        ∧ ∀ other, (f other).activityId = other.activityId
          ∧ (f other).legNumber
            = if newPosition < row.legNumber then other.legNumber + 1 else other.legNumber - 1 := by
  have hshifts : ∀ other ∈ t.legs.rows, makesRoom row.legNumber newPosition other.legNumber = true →
      repo.shifts legId other = true := by
    intro other hother hroom
    cases repo with
    | platform => rfl
    | infrastructure =>
      have hne : other.id ≠ legId.val := by
        intro hid
        have hfind := Sql.Table.find?_of_mem hother
        rw [hid, hrow, Option.some.injEq] at hfind
        rw [← hfind, makesRoom_self] at hroom
        cases hroom
      simp [PgLegRepository.shifts, hne]
  by_cases hup : newPosition < row.legNumber
  . refine ⟨_, _, _, if_pos hup, ?_, fun other => ⟨rfl, (if_pos hup).symm⟩⟩
    intro other hother
    have hshift := hshifts other hother
    rw [decide_eq_true_eq, makesRoom_eq_true]
    rw [makesRoom_eq_true] at hshift
    constructor
    . rintro ⟨hactivity, hge, hlt, _⟩
      exact ⟨hactivity, by omega⟩
    . rintro ⟨hactivity, hroom⟩
      exact ⟨hactivity, by omega, by omega, hshift hroom⟩
  . refine ⟨_, _, _, if_neg hup, ?_, fun other => ⟨rfl, (if_neg hup).symm⟩⟩
    intro other hother
    have hshift := hshifts other hother
    rw [decide_eq_true_eq, makesRoom_eq_true]
    rw [makesRoom_eq_true] at hshift
    constructor
    . rintro ⟨hactivity, hge, hlt, _⟩
      exact ⟨hactivity, by omega⟩
    . rintro ⟨hactivity, hroom⟩
      exact ⟨hactivity, by omega, by omega, hshift hroom⟩

-- a leg would get the number that the moved leg still has
theorem run_shiftLegs_of_taken (hne : newPosition ≠ row.legNumber)
    (htaken : nextNumber row.legNumber newPosition ∈ t.numbers row.activityId)
    : (shiftLegs repo now legId ⟨row.activityId⟩ row.legNumber newPosition).run t
        = (.error (uniqueViolation "legs_activity_id_leg_number_key"), t) := by
  obtain ⟨p, f, hf, hshift, hp, hnumber⟩ := exists_shift repo now newPosition hrow
  obtain ⟨_, between, hbetween, hactivity, hnext⟩ := LegTable.mem_numbers.mp htaken
  have hmem := Sql.Table.mem_of_find? hrow
  have hmem' := Sql.Table.mem_of_find? hbetween
  unfold nextNumber at hnext
  have hroom : makesRoom row.legNumber newPosition between.legNumber = true := by
    rw [makesRoom_eq_true, hnext]
    split
    . omega
    . omega
  have hmoved : p between = true := (hp between hmem').mpr ⟨hactivity, hroom⟩
  have hstays : p row = false := by
    rw [← Bool.not_eq_true, hp row hmem, makesRoom_self]
    simp
  rw [hshift]
  apply run_executeUpdate_of_none
  apply LegTable.update?_eq_none_of_clash hmem' hmem _ hmoved hstays
  . apply Prod.ext
    . exact (hnumber between).1.trans hactivity
    . show (f between).legNumber = row.legNumber
      rw [(hnumber between).2, hnext]
      split
      . omega
      . omega
  . intro hid
    rw [t.legs.eq_of_key_eq hmem' hmem hid, hstays] at hmoved
    cases hmoved

theorem run_shiftLegs_of_free (hfree : nextNumber row.legNumber newPosition ∉ t.numbers row.activityId)
    : ∃ t', (shiftLegs repo now legId ⟨row.activityId⟩ row.legNumber newPosition).run t = (.ok (), t')
        ∧ t.Shifts t' row newPosition
        ∧ (newPosition ≠ row.legNumber → newPosition ∉ t'.numbers row.activityId) := by
  obtain ⟨p, f, hf, hshift, hp, hnumber⟩ := exists_shift repo now newPosition hrow
  have hmoved : ∀ other ∈ t.legs.rows, (if p other then f other else other).activityId = other.activityId
      ∧ (if p other then f other else other).legNumber
        = if other.activityId = row.activityId then
          shiftedNumber row.legNumber newPosition other.legNumber
        else
          other.legNumber := by
    intro other hother
    by_cases hmoves : p other = true
    . obtain ⟨hactivity, hroom⟩ := (hp other hother).mp hmoves
      rw [if_pos hmoves, if_pos hactivity, shiftedNumber, if_pos hroom]
      exact hnumber other
    . rw [if_neg hmoves]
      refine ⟨rfl, ?_⟩
      split
      . next hactivity =>
        have hroom : ¬makesRoom row.legNumber newPosition other.legNumber = true :=
          fun hroom => hmoves ((hp other hother).mpr ⟨hactivity, hroom⟩)
        rw [shiftedNumber, if_neg hroom]
      . rfl
  have hnext : ∀ other ∈ t.legs.rows, other.activityId = row.activityId →
      other.legNumber ≠ nextNumber row.legNumber newPosition := by
    intro other hother hactivity hnext
    exact hfree (LegTable.mem_numbers.mpr ⟨other.id, other, Sql.Table.find?_of_mem hother, hactivity, hnext⟩)
  have hinj : ∀ other ∈ t.legs.rows, ∀ other' ∈ t.legs.rows,
      (if p other then f other else other).place = (if p other' then f other' else other').place →
        other.place = other'.place := by
    intro other hother other' hother' hplace
    simp only [LegRow.place, Prod.mk.injEq] at hplace ⊢
    rw [(hmoved other hother).1, (hmoved other' hother').1, (hmoved other hother).2,
      (hmoved other' hother').2] at hplace
    obtain ⟨hsame, hplace⟩ := hplace
    refine ⟨hsame, ?_⟩
    by_cases hactivity : other.activityId = row.activityId
    . have hactivity' := hsame.symm.trans hactivity
      rw [if_pos hactivity, if_pos hactivity'] at hplace
      exact shiftedNumber_inj (hnext other hother hactivity) (hnext other' hother' hactivity') hplace
    . rw [if_neg hactivity, if_neg (hsame ▸ hactivity)] at hplace
      exact hplace
  obtain ⟨t', hupdate, hlegs⟩ := LegTable.update?_of_inj hf hinj
  have hfind : ∀ id other, t.legs.find? id = some other → other.activityId = row.activityId →
      (t'.legs.find? id).map (·.legNumber) = some (shiftedNumber row.legNumber newPosition other.legNumber) := by
    intro id other hother hactivity
    rw [hlegs, Sql.Table.find?_updateWhere, hother, Option.map_some, Option.map_some,
      (hmoved other (Sql.Table.mem_of_find? hother)).2, if_pos hactivity]
  refine ⟨t', ?_, ⟨?_, ?_⟩, ?_⟩
  . rw [hshift]
    exact run_executeUpdate_of_some hupdate
  . have hstays : ¬p row = true := by
      rw [hp row (Sql.Table.mem_of_find? hrow), makesRoom_self]
      simp
    rw [hlegs, Sql.Table.find?_updateWhere, Sql.Table.key_of_find? hrow, hrow, Option.map_some, if_neg hstays]
  . intro id other hother hactivity
    rw [hfind id other hother hactivity, Option.some.injEq]
    exact shiftedNumber_eq_iff
  . intro hne hmem
    obtain ⟨id, other, hother, hactivity, hplaced⟩ := LegTable.mem_numbers.mp hmem
    rw [hlegs, Sql.Table.find?_updateWhere, Option.map_eq_some_iff] at hother
    obtain ⟨before, hbefore, rfl⟩ := hother
    obtain ⟨hkept, hshifted⟩ := hmoved before (Sql.Table.mem_of_find? hbefore)
    rw [if_pos (hkept.symm.trans hactivity)] at hshifted
    exact shiftedNumber_ne hne _ (hshifted.symm.trans hplaced)

theorem run_placeLeg (hfree : newPosition ∉ t.numbers row.activityId)
    : ∃ t', (placeLeg now legId newPosition).run t = (.ok (), t')
        ∧ t'.legs.find? row.id = some { row with legNumber := newPosition, updatedAt := now } := by
  obtain ⟨t', _, hupdate, hlegs, _⟩ :=
    LegTable.update?_of_free (fun row => { row with legNumber := newPosition, updatedAt := now })
      (fun _ => rfl) hrow rfl hfree
  exact ⟨t', run_executeUpdate_of_some hupdate, (LegTable.rewrites_of_updateWhere hrow hlegs).leg⟩

end Shift

end LegMethod

/-
How the commands end.
-/

namespace LegMethod

variable {faults : Faults} {legId : LegId} {n : Nat} {changed : Bool} {rest : Prop} {E : LegTable → Prop}
  {α : Type} {x : LegM α} {a : α} {e : LegError} {Q : α → LegTable × Nat → Prop}

theorem ends_execute_of_ok (hx : x.run t = (.ok a, t')) (hE : E t ↔ changed = false) (changes : Bool)
    : Ends (execute faults x) (t, n) E Q ↔ Harmless faults [⟨false, changes⟩] n changed (Q a (t', n + 1)) := by
  apply Sql.ends_statement_of_ok _ hE
  rw [hx]
  rfl

theorem ends_execute_of_error (hx : x.run t = (.error e, t)) (hE : E t ↔ changed = false)
    : Ends (execute faults x) (t, n) E Q ↔ changed = false := by
  have hx : ((x.run t).1.mapError Fault.err, (x.run t).2) = (.error (.err e), t) := by
    rw [hx]
    rfl
  exact Sql.ends_statement_of_error hx hE

section Row

variable (hrow : t.legs.find? legId.val = some row) (hE : E t ↔ changed = false)
include hrow hE

theorem ends_loadLeg {Q : Leg → LegTable × Nat → Prop}
    : Ends (loadLeg faults legId) (t, n) E Q
        ↔ Harmless faults [⟨false, false⟩] n changed (Q (rowToLeg row) (t, n + 1)) := by
  have hfind : (findLeg legId).run t = (.ok (some (rowToLeg row)), t) := by
    rw [run_findLeg, hrow]
    rfl
  unfold loadLeg
  rw [Sql.ends_bind, ends_execute_of_ok hfind hE false]
  rfl

theorem ends_renameLeg {Q : Leg → LegTable × Nat → Prop} (newTitle : Option String)
    (hQ : ∀ leg t', storedTitle newTitle = newTitle.map trim →
      t.Rewrites t' { row with title := storedTitle newTitle, updatedAt := now } → (Q leg (t', n + 2) ↔ rest))
    : Ends (renameLeg faults now legId newTitle) (t, n) E Q
        ↔ Harmless faults (titleAttempts row.title newTitle) n changed rest := by
  unfold renameLeg titleAttempts
  rw [Sql.ends_bind]
  cases htitle : newTitle.mapM LegTitle.new with
  | error e => exact hE.trans (Sql.harmless_of_refused false _).symm
  | ok title =>
    obtain ⟨t', hupdate, hrewrites⟩ := run_updateLeg ((rowToLeg row).rename now title) hrow rfl rfl
    obtain ⟨hval, htrim⟩ := storedTitle_of_mapM htitle
    have hrewrites : t.Rewrites t' { row with title := storedTitle newTitle, updatedAt := now } := by
      rw [hval]
      simpa [LegRow.write, Leg.rename, rowToLeg, Function.comp_def] using hrewrites
    simp only [Except.mapError, Sql.ends_ofResult_ok]
    rw [Sql.ends_bind, ends_loadLeg hrow hE, Sql.ends_bind,
      ends_execute_of_ok hupdate hE (storedTitle newTitle ≠ row.title), Sql.ends_pure, hQ _ _ htrim hrewrites]
    simp [Harmless, Except.isOk, Except.toBool]

theorem ends_updateLegDate {Q : Leg → LegTable × Nat → Prop} (newDate : NaiveDate)
    (hQ : ∀ leg t',
      t.Rewrites t' { row with title := storedTitle row.title, date := newDate, updatedAt := now } →
        (Q leg (t', n + 2) ↔ rest))
    : Ends (updateLegDate faults now legId newDate) (t, n) E Q
        ↔ Harmless faults (dateAttempts row.title row.date newDate) n changed rest := by
  unfold updateLegDate dateAttempts
  obtain ⟨t', hupdate, hrewrites⟩ := run_updateLeg ((rowToLeg row).updateDate now newDate) hrow rfl rfl
  have hrewrites : t.Rewrites t'
      { row with title := storedTitle row.title, date := newDate, updatedAt := now } := by
    rw [← title_rowToLeg]
    simpa [LegRow.write, Leg.updateDate, rowToLeg, Function.comp_def] using hrewrites
  rw [Sql.ends_bind, ends_loadLeg hrow hE, Sql.ends_bind,
    ends_execute_of_ok hupdate hE (storedTitle row.title ≠ row.title ∨ newDate ≠ row.date), Sql.ends_pure,
    hQ _ _ hrewrites]
  simp [Harmless]

theorem ends_reorderLeg (repo : PgLegRepository) {Q : Unit → LegTable × Nat → Prop} (newPosition : Nat)
    (hshifts : ∀ t', t.Shifts t' row newPosition →
      (E t' ↔ (changed || (t.numbers row.activityId).any (makesRoom row.legNumber newPosition)) = false))
    (hsame : newPosition = row.legNumber → (Q () (t, n + 2) ↔ rest))
    (hmoves : newPosition ≠ row.legNumber → ∀ t',
      t'.legs.find? row.id = some { row with legNumber := newPosition, updatedAt := now } →
        (Q () (t', n + 4) ↔ rest))
    : Ends (reorderLeg faults repo now legId newPosition) (t, n) E Q
        ↔ Harmless faults (positionAttempts row.legNumber (t.numbers row.activityId) newPosition) n changed
          rest := by
  unfold reorderLeg positionAttempts
  by_cases hone : newPosition < 1
  . rw [if_pos hone]
    simp only [hone, true_or, decide_true]
    exact hE.trans (Sql.harmless_of_refused false _).symm
  by_cases hmax : MAX_LEGS_PER_ACTIVITY < newPosition
  . rw [if_neg hone, if_pos hmax]
    simp only [hmax, or_true, decide_true]
    exact hE.trans (Sql.harmless_of_refused false _).symm
  rw [if_neg hone, if_neg hmax, Sql.ends_bind, ends_loadLeg hrow hE]
  simp only [hone, hmax, or_self, decide_false]
  have hactivity : (rowToLeg row).activityId = ⟨row.activityId⟩ := rfl
  have hcurrent := run_currentPosition repo legId hrow
  rw [hactivity]
  unfold reorderLegs
  rw [Sql.ends_bind, ends_execute_of_ok hcurrent hE false]
  simp only
  by_cases hstays : newPosition = row.legNumber
  . rw [if_pos hstays.symm, if_pos hstays, Sql.ends_pure, hsame hstays]
    simp [Harmless]
  rw [if_neg (Ne.symm hstays), if_neg hstays, Sql.ends_bind]
  by_cases hnext : nextNumber row.legNumber newPosition ∈ t.numbers row.activityId
  . have hrefused := run_shiftLegs_of_taken repo now newPosition hrow hstays hnext
    rw [ends_execute_of_error hrefused hE]
    simp [Harmless, hnext]
  . obtain ⟨shifted, hshift, hshifted, hfree⟩ := run_shiftLegs_of_free repo now newPosition hrow hnext
    have hleg : shifted.legs.find? legId.val = some row := by
      rw [← Sql.Table.key_of_find? hrow]
      exact hshifted.leg
    obtain ⟨placed, hplace, hplaced⟩ := run_placeLeg now newPosition hleg (hfree hstays)
    rw [ends_execute_of_ok hshift hE ((t.numbers row.activityId).any (makesRoom row.legNumber newPosition)),
      ends_execute_of_ok hplace (hshifts shifted hshifted) true, hmoves hstays placed hplaced]
    simp [Harmless, hnext]

theorem ends_getLegDetail (repo : PgLegRepository) (db : Imports.Database) {Q : LegDetail → LegTable × Nat → Prop}
    (hQ : ∀ detail, Q detail (t, n + 2) ↔ rest)
    : Ends (getLegDetail faults repo legId db) (t, n) E Q
        ↔ Harmless faults [⟨false, false⟩, ⟨false, false⟩] n changed rest := by
  have hsummary : (do return repo.getLegSummary (← get) db legId : LegM (Option (LegSummary F64))).run t
      = (.ok (repo.getLegSummary t db legId), t) := rfl
  unfold getLegDetail
  rw [Sql.ends_bind, ends_loadLeg hrow hE, Sql.ends_bind, ends_execute_of_ok hsummary hE false,
    Sql.ends_pure, hQ]
  simp [Harmless]

end Row

end LegMethod

end RecordedActivity
