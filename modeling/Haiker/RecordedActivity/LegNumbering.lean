import Haiker.RecordedActivity.Lemmas.Legs

/-!
This module contains which commands keep the leg numbers of an activity dense. A reordering that moves
the leg is refused by the unique constraint, as the legs in between are shifted onto the number that the
moved leg still has, or leaves a gap.
-/

open ActivityCatalog (ActivityId)

namespace RecordedActivity

-- the numbers of the `n` legs are exactly `1..n`
def Dense (t : LegTable) (activityId : Uuid) : Prop :=
  (t.numbers activityId).Perm (List.range' 1 (t.numbers activityId).length)

structure Numbered (t : LegTable) : Prop where
  dense : ∀ activityId, Dense t activityId
  length_le : ∀ activityId, (t.numbers activityId).length ≤ MAX_LEGS_PER_ACTIVITY

/--
Whether a command should succeed: there is room for the new leg, which has a new id and a valid title if
any; the leg to be moved is there, and its new position is one that a leg can have; the leg to be removed
is there.
-/
def ShouldSucceed (t : LegTable) : LegCommand → Prop
  | .addLeg _ id activityId title _ _ _ =>
    (t.numbers activityId.val).length < MAX_LEGS_PER_ACTIVITY ∧ t.legs.find? id.val = none
      ∧ ∀ value, title = some value → ∃ legTitle, LegTitle.new value = .ok legTitle
  | .reorderLeg _ legId newPosition =>
    1 ≤ newPosition ∧ newPosition ≤ MAX_LEGS_PER_ACTIVITY ∧ ∃ row, t.legs.find? legId.val = some row
  | .removeLeg _ legId => ∃ row, t.legs.find? legId.val = some row

section Repository

variable (repo : PgLegRepository)

def after (t : LegTable) (command : LegCommand) : LegTable := ((command.execute repo).run t).2

-- the command succeeds if it should, and leaves the numbers of every activity dense
def KeepsDense (t : LegTable) (command : LegCommand) : Prop :=
  (ShouldSucceed t command → ((command.execute repo).run t).1 = .ok ())
    ∧ ∀ activityId, Dense (after repo t command) activityId

-- `P` holds of every command of a sequence, given the legs that the commands before it leave
def Throughout (P : LegTable → LegCommand → Prop) : LegTable → List LegCommand → Prop
  | _, [] => True
  | t, command :: commands => P t command ∧ Throughout P (after repo t command) commands

end Repository

-- a leg is moved to the position where it is
def StaysInPlace (t : LegTable) (command : LegCommand) : Prop :=
  ∀ now legId newPosition row, command = .reorderLeg now legId newPosition → 1 ≤ newPosition →
    newPosition ≤ MAX_LEGS_PER_ACTIVITY → t.legs.find? legId.val = some row →
      newPosition = row.legNumber

variable {t t' : LegTable} {a : Uuid} {row : LegRow} {n : Nat}

theorem dense_of_perm (h : (t.numbers a).Perm (List.range' 1 n)) : Dense t a := by
  have hlength := h.length_eq
  rw [List.length_range'] at hlength
  rw [Dense, hlength]
  exact h

theorem Dense.congr (h : Dense t a) (hperm : (t'.numbers a).Perm (t.numbers a)) : Dense t' a :=
  dense_of_perm (hperm.trans h)

theorem Dense.mem_iff (h : Dense t a) : n ∈ t.numbers a ↔ 1 ≤ n ∧ n ≤ (t.numbers a).length := by
  rw [List.Perm.mem_iff h, List.mem_range'_1]
  omega

theorem foldr_max_range' (n : Nat) : (List.range' 1 n).foldr max 0 = n := by
  induction n with
  | zero => rfl
  | succ n ih =>
    have hfold : ∀ (xs : List Nat) (m : Nat), xs.foldr max m = max (xs.foldr max 0) m := by
      intro xs m
      induction xs with
      | nil => simp
      | cons x xs ih =>
        rw [List.foldr_cons, List.foldr_cons, ih]
        omega
    rw [List.range'_1_concat, List.foldr_append, List.foldr_cons, List.foldr_nil, hfold, ih]
    omega

theorem Dense.next (h : Dense t a) : (t.numbers a).foldr max 0 = (t.numbers a).length := by
  have hfold : (t.numbers a).foldr max 0 = (List.range' 1 (t.numbers a).length).foldr max 0 :=
    List.Perm.foldr_eq' h (fun x _ y _ z => by omega) 0
  rw [hfold, foldr_max_range']

/-
Adding a leg.
-/

theorem Numbered.insert (h : Numbered t) (hid : t.legs.find? row.id = none)
    (hnumber : row.legNumber = (t.numbers row.activityId).length + 1)
    (hlength : row.legNumber ≤ MAX_LEGS_PER_ACTIVITY)
    : ∃ t', t.insert row = .ok t' ∧ Numbered t' := by
  have hfree : row.legNumber ∉ t.numbers row.activityId := by
    rw [(h.dense row.activityId).mem_iff]
    omega
  obtain ⟨t', hinsert, hadded, hothers⟩ := LegTable.insert_of_free hid hfree
  refine ⟨t', hinsert, ?_, ?_⟩
  . intro activityId
    by_cases ha : activityId = row.activityId
    . subst ha
      apply dense_of_perm (n := (t.numbers row.activityId).length + 1)
      rw [hadded, List.range'_1_concat, hnumber, Nat.add_comm 1]
      exact (h.dense row.activityId).append_right _
    . rw [Dense, hothers activityId ha]
      exact h.dense activityId
  . intro activityId
    by_cases ha : activityId = row.activityId
    . subst ha
      rw [hadded, List.length_append, List.length_singleton, ← hnumber]
      exact hlength
    . rw [hothers activityId ha]
      exact h.length_le activityId

theorem run_saveLeg_of_ok {leg : Leg} (h : t.insert leg.toRow = .ok t')
    : (saveLeg leg).run t = (.ok (), t') := by
  unfold saveLeg
  rw [LegM.run_bind_of_ok (LegM.run_get t), h]
  rfl

theorem run_saveLeg_of_error {leg : Leg} {constraint : String} (h : t.insert leg.toRow = .error constraint)
    : (saveLeg leg).run t = (.error (uniqueViolation constraint), t) := by
  unfold saveLeg
  rw [LegM.run_bind_of_ok (LegM.run_get t), h]
  rfl

section Add

variable (repo : PgLegRepository) (now : Timestamp) (id : LegId) (activityId : ActivityId)
  (date : NaiveDate) (sourceRevisionId : Option SourceRevisionId)
  (recordedTrackId : Option RecordedTrackId)

theorem run_addLeg_of_full (title : Option String) (h : Numbered t)
    (hfull : MAX_LEGS_PER_ACTIVITY ≤ (t.numbers activityId.val).length)
    : (addLeg now id activityId title date sourceRevisionId recordedTrackId).run t
        = (.error (.maxLegsExceeded activityId MAX_LEGS_PER_ACTIVITY), t) := by
  unfold addLeg
  rw [LegM.run_bind_of_ok (run_nextLegNumber activityId t), (h.dense activityId.val).next]
  rw [if_pos (Nat.lt_succ_of_le hfull)]
  rfl

theorem run_addLeg_of_invalid {value : String} {e : LegError} (h : Numbered t)
    (hroom : (t.numbers activityId.val).length < MAX_LEGS_PER_ACTIVITY)
    (htitle : LegTitle.new value = .error e)
    : (addLeg now id activityId (some value) date sourceRevisionId recordedTrackId).run t
        = (.error e, t) := by
  unfold addLeg
  rw [LegM.run_bind_of_ok (run_nextLegNumber activityId t), (h.dense activityId.val).next]
  rw [if_neg (Nat.not_lt.mpr hroom)]
  simp only [Option.mapM_some, htitle]
  rfl

theorem run_addLeg_of_room (title : Option String) (h : Numbered t)
    (hroom : (t.numbers activityId.val).length < MAX_LEGS_PER_ACTIVITY)
    (hvalid : ∀ value, title = some value → ∃ legTitle, LegTitle.new value = .ok legTitle)
    : ∃ leg : Leg, leg.id = id ∧ leg.activityId = activityId
        ∧ leg.legNumber = (t.numbers activityId.val).length + 1
        ∧ (addLeg now id activityId title date sourceRevisionId recordedTrackId).run t
          = (saveLeg leg >>= fun _ => pure leg).run t := by
  have htitle : ∃ legTitle : Option LegTitle,
      (title.mapM (m := LegM) fun title => liftM (LegTitle.new title)).run t = (.ok legTitle, t) := by
    cases title with
    | none => exact ⟨none, rfl⟩
    | some value =>
      obtain ⟨legTitle, hnew⟩ := hvalid value rfl
      refine ⟨some legTitle, ?_⟩
      simp only [Option.mapM_some, hnew]
      rfl
  obtain ⟨legTitle, htitle⟩ := htitle
  obtain ⟨leg, hnew, hid, hactivity, hnumber⟩ :=
    Leg.new_of_valid (Nat.le_add_left 1 (t.numbers activityId.val).length) hroom now id activityId
      legTitle date sourceRevisionId recordedTrackId
  refine ⟨leg, hid, hactivity, hnumber, ?_⟩
  unfold addLeg
  rw [LegM.run_bind_of_ok (run_nextLegNumber activityId t), (h.dense activityId.val).next]
  rw [if_neg (Nat.not_lt.mpr hroom)]
  rw [LegM.run_bind_of_ok htitle, hnew]
  rfl

end Add

/-
Moving a leg.
-/

section Reorder

variable (repo : PgLegRepository) (now : Timestamp) (legId : LegId) (newPosition : Nat)

theorem run_currentPosition (hrow : t.legs.find? legId.val = some row)
    : (repo.currentPosition ⟨row.activityId⟩ legId).run t = (.ok (some row.legNumber), t) := by
  cases repo with
  | platform =>
    have hrun : (PgLegRepository.platform.currentPosition ⟨row.activityId⟩ legId).run t
        = (.ok (((t.legs.find? legId.val).filter fun other => other.activityId = row.activityId).map
          (·.legNumber)), t) := rfl
    rw [hrun, hrow]
    simp [Option.filter]
  | infrastructure =>
    have hrun : (PgLegRepository.infrastructure.currentPosition ⟨row.activityId⟩ legId).run t
        = (.ok (((t.legs.find? legId.val).map rowToLeg).map (·.legNumber)), t) := rfl
    rw [hrun, hrow]
    rfl

theorem run_reorderLeg_of_found (hone : 1 ≤ newPosition) (hmax : newPosition ≤ MAX_LEGS_PER_ACTIVITY)
    (hrow : t.legs.find? legId.val = some row)
    : (reorderLeg repo now legId newPosition).run t
        = (repo.reorderLegs now ⟨row.activityId⟩ legId newPosition).run t := by
  unfold reorderLeg
  rw [if_neg (Nat.not_lt.mpr hone), if_neg (Nat.not_lt.mpr hmax)]
  have hfind := run_findLeg legId t
  rw [hrow, Option.map_some] at hfind
  show ((findLeg legId) >>= _).run t = _
  rw [LegM.run_bind_of_ok hfind]
  rfl

theorem run_reorderLegs_of_same (hrow : t.legs.find? legId.val = some row)
    : (repo.reorderLegs now ⟨row.activityId⟩ legId row.legNumber).run t = (.ok (), t) := by
  unfold PgLegRepository.reorderLegs
  rw [LegM.run_bind_of_ok (run_currentPosition repo legId hrow)]
  simp only [if_true]
  rfl

-- the statement that shifts the legs in between is refused
theorem run_reorderLegs_of_clash (hrow : t.legs.find? legId.val = some row)
    {between : LegRow} (hbetween : between ∈ t.legs.rows) (hactivity : between.activityId = row.activityId)
    (hmoves : newPosition < row.legNumber ∧ newPosition ≤ between.legNumber
        ∧ between.legNumber + 1 = row.legNumber
      ∨ row.legNumber < newPosition ∧ between.legNumber ≤ newPosition
        ∧ between.legNumber = row.legNumber + 1)
    : (repo.reorderLegs now ⟨row.activityId⟩ legId newPosition).run t
        = (.error (uniqueViolation "legs_activity_id_leg_number_key"), t) := by
  have hmem := Sql.Table.mem_of_find? hrow
  have hid := Sql.Table.key_of_find? hrow
  have hne : between.id ≠ row.id := by
    intro hsame
    have heq := t.legs.eq_of_key_eq hbetween hmem hsame
    rw [heq] at hmoves
    omega
  have hshifts : repo.shifts legId between = true := by
    cases repo with
    | platform => rfl
    | infrastructure =>
      rw [hid] at hne
      simp [PgLegRepository.shifts, hne]
  unfold PgLegRepository.reorderLegs
  rw [LegM.run_bind_of_ok (run_currentPosition repo legId hrow)]
  simp only
  rcases hmoves with ⟨hup, hle, hnumber⟩ | ⟨hdown, hle, hnumber⟩
  . rw [if_neg (by omega), if_pos hup]
    apply LegM.run_bind_of_error
    apply run_executeUpdate_of_none
    apply LegTable.update?_eq_none_of_clash hbetween hmem hne
    . simp [hactivity, hle, hshifts]
      omega
    . simp
    . exact Prod.ext hactivity hnumber
  . rw [if_neg (by omega), if_neg (by omega)]
    apply LegM.run_bind_of_error
    apply run_executeUpdate_of_none
    apply LegTable.update?_eq_none_of_clash hbetween hmem hne
    . simp [hactivity, hle, hshifts]
      omega
    . simp
    . exact Prod.ext hactivity (Nat.sub_eq_of_eq_add hnumber)

-- among dense numbers there is a leg in between, unless the last one moves on
theorem run_reorderLegs_of_moves (hdense : Dense t row.activityId) (hrow : t.legs.find? legId.val = some row)
    (hone : 1 ≤ newPosition) (hne : newPosition ≠ row.legNumber)
    (hlast : ¬(row.legNumber < newPosition ∧ row.legNumber = (t.numbers row.activityId).length))
    : (repo.reorderLegs now ⟨row.activityId⟩ legId newPosition).run t
        = (.error (uniqueViolation "legs_activity_id_leg_number_key"), t) := by
  have hnumber : row.legNumber ∈ t.numbers row.activityId :=
    LegTable.mem_numbers.mpr ⟨legId.val, row, hrow, rfl, rfl⟩
  have hbounds := hdense.mem_iff.mp hnumber
  have hnext : ∀ number, 1 ≤ number → number ≤ (t.numbers row.activityId).length →
      ∃ between ∈ t.legs.rows, between.activityId = row.activityId ∧ between.legNumber = number := by
    intro number hge hle
    obtain ⟨_, between, hbetween, hactivity, hnumber⟩ := LegTable.mem_numbers.mp (hdense.mem_iff.mpr ⟨hge, hle⟩)
    exact ⟨between, Sql.Table.mem_of_find? hbetween, hactivity, hnumber⟩
  by_cases hup : newPosition < row.legNumber
  . obtain ⟨between, hbetween, hactivity, hnumber⟩ := hnext (row.legNumber - 1) (by omega) (by omega)
    exact run_reorderLegs_of_clash repo now legId newPosition hrow hbetween hactivity
      (.inl ⟨hup, by omega, by omega⟩)
  . obtain ⟨between, hbetween, hactivity, hnumber⟩ := hnext (row.legNumber + 1) (by omega) (by omega)
    exact run_reorderLegs_of_clash repo now legId newPosition hrow hbetween hactivity
      (.inr ⟨by omega, by omega, hnumber⟩)

-- no leg is in between, and the moved one leaves its number
theorem run_reorderLegs_of_gap (hrow : t.legs.find? legId.val = some row)
    (hdown : row.legNumber < newPosition)
    (hlast : ∀ number ∈ t.numbers row.activityId, number ≤ row.legNumber)
    : ∃ t' rest, (repo.reorderLegs now ⟨row.activityId⟩ legId newPosition).run t = (.ok (), t')
        ∧ t'.legs = t.legs.updateWhere (fun row => row.id = legId.val)
          (fun row => { row with legNumber := newPosition, updatedAt := now }) (fun _ => rfl)
        ∧ (t.numbers row.activityId).Perm (row.legNumber :: rest)
        ∧ (t'.numbers row.activityId).Perm (newPosition :: rest) := by
  have hfree : newPosition ∉ t.numbers row.activityId := by
    intro hmem
    have hle := hlast newPosition hmem
    omega
  obtain ⟨t', rest, hupdate, hlegs, hbefore, hafter, _⟩ :=
    LegTable.update?_of_free (fun row => { row with legNumber := newPosition, updatedAt := now })
      (fun _ => rfl) hrow rfl hfree
  refine ⟨t', rest, ?_, hlegs, hbefore, hafter⟩
  unfold PgLegRepository.reorderLegs
  rw [LegM.run_bind_of_ok (run_currentPosition repo legId hrow)]
  simp only
  rw [if_neg (by omega), if_neg (by omega)]
  refine (run_bind_executeUpdate ?_ _).trans (run_executeUpdate_of_some hupdate)
  intro other hother
  rw [decide_eq_false_iff_not]
  rintro ⟨hactivity, hlt, _⟩
  have hmem : other.legNumber ∈ t.numbers row.activityId :=
    LegTable.mem_numbers.mpr ⟨other.id, other, Sql.Table.find?_of_mem hother, hactivity, rfl⟩
  have hle := hlast other.legNumber hmem
  omega

end Reorder

/-
Removing a leg.
-/

-- a leg that has been read gets another number
theorem exists_numbered (now : Timestamp) {leg : Leg} {number : Nat} {numbers : List Nat}
    (hrow : t.legs.find? leg.id.val = some row) (hactivity : row.activityId = a)
    (hnumber : row.legNumber = leg.legNumber) (hfree : number ∉ t.numbers a)
    (hnumbers : (t.numbers a).Perm (leg.legNumber :: numbers))
    : ∃ t', (updateLeg { leg with legNumber := number, updatedAt := now }).run t = (.ok (), t')
        ∧ (∀ id, id ≠ leg.id.val → t'.legs.find? id = t.legs.find? id)
        ∧ (t'.numbers a).Perm (number :: numbers)
        ∧ ∀ b, b ≠ a → (t'.numbers b).Perm (t.numbers b) := by
  rw [← hactivity] at hfree
  obtain ⟨t', rest, hupdate, hlegs, hbefore, hafter, hothers⟩ :=
    LegTable.update?_of_free
      (fun row => { row with
        legNumber := number
        title := leg.title.map (·.val)
        date := leg.date
        sourceRevisionId := leg.sourceRevisionId.map (·.val)
        recordedTrackId := leg.recordedTrackId.map (·.val)
        updatedAt := now
      })
      (fun _ => rfl) hrow rfl hfree
  rw [hactivity] at hbefore hafter hothers
  refine ⟨t', run_executeUpdate_of_some hupdate, ?_, ?_, hothers⟩
  . intro id hne
    rw [hlegs, Sql.Table.find?_updateWhere]
    cases hfound : t.legs.find? id with
    | none => rfl
    | some found =>
      have hid := Sql.Table.key_of_find? hfound
      rw [Option.map_some, if_neg]
      rw [decide_eq_true_eq, hid]
      exact hne
  . have hrest : rest.Perm numbers := by
      have hcons := hbefore.symm.trans hnumbers
      rw [hnumber] at hcons
      exact hcons.cons_inv
    exact hafter.trans (hrest.cons number)

/--
The loop of `remove_leg`: `idx` legs have their numbers, the remaining ones get the next numbers.
-/
theorem run_renumber (now : Timestamp) (remaining : List Leg) (idx : Nat)
    (hrows : ∀ leg ∈ remaining, ∃ row, t.legs.find? leg.id.val = some row ∧ row.activityId = a
      ∧ row.legNumber = leg.legNumber)
    (hids : (remaining.map (·.id)).Nodup)
    (hsorted : (remaining.map (·.legNumber)).Pairwise (· < ·))
    (hgt : ∀ leg ∈ remaining, idx < leg.legNumber)
    (hnumbers : (t.numbers a).Perm (List.range' 1 idx ++ remaining.map (·.legNumber)))
    (hmax : idx + remaining.length ≤ MAX_LEGS_PER_ACTIVITY)
    : ∃ t', (renumber now idx remaining).run t = (.ok (), t')
        ∧ (t'.numbers a).Perm (List.range' 1 (idx + remaining.length))
        ∧ ∀ b, b ≠ a → (t'.numbers b).Perm (t.numbers b) := by
  induction remaining generalizing idx t with
  | nil =>
    refine ⟨t, rfl, ?_, fun _ _ => List.Perm.refl _⟩
    simpa using hnumbers
  | cons leg remaining ih =>
    rw [List.map_cons, List.nodup_cons] at hids
    rw [List.map_cons, List.pairwise_cons] at hsorted
    rw [List.length_cons] at hmax
    have hleg := hgt leg List.mem_cons_self
    have hrange : List.range' 1 (idx + 1) = List.range' 1 idx ++ [idx + 1] := by
      rw [List.range'_1_concat, Nat.add_comm 1]
    have hlength : idx + 1 + remaining.length = idx + (leg :: remaining).length := by
      rw [List.length_cons]
      omega
    -- the legs behind this one, once it has the number `idx + 1`
    have hnext : ∀ t₁ : LegTable,
        (∀ other ∈ remaining, t₁.legs.find? other.id.val = t.legs.find? other.id.val) →
          (t₁.numbers a).Perm (List.range' 1 idx ++ (idx + 1) :: remaining.map (·.legNumber)) →
            ∃ t', (renumber now (idx + 1) remaining).run t₁ = (.ok (), t')
              ∧ (t'.numbers a).Perm (List.range' 1 (idx + (leg :: remaining).length))
              ∧ ∀ b, b ≠ a → (t'.numbers b).Perm (t₁.numbers b) := by
      intro t₁ hkept hperm
      rw [← hlength]
      apply ih
      . intro other hother
        rw [hkept other hother]
        exact hrows other (List.mem_cons_of_mem leg hother)
      . exact hids.2
      . exact hsorted.2
      . intro other hother
        have hlt := hsorted.1 other.legNumber (List.mem_map_of_mem hother)
        omega
      . rw [hrange, List.append_assoc, List.singleton_append]
        exact hperm
      . omega
    unfold renumber
    by_cases hsame : leg.legNumber = idx + 1
    . rw [if_neg (not_not.mpr hsame)]
      rw [List.map_cons, hsame] at hnumbers
      exact hnext t (fun _ _ => rfl) hnumbers
    . obtain ⟨row, hrow, hactivity, hnumber⟩ := hrows leg List.mem_cons_self
      have hfree : idx + 1 ∉ t.numbers a := by
        rw [hnumbers.mem_iff, List.mem_append, List.mem_range'_1, List.map_cons, List.mem_cons]
        rintro (hdone | heq | hlater)
        . omega
        . exact hsame heq.symm
        . have hlt := hsorted.1 _ hlater
          omega
      obtain ⟨t₁, hupdate, hkept, hnumbered, hothers⟩ :=
        exists_numbered now hrow hactivity hnumber hfree (hnumbers.trans List.perm_middle)
      have hkept : ∀ other ∈ remaining, t₁.legs.find? other.id.val = t.legs.find? other.id.val := by
        intro other hother
        apply hkept
        intro hval
        apply hids.1
        have hid : other.id = leg.id := congrArg LegId.mk hval
        rw [← hid]
        exact List.mem_map_of_mem hother
      obtain ⟨t', hrun, hdense, hframe⟩ := hnext t₁ hkept (hnumbered.trans List.perm_middle.symm)
      refine ⟨t', ?_, hdense, fun b hb => (hframe b hb).trans (hothers b hb)⟩
      have hvalid := Leg.updateLegNumber_of_valid (Nat.le_add_left 1 idx) (by omega) now leg
      rw [if_pos hsame]
      rw [LegM.run_bind_of_ok (a := { leg with legNumber := idx + 1, updatedAt := now }) (by rw [hvalid]; rfl)]
      exact (LegM.run_bind_of_ok hupdate _).trans hrun

-- the legs that `remove_leg` numbers anew
structure Remaining (t : LegTable) (activityId : Uuid) (legs : List Leg) : Prop where
  rows : ∀ leg ∈ legs, ∃ row, t.legs.find? leg.id.val = some row ∧ row.activityId = activityId
    ∧ row.legNumber = leg.legNumber
  ids : (legs.map (·.id)).Nodup
  sorted : (legs.map (·.legNumber)).Pairwise (· < ·)
  numbers : (t.numbers activityId).Perm (legs.map (·.legNumber))

theorem remaining_listed (t : LegTable) (activityId : Uuid)
    : Remaining t activityId
        (((t.legs.selectOrdered (fun row => row.activityId = activityId) (·.legNumber)).map
          rowToLeg).insertionSort fun a b => a.legNumber ≤ b.legNumber) := by
  have hperm : (t.legs.selectOrdered (fun row => row.activityId = activityId) (·.legNumber)).Perm
      (t.legs.rows.filter fun row => row.activityId = activityId) :=
    List.perm_insertionSort _ _
  have hordered : (t.legs.selectOrdered (fun row => row.activityId = activityId)
      (·.legNumber)).Pairwise fun a b => a.legNumber ≤ b.legNumber :=
    List.pairwise_insertionSort _ _
  have hsort : ((t.legs.selectOrdered (fun row => row.activityId = activityId) (·.legNumber)).map
      rowToLeg).insertionSort (fun a b => a.legNumber ≤ b.legNumber)
        = (t.legs.selectOrdered (fun row => row.activityId = activityId) (·.legNumber)).map rowToLeg := by
    apply List.Pairwise.insertionSort_eq
    rw [List.pairwise_map]
    exact hordered
  have hnumbers : (t.numbers activityId).Perm
      ((t.legs.selectOrdered (fun row => row.activityId = activityId) (·.legNumber)).map
        (·.legNumber)) := (hperm.map LegRow.legNumber).symm
  rw [hsort]
  constructor
  . intro leg hleg
    obtain ⟨row, hrow, rfl⟩ := List.mem_map.mp hleg
    rw [Sql.Table.mem_selectOrdered, decide_eq_true_eq] at hrow
    exact ⟨row, hrow.1, hrow.2, rfl⟩
  . have hkeys := t.legs.nodup_key_selectOrdered (fun row => row.activityId = activityId) (·.legNumber)
    rw [List.map_map]
    apply List.Nodup.of_map LegId.val
    rw [List.map_map]
    exact hkeys
  . rw [List.map_map]
    have hnodup := (hnumbers.nodup_iff).mp (t.nodup_numbers activityId)
    have hle : ((t.legs.selectOrdered (fun row => row.activityId = activityId) (·.legNumber)).map
        (·.legNumber)).Pairwise (· ≤ ·) := by
      rw [List.pairwise_map]
      exact hordered
    exact (hle.and hnodup).imp fun h => Nat.lt_of_le_of_ne h.1 h.2
  . rw [List.map_map]
    exact hnumbers

theorem run_removeLeg (now : Timestamp) {legId : LegId} (h : Numbered t)
    (hrow : t.legs.find? legId.val = some row)
    : ∃ t', (removeLeg now legId).run t = (.ok (), t') ∧ Numbered t' := by
  obtain ⟨hdeleted, hframe⟩ := LegTable.delete_of_find? hrow
  have hremaining := remaining_listed (t.delete legId.val) row.activityId
  have hdense := h.dense row.activityId
  have hlength := hdeleted.length_eq
  have hmax := h.length_le row.activityId
  rw [List.length_cons] at hlength
  have hcount := hremaining.numbers.length_eq
  rw [List.length_map] at hcount
  have hfirst : ∀ leg ∈ ((((t.delete legId.val).legs.selectOrdered
      (fun other => other.activityId = row.activityId) (·.legNumber)).map rowToLeg).insertionSort
        fun a b => a.legNumber ≤ b.legNumber), 0 < leg.legNumber := by
    intro leg hleg
    have hmem : leg.legNumber ∈ (t.delete legId.val).numbers row.activityId :=
      hremaining.numbers.mem_iff.mpr (List.mem_map_of_mem hleg)
    have hnumber := hdense.mem_iff.mp (hdeleted.mem_iff.mpr (List.mem_cons_of_mem _ hmem))
    exact hnumber.1
  obtain ⟨t', hrun, hafter, hothers⟩ :=
    run_renumber now _ 0 hremaining.rows hremaining.ids hremaining.sorted hfirst hremaining.numbers
      (by omega)
  refine ⟨t', ?_, ?_, ?_⟩
  . have hfind := run_findLeg legId t
    rw [hrow, Option.map_some] at hfind
    show ((findLeg legId) >>= _).run t = _
    rw [LegM.run_bind_of_ok hfind]
    simp only
    exact hrun
  . intro b
    by_cases hb : b = row.activityId
    . rw [hb]
      exact dense_of_perm hafter
    . exact (h.dense b).congr ((hothers b hb).trans (hframe b hb))
  . intro b
    by_cases hb : b = row.activityId
    . rw [hb, hafter.length_eq, List.length_range']
      omega
    . rw [((hothers b hb).trans (hframe b hb)).length_eq]
      exact h.length_le b

/-
The commands.
-/

section Repository

variable (repo : PgLegRepository) {command : LegCommand}

theorem execute_addLeg {now : Timestamp} {id : LegId} {activityId : ActivityId} {title : Option String}
    {date : NaiveDate} {sourceRevisionId : Option SourceRevisionId}
    {recordedTrackId : Option RecordedTrackId} (h : Numbered t)
    (hcommand : command = .addLeg now id activityId title date sourceRevisionId recordedTrackId)
    : (ShouldSucceed t command → ((command.execute repo).run t).1 = .ok ())
        ∧ Numbered (after repo t command) := by
  subst hcommand
  have hexecute : ∀ {result : Except LegError Leg} {t' : LegTable},
      (addLeg now id activityId title date sourceRevisionId recordedTrackId).run t = (result, t') →
        ((LegCommand.addLeg now id activityId title date sourceRevisionId recordedTrackId).execute
          repo).run t = (result.map fun _ => (), t') := by
    intro result t' hrun
    cases result with
    | ok leg => exact LegM.run_bind_of_ok hrun _
    | error e => exact LegM.run_bind_of_error hrun _
  unfold after
  by_cases hroom : (t.numbers activityId.val).length < MAX_LEGS_PER_ACTIVITY
  . by_cases hvalid : ∀ value, title = some value → ∃ legTitle, LegTitle.new value = .ok legTitle
    . obtain ⟨leg, rfl, rfl, hnumber, hrun⟩ :=
        run_addLeg_of_room now id activityId date sourceRevisionId recordedTrackId title h hroom hvalid
      by_cases hid : t.legs.find? leg.id.val = none
      . have hlength : leg.toRow.legNumber ≤ MAX_LEGS_PER_ACTIVITY := Nat.le_trans (Nat.le_of_eq hnumber) hroom
        obtain ⟨t', hinsert, hafter⟩ := h.insert hid hnumber hlength
        have hsaved := hrun.trans (LegM.run_bind_of_ok (run_saveLeg_of_ok hinsert) _)
        rw [hexecute hsaved]
        exact ⟨fun _ => rfl, hafter⟩
      . have hrefused : t.insert leg.toRow = .error "legs_pkey" := by
          unfold LegTable.insert
          have htaken : t.legs.insert? leg.toRow = none :=
            t.legs.insert?_eq_none_iff.mpr (Option.isSome_iff_ne_none.mpr hid)
          rw [htaken]
          rfl
        have hfailed := hrun.trans (LegM.run_bind_of_error (run_saveLeg_of_error hrefused) _)
        rw [hexecute hfailed]
        exact ⟨fun hshould => absurd hshould.2.1 hid, h⟩
    . have hinvalid : ∃ value e, title = some value ∧ LegTitle.new value = .error e := by
        push Not at hvalid
        obtain ⟨value, htitle, hnone⟩ := hvalid
        cases hnew : LegTitle.new value with
        | error e => exact ⟨value, e, htitle, hnew⟩
        | ok legTitle => exact absurd hnew (hnone legTitle)
      obtain ⟨value, e, htitle, hnew⟩ := hinvalid
      subst htitle
      have hrun := run_addLeg_of_invalid now id activityId date sourceRevisionId recordedTrackId h hroom
        hnew
      rw [hexecute hrun]
      exact ⟨fun hshould => absurd hshould.2.2 hvalid, h⟩
  . have hrun := run_addLeg_of_full now id activityId date sourceRevisionId recordedTrackId title h
      (Nat.not_lt.mp hroom)
    rw [hexecute hrun]
    exact ⟨fun hshould => absurd hshould.1 hroom, h⟩

theorem execute_removeLeg {now : Timestamp} {legId : LegId} (h : Numbered t)
    (hcommand : command = .removeLeg now legId)
    : (ShouldSucceed t command → ((command.execute repo).run t).1 = .ok ())
        ∧ Numbered (after repo t command) := by
  subst hcommand
  show (_ → ((removeLeg now legId).run t).1 = _) ∧ Numbered ((removeLeg now legId).run t).2
  cases hrow : t.legs.find? legId.val with
  | some row =>
    obtain ⟨t', hrun, hafter⟩ := run_removeLeg now h hrow
    rw [hrun]
    exact ⟨fun _ => rfl, hafter⟩
  | none =>
    have hfind := run_findLeg legId t
    rw [hrow, Option.map_none] at hfind
    have hrun : (removeLeg now legId).run t = (.error (.legNotFound legId), t) :=
      LegM.run_bind_of_ok hfind _
    rw [hrun]
    refine ⟨?_, h⟩
    rintro ⟨row, hfound⟩
    rw [hrow] at hfound
    cases hfound

-- a reordering that is rejected, or moves the leg to where it is
theorem execute_reorderLeg {now : Timestamp} {legId : LegId} {newPosition : Nat} (h : Numbered t)
    (hcommand : command = .reorderLeg now legId newPosition) (hstays : StaysInPlace t command)
    : (ShouldSucceed t command → ((command.execute repo).run t).1 = .ok ())
        ∧ Numbered (after repo t command) := by
  subst hcommand
  show (_ → ((reorderLeg repo now legId newPosition).run t).1 = _)
    ∧ Numbered ((reorderLeg repo now legId newPosition).run t).2
  by_cases hone : 1 ≤ newPosition
  . by_cases hmax : newPosition ≤ MAX_LEGS_PER_ACTIVITY
    . cases hrow : t.legs.find? legId.val with
      | some row =>
        have hsame := hstays now legId newPosition row rfl hone hmax hrow
        have hrun := run_reorderLegs_of_same repo now legId hrow
        rw [run_reorderLeg_of_found repo now legId newPosition hone hmax hrow, hsame, hrun]
        exact ⟨fun _ => rfl, h⟩
      | none =>
        have hfind := run_findLeg legId t
        rw [hrow, Option.map_none] at hfind
        have hrun : (reorderLeg repo now legId newPosition).run t = (.error (.legNotFound legId), t) := by
          unfold reorderLeg
          rw [if_neg (Nat.not_lt.mpr hone), if_neg (Nat.not_lt.mpr hmax)]
          exact LegM.run_bind_of_ok hfind _
        rw [hrun]
        refine ⟨?_, h⟩
        rintro ⟨_, _, row, hfound⟩
        rw [hrow] at hfound
        cases hfound
    . have hrun : (reorderLeg repo now legId newPosition).run t
          = (.error (.maxLegsExceeded ⟨⟨0⟩⟩ MAX_LEGS_PER_ACTIVITY), t) := by
        unfold reorderLeg
        rw [if_neg (Nat.not_lt.mpr hone), if_pos (Nat.not_le.mp hmax)]
        rfl
      rw [hrun]
      exact ⟨fun hshould => absurd hshould.2.1 hmax, h⟩
  . have hrun : (reorderLeg repo now legId newPosition).run t
        = (.error (.invalidLegNumber newPosition "position must be at least 1"), t) := by
      unfold reorderLeg
      rw [if_pos (Nat.not_le.mp hone)]
      rfl
    rw [hrun]
    exact ⟨fun hshould => absurd hshould.1 hone, h⟩

theorem numbered_after (h : Numbered t) (hstays : StaysInPlace t command)
    : (ShouldSucceed t command → ((command.execute repo).run t).1 = .ok ())
        ∧ Numbered (after repo t command) := by
  cases command with
  | addLeg => exact execute_addLeg repo h rfl
  | reorderLeg => exact execute_reorderLeg repo h rfl hstays
  | removeLeg => exact execute_removeLeg repo h rfl

theorem staysInPlace_of_keepsDense (h : Numbered t) (hkeeps : KeepsDense repo t command)
    : StaysInPlace t command := by
  rintro now legId newPosition row rfl hone hmax hrow
  by_contra hne
  obtain ⟨hok, hdense⟩ := hkeeps
  have hactivity := h.dense row.activityId
  have hok := hok ⟨hone, hmax, row, hrow⟩
  have hdense := hdense row.activityId
  unfold after at hdense
  simp only [LegCommand.execute] at hok hdense
  rw [run_reorderLeg_of_found repo now legId newPosition hone hmax hrow] at hok hdense
  by_cases hlast : row.legNumber < newPosition ∧ row.legNumber = (t.numbers row.activityId).length
  . have hall : ∀ number ∈ t.numbers row.activityId, number ≤ row.legNumber := by
      intro number hmem
      have := hactivity.mem_iff.mp hmem
      omega
    obtain ⟨t', rest, hrun, _, hbefore, hafter⟩ :=
      run_reorderLegs_of_gap repo now legId newPosition hrow hlast.1 hall
    rw [hrun] at hdense
    have hdense : Dense t' row.activityId := hdense
    have hmem : newPosition ∈ t'.numbers row.activityId := hafter.mem_iff.mpr List.mem_cons_self
    have hbound := hdense.mem_iff.mp hmem
    have hlength := hafter.length_eq.trans hbefore.length_eq.symm
    omega
  . have hrefused : ((repo.reorderLegs now ⟨row.activityId⟩ legId newPosition).run t).1
        = .error (uniqueViolation "legs_activity_id_leg_number_key") := by
      rw [run_reorderLegs_of_moves repo now legId newPosition hactivity hrow hone hne hlast]
    rw [hrefused] at hok
    cases hok

/--
In every sequence of commands on legs that are numbered densely at first, with either repository: each
command that should succeed does, and the numbers of every activity are dense after each command, exactly
if no reordering moves a leg.
-/
theorem dense_iff_reorders_in_place (t : LegTable) (h : Numbered t)
    (commands : List LegCommand)
    : Throughout repo (KeepsDense repo) t commands ↔ Throughout repo StaysInPlace t commands := by
  induction commands generalizing t with
  | nil => exact Iff.rfl
  | cons command commands ih =>
    have hiff : KeepsDense repo t command ↔ StaysInPlace t command := by
      constructor
      . exact staysInPlace_of_keepsDense repo h
      . intro hstays
        obtain ⟨hok, hafter⟩ := numbered_after repo h hstays
        exact ⟨hok, hafter.dense⟩
    constructor
    . rintro ⟨hkeeps, hrest⟩
      have hstays := hiff.mp hkeeps
      exact ⟨hstays, (ih _ (numbered_after repo h hstays).2).mp hrest⟩
    . rintro ⟨hstays, hrest⟩
      exact ⟨hiff.mpr hstays, (ih _ (numbered_after repo h hstays).2).mpr hrest⟩

end Repository

theorem numbered_empty : Numbered .empty where
  dense := fun _ => List.Perm.refl []
  length_le := fun _ => Nat.zero_le _

def sampleCommands : List LegCommand :=
  [.addLeg 0 ⟨⟨1⟩⟩ ⟨⟨9⟩⟩ none 0 none none, .addLeg 0 ⟨⟨2⟩⟩ ⟨⟨9⟩⟩ none 0 none none]

theorem dense_iff_reorders_in_place_sampleCommands
    : Throughout .platform (KeepsDense .platform) .empty sampleCommands
        ↔ Throughout .platform StaysInPlace .empty sampleCommands :=
  dense_iff_reorders_in_place .platform .empty numbered_empty sampleCommands

-- the two legs of an activity
def sampleLegs : LegTable := sampleCommands.foldl (after .platform) .empty

/--
The second of two legs cannot be moved to the front, with either repository, and moving it behind the
last position leaves a gap.
-/
theorem moving_refused
    : sampleLegs.numbers ⟨9⟩ = [1, 2]
        ∧ ShouldSucceed sampleLegs (.reorderLeg 0 ⟨⟨2⟩⟩ 1)
        ∧ (((LegCommand.reorderLeg 0 ⟨⟨2⟩⟩ 1).execute .platform).run sampleLegs).1
          = .error (uniqueViolation "legs_activity_id_leg_number_key")
        ∧ (((LegCommand.reorderLeg 0 ⟨⟨2⟩⟩ 1).execute .infrastructure).run sampleLegs).1
          = .error (uniqueViolation "legs_activity_id_leg_number_key")
        ∧ (after .platform sampleLegs (.reorderLeg 0 ⟨⟨2⟩⟩ 5)).numbers ⟨9⟩ = [1, 5]
        ∧ ¬Throughout .platform (KeepsDense .platform) .empty
          (sampleCommands ++ [.reorderLeg 0 ⟨⟨2⟩⟩ 1]) := by
  have hshould : ShouldSucceed sampleLegs (.reorderLeg 0 ⟨⟨2⟩⟩ 1) := ⟨by decide, by decide, _, rfl⟩
  have hrefused : (((LegCommand.reorderLeg 0 ⟨⟨2⟩⟩ 1).execute .platform).run sampleLegs).1
      = .error (uniqueViolation "legs_activity_id_leg_number_key") := rfl
  refine ⟨by decide, hshould, hrefused, rfl, by decide, ?_⟩
  rintro ⟨_, _, hkeeps, _⟩
  have hok : (((LegCommand.reorderLeg 0 ⟨⟨2⟩⟩ 1).execute .platform).run sampleLegs).1 = .ok () :=
    hkeeps.1 hshould
  rw [hrefused] at hok
  cases hok

end RecordedActivity
