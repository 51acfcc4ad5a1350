import Mathlib.Data.List.Range
import Haiker.RecordedActivity.LegPersistence

/-!
This module contains what each statement on the legs does to the leg numbers of an activity.
-/

open ActivityCatalog (ActivityId)

namespace RecordedActivity

/-
Runs of the commands.
-/

namespace LegM

variable {α β : Type}

@[simp]
theorem run_pure (a : α) (t : LegTable) : (pure a : LegM α).run t = (.ok a, t) := rfl

@[simp]
theorem run_throw (e : LegError) (t : LegTable) : (throw e : LegM α).run t = (.error e, t) := rfl

@[simp]
theorem run_get (t : LegTable) : (get : LegM LegTable).run t = (.ok t, t) := rfl

@[simp]
theorem run_set (t t' : LegTable) : (set t' : LegM Unit).run t = (.ok (), t') := rfl

@[simp]
theorem run_modify (f : LegTable → LegTable) (t : LegTable)
    : (modify f : LegM Unit).run t = (.ok (), f t) := rfl

@[simp]
theorem run_liftM_ok (a : α) (t : LegTable)
    : (liftM (Except.ok a : Except LegError α) : LegM α).run t = (.ok a, t) := rfl

@[simp]
theorem run_liftM_error (e : LegError) (t : LegTable)
    : (liftM (Except.error e : Except LegError α) : LegM α).run t = (.error e, t) := rfl

theorem run_bind (x : LegM α) (f : α → LegM β) (t : LegTable)
    : (x >>= f).run t
        = match x.run t with
          | (.ok a, t) => (f a).run t
          | (.error e, t) => (.error e, t) := by
  unfold run
  simp only [ExceptT.run, bind, ExceptT.bind, ExceptT.mk, StateT.run, StateT.bind]
  rcases x t with ⟨a | e, t'⟩
  . rfl
  . rfl

theorem run_bind_of_ok {x : LegM α} {t t' : LegTable} {a : α} (h : x.run t = (.ok a, t'))
    (f : α → LegM β) : (x >>= f).run t = (f a).run t' := by
  rw [run_bind, h]

theorem run_bind_of_error {x : LegM α} {t t' : LegTable} {e : LegError}
    (h : x.run t = (.error e, t')) (f : α → LegM β) : (x >>= f).run t = (.error e, t') := by
  rw [run_bind, h]

end LegM

theorem Leg.new_of_valid {legNumber : Nat} (hone : 1 ≤ legNumber) (hmax : legNumber ≤ MAX_LEGS_PER_ACTIVITY)
    (now : Timestamp) (id : LegId) (activityId : ActivityId) (title : Option LegTitle) (date : NaiveDate)
    (sourceRevisionId : Option SourceRevisionId) (recordedTrackId : Option RecordedTrackId)
    : ∃ leg, Leg.new now id activityId legNumber title date sourceRevisionId recordedTrackId = .ok leg
        ∧ leg.id = id ∧ leg.activityId = activityId ∧ leg.legNumber = legNumber := by
  unfold Leg.new
  rw [if_neg (Nat.not_lt.mpr hone), if_neg (Nat.not_lt.mpr hmax)]
  exact ⟨_, rfl, rfl, rfl, rfl⟩

theorem Leg.updateLegNumber_of_valid {legNumber : Nat} (hone : 1 ≤ legNumber)
    (hmax : legNumber ≤ MAX_LEGS_PER_ACTIVITY) (now : Timestamp) (leg : Leg)
    : leg.updateLegNumber now legNumber = .ok { leg with legNumber, updatedAt := now } := by
  unfold Leg.updateLegNumber
  rw [if_neg (Nat.not_lt.mpr hone), if_neg (Nat.not_lt.mpr hmax)]
  rfl

variable {t t' : LegTable} {a b k : Uuid} {row : LegRow} {f : LegRow → LegRow}
  {hf : ∀ row, (f row).id = row.id} {p : LegRow → Bool}

theorem run_executeUpdate_of_some (h : t.update? p f hf = some t')
    : (executeUpdate p f hf).run t = (.ok (), t') := by
  unfold executeUpdate
  rw [LegM.run_bind_of_ok (LegM.run_get t), h]
  rfl

theorem run_executeUpdate_of_none (h : t.update? p f hf = none)
    : (executeUpdate p f hf).run t
        = (.error (uniqueViolation "legs_activity_id_leg_number_key"), t) := by
  unfold executeUpdate
  rw [LegM.run_bind_of_ok (LegM.run_get t), h]
  rfl

theorem run_findLeg (legId : LegId) (t : LegTable)
    : (findLeg legId).run t = (.ok ((t.legs.find? legId.val).map rowToLeg), t) := rfl

theorem run_listLegs (activityId : ActivityId) (t : LegTable)
    : (listLegs activityId).run t
        = (.ok ((t.legs.selectOrdered (fun row => row.activityId = activityId.val)
          (·.legNumber)).map rowToLeg), t) := rfl

theorem run_nextLegNumber (activityId : ActivityId) (t : LegTable)
    : (nextLegNumber activityId).run t
        = (.ok ((t.numbers activityId.val).foldr max 0 + 1), t) := rfl

namespace LegTable

theorem mem_numbers {number : Nat}
    : number ∈ t.numbers a
        ↔ ∃ k row, t.legs.find? k = some row ∧ row.activityId = a ∧ row.legNumber = number := by
  unfold numbers
  rw [List.mem_map]
  constructor
  . rintro ⟨row, hmem, hnumber⟩
    rw [List.mem_filter, decide_eq_true_eq] at hmem
    exact ⟨row.id, row, Sql.Table.find?_of_mem hmem.1, hmem.2, hnumber⟩
  . rintro ⟨k, row, hrow, ha, hnumber⟩
    refine ⟨row, ?_, hnumber⟩
    rw [List.mem_filter, decide_eq_true_eq]
    exact ⟨Sql.Table.mem_of_find? hrow, ha⟩

-- two legs with one number are one leg
theorem eq_of_place_eq {row' : LegRow} (h : row ∈ t.legs.rows) (h' : row' ∈ t.legs.rows)
    (ha : row.activityId = row'.activityId) (hnumber : row.legNumber = row'.legNumber)
    : row = row' := by
  apply List.inj_on_of_nodup_map t.unique h h'
  exact Prod.ext ha hnumber

theorem nodup_numbers (t : LegTable) (a : Uuid) : (t.numbers a).Nodup := by
  unfold numbers
  apply List.Nodup.map_on
  . intro row hrow row' hrow' hnumber
    rw [List.mem_filter, decide_eq_true_eq] at hrow hrow'
    exact eq_of_place_eq hrow.1 hrow'.1 (hrow.2.trans hrow'.2.symm) hnumber
  . exact List.Nodup.filter _ (List.Nodup.of_map _ t.unique)

-- the numbers of the rows beside one, and whether it counts
theorem numbers_of_rows {before after : List LegRow} (hrows : t.legs.rows = before ++ row :: after)
    : (t.numbers a).Perm
        ((if row.activityId = a then [row.legNumber] else [])
          ++ (((before ++ after).filter fun row => row.activityId = a).map (·.legNumber))) := by
  have hperm : t.legs.rows.Perm (row :: (before ++ after)) := by
    rw [hrows]
    exact List.perm_middle
  have hnumbers := (hperm.filter fun row => decide (row.activityId = a)).map (·.legNumber)
  unfold numbers
  refine hnumbers.trans ?_
  rw [List.filter_cons]
  split
  . next ha =>
    rw [decide_eq_true_eq] at ha
    rw [if_pos ha, List.map_cons, List.singleton_append]
  . next ha =>
    rw [decide_eq_true_eq] at ha
    rw [if_neg ha, List.nil_append]

theorem update?_eq_some (h : ((t.legs.updateWhere p f hf).rows.map LegRow.place).Nodup)
    : t.update? p f hf = some ⟨t.legs.updateWhere p f hf, h⟩ := by
  unfold update?
  simp only [dif_pos h]

theorem update?_of_free (f : LegRow → LegRow) (hf : ∀ row, (f row).id = row.id)
    (hrow : t.legs.find? k = some row) (hactivity : (f row).activityId = row.activityId)
    (hfree : (f row).legNumber ∉ t.numbers row.activityId)
    : ∃ t' rest, t.update? (fun row => row.id = k) f hf = some t'
        ∧ t'.legs = t.legs.updateWhere (fun row => row.id = k) f hf
        ∧ (t.numbers row.activityId).Perm (row.legNumber :: rest)
        ∧ (t'.numbers row.activityId).Perm ((f row).legNumber :: rest)
        ∧ ∀ b, b ≠ row.activityId → (t'.numbers b).Perm (t.numbers b) := by
  obtain ⟨before, after, hrows, hothers⟩ := Sql.Table.exists_rows_of_find? hrow
  have hid := Sql.Table.key_of_find? hrow
  have hupdated := Sql.Table.rows_updateWhere_of_rows hrows hothers hid f hf
  have hnumbers : ∀ b, (t.numbers b).Perm _ := fun b => numbers_of_rows hrows
  have hplaces : ((t.legs.updateWhere (fun row => row.id = k) f hf).rows.map LegRow.place).Nodup := by
    have hunique := t.unique
    rw [hrows, List.map_append, List.map_cons, List.nodup_middle, List.nodup_cons,
      ← List.map_append] at hunique
    rw [hupdated, List.map_append, List.map_cons, List.nodup_middle, List.nodup_cons,
      ← List.map_append]
    refine ⟨?_, hunique.2⟩
    intro hmem
    obtain ⟨other, hother, hplace⟩ := List.mem_map.mp hmem
    rw [LegRow.place, LegRow.place, Prod.mk.injEq, hactivity] at hplace
    apply hfree
    rw [(hnumbers row.activityId).mem_iff, ← hplace.2]
    apply List.mem_append_right
    apply List.mem_map_of_mem
    rw [List.mem_filter, decide_eq_true_eq]
    exact ⟨hother, hplace.1⟩
  refine ⟨⟨_, hplaces⟩,
    ((before ++ after).filter fun other => other.activityId = row.activityId).map (·.legNumber),
    update?_eq_some hplaces, rfl, ?_, ?_, ?_⟩
  . exact (hnumbers row.activityId).trans (by rw [if_pos rfl]; exact List.Perm.refl _)
  . have hafter : (numbers ⟨_, hplaces⟩ row.activityId).Perm _ := numbers_of_rows hupdated
    refine hafter.trans ?_
    rw [hactivity, if_pos rfl]
    exact List.Perm.refl _
  . intro b hb
    have hafter : (numbers ⟨_, hplaces⟩ b).Perm _ := numbers_of_rows hupdated
    refine hafter.trans ?_
    rw [hactivity, if_neg (Ne.symm hb)]
    refine (List.Perm.trans ?_ (hnumbers b).symm)
    rw [if_neg (Ne.symm hb)]

theorem delete_of_find? (hrow : t.legs.find? k = some row)
    : (t.numbers row.activityId).Perm (row.legNumber :: (t.delete k).numbers row.activityId)
        ∧ ∀ b, b ≠ row.activityId → ((t.delete k).numbers b).Perm (t.numbers b) := by
  obtain ⟨before, after, hrows, hothers⟩ := Sql.Table.exists_rows_of_find? hrow
  have hid := Sql.Table.key_of_find? hrow
  have hdeleted : (t.delete k).legs.rows = before ++ after :=
    Sql.Table.rows_deleteWhere_of_rows hrows hothers hid
  have hrest : ∀ b, (t.delete k).numbers b
      = ((before ++ after).filter fun row => row.activityId = b).map (·.legNumber) := by
    intro b
    rw [numbers, hdeleted]
  constructor
  . rw [hrest]
    refine (numbers_of_rows hrows).trans ?_
    rw [if_pos rfl, List.singleton_append]
  . intro b hb
    rw [hrest]
    refine (List.Perm.trans ?_ (numbers_of_rows hrows).symm)
    rw [if_neg (Ne.symm hb), List.nil_append]

theorem insert_of_free (hid : t.legs.find? row.id = none) (hfree : row.legNumber ∉ t.numbers row.activityId)
    : ∃ t', t.insert row = .ok t'
        ∧ t'.numbers row.activityId = t.numbers row.activityId ++ [row.legNumber]
        ∧ ∀ b, b ≠ row.activityId → t'.numbers b = t.numbers b := by
  unfold insert
  cases hinsert : t.legs.insert? row with
  | none =>
    rw [Sql.Table.insert?_eq_none_iff, hid] at hinsert
    cases hinsert
  | some legs =>
    have hrows := Sql.Table.rows_insert? hinsert
    have hplaces : (legs.rows.map LegRow.place).Nodup := by
      rw [hrows, List.map_append, List.map_singleton, ← List.concat_eq_append, List.nodup_concat]
      refine ⟨?_, t.unique⟩
      intro hmem
      obtain ⟨other, hother, hplace⟩ := List.mem_map.mp hmem
      rw [LegRow.place, LegRow.place, Prod.mk.injEq] at hplace
      apply hfree
      rw [mem_numbers]
      exact ⟨other.id, other, Sql.Table.find?_of_mem hother, hplace⟩
    simp only [dif_pos hplaces]
    refine ⟨_, rfl, ?_, ?_⟩
    . simp [numbers, hrows]
    . intro b hb
      simp [numbers, hrows, Ne.symm hb]

theorem update?_eq_none_of_clash {row' : LegRow} (hrow : row ∈ t.legs.rows) (hrow' : row' ∈ t.legs.rows)
    (hne : row.id ≠ row'.id) (hmoved : p row = true) (hstays : p row' = false)
    (hplace : (f row).place = row'.place)
    : t.update? p f hf = none := by
  unfold update?
  simp only
  split
  . next hnodup =>
    exfalso
    apply hne
    have hmoved' : f row ∈ (t.legs.updateWhere p f hf).rows :=
      List.mem_map.mpr ⟨row, hrow, if_pos hmoved⟩
    have hstays' : row' ∈ (t.legs.updateWhere p f hf).rows :=
      List.mem_map.mpr ⟨row', hrow', by rw [hstays]; rfl⟩
    rw [← hf row, List.inj_on_of_nodup_map hnodup hmoved' hstays' hplace]
  . rfl

-- no two rows get the same place that had none in common
theorem update?_of_inj (hf : ∀ row, (f row).id = row.id)
    (h : ∀ row ∈ t.legs.rows, ∀ row' ∈ t.legs.rows,
      (if p row then f row else row).place = (if p row' then f row' else row').place → row.place = row'.place)
    : ∃ t', t.update? p f hf = some t' ∧ t'.legs = t.legs.updateWhere p f hf := by
  refine ⟨_, update?_eq_some ?_, rfl⟩
  show ((t.legs.rows.map fun row => if p row then f row else row).map LegRow.place).Nodup
  rw [List.map_map]
  apply List.Nodup.map_on
  . intro row hrow row' hrow' hplace
    exact List.inj_on_of_nodup_map t.unique hrow hrow' (h row hrow row' hrow' hplace)
  . exact List.Nodup.of_map _ t.unique

theorem update?_of_none (h : ∀ row ∈ t.legs.rows, p row = false) : t.update? p f hf = some t := by
  have hsame : t.legs.updateWhere p f hf = t.legs := by
    apply Sql.Table.ext
    show t.legs.rows.map (fun row => if p row then f row else row) = t.legs.rows
    conv_rhs => rw [← List.map_id t.legs.rows]
    apply List.map_congr_left
    intro row hrow
    rw [h row hrow]
    rfl
  rw [update?_eq_some (by rw [hsame]; exact t.unique)]
  simp only [hsame]

end LegTable

-- a statement that meets no row
theorem run_bind_executeUpdate {α : Type} (h : ∀ row ∈ t.legs.rows, p row = false) (g : Unit → LegM α)
    : (executeUpdate p f hf >>= g).run t = (g ()).run t :=
  LegM.run_bind_of_ok (run_executeUpdate_of_some (LegTable.update?_of_none h)) g

end RecordedActivity
