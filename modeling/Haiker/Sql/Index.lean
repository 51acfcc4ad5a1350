import Haiker.Sql.Table

/-!
This module contains unique indexes over several columns, which may leave rows out, and the statements
that are refused by one. Of unique columns that are never null, every row takes a slot, and a slot is taken by
one row at most.
-/

namespace Sql

namespace Table

variable {α κ ν : Type} {key : α → κ} [DecidableEq κ] [DecidableEq ν]

/--
Another row is in the index under the value of `row`. Rows without a value are not in the index.
-/
def clashes (t : Table key) (index : α → Option ν) (row : α) : Bool :=
  t.rows.any fun other => key other ≠ key row ∧ index row ≠ none ∧ index other = index row

/--
`CREATE UNIQUE INDEX`
-/
def Indexed (index : α → Option ν) (t : Table key) : Prop :=
  ∀ k k' row row' v, t.find? k = some row → t.find? k' = some row' → index row = some v →
    index row' = some v → k = k'

variable {t t' : Table key} {index : α → Option ν} {row : α}

theorem clashes_eq_false_iff
    : t.clashes index row = false
        ↔ ∀ k other v, t.find? k = some other → index row = some v → index other = some v →
          k = key row := by
  unfold clashes
  rw [List.any_eq_false]
  constructor
  . intro h k other v hother hrow hv
    by_contra hne
    apply h other (mem_of_find? hother)
    have hkey := key_of_find? hother
    rw [← hkey] at hne
    simp [hne, hrow, hv]
  . intro h other hmem hclash
    simp only [decide_eq_true_eq] at hclash
    obtain ⟨hne, hsome, hsame⟩ := hclash
    obtain ⟨v, hv⟩ := Option.ne_none_iff_exists'.mp hsome
    rw [hv] at hsame
    exact hne (h (key other) other v (find?_of_mem hmem) hv hsame)

theorem clashes_eq_true_iff
    : t.clashes index row = true
        ↔ ∃ k other v, t.find? k = some other ∧ index row = some v ∧ index other = some v
          ∧ k ≠ key row := by
  rw [← Bool.not_eq_false, clashes_eq_false_iff]
  simp only [not_forall, exists_prop]

theorem clashes_congr
    (h : ∀ v, index row = some v → ∀ k,
      (t'.find? k).bind index = some v ↔ (t.find? k).bind index = some v)
    : t'.clashes index row = t.clashes index row := by
  have hclash : ∀ t₁ t₂ : Table key,
      (∀ v, index row = some v → ∀ k,
        (t₁.find? k).bind index = some v ↔ (t₂.find? k).bind index = some v) →
      t₁.clashes index row = true → t₂.clashes index row = true := by
    intro t₁ t₂ hsame hclashes
    obtain ⟨k, other, v, hother, hrow, hv, hk⟩ := clashes_eq_true_iff.mp hclashes
    have hfound : (t₁.find? k).bind index = some v := by rw [hother, Option.bind_some, hv]
    obtain ⟨other', hother', hv'⟩ := Option.bind_eq_some_iff.mp ((hsame v hrow k).mp hfound)
    exact clashes_eq_true_iff.mpr ⟨k, other', v, hother', hrow, hv', hk⟩
  rw [Bool.eq_iff_iff]
  exact ⟨hclash t' t h, hclash t t' fun v hv k => (h v hv k).symm⟩

omit [DecidableEq ν] in
-- an insertion changes nothing under the values that the new row does not have
theorem bind_find?_insert? (h : t.insert? row = some t') (k : κ) {v : ν} (hv : index row ≠ some v)
    : (t'.find? k).bind index = some v ↔ (t.find? k).bind index = some v := by
  rw [find?_insert? h]
  split
  . next hk =>
    rw [hk, find?_eq_none_of_insert? h, Option.bind_some, Option.bind_none]
    exact iff_of_false hv fun hnone => by cases hnone
  . rfl

omit [DecidableEq ν] in
theorem indexed_iff
    : t.Indexed index
        ↔ ∀ a ∈ t.rows, ∀ b ∈ t.rows, index a ≠ none → index a = index b → key a = key b := by
  constructor
  . intro h a ha b hb hsome hsame
    obtain ⟨v, hv⟩ := Option.ne_none_iff_exists'.mp hsome
    exact h _ _ a b v (find?_of_mem ha) (find?_of_mem hb) hv (hsame ▸ hv)
  . intro h k k' a b v ha hb hva hvb
    rw [← key_of_find? ha, ← key_of_find? hb]
    apply h a (mem_of_find? ha) b (mem_of_find? hb)
    . rw [hva]
      exact Option.some_ne_none v
    . rw [hva, hvb]

omit [DecidableEq ν] in
theorem indexed_empty (index : α → Option ν) : (empty : Table key).Indexed index := by
  intro k k' row row' v hrow
  cases hrow

omit [DecidableEq ν] in
theorem Indexed.eq (h : t.Indexed index) {k k' : κ} {row row' : α} {v : ν} (hrow : t.find? k = some row)
    (hrow' : t.find? k' = some row') (hv : index row = some v) (hv' : index row' = some v)
    : row = row' := by
  have hk := h k k' row row' v hrow hrow' hv hv'
  rw [hk, hrow', Option.some.injEq] at hrow
  exact hrow.symm

theorem Indexed.insert? (h : t.Indexed index) (hinsert : t.insert? row = some t')
    (hfree : t.clashes index row = false) : t'.Indexed index := by
  rw [clashes_eq_false_iff] at hfree
  intro k k' a b v ha hb hva hvb
  rw [find?_insert? hinsert] at ha hb
  split at ha
  . next hk =>
    rw [Option.some.injEq] at ha
    subst ha
    split at hb
    . next hk' => rw [hk, hk']
    . rw [hk, hfree k' b v hb hva hvb]
  . split at hb
    . next hk' =>
      rw [Option.some.injEq] at hb
      subst hb
      rw [hk', hfree k a v ha hvb hva]
    . exact h k k' a b v ha hb hva hvb

theorem Indexed.changed (h : t.Indexed index) {row' : α} (hrow : t'.find? (key row') = some row')
    (hothers : ∀ k, k ≠ key row' → t'.find? k = t.find? k) (hfree : t.clashes index row' = false)
    : t'.Indexed index := by
  rw [clashes_eq_false_iff] at hfree
  intro k k' a b v ha hb hva hvb
  by_cases hk : k = key row'
  . rw [hk, hrow, Option.some.injEq] at ha
    subst ha
    by_cases hk' : k' = key row'
    . rw [hk, hk']
    . rw [hothers k' hk'] at hb
      exact absurd (hfree k' b v hb hva hvb) hk'
  . rw [hothers k hk] at ha
    by_cases hk' : k' = key row'
    . rw [hk', hrow, Option.some.injEq] at hb
      subst hb
      exact absurd (hfree k a v ha hvb hva) hk
    . rw [hothers k' hk'] at hb
      exact h k k' a b v ha hb hva hvb

omit [DecidableEq ν] in
theorem Indexed.updateWhere (h : t.Indexed index) {p : α → Bool} {f : α → α}
    {hf : ∀ row, key (f row) = key row}
    (hkeeps : ∀ k row v, t.find? k = some row → p row = true → index (f row) = some v →
      index row = some v)
    : (t.updateWhere p f hf).Indexed index := by
  have hbefore : ∀ k row v, (t.updateWhere p f hf).find? k = some row → index row = some v →
      ∃ old, t.find? k = some old ∧ index old = some v := by
    intro k row v hrow hv
    rw [find?_updateWhere, Option.map_eq_some_iff] at hrow
    obtain ⟨old, hold, rfl⟩ := hrow
    refine ⟨old, hold, ?_⟩
    split at hv
    . next hp => exact hkeeps k old v hold hp hv
    . exact hv
  intro k k' row row' v hrow hrow' hv hv'
  obtain ⟨old, hold, hvold⟩ := hbefore k row v hrow hv
  obtain ⟨old', hold', hvold'⟩ := hbefore k' row' v hrow' hv'
  exact h k k' old old' v hold hold' hvold hvold'

section Reference

variable {β κ' : Type} {key' : β → κ'} [DecidableEq κ'] {target : Table key'} {column : α → κ'}

/--
`REFERENCES`, to the primary key of the other table
-/
def Refers (column : α → κ') (t : Table key) (target : Table key') : Prop :=
  ∀ k row, t.find? k = some row → ∃ other, target.find? (column row) = some other

-- no row refers to one that is not there yet
theorem Refers.free (h : t.Refers column target) (hnew : target.find? (column row) = none)
    : t.clashes (fun row => some (column row)) row = false := by
  rw [clashes_eq_false_iff]
  intro k other v hother hrow hv
  obtain ⟨referred, hreferred⟩ := h k other hother
  have hsame : column other = column row := Option.some.inj (hv.trans hrow.symm)
  rw [hsame, hnew] at hreferred
  cases hreferred

theorem Refers.insert? (h : t.Refers column target) {target' : Table key'} {other : β}
    (htarget : target.insert? other = some target') (hinsert : t.insert? row = some t')
    (hrow : column row = key' other) : t'.Refers column target' := by
  intro k stored hstored
  obtain rfl | hold := find?_of_insert? hinsert hstored
  . exact ⟨other, by rw [hrow, find?_insert? htarget, if_pos rfl]⟩
  . obtain ⟨referred, hreferred⟩ := h k stored hold
    exact ⟨referred, find?_insert?_of_some htarget hreferred⟩

end Reference

end Table

end Sql

namespace Sql.Table

variable {κ α ν : Type} [DecidableEq κ] [DecidableEq ν] {key : α → κ} (slot : α → ν)

/--
The row takes the slot, and no other row does.
-/
structure Holds (t : Table key) (v : ν) (row : α) : Prop where
  found : t.find? (key row) = some row
  takes : slot row = v
  only : ∀ k' row', t.find? k' = some row' → slot row' = v → k' = key row

/--
Nobody takes the slot, and no row has the key.
-/
structure Vacant (t : Table key) (v : ν) (k : κ) : Prop where
  free : ∀ k' row, t.find? k' = some row → slot row ≠ v
  absent : t.find? k = none

variable {slot} {t t' : Table key} {index : α → Option ν} {row : α}
  (hslot : ∀ row, index row = some (slot row))

include hslot

omit [DecidableEq ν] in
theorem Indexed.holds (h : t.Indexed index) (hrow : row ∈ t.rows) : t.Holds slot (slot row) row where
  found := find?_of_mem hrow
  takes := rfl
  only := by
    intro k' row' hrow' htakes
    apply h k' (key row) row' row (slot row) hrow' (find?_of_mem hrow)
    . rw [hslot, htakes]
    . exact hslot row

theorem clashes_slot_iff (habsent : t.find? (key row) = none)
    : t.clashes index row = true ↔ ∃ k other, t.find? k = some other ∧ slot other = slot row := by
  rw [clashes_eq_true_iff]
  constructor
  . rintro ⟨k, other, v, hother, hv, hsame, _⟩
    rw [hslot, Option.some.injEq] at hv hsame
    exact ⟨k, other, hother, hsame.trans hv.symm⟩
  . rintro ⟨k, other, hother, hsame⟩
    refine ⟨k, other, slot row, hother, hslot row, ?_, ?_⟩
    . rw [hslot, hsame]
    . rintro rfl
      rw [habsent] at hother
      cases hother

theorem vacant_iff
    : t.Vacant slot (slot row) (key row) ↔ t.clashes index row = false ∧ ∃ t', t.insert? row = some t' := by
  constructor
  . intro h
    refine ⟨?_, ?_⟩
    . rw [← Bool.not_eq_true, clashes_slot_iff hslot h.absent]
      rintro ⟨k, other, hother, hsame⟩
      exact h.free k other hother hsame
    . cases hinsert : t.insert? row with
      | none =>
        rw [insert?_eq_none_iff, h.absent] at hinsert
        cases hinsert
      | some t' => exact ⟨t', rfl⟩
  . rintro ⟨hfree, t', hinsert⟩
    have habsent := find?_eq_none_of_insert? hinsert
    refine ⟨?_, habsent⟩
    intro k other hother hsame
    rw [← Bool.not_eq_true, clashes_slot_iff hslot habsent] at hfree
    exact hfree ⟨k, other, hother, hsame⟩

theorem Indexed.holds_insert? (h : t.Indexed index) (hinsert : t.insert? row = some t')
    (hfree : t.clashes index row = false) : t'.Holds slot (slot row) row := by
  apply (h.insert? hinsert hfree).holds hslot
  apply mem_of_find?
  rw [find?_insert? hinsert, if_pos rfl]

end Sql.Table
