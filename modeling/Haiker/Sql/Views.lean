import Mathlib.Data.List.Perm.Basic
import Mathlib.Data.List.Perm.Lattice
import Haiker.Sql.Table

/-!
This module contains parts of a table, given by a condition on the rows, and statements that do to a part what
depends on this part alone.
-/

namespace Sql

namespace Table

variable {α κ : Type} {key : α → κ} {t t' : Table key} {p q : α → Bool} {f : α → α}
  {hf : ∀ row, key (f row) = key row}

/--
The rows that meet `q` are the same ones, in the same order.
-/
def SamePart (q : α → Bool) (t t' : Table key) : Prop := t.rows.filter q = t'.rows.filter q

theorem SamePart.refl (q : α → Bool) (t : Table key) : SamePart q t t := rfl

theorem SamePart.mem_iff (h : SamePart q t t') {row : α} (hq : q row = true) : row ∈ t.rows ↔ row ∈ t'.rows := by
  have hmem := congrArg (row ∈ ·) h
  simpa [hq] using hmem

theorem SamePart.filter (h : SamePart q t t') (hp : ∀ row, p row = true → q row = true)
    : t.rows.filter p = t'.rows.filter p := by
  have hfilter : ∀ rows : List α, rows.filter p = (rows.filter q).filter p := by
    intro rows
    rw [List.filter_filter]
    apply List.filter_congr
    intro row _
    cases hrow : p row with
    | false => simp
    | true => simp [hp row hrow]
  rw [hfilter, hfilter t'.rows, h]

theorem SamePart.selectOrdered (h : SamePart q t t') (hp : ∀ row, p row = true → q row = true)
    (column : α → Nat) : t.selectOrdered p column = t'.selectOrdered p column := by
  unfold Table.selectOrdered
  rw [h.filter hp]

/-
A condition that an update keeps.
-/

theorem filter_rows_updateWhere (hq : ∀ row ∈ t.rows, p row = true → q (f row) = q row)
    : (t.updateWhere p f hf).rows.filter q
        = (t.rows.filter q).map fun row => if p row then f row else row := by
  unfold updateWhere
  rw [List.filter_map]
  congr 1
  apply List.filter_congr
  intro row hrow
  simp only [Function.comp]
  split
  . next hp => exact hq row hrow hp
  . rfl

theorem SamePart.updateWhere (h : SamePart q t t') (hq : ∀ row, q (f row) = q row)
    : SamePart q (t.updateWhere p f hf) (t'.updateWhere p f hf) := by
  unfold SamePart
  rw [filter_rows_updateWhere fun row _ _ => hq row, filter_rows_updateWhere fun row _ _ => hq row, h]

theorem SamePart.updateWhere_other (h : SamePart q t t') (hq : ∀ row, q (f row) = q row)
    (hp : ∀ row ∈ t.rows, p row = true → q row = false) : SamePart q (t.updateWhere p f hf) t' := by
  unfold SamePart
  rw [filter_updateWhere, h]
  intro row hrow hmet
  rw [hq]
  exact ⟨hp row hrow hmet, hp row hrow hmet⟩

theorem rows_deleteWhere_filter : (t.deleteWhere p).rows.filter q = (t.rows.filter q).filter fun row => !p row := by
  rw [deleteWhere, List.filter_comm]

theorem SamePart.deleteWhere (h : SamePart q t t') : SamePart q (t.deleteWhere p) (t'.deleteWhere p) := by
  unfold SamePart
  rw [rows_deleteWhere_filter, rows_deleteWhere_filter, h]

theorem SamePart.deleteWhere_other (h : SamePart q t t') (hp : ∀ row ∈ t.rows, p row = true → q row = false)
    : SamePart q (t.deleteWhere p) t' := by
  unfold SamePart
  rw [rows_deleteWhere_filter, ← h, List.filter_eq_self]
  intro row hrow
  obtain ⟨hmem, hq⟩ := List.mem_filter.mp hrow
  cases hmet : p row with
  | false => rfl
  | true => rw [hp row hmem hmet] at hq; cases hq

variable [DecidableEq κ]

theorem SamePart.insert? {row : α} {u u' : Table key} (h : SamePart q t t') (hu : t.insert? row = some u)
    (hu' : t'.insert? row = some u') : SamePart q u u' := by
  unfold SamePart
  rw [rows_insert? hu, rows_insert? hu', List.filter_append, List.filter_append, h]

theorem SamePart.insert?_other {row : α} {u : Table key} (h : SamePart q t t') (hq : q row = false)
    (hu : t.insert? row = some u) : SamePart q u t' := by
  unfold SamePart
  rw [rows_insert? hu, List.filter_append, ← h]
  simp [hq]

/-
Rows by their keys.
-/

theorem SamePart.find?_eq_some_iff (h : SamePart q t t') {k : κ} {row : α} (hq : q row = true)
    : t.find? k = some row ↔ t'.find? k = some row := by
  rw [Table.find?_eq_some_iff, Table.find?_eq_some_iff, h.mem_iff hq]

/--
Under the same key both tables have the same row of the part, or rows outside of it, or none.
-/
theorem SamePart.find? (h : SamePart q t t') (k : κ)
    : t.find? k = t'.find? k
        ∨ (∀ row, t.find? k = some row → q row = false) ∧ ∀ row, t'.find? k = some row → q row = false := by
  by_cases hown : ∃ row, t.find? k = some row ∧ q row = true
  . obtain ⟨row, hrow, hq⟩ := hown
    rw [hrow, (h.find?_eq_some_iff hq).mp hrow]
    exact .inl rfl
  . refine .inr ⟨?_, ?_⟩
    . intro row hrow
      by_contra hq
      exact hown ⟨row, hrow, by simpa using hq⟩
    . intro row hrow
      by_contra hq
      have hq : q row = true := by simpa using hq
      exact hown ⟨row, (h.find?_eq_some_iff hq).mpr hrow, hq⟩

end Table

/-
Values that do not repeat, part by part.
-/

variable {α β : Type} {q : α → Bool} {f : α → β}

theorem nodup_map_iff_of_parts (hq : ∀ a b, f a = f b → q a = q b) (rows : List α)
    : (rows.map f).Nodup
        ↔ ((rows.filter q).map f).Nodup ∧ ((rows.filter fun row => !q row).map f).Nodup := by
  have hperm : (rows.filter q ++ rows.filter fun row => !q row).Perm rows := List.filter_append_perm q rows
  rw [← (hperm.map f).nodup_iff, List.map_append, List.nodup_append]
  constructor
  . intro h
    exact ⟨h.1, h.2.1⟩
  . intro h
    refine ⟨h.1, h.2, ?_⟩
    intro b hb b' hb' heq
    obtain ⟨a, ha, rfl⟩ := List.mem_map.mp hb
    obtain ⟨a', ha', rfl⟩ := List.mem_map.mp hb'
    have hsame := hq a a' heq
    rw [(List.mem_filter.mp ha).2] at hsame
    have hother := (List.mem_filter.mp ha').2
    rw [← hsame] at hother
    cases hother

end Sql
