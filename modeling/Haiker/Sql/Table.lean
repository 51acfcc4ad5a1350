import Mathlib.Data.List.Sort

/-!
This module contains SQL tables with a unique column, the statements that read and write them, and
what each statement does to the row under a given key.
-/

namespace Sql

/--
The rows of a table, of which no two agree on `key`.
-/
@[ext]
structure Table {α κ : Type} (key : α → κ) where
  rows : List α
  unique : (rows.map key).Nodup

namespace Table

variable {α κ : Type} {key : α → κ}

def empty : Table key where
  rows := []
  unique := List.nodup_nil

section Statements

variable [DecidableEq κ]

/--
`SELECT * FROM t WHERE key = k`
-/
def find? (t : Table key) (k : κ) : Option α := t.rows.find? fun row => key row = k

/--
`INSERT INTO t`, `none` if the key is taken.
-/
def insert? (t : Table key) (row : α) : Option (Table key) :=
  if h : key row ∈ t.rows.map key then
    none
  else
    some {
      rows := t.rows ++ [row]
      unique := by
        rw [List.map_append, List.nodup_append]
        simp only [List.map_cons, List.map_nil, List.nodup_singleton, List.mem_singleton, true_and]
        refine ⟨t.unique, ?_⟩
        rintro a ha b rfl rfl
        exact h ha
    }

/--
`UPDATE t SET f WHERE p`
-/
def updateWhere (t : Table key) (p : α → Bool) (f : α → α) (hf : ∀ row, key (f row) = key row) :
    Table key where
  rows := t.rows.map fun row => if p row then f row else row
  unique := by
    have : key ∘ (fun row => if p row then f row else row) = key := by
      funext row
      simp only [Function.comp]
      split
      . exact hf row
      . rfl
    rw [List.map_map, this]
    exact t.unique

/--
The number of rows that a statement with `WHERE p` affects.
-/
def count (t : Table key) (p : α → Bool) : Nat := t.rows.countP p

/--
`INSERT INTO t ON CONFLICT (key) DO UPDATE SET f`
-/
def upsert (t : Table key) (row : α) (f : α → α) (hf : ∀ row, key (f row) = key row) : Table key :=
  match t.insert? row with
  | some t => t
  | none => t.updateWhere (fun old => key old = key row) f hf

/--
One upsert after the other, `f row` being what the upsert of `row` sets on a conflict.
-/
def upsertAll (t : Table key) (rows : List α) (f : α → α → α)
    (hf : ∀ row old, key (f row old) = key old) : Table key :=
  rows.foldl (fun t row => t.upsert row (f row) (hf row)) t

/--
`DELETE FROM t WHERE p`
-/
def deleteWhere (t : Table key) (p : α → Bool) : Table key where
  rows := t.rows.filter fun row => !p row
  unique := (List.Sublist.map key List.filter_sublist).nodup t.unique

/--
`SELECT * FROM t WHERE p ORDER BY column ASC`
-/
def selectOrdered (t : Table key) (p : α → Bool) (column : α → Nat) : List α :=
  (t.rows.filter p).insertionSort fun a b => column a ≤ column b

end Statements

theorem eq_of_key_eq (t : Table key) {a b : α} (ha : a ∈ t.rows) (hb : b ∈ t.rows)
    (h : key a = key b) : a = b :=
  List.inj_on_of_nodup_map t.unique ha hb h

theorem nodup_key_selectOrdered (t : Table key) (p : α → Bool) (column : α → Nat)
    : ((t.selectOrdered p column).map key).Nodup := by
  have hperm := List.perm_insertionSort (fun a b => column a ≤ column b) (t.rows.filter p)
  rw [selectOrdered, (hperm.map key).nodup_iff]
  exact (List.Sublist.map key List.filter_sublist).nodup t.unique

variable [DecidableEq κ]

theorem find?_eq_some_iff (t : Table key) {k : κ} {row : α}
    : t.find? k = some row ↔ row ∈ t.rows ∧ key row = k := by
  constructor
  . intro h
    have hk := List.find?_some h
    exact ⟨List.mem_of_find?_eq_some h, by simpa using hk⟩
  . rintro ⟨hmem, rfl⟩
    cases h : t.find? (key row) with
    | none =>
      have := List.find?_eq_none.mp h row hmem
      simp at this
    | some other =>
      have hother := List.mem_of_find?_eq_some h
      have hk : key other = key row := by simpa using List.find?_some h
      rw [t.eq_of_key_eq hother hmem hk]

theorem key_of_find? {t : Table key} {k : κ} {row : α} (h : t.find? k = some row) : key row = k :=
  (t.find?_eq_some_iff.mp h).2

theorem mem_of_find? {t : Table key} {k : κ} {row : α} (h : t.find? k = some row) : row ∈ t.rows :=
  (t.find?_eq_some_iff.mp h).1

theorem find?_of_mem {t : Table key} {row : α} (h : row ∈ t.rows) : t.find? (key row) = some row :=
  t.find?_eq_some_iff.mpr ⟨h, rfl⟩

theorem find?_eq_none_iff (t : Table key) {k : κ} : t.find? k = none ↔ k ∉ t.rows.map key := by
  simp [find?, List.find?_eq_none]

@[simp]
theorem find?_empty (k : κ) : (empty : Table key).find? k = none := rfl

theorem insert?_eq_none_iff (t : Table key) {row : α}
    : t.insert? row = none ↔ (t.find? (key row)).isSome := by
  rw [← Option.ne_none_iff_isSome, ne_eq, find?_eq_none_iff, not_not]
  unfold insert?
  split
  . next h => simp [h]
  . next h => simp [h]

theorem rows_insert? {t t' : Table key} {row : α} (h : t.insert? row = some t')
    : t'.rows = t.rows ++ [row] := by
  unfold insert? at h
  split at h
  . simp at h
  . simp only [Option.some.injEq] at h
    rw [← h]

theorem find?_eq_none_of_insert? {t t' : Table key} {row : α} (h : t.insert? row = some t')
    : t.find? (key row) = none := by
  rw [← Option.not_isSome_iff_eq_none, ← t.insert?_eq_none_iff, h]
  simp

theorem find?_insert? {t t' : Table key} {row : α} (h : t.insert? row = some t') (k : κ)
    : t'.find? k = if k = key row then some row else t.find? k := by
  have hnone := find?_eq_none_of_insert? h
  have hrows := rows_insert? h
  split
  . next hk =>
    rw [find?_eq_some_iff]
    simp [hrows, hk]
  . next hk =>
    simp only [find?, hrows, List.find?_append]
    have : ¬ key row = k := fun h => hk h.symm
    simp [this]

theorem find?_insert?_of_some {t t' : Table key} {row other : α} (h : t.insert? row = some t') {k : κ}
    (hother : t.find? k = some other) : t'.find? k = some other := by
  rw [find?_insert? h, if_neg, hother]
  rintro rfl
  rw [find?_eq_none_of_insert? h] at hother
  cases hother

theorem find?_of_insert? {t t' : Table key} {row other : α} (h : t.insert? row = some t') {k : κ}
    (hother : t'.find? k = some other) : other = row ∨ t.find? k = some other := by
  rw [find?_insert? h] at hother
  split at hother
  . exact .inl (Option.some.inj hother).symm
  . exact .inr hother

theorem find?_updateWhere (t : Table key) (p : α → Bool) (f : α → α)
    (hf : ∀ row, key (f row) = key row) (k : κ)
    : (t.updateWhere p f hf).find? k
        =
      (t.find? k).map fun row => if p row then f row else row := by
  have hkey : ∀ row, key (if p row then f row else row) = key row := by
    intro row
    split
    . exact hf row
    . rfl
  simp only [find?, updateWhere, List.find?_map]
  congr 2
  funext row
  simp [hkey]

theorem find?_upsert (t : Table key) (row : α) (f : α → α) (hf : ∀ row, key (f row) = key row)
    (k : κ)
    : (t.upsert row f hf).find? k
        =
      if k = key row then some ((t.find? k).elim row f) else t.find? k := by
  unfold upsert
  split
  . next t' h =>
    have hnone := find?_eq_none_of_insert? h
    rw [find?_insert? h]
    split
    . next hk => simp [hk, hnone]
    . rfl
  . next h =>
    rw [insert?_eq_none_iff, Option.isSome_iff_exists] at h
    obtain ⟨old, hold⟩ := h
    rw [find?_updateWhere]
    split
    . next hk => simp [hk, hold, key_of_find? hold]
    . next hk =>
      cases hfind : t.find? k with
      | none => rfl
      | some other =>
        have := key_of_find? hfind
        simp [this, hk]

theorem find?_upsertAll_of_not_mem (t : Table key) {rows : List α} {f : α → α → α}
    {hf : ∀ row old, key (f row old) = key old} {k : κ} (hk : k ∉ rows.map key)
    : (t.upsertAll rows f hf).find? k = t.find? k := by
  induction rows generalizing t with
  | nil => rfl
  | cons row rows ih =>
    rw [List.map_cons, List.mem_cons, not_or] at hk
    have hstep : t.upsertAll (row :: rows) f hf
        = (t.upsert row (f row) (hf row)).upsertAll rows f hf := rfl
    rw [hstep, ih _ hk.2, find?_upsert, if_neg hk.1]

theorem find?_upsertAll_of_mem (t : Table key) {rows : List α} {f : α → α → α}
    {hf : ∀ row old, key (f row old) = key old} (hrows : (rows.map key).Nodup) {row : α}
    (hmem : row ∈ rows)
    : (t.upsertAll rows f hf).find? (key row) = some ((t.find? (key row)).elim row (f row)) := by
  induction rows generalizing t with
  | nil => simp at hmem
  | cons first rows ih =>
    rw [List.map_cons, List.nodup_cons] at hrows
    have hstep : t.upsertAll (first :: rows) f hf
        = (t.upsert first (f first) (hf first)).upsertAll rows f hf := rfl
    rw [hstep]
    cases List.mem_cons.mp hmem with
    | inl heq =>
      rw [heq, find?_upsertAll_of_not_mem _ hrows.1, find?_upsert, if_pos rfl]
    | inr hmem =>
      have hne : key row ≠ key first := by
        intro heq
        apply hrows.1
        rw [← heq]
        exact List.mem_map_of_mem hmem
      rw [ih _ hrows.2 hmem, find?_upsert, if_neg hne]

theorem upsertAll_append (t : Table key) (first second : List α) (f : α → α → α)
    (hf : ∀ row old, key (f row old) = key old)
    : t.upsertAll (first ++ second) f hf = (t.upsertAll first f hf).upsertAll second f hf := by
  simp [upsertAll, List.foldl_append]

theorem count_eq_zero_iff (t : Table key) {p : α → Bool}
    : t.count p = 0 ↔ ∀ k row, t.find? k = some row → p row = false := by
  rw [count, List.countP_eq_zero]
  constructor
  . intro h k row hrow
    have := h row (mem_of_find? hrow)
    simpa using this
  . intro h row hmem
    have := h _ row (find?_of_mem hmem)
    simp [this]

theorem find?_deleteWhere (t : Table key) (p : α → Bool) (k : κ)
    : (t.deleteWhere p).find? k = (t.find? k).filter fun row => !p row := by
  cases h : (t.find? k).filter fun row => !p row with
  | some row =>
    rw [Option.filter_eq_some_iff] at h
    rw [find?_eq_some_iff]
    obtain ⟨hmem, hkey⟩ := t.find?_eq_some_iff.mp h.1
    exact ⟨List.mem_filter.mpr ⟨hmem, h.2⟩, hkey⟩
  | none =>
    rw [find?_eq_none_iff]
    intro hk
    obtain ⟨row, hrow, rfl⟩ := List.mem_map.mp hk
    obtain ⟨hmem, hp⟩ := List.mem_filter.mp hrow
    rw [find?_of_mem hmem] at h
    simp [Option.filter] at h hp
    simp [h] at hp

theorem mem_selectOrdered (t : Table key) {p : α → Bool} {column : α → Nat} {row : α}
    : row ∈ t.selectOrdered p column ↔ t.find? (key row) = some row ∧ p row = true := by
  simp [selectOrdered, find?_eq_some_iff]

theorem selectOrdered_eq (t : Table key) {p : α → Bool} {column : α → Nat} {rows : List α}
    (hsorted : rows.Pairwise fun a b => column a < column b)
    (hmem : ∀ row, row ∈ rows ↔ t.find? (key row) = some row ∧ p row = true)
    : t.selectOrdered p column = rows := by
  have hselect : (t.selectOrdered p column).Pairwise fun a b => column a ≤ column b :=
    List.pairwise_insertionSort _ _
  have hperm : (t.selectOrdered p column).Perm rows := by
    rw [List.perm_ext_iff_of_nodup]
    . intro row
      rw [mem_selectOrdered, hmem]
    . exact List.Nodup.of_map _ (t.nodup_key_selectOrdered p column)
    . exact hsorted.imp fun h => by
        rintro rfl
        omega
  have hcolumns : (rows.map column).Nodup := by
    rw [List.nodup_iff_pairwise_ne, List.pairwise_map]
    exact hsorted.imp Nat.ne_of_lt
  apply hperm.eq_of_pairwise
  . intro a b ha hb hab hba
    have ha := hperm.mem_iff.mp ha
    exact List.inj_on_of_nodup_map hcolumns ha hb (Nat.le_antisymm hab hba)
  . exact hselect
  . exact hsorted.imp Nat.le_of_lt

theorem exists_rows_of_find? {t : Table key} {k : κ} {row : α} (h : t.find? k = some row)
    : ∃ before after, t.rows = before ++ row :: after
        ∧ ∀ other, other ∈ before ++ after → key other ≠ k := by
  obtain ⟨before, after, hrows⟩ := List.append_of_mem (mem_of_find? h)
  refine ⟨before, after, hrows, ?_⟩
  have hunique := t.unique
  rw [hrows, List.map_append, List.map_cons, List.nodup_middle, List.nodup_cons, key_of_find? h,
    ← List.map_append] at hunique
  intro other hother hkey
  apply hunique.1
  rw [← hkey]
  exact List.mem_map_of_mem hother

theorem rows_updateWhere_of_rows {t : Table key} {k : κ} {row : α} {before after : List α}
    (hrows : t.rows = before ++ row :: after) (hothers : ∀ other, other ∈ before ++ after → key other ≠ k)
    (hkey : key row = k) (f : α → α) (hf : ∀ row, key (f row) = key row)
    : (t.updateWhere (fun row => key row = k) f hf).rows = before ++ f row :: after := by
  have hsame : ∀ rows : List α, (∀ other ∈ rows, key other ≠ k) →
      rows.map (fun row => if decide (key row = k) = true then f row else row) = rows := by
    intro rows hne
    conv_rhs => rw [← List.map_id rows]
    apply List.map_congr_left
    intro other hother
    simp [hne other hother]
  show t.rows.map (fun row => if decide (key row = k) = true then f row else row) = _
  rw [hrows, List.map_append, List.map_cons]
  rw [hsame before fun other hother => hothers other (List.mem_append_left after hother),
    hsame after fun other hother => hothers other (List.mem_append_right before hother)]
  simp [hkey]

theorem rows_deleteWhere_of_rows {t : Table key} {k : κ} {row : α} {before after : List α}
    (hrows : t.rows = before ++ row :: after) (hothers : ∀ other, other ∈ before ++ after → key other ≠ k)
    (hkey : key row = k)
    : (t.deleteWhere fun row => key row = k).rows = before ++ after := by
  have hsame : ∀ rows : List α, (∀ other ∈ rows, key other ≠ k) →
      rows.filter (fun row => !decide (key row = k)) = rows := by
    intro rows hne
    rw [List.filter_eq_self]
    intro other hother
    simp [hne other hother]
  show t.rows.filter (fun row => !decide (key row = k)) = _
  rw [hrows, List.filter_append, List.filter_cons]
  rw [hsame before fun other hother => hothers other (List.mem_append_left after hother),
    hsame after fun other hother => hothers other (List.mem_append_right before hother)]
  simp [hkey]

section Frame

/-
Statements that do not meet the rows with `q` leave them as they are, order included.
-/

variable {q : α → Bool}

omit [DecidableEq κ] in
theorem selectOrdered_congr {t t' : Table key} {column : α → Nat}
    (h : t'.rows.filter q = t.rows.filter q)
    : t'.selectOrdered q column = t.selectOrdered q column := by
  rw [selectOrdered, selectOrdered, h]

omit [DecidableEq κ] in
theorem filter_updateWhere (t : Table key) {p : α → Bool} {f : α → α}
    {hf : ∀ row, key (f row) = key row}
    (h : ∀ row ∈ t.rows, p row = true → q row = false ∧ q (f row) = false)
    : (t.updateWhere p f hf).rows.filter q = t.rows.filter q := by
  unfold updateWhere
  simp only
  generalize t.rows = rows at h
  induction rows with
  | nil => rfl
  | cons row rows ih =>
    have ih := ih fun row hmem => h row (List.mem_cons_of_mem _ hmem)
    rw [List.map_cons, List.filter_cons, List.filter_cons, ih]
    by_cases hp : p row = true
    . obtain ⟨hq, hqf⟩ := h row List.mem_cons_self hp
      simp [hp, hq, hqf]
    . simp [hp]

omit [DecidableEq κ] in
theorem filter_deleteWhere (t : Table key) {p : α → Bool} (h : ∀ row, p row = true → q row = false)
    : (t.deleteWhere p).rows.filter q = t.rows.filter q := by
  rw [deleteWhere, List.filter_filter]
  apply List.filter_congr
  intro row _
  cases hp : p row with
  | false => simp
  | true => simp [h row hp]

theorem filter_upsert (t : Table key) {row : α} {f : α → α} {hf : ∀ row, key (f row) = key row}
    (hrow : q row = false)
    (hold : ∀ old, t.find? (key row) = some old → q old = false ∧ q (f old) = false)
    : (t.upsert row f hf).rows.filter q = t.rows.filter q := by
  unfold upsert
  split
  . next h =>
    rw [rows_insert? h, List.filter_append]
    simp [hrow]
  . apply filter_updateWhere
    intro old hmem hkey
    apply hold
    rw [decide_eq_true_eq] at hkey
    rw [← hkey]
    exact find?_of_mem hmem

theorem filter_upsertAll (t : Table key) {rows : List α} {f : α → α → α}
    {hf : ∀ row old, key (f row old) = key old} (hrows : (rows.map key).Nodup)
    (hnew : ∀ row ∈ rows, q row = false)
    (hold : ∀ row ∈ rows, ∀ old, t.find? (key row) = some old → q old = false ∧ q (f row old) = false)
    : (t.upsertAll rows f hf).rows.filter q = t.rows.filter q := by
  induction rows generalizing t with
  | nil => rfl
  | cons first rows ih =>
    rw [List.map_cons, List.nodup_cons] at hrows
    have hstep : t.upsertAll (first :: rows) f hf
        = (t.upsert first (f first) (hf first)).upsertAll rows f hf := rfl
    rw [hstep, ih]
    . apply filter_upsert
      . exact hnew first List.mem_cons_self
      . exact hold first List.mem_cons_self
    . exact hrows.2
    . intro row hmem
      exact hnew row (List.mem_cons_of_mem _ hmem)
    . intro row hmem old hfind
      have hne : key row ≠ key first := by
        intro heq
        apply hrows.1
        rw [← heq]
        exact List.mem_map_of_mem hmem
      rw [find?_upsert, if_neg hne] at hfind
      exact hold row (List.mem_cons_of_mem _ hmem) old hfind

end Frame

end Table

end Sql
