import Haiker.Sql.Table

/-!
This module contains hash maps, as far as the repository uses them: nothing depends on the order of the
entries.
-/

namespace Rust

/--
The entries, no two of them under one key.
-/
structure HashMap (κ α : Type) where
  entries : Sql.Table (Prod.fst : κ × α → κ)

namespace HashMap

variable {κ α : Type}

def empty : HashMap κ α := ⟨.empty⟩

def len (m : HashMap κ α) : Nat := m.entries.rows.length

/--
`m.retain(|k, a| p(k, a))`
-/
def retain (p : κ → α → Bool) (m : HashMap κ α) : HashMap κ α :=
  ⟨m.entries.deleteWhere fun entry => !p entry.1 entry.2⟩

variable [DecidableEq κ]

def get? (m : HashMap κ α) (k : κ) : Option α := (m.entries.find? k).map Prod.snd

def insert (m : HashMap κ α) (k : κ) (a : α) : HashMap κ α :=
  ⟨m.entries.upsert (k, a) (fun old => (old.1, a)) fun _ => rfl⟩

-- what `m.remove(&k)` leaves
def remove (m : HashMap κ α) (k : κ) : HashMap κ α := m.retain fun k' _ => k' ≠ k

@[simp]
theorem get?_empty (k : κ) : (empty : HashMap κ α).get? k = none := rfl

theorem get?_insert (m : HashMap κ α) (k k' : κ) (a : α)
    : (m.insert k a).get? k' = if k' = k then some a else m.get? k' := by
  rw [get?, insert, Sql.Table.find?_upsert]
  split
  . cases m.entries.find? k' with
    | none => rfl
    | some entry => rfl
  . rfl

@[simp]
theorem get?_insert_self (m : HashMap κ α) (k : κ) (a : α) : (m.insert k a).get? k = some a := by
  rw [get?_insert, if_pos rfl]

theorem get?_insert_of_ne {k k' : κ} (h : k' ≠ k) (m : HashMap κ α) (a : α)
    : (m.insert k a).get? k' = m.get? k' := by
  rw [get?_insert, if_neg h]

theorem get?_retain (p : κ → α → Bool) (m : HashMap κ α) (k : κ)
    : (m.retain p).get? k = (m.get? k).filter (p k) := by
  rw [get?, retain, Sql.Table.find?_deleteWhere, get?]
  cases hfind : m.entries.find? k with
  | none => rfl
  | some entry =>
    have hkey : entry.1 = k := Sql.Table.key_of_find? hfind
    rw [← hkey]
    cases hp : p entry.1 entry.2 with
    | true => simp [Option.filter, hp]
    | false => simp [Option.filter, hp]

-- what is retained is what was there
theorem get?_of_retain {p : κ → α → Bool} {m : HashMap κ α} {k : κ} {a : α}
    (h : (m.retain p).get? k = some a) : m.get? k = some a := by
  rw [get?_retain] at h
  exact (Option.filter_eq_some_iff.mp h).1

theorem get?_remove (m : HashMap κ α) (k k' : κ)
    : (m.remove k).get? k' = if k' = k then none else m.get? k' := by
  rw [remove, get?_retain]
  cases m.get? k' with
  | none => simp
  | some a =>
    by_cases hk : k' = k
    . simp [Option.filter, hk]
    . simp [Option.filter, hk]

end HashMap

end Rust
