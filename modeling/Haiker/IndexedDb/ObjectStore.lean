import Mathlib.Data.List.Sort

/-!
This module contains object stores: records in the order of their primary keys, one for each key.
-/

namespace IndexedDb

structure ObjectStore {α κ : Type} [LinearOrder κ] (key : α → κ) where
  records : List α
  sorted : records.Pairwise fun a b => key a < key b

namespace ObjectStore

variable {α κ : Type} [LinearOrder κ] {key : α → κ}

def empty : ObjectStore key where
  records := []
  sorted := .nil

-- the record takes the place of the one under its key, if there is one
def put (store : ObjectStore key) (a : α) : ObjectStore key where
  records := store.records.filter (fun b => key b < key a)
    ++ a :: store.records.filter fun b => key a < key b
  sorted := by
    rw [List.pairwise_append, List.pairwise_cons]
    refine ⟨store.sorted.filter _, ⟨?_, store.sorted.filter _⟩, ?_⟩
    . intro b hb
      exact of_decide_eq_true (List.mem_filter.mp hb).2
    . intro b hb c hc
      have hlt : key b < key a := of_decide_eq_true (List.mem_filter.mp hb).2
      cases List.mem_cons.mp hc with
      | inl hc =>
        rw [hc]
        exact hlt
      | inr hc => exact hlt.trans (of_decide_eq_true (List.mem_filter.mp hc).2)

def get (store : ObjectStore key) (k : κ) : Option α := store.records.find? fun a => key a = k

-- the keys of these records are deleted one after the other
def deleteWhere (store : ObjectStore key) (p : α → Bool) : ObjectStore key where
  records := store.records.filter fun a => !p a
  sorted := store.sorted.filter _

-- what an index has under one of its keys, which `p` says of a record
def getAll (store : ObjectStore key) (p : α → Bool) : List α := store.records.filter p

variable {store : ObjectStore key} {a b : α} {k : κ} {as bs : List α}

@[simp]
theorem records_empty : (empty : ObjectStore key).records = [] := rfl

theorem sorted_getAll (store : ObjectStore key) (p : α → Bool)
    : (store.getAll p).Pairwise fun a b => key a < key b := store.sorted.filter p

theorem eq_of_mem_iff (has : as.Pairwise fun a b => key a < key b)
    (hbs : bs.Pairwise fun a b => key a < key b) (h : ∀ a, a ∈ as ↔ a ∈ bs) : as = bs := by
  have hirrefl : Std.Irrefl fun a b : α => key a < key b := ⟨fun a => lt_irrefl (key a)⟩
  have hantisymm : Std.Antisymm fun a b : α => key a < key b :=
    ⟨fun a b hab hba => absurd hba (lt_asymm hab)⟩
  exact has.eq_of_mem_iff hbs h

theorem eq_of_key_eq (ha : a ∈ store.records) (hb : b ∈ store.records) (h : key a = key b)
    : a = b := by
  have hdistinct : (store.records.map key).Nodup :=
    List.pairwise_map.mpr (store.sorted.imp fun hlt => hlt.ne)
  exact List.inj_on_of_nodup_map hdistinct ha hb h

theorem mem_put : b ∈ (store.put a).records ↔ b = a ∨ b ∈ store.records ∧ key b ≠ key a := by
  rw [put, List.mem_append, List.mem_cons, List.mem_filter, List.mem_filter, decide_eq_true_eq,
    decide_eq_true_eq, ne_iff_lt_or_gt]
  tauto

theorem get_eq_some_iff : store.get k = some a ↔ a ∈ store.records ∧ key a = k := by
  rw [get]
  constructor
  . intro h
    exact ⟨List.mem_of_find?_eq_some h, by simpa using List.find?_some h⟩
  . rintro ⟨hmem, rfl⟩
    cases hfind : store.records.find? (fun b => key b = key a) with
    | none =>
      rw [List.find?_eq_none] at hfind
      exact absurd (decide_eq_true rfl) (hfind a hmem)
    | some b =>
      rw [eq_of_key_eq (List.mem_of_find?_eq_some hfind) hmem (by simpa using List.find?_some hfind)]

theorem get_eq_none_iff : store.get k = none ↔ ∀ a ∈ store.records, key a ≠ k := by
  simp [get]

end ObjectStore

end IndexedDb
