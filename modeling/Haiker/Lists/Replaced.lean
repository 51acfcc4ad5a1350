import Mathlib.Data.List.Basic

/-!
This module contains the replacement of a part of a list by other elements, and the list functions that
amount to one.
-/

namespace Lists

variable {α : Type}

/--
`l'` is `l` with the elements from `start` on and before `stop` replaced by `new`. The others are as they
were, and where they were from both ends.
-/
def Replaced (l : List α) (start stop : Nat) (new l' : List α) : Prop :=
  ∃ before old after, l = before ++ old ++ after ∧ before.length = start
    ∧ before.length + old.length = stop ∧ l' = before ++ new ++ after

variable {l : List α} {start stop i : Nat} {a b : α}

theorem replaced_take_drop (new : List α) (hle : start ≤ stop) (hlen : stop ≤ l.length)
    : Replaced l start stop new (l.take start ++ new ++ l.drop stop) := by
  have hstart : (l.take start).length = start := by
    rw [List.length_take]
    omega
  have hold : ((l.drop start).take (stop - start)).length = stop - start := by
    rw [List.length_take, List.length_drop]
    omega
  refine ⟨l.take start, (l.drop start).take (stop - start), l.drop stop, ?_, hstart, ?_, rfl⟩
  . have hdrop : l.drop stop = (l.drop start).drop (stop - start) := by
      rw [List.drop_drop, Nat.add_sub_cancel' hle]
    rw [hdrop, List.append_assoc, List.take_append_drop, List.take_append_drop]
  . omega

theorem exists_append_of_getElem? (h : l[i]? = some a)
    : ∃ before after, l = before ++ a :: after ∧ before.length = i := by
  obtain ⟨hlt, rfl⟩ := List.getElem?_eq_some_iff.mp h
  refine ⟨l.take i, l.drop (i + 1), ?_, ?_⟩
  . rw [← List.drop_eq_getElem_cons hlt, List.take_append_drop]
  . rw [List.length_take]
    omega

theorem replaced_set (h : l[i]? = some a) : Replaced l i (i + 1) [b] (l.set i b) := by
  obtain ⟨before, after, rfl, rfl⟩ := exists_append_of_getElem? h
  refine ⟨before, [a], after, ?_, rfl, rfl, ?_⟩
  . rw [List.append_assoc, List.singleton_append]
  . rw [List.set_append_right _ _ (Nat.le_refl _), Nat.sub_self, List.set_cons_zero, List.append_assoc,
      List.singleton_append]

theorem replaced_eraseIdx (h : i < l.length) : Replaced l i (i + 1) [] (l.eraseIdx i) := by
  rw [List.eraseIdx_eq_take_drop_succ, ← List.append_nil (l.take i)]
  exact replaced_take_drop [] (Nat.le_succ i) h

theorem exists_append_of_getElem?_succ (h : l[i]? = some a) (h' : l[i + 1]? = some b)
    : ∃ before after, l = before ++ a :: b :: after ∧ before.length = i := by
  obtain ⟨before, rest, rfl, rfl⟩ := exists_append_of_getElem? h
  rw [List.getElem?_append_right (Nat.le_add_right _ 1), Nat.add_sub_cancel_left, List.getElem?_cons_succ] at h'
  cases rest with
  | nil => cases h'
  | cons b' after =>
    obtain rfl := Option.some.inj h'
    exact ⟨before, after, rfl, rfl⟩

theorem set_eraseIdx_append (before after : List α) (a b c : α)
    : ((before ++ a :: b :: after).eraseIdx (before.length + 1)).set before.length c
        = before ++ c :: after := by
  rw [List.eraseIdx_append_of_length_le (Nat.le_add_right _ 1), Nat.add_sub_cancel_left,
    List.set_append_right _ _ (Nat.le_refl _), Nat.sub_self]
  rfl

theorem replaced_set_eraseIdx {c : α} (h : l[i]? = some a) (h' : l[i + 1]? = some b)
    : Replaced l i (i + 2) [c] ((l.eraseIdx (i + 1)).set i c) := by
  obtain ⟨before, after, rfl, rfl⟩ := exists_append_of_getElem?_succ h h'
  rw [set_eraseIdx_append]
  refine ⟨before, [a, b], after, ?_, rfl, rfl, ?_⟩
  . rw [List.append_assoc]
    rfl
  . rw [List.append_assoc]
    rfl

end Lists
