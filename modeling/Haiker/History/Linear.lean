import Mathlib.Data.List.Basic

/-!
This module contains linear undo histories: the list of all states that can be reached by undo and
redo, and the position of the current one in it.
-/

namespace History

structure Linear (α : Type) where
  states : List α
  cursor : Nat
  hcursor : cursor < states.length

namespace Linear

variable {α : Type}

def current (h : Linear α) : α := h.states.get ⟨h.cursor, h.hcursor⟩

/--
The state that undoing everything leads to.
-/
def origin (h : Linear α) : α := h.states.get ⟨0, Nat.zero_lt_of_lt h.hcursor⟩

def start (a : α) : Linear α where
  states := [a]
  cursor := 0
  hcursor := Nat.zero_lt_one

theorem succ_cursor_lt (h : Linear α) (a : α)
    : h.cursor + 1 < (h.states.take (h.cursor + 1) ++ [a]).length := by
  have := h.hcursor
  rw [List.length_append, List.length_take, List.length_singleton]
  omega

/--
Drop what could be redone and make `a` the current state.
-/
def push (h : Linear α) (a : α) : Linear α where
  states := h.states.take (h.cursor + 1) ++ [a]
  cursor := h.cursor + 1
  hcursor := h.succ_cursor_lt a

def undo? (h : Linear α) : Option (Linear α) :=
  if 0 < h.cursor then
    some { h with cursor := h.cursor - 1, hcursor := Nat.lt_of_le_of_lt (Nat.sub_le _ _) h.hcursor }
  else
    none

def redo? (h : Linear α) : Option (Linear α) :=
  if hc : h.cursor + 1 < h.states.length then
    some { h with cursor := h.cursor + 1, hcursor := hc }
  else
    none

-- undo or redo as often as `n` says
def moveTimes (move : Linear α → Option (Linear α)) (h : Linear α) : Nat → Option (Linear α)
  | 0 => some h
  | n + 1 => (move h).bind fun h => h.moveTimes move n

theorem ext {g h : Linear α} (hs : g.states = h.states) (hc : g.cursor = h.cursor) : g = h := by
  cases g
  cases h
  simp_all

@[simp]
theorem current_start (a : α) : (start a).current = a := rfl

@[simp]
theorem origin_start (a : α) : (start a).origin = a := rfl

@[simp]
theorem states_push (h : Linear α) (a : α)
    : (h.push a).states = h.states.take (h.cursor + 1) ++ [a] := rfl

@[simp]
theorem cursor_push (h : Linear α) (a : α) : (h.push a).cursor = h.cursor + 1 := rfl

@[simp]
theorem current_push (h : Linear α) (a : α) : (h.push a).current = a := by
  have := h.hcursor
  simp only [current, push, List.get_eq_getElem]
  apply List.getElem_concat_length
  rw [List.length_take]
  omega

@[simp]
theorem origin_push (h : Linear α) (a : α) : (h.push a).origin = h.origin := by
  have := h.hcursor
  simp only [origin, push, List.get_eq_getElem]
  have hlt : 0 < (h.states.take (h.cursor + 1)).length := by
    rw [List.length_take]
    omega
  rw [List.getElem_append_left hlt, List.getElem_take]

theorem states_undo? {g h : Linear α} (hg : h.undo? = some g)
    : g.states = h.states ∧ g.cursor + 1 = h.cursor := by
  unfold undo? at hg
  split at hg
  . simp only [Option.some.injEq] at hg
    subst hg
    exact ⟨rfl, by simp; omega⟩
  . simp at hg

theorem states_redo? {g h : Linear α} (hg : h.redo? = some g)
    : g.states = h.states ∧ g.cursor = h.cursor + 1 := by
  unfold redo? at hg
  split at hg
  . simp only [Option.some.injEq] at hg
    subst hg
    exact ⟨rfl, rfl⟩
  . simp at hg

theorem undo?_eq_none_iff (h : Linear α) : h.undo? = none ↔ h.cursor = 0 := by
  unfold undo?
  split
  . simp
    omega
  . simp
    omega

theorem redo?_eq_none_iff (h : Linear α) : h.redo? = none ↔ h.cursor + 1 = h.states.length := by
  have := h.hcursor
  unfold redo?
  split
  . simp
    omega
  . simp
    omega

theorem origin_undo? {g h : Linear α} (hg : h.undo? = some g) : g.origin = h.origin := by
  obtain ⟨hstates, _⟩ := states_undo? hg
  simp [origin, hstates]

theorem origin_redo? {g h : Linear α} (hg : h.redo? = some g) : g.origin = h.origin := by
  obtain ⟨hstates, _⟩ := states_redo? hg
  simp [origin, hstates]

theorem redo?_undo? {g h : Linear α} (hg : h.undo? = some g) : g.redo? = some h := by
  obtain ⟨hstates, hcursor⟩ := states_undo? hg
  have := h.hcursor
  unfold redo?
  have hlt : g.cursor + 1 < g.states.length := by
    rw [hcursor, hstates]
    exact this
  simp only [hlt, ↓reduceDIte, Option.some.injEq]
  exact ext hstates hcursor

theorem undo_isSome {h : Linear α} {n : Nat} (hn : n ≤ h.cursor)
    : ∃ g, h.moveTimes undo? n = some g ∧ g.states = h.states ∧ g.cursor + n = h.cursor := by
  induction n generalizing h with
  | zero => exact ⟨h, rfl, rfl, rfl⟩
  | succ n ih =>
    cases hu : h.undo? with
    | none =>
      rw [undo?_eq_none_iff] at hu
      omega
    | some g =>
      obtain ⟨hstates, hcursor⟩ := states_undo? hu
      obtain ⟨f, hf, hfstates, hfcursor⟩ := ih (h := g) (by omega)
      refine ⟨f, ?_, ?_, ?_⟩
      . simp [moveTimes, hu, hf]
      . rw [hfstates, hstates]
      . omega

theorem moveTimes_succ_last {move : Linear α → Option (Linear α)} {h f : Linear α} {n : Nat}
    (hf : h.moveTimes move n = some f)
    : h.moveTimes move (n + 1) = move f := by
  induction n generalizing h with
  | zero =>
    simp only [moveTimes, Option.some.injEq] at hf
    subst hf
    cases hr : move h with
    | none => simp [moveTimes, hr]
    | some g => simp [moveTimes, hr]
  | succ n ih =>
    rw [moveTimes]
    cases hr : move h with
    | none => simp [moveTimes, hr] at hf
    | some g =>
      simp only [moveTimes, hr, Option.bind_some] at hf
      simpa using ih hf

/--
As many redos take back what the undos did.
-/
theorem redo_undo {h g : Linear α} {n : Nat} (hg : h.moveTimes undo? n = some g)
    : g.moveTimes redo? n = some h := by
  induction n generalizing h with
  | zero =>
    simp only [moveTimes, Option.some.injEq] at hg
    subst hg
    rfl
  | succ n ih =>
    cases hu : h.undo? with
    | none => simp [moveTimes, hu] at hg
    | some f =>
      simp only [moveTimes, hu, Option.bind_some] at hg
      rw [moveTimes_succ_last (ih hg)]
      exact redo?_undo? hu

theorem current_of_cursor_eq_zero {h : Linear α} (hc : h.cursor = 0) : h.current = h.origin := by
  simp [current, origin, hc]

end Linear

end History
