import Mathlib.Init

/-!
This module contains runs of machines without answers, and the rule that carries an invariant along the
runs whose steps all meet a condition.
-/

namespace Runs

variable {σ α : Type} (step : σ → α → σ)

def run (s : σ) (events : List α) : σ := events.foldl step s

/--
`P` holds of every event of the run and of the state that it meets.
-/
def Along (P : σ → α → Prop) : σ → List α → Prop
  | _, [] => True
  | s, a :: events => P s a ∧ Along P (step s a) events

instance decidableAlong (P : σ → α → Prop) [∀ s a, Decidable (P s a)]
    : ∀ (s : σ) (events : List α), Decidable (Along step P s events)
  | _, [] => inferInstanceAs (Decidable True)
  | s, a :: events =>
    let _ := decidableAlong P (step s a) events
    inferInstanceAs (Decidable (P s a ∧ Along step P (step s a) events))

theorem Along.run_induction {P Q : σ → α → Prop} {inv : σ → Prop}
    (hstep : ∀ s a, inv s → P s a → Q s a → inv (step s a)) {s : σ} {events : List α} (h : inv s)
    (hP : Along step P s events) (hQ : Along step Q s events) : inv (run step s events) := by
  induction events generalizing s with
  | nil => exact h
  | cons a events ih => exact ih (hstep s a h hP.1 hQ.1) hP.2 hQ.2

/--
What a step keeps on its condition only is true of every state reached as long as all steps meet theirs.
-/
theorem run_take_iff_along {P : σ → α → Prop} {inv good : σ → Prop}
    (hinv : ∀ s a, inv s → inv (step s a)) (hstep : ∀ s a, inv s → good s → (good (step s a) ↔ P s a)) {s : σ}
    (h : inv s) (hgood : good s) {events : List α}
    : (∀ k, good (run step s (events.take k))) ↔ Along step P s events := by
  induction events generalizing s with
  | nil => simp [run, Along, hgood]
  | cons a events ih =>
    constructor
    . intro hreached
      have hnext : good (step s a) := hreached 1
      exact ⟨(hstep s a h hgood).mp hnext, (ih (hinv s a h) hnext).mp fun k => hreached (k + 1)⟩
    . rintro ⟨hP, halong⟩ k
      cases k with
      | zero => exact hgood
      | succ k => exact (ih (hinv s a h) ((hstep s a h hgood).mpr hP)).mpr halong k

end Runs
