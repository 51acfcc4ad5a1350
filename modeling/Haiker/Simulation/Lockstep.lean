import Mathlib.Init

/-!
This module contains deterministic machines that answer every input, and the rules that compare the
answers of two machines which get the same inputs. Some of them admit or reject each input, with a record of
what has been admitted.
-/

namespace Lockstep

variable {σ τ α β : Type}

def finalState (step : σ → α → σ × β) (s : σ) (inputs : List α) : σ :=
  inputs.foldl (fun s a => (step s a).1) s

def trace (step : σ → α → σ × β) (s : σ) : List α → List β
  | [] => []
  | a :: inputs => (step s a).2 :: trace step (step s a).1 inputs

-- `P` holds of every input and of the state it meets
def Always (step : σ → α → σ × β) (P : σ → α → Prop) (s : σ) : List α → Prop
  | [] => True
  | a :: inputs => P s a ∧ Always step P (step s a).1 inputs

variable {step : σ → α → σ × β} {step' : τ → α → τ × β} {s : σ} {t : τ}

@[simp]
theorem finalState_nil : finalState step s [] = s := rfl

@[simp]
theorem finalState_cons (a : α) (inputs : List α)
    : finalState step s (a :: inputs) = finalState step (step s a).1 inputs := rfl

theorem finalState_append (first second : List α)
    : finalState step s (first ++ second) = finalState step (finalState step s first) second := by
  simp [finalState]

theorem finalState_invariant (inv : σ → Prop) {inputs : List α}
    (hstep : ∀ s, ∀ a ∈ inputs, inv s → inv (step s a).1) (h : inv s) : inv (finalState step s inputs) := by
  induction inputs generalizing s with
  | nil => exact h
  | cons a inputs ih =>
    apply ih fun s b hb => hstep s b (List.mem_cons_of_mem _ hb)
    exact hstep s a List.mem_cons_self h

-- what every step keeps or drops is kept or dropped by all of them
theorem finalState_keeps {γ : Type} (look : σ → Option γ) {inputs : List α}
    (hstep : ∀ s, ∀ a ∈ inputs, look (step s a).1 = look s ∨ look (step s a).1 = none)
    : look (finalState step s inputs) = look s ∨ look (finalState step s inputs) = none := by
  refine finalState_invariant (fun t => look t = look s ∨ look t = none) ?_ (.inl rfl)
  intro t a ha ht
  rcases hstep t a ha with hsame | hnone
  . rw [hsame]
    exact ht
  . exact .inr hnone

theorem trace_append (first second : List α)
    : trace step s (first ++ second) = trace step s first ++ trace step (finalState step s first) second := by
  induction first generalizing s with
  | nil => rfl
  | cons a first ih => simp [trace, ih]

theorem Always.imp {P Q : σ → α → Prop} (hPQ : ∀ s a, P s a → Q s a) {inputs : List α}
    (h : Always step P s inputs) : Always step Q s inputs := by
  induction inputs generalizing s with
  | nil => trivial
  | cons a inputs ih => exact ⟨hPQ s a h.1, ih h.2⟩

theorem Always.of_forall {P : σ → α → Prop} (h : ∀ s a, P s a) (inputs : List α)
    : Always step P s inputs := by
  induction inputs generalizing s with
  | nil => trivial
  | cons a inputs ih => exact ⟨h s a, ih⟩

section Related

variable {R : σ → τ → Prop} {P : σ → α → Prop}

/--
Two machines in related states give the same answers as long as all steps meet `P`, and end in
related states.
-/
theorem Always.related {inputs : List α}
    (hgood : ∀ s t, ∀ a ∈ inputs, R s t → P s a →
      (step s a).2 = (step' t a).2 ∧ R (step s a).1 (step' t a).1)
    (h : Always step P s inputs) (hR : R s t)
    : trace step s inputs = trace step' t inputs
        ∧ R (finalState step s inputs) (finalState step' t inputs) := by
  induction inputs generalizing s t with
  | nil => exact ⟨rfl, hR⟩
  | cons a inputs ih =>
    obtain ⟨hanswer, hnext⟩ := hgood s t a List.mem_cons_self hR h.1
    have hgood := fun s t b hmem => hgood s t b (List.mem_cons_of_mem a hmem)
    obtain ⟨htrace, hfinal⟩ := ih hgood h.2 hnext
    refine ⟨?_, hfinal⟩
    rw [trace, trace, hanswer, htrace]

/--
If moreover the first step that does not meet `P` shows in the answer, then the answers are the same
only where all steps meet `P`.
-/
theorem trace_eq_iff_always {inputs : List α}
    (hgood : ∀ s t, ∀ a ∈ inputs, R s t → P s a →
      (step s a).2 = (step' t a).2 ∧ R (step s a).1 (step' t a).1)
    (hbad : ∀ s t, ∀ a ∈ inputs, R s t → ¬P s a → (step s a).2 ≠ (step' t a).2) (hR : R s t)
    : trace step s inputs = trace step' t inputs ↔ Always step P s inputs := by
  constructor
  . intro htrace
    induction inputs generalizing s t with
    | nil => trivial
    | cons a inputs ih =>
      rw [trace, trace, List.cons_eq_cons] at htrace
      have hP : P s a := by
        apply Classical.byContradiction
        intro hP
        apply hbad s t a List.mem_cons_self hR hP htrace.1
      have hnext := (hgood s t a List.mem_cons_self hR hP).2
      have hgood := fun s t b hmem => hgood s t b (List.mem_cons_of_mem a hmem)
      have hbad := fun s t b hmem => hbad s t b (List.mem_cons_of_mem a hmem)
      exact ⟨hP, ih hgood hbad hnext htrace.2⟩
  . intro h
    exact (h.related hgood hR).1

end Related

end Lockstep

namespace Lockstep

variable {σ α ε : Type}

def recording (step : σ → α → σ × Except ε Unit) (s : σ × List α) (a : α)
    : (σ × List α) × Except ε Unit :=
  match step s.1 a with
  | (next, .ok ()) => ((next, s.2 ++ [a]), .ok ())
  | (next, .error e) => ((next, s.2), .error e)

/--
The inputs that are admitted, in their order.
-/
def admitted (step : σ → α → σ × Except ε Unit) (s : σ) (inputs : List α) : List α :=
  (finalState (recording step) (s, []) inputs).2

variable {step : σ → α → σ × Except ε Unit}

theorem recording_of_ok {s next : σ} {a : α} (h : step s a = (next, .ok ())) (record : List α)
    : recording step (s, record) a = ((next, record ++ [a]), .ok ()) := by
  unfold recording
  rw [h]

theorem recording_of_error {s next : σ} {a : α} {e : ε} (h : step s a = (next, .error e))
    (record : List α) : recording step (s, record) a = ((next, record), .error e) := by
  unfold recording
  rw [h]

theorem finalState_concat {β : Type} {step : σ → α → σ × β} {s : σ} (inputs : List α) (a : α)
    : finalState step s (inputs ++ [a]) = (step (finalState step s inputs) a).1 := by
  rw [finalState_append, finalState_cons, finalState_nil]

theorem always_concat {β : Type} {step : σ → α → σ × β} {P : σ → α → Prop} {s : σ} {inputs : List α} {a : α}
    : Always step P s (inputs ++ [a]) ↔ Always step P s inputs ∧ P (finalState step s inputs) a := by
  induction inputs generalizing s with
  | nil => simp [Always]
  | cons first inputs ih =>
    rw [List.cons_append, Always, Always, ih, finalState_cons, and_assoc]

end Lockstep
