import Haiker.Rust.Method

/-!
This module contains methods that run statements without a transaction around them. Each of the statements
may fail, and what the ones before it have changed stays.
-/

open Rust

namespace Sql

/--
Which statements fail, and with what message.
-/
abbrev Faults := Nat → Option String

section Statements

variable {ε σ α β : Type}

/--
A statement that runs alone. The state comes with the number of statements before, and a statement that
fails has no effect.
-/
def statement (faults : Faults) (broken : String → ε) (x : σ → Except (Fault ε) α × σ)
    : Method ε (σ × Nat) α := fun s =>
  match faults s.2 with
  | some message => .error (.err (broken message)) (s.1, s.2 + 1)
  | none =>
    match x s.1 with
    | (.ok a, t) => .ok a (t, s.2 + 1)
    | (.error e, t) => .error e (t, s.2 + 1)

/--
`Q` holds of the result and of what is left if the method succeeds, and `E` of what is left if it fails.
-/
def Ends (m : Method ε (σ × Nat) α) (s : σ × Nat) (E : σ → Prop) (Q : α → σ × Nat → Prop) : Prop :=
  match m.run s with
  | .ok a s' => Q a s'
  | .error _ s' => E s'.1

/--
What is known of a statement beforehand.
-/
structure Attempt where
  refused : Bool
  changes : Bool

/--
None of the statements, of which the first has number `n`, fails after something has `changed`, and if all
of them succeed, `rest` holds.
-/
def Harmless (faults : Faults) : List Attempt → Nat → Bool → Prop → Prop
  | [], _, _, rest => rest
  | attempt :: attempts, n, changed, rest =>
    if (faults n).isSome ∨ attempt.refused then
      changed = false
    else
      Harmless faults attempts (n + 1) (changed || attempt.changes) rest

/-
How methods end.
-/

variable {m : Method ε (σ × Nat) α} {f : α → Method ε (σ × Nat) β} {s : σ × Nat} {E : σ → Prop}
  {Q : α → σ × Nat → Prop}

theorem ends_iff
    : Ends m s E Q
        ↔ (∀ e, outcome m s = .error e → E (after m s).1) ∧ ∀ a, outcome m s = .ok a → Q a (after m s) := by
  unfold Ends outcome after
  cases m.run s with
  | ok | error => simp

theorem ends_bind {Q : β → σ × Nat → Prop} : Ends (m >>= f) s E Q ↔ Ends m s E fun a s => Ends (f a) s E Q := by
  unfold Ends
  rw [EStateM.run_bind]
  cases m.run s with
  | ok | error => exact Iff.rfl

@[simp]
theorem ends_pure (a : α) : Ends (pure a : Method ε (σ × Nat) α) s E Q ↔ Q a s := Iff.rfl

@[simp]
theorem ends_fail (e : ε) : Ends (fail e) s E Q ↔ E s.1 := Iff.rfl

@[simp]
theorem ends_ofResult_ok (a : α) : Ends (ofResult (.ok a) : Method ε (σ × Nat) α) s E Q ↔ Q a s := Iff.rfl

@[simp]
theorem ends_ofResult_error (e : Fault ε) : Ends (ofResult (.error e)) s E Q ↔ E s.1 := Iff.rfl

theorem ends_mapErr {ε' : Type} (g : ε → ε') : Ends (mapErr g m) s E Q ↔ Ends m s E Q := by
  unfold Ends
  rw [run_mapErr]
  rcases m.run s with _ | ⟨_ | _, _⟩
  . exact Iff.rfl
  . exact Iff.rfl
  . exact Iff.rfl

/-
Sequences of statements.
-/

variable {faults : Faults} {n : Nat} {changed : Bool} {rest : Prop}

theorem harmless_cons (attempt : Attempt) (attempts : List Attempt)
    : Harmless faults (attempt :: attempts) n changed rest
        ↔ Harmless faults [attempt] n changed
          (Harmless faults attempts (n + 1) (changed || attempt.changes) rest) := by
  simp only [Harmless]

theorem harmless_append (first second : List Attempt)
    : Harmless faults (first ++ second) n changed rest
        ↔ Harmless faults first n changed
          (Harmless faults second (n + first.length) (changed || first.any (·.changes)) rest) := by
  induction first generalizing n changed with
  | nil => simp [Harmless]
  | cons attempt attempts ih =>
    simp only [List.cons_append, Harmless]
    split
    . exact Iff.rfl
    . rw [ih, List.length_cons, List.any_cons, Bool.or_assoc, Nat.add_right_comm, Nat.add_assoc]

theorem harmless_congr {rest' : Prop} {attempts : List Attempt} (h : rest ↔ rest')
    : Harmless faults attempts n changed rest ↔ Harmless faults attempts n changed rest' := by
  rw [h]

theorem harmless_of_refused (changes : Bool) (attempts : List Attempt)
    : Harmless faults (⟨true, changes⟩ :: attempts) n changed rest ↔ changed = false := by
  simp [Harmless]

variable {broken : String → ε} {x : σ → Except (Fault ε) α × σ} {t t' : σ} {a : α} {e : Fault ε}

theorem ends_statement_of_ok (hx : x t = (.ok a, t')) (hE : E t ↔ changed = false) (changes : Bool)
    : Ends (statement faults broken x) (t, n) E Q
        ↔ Harmless faults [⟨false, changes⟩] n changed (Q a (t', n + 1)) := by
  have hrun : (statement faults broken x).run (t, n)
      = match faults n with
        | some message => .error (.err (broken message)) (t, n + 1)
        | none => .ok a (t', n + 1) := by
    show statement faults broken x (t, n) = _
    unfold statement
    rw [hx]
  unfold Ends
  rw [hrun]
  cases hfault : faults n with
  | some message => simp [Harmless, hfault, hE]
  | none => simp [Harmless, hfault]

theorem ends_statement_of_error (hx : x t = (.error e, t)) (hE : E t ↔ changed = false)
    : Ends (statement faults broken x) (t, n) E Q ↔ changed = false := by
  have hrun : (statement faults broken x).run (t, n)
      = match faults n with
        | some message => .error (.err (broken message)) (t, n + 1)
        | none => .error e (t, n + 1) := by
    show statement faults broken x (t, n) = _
    unfold statement
    rw [hx]
  unfold Ends
  rw [hrun]
  cases faults n with
  | some | none => exact hE

end Statements

end Sql
