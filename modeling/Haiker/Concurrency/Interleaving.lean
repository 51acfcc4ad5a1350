import Mathlib.Logic.Function.Basic
import Haiker.Simulation.Runs

/-!
This module contains clients that take atomic steps on a shared state in any order, the rule that
proves an invariant of all their interleavings, and the condition under which an interleaving has the
effect of its committing steps taken one client at a time.
-/

namespace Interleaving

/--
The shared state together with the local state of every client.
-/
structure Config (σ γ ι : Type) where
  shared : σ
  clients : ι → γ

variable {σ γ ι : Type} [DecidableEq ι] (step : σ → γ → σ × γ)

/--
Client `i` takes its next step.
-/
def fire (c : Config σ γ ι) (i : ι) : Config σ γ ι where
  shared := (step c.shared (c.clients i)).1
  clients := Function.update c.clients i (step c.shared (c.clients i)).2

/--
The clients take their steps in the order of `schedule`.
-/
def run (c : Config σ γ ι) (schedule : List ι) : Config σ γ ι := schedule.foldl (fire step) c

/--
The clients whose step commits, in the order in which they do.
-/
def commitLog (commits : σ → γ → Bool) (c : Config σ γ ι) : List ι → List ι
  | [] => []
  | i :: schedule =>
    if commits c.shared (c.clients i) then
      i :: commitLog commits (fire step c i) schedule
    else
      commitLog commits (fire step c i) schedule

/--
`P` holds of every client that takes a step, in the configuration it takes it in.
-/
def Along (P : Config σ γ ι → ι → Prop) (c : Config σ γ ι) : List ι → Prop
  | [] => True
  | i :: schedule => P c i ∧ Along P (fire step c i) schedule

instance decidableAlong (P : Config σ γ ι → ι → Prop) [∀ c i, Decidable (P c i)]
    : ∀ (c : Config σ γ ι) (schedule : List ι), Decidable (Along step P c schedule)
  | _, [] => inferInstanceAs (Decidable True)
  | c, i :: schedule =>
    let _ := decidableAlong P (fire step c i) schedule
    inferInstanceAs (Decidable (P c i ∧ Along step P (fire step c i) schedule))

@[simp]
theorem run_nil (c : Config σ γ ι) : run step c [] = c := rfl

@[simp]
theorem run_cons (c : Config σ γ ι) (i : ι) (schedule : List ι)
    : run step c (i :: schedule) = run step (fire step c i) schedule := rfl

theorem fire_alone (s : σ) (g : γ)
    : fire step ⟨s, fun _ : Unit => g⟩ () = ⟨(step s g).1, fun _ => (step s g).2⟩ := by
  have hupdate : Function.update (fun _ : Unit => g) () (step s g).2 = fun _ => (step s g).2 := by
    funext i
    simp
  unfold fire
  rw [hupdate]

theorem run_append (c : Config σ γ ι) (first second : List ι)
    : run step c (first ++ second) = run step (run step c first) second := by
  simp [run, List.foldl_append]

@[simp]
theorem fire_clients_self (c : Config σ γ ι) (i : ι)
    : (fire step c i).clients i = (step c.shared (c.clients i)).2 := by
  simp [fire]

theorem fire_clients_ne (c : Config σ γ ι) {i j : ι} (h : j ≠ i)
    : (fire step c i).clients j = c.clients j := by
  simp [fire, h]

theorem run_induction {motive : Config σ γ ι → Prop}
    (hstep : ∀ c i, motive c → motive (fire step c i)) {c : Config σ γ ι} (h : motive c)
    (schedule : List ι)
    : motive (run step c schedule) := by
  induction schedule generalizing c with
  | nil => exact h
  | cons i schedule ih => exact ih (hstep c i h)

/--
A client that takes no step may as well be another one.
-/
theorem run_update {c : Config σ γ ι} {i : ι} {schedule : List ι} (h : i ∉ schedule) (g : γ)
    : run step { c with clients := Function.update c.clients i g } schedule
        = { run step c schedule with clients := Function.update (run step c schedule).clients i g } := by
  induction schedule generalizing c with
  | nil => rfl
  | cons j schedule ih =>
    rw [List.mem_cons, not_or] at h
    have hfire : fire step { c with clients := Function.update c.clients i g } j
        = { fire step c j with clients := Function.update (fire step c j).clients i g } := by
      unfold fire
      simp only [Function.update_of_ne (Ne.symm h.1)]
      rw [Function.update_comm h.1]
    rw [run_cons, run_cons, hfire, ih h.2]

theorem Along.last {P : Config σ γ ι → ι → Prop} {c : Config σ γ ι} {schedule : List ι} {i : ι}
    (h : Along step P c (schedule ++ [i])) : P (run step c schedule) i := by
  induction schedule generalizing c with
  | nil => exact h.1
  | cons j schedule ih => exact ih h.2

theorem along_append {P : Config σ γ ι → ι → Prop} {c : Config σ γ ι} (first second : List ι)
    : Along step P c (first ++ second) ↔ Along step P c first ∧ Along step P (run step c first) second := by
  induction first generalizing c with
  | nil => exact ⟨fun h => ⟨trivial, h⟩, And.right⟩
  | cons i first ih => exact (and_congr_right fun _ => ih).trans and_assoc.symm

theorem Along.run_induction {P : Config σ γ ι → ι → Prop} {motive : Config σ γ ι → Prop}
    (hstep : ∀ c i, motive c → P c i → motive (fire step c i)) {c : Config σ γ ι} {schedule : List ι}
    (hP : Along step P c schedule) (h : motive c) : motive (run step c schedule) := by
  induction schedule generalizing c with
  | nil => exact h
  | cons i schedule ih => exact ih hP.2 (hstep c i h hP.1)

theorem Along.imp {P Q : Config σ γ ι → ι → Prop} {c : Config σ γ ι} {schedule : List ι}
    (hQ : Along step Q c schedule) (h : ∀ c i, Q c i → P c i) : Along step P c schedule := by
  induction schedule generalizing c with
  | nil => trivial
  | cons i schedule ih => exact ⟨h c i hQ.1, ih hQ.2⟩

/--
What is equivalent in every configuration that can be reached as long as `P` holds, is equivalent along
a run.
-/
theorem along_congr_of_reached {P Q : Config σ γ ι → ι → Prop} {reached : Config σ γ ι → Prop}
    (hPQ : ∀ c i, reached c → (P c i ↔ Q c i))
    (hstep : ∀ c i, reached c → P c i → reached (fire step c i)) {c : Config σ γ ι} (h : reached c)
    (schedule : List ι)
    : Along step P c schedule ↔ Along step Q c schedule := by
  induction schedule generalizing c with
  | nil => exact Iff.rfl
  | cons i schedule ih =>
    have hiff := hPQ c i h
    constructor
    . rintro ⟨hP, hrest⟩
      exact ⟨hiff.mp hP, (ih (hstep c i h hP)).mp hrest⟩
    . rintro ⟨hQ, hrest⟩
      have hP := hiff.mpr hQ
      exact ⟨hP, (ih (hstep c i h hP)).mpr hrest⟩

/--
What `Q` implies in every configuration that can be reached as long as `Q` holds, holds along a run.
-/
theorem Along.of_reached {P Q : Config σ γ ι → ι → Prop} {reached : Config σ γ ι → Prop}
    (hP : ∀ c i, reached c → Q c i → P c i)
    (hstep : ∀ c i, reached c → Q c i → reached (fire step c i)) {c : Config σ γ ι} (h : reached c)
    {schedule : List ι} (hQ : Along step Q c schedule) : Along step P c schedule := by
  induction schedule generalizing c with
  | nil => trivial
  | cons i schedule ih => exact ⟨hP c i h hQ.1, ih (hstep c i h hQ.1) hQ.2⟩

theorem along_iff_runs {P : Config σ γ ι → ι → Prop} {c : Config σ γ ι} (schedule : List ι)
    : Along step P c schedule ↔ Runs.Along (fire step) P c schedule := by
  induction schedule generalizing c with
  | nil => exact Iff.rfl
  | cons i schedule ih => exact and_congr_right fun _ => ih

/--
What a step keeps on its condition only is true of every configuration reached as long as all steps meet
theirs.
-/
theorem run_take_iff_along {P : Config σ γ ι → ι → Prop} {good : Config σ γ ι → Prop}
    (hstep : ∀ c i, good c → (good (fire step c i) ↔ P c i)) {c : Config σ γ ι} (h : good c)
    (schedule : List ι)
    : (∀ k, good (run step c (schedule.take k))) ↔ Along step P c schedule := by
  have hinv : ∀ (c : Config σ γ ι) (i : ι), True → True := fun _ _ _ => trivial
  rw [along_iff_runs]
  exact Runs.run_take_iff_along (fire step) hinv (fun c i _ => hstep c i) trivial h

section Invariant

/-
`assertion i s g` is what client `i` relies on when its local state is `g`: its own steps have to
establish it again, the steps of the others have to leave it true.
-/
variable {inv : σ → Prop} {assertion : ι → σ → γ → Prop}

/--
The invariant of the shared state and the assertions of all clients.
-/
def Holds (inv : σ → Prop) (assertion : ι → σ → γ → Prop) (c : Config σ γ ι) : Prop :=
  inv c.shared ∧ ∀ i, assertion i c.shared (c.clients i)

variable
  (hown : ∀ i s g, inv s → assertion i s g →
    inv (step s g).1 ∧ assertion i (step s g).1 (step s g).2)
  (hstable : ∀ i j s g g', inv s → i ≠ j → assertion i s g → assertion j s g' →
    assertion j (step s g).1 g')

include hown hstable

theorem Holds.fire {c : Config σ γ ι} (h : Holds inv assertion c) (i : ι)
    : Holds inv assertion (fire step c i) := by
  obtain ⟨hinv, hassert⟩ := h
  obtain ⟨hinv', hi⟩ := hown i c.shared (c.clients i) hinv (hassert i)
  refine ⟨hinv', ?_⟩
  intro j
  by_cases hj : j = i
  . subst hj
    rw [fire_clients_self]
    exact hi
  . rw [fire_clients_ne step c hj]
    exact hstable i j c.shared _ _ hinv (fun h => hj h.symm) (hassert i) (hassert j)

theorem Holds.run {c : Config σ γ ι} (h : Holds inv assertion c) (schedule : List ι)
    : Holds inv assertion (run step c schedule) :=
  run_induction step (fun _ i h => h.fire step hown hstable i) h schedule

theorem Holds.along {P : Config σ γ ι → ι → Prop}
    (hP : ∀ c i, Holds inv assertion c → P c i) {c : Config σ γ ι} (h : Holds inv assertion c)
    (schedule : List ι)
    : Along step P c schedule := by
  induction schedule generalizing c with
  | nil => trivial
  | cons i schedule ih => exact ⟨hP c i h, ih (h.fire step hown hstable i)⟩

theorem Holds.along_congr {P Q : Config σ γ ι → ι → Prop}
    (hPQ : ∀ c i, Holds inv assertion c → (P c i ↔ Q c i)) {c : Config σ γ ι}
    (h : Holds inv assertion c) (schedule : List ι)
    : Along step P c schedule ↔ Along step Q c schedule := by
  induction schedule generalizing c with
  | nil => exact Iff.rfl
  | cons i schedule ih => exact and_congr (hPQ c i h) (ih (h.fire step hown hstable i))

/--
If only committing steps change the shared state, and each of them does what `serve` does for its
client in one go, then a run leaves the state that serving the committing clients in commit order
leaves.
-/
theorem Holds.run_eq_serial {commits : σ → γ → Bool} {serve : ι → σ → σ}
    (hquiet : ∀ s g, commits s g = false → (step s g).1 = s)
    (hserve : ∀ i s g, inv s → assertion i s g → commits s g = true → (step s g).1 = serve i s)
    {c : Config σ γ ι} (h : Holds inv assertion c) (schedule : List ι)
    : (Interleaving.run step c schedule).shared
        =
      (commitLog step commits c schedule).foldl (fun s i => serve i s) c.shared := by
  induction schedule generalizing c with
  | nil => rfl
  | cons i schedule ih =>
    have hnext := h.fire step hown hstable i
    rw [run_cons, ih hnext, commitLog]
    cases hc : commits c.shared (c.clients i) with
    | false =>
      have : (Interleaving.fire step c i).shared = c.shared := hquiet _ _ hc
      simp [this]
    | true =>
      have : (Interleaving.fire step c i).shared = serve i c.shared :=
        hserve i _ _ h.1 (h.2 i) hc
      simp [this]

end Invariant

end Interleaving
