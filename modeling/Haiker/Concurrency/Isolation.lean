import Haiker.Concurrency.Program

/-!
This module contains programs of several principals on one state, and when a principal cannot tell whether
there are others: what it is answered and what it sees of the state are as if they had taken no step.
-/

namespace Program

open Interleaving

variable {Command : Type} {Reply : Command → Type} {ε ε' α β σ : Type}

section Agree

/-
`reads` are commands that change nothing, `asks` those that a principal may give. `tells` relates the replies
that it may get in place of each other, `alike` the errors that come to the same.
-/
variable (reads asks : Command → Prop) (tells : (command : Command) → Reply command → Reply command → Prop)
  (alike : ε → ε → Prop)

/--
The program only reads any more, and whatever it reads it ends with the error.
-/
def Fails (e : ε) : Program Reply (Except ε α) → Prop
  | .done result => result = .error e
  | .ask command next => reads command ∧ ∀ reply, (next reply).Fails e

/--
Two programs that give the same commands, for as long as their replies are related, and end with related
results. When both are bound to fail, the one may be ahead of the other.
-/
inductive Agree (post : α → α → Prop)
    : Program Reply (Except ε α) → Program Reply (Except ε α) → Prop where
  | done {a a' : α} (h : post a a') : Agree post (.done (.ok a)) (.done (.ok a'))
  | fails {e e' : ε} {program program' : Program Reply (Except ε α)} (he : alike e e')
    (h : program.Fails reads e) (h' : program'.Fails reads e') : Agree post program program'
  | ask (command : Command) {next next' : Reply command → Program Reply (Except ε α)} (hasks : asks command)
    (h : ∀ reply reply', tells command reply reply' → Agree post (next reply) (next' reply'))
    : Agree post (.ask command next) (.ask command next')

variable {reads asks tells alike}

theorem Fails.bind {e : ε} {e' : ε'} {program : Program Reply (Except ε α)}
    {f : Except ε α → Program Reply (Except ε' β)} (h : program.Fails reads e)
    (hf : f (.error e) = .done (.error e')) : (program >>= f).Fails reads e' := by
  induction program with
  | done result =>
    obtain rfl : result = .error e := h
    show (f (.error e)).Fails reads e'
    rw [hf]
    rfl
  | ask command next ih => exact ⟨h.1, fun reply => ih reply (h.2 reply)⟩

theorem Fails.ends {e : ε} {program : Program Reply (Except ε α)} (h : program.Fails reads e)
    : program.Ends (· = .error e) := by
  induction program with
  | done result => exact h
  | ask command next ih => exact fun reply => ih reply (h.2 reply)

theorem Fails.step {e : ε} {program : Program Reply (Except ε α)} (h : program.Fails reads e)
    (answer : (command : Command) → σ → Reply command × σ) (s : σ)
    : (program.step answer s).2.Fails reads e := by
  cases program with
  | done result => exact h
  | ask command next => exact h.2 _

theorem Fails.state {e : ε} {program : Program Reply (Except ε α)} (h : program.Fails reads e)
    {answer : (command : Command) → σ → Reply command × σ} {s : σ}
    (hreads : ∀ command, reads command → (answer command s).2 = s) : (program.step answer s).1 = s := by
  cases program with
  | done result => rfl
  | ask command next => exact hreads command h.1

/-
How programs that agree are put together.
-/

variable {post : α → α → Prop}

theorem agree_throw {e e' : ε} (h : alike e e')
    : Agree reads asks tells alike post (ExceptT.run (throw e : ExceptT ε (Program Reply) α))
        (ExceptT.run (throw e' : ExceptT ε (Program Reply) α)) := .fails h rfl rfl

theorem Agree.bind {post' : β → β → Prop} {x y : ExceptT ε (Program Reply) α}
    {f g : α → ExceptT ε (Program Reply) β} (h : Agree reads asks tells alike post x.run y.run)
    (hnext : ∀ a a', post a a' → Agree reads asks tells alike post' (f a).run (g a').run)
    : Agree reads asks tells alike post' (x >>= f).run (y >>= g).run := by
  rw [ExceptT.run_bind, ExceptT.run_bind]
  generalize x.run = program at h
  generalize y.run = program' at h
  induction h with
  | done h => exact hnext _ _ h
  | fails he h h' => exact .fails he (h.bind rfl) (h'.bind rfl)
  | ask command hasks _ ih => exact .ask command hasks ih

theorem Agree.map {post' : β → β → Prop} {x y : ExceptT ε (Program Reply) α} {f g : α → β}
    (h : Agree reads asks tells alike post x.run y.run) (hmap : ∀ a a', post a a' → post' (f a) (g a'))
    : Agree reads asks tells alike post' (f <$> x).run (g <$> y).run := by
  have hbind : Agree reads asks tells alike post' (x >>= fun a => pure (f a)).run (y >>= fun a => pure (g a)).run :=
    h.bind fun a a' ha => .done (hmap a a' ha)
  exact hbind

theorem Agree.adapt {alike' : ε' → ε' → Prop} {x y : ExceptT ε (Program Reply) α} {g : ε → ε'}
    (h : Agree reads asks tells alike post x.run y.run) (hg : ∀ e e', alike e e' → alike' (g e) (g e'))
    : Agree reads asks tells alike' post (ExceptT.adapt g x).run (ExceptT.adapt g y).run := by
  show Agree reads asks tells alike' post (x.run >>= fun result => .done (result.mapError g))
    (y.run >>= fun result => .done (result.mapError g))
  generalize x.run = program at h
  generalize y.run = program' at h
  induction h with
  | done h => exact .done h
  | fails he h h' => exact .fails (hg _ _ he) (h.bind rfl) (h'.bind rfl)
  | ask command hasks _ ih => exact .ask command hasks ih

/-
Steps of programs that agree.
-/

theorem Agree.step {program program' : Program Reply (Except ε α)}
    (h : Agree reads asks tells alike post program program')
    {answer : (command : Command) → σ → Reply command × σ} {s s' : σ}
    (htells : ∀ command, asks command → tells command (answer command s).1 (answer command s').1)
    : Agree reads asks tells alike post (program.step answer s).2 (program'.step answer s').2 := by
  cases h with
  | done h => exact .done h
  | fails he h h' => exact .fails he (h.step answer s) (h'.step answer s')
  | ask command hasks h => exact h _ _ (htells command hasks)

/--
What agreeing programs do to their states: nothing, or the same command.
-/
theorem Agree.states {program program' : Program Reply (Except ε α)}
    (h : Agree reads asks tells alike post program program')
    {answer : (command : Command) → σ → Reply command × σ}
    (hreads : ∀ command s, reads command → (answer command s).2 = s) (s s' : σ) (P : σ → σ → Prop)
    (hquiet : P s s') (hasked : ∀ command, asks command → P (answer command s).2 (answer command s').2)
    : P (program.step answer s).1 (program'.step answer s').1 := by
  cases h with
  | done h => exact hquiet
  | fails _ h h' =>
    rw [h.state fun command => hreads command s, h'.state fun command => hreads command s']
    exact hquiet
  | ask command hasks h => exact hasked command hasks

-- when one of them has been answered, the other has no other answer left
theorem Agree.ends {program program' : Program Reply (Except ε α)} {result : Except ε α}
    (h : Agree reads asks tells (· = ·) (· = ·) program program') (hresult : program = .done result)
    : program'.Ends (· = result) := by
  cases h with
  | done h =>
    cases hresult
    cases h
    exact rfl
  | @fails e _ _ _ he h h' =>
    subst hresult he
    obtain rfl : result = .error e := h
    exact h'.ends
  | ask command hasks h => cases hresult

theorem Agree.symm {program program' : Program Reply (Except ε α)}
    (htells : ∀ command reply reply', tells command reply reply' → tells command reply' reply)
    (h : Agree reads asks tells (· = ·) (· = ·) program program')
    : Agree reads asks tells (· = ·) (· = ·) program' program := by
  induction h with
  | done h => exact .done h.symm
  | fails he h h' => exact .fails he.symm h' h
  | ask command hasks _ ih => exact .ask command hasks fun reply reply' h => ih _ _ (htells _ _ _ h)

end Agree

section Isolation

/-
The observer is one of the principals. `same` relates states that look the same to it.
-/
variable {ι ρ : Type} [DecidableEq ι] (answer : (command : Command) → σ → Reply command × σ)
  (reads : Command → Prop) (asks : ρ → Command → Prop)
  (tells : ρ → (command : Command) → Reply command → Reply command → Prop) (inv : σ → Prop)
  (same : σ → σ → Prop) (observer : ρ)

/--
No command that a principal may give shows the observer anything of another one, or changes anything that
the observer sees of its own.
-/
structure Isolates : Prop where
  state : ∀ command s, reads command → (answer command s).2 = s
  keeps : ∀ u command s, asks u command → inv s → inv (answer command s).2
  reply : ∀ u command s, asks u command → inv s → tells u command (answer command s).1 (answer command s).1
  others : ∀ u command s s', asks u command → u ≠ observer → inv s → same s s' →
    same (answer command s).2 s'
  own : ∀ command s s', asks observer command → inv s → inv s' → same s s' →
    tells observer command (answer command s).1 (answer command s').1
      ∧ same (answer command s).2 (answer command s').2

variable (user : ι → ρ)

/--
The observer's clients cannot tell the one configuration from the other.
-/
structure Alike (c c' : Config σ (Program Reply (Except ε α)) ι) : Prop where
  keeps : inv c.shared
  keeps' : inv c'.shared
  looks : same c.shared c'.shared
  clients : ∀ i, Agree reads (asks (user i)) (tells (user i)) (· = ·) (· = ·) (c.clients i) (c.clients i)
  own : ∀ i, user i = observer →
    Agree reads (asks observer) (tells observer) (· = ·) (· = ·) (c.clients i) (c'.clients i)

variable {answer reads asks tells inv same observer user}
  {c c' : Config σ (Program Reply (Except ε α)) ι}
  (hisolates : Isolates answer reads asks tells inv same observer)

include hisolates

theorem keeps_fire (i : ι) (hinv : inv c.shared)
    (hclients : ∀ i, Agree reads (asks (user i)) (tells (user i)) (· = ·) (· = ·) (c.clients i) (c.clients i))
    : inv (fire (step answer) c i).shared
        ∧ ∀ j, Agree reads (asks (user j)) (tells (user j)) (· = ·) (· = ·) ((fire (step answer) c i).clients j)
          ((fire (step answer) c i).clients j) := by
  constructor
  . exact (hclients i).states hisolates.state c.shared c.shared (fun s _ => inv s) hinv
      fun command hasks => hisolates.keeps _ command _ hasks hinv
  . intro j
    by_cases hj : j = i
    . subst hj
      rw [fire_clients_self]
      exact (hclients j).step fun command hasks => hisolates.reply _ command _ hasks hinv
    . rw [fire_clients_ne _ c hj]
      exact hclients j

theorem Alike.fire_other (h : Alike reads asks tells inv same observer user c c') {i : ι}
    (hi : user i ≠ observer)
    : Alike reads asks tells inv same observer user (fire (step answer) c i) c' := by
  obtain ⟨hinv, hclients⟩ := keeps_fire hisolates i h.keeps h.clients
  constructor
  . exact hinv
  . exact h.keeps'
  . exact (h.clients i).states hisolates.state c.shared c'.shared (fun s _ => same s c'.shared) h.looks
      fun command hasks => hisolates.others _ command _ _ hasks hi h.keeps h.looks
  . exact hclients
  . intro j hj
    have hne : j ≠ i := fun heq => hi (heq ▸ hj)
    rw [fire_clients_ne _ c hne]
    exact h.own j hj

theorem Alike.fire_own (h : Alike reads asks tells inv same observer user c c') {i : ι}
    (hi : user i = observer)
    : Alike reads asks tells inv same observer user (fire (step answer) c i) (fire (step answer) c' i) := by
  obtain ⟨hinv, hclients⟩ := keeps_fire hisolates i h.keeps h.clients
  constructor
  . exact hinv
  . exact (h.own i hi).states hisolates.state c.shared c'.shared (fun _ s' => inv s') h.keeps'
      fun command hasks => hisolates.keeps _ command _ hasks h.keeps'
  . exact (h.own i hi).states hisolates.state c.shared c'.shared same h.looks
      fun command hasks => (hisolates.own command _ _ hasks h.keeps h.keeps' h.looks).2
  . exact hclients
  . intro j hj
    by_cases hne : j = i
    . subst hne
      rw [fire_clients_self, fire_clients_self]
      exact (h.own j hj).step fun command hasks => (hisolates.own command _ _ hasks h.keeps h.keeps' h.looks).1
    . rw [fire_clients_ne _ c hne, fire_clients_ne _ c' hne]
      exact h.own j hj

/--
What the observer's clients get is what they get when the others take no step.
-/
theorem Alike.run [DecidableEq ρ] (h : Alike reads asks tells inv same observer user c c') (schedule : List ι)
    : Alike reads asks tells inv same observer user (Interleaving.run (step answer) c schedule)
        (Interleaving.run (step answer) c' (schedule.filter fun i => user i = observer)) := by
  induction schedule generalizing c c' with
  | nil => exact h
  | cons i schedule ih =>
    rw [run_cons, List.filter_cons]
    split
    . next hi =>
      rw [decide_eq_true_eq] at hi
      exact ih (h.fire_own hisolates hi)
    . next hi =>
      rw [decide_eq_true_eq] at hi
      exact ih (h.fire_other hisolates hi)

end Isolation

end Program
