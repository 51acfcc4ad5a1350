import Haiker.Concurrency.Interleaving

/-!
This module contains programs that work on a state by commands and go on with the replies: what they do
when they are alone, command by command, and which commands they give for as long as they get the
replies they rely on.
-/

/--
A command is what cannot be interrupted. Between two commands others may work on the state.
-/
inductive Program {Command : Type} (Reply : Command → Type) (α : Type) where
  | done (result : α)
  | ask (command : Command) (next : Reply command → Program Reply α)

namespace Program

variable {Command : Type} {Reply : Command → Type} {α β ε σ ι : Type}

def bind (program : Program Reply α) (f : α → Program Reply β) : Program Reply β :=
  match program with
  | .done result => f result
  | .ask command next => .ask command fun reply => (next reply).bind f

instance : Monad (Program Reply) where
  pure := .done
  bind := bind

def call (command : Command) : Program Reply (Reply command) := .ask command .done

/--
The next command.
-/
def command? : Program Reply α → Option Command
  | .done _ => none
  | .ask command _ => some command

/--
What is left to do after a part that may fail.
-/
def onOk (result : Except ε α × σ) (rest : α → σ → Except ε β × σ) : Except ε β × σ :=
  match result with
  | (.ok a, s) => rest a s
  | (.error e, s) => (.error e, s)

@[simp]
theorem onOk_ok (a : α) (s : σ) (rest : α → σ → Except ε β × σ) : onOk (.ok a, s) rest = rest a s :=
  rfl

@[simp]
theorem onOk_error (e : ε) (s : σ) (rest : α → σ → Except ε β × σ)
    : onOk (.error e, s) rest = (.error e, s) := rfl

section Run

/-
`answer` is what a command does to the state, and its reply.
-/
variable (answer : (command : Command) → σ → Reply command × σ)

/--
The result of the program and the state it leaves when it is alone.
-/
def run : Program Reply α → σ → α × σ
  | .done result, s => (result, s)
  | .ask command next, s => (next (answer command s).1).run (answer command s).2

/--
The program has its next command carried out.
-/
def step (s : σ) : Program Reply α → σ × Program Reply α
  | .done result => (s, .done result)
  | .ask command next => ((answer command s).2, next (answer command s).1)

/--
The program has `n` commands carried out.
-/
def steps : Nat → σ → Program Reply α → σ × Program Reply α
  | 0, s, program => (s, program)
  | n + 1, s, program => steps n (program.step answer s).1 (program.step answer s).2

@[simp]
theorem run_done (result : α) (s : σ) : (done result : Program Reply α).run answer s = (result, s) :=
  rfl

@[simp]
theorem run_pure (result : α) (s : σ) : (pure result : Program Reply α).run answer s = (result, s) :=
  rfl

@[simp]
theorem run_ask (command : Command) (next : Reply command → Program Reply α) (s : σ)
    : (ask command next).run answer s
        = (next (answer command s).1).run answer (answer command s).2 := rfl

@[simp]
theorem run_call (command : Command) (s : σ)
    : (call command : Program Reply (Reply command)).run answer s = answer command s := rfl

@[simp]
theorem run_bind (program : Program Reply α) (f : α → Program Reply β) (s : σ)
    : (program >>= f).run answer s
        = (f (program.run answer s).1).run answer (program.run answer s).2 := by
  induction program generalizing s with
  | done result => rfl
  | ask command next ih => exact ih (answer command s).1 (answer command s).2

@[simp]
theorem run_exceptBind (program : ExceptT ε (Program Reply) α)
    (f : α → ExceptT ε (Program Reply) β) (s : σ)
    : (ExceptT.run (program >>= f)).run answer s
        = onOk ((ExceptT.run program).run answer s) fun a s' => (ExceptT.run (f a)).run answer s' := by
  rw [ExceptT.run_bind, run_bind]
  cases (ExceptT.run program).run answer s with
  | mk result s' =>
    cases result with
    | ok a => rfl
    | error e => rfl

/--
The result of a program that may fail, and the state it leaves when it is alone.
-/
def execute (program : ExceptT ε (Program Reply) α) (s : σ) : Except ε α × σ :=
  (ExceptT.run program).run answer s

@[simp]
theorem execute_pure (a : α) (s : σ)
    : execute answer (pure a : ExceptT ε (Program Reply) α) s = (.ok a, s) := rfl

@[simp]
theorem execute_throw (e : ε) (s : σ)
    : execute answer (throw e : ExceptT ε (Program Reply) α) s = (.error e, s) := rfl

@[simp]
theorem execute_bind (program : ExceptT ε (Program Reply) α) (f : α → ExceptT ε (Program Reply) β)
    (s : σ)
    : execute answer (program >>= f) s
        = onOk (execute answer program s) fun a s' => execute answer (f a) s' :=
  run_exceptBind answer program f s

theorem exists_steps (program : Program Reply α) (s : σ)
    : ∃ n, program.steps answer n s
        = ((program.run answer s).2, .done (program.run answer s).1) := by
  induction program generalizing s with
  | done result => exact ⟨0, rfl⟩
  | ask command next ih =>
    obtain ⟨n, hn⟩ := ih (answer command s).1 (answer command s).2
    exact ⟨n + 1, hn⟩

/--
`inv` holds in every state that the program passes through when it is alone.
-/
def Always (inv : σ → Prop) : Program Reply α → σ → Prop
  | .done _, s => inv s
  | .ask command next, s =>
    inv s ∧ (next (answer command s).1).Always inv (answer command s).2

variable {inv : σ → Prop}

theorem Always.here {program : Program Reply α} {s : σ} (h : program.Always answer inv s) : inv s := by
  cases program with
  | done result => exact h
  | ask command next => exact h.1

theorem Always.run {program : Program Reply α} {s : σ} (h : program.Always answer inv s)
    : inv (program.run answer s).2 := by
  induction program generalizing s with
  | done result => exact h
  | ask command next ih => exact ih _ h.2

theorem Always.steps {program : Program Reply α} {s : σ} (h : program.Always answer inv s) (n : Nat)
    : inv (program.steps answer n s).1 := by
  induction n generalizing program s with
  | zero => exact h.here
  | succ n ih =>
    cases program with
    | done result => exact ih h
    | ask command next => exact ih h.2

@[simp]
theorem always_call (command : Command) (s : σ)
    : (call command : Program Reply (Reply command)).Always answer inv s
        ↔ inv s ∧ inv (answer command s).2 := Iff.rfl

theorem always_bind (program : Program Reply α) (f : α → Program Reply β) (s : σ)
    : (program >>= f).Always answer inv s
        ↔ program.Always answer inv s
          ∧ (f (program.run answer s).1).Always answer inv (program.run answer s).2 := by
  induction program generalizing s with
  | done result => exact ⟨fun h => ⟨h.here, h⟩, And.right⟩
  | ask command next ih =>
    have hnext := ih (answer command s).1 (answer command s).2
    exact (and_congr_right fun _ => hnext).trans and_assoc.symm

theorem always_exceptBind (program : ExceptT ε (Program Reply) α)
    (f : α → ExceptT ε (Program Reply) β) (s : σ)
    : (ExceptT.run (program >>= f)).Always answer inv s
        ↔ (ExceptT.run program).Always answer inv s
          ∧ ∀ a s', (ExceptT.run program).run answer s = (.ok a, s') →
            (ExceptT.run (f a)).Always answer inv s' := by
  rw [ExceptT.run_bind, always_bind]
  apply and_congr_right
  intro h
  have hend := h.run
  cases hrun : (ExceptT.run program).run answer s with
  | mk result s' =>
    rw [hrun] at hend
    cases result with
    | ok a =>
      simp only
      constructor
      . intro h' b s'' hb
        cases hb
        exact h'
      . intro h'
        exact h' a s' rfl
    | error e =>
      refine iff_of_true hend ?_
      intro a s'' ha
      cases ha

end Run

section Tracks

/-
A client that works through a program learns from the replies.
-/
variable {γ : Type} (asks : γ → Command → Prop)
  (tells : γ → (command : Command) → Reply command → Prop)
  (learn : γ → (command : Command) → Reply command → γ)

/--
As long as every reply is as `tells` says, every command is as `asks` says, and `post` holds in the end.
-/
def Tracks (post : α → γ → Prop) : Program Reply α → γ → Prop
  | .done result, known => post result known
  | .ask command next, known =>
    asks known command
      ∧ ∀ reply, tells known command reply → (next reply).Tracks post (learn known command reply)

/--
What the client knows after the next command.
-/
def learned (answer : (command : Command) → σ → Reply command × σ) (s : σ) (known : γ)
    : Program Reply α → γ
  | .done _ => known
  | .ask command _ => learn known command (answer command s).1

variable {asks tells learn} {post : α → γ → Prop}

theorem Tracks.mono {post' : α → γ → Prop} {program : Program Reply α} {known : γ}
    (h : program.Tracks asks tells learn post known) (hpost : ∀ a known, post a known → post' a known)
    : program.Tracks asks tells learn post' known := by
  induction program generalizing known with
  | done result => exact hpost result known h
  | ask command next ih => exact ⟨h.1, fun reply hreply => ih reply (h.2 reply hreply)⟩

theorem Tracks.bind {post : β → γ → Prop} {program : Program Reply α} {f : α → Program Reply β}
    {known : γ}
    (h : program.Tracks asks tells learn (fun a known => (f a).Tracks asks tells learn post known) known)
    : (program >>= f).Tracks asks tells learn post known := by
  induction program generalizing known with
  | done result => exact h
  | ask command next ih => exact ⟨h.1, fun reply hreply => ih reply (h.2 reply hreply)⟩

theorem Tracks.exceptBind {post : Except ε β → γ → Prop} {program : ExceptT ε (Program Reply) α}
    {f : α → ExceptT ε (Program Reply) β} {known : γ}
    (h : (ExceptT.run program).Tracks asks tells learn
      (fun result known =>
        (∀ a, result = .ok a → (ExceptT.run (f a)).Tracks asks tells learn post known)
          ∧ ∀ e, result = .error e → post (.error e) known) known)
    : (ExceptT.run (program >>= f)).Tracks asks tells learn post known := by
  rw [ExceptT.run_bind]
  apply Tracks.bind
  apply h.mono
  intro result known hresult
  cases result with
  | ok a => exact hresult.1 a rfl
  | error e => exact hresult.2 e rfl

theorem Tracks.step {program : Program Reply α} {known : γ} {s : σ}
    {answer : (command : Command) → σ → Reply command × σ}
    (h : program.Tracks asks tells learn post known)
    (htells : ∀ command, program.command? = some command → tells known command (answer command s).1)
    : (program.step answer s).2.Tracks asks tells learn post (program.learned learn answer s known) := by
  cases program with
  | done result => exact h
  | ask command next => exact h.2 _ (htells command rfl)

theorem Tracks.asks_of_command {program : Program Reply α} {known : γ} {command : Command}
    (h : program.Tracks asks tells learn post known) (hcommand : program.command? = some command)
    : asks known command := by
  cases program with
  | done result => cases hcommand
  | ask command' next =>
    cases hcommand
    exact h.1

/-
The same for programs that may fail.
-/

variable (asks tells learn)

/--
`post` holds of what the program returns when it does not fail.
-/
def Yields (program : ExceptT ε (Program Reply) α) (known : γ) (post : α → γ → Prop) : Prop :=
  (ExceptT.run program).Tracks asks tells learn (fun result known => ∀ a, result = .ok a → post a known) known

variable {asks tells learn} {known : γ}

theorem Yields.mono {post' : α → γ → Prop} {program : ExceptT ε (Program Reply) α}
    (h : Yields asks tells learn program known post) (hpost : ∀ a known, post a known → post' a known)
    : Yields asks tells learn program known post' :=
  Tracks.mono h fun _ known hresult a ha => hpost a known (hresult a ha)

theorem Yields.bind {program : ExceptT ε (Program Reply) α} {f : α → ExceptT ε (Program Reply) β}
    {post : β → γ → Prop}
    (h : Yields asks tells learn program known fun a known => Yields asks tells learn (f a) known post)
    : Yields asks tells learn (program >>= f) known post := by
  apply Tracks.exceptBind
  apply Tracks.mono h
  intro result known hresult
  refine ⟨hresult, ?_⟩
  intro e _ b hb
  cases hb

theorem yields_pure {a : α} (h : post a known)
    : Yields asks tells learn (pure a : ExceptT ε (Program Reply) α) known post := by
  intro b hb
  cases hb
  exact h

theorem yields_throw (e : ε) (known : γ) (post : α → γ → Prop)
    : Yields asks tells learn (throw e : ExceptT ε (Program Reply) α) known post := by
  intro b hb
  cases hb

theorem yields_lift_call {command : Command} {post : Reply command → γ → Prop} (hasks : asks known command)
    (h : ∀ reply, tells known command reply → post reply (learn known command reply))
    : Yields asks tells learn (ExceptT.lift (call command) : ExceptT ε (Program Reply) (Reply command))
        known post := by
  refine ⟨hasks, ?_⟩
  intro reply hreply a ha
  cases ha
  exact h reply hreply

end Tracks

section Trace

/--
A command with its reply.
-/
abbrev Event (Reply : Command → Type) : Type := (command : Command) × Reply command

/--
A client that learns everything.
-/
def record (log : List (Event Reply)) (command : Command) (reply : Reply command) : List (Event Reply) :=
  log ++ [⟨command, reply⟩]

theorem mem_record {log : List (Event Reply)} {command : Command} {reply : Reply command} {event : Event Reply}
    : event ∈ record log command reply ↔ event ∈ log ∨ event = ⟨command, reply⟩ := by
  rw [record, List.mem_append, List.mem_singleton]

theorem reply_of_event (f : (command : Command) → Reply command) {command command' : Command}
    {reply : Reply command} (h : (⟨command, reply⟩ : Event Reply) = ⟨command', f command'⟩)
    : command' = command ∧ f command = reply := by
  obtain rfl : command = command' := congrArg Sigma.fst h
  exact ⟨rfl, (eq_of_heq (Sigma.mk.inj h).2).symm⟩

/--
The commands of a program that is alone, with their replies.
-/
def trace (answer : (command : Command) → σ → Reply command × σ) : Program Reply α → σ → List (Event Reply)
  | .done _, _ => []
  | .ask command next, s =>
    ⟨command, (answer command s).1⟩ :: (next (answer command s).1).trace answer (answer command s).2

variable {asks : List (Event Reply) → Command → Prop} {post : α → List (Event Reply) → Prop}

theorem Tracks.asks_of_trace {program : Program Reply α} {log : List (Event Reply)}
    {answer : (command : Command) → σ → Reply command × σ} {s : σ} {before after : List (Event Reply)}
    {event : Event Reply} (h : program.Tracks asks (fun _ _ _ => True) record post log)
    (htrace : program.trace answer s = before ++ event :: after) : asks (log ++ before) event.1 := by
  induction program generalizing log before s with
  | done result => exact absurd htrace.symm (by simp [trace])
  | ask command next ih =>
    cases before with
    | nil =>
      obtain ⟨rfl, _⟩ := List.cons.inj htrace
      rw [List.append_nil]
      exact h.1
    | cons first before =>
      obtain ⟨rfl, hrest⟩ := List.cons.inj htrace
      have hnext := ih _ (h.2 _ trivial) hrest
      rw [record, List.append_assoc] at hnext
      exact hnext

end Trace

section Ends

/--
Whatever the replies are, `post` holds of the result.
-/
def Ends (post : α → Prop) : Program Reply α → Prop
  | .done result => post result
  | .ask _ next => ∀ reply, (next reply).Ends post

variable {post : α → Prop}

theorem ends_bind {post : β → Prop} (program : Program Reply α) {f : α → Program Reply β}
    (h : ∀ a, (f a).Ends post) : (program >>= f).Ends post := by
  induction program with
  | done result => exact h result
  | ask command next ih => exact ih

theorem Ends.step {program : Program Reply α} (h : program.Ends post)
    (answer : (command : Command) → σ → Reply command × σ) (s : σ)
    : (program.step answer s).2.Ends post := by
  cases program with
  | done result => exact h
  | ask command next => exact h _

end Ends

end Program
