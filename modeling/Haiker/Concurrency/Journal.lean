import Mathlib.Data.List.Induction
import Haiker.Concurrency.Program
import Haiker.Simulation.Runs

/-!
This module contains clients that work through programs on a shared state, each command in surroundings of
its own, and the journal of what has been carried out for whom. What holds of every run is proved of its
journal: each reply is the one of the state that the commands before it have left, and each client has gone on
as its program says.
-/

namespace Program

variable {Command : Type} {Reply : Command → Type} {α : Type}

/--
The program goes on as the second one when it is given the replies of the log.
-/
inductive Follows : Program Reply α → List (Event Reply) → Program Reply α → Prop where
  | nil (program : Program Reply α) : Follows program [] program
  | cons {command : Command} {next : Reply command → Program Reply α} {reply : Reply command}
    {log : List (Event Reply)} {rest : Program Reply α} (h : Follows (next reply) log rest)
    : Follows (.ask command next) (⟨command, reply⟩ :: log) rest

variable {program rest : Program Reply α} {log : List (Event Reply)}

theorem Follows.concat {command : Command} {next : Reply command → Program Reply α}
    (h : Follows program log (.ask command next)) (reply : Reply command)
    : Follows program (log ++ [⟨command, reply⟩]) (next reply) := by
  generalize hrest : Program.ask command next = rest at h
  induction h with
  | nil program =>
    subst hrest
    exact .cons (.nil _)
  | cons h ih => exact .cons (ih hrest)

variable {asks : List (Event Reply) → Command → Prop} {post : α → List (Event Reply) → Prop}
  {known : List (Event Reply)}

theorem Tracks.follows (h : program.Tracks asks (fun _ _ _ => True) record post known)
    (hfollows : Follows program log rest)
    : rest.Tracks asks (fun _ _ _ => True) record post (known ++ log) := by
  induction hfollows generalizing known with
  | nil program =>
    rw [List.append_nil]
    exact h
  | cons hfollows ih =>
    have hnext := ih (h.2 _ trivial)
    rw [record, List.append_assoc] at hnext
    exact hnext

theorem Tracks.asks_of_follows {before after : List (Event Reply)} {event : Event Reply}
    (h : program.Tracks asks (fun _ _ _ => True) record post known)
    (hfollows : Follows program (before ++ event :: after) rest) : asks (known ++ before) event.1 := by
  induction before generalizing program known with
  | nil =>
    cases hfollows
    rw [List.append_nil]
    exact h.1
  | cons first before ih =>
    cases hfollows with
    | cons hrest =>
      have hnext := ih (h.2 _ trivial) hrest
      rw [record, List.append_assoc] at hnext
      exact hnext

end Program

namespace Journal

/--
A command that has been carried out for a client, with its surroundings and its reply.
-/
structure Entry (ι E : Type) {Command : Type} (Reply : Command → Type) where
  client : ι
  env : E
  command : Command
  reply : Reply command

/--
The state, what is left of the programs of the clients, and what has been carried out.
-/
structure System (σ ι E : Type) {Command : Type} (Reply : Command → Type) (α : Type) where
  shared : σ
  programs : ι → Program Reply α
  journal : List (Entry ι E Reply)

variable {Command : Type} {Reply : Command → Type} {α σ ι E : Type} [DecidableEq ι]

def Entry.event (entry : Entry ι E Reply) : Program.Event Reply := ⟨entry.command, entry.reply⟩

def start (shared : σ) (programs : ι → Program Reply α) : System σ ι E Reply α where
  shared
  programs
  journal := []

/--
The entries of client `i`.
-/
def entriesOf (i : ι) (journal : List (Entry ι E Reply)) : List (Entry ι E Reply) :=
  journal.filter fun entry => entry.client = i

/--
What client `i` has seen.
-/
def log (i : ι) (journal : List (Entry ι E Reply)) : List (Program.Event Reply) :=
  (entriesOf i journal).map Entry.event

variable (answer : E → (command : Command) → σ → Reply command × σ)

/--
A client has its next command carried out, in the given surroundings.
-/
def step (system : System σ ι E Reply α) (turn : ι × E) : System σ ι E Reply α :=
  match system.programs turn.1 with
  | .done _ => system
  | .ask command next =>
    let answered := answer turn.2 command system.shared
    {
      shared := answered.2
      programs := Function.update system.programs turn.1 (next answered.1)
      journal := system.journal ++ [⟨turn.1, turn.2, command, answered.1⟩]
    }

def run (system : System σ ι E Reply α) (turns : List (ι × E)) : System σ ι E Reply α :=
  Runs.run (step answer) system turns

/--
What the commands of a journal make of the state.
-/
def replay (shared : σ) (journal : List (Entry ι E Reply)) : σ :=
  journal.foldl (fun s entry => (answer entry.env entry.command s).2) shared

/--
Every reply is the one of the state that the commands before it have left.
-/
def Answered (shared : σ) (journal : List (Entry ι E Reply)) : Prop :=
  ∀ before entry after, journal = before ++ entry :: after →
    entry.reply = (answer entry.env entry.command (replay answer shared before)).1

/--
The journal accounts for the state and for where the clients are.
-/
structure Accounts (shared : σ) (programs : ι → Program Reply α) (system : System σ ι E Reply α) : Prop where
  answered : Answered answer shared system.journal
  shared : system.shared = replay answer shared system.journal
  follows : ∀ i, (programs i).Follows (log i system.journal) (system.programs i)

section Entries

variable {journal before after : List (Entry ι E Reply)} {entry : Entry ι E Reply} {i : ι}

@[simp]
theorem entriesOf_append (first second : List (Entry ι E Reply))
    : entriesOf i (first ++ second) = entriesOf i first ++ entriesOf i second :=
  List.filter_append ..

@[simp]
theorem log_nil : log i ([] : List (Entry ι E Reply)) = [] := rfl

@[simp]
theorem log_append (first second : List (Entry ι E Reply))
    : log i (first ++ second) = log i first ++ log i second := by
  rw [log, entriesOf_append, List.map_append, log, log]

theorem log_cons_self (h : entry.client = i) : log i (entry :: journal) = entry.event :: log i journal := by
  simp [log, entriesOf, h]

theorem log_cons_of_ne (h : entry.client ≠ i) : log i (entry :: journal) = log i journal := by
  simp [log, entriesOf, h]

theorem log_concat_self (env : E) (command : Command) (reply : Reply command)
    : log i (journal ++ [⟨i, env, command, reply⟩]) = log i journal ++ [⟨command, reply⟩] := by
  have hlast : log i [(⟨i, env, command, reply⟩ : Entry ι E Reply)] = [⟨command, reply⟩] := log_cons_self rfl
  rw [log_append, hlast]

theorem log_concat_of_ne (h : entry.client ≠ i) : log i (journal ++ [entry]) = log i journal := by
  rw [log_append, log_cons_of_ne h, log_nil, List.append_nil]

theorem event_mem_log (h : entry ∈ journal) : entry.event ∈ log entry.client journal := by
  apply List.mem_map_of_mem
  simp [entriesOf, h]

/--
The first thing that a client has seen splits the journal.
-/
theorem exists_of_log_eq_cons {event : Program.Event Reply} {rest : List (Program.Event Reply)}
    (h : log i journal = event :: rest)
    : ∃ before env after, journal = before ++ ⟨i, env, event.1, event.2⟩ :: after ∧ log i before = []
      ∧ log i after = rest := by
  obtain ⟨⟨client, env, command, reply⟩, entries, hentries, rfl, hrest⟩ := List.map_eq_cons_iff.mp h
  obtain ⟨before, after, rfl, hbefore, hclient, hafter⟩ := List.filter_eq_cons_iff.mp hentries
  obtain rfl : client = i := by simpa using hclient
  have hnone : entriesOf client before = [] := List.filter_eq_nil_iff.mpr hbefore
  refine ⟨before, env, after, rfl, ?_, ?_⟩
  . rw [log, hnone, List.map_nil]
  . rw [log, entriesOf, hafter]
    exact hrest

/--
What a client has seen is in the journal.
-/
theorem exists_of_mem_log {event : Program.Event Reply} (h : event ∈ log i journal)
    : ∃ before env after, journal = before ++ ⟨i, env, event.1, event.2⟩ :: after := by
  obtain ⟨⟨client, env, command, reply⟩, hmem, rfl⟩ := List.mem_map.mp h
  obtain ⟨hmem, hclient⟩ := List.mem_filter.mp hmem
  obtain ⟨before, after, rfl⟩ := List.append_of_mem hmem
  obtain rfl : client = i := by simpa using hclient
  exact ⟨before, env, after, rfl⟩

theorem log_of_eq (h : journal = before ++ entry :: after)
    : log entry.client journal = log entry.client before ++ entry.event :: log entry.client after := by
  rw [h, log_append, log_cons_self rfl]

end Entries

omit [DecidableEq ι] in
-- an entry, and others after it
theorem cons_sublist_split {entries after : List (Entry ι E Reply)} (h : List.Sublist entries after)
    (before : List (Entry ι E Reply)) (entry : Entry ι E Reply)
    : List.Sublist (entry :: entries) (before ++ entry :: after) :=
  (h.cons_cons entry).trans (List.sublist_append_right before (entry :: after))

section Since

/-
What has come up and has not ended since.
-/
variable {ε : Type} (opens ends : ε → Prop)

/--
Something that opens is in the history, and nothing after it ends.
-/
def Since (history : List ε) : Prop :=
  ∃ before opened after, history = before ++ opened :: after ∧ opens opened ∧ ∀ other ∈ after, ¬ends other

variable {opens ends} {history : List ε} {last : ε}

omit [DecidableEq ι] in
-- a split of a history with a last entry
theorem eq_or_exists_of_concat_eq {before after : List ε} {other : ε}
    (h : history ++ [last] = before ++ other :: after)
    : (history = before ∧ last = other ∧ after = [])
        ∨ ∃ init, after = init ++ [last] ∧ history = before ++ other :: init := by
  rcases List.eq_nil_or_concat after with rfl | ⟨init, final, rfl⟩
  . obtain ⟨hhistory, hlast⟩ := List.append_inj' h rfl
    exact .inl ⟨hhistory, by simpa using hlast, rfl⟩
  . rw [List.concat_eq_append, ← List.cons_append, ← List.append_assoc] at h
    obtain ⟨hhistory, hlast⟩ := List.append_inj' h rfl
    obtain rfl : last = final := by simpa using hlast
    exact .inr ⟨init, List.concat_eq_append, hhistory⟩

theorem not_since_nil : ¬Since opens ends [] := by
  rintro ⟨before, opened, after, hnil, _⟩
  exact absurd hnil.symm (by simp)

-- without an end
theorem since_false_iff : Since opens (fun _ => False) history ↔ ∃ opened ∈ history, opens opened := by
  constructor
  . rintro ⟨before, opened, after, rfl, hopens, _⟩
    exact ⟨opened, by simp, hopens⟩
  . rintro ⟨opened, hmem, hopens⟩
    obtain ⟨before, after, rfl⟩ := List.append_of_mem hmem
    exact ⟨before, opened, after, rfl, hopens, fun _ _ => id⟩

theorem since_concat : Since opens ends (history ++ [last]) ↔ opens last ∨ Since opens ends history ∧ ¬ends last := by
  constructor
  . rintro ⟨before, opened, after, heq, hopens, hends⟩
    rcases eq_or_exists_of_concat_eq heq with ⟨_, rfl, _⟩ | ⟨init, rfl, hhistory⟩
    . exact .inl hopens
    . refine .inr ⟨⟨before, opened, init, hhistory, hopens, ?_⟩, hends last (by simp)⟩
      exact fun other hother => hends other (by simp [hother])
  . rintro (hopens | ⟨⟨before, opened, after, rfl, hopens, hends⟩, hlast⟩)
    . exact ⟨history, last, [], rfl, hopens, by simp⟩
    . refine ⟨before, opened, after ++ [last], by simp, hopens, ?_⟩
      intro other hother
      rcases List.mem_append.mp hother with hafter | hsingle
      . exact hends other hafter
      . rw [List.mem_singleton.mp hsingle]
        exact hlast

omit [DecidableEq ι] in
/--
What is there after more has happened was there before and has lasted, or is new.
-/
theorem Since.of_append {more : List ε} (h : Since opens ends (history ++ more))
    : Since opens ends history ∧ (∀ other ∈ more, ¬ends other) ∨ ∃ opened ∈ more, opens opened := by
  obtain ⟨before, opened, after, heq, hopens, hends⟩ := h
  rcases List.append_eq_append_iff.mp heq with ⟨rest, _, hmore⟩ | ⟨rest, hhistory, hafter⟩
  . exact .inr ⟨opened, by simp [hmore], hopens⟩
  . cases rest with
    | nil => exact .inr ⟨opened, by simp [← List.nil_append more ▸ hafter], hopens⟩
    | cons first rest =>
      obtain ⟨rfl, rfl⟩ := List.cons.inj hafter
      refine .inl ⟨⟨before, opened, rest, hhistory, hopens, ?_⟩, ?_⟩
      . exact fun other hother => hends other (List.mem_append_left _ hother)
      . exact fun other hother => hends other (List.mem_append_right _ hother)

end Since

section Replay

variable {answer} {shared : σ} {journal before after : List (Entry ι E Reply)} {entry : Entry ι E Reply}

omit [DecidableEq ι]

@[simp]
theorem replay_nil : replay answer shared ([] : List (Entry ι E Reply)) = shared := rfl

theorem replay_append (first second : List (Entry ι E Reply))
    : replay answer shared (first ++ second) = replay answer (replay answer shared first) second :=
  List.foldl_append ..

theorem replay_concat
    : replay answer shared (journal ++ [entry])
        = (answer entry.env entry.command (replay answer shared journal)).2 := by
  rw [replay_append]
  rfl

theorem Answered.of_append (h : Answered answer shared (before ++ after)) : Answered answer shared before := by
  intro first entry rest hbefore
  apply h first entry (rest ++ after)
  rw [hbefore, List.append_assoc, List.cons_append]

theorem Answered.concat (h : Answered answer shared journal)
    (hreply : entry.reply = (answer entry.env entry.command (replay answer shared journal)).1)
    : Answered answer shared (journal ++ [entry]) := by
  intro before other after heq
  rcases eq_or_exists_of_concat_eq heq with ⟨rfl, rfl, _⟩ | ⟨init, _, hjournal⟩
  . exact hreply
  . exact h before other init hjournal

/--
What holds of the empty journal and is kept by every command holds.
-/
theorem Answered.induction {motive : List (Entry ι E Reply) → Prop} (h : Answered answer shared journal)
    (nil : motive [])
    (concat : ∀ journal client env command, Answered answer shared journal → motive journal →
      motive (journal ++ [⟨client, env, command, (answer env command (replay answer shared journal)).1⟩]))
    : motive journal := by
  induction journal using List.reverseRecOn with
  | nil => exact nil
  | append_singleton journal entry ih =>
    obtain ⟨client, env, command, reply⟩ := entry
    have hreply : reply = _ := h journal ⟨client, env, command, reply⟩ [] rfl
    rw [hreply]
    exact concat journal client env command h.of_append (ih h.of_append)

/--
What is true of the state from the commands that open it on, until a command that ends it.
-/
theorem Answered.since_iff (holds : σ → Prop) {opens ends : Entry ι E Reply → Prop}
    (h : Answered answer shared journal) (hstart : ¬holds shared)
    (hstep : ∀ s client env command, holds (answer env command s).2
      ↔ opens ⟨client, env, command, (answer env command s).1⟩
        ∨ holds s ∧ ¬ends ⟨client, env, command, (answer env command s).1⟩)
    : holds (replay answer shared journal) ↔ Since opens ends journal := by
  apply h.induction (motive := fun journal => holds (replay answer shared journal) ↔ Since opens ends journal)
  . exact iff_of_false hstart not_since_nil
  . intro journal client env command _ ih
    rw [replay_concat, since_concat, ← ih]
    exact hstep _ client env command

/--
The same of what may end by itself.
-/
theorem Answered.since (holds : σ → Prop) {opens ends : Entry ι E Reply → Prop}
    (h : Answered answer shared journal) (hstart : ¬holds shared)
    (hstep : ∀ s client env command, holds (answer env command s).2 →
      opens ⟨client, env, command, (answer env command s).1⟩
        ∨ holds s ∧ ¬ends ⟨client, env, command, (answer env command s).1⟩)
    : holds (replay answer shared journal) → Since opens ends journal := by
  apply h.induction (motive := fun journal => holds (replay answer shared journal) → Since opens ends journal)
  . exact fun hholds => absurd hholds hstart
  . intro journal client env command _ ih hholds
    rw [replay_concat] at hholds
    exact since_concat.mpr ((hstep _ client env command hholds).imp_right fun h => ⟨ih h.1, h.2⟩)

end Replay

section Run

variable {answer} {shared : σ} {programs : ι → Program Reply α} {system : System σ ι E Reply α}

theorem step_of_done {turn : ι × E} {result : α} (h : system.programs turn.1 = .done result)
    : step answer system turn = system := by
  unfold step
  rw [h]

theorem step_of_ask {turn : ι × E} {command : Command} {next : Reply command → Program Reply α}
    (h : system.programs turn.1 = .ask command next)
    : step answer system turn = {
        shared := (answer turn.2 command system.shared).2
        programs := Function.update system.programs turn.1 (next (answer turn.2 command system.shared).1)
        journal := system.journal ++ [⟨turn.1, turn.2, command, (answer turn.2 command system.shared).1⟩]
      } := by
  unfold step
  rw [h]

theorem Accounts.step (h : Accounts answer shared programs system) (turn : ι × E)
    : Accounts answer shared programs (step answer system turn) := by
  cases hprogram : system.programs turn.1 with
  | done result =>
    rw [step_of_done hprogram]
    exact h
  | ask command next =>
    rw [step_of_ask hprogram]
    refine ⟨?_, ?_, ?_⟩
    . apply h.answered.concat
      rw [h.shared]
    . rw [replay_concat, h.shared]
    . intro i
      dsimp only
      have hfollows := h.follows i
      by_cases hi : turn.1 = i
      . subst hi
        rw [hprogram] at hfollows
        rw [log_concat_self, Function.update_self]
        exact hfollows.concat _
      . rw [log_concat_of_ne hi, Function.update_of_ne (Ne.symm hi)]
        exact hfollows

theorem accounts_run (shared : σ) (programs : ι → Program Reply α) (turns : List (ι × E))
    : Accounts answer shared programs (run answer (start shared programs) turns) := by
  have hstart : Accounts answer shared programs (start shared programs : System σ ι E Reply α) := by
    refine ⟨?_, rfl, fun i => .nil _⟩
    intro before entry after hnil
    exact absurd (List.append_eq_nil_iff.mp hnil.symm).2 (List.cons_ne_nil _ _)
  have hrun : ∀ (turns : List (ι × E)) (system : System σ ι E Reply α),
      Accounts answer shared programs system → Accounts answer shared programs (run answer system turns) := by
    intro turns
    induction turns with
    | nil => exact fun _ h => h
    | cons turn turns ih => exact fun system h => ih _ (h.step turn)
  exact hrun turns _ hstart

variable {asking : List (Program.Event Reply) → Command → Prop} {ending : α → List (Program.Event Reply) → Prop}
  {before after : List (Entry ι E Reply)} {entry : Entry ι E Reply}

/--
A command is as the program of its client says, after what the client has seen by then.
-/
theorem Accounts.asks (h : Accounts answer shared programs system)
    (htracks : (programs entry.client).Tracks asking (fun _ _ _ => True) Program.record ending [])
    (hjournal : system.journal = before ++ entry :: after) : asking (log entry.client before) entry.command := by
  have hfollows := h.follows entry.client
  rw [log_of_eq hjournal] at hfollows
  exact htracks.asks_of_follows hfollows

theorem Accounts.post {i : ι} {result : α} (h : Accounts answer shared programs system)
    (htracks : (programs i).Tracks asking (fun _ _ _ => True) Program.record ending [])
    (hdone : system.programs i = .done result) : ending result (log i system.journal) := by
  have hrest := htracks.follows (h.follows i)
  rw [hdone] at hrest
  exact hrest

end Run

end Journal
