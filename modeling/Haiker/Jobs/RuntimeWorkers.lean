import Haiker.Jobs.Runtime

/-!
This module contains that on the queue the worker runtime is as good as workers that have one round each, how many
jobs it has in flight, and what is left of them when it has shut down.
-/

open Interleaving

namespace JobQueue

variable {s s' : State} {r r' : WorkerRuntime} {workers : Nat → Client}

/-
The jobs in flight, and the workers that they are.
-/

/--
A worker for each poll that has handed out a job: in flight, lost, or done with its report.
-/
structure Shows (workers : Nat → Client) (r : WorkerRuntime) : Prop where
  inFlight : ∀ number worker, (number, worker) ∈ r.inFlight → workers number = .worker worker
    ∧ number < r.polls ∧ worker.rounds = [] ∧ worker.holding.isSome
  nodup : (r.inFlight.map Prod.fst).Nodup
  ended : ∀ number < r.polls, number ∈ r.inFlight.map Prod.fst ∨ number ∈ r.lost
    ∨ workers number = .worker ⟨[], .idle⟩

theorem Shows.number_ne (h : Shows workers r) {number : Nat} {worker : Worker} (hmem : (number, worker) ∈ r.inFlight)
    : number ≠ r.polls := (h.inFlight number worker hmem).2.1.ne

-- the poll that is next has got its worker
theorem Shows.spawns (h : Shows workers r) {worker : Worker} (hrounds : worker.rounds = [])
    (hheld : worker.holding.isSome) (hinFlight : r'.inFlight = r.inFlight ++ [(r.polls, worker)])
    (hpolls : r'.polls = r.polls + 1) (hlost : r'.lost = r.lost)
    : Shows (Function.update workers r.polls (.worker worker)) r' where
  inFlight number other hmem := by
    rw [hinFlight, List.mem_append, List.mem_singleton] at hmem
    rw [hpolls]
    rcases hmem with hmem | hmem
    . obtain ⟨hworker, hlt, hrest⟩ := h.inFlight number other hmem
      rw [Function.update_of_ne hlt.ne]
      exact ⟨hworker, Nat.lt_succ_of_lt hlt, hrest⟩
    . obtain ⟨rfl, rfl⟩ := Prod.mk.inj hmem
      rw [Function.update_self]
      exact ⟨rfl, Nat.lt_succ_self _, hrounds, hheld⟩
  nodup := by
    rw [hinFlight, List.map_append, List.map_singleton, List.nodup_append_comm, List.singleton_append,
      List.nodup_cons]
    refine ⟨?_, h.nodup⟩
    intro hmem
    obtain ⟨⟨number, other⟩, hmem, hnumber⟩ := List.mem_map.mp hmem
    exact h.number_ne hmem hnumber
  ended number hlt := by
    rw [hpolls] at hlt
    rw [hinFlight, hlost, List.map_append, List.mem_append, List.map_singleton, List.mem_singleton]
    rcases Nat.lt_succ_iff_lt_or_eq.mp hlt with hlt | rfl
    . rw [Function.update_of_ne hlt.ne]
      rcases h.ended number hlt with hmem | hmem | hdone
      . exact .inl (.inl hmem)
      . exact .inr (.inl hmem)
      . exact .inr (.inr hdone)
    . exact .inl (.inr rfl)

theorem Shows.misses (h : Shows workers r) (client : Client) (hinFlight : r'.inFlight = r.inFlight)
    (hpolls : r'.polls = r.polls + 1) (hlost : r'.lost = r.polls :: r.lost)
    : Shows (Function.update workers r.polls client) r' where
  inFlight number other hmem := by
    rw [hinFlight] at hmem
    obtain ⟨hworker, hlt, hrest⟩ := h.inFlight number other hmem
    rw [hpolls, Function.update_of_ne hlt.ne]
    exact ⟨hworker, Nat.lt_succ_of_lt hlt, hrest⟩
  nodup := by
    rw [hinFlight]
    exact h.nodup
  ended number hlt := by
    rw [hpolls] at hlt
    rw [hinFlight, hlost, List.mem_cons]
    rcases Nat.lt_succ_iff_lt_or_eq.mp hlt with hlt | rfl
    . rw [Function.update_of_ne hlt.ne]
      rcases h.ended number hlt with hmem | hmem | hdone
      . exact .inl hmem
      . exact .inr (.inl (.inr hmem))
      . exact .inr (.inr hdone)
    . exact .inr (.inl (.inl rfl))

section Split

theorem mem_split {α : Type} {before after : List α} {a b : α}
    : b ∈ before ++ a :: after ↔ b = a ∨ b ∈ before ++ after := by
  rw [List.mem_append, List.mem_cons, List.mem_append]
  exact or_left_comm

variable {before after : List (Nat × Worker)} {number : Nat} {worker worker' : Worker}

theorem Shows.nodup_of_split (h : Shows workers r) (hbefore : r.inFlight = before ++ (number, worker) :: after)
    : number ∉ (before ++ after).map Prod.fst ∧ ((before ++ after).map Prod.fst).Nodup := by
  have hnodup := h.nodup
  rw [hbefore, List.map_append, List.map_cons, List.nodup_middle, List.nodup_cons, ← List.map_append] at hnodup
  exact hnodup

-- nobody else in flight has the number
theorem Shows.number_ne_of_split (h : Shows workers r) (hbefore : r.inFlight = before ++ (number, worker) :: after)
    {entry : Nat × Worker} (hmem : entry ∈ before ++ after) : entry ∈ r.inFlight ∧ entry.1 ≠ number := by
  constructor
  . rw [hbefore, mem_split]
    exact .inr hmem
  . rintro rfl
    exact (h.nodup_of_split hbefore).1 (List.mem_map.mpr ⟨entry, hmem, rfl⟩)

theorem Shows.reports (h : Shows workers r) (hbefore : r.inFlight = before ++ (number, worker) :: after)
    (hrounds : worker'.rounds = []) (hheld : worker'.holding.isSome)
    (hinFlight : r'.inFlight = before ++ (number, worker') :: after) (hpolls : r'.polls = r.polls)
    (hlost : r'.lost = r.lost) : Shows (Function.update workers number (.worker worker')) r' := by
  have hnumbers : r'.inFlight.map Prod.fst = r.inFlight.map Prod.fst := by
    rw [hinFlight, hbefore]
    simp only [List.map_append, List.map_cons]
  have hnumber : (number, worker) ∈ r.inFlight := by
    rw [hbefore]
    exact List.mem_append_right _ List.mem_cons_self
  constructor
  . intro other worker'' hmem
    rw [hpolls]
    rw [hinFlight, mem_split] at hmem
    rcases hmem with hmem | hmem
    . obtain ⟨rfl, rfl⟩ := Prod.mk.inj hmem
      rw [Function.update_self]
      exact ⟨rfl, (h.inFlight _ _ hnumber).2.1, hrounds, hheld⟩
    . obtain ⟨hmem, hne⟩ := h.number_ne_of_split hbefore hmem
      rw [Function.update_of_ne hne]
      exact h.inFlight other worker'' hmem
  . rw [hnumbers]
    exact h.nodup
  . intro other hlt
    rw [hpolls] at hlt
    rw [hnumbers, hlost]
    by_cases hother : other = number
    . rw [hother]
      exact .inl (List.mem_map_of_mem hnumber)
    . rw [Function.update_of_ne hother]
      exact h.ended other hlt

theorem Shows.finishes (h : Shows workers r) (hbefore : r.inFlight = before ++ (number, worker) :: after)
    (hinFlight : r'.inFlight = before ++ after) (hpolls : r'.polls = r.polls) (hlost : r'.lost = r.lost)
    : Shows (Function.update workers number (.worker ⟨[], .idle⟩)) r' := by
  constructor
  . intro other worker' hmem
    rw [hinFlight] at hmem
    obtain ⟨hmem, hne⟩ := h.number_ne_of_split hbefore hmem
    rw [hpolls, Function.update_of_ne hne]
    exact h.inFlight other worker' hmem
  . rw [hinFlight]
    exact (h.nodup_of_split hbefore).2
  . intro other hlt
    rw [hpolls] at hlt
    rw [hinFlight, hlost]
    by_cases hother : other = number
    . rw [hother, Function.update_self]
      exact .inr (.inr rfl)
    . rw [Function.update_of_ne hother]
      have hended := h.ended other hlt
      rw [hbefore, List.map_append, List.map_cons, mem_split, ← List.map_append] at hended
      rcases hended with (hmem | hmem) | hrest
      . exact absurd hmem hother
      . exact .inl hmem
      . exact .inr hrest

theorem Shows.loses (h : Shows workers r) (hbefore : r.inFlight = before ++ (number, worker) :: after)
    (hinFlight : r'.inFlight = before ++ after) (hpolls : r'.polls = r.polls) (hlost : r'.lost = number :: r.lost)
    : Shows workers r' := by
  constructor
  . intro other worker' hmem
    rw [hinFlight] at hmem
    rw [hpolls]
    exact h.inFlight other worker' (h.number_ne_of_split hbefore hmem).1
  . rw [hinFlight]
    exact (h.nodup_of_split hbefore).2
  . intro other hlt
    rw [hpolls] at hlt
    rw [hinFlight, hlost, List.mem_cons]
    have hended := h.ended other hlt
    rw [hbefore, List.map_append, List.map_cons, mem_split, ← List.map_append] at hended
    rcases hended with (hmem | hmem) | hmem | hdone
    . exact .inr (.inl (.inl hmem))
    . exact .inl hmem
    . exact .inr (.inl (.inr hmem))
    . exact .inr (.inr hdone)

end Split

/-
The workers of a run.
-/

section Simulation

variable {ι : Type} [DecidableEq ι]

/--
A worker with one round for each poll of a runtime, and whoever else is at work.
-/
def workersOf (c : Config State Process ι) (rounds : ι × Nat → Round) : Config State Client (ι × Nat) where
  shared := c.shared
  clients p :=
    match c.clients p.1 with
    | .runtime _ => .worker ⟨[rounds p], .idle⟩
    | .other client => client

structure Simulates (c : Config State Process ι) (c' : Config State Client (ι × Nat)) : Prop where
  shared : c'.shared = c.shared
  runtime : ∀ i r, c.clients i = .runtime r → Shows (fun number => c'.clients (i, number)) r
  other : ∀ i client, c.clients i = .other client → c'.clients (i, 0) = client

variable {c : Config State Process ι} {c' : Config State Client (ι × Nat)} {i : ι}

theorem rounds_step {w : Worker} (h : w.rounds = []) (s : State) : (w.step s).2.rounds = [] := by
  obtain ⟨rounds, phase⟩ := w
  obtain rfl : rounds = [] := h
  unfold Worker.step
  cases phase with
  | idle => rfl
  | running attempt result =>
    cases result with
    | ok _ => rfl
    | error errorMessage =>
      simp only
      cases retryState attempt.jobId s.jobs with
      | none => rfl
      | some counts => rfl
  | failing => rfl

theorem eq_idle_of_holding {w : Worker} (hrounds : w.rounds = []) (hended : w.holding = none)
    : w = ⟨[], .idle⟩ := by
  obtain ⟨rounds, phase⟩ := w
  obtain rfl : rounds = [] := hrounds
  cases phase with
  | idle => rfl
  | running | failing => cases hended

-- one runtime and its worker have moved
theorem Simulates.of_fire (h : Simulates c c') {r r' : WorkerRuntime} (hr : c.clients i = .runtime r)
    {number : Nat} (hmove : (c.clients i).step c.shared = ((fire Client.step c' (i, number)).shared, .runtime r'))
    (hshows : Shows (Function.update (fun number => c'.clients (i, number)) number
      ((fire Client.step c' (i, number)).clients (i, number))) r')
    : Simulates (fire Process.step c i) (fire Client.step c' (i, number)) := by
  have hshared : (fire Process.step c i).shared = (fire Client.step c' (i, number)).shared :=
    congrArg Prod.fst hmove
  have hself : (fire Process.step c i).clients i = .runtime r' := by
    rw [fire_clients_self]
    exact congrArg Prod.snd hmove
  constructor
  . exact hshared.symm
  . intro j r'' hj
    by_cases hij : j = i
    . subst hij
      rw [hself] at hj
      obtain rfl := Process.runtime.inj hj
      have hclients : (fun n => (fire Client.step c' (j, number)).clients (j, n))
          = Function.update (fun n => c'.clients (j, n)) number
            ((fire Client.step c' (j, number)).clients (j, number)) := by
        funext n
        by_cases hn : n = number
        . rw [hn, Function.update_self]
        . rw [Function.update_of_ne hn, fire_clients_ne Client.step c' (by simp [hn])]
      rw [hclients]
      exact hshows
    . rw [fire_clients_ne Process.step c hij] at hj
      have hclients : (fun n => (fire Client.step c' (i, number)).clients (j, n)) = fun n => c'.clients (j, n) := by
        funext n
        rw [fire_clients_ne Client.step c' (by simp [hij])]
      rw [hclients]
      exact h.runtime j r'' hj
  . intro j client hj
    have hij : j ≠ i := by
      rintro rfl
      rw [hself] at hj
      cases hj
    rw [fire_clients_ne Process.step c hij] at hj
    rw [fire_clients_ne Client.step c' (by simp [hij])]
    exact h.other j client hj

-- a runtime has moved without a statement
theorem Simulates.of_still (h : Simulates c c') {r r' : WorkerRuntime} (hr : c.clients i = .runtime r)
    (hmove : (c.clients i).step c.shared = (c.shared, .runtime r'))
    (hshows : Shows (fun number => c'.clients (i, number)) r') : Simulates (fire Process.step c i) c' := by
  have hshared : (fire Process.step c i).shared = c.shared := congrArg Prod.fst hmove
  have hself : (fire Process.step c i).clients i = .runtime r' := by
    rw [fire_clients_self]
    exact congrArg Prod.snd hmove
  constructor
  . rw [hshared]
    exact h.shared
  . intro j r'' hj
    by_cases hij : j = i
    . subst hij
      rw [hself] at hj
      obtain rfl := Process.runtime.inj hj
      exact hshows
    . rw [fire_clients_ne Process.step c hij] at hj
      exact h.runtime j r'' hj
  . intro j client hj
    have hij : j ≠ i := by
      rintro rfl
      rw [hself] at hj
      cases hj
    rw [fire_clients_ne Process.step c hij] at hj
    exact h.other j client hj

theorem Simulates.of_other (h : Simulates c c') {client : Client} (hclient : c.clients i = .other client)
    : Simulates (fire Process.step c i) (fire Client.step c' (i, 0)) := by
  have hsame := h.other i client hclient
  have hself : (fire Process.step c i).clients i = .other (client.step c.shared).2 := by
    rw [fire_clients_self, hclient]
    rfl
  constructor
  . unfold fire
    rw [hsame, hclient, h.shared]
    rfl
  . intro j r hj
    have hij : j ≠ i := by
      rintro rfl
      rw [hself] at hj
      cases hj
    rw [fire_clients_ne Process.step c hij] at hj
    have hclients : (fun n => (fire Client.step c' (i, 0)).clients (j, n)) = fun n => c'.clients (j, n) := by
      funext n
      rw [fire_clients_ne Client.step c' (by simp [hij])]
    rw [hclients]
    exact h.runtime j r hj
  . intro j other hj
    by_cases hij : j = i
    . subst hij
      rw [hself] at hj
      rw [fire_clients_self, hsame, h.shared]
      exact Process.other.inj hj
    . rw [fire_clients_ne Process.step c hij] at hj
      rw [fire_clients_ne Client.step c' (by simp [hij])]
      exact h.other j other hj

theorem Shows.congr (h : Shows workers r) {workers' : Nat → Client}
    (hsame : ∀ number < r.polls, workers' number = workers number) : Shows workers' r where
  inFlight number worker hmem := by
    rw [hsame number (h.inFlight number worker hmem).2.1]
    exact h.inFlight number worker hmem
  nodup := h.nodup
  ended number hlt := by
    rw [hsame number hlt]
    exact h.ended number hlt

-- a worker that has not been needed yet may have any round
theorem Simulates.prepare (h : Simulates c c') {r : WorkerRuntime} (hr : c.clients i = .runtime r) (client : Client)
    : Simulates c { c' with clients := Function.update c'.clients (i, r.polls) client } where
  shared := h.shared
  runtime j r' hj := by
    by_cases hij : j = i
    . subst hij
      rw [hr] at hj
      obtain rfl := Process.runtime.inj hj
      exact (h.runtime j r hr).congr fun number hlt => Function.update_of_ne (by simp [hlt.ne]) ..
    . exact (h.runtime j r' hj).congr fun number _ => Function.update_of_ne (by simp [hij]) ..
  other j other hj := by
    have hij : j ≠ i := by
      rintro rfl
      rw [hr] at hj
      cases hj
    exact (Function.update_of_ne (by simp [hij]) ..).trans (h.other j other hj)

theorem workersOf_update (c : Config State Process ι) (rounds : ι × Nat → Round) {r : WorkerRuntime}
    (hr : c.clients i = .runtime r) (number : Nat) (round : Round)
    : workersOf c (Function.update rounds (i, number) round) = { workersOf c rounds with
        clients := Function.update (workersOf c rounds).clients (i, number) (.worker ⟨[round], .idle⟩) } := by
  have hclients : (workersOf c (Function.update rounds (i, number) round)).clients
      = Function.update (workersOf c rounds).clients (i, number) (.worker ⟨[round], .idle⟩) := by
    funext p
    by_cases hp : p = (i, number)
    . subst hp
      rw [Function.update_self]
      simp only [workersOf, hr, Function.update_self]
    . rw [Function.update_of_ne hp]
      simp only [workersOf, Function.update_of_ne hp]
  unfold workersOf at *
  simp only at *
  rw [hclients]

/--
Nothing has been asked of the workers of the polls to come.
-/
def Untouched (c : Config State Process ι) (schedule : List (ι × Nat)) : Prop :=
  ∀ i r, c.clients i = .runtime r → ∀ number ≥ r.polls, (i, number) ∉ schedule

theorem Untouched.fire {schedule : List (ι × Nat)} (h : Untouched c schedule) {client : Process}
    (hself : (Interleaving.fire Process.step c i).clients i = client)
    (hnew : ∀ r, client = .runtime r → ∀ number ≥ r.polls, (i, number) ∉ schedule)
    : Untouched (Interleaving.fire Process.step c i) schedule := by
  intro j r hj number hnumber
  by_cases hij : j = i
  . subst hij
    rw [hself] at hj
    exact hnew r hj number hnumber
  . rw [fire_clients_ne Process.step c hij] at hj
    exact h j r hj number hnumber

omit [DecidableEq ι] in
theorem not_mem_concat {schedule : List (ι × Nat)} {p q : ι × Nat} (h : p ∉ schedule) (hne : p ≠ q)
    : p ∉ schedule ++ [q] := by
  rw [List.mem_append, List.mem_singleton, not_or]
  exact ⟨h, hne⟩

theorem Untouched.concat {schedule : List (ι × Nat)} (h : Untouched c schedule) {client : Process} {number : Nat}
    (hself : (Interleaving.fire Process.step c i).clients i = client)
    (hnew : ∀ r, client = .runtime r → number < r.polls ∧ ∀ other ≥ r.polls, (i, other) ∉ schedule)
    : Untouched (Interleaving.fire Process.step c i) (schedule ++ [(i, number)]) := by
  intro j r hj other hother
  by_cases hij : j = i
  . subst hij
    rw [hself] at hj
    obtain ⟨hlt, hfresh⟩ := hnew r hj
    apply not_mem_concat (hfresh other hother)
    intro hsame
    have := congrArg Prod.snd hsame
    simp only at this
    omega
  . rw [fire_clients_ne Process.step c hij] at hj
    apply not_mem_concat (h j r hj other hother)
    intro hsame
    exact hij (congrArg Prod.fst hsame)

/--
A run, and one of workers that shows it.
-/
def Shown (c₀ c : Config State Process ι) : Prop :=
  ∃ rounds schedule, Simulates c (run Client.step (workersOf c₀ rounds) schedule) ∧ Untouched c schedule
    ∧ ∀ i r, c.clients i = .runtime r → ∃ r₀, c₀.clients i = .runtime r₀

theorem runtime_of_fire {c₀ : Config State Process ι} {r : WorkerRuntime} (hr : c.clients i = .runtime r)
    (hkinds : ∀ i r, c.clients i = .runtime r → ∃ r₀, c₀.clients i = .runtime r₀)
    : ∀ j r, (fire Process.step c i).clients j = .runtime r → ∃ r₀, c₀.clients j = .runtime r₀ := by
  intro j r'' hj
  by_cases hij : j = i
  . rw [hij]
    exact hkinds i r hr
  . rw [fire_clients_ne Process.step c hij] at hj
    exact hkinds j r'' hj

theorem fire_of_worker {p : ι × Nat} {worker worker' : Worker} {s' : State} (hworker : c'.clients p = .worker worker)
    (hstep : worker.step c'.shared = (s', worker'))
    : (fire Client.step c' p).shared = s' ∧ (fire Client.step c' p).clients p = .worker worker' := by
  constructor
  . unfold fire
    rw [hworker]
    exact congrArg Prod.fst hstep
  . rw [fire_clients_self, hworker]
    exact congrArg (fun out => Client.worker out.2) hstep

-- the worker of a job in flight makes the statement
theorem Shown.of_worker {c₀ : Config State Process ι} {rounds : ι × Nat → Round} {schedule : List (ι × Nat)}
    (hsimulates : Simulates c (run Client.step (workersOf c₀ rounds) schedule)) (huntouched : Untouched c schedule)
    (hkinds : ∀ i r, c.clients i = .runtime r → ∃ r₀, c₀.clients i = .runtime r₀) {r r' : WorkerRuntime} {s' : State}
    (hr : c.clients i = .runtime r) (hmove : (c.clients i).step c.shared = (s', .runtime r')) {number : Nat}
    {worker worker' : Worker}
    (hworker : (run Client.step (workersOf c₀ rounds) schedule).clients (i, number) = .worker worker)
    (hstep : worker.step c.shared = (s', worker'))
    (hshows : Shows (Function.update
      (fun number => (run Client.step (workersOf c₀ rounds) schedule).clients (i, number)) number
        (.worker worker')) r')
    (hlt : number < r'.polls) (hpolls : r.polls ≤ r'.polls) : Shown c₀ (fire Process.step c i) := by
  have hself : (fire Process.step c i).clients i = .runtime r' := by
    rw [fire_clients_self, hmove]
  rw [← hsimulates.shared] at hstep
  obtain ⟨hshared, hclient⟩ := fire_of_worker hworker hstep
  refine ⟨rounds, schedule ++ [(i, number)], ?_, huntouched.concat hself ?_, runtime_of_fire hr hkinds⟩
  . rw [run_append, run_cons, run_nil]
    apply hsimulates.of_fire hr
    . rw [hmove, hshared]
    . rw [hclient]
      exact hshows
  . intro r'' hr''
    obtain rfl := Process.runtime.inj hr''
    exact ⟨hlt, fun other hother => huntouched i r hr other (hpolls.trans hother)⟩

theorem Shown.fire_runtime {c₀ : Config State Process ι} (h : Shown c₀ c) {r : WorkerRuntime}
    (hr : c.clients i = .runtime r) : Shown c₀ (fire Process.step c i) := by
  obtain ⟨rounds, schedule, hsimulates, huntouched, hkinds⟩ := h
  obtain ⟨r₀, hr₀⟩ := hkinds i r hr
  have hshows := hsimulates.runtime i r hr
  have hfresh := huntouched i r hr
  have hadvances := advances_step c.shared r
  have hmove : (c.clients i).step c.shared = ((r.step c.shared).1, .runtime (r.step c.shared).2) := by
    rw [hr]
    rfl
  have hself : (fire Process.step c i).clients i = .runtime (r.step c.shared).2 := by
    rw [fire_clients_self, hmove]
  have hkinds' := runtime_of_fire hr hkinds
  generalize hout : r.step c.shared = out at hadvances hmove hself
  obtain ⟨s', r'⟩ := out
  simp only at hadvances hmove hself
  cases hadvances with
  | keeps hinFlight hpolls hlost =>
    refine ⟨rounds, schedule, hsimulates.of_still hr hmove ?_, huntouched.fire hself ?_, hkinds'⟩
    . exact ⟨by rw [hinFlight, hpolls]; exact hshows.inFlight, by rw [hinFlight]; exact hshows.nodup,
        by rw [hinFlight, hpolls, hlost]; exact hshows.ended⟩
    . intro r'' hr'' number hnumber
      obtain rfl := Process.runtime.inj hr''
      exact hfresh number (hpolls ▸ hnumber)
  | loses before after number worker hbefore hinFlight hpolls hlost =>
    refine ⟨rounds, schedule, hsimulates.of_still hr hmove ?_, huntouched.fire hself ?_, hkinds'⟩
    . exact hshows.loses hbefore hinFlight hpolls hlost
    . intro r'' hr'' number hnumber
      obtain rfl := Process.runtime.inj hr''
      exact hfresh number (hpolls ▸ hnumber)
  | reports before after number worker worker' hbefore hstep hheld hinFlight hpolls hlost =>
    obtain ⟨hworker, hlt, hrounds, _⟩ := hshows.inFlight number worker (hbefore ▸ mem_split.mpr (.inl rfl))
    have hrounds' := rounds_step hrounds c.shared
    rw [hstep] at hrounds'
    refine .of_worker hsimulates huntouched hkinds hr hmove hworker hstep ?_ (hpolls ▸ hlt) hpolls.ge
    exact hshows.reports hbefore hrounds' hheld hinFlight hpolls hlost
  | finishes before after number worker worker' hbefore hstep hended hinFlight hpolls hlost =>
    obtain ⟨hworker, hlt, hrounds, _⟩ := hshows.inFlight number worker (hbefore ▸ mem_split.mpr (.inl rfl))
    have hrounds' := rounds_step hrounds c.shared
    rw [hstep] at hrounds'
    obtain rfl := eq_idle_of_holding hrounds' hended
    refine .of_worker hsimulates huntouched hkinds hr hmove hworker hstep ?_ (hpolls ▸ hlt) hpolls.ge
    exact hshows.finishes hbefore hinFlight hpolls hlost
  | spawns round attempt hstep hinFlight hpolls hlost =>
    have hrun := run_update Client.step (c := workersOf c₀ rounds) (hfresh r.polls (Nat.le_refl _))
      (.worker ⟨[round], .idle⟩)
    rw [← workersOf_update c₀ rounds hr₀] at hrun
    have hprepared := hsimulates.prepare hr (.worker ⟨[round], .idle⟩)
    rw [← hrun] at hprepared
    have hworker : (run Client.step (workersOf c₀ (Function.update rounds (i, r.polls) round)) schedule).clients
        (i, r.polls) = .worker ⟨[round], .idle⟩ := by
      rw [hrun]
      exact Function.update_self ..
    refine .of_worker hprepared huntouched hkinds hr hmove hworker hstep ?_ (by omega) (by omega)
    exact (hprepared.runtime i r hr).spawns rfl rfl hinFlight hpolls hlost
  | misses round attempt hstep hinFlight hpolls hlost =>
    have hrun := run_update Client.step (c := workersOf c₀ rounds) (hfresh r.polls (Nat.le_refl _))
      (.worker ⟨[round], .idle⟩)
    rw [← workersOf_update c₀ rounds hr₀] at hrun
    have hprepared := hsimulates.prepare hr (.worker ⟨[round], .idle⟩)
    rw [← hrun] at hprepared
    have hworker : (run Client.step (workersOf c₀ (Function.update rounds (i, r.polls) round)) schedule).clients
        (i, r.polls) = .worker ⟨[round], .idle⟩ := by
      rw [hrun]
      exact Function.update_self ..
    refine .of_worker hprepared huntouched hkinds hr hmove hworker hstep ?_ (by omega) (by omega)
    exact (hprepared.runtime i r hr).misses _ hinFlight hpolls hlost

theorem Shown.fire_other {c₀ : Config State Process ι} (h : Shown c₀ c) {client : Client}
    (hclient : c.clients i = .other client) : Shown c₀ (fire Process.step c i) := by
  obtain ⟨rounds, schedule, hsimulates, huntouched, hkinds⟩ := h
  have hself : (fire Process.step c i).clients i = .other (client.step c.shared).2 := by
    rw [fire_clients_self, hclient]
    rfl
  refine ⟨rounds, schedule ++ [(i, 0)], ?_, huntouched.concat hself ?_, ?_⟩
  . rw [run_append, run_cons, run_nil]
    exact hsimulates.of_other hclient
  . intro r hr
    cases hr
  . intro j r hj
    by_cases hij : j = i
    . subst hij
      rw [hself] at hj
      cases hj
    . rw [fire_clients_ne Process.step c hij] at hj
      exact hkinds j r hj

/--
The processes as they start.
-/
def Starts (c : Config State Process ι) : Prop :=
  ∀ i r, c.clients i = .runtime r → ∃ maxConcurrentJobs jobTypes moves, r = .start maxConcurrentJobs jobTypes moves

theorem Starts.shown (h : Starts c) : Shown c c := by
  refine ⟨fun _ => ⟨[], .ok ()⟩, [], ⟨rfl, ?_, ?_⟩, ?_, fun i r hr => ⟨r, hr⟩⟩
  . intro i r hr
    obtain ⟨maxConcurrentJobs, jobTypes, moves, rfl⟩ := h i r hr
    constructor
    . intro number worker hmem
      cases hmem
    . exact List.nodup_nil
    . intro number hlt
      cases hlt
  . intro i client hclient
    simp only [run_nil, workersOf, hclient]
  . intro i r hr number _ hmem
    cases hmem

theorem Shown.run {c₀ : Config State Process ι} (h : Shown c₀ c) (schedule : List ι)
    : Shown c₀ (Interleaving.run Process.step c schedule) := by
  apply run_induction Process.step _ h
  intro c i hc
  cases hi : c.clients i with
  | runtime r => exact hc.fire_runtime hi
  | other client => exact hc.fire_other hi

theorem runs_of_workers {c : Config State Process ι} (hstart : Starts c) (schedule : List ι)
    : ∃ rounds schedule',
        Simulates (run Process.step c schedule) (run Client.step (workersOf c rounds) schedule') := by
  obtain ⟨rounds, schedule', hsimulates, _⟩ := hstart.shown.run schedule
  exact ⟨rounds, schedule', hsimulates⟩

/--
Whatever the runtimes do, on the queue it is what workers with one round each do. Every job that a runtime has in
flight is one of them; of the others that have been handed out to it, each has been lost or reported on.
-/
theorem runtimes_are_workers (c : Config State Process ι) (hstart : Starts c) (schedule : List ι)
    : ∃ rounds schedule',
        Simulates (run Process.step c schedule) (run Client.step (workersOf c rounds) schedule') :=
  runs_of_workers hstart schedule

end Simulation

/-
Who has an attempt.
-/

section Attempts

variable {κ : Type} [DecidableEq κ] {c : Config State Client κ}

structure Unshared (c : Config State Client κ) : Prop where
  number_le : ∀ i attempt, (c.clients i).holding = some attempt → attempt.number ≤ c.shared.started attempt.jobId
  unshared : ∀ i j attempt, (c.clients i).holding = some attempt → (c.clients j).holding = some attempt → i = j

/--
An attempt that somebody gets is a new one.
-/
theorem holding_step (s : State) (client : Client)
    : (∀ jobId, s.started jobId ≤ (client.step s).1.started jobId)
        ∧ ∀ attempt, (client.step s).2.holding = some attempt → client.holding = some attempt
          ∨ attempt.number = s.started attempt.jobId + 1
            ∧ (client.step s).1.started attempt.jobId = s.started attempt.jobId + 1 := by
  cases client with
  | sweeper reset =>
    cases reset with
    | true | false => exact ⟨fun _ => Nat.le_refl _, fun attempt hattempt => .inl hattempt⟩
  | canceller cancelled => exact ⟨fun _ => Nat.le_refl _, fun attempt hattempt => .inl hattempt⟩
  | clock elapsed => exact ⟨fun _ => Nat.le_refl _, fun attempt hattempt => .inl hattempt⟩
  | worker w =>
    have hstep : (Client.worker w).step s = ((w.step s).1, .worker (w.step s).2) := rfl
    have hholding : ∀ w : Worker, (Client.worker w).holding = w.holding := fun _ => rfl
    rw [hstep]
    simp only [hholding]
    cases hreport : w.reporting s with
    | some report =>
      obtain ⟨attempt, status⟩ := report
      obtain ⟨_, hstarted, _, hnone⟩ := step_of_reporting s hreport
      rw [hstarted, hnone]
      exact ⟨fun _ => Nat.le_refl _, fun attempt hattempt => by cases hattempt⟩
    | none =>
      rcases step_of_not_reporting s hreport with ⟨hsame, hkeeps⟩ | ⟨round, rounds, hidle, hrounds⟩
      . rw [hsame]
        exact ⟨fun _ => Nat.le_refl _, fun attempt hattempt => .inl (hkeeps attempt hattempt)⟩
      . rcases worker_step_of_poll s hidle hrounds with
          ⟨hsame, hnone⟩ | ⟨row, _, _, _, hstarted, _, hheld⟩
        . rw [hsame, hnone]
          exact ⟨fun _ => Nat.le_refl _, fun attempt hattempt => by cases hattempt⟩
        . rw [hstarted, hheld]
          constructor
          . intro jobId
            by_cases hjob : jobId = row.id
            . rw [hjob, Function.update_self]
              exact Nat.le_succ _
            . rw [Function.update_of_ne hjob]
          . rintro attempt hattempt
            obtain rfl := Option.some.inj hattempt
            right
            exact ⟨rfl, Function.update_self ..⟩

theorem Unshared.fire (h : Unshared c) (i : κ) : Unshared (Interleaving.fire Client.step c i) := by
  obtain ⟨hstarted, hnew⟩ := holding_step c.shared (c.clients i)
  have hshared : (Interleaving.fire Client.step c i).shared = ((c.clients i).step c.shared).1 := rfl
  -- what somebody has got is what nobody had
  have hfresh : ∀ j attempt, ((Interleaving.fire Client.step c i).clients j).holding = some attempt →
      (c.clients j).holding = some attempt ∨ j = i ∧ attempt.number = c.shared.started attempt.jobId + 1 := by
    intro j attempt hattempt
    by_cases hj : j = i
    . subst hj
      rw [fire_clients_self] at hattempt
      rcases hnew attempt hattempt with hheld | ⟨hnumber, _⟩
      . exact .inl hheld
      . exact .inr ⟨rfl, hnumber⟩
    . rw [fire_clients_ne Client.step c hj] at hattempt
      exact .inl hattempt
  constructor
  . intro j attempt hattempt
    rw [hshared]
    by_cases hj : j = i
    . subst hj
      rw [fire_clients_self] at hattempt
      rcases hnew attempt hattempt with hheld | ⟨hnumber, hcount⟩
      . exact (h.number_le j attempt hheld).trans (hstarted _)
      . rw [hnumber, hcount]
    . rw [fire_clients_ne Client.step c hj] at hattempt
      exact (h.number_le j attempt hattempt).trans (hstarted _)
  . intro j k attempt hj hk
    rcases hfresh j attempt hj with hheld | ⟨rfl, hnumber⟩
    . rcases hfresh k attempt hk with hheld' | ⟨rfl, hnumber⟩
      . exact h.unshared j k attempt hheld hheld'
      . have hle := h.number_le j attempt hheld
        omega
    . rcases hfresh k attempt hk with hheld' | ⟨rfl, _⟩
      . have hle := h.number_le k attempt hheld'
        omega
      . rfl

end Attempts

section Runs

variable {ι : Type} [DecidableEq ι]

theorem permits_run {c : Config State Process ι} (hstart : Starts c) (schedule : List ι)
    : ∀ i r, (run Process.step c schedule).clients i = .runtime r → Permits r := by
  have hpermits : ∀ i r, c.clients i = .runtime r → Permits r := by
    intro i r hr
    obtain ⟨maxConcurrentJobs, jobTypes, moves, rfl⟩ := hstart i r hr
    exact ⟨rfl, fun hsome => absurd rfl hsome, fun hdrained => by cases hdrained⟩
  apply run_induction Process.step (motive := fun c => ∀ i r, c.clients i = .runtime r → Permits r) _ hpermits
  intro c i hc j r hr
  by_cases hj : j = i
  . subst hj
    rw [fire_clients_self] at hr
    cases hclient : c.clients j with
    | runtime r₀ =>
      rw [hclient] at hr
      obtain rfl := Process.runtime.inj hr
      exact (hc j r₀ hclient).step c.shared
    | other client =>
      rw [hclient] at hr
      cases hr
  . rw [fire_clients_ne Process.step c hj] at hr
    exact hc j r hr

theorem polls_of_left {c : Config State Process ι} {i : ι} {r : WorkerRuntime} (hr : c.clients i = .runtime r)
    (hleft : r.poller = .left) (more : List ι)
    : ∃ r', (run Process.step c more).clients i = .runtime r' ∧ r'.polls = r.polls := by
  induction more generalizing c r with
  | nil => exact ⟨r, hr, rfl⟩
  | cons j more ih =>
    by_cases hj : i = j
    . subst hj
      obtain ⟨hleft', hpolls⟩ := left_step hleft c.shared
      have hnext : (fire Process.step c i).clients i = .runtime (r.step c.shared).2 := by
        rw [fire_clients_self, hr]
        rfl
      obtain ⟨r', hr', hsame⟩ := ih hnext hleft'
      exact ⟨r', hr', hsame.trans hpolls⟩
    . have hnext : (fire Process.step c j).clients i = .runtime r := by
        rw [fire_clients_ne Process.step c hj]
        exact hr
      exact ih hnext hleft

omit [DecidableEq ι] in
theorem unshared_workersOf {c : Config State Process ι}
    (hidle : ∀ i client, c.clients i = .other client → client.holding = none) (rounds : ι × Nat → Round)
    : Unshared (workersOf c rounds) := by
  have hnone : ∀ p, ((workersOf c rounds).clients p).holding = none := by
    intro p
    cases hp : c.clients p.1 with
    | runtime r =>
      simp only [workersOf, hp]
      rfl
    | other client =>
      simp only [workersOf, hp]
      exact hidle p.1 client hp
  constructor
  . intro p attempt hattempt
    rw [hnone] at hattempt
    cases hattempt
  . intro p q attempt hattempt
    rw [hnone] at hattempt
    cases hattempt

/--
A runtime never has more jobs in flight than it may have, and no attempt is in flight twice, with whichever
runtimes. Once its loop has ended it polls no more, and if it has been drained, nothing is in flight: but for the
multiples of `2 ^ 32` that a `u32` does not tell.
-/
theorem in_flight_bounded (c : Config State Process ι) (hstart : Starts c)
    (hidle : ∀ i client, c.clients i = .other client → client.holding = none) (schedule : List ι) (i : ι)
    (r : WorkerRuntime) (hr : (run Process.step c schedule).clients i = .runtime r)
    : r.inFlight.length ≤ r.maxConcurrentJobs
        ∧ (∀ j r', (run Process.step c schedule).clients j = .runtime r' →
          ∀ entry ∈ r.inFlight, ∀ entry' ∈ r'.inFlight, entry.2.holding = entry'.2.holding → i = j ∧ entry = entry')
        ∧ (r.poller = .left → ∀ more, ∃ r', (run Process.step c (schedule ++ more)).clients i = .runtime r'
          ∧ r'.polls = r.polls)
        ∧ (r.shutdown = some .drained →
          r.inFlight.length ≤ r.maxConcurrentJobs - r.maxConcurrentJobs % 2 ^ 32) := by
  have hpermits := permits_run hstart schedule i r hr
  have hconserved := hpermits.conserved
  refine ⟨by omega, ?_, ?_, ?_⟩
  . intro j r' hr' entry hentry entry' hentry' hsame
    obtain ⟨rounds, schedule', hsimulates⟩ := runs_of_workers hstart schedule
    have hunshared : Unshared (run Client.step (workersOf c rounds) schedule') :=
      run_induction Client.step (fun _ p hc => hc.fire p) (unshared_workersOf hidle rounds) schedule'
    obtain ⟨hworker, _, _, hheld⟩ := (hsimulates.runtime i r hr).inFlight entry.1 entry.2 hentry
    obtain ⟨hworker', _, _, _⟩ := (hsimulates.runtime j r' hr').inFlight entry'.1 entry'.2 hentry'
    obtain ⟨attempt, hattempt⟩ := Option.isSome_iff_exists.mp hheld
    have hholds : ((run Client.step (workersOf c rounds) schedule').clients (i, entry.1)).holding = some attempt := by
      rw [hworker]
      exact hattempt
    have hholds' : ((run Client.step (workersOf c rounds) schedule').clients (j, entry'.1)).holding
        = some attempt := by
      rw [hworker']
      exact hsame.symm.trans hattempt
    obtain ⟨hi, hnumber⟩ := Prod.mk.inj (hunshared.unshared _ _ attempt hholds hholds')
    refine ⟨hi, Prod.ext hnumber ?_⟩
    rw [hi, hnumber, hworker'] at hworker
    exact (Client.worker.inj hworker).symm
  . intro hleft more
    rw [run_append]
    exact polls_of_left hr hleft more
  . intro hdrained
    have hfree := hpermits.drained hdrained
    unfold WorkerRuntime.drainPermits at hfree
    omega

end Runs

/-
A runtime with two permits, which shuts down with a job in flight.
-/

def sampleProcesses : Bool → Process
  | true => .runtime (.start 2 ["parse_gpx"]
    [.tick, .polled [] .ok, .tick, .pollFails, .cancel, .leave, .drain, .report 0, .drain])
  | false => .other (.sweeper true)

def sampleSteps : List Bool := List.replicate 7 true ++ [false] ++ List.replicate 2 true

theorem starts_sampleProcesses : Starts ⟨sampleQueue, sampleProcesses⟩ := by
  intro i r hr
  cases i with
  | true =>
    obtain rfl := Process.runtime.inj hr
    exact ⟨_, _, _, rfl⟩
  | false => cases hr

theorem runtimes_are_workers_sampleProcesses
    : ∃ rounds schedule, Simulates (run Process.step ⟨sampleQueue, sampleProcesses⟩ sampleSteps)
        (run Client.step (workersOf ⟨sampleQueue, sampleProcesses⟩ rounds) schedule) :=
  runtimes_are_workers ⟨sampleQueue, sampleProcesses⟩ starts_sampleProcesses sampleSteps

/--
It waits for the job.
-/
theorem in_flight_bounded_sampleProcesses
    : ∃ r, (run Process.step ⟨sampleQueue, sampleProcesses⟩ sampleSteps).clients true = .runtime r
        ∧ r.polls = 1 ∧ r.shutdown = some .drained
        ∧ r.inFlight.length ≤ r.maxConcurrentJobs - r.maxConcurrentJobs % 2 ^ 32 := by
  refine ⟨_, rfl, rfl, rfl, ?_⟩
  have hbounded := in_flight_bounded ⟨sampleQueue, sampleProcesses⟩ starts_sampleProcesses
    (by
      intro i client hclient
      cases i with
      | true => cases hclient
      | false =>
        obtain rfl := Process.other.inj hclient
        rfl)
    sampleSteps true _ rfl
  exact hbounded.2.2.2 rfl

end JobQueue
