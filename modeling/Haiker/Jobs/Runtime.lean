import Haiker.Jobs.Lifecycle

/-!
This module contains the worker runtime, which works on several jobs at the same time, what each of its moves can
do and how it accounts for its permits. Metrics and the lengths of its intervals are left out.
-/

open Interleaving

namespace JobQueue

/--
How the handler of a job ends, if there is one for the type of the job.
-/
inductive Ended where
  | ok
  | failed (errorMessage : String)
  | elapsed

/--
What the runtime or one of the jobs it has spawned does next. `locked` are the rows that other statements lock.
-/
inductive Move where
  | tick
  | polled (locked : List Uuid) (ended : Ended)
  -- the answer does not get here, although there may have been one
  | pollFails
  | answerLost (locked : List Uuid)
  -- a job in flight makes its next statement, or goes without any: a handler panics, a statement fails
  | report (position : Nat)
  | lose (position : Nat)
  | cancel
  | leave
  | drain
  | giveUp

inductive Poller where
  | waiting
  -- with a permit
  | polling
  | left
  deriving DecidableEq

-- the permits that the poller has
def Poller.permits : Poller → Nat
  | .polling => 1
  | .waiting | .left => 0

inductive Shutdown where
  | drained
  | timedOut
  deriving DecidableEq

/--
The runtime. A job in flight is a worker in the middle of its only round, with the number of the poll that has
handed it out. The jobs that have been lost are recorded for the theorems.
-/
structure WorkerRuntime where
  maxConcurrentJobs : Nat
  jobTypes : List String
  available : Nat
  poller : Poller
  polls : Nat
  inFlight : List (Nat × Worker)
  lost : List Nat
  cancelled : Bool
  shutdown : Option Shutdown
  moves : List Move

-- what `poll` does, and the attempt that is handed out
def handOut (s : State) (locked : List Uuid) : Option (State × JobRow × Attempt) :=
  match poll s.now locked s.jobs with
  | (jobs, some row) =>
    let attempt : Attempt := ⟨row.id, s.started row.id + 1⟩
    some ({ s with jobs, started := Function.update s.started row.id attempt.number }, row, attempt)
  | (_, none) => none

namespace WorkerRuntime

def start (maxConcurrentJobs : Nat) (jobTypes : List String) (moves : List Move) : WorkerRuntime where
  maxConcurrentJobs
  jobTypes
  available := maxConcurrentJobs
  poller := .waiting
  polls := 0
  inFlight := []
  lost := []
  cancelled := false
  shutdown := none
  moves

-- what the job is reported with
def result (jobTypes : List String) (jobType : String) (ended : Ended) : Except String Unit :=
  if jobType ∈ jobTypes then
    match ended with
    | .ok => .ok ()
    | .failed errorMessage => .error errorMessage
    | .elapsed => .error "execution time limit exceeded"
  else
    .error ("no handler registered for job type: " ++ jobType)

variable (r : WorkerRuntime)

-- the job is spawned with the permit
def spawn (worker : Worker) : WorkerRuntime :=
  { r with poller := .waiting, polls := r.polls + 1, inFlight := r.inFlight ++ [(r.polls, worker)] }

-- the permit is given back
def dropPermit : WorkerRuntime := { r with poller := .waiting, available := r.available + 1 }

-- the job ends, and with it its permit
def finish (position : Nat) : WorkerRuntime :=
  { r with inFlight := r.inFlight.eraseIdx position, available := r.available + 1 }

-- the permits that `acquire_many` waits for, a `u32`
def drainPermits : Nat := r.maxConcurrentJobs % 2 ^ 32

def move (s : State) : Move → State × WorkerRuntime
  | .tick =>
    if r.poller = .waiting ∧ 0 < r.available then
      (s, { r with poller := .polling, available := r.available - 1 })
    else
      (s, r)
  | .polled locked ended =>
    if r.poller = .polling then
      match handOut s locked with
      | some (s, row, attempt) => (s, r.spawn ⟨[], .running attempt (result r.jobTypes row.jobType ended)⟩)
      | none => (s, r.dropPermit)
    else
      (s, r)
  | .pollFails => if r.poller = .polling then (s, r.dropPermit) else (s, r)
  | .answerLost locked =>
    if r.poller = .polling then
      match handOut s locked with
      | some (s, _) => (s, { r.dropPermit with polls := r.polls + 1, lost := r.polls :: r.lost })
      | none => (s, r.dropPermit)
    else
      (s, r)
  | .report position =>
    match r.inFlight[position]? with
    | some (number, worker) =>
      let (s, worker) := worker.step s
      if worker.holding.isSome then
        (s, { r with inFlight := r.inFlight.set position (number, worker) })
      else
        (s, r.finish position)
    | none => (s, r)
  | .lose position =>
    match r.inFlight[position]? with
    | some (number, _) => (s, { r.finish position with lost := number :: r.lost })
    | none => (s, r)
  | .cancel => (s, { r with cancelled := true })
  | .leave => if r.poller = .waiting ∧ r.cancelled then (s, { r with poller := .left }) else (s, r)
  | .drain =>
    if r.poller = .left ∧ r.shutdown = none ∧ r.drainPermits ≤ r.available then
      (s, { r with shutdown := some .drained })
    else
      (s, r)
  | .giveUp =>
    if r.poller = .left ∧ r.shutdown = none then (s, { r with shutdown := some .timedOut }) else (s, r)

def step (s : State) : State × WorkerRuntime :=
  match r.moves with
  | [] => (s, r)
  | next :: moves => { r with moves }.move s next

end WorkerRuntime

/--
A runtime, or whoever else is at work on the queue.
-/
inductive Process where
  | runtime (r : WorkerRuntime)
  | other (client : Client)

def Process.step (s : State) : Process → State × Process
  | .runtime r =>
    let (s, r) := r.step s
    (s, .runtime r)
  | .other client =>
    let (s, client) := client.step s
    (s, .other client)

variable {s s' : State} {r r' : WorkerRuntime} {attempt : Attempt} {row : JobRow} {locked : List Uuid}

theorem step_idle_of_handOut (h : handOut s locked = some (s', row, attempt)) (result : Except String Unit)
    : Worker.step s ⟨[⟨locked, result⟩], .idle⟩ = (s', ⟨[], .running attempt result⟩) := by
  unfold handOut at h
  unfold Worker.step
  cases hpoll : poll s.now locked s.jobs with
  | mk jobs row? =>
    rw [hpoll] at h
    simp only [hpoll]
    cases row? with
    | none => cases h
    | some row =>
      simp only [Option.some.injEq, Prod.mk.injEq] at h
      obtain ⟨rfl, rfl, rfl⟩ := h
      rfl

/-
What a move can do.
-/

inductive Advances (s : State) (r : WorkerRuntime) : State → WorkerRuntime → Prop where
  | keeps {r' : WorkerRuntime} (hinFlight : r'.inFlight = r.inFlight) (hpolls : r'.polls = r.polls)
    (hlost : r'.lost = r.lost) : Advances s r s r'
  | spawns {s' : State} {r' : WorkerRuntime} (round : Round) (attempt : Attempt)
    (hstep : Worker.step s ⟨[round], .idle⟩ = (s', ⟨[], .running attempt round.result⟩))
    (hinFlight : r'.inFlight = r.inFlight ++ [(r.polls, ⟨[], .running attempt round.result⟩)])
    (hpolls : r'.polls = r.polls + 1) (hlost : r'.lost = r.lost) : Advances s r s' r'
  | misses {s' : State} {r' : WorkerRuntime} (round : Round) (attempt : Attempt)
    (hstep : Worker.step s ⟨[round], .idle⟩ = (s', ⟨[], .running attempt round.result⟩))
    (hinFlight : r'.inFlight = r.inFlight) (hpolls : r'.polls = r.polls + 1) (hlost : r'.lost = r.polls :: r.lost)
    : Advances s r s' r'
  | reports {s' : State} {r' : WorkerRuntime} (before after : List (Nat × Worker)) (number : Nat)
    (worker worker' : Worker) (hbefore : r.inFlight = before ++ (number, worker) :: after)
    (hstep : worker.step s = (s', worker'))
    (hheld : worker'.holding.isSome) (hinFlight : r'.inFlight = before ++ (number, worker') :: after)
    (hpolls : r'.polls = r.polls) (hlost : r'.lost = r.lost) : Advances s r s' r'
  | finishes {s' : State} {r' : WorkerRuntime} (before after : List (Nat × Worker)) (number : Nat)
    (worker worker' : Worker) (hbefore : r.inFlight = before ++ (number, worker) :: after)
    (hstep : worker.step s = (s', worker'))
    (hended : worker'.holding = none) (hinFlight : r'.inFlight = before ++ after)
    (hpolls : r'.polls = r.polls) (hlost : r'.lost = r.lost) : Advances s r s' r'
  | loses {r' : WorkerRuntime} (before after : List (Nat × Worker)) (number : Nat) (worker : Worker)
    (hbefore : r.inFlight = before ++ (number, worker) :: after) (hinFlight : r'.inFlight = before ++ after)
    (hpolls : r'.polls = r.polls) (hlost : r'.lost = number :: r.lost) : Advances s r s r'

theorem exists_split {α : Type} {as : List α} {position : Nat} {a : α} (h : as[position]? = some a)
    : ∃ before after, as = before ++ a :: after ∧ (∀ b, as.set position b = before ++ b :: after)
        ∧ as.eraseIdx position = before ++ after := by
  obtain ⟨hlt, rfl⟩ := List.getElem?_eq_some_iff.mp h
  refine ⟨as.take position, as.drop (position + 1), ?_, fun b => ?_, ?_⟩
  . rw [List.getElem_cons_drop, List.take_append_drop]
  . exact List.set_eq_take_append_cons_drop.trans (if_pos hlt)
  . exact List.eraseIdx_eq_take_drop_succ as position

theorem advances_move (s : State) (r : WorkerRuntime) (next : Move)
    : Advances s r (r.move s next).1 (r.move s next).2 := by
  unfold WorkerRuntime.move
  cases next with
  | tick | pollFails | cancel | leave | drain | giveUp =>
    simp only
    first
    | exact .keeps rfl rfl rfl
    | split <;> exact .keeps rfl rfl rfl
  | polled locked ended =>
    simp only
    split
    . cases hout : handOut s locked with
      | none => exact .keeps rfl rfl rfl
      | some out =>
        obtain ⟨s', row, attempt⟩ := out
        exact .spawns ⟨locked, _⟩ attempt (step_idle_of_handOut hout _) rfl rfl rfl
    . exact .keeps rfl rfl rfl
  | answerLost locked =>
    simp only
    split
    . cases hout : handOut s locked with
      | none => exact .keeps rfl rfl rfl
      | some out =>
        obtain ⟨s', row, attempt⟩ := out
        exact .misses ⟨locked, .ok ()⟩ attempt (step_idle_of_handOut hout _) rfl rfl rfl
    . exact .keeps rfl rfl rfl
  | report position =>
    simp only
    cases hget : r.inFlight[position]? with
    | none => exact .keeps rfl rfl rfl
    | some entry =>
      obtain ⟨number, worker⟩ := entry
      obtain ⟨before, after, hbefore, hset, herase⟩ := exists_split hget
      simp only
      split
      . next hheld => exact .reports before after number worker _ hbefore rfl hheld (hset _) rfl rfl
      . next hended =>
        rw [Option.not_isSome_iff_eq_none] at hended
        exact .finishes before after number worker _ hbefore rfl hended herase rfl rfl
  | lose position =>
    simp only
    cases hget : r.inFlight[position]? with
    | none => exact .keeps rfl rfl rfl
    | some entry =>
      obtain ⟨number, worker⟩ := entry
      obtain ⟨before, after, hbefore, _, herase⟩ := exists_split hget
      exact .loses before after number worker hbefore herase rfl rfl

theorem advances_step (s : State) (r : WorkerRuntime) : Advances s r (r.step s).1 (r.step s).2 := by
  unfold WorkerRuntime.step
  cases r.moves with
  | nil => exact .keeps rfl rfl rfl
  | cons next moves =>
    have hmove := advances_move s { r with moves } next
    simp only
    generalize WorkerRuntime.move { r with moves } s next = out at hmove ⊢
    obtain ⟨s', r'⟩ := out
    cases hmove with
    | keeps hinFlight hpolls hlost => exact .keeps hinFlight hpolls hlost
    | spawns round attempt hstep hinFlight hpolls hlost => exact .spawns round attempt hstep hinFlight hpolls hlost
    | misses round attempt hstep hinFlight hpolls hlost => exact .misses round attempt hstep hinFlight hpolls hlost
    | reports before after number worker worker' hbefore hstep hheld hinFlight hpolls hlost =>
      exact .reports before after number worker worker' hbefore hstep hheld hinFlight hpolls hlost
    | finishes before after number worker worker' hbefore hstep hended hinFlight hpolls hlost =>
      exact .finishes before after number worker worker' hbefore hstep hended hinFlight hpolls hlost
    | loses before after number worker hbefore hinFlight hpolls hlost =>
      exact .loses before after number worker hbefore hinFlight hpolls hlost

/-
The permits.
-/

/--
Each permit is there, with the poller or with a job in flight.
-/
structure Permits (r : WorkerRuntime) : Prop where
  conserved : r.available + r.poller.permits + r.inFlight.length = r.maxConcurrentJobs
  left : r.shutdown ≠ none → r.poller = .left
  drained : r.shutdown = some .drained → r.drainPermits ≤ r.available

theorem Permits.finish (h : Permits r) {position : Nat} {entry : Nat × Worker}
    (hget : r.inFlight[position]? = some entry) : Permits (r.finish position) where
  conserved := by
    obtain ⟨hlt, _⟩ := List.getElem?_eq_some_iff.mp hget
    have hconserved := h.conserved
    have hlength : (r.inFlight.eraseIdx position).length + 1 = r.inFlight.length := by
      rw [List.length_eraseIdx, if_pos hlt]
      omega
    show r.available + 1 + r.poller.permits + (r.inFlight.eraseIdx position).length = r.maxConcurrentJobs
    omega
  left := h.left
  drained hdrained := (h.drained hdrained).trans (Nat.le_succ _)

-- the poller is still at work
theorem Permits.shutdown_eq_none (h : Permits r) (hpoller : r.poller ≠ .left) : r.shutdown = none := by
  by_contra hsome
  exact hpoller (h.left hsome)

theorem Permits.dropPermit (h : Permits r) (hpolling : r.poller = .polling) : Permits r.dropPermit where
  conserved := by
    have hconserved := h.conserved
    rw [hpolling] at hconserved
    show r.available + 1 + 0 + r.inFlight.length = r.maxConcurrentJobs
    simp only [Poller.permits] at hconserved
    omega
  left hsome := absurd (h.shutdown_eq_none (by rw [hpolling]; decide)) hsome
  drained hdrained := (h.drained hdrained).trans (Nat.le_succ _)

theorem Permits.spawn (h : Permits r) (hpolling : r.poller = .polling) (worker : Worker)
    : Permits (r.spawn worker) where
  conserved := by
    have hconserved := h.conserved
    rw [hpolling] at hconserved
    show r.available + 0 + (r.inFlight ++ [(r.polls, worker)]).length = r.maxConcurrentJobs
    rw [List.length_append, List.length_singleton]
    simp only [Poller.permits] at hconserved
    omega
  left hsome := absurd (h.shutdown_eq_none (by rw [hpolling]; decide)) hsome
  drained := h.drained

theorem Permits.move (h : Permits r) (s : State) (next : Move) : Permits (r.move s next).2 := by
  have hconserved := h.conserved
  unfold WorkerRuntime.move
  cases next with
  | tick =>
    simp only
    split
    . next hready =>
      rw [hready.1] at hconserved
      refine ⟨?_, fun hsome => absurd (h.shutdown_eq_none (by rw [hready.1]; decide)) hsome, fun hdrained => ?_⟩
      . simp only [Poller.permits] at hconserved ⊢
        omega
      . have hnone := h.shutdown_eq_none (by rw [hready.1]; decide)
        rw [hnone] at hdrained
        cases hdrained
    . exact h
  | polled locked ended =>
    simp only
    split
    . next hpolling =>
      cases handOut s locked with
      | none => exact h.dropPermit hpolling
      | some out => exact h.spawn hpolling _
    . exact h
  | pollFails =>
    simp only
    split
    . next hpolling => exact h.dropPermit hpolling
    . exact h
  | answerLost locked =>
    simp only
    split
    . next hpolling =>
      have hdrop := h.dropPermit hpolling
      cases handOut s locked with
      | none => exact hdrop
      | some out => exact ⟨hdrop.conserved, hdrop.left, hdrop.drained⟩
    . exact h
  | report position =>
    simp only
    cases hget : r.inFlight[position]? with
    | none => exact h
    | some entry =>
      simp only
      split
      . exact ⟨by simpa using hconserved, h.left, h.drained⟩
      . exact h.finish hget
  | lose position =>
    simp only
    cases hget : r.inFlight[position]? with
    | none => exact h
    | some entry =>
      have hfinish := h.finish hget
      exact ⟨hfinish.conserved, hfinish.left, hfinish.drained⟩
  | cancel => exact ⟨hconserved, h.left, h.drained⟩
  | leave =>
    simp only
    split
    . next hready =>
      rw [hready.1] at hconserved
      refine ⟨hconserved, fun _ => rfl, fun hdrained => ?_⟩
      exact h.drained hdrained
    . exact h
  | drain =>
    simp only
    split
    . next hready => exact ⟨hconserved, fun _ => hready.1, fun _ => hready.2.2⟩
    . exact h
  | giveUp =>
    simp only
    split
    . next hready => exact ⟨hconserved, fun _ => hready.1, fun hdrained => by cases hdrained⟩
    . exact h

theorem Permits.step (h : Permits r) (s : State) : Permits (r.step s).2 := by
  unfold WorkerRuntime.step
  cases r.moves with
  | nil => exact h
  | cons next moves =>
    have hrest : Permits { r with moves } := ⟨h.conserved, h.left, h.drained⟩
    exact hrest.move s next

-- the loop is not entered again
theorem left_move (hleft : r.poller = .left) (s : State) (next : Move)
    : (r.move s next).2.poller = .left ∧ (r.move s next).2.polls = r.polls := by
  unfold WorkerRuntime.move
  cases next with
  | tick | polled | pollFails | answerLost | leave =>
    simp [hleft]
  | report position =>
    simp only
    cases r.inFlight[position]? with
    | none => exact ⟨hleft, rfl⟩
    | some entry =>
      simp only
      split
      . exact ⟨hleft, rfl⟩
      . exact ⟨hleft, rfl⟩
  | lose position =>
    simp only
    cases r.inFlight[position]? with
    | none | some entry => exact ⟨hleft, rfl⟩
  | cancel => exact ⟨hleft, rfl⟩
  | drain | giveUp =>
    simp only
    split
    . exact ⟨hleft, rfl⟩
    . exact ⟨hleft, rfl⟩

theorem left_step (hleft : r.poller = .left) (s : State)
    : (r.step s).2.poller = .left ∧ (r.step s).2.polls = r.polls := by
  unfold WorkerRuntime.step
  cases r.moves with
  | nil => exact ⟨hleft, rfl⟩
  | cons next moves => exact @left_move { r with moves } hleft s next

end JobQueue
