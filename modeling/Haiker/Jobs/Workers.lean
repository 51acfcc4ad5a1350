import Haiker.Concurrency.Interleaving
import Haiker.Jobs.JobQueue

/-!
This module contains workers, sweepers and whoever cancels jobs, at work on the job queue at the same
time. Each statement is a step of its own.
-/

namespace JobQueue

-- the `number`th time that the job is handed out
@[ext]
structure Attempt where
  jobId : Uuid
  number : Nat
  deriving DecidableEq

/--
The queue and the clock. How often each job has been handed out, and from which attempts it has been
taken away, is recorded for the theorems.
-/
structure State where
  jobs : JobTable
  now : Timestamp
  started : Uuid → Nat
  revoked : List Attempt

-- the attempts that a statement takes running jobs away from
def revoking (s : State) (jobs : JobTable) : List Attempt :=
  (s.jobs.rows.filter fun row =>
    row.status = "running" ∧ (jobs.find? row.id).any fun row => row.status ≠ "running").map fun row =>
      ⟨row.id, s.started row.id⟩

def State.revoke (s : State) (jobs : JobTable) : State :=
  { s with jobs, revoked := revoking s jobs ++ s.revoked }

-- one round of the polling loop: the rows that other statements lock, and how the handler ends
structure Round where
  locked : List Uuid
  result : Except String Unit

inductive Phase where
  | idle
  | running (attempt : Attempt) (result : Except String Unit)
  -- `fail` has read the retry count and its maximum
  | failing (attempt : Attempt) (errorMessage : String) (retryCount maxRetries : Int)

structure Worker where
  rounds : List Round
  phase : Phase

namespace Worker

def step (s : State) (worker : Worker) : State × Worker :=
  match worker.phase with
  | .idle =>
    match worker.rounds with
    | [] => (s, worker)
    | round :: rounds =>
      match poll s.now round.locked s.jobs with
      | (jobs, some row) =>
        let number := s.started row.id + 1
        ({ s with jobs, started := Function.update s.started row.id number },
          { rounds, phase := .running ⟨row.id, number⟩ round.result })
      | (_, none) => (s, { worker with rounds })
  | .running attempt (.ok _) =>
    ({ s with jobs := complete s.now attempt.jobId s.jobs }, { worker with phase := .idle })
  | .running attempt (.error errorMessage) =>
    match retryState attempt.jobId s.jobs with
    | some (retryCount, maxRetries) =>
      (s, { worker with phase := .failing attempt errorMessage retryCount maxRetries })
    | none => (s, { worker with phase := .idle })
  | .failing attempt errorMessage retryCount maxRetries =>
    ({ s with jobs := failWrite s.now attempt.jobId retryCount maxRetries errorMessage s.jobs },
      { worker with phase := .idle })

-- the attempt that the worker has not reported on yet
def holding (worker : Worker) : Option Attempt :=
  match worker.phase with
  | .idle => none
  | .running attempt _ | .failing attempt _ _ _ => some attempt

-- the attempt that the worker's next statement reports on, and the status it writes
def reporting (s : State) (worker : Worker) : Option (Attempt × String) :=
  match worker.phase with
  | .running attempt (.ok _) => some (attempt, "completed")
  | .failing attempt _ retryCount maxRetries =>
    if retryCount + 1 < maxRetries then
      if superseded attempt.jobId s.jobs then
        none
      else
        (backoffSeconds (retryCount + 1)).map fun _ => (attempt, "pending")
    else
      some (attempt, "failed")
  | .idle | .running _ (.error _) => none

end Worker

inductive Client where
  | worker (worker : Worker)
  -- between the statements of `timeout_stale_jobs`, `reset` tells which one is next
  | sweeper (reset : Bool)
  | canceller (jobId : Uuid)
  | clock (elapsed : Nat)

namespace Client

def step (s : State) : Client → State × Client
  | .worker w =>
    let (s, w) := w.step s
    (s, .worker w)
  | .sweeper true => (s.revoke (timeoutReset s.now s.jobs), .sweeper false)
  | .sweeper false => (s.revoke (timeoutFail s.now s.jobs), .sweeper true)
  | .canceller jobId => (s.revoke (cancel s.now jobId s.jobs), .canceller jobId)
  | .clock elapsed => ({ s with now := s.now + elapsed }, .clock elapsed)

def holding : Client → Option Attempt
  | .worker w => w.holding
  | .sweeper _ | .canceller _ | .clock _ => none

def reporting (s : State) : Client → Option (Attempt × String)
  | .worker w => w.reporting s
  | .sweeper _ | .canceller _ | .clock _ => none

end Client

-- the status of a job that is there
def State.status (s : State) (jobId : Uuid) : Option String := (s.jobs.find? jobId).map (·.status)

variable {s : State} {client : Client} {jobId : Uuid} {row : JobRow} {attempt : Attempt}
  {status : String}

theorem find?_updateJob {f : JobRow → JobRow} {hf : ∀ row, (f row).id = row.id} (jobs : JobTable)
    (k : Uuid)
    : (updateJob jobId f hf jobs).find? k
        = (jobs.find? k).map fun row => if k = jobId then f row else row := by
  unfold updateJob
  rw [Sql.Table.find?_updateWhere]
  cases h : jobs.find? k with
  | none => rfl
  | some row =>
    have hid : row.id = k := Sql.Table.key_of_find? h
    simp [hid]

theorem nextPending_eq_some {now : Timestamp} {locked : List Uuid} {jobs : JobTable}
    (h : nextPending now locked jobs = some row)
    : jobs.find? row.id = some row ∧ row.status = "pending" ∧ row.scheduledAt ≤ now
        ∧ row.id ∉ locked := by
  have hmem := List.mem_of_mem_head? h
  rw [List.mem_insertionSort, List.mem_filter, decide_eq_true_eq] at hmem
  exact ⟨Sql.Table.find?_of_mem hmem.1, hmem.2⟩

theorem status_updateJob (s : State) {f : JobRow → JobRow} {hf : ∀ row, (f row).id = row.id}
    (hstatus : ∀ row, (f row).status = status) (k : Uuid)
    : ({ s with jobs := updateJob jobId f hf s.jobs } : State).status k
        = if k = jobId then (s.status k).map fun _ => status else s.status k := by
  unfold State.status
  rw [find?_updateJob]
  cases s.jobs.find? k with
  | none => simp
  | some row =>
    simp only [Option.map_some]
    split
    . rw [hstatus]
    . rfl

theorem step_of_reporting (s : State) {w : Worker} (h : w.reporting s = some (attempt, status))
    : (∀ k, (w.step s).1.status k
          = if k = attempt.jobId then (s.status k).map fun _ => status else s.status k)
        ∧ (w.step s).1.started = s.started
        ∧ (w.step s).1.revoked = s.revoked
        ∧ (w.step s).2.holding = none := by
  unfold Worker.reporting at h
  unfold Worker.step Worker.holding
  cases hphase : w.phase with
  | idle => simp [hphase] at h
  | running other result =>
    cases result with
    | error message => simp [hphase] at h
    | ok _ =>
      simp only [hphase, Option.some.injEq, Prod.mk.injEq] at h
      obtain ⟨rfl, rfl⟩ := h
      refine ⟨?_, rfl, rfl, rfl⟩
      exact status_updateJob s fun _ => rfl
  | failing other message retryCount maxRetries =>
    simp only [hphase] at h
    refine ⟨?_, rfl, rfl, rfl⟩
    intro k
    simp only [failWrite]
    split at h
    . next hretries =>
      split at h
      . cases h
      . next hfree =>
        rw [Option.map_eq_some_iff] at h
        obtain ⟨backoff, hbackoff, h⟩ := h
        rw [Prod.mk.injEq] at h
        obtain ⟨rfl, rfl⟩ := h
        simp only [if_pos hretries, hbackoff, if_neg hfree]
        have hpending : ∀ row, (reschedule s.now (retryCount + 1) backoff message row).status = "pending" :=
          fun _ => rfl
        exact status_updateJob s hpending k
    . next hretries =>
      rw [Option.some.injEq, Prod.mk.injEq] at h
      obtain ⟨rfl, rfl⟩ := h
      simp only [if_neg hretries]
      have hfailed : ∀ row, (failForGood s.now (retryCount + 1) message row).status = "failed" :=
        fun _ => rfl
      exact status_updateJob s hfailed k

end JobQueue
