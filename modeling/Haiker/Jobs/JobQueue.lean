import Haiker.Ids
import Haiker.Json.Basic
import Haiker.Sql.Index

/-!
This module contains the table `platform.jobs` and the statements of the job queue on it. `now` is the
database's clock. Retry counts count without a bound.
-/

structure JobRow where
  id : Uuid
  jobType : String
  payload : Json
  status : String
  priority : Int
  maxRetries : Int
  retryCount : Int
  errorMessage : Option String
  scheduledAt : Timestamp
  startedAt : Option Timestamp
  completedAt : Option Timestamp
  failedAt : Option Timestamp
  createdAt : Timestamp
  updatedAt : Timestamp
  correlationId : Option Uuid
  timeoutSeconds : Int

namespace JobQueue

abbrev JobTable := Sql.Table JobRow.id

-- `status NOT IN ('completed', 'cancelled', 'failed')`
def Active (row : JobRow) : Prop :=
  row.status ≠ "completed" ∧ row.status ≠ "cancelled" ∧ row.status ≠ "failed"

instance : DecidablePred Active := fun row =>
  inferInstanceAs (Decidable (row.status ≠ "completed" ∧ row.status ≠ "cancelled" ∧ row.status ≠ "failed"))

-- `idx_jobs_idempotent_correlation`
def idempotentCorrelation (row : JobRow) : Option (String × Uuid) :=
  if Active row then row.correlationId.map fun correlationId => (row.jobType, correlationId) else none

-- `make_interval(secs => ..)`
def seconds (n : Int) : Timestamp := n * 1000000000

def updateJob (jobId : Uuid) (f : JobRow → JobRow) (hf : ∀ row, (f row).id = row.id) (jobs : JobTable)
    : JobTable :=
  jobs.updateWhere (fun row => row.id = jobId) f hf

-- `ORDER BY priority DESC, scheduled_at ASC`
def Precedes (a b : JobRow) : Prop :=
  b.priority < a.priority ∨ a.priority = b.priority ∧ a.scheduledAt ≤ b.scheduledAt

instance : DecidableRel Precedes := fun a b =>
  inferInstanceAs (Decidable (b.priority < a.priority
    ∨ a.priority = b.priority ∧ a.scheduledAt ≤ b.scheduledAt))

-- `FOR UPDATE SKIP LOCKED LIMIT 1`
def nextPending (now : Timestamp) (locked : List Uuid) (jobs : JobTable) : Option JobRow :=
  ((jobs.rows.filter fun row => row.status = "pending" ∧ row.scheduledAt ≤ now ∧ row.id ∉ locked).insertionSort
    Precedes).head?

def setRunning (now : Timestamp) (row : JobRow) : JobRow :=
  { row with status := "running", startedAt := some now, updatedAt := now }

def poll (now : Timestamp) (locked : List Uuid) (jobs : JobTable) : JobTable × Option JobRow :=
  match nextPending now locked jobs with
  | some row => (updateJob row.id (setRunning now) (fun _ => rfl) jobs, some (setRunning now row))
  | none => (jobs, none)

def complete (now : Timestamp) (jobId : Uuid) : JobTable → JobTable :=
  updateJob jobId
    (fun row => { row with status := "completed", completedAt := some now, updatedAt := now })
    (fun _ => rfl)

def cancel (now : Timestamp) (jobId : Uuid) (jobs : JobTable) : JobTable :=
  jobs.updateWhere
    (fun row => row.id = jobId ∧ (row.status = "pending" ∨ row.status = "running"))
    (fun row => { row with status := "cancelled", updatedAt := now })
    (fun _ => rfl)

-- `started_at + make_interval(secs => timeout_seconds) < now()`
def timedOut (now : Timestamp) (row : JobRow) : Bool :=
  match row.startedAt with
  | some startedAt => row.status = "running" ∧ startedAt + seconds row.timeoutSeconds < now
  | none => false

-- the first statement of `timeout_stale_jobs`
def timeoutReset (now : Timestamp) (jobs : JobTable) : JobTable :=
  jobs.updateWhere (fun row => timedOut now row ∧ row.retryCount + 1 < row.maxRetries)
    (fun row => { row with
      status := "pending"
      retryCount := row.retryCount + 1
      errorMessage := some "job timed out"
      updatedAt := now
    })
    (fun _ => rfl)

-- the second one
def timeoutFail (now : Timestamp) (jobs : JobTable) : JobTable :=
  jobs.updateWhere (fun row => timedOut now row ∧ row.maxRetries ≤ row.retryCount + 1)
    (fun row => { row with
      status := "failed"
      retryCount := row.retryCount + 1
      errorMessage := some "job timed out (max retries exhausted)"
      failedAt := some now
      updatedAt := now
    })
    (fun _ => rfl)

-- the first statement of `fail`
def retryState (jobId : Uuid) (jobs : JobTable) : Option (Int × Int) :=
  (jobs.find? jobId).map fun row => (row.retryCount, row.maxRetries)

-- `2_i64.pow(new_retry_count as u32)`, `none` if it overflows
def backoffSeconds (newRetryCount : Int) : Option Int :=
  if 0 ≤ newRetryCount ∧ newRetryCount < 63 then some (2 ^ newRetryCount.toNat) else none

def reschedule (now : Timestamp) (newRetryCount backoff : Int) (errorMessage : String) (row : JobRow)
    : JobRow := { row with
  status := "pending"
  retryCount := newRetryCount
  errorMessage := some errorMessage
  scheduledAt := now + seconds backoff
  updatedAt := now
}

def failForGood (now : Timestamp) (newRetryCount : Int) (errorMessage : String) (row : JobRow)
    : JobRow := { row with
  status := "failed"
  retryCount := newRetryCount
  errorMessage := some errorMessage
  failedAt := some now
  updatedAt := now
}

-- the index refuses that the job becomes pending, as another job has taken its place
def superseded (jobId : Uuid) (jobs : JobTable) : Bool :=
  (jobs.find? jobId).any fun row => jobs.clashes idempotentCorrelation { row with status := "pending" }

-- the second statement of `fail`, given what the first one has read
def failWrite (now : Timestamp) (jobId : Uuid) (retryCount maxRetries : Int) (errorMessage : String)
    (jobs : JobTable) : JobTable :=
  if retryCount + 1 < maxRetries then
    match backoffSeconds (retryCount + 1) with
    | some backoff =>
      if superseded jobId jobs then
        jobs
      else
        updateJob jobId (reschedule now (retryCount + 1) backoff errorMessage) (fun _ => rfl) jobs
    | none => jobs
  else
    updateJob jobId (failForGood now (retryCount + 1) errorMessage) (fun _ => rfl) jobs

end JobQueue
