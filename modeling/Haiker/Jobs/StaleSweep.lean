import Haiker.Jobs.Enqueue

/-!
This module contains the time limit that workers put on jobs, and when the sweep for stale jobs keeps to
it. The sweep takes the stored number of seconds as it is, workers replace it by a default if it is not
positive.
-/

open Interleaving

namespace JobQueue

structure ResourceBudgetConfig where
  defaultJobTimeoutSeconds : Nat

def ResourceBudgetConfig.default : ResourceBudgetConfig where
  defaultJobTimeoutSeconds := 300

-- seconds
def effectiveTimeout (job : JobRow) (config : ResourceBudgetConfig) : Int :=
  if 0 < job.timeoutSeconds then
    job.timeoutSeconds
  else
    config.defaultJobTimeoutSeconds

-- the job that the next step hands to the party
def Party.polled (s : State) : Party → Option JobRow
  | .client (.worker ⟨round :: _, .idle⟩) => (poll s.now round.locked s.jobs).2
  | _ => none

def Party.busy : Party → Bool
  | .client member => member.holding.isSome
  | .enqueuer _ => false

/--
A party, and the job that it is at as `poll` has returned it, and when.
-/
structure Runtime where
  party : Party
  handed : Option (JobRow × Timestamp)

namespace Runtime

def step (timeline : Timeline) (runtime : Runtime) : Timeline × Runtime :=
  let (timeline', party) := runtime.party.step timeline
  let handed :=
    match runtime.party.polled timeline.queue with
    | some job => some (job, timeline.queue.now)
    | none => if party.busy then runtime.handed else none
  (timeline', { party, handed })

end Runtime

section Runtimes

variable {ι : Type} [DecidableEq ι]

-- the step of client `i` is one of the sweep, and the job is no longer running after it
def TakesAway (jobId : Uuid) (c : Config Timeline Runtime ι) (i : ι) : Prop :=
  (∃ reset, (c.clients i).party = .client (.sweeper reset))
    ∧ c.shared.queue.status jobId = some "running"
    ∧ (fire Runtime.step c i).shared.queue.status jobId ≠ some "running"

/--
If the step of client `i` takes a job with the stored value away from a worker, then the worker's own limit
has elapsed since the job was handed to it.
-/
def InTime (config : ResourceBudgetConfig) (timeoutSeconds : Int) (c : Config Timeline Runtime ι) (i : ι)
    : Prop :=
  ∀ j job since, (c.clients j).handed = some (job, since) → job.timeoutSeconds = timeoutSeconds →
    TakesAway job.id c i → since + seconds (effectiveTimeout job config) ≤ c.shared.queue.now

-- nobody is at a job
def Unemployed (c : Config Timeline Runtime ι) : Prop :=
  ∀ i, (c.clients i).party.busy = false ∧ (c.clients i).handed = none

end Runtimes

/-
What the statements leave of the limits and of the moments from which they count.
-/

variable {jobs jobs' : JobTable} {now : Timestamp} {row : JobRow} {timeline : Timeline} {runtime : Runtime}

-- the rows stay with their limits, which count from where they did or from now on
def KeepsTimes (now : Timestamp) (jobs jobs' : JobTable) : Prop :=
  ∀ k row, jobs.find? k = some row → ∃ row', jobs'.find? k = some row'
    ∧ row'.timeoutSeconds = row.timeoutSeconds
    ∧ (row'.startedAt = row.startedAt ∨ row'.startedAt = some now)

theorem KeepsTimes.refl (now : Timestamp) (jobs : JobTable) : KeepsTimes now jobs jobs :=
  fun _ row hrow => ⟨row, hrow, rfl, .inl rfl⟩

theorem keepsTimes_updateWhere {p : JobRow → Bool} {f : JobRow → JobRow}
    (hf : ∀ row, (f row).id = row.id) (h : ∀ row, (f row).timeoutSeconds = row.timeoutSeconds
      ∧ ((f row).startedAt = row.startedAt ∨ (f row).startedAt = some now))
    : KeepsTimes now jobs (jobs.updateWhere p f hf) := by
  intro k row hrow
  rw [Sql.Table.find?_updateWhere, hrow, Option.map_some]
  refine ⟨_, rfl, ?_⟩
  split
  . exact h row
  . exact ⟨rfl, .inl rfl⟩

theorem keepsTimes_insert? (hinsert : jobs.insert? row = some jobs') : KeepsTimes now jobs jobs' :=
  fun _ row hrow => ⟨row, Sql.Table.find?_insert?_of_some hinsert hrow, rfl, .inl rfl⟩

theorem keepsTimes_poll (now : Timestamp) (locked : List Uuid) (jobs : JobTable)
    : KeepsTimes now jobs (poll now locked jobs).1 := by
  unfold poll
  split
  . apply keepsTimes_updateWhere
    . exact fun _ => rfl
    . exact fun _ => ⟨rfl, .inr rfl⟩
  . exact .refl now jobs

theorem keepsTimes_failWrite (now : Timestamp) (jobId : Uuid) (retryCount maxRetries : Int)
    (errorMessage : String) (jobs : JobTable)
    : KeepsTimes now jobs (failWrite now jobId retryCount maxRetries errorMessage jobs) := by
  unfold failWrite
  split
  . split
    . split
      . exact .refl now jobs
      . apply keepsTimes_updateWhere
        exact fun _ => ⟨rfl, .inl rfl⟩
    . exact .refl now jobs
  . apply keepsTimes_updateWhere
    exact fun _ => ⟨rfl, .inl rfl⟩

theorem keepsTimes_worker_step (s : State) (w : Worker) : KeepsTimes s.now s.jobs (w.step s).1.jobs := by
  unfold Worker.step
  split
  . split
    . exact .refl s.now s.jobs
    . next round _ _ =>
      have hpoll := keepsTimes_poll s.now round.locked s.jobs
      split
      . next heq =>
        rw [heq] at hpoll
        exact hpoll
      . exact .refl s.now s.jobs
  . apply keepsTimes_updateWhere
    . exact fun _ => rfl
    . exact fun _ => ⟨rfl, .inl rfl⟩
  . split
    . exact .refl s.now s.jobs
    . exact .refl s.now s.jobs
  . exact keepsTimes_failWrite s.now _ _ _ _ s.jobs

theorem keepsTimes_client_step (s : State) (client : Client)
    : KeepsTimes s.now s.jobs (client.step s).1.jobs := by
  cases client with
  | worker w => exact keepsTimes_worker_step s w
  | sweeper reset =>
    cases reset with
    | true =>
      apply keepsTimes_updateWhere
      . exact fun _ => rfl
      . exact fun _ => ⟨rfl, .inl rfl⟩
    | false =>
      apply keepsTimes_updateWhere
      . exact fun _ => rfl
      . exact fun _ => ⟨rfl, .inl rfl⟩
  | canceller jobId =>
    apply keepsTimes_updateWhere
    . exact fun _ => rfl
    . exact fun _ => ⟨rfl, .inl rfl⟩
  | clock => exact .refl s.now s.jobs

theorem keepsTimes_insertIdempotent {affected : Nat}
    (h : insertIdempotent row jobs = some (jobs', affected)) : KeepsTimes now jobs jobs' := by
  unfold insertIdempotent at h
  split at h
  . rw [Option.some.injEq, Prod.mk.injEq] at h
    rw [← h.1]
    exact .refl now jobs
  . rw [Option.map_eq_some_iff] at h
    obtain ⟨inserted, hinsert, heq⟩ := h
    rw [Prod.mk.injEq] at heq
    rw [← heq.1]
    exact keepsTimes_insert? hinsert

theorem keepsTimes_enqueuer_step (moment : Nat) (now : Timestamp) (jobs : JobTable) (enqueuer : Enqueuer)
    : KeepsTimes now jobs (enqueuer.step moment now jobs).1 := by
  cases enqueuer with
  | inserting call =>
    simp only [Enqueuer.step]
    split
    . next hinsert => exact keepsTimes_insertIdempotent hinsert
    . next hinsert => exact keepsTimes_insertIdempotent hinsert
    . exact .refl now jobs
  | selecting call begun =>
    simp only [Enqueuer.step]
    split
    . exact .refl now jobs
    . exact .refl now jobs
  | retrying call begun =>
    simp only [Enqueuer.step]
    split
    . next hinsert => exact keepsTimes_insertIdempotent hinsert
    . exact .refl now jobs
  | returned => exact .refl now jobs
  | failed => exact .refl now jobs

theorem keepsTimes_party_step (timeline : Timeline) (party : Party)
    : KeepsTimes timeline.queue.now timeline.queue.jobs (party.step timeline).1.queue.jobs := by
  cases party with
  | client client => exact keepsTimes_client_step timeline.queue client
  | enqueuer enqueuer => exact keepsTimes_enqueuer_step _ _ _ enqueuer

theorem now_client_step (s : State) (client : Client) : s.now ≤ (client.step s).1.now := by
  cases client with
  | worker w =>
    have hnow : (w.step s).1.now = s.now := by
      unfold Worker.step
      split
      . split
        . rfl
        . split
          . rfl
          . rfl
      . rfl
      . split
        . rfl
        . rfl
      . rfl
    exact hnow.ge
  | sweeper reset =>
    cases reset with
    | true | false => exact Int.le_refl _
  | canceller => exact Int.le_refl _
  | clock elapsed =>
    show s.now ≤ s.now + elapsed
    have hnow : (0 : Int) ≤ elapsed := Int.natCast_nonneg elapsed
    exact Int.le_add_of_nonneg_right hnow

theorem now_party_step (timeline : Timeline) (party : Party)
    : timeline.queue.now ≤ (party.step timeline).1.queue.now := by
  cases party with
  | client client => exact now_client_step timeline.queue client
  | enqueuer => exact Int.le_refl _

/-
What a party has been handed is in the table.
-/

theorem stored_of_polled {party : Party} {job : JobRow} (h : party.polled timeline.queue = some job)
    : (party.step timeline).1.queue.jobs.find? job.id = some job
        ∧ job.startedAt = some timeline.queue.now := by
  unfold Party.polled at h
  split at h
  . next round rounds =>
    unfold poll at h
    cases hnext : nextPending timeline.queue.now round.locked timeline.queue.jobs with
    | none => simp [hnext] at h
    | some row =>
      simp only [hnext, Option.some.injEq] at h
      subst h
      have hrow := (nextPending_eq_some hnext).1
      refine ⟨?_, rfl⟩
      simp only [Party.step, Client.step, Worker.step, poll, hnext]
      refine (find?_updateJob _ _).trans ?_
      simp [setRunning, hrow]
  . cases h

-- the limit of the job that the party is at counts at the earliest from when it was handed out
def Timed (s : State) (runtime : Runtime) : Prop :=
  ∀ job since, runtime.handed = some (job, since) → ∃ row started, s.jobs.find? job.id = some row
    ∧ row.timeoutSeconds = job.timeoutSeconds ∧ row.startedAt = some started
    ∧ since ≤ started ∧ started ≤ s.now

theorem Timed.others (h : Timed timeline.queue runtime) (party : Party)
    : Timed (party.step timeline).1.queue runtime := by
  intro job since hhanded
  obtain ⟨row, started, hrow, htimeout, hstarted, hsince, hnow⟩ := h job since hhanded
  obtain ⟨row', hrow', htimeout', hstarted'⟩ := keepsTimes_party_step timeline party job.id row hrow
  have hlater := now_party_step timeline party
  rcases hstarted' with hsame | hagain
  . exact ⟨row', started, hrow', htimeout'.trans htimeout, hsame.trans hstarted, hsince,
      Int.le_trans hnow hlater⟩
  . exact ⟨row', timeline.queue.now, hrow', htimeout'.trans htimeout, hagain, Int.le_trans hsince hnow, hlater⟩

theorem Timed.step (h : Timed timeline.queue runtime)
    : Timed (runtime.step timeline).1.queue (runtime.step timeline).2 := by
  intro job since hhanded
  simp only [Runtime.step] at hhanded
  split at hhanded
  . next polled hpolled =>
    rw [Option.some.injEq, Prod.mk.injEq] at hhanded
    obtain ⟨rfl, rfl⟩ := hhanded
    obtain ⟨hrow, hstarted⟩ := stored_of_polled hpolled
    exact ⟨polled, timeline.queue.now, hrow, rfl, hstarted, Int.le_refl _, now_party_step timeline _⟩
  . split at hhanded
    . exact h.others runtime.party job since hhanded
    . cases hhanded

theorem timedOut_of_swept {s : State} {reset : Bool} {jobId : Uuid} (hrow : s.jobs.find? jobId = some row)
    (hbefore : s.status jobId = some "running")
    (hafter : ((Client.sweeper reset).step s).1.status jobId ≠ some "running") : timedOut s.now row = true := by
  by_contra hfresh
  apply hafter
  rw [← hbefore]
  cases reset with
  | true =>
    refine (status_updateWhere s jobId).trans ?_
    rw [State.status, hrow, Option.map_some, Option.map_some, if_neg (by simp [hfresh])]
  | false =>
    refine (status_updateWhere s jobId).trans ?_
    rw [State.status, hrow, Option.map_some, Option.map_some, if_neg (by simp [hfresh])]

theorem status_of_swept {s : State} {jobId : Uuid} (hrow : s.jobs.find? jobId = some row)
    (hstale : timedOut s.now row = true) (hretries : row.retryCount + 1 < row.maxRetries)
    : ((Client.sweeper true).step s).1.status jobId = some "pending" := by
  refine (status_updateWhere s jobId).trans ?_
  rw [hrow, Option.map_some, if_pos (decide_eq_true ⟨hstale, hretries⟩)]

section Runtimes

variable {ι : Type} [DecidableEq ι] {config : ResourceBudgetConfig} {timeoutSeconds : Int}

theorem inTime_of_timed (hlimit : 0 < timeoutSeconds ∨ config.defaultJobTimeoutSeconds = 0)
    {c : Config Timeline Runtime ι} (h : ∀ j, Timed c.shared.queue (c.clients j)) (i : ι)
    : InTime config timeoutSeconds c i := by
  rintro j job since hhanded rfl ⟨⟨reset, hsweeper⟩, hbefore, hafter⟩
  obtain ⟨row, started, hrow, htimeout, hstarted, hsince, hnow⟩ := h j job since hhanded
  by_cases hpositive : 0 < job.timeoutSeconds
  . have hswept : ((Client.sweeper reset).step c.shared.queue).1.status job.id ≠ some "running" := by
      simpa only [fire, Runtime.step, hsweeper, Party.step] using hafter
    have hstale := timedOut_of_swept hrow hbefore hswept
    simp only [timedOut, hstarted, decide_eq_true_eq, htimeout] at hstale
    rw [effectiveTimeout, if_pos hpositive]
    exact Int.le_trans (Int.add_le_add_right hsince _) (Int.le_of_lt hstale.2)
  . -- the worker's limit is the default
    rw [effectiveTimeout, if_neg hpositive, hlimit.resolve_left hpositive]
    exact Int.le_trans (Int.le_of_eq (Int.add_zero since)) (Int.le_trans hsince hnow)

end Runtimes

inductive SampleRuntime where
  | worker
  | clock
  | sweeper
  deriving DecidableEq

-- a job with the value is waiting
def waitingRow (timeoutSeconds : Int) : JobRow := { sampleRow with timeoutSeconds }

def waitingQueue (timeoutSeconds : Int) : State := { sampleQueue with
  jobs := {
    rows := [waitingRow timeoutSeconds]
    unique := List.nodup_singleton _
  }
}

def sampleRuntimes (timeoutSeconds : Int) : Config Timeline Runtime SampleRuntime where
  shared := { queue := waitingQueue timeoutSeconds, past := [] }
  clients
    | .worker => ⟨.client (.worker ⟨[⟨[], .ok ()⟩], .idle⟩), none⟩
    | .clock => ⟨.client (.clock 1), none⟩
    | .sweeper => ⟨.client (.sweeper true), none⟩

theorem unemployed_sampleRuntimes (timeoutSeconds : Int) : Unemployed (sampleRuntimes timeoutSeconds) := by
  intro i
  cases i with
  | worker | clock | sweeper => exact ⟨rfl, rfl⟩

-- the job is taken away a nanosecond after it has been handed out
theorem takesAway_sampleRuntimes {timeoutSeconds : Int} (h : timeoutSeconds ≤ 0)
    : TakesAway ⟨1⟩ (run Runtime.step (sampleRuntimes timeoutSeconds) [.worker, .clock]) .sweeper := by
  have hrow : (run Runtime.step (sampleRuntimes timeoutSeconds) [.worker, .clock]).shared.queue.jobs.find? ⟨1⟩
      = some (setRunning 0 (waitingRow timeoutSeconds)) := rfl
  have hpast : (0 : Int) + timeoutSeconds * 1000000000 < 1 := by omega
  have hpending := status_of_swept hrow (decide_eq_true ⟨rfl, hpast⟩) (show (0 : Int) + 1 < 3 by decide)
  refine ⟨⟨true, rfl⟩, rfl, ?_⟩
  intro hrunning
  have hsame := hpending.symm.trans hrunning
  simp at hsame

/--
The sweep keeps to the limit that workers put on a job if the stored number of seconds is positive, or if
there is no default limit.
-/
theorem sweep_in_time_iff (config : ResourceBudgetConfig) (timeoutSeconds : Int)
    : (∀ (ι : Type) [DecidableEq ι] (c : Config Timeline Runtime ι) (schedule : List ι), Unemployed c →
          Along Runtime.step (InTime config timeoutSeconds) c schedule)
        ↔ 0 < timeoutSeconds ∨ config.defaultJobTimeoutSeconds = 0 := by
  constructor
  . intro h
    by_contra hlimit
    rw [not_or, Int.not_lt] at hlimit
    obtain ⟨hnot, hdefault⟩ := hlimit
    have hlast : InTime config timeoutSeconds (run Runtime.step (sampleRuntimes timeoutSeconds)
        [.worker, .clock]) .sweeper :=
      Along.last Runtime.step (h _ _ _ (unemployed_sampleRuntimes timeoutSeconds))
    have hlimit : effectiveTimeout (setRunning 0 (waitingRow timeoutSeconds)) config
        = config.defaultJobTimeoutSeconds := if_neg (Int.not_lt.mpr hnot)
    have hearly : (0 : Int) + effectiveTimeout (setRunning 0 (waitingRow timeoutSeconds)) config * 1000000000
        ≤ 1 := hlast .worker _ 0 rfl rfl (takesAway_sampleRuntimes hnot)
    rw [hlimit] at hearly
    omega
  . intro hlimit ι _ c schedule hidle
    have htimed : Holds (fun _ => True) (fun _ timeline runtime => Timed timeline.queue runtime) c := by
      refine ⟨trivial, ?_⟩
      intro i job since hhanded
      rw [(hidle i).2] at hhanded
      cases hhanded
    have hown : ∀ (_ : ι) timeline runtime, True → Timed timeline.queue runtime →
        True ∧ Timed (Runtime.step timeline runtime).1.queue (Runtime.step timeline runtime).2 :=
      fun _ _ _ _ h => ⟨trivial, h.step⟩
    have hstable : ∀ (i j : ι) timeline (runtime other : Runtime), True → i ≠ j →
        Timed timeline.queue runtime → Timed timeline.queue other →
          Timed (Runtime.step timeline runtime).1.queue other :=
      fun _ _ _ _ _ _ _ _ h => h.others _
    exact htimed.along Runtime.step hown hstable (fun c i h => inTime_of_timed hlimit h.2 i) schedule

/--
A worker may take five minutes for a job without a limit of its own, but the sweep takes the job away at
once.
-/
theorem sweep_ignores_default
    : ¬∀ (ι : Type) [DecidableEq ι] (c : Config Timeline Runtime ι) (schedule : List ι), Unemployed c →
        Along Runtime.step (InTime .default 0) c schedule := by
  intro h
  have hlast : InTime .default 0 (run Runtime.step (sampleRuntimes 0) [.worker, .clock]) .sweeper :=
    Along.last Runtime.step (h _ _ _ (unemployed_sampleRuntimes 0))
  have hearly : (0 : Int) + 300 * 1000000000 ≤ 1 :=
    hlast .worker _ 0 rfl rfl (takesAway_sampleRuntimes (le_refl 0))
  omega

end JobQueue
