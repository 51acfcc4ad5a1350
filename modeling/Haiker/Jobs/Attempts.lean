import Mathlib.Data.List.Dedup
import Haiker.Jobs.Lifecycle

/-!
This module contains how often a job is handed out. `fail` writes the retry count that it has read one
statement earlier, whatever has become of the job since, and a sweep counts the same attempt again.
-/

open Interleaving

namespace JobQueue

variable {ι : Type} [DecidableEq ι]

-- what a client that is about to write in `fail` reports on, and the retry count and the maximum it has
-- read
def Client.failing : Client → Option (Attempt × Int × Int)
  | .worker w =>
    match w.phase with
    | .failing attempt _ retryCount maxRetries => some (attempt, retryCount, maxRetries)
    | .idle | .running _ _ => none
  | .sweeper _ | .canceller _ | .clock _ => none

section Job

variable (jobId : Uuid)

-- the attempt at the job that the client's next statement ends without success
def finishes (s : State) : Client → Option Attempt
  | .worker w =>
    match w.phase with
    | .failing attempt _ _ _ => if attempt.jobId = jobId then some attempt else none
    | .idle | .running _ _ => none
  | .sweeper reset =>
    match s.jobs.find? jobId with
    | some row =>
      if timedOut s.now row ∧ (reset = true ↔ row.retryCount + 1 < row.maxRetries) then
        some ⟨jobId, s.started jobId⟩
      else
        none
    | none => none
  | .canceller _ | .clock _ => none

-- the attempts that a run ends without success, one entry for each statement that does so
def finished (c : Config State Client ι) : List ι → List Attempt
  | [] => []
  | i :: schedule =>
    (finishes jobId c.shared (c.clients i)).toList ++ finished (fire Client.step c i) schedule

-- the power of two that client `i` is about to compute is an `i64`
def BackoffFits (c : Config State Client ι) (i : ι) : Prop :=
  ∀ attempt retryCount maxRetries, (c.clients i).failing = some (attempt, retryCount, maxRetries) →
    attempt.jobId = jobId → retryCount + 1 < maxRetries → (backoffSeconds (retryCount + 1)).isSome

/--
If client `i` is about to fail the job, then its attempt is the latest one and the retry count that it
has read is that of the attempts before. If attempts are left, then this one is among the first 62, and
no other job has taken the place of the job in the index.
-/
def FailsInTime (c : Config State Client ι) (i : ι) : Prop :=
  ∀ attempt retryCount maxRetries, (c.clients i).failing = some (attempt, retryCount, maxRetries) →
    attempt.jobId = jobId →
      attempt.number = c.shared.started jobId ∧ retryCount + 1 = attempt.number
        ∧ (attempt.number < maxRetries →
          attempt.number < 63 ∧ superseded jobId c.shared.jobs = false)

-- the job has been enqueued as `row`, and nobody has got it yet
structure Enqueued (row : JobRow) (c : Config State Client ι) : Prop where
  stored : c.shared.jobs.find? jobId = some row
  pending : row.status = "pending"
  retryCount : row.retryCount = 0
  started : c.shared.started jobId = 0
  holding : ∀ i attempt, (c.clients i).holding = some attempt → attempt.jobId ≠ jobId

end Job

/--
What the row of a job that has been handed out `number` times says.
-/
structure Counted (maxRetries : Int) (number : Nat) (row : JobRow) : Prop where
  maxRetries_eq : row.maxRetries = maxRetries
  nonneg : 0 ≤ row.retryCount
  retryCount_le : row.retryCount ≤ number
  le_retryCount : number ≤ row.retryCount + 1
  pending : row.status = "pending" → row.retryCount = number ∧ (number = 0 ∨ number < maxRetries)
  running : row.status = "running" → number = row.retryCount + 1
  number_le : number ≤ max 1 maxRetries

-- the client's step leaves the job counted, and raises its retry count to the attempt that it ends
structure Counts (jobId : Uuid) (maxRetries : Int) (s s' : State) (client : Client) (row row' : JobRow)
    : Prop where
  stored : s'.jobs.find? jobId = some row'
  counted : Counted maxRetries (s'.started jobId) row'
  finishes : ∀ attempt, finishes jobId s client = some attempt →
    attempt.jobId = jobId ∧ 1 ≤ attempt.number ∧ row'.retryCount = attempt.number
      ∧ (row.retryCount + 1 = attempt.number ∨ row.retryCount = attempt.number)
  keeps : JobQueue.finishes jobId s client = none → row'.retryCount = row.retryCount

-- `attempts` are the first `retryCount` attempts at the job
def Ledger (jobId : Uuid) (retryCount : Int) (attempts : List Attempt) : Prop :=
  ∀ attempt, attempt ∈ attempts ↔
    attempt.jobId = jobId ∧ 1 ≤ attempt.number ∧ attempt.number ≤ retryCount

variable {s : State} {client : Client} {jobId : Uuid} {row row' : JobRow} {attempt : Attempt}
  {maxRetries : Int} {number : Nat} {c : Config State Client ι} {i : ι}

theorem Ledger.dedup_length {retryCount : Int} {attempts : List Attempt}
    (h : Ledger jobId retryCount attempts) (hnonneg : 0 ≤ retryCount)
    : attempts.dedup.length = retryCount := by
  have hperm : attempts.dedup.Perm ((List.range retryCount.toNat).map fun k => ⟨jobId, k + 1⟩) := by
    rw [List.perm_ext_iff_of_nodup]
    . intro attempt
      rw [List.mem_dedup, h attempt]
      simp only [List.mem_map, List.mem_range]
      constructor
      . rintro ⟨rfl, hone, hle⟩
        refine ⟨attempt.number - 1, by omega, ?_⟩
        apply Attempt.ext
        . rfl
        . exact Nat.sub_add_cancel hone
      . rintro ⟨k, hk, rfl⟩
        refine ⟨rfl, Nat.le_add_left 1 k, ?_⟩
        show ((k + 1 : Nat) : Int) ≤ retryCount
        omega
    . exact List.nodup_dedup _
    . apply List.Nodup.map _ List.nodup_range
      intro a b hab
      simpa using hab
  rw [hperm.length_eq, List.length_map, List.length_range]
  omega

theorem Counted.of_status (h : Counted maxRetries number row) (hmax : row'.maxRetries = row.maxRetries)
    (hretry : row'.retryCount = row.retryCount) (hpending : row'.status ≠ "pending")
    (hrunning : row'.status ≠ "running")
    : Counted maxRetries number row' where
  maxRetries_eq := by rw [hmax, h.maxRetries_eq]
  nonneg := by
    rw [hretry]
    exact h.nonneg
  retryCount_le := by
    rw [hretry]
    exact h.retryCount_le
  le_retryCount := by
    rw [hretry]
    exact h.le_retryCount
  pending := fun hstatus => absurd hstatus hpending
  running := fun hstatus => absurd hstatus hrunning
  number_le := h.number_le

-- the attempt with this number has ended without success
theorem Counted.of_ended (h : Counted maxRetries number row) (hmax : row'.maxRetries = row.maxRetries)
    (hretry : row'.retryCount = number) (hrunning : row'.status ≠ "running")
    (hpending : row'.status = "pending" → number < maxRetries)
    : Counted maxRetries number row' where
  maxRetries_eq := by rw [hmax, h.maxRetries_eq]
  nonneg := by omega
  retryCount_le := Int.le_of_eq hretry
  le_retryCount := by omega
  pending := fun hstatus => ⟨hretry, .inr (hpending hstatus)⟩
  running := fun hstatus => absurd hstatus hrunning
  number_le := h.number_le

theorem Counted.setRunning (h : Counted maxRetries number row) (hpending : row.status = "pending")
    (now : Timestamp)
    : Counted maxRetries (number + 1) (setRunning now row) := by
  obtain ⟨hretry, hnumber⟩ := h.pending hpending
  have hle := h.number_le
  constructor
  . exact h.maxRetries_eq
  . exact h.nonneg
  . show row.retryCount ≤ ((number + 1 : Nat) : Int)
    omega
  . show ((number + 1 : Nat) : Int) ≤ row.retryCount + 1
    omega
  . intro hstatus
    simp [JobQueue.setRunning] at hstatus
  . intro _
    show ((number + 1 : Nat) : Int) = row.retryCount + 1
    omega
  . show ((number + 1 : Nat) : Int) ≤ max 1 maxRetries
    omega

/-
What each statement does to the job.
-/

section Counts

variable {s' : State} (hstored : s'.jobs.find? jobId = some row')
  (hcounted : Counted maxRetries (s'.started jobId) row')
include hstored hcounted

-- a step that ends no attempt
theorem Counts.of_none (hnone : JobQueue.finishes jobId s client = none)
    (hretry : row'.retryCount = row.retryCount) : Counts jobId maxRetries s s' client row row' where
  stored := hstored
  counted := hcounted
  finishes := by
    intro attempt h
    rw [hnone] at h
    cases h
  keeps := fun _ => hretry

-- a step that ends one
theorem Counts.of_some (hsome : JobQueue.finishes jobId s client = some attempt)
    (hended : attempt.jobId = jobId ∧ 1 ≤ attempt.number ∧ row'.retryCount = attempt.number
      ∧ (row.retryCount + 1 = attempt.number ∨ row.retryCount = attempt.number))
    : Counts jobId maxRetries s s' client row row' where
  stored := hstored
  counted := hcounted
  finishes := by
    intro other h
    rw [hsome, Option.some.injEq] at h
    rw [← h]
    exact hended
  keeps := by
    intro h
    rw [hsome] at h
    cases h

end Counts

theorem found_updateJob {jobs : JobTable} {f : JobRow → JobRow} {hf : ∀ row, (f row).id = row.id}
    (updated : Uuid) (hrow : jobs.find? jobId = some row)
    : (updateJob updated f hf jobs).find? jobId = some (if jobId = updated then f row else row) := by
  rw [find?_updateJob, hrow, Option.map_some]

theorem found_updateJob_of_ne {jobs : JobTable} {f : JobRow → JobRow} {hf : ∀ row, (f row).id = row.id}
    {updated : Uuid} (hrow : jobs.find? jobId = some row) (hne : updated ≠ jobId)
    : (updateJob updated f hf jobs).find? jobId = some row := by
  rw [found_updateJob updated hrow, if_neg (Ne.symm hne)]

theorem counts_of_poll {w : Worker} {round : Round} {rounds : List Round}
    (hidle : w.phase = .idle) (hrounds : w.rounds = round :: rounds)
    (hrow : s.jobs.find? jobId = some row) (hcounted : Counted maxRetries (s.started jobId) row)
    : ∃ row', Counts jobId maxRetries s (w.step s).1 (.worker w) row row' := by
  have hnone : finishes jobId s (.worker w) = none := by simp [finishes, hidle]
  unfold Worker.step
  simp only [hidle, hrounds, poll]
  cases hnext : nextPending s.now round.locked s.jobs with
  | none => exact ⟨row, .of_none hrow hcounted hnone rfl⟩
  | some polled =>
    obtain ⟨hpolled, hpending, _⟩ := nextPending_eq_some hnext
    have hafter : (updateJob polled.id (setRunning s.now) (fun _ => rfl) s.jobs).find? jobId = some _ :=
      found_updateJob polled.id hrow
    refine ⟨_, .of_none hafter ?_ hnone ?_⟩
    . show Counted maxRetries (Function.update s.started polled.id (s.started polled.id + 1) jobId) _
      split
      . next hjob =>
        subst hjob
        rw [hrow, Option.some.injEq] at hpolled
        subst hpolled
        rw [Function.update_self]
        exact hcounted.setRunning hpending s.now
      . next hjob =>
        rw [Function.update_of_ne hjob]
        exact hcounted
    . split
      . rfl
      . rfl

theorem counts_of_complete (s : State) (completed : Uuid) (hnone : finishes jobId s client = none)
    (hrow : s.jobs.find? jobId = some row) (hcounted : Counted maxRetries (s.started jobId) row)
    : ∃ row', Counts jobId maxRetries s { s with jobs := complete s.now completed s.jobs } client
        row row' := by
  have hafter : (complete s.now completed s.jobs).find? jobId = some _ :=
    found_updateJob completed hrow
  refine ⟨_, .of_none hafter ?_ hnone ?_⟩
  . show Counted maxRetries (s.started jobId) _
    split
    . apply hcounted.of_status
      . rfl
      . rfl
      . simp
      . simp
    . exact hcounted
  . split
    . rfl
    . rfl

theorem counts_of_cancel (s : State) (cancelled : Uuid) (hrow : s.jobs.find? jobId = some row)
    (hcounted : Counted maxRetries (s.started jobId) row)
    : ∃ row', Counts jobId maxRetries s (s.revoke (cancel s.now cancelled s.jobs))
        (.canceller cancelled) row row' := by
  have hafter : (cancel s.now cancelled s.jobs).find? jobId = _ :=
    Sql.Table.find?_updateWhere _ _ _ _ _
  rw [hrow, Option.map_some] at hafter
  refine ⟨_, .of_none hafter ?_ rfl ?_⟩
  . show Counted maxRetries (s.started jobId) _
    split
    . apply hcounted.of_status
      . rfl
      . rfl
      . simp
      . simp
    . exact hcounted
  . split
    . rfl
    . rfl

theorem counts_of_sweep (s : State) (reset : Bool) (hrow : s.jobs.find? jobId = some row)
    (hcounted : Counted maxRetries (s.started jobId) row)
    : ∃ row', Counts jobId maxRetries s (Client.step s (.sweeper reset)).1 (.sweeper reset) row row' := by
  by_cases hsweeps : timedOut s.now row = true ∧ (reset = true ↔ row.retryCount + 1 < row.maxRetries)
  . have hfinishes : finishes jobId s (.sweeper reset) = some ⟨jobId, s.started jobId⟩ := by
      simp only [finishes, hrow]
      rw [if_pos hsweeps]
    have hnumber := hcounted.running (status_of_timedOut hsweeps.1)
    have hmax := hcounted.maxRetries_eq
    have hended : jobId = jobId ∧ 1 ≤ s.started jobId ∧ row.retryCount + 1 = (s.started jobId : Int)
        ∧ (row.retryCount + 1 = (s.started jobId : Int) ∨ row.retryCount = (s.started jobId : Int)) := by
      have hnonneg := hcounted.nonneg
      exact ⟨rfl, by omega, hnumber.symm, .inl hnumber.symm⟩
    cases reset with
    | true =>
      have hretries : row.retryCount + 1 < row.maxRetries := hsweeps.2.mp rfl
      have hafter : (timeoutReset s.now s.jobs).find? jobId = _ :=
        Sql.Table.find?_updateWhere _ _ _ _ _
      rw [hrow, Option.map_some, if_pos (by simpa using ⟨hsweeps.1, hretries⟩)] at hafter
      refine ⟨_, .of_some hafter ?_ hfinishes hended⟩
      show Counted maxRetries (s.started jobId) _
      apply hcounted.of_ended
      . rfl
      . exact hnumber.symm
      . simp
      . intro _
        show (s.started jobId : Int) < maxRetries
        omega
    | false =>
      have hretries : row.maxRetries ≤ row.retryCount + 1 := by
        have := hsweeps.2
        simpa using this
      have hafter : (timeoutFail s.now s.jobs).find? jobId = _ :=
        Sql.Table.find?_updateWhere _ _ _ _ _
      rw [hrow, Option.map_some, if_pos (by simpa using ⟨hsweeps.1, hretries⟩)] at hafter
      refine ⟨_, .of_some hafter ?_ hfinishes hended⟩
      show Counted maxRetries (s.started jobId) _
      apply hcounted.of_ended
      . rfl
      . exact hnumber.symm
      . simp
      . intro hstatus
        simp at hstatus
  . have hnone : finishes jobId s (.sweeper reset) = none := by
      simp only [finishes, hrow]
      rw [if_neg hsweeps]
    have hsame : (Client.step s (.sweeper reset)).1.jobs.find? jobId = some row := by
      cases reset with
      | true =>
        have hafter : (timeoutReset s.now s.jobs).find? jobId = _ :=
          Sql.Table.find?_updateWhere _ _ _ _ _
        rw [hrow, Option.map_some, if_neg] at hafter
        . exact hafter
        . simpa using hsweeps
      | false =>
        have hafter : (timeoutFail s.now s.jobs).find? jobId = _ :=
          Sql.Table.find?_updateWhere _ _ _ _ _
        rw [hrow, Option.map_some, if_neg] at hafter
        . exact hafter
        . simpa using hsweeps
    have hstarted : (Client.step s (.sweeper reset)).1.started = s.started := by
      cases reset with
      | true => rfl
      | false => rfl
    refine ⟨row, .of_none hsame ?_ hnone rfl⟩
    rw [hstarted]
    exact hcounted

theorem counts_of_failWrite {w : Worker} {errorMessage : String} {retryCount : Int}
    (hphase : w.phase = .failing attempt errorMessage retryCount maxRetries)
    (hrow : s.jobs.find? jobId = some row) (hcounted : Counted maxRetries (s.started jobId) row)
    (hnumber : attempt.number = s.started jobId) (hread : retryCount + 1 = attempt.number)
    (hleft : attempt.number < maxRetries →
      attempt.number < 63 ∧ superseded jobId s.jobs = false)
    (hjob : attempt.jobId = jobId) (hnonneg : 0 ≤ retryCount)
    : ∃ row', Counts jobId maxRetries s (w.step s).1 (.worker w) row row' := by
  have hfinishes : finishes jobId s (.worker w) = some attempt := by
    simp [finishes, hphase, hjob]
  have hle := hcounted.retryCount_le
  have hge := hcounted.le_retryCount
  have hended : attempt.jobId = jobId ∧ 1 ≤ attempt.number ∧ retryCount + 1 = attempt.number
      ∧ (row.retryCount + 1 = attempt.number ∨ row.retryCount = attempt.number) :=
    ⟨hjob, by omega, hread, by omega⟩
  unfold Worker.step
  simp only [hphase, failWrite]
  split
  . next hretries =>
    obtain ⟨hfew, hfree⟩ := hleft (by omega)
    have hfits : backoffSeconds (retryCount + 1) = some (2 ^ (retryCount + 1).toNat) := by
      unfold backoffSeconds
      rw [if_pos (by omega)]
    simp only [hfits, hjob, hfree, Bool.false_eq_true, if_false]
    have hafter : (updateJob jobId
        (reschedule s.now (retryCount + 1) (2 ^ (retryCount + 1).toNat) errorMessage) (fun _ => rfl)
          s.jobs).find? jobId = some _ := found_updateJob jobId hrow
    rw [if_pos rfl] at hafter
    refine ⟨_, .of_some hafter ?_ hfinishes hended⟩
    apply hcounted.of_ended
    . rfl
    . show retryCount + 1 = ((s.started jobId : Nat) : Int)
      omega
    . simp [reschedule]
    . intro _
      omega
  . next hretries =>
    have hafter : (updateJob attempt.jobId (failForGood s.now (retryCount + 1) errorMessage)
        (fun _ => rfl) s.jobs).find? jobId = some _ := found_updateJob attempt.jobId hrow
    rw [if_pos hjob.symm] at hafter
    refine ⟨_, .of_some hafter ?_ hfinishes hended⟩
    apply hcounted.of_ended
    . rfl
    . show retryCount + 1 = ((s.started jobId : Nat) : Int)
      omega
    . simp [failForGood]
    . intro hstatus
      simp [failForGood] at hstatus

theorem counts_of_failWrite_of_ne {w : Worker} {errorMessage : String} {retryCount maximum : Int}
    (hphase : w.phase = .failing attempt errorMessage retryCount maximum)
    (hrow : s.jobs.find? jobId = some row) (hcounted : Counted maxRetries (s.started jobId) row)
    (hjob : attempt.jobId ≠ jobId)
    : ∃ row', Counts jobId maxRetries s (w.step s).1 (.worker w) row row' := by
  have hnone : finishes jobId s (.worker w) = none := by
    simp [finishes, hphase, hjob]
  have hsame : (w.step s).1.jobs.find? jobId = some row := by
    unfold Worker.step
    simp only [hphase, failWrite]
    split
    . split
      . split
        . exact hrow
        . exact found_updateJob_of_ne hrow hjob
      . exact hrow
    . exact found_updateJob_of_ne hrow hjob
  have hstarted : (w.step s).1.started = s.started := by
    unfold Worker.step
    simp only [hphase]
  refine ⟨row, .of_none hsame ?_ hnone rfl⟩
  rw [hstarted]
  exact hcounted

-- a client that is about to fail the job has read its maximum, and a retry count
def HasRead (jobId : Uuid) (maxRetries : Int) (client : Client) : Prop :=
  ∀ attempt retryCount maximum, client.failing = some (attempt, retryCount, maximum) →
    attempt.jobId = jobId → maximum = maxRetries ∧ 0 ≤ retryCount

theorem counts_of_worker {w : Worker} (hrow : s.jobs.find? jobId = some row)
    (hcounted : Counted maxRetries (s.started jobId) row) (hread : HasRead jobId maxRetries (.worker w))
    (hin : ∀ attempt retryCount maximum,
      (Client.worker w).failing = some (attempt, retryCount, maximum) → attempt.jobId = jobId →
        attempt.number = s.started jobId ∧ retryCount + 1 = attempt.number
          ∧ (attempt.number < maximum → attempt.number < 63 ∧ superseded jobId s.jobs = false))
    : ∃ row', Counts jobId maxRetries s (w.step s).1 (.worker w) row row' := by
  cases hphase : w.phase with
  | idle =>
    cases hrounds : w.rounds with
    | nil =>
      have hstep : (w.step s).1 = s := by simp [Worker.step, hphase, hrounds]
      rw [hstep]
      have hnone : finishes jobId s (.worker w) = none := by simp [finishes, hphase]
      exact ⟨row, .of_none hrow hcounted hnone rfl⟩
    | cons round rounds => exact counts_of_poll hphase hrounds hrow hcounted
  | running attempt result =>
    have hnone : finishes jobId s (.worker w) = none := by simp [finishes, hphase]
    cases result with
    | ok _ =>
      have hstep : (w.step s).1 = { s with jobs := complete s.now attempt.jobId s.jobs } := by
        simp [Worker.step, hphase]
      rw [hstep]
      exact counts_of_complete s attempt.jobId hnone hrow hcounted
    | error errorMessage =>
      have hstep : (w.step s).1 = s := by
        unfold Worker.step
        simp only [hphase]
        cases retryState attempt.jobId s.jobs with
        | none => rfl
        | some counts => rfl
      rw [hstep]
      exact ⟨row, .of_none hrow hcounted hnone rfl⟩
  | failing attempt errorMessage retryCount maximum =>
    by_cases hjob : attempt.jobId = jobId
    . have hfailing : (Client.worker w).failing = some (attempt, retryCount, maximum) := by
        simp [Client.failing, hphase]
      obtain ⟨hnumber, hretry, hleft⟩ := hin attempt retryCount maximum hfailing hjob
      obtain ⟨rfl, hnonneg⟩ := hread attempt retryCount maximum hfailing hjob
      exact counts_of_failWrite hphase hrow hcounted hnumber hretry hleft hjob hnonneg
    . exact counts_of_failWrite_of_ne hphase hrow hcounted hjob

theorem counts_of_step (hrow : c.shared.jobs.find? jobId = some row)
    (hcounted : Counted maxRetries (c.shared.started jobId) row)
    (hread : HasRead jobId maxRetries (c.clients i)) (hin : FailsInTime jobId c i)
    : ∃ row', Counts jobId maxRetries c.shared (fire Client.step c i).shared (c.clients i) row row' := by
  unfold fire
  simp only
  unfold FailsInTime at hin
  cases hclient : c.clients i with
  | worker w =>
    rw [hclient] at hread
    apply counts_of_worker hrow hcounted hread
    rw [hclient] at hin
    exact hin
  | sweeper reset => exact counts_of_sweep c.shared reset hrow hcounted
  | canceller cancelled => exact counts_of_cancel c.shared cancelled hrow hcounted
  | clock elapsed => exact ⟨row, .of_none hrow hcounted rfl rfl⟩

theorem holding_of_failing {retryCount maximum : Int}
    (h : client.failing = some (attempt, retryCount, maximum)) : client.holding = some attempt := by
  cases client with
  | worker w =>
    simp only [Client.failing] at h
    simp only [Client.holding, Worker.holding]
    split at h
    . next hphase =>
      rw [Option.some.injEq, Prod.mk.injEq] at h
      rw [hphase, ← h.1]
    . cases h
    . cases h
  | sweeper | canceller | clock => cases h

theorem hasRead_worker_step {w : Worker}
    (hrow : s.jobs.find? jobId = some row) (hcounted : Counted maxRetries (s.started jobId) row)
    : HasRead jobId maxRetries (.worker (w.step s).2) := by
  intro attempt retryCount maximum hfailing hjob
  unfold Worker.step at hfailing
  cases hphase : w.phase with
  | idle =>
    cases hrounds : w.rounds with
    | nil => simp [hphase, hrounds, Client.failing] at hfailing
    | cons round rounds =>
      simp only [hphase, hrounds] at hfailing
      split at hfailing
      . cases hfailing
      . cases hfailing
  | running current result =>
    cases result with
    | ok _ =>
      simp only [hphase] at hfailing
      cases hfailing
    | error message =>
      simp only [hphase] at hfailing
      cases hread : retryState current.jobId s.jobs with
      | none =>
        simp only [hread] at hfailing
        cases hfailing
      | some counts =>
        simp only [hread] at hfailing
        cases hfailing
        rw [hjob, retryState, hrow, Option.map_some, Option.some.injEq, Prod.mk.injEq] at hread
        rw [← hread.1, ← hread.2]
        exact ⟨hcounted.maxRetries_eq, hcounted.nonneg⟩
  | failing current message read maximum' =>
    simp only [hphase] at hfailing
    cases hfailing

theorem hasRead_step (client : Client)
    (hrow : s.jobs.find? jobId = some row) (hcounted : Counted maxRetries (s.started jobId) row)
    : HasRead jobId maxRetries (client.step s).2 := by
  cases client with
  | worker w => exact hasRead_worker_step hrow hcounted
  | sweeper reset =>
    cases reset with
    | true => exact fun _ _ _ hfailing => by cases hfailing
    | false => exact fun _ _ _ hfailing => by cases hfailing
  | canceller | clock => exact fun _ _ _ hfailing => by cases hfailing

/--
The row of the job counts the attempts that have ended without success, each of them once.
-/
structure Tallied (jobId : Uuid) (maxRetries : Int) (ended : List Attempt) (c : Config State Client ι)
    : Prop where
  row : ∃ row, c.shared.jobs.find? jobId = some row
    ∧ Counted maxRetries (c.shared.started jobId) row ∧ Ledger jobId row.retryCount ended
  reads : ∀ i, HasRead jobId maxRetries (c.clients i)

theorem Ledger.append {ended : List Attempt} (h : Ledger jobId row.retryCount ended)
    {s' : State} (hcounts : Counts jobId maxRetries s s' client row row')
    : Ledger jobId row'.retryCount (ended ++ (finishes jobId s client).toList) := by
  cases hfinish : finishes jobId s client with
  | none =>
    rw [hcounts.keeps hfinish, Option.toList_none, List.append_nil]
    exact h
  | some last =>
    obtain ⟨hjob, hfirst, hretry, hcount⟩ := hcounts.finishes last hfinish
    intro attempt
    rw [List.mem_append, h attempt, Option.toList_some, List.mem_singleton, hretry]
    constructor
    . rintro (⟨hid, hone, hle⟩ | rfl)
      . exact ⟨hid, hone, by omega⟩
      . exact ⟨hjob, hfirst, Int.le_refl _⟩
    . rintro ⟨hid, hone, hle⟩
      by_cases hlast : attempt.number = last.number
      . right
        apply Attempt.ext
        . rw [hid, hjob]
        . exact hlast
      . left
        exact ⟨hid, hone, by omega⟩

theorem Tallied.fire {ended : List Attempt} (h : Tallied jobId maxRetries ended c)
    (hin : FailsInTime jobId c i)
    : Tallied jobId maxRetries (ended ++ (finishes jobId c.shared (c.clients i)).toList)
        (fire Client.step c i) := by
  obtain ⟨⟨row, hrow, hcounted, hledger⟩, hreads⟩ := h
  obtain ⟨row', hcounts⟩ := counts_of_step hrow hcounted (hreads i) hin
  constructor
  . exact ⟨row', hcounts.stored, hcounts.counted, hledger.append hcounts⟩
  . intro j
    by_cases hj : j = i
    . subst hj
      rw [fire_clients_self]
      exact hasRead_step (c.clients j) hrow hcounted
    . rw [fire_clients_ne Client.step c hj]
      exact hreads j

theorem Tallied.run {ended : List Attempt} (h : Tallied jobId maxRetries ended c) {schedule : List ι}
    (hin : Along Client.step (FailsInTime jobId) c schedule)
    : Tallied jobId maxRetries (ended ++ finished jobId c schedule) (run Client.step c schedule) := by
  induction schedule generalizing c ended with
  | nil =>
    rw [finished, List.append_nil]
    exact h
  | cons i schedule ih =>
    rw [finished, ← List.append_assoc]
    exact ih (h.fire hin.1) hin.2

omit [DecidableEq ι] in
theorem Enqueued.tallied (h : Enqueued jobId row c) : Tallied jobId row.maxRetries [] c := by
  constructor
  . refine ⟨row, h.stored, ?_, ?_⟩
    . have hretry := h.retryCount
      rw [h.started]
      constructor
      . rfl
      . omega
      . rw [hretry]
        exact Int.le_refl 0
      . rw [hretry]
        exact Int.le_of_lt Int.zero_lt_one
      . intro _
        exact ⟨hretry, .inl rfl⟩
      . intro hrunning
        rw [h.pending] at hrunning
        simp at hrunning
      . show (0 : Int) ≤ max 1 row.maxRetries
        omega
    . intro attempt
      rw [h.retryCount]
      simp only [List.not_mem_nil, false_iff]
      omega
  . intro i attempt retryCount maximum hfailing hjob
    exact absurd hjob (h.holding i attempt (holding_of_failing hfailing))

omit [DecidableEq ι] in
theorem FailsInTime.backoffFits (h : FailsInTime jobId c i) : BackoffFits jobId c i := by
  intro attempt retryCount maxRetries hfailing hjob hretries
  obtain ⟨_, hread, hleft⟩ := h attempt retryCount maxRetries hfailing hjob
  have hfew := (hleft (by omega)).1
  unfold backoffSeconds
  rw [if_pos (by omega)]
  rfl

/--
A job of any number of retries, in every run of workers, sweepers and whoever cancels jobs whose
failures are reported in time: the job is not handed out more often than its maximum, each attempt that
has ended without success has raised its retry count by one, and no backoff overflows.
-/
theorem attempts_bounded_of_fails_in_time (jobId : Uuid) (row : JobRow) (c : Config State Client ι)
    (h : Enqueued jobId row c) (schedule : List ι)
    (hin : Along Client.step (FailsInTime jobId) c schedule)
    : (run Client.step c schedule).shared.started jobId ≤ max 1 row.maxRetries
        ∧ (∃ row', (run Client.step c schedule).shared.jobs.find? jobId = some row'
          ∧ row'.retryCount = (finished jobId c schedule).dedup.length)
        ∧ Along Client.step (BackoffFits jobId) c schedule := by
  obtain ⟨row', hrow', hcounted, hledger⟩ := (h.tallied.run hin).row
  rw [List.nil_append] at hledger
  refine ⟨hcounted.number_le, ⟨row', hrow', ?_⟩, ?_⟩
  . exact (hledger.dedup_length hcounted.nonneg).symm
  . exact hin.imp Client.step fun _ _ hin => hin.backoffFits

def failingRounds : List Round := [⟨[], .error "boom"⟩, ⟨[], .error "boom"⟩]

def failingClients : SampleClient → Client
  | .first | .second => .worker ⟨failingRounds, .idle⟩
  | .sweeper => .sweeper true
  | .canceller => .canceller ⟨1⟩
  | .clock => .clock 301000000000

def sampleRow : JobRow := {
  id := ⟨1⟩
  jobType := "parse_gpx"
  payload := .null
  status := "pending"
  priority := 0
  maxRetries := 3
  retryCount := 0
  errorMessage := none
  scheduledAt := 0
  startedAt := none
  completedAt := none
  failedAt := none
  createdAt := 0
  updatedAt := 0
  correlationId := none
  timeoutSeconds := 300
}

theorem enqueued_sampleRow : Enqueued ⟨1⟩ sampleRow ⟨sampleQueue, failingClients⟩ where
  stored := rfl
  pending := rfl
  retryCount := rfl
  started := rfl
  holding := by
    intro i attempt h
    cases i with
    | first | second | sweeper | canceller | clock => cases h

omit [DecidableEq ι] in
theorem failsInTime_of_failing_eq_none (h : (c.clients i).failing = none) : FailsInTime jobId c i := by
  intro attempt retryCount maxRetries hfailing
  rw [h] at hfailing
  cases hfailing

theorem attempts_bounded_of_fails_in_time_failingClients
    : Along Client.step (FailsInTime ⟨1⟩) ⟨sampleQueue, failingClients⟩ [.first, .first, .first]
        ∧ (run Client.step ⟨sampleQueue, failingClients⟩ [.first, .first, .first]).shared.started ⟨1⟩
          ≤ max 1 sampleRow.maxRetries := by
  have hin : Along Client.step (FailsInTime ⟨1⟩) ⟨sampleQueue, failingClients⟩
      [.first, .first, .first] := by
    refine ⟨?_, ?_, ?_, trivial⟩
    . exact failsInTime_of_failing_eq_none rfl
    . exact failsInTime_of_failing_eq_none (by decide)
    . intro attempt retryCount maxRetries hfailing _
      have hread : (some (⟨⟨1⟩, 1⟩, 0, 3) : Option (Attempt × Int × Int))
          = some (attempt, retryCount, maxRetries) := hfailing
      cases hread
      exact ⟨by decide, rfl, fun _ => by decide⟩
  exact ⟨hin, (attempts_bounded_of_fails_in_time ⟨1⟩ sampleRow _ enqueued_sampleRow _ hin).1⟩

def sampleRetryCount (schedule : List SampleClient) : Option Int :=
  ((run Client.step ⟨sampleQueue, failingClients⟩ schedule).shared.jobs.find? ⟨1⟩).map (·.retryCount)

/--
A job of three retries is handed out a fourth time if a worker that has read the retry count writes it
after a sweep and the next attempt, and a timed out attempt that fails as well counts twice.
-/
theorem lost_retries
    : Enqueued ⟨1⟩ sampleRow ⟨sampleQueue, failingClients⟩
        ∧ ¬(run Client.step ⟨sampleQueue, failingClients⟩
          [.first, .clock, .first, .sweeper, .second, .first, .clock, .first, .second, .second, .clock,
            .second]).shared.started ⟨1⟩ ≤ max 1 sampleRow.maxRetries
        ∧ sampleRetryCount [.first, .clock, .sweeper, .first, .first] = some 2
        ∧ (finished ⟨1⟩ ⟨sampleQueue, failingClients⟩
          [.first, .clock, .sweeper, .first, .first]).dedup.length = 1 := by
  refine ⟨enqueued_sampleRow, ?_, ?_, ?_⟩
  . decide
  . decide
  . decide

end JobQueue
