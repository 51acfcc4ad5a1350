import Haiker.Jobs.Workers

/-!
This module contains when the outcome of a job stays what it is. `complete` and `fail` ask neither for
the status of the job nor for the attempt they report on.
-/

open Interleaving

namespace JobQueue

variable {ι : Type} [DecidableEq ι]

def Terminal (status : String) : Prop :=
  status = "completed" ∨ status = "failed" ∨ status = "cancelled"

section Job

variable (jobId : Uuid)

-- client `i` is about to report on an attempt that it has lost, and the job has been handed out again
def ReportsLate (c : Config State Client ι) (i : ι) : Prop :=
  ∃ attempt status, (c.clients i).reporting c.shared = some (attempt, status) ∧ attempt.jobId = jobId
    ∧ attempt ∈ c.shared.revoked ∧ attempt.number < c.shared.started jobId

-- the step of client `i` keeps a final status, and as a late report any status
def KeepsOutcome (c : Config State Client ι) (i : ι) : Prop :=
  ∀ status, c.shared.status jobId = some status → Terminal status ∨ ReportsLate jobId c i →
    (fire Client.step c i).shared.status jobId = some status

-- what client `i` reports on a finished or newer attempt is the status that the job has
def ReportsInTime (c : Config State Client ι) (i : ι) : Prop :=
  ∀ attempt written status, (c.clients i).reporting c.shared = some (attempt, written) →
    attempt.jobId = jobId → c.shared.status jobId = some status →
      Terminal status ∨ attempt.number < c.shared.started jobId → written = status

-- an attempt that has not been taken away is the current one, and nobody else has it
structure Steady (c : Config State Client ι) : Prop where
  number_le : ∀ i attempt, (c.clients i).holding = some attempt → attempt.jobId = jobId →
    attempt.number ≤ c.shared.started jobId
  current : ∀ i attempt, (c.clients i).holding = some attempt → attempt.jobId = jobId →
    attempt ∉ c.shared.revoked →
      c.shared.status jobId = some "running" ∧ attempt.number = c.shared.started jobId
  unshared : ∀ i j attempt, (c.clients i).holding = some attempt →
    (c.clients j).holding = some attempt → attempt.jobId = jobId → i = j

end Job

variable {s : State} {client : Client} {jobId : Uuid} {attempt : Attempt} {status : String}
  {c : Config State Client ι} {i : ι}

theorem Worker.holding_of_reporting {w : Worker} (h : w.reporting s = some (attempt, status))
    : w.holding = some attempt := by
  unfold reporting at h
  unfold holding
  cases hphase : w.phase with
  | idle => simp [hphase] at h
  | running other result =>
    cases result with
    | error message => simp [hphase] at h
    | ok _ =>
      simp only [hphase, Option.some.injEq, Prod.mk.injEq] at h
      simp only [h.1]
  | failing other message retryCount maxRetries =>
    simp only [hphase] at h
    split at h
    . split at h
      . cases h
      . rw [Option.map_eq_some_iff] at h
        obtain ⟨_, _, h⟩ := h
        rw [Prod.mk.injEq] at h
        simp only [h.1]
    . rw [Option.some.injEq, Prod.mk.injEq] at h
      simp only [h.1]

theorem holding_of_reporting (h : client.reporting s = some (attempt, status))
    : client.holding = some attempt := by
  cases client with
  | worker w => exact Worker.holding_of_reporting h
  | sweeper | canceller | clock => cases h

/-
What a statement can do to the job.
-/

-- it leaves the job as it is, or takes it away from whoever is at it
structure Passes (jobId : Uuid) (s s' : State) : Prop where
  started : s'.started jobId = s.started jobId
  revoked : s.revoked ⊆ s'.revoked
  status : s'.status jobId = s.status jobId
    ∨ s.status jobId = some "pending"
    ∨ s.status jobId = some "running" ∧ ⟨jobId, s.started jobId⟩ ∈ s'.revoked

-- a worker takes the job up
structure Takes (jobId : Uuid) (s s' : State) (client' : Client) : Prop where
  pending : s.status jobId = some "pending"
  status : s'.status jobId = some "running"
  started : s'.started jobId = s.started jobId + 1
  revoked : s'.revoked = s.revoked
  holding : client'.holding = some ⟨jobId, s.started jobId + 1⟩

-- a worker reports on the job
structure Reports (jobId : Uuid) (s s' : State) (client client' : Client) (attempt : Attempt)
    (status : String) : Prop where
  reporting : client.reporting s = some (attempt, status)
  jobId_eq : attempt.jobId = jobId
  status : ∀ before, s.status jobId = some before → s'.status jobId = some status
  started : s'.started jobId = s.started jobId
  revoked : s'.revoked = s.revoked
  holding : client'.holding = none

theorem Passes.refl (jobId : Uuid) (s : State) : Passes jobId s s where
  started := rfl
  revoked := List.Subset.refl _
  status := .inl rfl

theorem status_updateWhere (s : State) {p : JobRow → Bool} {f : JobRow → JobRow}
    {hf : ∀ row, (f row).id = row.id} (k : Uuid)
    : ({ s with jobs := s.jobs.updateWhere p f hf } : State).status k
        = (s.jobs.find? k).map fun row => if p row then (f row).status else row.status := by
  unfold State.status
  rw [Sql.Table.find?_updateWhere, Option.map_map]
  congr
  funext row
  simp only [Function.comp]
  split
  . rfl
  . rfl

theorem passes_revoke (s : State) {p : JobRow → Bool} {f : JobRow → JobRow}
    {hf : ∀ row, (f row).id = row.id}
    (hguard : ∀ row, p row = true → row.status = "pending" ∨ row.status = "running")
    : Passes jobId s (s.revoke (s.jobs.updateWhere p f hf)) where
  started := rfl
  revoked := List.subset_append_right _ _
  status := by
    have hstatus : (s.revoke (s.jobs.updateWhere p f hf)).status jobId
        = (s.jobs.find? jobId).map fun row => if p row then (f row).status else row.status :=
      status_updateWhere s jobId
    cases hrow : s.jobs.find? jobId with
    | none =>
      left
      rw [hstatus, State.status, hrow, Option.map_none, Option.map_none]
    | some row =>
      have hbefore : s.status jobId = some row.status := by
        rw [State.status, hrow, Option.map_some]
      have hid : row.id = jobId := Sql.Table.key_of_find? hrow
      rw [hrow, Option.map_some] at hstatus
      rw [hstatus, hbefore]
      by_cases hp : p row = true
      . rw [if_pos hp]
        rcases hguard row hp with hpending | hrunning
        . rw [hpending]
          exact .inr (.inl rfl)
        . by_cases hsame : (f row).status = "running"
          . rw [hsame, hrunning]
            exact .inl rfl
          . right
            right
            refine ⟨by rw [hrunning], ?_⟩
            apply List.mem_append_left
            apply List.mem_map.mpr
            refine ⟨row, ?_, by rw [hid]⟩
            apply List.mem_filter.mpr
            refine ⟨Sql.Table.mem_of_find? hrow, ?_⟩
            rw [hid, Sql.Table.find?_updateWhere, hrow]
            simp [hrunning, hp, hsame]
      . rw [if_neg hp]
        exact .inl rfl

theorem status_of_timedOut {now : Timestamp} {row : JobRow} (h : timedOut now row = true)
    : row.status = "running" := by
  unfold timedOut at h
  cases hstarted : row.startedAt with
  | none => simp [hstarted] at h
  | some startedAt =>
    simp only [hstarted, decide_eq_true_eq] at h
    exact h.1

theorem passes_timeoutReset (s : State) : Passes jobId s (s.revoke (timeoutReset s.now s.jobs)) := by
  apply passes_revoke
  intro row h
  rw [decide_eq_true_eq] at h
  exact .inr (status_of_timedOut h.1)

theorem passes_timeoutFail (s : State) : Passes jobId s (s.revoke (timeoutFail s.now s.jobs)) := by
  apply passes_revoke
  intro row h
  rw [decide_eq_true_eq] at h
  exact .inr (status_of_timedOut h.1)

theorem passes_cancel (s : State) (cancelled : Uuid)
    : Passes jobId s (s.revoke (cancel s.now cancelled s.jobs)) := by
  apply passes_revoke
  intro row h
  rw [decide_eq_true_eq] at h
  exact h.2

theorem passes_clock (s : State) (elapsed : Nat) : Passes jobId s { s with now := s.now + elapsed } where
  started := rfl
  revoked := List.Subset.refl _
  status := .inl rfl

theorem reports_of_reporting (s : State) {w : Worker} (h : w.reporting s = some (attempt, status))
    (hjob : attempt.jobId = jobId)
    : Reports jobId s (w.step s).1 (.worker w) (.worker (w.step s).2) attempt status := by
  obtain ⟨hstatus, hstarted, hrevoked, hholding⟩ := step_of_reporting s h
  refine ⟨h, hjob, ?_, by rw [hstarted], hrevoked, hholding⟩
  intro before hbefore
  rw [hstatus, if_pos hjob.symm, hbefore, Option.map_some]

theorem passes_of_reporting (s : State) {w : Worker} (h : w.reporting s = some (attempt, status))
    (hjob : attempt.jobId ≠ jobId)
    : Passes jobId s (w.step s).1 ∧ (w.step s).2.holding = none := by
  obtain ⟨hstatus, hstarted, hrevoked, hholding⟩ := step_of_reporting s h
  refine ⟨⟨by rw [hstarted], ?_, ?_⟩, hholding⟩
  . rw [hrevoked]
    exact List.Subset.refl _
  . rw [hstatus, if_neg hjob.symm]
    exact .inl rfl

theorem step_of_not_reporting (s : State) {w : Worker} (h : w.reporting s = none)
    : ((w.step s).1 = s ∧ ∀ attempt, (w.step s).2.holding = some attempt → w.holding = some attempt)
        ∨ ∃ round rounds, w.phase = .idle ∧ w.rounds = round :: rounds := by
  unfold Worker.reporting at h
  cases hphase : w.phase with
  | idle =>
    cases hrounds : w.rounds with
    | nil =>
      left
      have hstep : w.step s = (s, w) := by simp [Worker.step, hphase, hrounds]
      rw [hstep]
      exact ⟨rfl, fun _ h => h⟩
    | cons round rounds => exact .inr ⟨round, rounds, rfl, rfl⟩
  | running attempt result =>
    left
    cases result with
    | ok _ => simp [hphase] at h
    | error message =>
      unfold Worker.step Worker.holding
      simp only [hphase]
      cases retryState attempt.jobId s.jobs with
      | none => simp
      | some counts => simp
  | failing attempt message retryCount maxRetries =>
    left
    simp only [hphase] at h
    unfold Worker.step Worker.holding
    simp only [hphase, failWrite]
    split at h
    . next hretries =>
      split at h
      . next hsuperseded =>
        simp only [hretries, hsuperseded, if_true]
        cases backoffSeconds (retryCount + 1) with
        | none => simp
        | some backoff => simp
      . rw [Option.map_eq_none_iff] at h
        simp [hretries, h]
    . cases h

theorem worker_step_of_poll (s : State) {w : Worker} {round : Round} {rounds : List Round}
    (hidle : w.phase = .idle) (hrounds : w.rounds = round :: rounds)
    : (w.step s).1 = s ∧ (w.step s).2.holding = none
      ∨ ∃ row, s.jobs.find? row.id = some row ∧ row.status = "pending"
        ∧ (∀ k, (w.step s).1.status k = if k = row.id then some "running" else s.status k)
        ∧ (w.step s).1.started
            = Function.update s.started row.id (s.started row.id + 1)
        ∧ (w.step s).1.revoked = s.revoked
        ∧ (w.step s).2.holding = some ⟨row.id, s.started row.id + 1⟩ := by
  unfold Worker.step
  simp only [hidle, hrounds, poll]
  cases hnext : nextPending s.now round.locked s.jobs with
  | none => exact .inl ⟨rfl, rfl⟩
  | some row =>
    right
    obtain ⟨hrow, hpending, _⟩ := nextPending_eq_some hnext
    refine ⟨row, hrow, hpending, ?_, rfl, rfl, rfl⟩
    intro k
    have hrunning : ∀ row, (setRunning s.now row).status = "running" := fun _ => rfl
    have hstatus : ({ s with jobs := updateJob row.id (setRunning s.now) (fun _ => rfl) s.jobs } : State).status k
        = if k = row.id then (s.status k).map fun _ => "running" else s.status k :=
      status_updateJob s hrunning k
    have hkeep : (if k = row.id then some "running" else s.status k)
        = if k = row.id then (s.status k).map fun _ => "running" else s.status k := by
      split
      . next hk => rw [State.status, hk, hrow, Option.map_some, Option.map_some]
      . rfl
    rw [hkeep, ← hstatus]
    rfl

/--
A worker that is not about to report on the job takes it up, or leaves it as it is and gets no attempt
at it.
-/
theorem worker_step_cases (s : State) (w : Worker)
    (h : ∀ attempt status, w.reporting s = some (attempt, status) → attempt.jobId ≠ jobId)
    : Takes jobId s (w.step s).1 (.worker (w.step s).2)
      ∨ Passes jobId s (w.step s).1
        ∧ ∀ attempt, (w.step s).2.holding = some attempt → attempt.jobId = jobId →
          w.holding = some attempt := by
  cases hreport : w.reporting s with
  | some report =>
    obtain ⟨attempt, status⟩ := report
    obtain ⟨hpasses, hholding⟩ := passes_of_reporting s hreport (h attempt status hreport)
    refine .inr ⟨hpasses, ?_⟩
    rw [hholding]
    intro attempt hattempt
    cases hattempt
  | none =>
    rcases step_of_not_reporting s hreport with ⟨hsame, hholding⟩ | ⟨round, rounds, hidle, hrounds⟩
    . rw [hsame]
      exact .inr ⟨.refl jobId s, fun attempt h _ => hholding attempt h⟩
    . rcases worker_step_of_poll s hidle hrounds with
        ⟨hsame, hholding⟩ | ⟨row, hrow, hpending, hstatus, hstarted, hrevoked, hholding⟩
      . rw [hsame, hholding]
        refine .inr ⟨.refl jobId s, ?_⟩
        intro attempt hattempt
        cases hattempt
      . by_cases hjob : row.id = jobId
        . left
          rw [hjob] at hrow hstatus hstarted hholding
          refine ⟨?_, ?_, ?_, hrevoked, hholding⟩
          . rw [State.status, hrow, Option.map_some, hpending]
          . rw [hstatus, if_pos rfl]
          . rw [hstarted, Function.update_self]
        . right
          refine ⟨⟨?_, ?_, ?_⟩, ?_⟩
          . rw [hstarted, Function.update_of_ne (Ne.symm hjob)]
          . rw [hrevoked]
            exact List.Subset.refl _
          . rw [hstatus, if_neg (Ne.symm hjob)]
            exact .inl rfl
          . rw [hholding]
            intro attempt hattempt hid
            rw [Option.some.injEq] at hattempt
            rw [← hattempt] at hid
            exact absurd hid hjob

theorem step_cases (s : State) (client : Client)
    (h : ∀ attempt status, client.reporting s = some (attempt, status) → attempt.jobId ≠ jobId)
    : Takes jobId s (client.step s).1 (client.step s).2
      ∨ Passes jobId s (client.step s).1
        ∧ ∀ attempt, (client.step s).2.holding = some attempt → attempt.jobId = jobId →
          client.holding = some attempt := by
  cases client with
  | worker w => exact worker_step_cases s w h
  | sweeper reset =>
    right
    cases reset with
    | true => exact ⟨passes_timeoutReset s, fun _ hattempt => by cases hattempt⟩
    | false => exact ⟨passes_timeoutFail s, fun _ hattempt => by cases hattempt⟩
  | canceller cancelled => exact .inr ⟨passes_cancel s cancelled, fun _ hattempt => by cases hattempt⟩
  | clock elapsed => exact .inr ⟨passes_clock s elapsed, fun _ hattempt => by cases hattempt⟩

theorem reports_of_client (s : State) (h : client.reporting s = some (attempt, status))
    (hjob : attempt.jobId = jobId)
    : Reports jobId s (client.step s).1 client (client.step s).2 attempt status := by
  cases client with
  | worker w => exact reports_of_reporting s h hjob
  | sweeper | canceller | clock => cases h

theorem Passes.status_of_terminal {s' : State} (h : Passes jobId s s')
    (hstatus : s.status jobId = some status) (hterminal : Terminal status)
    : s'.status jobId = some status := by
  rcases h.status with hsame | hpending | ⟨hrunning, _⟩
  . rw [hsame, hstatus]
  . rw [hstatus, Option.some.injEq] at hpending
    rw [hpending] at hterminal
    simp [Terminal] at hterminal
  . rw [hstatus, Option.some.injEq] at hrunning
    rw [hrunning] at hterminal
    simp [Terminal] at hterminal

/--
Only reports can break the outcome of a job, and they do exactly if they write another one.
-/
theorem keepsOutcome_iff (h : Steady jobId c) : KeepsOutcome jobId c i ↔ ReportsInTime jobId c i := by
  by_cases hreport : ∃ attempt status, (c.clients i).reporting c.shared = some (attempt, status)
      ∧ attempt.jobId = jobId
  . obtain ⟨attempt, written, hreporting, hjob⟩ := hreport
    have hreports := reports_of_client c.shared hreporting hjob
    constructor
    . intro hkeeps attempt' written' status hreporting' _ hstatus hlate
      rw [hreporting, Option.some.injEq, Prod.mk.injEq] at hreporting'
      obtain ⟨rfl, rfl⟩ := hreporting'
      have hafter : (fire Client.step c i).shared.status jobId = some status := by
        apply hkeeps status hstatus
        rcases hlate with hterminal | hnewer
        . exact .inl hterminal
        . right
          refine ⟨attempt, written, hreporting, hjob, ?_, hnewer⟩
          by_contra hrevoked
          have hcurrent := h.current i attempt (holding_of_reporting hreporting) hjob hrevoked
          omega
      have hwritten := hreports.status status hstatus
      rw [← Option.some.injEq, ← hwritten, ← hafter]
      rfl
    . intro hin status hstatus hlate
      have hwritten : written = status := by
        apply hin attempt written status hreporting hjob hstatus
        rcases hlate with hterminal | ⟨other, status', hreporting', _, _, hnewer⟩
        . exact .inl hterminal
        . rw [hreporting, Option.some.injEq, Prod.mk.injEq] at hreporting'
          rw [hreporting'.1]
          exact .inr hnewer
      rw [← hwritten]
      exact hreports.status status hstatus
  . have hother : ∀ attempt status, (c.clients i).reporting c.shared = some (attempt, status) →
        attempt.jobId ≠ jobId := by
      intro attempt status hreporting hjob
      exact hreport ⟨attempt, status, hreporting, hjob⟩
    constructor
    . intro _ attempt written _ hreporting hjob
      exact absurd hjob (hother attempt written hreporting)
    . intro _ status hstatus hlate
      rcases hlate with hterminal | ⟨attempt, written, hreporting, hjob, _⟩
      . rcases step_cases c.shared (c.clients i) hother with htakes | ⟨hpasses, _⟩
        . have hpending := htakes.pending
          rw [hstatus, Option.some.injEq] at hpending
          rw [hpending] at hterminal
          simp [Terminal] at hterminal
        . exact hpasses.status_of_terminal hstatus hterminal
      . exact absurd hjob (hother attempt written hreporting)

theorem Steady.takes (h : Steady jobId c)
    (htakes : Takes jobId c.shared (fire Client.step c i).shared ((fire Client.step c i).clients i))
    : Steady jobId (fire Client.step c i) := by
  have hlost : ∀ j attempt, (c.clients j).holding = some attempt → attempt.jobId = jobId →
      attempt ∈ (fire Client.step c i).shared.revoked := by
    intro j attempt hattempt hjob
    rw [htakes.revoked]
    by_contra hrevoked
    have hrunning := (h.current j attempt hattempt hjob hrevoked).1
    rw [htakes.pending] at hrunning
    simp at hrunning
  constructor
  . intro j attempt hattempt hjob
    rw [htakes.started]
    by_cases hj : j = i
    . subst hj
      rw [htakes.holding, Option.some.injEq] at hattempt
      rw [← hattempt]
    . rw [fire_clients_ne Client.step c hj] at hattempt
      exact Nat.le_succ_of_le (h.number_le j attempt hattempt hjob)
  . intro j attempt hattempt hjob hrevoked
    by_cases hj : j = i
    . subst hj
      rw [htakes.holding, Option.some.injEq] at hattempt
      rw [← hattempt, htakes.started]
      exact ⟨htakes.status, rfl⟩
    . rw [fire_clients_ne Client.step c hj] at hattempt
      exact absurd (hlost j attempt hattempt hjob) hrevoked
  . have hnew : ∀ j, j ≠ i → (c.clients j).holding ≠ some ⟨jobId, c.shared.started jobId + 1⟩ := by
      intro j _ hattempt
      have hle := h.number_le j _ hattempt rfl
      exact absurd hle (Nat.not_succ_le_self _)
    intro j k attempt hattempt hattempt' hjob
    by_cases hj : j = i
    . subst hj
      rw [htakes.holding, Option.some.injEq] at hattempt
      by_contra hk
      rw [fire_clients_ne Client.step c (Ne.symm hk), ← hattempt] at hattempt'
      exact hnew k (Ne.symm hk) hattempt'
    . rw [fire_clients_ne Client.step c hj] at hattempt
      by_cases hk : k = i
      . subst hk
        rw [htakes.holding, Option.some.injEq] at hattempt'
        rw [← hattempt'] at hattempt
        exact absurd hattempt (hnew j hj)
      . rw [fire_clients_ne Client.step c hk] at hattempt'
        exact h.unshared j k attempt hattempt hattempt' hjob

/--
If nobody gets an attempt and whoever is at the job stays at it, or has it taken away, the queue stays
steady.
-/
theorem Steady.of_holding (h : Steady jobId c)
    (hholding : ∀ j attempt, ((fire Client.step c i).clients j).holding = some attempt →
      attempt.jobId = jobId → (c.clients j).holding = some attempt)
    (hstarted : (fire Client.step c i).shared.started jobId = c.shared.started jobId)
    (hstatus : ∀ j attempt, ((fire Client.step c i).clients j).holding = some attempt →
      attempt.jobId = jobId → attempt ∉ (fire Client.step c i).shared.revoked →
        attempt ∉ c.shared.revoked ∧ (c.shared.status jobId = some "running" →
          attempt.number = c.shared.started jobId →
            (fire Client.step c i).shared.status jobId = some "running"))
    : Steady jobId (fire Client.step c i) := by
  constructor
  . intro j attempt hattempt hjob
    rw [hstarted]
    exact h.number_le j attempt (hholding j attempt hattempt hjob) hjob
  . intro j attempt hattempt hjob hrevoked
    obtain ⟨hbefore, hkeeps⟩ := hstatus j attempt hattempt hjob hrevoked
    obtain ⟨hrunning, hnumber⟩ := h.current j attempt (hholding j attempt hattempt hjob) hjob hbefore
    rw [hstarted]
    exact ⟨hkeeps hrunning hnumber, hnumber⟩
  . intro j k attempt hattempt hattempt' hjob
    exact h.unshared j k attempt (hholding j attempt hattempt hjob) (hholding k attempt hattempt' hjob)
      hjob

theorem Steady.fire (h : Steady jobId c) (hkeeps : KeepsOutcome jobId c i)
    : Steady jobId (fire Client.step c i) := by
  by_cases hreport : ∃ attempt status, (c.clients i).reporting c.shared = some (attempt, status)
      ∧ attempt.jobId = jobId
  . obtain ⟨attempt, written, hreporting, hjob⟩ := hreport
    have hreports := reports_of_client c.shared hreporting hjob
    have hnone : ((Interleaving.fire Client.step c i).clients i).holding = none := by
      rw [fire_clients_self]
      exact hreports.holding
    have hne : ∀ j other, ((Interleaving.fire Client.step c i).clients j).holding = some other →
        j ≠ i := by
      rintro j other hother rfl
      rw [hnone] at hother
      cases hother
    have hholding : ∀ j other, ((Interleaving.fire Client.step c i).clients j).holding = some other →
        (c.clients j).holding = some other := by
      intro j other hother
      rw [fire_clients_ne Client.step c (hne j other hother)] at hother
      exact hother
    apply h.of_holding (fun j other hother _ => hholding j other hother) hreports.started
    intro j other hother hid hrevoked
    have hkept : (Interleaving.fire Client.step c i).shared.revoked = c.shared.revoked :=
      hreports.revoked
    rw [hkept] at hrevoked
    refine ⟨hrevoked, ?_⟩
    intro hrunning hnumber
    -- the report is on another attempt than the current one
    apply hkeeps "running" hrunning
    right
    have hlate : attempt.number ≠ c.shared.started jobId := by
      intro hsame
      apply hne j other hother
      apply h.unshared j i other (hholding j other hother) _ hid
      have hattempt : attempt = other := by
        apply Attempt.ext
        . rw [hjob, hid]
        . rw [hsame, hnumber]
      rw [holding_of_reporting hreporting, hattempt]
    have hheld := holding_of_reporting hreporting
    have hle := h.number_le i attempt hheld hjob
    refine ⟨attempt, written, hreporting, hjob, ?_, by omega⟩
    by_contra hcurrent
    exact hlate (h.current i attempt hheld hjob hcurrent).2
  . have hother : ∀ attempt status, (c.clients i).reporting c.shared = some (attempt, status) →
        attempt.jobId ≠ jobId := by
      intro attempt status hreporting hjob
      exact hreport ⟨attempt, status, hreporting, hjob⟩
    rcases step_cases c.shared (c.clients i) hother with htakes | ⟨hpasses, hstays⟩
    . apply h.takes
      rw [fire_clients_self]
      exact htakes
    . have hholding : ∀ j attempt, ((Interleaving.fire Client.step c i).clients j).holding = some attempt →
          attempt.jobId = jobId → (c.clients j).holding = some attempt := by
        intro j attempt hattempt hjob
        by_cases hj : j = i
        . subst hj
          rw [fire_clients_self] at hattempt
          exact hstays attempt hattempt hjob
        . rw [fire_clients_ne Client.step c hj] at hattempt
          exact hattempt
      apply h.of_holding hholding hpasses.started
      intro j attempt hattempt hjob hrevoked
      refine ⟨fun hbefore => hrevoked (hpasses.revoked hbefore), ?_⟩
      intro hrunning hnumber
      rcases hpasses.status with hsame | hpending | ⟨_, hlost⟩
      . have hsame : (Interleaving.fire Client.step c i).shared.status jobId
            = c.shared.status jobId := hsame
        rw [hsame, hrunning]
      . rw [hrunning] at hpending
        simp at hpending
      . rw [← hnumber, ← hjob] at hlost
        exact absurd hlost hrevoked

def sampleQueue : State where
  jobs := {
    rows := [{
      id := ⟨1⟩
      jobType := "parse_gpx"
      payload := .null
      status := "pending"
      priority := 0
      maxRetries := 3
      retryCount := 0
      errorMessage := none
      scheduledAt := 0
      startedAt := none
      completedAt := none
      failedAt := none
      createdAt := 0
      updatedAt := 0
      correlationId := none
      timeoutSeconds := 300
    }]
    unique := List.nodup_singleton _
  }
  now := 0
  started := fun _ => 0
  revoked := []

inductive SampleClient where
  | first
  | second
  | sweeper
  | canceller
  | clock
  deriving DecidableEq

def sampleClients : SampleClient → Client
  | .first => .worker ⟨[⟨[], .ok ()⟩], .idle⟩
  | .second => .worker ⟨[⟨[], .ok ()⟩], .idle⟩
  | .sweeper => .sweeper true
  | .canceller => .canceller ⟨1⟩
  | .clock => .clock 301000000000

def sampleStatus (schedule : List SampleClient) : Option String :=
  (run Client.step ⟨sampleQueue, sampleClients⟩ schedule).shared.status ⟨1⟩

end JobQueue
