import Haiker.Jobs.Attempts

/-!
This module contains `enqueue_idempotent`, at work beside everybody else on the job queue. The partial
unique index keeps two active jobs apart, but the last statement of the call does not look whether it
has inserted anything.
-/

open Interleaving

namespace JobQueue

-- the arguments of the call, and the ids that it draws
structure EnqueueCall where
  jobType : String
  payload : Json
  correlationId : Uuid
  id : Uuid
  retryId : Uuid

-- the columns that are not inserted have their defaults
def EnqueueCall.row (call : EnqueueCall) (now : Timestamp) (id : Uuid) : JobRow where
  id
  jobType := call.jobType
  payload := call.payload
  status := "pending"
  priority := 0
  maxRetries := 3
  retryCount := 0
  errorMessage := none
  scheduledAt := now
  startedAt := none
  completedAt := none
  failedAt := none
  createdAt := now
  updatedAt := now
  correlationId := some call.correlationId
  timeoutSeconds := 300

-- `INSERT .. ON CONFLICT .. DO NOTHING` and the rows affected, `none` if the id is taken
def insertIdempotent (row : JobRow) (jobs : JobTable) : Option (JobTable × Nat) :=
  if jobs.clashes idempotentCorrelation row then
    some (jobs, 0)
  else
    (jobs.insert? row).map fun jobs => (jobs, 1)

-- the lookup after a conflict
def activeId (jobType : String) (correlationId : Uuid) (jobs : JobTable) : Option Uuid :=
  (jobs.rows.find? fun row =>
    row.jobType = jobType ∧ row.correlationId = some correlationId ∧ Active row).map (·.id)

-- a call before each of its statements, and after the last one
inductive Enqueuer where
  | inserting (call : EnqueueCall)
  | selecting (call : EnqueueCall) (begun : Nat)
  | retrying (call : EnqueueCall) (begun : Nat)
  | returned (id : Uuid) (begun : Nat)
  | failed

namespace Enqueuer

-- one statement of `enqueue_idempotent`, `begun` being the moment of the first one
def step (moment : Nat) (now : Timestamp) (jobs : JobTable) : Enqueuer → JobTable × Enqueuer
  | .inserting call =>
    match insertIdempotent (call.row now call.id) jobs with
    | some (jobs, 0) => (jobs, .selecting call moment)
    | some (jobs, _) => (jobs, .returned call.id moment)
    | none => (jobs, .failed)
  | .selecting call begun =>
    match activeId call.jobType call.correlationId jobs with
    | some id => (jobs, .returned id begun)
    | none => (jobs, .retrying call begun)
  | .retrying call begun =>
    match insertIdempotent (call.row now call.retryId) jobs with
    | some (jobs, _) => (jobs, .returned call.retryId begun)
    | none => (jobs, .failed)
  | .returned id begun => (jobs, .returned id begun)
  | .failed => (jobs, .failed)

-- the ids that the call may still insert
def ids : Enqueuer → List Uuid
  | .inserting call => [call.id, call.retryId]
  | .selecting call _ | .retrying call _ => [call.retryId]
  | .returned _ _ | .failed => []

end Enqueuer

-- `past` are the tables before the current one, the newest first
structure Timeline where
  queue : State
  past : List JobTable

-- the tables since a moment
def Timeline.since (timeline : Timeline) (begun : Nat) : List JobTable :=
  timeline.queue.jobs :: timeline.past.take (timeline.past.length - begun)

inductive Party where
  | client (client : Client)
  | enqueuer (enqueuer : Enqueuer)

namespace Party

def step (timeline : Timeline) : Party → Timeline × Party
  | .client member =>
    let (queue, member) := member.step timeline.queue
    ({ queue, past := timeline.queue.jobs :: timeline.past }, .client member)
  | .enqueuer member =>
    let (jobs, member) := member.step timeline.past.length timeline.queue.now timeline.queue.jobs
    ({ queue := { timeline.queue with jobs }, past := timeline.queue.jobs :: timeline.past },
      .enqueuer member)

def ids : Party → List Uuid
  | .client _ => []
  | .enqueuer member => member.ids

end Party

def AtMostOneActive (jobs : JobTable) : Prop :=
  ∀ k k' row row' correlationId, jobs.find? k = some row → jobs.find? k' = some row' →
    Active row → Active row' → row.jobType = row'.jobType →
      row.correlationId = some correlationId → row'.correlationId = some correlationId → k = k'

variable {ι : Type} [DecidableEq ι]

/--
If the step of client `i` returns an id, then a job with the id exists, and was active at some moment
since the call has begun.
-/
def ReturnsActive (c : Config Timeline Party ι) (i : ι) : Prop :=
  ∀ id begun, c.clients i ≠ .enqueuer (.returned id begun) →
    (fire Party.step c i).clients i = .enqueuer (.returned id begun) →
      (∃ row, (fire Party.step c i).shared.queue.jobs.find? id = some row)
        ∧ ∃ jobs ∈ (fire Party.step c i).shared.since begun, ∃ row,
          jobs.find? id = some row ∧ Active row

-- if client `i` is about to retry its insertion, then no active job is in its way
def RetryInserts (c : Config Timeline Party ι) (i : ι) : Prop :=
  ∀ call begun, c.clients i = .enqueuer (.retrying call begun) →
    ∀ k row, c.shared.queue.jobs.find? k = some row → Active row → row.jobType = call.jobType →
      row.correlationId ≠ some call.correlationId

-- the ids that are still to be inserted are new, and everybody has others
structure Fresh (c : Config Timeline Party ι) : Prop where
  absent : ∀ i, ∀ id ∈ (c.clients i).ids, c.shared.queue.jobs.find? id = none
  disjoint : ∀ i j, i ≠ j → ∀ id ∈ (c.clients i).ids, id ∉ (c.clients j).ids

variable {s : State} {client : Client} {jobs jobs' : JobTable} {row : JobRow} {call : EnqueueCall}
  {jobType : String} {correlationId k : Uuid} {c : Config Timeline Party ι} {i : ι}

theorem idempotentCorrelation_eq_some_iff
    : idempotentCorrelation row = some (jobType, correlationId)
        ↔ Active row ∧ row.jobType = jobType ∧ row.correlationId = some correlationId := by
  unfold idempotentCorrelation
  split
  . next hactive =>
    rw [Option.map_eq_some_iff]
    constructor
    . rintro ⟨_, hcorrelation, heq⟩
      rw [Prod.mk.injEq] at heq
      exact ⟨hactive, heq.1, by rw [hcorrelation, heq.2]⟩
    . rintro ⟨_, htype, hcorrelation⟩
      exact ⟨correlationId, hcorrelation, by rw [htype]⟩
  . next hended =>
    constructor
    . intro h
      cases h
    . rintro ⟨hactive, _⟩
      exact absurd hactive hended

theorem atMostOneActive_of_indexed (h : jobs.Indexed idempotentCorrelation) : AtMostOneActive jobs := by
  intro k k' row row' correlationId hrow hrow' hactive hactive' htype hcorrelation hcorrelation'
  apply h k k' row row' (row.jobType, correlationId) hrow hrow'
  . exact idempotentCorrelation_eq_some_iff.mpr ⟨hactive, rfl, hcorrelation⟩
  . exact idempotentCorrelation_eq_some_iff.mpr ⟨hactive', htype.symm, hcorrelation'⟩

/-
What the other clients leave of the index and of the rows.
-/

-- the same jobs are there, and the index holds
structure Keeps (jobs jobs' : JobTable) : Prop where
  absent : ∀ k, jobs'.find? k = none ↔ jobs.find? k = none
  indexed : jobs.Indexed idempotentCorrelation → jobs'.Indexed idempotentCorrelation

theorem Keeps.refl (jobs : JobTable) : Keeps jobs jobs where
  absent := fun _ => Iff.rfl
  indexed := id

-- an update that only activates jobs that were active already
theorem keeps_updateWhere {p : JobRow → Bool} {f : JobRow → JobRow} {hf : ∀ row, (f row).id = row.id}
    (hcolumns : ∀ row, (f row).jobType = row.jobType ∧ (f row).correlationId = row.correlationId)
    (hactive : ∀ k row, jobs.find? k = some row → p row = true → Active (f row) → Active row)
    : Keeps jobs (jobs.updateWhere p f hf) where
  absent := by
    intro k
    rw [Sql.Table.find?_updateWhere, Option.map_eq_none_iff]
  indexed := by
    intro h
    apply h.updateWhere
    rintro k row ⟨jobType, correlationId⟩ hrow hp hv
    rw [idempotentCorrelation_eq_some_iff, (hcolumns row).1, (hcolumns row).2] at hv
    rw [idempotentCorrelation_eq_some_iff]
    exact ⟨hactive k row hrow hp hv.1, hv.2⟩

theorem active_of_running (h : row.status = "running") : Active row := by
  simp [Active, h]

theorem keeps_poll (now : Timestamp) (locked : List Uuid) (jobs : JobTable)
    : Keeps jobs (poll now locked jobs).1 := by
  unfold poll
  cases hnext : nextPending now locked jobs with
  | none => exact .refl jobs
  | some polled =>
    obtain ⟨hpolled, hpending, _⟩ := nextPending_eq_some hnext
    apply keeps_updateWhere
    . exact fun _ => rfl
    . exact fun _ => ⟨rfl, rfl⟩
    . intro k row hrow hid _
      rw [decide_eq_true_eq] at hid
      have hsame : row = polled := by
        rw [← hid, Sql.Table.find?_of_mem (Sql.Table.mem_of_find? hrow), Option.some.injEq] at hpolled
        exact hpolled
      rw [hsame]
      simp [Active, hpending]

theorem keeps_complete (now : Timestamp) (jobId : Uuid) (jobs : JobTable)
    : Keeps jobs (complete now jobId jobs) := by
  apply keeps_updateWhere
  . exact fun _ => rfl
  . exact fun _ => ⟨rfl, rfl⟩
  . intro _ _ _ _ hactive
    exact absurd rfl hactive.1

theorem keeps_cancel (now : Timestamp) (jobId : Uuid) (jobs : JobTable)
    : Keeps jobs (cancel now jobId jobs) := by
  apply keeps_updateWhere
  . exact fun _ => ⟨rfl, rfl⟩
  . intro _ _ _ _ hactive
    exact absurd rfl hactive.2.1

theorem keeps_timeoutReset (now : Timestamp) (jobs : JobTable) : Keeps jobs (timeoutReset now jobs) := by
  apply keeps_updateWhere
  . exact fun _ => ⟨rfl, rfl⟩
  . intro _ row _ hp _
    rw [decide_eq_true_eq] at hp
    exact active_of_running (status_of_timedOut hp.1)

theorem keeps_timeoutFail (now : Timestamp) (jobs : JobTable) : Keeps jobs (timeoutFail now jobs) := by
  apply keeps_updateWhere
  . exact fun _ => ⟨rfl, rfl⟩
  . intro _ _ _ _ hactive
    exact absurd rfl hactive.2.2

-- an update of one job that the index lets pass
theorem keeps_of_updated {jobId : Uuid} {f : JobRow → JobRow}
    (hafter : ∀ k, jobs'.find? k = (jobs.find? k).map fun row => if k = jobId then f row else row)
    (hkey : ∀ row, (f row).id = row.id)
    (hfree : ∀ row, jobs.find? jobId = some row →
      jobs.clashes idempotentCorrelation (f row) = false)
    : Keeps jobs jobs' where
  absent := by
    intro k
    rw [hafter, Option.map_eq_none_iff]
  indexed := by
    intro h
    have hothers : ∀ k, k ≠ jobId → jobs'.find? k = jobs.find? k := by
      intro k hk
      rw [hafter]
      simp [hk]
    cases hrow : jobs.find? jobId with
    | none =>
      have hsame : ∀ k, jobs'.find? k = jobs.find? k := by
        intro k
        by_cases hk : k = jobId
        . rw [hafter, hk, hrow, Option.map_none]
        . exact hothers k hk
      intro k k' row row' v hfound hfound'
      rw [hsame] at hfound hfound'
      exact h k k' row row' v hfound hfound'
    | some row =>
      have hid : (f row).id = jobId := by rw [hkey, Sql.Table.key_of_find? hrow]
      apply h.changed
      . rw [hid, hafter, hrow, Option.map_some, if_pos rfl]
      . intro k hk
        rw [hid] at hk
        exact hothers k hk
      . exact hfree row hrow

-- the index is asked before the job becomes pending again
theorem keeps_reschedule (now : Timestamp) (jobId : Uuid) (newRetryCount backoff : Int)
    (errorMessage : String) (hfree : superseded jobId jobs = false)
    : Keeps jobs (updateJob jobId (reschedule now newRetryCount backoff errorMessage) (fun _ => rfl) jobs) := by
  apply keeps_of_updated
  . exact fun k => find?_updateJob jobs k
  . exact fun _ => rfl
  . intro row hrow
    rw [superseded, hrow, Option.any_some] at hfree
    exact hfree

theorem keeps_failForGood (now : Timestamp) (jobId : Uuid) (newRetryCount : Int) (errorMessage : String)
    (jobs : JobTable)
    : Keeps jobs (updateJob jobId (failForGood now newRetryCount errorMessage) (fun _ => rfl) jobs) := by
  apply keeps_updateWhere
  . exact fun _ => ⟨rfl, rfl⟩
  . intro _ _ _ _ hactive
    exact absurd rfl hactive.2.2

theorem keeps_failWrite (now : Timestamp) (jobId : Uuid) (retryCount maxRetries : Int)
    (errorMessage : String) (jobs : JobTable)
    : Keeps jobs (failWrite now jobId retryCount maxRetries errorMessage jobs) := by
  unfold failWrite
  split
  . split
    . split
      . exact .refl jobs
      . next hfree =>
        rw [Bool.not_eq_true] at hfree
        exact keeps_reschedule now jobId _ _ errorMessage hfree
    . exact .refl jobs
  . exact keeps_failForGood now jobId _ errorMessage jobs

theorem keeps_worker_step (s : State) (w : Worker) : Keeps s.jobs (w.step s).1.jobs := by
  unfold Worker.step
  split
  . split
    . exact .refl s.jobs
    . next round _ _ =>
      have hpoll := keeps_poll s.now round.locked s.jobs
      split
      . next heq =>
        rw [heq] at hpoll
        exact hpoll
      . exact .refl s.jobs
  . exact keeps_complete s.now _ s.jobs
  . split
    . exact .refl s.jobs
    . exact .refl s.jobs
  . exact keeps_failWrite s.now _ _ _ _ s.jobs

theorem keeps_client_step (s : State) (client : Client) : Keeps s.jobs (client.step s).1.jobs := by
  cases client with
  | worker w => exact keeps_worker_step s w
  | sweeper reset =>
    cases reset with
    | true => exact keeps_timeoutReset s.now s.jobs
    | false => exact keeps_timeoutFail s.now s.jobs
  | canceller jobId => exact keeps_cancel s.now jobId s.jobs
  | clock => exact .refl s.jobs

/-
What the statements of the call do.
-/

theorem clashes_row_iff (call : EnqueueCall) (now : Timestamp) (id : Uuid) (hid : jobs.find? id = none)
    : jobs.clashes idempotentCorrelation (call.row now id) = true
        ↔ ∃ k row, jobs.find? k = some row ∧ Active row ∧ row.jobType = call.jobType
          ∧ row.correlationId = some call.correlationId := by
  have hrow : idempotentCorrelation (call.row now id) = some (call.jobType, call.correlationId) :=
    idempotentCorrelation_eq_some_iff.mpr ⟨by simp [Active, EnqueueCall.row], rfl, rfl⟩
  rw [Sql.Table.clashes_eq_true_iff]
  constructor
  . rintro ⟨k, other, v, hother, hv, hsame, _⟩
    rw [hrow, Option.some.injEq] at hv
    rw [← hv, idempotentCorrelation_eq_some_iff] at hsame
    exact ⟨k, other, hother, hsame⟩
  . rintro ⟨k, other, hother, hsame⟩
    refine ⟨k, other, _, hother, hrow, idempotentCorrelation_eq_some_iff.mpr hsame, ?_⟩
    intro hk
    have hk : k = id := hk
    rw [hk, hid] at hother
    cases hother

theorem active_of_activeId {id : Uuid} (h : activeId jobType correlationId jobs = some id)
    : ∃ row, jobs.find? id = some row ∧ Active row := by
  unfold activeId at h
  rw [Option.map_eq_some_iff] at h
  obtain ⟨row, hrow, rfl⟩ := h
  have hmem := List.mem_of_find?_eq_some hrow
  have hactive := List.find?_some hrow
  rw [decide_eq_true_eq] at hactive
  exact ⟨row, Sql.Table.find?_of_mem hmem, hactive.2.2⟩

theorem insertIdempotent_of_clashes (h : jobs.clashes idempotentCorrelation row = true)
    : insertIdempotent row jobs = some (jobs, 0) := by
  rw [insertIdempotent, if_pos h]

theorem insertIdempotent_of_free (h : jobs.clashes idempotentCorrelation row = false)
    (hid : jobs.find? row.id = none)
    : ∃ jobs', jobs.insert? row = some jobs' ∧ insertIdempotent row jobs = some (jobs', 1) := by
  cases hinsert : jobs.insert? row with
  | none =>
    rw [Sql.Table.insert?_eq_none_iff, hid] at hinsert
    cases hinsert
  | some jobs' =>
    refine ⟨jobs', rfl, ?_⟩
    rw [insertIdempotent, if_neg (by rw [h]; exact Bool.false_ne_true), hinsert, Option.map_some]

-- what a statement does to the table, given the ids that may still be inserted before and after it
structure Inserts (jobs jobs' : JobTable) (ids ids' : List Uuid) : Prop where
  absent : ∀ k, k ∉ ids ∨ k ∈ ids' → jobs.find? k = none → jobs'.find? k = none
  indexed : jobs.Indexed idempotentCorrelation → jobs'.Indexed idempotentCorrelation
  sublist : ids'.Sublist ids

theorem Keeps.inserts {ids ids' : List Uuid} (h : Keeps jobs jobs') (hids : ids'.Sublist ids)
    : Inserts jobs jobs' ids ids' where
  absent := fun k _ habsent => (h.absent k).mpr habsent
  indexed := h.indexed
  sublist := hids

theorem inserts_of_insert? {ids ids' : List Uuid} (hinsert : jobs.insert? row = some jobs')
    (hfree : jobs.clashes idempotentCorrelation row = false) (hrow : row.id ∈ ids)
    (hused : row.id ∉ ids') (hids : ids'.Sublist ids)
    : Inserts jobs jobs' ids ids' where
  absent := by
    intro k hk habsent
    rw [Sql.Table.find?_insert? hinsert, if_neg, habsent]
    rintro rfl
    rcases hk with hk | hk
    . exact hk hrow
    . exact hused hk
  indexed := fun hindexed => hindexed.insert? hinsert hfree
  sublist := hids

theorem inserts_enqueuer_step (moment : Nat) (now : Timestamp) {enqueuer : Enqueuer}
    (habsent : ∀ id ∈ enqueuer.ids, jobs.find? id = none)
    : Inserts jobs (enqueuer.step moment now jobs).1 enqueuer.ids
        (enqueuer.step moment now jobs).2.ids := by
  cases enqueuer with
  | inserting call =>
    have hid : jobs.find? call.id = none := habsent call.id List.mem_cons_self
    unfold Enqueuer.step
    simp only
    cases hclash : jobs.clashes idempotentCorrelation (call.row now call.id) with
    | true =>
      rw [insertIdempotent_of_clashes hclash]
      exact (Keeps.refl jobs).inserts (List.sublist_cons_self call.id [call.retryId])
    | false =>
      obtain ⟨jobs', hinsert, hinserted⟩ := insertIdempotent_of_free hclash hid
      rw [hinserted]
      apply inserts_of_insert? hinsert hclash
      . exact List.mem_cons_self
      . exact List.not_mem_nil
      . exact List.nil_sublist _
  | selecting call begun =>
    unfold Enqueuer.step
    simp only
    split
    . exact (Keeps.refl jobs).inserts (List.nil_sublist _)
    . exact (Keeps.refl jobs).inserts (List.Sublist.refl _)
  | retrying call begun =>
    have hid : jobs.find? call.retryId = none := habsent call.retryId List.mem_cons_self
    unfold Enqueuer.step
    simp only
    cases hclash : jobs.clashes idempotentCorrelation (call.row now call.retryId) with
    | true =>
      rw [insertIdempotent_of_clashes hclash]
      exact (Keeps.refl jobs).inserts (List.nil_sublist _)
    | false =>
      obtain ⟨jobs', hinsert, hinserted⟩ := insertIdempotent_of_free hclash hid
      rw [hinserted]
      apply inserts_of_insert? hinsert hclash
      . exact List.mem_cons_self
      . exact List.not_mem_nil
      . exact List.nil_sublist _
  | returned id begun => exact (Keeps.refl jobs).inserts (List.Sublist.refl _)
  | failed => exact (Keeps.refl jobs).inserts (List.Sublist.refl _)

theorem inserts_party_step (timeline : Timeline) {party : Party}
    (habsent : ∀ id ∈ party.ids, timeline.queue.jobs.find? id = none)
    : Inserts timeline.queue.jobs (party.step timeline).1.queue.jobs party.ids
        (party.step timeline).2.ids := by
  cases party with
  | client member => exact (keeps_client_step timeline.queue member).inserts (List.Sublist.refl _)
  | enqueuer member => exact inserts_enqueuer_step timeline.past.length timeline.queue.now habsent

theorem Fresh.fire (h : Fresh c) (i : ι) : Fresh (fire Party.step c i) := by
  have hinserts := inserts_party_step c.shared (h.absent i)
  have hids : ∀ j, ((Interleaving.fire Party.step c i).clients j).ids.Sublist (c.clients j).ids := by
    intro j
    by_cases hj : j = i
    . subst hj
      rw [fire_clients_self]
      exact hinserts.sublist
    . rw [fire_clients_ne Party.step c hj]
  constructor
  . intro j id hid
    apply hinserts.absent id
    . by_cases hj : j = i
      . subst hj
        rw [fire_clients_self] at hid
        exact .inr hid
      . exact .inl fun hother => h.disjoint j i hj id ((hids j).subset hid) hother
    . exact h.absent j id ((hids j).subset hid)
  . intro j k hne id hid hother
    exact h.disjoint j k hne id ((hids j).subset hid) ((hids k).subset hother)

theorem active_row (call : EnqueueCall) (now : Timestamp) (id : Uuid) : Active (call.row now id) := by
  simp [Active, EnqueueCall.row]

-- the statements before the retried insertion return active jobs
theorem active_of_returned {moment begun : Nat} {now : Timestamp} {enqueuer : Enqueuer} {id : Uuid}
    (hretry : ∀ call begun, enqueuer ≠ .retrying call begun)
    (hbefore : enqueuer ≠ .returned id begun)
    (hreturned : (enqueuer.step moment now jobs).2 = .returned id begun)
    : ∃ row, (enqueuer.step moment now jobs).1.find? id = some row ∧ Active row := by
  cases enqueuer with
  | inserting call =>
    unfold Enqueuer.step at hreturned ⊢
    simp only at hreturned ⊢
    cases hclash : jobs.clashes idempotentCorrelation (call.row now call.id) with
    | true =>
      rw [insertIdempotent_of_clashes hclash] at hreturned
      cases hreturned
    | false =>
      unfold insertIdempotent at hreturned ⊢
      rw [hclash] at hreturned ⊢
      cases hinsert : jobs.insert? (call.row now call.id) with
      | none =>
        rw [hinsert] at hreturned
        cases hreturned
      | some jobs' =>
        rw [hinsert] at hreturned
        cases hreturned
        refine ⟨call.row now call.id, ?_, active_row call now call.id⟩
        exact (Sql.Table.find?_insert? hinsert call.id).trans (if_pos rfl)
  | selecting call =>
    unfold Enqueuer.step at hreturned ⊢
    simp only at hreturned ⊢
    cases hactive : activeId call.jobType call.correlationId jobs with
    | none =>
      rw [hactive] at hreturned
      cases hreturned
    | some other =>
      rw [hactive] at hreturned
      cases hreturned
      exact active_of_activeId hactive
  | retrying call begun => exact absurd rfl (hretry call begun)
  | returned other => exact absurd hreturned hbefore
  | failed => cases hreturned

theorem returned_of_retrying (moment begun : Nat) (now : Timestamp) (hid : jobs.find? call.retryId = none)
    : ((Enqueuer.retrying call begun).step moment now jobs).2 = .returned call.retryId begun
        ∧ ((∃ row, ((Enqueuer.retrying call begun).step moment now jobs).1.find? call.retryId = some row)
          ↔ ∀ k row, jobs.find? k = some row → Active row → row.jobType = call.jobType →
            row.correlationId ≠ some call.correlationId)
        ∧ ∀ row, ((Enqueuer.retrying call begun).step moment now jobs).1.find? call.retryId = some row →
          Active row := by
  have hclashes := clashes_row_iff call now call.retryId hid
  unfold Enqueuer.step
  simp only
  cases hclash : jobs.clashes idempotentCorrelation (call.row now call.retryId) with
  | true =>
    obtain ⟨k, other, hother, hactive, htype, hcorrelation⟩ := hclashes.mp hclash
    rw [insertIdempotent_of_clashes hclash]
    simp only [hid]
    refine ⟨trivial, ?_, fun _ h => by cases h⟩
    constructor
    . rintro ⟨_, h⟩
      cases h
    . intro h
      exact absurd hcorrelation (h k other hother hactive htype)
  | false =>
    obtain ⟨jobs', hinsert, hinserted⟩ := insertIdempotent_of_free hclash hid
    have hfound : jobs'.find? call.retryId = some (call.row now call.retryId) :=
      (Sql.Table.find?_insert? hinsert call.retryId).trans (if_pos rfl)
    rw [hinserted]
    simp only [hfound]
    refine ⟨trivial, ?_, ?_⟩
    . refine iff_of_true ⟨_, rfl⟩ ?_
      intro k row hrow hactive htype hcorrelation
      have htrue := hclashes.mpr ⟨k, row, hrow, hactive, htype, hcorrelation⟩
      rw [hclash] at htrue
      cases htrue
    . intro row hrow
      cases hrow
      exact active_row call now call.retryId

/--
A call returns the id of an active job, unless its last statement inserts nothing.
-/
theorem returnsActive_iff (h : Fresh c) : ReturnsActive c i ↔ RetryInserts c i := by
  unfold ReturnsActive RetryInserts
  rw [fire_clients_self]
  unfold fire
  simp only
  have habsent := h.absent i
  cases hparty : c.clients i with
  | client member =>
    constructor
    . intro _ _ _ hretrying
      cases hretrying
    . intro _ _ _ _ hreturned
      cases hreturned
  | enqueuer member =>
    rw [hparty] at habsent
    by_cases hretry : ∃ call begun, member = .retrying call begun
    . obtain ⟨call, begun, rfl⟩ := hretry
      have hid := habsent call.retryId List.mem_cons_self
      obtain ⟨hreturned, hfound, hactive⟩ :=
        returned_of_retrying c.shared.past.length begun c.shared.queue.now hid
      constructor
      . intro hreturns call' begun' hsame
        cases hsame
        apply hfound.mp
        refine (hreturns call.retryId begun (fun hsame => by cases hsame) ?_).1
        exact congrArg Party.enqueuer hreturned
      . intro hfree id begun' _ hsame
        have hstep : Party.enqueuer (.returned call.retryId begun) = Party.enqueuer (.returned id begun') :=
          (congrArg Party.enqueuer hreturned).symm.trans hsame
        cases hstep
        obtain ⟨row, hrow⟩ := hfound.mpr (hfree call begun rfl)
        exact ⟨⟨row, hrow⟩, _, List.mem_cons_self, row, hrow, hactive row hrow⟩
    . have hother : ∀ call begun, member ≠ .retrying call begun :=
        fun call begun hsame => hretry ⟨call, begun, hsame⟩
      constructor
      . intro _ call begun hsame
        rw [Party.enqueuer.injEq] at hsame
        exact absurd hsame (hother call begun)
      . intro _ id begun hbefore hreturned
        have hreturned := Party.enqueuer.inj hreturned
        have hbefore : member ≠ .returned id begun := fun hsame => hbefore (congrArg Party.enqueuer hsame)
        obtain ⟨row, hrow, hactive⟩ := active_of_returned hother hbefore hreturned
        exact ⟨⟨row, hrow⟩, _, List.mem_cons_self, row, hrow, hactive⟩

/--
In every run of idempotent enqueues beside workers, sweepers and whoever cancels jobs, at most one job
for each type and correlation id is active at a time, and every call that returns an id returns that of
a job which was active while the call was under way, exactly if no retried insertion meets an active job.
-/
theorem enqueues_once_iff_retries_insert (c : Config Timeline Party ι)
    (hindexed : c.shared.queue.jobs.Indexed idempotentCorrelation) (hfresh : Fresh c) (schedule : List ι)
    : Along Party.step (fun c i =>
          AtMostOneActive (fire Party.step c i).shared.queue.jobs ∧ ReturnsActive c i) c schedule
        ↔ Along Party.step RetryInserts c schedule := by
  have hafter : ∀ (c : Config Timeline Party ι) i,
      c.shared.queue.jobs.Indexed idempotentCorrelation ∧ Fresh c →
        (fire Party.step c i).shared.queue.jobs.Indexed idempotentCorrelation := by
    rintro c i ⟨hindexed, hfresh⟩
    exact (inserts_party_step c.shared (hfresh.absent i)).indexed hindexed
  have hiff : ∀ (c : Config Timeline Party ι) i,
      c.shared.queue.jobs.Indexed idempotentCorrelation ∧ Fresh c →
        (AtMostOneActive (fire Party.step c i).shared.queue.jobs ∧ ReturnsActive c i
          ↔ RetryInserts c i) := by
    intro c i h
    rw [← returnsActive_iff h.2, and_iff_right]
    exact atMostOneActive_of_indexed (hafter c i h)
  apply along_congr_of_reached Party.step hiff
  . intro c i h _
    exact ⟨hafter c i h, h.2.fire i⟩
  . exact ⟨hindexed, hfresh⟩

inductive SampleParty where
  | first
  | second
  | worker
  deriving DecidableEq

def sampleCall (id retryId : Nat) : EnqueueCall where
  jobType := "parse_gpx"
  payload := .null
  correlationId := ⟨9⟩
  id := ⟨id⟩
  retryId := ⟨retryId⟩

-- a worker is at a job that both calls conflict with
def sampleParties : Config Timeline Party SampleParty where
  shared := {
    queue := { sampleQueue with
      jobs := {
        rows := [{ sampleRow with status := "running", correlationId := some ⟨9⟩ }]
        unique := List.nodup_singleton _
      }
    }
    past := []
  }
  clients
    | .first => .enqueuer (.inserting (sampleCall 2 3))
    | .second => .enqueuer (.inserting (sampleCall 4 5))
    | .worker => .client (.worker ⟨[], .running ⟨⟨1⟩, 1⟩ (.ok ())⟩)

theorem indexed_sampleParties : sampleParties.shared.queue.jobs.Indexed idempotentCorrelation := by
  rw [Sql.Table.indexed_iff]
  intro a ha b hb _ _
  have ha := List.mem_singleton.mp ha
  have hb := List.mem_singleton.mp hb
  rw [ha, hb]

theorem fresh_sampleParties : Fresh sampleParties where
  absent := by
    intro i
    cases i with
    | first | second | worker => decide
  disjoint := by
    intro i j
    cases i with
    | first =>
      cases j with
      | first | second | worker => decide
    | second =>
      cases j with
      | first | second | worker => decide
    | worker =>
      cases j with
      | first | second | worker => decide

theorem enqueues_once_iff_retries_insert_sampleParties
    : Along Party.step (fun c i =>
          AtMostOneActive (fire Party.step c i).shared.queue.jobs ∧ ReturnsActive c i)
        sampleParties [.first, .first]
      ↔ Along Party.step RetryInserts sampleParties [.first, .first] :=
  enqueues_once_iff_retries_insert sampleParties indexed_sampleParties fresh_sampleParties
    [.first, .first]

/--
If the job in the way ends before the lookup, and another call takes its place before the retried
insertion, then the call returns an id that no job has.
-/
theorem returns_absent_job
    : (run Party.step sampleParties [.first, .worker, .first, .second, .first]).clients .first
          = .enqueuer (.returned ⟨3⟩ 0)
        ∧ (run Party.step sampleParties
          [.first, .worker, .first, .second, .first]).shared.queue.jobs.find? ⟨3⟩ = none
        ∧ ¬Along Party.step (fun c i =>
            AtMostOneActive (fire Party.step c i).shared.queue.jobs ∧ ReturnsActive c i)
          sampleParties [.first, .worker, .first, .second, .first] := by
  have hreturned : (run Party.step sampleParties [.first, .worker, .first, .second, .first]).clients
      .first = .enqueuer (.returned ⟨3⟩ 0) := rfl
  have habsent : (run Party.step sampleParties
      [.first, .worker, .first, .second, .first]).shared.queue.jobs.find? ⟨3⟩ = none := by
    decide
  refine ⟨hreturned, habsent, ?_⟩
  intro h
  have hreturns : Along Party.step ReturnsActive sampleParties
      [.first, .worker, .first, .second, .first] :=
    h.imp Party.step fun _ _ hboth => hboth.2
  have hlast : ReturnsActive (run Party.step sampleParties [.first, .worker, .first, .second]) .first :=
    Along.last Party.step hreturns
  have hbefore : (run Party.step sampleParties [.first, .worker, .first, .second]).clients .first
      = .enqueuer (.retrying (sampleCall 2 3) 0) := rfl
  obtain ⟨⟨row, hrow⟩, _⟩ := hlast ⟨3⟩ 0 (by rw [hbefore]; exact fun h => by cases h) hreturned
  have hrow : (run Party.step sampleParties
      [.first, .worker, .first, .second, .first]).shared.queue.jobs.find? ⟨3⟩ = some row := hrow
  rw [habsent] at hrow
  cases hrow

end JobQueue
