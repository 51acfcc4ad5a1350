import Haiker.Outbox.Lemmas.Outbox

/-!
This module contains when the events of an aggregate take effect in the order of their creation. A batch
goes on with an aggregate when one of its events has failed with retries left, and an older event may be
locked when the batch is polled or be committed afterwards.
-/

open Interleaving

namespace Outbox

variable {ι : Type} [DecidableEq ι]

/--
Client `i` runs no handler with success while an older event of the aggregate is neither processed nor
failed.
-/
def InOrder (c : Config State Client ι) (i : ι) : Prop :=
  ∀ e, (c.clients i).succeeds = some e →
    ∀ k row, c.shared.outbox.find? k = some row → row.aggregateId = e.aggregateId →
      row.createdAt < e.createdAt → ¬Unprocessed row

-- an event that has failed in the batch with retries left, or that the batch has not seen
def Batch.Misses (s : State) (batch : Batch) (id : Uuid) : Prop :=
  id ∈ batch.retryable.map (·.id)
    ∨ id ∈ (s.published.take (s.published.length - batch.begun)).map (·.id)
    ∨ id ∈ batch.skipped

-- whatever older the batch misses of the aggregate has been settled by somebody else
def Unobstructed (c : Config State Client ι) (i : ι) : Prop :=
  ∀ e, (c.clients i).succeeds = some e → ∀ batch, (c.clients i).batch = some batch →
    ∀ k row, batch.Misses c.shared k → c.shared.outbox.find? k = some row →
      row.aggregateId = e.aggregateId → row.createdAt < e.createdAt → ¬Unprocessed row

variable {s s' : State} {client : Client} {d : OutboxDispatcher} {e event : OutboxEvent}
  {batch batch' : Batch} {pending pending' news : List OutboxEvent} {k : Uuid} {row : OutboxRow}

/--
The events of a batch that are not done with are in order, and whatever is older than one of them is one
of them itself, unless it is settled or the batch misses it.
-/
structure Covers (s : State) (batch : Batch) (pending : List OutboxEvent) : Prop where
  begun_le : batch.begun ≤ s.published.length
  ordered : pending.Pairwise fun a b => a.aggregateId = b.aggregateId → a.createdAt ≤ b.createdAt
  covered : ∀ e ∈ pending, ∀ k row, s.outbox.find? k = some row → Unprocessed row →
    row.createdAt < e.createdAt → batch.Misses s k
      ∨ ∃ x ∈ pending, x.id = k ∧ x.aggregateId = row.aggregateId ∧ x.createdAt = row.createdAt

-- nothing becomes unprocessed but what is published
structure Settles (news : List OutboxEvent) (s s' : State) : Prop where
  published : s'.published = news ++ s.published
  opened : ∀ k row', s'.outbox.find? k = some row' → Unprocessed row' →
    k ∈ news.map (·.id) ∨ ∃ row, s.outbox.find? k = some row ∧ Unprocessed row
      ∧ row.aggregateId = row'.aggregateId ∧ row.createdAt = row'.createdAt

theorem Settles.of_eq (hpublished : s'.published = s.published) (houtbox : s'.outbox = s.outbox)
    : Settles [] s s' where
  published := hpublished
  opened := by
    intro k row' hrow' hunprocessed
    rw [houtbox] at hrow'
    exact .inr ⟨row', hrow', hunprocessed, rfl, rfl⟩

theorem settles_updateEvent {f : OutboxRow → OutboxRow} {hf : ∀ row, (f row).id = row.id}
    (hunprocessed : ∀ row, Unprocessed (f row) → Unprocessed row)
    (haggregateId : ∀ row, (f row).aggregateId = row.aggregateId)
    (hcreatedAt : ∀ row, (f row).createdAt = row.createdAt) (s : State) (eventId : Uuid)
    : Settles [] s { s with outbox := updateEvent eventId f hf s.outbox } where
  published := rfl
  opened := by
    intro k row' hrow' hopen
    rw [find?_updateEvent] at hrow'
    obtain ⟨row, hrow, rfl⟩ := Option.map_eq_some_iff.mp hrow'
    right
    refine ⟨row, hrow, ?_⟩
    split at hopen
    . next hk =>
      rw [if_pos hk, haggregateId, hcreatedAt]
      exact ⟨hunprocessed row hopen, rfl, rfl⟩
    . next hk =>
      rw [if_neg hk]
      exact ⟨hopen, rfl, rfl⟩

theorem settles_markProcessed (s : State) (eventId : Uuid)
    : Settles [] s { s with outbox := markProcessed s.now eventId s.outbox } := by
  apply settles_updateEvent
  . rintro row ⟨hnone, _⟩
    cases hnone
  . exact fun _ => rfl
  . exact fun _ => rfl

theorem settles_markFailedWrite (s : State) (eventId : Uuid) (newRetryCount : Int) (errorMessage : String)
    (maxRetries : Int)
    : Settles [] s { s with
        outbox := markFailedWrite s.now eventId newRetryCount errorMessage maxRetries s.outbox
      } := by
  unfold markFailedWrite
  split
  . apply settles_updateEvent
    . rintro row ⟨_, hnone⟩
      cases hnone
    . exact fun _ => rfl
    . exact fun _ => rfl
  . apply settles_updateEvent
    . exact fun _ h => h
    . exact fun _ => rfl
    . exact fun _ => rfl

theorem settles_publish {outbox : OutboxTable} (h : publish event s.outbox = some outbox)
    : Settles [event] s { s with outbox, published := event :: s.published } where
  published := rfl
  opened := by
    intro k row' hrow' hunprocessed
    rcases Sql.Table.find?_of_insert? h hrow' with rfl | hrow
    . left
      have hid : (publishedRow event).id = k := Sql.Table.key_of_find? hrow'
      rw [List.map_singleton, List.mem_singleton]
      exact hid.symm
    . exact .inr ⟨row', hrow, hunprocessed, rfl, rfl⟩

theorem settles_dispatcher (s : State) (d : OutboxDispatcher) : Settles [] s (d.step s).1 := by
  cases hphase : d.phase with
  | polling =>
    cases hrounds : d.rounds with
    | nil =>
      rw [OutboxDispatcher.step_of_rounds_nil hphase hrounds]
      exact .of_eq rfl rfl
    | cons round rounds =>
      rw [OutboxDispatcher.step_of_rounds_cons hphase hrounds]
      exact .of_eq rfl rfl
  | checking batch =>
    cases hremaining : batch.remaining with
    | nil =>
      rw [OutboxDispatcher.step_of_remaining_nil hphase hremaining]
      exact .of_eq rfl rfl
    | cons event remaining =>
      cases hprocessed : isProcessed event.id s.outbox with
      | true =>
        rw [OutboxDispatcher.step_of_processed hphase hremaining hprocessed]
        exact .of_eq rfl rfl
      | false =>
        by_cases hregistered : event.eventType ∈ d.eventTypes
        . rw [OutboxDispatcher.step_of_registered hphase hremaining hprocessed hregistered]
          exact .of_eq rfl rfl
        . rw [OutboxDispatcher.step_of_unregistered hphase hremaining hprocessed hregistered]
          exact .of_eq rfl rfl
  | handling event batch =>
    cases hresult : d.handle d.calls event with
    | ok _ =>
      rw [OutboxDispatcher.step_of_handled hphase hresult]
      exact .of_eq rfl rfl
    | error errorMessage =>
      rw [OutboxDispatcher.step_of_handler_error hphase hresult]
      exact .of_eq rfl rfl
  | succeeding event batch =>
    rw [OutboxDispatcher.step_of_succeeding hphase]
    exact settles_markProcessed _ _
  | failing event errorMessage batch =>
    cases hrow : s.outbox.find? event.id with
    | some row =>
      rw [OutboxDispatcher.step_of_failing hphase hrow]
      exact .of_eq rfl rfl
    | none =>
      rw [OutboxDispatcher.step_of_absent hphase hrow]
      exact .of_eq rfl rfl
  | writing event errorMessage newRetryCount batch =>
    rw [OutboxDispatcher.step_of_writing hphase]
    exact settles_markFailedWrite _ _ _ _ _

theorem settles_step (s : State) (client : Client) : ∃ news, Settles news s (client.step s).1 := by
  cases client with
  | dispatcher d => exact ⟨[], settles_dispatcher s d⟩
  | publisher event =>
    simp only [Client.step]
    cases hpublish : publish event s.outbox with
    | some outbox => exact ⟨[event], settles_publish hpublish⟩
    | none => exact ⟨[], .of_eq rfl rfl⟩
  | clock elapsed => exact ⟨[], .of_eq rfl rfl⟩

theorem misses_of_mem_news (h : Settles news s s') (hbegun : batch.begun ≤ s.published.length)
    (hk : k ∈ news.map (·.id)) : batch.Misses s' k := by
  right
  left
  have htake : s'.published.length - batch.begun
      = news.length + (s.published.length - batch.begun) := by
    rw [h.published, List.length_append]
    omega
  rw [htake, h.published, List.take_length_add_append, List.map_append]
  exact List.mem_append_left _ hk

theorem Batch.Misses.step (hmisses : batch.Misses s k) (h : Settles news s s')
    (hbegun : batch.begun ≤ s.published.length) : batch.Misses s' k := by
  rcases hmisses with hretryable | hpublished | hskipped
  . exact .inl hretryable
  . right
    left
    have htake : s'.published.length - batch.begun
        = news.length + (s.published.length - batch.begun) := by
      rw [h.published, List.length_append]
      omega
    rw [htake, h.published, List.take_length_add_append, List.map_append]
    exact List.mem_append_right _ hpublished
  . exact .inr (.inr hskipped)

/--
A batch may leave out what is settled and what it has failed with retries left.
-/
theorem Covers.step (h : Covers s batch pending) (hsettles : Settles news s s')
    (hbegun : batch'.begun = batch.begun) (hskipped : batch'.skipped = batch.skipped)
    (hretryable : ∀ x ∈ batch.retryable, x ∈ batch'.retryable) (hpending : pending'.Sublist pending)
    (hdropped : ∀ x ∈ pending, x ∈ pending' ∨ x ∈ batch'.retryable
      ∨ ∀ row, s'.outbox.find? x.id = some row → ¬Unprocessed row)
    : Covers s' batch' pending' where
  begun_le := by
    rw [hbegun, hsettles.published, List.length_append]
    exact Nat.le_add_left_of_le h.begun_le
  ordered := h.ordered.sublist hpending
  covered := by
    have hkept : ∀ k, batch.Misses s' k → batch'.Misses s' k := by
      rintro k (hmem | hpublished | hlocked)
      . obtain ⟨x, hx, rfl⟩ := List.mem_map.mp hmem
        exact .inl (List.mem_map_of_mem (hretryable x hx))
      . refine .inr (.inl ?_)
        rw [hbegun]
        exact hpublished
      . refine .inr (.inr ?_)
        rw [hskipped]
        exact hlocked
    intro e he k row' hrow' hunprocessed holder
    rcases hsettles.opened k row' hrow' hunprocessed with hnews | ⟨row, hrow, hopen, hsame, hcreated⟩
    . exact .inl (hkept k (misses_of_mem_news hsettles h.begun_le hnews))
    . rw [← hcreated] at holder
      rcases h.covered e (hpending.subset he) k row hrow hopen holder with hmisses | ⟨x, hx, rfl, hx', hx''⟩
      . exact .inl (hkept k (hmisses.step hsettles h.begun_le))
      . rcases hdropped x hx with hpending' | hfailed | hsettled
        . exact .inr ⟨x, hpending', rfl, hx'.trans hsame, hx''.trans hcreated⟩
        . exact .inl (.inl (List.mem_map_of_mem hfailed))
        . exact absurd hunprocessed (hsettled row' hrow')

-- what others do to the state leaves a batch as it is
theorem Covers.stable (h : Covers s batch pending) (hsettles : Settles news s s')
    : Covers s' batch pending :=
  h.step hsettles rfl rfl (fun _ hx => hx) (List.Sublist.refl _) fun _ hx => .inl hx

-- the first event has been settled, or it has failed with retries left
theorem Covers.rest (h : Covers s batch (event :: pending)) (hsettles : Settles news s s')
    (hbegun : batch'.begun = batch.begun) (hskipped : batch'.skipped = batch.skipped)
    (hretryable : ∀ x ∈ batch.retryable, x ∈ batch'.retryable)
    (hdone : event ∈ batch'.retryable ∨ ∀ row, s'.outbox.find? event.id = some row → ¬Unprocessed row)
    : Covers s' batch' pending := by
  apply h.step hsettles hbegun hskipped hretryable (List.sublist_cons_self _ _)
  intro x hx
  rcases List.mem_cons.mp hx with rfl | hx
  . exact .inr hdone
  . exact .inl hx

theorem covers_polled (s : State) (round : Round)
    : Covers s {
        remaining := dispatchOrder (pollUnprocessed round.locked round.batchSize s.outbox)
        processed := 0
        begun := s.published.length
        skipped := round.locked
        retryable := []
      } (dispatchOrder (pollUnprocessed round.locked round.batchSize s.outbox)) where
  begun_le := Nat.le_refl _
  ordered := pairwise_dispatchOrder _
  covered := by
    intro e he k row hrow hunprocessed holder
    by_cases hlocked : k ∈ round.locked
    . exact .inl (.inr (.inr hlocked))
    . right
      rw [(perm_dispatchOrder _).mem_iff] at he
      have hmem := mem_pollUnprocessed_of_older he hrow hunprocessed hlocked holder
      refine ⟨Outbox.event row, (perm_dispatchOrder _).mem_iff.mpr hmem, ?_, rfl, rfl⟩
      have hid : row.id = k := Sql.Table.key_of_find? hrow
      exact hid

theorem not_unprocessed_of_isProcessed (hprocessed : isProcessed k s.outbox = true)
    (hrow : s.outbox.find? k = some row) : ¬Unprocessed row := by
  intro hunprocessed
  rw [isProcessed, hrow, Option.any_some, hunprocessed.1] at hprocessed
  cases hprocessed

theorem not_unprocessed_of_processed {now : Timestamp} {eventId : Uuid} {outbox : OutboxTable}
    (hrow : (markProcessed now eventId outbox).find? eventId = some row) : ¬Unprocessed row := by
  intro hunprocessed
  have hafter : (markProcessed now eventId outbox).find? eventId = _ :=
    find?_updateEvent outbox eventId eventId
  rw [hrow] at hafter
  obtain ⟨row', _, rfl⟩ := Option.map_eq_some_iff.mp hafter.symm
  rw [if_pos rfl] at hunprocessed
  cases hunprocessed.1

theorem not_unprocessed_of_failed {now : Timestamp} {eventId : Uuid} {newRetryCount maxRetries : Int}
    {errorMessage : String} {outbox : OutboxTable} (hretries : maxRetries ≤ newRetryCount)
    (hrow : (markFailedWrite now eventId newRetryCount errorMessage maxRetries outbox).find? eventId
      = some row)
    : ¬Unprocessed row := by
  intro hunprocessed
  unfold markFailedWrite at hrow
  rw [if_pos hretries, find?_updateEvent] at hrow
  obtain ⟨row', _, rfl⟩ := Option.map_eq_some_iff.mp hrow
  rw [if_pos rfl] at hunprocessed
  cases hunprocessed.2

theorem covers_dispatcher (h : ∀ batch, d.batch = some batch → Covers s batch d.pending)
    : ∀ batch, (d.step s).2.batch = some batch → Covers (d.step s).1 batch (d.step s).2.pending := by
  have hsettles := settles_dispatcher s d
  intro batch' hbatch'
  cases hphase : d.phase with
  | polling =>
    cases hrounds : d.rounds with
    | nil =>
      rw [OutboxDispatcher.step_of_rounds_nil hphase hrounds] at hbatch' ⊢
      exact h batch' hbatch'
    | cons round rounds =>
      rw [OutboxDispatcher.step_of_rounds_cons hphase hrounds] at hbatch' ⊢
      cases hbatch'
      exact covers_polled s round
  | checking batch =>
    have hcovers : Covers s batch d.pending := h batch (by simp [OutboxDispatcher.batch, hphase])
    have hpending : d.pending = batch.remaining := by simp [OutboxDispatcher.pending, hphase]
    rw [hpending] at hcovers
    cases hremaining : batch.remaining with
    | nil =>
      rw [OutboxDispatcher.step_of_remaining_nil hphase hremaining] at hbatch'
      cases hbatch'
    | cons event remaining =>
      rw [hremaining] at hcovers
      cases hprocessed : isProcessed event.id s.outbox with
      | true =>
        rw [OutboxDispatcher.step_of_processed hphase hremaining hprocessed] at hsettles hbatch' ⊢
        cases hbatch'
        exact hcovers.rest hsettles rfl rfl (fun _ hx => hx)
          (.inr fun row hrow => not_unprocessed_of_isProcessed hprocessed hrow)
      | false =>
        by_cases hregistered : event.eventType ∈ d.eventTypes
        . rw [OutboxDispatcher.step_of_registered hphase hremaining hprocessed hregistered]
            at hsettles hbatch' ⊢
          cases hbatch'
          exact hcovers.step hsettles rfl rfl (fun _ hx => hx) (List.Sublist.refl _) fun _ hx => .inl hx
        . rw [OutboxDispatcher.step_of_unregistered hphase hremaining hprocessed hregistered]
            at hsettles hbatch' ⊢
          cases hbatch'
          exact hcovers.step hsettles rfl rfl (fun _ hx => hx) (List.Sublist.refl _) fun _ hx => .inl hx
  | handling event batch =>
    have hcovers : Covers s batch d.pending := h batch (by simp [OutboxDispatcher.batch, hphase])
    have hpending : d.pending = event :: batch.remaining := by simp [OutboxDispatcher.pending, hphase]
    rw [hpending] at hcovers
    cases hresult : d.handle d.calls event with
    | ok _ =>
      rw [OutboxDispatcher.step_of_handled hphase hresult] at hsettles hbatch' ⊢
      cases hbatch'
      exact hcovers.stable hsettles
    | error errorMessage =>
      rw [OutboxDispatcher.step_of_handler_error hphase hresult] at hsettles hbatch' ⊢
      cases hbatch'
      exact hcovers.stable hsettles
  | succeeding event batch =>
    have hcovers : Covers s batch d.pending := h batch (by simp [OutboxDispatcher.batch, hphase])
    have hpending : d.pending = event :: batch.remaining := by simp [OutboxDispatcher.pending, hphase]
    rw [hpending] at hcovers
    rw [OutboxDispatcher.step_of_succeeding hphase] at hsettles hbatch' ⊢
    cases hbatch'
    exact hcovers.rest hsettles rfl rfl (fun _ hx => hx)
      (.inr fun row hrow => not_unprocessed_of_processed hrow)
  | failing event errorMessage batch =>
    have hcovers : Covers s batch d.pending := h batch (by simp [OutboxDispatcher.batch, hphase])
    have hpending : d.pending = event :: batch.remaining := by simp [OutboxDispatcher.pending, hphase]
    rw [hpending] at hcovers
    cases hrow : s.outbox.find? event.id with
    | some row =>
      rw [OutboxDispatcher.step_of_failing hphase hrow] at hsettles hbatch' ⊢
      cases hbatch'
      exact hcovers.stable hsettles
    | none =>
      rw [OutboxDispatcher.step_of_absent hphase hrow] at hbatch'
      cases hbatch'
  | writing event errorMessage newRetryCount batch =>
    have hcovers : Covers s batch d.pending := h batch (by simp [OutboxDispatcher.batch, hphase])
    have hpending : d.pending = event :: batch.remaining := by simp [OutboxDispatcher.pending, hphase]
    rw [hpending] at hcovers
    rw [OutboxDispatcher.step_of_writing hphase] at hsettles hbatch' ⊢
    cases hbatch'
    by_cases hretries : d.maxRetries ≤ newRetryCount
    . refine hcovers.rest hsettles rfl rfl ?_ ?_
      . intro x hx
        rw [if_pos hretries]
        exact hx
      . exact .inr fun row hrow => not_unprocessed_of_failed hretries hrow
    . refine hcovers.rest hsettles rfl rfl ?_ ?_
      . intro x hx
        rw [if_neg hretries]
        exact List.mem_cons_of_mem event hx
      . left
        rw [if_neg hretries]
        exact List.mem_cons_self

-- what a client knows of the state
def Knows (s : State) (client : Client) : Prop :=
  ∀ batch, client.batch = some batch → Covers s batch client.pending

theorem Knows.own (h : Knows s client) : Knows (client.step s).1 (client.step s).2 := by
  cases client with
  | dispatcher d => exact covers_dispatcher h
  | publisher event =>
    intro batch hbatch
    simp only [Client.step] at hbatch
    cases hpublish : publish event s.outbox with
    | some | none =>
      rw [hpublish] at hbatch
      cases hbatch
  | clock elapsed =>
    intro batch hbatch
    cases hbatch

theorem Knows.stable (h : Knows s client) (other : Client) : Knows (other.step s).1 client := by
  obtain ⟨news, hsettles⟩ := settles_step s other
  exact fun batch hbatch => (h batch hbatch).stable hsettles

theorem exists_batch_of_succeeds (h : client.succeeds = some e)
    : ∃ batch remaining, client.batch = some batch ∧ client.pending = e :: remaining := by
  cases client with
  | dispatcher d =>
    have hd : d.succeeds = some e := h
    unfold OutboxDispatcher.succeeds at hd
    cases hphase : d.phase with
    | handling event batch =>
      simp only [hphase] at hd
      cases hresult : d.handle d.calls event with
      | ok _ =>
        simp only [hresult] at hd
        cases hd
        refine ⟨batch, batch.remaining, ?_, ?_⟩
        . simp [Client.batch, OutboxDispatcher.batch, hphase]
        . simp [Client.pending, OutboxDispatcher.pending, hphase]
      | error errorMessage =>
        simp only [hresult] at hd
        cases hd
    | polling | checking | succeeding | failing | writing =>
      simp only [hphase] at hd
      cases hd
  | publisher | clock => cases h

omit [DecidableEq ι] in
theorem inOrder_iff_unobstructed {c : Config State Client ι} {i : ι}
    (h : Knows c.shared (c.clients i)) : InOrder c i ↔ Unobstructed c i := by
  constructor
  . intro hin e he batch _ k row _ hrow
    exact hin e he k row hrow
  . intro hun e he k row hrow hsame holder hunprocessed
    obtain ⟨batch, remaining, hbatch, hpending⟩ := exists_batch_of_succeeds he
    have hcovers := h batch hbatch
    rw [hpending] at hcovers
    rcases hcovers.covered e List.mem_cons_self k row hrow hunprocessed holder with hmisses | hmem
    . exact hun e he batch hbatch k row hmisses hrow hsame holder hunprocessed
    . obtain ⟨x, hx, _, hx', hx''⟩ := hmem
      rw [← hx''] at holder
      rcases List.mem_cons.mp hx with rfl | hx
      . exact absurd holder (Int.lt_irrefl _)
      . have hle := (List.pairwise_cons.mp hcovers.ordered).1 x hx (hsame.symm.trans hx'.symm)
        exact absurd holder (Int.not_lt.mpr hle)

/--
In every run of any number of dispatchers, none of them being in a batch at first, the events of each
aggregate take effect in the order of their creation iff no handler succeeds while an older event of the
aggregate that the batch has failed with retries left, or that it has not seen since it was locked or
published too late, is left unsettled.
-/
theorem in_order_iff_unobstructed (c : Config State Client ι) (hidle : ∀ i, (c.clients i).batch = none)
    (schedule : List ι)
    : Along Client.step InOrder c schedule ↔ Along Client.step Unobstructed c schedule := by
  have hknows : Holds (fun _ => True) (fun _ => Knows) c := by
    refine ⟨trivial, ?_⟩
    intro i batch hbatch
    rw [hidle i] at hbatch
    cases hbatch
  have hiff : ∀ (c : Config State Client ι) i, Holds (fun _ => True) (fun _ => Knows) c →
      (InOrder c i ↔ Unobstructed c i) := fun c i h => inOrder_iff_unobstructed (h.2 i)
  apply hknows.along_congr Client.step _ _ hiff
  . intro i s client _ h
    exact ⟨trivial, Knows.own h⟩
  . intro i j s client other _ _ _ h
    exact Knows.stable h client

def orderedEvent (id : Nat) (createdAt : Timestamp) : OutboxEvent := {
  id := ⟨id⟩
  aggregateType := "activity"
  aggregateId := "7"
  eventType := "activity_created"
  payload := .null
  createdAt := createdAt
  retryCount := 0
  correlationId := none
}

def twoEvents : State where
  outbox := ((publish (orderedEvent 1 0) .empty).bind (publish (orderedEvent 2 1))).getD .empty
  now := 2
  succeeded := []
  published := []

-- one dispatcher whose first call of a handler ends as given
def firstCall (outcome : Except String Unit) : Unit → Client
  | () =>
    .dispatcher ⟨["activity_created"], fun n _ => if n = 0 then outcome else .ok (), 5, [⟨10, []⟩], 0,
      .polling, []⟩

theorem in_order_iff_unobstructed_twoEvents
    : Along Client.step InOrder ⟨twoEvents, firstCall (.ok ())⟩ [(), (), (), (), (), ()]
        ↔ Along Client.step Unobstructed ⟨twoEvents, firstCall (.ok ())⟩ [(), (), (), (), (), ()] :=
  in_order_iff_unobstructed _ (fun _ => rfl) _

/--
A handler that fails on the first of two events of an aggregate is called for the second one, and succeeds
while the first one is left to be retried.
-/
theorem overtaken
    : ¬Along Client.step InOrder ⟨twoEvents, firstCall (.error "boom")⟩ [(), (), (), (), (), (), ()] := by
  rintro ⟨_, _, _, _, _, _, hin, _⟩
  exact hin (orderedEvent 2 1) rfl ⟨1⟩ _ rfl rfl (by decide) ⟨rfl, rfl⟩

end Outbox
