import Haiker.Outbox.Outbox
import Haiker.Outbox.Dispatcher

/-!
This module contains what a batch is made of, the order in which it is handled, and what a dispatcher does in
each of its phases.
-/

namespace Outbox

variable {outbox : OutboxTable} {row : OutboxRow} {e : OutboxEvent} {events : List OutboxEvent}
  {groups : List (String × List OutboxEvent)}

/-
Groups.
-/

-- the events of each group are those of one aggregate, and no other group has any of them
structure Grouped (groups : List (String × List OutboxEvent)) : Prop where
  aggregateId : ∀ group ∈ groups, ∀ e ∈ group.2, e.aggregateId = group.1
  nodup : (groups.map (·.1)).Nodup

theorem mem_map_fst_pushGroup {aggregateId : String}
    : aggregateId ∈ (pushGroup groups e).map (·.1)
        ↔ aggregateId = e.aggregateId ∨ aggregateId ∈ groups.map (·.1) := by
  induction groups with
  | nil => simp [pushGroup]
  | cons group groups ih =>
    unfold pushGroup
    split
    . next hgroup =>
      simp only [List.map_cons, List.mem_cons, ← hgroup]
      tauto
    . simp only [List.map_cons, List.mem_cons, ih]
      tauto

theorem Grouped.pushGroup (h : Grouped groups) (e : OutboxEvent) : Grouped (pushGroup groups e) := by
  induction groups with
  | nil =>
    constructor
    . intro group hgroup other hother
      rw [Outbox.pushGroup, List.mem_singleton] at hgroup
      subst hgroup
      rw [List.mem_singleton.mp hother]
    . exact List.nodup_singleton _
  | cons group groups ih =>
    have hnodup := h.nodup
    rw [List.map_cons, List.nodup_cons] at hnodup
    have ih := ih ⟨fun other hother => h.aggregateId other (List.mem_cons_of_mem _ hother), hnodup.2⟩
    unfold Outbox.pushGroup
    split
    . next hgroup =>
      constructor
      . intro other hother x hx
        rcases List.mem_cons.mp hother with rfl | hother
        . rcases List.mem_append.mp hx with hx | hx
          . exact h.aggregateId group List.mem_cons_self x hx
          . rw [List.mem_singleton.mp hx, hgroup]
        . exact h.aggregateId other (List.mem_cons_of_mem _ hother) x hx
      . exact h.nodup
    . next hgroup =>
      constructor
      . intro other hother
        rcases List.mem_cons.mp hother with rfl | hother
        . exact h.aggregateId other List.mem_cons_self
        . exact ih.aggregateId other hother
      . rw [List.map_cons, List.nodup_cons, mem_map_fst_pushGroup, not_or]
        exact ⟨⟨hgroup, hnodup.1⟩, ih.nodup⟩

theorem grouped_aggregateGroups (events : List OutboxEvent) : Grouped (aggregateGroups events) := by
  have hfold : ∀ groups, Grouped groups → Grouped (events.foldl pushGroup groups) := by
    induction events with
    | nil => exact fun _ h => h
    | cons e events ih => exact fun groups h => ih _ (h.pushGroup e)
  exact hfold [] ⟨fun _ h => (List.not_mem_nil h).elim, List.nodup_nil⟩

theorem perm_pushGroup (groups : List (String × List OutboxEvent)) (e : OutboxEvent)
    : ((pushGroup groups e).flatMap (·.2)).Perm (e :: groups.flatMap (·.2)) := by
  induction groups with
  | nil => exact List.Perm.refl _
  | cons group groups ih =>
    unfold pushGroup
    split
    . simp only [List.flatMap_cons, List.append_assoc, List.singleton_append]
      exact List.perm_middle
    . simp only [List.flatMap_cons]
      exact (ih.append_left group.2).trans List.perm_middle

theorem perm_aggregateGroups (events : List OutboxEvent)
    : ((aggregateGroups events).flatMap (·.2)).Perm events := by
  have hfold : ∀ groups, ((events.foldl pushGroup groups).flatMap (·.2)).Perm
      (groups.flatMap (·.2) ++ events) := by
    induction events with
    | nil => exact fun groups => by rw [List.append_nil]; exact List.Perm.refl _
    | cons e events ih =>
      intro groups
      refine (ih (pushGroup groups e)).trans ?_
      exact ((perm_pushGroup groups e).append_right events).trans List.perm_middle.symm
  exact hfold []

theorem perm_dispatchOrder (events : List OutboxEvent) : (dispatchOrder events).Perm events := by
  have hsort : ∀ groups : List (String × List OutboxEvent),
      (groups.flatMap fun group => group.2.insertionSort fun a b => a.createdAt ≤ b.createdAt).Perm
        (groups.flatMap (·.2)) := by
    intro groups
    induction groups with
    | nil => exact List.Perm.refl _
    | cons group groups ih =>
      rw [List.flatMap_cons, List.flatMap_cons]
      exact (List.perm_insertionSort _ _).append ih
  exact (hsort _).trans (perm_aggregateGroups events)

theorem pairwise_dispatchOrder (events : List OutboxEvent)
    : (dispatchOrder events).Pairwise fun a b =>
        a.aggregateId = b.aggregateId → a.createdAt ≤ b.createdAt := by
  have hgrouped := grouped_aggregateGroups events
  unfold dispatchOrder
  rw [List.pairwise_flatMap]
  constructor
  . intro group _
    apply (List.pairwise_insertionSort (fun a b : OutboxEvent => a.createdAt ≤ b.createdAt)
      group.2).imp
    intro a b hle _
    exact hle
  . have hnodup := hgrouped.nodup
    rw [List.nodup_iff_pairwise_ne, List.pairwise_map] at hnodup
    apply hnodup.imp_of_mem
    intro first second hfirst hsecond hne a ha b hb hsame
    rw [List.mem_insertionSort] at ha hb
    exfalso
    apply hne
    rw [← hgrouped.aggregateId first hfirst a ha, ← hgrouped.aggregateId second hsecond b hb, hsame]

/-
Batches.
-/

theorem exists_of_mem_pollUnprocessed {locked : List Uuid} {batchSize : Nat}
    (h : e ∈ pollUnprocessed locked batchSize outbox)
    : ∃ row, outbox.find? e.id = some row ∧ event row = e ∧ Unprocessed row := by
  unfold pollUnprocessed at h
  obtain ⟨row, hrow, rfl⟩ := List.mem_map.mp h
  have hmem := List.mem_of_mem_take hrow
  rw [List.mem_insertionSort, List.mem_filter, decide_eq_true_eq] at hmem
  exact ⟨row, Sql.Table.find?_of_mem hmem.1, rfl, hmem.2.1⟩

theorem nodup_pollUnprocessed (locked : List Uuid) (batchSize : Nat) (outbox : OutboxTable)
    : ((pollUnprocessed locked batchSize outbox).map (·.id)).Nodup := by
  unfold pollUnprocessed
  rw [List.map_map]
  have hperm := List.perm_insertionSort (fun a b : OutboxRow => a.createdAt ≤ b.createdAt)
    (outbox.rows.filter fun row => Unprocessed row ∧ row.id ∉ locked)
  have hsorted : (((outbox.rows.filter fun row => Unprocessed row ∧ row.id ∉ locked).insertionSort
      fun a b => a.createdAt ≤ b.createdAt).map OutboxRow.id).Nodup := by
    rw [(hperm.map OutboxRow.id).nodup_iff]
    exact (List.Sublist.map OutboxRow.id List.filter_sublist).nodup outbox.unique
  exact (List.Sublist.map OutboxRow.id (List.take_sublist batchSize _)).nodup hsorted

/--
Nothing unprocessed that is older than an event of the batch is left out of it, unless it is locked.
-/
theorem mem_pollUnprocessed_of_older {locked : List Uuid} {batchSize : Nat}
    (h : e ∈ pollUnprocessed locked batchSize outbox) {k : Uuid} (hrow : outbox.find? k = some row)
    (hunprocessed : Unprocessed row) (hunlocked : k ∉ locked) (holder : row.createdAt < e.createdAt)
    : event row ∈ pollUnprocessed locked batchSize outbox := by
  have hid : row.id = k := Sql.Table.key_of_find? hrow
  unfold pollUnprocessed at h ⊢
  obtain ⟨polled, hpolled, rfl⟩ := List.mem_map.mp h
  have hmem : row ∈ (outbox.rows.filter fun row => Unprocessed row ∧ row.id ∉ locked).insertionSort
      fun a b => a.createdAt ≤ b.createdAt := by
    rw [List.mem_insertionSort, List.mem_filter, decide_eq_true_eq, hid]
    exact ⟨Sql.Table.mem_of_find? hrow, hunprocessed, hunlocked⟩
  apply List.mem_map_of_mem
  rw [← List.take_append_drop batchSize ((outbox.rows.filter _).insertionSort _), List.mem_append]
    at hmem
  rcases hmem with hmem | hmem
  . exact hmem
  . exfalso
    have hsorted := List.pairwise_insertionSort (fun a b : OutboxRow => a.createdAt ≤ b.createdAt)
      (outbox.rows.filter fun row => Unprocessed row ∧ row.id ∉ locked)
    rw [← List.take_append_drop batchSize ((outbox.rows.filter _).insertionSort _),
      List.pairwise_append] at hsorted
    have hle : polled.createdAt ≤ row.createdAt := hsorted.2.2 polled hpolled row hmem
    exact absurd holder (Int.not_lt.mpr hle)

end Outbox

open Interleaving

namespace Outbox

variable {s : State} {d : OutboxDispatcher} {event e : OutboxEvent} {errorMessage : String} {batch : Batch}
  {remaining : List OutboxEvent}

namespace OutboxDispatcher

theorem step_of_rounds_nil (hphase : d.phase = .polling) (hrounds : d.rounds = [])
    : d.step s = (s, d) := by
  simp [step, hphase, hrounds]

theorem step_of_rounds_cons {round : Round} {rounds : List Round} (hphase : d.phase = .polling)
    (hrounds : d.rounds = round :: rounds)
    : d.step s = (s, { d with
        rounds
        phase := .checking {
          remaining := dispatchOrder (pollUnprocessed round.locked round.batchSize s.outbox)
          processed := 0
          begun := s.published.length
          skipped := round.locked
          retryable := []
        }
      }) := by
  simp [step, hphase, hrounds]

theorem step_of_remaining_nil (hphase : d.phase = .checking batch) (hremaining : batch.remaining = [])
    : d.step s = (s, { d with phase := .polling, results := batch.processed :: d.results }) := by
  simp [step, hphase, hremaining]

theorem step_of_processed (hphase : d.phase = .checking batch)
    (hremaining : batch.remaining = event :: remaining) (hprocessed : isProcessed event.id s.outbox = true)
    : d.step s = (s, { d with phase := .checking { batch with remaining } }) := by
  simp [step, hphase, hremaining, hprocessed]

theorem step_of_registered (hphase : d.phase = .checking batch)
    (hremaining : batch.remaining = event :: remaining)
    (hunprocessed : isProcessed event.id s.outbox = false) (hregistered : event.eventType ∈ d.eventTypes)
    : d.step s = (s, { d with phase := .handling event { batch with remaining } }) := by
  simp [step, hphase, hremaining, hunprocessed, hregistered]

theorem step_of_unregistered (hphase : d.phase = .checking batch)
    (hremaining : batch.remaining = event :: remaining)
    (hunprocessed : isProcessed event.id s.outbox = false) (hregistered : event.eventType ∉ d.eventTypes)
    : d.step s = (s, { d with
        phase := .failing event ("no handler registered for event type: " ++ event.eventType)
          { batch with remaining }
      }) := by
  simp [step, hphase, hremaining, hunprocessed, hregistered]

theorem step_of_handled (hphase : d.phase = .handling event batch) (hok : d.handle d.calls event = .ok ())
    : d.step s = ({ s with succeeded := event.id :: s.succeeded },
        { d with calls := d.calls + 1, phase := .succeeding event batch }) := by
  simp [step, hphase, hok]

theorem step_of_handler_error (hphase : d.phase = .handling event batch)
    (herror : d.handle d.calls event = .error errorMessage)
    : d.step s = (s, { d with calls := d.calls + 1, phase := .failing event errorMessage batch }) := by
  simp [step, hphase, herror]

theorem step_of_succeeding (hphase : d.phase = .succeeding event batch)
    : d.step s = ({ s with outbox := markProcessed s.now event.id s.outbox },
        { d with phase := .checking { batch with processed := batch.processed + 1 } }) := by
  simp [step, hphase]

theorem step_of_failing {row : OutboxRow} (hphase : d.phase = .failing event errorMessage batch)
    (hrow : s.outbox.find? event.id = some row)
    : d.step s = (s, { d with phase := .writing event errorMessage (row.retryCount + 1) batch }) := by
  simp [step, hphase, retryCount, hrow]

theorem step_of_absent (hphase : d.phase = .failing event errorMessage batch)
    (hrow : s.outbox.find? event.id = none) : d.step s = (s, { d with phase := .polling }) := by
  simp [step, hphase, retryCount, hrow]

theorem step_of_writing {newRetryCount : Int}
    (hphase : d.phase = .writing event errorMessage newRetryCount batch)
    : d.step s = ({ s with
        outbox := markFailedWrite s.now event.id newRetryCount errorMessage d.maxRetries s.outbox
      },
      { d with
        phase := .checking { batch with
          retryable :=
            if d.maxRetries ≤ newRetryCount then batch.retryable else event :: batch.retryable
        }
      }) := by
  simp [step, hphase]

end OutboxDispatcher

/-
What the statements do to a row.
-/

theorem find?_updateEvent {f : OutboxRow → OutboxRow} {hf : ∀ row, (f row).id = row.id}
    (outbox : OutboxTable) (eventId k : Uuid)
    : (updateEvent eventId f hf outbox).find? k
        = (outbox.find? k).map fun row => if k = eventId then f row else row := by
  unfold updateEvent
  rw [Sql.Table.find?_updateWhere]
  cases h : outbox.find? k with
  | none => rfl
  | some row =>
    have hid : row.id = k := Sql.Table.key_of_find? h
    simp [hid]

end Outbox
