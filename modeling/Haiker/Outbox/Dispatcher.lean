import Haiker.Concurrency.Interleaving
import Haiker.Outbox.Outbox

/-!
This module contains dispatchers of the outbox, at work at the same time as each other and as whoever
publishes events. Each statement and each call of a handler is a step of its own.
-/

namespace Outbox

/--
The table and the clock. The events whose handlers have succeeded and the events that have been
published, both with the newest first, are recorded for the theorems.
-/
structure State where
  outbox : OutboxTable
  now : Timestamp
  succeeded : List Uuid
  published : List OutboxEvent

/--
A batch under way. How many events had been published and which were locked when it was polled, and
which of its events have failed with retries left, is recorded for the theorems.
-/
structure Batch where
  remaining : List OutboxEvent
  processed : Nat
  begun : Nat
  skipped : List Uuid
  retryable : List OutboxEvent

inductive Phase where
  -- before `poll_unprocessed`
  | polling
  -- before `is_processed` of the first remaining event
  | checking (batch : Batch)
  | handling (event : OutboxEvent) (batch : Batch)
  -- before `mark_processed`
  | succeeding (event : OutboxEvent) (batch : Batch)
  -- before the statements of `mark_failed`
  | failing (event : OutboxEvent) (errorMessage : String) (batch : Batch)
  | writing (event : OutboxEvent) (errorMessage : String) (newRetryCount : Int) (batch : Batch)

-- one call of `process_batch`, with the rows that other statements lock while it polls
structure Round where
  batchSize : Nat
  locked : List Uuid

-- `handle n` is how the `n`th call of a handler ends
structure OutboxDispatcher where
  eventTypes : List String
  handle : Nat → OutboxEvent → Except String Unit
  maxRetries : Int
  rounds : List Round
  calls : Nat
  phase : Phase
  results : List Nat

namespace OutboxDispatcher

def step (s : State) (d : OutboxDispatcher) : State × OutboxDispatcher :=
  match d.phase with
  | .polling =>
    match d.rounds with
    | [] => (s, d)
    | round :: rounds =>
      let events := pollUnprocessed round.locked round.batchSize s.outbox
      (s, { d with
        rounds
        phase := .checking {
          remaining := dispatchOrder events
          processed := 0
          begun := s.published.length
          skipped := round.locked
          retryable := []
        }
      })
  | .checking batch =>
    match batch.remaining with
    | [] => (s, { d with phase := .polling, results := batch.processed :: d.results })
    | event :: remaining =>
      let batch := { batch with remaining }
      if isProcessed event.id s.outbox then
        (s, { d with phase := .checking batch })
      else if event.eventType ∈ d.eventTypes then
        (s, { d with phase := .handling event batch })
      else
        (s, { d with
          phase := .failing event ("no handler registered for event type: " ++ event.eventType) batch
        })
  | .handling event batch =>
    match d.handle d.calls event with
    | .ok _ =>
      ({ s with succeeded := event.id :: s.succeeded },
        { d with calls := d.calls + 1, phase := .succeeding event batch })
    | .error errorMessage =>
      (s, { d with calls := d.calls + 1, phase := .failing event errorMessage batch })
  | .succeeding event batch =>
    ({ s with outbox := markProcessed s.now event.id s.outbox },
      { d with phase := .checking { batch with processed := batch.processed + 1 } })
  | .failing event errorMessage batch =>
    match retryCount event.id s.outbox with
    | some retryCount =>
      (s, { d with phase := .writing event errorMessage (retryCount + 1) batch })
    | none => (s, { d with phase := .polling })
  | .writing event errorMessage newRetryCount batch =>
    let retryable :=
      if d.maxRetries ≤ newRetryCount then batch.retryable else event :: batch.retryable
    ({ s with
      outbox := markFailedWrite s.now event.id newRetryCount errorMessage d.maxRetries s.outbox
      },
      { d with phase := .checking { batch with retryable } })

-- the event that has passed `is_processed` and has not been marked yet
def current (d : OutboxDispatcher) : Option OutboxEvent :=
  match d.phase with
  | .polling | .checking _ => none
  | .handling event _ | .succeeding event _ | .failing event _ _ | .writing event _ _ _ => some event

def batch (d : OutboxDispatcher) : Option Batch :=
  match d.phase with
  | .polling => none
  | .checking batch | .handling _ batch | .succeeding _ batch | .failing _ _ batch
  | .writing _ _ _ batch => some batch

-- the events of the batch that are not done with
def pending (d : OutboxDispatcher) : List OutboxEvent :=
  match d.phase with
  | .polling => []
  | .checking batch => batch.remaining
  | .handling event batch | .succeeding event batch | .failing event _ batch
  | .writing event _ _ batch => event :: batch.remaining

-- the event that passes `is_processed` in the next step
def passing (s : State) (d : OutboxDispatcher) : Option OutboxEvent :=
  match d.phase with
  | .checking batch => batch.remaining.head?.filter fun event => !isProcessed event.id s.outbox
  | .polling | .handling _ _ | .succeeding _ _ | .failing _ _ _ | .writing _ _ _ _ => none

-- the event whose handler the next step runs with success
def succeeds (d : OutboxDispatcher) : Option OutboxEvent :=
  match d.phase with
  | .handling event _ =>
    match d.handle d.calls event with
    | .ok _ => some event
    | .error _ => none
  | .polling | .checking _ | .succeeding _ _ | .failing _ _ _ | .writing _ _ _ _ => none

-- the event whose handler has succeeded and that the next step marks processed
def marksProcessed (d : OutboxDispatcher) : Option OutboxEvent :=
  match d.phase with
  | .succeeding event _ => some event
  | .polling | .checking _ | .handling _ _ | .failing _ _ _ | .writing _ _ _ _ => none

-- the event that the next step marks failed
def marksFailed (d : OutboxDispatcher) : Option OutboxEvent :=
  match d.phase with
  | .writing event _ _ _ => some event
  | .polling | .checking _ | .handling _ _ | .succeeding _ _ | .failing _ _ _ => none

end OutboxDispatcher

inductive Client where
  | dispatcher (dispatcher : OutboxDispatcher)
  -- a transaction commits an event
  | publisher (event : OutboxEvent)
  | clock (elapsed : Nat)

namespace Client

def step (s : State) : Client → State × Client
  | .dispatcher d =>
    let (s, d) := d.step s
    (s, .dispatcher d)
  | .publisher event =>
    match publish event s.outbox with
    | some outbox => ({ s with outbox, published := event :: s.published }, .publisher event)
    | none => (s, .publisher event)
  | .clock elapsed => ({ s with now := s.now + elapsed }, .clock elapsed)

-- what is asked of dispatchers only
def dispatching (f : OutboxDispatcher → Option OutboxEvent) : Client → Option OutboxEvent
  | .dispatcher d => f d
  | .publisher _ | .clock _ => none

def current : Client → Option OutboxEvent := dispatching (·.current)

def passing (s : State) : Client → Option OutboxEvent := dispatching (·.passing s)

def succeeds : Client → Option OutboxEvent := dispatching (·.succeeds)

def marksProcessed : Client → Option OutboxEvent := dispatching (·.marksProcessed)

def marksFailed : Client → Option OutboxEvent := dispatching (·.marksFailed)

def batch : Client → Option Batch
  | .dispatcher d => d.batch
  | .publisher _ | .clock _ => none

def pending : Client → List OutboxEvent
  | .dispatcher d => d.pending
  | .publisher _ | .clock _ => []

end Client

end Outbox
