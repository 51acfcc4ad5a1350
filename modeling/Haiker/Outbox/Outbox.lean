import Haiker.Ids
import Haiker.Json.Basic
import Haiker.Sql.Table

/-!
This module contains the table `platform.outbox` and the statements on it. `now` is the database's clock.
Retry counts count without a bound.
-/

structure OutboxRow where
  id : Uuid
  aggregateType : String
  aggregateId : String
  eventType : String
  payload : Json
  createdAt : Timestamp
  processedAt : Option Timestamp
  failedAt : Option Timestamp
  errorMessage : Option String
  retryCount : Int
  correlationId : Option Uuid

structure OutboxEvent where
  id : Uuid
  aggregateType : String
  aggregateId : String
  eventType : String
  payload : Json
  createdAt : Timestamp
  retryCount : Int
  correlationId : Option Uuid

namespace Outbox

abbrev OutboxTable := Sql.Table OutboxRow.id

-- the columns that `poll_unprocessed` selects
def event (row : OutboxRow) : OutboxEvent where
  id := row.id
  aggregateType := row.aggregateType
  aggregateId := row.aggregateId
  eventType := row.eventType
  payload := row.payload
  createdAt := row.createdAt
  retryCount := row.retryCount
  correlationId := row.correlationId

-- the row that `publish` inserts, the other columns having their defaults
def publishedRow (event : OutboxEvent) : OutboxRow where
  id := event.id
  aggregateType := event.aggregateType
  aggregateId := event.aggregateId
  eventType := event.eventType
  payload := event.payload
  createdAt := event.createdAt
  processedAt := none
  failedAt := none
  errorMessage := none
  retryCount := 0
  correlationId := event.correlationId

def publish (event : OutboxEvent) (outbox : OutboxTable) : Option OutboxTable :=
  outbox.insert? (publishedRow event)

-- `processed_at IS NULL AND failed_at IS NULL`
def Unprocessed (row : OutboxRow) : Prop := row.processedAt = none ∧ row.failedAt = none

instance : DecidablePred Unprocessed := fun row =>
  inferInstanceAs (Decidable (row.processedAt = none ∧ row.failedAt = none))

-- `FOR UPDATE SKIP LOCKED`, the locks being those that other statements hold at the moment
def pollUnprocessed (locked : List Uuid) (batchSize : Nat) (outbox : OutboxTable) : List OutboxEvent :=
  (((outbox.rows.filter fun row => Unprocessed row ∧ row.id ∉ locked).insertionSort
    fun a b => a.createdAt ≤ b.createdAt).take batchSize).map event

def updateEvent (eventId : Uuid) (f : OutboxRow → OutboxRow) (hf : ∀ row, (f row).id = row.id)
    (outbox : OutboxTable) : OutboxTable :=
  outbox.updateWhere (fun row => row.id = eventId) f hf

def markProcessed (now : Timestamp) (eventId : Uuid) : OutboxTable → OutboxTable :=
  updateEvent eventId (fun row => { row with processedAt := some now }) (fun _ => rfl)

def isProcessed (eventId : Uuid) (outbox : OutboxTable) : Bool :=
  (outbox.find? eventId).any fun row => row.processedAt.isSome

-- the first statement of `mark_failed`
def retryCount (eventId : Uuid) (outbox : OutboxTable) : Option Int :=
  (outbox.find? eventId).map (·.retryCount)

-- the second one
def markFailedWrite (now : Timestamp) (eventId : Uuid) (newRetryCount : Int) (errorMessage : String)
    (maxRetries : Int) : OutboxTable → OutboxTable :=
  if maxRetries ≤ newRetryCount then
    updateEvent eventId
      (fun row => { row with
        retryCount := newRetryCount
        errorMessage := some errorMessage
        failedAt := some now
      })
      (fun _ => rfl)
  else
    updateEvent eventId
      (fun row => { row with retryCount := newRetryCount, errorMessage := some errorMessage })
      (fun _ => rfl)

/-
The order in which `process_batch` handles the events of a batch.
-/

-- the group of an aggregate, at its first event a new one
def pushGroup (groups : List (String × List OutboxEvent)) (event : OutboxEvent)
    : List (String × List OutboxEvent) :=
  match groups with
  | [] => [(event.aggregateId, [event])]
  | group :: groups =>
    if group.1 = event.aggregateId then
      (group.1, group.2 ++ [event]) :: groups
    else
      group :: pushGroup groups event

def aggregateGroups (events : List OutboxEvent) : List (String × List OutboxEvent) :=
  events.foldl pushGroup []

def dispatchOrder (events : List OutboxEvent) : List OutboxEvent :=
  (aggregateGroups events).flatMap fun group =>
    group.2.insertionSort fun a b => a.createdAt ≤ b.createdAt

end Outbox
