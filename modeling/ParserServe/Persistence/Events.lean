import ParserServe.Foundation.Batch
import ParserServe.Persistence.Callbacks

/-! # Event queries

`EventRepository` of `persistence/events.py`.  A query filters the event table, leaves out what is
not after its cursor, orders the rest and keeps the first `limit` rows.  The cursor is the
identifier of an event, which is looked up again by every query.
-/

namespace ParserServe

open Foundation

/-! ## Columns -/

/-- The `event_type` column of an event row. -/
def EventPayload.type : EventPayload → String
  | .taskCreated _ => "task.created"
  | .taskStatusChanged .. => "task.status_changed"
  | .taskRouted .. => "task.routed"
  | .taskProgressUpdated .. => "task.progress_updated"
  | .workerStatusChanged .. => "worker.status_changed"
  | .callbackDeliveryChanged .. => "callback.delivery_changed"

/-- The `worker_id` column of an event row. -/
def EventPayload.workerId? : EventPayload → Option String
  | .workerStatusChanged workerId .. => some workerId
  | .taskCreated _ | .taskStatusChanged .. | .taskRouted .. | .taskProgressUpdated ..
  | .callbackDeliveryChanged .. => none

/-! ## Queries -/

inductive EventSortField
  | occurredAt | type
  deriving DecidableEq

inductive SortDirection
  | asc | desc
  deriving DecidableEq

structure EventStreamQuery where
  types : List String := []
  taskId : Option String := none
  workerId : Option String := none
  lastEventId : Option String := none
  deriving DecidableEq

structure EventListQuery extends EventStreamQuery where
  limit : Nat := 50
  sortBy : EventSortField := .occurredAt
  sortDirection : SortDirection := .asc
  limit_valid : 1 ≤ limit ∧ limit ≤ 200

inductive EventQuery
  | list (query : EventListQuery)
  | stream (query : EventStreamQuery)

def EventQuery.filters : EventQuery → EventStreamQuery
  | .list query => query.toEventStreamQuery
  | .stream query => query

def EventQuery.sortBy : EventQuery → EventSortField
  | .list query => query.sortBy
  | .stream _ => .occurredAt

def EventQuery.sortDirection : EventQuery → SortDirection
  | .list query => query.sortDirection
  | .stream _ => .asc

def EventQuery.limit? : EventQuery → Option Nat
  | .list query => some query.limit
  | .stream _ => none

/-- The filters of a query on types, task and worker. -/
def EventStreamQuery.selects (query : EventStreamQuery) (record : EventRecord) : Bool :=
  (query.types.isEmpty || query.types.contains record.payload.type) &&
    query.taskId.all (fun taskId => record.payload.taskId? = some taskId) &&
    query.workerId.all (fun workerId => record.payload.workerId? = some workerId)

/-- The sort column with the identifier behind it; `strict` leaves the row itself out. -/
def EventSortField.before (field : EventSortField) (strict : Bool) (a b : EventRecord) : Prop :=
  match field with
  | .occurredAt => a.occurredAt < b.occurredAt ∨
      (a.occurredAt = b.occurredAt ∧
        if strict then a.eventId < b.eventId else a.eventId ≤ b.eventId)
  | .type => a.payload.type < b.payload.type ∨
      (a.payload.type = b.payload.type ∧
        if strict then a.eventId < b.eventId else a.eventId ≤ b.eventId)

instance (field : EventSortField) (strict : Bool) : DecidableRel (field.before strict) :=
  fun _ _ => match field with
    | .occurredAt => inferInstanceAs (Decidable (_ ∨ _ ∧ _))
    | .type => inferInstanceAs (Decidable (_ ∨ _ ∧ _))

def SortDirection.orient (direction : SortDirection) (before : EventRecord → EventRecord → Prop)
    (a b : EventRecord) : Prop :=
  match direction with
  | .asc => before a b
  | .desc => before b a

instance (direction : SortDirection) (before : EventRecord → EventRecord → Prop)
    [DecidableRel before] : DecidableRel (direction.orient before) :=
  fun a b => match direction with
    | .asc => inferInstanceAs (Decidable (before a b))
    | .desc => inferInstanceAs (Decidable (before b a))

def EventQuery.before (query : EventQuery) (strict : Bool) : EventRecord → EventRecord → Prop :=
  query.sortDirection.orient (query.sortBy.before strict)

instance (query : EventQuery) (strict : Bool) : DecidableRel (query.before strict) :=
  inferInstanceAs (DecidableRel (query.sortDirection.orient _))

/-- `EventRepository.get`. -/
def EventRepository.get (db : Db) (eventId : String) : Option EventRecord :=
  db.events.find? (·.eventId = eventId)

/-- `ORDER BY` and `LIMIT` of a query. -/
def EventQuery.page (query : EventQuery) (limit : Option Nat) (rows : List EventRecord) :
    List EventRecord :=
  match limit.or query.limit? with
  | none => rows.insertionSort (query.before false)
  | some limit => (rows.insertionSort (query.before false)).take limit

/-- `EventRepository.list`. -/
def EventRepository.list (db : Db) (query : EventQuery) (limit : Option Nat) :
    List EventRecord :=
  let rows := db.events.filter query.filters.selects
  match query.filters.lastEventId with
  | none => query.page limit rows
  | some lastEventId =>
      match EventRepository.get db lastEventId with
      | none => []
      | some cursor => query.page limit (rows.filter (query.before true cursor ·))

/-! ## The order of a stream -/

/-- A stream is ordered by the time of an event and its identifier. -/
def EventRecord.key (record : EventRecord) : Time ×ₗ String :=
  toLex (record.occurredAt, record.eventId)

theorem eventBefore_iff (a b : EventRecord) : eventBefore a b ↔ a.key ≤ b.key := by
  rw [EventRecord.key, EventRecord.key, Prod.Lex.toLex_le_toLex]
  rfl

theorem occurredAt_before_iff (a b : EventRecord) :
    EventSortField.occurredAt.before false a b ↔ a.key ≤ b.key := by
  rw [EventRecord.key, EventRecord.key, Prod.Lex.toLex_le_toLex]
  rfl

theorem occurredAt_before_true_iff (a b : EventRecord) :
    EventSortField.occurredAt.before true a b ↔ a.key < b.key := by
  rw [EventRecord.key, EventRecord.key, Prod.Lex.toLex_lt_toLex]
  rfl

end ParserServe
