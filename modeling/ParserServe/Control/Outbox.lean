import ParserServe.Control.Operations
import ParserServe.Persistence.Callbacks

/-! # The callback outbox

The operations on tasks publish events, and passes of `CallbackRepository.materialize` turn the
events into deliveries.  Each call is one transaction, and the transactions are taken one at a
time in any order.  A transaction that breaks the primary key of the event table is rolled back,
as is one that raises.
-/

namespace ParserServe

open Foundation

/-! ## What a subscriber is owed -/

/-- The type of callback an event calls for, whatever is subscribed. -/
def EventPayload.callbackType? : EventPayload → Option CallbackEventType
  | .taskCreated _ => some .taskCreated
  | .taskProgressUpdated .. => some .taskProgress
  | .taskStatusChanged _ _ .running => some .taskRunning
  | .taskStatusChanged _ _ .succeeded => some .taskSucceeded
  | .taskStatusChanged _ _ .failed => some .taskFailed
  | .taskStatusChanged _ _ .cancelled => some .taskCancelled
  | _ => none

/-- The task is the one the event is about, and its configuration lists the callback type. -/
def EventRecord.SubscribedBy (event : EventRecord) (task : TaskRecord) : Prop :=
  event.payload.taskId? = some task.taskId ∧ ∃ config ∈ task.callback,
    ∃ callbackType ∈ event.payload.callbackType?, callbackType ∈ config.events

instance (event : EventRecord) (task : TaskRecord) : Decidable (event.SubscribedBy task) :=
  inferInstanceAs (Decidable (_ ∧ ∃ config ∈ _, ∃ callbackType ∈ _, _))

def CallbackPayload.type : CallbackPayload → CallbackEventType
  | .taskCreated _ => .taskCreated
  | .taskRunning _ => .taskRunning
  | .taskProgress .. => .taskProgress
  | .taskSucceeded .. => .taskSucceeded
  | .taskFailed .. => .taskFailed
  | .taskCancelled _ => .taskCancelled

/-- `created_at`, `started_at`, `updated_at`, `completed_at`, `failed_at` or `cancelled_at`. -/
def CallbackPayload.time : CallbackPayload → Time
  | .taskCreated time | .taskRunning time | .taskProgress _ _ time | .taskSucceeded _ time
  | .taskFailed _ time | .taskCancelled time => time

def CallbackPayload.error? : CallbackPayload → Option ErrorDetail
  | .taskFailed error _ => some error
  | _ => none

/-- The delivery tells the event with the time at which it occurred and, where it tells of a
failure, with the error its task had when the event was committed. -/
structure CallbackDeliveryRecord.Faithful (delivery : CallbackDeliveryRecord) (event : EventRecord)
    (error : Option ErrorDetail) : Prop where
  taskId : event.payload.taskId? = some delivery.taskId
  eventType : event.payload.callbackType? = some delivery.eventType
  payload : delivery.event.payload.type = delivery.eventType
  time : delivery.event.payload.time = event.occurredAt
  error : ∀ detail ∈ delivery.event.payload.error?, error = some detail

/-! ## Transactions -/

/-- The database, and the error that the task of an event had when the event was committed. -/
structure OutboxState where
  db : Db
  errorAt : String → Option ErrorDetail

/-- The error of the task an event is about. -/
def Db.errorOf (db : Db) (event : EventRecord) : Option ErrorDetail :=
  (event.payload.taskId?.bind db.task?).bind (·.error)

/-- The state after a commit; the events behind those of `s` are the new ones. -/
def OutboxState.commit (s : OutboxState) (db : Db) : OutboxState where
  db := db
  errorAt eventId :=
    match (db.events.drop s.db.events.length).find? (·.eventId = eventId) with
    | some event => db.errorOf event
    | none => s.errorAt eventId

/-- The primary key of the event table. -/
def Db.EventsKeyed (db : Db) : Prop :=
  (db.events.map (·.eventId)).Nodup

instance (db : Db) : Decidable db.EventsKeyed :=
  inferInstanceAs (Decidable (List.Nodup _))

inductive OutboxLabel
  | operated (label : Label)
  | materialized (limit : Nat)
  | rolledBack

inductive OutboxStep (self : StageScheduler) : OutboxState → OutboxLabel → OutboxState → Prop
  | operated {s : OutboxState} {label : Label} {db' : Db} : ControlStep self s.db label db' →
      (label = .administered → db'.deliveries = s.db.deliveries) → db'.EventsKeyed →
        OutboxStep self s (.operated label) (s.commit db')
  | materialized {s : OutboxState} {maximumAttempts limit : Nat} {deliveryIds : Nat → String}
      {now : Time} {db' : Db} {records : List CallbackDeliveryRecord} :
      materialize s.db maximumAttempts limit deliveryIds now = .ok (db', records) →
        db'.EventsKeyed → OutboxStep self s (.materialized limit) (s.commit db')
  | rolledBack {s : OutboxState} : OutboxStep self s .rolledBack s

/-- A service starts without tasks, events and deliveries. -/
def outbox (self : StageScheduler) : System OutboxState OutboxLabel where
  Initial s := (controlPlane self).Initial s.db ∧ s.db.deliveries = []
  Step := OutboxStep self

/-! ## Attempts of a task -/

/-- A change of the task's status to one of those with `p`. -/
def EventPayload.movesTo (taskId : String) (p : TaskStatus → Bool) : EventPayload → Bool
  | .taskStatusChanged id _ current => id == taskId && p current
  | _ => false

/-- The status change of `TaskRepository.retry`. -/
def EventPayload.retries (taskId : String) : EventPayload → Bool
  | .taskStatusChanged id previous current =>
      id == taskId && previous.terminal && current == .pending
  | _ => false

/-- The events behind the last retry of a task, newest first. -/
def sinceRetry (taskId : String) (events : List EventRecord) : List EventRecord :=
  events.reverse.takeWhile (!·.payload.retries taskId)

/-- The event belongs to the current attempt of its task; or it is no failure, and the current
attempt has written nothing over the time it is told with. -/
def Db.Tellable (db : Db) (event : EventRecord) : Prop :=
  ∀ taskId ∈ event.payload.taskId?, event ∈ sinceRetry taskId db.events ∨
    event.payload.movesTo taskId (· == .failed) = false ∧
      (event.payload.movesTo taskId (· == .running) → ∀ later ∈ sinceRetry taskId db.events,
        later.payload.movesTo taskId (· == .running) = false) ∧
      (event.payload.movesTo taskId (· == .cancelled) → ∀ later ∈ sinceRetry taskId db.events,
        later.payload.movesTo taskId (·.terminal) = false)

instance (db : Db) (event : EventRecord) : Decidable (db.Tellable event) :=
  inferInstanceAs (Decidable (∀ taskId ∈ event.payload.taskId?, _ ∨ _ ∧ _ ∧ _))

/-- A pass comes before a retry hides a subscribed failure that it selects, and before the next
attempt starts or ends over a subscribed start or cancellation. -/
def DispatchedInTime (s : OutboxState) : OutboxLabel → Prop
  | .materialized limit => ∀ event ∈ s.db.unprocessedEvents limit, ∀ task ∈ s.db.tasks,
      event.SubscribedBy task → s.db.Tellable event
  | _ => True

instance (s : OutboxState) (label : OutboxLabel) : Decidable (DispatchedInTime s label) :=
  match label with
  | .materialized limit =>
      inferInstanceAs (Decidable (∀ event ∈ s.db.unprocessedEvents limit, ∀ task ∈ s.db.tasks, _))
  | .operated _ | .rolledBack => isTrue trivial

/-! ## Scripts of transactions -/

inductive OutboxMove
  | operate (operation : Operation)
  | pass (maximumAttempts limit : Nat) (deliveryIds : Nat → String) (now : Time)

/-- The step of a move; one that raises or breaks the key is rolled back. -/
def OutboxMove.take (self : StageScheduler) (s : OutboxState) :
    OutboxMove → OutboxLabel × OutboxState
  | .operate operation =>
      if operation.answeredInOrder s.db then
        match operation.exec self s.db with
        | .error _ => (.rolledBack, s)
        | .ok (db, response) =>
            if db.EventsKeyed then (.operated (.returned operation response), s.commit db)
            else (.rolledBack, s)
      else (.rolledBack, s)
  | .pass maximumAttempts limit deliveryIds now =>
      match materialize s.db maximumAttempts limit deliveryIds now with
      | .error _ => (.rolledBack, s)
      | .ok (db, _) =>
          if db.EventsKeyed then (.materialized limit, s.commit db) else (.rolledBack, s)

theorem OutboxMove.take_step (self : StageScheduler) (s : OutboxState) (move : OutboxMove) :
    (outbox self).Step s (move.take self s).1 (move.take self s).2 := by
  cases move with
  | operate operation =>
      simp only [OutboxMove.take]
      split
      · next hanswered =>
          split
          · exact .rolledBack
          · next hexec =>
              split
              · next hkeyed =>
                  exact .operated (.returned (answerable_of_answeredInOrder hanswered) hexec)
                    nofun hkeyed
              · exact .rolledBack
      · exact .rolledBack
  | pass =>
      simp only [OutboxMove.take]
      split
      · exact .rolledBack
      · next hcall =>
          split
          · next hkeyed => exact .materialized hcall hkeyed
          · exact .rolledBack

end ParserServe
