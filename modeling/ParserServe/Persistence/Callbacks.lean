import Mathlib.Data.List.Sort
import ParserServe.Persistence.Models

/-! # Callback persistence

`persistence/callbacks.py`: deliveries are made from task events, claimed by a dispatcher,
and take the result of the request the dispatcher sent.  Each call locks the delivery row it
writes before it reads it, so the calls on one delivery take effect one after the other.
-/

namespace ParserServe

open Foundation

/-- The time a call works with, and the time at which its transaction began, which is `now()` in
its statements.  A call reads its clock before the transaction begins. -/
structure CallTime where
  now : Time
  began : Time
  now_le : now ≤ began

/-- The time of a call that reads the clock when its transaction begins. -/
def CallTime.ofClock (clock : Time) : CallTime :=
  ⟨clock, clock, le_rfl⟩

@[simp] theorem CallTime.now_ofClock (clock : Time) : (CallTime.ofClock clock).now = clock := rfl

instance (n : Nat) [OfNat Time n] : OfNat CallTime n := ⟨.ofClock (OfNat.ofNat n)⟩

/-- What the calls of `CallbackRepository` raise. -/
inductive CallbackError
  | notRetryable
  | integrityError
  deriving DecidableEq, Repr

def Db.delivery? (db : Db) (deliveryId : String) : Option CallbackDeliveryRecord :=
  db.deliveries.find? (·.deliveryId = deliveryId)

def Db.saveDelivery (db : Db) (record : CallbackDeliveryRecord) : Db :=
  { db with
    deliveries := replaceKey (·.deliveryId) record db.deliveries
    deliveries_nodup := by
      rw [map_replaceKey]
      exact db.deliveries_nodup }

def Db.insertDelivery (db : Db) (record : CallbackDeliveryRecord)
    (hnew : record.deliveryId ∉ db.deliveries.map (·.deliveryId)) : Db :=
  { db with
    deliveries := db.deliveries ++ [record]
    deliveries_nodup := by
      rw [List.map_append, List.map_singleton, List.nodup_append']
      exact ⟨db.deliveries_nodup, List.nodup_singleton _, by simpa using hnew⟩ }

/-- Write a delivery back and publish its `_status_event`. -/
def Db.changeDelivery (db : Db) (record : CallbackDeliveryRecord) (now : Time) : Db :=
  (db.saveDelivery record).publish now
    (.callbackDeliveryChanged record.deliveryId record.taskId record.status)

/-! ## Materialization -/

/-- The `task_id` column of an event row. -/
def EventPayload.taskId? : EventPayload → Option String
  | .taskCreated taskId | .taskStatusChanged taskId .. | .taskRouted taskId ..
  | .taskProgressUpdated taskId .. | .callbackDeliveryChanged _ taskId _ => some taskId
  | .workerStatusChanged .. => none

/-- The type and payload of the callback an event calls for, whatever is subscribed. -/
def callbackPayload (event : EventRecord) (task : TaskRecord) :
    Option (CallbackEventType × CallbackPayload) :=
  match event.payload with
  | .taskCreated _ => some (.taskCreated, .taskCreated event.occurredAt)
  | .taskProgressUpdated _ progressPercent stageId _ =>
      some (.taskProgress, .taskProgress progressPercent (some stageId) event.occurredAt)
  | .taskStatusChanged _ _ .running =>
      some (.taskRunning, .taskRunning (task.startedAt.getD event.occurredAt))
  | .taskStatusChanged _ _ .succeeded =>
      some (.taskSucceeded,
        .taskSucceeded task.resultUri (task.completedAt.getD event.occurredAt))
  | .taskStatusChanged _ _ .failed => task.error.map fun error =>
      (.taskFailed, .taskFailed error (task.completedAt.getD event.occurredAt))
  | .taskStatusChanged _ _ .cancelled =>
      some (.taskCancelled, .taskCancelled (task.completedAt.getD event.occurredAt))
  | _ => none

/-- `_callback_event`. -/
def callbackEvent (event : EventRecord) (task : TaskRecord) (config : CallbackConfig) :
    Option (CallbackEventType × CallbackEvent) := do
  let (callbackType, payload) ← callbackPayload event task
  if callbackType ∈ config.events then
    some (callbackType,
      { schemaVersion := "1.0"
        eventId := event.eventId
        taskId := task.taskId
        occurredAt := event.occurredAt
        payload := payload })
  else none

/-- The events a pass of `materialize` selects. -/
def Db.unprocessedEvents (db : Db) (limit : Nat) : List EventRecord :=
  ((db.events.filter fun event =>
    event.payload.taskId?.isSome && !event.callbackProcessed && event.payload.callbackSource &&
      !db.deliveries.any (·.eventId == event.eventId)).insertionSort eventBefore).take limit

/-- The delivery an event calls for. -/
def Db.newDelivery? (db : Db) (event : EventRecord) (deliveryId : String)
    (maximumAttempts : Nat) (now : Time) : Option CallbackDeliveryRecord := do
  let task ← event.payload.taskId?.bind db.task?
  let config ← task.callback
  let (callbackType, callbackEvent) ← callbackEvent event task config
  some
    { deliveryId := deliveryId
      eventId := event.eventId
      eventType := callbackType
      taskId := task.taskId
      targetUrl := config.url
      status := .pending
      maximumAttempts := maximumAttempts
      event := callbackEvent
      createdAt := now
      updatedAt := now }

def Db.markProcessed (db : Db) (event : EventRecord) : Db :=
  { db with events := replaceKey (·.eventId) { event with callbackProcessed := true } db.events }

/-- Insert a delivery under the primary key and the unique event of the table, and publish its
`_status_event`. -/
def Db.addDelivery (db : Db) (record : CallbackDeliveryRecord) (now : Time) :
    Except CallbackError Db :=
  if hnew : record.deliveryId ∉ db.deliveries.map (·.deliveryId) then do
    ensure (record.eventId ∉ db.deliveries.map (·.eventId)) .integrityError
    .ok ((db.insertDelivery record hnew).publish now
      (.callbackDeliveryChanged record.deliveryId record.taskId record.status))
  else .error .integrityError

/-- One event of the pass; the rows created so far say which identifier is drawn next. -/
def materializeEvent (maximumAttempts : Nat) (deliveryIds : Nat → String) (now : Time)
    (state : Db × List CallbackDeliveryRecord) (event : EventRecord) :
    Except CallbackError (Db × List CallbackDeliveryRecord) :=
  let db := state.1.markProcessed event
  match db.newDelivery? event (deliveryIds state.2.length) maximumAttempts now with
  | none => .ok (db, state.2)
  | some record => do
      let db ← db.addDelivery record now
      .ok (db, state.2 ++ [record])

/-- `CallbackRepository.materialize`. -/
def materialize (db : Db) (maximumAttempts limit : Nat) (deliveryIds : Nat → String)
    (now : Time) : Except CallbackError (Db × List CallbackDeliveryRecord) :=
  (db.unprocessedEvents limit).foldlM (materializeEvent maximumAttempts deliveryIds now) (db, [])

/-! ## Claims -/

def deliveryBefore (a b : CallbackDeliveryRecord) : Prop :=
  a.createdAt < b.createdAt ∨ (a.createdAt = b.createdAt ∧ a.deliveryId ≤ b.deliveryId)

instance : DecidableRel deliveryBefore := fun _ _ => inferInstanceAs (Decidable (_ ∨ _))

/-- The first row with `p` that no other session has locked. -/
def Db.firstDelivery (db : Db) (locked : List String) (p : CallbackDeliveryRecord → Bool) :
    Option CallbackDeliveryRecord :=
  ((db.deliveries.filter fun record =>
    p record && record.deliveryId ∉ locked).insertionSort deliveryBefore).head?

/-- A claim of the last attempt that timed out. -/
def CallbackDeliveryRecord.exhausted (record : CallbackDeliveryRecord) (staleBefore : Time) :
    Bool :=
  record.status == .delivering && record.updatedAt ≤ staleBefore &&
    record.maximumAttempts ≤ record.attempt

/-- Waiting, waiting for a retry that is due, or claimed too long ago. -/
def CallbackDeliveryRecord.due (record : CallbackDeliveryRecord) (now staleBefore : Time) :
    Bool :=
  record.status == .pending ||
    (record.status == .retryWait && record.nextAttemptAt.any (· ≤ now)) ||
    (record.status == .delivering && record.updatedAt ≤ staleBefore &&
      record.attempt < record.maximumAttempts)

/-- `a or b` on an optional text, where the empty one counts as absent. -/
def orText (text : Option String) (default : String) : String :=
  match text with
  | none => default
  | some text => if text = "" then default else text

/-- The row that an UPDATE leaves.  Without a net change there is none; a column without net change
is not part of it, and `onupdate` writes the time of the transaction to `updated_at` then. -/
def CallbackDeliveryRecord.flush (loaded changed : CallbackDeliveryRecord) (time : CallTime) :
    CallbackDeliveryRecord :=
  { changed with
    updatedAt :=
      if changed ≠ loaded ∧ changed.updatedAt = loaded.updatedAt then time.began
      else changed.updatedAt }

section Flush

variable (loaded changed : CallbackDeliveryRecord) (time : CallTime)

@[simp] theorem CallbackDeliveryRecord.flush_deliveryId :
    (loaded.flush changed time).deliveryId = changed.deliveryId := rfl

@[simp] theorem CallbackDeliveryRecord.flush_status :
    (loaded.flush changed time).status = changed.status := rfl

@[simp] theorem CallbackDeliveryRecord.flush_attempt :
    (loaded.flush changed time).attempt = changed.attempt := rfl

@[simp] theorem CallbackDeliveryRecord.flush_nextAttemptAt :
    (loaded.flush changed time).nextAttemptAt = changed.nextAttemptAt := rfl

@[simp] theorem CallbackDeliveryRecord.flush_responseStatusCode :
    (loaded.flush changed time).responseStatusCode = changed.responseStatusCode := rfl

/-- The time that is written is never earlier than the one the call wrote. -/
theorem CallbackDeliveryRecord.le_flush_updatedAt (h : changed.updatedAt = time.now) :
    time.now ≤ (loaded.flush changed time).updatedAt := by
  unfold flush
  split
  · exact time.now_le
  · exact h.ge

end Flush

def CallbackDeliveryRecord.expire (record : CallbackDeliveryRecord) (time : CallTime) :
    CallbackDeliveryRecord :=
  record.flush
    { record with
      status := .failed
      responseSummary := some (orText record.responseSummary
        "Callback claim expired after the final attempt")
      updatedAt := time.now } time

def CallbackDeliveryRecord.claim (record : CallbackDeliveryRecord) (time : CallTime) :
    CallbackDeliveryRecord :=
  record.flush
    { record with
      status := .delivering
      attempt := record.attempt + 1
      attemptSequence := record.attemptSequence + 1
      nextAttemptAt := none
      updatedAt := time.now } time

/-- The first half of `claim_due`: one claim of a last attempt that timed out is given up. -/
def expireClaim (db : Db) (staleBefore : Time) (locked : List String) (time : CallTime) : Db :=
  match db.firstDelivery locked (·.exhausted staleBefore) with
  | none => db
  | some record => db.changeDelivery (record.expire time) time.now

/-- `CallbackRepository.claim_due`.  The two queries skip the rows that other sessions have
locked when each of them runs. -/
def claimDue (db : Db) (claimTimeoutSeconds : ℚ) (lockedFirst lockedSecond : List String)
    (time : CallTime) : Db × Option CallbackDeliveryRecord :=
  let staleBefore := time.now - claimTimeoutSeconds
  let db := expireClaim db staleBefore lockedFirst time
  match db.firstDelivery lockedSecond (·.due time.now staleBefore) with
  | none => (db, none)
  | some record => (db.changeDelivery (record.claim time) time.now, some (record.claim time))

/-! ## Results and manual retries -/

/-- What a dispatcher reports of a request. -/
structure CallbackResult where
  delivered : Bool
  retryable : Bool
  responseStatusCode : Option Nat
  responseSummary : Option String
  durationMs : Nat
  error : Option ErrorDetail
  deriving DecidableEq

structure RetryTiming where
  initialRetrySeconds : ℚ
  maximumRetrySeconds : ℚ

def RetryTiming.delay (timing : RetryTiming) (attempt : Nat) : ℚ :=
  min (timing.initialRetrySeconds * 2 ^ (attempt - 1)) timing.maximumRetrySeconds

/-- The status and the next attempt that a result calls for. -/
def CallbackDeliveryRecord.outcome (record : CallbackDeliveryRecord) (result : CallbackResult)
    (timing : RetryTiming) (now : Time) : CallbackDeliveryStatus × Option Time :=
  if result.delivered then (.succeeded, none)
  else if result.retryable ∧ record.attempt < record.maximumAttempts then
    (.retryWait, some (now + timing.delay record.attempt))
  else (.failed, none)

/-- The row after the result of its current claim. -/
def CallbackDeliveryRecord.settle (record : CallbackDeliveryRecord) (result : CallbackResult)
    (timing : RetryTiming) (time : CallTime) : CallbackDeliveryRecord :=
  record.flush
    { record with
      status := (record.outcome result timing time.now).1
      responseStatusCode := result.responseStatusCode
      responseSummary := result.responseSummary
      nextAttemptAt := (record.outcome result timing time.now).2
      updatedAt := time.now } time

def newAttempt (attemptId deliveryId : String) (sequence attemptNumber : Nat)
    (result : CallbackResult) (now : Time) : CallbackAttemptRecord where
  attemptId := attemptId
  deliveryId := deliveryId
  sequence := sequence
  attemptNumber := attemptNumber
  delivered := result.delivered
  responseStatusCode := result.responseStatusCode
  responseSummary := result.responseSummary
  durationMs := result.durationMs
  error := result.error
  startedAt := now
  completedAt := now + result.durationMs / 1000

def Db.addAttempt (db : Db) (row : CallbackAttemptRecord) : Db :=
  { db with attempts := db.attempts ++ [row] }

/-- `CallbackRepository.record_result`. -/
def recordResult (db : Db) (timing : RetryTiming) (attemptId deliveryId : String)
    (sequence attemptNumber : Nat) (result : CallbackResult) (time : CallTime) :
    Except CallbackError (Db × Option CallbackDeliveryRecord) :=
  match db.delivery? deliveryId with
  | none => .ok (db, none)
  | some record => do
      -- the primary key and the unique sequence of the table
      ensure (attemptId ∉ db.attempts.map (·.attemptId) ∧
        (deliveryId, sequence) ∉ db.attempts.map fun row => (row.deliveryId, row.sequence))
        .integrityError
      let db := db.addAttempt
        (newAttempt attemptId deliveryId sequence attemptNumber result time.now)
      if record.attemptSequence ≠ sequence then .ok (db, some record)
      else
        let record := record.settle result timing time
        .ok (db.changeDelivery record time.now, some record)

def CallbackDeliveryRecord.reset (record : CallbackDeliveryRecord) (time : CallTime) :
    CallbackDeliveryRecord :=
  record.flush
    { record with
      status := .pending
      attempt := 0
      responseStatusCode := none
      responseSummary := none
      nextAttemptAt := none
      updatedAt := time.now } time

/-- `CallbackRepository.retry`. -/
def retryDelivery (db : Db) (deliveryId : String) (time : CallTime) :
    Except CallbackError (Db × Option CallbackDeliveryRecord) :=
  match db.delivery? deliveryId with
  | none => .ok (db, none)
  | some record => do
      ensure (record.status = .failed ∨ record.status = .cancelled ∨ record.status = .succeeded)
        .notRetryable
      .ok (db.changeDelivery (record.reset time) time.now, some (record.reset time))

/-! ## Detail views -/

structure CallbackDeliveryDetail where
  deliveryId : String
  event : CallbackEvent
  targetUrl : String
  status : CallbackDeliveryStatus
  attempt : Nat
  totalAttempts : Nat
  maximumAttempts : Nat
  responseStatusCode : Option Nat
  responseSummary : Option String
  nextAttemptAt : Option Time
  createdAt : Time
  updatedAt : Time
  deriving DecidableEq

/-- `CallbackDeliveryDetail.validate_delivery`. -/
def CallbackDeliveryDetail.validateDelivery (self : CallbackDeliveryDetail) :
    Except String Unit := do
  ensure (self.attempt ≤ self.maximumAttempts) "attempt cannot exceed maximum_attempts"
  ensure (self.attempt ≤ self.totalAttempts) "attempt cannot exceed total_attempts"
  ensure (self.createdAt ≤ self.updatedAt) "updated_at cannot be earlier than created_at"
  ensure (self.status = .retryWait → self.nextAttemptAt.isSome)
    "retry_wait deliveries require next_attempt_at"
  ensure (self.status ≠ .retryWait → self.nextAttemptAt = none)
    "only retry_wait deliveries may define next_attempt_at"

/-- The constraint on a status code, shared by both views. -/
def requireStatusCode (statusCode : Option Nat) : Except String Unit := do
  ensure (∀ code ∈ statusCode, 100 ≤ code) "Input should be greater than or equal to 100"
  ensure (∀ code ∈ statusCode, code ≤ 599) "Input should be less than or equal to 599"

/-- The view of a row before it is validated. -/
def CallbackDeliveryRecord.view (record : CallbackDeliveryRecord) : CallbackDeliveryDetail :=
  { record with totalAttempts := record.attemptSequence }

/-- `callback_delivery_detail`. -/
def callbackDeliveryDetail (record : CallbackDeliveryRecord) :
    Except String CallbackDeliveryDetail := do
  let detail := record.view
  ensure (1 ≤ detail.maximumAttempts) "Input should be greater than or equal to 1"
  ensure (detail.maximumAttempts ≤ 20) "Input should be less than or equal to 20"
  requireStatusCode detail.responseStatusCode
  detail.validateDelivery
  .ok detail

structure CallbackAttempt where
  attemptId : String
  deliveryId : String
  sequence : Nat
  attemptNumber : Nat
  delivered : Bool
  responseStatusCode : Option Nat
  responseSummary : Option String
  durationMs : Nat
  error : Option ErrorDetail
  startedAt : Time
  completedAt : Time
  deriving DecidableEq

/-- `CallbackAttempt.validate_attempt`. -/
def CallbackAttempt.validateAttempt (self : CallbackAttempt) : Except String Unit := do
  ensure (self.startedAt ≤ self.completedAt) "completed_at cannot be earlier than started_at"
  ensure (self.delivered → self.error = none)
    "successful callback attempts cannot contain an error"
  ensure (self.delivered = false → self.error.isSome) "failed callback attempts require an error"

/-- `callback_attempt_detail`. -/
def callbackAttemptDetail (record : CallbackAttemptRecord) : Except String CallbackAttempt := do
  let detail : CallbackAttempt := { record with }
  ensure (1 ≤ detail.sequence) "Input should be greater than or equal to 1"
  ensure (1 ≤ detail.attemptNumber) "Input should be greater than or equal to 1"
  requireStatusCode detail.responseStatusCode
  detail.validateAttempt
  .ok detail

end ParserServe
