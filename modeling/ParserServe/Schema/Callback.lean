import ParserServe.Schema.Catalog

/-! # Callback contracts

`schema/callback.py`: the configuration a task may carry, the event a callback sends and the
states of its delivery.
-/

namespace ParserServe

inductive CallbackEventType
  | taskCreated | taskRunning | taskProgress | taskSucceeded | taskFailed | taskCancelled
  deriving DecidableEq, Repr

structure CallbackConfig where
  url : String
  events : List CallbackEventType
  secret : Option String := none
  events_ne_nil : events ≠ [] := by decide
  events_nodup : events.Nodup := by decide
  secret_valid : ∀ text ∈ secret, 32 ≤ text.length ∧ text.length ≤ 256 := by decide
  deriving DecidableEq

inductive CallbackPayload
  | taskCreated (createdAt : Time)
  | taskRunning (startedAt : Time)
  | taskProgress (progressPercent : ℚ) (stageId : Option String) (updatedAt : Time)
  | taskSucceeded (resultUri : Option String) (completedAt : Time)
  | taskFailed (error : ErrorDetail) (failedAt : Time)
  | taskCancelled (cancelledAt : Time)
  deriving DecidableEq

structure CallbackEvent where
  schemaVersion : String
  eventId : String
  taskId : String
  occurredAt : Time
  payload : CallbackPayload
  deriving DecidableEq

inductive CallbackDeliveryStatus
  | pending | delivering | succeeded | retryWait | failed | cancelled
  deriving DecidableEq, Repr

end ParserServe
