import ParserServe.Persistence.Models

/-! # Stage outcomes and task reconciliation

The part of `control/scheduler.py` that works on one loaded task: ending a stage, and
bringing the task's status in line with its stages (`_reconcile_task`).
-/

namespace ParserServe

open Foundation

/-- `_clear_lease`. -/
def StageRecord.clearLease (stage : StageRecord) : StageRecord :=
  { stage with
    workerId := none
    deviceId := none
    leaseTokenDigest := none
    leaseExpiresAt := none }

/-- `_require_valid_lease`. -/
def StageRecord.requireValidLease (stage : StageRecord) (workerId leaseToken : String)
    (now : Time) : Except ServiceError Unit := do
  ensure (stage.workerId = some workerId ∧
    stage.leaseTokenDigest = some (leaseDigest leaseToken)) .invalidLease
  ensure (∃ expiresAt ∈ stage.leaseExpiresAt, now < expiresAt) .leaseExpired

/-- A stage that delivered its result. -/
def StageRecord.finish (stage : StageRecord) (resultUri : Option String) (now : Time) :
    StageRecord :=
  StageRecord.clearLease
    { stage with
      status := .succeeded
      progressPercent := 100
      resultUri := resultUri
      completedAt := some now
      updatedAt := now }

/-- `_succeed_stage`. -/
def StageRecord.succeed (stage : StageRecord) (resultUri : Option String) (now : Time) :
    Except ServiceError StageRecord := do
  requireStageTransition .running .succeeded
  .ok (stage.finish resultUri now)

/-- The back-off before the next attempt. -/
def StageRecord.retryDelay (stage : StageRecord) : ℚ :=
  min (stage.retryPolicy.initialDelaySeconds *
      stage.retryPolicy.multiplier ^ (stage.attempt - 1))
    stage.retryPolicy.maximumDelaySeconds

/-- The transition guards of an automatic retry. -/
def requireRetryTransition (current : StageStatus) : Except ServiceError Unit :=
  if current = .running then do
    requireStageTransition current .failed
    requireStageTransition .failed .pending
  else requireStageTransition current .pending

/-- The default of `_fail_or_retry_stage` when no error is given. -/
def missingErrorDetail : ErrorDetail where
  code := .internalError
  message := "The Stage failed without error details"

/-- Back to the queue for another attempt. -/
def StageRecord.requeue (stage : StageRecord) (now : Time) : StageRecord :=
  StageRecord.clearLease
    { stage with
      status := .pending
      progressPercent := 0
      error := none
      startedAt := none
      completedAt := none
      availableAt := now + stage.retryDelay
      updatedAt := now }

/-- An optional stage that used up its attempts. -/
def StageRecord.skip (stage : StageRecord) (now : Time) : StageRecord :=
  StageRecord.clearLease
    { stage with
      status := .skipped
      error := none
      completedAt := some now
      updatedAt := now }

/-- A required stage that used up its attempts. -/
def StageRecord.fail (stage : StageRecord) (error : Option ErrorDetail) (now : Time) :
    StageRecord :=
  StageRecord.clearLease
    { stage with
      status := .failed
      error := some (error.getD missingErrorDetail)
      completedAt := some now
      updatedAt := now }

/-- `_fail_or_retry_stage`: another attempt while there is one left, else the stage is
skipped when it is optional and failed when it is not. -/
def StageRecord.failOrRetry (stage : StageRecord) (error : Option ErrorDetail) (now : Time) :
    Except ServiceError StageRecord := do
  let current := stage.status
  ensure current.active .stageExecutionConflict
  if stage.attempt < stage.maximumAttempts then do
    requireRetryTransition current
    .ok (stage.requeue now)
  else if stage.optional then do
    requireStageTransition current .failed
    requireStageTransition .failed .skipped
    .ok (stage.skip now)
  else do
    requireStageTransition current .failed
    .ok (stage.fail error now)

/-- What the failure of a sibling does to a stage that has not ended. -/
def StageRecord.stop (stage : StageRecord) (now : Time) : StageRecord :=
  if stage.status.unfinished then
    StageRecord.clearLease
      { stage with
        status := .cancelled
        completedAt := some now
        updatedAt := now }
  else stage

/-- `_update_task_progress`. -/
def TaskRecord.updateProgress (task : TaskRecord) (now : Time) : TaskRecord :=
  { task with
    progressPercent :=
      if task.stages = [] then 0
      else (task.stages.map fun stage =>
        if stage.status.finished then 100 else stage.progressPercent).sum / task.stages.length
    updatedAt := now }

/-- The task's final result: the last row, as loaded, that has one. -/
def lastResultUri (stages : List StageRecord) : Option String :=
  stages.reverse.findSome? (·.resultUri)

/-- The status decision of `_reconcile_task`. -/
def TaskRecord.settle (task : TaskRecord) (now : Time) : Except ServiceError TaskRecord :=
  let previous := task.status
  match task.stages.find? (·.status = .failed) with
  | some failedStage => do
      requireTaskTransition previous .failed
      .ok { task with
        status := .failed
        error := failedStage.error
        completedAt := some now
        stages := task.stages.map (·.stop now) }
  | none =>
      if task.stages ≠ [] ∧ ∀ stage ∈ task.stages, stage.status.finished then do
        requireTaskTransition previous .succeeded
        .ok { task with
          status := .succeeded
          progressPercent := 100
          completedAt := some now
          resultUri := lastResultUri task.stages }
      else if previous = .leased ∧
          ∀ stage ∈ task.stages, stage.status = .pending ∨ stage.status.finished then do
        requireTaskTransition previous .pending
        .ok { task with status := .pending }
      else .ok task

/-- `_reconcile_task`. -/
def TaskRecord.reconcile (task : TaskRecord) (now : Time) :
    Except ServiceError (TaskRecord × List EventPayload) := do
  let previous := task.status
  let settled ← task.settle now
  let task := settled.updateProgress now
  .ok (task, if task.status = previous then []
    else [.taskStatusChanged task.taskId previous task.status])

/-- `_dependencies_satisfied`. -/
def TaskRecord.dependenciesSatisfied (task : TaskRecord) (stage : StageRecord) : Bool :=
  stage.dependsOn.all fun dependency =>
    ((task.stages.find? (·.name = dependency)).map (·.status.finished)).getD false

end ParserServe
