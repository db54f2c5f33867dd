import Mathlib.Data.List.Basic
import ParserServe.Foundation.Attempt

/-! # Task and Stage states

The status enumerations of `schema/task.py`, `schema/stage.py` and `schema/worker.py`,
the transition tables of `domain/task_state.py`, and the exceptions that the control
plane raises.
-/

namespace ParserServe

open Foundation

inductive TaskStatus
  | pending | leased | running | succeeded | failed | cancelled
  deriving DecidableEq, Repr

inductive StageStatus
  | pending | leased | running | succeeded | failed | cancelled | skipped
  deriving DecidableEq, Repr

inductive WorkerStatus
  | online | busy | draining | offline | unhealthy
  deriving DecidableEq, Repr

/-- `TASK_TRANSITIONS`. -/
def taskTransitions : TaskStatus → List TaskStatus
  | .pending => [.leased, .cancelled]
  | .leased => [.pending, .running, .succeeded, .failed, .cancelled]
  | .running => [.succeeded, .failed, .cancelled]
  | .succeeded => []
  | .failed => [.pending]
  | .cancelled => [.pending]

/-- `STAGE_TRANSITIONS`. -/
def stageTransitions : StageStatus → List StageStatus
  | .pending => [.leased, .cancelled, .skipped]
  | .leased => [.pending, .running, .failed, .cancelled]
  | .running => [.succeeded, .failed, .cancelled]
  | .succeeded => []
  | .failed => [.pending, .skipped]
  | .cancelled => [.pending]
  | .skipped => []

def canTransitionTask (current target : TaskStatus) : Bool :=
  decide (target ∈ taskTransitions current)

def canTransitionStage (current target : StageStatus) : Bool :=
  decide (target ∈ stageTransitions current)

/-- The exceptions of the task repository, the router and the scheduler. -/
inductive ServiceError
  | workerUnavailable
  | invalidLease
  | leaseExpired
  | stageExecutionConflict
  | invalidTaskTransition (current target : TaskStatus)
  | invalidStageTransition (current target : StageStatus)
  | taskNotCancellable
  | taskNotRetryable
  | idempotencyConflict
  | pipelineNotFound
  | uploadedFileNotFound
  | unsupportedFileType
  | taskAlreadyRouted
  | taskSourceUnresolved
  | taskRoutingUnavailable
  | integrityError
  deriving DecidableEq, Repr

def requireTaskTransition (current target : TaskStatus) : Except ServiceError Unit :=
  ensure (canTransitionTask current target) (.invalidTaskTransition current target)

def requireStageTransition (current target : StageStatus) : Except ServiceError Unit :=
  ensure (canTransitionStage current target) (.invalidStageTransition current target)

/-- `{LEASED, RUNNING}`: a worker holds the stage. -/
def StageStatus.active : StageStatus → Bool
  | .leased | .running => true
  | _ => false

/-- `{SUCCEEDED, SKIPPED}`: the stage counts as done for its dependents. -/
def StageStatus.finished : StageStatus → Bool
  | .succeeded | .skipped => true
  | _ => false

/-- `{PENDING, LEASED, RUNNING}`: what a cancellation or a sibling's failure stops. -/
def StageStatus.unfinished : StageStatus → Bool
  | .pending | .leased | .running => true
  | _ => false

/-- `{SUCCEEDED, FAILED, CANCELLED, SKIPPED}`. -/
def StageStatus.terminal : StageStatus → Bool
  | .succeeded | .failed | .cancelled | .skipped => true
  | _ => false

/-- `{SUCCEEDED, FAILED, CANCELLED}`. -/
def TaskStatus.terminal : TaskStatus → Bool
  | .succeeded | .failed | .cancelled => true
  | _ => false

/-- `_ACTIVE_TASK_STATUSES`, the statuses whose stages may be leased. -/
def TaskStatus.active : TaskStatus → Bool
  | .pending | .leased | .running => true
  | _ => false

end ParserServe
