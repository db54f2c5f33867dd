import ParserServe.Schema.Callback
import ParserServe.Schema.Pipeline

/-! # The worker protocol

Requests and answers of `schema/worker.py`, the creation request of `schema/task.py` and the
worker update of `schema/management.py`.
-/

namespace ParserServe

structure CreateTaskRequest where
  source : ParseSource
  options : TaskOptions := {}
  clientReference : Option String := none
  callback : Option CallbackConfig := none
  deriving DecidableEq

structure WorkerRegistrationRequest where
  workerId : String
  devices : List DeviceInfo
  backends : List BackendCapability := []
  labels : List (String × String) := []
  maximumConcurrency : Nat
  devices_ne_nil : devices ≠ [] := by decide
  devices_nodup : (devices.map (·.deviceId)).Nodup := by decide
  backends_nodup : (backends.map fun b => (b.name, b.version)).Nodup := by decide
  runtimes_valid : ∀ backend ∈ backends, ∀ runtime ∈ backend.runtimes,
    runtime ∈ devices.map (·.runtime) := by decide
  concurrency_pos : 1 ≤ maximumConcurrency := by decide

structure WorkerHealthCheck where
  name : String
  healthy : Bool
  message : Option String := none
  message_valid : healthy ↔ message = none := by decide
  deriving DecidableEq

structure WorkerResourceUsage where
  cpuPercent : ℚ
  runningTasks : Nat
  leasedTasks : Nat
  healthChecks : List WorkerHealthCheck := []
  deriving DecidableEq

structure WorkerHeartbeatRequest where
  workerId : String
  sequence : Nat
  status : WorkerStatus
  resources : WorkerResourceUsage
  devices : List DeviceUsage := []
  devices_nodup : (devices.map (·.deviceId)).Nodup := by decide
  health_valid : (∃ check ∈ resources.healthChecks, ¬ check.healthy) → status = .unhealthy :=
    by decide

structure WorkerHeartbeatData where
  accepted : Bool
  nextHeartbeatSeconds : Nat
  shouldDrain : Bool := false
  deriving DecidableEq

/-- `UpdateWorkerRequest` of `schema/management.py`. -/
structure UpdateWorkerRequest where
  enabled : Option Bool := none
  draining : Option Bool := none
  maximumConcurrency : Option Nat := none
  schedulingWeight : Option Nat := none
  labels : Option (List (String × String)) := none
  concurrency_pos : ∀ n ∈ maximumConcurrency, 1 ≤ n := by decide
  weight_valid : ∀ n ∈ schedulingWeight, 1 ≤ n ∧ n ≤ 1000 := by decide
  changes : enabled ≠ none ∨ draining ≠ none ∨ maximumConcurrency ≠ none ∨
    schedulingWeight ≠ none ∨ labels ≠ none := by decide

structure WorkerLeaseRequest where
  workerId : String
  availableSlots : Nat
  slots_valid : 1 ≤ availableSlots ∧ availableSlots ≤ 100 := by decide
  deriving DecidableEq

structure StageProgressRequest where
  workerId : String
  leaseToken : String
  progressPercent : ℚ
  progress_valid : 0 ≤ progressPercent ∧ progressPercent ≤ 100 := by decide +kernel
  deriving DecidableEq

inductive CompletionStatus
  | succeeded | failed
  deriving DecidableEq, Repr

structure CompleteStageRequest where
  workerId : String
  leaseToken : String
  status : CompletionStatus
  resultUri : Option String := none
  error : Option ErrorDetail := none
  failed_valid : status = .failed → error.isSome := by decide
  succeeded_valid : status = .succeeded → error = none := by decide
  deriving DecidableEq

/-- A report of success, which carries no error. -/
def CompleteStageRequest.success (workerId leaseToken : String) (resultUri : Option String) :
    CompleteStageRequest where
  workerId := workerId
  leaseToken := leaseToken
  status := .succeeded
  resultUri := resultUri

/-- A report of failure. -/
def CompleteStageRequest.failure (workerId leaseToken : String) (error : ErrorDetail) :
    CompleteStageRequest where
  workerId := workerId
  leaseToken := leaseToken
  status := .failed
  error := some error
  failed_valid := fun _ => rfl
  succeeded_valid := nofun

structure RenewStageLeaseData where
  stageId : String
  leaseExpiresAt : Time
  deriving DecidableEq

structure StageExecutionData where
  taskId : String
  stageId : String
  stageStatus : StageStatus
  taskStatus : TaskStatus
  progressPercent : ℚ
  leaseExpiresAt : Option Time
  deriving DecidableEq

structure LeasedStage where
  taskId : String
  stageId : String
  stageName : String
  backendId : String
  backendName : String
  backendVersion : String
  backendCandidates : List String
  runtime : DeviceRuntime
  deviceId : String
  source : ParseSource
  sourceMetadata : SourceMetadata
  taskOptions : TaskOptions
  parameters : JsonText
  timeoutSeconds : Nat
  attempt : Nat
  maximumAttempts : Nat
  leaseToken : String
  leaseExpiresAt : Time
  deriving DecidableEq

/-- `_lease_digest`. -/
def leaseDigest (token : String) : Digest String := ⟨token⟩

/-- `_completion_digest`: the canonical JSON of the whole request is hashed. -/
def completionDigest (request : CompleteStageRequest) : Digest CompleteStageRequest := ⟨request⟩

end ParserServe
