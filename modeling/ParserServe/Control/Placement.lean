import Mathlib.Data.Prod.Lex
import Mathlib.Data.String.Basic
import ParserServe.Persistence.Models

/-! # Placement of a stage on a worker

The selection helpers of `control/scheduler.py`: which backend, runtime and device a worker
would use for a stage, and whether the asking worker is the preferred one.  Loads are exact
rationals.
-/

namespace ParserServe

/-- The scheduler's settings, with the checks of its constructor. -/
structure StageScheduler where
  leaseDurationSeconds : Nat
  maximumDeviceMemoryUtilizationPercent : ℚ := 95
  lease_pos : 1 ≤ leaseDurationSeconds := by decide
  utilization_valid : 0 < maximumDeviceMemoryUtilizationPercent ∧
    maximumDeviceMemoryUtilizationPercent ≤ 100 := by decide +kernel

def WorkerRecord.usage? (worker : WorkerRecord) (deviceId : String) : Option DeviceUsage :=
  worker.deviceUsage.find? (·.deviceId = deviceId)

/-- Reported total memory, or the one declared at registration. -/
def totalMemory (worker : WorkerRecord) (device : DeviceInfo) : Option Nat :=
  ((worker.usage? device.deviceId).bind (·.memoryTotalBytes)).or device.totalMemoryBytes

def usedMemory (worker : WorkerRecord) (device : DeviceInfo) : Nat :=
  ((worker.usage? device.deviceId).bind (·.memoryUsedBytes)).getD 0

/-- Used over total memory, zero where the total is unknown or zero. -/
def memoryLoad (worker : WorkerRecord) (device : DeviceInfo) : ℚ :=
  match totalMemory worker device with
  | some total => if 0 < total then (usedMemory worker device : ℚ) / total else 0
  | none => 0

/-- At least `minimum` bytes are free. -/
def enoughMemory (worker : WorkerRecord) (device : DeviceInfo) (minimum : Option Nat) : Bool :=
  match minimum with
  | none => true
  | some minimum =>
      match totalMemory worker device with
      | none => false
      | some total => decide ((minimum : Int) ≤ (total : Int) - usedMemory worker device)

/-- Below the memory threshold and with enough memory left. -/
def StageScheduler.deviceAvailable (self : StageScheduler) (worker : WorkerRecord)
    (device : DeviceInfo) (minimumMemoryBytes : Option Nat) : Bool :=
  decide (memoryLoad worker device * 100 < self.maximumDeviceMemoryUtilizationPercent) &&
    enoughMemory worker device minimumMemoryBytes

/-- `_available_worker_runtimes`. -/
def StageScheduler.availableWorkerRuntimes (self : StageScheduler) (worker : WorkerRecord)
    (minimumMemoryBytes : Option Nat) : List DeviceRuntime :=
  (worker.devices.filter (self.deviceAvailable worker · minimumMemoryBytes)).map (·.runtime)

def WorkerRecord.capability? (worker : WorkerRecord) (name version : String) :
    Option BackendCapability :=
  worker.backends.find? fun capability => capability.name = name ∧ capability.version = version

/-- The source test of `_select_backend`: MIME patterns decide when there are any, the
category only when there are none. -/
def capabilityAcceptsSource (capability : BackendCapability) (metadata : SourceMetadata) : Bool :=
  if capability.mimeTypes ≠ [] then
    capability.mimeTypes.any (mimePatternsOverlap · metadata.mimeType)
  else capability.mediaCategories.contains metadata.mediaCategory

/-- The test of one candidate of `_select_backend`. -/
def candidateRuntime (db : Db) (task : TaskRecord) (stage : StageRecord) (worker : WorkerRecord)
    (workerRuntimes : List DeviceRuntime) (backendId : String) :
    Option (BackendRecord × DeviceRuntime) := do
  let backend ← db.backend? backendId
  if backend.status ≠ .enabled then none
  else do
    let workerCapability ← worker.capability? backend.capability.name backend.capability.version
    let metadata ← task.sourceMetadata
    if ¬ capabilityAcceptsSource workerCapability metadata then none
    else do
      let runtime ← stage.requiredRuntimes.find? fun runtime =>
        decide (runtime ∈ backend.capability.runtimes ∧ runtime ∈ workerRuntimes ∧
          runtime ∈ workerCapability.runtimes)
      some (backend, runtime)

/-- `_select_backend`: the first candidate the worker can execute, with its runtime. -/
def selectBackend (db : Db) (task : TaskRecord) (stage : StageRecord) (worker : WorkerRecord)
    (workerRuntimes : List DeviceRuntime) : Option (BackendRecord × DeviceRuntime) :=
  if ∀ runtime ∈ stage.requiredRuntimes, runtime ∉ workerRuntimes then none
  else stage.backendCandidates.findSome? (candidateRuntime db task stage worker workerRuntimes)

/-- `any(worker.labels_payload.get(key) != value ...)`, negated. -/
def labelsMatch (worker : WorkerRecord) (options : TaskOptions) : Bool :=
  options.device.workerLabels.entries.all fun (key, value) => worker.labels.lookup key == some value

/-! ## Ranking of the candidate workers -/

/-- The loads of the compatible devices that have enough memory. -/
def deviceLoads (worker : WorkerRecord) (compatibleRuntimes : List DeviceRuntime)
    (minimumMemoryBytes : Option Nat) : List ℚ :=
  (worker.devices.filter fun device => compatibleRuntimes.contains device.runtime &&
      enoughMemory worker device minimumMemoryBytes).map fun device =>
    match worker.usage? device.deviceId with
    | none => 0
    | some usage =>
        max (max 0 ((usage.utilizationPercent.map (· / 100)).getD 0)) (memoryLoad worker device)

/-- `_worker_scheduling_score`. -/
def workerSchedulingScore (worker : WorkerRecord) (activeCount : Nat)
    (compatibleRuntimes : List DeviceRuntime) (minimumMemoryBytes : Option Nat) : ℚ :=
  let capacity : ℚ := worker.maximumConcurrency
  let resourceLoads := match worker.resources with
    | none => []
    | some resources =>
        [resources.cpuPercent / 100,
          min ((resources.runningTasks + resources.leasedTasks : ℚ) / capacity) 1]
  let deviceLoad := ((deviceLoads worker compatibleRuntimes minimumMemoryBytes).min?).toList
  let signals := (activeCount / capacity) :: (resourceLoads ++ deviceLoad)
  let load := min (signals.foldl max 0) 1
  worker.schedulingWeight * max (1 - load) (5 / 100)

/-- The first four components of an entry of `ranked`. -/
abbrev WorkerRank := ℤ ×ₗ ℚ ×ₗ ℕ ×ₗ ℤ

/-- The least index in the stage's runtime order. -/
def leastRuntimeIndex (stage : StageRecord) (compatibleRuntimes : List DeviceRuntime) : Nat :=
  ((compatibleRuntimes.map (stage.requiredRuntimes.idxOf ·)).min?).getD 0

/-- The entry of one candidate worker, if it could execute the stage now. -/
def StageScheduler.workerRank (self : StageScheduler) (db : Db) (task : TaskRecord)
    (stage : StageRecord) (activeCount : Nat) (candidate : WorkerRecord) : Option WorkerRank :=
  let minimumMemoryBytes := task.options.device.minimumMemoryBytes
  let runtimes := self.availableWorkerRuntimes candidate minimumMemoryBytes
  let compatibleRuntimes := runtimes.filter (stage.requiredRuntimes.contains ·)
  if candidate.maximumConcurrency ≤ activeCount then none
  else if ¬ labelsMatch candidate task.options then none
  else if selectBackend db task stage candidate runtimes = none then none
  else some (toLex (-(leastRuntimeIndex stage compatibleRuntimes : ℤ),
    toLex (workerSchedulingScore candidate activeCount compatibleRuntimes minimumMemoryBytes,
      toLex (candidate.schedulingWeight, -(activeCount : ℤ)))))

/-- `_requesting_worker_is_preferred`. -/
def StageScheduler.requestingWorkerIsPreferred (self : StageScheduler) (db : Db)
    (task : TaskRecord) (stage : StageRecord) (requestingWorker : WorkerRecord)
    (requestingWorkerActiveCount : Nat) (candidateWorkers : List WorkerRecord)
    (activeCounts : String → Nat) : Bool :=
  let ranked := candidateWorkers.filterMap fun candidate =>
    let activeCount :=
      if candidate.workerId = requestingWorker.workerId then requestingWorkerActiveCount
      else activeCounts candidate.workerId
    (self.workerRank db task stage activeCount candidate).map (·, candidate.workerId)
  match (ranked.map (·.1)).max? with
  | none => false
  | some best =>
      ((ranked.filter (·.1 = best)).map (·.2)).min? = some requestingWorker.workerId

/-! ## Choice of the device -/

/-- The load `_select_device_id` compares devices by. -/
def deviceLoad (worker : WorkerRecord) (device : DeviceInfo) : ℚ :=
  max (memoryLoad worker device)
    ((((worker.usage? device.deviceId).bind (·.utilizationPercent)).map (· / 100)).getD 0)

/-- `_select_device_id`: least reserved, then least loaded, then by identifier. -/
def StageScheduler.selectDeviceId (self : StageScheduler) (worker : WorkerRecord)
    (runtime : DeviceRuntime) (minimumMemoryBytes : Option Nat)
    (activeCounts : String → Nat) : Option String :=
  let candidates : List (ℕ ×ₗ ℚ ×ₗ String) :=
    (worker.devices.filter fun device => decide (device.runtime = runtime) &&
      self.deviceAvailable worker device minimumMemoryBytes).map fun device =>
        toLex (activeCounts device.deviceId,
          toLex (deviceLoad worker device, device.deviceId))
  candidates.min?.map fun best => (ofLex (ofLex best).2).2

end ParserServe
