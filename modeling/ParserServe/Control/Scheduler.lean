import ParserServe.Control.Placement
import ParserServe.Control.Reconcile
import ParserServe.Control.Router
import ParserServe.Persistence.Tasks

/-! # Stage leasing

`control/scheduler.py`: the calls a worker makes on a stage, the lease request, and the
recovery of expired leases.  Each call is one transaction on the database; a call that
raises is rolled back by its caller.  Where a query leaves the order of its rows to the
database, the rows in the order returned are an argument of the call.
-/

namespace ParserServe

open Foundation

/-! ## Calls on one stage -/

/-- `_execution_data`. -/
def executionData (task : TaskRecord) (stage : StageRecord) : StageExecutionData where
  taskId := task.taskId
  stageId := stage.stageId
  stageStatus := stage.status
  taskStatus := task.status
  progressPercent := task.progressPercent
  leaseExpiresAt := stage.leaseExpiresAt

/-- The part of `renew` that works on the loaded rows. -/
def TaskRecord.renew (task : TaskRecord) (self : StageScheduler) (stage : StageRecord)
    (workerId leaseToken : String) (now : Time) :
    Except ServiceError (TaskRecord × List EventPayload) := do
  stage.requireValidLease workerId leaseToken now
  ensure stage.status.active .stageExecutionConflict
  .ok (task.saveStage
    { stage with
      leaseExpiresAt := some (now + self.leaseDurationSeconds)
      updatedAt := now }, [])

/-- The part of `start` that works on the loaded rows. -/
def TaskRecord.start (task : TaskRecord) (stage : StageRecord) (workerId leaseToken : String)
    (now : Time) : Except ServiceError (TaskRecord × List EventPayload) := do
  stage.requireValidLease workerId leaseToken now
  ensure (stage.status = .leased) .stageExecutionConflict
  requireStageTransition stage.status .running
  let saved := task.saveStage
    { stage with
      status := .running
      startedAt := some (stage.startedAt.getD now)
      updatedAt := now }
  if task.status = .leased then do
    requireTaskTransition task.status .running
    .ok ({ saved with
        status := .running
        startedAt := some (task.startedAt.getD now)
        updatedAt := now },
      [.taskStatusChanged task.taskId task.status .running])
  else .ok (saved, [])

/-- The part of `progress` that works on the loaded rows. -/
def TaskRecord.progress (task : TaskRecord) (stage : StageRecord) (request : StageProgressRequest)
    (now : Time) : Except ServiceError (TaskRecord × List EventPayload) := do
  stage.requireValidLease request.workerId request.leaseToken now
  ensure (stage.status = .running) .stageExecutionConflict
  let saved := (task.saveStage
    { stage with
      progressPercent := request.progressPercent
      updatedAt := now }).updateProgress now
  .ok (saved,
    [.taskProgressUpdated task.taskId saved.progressPercent stage.stageId .running])

/-- The `completion_*` columns, written before the outcome is applied. -/
def StageRecord.recordCompletion (stage : StageRecord) (request : CompleteStageRequest) :
    StageRecord :=
  { stage with
    completionWorkerId := some request.workerId
    completionDeviceId := stage.deviceId
    completionLeaseTokenDigest := some (leaseDigest request.leaseToken)
    completionRequestDigest := some (completionDigest request) }

/-- The outcome a completion request reports for its stage. -/
def StageRecord.complete (stage : StageRecord) (request : CompleteStageRequest) (now : Time) :
    Except ServiceError StageRecord :=
  match request.status with
  | .succeeded => (stage.recordCompletion request).succeed request.resultUri now
  | .failed => (stage.recordCompletion request).failOrRetry request.error now

/-- The part of `complete` after the replay test. -/
def TaskRecord.complete (task : TaskRecord) (stage : StageRecord) (request : CompleteStageRequest)
    (now : Time) : Except ServiceError (TaskRecord × List EventPayload) := do
  stage.requireValidLease request.workerId request.leaseToken now
  ensure (stage.status = .running) .stageExecutionConflict
  let stage ← stage.complete request now
  (task.saveStage stage).reconcile now

/-- The error recorded when a lease runs out. -/
def timeoutError (stage : StageRecord) : ErrorDetail where
  code := .timeout
  message := "The Stage lease expired"
  retryable := decide (stage.attempt < stage.maximumAttempts)

/-- One iteration of `requeue_expired` on the loaded rows. -/
def TaskRecord.expire (task : TaskRecord) (stage : StageRecord) (now : Time) :
    Except ServiceError (TaskRecord × List EventPayload) := do
  let stage ← stage.failOrRetry (some (timeoutError stage)) now
  (task.saveStage stage).reconcile now

/-- What a grant writes; the `completion_*` columns of earlier leases are cleared. -/
structure Grant where
  workerId : String
  backendId : String
  backendVersion : String
  runtime : DeviceRuntime
  deviceId : String
  token : String
  expiresAt : Time

def StageRecord.grant (stage : StageRecord) (grant : Grant) (now : Time) : StageRecord :=
  { stage with
    status := .leased
    backendId := some grant.backendId
    backendVersion := some grant.backendVersion
    workerId := some grant.workerId
    runtime := some grant.runtime
    deviceId := some grant.deviceId
    attempt := stage.attempt + 1
    leaseTokenDigest := some (leaseDigest grant.token)
    completionWorkerId := none
    completionDeviceId := none
    completionLeaseTokenDigest := none
    completionRequestDigest := none
    leaseExpiresAt := some grant.expiresAt
    updatedAt := now }

/-- The writes of one granted lease on the loaded rows. -/
def TaskRecord.lease (task : TaskRecord) (stage : StageRecord) (grant : Grant) (now : Time) :
    Except ServiceError (TaskRecord × List EventPayload) := do
  requireStageTransition .pending .leased
  let saved := task.saveStage (stage.grant grant now)
  if task.status = .pending then do
    requireTaskTransition task.status .leased
    .ok ({ saved with status := .leased, updatedAt := now },
      [.taskStatusChanged task.taskId task.status .leased])
  else .ok (saved, [])

/-! ## Transactions -/

/-- Load a stage, apply an operation on its task, write back and publish; the answer is
read off the written rows. -/
def Db.withStage {β : Type} (db : Db) (stageId : String) (now : Time)
    (operation : TaskRecord → StageRecord → Except ServiceError (TaskRecord × List EventPayload))
    (answer : TaskRecord → StageRecord → β) : Except ServiceError (Db × Option β) :=
  match db.stageForUpdate stageId with
  | none => .ok (db, none)
  | some (task, stage) => do
      let (task, payloads) ← operation task stage
      .ok ((db.saveTask task).publishAll now payloads, (task.stage? stageId).map (answer task))

/-- `_active_stage_count`. -/
def Db.activeStageCount (db : Db) (workerId : String) : Nat :=
  (db.stages.filter fun stage => stage.workerId = some workerId ∧ stage.status.active).length

/-- `_release_worker_if_idle`. -/
def Db.releaseWorkerIfIdle (db : Db) (workerId : String) (now : Time) : Db :=
  match db.worker? workerId with
  | none => db
  | some worker =>
      if worker.enabled ∧ worker.status = .busy ∧ db.activeStageCount workerId = 0 then
        db.saveWorker { worker with status := .online, updatedAt := now }
      else db

/-- `StageScheduler.renew`. -/
def StageScheduler.renew (self : StageScheduler) (db : Db) (stageId workerId leaseToken : String)
    (now : Time) : Except ServiceError (Db × Option RenewStageLeaseData) :=
  db.withStage stageId now
    (fun task stage => task.renew self stage workerId leaseToken now)
    (fun _ stage => ⟨stage.stageId, now + self.leaseDurationSeconds⟩)

/-- `StageScheduler.start`. -/
def startStage (db : Db) (stageId workerId leaseToken : String) (now : Time) :
    Except ServiceError (Db × Option StageExecutionData) :=
  db.withStage stageId now (fun task stage => task.start stage workerId leaseToken now)
    executionData

/-- `StageScheduler.progress`. -/
def progressStage (db : Db) (stageId : String) (request : StageProgressRequest) (now : Time) :
    Except ServiceError (Db × Option StageExecutionData) :=
  db.withStage stageId now (fun task stage => task.progress stage request now) executionData

/-- `StageScheduler.authorize_artifact_upload`; it writes nothing. -/
def authorizeArtifactUpload (db : Db) (stageId workerId leaseToken : String) (now : Time) :
    Except ServiceError (Db × Option StageRecord) :=
  match db.stageForUpdate stageId with
  | none => .ok (db, none)
  | some (_, stage) => do
      stage.requireValidLease workerId leaseToken now
      ensure stage.status.active .stageExecutionConflict
      .ok (db, some stage)

/-- The stored completion of a stage is that of this request. -/
def StageRecord.completionMatches (stage : StageRecord) (request : CompleteStageRequest) : Prop :=
  stage.completionWorkerId = some request.workerId ∧
    stage.completionLeaseTokenDigest = some (leaseDigest request.leaseToken) ∧
    stage.completionRequestDigest = some (completionDigest request)

instance (stage : StageRecord) (request : CompleteStageRequest) :
    Decidable (stage.completionMatches request) := inferInstanceAs (Decidable (_ ∧ _))

/-- `StageScheduler.complete`: a stage whose completion is recorded only answers a replay
of the same request. -/
def completeStage (db : Db) (stageId : String) (request : CompleteStageRequest) (now : Time) :
    Except ServiceError (Db × Option StageExecutionData) :=
  match db.stageForUpdate stageId with
  | none => .ok (db, none)
  | some (task, stage) =>
      if stage.completionRequestDigest ≠ none then do
        ensure (stage.completionMatches request) .stageExecutionConflict
        .ok (db, some (executionData task stage))
      else do
        let (db, data) ← db.withStage stageId now
          (fun task stage => task.complete stage request now) executionData
        .ok (db.releaseWorkerIfIdle request.workerId now, data)

/-! ## Recovery of expired leases -/

/-- The `WHERE` clause of `requeue_expired`. -/
def StageRecord.expired (stage : StageRecord) (now : Time) : Prop :=
  stage.status.active ∧ ∃ expiresAt ∈ stage.leaseExpiresAt, expiresAt ≤ now

instance (stage : StageRecord) (now : Time) : Decidable (stage.expired now) :=
  inferInstanceAs (Decidable (_ ∧ _))

/-- The rows `requeue_expired` selects; the query does not order them. -/
def Db.expiredStages (db : Db) (now : Time) : List String :=
  (db.stages.filter (·.expired now)).map (·.stageId)

/-- One iteration of the loop over the selected rows, collecting the affected workers. -/
def requeueOne (now : Time) (acc : Db × List String) (stageId : String) :
    Except ServiceError (Db × List String) :=
  match acc.1.stageForUpdate stageId with
  | none => .ok acc
  | some (task, stage) => do
      let (task, payloads) ← task.expire stage now
      .ok ((acc.1.saveTask task).publishAll now payloads, acc.2 ++ stage.workerId.toList)

/-- `StageScheduler.requeue_expired` on the selected rows, in the order `rows`. -/
def requeueExpired (db : Db) (rows : List String) (now : Time) :
    Except ServiceError (Db × List String) := do
  let (db, affectedWorkers) ← rows.foldlM (requeueOne now) (db, [])
  .ok (affectedWorkers.eraseDups.foldl (fun db workerId => db.releaseWorkerIfIdle workerId now) db,
    rows)

/-! ## The lease request -/

/-- `_worker_accepts_leases`. -/
def WorkerRecord.acceptsLeases (worker : WorkerRecord) : Bool :=
  worker.enabled && (worker.status == .online || worker.status == .busy)

/-- The `WHERE` clause of the pending query. -/
def leasable (task : TaskRecord) (stage : StageRecord) (now : Time) : Prop :=
  stage.status = .pending ∧ stage.availableAt ≤ now ∧ task.status.active

instance (task : TaskRecord) (stage : StageRecord) (now : Time) :
    Decidable (leasable task stage now) := inferInstanceAs (Decidable (_ ∧ _))

/-- The rows the pending query selects, with their tasks. -/
def Db.leasableRows (db : Db) (now : Time) : List (TaskRecord × StageRecord) :=
  db.tasks.flatMap fun task => (task.stages.filter (leasable task · now)).map (task, ·)

/-- `ORDER BY priority DESC, created_at ASC, position ASC`. -/
def leaseBefore (a b : TaskRecord × StageRecord) : Prop :=
  b.1.priority < a.1.priority ∨ (a.1.priority = b.1.priority ∧
    (a.1.createdAt < b.1.createdAt ∨ (a.1.createdAt = b.1.createdAt ∧
      a.2.position ≤ b.2.position)))

instance : DecidableRel leaseBefore := fun _ _ => inferInstanceAs (Decidable (_ ∨ _))

/-- What the loop of `lease` carries: the database, the leases granted so far and the
device counts. -/
structure LeaseState where
  db : Db
  leases : List LeasedStage
  deviceCounts : String → Nat

/-- What stays fixed during one `lease` call. -/
structure LeaseCall where
  worker : WorkerRecord
  activeCount : Nat
  slots : Nat
  candidateWorkers : List WorkerRecord
  activeCounts : String → Nat
  tokens : Nat → String
  now : Time

/-- The filters of the loop body: what the stage would be executed with. -/
def StageScheduler.placement (self : StageScheduler) (call : LeaseCall) (state : LeaseState)
    (task : TaskRecord) (stage : StageRecord) :
    Option (BackendRecord × DeviceRuntime × String × SourceMetadata) :=
  let minimumMemoryBytes := task.options.device.minimumMemoryBytes
  if ¬ task.dependenciesSatisfied stage then none
  else if ¬ labelsMatch call.worker task.options then none
  else do
    let (backend, runtime) ← selectBackend state.db task stage call.worker
      (self.availableWorkerRuntimes call.worker minimumMemoryBytes)
    if ¬ self.requestingWorkerIsPreferred state.db task stage call.worker
        (call.activeCount + state.leases.length) call.candidateWorkers call.activeCounts then none
    else do
      let deviceId ← self.selectDeviceId call.worker runtime minimumMemoryBytes
        state.deviceCounts
      let metadata ← task.sourceMetadata
      some (backend, runtime, deviceId, metadata)

/-- The answer for one granted stage, with the source as it is stored: that `LeasedStage` checks it
once more is left out. -/
def leasedStage (task : TaskRecord) (stage : StageRecord) (backend : BackendRecord)
    (metadata : SourceMetadata) (grant : Grant) : LeasedStage where
  taskId := task.taskId
  stageId := stage.stageId
  stageName := stage.name
  backendId := backend.backendId
  backendName := backend.capability.name
  backendVersion := backend.capability.version
  backendCandidates := stage.backendCandidates
  runtime := grant.runtime
  deviceId := grant.deviceId
  source := task.source
  sourceMetadata := metadata
  taskOptions := task.options
  parameters := stage.parameters
  timeoutSeconds := stage.timeoutSeconds
  attempt := stage.attempt + 1
  maximumAttempts := stage.maximumAttempts
  leaseToken := grant.token
  leaseExpiresAt := grant.expiresAt

/-- One iteration of the loop of `lease`. -/
def StageScheduler.leaseOne (self : StageScheduler) (call : LeaseCall) (state : LeaseState)
    (stageId : String) : Except ServiceError LeaseState :=
  match state.db.stageForUpdate stageId with
  | none => .ok state
  | some (task, stage) =>
      match self.placement call state task stage with
      | none => .ok state
      | some (backend, runtime, deviceId, metadata) => do
          let grant : Grant :=
            { workerId := call.worker.workerId
              backendId := backend.backendId
              backendVersion := backend.capability.version
              runtime := runtime
              deviceId := deviceId
              token := call.tokens state.leases.length
              expiresAt := call.now + self.leaseDurationSeconds }
          let (saved, payloads) ← task.lease stage grant call.now
          .ok
            { db := (state.db.saveTask saved).publishAll call.now payloads
              leases := state.leases ++ [leasedStage task stage backend metadata grant]
              deviceCounts := Function.update state.deviceCounts deviceId
                (state.deviceCounts deviceId + 1) }

/-- The loop of `lease`, left when the slots are used up. -/
def StageScheduler.leaseLoop (self : StageScheduler) (call : LeaseCall) :
    List String → LeaseState → Except ServiceError LeaseState
  | [], state => .ok state
  | stageId :: rest, state =>
      if call.slots ≤ state.leases.length then .ok state
      else do
        let state ← self.leaseOne call state stageId
        self.leaseLoop call rest state

/-- Active stages of a worker on a device. -/
def Db.activeDeviceCount (db : Db) (workerId deviceId : String) : Nat :=
  (db.stages.filter fun stage => stage.workerId = some workerId ∧
    stage.deviceId = some deviceId ∧ stage.status.active).length

/-- `StageScheduler.lease` on the pending rows, in the order `rows`; `tokens` are the secrets
drawn. -/
def StageScheduler.lease (self : StageScheduler) (db : Db) (request : WorkerLeaseRequest)
    (rows : List String) (tokens : Nat → String) (now : Time) :
    Except ServiceError (Db × List LeasedStage) :=
  match db.worker? request.workerId with
  | none => .error .workerUnavailable
  | some worker => do
      ensure worker.acceptsLeases .workerUnavailable
      let activeCount := db.activeStageCount worker.workerId
      let call : LeaseCall :=
        { worker := worker
          activeCount := activeCount
          slots := min request.availableSlots (worker.maximumConcurrency - activeCount)
          candidateWorkers := db.workers.filter (·.acceptsLeases)
          activeCounts := db.activeStageCount
          tokens := tokens
          now := now }
      if call.slots = 0 then .ok (db, [])
      else do
        let state ← self.leaseLoop call rows ⟨db, [], db.activeDeviceCount worker.workerId⟩
        if worker.maximumConcurrency ≤ activeCount + state.leases.length then
          .ok (state.db.saveWorker { worker with status := .busy, updatedAt := now },
            state.leases)
        else .ok (state.db, state.leases)

/-- `TaskRouter.route`. -/
def routeTask (db : Db) (taskId : String) (allowUnpublished : Bool) (stageIds : Nat → String)
    (now : Time) : Except ServiceError (Db × Option TaskRecord) :=
  db.withTask taskId now fun task => task.route db allowUnpublished stageIds now

end ParserServe
