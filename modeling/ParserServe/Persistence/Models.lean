import ParserServe.Foundation.Keyed
import ParserServe.Schema.Worker

/-! # Persistence models

The tables of `persistence/models.py` that the task lifecycle reads and writes.  A task
record holds its stage rows, as `TaskRecord.stages` does after loading; their order in the
list is the order in which the database returned them and means nothing else.  Columns
that no modelled function reads are left out.
-/

namespace ParserServe

open Foundation

structure StageRecord where
  stageId : String
  name : String
  position : Nat
  dependsOn : List String
  optional : Bool
  timeoutSeconds : Nat
  status : StageStatus
  progressPercent : ℚ
  backendId : Option String
  backendVersion : Option String
  backendCandidates : List String
  workerId : Option String := none
  runtime : Option DeviceRuntime := none
  deviceId : Option String := none
  requiredRuntimes : List DeviceRuntime
  attempt : Nat
  maximumAttempts : Nat
  leaseTokenDigest : Option (Digest String) := none
  completionWorkerId : Option String := none
  completionDeviceId : Option String := none
  completionLeaseTokenDigest : Option (Digest String) := none
  completionRequestDigest : Option (Digest CompleteStageRequest) := none
  leaseExpiresAt : Option Time := none
  parameters : JsonText
  retryPolicy : RetryPolicy
  availableAt : Time
  resultUri : Option String := none
  error : Option ErrorDetail := none
  createdAt : Time
  updatedAt : Time
  startedAt : Option Time := none
  completedAt : Option Time := none
  deriving DecidableEq

structure TaskRecord where
  taskId : String
  status : TaskStatus
  progressPercent : ℚ
  source : ParseSource
  sourceMetadata : Option SourceMetadata
  options : TaskOptions
  pipelineId : Option String
  pipelineVersion : Option Nat
  priority : Int
  clientReference : Option String
  callback : Option CallbackConfig := none
  idempotencyDigest : Option (Digest String)
  requestDigest : Digest CreateTaskRequest
  resultUri : Option String := none
  error : Option ErrorDetail := none
  createdAt : Time
  updatedAt : Time
  startedAt : Option Time := none
  completedAt : Option Time := none
  stages : List StageRecord := []
  deriving DecidableEq

structure WorkerRecord where
  workerId : String
  status : WorkerStatus
  enabled : Bool
  maximumConcurrency : Nat
  schedulingWeight : Nat
  devices : List DeviceInfo
  deviceUsage : List DeviceUsage := []
  backends : List BackendCapability
  labels : List (String × String) := []
  resources : Option WorkerResourceUsage := none
  heartbeatSequence : Int := -1
  lastHeartbeatAt : Option Time := none
  updatedAt : Time
  concurrency_pos : 1 ≤ maximumConcurrency := by decide
  weight_valid : 1 ≤ schedulingWeight ∧ schedulingWeight ≤ 1000 := by decide
  devices_nodup : (devices.map (·.deviceId)).Nodup := by decide
  usage_nodup : (deviceUsage.map (·.deviceId)).Nodup := by decide
  backends_nodup : (backends.map fun b => (b.name, b.version)).Nodup := by decide
  deriving DecidableEq

/-- A backend row; its name and version columns repeat those of the capability. -/
structure BackendRecord where
  backendId : String
  status : BackendStatus
  capability : BackendCapability
  updatedAt : Time
  deriving DecidableEq

structure PipelineRecord where
  recordId : Nat
  definition : PipelineDefinition

inductive EventPayload
  | taskCreated (taskId : String)
  | taskStatusChanged (taskId : String) (previousStatus currentStatus : TaskStatus)
  | taskRouted (taskId pipelineId : String) (pipelineVersion : Nat) (stageIds : List String)
  | taskProgressUpdated (taskId : String) (progressPercent : ℚ) (stageId : String)
      (stageStatus : StageStatus)
  | workerStatusChanged (workerId : String) (previousStatus : Option WorkerStatus)
      (currentStatus : WorkerStatus)
  | callbackDeliveryChanged (deliveryId taskId : String) (status : CallbackDeliveryStatus)
  deriving DecidableEq

/-- The event types callbacks are made of, `_CALLBACK_SOURCE_EVENTS` of the retention service. -/
def EventPayload.callbackSource : EventPayload → Bool
  | .taskCreated _ | .taskStatusChanged .. | .taskProgressUpdated .. => true
  | .taskRouted .. | .workerStatusChanged .. | .callbackDeliveryChanged .. => false

structure EventRecord where
  eventId : String
  payload : EventPayload
  occurredAt : Time
  callbackProcessed : Bool := false
  deriving DecidableEq

def eventBefore (a b : EventRecord) : Prop :=
  a.occurredAt < b.occurredAt ∨ (a.occurredAt = b.occurredAt ∧ a.eventId ≤ b.eventId)

instance : DecidableRel eventBefore := fun _ _ => inferInstanceAs (Decidable (_ ∨ _))

structure UploadedFileRecord where
  fileId : String
  storageKey : String
  createdAt : Time
  expiresAt : Option Time
  deriving DecidableEq

/-- What the digest of an artifact upload is computed from. -/
structure ArtifactContent where
  artifactType : ArtifactType
  filename : String
  mimeType : Mime
  sizeBytes : Nat
  sha256 : String
  deriving DecidableEq

structure ArtifactRecord extends ArtifactContent where
  artifactId : String
  taskId : String
  stageId : Option String
  workerId : Option String
  storageKey : String
  storageUri : String
  idempotencyDigest : Option (Digest String)
  requestDigest : Option (Digest ArtifactContent)
  createdAt : Time
  expiresAt : Option Time
  deriving DecidableEq

structure CallbackDeliveryRecord where
  deliveryId : String
  eventId : String
  eventType : CallbackEventType
  taskId : String
  targetUrl : String
  status : CallbackDeliveryStatus
  attempt : Nat := 0
  attemptSequence : Nat := 0
  maximumAttempts : Nat
  event : CallbackEvent
  responseStatusCode : Option Nat := none
  responseSummary : Option String := none
  nextAttemptAt : Option Time := none
  createdAt : Time
  updatedAt : Time
  deriving DecidableEq

structure CallbackAttemptRecord where
  attemptId : String
  deliveryId : String
  sequence : Nat
  attemptNumber : Nat
  delivered : Bool
  responseStatusCode : Option Nat
  responseSummary : Option String
  durationMs : Nat
  error : Option ErrorDetail
  startedAt : Time
  completedAt : Time
  deriving DecidableEq

/-- The committed tables.  `eventIdFactory` is the generator of event identifiers and
`published` counts its calls.  The primary keys of the worker, backend and delivery tables
are proof fields; those of the task and stage tables are kept by the operations. -/
structure Db where
  tasks : List TaskRecord
  workers : List WorkerRecord
  backends : List BackendRecord
  pipelines : List PipelineRecord
  events : List EventRecord
  uploads : List UploadedFileRecord
  artifacts : List ArtifactRecord
  deliveries : List CallbackDeliveryRecord := []
  attempts : List CallbackAttemptRecord := []
  eventIdFactory : Nat → String
  published : Nat
  workers_nodup : (workers.map (·.workerId)).Nodup := by decide
  backends_nodup : (backends.map (·.backendId)).Nodup := by decide
  deliveries_nodup : (deliveries.map (·.deliveryId)).Nodup := by decide

/-! ## Reading and writing rows -/

def TaskRecord.saveStage (task : TaskRecord) (stage : StageRecord) : TaskRecord :=
  { task with stages := replaceKey (·.stageId) stage task.stages }

def Db.saveTask (db : Db) (task : TaskRecord) : Db :=
  { db with tasks := replaceKey (·.taskId) task db.tasks }

def Db.saveWorker (db : Db) (worker : WorkerRecord) : Db :=
  { db with
    workers := replaceKey (·.workerId) worker db.workers
    workers_nodup := by
      rw [map_replaceKey]
      exact db.workers_nodup }

/-- `DatabaseEventBus.publish`. -/
def Db.publish (db : Db) (now : Time) (payload : EventPayload) : Db :=
  { db with
    events := db.events ++ [⟨db.eventIdFactory db.published, payload, now, false⟩]
    published := db.published + 1 }

def Db.publishAll (db : Db) (now : Time) (payloads : List EventPayload) : Db :=
  payloads.foldl (fun db payload => db.publish now payload) db

def Db.task? (db : Db) (taskId : String) : Option TaskRecord :=
  db.tasks.find? (·.taskId = taskId)

def Db.worker? (db : Db) (workerId : String) : Option WorkerRecord :=
  db.workers.find? (·.workerId = workerId)

def Db.backend? (db : Db) (backendId : String) : Option BackendRecord :=
  db.backends.find? (·.backendId = backendId)

def TaskRecord.stage? (task : TaskRecord) (stageId : String) : Option StageRecord :=
  task.stages.find? (·.stageId = stageId)

/-- `_stage_for_update`: the stage row together with its task and the task's stages. -/
def Db.stageForUpdate (db : Db) (stageId : String) : Option (TaskRecord × StageRecord) :=
  db.tasks.findSome? fun task => (task.stage? stageId).map (task, ·)

def Db.stages (db : Db) : List StageRecord := db.tasks.flatMap (·.stages)

/-- What routing reads besides the task itself. -/
def Db.catalogue (db : Db) : List PipelineRecord × List BackendRecord :=
  (db.pipelines, db.backends)

/-! ## Frames -/

@[simp] theorem Db.publish_tasks (db : Db) (now : Time) (payload : EventPayload) :
    (db.publish now payload).tasks = db.tasks := rfl

@[simp] theorem Db.publishAll_tasks (db : Db) (now : Time) (payloads : List EventPayload) :
    (db.publishAll now payloads).tasks = db.tasks := by
  induction payloads generalizing db with
  | nil => rfl
  | cons payload payloads ih => exact ih (db.publish now payload)

@[simp] theorem Db.publishAll_events (db : Db) (now : Time) (payloads : List EventPayload) :
    (db.publishAll now payloads).events.map (·.payload) =
      db.events.map (·.payload) ++ payloads := by
  induction payloads generalizing db with
  | nil => simp [Db.publishAll]
  | cons payload payloads ih =>
      rw [Db.publishAll, List.foldl_cons]
      refine (ih (db.publish now payload)).trans ?_
      simp [Db.publish]

@[simp] theorem Db.saveTask_events (db : Db) (task : TaskRecord) :
    (db.saveTask task).events = db.events := rfl

theorem Db.mem_stages {db : Db} {stage : StageRecord} :
    stage ∈ db.stages ↔ ∃ task ∈ db.tasks, stage ∈ task.stages := List.mem_flatMap

theorem Db.stageForUpdate_mem {db : Db} {stageId : String} {task : TaskRecord}
    {stage : StageRecord} (h : db.stageForUpdate stageId = some (task, stage)) :
    task ∈ db.tasks ∧ stage ∈ task.stages ∧ stage.stageId = stageId := by
  obtain ⟨found, hmem, hfound⟩ := List.exists_of_findSome?_eq_some h
  obtain ⟨row, hrow, heq⟩ := Option.map_eq_some_iff.mp hfound
  cases heq
  exact ⟨hmem, List.mem_of_find?_eq_some hrow, by simpa using List.find?_some hrow⟩

end ParserServe
