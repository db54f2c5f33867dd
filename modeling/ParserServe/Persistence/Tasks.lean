import ParserServe.Persistence.Models

/-! # Task persistence

`persistence/tasks.py`: idempotent creation, cancellation and manual retry of a task, and
the projection `task_detail` with the checks of `schema/task.py` and `schema/stage.py`.
An identifier drawn by a call (`uuid4`) and the outcome of `_source_metadata` are
arguments of the call, and the parsing of URLs is a parameter of the projection.
-/

namespace ParserServe

open Foundation

/-! ## Creation -/

/-- `_validate_pipeline`.  Asking for a version `None` selects no row. -/
def validatePipeline (db : Db) (options : TaskOptions) (allowUnpublished : Bool) :
    Except ServiceError Unit :=
  match options.pipelineId with
  | none => .ok ()
  | some pipelineId =>
      ensure (db.pipelines.any fun record =>
          record.definition.pipelineId == pipelineId &&
          some record.definition.version == options.pipelineVersion &&
          (record.definition.status == .published ||
            (allowUnpublished && record.definition.status == .draft)))
        .pipelineNotFound

/-- The row `create` inserts. -/
def newTask (request : CreateTaskRequest) (idempotencyKey : Option String) (taskId : String)
    (metadata : Option SourceMetadata) (now : Time) : TaskRecord where
  taskId := taskId
  status := .pending
  progressPercent := 0
  source := request.source
  sourceMetadata := metadata
  options := request.options
  pipelineId := request.options.pipelineId
  pipelineVersion := request.options.pipelineVersion
  priority := request.options.priority
  clientReference := request.clientReference
  callback := request.callback
  idempotencyDigest := idempotencyKey.map Digest.mk
  requestDigest := ⟨request⟩
  createdAt := now
  updatedAt := now

/-- `TaskRepository.create`; the flag says whether the task is new. -/
def createTask (db : Db) (request : CreateTaskRequest) (idempotencyKey : Option String)
    (allowUnpublished : Bool) (taskId : String)
    (metadata : Except ServiceError (Option SourceMetadata)) (now : Time) :
    Except ServiceError (Db × TaskRecord × Bool) :=
  let existing := idempotencyKey.bind fun key =>
    db.tasks.find? (·.idempotencyDigest = some ⟨key⟩)
  match existing with
  | some record => do
      ensure (record.requestDigest = ⟨request⟩) .idempotencyConflict
      .ok (db, record, false)
  | none => do
      validatePipeline db request.options allowUnpublished
      let metadata ← metadata
      -- the primary key of the table
      ensure (taskId ∉ db.tasks.map (·.taskId)) .integrityError
      let record := newTask request idempotencyKey taskId metadata now
      .ok (({ db with tasks := db.tasks ++ [record] }).publish now (.taskCreated taskId),
        record, true)

/-! ## Cancellation and manual retry -/

/-- What `TaskRepository.cancel` does to one stage; unlike `_clear_lease` it leaves
`worker_id` and `device_id` in place. -/
def StageRecord.cancel (stage : StageRecord) (now : Time) : StageRecord :=
  if stage.status.unfinished then
    { stage with
      status := .cancelled
      completedAt := some now
      updatedAt := now
      leaseTokenDigest := none
      leaseExpiresAt := none
      completionWorkerId := none
      completionDeviceId := none
      completionLeaseTokenDigest := none
      completionRequestDigest := none }
  else stage

def TaskRecord.cancel (record : TaskRecord) (now : Time) :
    Except ServiceError (TaskRecord × List EventPayload) := do
  let current := record.status
  ensure (¬ current.terminal) .taskNotCancellable
  requireTaskTransition current .cancelled
  .ok ({ record with
      status := .cancelled
      completedAt := some now
      updatedAt := now
      stages := record.stages.map (·.cancel now) },
    [.taskStatusChanged record.taskId current .cancelled])

/-- What `TaskRepository.retry` does to one stage; `available_at`, `device_id` and
`runtime` keep their values. -/
def StageRecord.reset (stage : StageRecord) (now : Time) : StageRecord :=
  if stage.status = .failed ∨ stage.status = .cancelled then
    { stage with
      status := .pending
      progressPercent := 0
      workerId := none
      attempt := 0
      leaseTokenDigest := none
      leaseExpiresAt := none
      completionWorkerId := none
      completionDeviceId := none
      completionLeaseTokenDigest := none
      completionRequestDigest := none
      error := none
      startedAt := none
      completedAt := none
      updatedAt := now }
  else stage

def TaskRecord.retry (record : TaskRecord) (now : Time) :
    Except ServiceError (TaskRecord × List EventPayload) := do
  let current := record.status
  ensure (current = .failed ∨ current = .cancelled) .taskNotRetryable
  requireTaskTransition current .pending
  .ok ({ record with
      status := .pending
      progressPercent := 0
      error := none
      resultUri := none
      startedAt := none
      completedAt := none
      updatedAt := now
      stages := record.stages.map (·.reset now) },
    [.taskStatusChanged record.taskId current .pending])

/-- Apply an operation on one task, write the record back and publish its events. -/
def Db.withTask (db : Db) (taskId : String) (now : Time)
    (operation : TaskRecord → Except ServiceError (TaskRecord × List EventPayload)) :
    Except ServiceError (Db × Option TaskRecord) :=
  match db.task? taskId with
  | none => .ok (db, none)
  | some record => do
      let (record, payloads) ← operation record
      .ok ((db.saveTask record).publishAll now payloads, some record)

/-- `TaskRepository.cancel`. -/
def cancelTask (db : Db) (taskId : String) (now : Time) :
    Except ServiceError (Db × Option TaskRecord) :=
  db.withTask taskId now (·.cancel now)

/-- `TaskRepository.retry`. -/
def retryTask (db : Db) (taskId : String) (now : Time) :
    Except ServiceError (Db × Option TaskRecord) :=
  db.withTask taskId now (·.retry now)

/-! ## Detail views -/

/-- The URL types of `schema/source.py` but for the length: the text of the value that `HttpUrl`,
or `AnyUrl` of the scheme s3, makes of a text, where `none` is a text that is not valid. -/
structure UrlTypes where
  httpUrl : String → Option String
  objectUri : String → Option String

def requireUrl : Option String → Except String String
  | none => .error "Input should be a valid URL"
  | some text => .ok text

/-- `_source_adapter` on the stored payload.  The length that `HttpUrl` limits is that of the text
it is given, and the payload holds the text it has made of the one in the request.  The other
constraints of a source hold of what they have accepted. -/
def ParseSource.revalidate (urls : UrlTypes) : ParseSource → Except String ParseSource
  | .url stored => do
      ensure (stored.utf8ByteSize ≤ 2083) "URL should have at most 2083 characters"
      let value ← requireUrl (urls.httpUrl stored)
      .ok (.url value)
  | .objectStorage stored versionId => do
      let value ← requireUrl (urls.objectUri stored)
      .ok (.objectStorage value versionId)
  | source => .ok source

structure StageDetail where
  stageId : String
  name : String
  position : Nat
  dependsOn : List String
  optional : Bool
  timeoutSeconds : Nat
  status : StageStatus
  progressPercent : ℚ
  backendId : Option String
  backendVersion : Option String
  backendCandidates : List String
  workerId : Option String
  runtime : Option DeviceRuntime
  deviceId : Option String
  completionWorkerId : Option String
  completionDeviceId : Option String
  requiredRuntimes : List DeviceRuntime
  attempt : Nat
  maximumAttempts : Nat
  createdAt : Time
  startedAt : Option Time
  completedAt : Option Time
  resultUri : Option String
  error : Option ErrorDetail
  deriving DecidableEq

/-- The `Percent` constraint. -/
def requirePercent (value : ℚ) : Except String Unit := do
  ensure (0 ≤ value) "Input should be greater than or equal to 0"
  ensure (value ≤ 100) "Input should be less than or equal to 100"

/-- `started_at` and `completed_at` against `created_at`, shared by both views. -/
def requireOrderedTimes (createdAt : Time) (startedAt completedAt : Option Time) :
    Except String Unit := do
  ensure (∀ started ∈ startedAt, createdAt ≤ started)
    "started_at cannot be earlier than created_at"
  ensure (∀ started ∈ startedAt, ∀ completed ∈ completedAt, started ≤ completed)
    "completed_at cannot be earlier than started_at"

/-- `StageDetail.validate_state` after the field constraints. -/
def StageDetail.validate (self : StageDetail) : Except String Unit := do
  ensure (1 ≤ self.timeoutSeconds) "Input should be greater than or equal to 1"
  ensure (self.timeoutSeconds ≤ 86400) "Input should be less than or equal to 86400"
  requirePercent self.progressPercent
  ensure (1 ≤ self.maximumAttempts) "Input should be greater than or equal to 1"
  ensure self.dependsOn.Nodup "depends_on must not contain duplicates"
  ensure self.backendCandidates.Nodup "backend_candidates must not contain duplicates"
  ensure self.requiredRuntimes.Nodup "required_runtimes must not contain duplicates"
  ensure (self.status.terminal → self.completedAt.isSome)
    "terminal stages require completed_at"
  ensure (self.status = .failed → self.error.isSome) "failed stages require error details"
  ensure (self.status ≠ .failed → self.error = none)
    "only failed stages may contain error details"
  ensure (self.status ≠ .succeeded → self.resultUri = none)
    "only succeeded stages may contain result_uri"
  ensure (self.attempt ≤ self.maximumAttempts) "attempt cannot exceed maximum_attempts"
  ensure (self.status = .running → self.startedAt.isSome) "running stages require started_at"
  ensure (self.completionDeviceId.isSome → self.completionWorkerId.isSome)
    "completion_device_id requires completion_worker_id"
  requireOrderedTimes self.createdAt self.startedAt self.completedAt

/-- `_stage_detail`. -/
def stageDetail (record : StageRecord) : Except String StageDetail := do
  let detail : StageDetail :=
    { record with }
  detail.validate
  .ok detail

structure TaskDetail where
  taskId : String
  status : TaskStatus
  progressPercent : ℚ
  source : ParseSource
  sourceMetadata : Option SourceMetadata
  options : TaskOptions
  pipelineId : Option String
  pipelineVersion : Option Nat
  stages : List StageDetail
  clientReference : Option String
  createdAt : Time
  startedAt : Option Time
  completedAt : Option Time
  resultUri : Option String
  error : Option ErrorDetail
  deriving DecidableEq

/-- `requires_pipeline`. -/
def TaskStatus.requiresPipeline : TaskStatus → Bool
  | .leased | .running | .succeeded | .failed => true
  | _ => false

/-- `TaskDetail.validate_state` after the field constraints. -/
def TaskDetail.validate (self : TaskDetail) : Except String Unit := do
  requirePercent self.progressPercent
  ensure (∀ version ∈ self.pipelineVersion, 1 ≤ version)
    "Input should be greater than or equal to 1"
  ensure (self.pipelineId = none ↔ self.pipelineVersion = none)
    "pipeline_id and pipeline_version must be defined together"
  ensure (self.status.requiresPipeline → self.pipelineId ≠ none)
    "executable tasks require a bound pipeline version"
  ensure (self.status.terminal → self.completedAt.isSome) "terminal tasks require completed_at"
  ensure (self.status = .failed → self.error.isSome) "failed tasks require error details"
  ensure (self.status ≠ .failed → self.error = none)
    "only failed tasks may contain error details"
  ensure (self.status ≠ .succeeded → self.resultUri = none)
    "only succeeded tasks may contain result_uri"
  ensure (self.status = .running → self.startedAt.isSome) "running tasks require started_at"
  requireOrderedTimes self.createdAt self.startedAt self.completedAt

/-- The order of `sorted(record.stages, key=lambda item: (item.position, item.stage_id))`. -/
def stageBefore (a b : StageRecord) : Prop :=
  a.position < b.position ∨ (a.position = b.position ∧ a.stageId ≤ b.stageId)

instance : DecidableRel stageBefore := fun _ _ => inferInstanceAs (Decidable (_ ∨ _))

/-- `task_detail`. -/
def taskDetail (urls : UrlTypes) (record : TaskRecord) : Except String TaskDetail := do
  let source ← record.source.revalidate urls
  let stages ← (record.stages.insertionSort stageBefore).mapM stageDetail
  let detail : TaskDetail :=
    { record with source := source, stages := stages }
  detail.validate
  .ok detail

end ParserServe
