import ParserServe.Persistence.Registry

/-! # Routing

`control/router.py`: a pending task is bound to a pipeline version and receives one stage
row for each stage of the definition, with the backends and runtimes that may execute it.
-/

namespace ParserServe

open Foundation

/-- `TaskRouter._select_pipeline`. -/
def selectPipeline (db : Db) (task : TaskRecord) (metadata : SourceMetadata)
    (allowUnpublished : Bool) : Except ServiceError PipelineRecord :=
  match task.pipelineId, task.pipelineVersion with
  | some pipelineId, some version =>
      match pipelineByVersion db pipelineId version with
      | none => .error .taskRoutingUnavailable
      | some pipeline => do
          ensure (pipeline.definition.status = .published ∨
            (allowUnpublished ∧ pipeline.definition.status = .draft)) .taskRoutingUnavailable
          ensure (pipelineSupportsSource pipeline.definition metadata.mediaCategory
            metadata.mimeType) .taskRoutingUnavailable
          .ok pipeline
  | _, _ =>
      match publishedCandidates db metadata.mediaCategory metadata.mimeType with
      | [] => .error .taskRoutingUnavailable
      | pipeline :: _ => .ok pipeline

/-- `TaskRouter._runtime_compatible`: some runtime of the backend survives the stage's and,
under REQUIRE, the task's restriction. -/
def runtimeCompatible (backendRuntimes stageRequired taskRequired : List DeviceRuntime)
    (taskStrategy : SchedulingStrategy) : Bool :=
  backendRuntimes.any fun runtime =>
    (stageRequired.isEmpty || stageRequired.contains runtime) &&
      (taskStrategy != .require || taskRequired.isEmpty || taskRequired.contains runtime)

/-- `TaskRouter._allowed_runtimes`. -/
def allowedRuntimes (candidates stageRequired taskRequired : List DeviceRuntime)
    (taskStrategy : SchedulingStrategy) : List DeviceRuntime :=
  let ordered := candidates.eraseDups
  let ordered :=
    if stageRequired.isEmpty then ordered else ordered.filter (stageRequired.contains ·)
  if taskStrategy = .require ∧ taskRequired ≠ [] then
    ordered.filter (taskRequired.contains ·)
  else if taskStrategy = .prefer ∧ taskRequired ≠ [] then
    let preferred := taskRequired.filter (ordered.contains ·)
    preferred ++ ordered.filter (!preferred.contains ·)
  else ordered

/-- The backends kept for a stage definition, best first. -/
def stageCandidates (db : Db) (options : TaskOptions) (metadata : SourceMetadata)
    (stageDefinition : PipelineStageDefinition) (names : List String) : List BackendRecord :=
  let candidates := (enabledByNames db names).filter fun backend =>
    backendSupportsSource backend.capability metadata.mediaCategory metadata.mimeType &&
      runtimeCompatible backend.capability.runtimes stageDefinition.backend.requiredRuntimes
        options.device.runtimes options.device.strategy
  if options.device.strategy = .prefer ∧ options.device.runtimes ≠ [] then
    -- a stable sort on one boolean, true first
    let preferred := fun backend : BackendRecord =>
      backend.capability.runtimes.any (options.device.runtimes.contains ·)
    candidates.filter preferred ++ candidates.filter (!preferred ·)
  else candidates

/-- The names a stage may draw its backends from. -/
def stageBackendNames (options : TaskOptions) (stageDefinition : PipelineStageDefinition) :
    Except ServiceError (List String) :=
  let names := stageDefinition.backend.preferred :: stageDefinition.backend.fallbacks
  match options.backendName with
  | none => .ok names
  | some name => do
      ensure (name ∈ names) .taskRoutingUnavailable
      .ok [name]

/-- The stage row `route` inserts for the kept backends. -/
def newStage (options : TaskOptions) (now : Time) (stageId : String) (position : Nat)
    (stageDefinition : PipelineStageDefinition) (selected : BackendRecord)
    (candidates : List BackendRecord) : StageRecord where
  stageId := stageId
  name := stageDefinition.name
  position := position
  dependsOn := stageDefinition.dependsOn
  optional := stageDefinition.optional
  timeoutSeconds := stageDefinition.timeoutSeconds
  status := .pending
  progressPercent := 0
  backendId := some selected.backendId
  backendVersion := some selected.capability.version
  backendCandidates := candidates.map (·.backendId)
  requiredRuntimes := allowedRuntimes (candidates.flatMap (·.capability.runtimes))
    stageDefinition.backend.requiredRuntimes options.device.runtimes options.device.strategy
  attempt := 0
  maximumAttempts := stageDefinition.retry.maximumAttempts
  parameters := stageDefinition.parameters
  retryPolicy := stageDefinition.retry
  availableAt := now
  createdAt := now
  updatedAt := now

/-- The body of the loop of `route`: one stage row. -/
def planStage (db : Db) (options : TaskOptions) (metadata : SourceMetadata) (now : Time)
    (stageId : String) (position : Nat) (stageDefinition : PipelineStageDefinition) :
    Except ServiceError StageRecord := do
  let names ← stageBackendNames options stageDefinition
  match stageCandidates db options metadata stageDefinition names with
  | [] => .error .taskRoutingUnavailable
  | selected :: others =>
      .ok (newStage options now stageId position stageDefinition selected (selected :: others))

/-- The loop of `route` from `position` on; `stageIds` are the identifiers drawn. -/
def planStages (db : Db) (options : TaskOptions) (metadata : SourceMetadata) (now : Time)
    (stageIds : Nat → String) :
    Nat → List PipelineStageDefinition → Except ServiceError (List StageRecord)
  | _, [] => .ok []
  | position, stageDefinition :: rest => do
      let stage ← planStage db options metadata now (stageIds position) position stageDefinition
      let stages ← planStages db options metadata now stageIds (position + 1) rest
      .ok (stage :: stages)

/-- The part of `route` that works on the locked task row. -/
def TaskRecord.route (task : TaskRecord) (db : Db) (allowUnpublished : Bool)
    (stageIds : Nat → String) (now : Time) :
    Except ServiceError (TaskRecord × List EventPayload) := do
  ensure (task.status = .pending) .taskAlreadyRouted
  if task.stages ≠ [] then .ok (task, [])
  else match task.sourceMetadata with
    | none => .error .taskSourceUnresolved
    | some metadata => do
        let pipeline ← selectPipeline db task metadata allowUnpublished
        let definition := pipeline.definition
        let stages ← planStages db task.options metadata now stageIds 0 definition.stages
        -- the primary key of the stage table
        ensure ((stages.map (·.stageId)).Nodup ∧
          ∀ stage ∈ stages, stage.stageId ∉ db.stages.map (·.stageId)) .integrityError
        .ok ({ task with
            stages := stages
            pipelineId := some definition.pipelineId
            pipelineVersion := some definition.version
            updatedAt := now },
          [.taskRouted task.taskId definition.pipelineId definition.version
            (stages.map (·.stageId))])

end ParserServe
