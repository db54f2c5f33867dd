import ParserServe.Persistence.Registry

/-! # Versions of a pipeline

The writes of `PipelineRepository` in `persistence/registry.py`.  A row repeats in its columns
what its `definition_payload` says, and both are written together, so it is kept once here.
Creation checks the whole definition and nothing changes it later but the status and
`published_at`: `model_copy` and `model_dump` write these without a check, and
`pipeline_definition` finds out when the row is read again.
-/

namespace ParserServe

open Foundation

/-- The part of a definition that is fixed at creation. -/
structure PipelineContent where
  pipelineId : String
  name : String
  version : Nat
  mediaCategories : List MediaCategory
  mimeTypes : List Mime := []
  routingPriority : Int := 0
  stages : List PipelineStageDefinition
  createdAt : Time
  version_valid : 1 ≤ version
  categories_ne_nil : mediaCategories ≠ []
  stages_ne_nil : stages ≠ []
  dag_valid : validateDag stages = .ok ()

instance : DecidableEq PipelineContent := fun a b =>
  decidable_of_iff (a.pipelineId = b.pipelineId ∧ a.name = b.name ∧ a.version = b.version ∧
    a.mediaCategories = b.mediaCategories ∧ a.mimeTypes = b.mimeTypes ∧
    a.routingPriority = b.routingPriority ∧ a.stages = b.stages ∧ a.createdAt = b.createdAt)
    (by cases a; cases b; simp)

structure PipelineRow extends PipelineContent where
  recordId : Nat
  status : PipelineStatus
  publishedAt : Option Time := none
  updatedAt : Time
  deriving DecidableEq

/-- `pipeline_definition`, with the checks that a row may fail. -/
def PipelineRow.definition (record : PipelineRow) : Except String PipelineDefinition :=
  if hmissing : record.status = .published ∧ record.publishedAt = none then
    .error "published pipelines require published_at"
  else if hextra : record.status ≠ .published ∧ record.publishedAt ≠ none then
    .error "only published pipelines may define published_at"
  else if hearly : ∃ t ∈ record.publishedAt, t < record.createdAt then
    .error "published_at cannot be earlier than created_at"
  else .ok {
    pipelineId := record.pipelineId
    name := record.name
    version := record.version
    status := record.status
    mediaCategories := record.mediaCategories
    mimeTypes := record.mimeTypes
    routingPriority := record.routingPriority
    stages := record.stages
    createdAt := record.createdAt
    publishedAt := record.publishedAt
    version_valid := record.version_valid
    categories_ne_nil := record.categories_ne_nil
    stages_ne_nil := record.stages_ne_nil
    dag_valid := record.dag_valid
    published_valid := by
      rw [Option.isSome_iff_ne_none]
      tauto
    published_after := fun t ht => not_lt.mp fun hlt => hearly ⟨t, ht, hlt⟩ }

structure CreatePipelineRequest where
  pipelineId : String
  name : String
  mediaCategories : List MediaCategory
  mimeTypes : List Mime := []
  routingPriority : Int := 0
  stages : List PipelineStageDefinition
  categories_ne_nil : mediaCategories ≠ [] := by decide
  stages_ne_nil : stages ≠ [] := by decide

structure PipelineValidationViolation where
  location : String
  message : String
  deriving DecidableEq, Repr

structure PipelineValidationData where
  valid : Bool
  violations : List PipelineValidationViolation := []
  valid_iff : valid ↔ violations = []
  deriving DecidableEq

/-! ## Validation -/

/-- `enabled_by_names` on the rows of the backend table. -/
def enabledBackends (backends : List BackendRecord) (names : List String) : List BackendRecord :=
  let records := (backends.filter fun record =>
    decide (record.capability.name ∈ names ∧ record.status = .enabled)).insertionSort
      backendBefore
  names.flatMap fun name => records.filter (·.capability.name = name)

theorem enabledByNames_eq (db : Db) (names : List String) :
    enabledByNames db names = enabledBackends db.backends names := rfl

def backendSupportsPipeline (capability : BackendCapability) (pipeline : PipelineContent) : Bool :=
  let categoriesOverlap := capability.mediaCategories.any (pipeline.mediaCategories.contains ·)
  let mimeOverlap := capability.mimeTypes.any fun backendMime =>
    pipeline.mimeTypes.any (mimePatternsOverlap backendMime ·)
  categoriesOverlap || mimeOverlap

/-- The `compatible` backends of a stage. -/
def compatibleBackends (backends : List BackendRecord) (pipeline : PipelineContent)
    (stage : PipelineStageDefinition) : List BackendRecord :=
  (enabledBackends backends (stage.backend.preferred :: stage.backend.fallbacks)).filter
    fun backend => backendSupportsPipeline backend.capability pipeline &&
      (stage.backend.requiredRuntimes.isEmpty ||
        stage.backend.requiredRuntimes.any (backend.capability.runtimes.contains ·))

def stageViolations (backends : List BackendRecord) (pipeline : PipelineContent)
    (stage : PipelineStageDefinition) : List PipelineValidationViolation :=
  if compatibleBackends backends pipeline stage = [] then
    [{ location := "stages." ++ stage.name ++ ".backend"
       message := "no enabled compatible backend provides the required " ++
        "media and runtime capabilities" }]
  else []

def validationData (violations : List PipelineValidationViolation) : PipelineValidationData where
  valid := violations.isEmpty
  violations := violations
  valid_iff := List.isEmpty_iff

/-- `PipelineRepository.validate`. -/
def PipelineRow.validate (backends : List BackendRecord) (record : PipelineRow) :
    Except String PipelineValidationData := do
  let definition ← record.definition
  .ok (validationData (definition.stages.flatMap
    (stageViolations backends record.toPipelineContent)))

/-! ## Creation -/

/-- `func.max(PipelineRecord.version)`. -/
def currentVersion (rows : List PipelineRow) (pipelineId : String) : Option Nat :=
  ((rows.filter (·.pipelineId = pipelineId)).map (·.version)).max?

/-- `PipelineRepository.create`; the database numbers the new row. -/
def createPipeline (rows : List PipelineRow) (request : CreatePipelineRequest) (recordId : Nat)
    (now : Time) : Except String PipelineRow :=
  match hdag : validateDag request.stages with
  | .error message => .error message
  | .ok () => .ok {
      pipelineId := request.pipelineId
      name := request.name
      version := (currentVersion rows request.pipelineId).getD 0 + 1
      mediaCategories := request.mediaCategories
      mimeTypes := request.mimeTypes
      routingPriority := request.routingPriority
      stages := request.stages
      createdAt := now
      version_valid := Nat.le_add_left 1 _
      categories_ne_nil := request.categories_ne_nil
      stages_ne_nil := request.stages_ne_nil
      dag_valid := hdag
      recordId := recordId
      status := .draft
      updatedAt := now }

/-! ## Publishing -/

inductive PublishError
  /-- A `ValidationError` of `pipeline_definition`. -/
  | invalidDefinition (message : String)
  /-- `PipelinePublishError`. -/
  | publish (validation : PipelineValidationData)

/-- The row `pipeline_id`, `version`. -/
def pipelineRow? (rows : List PipelineRow) (pipelineId : String) (version : Nat) :
    Option PipelineRow :=
  rows.find? fun row => row.pipelineId = pipelineId ∧ row.version = version

/-- The condition of the query for `currently_published`. -/
def PipelineRow.PublishedBeside (record row : PipelineRow) : Prop :=
  row.pipelineId = record.pipelineId ∧ row.status = .published ∧ row.recordId ≠ record.recordId

instance (record row : PipelineRow) : Decidable (record.PublishedBeside row) :=
  inferInstanceAs (Decidable (_ ∧ _))

def PipelineRow.disable (row : PipelineRow) (now : Time) : PipelineRow :=
  { row with
    status := .disabled
    publishedAt := none
    updatedAt := now }

def PipelineRow.publish (row : PipelineRow) (now : Time) : PipelineRow :=
  { row with
    status := .published
    publishedAt := some now
    updatedAt := now }

/-- The rows as publishing `record` leaves them, the rows `previous` being disabled. -/
def publishRows (rows : List PipelineRow) (record : PipelineRow) (previous : List PipelineRow)
    (now : Time) : List PipelineRow :=
  replaceKeys (·.recordId) (record.publish now :: previous.map (·.disable now)) rows

/-- `PipelineRepository.publish` in a transaction that no other one overlaps: the rows after it,
`none` where the version does not exist. -/
def publishPipeline (backends : List BackendRecord) (rows : List PipelineRow)
    (pipelineId : String) (version : Nat) (now : Time) :
    Except PublishError (Option (List PipelineRow)) :=
  match pipelineRow? rows pipelineId version with
  | none => .ok none
  | some record => do
      let validation ← (record.validate backends).mapError .invalidDefinition
      ensure validation.valid (.publish validation)
      let previous := rows.filter (record.PublishedBeside ·)
      let _ ← (previous.mapM PipelineRow.definition).mapError .invalidDefinition
      .ok (some (publishRows rows record previous now))

end ParserServe
