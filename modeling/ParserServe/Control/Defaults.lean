import Mathlib.Data.List.MinMax
import ParserServe.Persistence.Pipelines

/-! # The default catalog

`control/defaults.py`: the built-in backends and the default pipelines, and the installation
that `DefaultCatalogInstaller` makes of them in one transaction.
-/

namespace ParserServe

open Foundation

/-- The tables of the catalog. -/
structure CatalogTables where
  backends : List BackendRecord
  pipelines : List PipelineRow
  deriving DecidableEq

structure InitializeDefaultsRequest where
  includeBuiltinBackends : Bool := true
  publishValidPipelines : Bool := true
  deriving DecidableEq

/-- What the database and `uuid4` number new rows with. -/
structure NewIds where
  backendId : BackendCapability → String
  recordId : List Nat → Nat
  recordId_fresh : ∀ used, recordId used ∉ used

/-! ## Contents -/

theorem cpu_ne_nil : [DeviceRuntime.cpu] ≠ [] :=
  List.cons_ne_nil _ _

theorem cpu_nodup : [DeviceRuntime.cpu].Nodup :=
  List.nodup_singleton _

/-- The capability of a built-in backend; each runs on the CPU. -/
def builtinCapability (name : String) (mediaCategory : MediaCategory)
    (others : List MediaCategory) (mimeTypes : List Mime) : BackendCapability where
  name := name
  version := "1.0"
  mediaCategories := mediaCategory :: others
  mimeTypes := mimeTypes
  runtimes := [.cpu]
  sources_valid := .inl (List.cons_ne_nil _ _)
  runtimes_ne_nil := cpu_ne_nil
  runtimes_nodup := cpu_nodup

def textBackend : BackendCapability :=
  builtinCapability "builtin_text" .text []
    [⟨"text", "plain"⟩, ⟨"text", "markdown"⟩, ⟨"text", "x-markdown"⟩, ⟨"application", "json"⟩]

def staticWebBackend : BackendCapability :=
  builtinCapability "builtin_web" .web [] [⟨"text", "html"⟩, ⟨"application", "xhtml+xml"⟩]

def officeOpenXmlBackend : BackendCapability :=
  builtinCapability "builtin_office" .document []
    [⟨"application", "msword"⟩, ⟨"application", "vnd.ms-excel"⟩,
      ⟨"application", "vnd.ms-powerpoint"⟩,
      ⟨"application", "vnd.openxmlformats-officedocument.wordprocessingml.document"⟩,
      ⟨"application", "vnd.openxmlformats-officedocument.presentationml.presentation"⟩,
      ⟨"application", "vnd.openxmlformats-officedocument.spreadsheetml.sheet"⟩]

def pdfBackend : BackendCapability :=
  builtinCapability "builtin_pdf" .document [] [⟨"application", "pdf"⟩]

def imageMetadataBackend : BackendCapability :=
  builtinCapability "builtin_image" .image [] [⟨"image", "*"⟩]

def ffmpegBackend : BackendCapability :=
  builtinCapability "builtin_ffmpeg" .audio [.video] [⟨"audio", "*"⟩, ⟨"video", "*"⟩]

/-- The capabilities of `BUILTIN_BACKEND_TYPES`. -/
def builtinBackendTypes : List BackendCapability :=
  [textBackend, staticWebBackend, officeOpenXmlBackend, pdfBackend, imageMetadataBackend,
    ffmpegBackend]

theorem two_attempts_valid : 1 ≤ 2 ∧ 2 ≤ 20 := by
  decide

theorem thirty_seconds_valid : (0 : ℚ) ≤ 30 ∧ (30 : ℚ) ≤ 86400 := by
  decide +kernel

theorem doubling_valid : (1 : ℚ) ≤ 2 ∧ (2 : ℚ) ≤ 10 := by
  decide +kernel

def defaultRetry : RetryPolicy where
  maximumAttempts := 2
  initialDelaySeconds := 2
  maximumDelaySeconds := 30
  attempts_valid := two_attempts_valid
  maximum_valid := thirty_seconds_valid
  multiplier_valid := doubling_valid

/-- The only stage of a default pipeline. -/
def defaultStage (name : String) (backend : BackendSelector) (timeoutSeconds : Nat)
    (htimeout : 1 ≤ timeoutSeconds ∧ timeoutSeconds ≤ 86400) (parameters : JsonText) :
    PipelineStageDefinition where
  name := name
  backend := backend
  timeoutSeconds := timeoutSeconds
  retry := defaultRetry
  parameters := parameters
  timeout_valid := htimeout
  self_free := List.not_mem_nil
  dependsOn_nodup := List.nodup_nil

def defaultPipeline (pipelineId name : String) (mediaCategory : MediaCategory)
    (mimeTypes : List Mime) (routingPriority : Int) (stage : PipelineStageDefinition) :
    CreatePipelineRequest where
  pipelineId := pipelineId
  name := name
  mediaCategories := [mediaCategory]
  mimeTypes := mimeTypes
  routingPriority := routingPriority
  stages := [stage]
  categories_ne_nil := List.cons_ne_nil _ _
  stages_ne_nil := List.cons_ne_nil _ _

def selector (preferred : String) (fallbacks : List String)
    (hnodup : (preferred :: fallbacks).Nodup) : BackendSelector where
  preferred := preferred
  fallbacks := fallbacks
  candidates_nodup := hnodup
  runtimes_nodup := List.nodup_nil

def defaultPipelineRequests : List CreatePipelineRequest :=
  [defaultPipeline "pipeline_document_auto" "document.auto" .document [] 100
      (defaultStage "parse" (selector "mineru"
        ["paddleocr_vl", "hunyuan_ocr", "builtin_pdf", "builtin_office"] (by decide))
        600 (by decide) "\x7b\x7d"),
    defaultPipeline "pipeline_web_static" "web.static" .web
      [⟨"text", "html"⟩, ⟨"application", "xhtml+xml"⟩] 100
      (defaultStage "extract" (selector "builtin_web" [] (by decide)) 120 (by decide)
        "\x7b\x7d"),
    defaultPipeline "pipeline_web_rendered" "web.rendered" .web
      [⟨"text", "html"⟩, ⟨"application", "xhtml+xml"⟩] 90
      (defaultStage "render" (selector "web_rendered" [] (by decide)) 300 (by decide)
        "\x7b\"maximum_render_seconds\":60,\"wait_until\":\"networkidle\"\x7d"),
    defaultPipeline "pipeline_image_ocr" "image.ocr" .image [] 100
      (defaultStage "ocr" (selector "paddleocr" ["hunyuan_ocr", "paddleocr_vl"] (by decide))
        300 (by decide) "\x7b\x7d"),
    defaultPipeline "pipeline_image_multimodal" "image.multimodal" .image [] 90
      (defaultStage "understand" (selector "paddleocr_vl" ["hunyuan_ocr", "vlm"] (by decide))
        600 (by decide) "\x7b\x7d"),
    defaultPipeline "pipeline_audio_transcription" "audio.transcription" .audio [] 100
      (defaultStage "transcribe" (selector "asr" [] (by decide)) 3600 (by decide) "\x7b\x7d"),
    defaultPipeline "pipeline_video_multimodal" "video.multimodal" .video [] 100
      (defaultStage "understand" (selector "video_vlm" ["vlm"] (by decide)) 7200 (by decide)
        "\x7b\x7d")]

/-! ## Answers -/

inductive DefaultCatalogAction
  | created | published | unchanged | draftUnavailable
  deriving DecidableEq, Repr

structure DefaultPipelineInitialization where
  pipelineId : String
  version : Nat
  status : PipelineStatus
  action : DefaultCatalogAction
  violations : List PipelineValidationViolation := []
  deriving DecidableEq

structure DefaultCatalogInitializationData where
  backendIdsCreated : List String
  backendIdsExisting : List String
  pipelines : List DefaultPipelineInitialization
  deriving DecidableEq

inductive InstallError
  | publishing (error : PublishError)
  | runtimeError (message : String)

/-! ## Installation -/

/-- The query for an `existing` backend. -/
def existingBackend (backends : List BackendRecord) (capability : BackendCapability) :
    Option BackendRecord :=
  backends.find? fun record =>
    record.capability.name = capability.name ∧ record.capability.version = capability.version

/-- The row that `BackendRepository.create` adds for a built-in backend. -/
def createdBackend (ids : NewIds) (now : Time) (capability : BackendCapability) :
    BackendRecord where
  backendId := ids.backendId capability
  status := .enabled
  capability := capability
  updatedAt := now

/-- The loop over the built-in backends: the table, and the identifiers of the backends it
creates and finds. -/
def installBackends (ids : NewIds) (now : Time) :
    List BackendCapability → List BackendRecord → List BackendRecord × List String × List String
  | [], backends => (backends, [], [])
  | capability :: rest, backends =>
      match existingBackend backends capability with
      | some existing =>
          let (backends, created, existingIds) := installBackends ids now rest backends
          (backends, created, existing.backendId :: existingIds)
      | none =>
          let record := createdBackend ids now capability
          let (backends, created, existingIds) :=
            installBackends ids now rest (backends ++ [record])
          (backends, record.backendId :: created, existingIds)

/-- `ORDER BY version DESC LIMIT 1`. -/
def latestVersion (rows : List PipelineRow) (pipelineId : String) : Option PipelineRow :=
  (rows.filter (·.pipelineId = pipelineId)).argmax (·.version)

/-- `_install_pipeline` from the row of the newest version on. -/
def installVersion (publishValid : Bool) (now : Time) (created : Bool) (catalog : CatalogTables)
    (record : PipelineRow) :
    Except InstallError (CatalogTables × DefaultPipelineInitialization) := do
  let invalid := fun message => InstallError.publishing (.invalidDefinition message)
  let definition ← record.definition.mapError invalid
  if definition.status = .published then
    .ok (catalog, {
      pipelineId := record.pipelineId
      version := record.version
      status := .published
      action := .unchanged })
  else do
    let validation ← (record.validate catalog.backends).mapError invalid
    if publishValid && validation.valid then
      match publishPipeline catalog.backends catalog.pipelines record.pipelineId record.version
          now with
      | .error error => .error (.publishing error)
      | .ok none => .error (.runtimeError "default Pipeline disappeared while publishing")
      | .ok (some rows) => .ok ({ catalog with pipelines := rows }, {
          pipelineId := record.pipelineId
          version := record.version
          status := .published
          action := .published })
    else
      .ok (catalog, {
        pipelineId := record.pipelineId
        version := record.version
        status := .draft
        action := if created && !publishValid then .created else .draftUnavailable
        violations := validation.violations })

/-- `_install_pipeline`. -/
def installPipeline (ids : NewIds) (publishValid : Bool) (now : Time) (catalog : CatalogTables)
    (request : CreatePipelineRequest) :
    Except InstallError (CatalogTables × DefaultPipelineInitialization) :=
  match latestVersion catalog.pipelines request.pipelineId with
  | some record => installVersion publishValid now false catalog record
  | none =>
      let recordId := ids.recordId (catalog.pipelines.map (·.recordId))
      match createPipeline catalog.pipelines request recordId now with
      | .error message => .error (.publishing (.invalidDefinition message))
      | .ok record =>
          installVersion publishValid now true
            { catalog with pipelines := catalog.pipelines ++ [record] } record

/-- The loop over the default pipelines. -/
def installPipelines (ids : NewIds) (publishValid : Bool) (now : Time) :
    List CreatePipelineRequest → CatalogTables →
      Except InstallError (CatalogTables × List DefaultPipelineInitialization)
  | [], catalog => .ok (catalog, [])
  | request :: rest, catalog => do
      let (catalog, result) ← installPipeline ids publishValid now catalog request
      let (catalog, results) ← installPipelines ids publishValid now rest catalog
      .ok (catalog, result :: results)

/-- The backends that the request installs. -/
def InitializeDefaultsRequest.backendTypes (request : InitializeDefaultsRequest) :
    List BackendCapability :=
  if request.includeBuiltinBackends then builtinBackendTypes else []

/-- `DefaultCatalogInstaller.install`. -/
def install (ids : NewIds) (catalog : CatalogTables) (request : InitializeDefaultsRequest)
    (now : Time) : Except InstallError (CatalogTables × DefaultCatalogInitializationData) := do
  let (backends, created, existing) :=
    installBackends ids now request.backendTypes catalog.backends
  let (catalog, results) ← installPipelines ids request.publishValidPipelines now
    defaultPipelineRequests { catalog with backends }
  .ok (catalog, {
    backendIdsCreated := created
    backendIdsExisting := existing
    pipelines := results })

/-- The tables after the request: an exception rolls its transaction back. -/
def initializeDefaultCatalog (ids : NewIds) (catalog : CatalogTables)
    (request : InitializeDefaultsRequest) (now : Time) : CatalogTables :=
  match install ids catalog request now with
  | .ok (catalog, _) => catalog
  | .error _ => catalog

end ParserServe
