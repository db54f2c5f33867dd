import Mathlib.Data.Rat.Defs
import Mathlib.Algebra.Order.Ring.Rat
import Mathlib.Data.List.Nodup
import ParserServe.Schema.Status

/-! # Hardware, backend and source contracts

The schema classes of `schema/hardware.py`, `schema/backend.py`, `schema/source.py`,
`schema/error.py` and the device options of `schema/task.py`.  A model validator of the
source is a proof field here, so a value that pydantic would refuse cannot be built.
Times are seconds and floating-point numbers are exact rationals; JSON that is only
handed through (parameters, attributes, error context) is kept as its canonical text.
-/

namespace ParserServe

abbrev Time := ℚ

abbrev JsonText := String

/-- SHA-256 without collisions: a digest is kept as the value it was computed from. -/
structure Digest (α : Type) where
  preimage : α
  deriving DecidableEq

inductive MediaCategory
  | document | image | audio | video | web | text
  deriving DecidableEq, Repr

inductive DeviceRuntime
  | cpu | cuda | ascend | mlu | dcu | musa | xpu
  deriving DecidableEq, Repr

inductive SchedulingStrategy
  | auto | prefer | require
  deriving DecidableEq, Repr

inductive ArtifactType
  | original | convertedDocument | extractedImage | keyframe | audioTrack | subtitle
  | resultJson | resultText | resultMarkdown | other
  deriving DecidableEq, Repr

/-- A `MimeType` or `MimePattern`; their regular expressions leave exactly one slash, so
`_mime_parts` is a pair of projections. -/
structure Mime where
  major : String
  minor : String
  deriving DecidableEq, Repr

inductive ErrorCode
  | validationError | authenticationFailed | apiKeyExpired | notFound | conflict
  | unsupportedMediaType | fileTooLarge | taskNotCancellable | workerNotAvailable
  | backendNotAvailable | timeout | rateLimited | dependencyUnavailable | internalError
  deriving DecidableEq, Repr

structure FieldViolation where
  field : String
  reason : String
  deriving DecidableEq, Repr

structure ErrorDetail where
  code : ErrorCode
  message : String
  retryable : Bool := false
  fieldViolations : List FieldViolation := []
  context : JsonText := "{}"
  deriving DecidableEq, Repr

/-- What a request of the API is refused with. -/
structure ApiError where
  statusCode : Nat
  code : ErrorCode
  message : String
  retryable : Bool := false
  deriving DecidableEq, Repr

structure DeviceInfo where
  deviceId : String
  runtime : DeviceRuntime
  totalMemoryBytes : Option Nat := none
  deriving DecidableEq, Repr

structure DeviceUsage where
  deviceId : String
  utilizationPercent : Option ℚ := none
  memoryUsedBytes : Option Nat := none
  memoryTotalBytes : Option Nat := none
  memory_valid : ∀ used total, memoryUsedBytes = some used → memoryTotalBytes = some total →
    used ≤ total
  deriving DecidableEq

/-- A `dict` of labels, by its entries in the order of their keys. -/
structure Labels where
  entries : List (String × String) := []
  sorted : entries.Pairwise fun first second => first.1 < second.1 := by decide
  deriving DecidableEq

structure DeviceRequirement where
  strategy : SchedulingStrategy := .auto
  runtimes : List DeviceRuntime := []
  minimumMemoryBytes : Option Nat := none
  workerLabels : Labels := {}
  strategy_valid : strategy ≠ .auto → runtimes ≠ [] := by decide
  runtimes_nodup : runtimes.Nodup := by decide
  deriving DecidableEq

structure ParseFeatures where
  extractText : Bool := true
  extractTables : Bool := true
  extractImages : Bool := false
  runOcr : Bool := false
  generateCaptions : Bool := false
  transcribeAudio : Bool := false
  extractKeyframes : Bool := false
  deriving DecidableEq, Repr

structure TaskOptions where
  pipelineId : Option String := none
  pipelineVersion : Option Nat := none
  backendName : Option String := none
  priority : Int := 0
  timeoutSeconds : Option Nat := none
  device : DeviceRequirement := {}
  features : ParseFeatures := {}
  version_valid : pipelineVersion.isSome → pipelineId.isSome := by decide
  timeout_valid : ∀ seconds ∈ timeoutSeconds, 1 ≤ seconds ∧ seconds ≤ 86400 := by decide
  deriving DecidableEq

instance : Inhabited TaskOptions := ⟨{ device := { runtimes_nodup := List.nodup_nil } }⟩

inductive ParseSource
  | uploadedFile (fileId : String)
  | url (url : String)
  | objectStorage (uri : String) (versionId : Option String)
  | text (text : String) (mimeType : Mime) (filename : Option String)
  deriving DecidableEq

structure SourceMetadata where
  filename : Option String := none
  mimeType : Mime
  mediaCategory : MediaCategory
  sizeBytes : Option Nat := none
  sha256 : Option String := none
  attributes : JsonText := "{}"
  deriving DecidableEq

structure BackendCapability where
  name : String
  version : String
  mediaCategories : List MediaCategory := []
  mimeTypes : List Mime := []
  runtimes : List DeviceRuntime
  sources_valid : mediaCategories ≠ [] ∨ mimeTypes ≠ [] := by decide
  runtimes_ne_nil : runtimes ≠ [] := by decide
  runtimes_nodup : runtimes.Nodup := by decide
  deriving DecidableEq

inductive BackendStatus
  | enabled | disabled | unhealthy
  deriving DecidableEq, Repr

/-! ## Source compatibility, from `persistence/registry.py` -/

def mimePatternsOverlap (first second : Mime) : Bool :=
  (first.major == "*" || second.major == "*" || first.major == second.major) &&
    (first.minor == "*" || second.minor == "*" || first.minor == second.minor)

/-- `backend_supports_source`: the category alone is enough. -/
def backendSupportsSource (capability : BackendCapability) (mediaCategory : MediaCategory)
    (mimeType : Mime) : Bool :=
  capability.mediaCategories.contains mediaCategory ||
    capability.mimeTypes.any (mimePatternsOverlap · mimeType)

end ParserServe
