import ParserServe.Persistence.Models

/-! # Backend and pipeline catalogue

The catalogue queries of `persistence/registry.py` that routing uses.
-/

namespace ParserServe

/-- `ORDER BY updated_at DESC, backend_id DESC`. -/
def backendBefore (a b : BackendRecord) : Prop :=
  b.updatedAt < a.updatedAt ∨ (a.updatedAt = b.updatedAt ∧ b.backendId ≤ a.backendId)

instance : DecidableRel backendBefore := fun _ _ => inferInstanceAs (Decidable (_ ∨ _))

/-- `BackendRepository.enabled_by_names`: grouped by name, in the order of `names`. -/
def enabledByNames (db : Db) (names : List String) : List BackendRecord :=
  let records := (db.backends.filter fun record =>
    decide (record.capability.name ∈ names ∧ record.status = .enabled)).insertionSort
      backendBefore
  names.flatMap fun name => records.filter (·.capability.name = name)

/-- The reverse order of the key `(routing_priority, version, pipeline_id)`. -/
def pipelineBefore (a b : PipelineRecord) : Prop :=
  b.definition.routingPriority < a.definition.routingPriority ∨
    (a.definition.routingPriority = b.definition.routingPriority ∧
      (b.definition.version < a.definition.version ∨
        (a.definition.version = b.definition.version ∧
          b.definition.pipelineId ≤ a.definition.pipelineId)))

instance : DecidableRel pipelineBefore := fun _ _ => inferInstanceAs (Decidable (_ ∨ _))

/-- `PipelineRepository.published_candidates`. -/
def publishedCandidates (db : Db) (mediaCategory : MediaCategory) (mimeType : Mime) :
    List PipelineRecord :=
  (db.pipelines.filter fun record =>
    record.definition.status == .published &&
      pipelineSupportsSource record.definition mediaCategory mimeType).insertionSort
        pipelineBefore

/-- `PipelineRepository.get`. -/
def pipelineByVersion (db : Db) (pipelineId : String) (version : Nat) : Option PipelineRecord :=
  db.pipelines.find? fun record =>
    record.definition.pipelineId == pipelineId && record.definition.version == version

end ParserServe
