import Mathlib.Data.List.Forall2
import ParserServe.Lifecycle.Stage

/-! # What routing leaves behind

The stage rows of a freshly routed task: they are pending, agree with the accepted pipeline
definition they come from, and every one of them is sound.
-/

namespace ParserServe

open Foundation

variable {db : Db} {options : TaskOptions} {metadata : SourceMetadata} {now : Time}
  {definition : PipelineStageDefinition}

/-! ## No duplicates -/

theorem allowedRuntimes_nodup (candidates stageRequired taskRequired : List DeviceRuntime)
    (strategy : SchedulingStrategy) (htask : taskRequired.Nodup) :
    (allowedRuntimes candidates stageRequired taskRequired strategy).Nodup := by
  have hordered : (if stageRequired.isEmpty then candidates.eraseDups
      else candidates.eraseDups.filter (stageRequired.contains ·)).Nodup := by
    split
    · exact nodup_eraseDups _
    · exact (nodup_eraseDups _).filter _
  unfold allowedRuntimes
  dsimp only
  split
  · exact hordered.filter _
  · split
    · refine List.Nodup.append (htask.filter _) (hordered.filter _) ?_
      intro runtime hpreferred hrest
      have := (List.mem_filter.mp hrest).2
      simp_all
    · exact hordered

theorem mem_of_mem_enabledByNames {names : List String} {backend : BackendRecord}
    (h : backend ∈ enabledByNames db names) :
    backend ∈ db.backends ∧ backend.status = .enabled ∧ backend.capability.name ∈ names := by
  obtain ⟨name, hname, h⟩ := List.mem_flatMap.mp h
  obtain ⟨hmem, heq⟩ := List.mem_filter.mp h
  rw [List.mem_insertionSort, List.mem_filter] at hmem
  simp_all

/-- Names that differ select different rows, and the rows of a name have distinct keys. -/
theorem enabledByNames_nodup (db : Db) {names : List String} (hnames : names.Nodup) :
    ((enabledByNames db names).map (·.backendId)).Nodup := by
  have hrows : db.backends.Nodup := List.Nodup.of_map _ db.backends_nodup
  have hlist : (enabledByNames db names).Nodup := by
    unfold enabledByNames
    dsimp only
    rw [List.nodup_flatMap]
    refine ⟨fun name _ => ?_, hnames.imp fun {first second} hne => ?_⟩
    · exact ((List.perm_insertionSort _ _).nodup_iff.mpr (hrows.filter _)).filter _
    · intro backend h₁ h₂
      have h₁ := (List.mem_filter.mp h₁).2
      have h₂ := (List.mem_filter.mp h₂).2
      simp_all
  refine hlist.map_on fun a ha b hb heq => ?_
  exact List.inj_on_of_nodup_map db.backends_nodup (mem_of_mem_enabledByNames ha).1
    (mem_of_mem_enabledByNames hb).1 heq

theorem stageCandidates_perm (names : List String) :
    (stageCandidates db options metadata definition names).Perm
      ((enabledByNames db names).filter fun backend =>
        backendSupportsSource backend.capability metadata.mediaCategory metadata.mimeType &&
          runtimeCompatible backend.capability.runtimes definition.backend.requiredRuntimes
            options.device.runtimes options.device.strategy) := by
  unfold stageCandidates
  dsimp only
  split
  · exact List.filter_append_perm _ _
  · exact List.Perm.refl _

theorem stageCandidates_nodup {names : List String} (hnames : names.Nodup) :
    ((stageCandidates db options metadata definition names).map (·.backendId)).Nodup := by
  rw [((stageCandidates_perm names).map _).nodup_iff]
  exact (enabledByNames_nodup db hnames).sublist (List.filter_sublist.map _)

theorem stageBackendNames_nodup {names : List String}
    (h : stageBackendNames options definition = .ok names) : names.Nodup := by
  unfold stageBackendNames at h
  cases hname : options.backendName with
  | none =>
      simp only [hname] at h
      cases h
      exact definition.backend.candidates_nodup
  | some name =>
      simp only [hname, bind_eq_ok] at h
      obtain ⟨_, _, h⟩ := h
      cases h
      exact List.nodup_singleton name

/-! ## The planned rows -/

theorem planStage_eq_ok {stageId : String} {position : Nat} {stage : StageRecord} :
    planStage db options metadata now stageId position definition = .ok stage ↔
      ∃ names selected others, stageBackendNames options definition = .ok names ∧
        stageCandidates db options metadata definition names = selected :: others ∧
          stage = newStage options now stageId position definition selected
            (selected :: others) := by
  simp only [planStage, bind_eq_ok]
  constructor
  · rintro ⟨names, hnames, h⟩
    cases hcandidates : stageCandidates db options metadata definition names with
    | nil => simp [hcandidates] at h
    | cons selected others =>
        simp only [hcandidates] at h
        cases h
        exact ⟨names, selected, others, hnames, hcandidates, rfl⟩
  · rintro ⟨names, selected, others, hnames, hcandidates, rfl⟩
    exact ⟨names, hnames, by rw [hcandidates]⟩

/-- A stage row as its definition has it, before anything happened to it. -/
structure Planned (now : Time) (definition : PipelineStageDefinition) (stage : StageRecord) :
    Prop where
  name : stage.name = definition.name
  dependsOn : stage.dependsOn = definition.dependsOn
  status : stage.status = .pending
  createdAt : stage.createdAt = now
  startedAt : stage.startedAt = none
  workerId : stage.workerId = none
  deviceId : stage.deviceId = none
  completion : stage.completionLeaseTokenDigest = none
  attempt : stage.attempt = 0
  sound : stage.Sound

theorem Planned.of_planStage {stageId : String} {position : Nat} {stage : StageRecord}
    (h : planStage db options metadata now stageId position definition = .ok stage) :
    Planned now definition stage := by
  obtain ⟨names, selected, others, hnames, hcandidates, rfl⟩ := planStage_eq_ok.mp h
  have hnodup : ((selected :: others).map (·.backendId)).Nodup := by
    rw [← hcandidates]
    exact stageCandidates_nodup (stageBackendNames_nodup hnames)
  refine ⟨rfl, rfl, rfl, rfl, rfl, rfl, rfl, rfl, rfl, ?_⟩
  constructor
  case timeout => exact definition.timeout_valid
  case dependsOn_nodup => exact definition.dependsOn_nodup
  case candidates_nodup => exact hnodup
  case runtimes_nodup => exact allowedRuntimes_nodup _ _ _ _ options.device.runtimes_nodup
  case attempts => exact ⟨definition.retry.attempts_valid.1, Nat.zero_le _⟩
  case pending => exact fun _ => definition.retry.attempts_valid.1
  all_goals simp [newStage, StageStatus.active, StageStatus.terminal]

/-- The row is what `route` plans for the definition against the catalogue of `db`. -/
def PlannedIn (db : Db) (options : TaskOptions) (metadata : SourceMetadata) (now : Time)
    (definition : PipelineStageDefinition) (stage : StageRecord) : Prop :=
  ∃ stageId position, planStage db options metadata now stageId position definition = .ok stage

theorem plannedIn_of_planStages {stageIds : Nat → String} {position : Nat}
    {definitions : List PipelineStageDefinition} {stages : List StageRecord}
    (h : planStages db options metadata now stageIds position definitions = .ok stages) :
    List.Forall₂ (PlannedIn db options metadata now) definitions stages := by
  induction definitions generalizing position stages with
  | nil =>
      cases h
      exact .nil
  | cons definition rest ih =>
      simp only [planStages, bind_eq_ok] at h
      obtain ⟨stage, hstage, others, hothers, h⟩ := h
      cases h
      exact .cons ⟨_, _, hstage⟩ (ih hothers)

theorem PlannedIn.planned {stage : StageRecord}
    (h : PlannedIn db options metadata now definition stage) : Planned now definition stage := by
  obtain ⟨stageId, position, hplan⟩ := h
  exact .of_planStage hplan

theorem mem_of_selectPipeline {task : TaskRecord} {allowUnpublished : Bool}
    {pipeline : PipelineRecord}
    (h : selectPipeline db task metadata allowUnpublished = .ok pipeline) :
    pipeline ∈ db.pipelines := by
  unfold selectPipeline at h
  split at h
  · split at h
    · cases h
    · next hfind =>
        simp only [bind_eq_ok] at h
        obtain ⟨_, _, _, _, h⟩ := h
        cases h
        exact List.mem_of_find?_eq_some hfind
  · split at h
    · cases h
    · next hcandidates =>
        cases h
        have hmem : pipeline ∈
            publishedCandidates db metadata.mediaCategory metadata.mimeType := by
          rw [hcandidates]
          exact List.mem_cons_self
        rw [publishedCandidates, List.mem_insertionSort] at hmem
        exact (List.mem_filter.mp hmem).1

/-- What `route` makes of a task without stages. -/
structure Routed (now : Time) (db : Db) (task task' : TaskRecord)
    (payloads : List EventPayload) : Prop where
  status : task.status = .pending
  origin : ∃ metadata, ∃ pipeline ∈ db.pipelines,
    task'.pipelineId = some pipeline.definition.pipelineId ∧
      task'.pipelineVersion = some pipeline.definition.version ∧
      List.Forall₂ (PlannedIn db task.options metadata now) pipeline.definition.stages
        task'.stages
  plan : ∃ (pipeline : PipelineDefinition) (stages : List StageRecord),
    List.Forall₂ (Planned now) pipeline.stages stages ∧
      (stages.map (·.stageId)).Nodup ∧
      (∀ stage ∈ stages, stage.stageId ∉ db.stages.map (·.stageId)) ∧
      task' = { task with
        stages := stages
        pipelineId := some pipeline.pipelineId
        pipelineVersion := some pipeline.version
        updatedAt := now } ∧
      payloads = [.taskRouted task.taskId pipeline.pipelineId pipeline.version
        (stages.map (·.stageId))]

theorem route_cases {task task' : TaskRecord} {allowUnpublished : Bool} {stageIds : Nat → String}
    {payloads : List EventPayload}
    (h : task.route db allowUnpublished stageIds now = .ok (task', payloads)) :
    (task' = task ∧ payloads = []) ∨ (task.stages = [] ∧ Routed now db task task' payloads) := by
  simp only [TaskRecord.route, bind_eq_ok, ensure_eq_ok] at h
  obtain ⟨_, hstatus, h⟩ := h
  by_cases hstages : task.stages = []
  · right
    simp only [hstages, ne_eq, not_true, if_false] at h
    cases hmetadata : task.sourceMetadata with
    | none => simp [hmetadata] at h
    | some metadata =>
        simp only [hmetadata, bind_eq_ok, ensure_eq_ok] at h
        obtain ⟨pipeline, hpipeline, stages, hplan, _, hkeys, h⟩ := h
        cases h
        have hrows := plannedIn_of_planStages hplan
        refine ⟨hstages, hstatus, ?_, ?_⟩
        · exact ⟨metadata, pipeline, mem_of_selectPipeline hpipeline, rfl, rfl, hrows⟩
        · exact ⟨pipeline.definition, stages, hrows.imp fun _ _ h => h.planned, hkeys.1, hkeys.2,
            by rw [hmetadata], rfl⟩
  · left
    simp only [hstages, ne_eq, not_false_iff, if_true] at h
    cases h
    exact ⟨rfl, rfl⟩

end ParserServe
