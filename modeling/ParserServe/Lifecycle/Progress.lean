import ParserServe.Lifecycle.Consistency

/-! # Progress

In any reachable state a stage has begun only after its dependencies, and a task that has
not ended has a stage that is held or can be leased: among its unfinished stages one of
least rank waits for nothing.
-/

namespace ParserServe

open Foundation

/-! ## A small deployment

One worker, one backend, and a pipeline whose last stage waits for two parallel ones. -/

def sampleScheduler : StageScheduler where
  leaseDurationSeconds := 60

def sampleCapability : BackendCapability where
  name := "docling"
  version := "1.0.0"
  mediaCategories := [.document]
  runtimes := [.cpu]

def samplePipeline : PipelineDefinition where
  pipelineId := "report"
  name := "Report"
  version := 1
  status := .published
  mediaCategories := [.document]
  stages :=
    [{ name := "layout", backend := { preferred := "docling" }, timeoutSeconds := 60 },
      { name := "tables", backend := { preferred := "docling" }, timeoutSeconds := 60 },
      { name := "merge", backend := { preferred := "docling" }, timeoutSeconds := 60
        dependsOn := ["layout", "tables"] }]
  createdAt := 0
  publishedAt := some 0
  dag_valid := by decide +kernel
  published_valid := by decide
  published_after := by decide +kernel

def sampleWorker : WorkerRecord where
  workerId := "worker"
  status := .online
  enabled := true
  maximumConcurrency := 4
  schedulingWeight := 100
  devices := [{ deviceId := "cpu", runtime := .cpu }]
  backends := [sampleCapability]
  updatedAt := 0

def sampleDb : Db where
  tasks := []
  workers := [sampleWorker]
  backends :=
    [{ backendId := "backend", status := .enabled, capability := sampleCapability
       updatedAt := 0 }]
  pipelines := [⟨1, samplePipeline⟩]
  events := []
  uploads := []
  artifacts := []
  eventIdFactory := fun n => toString n
  published := 0

def sampleMetadata : SourceMetadata where
  mimeType := ⟨"application", "pdf"⟩
  mediaCategory := .document

def sampleStageIds : Nat → String
  | 0 => "stage-layout"
  | 1 => "stage-tables"
  | _ => "stage-merge"

/-- Create and route the task, and lease the two parallel stages until 62. -/
def leaseScript : List Operation :=
  [.create { source := .url "https://host/report.pdf", options := default } none false "task"
      (.ok (some sampleMetadata)) 0,
    .route "task" false sampleStageIds 1,
    .lease { workerId := "worker", availableSlots := 2 }
      ["stage-layout", "stage-tables", "stage-merge"]
      (fun n => if n = 0 then "token-layout" else "token-tables") 2]

def sampleCompletion (token uri : String) : CompleteStageRequest :=
  .success "worker" token (some uri)

/-- Start and complete both, then lease the stage that waits for them. -/
def mergeScript : List Operation :=
  leaseScript ++
    [.start "stage-layout" "worker" "token-layout" 3,
      .start "stage-tables" "worker" "token-tables" 3,
      .complete "stage-layout" (sampleCompletion "token-layout" "s3://layout") 4,
      .complete "stage-tables" (sampleCompletion "token-tables" "s3://tables") 5,
      .lease { workerId := "worker", availableSlots := 1 } ["stage-merge"]
        (fun _ => "token-merge") 6]

def leasedDb : Db := afterScript sampleScheduler sampleDb leaseScript

def mergingDb : Db := afterScript sampleScheduler sampleDb mergeScript

theorem sampleDb_reachable : (controlPlane sampleScheduler).Reachable sampleDb :=
  ⟨sampleDb, [], ⟨rfl, rfl⟩, .nil sampleDb⟩

theorem leasedDb_reachable : (controlPlane sampleScheduler).Reachable leasedDb :=
  afterScript_reachable sampleDb_reachable

theorem mergingDb_reachable : (controlPlane sampleScheduler).Reachable mergingDb :=
  afterScript_reachable sampleDb_reachable

/-! ## Results -/

variable {self : StageScheduler} {db : Db}

/-- No stage begins before, or stays finished without, its finished dependencies. -/
theorem begun_dependencies_finished (h : (controlPlane self).Reachable db) {task : TaskRecord}
    (htask : task ∈ db.tasks) {stage : StageRecord} (hstage : stage ∈ task.stages)
    (hbegun : stage.status = .leased ∨ stage.status = .running ∨ stage.status = .succeeded ∨
      stage.status = .failed ∨ stage.status = .skipped) :
    ∀ d ∈ stage.dependsOn, (∃ dependency ∈ task.stages, dependency.name = d) ∧
      ∀ dependency ∈ task.stages, dependency.name = d →
        dependency.status = .succeeded ∨ dependency.status = .skipped := by
  have hcons := reachable_consistent h task htask
  have hnames := hcons.plan.names_nodup
  have hdeps := hcons.order stage hstage
    (by rcases hbegun with h | h | h | h | h <;> simp [h, StageStatus.begun])
  rw [dependenciesSatisfied_iff hnames] at hdeps
  intro d hd
  obtain ⟨found, hfound, hname, hfinished⟩ := hdeps d hd
  refine ⟨⟨found, hfound, hname⟩, ?_⟩
  intro dependency hdep hdname
  obtain rfl : dependency = found :=
    List.inj_on_of_nodup_map hnames hdep hfound (hdname.trans hname.symm)
  cases hs : dependency.status <;> simp_all [StageStatus.finished]

theorem begun_dependencies_finished_merging : ∃ task ∈ mergingDb.tasks, ∃ stage ∈ task.stages,
    stage.status = .leased ∧ stage.dependsOn ≠ [] ∧
      ∀ d ∈ stage.dependsOn, (∃ dependency ∈ task.stages, dependency.name = d) ∧
        ∀ dependency ∈ task.stages, dependency.name = d →
          dependency.status = .succeeded ∨ dependency.status = .skipped := by
  have hexists : ∃ task ∈ mergingDb.tasks, ∃ stage ∈ task.stages,
      stage.status = .leased ∧ stage.dependsOn ≠ [] := by decide +kernel
  obtain ⟨task, htask, stage, hstage, hleased, hdeps⟩ := hexists
  exact ⟨task, htask, stage, hstage, hleased, hdeps,
    begun_dependencies_finished mergingDb_reachable htask hstage (.inl hleased)⟩

/-- A pending stage of least rank among the unfinished ones can be leased. -/
theorem exists_leasable {stages : List StageRecord} (hplan : PlanValid stages)
    (hagrees : ∀ stage ∈ stages, stage.status = .pending ∨ stage.status.finished)
    (hpending : ∃ stage ∈ stages, stage.status = .pending) :
    ∃ stage ∈ stages, stage.status = .pending ∧ ∀ d ∈ stage.dependsOn,
      ∃ dependency ∈ stages, dependency.name = d ∧ dependency.status.finished := by
  obtain ⟨rank, hrank⟩ := hplan.ranked
  obtain ⟨stage, hmem, hstage, hleast⟩ :=
    exists_minimal (fun stage : StageRecord => rank stage.name) _ hpending
  refine ⟨stage, hmem, hstage, fun d hd => ?_⟩
  obtain ⟨dependency, hdep, rfl⟩ := List.mem_map.mp (hplan.known stage hmem d hd)
  refine ⟨dependency, hdep, rfl, (hagrees dependency hdep).resolve_left fun hopen => ?_⟩
  have hle := hleast dependency hdep hopen
  have hlt := hrank stage hmem dependency.name hd
  omega

/-- A task that has not ended has a stage that is held or can be leased. -/
theorem open_task_progresses (h : (controlPlane self).Reachable db) {task : TaskRecord}
    (htask : task ∈ db.tasks) (hstages : task.stages ≠ [])
    (hopen : task.status = .pending ∨ task.status = .leased ∨ task.status = .running) :
    (∀ stage ∈ task.stages, stage.status ≠ .failed ∧ stage.status ≠ .cancelled) ∧
      (∃ stage ∈ task.stages, stage.status = .leased ∨ stage.status = .running ∨
        (stage.status = .pending ∧ task.dependenciesSatisfied stage)) ∧
      ¬ ∀ stage ∈ task.stages, stage.status = .succeeded ∨ stage.status = .skipped := by
  have hcons := reachable_consistent h task htask
  obtain ⟨hall, stage, hmem, hunfinished⟩ := hcons.agrees.open
    (by rcases hopen with h | h | h <;> simp [h, TaskStatus.active]) hstages
  refine ⟨?_, ?_, ?_⟩
  · intro s hs
    have := hall s hs
    cases hstatus : s.status <;> simp_all [StageStatus.unfinished, StageStatus.finished]
  · by_cases hheld : ∃ s ∈ task.stages, s.status.active
    · obtain ⟨s, hs, hactive⟩ := hheld
      refine ⟨s, hs, ?_⟩
      cases hstatus : s.status <;> simp_all [StageStatus.active]
    · have hrest : ∀ s ∈ task.stages, s.status = .pending ∨ s.status.finished := by
        intro s hs
        have hopen := hall s hs
        have hidle : ¬ s.status.active := fun h => hheld ⟨s, hs, h⟩
        cases hstatus : s.status <;>
          simp_all [StageStatus.unfinished, StageStatus.finished, StageStatus.active]
      have hpending : stage.status = .pending := by
        have hidle : ¬ stage.status.active := fun h => hheld ⟨stage, hmem, h⟩
        cases hstatus : stage.status <;> simp_all [StageStatus.unfinished, StageStatus.active]
      obtain ⟨s, hs, hspending, hdeps⟩ :=
        exists_leasable hcons.plan hrest ⟨stage, hmem, hpending⟩
      exact ⟨s, hs, .inr (.inr ⟨hspending,
        (dependenciesSatisfied_iff hcons.plan.names_nodup).mpr hdeps⟩)⟩
  · intro hfinished
    have := hfinished stage hmem
    rcases this with h | h <;> simp [h, StageStatus.unfinished] at hunfinished

theorem open_task_progresses_leased : ∃ task ∈ leasedDb.tasks, task.status = .leased ∧
    (∀ stage ∈ task.stages, stage.status ≠ .failed ∧ stage.status ≠ .cancelled) ∧
      (∃ stage ∈ task.stages, stage.status = .leased ∨ stage.status = .running ∨
        (stage.status = .pending ∧ task.dependenciesSatisfied stage)) ∧
      ¬ ∀ stage ∈ task.stages, stage.status = .succeeded ∨ stage.status = .skipped := by
  have hexists : ∃ task ∈ leasedDb.tasks, task.status = .leased ∧ task.stages ≠ [] := by
    decide +kernel
  obtain ⟨task, htask, hstatus, hstages⟩ := hexists
  exact ⟨task, htask, hstatus,
    open_task_progresses leasedDb_reachable htask hstages (.inr (.inl hstatus))⟩

end ParserServe
