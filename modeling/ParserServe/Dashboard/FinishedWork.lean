import ParserServe.Control.Dashboard
import ParserServe.Lifecycle.Progress

/-! # The worker filter

The filter of the dashboard reads the column of the worker that holds a stage.  A grant names
the holder and forgets the last completion, and a completion clears the holder, so no stage
has both: the filter by worker leaves out each stage whose completion it should count.
-/

namespace ParserServe

open Foundation

variable {self : StageScheduler} {manual : Prop} {now : Time} {db db' : Db} {s s' : StageRecord}
  {task task' : TaskRecord} {granted : Option LeaseGrant} {payloads : List EventPayload}
  {query : DashboardQuery} {workerId : String}

/-! ## A recorded completion leaves no holder -/

/-- A stage that records who completed it is held by no worker. -/
def StageRecord.Released (s : StageRecord) : Prop :=
  s.completionWorkerId.isSome → s.workerId = none

theorem Ending.released (h : Ending now s s') : s'.Released := by
  intro _
  cases h <;> rfl

theorem StageMove.released (h : StageMove manual now s s') (hs : s.Released) : s'.Released := by
  cases h with
  | renewed | started | progressed => exact hs
  | ended hend =>
      cases hend with
      | completed _ _ _ _ _ hend | expired hend => exact hend.released
  | stopped =>
      unfold StageRecord.stop
      split
      · exact fun _ => rfl
      · exact hs
  | cancelled =>
      unfold StageRecord.cancel
      split
      · simp [StageRecord.Released]
      · exact hs
  | reset =>
      unfold StageRecord.reset
      split
      · exact fun _ => rfl
      · exact hs
  | forgot uri =>
      unfold StageRecord.forgetResult
      split
      · exact hs
      · exact hs

theorem StageChange.released (h : StageChange manual now task granted s s') (hs : s.Released) :
    s'.Released := by
  cases h with
  | moved hmoves =>
      induction hmoves with
      | refl => exact hs
      | tail _ hmove ih => exact hmove.released ih
  | granted grant => simp [StageRecord.Released, StageRecord.grant]

theorem released_invariant : TaskInvariant fun task => ∀ stage ∈ task.stages, stage.Released where
  created _ _ _ _ _ := by simp [newTask]
  routed _ _ hrouted := by
    intro stage hstage
    obtain ⟨pipeline, stages, hplan, _, _, rfl, _⟩ := hrouted.plan
    obtain ⟨definition, _, hplanned⟩ := planned_definition hplan stage hstage
    exact fun _ => hplanned.workerId
  moved hP hkeys hmove := by
    intro stage' hstage'
    obtain ⟨f, hf, hchange⟩ := hmove.stages hkeys
    rw [hf] at hstage'
    obtain ⟨stage, hstage, rfl⟩ := List.mem_map.mp hstage'
    exact (hchange stage hstage).released (hP stage hstage)
  reordered hP hperm := fun stage hstage => hP stage (hperm.mem_iff.mp hstage)

theorem reachable_released (h : (controlPlane self).Reachable db) :
    ∀ stage ∈ db.stages, stage.Released :=
  List.forall_mem_flatMap.mpr (released_invariant.reachable h)

/-! ## Times in the range of a query -/

/-- The task and its stages were created, and its stages started, in the range. -/
structure TaskRecord.WithinRange (query : DashboardQuery) (task : TaskRecord) : Prop where
  created : query.Contains task.createdAt
  stages : ∀ stage ∈ task.stages,
    query.Contains stage.createdAt ∧ ∀ started ∈ stage.startedAt, query.Contains started

theorem StageMove.startedAt (h : StageMove manual now s s') :
    ∀ started ∈ s'.startedAt, s.startedAt = some started ∨ started = now := by
  intro started hstarted
  cases h with
  | renewed | progressed => exact .inl hstarted
  | started =>
      cases hstarted
      cases hcase : s.startedAt with
      | none => exact .inr rfl
      | some _ => exact .inl rfl
  | ended hend =>
      cases hend with
      | completed _ _ _ _ _ hend | expired hend =>
          cases hend with
          | finished | skipped | failed => exact .inl hstarted
          | requeued => cases hstarted
  | stopped =>
      unfold StageRecord.stop at hstarted
      split at hstarted <;> exact .inl hstarted
  | cancelled =>
      unfold StageRecord.cancel at hstarted
      split at hstarted <;> exact .inl hstarted
  | reset =>
      unfold StageRecord.reset at hstarted
      split at hstarted
      · cases hstarted
      · exact .inl hstarted
  | forgot uri =>
      unfold StageRecord.forgetResult at hstarted
      split at hstarted <;> exact .inl hstarted

theorem StageChange.startedAt (h : StageChange manual now task granted s s') :
    ∀ started ∈ s'.startedAt, s.startedAt = some started ∨ started = now := by
  cases h with
  | moved hmoves =>
      induction hmoves with
      | refl => exact fun _ hstarted => .inl hstarted
      | tail _ hmove ih =>
          intro started hstarted
          rcases hmove.startedAt started hstarted with hold | hnow
          · exact ih started hold
          · exact .inr hnow
  | granted grant => exact fun _ hstarted => .inl hstarted

theorem TaskMove.createdAt (h : TaskMove manual now task granted payloads task') :
    task'.createdAt = task.createdAt := by
  cases h with
  | leased | renewed | started | progressed | cancelled | retried => rfl
  | ended _ _ hsettled => cases hsettled <;> rfl

theorem TaskMove.withinRange (h : TaskMove manual now task granted payloads task')
    (hkeys : task.KeysNodup) (hnow : query.Contains now) (htask : task.WithinRange query) :
    task'.WithinRange query := by
  refine ⟨h.createdAt ▸ htask.created, fun stage' hstage' => ?_⟩
  obtain ⟨f, hf, hchange⟩ := h.stages hkeys
  rw [hf] at hstage'
  obtain ⟨stage, hstage, rfl⟩ := List.mem_map.mp hstage'
  obtain ⟨hcreated, hstarted⟩ := htask.stages stage hstage
  refine ⟨(hchange stage hstage).samePlan.createdAt ▸ hcreated, fun started hmem => ?_⟩
  rcases (hchange stage hstage).startedAt started hmem with hold | rfl
  · exact hstarted started hold
  · exact hnow

theorem DbChange.withinRange (h : DbChange manual now db granted db') (hkeys : db.KeysNodup)
    (hnow : query.Contains now) (hdb : ∀ task ∈ db.tasks, task.WithinRange query) :
    ∀ task ∈ db'.tasks, task.WithinRange query := by
  refine h.all_tasks hkeys hdb (fun _ h => h) ?_ ?_ ?_
  · intro _ _ _ _ _ _
    exact ⟨hnow, by simp [newTask]⟩
  · intro task task' payloads htask _ hrouted
    obtain ⟨pipeline, stages, hplan, _, _, rfl, _⟩ := hrouted.plan
    refine ⟨htask.created, fun stage hstage => ?_⟩
    obtain ⟨definition, _, hplanned⟩ := planned_definition hplan stage hstage
    exact ⟨hplanned.createdAt ▸ hnow, by simp [hplanned.startedAt]⟩
  · intro task granted payloads task' htask hkeys hmove
    exact hmove.withinRange hkeys hnow htask

/-- The calls of the run read the clock in the range of the query. -/
def DashboardQuery.Covers (query : DashboardQuery) (labels : List Label) : Prop :=
  ∀ operation response, .returned operation response ∈ labels → query.Contains operation.now

theorem ControlStep.withinRange {label : Label} (h : ControlStep self db label db')
    (hkeys : db.KeysNodup) (hcovers : query.Covers [label])
    (hdb : ∀ task ∈ db.tasks, task.WithinRange query) :
    ∀ task ∈ db'.tasks, task.WithinRange query := by
  cases h with
  | returned hanswerable hexec =>
      have hnow := hcovers _ _ List.mem_cons_self
      have hboth := (exec_changes hkeys hanswerable hexec).keeps
        (I := fun db => db.KeysNodup ∧ ∀ task ∈ db.tasks, task.WithinRange query)
        (fun _ _ _ hI hchange =>
          ⟨hchange.keysNodup hI.1, hchange.withinRange hI.1 hnow hI.2⟩) ⟨hkeys, hdb⟩
      exact hboth.2
  | raised => exact hdb
  | administered hadmin => exact hadmin.tasks ▸ hdb
  | reordered hmem hperm =>
      intro task htask
      rcases mem_saveTask htask with rfl | ⟨hold, _⟩
      · have hrange := hdb _ hmem
        exact ⟨hrange.created, fun stage hstage => hrange.stages stage (hperm.mem_iff.mp hstage)⟩
      · exact hdb task hold

theorem run_withinRange {labels : List Label} (hrun : (controlPlane self).Run db labels db')
    (hkeys : db.KeysNodup) (hcovers : query.Covers labels)
    (hdb : ∀ task ∈ db.tasks, task.WithinRange query) :
    ∀ task ∈ db'.tasks, task.WithinRange query := by
  induction hrun with
  | nil => exact hdb
  | snoc hrun hstep ih =>
      have hbefore := ih (fun _ _ hmem => hcovers _ _ (List.mem_append_left _ hmem))
      exact ControlStep.withinRange hstep (run_keysNodup hrun hkeys)
        (fun _ _ hmem => hcovers _ _ (List.mem_append_right _ hmem)) hbefore

/-! ## What the summary counts -/

/-- The query filters by this worker and by nothing else. -/
structure DashboardQuery.OnlyWorker (query : DashboardQuery) (workerId : String) : Prop where
  workerId : query.workerId = some workerId
  pipelineId : query.pipelineId = none
  backendId : query.backendId = none
  runtime : query.runtime = none
  mediaCategory : query.mediaCategory = none

/-- The task is one of the `total_tasks` of the summary. -/
def Db.CountsTask (db : Db) (query : DashboardQuery) (task : TaskRecord) : Prop :=
  task ∈ db.dashboardTasks query

/-- The stage is one of the records behind a backend metric of the summary. -/
def Db.IncludesStage (db : Db) (query : DashboardQuery) (stage : StageRecord) : Prop :=
  ∃ backendId ∈ groupedBackends (db.dashboardStages query),
    stage ∈ backendStages (db.dashboardStages query) backendId

theorem matchesStage_iff (hquery : query.OnlyWorker workerId) {stage : StageRecord} :
    query.matchesStage stage ↔ stage.workerId = some workerId := by
  simp [DashboardQuery.matchesStage, hquery.workerId, hquery.backendId, hquery.runtime]

theorem mem_filteredTaskIds (hkeys : db.KeysNodup) (hquery : query.OnlyWorker workerId)
    (htask : task ∈ db.tasks) : task.taskId ∈ db.filteredTaskIds query ↔
      ∃ stage ∈ task.stages, stage.workerId = some workerId := by
  simp only [Db.filteredTaskIds, List.mem_map, List.mem_filter, hquery.pipelineId,
    hquery.mediaCategory, DashboardQuery.hasStageFilters, hquery.workerId, Option.isNone_none,
    Option.isSome_some, Bool.true_or, Bool.or_true, Bool.true_and, Bool.not_true, Bool.false_or,
    List.any_eq_true, matchesStage_iff hquery]
  constructor
  · rintro ⟨found, ⟨hfound, hheld⟩, hid⟩
    obtain rfl : found = task := List.inj_on_of_nodup_map hkeys.tasks hfound htask hid
    exact hheld
  · exact fun hheld => ⟨task, ⟨htask, hheld⟩, rfl⟩

theorem countsTask_iff (hkeys : db.KeysNodup) (hquery : query.OnlyWorker workerId)
    (htask : task ∈ db.tasks) (hrange : query.Contains task.createdAt) :
    db.CountsTask query task ↔ ∃ stage ∈ task.stages, stage.workerId = some workerId := by
  rw [← mem_filteredTaskIds hkeys hquery htask]
  simp [Db.CountsTask, Db.dashboardTasks, htask, hrange]

/-- The metrics hold only stages that the worker still holds. -/
theorem workerId_of_includesStage (hquery : query.OnlyWorker workerId) {stage : StageRecord}
    (h : db.IncludesStage query stage) : stage.workerId = some workerId := by
  obtain ⟨backendId, _, hstage⟩ := h
  obtain ⟨task, _, hrow⟩ := List.mem_flatMap.mp (List.mem_of_mem_filter hstage)
  have hmatches := of_decide_eq_true (List.mem_filter.mp hrow).2
  exact (matchesStage_iff hquery).mp hmatches.2

/-! ## Results -/

/-- The summary counts the tasks with a stage completed by the worker, and its metrics include
each such stage that ran in the range. -/
structure Db.CountsFinishedWork (db : Db) (query : DashboardQuery) (workerId : String) :
    Prop where
  tasks : ∀ task ∈ db.tasks, (∃ stage ∈ task.stages, stage.completionWorkerId = some workerId) →
    db.CountsTask query task
  stages : ∀ stage ∈ db.stages, stage.completionWorkerId = some workerId →
    query.Contains stage.occurredAt → db.IncludesStage query stage

theorem not_includesStage (hreach : (controlPlane self).Reachable db)
    (hquery : query.OnlyWorker workerId) {stage : StageRecord} (hstage : stage ∈ db.stages)
    (hfinished : stage.completionWorkerId = some workerId) : ¬ db.IncludesStage query stage := by
  intro hincluded
  have hnone := reachable_released hreach stage hstage (by simp [hfinished])
  have hheld := workerId_of_includesStage hquery hincluded
  rw [hnone] at hheld
  cases hheld

/-- The summary filtered by a worker accounts for its finished work exactly when there is
none; a task is counted all the same while the worker holds another stage of it. -/
theorem worker_filter_counts_finished_iff {labels : List Label}
    (hinit : (controlPlane self).Initial db) (hrun : (controlPlane self).Run db labels db')
    (hcovers : query.Covers labels) (hquery : query.OnlyWorker workerId) :
    (db'.CountsFinishedWork query workerId ↔
      ∀ stage ∈ db'.stages, stage.completionWorkerId ≠ some workerId) ∧
    ∀ task ∈ db'.tasks,
      (db'.CountsTask query task ↔ ∃ stage ∈ task.stages, stage.workerId = some workerId) := by
  have hkeys := initial_keysNodup hinit
  have hreach : (controlPlane self).Reachable db' := ⟨db, labels, hinit, hrun⟩
  have htasks : db.tasks = [] := hinit.1
  have hrange := run_withinRange hrun hkeys hcovers (by simp [htasks])
  refine ⟨⟨?_, ?_⟩, ?_⟩
  · intro hcounts stage hstage hfinished
    obtain ⟨task, htask, hrow⟩ := Db.mem_stages.mp hstage
    obtain ⟨hcreated, hstarted⟩ := (hrange task htask).stages stage hrow
    have hoccurred : query.Contains stage.occurredAt := by
      cases hcase : stage.startedAt with
      | none => simpa [StageRecord.occurredAt, hcase] using hcreated
      | some started => simpa [StageRecord.occurredAt, hcase] using hstarted started hcase
    exact not_includesStage hreach hquery hstage hfinished
      (hcounts.stages stage hstage hfinished hoccurred)
  · intro hnone
    refine ⟨?_, fun stage hstage hfinished => absurd hfinished (hnone stage hstage)⟩
    rintro task htask ⟨stage, hstage, hfinished⟩
    exact absurd hfinished (hnone stage (Db.mem_stages.mpr ⟨task, htask, hstage⟩))
  · exact fun task htask =>
      countsTask_iff (reachable_keysNodup hreach) hquery htask (hrange task htask).created

/-! ## Two stages completed by one worker -/

def firstHour : DashboardQuery where
  startTime := 0
  endTime := 3600
  workerId := some "worker"
  range_valid := by norm_num
  intervals_le := by norm_num [intervalSeconds]

theorem firstHour_onlyWorker : firstHour.OnlyWorker "worker" := ⟨rfl, rfl, rfl, rfl, rfl⟩

theorem operation_of_mem_scriptLabels {operations : List Operation} {operation : Operation}
    {response : Response} (h : .returned operation response ∈ scriptLabels self db operations) :
    operation ∈ operations := by
  induction operations generalizing db with
  | nil => cases h
  | cons first rest ih =>
      rw [scriptLabels] at h
      split at h
      · cases h
      · rcases List.mem_cons.mp h with heq | hrest
        · cases heq
          exact List.mem_cons_self
        · exact List.mem_cons_of_mem _ (ih hrest)

theorem covers_scriptLabels {operations : List Operation}
    (h : ∀ operation ∈ operations, query.Contains operation.now) :
    query.Covers (scriptLabels self db operations) :=
  fun _ _ hmem => h _ (operation_of_mem_scriptLabels hmem)

/-- Nothing is finished, and the summary accounts for that. -/
theorem worker_filter_counts_finished_leased :
    leasedDb.CountsFinishedWork firstHour "worker" := by
  have hinit : (controlPlane sampleScheduler).Initial sampleDb := ⟨rfl, rfl⟩
  have hrun : (controlPlane sampleScheduler).Run sampleDb
      (scriptLabels sampleScheduler sampleDb leaseScript) leasedDb :=
    afterScript_run (by decide +kernel)
  have hcovers : firstHour.Covers (scriptLabels sampleScheduler sampleDb leaseScript) :=
    covers_scriptLabels (by decide +kernel)
  have hboth := worker_filter_counts_finished_iff hinit hrun hcovers firstHour_onlyWorker
  exact hboth.1.mpr (by decide +kernel)

/-- Both parallel stages are done, and nobody holds the third. -/
def finishedDb : Db := afterScript sampleScheduler sampleDb mergeScript.dropLast

theorem finished_work_left_out : ∃ labels,
    (controlPlane sampleScheduler).Initial sampleDb ∧
    (controlPlane sampleScheduler).Run sampleDb labels finishedDb ∧
    firstHour.Covers labels ∧ firstHour.OnlyWorker "worker" ∧
    (∃ stage ∈ finishedDb.stages, stage.completionWorkerId = some "worker" ∧
      firstHour.Contains stage.occurredAt) ∧
    ¬ finishedDb.CountsFinishedWork firstHour "worker" ∧
    finishedDb.dashboardTasks firstHour = [] ∧ finishedDb.dashboardStages firstHour = [] := by
  have hfinished : ∃ stage ∈ finishedDb.stages, stage.completionWorkerId = some "worker" ∧
      firstHour.Contains stage.occurredAt := by decide +kernel
  have hstages : finishedDb.dashboardStages firstHour = [] := by decide +kernel
  refine ⟨_, ⟨rfl, rfl⟩, afterScript_run (by decide +kernel),
    covers_scriptLabels (by decide +kernel), firstHour_onlyWorker, hfinished, ?_,
    by decide +kernel, hstages⟩
  intro hcounts
  obtain ⟨stage, hstage, hworker, hrange⟩ := hfinished
  obtain ⟨backendId, _, hmem⟩ := hcounts.stages stage hstage hworker hrange
  rw [hstages] at hmem
  cases hmem

end ParserServe
