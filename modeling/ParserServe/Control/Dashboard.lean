import Mathlib.Data.Rat.Floor
import Mathlib.Tactic.NormNum
import ParserServe.Foundation.Buckets
import ParserServe.Foundation.Quantile
import ParserServe.Persistence.Models

/-! # Dashboard

`control/dashboard.py` and `schema/dashboard.py`: what `DashboardService.summary` computes from
the task and stage tables.  The sections on workers, callbacks, storage and runtimes read other
tables and are left out.  Durations and averages are exact.
-/

namespace ParserServe

open Foundation

/-! ## Queries -/

inductive MetricInterval
  | minute | fiveMinutes | hour | day
  deriving DecidableEq

/-- `_interval_seconds`. -/
def intervalSeconds : MetricInterval → Nat
  | .minute => 60
  | .fiveMinutes => 300
  | .hour => 3600
  | .day => 86400

/-- A query that has passed `DashboardQuery.validate_range`. -/
structure DashboardQuery where
  startTime : Time
  endTime : Time
  interval : MetricInterval := .hour
  pipelineId : Option String := none
  backendId : Option String := none
  workerId : Option String := none
  runtime : Option DeviceRuntime := none
  mediaCategory : Option MediaCategory := none
  range_valid : startTime < endTime
  intervals_le : (endTime - startTime) / intervalSeconds interval ≤ 10000

/-- The time lies in the range of the query. -/
def DashboardQuery.Contains (query : DashboardQuery) (time : Time) : Prop :=
  query.startTime ≤ time ∧ time < query.endTime

instance (query : DashboardQuery) (time : Time) : Decidable (query.Contains time) :=
  inferInstanceAs (Decidable (_ ∧ _))

/-- The conditions on a stage row; the same ones stand in `_filtered_task_ids` and `_stages`. -/
def DashboardQuery.matchesStage (query : DashboardQuery) (stage : StageRecord) : Bool :=
  (query.backendId.isNone || stage.backendId = query.backendId) &&
    (query.workerId.isNone || stage.workerId = query.workerId) &&
    (query.runtime.isNone || stage.runtime = query.runtime)

def DashboardQuery.hasStageFilters (query : DashboardQuery) : Bool :=
  query.backendId.isSome || query.workerId.isSome || query.runtime.isSome

/-- The `media_category` column, a copy of the one in the source metadata. -/
def TaskRecord.mediaCategory (task : TaskRecord) : Option MediaCategory :=
  task.sourceMetadata.map (·.mediaCategory)

/-- `_filtered_task_ids`. -/
def Db.filteredTaskIds (db : Db) (query : DashboardQuery) : List String :=
  (db.tasks.filter fun task =>
    (query.pipelineId.isNone || task.pipelineId = query.pipelineId) &&
      (query.mediaCategory.isNone || task.mediaCategory = query.mediaCategory) &&
      (!query.hasStageFilters || task.stages.any query.matchesStage)).map (·.taskId)

/-- `DashboardService._tasks`. -/
def Db.dashboardTasks (db : Db) (query : DashboardQuery) : List TaskRecord :=
  db.tasks.filter fun task =>
    query.Contains task.createdAt ∧ task.taskId ∈ db.filteredTaskIds query

/-- `coalesce(started_at, created_at)`. -/
def StageRecord.occurredAt (stage : StageRecord) : Time := stage.startedAt.getD stage.createdAt

/-- `DashboardService._stages`. -/
def Db.dashboardStages (db : Db) (query : DashboardQuery) : List StageRecord :=
  (db.tasks.filter fun task => task.taskId ∈ db.filteredTaskIds query).flatMap fun task =>
    task.stages.filter fun stage => query.Contains stage.occurredAt ∧ query.matchesStage stage

/-! ## Task counts and latencies -/

/-- `_duration_ms`. -/
def durationMs (start stop : Option Time) : Option ℚ := do
  let start ← start
  let stop ← stop
  some (max ((stop - start) * 1000) 0)

/-- `_average`. -/
def average (values : List ℚ) : ℚ := if values = [] then 0 else values.sum / values.length

/-- `_percentile`; `none` when an index is out of range. -/
def percentile? (values : List ℚ) (percentile : ℚ) : Option ℚ :=
  if values = [] then some 0
  else
    let ordered := values.insertionSort (· ≤ ·)
    let position := ((ordered.length : ℚ) - 1) * percentile
    interpolate ordered position

/-- For a percentile between 0 and 1 both indices are in range. -/
theorem percentile?_isSome (values : List ℚ) {percentile : ℚ}
    (h : 0 ≤ percentile ∧ percentile ≤ 1) :
    (percentile? values percentile).isSome := by
  unfold percentile?
  split
  · rfl
  · next hne =>
      have hlength : (values.insertionSort (· ≤ ·)).length = values.length :=
        List.length_insertionSort _ _
      have hone : (1 : ℚ) ≤ values.length := by
        exact_mod_cast List.length_pos_iff.mpr hne
      refine interpolate_isSome ?_ ?_
      · intro hnil
        exact hne (List.length_eq_zero_iff.mp (by rw [← hlength, hnil]; rfl))
      · exact mul_le_of_le_one_right (by rw [hlength]; linarith) h.2

/-- `_percentile` of a percentile between 0 and 1. -/
def percentile (values : List ℚ) (percentile : ℚ)
    (h : 0 ≤ percentile ∧ percentile ≤ 1 := by norm_num) : ℚ :=
  (percentile? values percentile).get (percentile?_isSome values h)

/-- A task section that has passed `TaskDashboardSummary.validate_counts`. -/
structure TaskDashboardSummary where
  totalTasks : Nat
  pendingTasks : Nat
  runningTasks : Nat
  succeededTasks : Nat
  failedTasks : Nat
  cancelledTasks : Nat
  successRate : ℚ
  averageWaitMs : ℚ
  averageExecutionMs : ℚ
  p50ExecutionMs : ℚ
  p95ExecutionMs : ℚ
  p99ExecutionMs : ℚ
  counts_total : pendingTasks + runningTasks + succeededTasks + failedTasks + cancelledTasks =
    totalTasks

def countStatus (tasks : List TaskRecord) (status : TaskStatus) : Nat :=
  tasks.countP (·.status = status)

/-- Each task has one of the six statuses, so the validator of the section never objects. -/
theorem countStatus_total (tasks : List TaskRecord) :
    countStatus tasks .pending + (countStatus tasks .leased + countStatus tasks .running) +
      countStatus tasks .succeeded + countStatus tasks .failed + countStatus tasks .cancelled =
        tasks.length := by
  induction tasks with
  | nil => rfl
  | cons task tasks ih =>
      simp only [countStatus] at ih
      cases hstatus : task.status <;> simp [countStatus, hstatus] <;> omega

/-- `DashboardService._task_summary`. -/
def taskSummary (tasks : List TaskRecord) : TaskDashboardSummary :=
  let waits := tasks.filterMap fun task => durationMs (some task.createdAt) task.startedAt
  let executions := tasks.filterMap fun task => durationMs task.startedAt task.completedAt
  { totalTasks := tasks.length
    pendingTasks := countStatus tasks .pending
    runningTasks := countStatus tasks .leased + countStatus tasks .running
    succeededTasks := countStatus tasks .succeeded
    failedTasks := countStatus tasks .failed
    cancelledTasks := countStatus tasks .cancelled
    successRate := if tasks = [] then 0 else countStatus tasks .succeeded / tasks.length
    averageWaitMs := average waits
    averageExecutionMs := average executions
    p50ExecutionMs := percentile executions (50 / 100)
    p95ExecutionMs := percentile executions (95 / 100)
    p99ExecutionMs := percentile executions (99 / 100)
    counts_total := countStatus_total tasks }

/-! ## Backend metrics -/

structure BackendMetric where
  backendId : String
  calls : Nat
  failures : Nat
  timeouts : Nat
  fallbacks : Nat
  averageDurationMs : ℚ

/-- The stages `_backend_metrics` files under a backend. -/
def backendStages (stages : List StageRecord) (backendId : String) : List StageRecord :=
  stages.filter fun stage => stage.backendId = some backendId ∧ 0 < stage.attempt

/-- The keys of `grouped`, sorted. -/
def groupedBackends (stages : List StageRecord) : List String :=
  (((stages.filter fun stage => 0 < stage.attempt).filterMap (·.backendId)).dedup).insertionSort
    (· ≤ ·)

def backendMetric (backendId : String) (records : List StageRecord) : BackendMetric where
  backendId := backendId
  calls := (records.map (·.attempt)).sum
  failures := records.countP (·.status = .failed)
  timeouts := records.countP fun stage => stage.error.any (·.code = .timeout)
  fallbacks := records.countP fun stage => stage.backendCandidates.head?.any (· ≠ backendId)
  averageDurationMs :=
    average (records.filterMap fun stage => durationMs stage.startedAt stage.completedAt)

/-- `DashboardService._backend_metrics`. -/
def backendMetrics (stages : List StageRecord) : List BackendMetric :=
  (groupedBackends stages).map fun backendId =>
    backendMetric backendId (backendStages stages backendId)

/-! ## Series -/

structure TimeSeriesPoint where
  timestamp : Time
  value : ℚ

structure NamedTimeSeries where
  name : String
  unit : String
  points : List TimeSeriesPoint

/-- `_bucket` at the start and the interval of a query. -/
def DashboardQuery.bucket (query : DashboardQuery) (value : Time) : Time :=
  bucketOf query.startTime (intervalSeconds query.interval) value

def DashboardQuery.timestamps (query : DashboardQuery) : List Time :=
  bucketsBefore query.startTime (intervalSeconds query.interval) query.endTime

/-- The counters of `_task_series`. -/
structure SeriesCounters where
  submitted : Counter Time := fun _ => 0
  succeeded : Counter Time := fun _ => 0
  failed : Counter Time := fun _ => 0

/-- One iteration of the loop over the tasks. -/
def SeriesCounters.count (counters : SeriesCounters) (query : DashboardQuery)
    (task : TaskRecord) : SeriesCounters :=
  let counters :=
    { counters with submitted := counters.submitted.increment (query.bucket task.createdAt) }
  match task.completedAt with
  | none => counters
  | some completedAt =>
      if completedAt < query.endTime then
        match task.status with
        | .succeeded =>
            { counters with
              succeeded := counters.succeeded.increment (query.bucket completedAt) }
        | .failed =>
            { counters with failed := counters.failed.increment (query.bucket completedAt) }
        | _ => counters
      else counters

def namedSeries (query : DashboardQuery) (name : String) (values : Counter Time) :
    NamedTimeSeries where
  name := name
  unit := "tasks"
  points := query.timestamps.map fun timestamp => ⟨timestamp, values timestamp⟩

/-- `DashboardService._task_series`. -/
def taskSeries (tasks : List TaskRecord) (query : DashboardQuery) : List NamedTimeSeries :=
  let counters := tasks.foldl (fun counters task => counters.count query task)
    ({} : SeriesCounters)
  [namedSeries query "submitted" counters.submitted,
    namedSeries query "succeeded" counters.succeeded,
    namedSeries query "failed" counters.failed]

/-! ## The summary -/

structure DashboardData where
  generatedAt : Time
  tasks : TaskDashboardSummary
  backends : List BackendMetric
  series : List NamedTimeSeries

/-- `DashboardService.summary`. -/
def Db.dashboardSummary (db : Db) (query : DashboardQuery) (generatedAt : Time) :
    DashboardData where
  generatedAt := generatedAt
  tasks := taskSummary (db.dashboardTasks query)
  backends := backendMetrics (db.dashboardStages query)
  series := taskSeries (db.dashboardTasks query) query

end ParserServe
