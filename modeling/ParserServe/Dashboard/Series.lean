import Mathlib.Algebra.BigOperators.Ring.Finset
import Mathlib.Tactic.NormNum
import ParserServe.Control.Dashboard
import ParserServe.Persistence.Tasks

/-! # The dashboard series

`_task_series` counts tasks under rounded-down bucket keys and prints a rounded-up number of
points.  Each counted key is printed, so the points add up to the counted tasks.
-/

namespace ParserServe

open Foundation

variable {query : DashboardQuery} {tasks : List TaskRecord}

theorem intervalSeconds_pos (interval : MetricInterval) : (0 : ℚ) < intervalSeconds interval := by
  cases interval <;> norm_num [intervalSeconds]

/-! ## Timestamps -/

theorem DashboardQuery.bucket_mem {time : Time} (h : query.Contains time) :
    query.bucket time ∈ query.timestamps :=
  bucketOf_mem (intervalSeconds_pos query.interval) h.1 h.2

theorem DashboardQuery.timestamps_pairwise : query.timestamps.Pairwise (· < ·) :=
  bucketsBefore_pairwise (intervalSeconds_pos query.interval)

theorem DashboardQuery.timestamps_nodup : query.timestamps.Nodup :=
  query.timestamps_pairwise.imp fun h => h.ne

/-- The timestamps are all multiples of the interval before the end. -/
theorem DashboardQuery.mem_timestamps {timestamp : Time} :
    timestamp ∈ query.timestamps ↔
      ∃ index : Nat, timestamp = query.startTime + index * intervalSeconds query.interval ∧
        timestamp < query.endTime :=
  mem_bucketsBefore (intervalSeconds_pos query.interval)

/-! ## What the counters hold -/

/-- The completion times that a counter of finished tasks counts. -/
def completionsBefore (query : DashboardQuery) (status : TaskStatus) (tasks : List TaskRecord) :
    List Time :=
  (tasks.filter (·.status = status)).filterMap fun task =>
    task.completedAt.filter (· < query.endTime)

theorem mem_completionsBefore {status : TaskStatus} {time : Time} :
    time ∈ completionsBefore query status tasks ↔
      ∃ task ∈ tasks, task.status = status ∧ task.completedAt = some time ∧
        time < query.endTime := by
  simp [completionsBefore, Option.filter_eq_some_iff, and_assoc]

theorem completionsBefore_length {status : TaskStatus} :
    (completionsBefore query status tasks).length =
      tasks.countP fun task => task.status = status ∧ ∃ time ∈ task.completedAt,
        time < query.endTime := by
  rw [completionsBefore, List.length_filterMap_eq_countP, List.countP_filter]
  refine List.countP_congr fun task _ => ?_
  cases task.completedAt <;> simp [Option.filter, and_comm]

/-- What the loop over the tasks has counted. -/
def countedSeries (query : DashboardQuery) (tasks : List TaskRecord) : SeriesCounters where
  submitted := countKeys query.bucket (tasks.map (·.createdAt))
  succeeded := countKeys query.bucket (completionsBefore query .succeeded tasks)
  failed := countKeys query.bucket (completionsBefore query .failed tasks)

theorem completionsBefore_concat (status : TaskStatus) (task : TaskRecord) :
    completionsBefore query status (tasks ++ [task]) =
      completionsBefore query status tasks ++ completionsBefore query status [task] := by
  simp [completionsBefore]

theorem completionsBefore_single (status : TaskStatus) (task : TaskRecord) :
    completionsBefore query status [task] =
      if task.status = status then (task.completedAt.filter (· < query.endTime)).toList
      else [] := by
  unfold completionsBefore
  split
  · next h => cases hf : task.completedAt.filter (· < query.endTime) <;> simp [h, hf]
  · next h => simp [h]

/-- One iteration counts its task. -/
theorem countedSeries_concat (task : TaskRecord) :
    (countedSeries query tasks).count query task = countedSeries query (tasks ++ [task]) := by
  simp only [countedSeries, completionsBefore_concat, completionsBefore_single, List.map_append,
    List.map_cons, List.map_nil, countKeys_concat]
  cases hcompleted : task.completedAt with
  | none => simp [SeriesCounters.count, hcompleted]
  | some completedAt =>
      by_cases hbefore : completedAt < query.endTime
      · cases hstatus : task.status <;>
          simp [SeriesCounters.count, hcompleted, hbefore, hstatus, Option.filter, countKeys_concat]
      · simp [SeriesCounters.count, hcompleted, hbefore, Option.filter]

theorem taskSeries_counters :
    tasks.foldl (fun counters task => counters.count query task) ({} : SeriesCounters) =
      countedSeries query tasks := by
  induction tasks using List.reverseRecOn with
  | nil => simp [countedSeries, completionsBefore]
  | append_singleton tasks task ih =>
      rw [List.foldl_concat, ih, countedSeries_concat]

theorem taskSeries_eq : taskSeries tasks query =
    [namedSeries query "submitted" (countedSeries query tasks).submitted,
      namedSeries query "succeeded" (countedSeries query tasks).succeeded,
      namedSeries query "failed" (countedSeries query tasks).failed] := by
  rw [taskSeries, taskSeries_counters]

/-! ## What the points add up to -/

def NamedTimeSeries.timestamps (series : NamedTimeSeries) : List Time :=
  series.points.map (·.timestamp)

def NamedTimeSeries.total (series : NamedTimeSeries) : ℚ := (series.points.map (·.value)).sum

@[simp] theorem namedSeries_timestamps (name : String) (values : Counter Time) :
    (namedSeries query name values).timestamps = query.timestamps := by
  simp [NamedTimeSeries.timestamps, namedSeries, Function.comp_def]

/-- A series of times in the range adds up to their number. -/
theorem namedSeries_total {name : String} {times : List Time}
    (h : ∀ time ∈ times, query.Contains time) :
    (namedSeries query name (countKeys query.bucket times)).total = times.length := by
  have hsum := sum_countKeys query.timestamps_nodup
    fun time htime => query.bucket_mem (h time htime)
  rw [← hsum, Nat.cast_list_sum]
  simp [NamedTimeSeries.total, namedSeries, Function.comp_def]

/-- The tasks of a status that were completed before the end of the range. -/
def completedBefore (query : DashboardQuery) (status : TaskStatus) (tasks : List TaskRecord) :
    Nat :=
  tasks.countP fun task => task.status = status ∧ ∃ time ∈ task.completedAt, time < query.endTime

/-! ## Results -/

/-- For tasks created in the range and completed after their creation the series print the
same increasing timestamps, each counted key is one of them, and the points add up to the
tasks submitted, succeeded and failed before the end of the range. -/
theorem task_series_conserve (query : DashboardQuery) (tasks : List TaskRecord)
    (hcreated : ∀ task ∈ tasks, query.startTime ≤ task.createdAt ∧ task.createdAt < query.endTime)
    (hcompleted : ∀ task ∈ tasks, ∀ time ∈ task.completedAt, task.createdAt ≤ time) :
    ∃ submitted succeeded failed : NamedTimeSeries,
      taskSeries tasks query = [submitted, succeeded, failed] ∧
      submitted.name = "submitted" ∧ succeeded.name = "succeeded" ∧ failed.name = "failed" ∧
      (∃ timestamps : List Time,
        (∀ series ∈ taskSeries tasks query, series.timestamps = timestamps) ∧
        timestamps.Pairwise (· < ·) ∧
        (∀ timestamp, timestamp ∈ timestamps ↔ timestamp < query.endTime ∧
          ∃ index : Nat, timestamp =
            query.startTime + index * intervalSeconds query.interval) ∧
        (∀ task ∈ tasks, query.bucket task.createdAt ∈ timestamps) ∧
        (∀ task ∈ tasks, ∀ time ∈ task.completedAt, time < query.endTime →
          query.bucket time ∈ timestamps)) ∧
      submitted.total = tasks.length ∧
      succeeded.total = completedBefore query .succeeded tasks ∧
      failed.total = completedBefore query .failed tasks := by
  have hfinished : ∀ task ∈ tasks, ∀ time ∈ task.completedAt, time < query.endTime →
      query.Contains time := fun task htask time htime hbefore =>
    ⟨(hcreated task htask).1.trans (hcompleted task htask time htime), hbefore⟩
  have htotal : ∀ name status, (namedSeries query name
      (countKeys query.bucket (completionsBefore query status tasks))).total =
        completedBefore query status tasks := by
    intro name status
    rw [namedSeries_total, completionsBefore_length, completedBefore]
    intro time htime
    obtain ⟨task, htask, _, hcompletedAt, hbefore⟩ := mem_completionsBefore.mp htime
    exact hfinished task htask time hcompletedAt hbefore
  refine ⟨_, _, _, taskSeries_eq, rfl, rfl, rfl, ⟨query.timestamps, ?_, query.timestamps_pairwise,
    ?_, ?_, ?_⟩, ?_, htotal _ _, htotal _ _⟩
  · rw [taskSeries_eq]
    simp
  · intro timestamp
    rw [query.mem_timestamps, exists_and_right, and_comm]
  · exact fun task htask => query.bucket_mem (hcreated task htask)
  · exact fun task htask time htime hbefore =>
      query.bucket_mem (hfinished task htask time htime hbefore)
  · have hrange : ∀ time ∈ tasks.map (·.createdAt), query.Contains time :=
      List.forall_mem_map.mpr hcreated
    exact (namedSeries_total hrange).trans (by rw [List.length_map])

/-! ## Ninety minutes in hours -/

def ninetyMinutes : DashboardQuery where
  startTime := 0
  endTime := 5400
  range_valid := by norm_num
  intervals_le := by norm_num [intervalSeconds]

def reportedTask (status : TaskStatus) (createdAt : Time) (completedAt : Option Time) :
    TaskRecord :=
  { newTask { source := .url "https://host/report.pdf", options := default } none "task" none
      createdAt with
    status := status
    completedAt := completedAt }

/-- One task at the start, one at the border of the buckets that ends with the range, and one
in the bucket that the range cuts short. -/
def reportedTasks : List TaskRecord :=
  [reportedTask .succeeded 0 (some 3600), reportedTask .failed 3600 (some 5400),
    reportedTask .pending 5399 none]

theorem task_series_conserve_cut : ∃ submitted succeeded failed : NamedTimeSeries,
    taskSeries reportedTasks ninetyMinutes = [submitted, succeeded, failed] ∧
      submitted.total = 3 ∧ succeeded.total = 1 ∧ failed.total = 0 := by
  obtain ⟨submitted, succeeded, failed, hseries, _, _, _, _, hsubmitted, hsucceeded, hfailed⟩ :=
    task_series_conserve ninetyMinutes reportedTasks (by decide) (by decide)
  have hone : completedBefore ninetyMinutes .succeeded reportedTasks = 1 := by decide
  have hnone : completedBefore ninetyMinutes .failed reportedTasks = 0 := by decide
  rw [hone] at hsucceeded
  rw [hnone] at hfailed
  exact ⟨submitted, succeeded, failed, hseries, hsubmitted, hsucceeded, hfailed⟩

end ParserServe
