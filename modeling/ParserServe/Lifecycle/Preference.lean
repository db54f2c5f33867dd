import Mathlib.Tactic.Linarith
import ParserServe.Lifecycle.Admission

/-! # Runtime preference

Workers are ranked by the best runtime among their available devices, while a stage is
executed with the runtime `_select_backend` finds, which also depends on the order of the
backends and on the runtimes these and the worker's capability list.  Weights decide between
workers whose devices rank alike, so they can put a worker first whose device is never used.
-/

namespace ParserServe

open Foundation

variable {self : StageScheduler} {db : Db} {task : TaskRecord} {stage : StageRecord}
  {worker other : WorkerRecord}

/-! ## Bounds of the score -/

theorem le_foldl_max (init : ℚ) (signals : List ℚ) : init ≤ signals.foldl max init := by
  induction signals generalizing init with
  | nil => exact le_rfl
  | cons signal rest ih => exact (le_max_left init signal).trans (ih _)

/-- The factor that multiplies the weight lies between 5% and 1. -/
theorem workerSchedulingScore_bounds (worker : WorkerRecord) (activeCount : Nat)
    (runtimes : List DeviceRuntime) (minimumMemoryBytes : Option Nat) :
    worker.schedulingWeight * (5 / 100 : ℚ) ≤
        workerSchedulingScore worker activeCount runtimes minimumMemoryBytes ∧
      workerSchedulingScore worker activeCount runtimes minimumMemoryBytes ≤
        worker.schedulingWeight := by
  have hweight : (0 : ℚ) ≤ worker.schedulingWeight := Nat.cast_nonneg _
  unfold workerSchedulingScore
  extract_lets capacity resourceLoads deviceLoad signals load
  have hload : 0 ≤ load := le_min (le_foldl_max 0 signals) zero_le_one
  have hfactor : max (1 - load) (5 / 100) ≤ 1 := max_le (by linarith) (by norm_num)
  constructor
  · exact mul_le_mul_of_nonneg_left (le_max_right _ _) hweight
  · exact mul_le_of_le_one_right hweight hfactor

/-! ## Other weights and loads -/

/-- Weights and resource reports for all workers. -/
structure Loads where
  weight : String → Nat
  resources : String → Option WorkerResourceUsage
  weight_valid : ∀ workerId, 1 ≤ weight workerId ∧ weight workerId ≤ 1000

def WorkerRecord.reload (worker : WorkerRecord) (loads : Loads) : WorkerRecord :=
  { worker with
    schedulingWeight := loads.weight worker.workerId
    resources := loads.resources worker.workerId
    weight_valid := loads.weight_valid worker.workerId }

/-- The database with these weights and reports. -/
def Db.reload (db : Db) (loads : Loads) : Db :=
  { db with
    workers := db.workers.map (·.reload loads)
    workers_nodup := by
      rw [List.map_map]
      exact db.workers_nodup }

theorem compatibleRuntimes_reload (loads : Loads) :
    self.compatibleRuntimes task stage (worker.reload loads) =
      self.compatibleRuntimes task stage worker := rfl

theorem eligible_reload (loads : Loads) (h : self.Eligible db task stage worker) :
    self.Eligible (db.reload loads) task stage (worker.reload loads) :=
  ⟨List.mem_map_of_mem h.mem, h.enabled, h.status, h.slot, h.labels, h.backend⟩

theorem eligible_of_reload {loads : Loads} (h : self.Eligible (db.reload loads) task stage worker) :
    ∃ original, self.Eligible db task stage original ∧ worker = original.reload loads := by
  obtain ⟨hmem, henabled, hstatus, hslot, hlabels, hbackend⟩ := h
  obtain ⟨original, horiginal, rfl⟩ := List.mem_map.mp hmem
  exact ⟨original, ⟨horiginal, henabled, hstatus, hslot, hlabels, hbackend⟩, rfl⟩

/-- One worker with the greatest weight, all others with the least. -/
def favouring (workerId : String) : Loads where
  weight candidate := if candidate = workerId then 1000 else 1
  resources _ := none
  weight_valid candidate := by
    by_cases h : candidate = workerId <;> simp [h]

/-! ## Who is accepted -/

/-- The best index in the stage's runtime order among the worker's available devices. -/
def StageScheduler.deviceIndex (self : StageScheduler) (task : TaskRecord) (stage : StageRecord)
    (worker : WorkerRecord) : Nat :=
  leastRuntimeIndex stage (self.compatibleRuntimes task stage worker)

theorem deviceIndex_le_of_rank_le
    (h : self.rank db task stage other ≤ self.rank db task stage worker) :
    self.deviceIndex task stage worker ≤ self.deviceIndex task stage other := by
  have hfirst := (Prod.Lex.toLex_le_toLex'.mp h).1
  simpa [StageScheduler.deviceIndex] using hfirst

/-- A worker with the best devices is accepted when it alone has weight. -/
theorem accepts_favouring (hworker : self.Eligible db task stage worker)
    (hbest : ∀ other, self.Eligible db task stage other →
      self.deviceIndex task stage worker ≤ self.deviceIndex task stage other) :
    self.accepts (db.reload (favouring worker.workerId)) task stage
      (worker.reload (favouring worker.workerId)) := by
  have hentry := mem_ranked.mpr ⟨_, eligible_reload (favouring worker.workerId) hworker, rfl⟩
  refine accepts_iff.mpr (preferred_of_dominates hentry fun entry hmem => ?_)
  obtain ⟨reloaded, hreloaded, rfl⟩ := mem_ranked.mp hmem
  obtain ⟨other, hother, rfl⟩ := eligible_of_reload hreloaded
  by_cases hsame : other.workerId = worker.workerId
  · left
    rw [List.inj_on_of_nodup_map db.workers_nodup hother.mem hworker.mem hsame]
  · right
    refine Prod.Lex.toLex_lt_toLex'.mpr ⟨?_, fun _ => Prod.Lex.toLex_lt_toLex'.mpr ?_⟩
    · have hle := hbest other hother
      simpa [StageScheduler.deviceIndex, compatibleRuntimes_reload] using hle
    · have hhigh := (workerSchedulingScore_bounds (other.reload (favouring worker.workerId))
        ((db.reload (favouring worker.workerId)).activeStageCount other.workerId)
        (self.compatibleRuntimes task stage other) task.options.device.minimumMemoryBytes).2
      have hlow := (workerSchedulingScore_bounds (worker.reload (favouring worker.workerId))
        ((db.reload (favouring worker.workerId)).activeStageCount worker.workerId)
        (self.compatibleRuntimes task stage worker) task.options.device.minimumMemoryBytes).1
      have hone : (other.reload (favouring worker.workerId)).schedulingWeight = 1 := by
        simp [WorkerRecord.reload, favouring, hsame]
      have hmost : (worker.reload (favouring worker.workerId)).schedulingWeight = 1000 := by
        simp [WorkerRecord.reload, favouring]
      rw [hone] at hhigh
      rw [hmost] at hlow
      have hlt := calc
        workerSchedulingScore (other.reload (favouring worker.workerId)) _ _ _ ≤ ((1 : ℕ) : ℚ) :=
          hhigh
        _ < ((1000 : ℕ) : ℚ) * (5 / 100) := by norm_num
        _ ≤ workerSchedulingScore (worker.reload (favouring worker.workerId)) _ _ _ := hlow
      exact ⟨hlt.le, fun heq => absurd heq hlt.ne⟩

/-! ## Results -/

/-- The accepted worker uses no later runtime than another eligible one would. -/
def StageScheduler.HonoursRuntimeOrder (self : StageScheduler) (db : Db) (task : TaskRecord)
    (stage : StageRecord) : Prop :=
  ∀ worker ∈ db.workers, self.accepts db task stage worker →
    ∀ backend runtime, self.backendFor db task stage worker = some (backend, runtime) →
      ∀ other, self.Eligible db task stage other →
        ∀ otherBackend otherRuntime,
          self.backendFor db task stage other = some (otherBackend, otherRuntime) →
            stage.requiredRuntimes.idxOf runtime ≤ stage.requiredRuntimes.idxOf otherRuntime

/-- The order of runtimes is honoured, whatever the weights and loads, exactly when no
eligible worker whose devices rank best uses a later runtime than another eligible worker. -/
theorem runtime_order_honoured_iff :
    (∀ loads, self.HonoursRuntimeOrder (db.reload loads) task stage) ↔
      ∀ worker, self.Eligible db task stage worker →
        (∀ other, self.Eligible db task stage other →
          self.deviceIndex task stage worker ≤ self.deviceIndex task stage other) →
        ∀ backend runtime, self.backendFor db task stage worker = some (backend, runtime) →
          ∀ other, self.Eligible db task stage other →
            ∀ otherBackend otherRuntime,
              self.backendFor db task stage other = some (otherBackend, otherRuntime) →
                stage.requiredRuntimes.idxOf runtime ≤
                  stage.requiredRuntimes.idxOf otherRuntime := by
  constructor
  · intro h worker hworker hbest backend runtime hbackend other hother otherBackend otherRuntime
      hotherBackend
    exact h (favouring worker.workerId) _ (eligible_reload _ hworker).mem
      (accepts_favouring hworker hbest) backend runtime hbackend _ (eligible_reload _ hother)
      otherBackend otherRuntime hotherBackend
  · intro h loads accepted hmem haccepts backend runtime hbackend reloaded hreloaded otherBackend
      otherRuntime hotherBackend
    obtain ⟨haccepted, hbest⟩ := eligible_of_accepts haccepts hmem
    obtain ⟨worker, hworker, rfl⟩ := eligible_of_reload haccepted
    obtain ⟨other, hother, rfl⟩ := eligible_of_reload hreloaded
    refine h worker hworker (fun rival hrival => ?_) backend runtime hbackend other hother
      otherBackend otherRuntime hotherBackend
    have hle := deviceIndex_le_of_rank_le (hbest _ (eligible_reload loads hrival))
    exact hle

/-! ## A processor-only backend on a machine with an accelerator -/

/-- The backend itself runs on both. -/
def dualCapability : BackendCapability :=
  { sampleCapability with
    runtimes := [.cuda, .cpu]
    runtimes_ne_nil := List.cons_ne_nil _ _
    runtimes_nodup := by decide }

/-- It has an accelerator, and the backend installed on it only uses the processor. -/
def mixedWorker : WorkerRecord :=
  { sampleWorker with
    workerId := "mixed"
    schedulingWeight := 1000
    devices := [{ deviceId := "gpu", runtime := .cuda }, { deviceId := "cpu", runtime := .cpu }]
    weight_valid := by decide
    devices_nodup := by decide }

def acceleratedWorker : WorkerRecord :=
  { mixedWorker with
    workerId := "accelerated"
    schedulingWeight := 10
    backends := [dualCapability]
    weight_valid := by decide
    backends_nodup := List.nodup_singleton _ }

def acceleratedOptions : TaskOptions :=
  { (default : TaskOptions) with
    device :=
      { (default : TaskOptions).device with
        strategy := .prefer
        runtimes := [.cuda]
        strategy_valid := fun _ => List.cons_ne_nil _ _
        runtimes_nodup := List.nodup_singleton _ } }

/-- Both workers are online, and a task that prefers the accelerator is routed. -/
def preferringDb : Db :=
  afterScript sampleScheduler
    { sampleDb with
      workers := [mixedWorker, acceleratedWorker]
      backends :=
        [{ backendId := "backend", status := .enabled, capability := dualCapability
           updatedAt := 0 }]
      workers_nodup := by decide
      backends_nodup := List.nodup_singleton _ }
    [.create { source := .url "https://host/report.pdf", options := acceleratedOptions } none false
        "task" (.ok (some sampleMetadata)) 0,
      .route "task" false sampleStageIds 1]

/-- The worker with the greater weight is accepted and would use its processor; the other one
would use its accelerator. -/
theorem preferred_runtime_passed_over : (controlPlane sampleScheduler).Reachable preferringDb ∧
    ∃ task ∈ preferringDb.tasks, ∃ stage ∈ task.stages,
      stage.requiredRuntimes = [.cuda, .cpu] ∧
      ¬ sampleScheduler.HonoursRuntimeOrder preferringDb task stage := by
  refine ⟨afterScript_reachable ⟨_, [], ⟨rfl, rfl⟩, .nil _⟩, ?_⟩
  have hplaced : ∃ task ∈ preferringDb.tasks, ∃ stage ∈ task.stages,
      stage.requiredRuntimes = [.cuda, .cpu] ∧ mixedWorker ∈ preferringDb.workers ∧
        acceleratedWorker ∈ preferringDb.workers ∧
        sampleScheduler.accepts preferringDb task stage mixedWorker ∧
        (sampleScheduler.backendFor preferringDb task stage mixedWorker).map (·.2) = some .cpu ∧
        (sampleScheduler.backendFor preferringDb task stage acceleratedWorker).map (·.2) =
          some .cuda ∧
        preferringDb.activeStageCount "accelerated" < 4 ∧
        labelsMatch acceleratedWorker task.options := by
    decide +kernel
  obtain ⟨task, htask, stage, hstage, hruntimes, hmixed, haccelerated, haccepts, hcpu, hcuda,
    hslot, hlabels⟩ := hplaced
  refine ⟨task, htask, stage, hstage, hruntimes, fun honours => ?_⟩
  obtain ⟨⟨backend, _⟩, hbackend, rfl⟩ := Option.map_eq_some_iff.mp hcpu
  obtain ⟨⟨otherBackend, _⟩, hother, rfl⟩ := Option.map_eq_some_iff.mp hcuda
  have heligible : sampleScheduler.Eligible preferringDb task stage acceleratedWorker :=
    ⟨haccelerated, rfl, .inl rfl, hslot, hlabels, by rw [hother]; exact Option.some_ne_none _⟩
  have hle := honours _ hmixed haccepts _ _ hbackend _ heligible _ _ hother
  rw [hruntimes] at hle
  exact absurd hle (by decide)

end ParserServe
