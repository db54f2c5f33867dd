import ParserServe.Control.Scheduler
import ParserServe.Foundation.Ranking

/-! # Admission

Each polling worker computes the ranking on its own.  Before anything is granted all of them
compute the same one, so a stage that some worker could execute is accepted by exactly one.
-/

namespace ParserServe

open Foundation

variable {self : StageScheduler} {db : Db} {task : TaskRecord} {stage : StageRecord}
  {worker other : WorkerRecord}

/-! ## What the selection guarantees -/

/-- A backend and a runtime the worker may execute the stage with. -/
structure Selected (db : Db) (task : TaskRecord) (stage : StageRecord) (worker : WorkerRecord)
    (workerRuntimes : List DeviceRuntime) (backend : BackendRecord) (runtime : DeviceRuntime) :
    Prop where
  registered : backend ∈ db.backends
  enabled : backend.status = .enabled
  candidate : backend.backendId ∈ stage.backendCandidates
  offered : ∃ capability ∈ worker.backends, capability.name = backend.capability.name ∧
    capability.version = backend.capability.version ∧ runtime ∈ capability.runtimes
  supported : runtime ∈ backend.capability.runtimes
  required : runtime ∈ stage.requiredRuntimes
  available : runtime ∈ workerRuntimes
  source : task.sourceMetadata.isSome

theorem selected_of_selectBackend {workerRuntimes : List DeviceRuntime} {backend : BackendRecord}
    {runtime : DeviceRuntime}
    (h : selectBackend db task stage worker workerRuntimes = some (backend, runtime)) :
    Selected db task stage worker workerRuntimes backend runtime := by
  unfold selectBackend at h
  split at h
  · cases h
  obtain ⟨backendId, hcandidate, h⟩ := List.exists_of_findSome?_eq_some h
  unfold candidateRuntime at h
  obtain ⟨found, hfound, h⟩ := Option.bind_eq_some_iff.mp h
  split at h
  · cases h
  next henabled =>
    obtain ⟨capability, hcapability, h⟩ := Option.bind_eq_some_iff.mp h
    obtain ⟨metadata, hmetadata, h⟩ := Option.bind_eq_some_iff.mp h
    split at h
    · cases h
    obtain ⟨chosen, hchosen, h⟩ := Option.bind_eq_some_iff.mp h
    cases h
    have hid : backend.backendId = backendId := by simpa using List.find?_some hfound
    have hoffer : capability.name = backend.capability.name ∧
        capability.version = backend.capability.version := by
      simpa using List.find?_some hcapability
    have hruntime : runtime ∈ backend.capability.runtimes ∧ runtime ∈ workerRuntimes ∧
        runtime ∈ capability.runtimes := by
      simpa using List.find?_some hchosen
    exact
      { registered := List.mem_of_find?_eq_some hfound
        enabled := not_not.mp henabled
        candidate := hid ▸ hcandidate
        offered := ⟨capability, List.mem_of_find?_eq_some hcapability, hoffer.1, hoffer.2,
          hruntime.2.2⟩
        supported := hruntime.1
        required := List.mem_of_find?_eq_some hchosen
        available := hruntime.2.1
        source := by rw [hmetadata]; rfl }

theorem mem_availableWorkerRuntimes {minimumMemoryBytes : Option Nat} {runtime : DeviceRuntime} :
    runtime ∈ self.availableWorkerRuntimes worker minimumMemoryBytes ↔
      ∃ device ∈ worker.devices, device.runtime = runtime ∧
        self.deviceAvailable worker device minimumMemoryBytes := by
  simp only [StageScheduler.availableWorkerRuntimes, List.mem_map, List.mem_filter]
  constructor
  · rintro ⟨device, ⟨hmem, havailable⟩, hruntime⟩
    exact ⟨device, hmem, hruntime, havailable⟩
  · rintro ⟨device, hmem, hruntime, havailable⟩
    exact ⟨device, ⟨hmem, havailable⟩, hruntime⟩

/-- The device chosen is one of the worker's, with the runtime asked for, and available. -/
theorem device_of_selectDeviceId {runtime : DeviceRuntime} {minimumMemoryBytes : Option Nat}
    {activeCounts : String → Nat} {deviceId : String}
    (h : self.selectDeviceId worker runtime minimumMemoryBytes activeCounts = some deviceId) :
    ∃ device ∈ worker.devices, device.deviceId = deviceId ∧ device.runtime = runtime ∧
      self.deviceAvailable worker device minimumMemoryBytes := by
  unfold StageScheduler.selectDeviceId at h
  obtain ⟨best, hbest, rfl⟩ := Option.map_eq_some_iff.mp h
  obtain ⟨device, hdevice, rfl⟩ := List.mem_map.mp (List.min?_mem hbest)
  obtain ⟨hmem, htests⟩ := List.mem_filter.mp hdevice
  simp only [Bool.and_eq_true, decide_eq_true_eq] at htests
  exact ⟨device, hmem, rfl, htests.1, htests.2⟩

/-- Where a runtime is available, so is a device for it, whatever the device counts. -/
theorem selectDeviceId_isSome {runtime : DeviceRuntime} {minimumMemoryBytes : Option Nat}
    (h : runtime ∈ self.availableWorkerRuntimes worker minimumMemoryBytes)
    (activeCounts : String → Nat) :
    (self.selectDeviceId worker runtime minimumMemoryBytes activeCounts).isSome := by
  obtain ⟨device, hmem, hruntime, havailable⟩ := mem_availableWorkerRuntimes.mp h
  unfold StageScheduler.selectDeviceId
  rw [Option.isSome_map]
  exact List.isSome_min?_of_mem (List.mem_map_of_mem (List.mem_filter.mpr
    ⟨hmem, by simp [hruntime, havailable]⟩))

/-! ## Eligible workers -/

/-- What a worker would execute the stage with. -/
def StageScheduler.backendFor (self : StageScheduler) (db : Db) (task : TaskRecord)
    (stage : StageRecord) (worker : WorkerRecord) : Option (BackendRecord × DeviceRuntime) :=
  selectBackend db task stage worker
    (self.availableWorkerRuntimes worker task.options.device.minimumMemoryBytes)

/-- The worker could execute the stage now. -/
structure StageScheduler.Eligible (scheduler : StageScheduler) (db : Db) (task : TaskRecord)
    (stage : StageRecord) (worker : WorkerRecord) : Prop where
  mem : worker ∈ db.workers
  enabled : worker.enabled
  status : worker.status = .online ∨ worker.status = .busy
  slot : db.activeStageCount worker.workerId < worker.maximumConcurrency
  labels : labelsMatch worker task.options
  backend : scheduler.backendFor db task stage worker ≠ none

/-- `_requesting_worker_is_preferred` for a worker that asks before anything is granted. -/
def StageScheduler.accepts (self : StageScheduler) (db : Db) (task : TaskRecord)
    (stage : StageRecord) (worker : WorkerRecord) : Bool :=
  self.requestingWorkerIsPreferred db task stage worker (db.activeStageCount worker.workerId)
    (db.workers.filter (·.acceptsLeases)) db.activeStageCount

/-! ## The common ranking -/

/-- The runtimes of the available devices that the stage may use. -/
def StageScheduler.compatibleRuntimes (self : StageScheduler) (task : TaskRecord)
    (stage : StageRecord) (worker : WorkerRecord) : List DeviceRuntime :=
  (self.availableWorkerRuntimes worker task.options.device.minimumMemoryBytes).filter
    (stage.requiredRuntimes.contains ·)

/-- The rank of an eligible worker. -/
def StageScheduler.rank (self : StageScheduler) (db : Db) (task : TaskRecord)
    (stage : StageRecord) (worker : WorkerRecord) : WorkerRank :=
  toLex (-(leastRuntimeIndex stage (self.compatibleRuntimes task stage worker) : ℤ),
    toLex (workerSchedulingScore worker (db.activeStageCount worker.workerId)
        (self.compatibleRuntimes task stage worker) task.options.device.minimumMemoryBytes,
      toLex (worker.schedulingWeight, -(db.activeStageCount worker.workerId : ℤ))))

/-- The ranking every worker computes before anything is granted. -/
def StageScheduler.ranked (self : StageScheduler) (db : Db) (task : TaskRecord)
    (stage : StageRecord) : List (WorkerRank × String) :=
  (db.workers.filter (·.acceptsLeases)).filterMap fun candidate =>
    (self.workerRank db task stage (db.activeStageCount candidate.workerId) candidate).map
      (·, candidate.workerId)

theorem acceptsLeases_iff : worker.acceptsLeases ↔
    worker.enabled ∧ (worker.status = .online ∨ worker.status = .busy) := by
  simp [WorkerRecord.acceptsLeases]

theorem workerRank_eq_some {rank : WorkerRank} :
    self.workerRank db task stage (db.activeStageCount worker.workerId) worker = some rank ↔
      db.activeStageCount worker.workerId < worker.maximumConcurrency ∧
        labelsMatch worker task.options ∧ self.backendFor db task stage worker ≠ none ∧
          self.rank db task stage worker = rank := by
  unfold StageScheduler.workerRank
  dsimp only
  split
  · next hfull => simp [hfull]
  split
  · next hlabels => simp_all
  split
  · next hnone => simp [StageScheduler.backendFor, hnone]
  · next hfree hlabels hsome =>
      simp only [not_le] at hfree
      simp only [not_not] at hlabels
      rw [Option.some.injEq]
      exact ⟨fun h => ⟨hfree, hlabels, hsome, h⟩, fun h => h.2.2.2⟩

theorem mem_ranked {entry : WorkerRank × String} :
    entry ∈ self.ranked db task stage ↔ ∃ worker, self.Eligible db task stage worker ∧
      entry = (self.rank db task stage worker, worker.workerId) := by
  simp only [StageScheduler.ranked, List.mem_filterMap, List.mem_filter, Option.map_eq_some_iff,
    workerRank_eq_some, acceptsLeases_iff]
  constructor
  · rintro ⟨worker, ⟨hmem, henabled, hstatus⟩, rank, ⟨hslot, hlabels, hbackend, rfl⟩, rfl⟩
    exact ⟨worker, ⟨hmem, henabled, hstatus, hslot, hlabels, hbackend⟩, rfl⟩
  · rintro ⟨worker, ⟨hmem, henabled, hstatus, hslot, hlabels, hbackend⟩, rfl⟩
    exact ⟨worker, ⟨hmem, henabled, hstatus⟩, _, ⟨hslot, hlabels, hbackend, rfl⟩, rfl⟩

/-- Asking first, every worker consults the same ranking. -/
theorem accepts_iff : self.accepts db task stage worker ↔
    preferred (self.ranked db task stage) = some worker.workerId := by
  have hranked : ((db.workers.filter (·.acceptsLeases)).filterMap fun candidate =>
      (self.workerRank db task stage (if candidate.workerId = worker.workerId then
        db.activeStageCount worker.workerId else db.activeStageCount candidate.workerId)
          candidate).map (·, candidate.workerId)) = self.ranked db task stage := by
    unfold StageScheduler.ranked
    congr 1
    funext candidate
    by_cases hid : candidate.workerId = worker.workerId <;> simp [hid]
  unfold StageScheduler.accepts StageScheduler.requestingWorkerIsPreferred
  rw [hranked]
  unfold preferred
  cases hmax : ((self.ranked db task stage).map (·.1)).max? with
  | none => simp [hmax]
  | some best => simp [hmax]

/-- The worker asked first stands in the ranking, and none of the others above it. -/
theorem eligible_of_accepts (h : self.accepts db task stage worker) (hmem : worker ∈ db.workers) :
    self.Eligible db task stage worker ∧ ∀ other, self.Eligible db task stage other →
      self.rank db task stage other ≤ self.rank db task stage worker := by
  obtain ⟨rank, hentry, hbest, _⟩ := preferred_eq_some.mp (accepts_iff.mp h)
  obtain ⟨found, hfound, heq⟩ := mem_ranked.mp hentry
  obtain ⟨rfl, hid⟩ := Prod.mk.injEq .. ▸ heq
  obtain rfl : found = worker :=
    List.inj_on_of_nodup_map db.workers_nodup hfound.mem hmem hid.symm
  exact ⟨hfound, fun other hother => hbest _ (mem_ranked.mpr ⟨other, hother, rfl⟩)⟩

/-- Some worker is accepted when some worker is eligible. -/
theorem exists_accepts (h : self.Eligible db task stage other) :
    ∃ worker ∈ db.workers, self.accepts db task stage worker := by
  have hne : self.ranked db task stage ≠ [] :=
    List.ne_nil_of_mem (mem_ranked.mpr ⟨other, h, rfl⟩)
  obtain ⟨workerId, hpreferred⟩ := exists_preferred hne
  obtain ⟨rank, hentry, _⟩ := preferred_eq_some.mp hpreferred
  obtain ⟨worker, hworker, heq⟩ := mem_ranked.mp hentry
  cases heq
  exact ⟨worker, hworker.mem, accepts_iff.mpr hpreferred⟩

end ParserServe
