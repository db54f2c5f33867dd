import ParserServe.Lifecycle.Progress

/-! # Routed and leasable

The router keeps a backend when the category or a MIME pattern of its capability matches the
source; the scheduler, on the same capability reported by a worker, lets MIME patterns decide
whenever there are any.  The runtimes never stand in the way, so a kept backend can be leased
exactly when the second test passes too.
-/

namespace ParserServe

open Foundation

variable {self : StageScheduler} {db db' : Db} {task task' : TaskRecord} {now : Time}
  {allowUnpublished : Bool} {stageIds : Nat → String} {payloads : List EventPayload}
  {metadata : SourceMetadata} {stage : StageRecord} {backend : BackendRecord}
  {worker : WorkerRecord}

/-! ## What the router kept -/

theorem planStage_of_planStages {options : TaskOptions} {position : Nat}
    {definitions : List PipelineStageDefinition} {stages : List StageRecord}
    (h : planStages db options metadata now stageIds position definitions = .ok stages) :
    ∀ stage ∈ stages, ∃ stageId position definition,
      planStage db options metadata now stageId position definition = .ok stage := by
  intro stage hmem
  obtain ⟨definition, _, stageId, position, hplan⟩ :=
    exists_of_forall₂_mem (plannedIn_of_planStages h) hmem
  exact ⟨stageId, position, definition, hplan⟩

/-- The stages of a routed task were planned for its options and its source. -/
theorem planStage_of_route (hnew : task.stages = [])
    (hmetadata : task.sourceMetadata = some metadata)
    (h : task.route db allowUnpublished stageIds now = .ok (task', payloads)) :
    task'.sourceMetadata = task.sourceMetadata ∧ task'.options = task.options ∧
      ∀ stage ∈ task'.stages, ∃ stageId position definition,
        planStage db task.options metadata now stageId position definition = .ok stage := by
  simp only [TaskRecord.route, hnew, hmetadata, ne_eq, not_true, if_false, bind_eq_ok,
    ensure_eq_ok] at h
  obtain ⟨_, _, pipeline, _, stages, hplan, _, _, h⟩ := h
  cases h
  exact ⟨hmetadata.symm, rfl, planStage_of_planStages hplan⟩

/-- A kept backend passed the router's two tests. -/
theorem kept_cases {options : TaskOptions} {stageId : String} {position : Nat}
    {definition : PipelineStageDefinition}
    (hplan : planStage db options metadata now stageId position definition = .ok stage)
    (hbackend : backend ∈ db.backends) (hkept : backend.backendId ∈ stage.backendCandidates) :
    backend.status = .enabled ∧
      backendSupportsSource backend.capability metadata.mediaCategory metadata.mimeType ∧
      runtimeCompatible backend.capability.runtimes definition.backend.requiredRuntimes
        options.device.runtimes options.device.strategy ∧
      ∃ candidates : List BackendRecord, backend ∈ candidates ∧
        stage.requiredRuntimes = allowedRuntimes (candidates.flatMap (·.capability.runtimes))
          definition.backend.requiredRuntimes options.device.runtimes options.device.strategy := by
  obtain ⟨names, selected, others, _, hcandidates, rfl⟩ := planStage_eq_ok.mp hplan
  obtain ⟨found, hfound, hid⟩ := List.mem_map.mp hkept
  have hmem : found ∈ (enabledByNames db names).filter fun backend =>
      backendSupportsSource backend.capability metadata.mediaCategory metadata.mimeType &&
        runtimeCompatible backend.capability.runtimes definition.backend.requiredRuntimes
          options.device.runtimes options.device.strategy := by
    rw [← (stageCandidates_perm names).mem_iff, hcandidates]
    exact hfound
  obtain ⟨henabled, htests⟩ := List.mem_filter.mp hmem
  obtain ⟨hrow, hstatus, _⟩ := mem_of_mem_enabledByNames henabled
  obtain rfl : found = backend := List.inj_on_of_nodup_map db.backends_nodup hrow hbackend hid
  rw [Bool.and_eq_true] at htests
  exact ⟨hstatus, htests.1, htests.2, selected :: others, hfound, rfl⟩

/-- A runtime that made the backend compatible survives the merging and reordering. -/
theorem exists_allowed_runtime {candidates : List BackendRecord}
    {stageRequired taskRequired : List DeviceRuntime} {strategy : SchedulingStrategy}
    (hmem : backend ∈ candidates)
    (h : runtimeCompatible backend.capability.runtimes stageRequired taskRequired strategy) :
    ∃ runtime ∈ backend.capability.runtimes,
      runtime ∈ allowedRuntimes (candidates.flatMap (·.capability.runtimes)) stageRequired
        taskRequired strategy := by
  simp only [runtimeCompatible, List.any_eq_true, Bool.and_eq_true, Bool.or_eq_true,
    List.contains_iff_mem, List.isEmpty_iff, bne_iff_ne] at h
  obtain ⟨runtime, hruntime, hstage, htask⟩ := h
  refine ⟨runtime, hruntime, ?_⟩
  have hmerged : runtime ∈ (candidates.flatMap (·.capability.runtimes)).eraseDups :=
    List.mem_eraseDups.mpr (List.mem_flatMap.mpr ⟨backend, hmem, hruntime⟩)
  have hordered : runtime ∈ (if stageRequired.isEmpty then
      (candidates.flatMap (·.capability.runtimes)).eraseDups
      else (candidates.flatMap (·.capability.runtimes)).eraseDups.filter
        (stageRequired.contains ·)) := by
    split
    · exact hmerged
    · next hne =>
        refine List.mem_filter.mpr ⟨hmerged, ?_⟩
        simpa using hstage.resolve_left (by simpa using hne)
  unfold allowedRuntimes
  dsimp only
  split
  · next hrequire =>
      refine List.mem_filter.mpr ⟨hordered, ?_⟩
      rcases htask with (h | h) | h
      · exact absurd hrequire.1 h
      · exact absurd h hrequire.2
      · simpa using h
  · split
    · rw [List.mem_append]
      by_cases hpreferred : runtime ∈ taskRequired
      · exact .inl (List.mem_filter.mpr ⟨hpreferred, by simpa using hordered⟩)
      · refine .inr (List.mem_filter.mpr ⟨hordered, ?_⟩)
        simp [hpreferred]
    · exact hordered

/-! ## What the scheduler accepts -/

/-- The MIME patterns of the capability admit the source, or there are none. -/
def mimeAdmits (capability : BackendCapability) (mimeType : Mime) : Prop :=
  capability.mimeTypes = [] ∨
    ∃ pattern ∈ capability.mimeTypes, mimePatternsOverlap pattern mimeType

instance (capability : BackendCapability) (mimeType : Mime) :
    Decidable (mimeAdmits capability mimeType) := inferInstanceAs (Decidable (_ ∨ _))

theorem capabilityAcceptsSource_iff
    (h : backendSupportsSource backend.capability metadata.mediaCategory metadata.mimeType) :
    capabilityAcceptsSource backend.capability metadata ↔
      mimeAdmits backend.capability metadata.mimeType := by
  unfold capabilityAcceptsSource mimeAdmits
  by_cases hmimes : backend.capability.mimeTypes = []
  · simpa [backendSupportsSource, hmimes] using h
  · simp [hmimes]

theorem capability?_of_single {capability : BackendCapability}
    (hregistered : worker.backends = [capability]) {name version : String}
    {found : BackendCapability} (h : worker.capability? name version = some found) :
    found = capability := by
  have hmem := List.mem_of_find?_eq_some h
  rw [hregistered, List.mem_singleton] at hmem
  exact hmem

/-- What a candidate that passes was tested for. -/
theorem candidateRuntime_accepts {workerRuntimes : List DeviceRuntime} {backendId : String}
    {chosen : BackendRecord × DeviceRuntime}
    (h : candidateRuntime db task stage worker workerRuntimes backendId = some chosen) :
    ∃ found capability metadata, worker.capability? (BackendRecord.capability found).name
        (BackendRecord.capability found).version = some capability ∧
      task.sourceMetadata = some metadata ∧ capabilityAcceptsSource capability metadata := by
  unfold candidateRuntime at h
  obtain ⟨found, _, h⟩ := Option.bind_eq_some_iff.mp h
  split at h
  · cases h
  · obtain ⟨capability, hcapability, h⟩ := Option.bind_eq_some_iff.mp h
    obtain ⟨metadata, hmetadata, h⟩ := Option.bind_eq_some_iff.mp h
    split at h
    · cases h
    · next haccepts =>
        exact ⟨found, capability, metadata, hcapability, hmetadata, not_not.mp haccepts⟩

theorem candidateRuntime_isSome {workerRuntimes : List DeviceRuntime} {runtime : DeviceRuntime}
    (hbackend : backend ∈ db.backends) (henabled : backend.status = .enabled)
    (hregistered : worker.backends = [backend.capability])
    (hmetadata : task.sourceMetadata = some metadata)
    (haccepts : capabilityAcceptsSource backend.capability metadata)
    (hruntime : runtime ∈ backend.capability.runtimes) (hworker : runtime ∈ workerRuntimes)
    (hrequired : runtime ∈ stage.requiredRuntimes) :
    (candidateRuntime db task stage worker workerRuntimes backend.backendId).isSome := by
  have hfind : db.backend? backend.backendId = some backend :=
    find?_key_eq_some db.backends_nodup hbackend
  have hcapability : worker.capability? backend.capability.name backend.capability.version =
      some backend.capability := by
    simp [WorkerRecord.capability?, hregistered]
  have hchosen : (stage.requiredRuntimes.find? fun runtime =>
      decide (runtime ∈ backend.capability.runtimes) &&
        (decide (runtime ∈ workerRuntimes) &&
          decide (runtime ∈ backend.capability.runtimes))).isSome := by
    rw [List.find?_isSome]
    exact ⟨runtime, hrequired, by simp [hruntime, hworker]⟩
  obtain ⟨chosen, hchosen⟩ := Option.isSome_iff_exists.mp hchosen
  simp [candidateRuntime, hfind, henabled, hcapability, hmetadata, haccepts, hchosen]

/-- A backend that routing kept is selected for a worker that registered exactly its
capability and has a device for each of its runtimes, precisely when the capability has no
MIME patterns or one of them admits the source. -/
theorem routed_backend_selectable_iff (hcatalogue : db'.backends = db.backends)
    (hnew : task.stages = []) (hmetadata : task.sourceMetadata = some metadata)
    (hroute : task.route db allowUnpublished stageIds now = .ok (task', payloads))
    (hstage : stage ∈ task'.stages) (hbackend : backend ∈ db.backends)
    (hkept : backend.backendId ∈ stage.backendCandidates)
    (hregistered : worker.backends = [backend.capability])
    (hdevices : ∀ runtime ∈ backend.capability.runtimes, ∃ device ∈ worker.devices,
      device.runtime = runtime ∧
        self.deviceAvailable worker device task.options.device.minimumMemoryBytes) :
    (∃ chosen, selectBackend db' task' stage worker
      (self.availableWorkerRuntimes worker task.options.device.minimumMemoryBytes) =
        some chosen) ↔ mimeAdmits backend.capability metadata.mimeType := by
  obtain ⟨hsource, _, hplanned⟩ := planStage_of_route hnew hmetadata hroute
  obtain ⟨stageId, position, definition, hplan⟩ := hplanned stage hstage
  obtain ⟨henabled, hsupports, hcompatible, candidates, hcandidate, hrequired⟩ :=
    kept_cases hplan hbackend hkept
  rw [← capabilityAcceptsSource_iff hsupports]
  constructor
  · rintro ⟨chosen, hchosen⟩
    unfold selectBackend at hchosen
    split at hchosen
    · cases hchosen
    · obtain ⟨candidateId, _, hcandidate⟩ := List.exists_of_findSome?_eq_some hchosen
      obtain ⟨found, capability, metadata', hcap, hmeta, haccepts⟩ :=
        candidateRuntime_accepts hcandidate
      rw [hsource, hmetadata] at hmeta
      cases hmeta
      rw [capability?_of_single hregistered hcap] at haccepts
      exact haccepts
  · intro haccepts
    obtain ⟨runtime, hruntime, hallowed⟩ := exists_allowed_runtime hcandidate hcompatible
    rw [← hrequired] at hallowed
    have hworker : runtime ∈
        self.availableWorkerRuntimes worker task.options.device.minimumMemoryBytes := by
      obtain ⟨device, hdevice, hrt, havailable⟩ := hdevices runtime hruntime
      exact List.mem_map.mpr ⟨device, List.mem_filter.mpr ⟨hdevice, havailable⟩, hrt⟩
    have hcandidate : (candidateRuntime db' task' stage worker _ backend.backendId).isSome :=
      candidateRuntime_isSome (hcatalogue ▸ hbackend) henabled hregistered
        (hsource.trans hmetadata) haccepts hruntime hworker hallowed
    have hselected : (selectBackend db' task' stage worker
        (self.availableWorkerRuntimes worker task.options.device.minimumMemoryBytes)).isSome := by
      unfold selectBackend
      rw [if_neg fun hnone => hnone runtime hallowed hworker, List.findSome?_isSome_iff]
      exact ⟨backend.backendId, hkept, hcandidate⟩
    exact Option.isSome_iff_exists.mp hselected

/-! ## Two deployments -/

def dedicatedWorker (capability : BackendCapability) : WorkerRecord :=
  { sampleWorker with
    backends := [capability]
    backends_nodup := List.nodup_singleton _ }

/-- The sample deployment with another backend, its task created and not yet routed. -/
def createdDb (capability : BackendCapability) : Db :=
  afterScript sampleScheduler
    { sampleDb with
      workers := [dedicatedWorker capability]
      backends :=
        [{ backendId := "backend", status := .enabled, capability := capability, updatedAt := 0 }]
      backends_nodup := List.nodup_singleton _ }
    (leaseScript.take 1)

/-- The worker registered exactly the capability of the kept backend, is online with a free
slot and the labels asked for, and has a device for each runtime. -/
def offered (db : Db) (task : TaskRecord) (stage : StageRecord) (worker : WorkerRecord)
    (backend : BackendRecord) : Prop :=
  backend.backendId ∈ stage.backendCandidates ∧ worker.backends = [backend.capability] ∧
    worker.enabled ∧ worker.status = .online ∧
    db.activeStageCount worker.workerId < worker.maximumConcurrency ∧
    labelsMatch worker task.options ∧
    ∀ runtime ∈ backend.capability.runtimes, ∃ device ∈ worker.devices,
      device.runtime = runtime ∧
        sampleScheduler.deviceAvailable worker device task.options.device.minimumMemoryBytes

instance (db : Db) (task : TaskRecord) (stage : StageRecord) (worker : WorkerRecord)
    (backend : BackendRecord) : Decidable (offered db task stage worker backend) :=
  inferInstanceAs (Decidable (_ ∧ _))

def selectedFor (db : Db) (task : TaskRecord) (stage : StageRecord) (worker : WorkerRecord) :
    Option (BackendRecord × DeviceRuntime) :=
  selectBackend db task stage worker
    (sampleScheduler.availableWorkerRuntimes worker task.options.device.minimumMemoryBytes)

theorem routed_backend_selectable_document :
    ∃ task ∈ (createdDb sampleCapability).tasks, ∃ routed,
      task.route (createdDb sampleCapability) false sampleStageIds 1 = .ok routed ∧
        ∃ stage ∈ routed.1.stages, ∃ worker ∈ (createdDb sampleCapability).workers,
          ∃ chosen, selectedFor (createdDb sampleCapability) routed.1 stage worker =
            some chosen := by
  have hroute : ∃ task ∈ (createdDb sampleCapability).tasks, task.stages = [] ∧
      task.sourceMetadata = some sampleMetadata ∧ ∃ routed,
        task.route (createdDb sampleCapability) false sampleStageIds 1 = .ok routed ∧
          routed.1.options = task.options ∧
          ∃ stage ∈ routed.1.stages, ∃ worker ∈ (createdDb sampleCapability).workers,
            ∃ backend ∈ (createdDb sampleCapability).backends,
              offered (createdDb sampleCapability) task stage worker backend ∧
                mimeAdmits backend.capability sampleMetadata.mimeType := by
    decide +kernel
  obtain ⟨task, htask, hnew, hmetadata, routed, hok, hoptions, stage, hstage, worker, hworker,
    backend, hbackend, ⟨hkept, hregistered, _, _, _, _, hdevices⟩, hadmits⟩ := hroute
  refine ⟨task, htask, routed, hok, stage, hstage, worker, hworker, ?_⟩
  rw [selectedFor, hoptions]
  exact (routed_backend_selectable_iff rfl hnew hmetadata hok hstage hbackend hkept hregistered
    hdevices).mpr hadmits

/-- Documents in general, and Word files in particular. -/
def wordCapability : BackendCapability :=
  { sampleCapability with
    mimeTypes := [⟨"application", "msword"⟩]
    sources_valid := by decide }

/-- A PDF is a document, so its task is routed; it is not a Word file, so the worker that
registered the same capability is never selected. -/
theorem routed_backend_never_selected :
    ∃ task ∈ (createdDb wordCapability).tasks, ∃ routed,
      task.route (createdDb wordCapability) false sampleStageIds 1 = .ok routed ∧
        ∃ stage ∈ routed.1.stages, ∃ worker ∈ (createdDb wordCapability).workers,
          ∃ backend ∈ (createdDb wordCapability).backends, backend.status = .enabled ∧
            offered (createdDb wordCapability) routed.1 stage worker backend ∧
              selectedFor (createdDb wordCapability) routed.1 stage worker = none := by
  decide +kernel

end ParserServe
