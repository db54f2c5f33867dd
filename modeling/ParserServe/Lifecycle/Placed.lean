import ParserServe.Lifecycle.Admission

/-! # Where leased stages run

The router fixes for each stage the backends and runtimes it may use, from the pipeline, the
task's options and the catalogue of that moment; `lease` chooses among them by the reports of
the asking worker.  What a grant names satisfies the restrictions of both.
-/

namespace ParserServe

open Foundation

variable {self : StageScheduler} {manual : Prop} {now : Time} {db db' : Db}
  {task task' : TaskRecord} {stage stage' : StageRecord} {granted : Option LeaseGrant}
  {payloads : List EventPayload} {definition : PipelineStageDefinition}

/-! ## Where a row comes from -/

/-- The columns of a task that bind it to its request and its pipeline. -/
structure SameBinding (task task' : TaskRecord) : Prop where
  taskId : task'.taskId = task.taskId
  options : task'.options = task.options
  pipelineId : task'.pipelineId = task.pipelineId
  pipelineVersion : task'.pipelineVersion = task.pipelineVersion

theorem SameBinding.refl (task : TaskRecord) : SameBinding task task := ⟨rfl, rfl, rfl, rfl⟩

theorem SameBinding.trans {task₁ task₂ task₃ : TaskRecord} (h : SameBinding task₁ task₂)
    (h' : SameBinding task₂ task₃) : SameBinding task₁ task₃ :=
  ⟨h'.taskId.trans h.taskId, h'.options.trans h.options, h'.pipelineId.trans h.pipelineId,
    h'.pipelineVersion.trans h.pipelineVersion⟩

theorem TaskMove.sameBinding (h : TaskMove manual now task granted payloads task') :
    SameBinding task task' := by
  cases h with
  | ended _ _ hsettled => cases hsettled <;> exact ⟨rfl, rfl, rfl, rfl⟩
  | leased | renewed | started | progressed | cancelled | retried => exact ⟨rfl, rfl, rfl, rfl⟩

/-- The row was planned from a stage of the pipeline its task is bound to, against the
catalogue of `db`. -/
structure PlannedFrom (db : Db) (task : TaskRecord) (stage : StageRecord)
    (definition : PipelineStageDefinition) : Prop where
  pipeline : ∃ pipeline ∈ db.pipelines, task.pipelineId = some pipeline.definition.pipelineId ∧
    task.pipelineVersion = some pipeline.definition.version ∧
      definition ∈ pipeline.definition.stages
  row : ∃ metadata now planned, PlannedIn db task.options metadata now definition planned ∧
    SamePlan planned stage

theorem PlannedFrom.later (h : PlannedFrom db task stage definition)
    (hbinding : SameBinding task task') (hplan : SamePlan stage stage') :
    PlannedFrom db task' stage' definition := by
  obtain ⟨⟨pipeline, hmem, hid, hversion, hdefinition⟩, metadata, now, planned, hplanned, hrow⟩ := h
  refine ⟨⟨pipeline, hmem, hbinding.pipelineId.trans hid, hbinding.pipelineVersion.trans hversion,
    hdefinition⟩, metadata, now, planned, ?_, hrow.trans hplan⟩
  rw [hbinding.options]
  exact hplanned

/-- Routing reads nothing but the catalogue. -/
theorem PlannedFrom.of_catalogue (hcatalogue : db'.catalogue = db.catalogue)
    (h : PlannedFrom db' task stage definition) : PlannedFrom db task stage definition := by
  obtain ⟨hpipelines, hbackends⟩ : db'.pipelines = db.pipelines ∧ db'.backends = db.backends := by
    simpa [Db.catalogue] using hcatalogue
  obtain ⟨⟨pipeline, hmem, hbound⟩, metadata, now, planned, ⟨stageId, position, hplan⟩, hrow⟩ := h
  refine ⟨⟨pipeline, hpipelines ▸ hmem, hbound⟩, metadata, now, planned,
    ⟨stageId, position, ?_⟩, hrow⟩
  have hcandidates : stageCandidates db' task.options metadata definition =
      stageCandidates db task.options metadata definition := by
    funext names
    simp only [stageCandidates, enabledByNames, hbackends]
  rw [planStage, ← hcandidates]
  exact hplan

/-- Each row of `db'` was a row of `db`, or was planned against its catalogue. -/
structure Descends (db db' : Db) : Prop where
  catalogue : db'.catalogue = db.catalogue
  rows : ∀ task' ∈ db'.tasks, ∀ stage' ∈ task'.stages,
    (∃ task ∈ db.tasks, ∃ stage ∈ task.stages, SameBinding task task' ∧ SamePlan stage stage') ∨
      ∃ definition, PlannedFrom db task' stage' definition

theorem Descends.refl (db : Db) : Descends db db :=
  ⟨rfl, fun task htask stage hstage =>
    .inl ⟨task, htask, stage, hstage, .refl task, .refl stage⟩⟩

theorem Descends.trans {db₁ db₂ db₃ : Db} (h : Descends db₁ db₂) (h' : Descends db₂ db₃) :
    Descends db₁ db₃ := by
  refine ⟨h'.catalogue.trans h.catalogue, fun task₃ htask₃ stage₃ hstage₃ => ?_⟩
  rcases h'.rows task₃ htask₃ stage₃ hstage₃ with ⟨task₂, htask₂, stage₂, hstage₂, hb, hp⟩ | hnew
  · rcases h.rows task₂ htask₂ stage₂ hstage₂ with ⟨task₁, htask₁, stage₁, hstage₁, hb₁, hp₁⟩ | hnew
    · exact .inl ⟨task₁, htask₁, stage₁, hstage₁, hb₁.trans hb, hp₁.trans hp⟩
    · obtain ⟨definition, hplanned⟩ := hnew
      exact .inr ⟨definition, hplanned.later hb hp⟩
  · obtain ⟨definition, hplanned⟩ := hnew
    exact .inr ⟨definition, hplanned.of_catalogue h.catalogue⟩

theorem catalogue_publishAll (db : Db) (now : Time) (payloads : List EventPayload) :
    (db.publishAll now payloads).catalogue = db.catalogue := by
  induction payloads generalizing db with
  | nil => rfl
  | cons payload payloads ih => exact ih (db.publish now payload)

theorem DbChange.descends (h : DbChange manual now db granted db') (hkeys : db.KeysNodup) :
    Descends db db' := by
  have hkept : ∀ task ∈ db.tasks, ∀ stage ∈ task.stages,
      (∃ task₀ ∈ db.tasks, ∃ stage₀ ∈ task₀.stages, SameBinding task₀ task ∧
        SamePlan stage₀ stage) ∨ ∃ definition, PlannedFrom db task stage definition :=
    (Descends.refl db).rows
  cases h with
  | untouched htasks _ hcatalogue => exact ⟨hcatalogue, by rw [htasks]; exact hkept⟩
  | created _ _ =>
      refine ⟨rfl, fun task htask stage hstage => ?_⟩
      rcases List.mem_append.mp htask with htask | htask
      · exact hkept task htask stage hstage
      · rw [List.mem_singleton.mp htask] at hstage
        cases hstage
  | @routed task₀ task' payloads hmem hnone hrouted =>
      refine ⟨catalogue_publishAll _ _ _, fun task htask stage hstage => ?_⟩
      rw [Db.publishAll_tasks] at htask
      rcases mem_saveTask htask with rfl | ⟨htask, _⟩
      · obtain ⟨metadata, pipeline, hpipeline, hid, hversion, hrows⟩ := hrouted.origin
        obtain ⟨definition, hdefinition, hplanned⟩ := exists_of_forall₂_mem hrows hstage
        have hoptions : task.options = task₀.options := by
          obtain ⟨_, _, _, _, _, htask', _⟩ := hrouted.plan
          rw [htask']
        rw [← hoptions] at hplanned
        exact .inr ⟨definition, ⟨pipeline, hpipeline, hid, hversion, hdefinition⟩, metadata, now,
          stage, hplanned, .refl stage⟩
      · exact hkept task htask stage hstage
  | @moved task₀ task' granted payloads hmem hmove =>
      refine ⟨catalogue_publishAll _ _ _, fun task htask stage hstage => ?_⟩
      rw [Db.publishAll_tasks] at htask
      rcases mem_saveTask htask with rfl | ⟨htask, _⟩
      · obtain ⟨f, hf, hchange⟩ := hmove.stages (hkeys.task hmem)
        rw [hf] at hstage
        obtain ⟨stage₀, hstage₀, rfl⟩ := List.mem_map.mp hstage
        exact .inl ⟨task₀, hmem, stage₀, hstage₀, hmove.sameBinding,
          (hchange stage₀ hstage₀).samePlan⟩
      · exact hkept task htask stage hstage

theorem Changes.descends {grants : List LeaseGrant} (h : Changes manual now db grants db')
    (hkeys : db.KeysNodup) : Descends db db' := by
  have hboth := h.keeps (I := fun db' => db'.KeysNodup ∧ Descends db db')
    (fun _ _ _ hI hchange => ⟨hchange.keysNodup hI.1, hI.2.trans (hchange.descends hI.1)⟩)
    ⟨hkeys, .refl db⟩
  exact hboth.2

theorem ControlStep.rows {label : Label} (h : ControlStep self db label db')
    (hkeys : db.KeysNodup) : ∀ task' ∈ db'.tasks, ∀ stage' ∈ task'.stages,
    (∃ task ∈ db.tasks, ∃ stage ∈ task.stages, SameBinding task task' ∧ SamePlan stage stage') ∨
      ∃ definition, PlannedFrom db task' stage' definition := by
  have hkept := (Descends.refl db).rows
  cases h with
  | returned hanswerable hexec => exact ((exec_changes hkeys hanswerable hexec).descends hkeys).rows
  | raised => exact hkept
  | administered hadmin =>
      rw [hadmin.tasks]
      exact hkept
  | reordered hmem hperm =>
      intro task' htask' stage' hstage'
      rcases mem_saveTask htask' with rfl | ⟨hold, _⟩
      · exact .inl ⟨_, hmem, stage', hperm.mem_iff.mp hstage', ⟨rfl, rfl, rfl, rfl⟩, .refl stage'⟩
      · exact hkept task' hold stage' hstage'

/-- Some state of the run had the catalogue the row was planned against. -/
def PlannedDuring (self : StageScheduler) (db₀ : Db) (labels : List Label) (db : Db)
    (task : TaskRecord) (stage : StageRecord) (definition : PipelineStageDefinition) : Prop :=
  ∃ before after mid, labels = before ++ after ∧ (controlPlane self).Run db₀ before mid ∧
    (controlPlane self).Run mid after db ∧ PlannedFrom mid task stage definition

/-- Every stage row was planned at some point of the run. -/
theorem run_plannedDuring {labels : List Label} {db₀ : Db}
    (hinit : (controlPlane self).Initial db₀) (hrun : (controlPlane self).Run db₀ labels db) :
    ∀ task ∈ db.tasks, ∀ stage ∈ task.stages,
      ∃ definition, PlannedDuring self db₀ labels db task stage definition := by
  induction hrun with
  | nil =>
      have htasks : db₀.tasks = [] := hinit.1
      simp [htasks]
  | @snoc t u as label hrun hstep ih =>
      intro task htask stage hstage
      have hkeys := run_keysNodup hrun (initial_keysNodup hinit)
      rcases ControlStep.rows hstep hkeys task htask stage hstage with hold | hnew
      · obtain ⟨task₀, htask₀, stage₀, hstage₀, hbinding, hplan⟩ := hold
        obtain ⟨definition, before, after, mid, rfl, hbefore, hafter, hplanned⟩ :=
          ih task₀ htask₀ stage₀ hstage₀
        exact ⟨definition, before, after ++ [label], mid, List.append_assoc _ _ _, hbefore,
          hafter.snoc hstep, hplanned.later hbinding hplan⟩
      · obtain ⟨definition, hplanned⟩ := hnew
        exact ⟨definition, as, [label], t, rfl, hrun, .single hstep, hplanned⟩

/-! ## What the router allows -/

theorem allowedRuntimes_subset {candidates stageRequired taskRequired : List DeviceRuntime}
    {strategy : SchedulingStrategy} {runtime : DeviceRuntime}
    (h : runtime ∈ allowedRuntimes candidates stageRequired taskRequired strategy) :
    (stageRequired ≠ [] → runtime ∈ stageRequired) ∧
      (strategy = .require → taskRequired ≠ [] → runtime ∈ taskRequired) := by
  have hordered : ∀ ordered, ordered = (if stageRequired.isEmpty then candidates.eraseDups
      else candidates.eraseDups.filter (stageRequired.contains ·)) → runtime ∈ ordered →
        stageRequired ≠ [] → runtime ∈ stageRequired := by
    rintro _ rfl hmem hne
    rw [if_neg (by simpa using hne)] at hmem
    simpa using (List.mem_filter.mp hmem).2
  unfold allowedRuntimes at h
  dsimp only at h
  split at h
  · obtain ⟨hmem, htask⟩ := List.mem_filter.mp h
    exact ⟨hordered _ rfl hmem, fun _ _ => by simpa using htask⟩
  · next hnot =>
      refine ⟨?_, fun hstrategy hne => absurd ⟨hstrategy, hne⟩ hnot⟩
      split at h
      · rcases List.mem_append.mp h with hmem | hmem
        · exact hordered _ rfl (by simpa using (List.mem_filter.mp hmem).2)
        · exact hordered _ rfl (List.mem_filter.mp hmem).1
      · exact hordered _ rfl h

/-- The runtimes of a stage keep to the pipeline's and, under REQUIRE, the task's. -/
theorem PlannedFrom.requiredRuntimes (h : PlannedFrom db task stage definition)
    {runtime : DeviceRuntime} (hruntime : runtime ∈ stage.requiredRuntimes) :
    (definition.backend.requiredRuntimes ≠ [] → runtime ∈ definition.backend.requiredRuntimes) ∧
      (task.options.device.strategy = .require → runtime ∈ task.options.device.runtimes) := by
  obtain ⟨metadata, now, planned, ⟨stageId, position, hplan⟩, hrow⟩ := h.row
  obtain ⟨names, selected, others, _, _, rfl⟩ := planStage_eq_ok.mp hplan
  rw [hrow.requiredRuntimes] at hruntime
  obtain ⟨hstage, htask⟩ := allowedRuntimes_subset hruntime
  refine ⟨hstage, fun hrequire => htask hrequire (task.options.device.strategy_valid ?_)⟩
  rw [hrequire]
  exact nofun

/-! ## One grant -/

/-- What a lease names, against the rows of `db` and the reports of the worker. -/
structure Placed (scheduler : StageScheduler) (db : Db) (worker : WorkerRecord)
    (task : TaskRecord) (stage : StageRecord) (lease : LeasedStage) : Prop where
  taskId : lease.taskId = task.taskId
  stageId : lease.stageId = stage.stageId
  backend : ∃ backend ∈ db.backends, backend.backendId = lease.backendId ∧
    backend.status = .enabled ∧ backend.backendId ∈ stage.backendCandidates ∧
      lease.runtime ∈ backend.capability.runtimes ∧
        ∃ capability ∈ worker.backends, capability.name = backend.capability.name ∧
          capability.version = backend.capability.version ∧ lease.runtime ∈ capability.runtimes
  runtime : lease.runtime ∈ stage.requiredRuntimes
  device : ∃ device ∈ worker.devices, device.deviceId = lease.deviceId ∧
    device.runtime = lease.runtime ∧
      memoryLoad worker device * 100 < scheduler.maximumDeviceMemoryUtilizationPercent ∧
        ∀ minimum ∈ task.options.device.minimumMemoryBytes,
          ∃ total ∈ totalMemory worker device, (minimum : ℤ) ≤ total - usedMemory worker device
  labels : ∀ label ∈ task.options.device.workerLabels.entries,
    worker.labels.lookup label.1 = some label.2

theorem enoughMemory_iff {worker : WorkerRecord} {device : DeviceInfo} {minimum : Option Nat} :
    enoughMemory worker device minimum ↔
      ∀ n ∈ minimum, ∃ total ∈ totalMemory worker device,
        (n : ℤ) ≤ total - usedMemory worker device := by
  unfold enoughMemory
  cases minimum with
  | none => simp
  | some n => cases totalMemory worker device <;> simp

variable {call : LeaseCall} {state state' : LeaseState} {backend : BackendRecord}
  {runtime : DeviceRuntime} {deviceId : String} {metadata : SourceMetadata}

theorem placement_eq_some
    (h : self.placement call state task stage = some (backend, runtime, deviceId, metadata)) :
    labelsMatch call.worker task.options ∧
      selectBackend state.db task stage call.worker (self.availableWorkerRuntimes call.worker
        task.options.device.minimumMemoryBytes) = some (backend, runtime) ∧
      self.selectDeviceId call.worker runtime task.options.device.minimumMemoryBytes
        state.deviceCounts = some deviceId := by
  unfold StageScheduler.placement at h
  dsimp only at h
  split at h
  · cases h
  split at h
  · cases h
  next hlabels =>
    obtain ⟨⟨selected, chosen⟩, hbackend, h⟩ := Option.bind_eq_some_iff.mp h
    dsimp only at h
    split at h
    · cases h
    obtain ⟨device, hdevice, h⟩ := Option.bind_eq_some_iff.mp h
    obtain ⟨source, _, h⟩ := Option.bind_eq_some_iff.mp h
    cases h
    exact ⟨not_not.mp hlabels, hbackend, hdevice⟩

/-- A placement in the loop is one on the rows the call started with. -/
theorem Placed.of_placement
    (h : self.placement call state task' stage' = some (backend, runtime, deviceId, metadata))
    (hbackends : state.db.backends = db.backends) (hbinding : SameBinding task task')
    (hplan : SamePlan stage stage') {grant : Grant} (hruntime : grant.runtime = runtime)
    (hdeviceId : grant.deviceId = deviceId) :
    Placed self db call.worker task stage (leasedStage task' stage' backend metadata grant) := by
  subst hruntime hdeviceId
  obtain ⟨hlabels, hselect, hdevice⟩ := placement_eq_some h
  have hselected := selected_of_selectBackend hselect
  obtain ⟨device, hmem, hid, hdeviceRuntime, havailable⟩ := device_of_selectDeviceId hdevice
  rw [hbinding.options] at havailable hlabels
  simp only [StageScheduler.deviceAvailable, Bool.and_eq_true, decide_eq_true_eq] at havailable
  refine ⟨hbinding.taskId, hplan.stageId, ?_, ?_, ?_, ?_⟩
  · exact ⟨backend, hbackends ▸ hselected.registered, rfl, hselected.enabled,
      hplan.backendCandidates ▸ hselected.candidate, hselected.supported, hselected.offered⟩
  · exact hplan.requiredRuntimes ▸ hselected.required
  · exact ⟨device, hmem, hid, hdeviceRuntime, havailable.1, enoughMemory_iff.mp havailable.2⟩
  · simpa [labelsMatch, List.all_eq_true] using hlabels

/-! ## The loop -/

theorem lease_writes {grant : Grant} {saved : TaskRecord}
    (h : task.lease stage grant now = .ok (saved, payloads)) :
    SameBinding task saved ∧
      saved.stages = replaceKey (·.stageId) (stage.grant grant now) task.stages := by
  rw [lease_eq] at h
  cases h
  exact ⟨⟨rfl, rfl, rfl, rfl⟩, rfl⟩

/-- One stage row is written and no other. -/
theorem saveTask_stages_replaceKey {saved : TaskRecord} (hkeys : db.KeysNodup)
    (htask : task ∈ db.tasks) (hstage : stage ∈ task.stages)
    (hid : stage'.stageId = stage.stageId) (hsaved : saved.taskId = task.taskId)
    (hstages : saved.stages = replaceKey (·.stageId) stage' task.stages) :
    (db.saveTask saved).stages = replaceKey (·.stageId) stage' db.stages := by
  simp only [Db.stages, Db.saveTask, replaceKey, List.flatMap_map, List.map_flatMap]
  apply List.flatMap_congr
  intro task₀ htask₀
  by_cases heq : task₀.taskId = saved.taskId
  · have hsame : task₀ = task :=
      List.inj_on_of_nodup_map hkeys.tasks htask₀ htask (heq.trans hsaved)
    rw [if_pos heq, hstages, hsame]
    rfl
  · rw [if_neg heq]
    symm
    apply replaceKey_of_notMem
    intro hmem
    obtain ⟨stage₀, hstage₀, hkey⟩ := List.mem_map.mp hmem
    obtain ⟨rfl, _⟩ := hkeys.eq_of_stageId htask₀ hstage₀ htask hstage (hkey.trans hid)
    exact heq hsaved.symm

/-- What the loop keeps of the database `db` it starts on. -/
structure LoopInvariant (scheduler : StageScheduler) (db : Db) (call : LeaseCall)
    (state : LeaseState) : Prop where
  keys : state.db.KeysNodup
  backends : state.db.backends = db.backends
  rows : ∀ task' ∈ state.db.tasks, ∀ stage' ∈ task'.stages,
    ∃ task ∈ db.tasks, ∃ stage ∈ task.stages, SameBinding task task' ∧ SamePlan stage stage'
  placed : ∀ lease ∈ state.leases, ∃ task ∈ db.tasks, ∃ stage ∈ task.stages,
    Placed scheduler db call.worker task stage lease
  count : state.db.activeStageCount call.worker.workerId ≤
    db.activeStageCount call.worker.workerId + state.leases.length
  slots : state.leases.length ≤ call.slots

theorem LoopInvariant.start (hkeys : db.KeysNodup) (call : LeaseCall)
    (deviceCounts : String → Nat) : LoopInvariant self db call ⟨db, [], deviceCounts⟩ :=
  ⟨hkeys, rfl, fun task htask stage hstage => ⟨task, htask, stage, hstage, .refl task, .refl stage⟩,
    by simp, Nat.le_refl _, Nat.zero_le _⟩

theorem publishAll_stages (db : Db) (now : Time) (payloads : List EventPayload) :
    (db.publishAll now payloads).stages = db.stages := by
  rw [Db.stages, Db.publishAll_tasks, Db.stages]

/-- A grant written back, seen from the database the loop started on. -/
theorem LoopInvariant.afterGrant {saved : TaskRecord} {grant : Grant} {lease : LeasedStage}
    {deviceCounts : String → Nat} (hstate : LoopInvariant self db call state)
    (hroom : state.leases.length < call.slots) (htask : task ∈ state.db.tasks)
    (hstage : stage ∈ task.stages) (hlease : task.lease stage grant now = .ok (saved, payloads))
    (hplaced : ∃ task₀ ∈ db.tasks, ∃ stage₀ ∈ task₀.stages,
      Placed self db call.worker task₀ stage₀ lease) :
    LoopInvariant self db call
      ⟨(state.db.saveTask saved).publishAll now payloads, state.leases ++ [lease],
        deviceCounts⟩ := by
  obtain ⟨hbinding, hstages⟩ := lease_writes hlease
  have hid : (stage.grant grant now).stageId = stage.stageId := rfl
  have hrows := saveTask_stages_replaceKey hstate.keys htask hstage hid hbinding.taskId hstages
  constructor
  case keys =>
    refine ⟨?_, ?_⟩
    · rw [Db.publishAll_tasks, saveTask_taskIds]
      exact hstate.keys.tasks
    · rw [publishAll_stages, hrows, map_replaceKey]
      exact hstate.keys.stages
  case backends =>
    exact (congrArg Prod.snd (catalogue_publishAll _ _ _)).trans hstate.backends
  case rows =>
    intro task' htask' stage' hstage'
    rw [Db.publishAll_tasks] at htask'
    rcases mem_saveTask htask' with rfl | ⟨hold, _⟩
    · rw [hstages] at hstage'
      have hfrom : ∃ stage₁ ∈ task.stages, SamePlan stage₁ stage' := by
        rcases mem_replaceKey_cases hstage' with rfl | ⟨hmem, _⟩
        · exact ⟨stage, hstage, .grant stage grant now⟩
        · exact ⟨stage', hmem, .refl stage'⟩
      obtain ⟨stage₁, hstage₁, hplan⟩ := hfrom
      obtain ⟨task₀, htask₀, stage₀, hstage₀, hbinding₀, hplan₀⟩ :=
        hstate.rows task htask stage₁ hstage₁
      exact ⟨task₀, htask₀, stage₀, hstage₀, hbinding₀.trans hbinding, hplan₀.trans hplan⟩
    · exact hstate.rows task' hold stage' hstage'
  case placed =>
    intro other hother
    rcases List.mem_append.mp hother with hother | hother
    · exact hstate.placed other hother
    · rw [List.mem_singleton.mp hother]
      exact hplaced
  case count =>
    have hcount := length_filter_replaceKey_le (x := stage.grant grant now)
      (fun stage => decide (stage.workerId = some call.worker.workerId ∧ stage.status.active))
      hstate.keys.stages
    have hbefore := hstate.count
    simp only [Db.activeStageCount, publishAll_stages, hrows, List.length_append,
      List.length_singleton] at hbefore ⊢
    omega
  case slots =>
    rw [List.length_append, List.length_singleton]
    exact hroom

theorem LoopInvariant.leaseOne {stageId : String} (hstate : LoopInvariant self db call state)
    (hroom : state.leases.length < call.slots)
    (h : self.leaseOne call state stageId = .ok state') : LoopInvariant self db call state' := by
  unfold StageScheduler.leaseOne at h
  split at h
  · cases h
    exact hstate
  · next task stage hfind =>
      split at h
      · cases h
        exact hstate
      · next backend runtime deviceId metadata hplacement =>
          obtain ⟨⟨saved, payloads⟩, hlease, h⟩ := bind_eq_ok.mp h
          cases h
          obtain ⟨htask, hstage, _⟩ := Db.stageForUpdate_mem hfind
          obtain ⟨task₀, htask₀, stage₀, hstage₀, hbinding, hplan⟩ :=
            hstate.rows task htask stage hstage
          exact hstate.afterGrant hroom htask hstage hlease ⟨task₀, htask₀, stage₀, hstage₀,
            .of_placement hplacement hstate.backends hbinding hplan rfl rfl⟩

theorem LoopInvariant.leaseLoop {rows : List String} (hstate : LoopInvariant self db call state)
    (h : self.leaseLoop call rows state = .ok state') : LoopInvariant self db call state' := by
  induction rows generalizing state with
  | nil =>
      cases h
      exact hstate
  | cons stageId rest ih =>
      rw [StageScheduler.leaseLoop] at h
      split at h
      · cases h
        exact hstate
      · next hroom =>
          obtain ⟨state₁, hone, hloop⟩ := bind_eq_ok.mp h
          exact ih (hstate.leaseOne (not_le.mp hroom) hone) hloop

/-- What a lease request leaves, without regard to where its rows come from. -/
theorem lease_placed {request : WorkerLeaseRequest} {rows : List String} {tokens : Nat → String}
    {leases : List LeasedStage} (hkeys : db.KeysNodup)
    (h : self.lease db request rows tokens now = .ok (db', leases)) :
    ∃ worker ∈ db.workers, worker.workerId = request.workerId ∧
      (∀ lease ∈ leases, ∃ task ∈ db.tasks, ∃ stage ∈ task.stages,
        Placed self db worker task stage lease) ∧
      leases.length ≤ request.availableSlots ∧
      db'.activeStageCount request.workerId ≤
        max (db.activeStageCount request.workerId) worker.maximumConcurrency := by
  unfold StageScheduler.lease at h
  split at h
  · cases h
  · next worker hfind =>
      have hid : worker.workerId = request.workerId := by simpa using List.find?_some hfind
      refine ⟨worker, List.mem_of_find?_eq_some hfind, hid, ?_⟩
      simp only [bind_eq_ok] at h
      obtain ⟨_, _, h⟩ := h
      split at h
      · cases h
        exact ⟨by simp, Nat.zero_le _, Nat.le_max_left _ _⟩
      · obtain ⟨state, hloop, h⟩ := bind_eq_ok.mp h
        have hstate : LoopInvariant self db _ state :=
          LoopInvariant.leaseLoop (.start hkeys _ _) hloop
        obtain ⟨_, _, _, hplaced, hcount, hslots⟩ := hstate
        simp only [hid] at hcount hslots
        have hfinal : state.leases.length ≤ request.availableSlots ∧
            state.db.activeStageCount request.workerId ≤
              max (db.activeStageCount request.workerId) worker.maximumConcurrency := by
          omega
        split at h
        · cases h
          exact ⟨hplaced, hfinal⟩
        · cases h
          exact ⟨hplaced, hfinal⟩

/-! ## Results -/

/-- Every lease granted in a run names an enabled backend among the routed candidates that the
worker offers, a runtime that the backend, the worker, the pipeline stage and, under REQUIRE,
the task allow, and an available device of the worker with that runtime; labels match, and
neither the slots asked for nor the worker's concurrency are exceeded. -/
theorem placement_sound {db₀ : Db} {labels : List Label} {request : WorkerLeaseRequest}
    {rows : List String} {tokens : Nat → String} {leases : List LeasedStage}
    (hinit : (controlPlane self).Initial db₀) (hrun : (controlPlane self).Run db₀ labels db)
    (hlease : self.lease db request rows tokens now = .ok (db', leases)) :
    ∃ worker ∈ db.workers, worker.workerId = request.workerId ∧
      (∀ lease ∈ leases, ∃ task ∈ db.tasks, ∃ stage ∈ task.stages,
        Placed self db worker task stage lease ∧
        ∃ definition, PlannedDuring self db₀ labels db task stage definition ∧
          (definition.backend.requiredRuntimes ≠ [] →
            lease.runtime ∈ definition.backend.requiredRuntimes) ∧
          (task.options.device.strategy = .require →
            lease.runtime ∈ task.options.device.runtimes)) ∧
      leases.length ≤ request.availableSlots ∧
      db'.activeStageCount request.workerId ≤
        max (db.activeStageCount request.workerId) worker.maximumConcurrency := by
  have hkeys := run_keysNodup hrun (initial_keysNodup hinit)
  obtain ⟨worker, hworker, hid, hplaced, hbounds⟩ := lease_placed hkeys hlease
  refine ⟨worker, hworker, hid, fun lease hmem => ?_, hbounds⟩
  obtain ⟨task, htask, stage, hstage, hlease⟩ := hplaced lease hmem
  obtain ⟨definition, before, after, mid, hsplit, hbefore, hafter, hplanned⟩ :=
    run_plannedDuring hinit hrun task htask stage hstage
  exact ⟨task, htask, stage, hstage, hlease, definition,
    ⟨before, after, mid, hsplit, hbefore, hafter, hplanned⟩,
    hplanned.requiredRuntimes hlease.runtime⟩

theorem placement_sound_routed : ∃ leases db',
    sampleScheduler.lease routedDb { workerId := "worker", availableSlots := 2 }
      ["stage-layout", "stage-tables", "stage-merge"] (fun _ => "token-placed") 2 =
        .ok (db', leases) ∧ leases.length = 2 ∧
      ∃ worker ∈ routedDb.workers, ∀ lease ∈ leases, ∃ task ∈ routedDb.tasks,
        ∃ stage ∈ task.stages, Placed sampleScheduler routedDb worker task stage lease := by
  have hleased : ∃ result, sampleScheduler.lease routedDb
      { workerId := "worker", availableSlots := 2 }
        ["stage-layout", "stage-tables", "stage-merge"] (fun _ => "token-placed") 2 =
          .ok result ∧ result.2.length = 2 := by
    decide +kernel
  obtain ⟨⟨db', leases⟩, hlease, hlength⟩ := hleased
  have hrun : (controlPlane sampleScheduler).Run sampleDb
      (scriptLabels sampleScheduler sampleDb (leaseScript.take 2)) routedDb :=
    afterScript_run (by decide +kernel)
  obtain ⟨worker, hworker, _, hplaced, _⟩ := placement_sound ⟨rfl, rfl⟩ hrun hlease
  refine ⟨leases, db', hlease, hlength, worker, hworker, fun lease hmem => ?_⟩
  obtain ⟨task, htask, stage, hstage, hlease, _⟩ := hplaced lease hmem
  exact ⟨task, htask, stage, hstage, hlease⟩

end ParserServe
