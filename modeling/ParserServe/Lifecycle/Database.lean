import Mathlib.Data.List.Pairwise
import Mathlib.Data.List.ReduceOption
import ParserServe.Lifecycle.Routing
import ParserServe.Lifecycle.Task

/-! # Transactions as sequences of changes

Whatever the call, what it does to the database is a sequence of a few kinds of change: a
task is inserted, a task is routed, a task and its stages move, or no task is touched.
`exec_changes` is the refinement that every invariant below rests on.
-/

namespace ParserServe

open Foundation

/-- The keys of the task and stage tables. -/
structure Db.KeysNodup (db : Db) : Prop where
  tasks : (db.tasks.map (·.taskId)).Nodup
  stages : (db.stages.map (·.stageId)).Nodup

theorem Db.KeysNodup.task {db : Db} (h : db.KeysNodup) {task : TaskRecord}
    (hmem : task ∈ db.tasks) : task.KeysNodup := by
  have hstages := h.stages
  rw [Db.stages, List.map_flatMap, List.nodup_flatMap] at hstages
  exact hstages.1 task hmem

/-- A stage belongs to one task. -/
theorem Db.KeysNodup.eq_of_stageId {db : Db} (h : db.KeysNodup) {task₁ task₂ : TaskRecord}
    {stage₁ stage₂ : StageRecord} (ht₁ : task₁ ∈ db.tasks) (hs₁ : stage₁ ∈ task₁.stages)
    (ht₂ : task₂ ∈ db.tasks) (hs₂ : stage₂ ∈ task₂.stages)
    (hid : stage₁.stageId = stage₂.stageId) : task₁ = task₂ ∧ stage₁ = stage₂ := by
  have hstage : stage₁ = stage₂ := List.inj_on_of_nodup_map h.stages
    (Db.mem_stages.mpr ⟨task₁, ht₁, hs₁⟩) (Db.mem_stages.mpr ⟨task₂, ht₂, hs₂⟩) hid
  refine ⟨?_, hstage⟩
  by_contra hne
  have hstages := h.stages
  rw [Db.stages, List.map_flatMap, List.nodup_flatMap] at hstages
  have : Std.Symm (Function.onFun List.Disjoint
      fun task : TaskRecord => task.stages.map (·.stageId)) := ⟨fun _ _ h _ ha hb => h hb ha⟩
  have hdisjoint := hstages.2.forall ht₁ ht₂ hne
  exact hdisjoint (List.mem_map_of_mem hs₁) (hid ▸ List.mem_map_of_mem hs₂)

/-- One change inside a transaction, with the lease it grants. -/
inductive DbChange (manual : Prop) (now : Time) : Db → Option LeaseGrant → Db → Prop
  | untouched {db db' : Db} : db'.tasks = db.tasks → db'.events = db.events →
      db'.catalogue = db.catalogue → DbChange manual now db none db'
  | created {db : Db} {request : CreateTaskRequest} {idempotencyKey : Option String}
      {allowUnpublished : Bool} {taskId : String} {metadata : Option SourceMetadata} :
      validatePipeline db request.options allowUnpublished = .ok () →
      taskId ∉ db.tasks.map (·.taskId) →
      (∀ key ∈ idempotencyKey, ∀ task ∈ db.tasks, task.idempotencyDigest ≠ some ⟨key⟩) →
        DbChange manual now db none (({ db with
          tasks := db.tasks ++ [newTask request idempotencyKey taskId metadata now] }).publish now
            (.taskCreated taskId))
  | routed {db : Db} {task task' : TaskRecord} {payloads : List EventPayload} :
      task ∈ db.tasks → task.stages = [] → Routed now db task task' payloads →
        DbChange manual now db none ((db.saveTask task').publishAll now payloads)
  | moved {db : Db} {task task' : TaskRecord} {granted : Option LeaseGrant}
      {payloads : List EventPayload} :
      task ∈ db.tasks → TaskMove manual now task granted payloads task' →
        DbChange manual now db granted ((db.saveTask task').publishAll now payloads)

/-- The changes a transaction at `now` is made of. -/
def changes (manual : Prop) (now : Time) : System Db (Option LeaseGrant) where
  Initial _ := True
  Step := DbChange manual now

/-! ## Keys -/

theorem mem_saveTask {db : Db} {task task₀ : TaskRecord} (h : task₀ ∈ (db.saveTask task).tasks) :
    task₀ = task ∨ (task₀ ∈ db.tasks ∧ task₀.taskId ≠ task.taskId) :=
  mem_replaceKey_cases h

theorem saveTask_taskIds (db : Db) (task : TaskRecord) :
    (db.saveTask task).tasks.map (·.taskId) = db.tasks.map (·.taskId) :=
  map_replaceKey _ task db.tasks

/-- Where the stages keep their identifiers, so does the table. -/
theorem saveTask_stageIds {db : Db} (hkeys : db.KeysNodup) {task task' : TaskRecord}
    (hmem : task ∈ db.tasks) (hid : task'.taskId = task.taskId)
    (hstages : task'.stages.map (·.stageId) = task.stages.map (·.stageId)) :
    (db.saveTask task').stages.map (·.stageId) = db.stages.map (·.stageId) := by
  simp only [Db.stages, Db.saveTask, replaceKey, List.map_flatMap, List.flatMap_map]
  apply List.flatMap_congr
  intro task₀ h₀
  by_cases heq : task₀.taskId = task'.taskId
  · have : task₀ = task := List.inj_on_of_nodup_map hkeys.tasks h₀ hmem (heq.trans hid)
    simp [this, hid, hstages]
  · simp [heq]

/-- A routed task brings rows with new identifiers. -/
theorem saveTask_stageIds_perm {db : Db} (hkeys : db.KeysNodup) {task task' : TaskRecord}
    (hmem : task ∈ db.tasks) (hid : task'.taskId = task.taskId) (hnone : task.stages = []) :
    ((db.saveTask task').stages.map (·.stageId)).Perm
      (task'.stages.map (·.stageId) ++ db.stages.map (·.stageId)) := by
  obtain ⟨before, after, hsplit⟩ := List.append_of_mem hmem
  have hnodup := hkeys.tasks
  simp only [hsplit, List.map_append, List.map_cons] at hnodup
  have hother : ∀ task₀ ∈ before ++ after, task₀.taskId ≠ task'.taskId := by
    intro task₀ h₀ heq
    rw [List.nodup_middle, List.nodup_cons] at hnodup
    apply hnodup.1
    rw [← hid, ← heq, ← List.map_append]
    exact List.mem_map_of_mem h₀
  have hkeep : ∀ tasks : List TaskRecord, (∀ task₀ ∈ tasks, task₀.taskId ≠ task'.taskId) →
      replaceKey (·.taskId) task' tasks = tasks := by
    intro tasks h
    unfold replaceKey
    conv_rhs => rw [← List.map_id tasks]
    exact List.map_congr_left fun task₀ h₀ => by simp [h task₀ h₀]
  have hsaved : (db.saveTask task').tasks = before ++ task' :: after := by
    have happend : replaceKey (·.taskId) task' (before ++ task :: after) =
        replaceKey (·.taskId) task' before ++ task' :: replaceKey (·.taskId) task' after := by
      simp [replaceKey, hid]
    rw [Db.saveTask, hsplit]
    simp only
    rw [happend, hkeep before fun t ht => hother t (List.mem_append_left _ ht),
      hkeep after fun t ht => hother t (List.mem_append_right _ ht)]
  simp only [Db.stages, hsaved, hsplit, List.flatMap_append, List.flatMap_cons, hnone,
    List.map_append, List.nil_append]
  exact List.perm_append_comm_assoc _ _ _

theorem DbChange.keysNodup {manual : Prop} {now : Time} {db db' : Db} {granted : Option LeaseGrant}
    (h : DbChange manual now db granted db') (hkeys : db.KeysNodup) : db'.KeysNodup := by
  cases h with
  | untouched htasks _ =>
      exact ⟨htasks ▸ hkeys.tasks, by simpa [Db.stages, htasks] using hkeys.stages⟩
  | created _ hfresh =>
      refine ⟨?_, by simpa [Db.stages, newTask] using hkeys.stages⟩
      rw [Db.publish_tasks, List.map_append, List.map_singleton]
      exact List.nodup_append'.mpr
        ⟨hkeys.tasks, List.nodup_singleton _, by simpa [newTask] using hfresh⟩
  | @routed task task' payloads hmem hnone hrouted =>
      obtain ⟨pipeline, stages, _, hnodup, hfresh, htask, _⟩ := hrouted.plan
      have hid : task'.taskId = task.taskId := by rw [htask]
      have hperm := saveTask_stageIds_perm hkeys hmem hid hnone
      refine ⟨by rw [Db.publishAll_tasks, saveTask_taskIds]; exact hkeys.tasks, ?_⟩
      rw [Db.stages, Db.publishAll_tasks, ← Db.stages, hperm.nodup_iff]
      rw [htask]
      refine List.nodup_append'.mpr ⟨hnodup, hkeys.stages, ?_⟩
      intro stageId hnew hold
      obtain ⟨stage, hstage, rfl⟩ := List.mem_map.mp hnew
      exact hfresh stage hstage hold
  | moved hmem hmove =>
      refine ⟨by rw [Db.publishAll_tasks, saveTask_taskIds]; exact hkeys.tasks, ?_⟩
      rw [Db.stages, Db.publishAll_tasks, ← Db.stages,
        saveTask_stageIds hkeys hmem hmove.taskId (hmove.stageIds (hkeys.task hmem))]
      exact hkeys.stages

/-! ## Sequences of changes -/

/-- A sequence of changes at `now` that grants the leases `grants`, in this order. -/
def Changes (manual : Prop) (now : Time) (db : Db) (grants : List LeaseGrant) (db' : Db) : Prop :=
  ∃ labels, (changes manual now).Run db labels db' ∧ labels.reduceOption = grants

variable {manual : Prop} {now : Time} {db db' db'' : Db}

theorem Changes.refl : Changes manual now db [] db := ⟨[], .nil db, rfl⟩

theorem Changes.single {granted : Option LeaseGrant} (h : DbChange manual now db granted db') :
    Changes manual now db granted.toList db' :=
  ⟨[granted], .single h, by cases granted <;> rfl⟩

theorem Changes.trans {grants grants' : List LeaseGrant} (h : Changes manual now db grants db')
    (h' : Changes manual now db' grants' db'') :
    Changes manual now db (grants ++ grants') db'' := by
  obtain ⟨labels, hrun, rfl⟩ := h
  obtain ⟨labels', hrun', rfl⟩ := h'
  exact ⟨labels ++ labels', hrun.trans hrun', List.reduceOption_append _ _⟩

theorem Changes.keeps {grants : List LeaseGrant} {I : Db → Prop}
    (hstep : ∀ db granted db', I db → DbChange manual now db granted db' → I db')
    (h : Changes manual now db grants db') (hdb : I db) : I db' := by
  obtain ⟨_, hrun, _⟩ := h
  exact hrun.keeps hstep hdb

theorem Changes.untouched (htasks : db'.tasks = db.tasks) (hevents : db'.events = db.events)
    (hcatalogue : db'.catalogue = db.catalogue) : Changes manual now db [] db' :=
  Changes.single (.untouched htasks hevents hcatalogue)

/-! ## Refinement of the operations -/

theorem saveTask_self (hkeys : db.KeysNodup) {task : TaskRecord} (hmem : task ∈ db.tasks) :
    db.saveTask task = db := by
  rw [Db.saveTask, replaceKey_self hkeys.tasks hmem]

theorem create_changes {request : CreateTaskRequest} {idempotencyKey : Option String}
    {allowUnpublished : Bool} {taskId : String}
    {metadata : Except ServiceError (Option SourceMetadata)} {record : TaskRecord} {isNew : Bool}
    (h : createTask db request idempotencyKey allowUnpublished taskId metadata now =
      .ok (db', record, isNew)) : Changes manual now db [] db' := by
  unfold createTask at h
  dsimp only at h
  split at h
  · simp only [bind_eq_ok, ensure_eq_ok] at h
    obtain ⟨_, _, h⟩ := h
    cases h
    exact .refl
  · next hunused =>
      simp only [bind_eq_ok, ensure_eq_ok] at h
      obtain ⟨_, hvalid, _, _, _, hfresh, h⟩ := h
      cases h
      refine .single (.created hvalid hfresh fun key hkey task htask heq => ?_)
      rw [Option.mem_def.mp hkey, Option.bind_some, List.find?_eq_none] at hunused
      exact hunused task htask (by simpa using heq)

theorem withTask_changes {taskId : String} {record : Option TaskRecord}
    {operation : TaskRecord → Except ServiceError (TaskRecord × List EventPayload)}
    (hop : ∀ task ∈ db.tasks, ∀ task' payloads, operation task = .ok (task', payloads) →
      Changes manual now db [] ((db.saveTask task').publishAll now payloads))
    (h : db.withTask taskId now operation = .ok (db', record)) : Changes manual now db [] db' := by
  unfold Db.withTask at h
  cases hfind : db.task? taskId with
  | none =>
      simp only [hfind] at h
      cases h
      exact .refl
  | some task =>
      simp only [hfind, bind_eq_ok] at h
      obtain ⟨⟨task', payloads⟩, hoperation, h⟩ := h
      cases h
      exact hop task (List.mem_of_find?_eq_some hfind) task' payloads hoperation

theorem withStage_changes {β : Type} {stageId : String} {answered : Option β}
    {operation : TaskRecord → StageRecord → Except ServiceError (TaskRecord × List EventPayload)}
    {answer : TaskRecord → StageRecord → β}
    (hop : ∀ task stage task' payloads, db.stageForUpdate stageId = some (task, stage) →
      stage ∈ task.stages → operation task stage = .ok (task', payloads) →
        TaskMove manual now task none payloads task')
    (h : db.withStage stageId now operation answer = .ok (db', answered)) :
    Changes manual now db [] db' := by
  unfold Db.withStage at h
  cases hfind : db.stageForUpdate stageId with
  | none =>
      simp only [hfind] at h
      cases h
      exact .refl
  | some found =>
      obtain ⟨task, stage⟩ := found
      simp only [hfind, bind_eq_ok] at h
      obtain ⟨⟨task', payloads⟩, hoperation, h⟩ := h
      cases h
      obtain ⟨hmem, hstage, _⟩ := Db.stageForUpdate_mem hfind
      exact .single (.moved hmem (hop task stage task' payloads hfind hstage hoperation))

theorem releaseWorkerIfIdle_tasks (db : Db) (workerId : String) (now : Time) :
    (db.releaseWorkerIfIdle workerId now).tasks = db.tasks ∧
      (db.releaseWorkerIfIdle workerId now).events = db.events ∧
      (db.releaseWorkerIfIdle workerId now).catalogue = db.catalogue := by
  unfold Db.releaseWorkerIfIdle
  split
  · exact ⟨rfl, rfl, rfl⟩
  · split <;> exact ⟨rfl, rfl, rfl⟩

theorem releaseWorkerIfIdle_changes (db : Db) (workerId : String) (now : Time) :
    Changes manual now db [] (db.releaseWorkerIfIdle workerId now) := by
  obtain ⟨htasks, hevents, hcatalogue⟩ := releaseWorkerIfIdle_tasks db workerId now
  exact .untouched htasks hevents hcatalogue

theorem complete_changes {stageId : String} {request : CompleteStageRequest}
    {data : Option StageExecutionData}
    (h : completeStage db stageId request now = .ok (db', data)) :
    Changes manual now db [] db' := by
  unfold completeStage at h
  cases hfind : db.stageForUpdate stageId with
  | none =>
      simp only [hfind] at h
      cases h
      exact .refl
  | some found =>
      obtain ⟨task, stage⟩ := found
      simp only [hfind] at h
      split at h
      · simp only [bind_eq_ok] at h
        obtain ⟨_, _, h⟩ := h
        cases h
        exact .refl
      · next hnone =>
          simp only [bind_eq_ok] at h
          obtain ⟨⟨db₁, data₁⟩, hwith, h⟩ := h
          cases h
          refine (withStage_changes ?_ hwith).trans (releaseWorkerIfIdle_changes _ _ _)
          intro task₀ stage₀ task' payloads hfind₀ hmem hcomplete
          rw [hfind] at hfind₀
          cases hfind₀
          exact .of_complete hmem (not_not.mp hnone) hcomplete

theorem authorizeArtifactUpload_db {stageId workerId token : String} {stage : Option StageRecord}
    (h : authorizeArtifactUpload db stageId workerId token now = .ok (db', stage)) : db' = db := by
  unfold authorizeArtifactUpload at h
  split at h
  · cases h
    rfl
  · simp only [bind_eq_ok] at h
    obtain ⟨_, _, _, _, h⟩ := h
    cases h
    rfl

theorem requeueOne_changes {acc acc' : Db × List String} {stageId : String}
    (h : requeueOne now acc stageId = .ok acc') : Changes manual now acc.1 [] acc'.1 := by
  unfold requeueOne at h
  cases hfind : acc.1.stageForUpdate stageId with
  | none =>
      simp only [hfind] at h
      cases h
      exact .refl
  | some found =>
      obtain ⟨task, stage⟩ := found
      simp only [hfind, bind_eq_ok] at h
      obtain ⟨⟨task', payloads⟩, hexpire, h⟩ := h
      cases h
      obtain ⟨hmem, hstage, _⟩ := Db.stageForUpdate_mem hfind
      exact .single (.moved hmem (.of_expire hstage hexpire))

theorem foldl_release_tasks (workerIds : List String) (db : Db) (now : Time) :
    let released := workerIds.foldl (fun db workerId => db.releaseWorkerIfIdle workerId now) db
    released.tasks = db.tasks ∧ released.events = db.events ∧
      released.catalogue = db.catalogue := by
  induction workerIds generalizing db with
  | nil => exact ⟨rfl, rfl, rfl⟩
  | cons workerId rest ih =>
      obtain ⟨htasks, hevents, hcatalogue⟩ := releaseWorkerIfIdle_tasks db workerId now
      obtain ⟨hrest, hrestEvents, hrestCatalogue⟩ := ih (db.releaseWorkerIfIdle workerId now)
      exact ⟨hrest.trans htasks, hrestEvents.trans hevents, hrestCatalogue.trans hcatalogue⟩

theorem requeueExpired_changes {rows stageIds : List String}
    (h : requeueExpired db rows now = .ok (db', stageIds)) : Changes manual now db [] db' := by
  simp only [requeueExpired, bind_eq_ok] at h
  obtain ⟨⟨db₁, workers⟩, hfold, h⟩ := h
  cases h
  have hloop : Changes manual now db [] db₁ :=
    foldlM_keeps (I := fun acc : Db × List String => Changes manual now db [] acc.1)
      (fun _ _ _ hb hone => hb.trans (requeueOne_changes hone)) .refl hfold
  obtain ⟨htasks, hevents, hcatalogue⟩ := foldl_release_tasks workers.eraseDups db₁ now
  exact hloop.trans (.untouched htasks hevents hcatalogue)

/-! ## The lease loop -/

/-- The row may still be granted; the loop checks this only when it selects its rows. -/
def Db.RowLeasable (db : Db) (stageId : String) : Prop :=
  ∀ task ∈ db.tasks, ∀ stage ∈ task.stages, stage.stageId = stageId →
    stage.status = .pending ∧ task.status.active

theorem mem_leasableRows {task : TaskRecord} {stage : StageRecord} :
    (task, stage) ∈ db.leasableRows now ↔
      task ∈ db.tasks ∧ stage ∈ task.stages ∧ leasable task stage now := by
  simp only [Db.leasableRows, List.mem_flatMap, List.mem_map, List.mem_filter, decide_eq_true_eq]
  constructor
  · rintro ⟨task', htask, stage', ⟨hstage, hleasable⟩, heq⟩
    cases heq
    exact ⟨htask, hstage, hleasable⟩
  · rintro ⟨htask, hstage, hleasable⟩
    exact ⟨task, htask, stage, ⟨hstage, hleasable⟩, rfl⟩

theorem rowLeasable_of_leasableRows (hkeys : db.KeysNodup) {task : TaskRecord}
    {stage : StageRecord} (h : (task, stage) ∈ db.leasableRows now) :
    db.RowLeasable stage.stageId := by
  obtain ⟨htask, hstage, hleasable⟩ := mem_leasableRows.mp h
  intro task₁ htask₁ stage₁ hstage₁ hid
  obtain ⟨rfl, rfl⟩ := hkeys.eq_of_stageId htask₁ hstage₁ htask hstage hid
  exact ⟨hleasable.1, hleasable.2.2⟩

theorem leasableRows_stageIds_sublist (db : Db) (now : Time) :
    ((db.leasableRows now).map (·.2.stageId)).Sublist (db.stages.map (·.stageId)) := by
  rw [Db.leasableRows, List.map_flatMap, Db.stages, List.map_flatMap]
  induction db.tasks with
  | nil => exact List.Sublist.refl _
  | cons task tasks ih =>
      rw [List.flatMap_cons, List.flatMap_cons]
      refine List.Sublist.append ?_ ih
      rw [List.map_map]
      exact List.filter_sublist.map _

/-- A grant takes one row out of the leasable ones and leaves the others in. -/
theorem Db.RowLeasable.of_lease {task saved : TaskRecord} {stage : StageRecord} {grant : Grant}
    {payloads : List EventPayload} (hmem : task ∈ db.tasks) (hactive : task.status.active)
    (hlease : task.lease stage grant now = .ok (saved, payloads))
    {stageId : String} (hne : stageId ≠ stage.stageId) (h : db.RowLeasable stageId) :
    ((db.saveTask saved).publishAll now payloads).RowLeasable stageId := by
  rw [lease_eq] at hlease
  cases hlease
  intro task₁ htask₁ stage₁ hstage₁ hid
  rw [Db.publishAll_tasks] at htask₁
  rcases mem_saveTask htask₁ with rfl | ⟨htask₁, _⟩
  · rcases mem_replaceKey_cases hstage₁ with rfl | ⟨hstage₁, _⟩
    · exact absurd hid.symm hne
    · refine ⟨(h task hmem stage₁ hstage₁ hid).1, ?_⟩
      dsimp only
      split
      · rfl
      · exact hactive
  · exact h task₁ htask₁ stage₁ hstage₁ hid

/-- The lease an answer of `lease` stands for. -/
def LeasedStage.toGrant (leased : LeasedStage) (workerId : String) : LeaseGrant :=
  ⟨leased.stageId, workerId, leased.leaseToken⟩

theorem placement_dependenciesSatisfied {self : StageScheduler} {call : LeaseCall}
    {state : LeaseState} {task : TaskRecord} {stage : StageRecord}
    {chosen : BackendRecord × DeviceRuntime × String × SourceMetadata}
    (h : self.placement call state task stage = some chosen) :
    task.dependenciesSatisfied stage := by
  unfold StageScheduler.placement at h
  by_contra hdeps
  simp [hdeps] at h

theorem leaseOne_changes {self : StageScheduler} {call : LeaseCall} {state state' : LeaseState}
    {stageId : String} (hrow : state.db.RowLeasable stageId)
    (h : self.leaseOne call state stageId = .ok state') :
    ∃ new, state'.leases = state.leases ++ new ∧
      Changes manual call.now state.db (new.map (·.toGrant call.worker.workerId)) state'.db ∧
        ∀ other, other ≠ stageId → state.db.RowLeasable other → state'.db.RowLeasable other := by
  unfold StageScheduler.leaseOne at h
  cases hfind : state.db.stageForUpdate stageId with
  | none =>
      simp only [hfind] at h
      cases h
      exact ⟨[], by simp, .refl, fun _ _ h => h⟩
  | some found =>
      obtain ⟨task, stage⟩ := found
      simp only [hfind] at h
      cases hplace : self.placement call state task stage with
      | none =>
          simp only [hplace] at h
          cases h
          exact ⟨[], by simp, .refl, fun _ _ h => h⟩
      | some chosen =>
          obtain ⟨backend, runtime, deviceId, metadata⟩ := chosen
          simp only [hplace, bind_eq_ok] at h
          obtain ⟨⟨saved, payloads⟩, hlease, h⟩ := h
          cases h
          obtain ⟨hmem, hstage, rfl⟩ := Db.stageForUpdate_mem hfind
          obtain ⟨hpending, hactive⟩ := hrow task hmem stage hstage rfl
          have hmove : TaskMove manual call.now task _ payloads saved :=
            .of_lease hstage hpending hactive (placement_dependenciesSatisfied hplace) hlease
          exact ⟨_, rfl, .single (.moved hmem hmove),
            fun other hne hother => hother.of_lease hmem hactive hlease hne⟩

theorem leaseLoop_changes {self : StageScheduler} {call : LeaseCall} {rows : List String}
    {state state' : LeaseState} (hnodup : rows.Nodup)
    (hrows : ∀ stageId ∈ rows, state.db.RowLeasable stageId)
    (h : self.leaseLoop call rows state = .ok state') :
    ∃ new, state'.leases = state.leases ++ new ∧
      Changes manual call.now state.db (new.map (·.toGrant call.worker.workerId)) state'.db := by
  induction rows generalizing state with
  | nil =>
      cases h
      exact ⟨[], by simp, .refl⟩
  | cons stageId rest ih =>
      rw [StageScheduler.leaseLoop] at h
      split at h
      · cases h
        exact ⟨[], by simp, .refl⟩
      · obtain ⟨state₁, hone, hloop⟩ := bind_eq_ok.mp h
        obtain ⟨hnotin, hnodup⟩ := List.nodup_cons.mp hnodup
        obtain ⟨new₁, hleases₁, hchanges₁, hother⟩ :=
          leaseOne_changes (hrows stageId List.mem_cons_self) hone
        have hrows₁ : ∀ other ∈ rest, state₁.db.RowLeasable other := fun other hmem =>
          hother other (fun heq => hnotin (heq ▸ hmem)) (hrows other (List.mem_cons_of_mem _ hmem))
        obtain ⟨new₂, hleases₂, hchanges₂⟩ := ih hnodup hrows₁ hloop
        refine ⟨new₁ ++ new₂, by rw [hleases₂, hleases₁, List.append_assoc], ?_⟩
        rw [List.map_append]
        exact hchanges₁.trans hchanges₂

theorem lease_changes {self : StageScheduler} {request : WorkerLeaseRequest} {rows : List String}
    {tokens : Nat → String} {leases : List LeasedStage} (hkeys : db.KeysNodup)
    (hrows : (Operation.lease request rows tokens now).Answerable db)
    (h : self.lease db request rows tokens now = .ok (db', leases)) :
    Changes manual now db (leases.map (·.toGrant request.workerId)) db' := by
  obtain ⟨answer, hperm, _, rfl⟩ := hrows
  have hnodup : (answer.map (·.2.stageId)).Nodup := by
    rw [(hperm.map _).nodup_iff]
    exact hkeys.stages.sublist (leasableRows_stageIds_sublist db now)
  have hleasable : ∀ stageId ∈ answer.map (·.2.stageId), db.RowLeasable stageId := by
    intro stageId hmem
    obtain ⟨row, hrow, rfl⟩ := List.mem_map.mp hmem
    exact rowLeasable_of_leasableRows hkeys (hperm.mem_iff.mp hrow)
  unfold StageScheduler.lease at h
  cases hfind : db.worker? request.workerId with
  | none => simp [hfind] at h
  | some worker =>
      have hworker : worker.workerId = request.workerId := by simpa using List.find?_some hfind
      simp only [hfind, bind_eq_ok, ensure_eq_ok] at h
      obtain ⟨_, _, h⟩ := h
      split at h
      · cases h
        exact .refl
      · obtain ⟨state, hloop, h⟩ := bind_eq_ok.mp h
        obtain ⟨new, hnew, hchanges⟩ := @leaseLoop_changes manual _ _ _ _ _ hnodup hleasable hloop
        rw [List.nil_append] at hnew
        rw [← hnew, hworker] at hchanges
        split at h
        · cases h
          rw [← List.append_nil (List.map _ _)]
          exact hchanges.trans (.untouched rfl rfl rfl)
        · cases h
          exact hchanges

/-- Every call is a sequence of changes, and grants what its answer says. -/
theorem exec_changes {self : StageScheduler} {operation : Operation} {response : Response}
    (hkeys : db.KeysNodup) (hanswerable : operation.Answerable db)
    (h : operation.exec self db = .ok (db', response)) :
    Changes operation.manual operation.now db (Label.returned operation response).grants db' := by
  cases operation with
  | create =>
      simp only [Operation.exec, bind_eq_ok] at h
      obtain ⟨⟨db₁, record, isNew⟩, hcreate, h⟩ := h
      cases h
      exact create_changes hcreate
  | route taskId allowUnpublished stageIds now =>
      simp only [Operation.exec, bind_eq_ok] at h
      obtain ⟨⟨db₁, record⟩, hroute, h⟩ := h
      cases h
      refine withTask_changes ?_ hroute
      intro task hmem task' payloads hroute
      rcases route_cases hroute with ⟨rfl, rfl⟩ | ⟨hnone, hrouted⟩
      · rw [saveTask_self hkeys hmem]
        exact .refl
      · exact .single (.routed hmem hnone hrouted)
  | lease request rows tokens now =>
      simp only [Operation.exec, bind_eq_ok] at h
      obtain ⟨⟨db₁, leases⟩, hlease, h⟩ := h
      cases h
      exact lease_changes hkeys hanswerable hlease
  | renew stageId workerId token now =>
      simp only [Operation.exec, bind_eq_ok] at h
      obtain ⟨⟨db₁, data⟩, hrenew, h⟩ := h
      cases h
      exact withStage_changes (fun _ _ _ _ _ hstage hop => .of_renew hstage hop) hrenew
  | start stageId workerId token now =>
      simp only [Operation.exec, bind_eq_ok] at h
      obtain ⟨⟨db₁, data⟩, hstart, h⟩ := h
      cases h
      exact withStage_changes (fun _ _ _ _ _ hstage hop => .of_start hstage hop) hstart
  | progress stageId request now =>
      simp only [Operation.exec, bind_eq_ok] at h
      obtain ⟨⟨db₁, data⟩, hprogress, h⟩ := h
      cases h
      exact withStage_changes (fun _ _ _ _ _ hstage hop => .of_progress hstage hop) hprogress
  | complete stageId request now =>
      simp only [Operation.exec, bind_eq_ok] at h
      obtain ⟨⟨db₁, data⟩, hcomplete, h⟩ := h
      cases h
      exact complete_changes hcomplete
  | authorizeArtifactUpload stageId workerId token now =>
      simp only [Operation.exec, bind_eq_ok] at h
      obtain ⟨⟨db₁, stage⟩, hauthorize, h⟩ := h
      cases h
      obtain rfl := authorizeArtifactUpload_db hauthorize
      exact .refl
  | requeueExpired rows now =>
      simp only [Operation.exec, bind_eq_ok] at h
      obtain ⟨⟨db₁, stageIds⟩, hrequeue, h⟩ := h
      cases h
      exact requeueExpired_changes hrequeue
  | cancel taskId now =>
      simp only [Operation.exec, bind_eq_ok] at h
      obtain ⟨⟨db₁, record⟩, hcancel, h⟩ := h
      cases h
      exact withTask_changes
        (fun _ hmem _ _ hop => .single (.moved hmem (.of_cancel trivial hop))) hcancel
  | retry taskId now =>
      simp only [Operation.exec, bind_eq_ok] at h
      obtain ⟨⟨db₁, record⟩, hretry, h⟩ := h
      cases h
      exact withTask_changes
        (fun _ hmem _ _ hop => .single (.moved hmem (.of_retry trivial hop))) hretry

end ParserServe
