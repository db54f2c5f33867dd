import ParserServe.Control.Fleet
import ParserServe.Lifecycle.Frames

/-! # Worker rows under the calls on stages

A call on stages writes one column of a worker's row: a lease that fills the worker marks it
`BUSY`, and the end of its last stage marks it `ONLINE` again.  Neither publishes an event.
-/

namespace ParserServe

open Foundation

variable {self : StageScheduler} {heartbeatIntervalSeconds : Nat} {db db' : Db}
  {workerId : String} {record worker : WorkerRecord} {now : Time}

/-! ## Frames of the worker table -/

@[simp] theorem publishAll_workers (db : Db) (now : Time) (payloads : List EventPayload) :
    (db.publishAll now payloads).workers = db.workers := by
  induction payloads generalizing db with
  | nil => rfl
  | cons payload payloads ih => exact ih (db.publish now payload)

theorem worker?_of_workers_eq (workerId : String) (h : db'.workers = db.workers) :
    db'.worker? workerId = db.worker? workerId := by
  rw [Db.worker?, h, Db.worker?]

theorem worker?_saveWorker_of_ne (hne : worker.workerId ≠ workerId) :
    (db.saveWorker worker).worker? workerId = db.worker? workerId :=
  find?_replaceKey_of_ne hne.symm

theorem worker?_saveWorker (hfind : db.worker? workerId = some record)
    (hid : worker.workerId = workerId) : (db.saveWorker worker).worker? workerId = some worker :=
  find?_replaceKey_self hfind hid

theorem workerId_of_worker? (h : db.worker? workerId = some record) :
    record.workerId = workerId := by
  simpa using List.find?_some h

theorem withTask_workers {taskId : String} {answer : Option TaskRecord}
    {operation : TaskRecord → Except ServiceError (TaskRecord × List EventPayload)}
    (h : db.withTask taskId now operation = .ok (db', answer)) : db'.workers = db.workers := by
  unfold Db.withTask at h
  split at h
  · cases h
    rfl
  · obtain ⟨⟨task, payloads⟩, _, h⟩ := bind_eq_ok.mp h
    cases h
    exact publishAll_workers _ _ _

theorem withStage_workers {β : Type} {stageId : String} {answered : Option β}
    {operation : TaskRecord → StageRecord → Except ServiceError (TaskRecord × List EventPayload)}
    {answer : TaskRecord → StageRecord → β}
    (h : db.withStage stageId now operation answer = .ok (db', answered)) :
    db'.workers = db.workers := by
  unfold Db.withStage at h
  split at h
  · cases h
    rfl
  · obtain ⟨⟨task, payloads⟩, _, h⟩ := bind_eq_ok.mp h
    cases h
    exact publishAll_workers _ _ _

theorem leaseOne_workers {call : LeaseCall} {state state' : LeaseState} {stageId : String}
    (h : self.leaseOne call state stageId = .ok state') :
    state'.db.workers = state.db.workers := by
  unfold StageScheduler.leaseOne at h
  split at h
  · cases h
    rfl
  · split at h
    · cases h
      rfl
    · obtain ⟨⟨saved, payloads⟩, _, h⟩ := bind_eq_ok.mp h
      cases h
      exact publishAll_workers _ _ _

theorem leaseLoop_workers {call : LeaseCall} {rows : List String} {state state' : LeaseState}
    (h : self.leaseLoop call rows state = .ok state') : state'.db.workers = state.db.workers := by
  induction rows generalizing state with
  | nil =>
      cases h
      rfl
  | cons stageId rest ih =>
      rw [StageScheduler.leaseLoop] at h
      split at h
      · cases h
        rfl
      · obtain ⟨state₁, hone, hloop⟩ := bind_eq_ok.mp h
        exact (ih hloop).trans (leaseOne_workers hone)

theorem requeueOne_workers {acc acc' : Db × List String} {stageId : String}
    (h : requeueOne now acc stageId = .ok acc') : acc'.1.workers = acc.1.workers := by
  unfold requeueOne at h
  split at h
  · cases h
    rfl
  · obtain ⟨⟨task, payloads⟩, _, h⟩ := bind_eq_ok.mp h
    cases h
    exact publishAll_workers _ _ _

/-! ## What is written -/

/-- The workers whose leases a requeue ends. -/
def affectedWorkers (db : Db) (rows : List String) (now : Time) : List String :=
  match rows.foldlM (requeueOne now) (db, []) with
  | .error _ => []
  | .ok (_, workerIds) => workerIds

/-- The test of `_release_worker_if_idle`. -/
def WorkerRecord.idle (record : WorkerRecord) (db : Db) : Prop :=
  record.enabled ∧ record.status = .busy ∧ db.activeStageCount record.workerId = 0

instance (record : WorkerRecord) (db : Db) : Decidable (record.idle db) :=
  inferInstanceAs (Decidable (_ ∧ _))

/-- The status a call that leads from `db` to `db'` writes into a worker's row. -/
def Operation.writtenStatus (db db' : Db) (record : WorkerRecord) :
    Operation → Response → Option WorkerStatus
  | .lease request _ _ _, .leases stages =>
      if request.workerId = record.workerId ∧
          db.activeStageCount record.workerId < record.maximumConcurrency ∧
          record.maximumConcurrency ≤ db.activeStageCount record.workerId + stages.length
      then some .busy else none
  | .complete _ request _, _ =>
      if request.workerId = record.workerId ∧ db.activeStageCount record.workerId ≠ 0 ∧
          record.idle db'
      then some .online else none
  | .requeueExpired rows now, _ =>
      if record.workerId ∈ affectedWorkers db rows now ∧ record.idle db' then some .online
      else none
  | _, _ => none

/-- The row with the status written, if any. -/
def WorkerRecord.written (record : WorkerRecord) (now : Time) : Option WorkerStatus → WorkerRecord
  | none => record
  | some status => { record with status := status, updatedAt := now }

@[simp] theorem workerId_written (written : Option WorkerStatus) :
    (record.written now written).workerId = record.workerId := by
  cases written <;> rfl

theorem activeStageCount_of_tasks_eq (h : db'.tasks = db.tasks) :
    db'.activeStageCount workerId = db.activeStageCount workerId := by
  rw [Db.activeStageCount, Db.stages, h, ← Db.stages, Db.activeStageCount]

theorem idle_of_tasks_eq (h : db'.tasks = db.tasks) : record.idle db' ↔ record.idle db := by
  rw [WorkerRecord.idle, activeStageCount_of_tasks_eq h, WorkerRecord.idle]

/-! ## The release of a worker -/

theorem release_worker (hfind : db.worker? workerId = some record) (other : String) :
    (db.releaseWorkerIfIdle other now).worker? workerId = some (record.written now
      (if other = workerId ∧ record.idle db then some .online else none)) := by
  have hid := workerId_of_worker? hfind
  by_cases hother : other = workerId
  · subst hother
    have htest : (record.enabled ∧ record.status = .busy ∧ db.activeStageCount other = 0) ↔
        other = other ∧ record.idle db := by
      rw [WorkerRecord.idle, hid, eq_self, true_and]
    simp only [Db.releaseWorkerIfIdle, hfind, htest]
    split
    · exact worker?_saveWorker hfind hid
    · exact hfind
  · rw [if_neg fun h => hother h.1]
    unfold Db.releaseWorkerIfIdle
    split
    · exact hfind
    · next found hfound =>
        split
        · rw [worker?_saveWorker_of_ne]
          · exact hfind
          · exact fun h => hother ((workerId_of_worker? hfound).symm.trans h)
        · exact hfind

/-- The releases that follow a requeue write each affected worker once. -/
theorem releases_worker (hfind : db.worker? workerId = some record) (others : List String) :
    (others.foldl (fun db other => db.releaseWorkerIfIdle other now) db).worker? workerId =
      some (record.written now
        (if workerId ∈ others ∧ record.idle db then some .online else none)) := by
  induction others generalizing db record with
  | nil => simpa [WorkerRecord.written] using hfind
  | cons other rest ih =>
      have htasks := (releaseWorkerIfIdle_tasks db other now).1
      rw [List.foldl_cons, ih (release_worker hfind other)]
      simp only [idle_of_tasks_eq htasks]
      by_cases hwritten : other = workerId ∧ record.idle db
      · have hbusy : ¬ (record.written now (some .online)).idle db := by
          simp [WorkerRecord.idle, WorkerRecord.written]
        have hlater : workerId ∈ other :: rest ∧ record.idle db :=
          ⟨hwritten.1 ▸ List.mem_cons_self, hwritten.2⟩
        rw [if_pos hwritten, if_neg fun h => hbusy h.2, if_pos hlater, WorkerRecord.written]
      · rw [if_neg hwritten, WorkerRecord.written]
        congr 2
        refine if_congr ?_ rfl rfl
        rw [List.mem_cons]
        constructor
        · exact fun h => ⟨.inr h.1, h.2⟩
        · rintro ⟨rfl | hmem, hidle⟩
          · exact absurd ⟨rfl, hidle⟩ hwritten
          · exact ⟨hmem, hidle⟩

/-! ## Calls -/

theorem create_workers {request : CreateTaskRequest} {idempotencyKey : Option String}
    {allowUnpublished : Bool} {taskId : String}
    {metadata : Except ServiceError (Option SourceMetadata)} {task : TaskRecord} {isNew : Bool}
    (h : createTask db request idempotencyKey allowUnpublished taskId metadata now =
      .ok (db', task, isNew)) : db'.workers = db.workers := by
  simp only [createTask] at h
  split at h
  · obtain ⟨_, _, h⟩ := bind_eq_ok.mp h
    cases h
    rfl
  · simp only [bind_eq_ok] at h
    obtain ⟨_, _, _, _, _, _, h⟩ := h
    cases h
    rfl

/-- A lease marks its worker `BUSY` when the leases granted fill it. -/
theorem lease_worker {request : WorkerLeaseRequest} {rows : List String}
    {tokens : Nat → String} {leases : List LeasedStage}
    (h : self.lease db request rows tokens now = .ok (db', leases))
    (hfind : db.worker? workerId = some record) :
    db'.worker? workerId = some (record.written now ((Operation.lease request rows tokens
      now).writtenStatus db db' record (.leases leases))) := by
  have hid := workerId_of_worker? hfind
  unfold StageScheduler.lease at h
  split at h
  · cases h
  · next found hfound =>
      simp only [bind_eq_ok, ensure_eq_ok] at h
      obtain ⟨_, _, h⟩ := h
      have hfoundId := workerId_of_worker? hfound
      simp only [Operation.writtenStatus, hid]
      split at h
      · next hslots =>
          cases h
          rw [if_neg]
          · exact hfind
          · rintro ⟨hsame, hroom, _⟩
            rw [hsame, hfind] at hfound
            cases hfound
            have havailable := request.slots_valid.1
            rw [hid] at hslots
            omega
      · next hslots =>
          obtain ⟨state, hloop, h⟩ := bind_eq_ok.mp h
          have hkept := worker?_of_workers_eq workerId (leaseLoop_workers hloop)
          by_cases hsame : request.workerId = workerId
          · rw [hsame, hfind] at hfound
            cases hfound
            split at h
            · next hfull =>
                cases h
                rw [hid] at hslots hfull
                rw [if_pos ⟨hsame, by omega, hfull⟩]
                exact worker?_saveWorker (hkept.trans hfind) hid
            · next hroom =>
                cases h
                rw [hid] at hroom
                rw [if_neg fun hfull => hroom hfull.2.2]
                exact hkept.trans hfind
          · rw [if_neg fun hfull => hsame hfull.1]
            split at h
            · cases h
              rw [worker?_saveWorker_of_ne]
              · exact hkept.trans hfind
              · exact fun heq => hsame (hfoundId.symm.trans heq)
            · cases h
              exact hkept.trans hfind

/-- The stage a worker reports on is one of its active stages. -/
theorem activeStageCount_ne_zero {task : TaskRecord} {stage : StageRecord} (htask : task ∈ db.tasks)
    (hstage : stage ∈ task.stages) (hworker : stage.workerId = some workerId)
    (hactive : stage.status.active) : db.activeStageCount workerId ≠ 0 := by
  intro hzero
  have hnone := List.length_eq_zero_iff.mp hzero
  rw [List.filter_eq_nil_iff] at hnone
  refine hnone stage (Db.mem_stages.mpr ⟨task, htask, hstage⟩) ?_
  simp [hworker, hactive]

/-- A completion releases its worker when no stage is left to it. -/
theorem complete_worker {stageId : String} {request : CompleteStageRequest}
    {data : Option StageExecutionData} {response : Response}
    (h : completeStage db stageId request now = .ok (db', data))
    (hfind : db.worker? workerId = some record) :
    db'.worker? workerId = some (record.written now
      ((Operation.complete stageId request now).writtenStatus db db' record response)) := by
  have hid := workerId_of_worker? hfind
  have hunchanged : ∀ {P : Prop} [Decidable P], db' = db → (P → db.activeStageCount workerId = 0 →
      False) → db'.worker? workerId = some (record.written now
        (if P ∧ record.idle db' then some .online else none)) := by
    rintro P _ rfl hbusy
    rw [if_neg]
    · exact hfind
    · rintro ⟨hP, hidle⟩
      exact hbusy hP (hid ▸ hidle.2.2)
  simp only [Operation.writtenStatus, hid, ← and_assoc]
  unfold completeStage at h
  split at h
  · cases h
    exact hunchanged rfl fun hP => hP.2
  · next task stage hstage =>
      split at h
      · obtain ⟨_, _, h⟩ := bind_eq_ok.mp h
        cases h
        exact hunchanged rfl fun hP => hP.2
      · obtain ⟨⟨db₁, data₁⟩, hwith, h⟩ := bind_eq_ok.mp h
        cases h
        have hkept := worker?_of_workers_eq workerId (withStage_workers hwith)
        have htasks := (releaseWorkerIfIdle_tasks db₁ request.workerId now).1
        rw [release_worker (hkept.trans hfind)]
        simp only [idle_of_tasks_eq htasks]
        congr 2
        refine if_congr (and_congr_left fun _ => (and_iff_left_of_imp ?_).symm) rfl rfl
        rintro rfl
        obtain ⟨htask, hmem, _⟩ := Db.stageForUpdate_mem hstage
        simp only [Db.withStage, hstage, TaskRecord.complete, StageRecord.requireValidLease,
          bind_eq_ok, ensure_eq_ok] at hwith
        obtain ⟨_, ⟨_, ⟨_, hholder, _⟩, _, hrunning, _⟩, _⟩ := hwith
        exact activeStageCount_ne_zero htask hmem hholder.1 (by rw [hrunning]; rfl)

/-- A requeue releases the workers whose leases it ends. -/
theorem requeue_worker {rows stageIds : List String} {response : Response}
    (h : requeueExpired db rows now = .ok (db', stageIds))
    (hfind : db.worker? workerId = some record) :
    db'.worker? workerId = some (record.written now
      ((Operation.requeueExpired rows now).writtenStatus db db' record response)) := by
  obtain ⟨⟨db₁, affected⟩, hloop, h⟩ := bind_eq_ok.mp h
  cases h
  have hrows : db₁.workers = db.workers :=
    foldlM_keeps (I := fun acc : Db × List String => acc.1.workers = db.workers)
      (fun _ _ _ hworkers hone => (requeueOne_workers hone).trans hworkers) rfl hloop
  have htasks := (foldl_release_tasks affected.eraseDups db₁ now).1
  have hkept := worker?_of_workers_eq workerId hrows
  rw [releases_worker (hkept.trans hfind)]
  simp only [Operation.writtenStatus, affectedWorkers, hloop, List.mem_eraseDups,
    idle_of_tasks_eq htasks, workerId_of_worker? hfind]

/-- What a call on stages does to a worker's row. -/
theorem exec_worker {operation : Operation} {response : Response}
    (h : operation.exec self db = .ok (db', response))
    (hfind : db.worker? workerId = some record) :
    db'.worker? workerId = some (record.written operation.now
      (operation.writtenStatus db db' record response)) := by
  have hkept : db'.workers = db.workers → db'.worker? workerId = some (record.written
      operation.now none) := fun hworkers => (worker?_of_workers_eq _ hworkers).trans hfind
  cases operation with
  | create =>
      simp only [Operation.exec, bind_eq_ok] at h
      obtain ⟨⟨db₁, task, isNew⟩, hcall, h⟩ := h
      cases h
      exact hkept (create_workers hcall)
  | route | cancel | retry =>
      simp only [Operation.exec, bind_eq_ok] at h
      obtain ⟨⟨db₁, task⟩, hcall, h⟩ := h
      cases h
      exact hkept (withTask_workers hcall)
  | lease =>
      simp only [Operation.exec, bind_eq_ok] at h
      obtain ⟨⟨db₁, leases⟩, hlease, h⟩ := h
      cases h
      exact lease_worker hlease hfind
  | renew | start | progress =>
      simp only [Operation.exec, bind_eq_ok] at h
      obtain ⟨⟨db₁, data⟩, hcall, h⟩ := h
      cases h
      exact hkept (withStage_workers hcall)
  | complete =>
      simp only [Operation.exec, bind_eq_ok] at h
      obtain ⟨⟨db₁, data⟩, hcomplete, h⟩ := h
      cases h
      exact complete_worker hcomplete hfind
  | authorizeArtifactUpload =>
      simp only [Operation.exec, bind_eq_ok] at h
      obtain ⟨⟨db₁, stage⟩, hauthorize, h⟩ := h
      cases h
      exact hkept (congrArg Db.workers (authorizeArtifactUpload_db hauthorize))
  | requeueExpired =>
      simp only [Operation.exec, bind_eq_ok] at h
      obtain ⟨⟨db₁, stageIds⟩, hrequeue, h⟩ := h
      cases h
      exact requeue_worker hrequeue hfind

/-! ## No row is added or removed -/

def Db.workerIds (db : Db) : List String := db.workers.map (·.workerId)

theorem worker?_eq_none : db.worker? workerId = none ↔ workerId ∉ db.workerIds := by
  simp [Db.worker?, Db.workerIds]

theorem saveWorker_workerIds (db : Db) (worker : WorkerRecord) :
    (db.saveWorker worker).workerIds = db.workerIds :=
  map_replaceKey WorkerRecord.workerId worker db.workers

theorem workerIds_frame : Frame fun db db' => db'.workerIds = db.workerIds where
  refl _ := rfl
  trans h h' := h'.trans h
  tasks _ _ := rfl
  publish _ _ _ := rfl
  worker := saveWorker_workerIds

/-- The calls on stages neither add nor remove a worker. -/
theorem exec_workerIds {operation : Operation} {response : Response}
    (h : operation.exec self db = .ok (db', response)) : db'.workerIds = db.workerIds :=
  workerIds_frame.exec h

end ParserServe
