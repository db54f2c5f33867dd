import ParserServe.Lifecycle.Fencing
import ParserServe.Lifecycle.Progress

/-! # Manual retry

What `TaskRepository.retry` leaves of the rows it resets.  The time before which a stage may
not be leased is written by the failure path and not by the retry, so a back-off that was
running when the task ended goes on after it.
-/

namespace ParserServe

open Foundation

variable {db db' : Db} {task record : TaskRecord} {stage : StageRecord} {taskId : String}
  {now : Time}

/-- The rows a retry resets. -/
def StageRecord.resettable (stage : StageRecord) : Prop :=
  stage.status = .failed ∨ stage.status = .cancelled

instance (stage : StageRecord) : Decidable stage.resettable :=
  inferInstanceAs (Decidable (_ ∨ _))

/-! ## Rows after a user's call -/

/-- A task after a user's call is another one, or the one the call worked on. -/
theorem withTask_tasks {answer : Option TaskRecord}
    {operation : TaskRecord → Except ServiceError (TaskRecord × List EventPayload)}
    {f : StageRecord → StageRecord}
    (hop : ∀ task task' payloads, operation task = .ok (task', payloads) →
      task'.taskId = task.taskId ∧ task'.stages = task.stages.map f)
    (h : db.withTask taskId now operation = .ok (db', answer)) :
    ∀ task' ∈ db'.tasks, (task' ∈ db.tasks ∧ task'.taskId ≠ taskId) ∨
      ∃ task ∈ db.tasks, task.taskId = taskId ∧ task'.stages = task.stages.map f := by
  intro task' htask'
  unfold Db.withTask at h
  cases hfind : db.task? taskId with
  | none =>
      simp only [hfind] at h
      cases h
      exact .inl ⟨htask', by simpa using List.find?_eq_none.mp hfind task' htask'⟩
  | some task =>
      simp only [hfind, bind_eq_ok] at h
      obtain ⟨⟨saved, payloads⟩, hoperation, h⟩ := h
      cases h
      obtain ⟨hid, hstages⟩ := hop _ _ _ hoperation
      have htaskId : task.taskId = taskId := by simpa using List.find?_some hfind
      rw [Db.publishAll_tasks] at htask'
      rcases mem_saveTask htask' with rfl | ⟨hold, hne⟩
      · exact .inr ⟨task, List.mem_of_find?_eq_some hfind, htaskId, hstages⟩
      · exact .inl ⟨hold, fun heq => hne (heq.trans (hid.trans htaskId).symm)⟩

theorem cancel_tasks {answer : Option TaskRecord}
    (h : cancelTask db taskId now = .ok (db', answer)) :
    ∀ task' ∈ db'.tasks, (task' ∈ db.tasks ∧ task'.taskId ≠ taskId) ∨
      ∃ task ∈ db.tasks, task.taskId = taskId ∧ task'.stages = task.stages.map (·.cancel now) :=
  withTask_tasks (fun _ _ _ hop => ⟨(cancel_eq_ok hop).1, (cancel_eq_ok hop).2.2⟩) h

theorem retry_tasks {answer : Option TaskRecord}
    (h : retryTask db taskId now = .ok (db', answer)) :
    ∀ task' ∈ db'.tasks, (task' ∈ db.tasks ∧ task'.taskId ≠ taskId) ∨
      ∃ task ∈ db.tasks, task.taskId = taskId ∧ task'.stages = task.stages.map (·.reset now) :=
  withTask_tasks (fun _ _ _ hop => ⟨(retry_eq_ok hop).1, (retry_eq_ok hop).2.2⟩) h


theorem reset_of_resettable (h : stage.resettable) :
    (stage.reset now).status = .pending ∧ (stage.reset now).availableAt = stage.availableAt := by
  have hended : stage.status = .failed ∨ stage.status = .cancelled := h
  rw [StageRecord.reset, if_pos hended]
  exact ⟨rfl, rfl⟩

theorem reset_samePlan (stage : StageRecord) (now : Time) : SamePlan stage (stage.reset now) :=
  StageMove.samePlan (.reset trivial : StageMove True now stage (stage.reset now))

/-- No stage becomes or stops being done for its dependents. -/
theorem reset_finished (stage : StageRecord) (now : Time) :
    (stage.reset now).status.finished = stage.status.finished := by
  unfold StageRecord.reset
  split
  · next hended => rcases hended with h | h <;> simp [h, StageStatus.finished]
  · rfl

theorem dependenciesSatisfied_reset (hstages : record.stages = task.stages.map (·.reset now)) :
    record.dependenciesSatisfied (stage.reset now) = task.dependenciesSatisfied stage := by
  unfold TaskRecord.dependenciesSatisfied
  rw [(reset_samePlan stage now).dependsOn, hstages]
  congr 1
  funext dependency
  rw [List.find?_map, Option.map_map]
  have hfind : (fun s : StageRecord => decide (s.name = dependency)) ∘ (fun s => s.reset now) =
      fun s : StageRecord => decide (s.name = dependency) :=
    funext fun s => by rw [Function.comp_apply, (reset_samePlan s now).name]
  have hstatus : (fun s : StageRecord => s.status.finished) ∘ (fun s => s.reset now) =
      fun s : StageRecord => s.status.finished := funext fun s => reset_finished s now
  rw [hfind, hstatus]

/-- The task a retry found, and the record it left. -/
theorem retryTask_eq_ok (htask : db.task? taskId = some task)
    (h : retryTask db taskId now = .ok (db', some record)) :
    record ∈ db'.tasks ∧ record.status = .pending ∧
      record.stages = task.stages.map (·.reset now) := by
  unfold retryTask Db.withTask at h
  simp only [htask, bind_eq_ok] at h
  obtain ⟨⟨task', payloads⟩, hretry, h⟩ := h
  cases h
  obtain ⟨hid, hstatus, hstages⟩ := retry_eq_ok hretry
  refine ⟨?_, hstatus, hstages⟩
  rw [Db.publishAll_tasks]
  exact mem_replaceKey_self (List.mem_of_find?_eq_some htask) hid.symm

/-! ## Results -/

/-- A retry makes every ready stage it resets leasable at once exactly when none of them
has a back-off still running. -/
theorem retry_leasable_at_once_iff (htask : db.task? taskId = some task)
    (hretry : retryTask db taskId now = .ok (db', some record)) :
    (∀ stage ∈ task.stages, stage.resettable → record.dependenciesSatisfied (stage.reset now) →
      (record, stage.reset now) ∈ db'.leasableRows now ∧ record.status = .pending) ↔
    ∀ stage ∈ task.stages, stage.resettable → task.dependenciesSatisfied stage →
      stage.availableAt ≤ now := by
  obtain ⟨hmem, hstatus, hstages⟩ := retryTask_eq_ok htask hretry
  have hactive : record.status.active := by rw [hstatus]; rfl
  constructor
  · intro h stage hstage hreset hdeps
    have hready := h stage hstage hreset ((dependenciesSatisfied_reset hstages).trans hdeps)
    obtain ⟨_, _, _, havailable, _⟩ := mem_leasableRows.mp hready.1
    rwa [(reset_of_resettable hreset).2] at havailable
  · intro h stage hstage hreset hdeps
    obtain ⟨hpending, havailable⟩ : (stage.reset now).status = .pending ∧ _ :=
      reset_of_resettable hreset
    have hle : stage.availableAt ≤ now :=
      h stage hstage hreset ((dependenciesSatisfied_reset hstages).symm.trans hdeps)
    refine ⟨mem_leasableRows.mpr ⟨hmem, ?_, hpending, havailable.le.trans hle, hactive⟩, hstatus⟩
    rw [hstages]
    exact List.mem_map_of_mem hstage

/-- Both leased stages are cancelled with their task. -/
def cancelledDb : Db := afterScript sampleScheduler leasedDb [.cancel "task" 3]

theorem retry_leasable_at_once_cancelled : ∃ (task record : TaskRecord) (db' : Db),
    cancelledDb.task? "task" = some task ∧ retryTask cancelledDb "task" 4 = .ok (db', some record) ∧
      (∃ stage ∈ task.stages, stage.resettable ∧ stage.dependsOn = []) ∧
      ∀ stage ∈ task.stages, stage.resettable → record.dependenciesSatisfied (stage.reset 4) →
        (record, stage.reset 4) ∈ db'.leasableRows 4 ∧ record.status = .pending := by
  have hdecide : ∃ task ∈ cancelledDb.task? "task",
      (∃ result, retryTask cancelledDb "task" 4 = .ok result ∧ result.2.isSome) ∧
        (∃ stage ∈ task.stages, stage.resettable ∧ stage.dependsOn = []) ∧
          ∀ stage ∈ task.stages, stage.availableAt ≤ 4 := by
    decide +kernel
  obtain ⟨task, htask, ⟨⟨db', answer⟩, hretry, hsome⟩, hreset, havailable⟩ := hdecide
  obtain ⟨record, rfl⟩ := Option.isSome_iff_exists.mp hsome
  exact ⟨task, record, db', htask, hretry, hreset,
    (retry_leasable_at_once_iff htask hretry).mpr fun stage hstage _ _ => havailable stage hstage⟩

/-! ## A stage that waits in back-off -/

/-- A second attempt an hour after the first has failed. -/
def patientPolicy : RetryPolicy where
  maximumAttempts := 2
  initialDelaySeconds := 3600
  maximumDelaySeconds := 86400
  multiplier := 10

def patientPipeline : PipelineDefinition :=
  { samplePipeline with
    stages := (samplePipeline.stages.take 1).map fun stage => { stage with retry := patientPolicy }
    stages_ne_nil := by decide
    dag_valid := by decide +kernel }

def layoutError : ErrorDetail where
  code := .internalError
  message := "layout model crashed"

/-- The stage fails at 4, so that it may be leased again from 3604 on, and the task is
cancelled at 5. -/
def waitingScript : List Operation :=
  leaseScript.take 2 ++
    [.lease { workerId := "worker", availableSlots := 5 } ["stage-layout"]
        (fun _ => "token-layout") 2,
      .start "stage-layout" "worker" "token-layout" 3,
      .complete "stage-layout" (.failure "worker" "token-layout" layoutError) 4,
      .cancel "task" 5]

def waitingDb : Db :=
  afterScript sampleScheduler { sampleDb with pipelines := [⟨1, patientPipeline⟩] } waitingScript

/-- Retried at 6, the stage cannot be leased before 3604. -/
theorem retry_keeps_backoff : (controlPlane sampleScheduler).Reachable waitingDb ∧
    ∃ task ∈ waitingDb.task? "task", ∃ result,
      retryTask waitingDb "task" 6 = .ok result ∧ ∃ record ∈ result.2,
        ∃ stage ∈ task.stages, stage.resettable ∧
          record.dependenciesSatisfied (stage.reset 6) ∧
            (record, stage.reset 6) ∉ result.1.leasableRows 6 ∧
              (stage.reset 6).availableAt = 3604 := by
  refine ⟨afterScript_reachable ⟨_, [], ⟨rfl, rfl⟩, .nil _⟩, ?_⟩
  decide +kernel

end ParserServe
