import ParserServe.Lifecycle.Database

/-! # Frames of the calls

The calls of the control plane write task and worker rows and publish events.  A relation that
these writes keep holds between the databases before and after a call.
-/

namespace ParserServe

open Foundation

variable {R : Db → Db → Prop} {scheduler : StageScheduler} {db db' : Db} {now : Time}

/-- A relation between two databases that holds over each of the writes of a call. -/
structure Frame (R : Db → Db → Prop) : Prop where
  refl : ∀ db, R db db
  trans : ∀ {db db' db'' : Db}, R db db' → R db' db'' → R db db''
  tasks : ∀ (db : Db) (tasks : List TaskRecord), R db { db with tasks := tasks }
  publish : ∀ (db : Db) (now : Time) (payload : EventPayload), R db (db.publish now payload)
  worker : ∀ (db : Db) (worker : WorkerRecord), R db (db.saveWorker worker)

namespace Frame

theorem publishAll (hR : Frame R) (db : Db) (now : Time) (payloads : List EventPayload) :
    R db (db.publishAll now payloads) := by
  induction payloads generalizing db with
  | nil => exact hR.refl db
  | cons payload payloads ih => exact hR.trans (hR.publish db now payload) (ih _)

/-- A task written back with its events. -/
theorem saveTask (hR : Frame R) (db : Db) (task : TaskRecord) (now : Time)
    (payloads : List EventPayload) : R db ((db.saveTask task).publishAll now payloads) :=
  hR.trans (hR.tasks db _) (hR.publishAll (db.saveTask task) now payloads)

theorem withTask (hR : Frame R) {taskId : String} {answer : Option TaskRecord}
    {operation : TaskRecord → Except ServiceError (TaskRecord × List EventPayload)}
    (h : db.withTask taskId now operation = .ok (db', answer)) : R db db' := by
  unfold Db.withTask at h
  split at h
  · cases h
    exact hR.refl db
  · next task _ =>
      obtain ⟨⟨task', payloads⟩, _, h⟩ := bind_eq_ok.mp h
      cases h
      exact hR.saveTask db task' now payloads

theorem withStage (hR : Frame R) {β : Type} {stageId : String} {answered : Option β}
    {operation : TaskRecord → StageRecord → Except ServiceError (TaskRecord × List EventPayload)}
    {answer : TaskRecord → StageRecord → β}
    (h : db.withStage stageId now operation answer = .ok (db', answered)) : R db db' := by
  unfold Db.withStage at h
  split at h
  · cases h
    exact hR.refl db
  · obtain ⟨⟨task', payloads⟩, _, h⟩ := bind_eq_ok.mp h
    cases h
    exact hR.saveTask db task' now payloads

theorem leaseOne (hR : Frame R) {call : LeaseCall} {state state' : LeaseState} {stageId : String}
    (h : scheduler.leaseOne call state stageId = .ok state') : R state.db state'.db := by
  unfold StageScheduler.leaseOne at h
  split at h
  · cases h
    exact hR.refl _
  · split at h
    · cases h
      exact hR.refl _
    · obtain ⟨⟨saved, payloads⟩, _, h⟩ := bind_eq_ok.mp h
      cases h
      exact hR.saveTask state.db saved call.now payloads

theorem leaseLoop (hR : Frame R) {call : LeaseCall} {rows : List String}
    {state state' : LeaseState} (h : scheduler.leaseLoop call rows state = .ok state') :
    R state.db state'.db := by
  induction rows generalizing state with
  | nil =>
      cases h
      exact hR.refl _
  | cons stageId rest ih =>
      rw [StageScheduler.leaseLoop] at h
      split at h
      · cases h
        exact hR.refl _
      · obtain ⟨state₁, hone, hloop⟩ := bind_eq_ok.mp h
        exact hR.trans (hR.leaseOne hone) (ih hloop)

theorem lease (hR : Frame R) {request : WorkerLeaseRequest} {rows : List String}
    {tokens : Nat → String} {leases : List LeasedStage}
    (h : scheduler.lease db request rows tokens now = .ok (db', leases)) : R db db' := by
  unfold StageScheduler.lease at h
  split at h
  · cases h
  · simp only [bind_eq_ok, ensure_eq_ok] at h
    obtain ⟨_, _, h⟩ := h
    split at h
    · cases h
      exact hR.refl db
    · obtain ⟨state, hloop, h⟩ := bind_eq_ok.mp h
      have hstate := hR.leaseLoop hloop
      split at h
      · cases h
        exact hR.trans hstate (hR.worker state.db _)
      · cases h
        exact hstate

theorem release (hR : Frame R) (db : Db) (workerId : String) (now : Time) :
    R db (db.releaseWorkerIfIdle workerId now) := by
  unfold Db.releaseWorkerIfIdle
  split
  · exact hR.refl db
  · split
    · exact hR.worker db _
    · exact hR.refl db

theorem requeueOne (hR : Frame R) {acc acc' : Db × List String} {stageId : String}
    (h : ParserServe.requeueOne now acc stageId = .ok acc') : R acc.1 acc'.1 := by
  unfold ParserServe.requeueOne at h
  split at h
  · cases h
    exact hR.refl _
  · obtain ⟨⟨task', payloads⟩, _, h⟩ := bind_eq_ok.mp h
    cases h
    exact hR.saveTask acc.1 task' now payloads

/-- The relation holds over every call that returns. -/
theorem exec (hR : Frame R) {operation : Operation} {response : Response}
    (h : operation.exec scheduler db = .ok (db', response)) : R db db' := by
  cases operation with
  | create request idempotencyKey allowUnpublished taskId metadata now =>
      simp only [Operation.exec, createTask, bind_eq_ok] at h
      obtain ⟨⟨db₁, task, isNew⟩, hcreate, h⟩ := h
      cases h
      split at hcreate
      · obtain ⟨_, _, hcreate⟩ := bind_eq_ok.mp hcreate
        cases hcreate
        exact hR.refl db
      · simp only [bind_eq_ok] at hcreate
        obtain ⟨_, _, _, _, _, _, hcreate⟩ := hcreate
        cases hcreate
        exact hR.trans (hR.tasks db _) (hR.publish _ _ _)
  | route | cancel | retry =>
      simp only [Operation.exec, bind_eq_ok] at h
      obtain ⟨⟨db₁, task⟩, hcall, h⟩ := h
      cases h
      exact hR.withTask hcall
  | lease request rows tokens now =>
      simp only [Operation.exec, bind_eq_ok] at h
      obtain ⟨⟨db₁, leases⟩, hlease, h⟩ := h
      cases h
      exact hR.lease hlease
  | renew | start | progress =>
      simp only [Operation.exec, bind_eq_ok] at h
      obtain ⟨⟨db₁, data⟩, hcall, h⟩ := h
      cases h
      exact hR.withStage hcall
  | complete stageId request now =>
      simp only [Operation.exec, bind_eq_ok] at h
      obtain ⟨⟨db₁, data⟩, hcomplete, h⟩ := h
      cases h
      unfold completeStage at hcomplete
      split at hcomplete
      · cases hcomplete
        exact hR.refl db
      · split at hcomplete
        · obtain ⟨_, _, hcomplete⟩ := bind_eq_ok.mp hcomplete
          cases hcomplete
          exact hR.refl db
        · obtain ⟨⟨db₂, data₂⟩, hwith, hcomplete⟩ := bind_eq_ok.mp hcomplete
          cases hcomplete
          exact hR.trans (hR.withStage hwith) (hR.release _ _ _)
  | authorizeArtifactUpload stageId worker token now =>
      simp only [Operation.exec, bind_eq_ok] at h
      obtain ⟨⟨db₁, stage⟩, hauthorize, h⟩ := h
      cases h
      rw [authorizeArtifactUpload_db hauthorize]
      exact hR.refl db
  | requeueExpired rows now =>
      simp only [Operation.exec, ParserServe.requeueExpired, bind_eq_ok] at h
      obtain ⟨⟨db₁, stageIds⟩, ⟨⟨db₂, workers⟩, hloop, hrequeue⟩, h⟩ := h
      cases h
      cases hrequeue
      have hrows : R db db₂ :=
        foldlM_keeps (I := fun acc : Db × List String => R db acc.1)
          (fun _ _ _ hacc hone => hR.trans hacc (hR.requeueOne hone)) (hR.refl db) hloop
      exact List.foldlRecOn (motive := fun released => R db released) _ _ hrows
        fun released hreleased worker _ => hR.trans hreleased (hR.release released worker now)

/-- The relation holds over every step but a change from outside. -/
theorem control (hR : Frame R) {call : Label} (h : ControlStep scheduler db call db')
    (hcall : call ≠ .administered) : R db db' := by
  cases h with
  | returned _ hexec => exact hR.exec hexec
  | raised => exact hR.refl db
  | administered => exact absurd rfl hcall
  | reordered => exact hR.tasks db _

end Frame

end ParserServe
