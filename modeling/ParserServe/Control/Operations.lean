import ParserServe.Control.Scheduler
import ParserServe.Foundation.Runs

/-! # The control plane as a transition system

Every call of the task repository, the router and the scheduler is one transaction, and the
transactions are taken one at a time.  A call that raises leaves the database as it was.
Between two calls the catalogue and the workers may change in any way, and the database may
return a task's stage rows in another order.
-/

namespace ParserServe

open Foundation

/-- A call with its arguments, the clock reading and the values it draws. -/
inductive Operation
  | create (request : CreateTaskRequest) (idempotencyKey : Option String)
      (allowUnpublished : Bool) (taskId : String)
      (metadata : Except ServiceError (Option SourceMetadata)) (now : Time)
  | route (taskId : String) (allowUnpublished : Bool) (stageIds : Nat → String) (now : Time)
  | lease (request : WorkerLeaseRequest) (rows : List String) (tokens : Nat → String)
      (now : Time)
  | renew (stageId workerId leaseToken : String) (now : Time)
  | start (stageId workerId leaseToken : String) (now : Time)
  | progress (stageId : String) (request : StageProgressRequest) (now : Time)
  | complete (stageId : String) (request : CompleteStageRequest) (now : Time)
  | authorizeArtifactUpload (stageId workerId leaseToken : String) (now : Time)
  | requeueExpired (rows : List String) (now : Time)
  | cancel (taskId : String) (now : Time)
  | retry (taskId : String) (now : Time)

/-- What a call returns to its caller. -/
inductive Response
  | created (record : TaskRecord) (isNew : Bool)
  | task (record : Option TaskRecord)
  | leases (stages : List LeasedStage)
  | renewed (data : Option RenewStageLeaseData)
  | execution (data : Option StageExecutionData)
  | authorized (stage : Option StageRecord)
  | requeued (stageIds : List String)

def Operation.now : Operation → Time
  | .create _ _ _ _ _ now | .route _ _ _ now | .lease _ _ _ now | .renew _ _ _ now
  | .start _ _ _ now | .progress _ _ now | .complete _ _ now
  | .authorizeArtifactUpload _ _ _ now | .requeueExpired _ now | .cancel _ now
  | .retry _ now => now

/-- The calls that cancel or retry a task. -/
def Operation.manual : Operation → Prop
  | .cancel _ _ | .retry _ _ => True
  | _ => False

def Operation.exec (self : StageScheduler) (db : Db) :
    Operation → Except ServiceError (Db × Response)
  | .create request idempotencyKey allowUnpublished taskId metadata now => do
      let (db, record, isNew) ←
        createTask db request idempotencyKey allowUnpublished taskId metadata now
      .ok (db, .created record isNew)
  | .route taskId allowUnpublished stageIds now => do
      let (db, record) ← routeTask db taskId allowUnpublished stageIds now
      .ok (db, .task record)
  | .lease request rows tokens now => do
      let (db, stages) ← self.lease db request rows tokens now
      .ok (db, .leases stages)
  | .renew stageId workerId leaseToken now => do
      let (db, data) ← self.renew db stageId workerId leaseToken now
      .ok (db, .renewed data)
  | .start stageId workerId leaseToken now => do
      let (db, data) ← startStage db stageId workerId leaseToken now
      .ok (db, .execution data)
  | .progress stageId request now => do
      let (db, data) ← progressStage db stageId request now
      .ok (db, .execution data)
  | .complete stageId request now => do
      let (db, data) ← completeStage db stageId request now
      .ok (db, .execution data)
  | .authorizeArtifactUpload stageId workerId leaseToken now => do
      let (db, stage) ← ParserServe.authorizeArtifactUpload db stageId workerId leaseToken now
      .ok (db, .authorized stage)
  | .requeueExpired rows now => do
      let (db, stageIds) ← ParserServe.requeueExpired db rows now
      .ok (db, .requeued stageIds)
  | .cancel taskId now => do
      let (db, record) ← cancelTask db taskId now
      .ok (db, .task record)
  | .retry taskId now => do
      let (db, record) ← retryTask db taskId now
      .ok (db, .task record)

/-- The rows handed to a call are an answer the database may give to its query. -/
def Operation.Answerable (db : Db) : Operation → Prop
  | .lease _ rows _ now => ∃ answer : List (TaskRecord × StageRecord),
      answer.Perm (db.leasableRows now) ∧ answer.Pairwise leaseBefore ∧
        rows = answer.map (·.2.stageId)
  | .requeueExpired rows now => rows.Perm (db.expiredStages now)
  | _ => True

/-- A lease as it was granted. -/
structure LeaseGrant where
  stageId : String
  workerId : String
  token : String
  deriving DecidableEq

inductive Label
  | returned (operation : Operation) (response : Response)
  | raised (operation : Operation) (error : ServiceError)
  | administered
  | reordered

/-- The leases a step grants, in the order in which they are granted. -/
def Label.grants : Label → List LeaseGrant
  | .returned (.lease request _ _ _) (.leases stages) =>
      stages.map fun stage => ⟨stage.stageId, request.workerId, stage.leaseToken⟩
  | _ => []

def EventPayload.concernsWorker : EventPayload → Bool
  | .workerStatusChanged .. => true
  | _ => false

/-- Worker registration, heartbeats, the catalogue, uploads and artifacts: no task row is
written, and only worker events are published. -/
structure Administered (db db' : Db) : Prop where
  tasks : db'.tasks = db.tasks
  events : ∃ new, db'.events = db.events ++ new ∧ ∀ event ∈ new, event.payload.concernsWorker

/-- One transaction of the control plane, or a change from outside it. -/
inductive ControlStep (self : StageScheduler) : Db → Label → Db → Prop
  | returned {db db' : Db} {operation : Operation} {response : Response} :
      operation.Answerable db → operation.exec self db = .ok (db', response) →
        ControlStep self db (.returned operation response) db'
  | raised {db : Db} {operation : Operation} {error : ServiceError} :
      operation.Answerable db → operation.exec self db = .error error →
        ControlStep self db (.raised operation error) db
  | administered {db db' : Db} : Administered db db' → ControlStep self db .administered db'
  | reordered {db : Db} {task : TaskRecord} {stages : List StageRecord} :
      task ∈ db.tasks → stages.Perm task.stages →
        ControlStep self db .reordered (db.saveTask { task with stages := stages })

/-- The control plane, started on a database without tasks. -/
def controlPlane (self : StageScheduler) : System Db Label where
  Initial db := db.tasks = [] ∧ db.events = []
  Step := ControlStep self

/-! ## Scripts of calls -/

/-- The database answers with its rows in the order in which it stores them. -/
def Operation.answeredInOrder (db : Db) : Operation → Bool
  | .lease _ rows _ now => decide ((db.leasableRows now).Pairwise leaseBefore) &&
      rows == (db.leasableRows now).map (·.2.stageId)
  | .requeueExpired rows now => rows == db.expiredStages now
  | _ => true

/-- Run calls one after another; `none` when one of them raises. -/
def runScript (self : StageScheduler) : Db → List Operation → Option Db
  | db, [] => some db
  | db, operation :: rest =>
      if operation.answeredInOrder db then
        match operation.exec self db with
        | .error _ => none
        | .ok (db', _) => runScript self db' rest
      else none

theorem answerable_of_answeredInOrder {db : Db} {operation : Operation}
    (h : operation.answeredInOrder db) : operation.Answerable db := by
  cases operation with
  | lease request rows tokens now =>
      simp only [Operation.answeredInOrder, Bool.and_eq_true, decide_eq_true_eq,
        beq_iff_eq] at h
      exact ⟨_, List.Perm.refl _, h.1, h.2⟩
  | requeueExpired rows now =>
      simp only [Operation.answeredInOrder, beq_iff_eq] at h
      exact h ▸ List.Perm.refl _
  | create | route | renew | start | progress | complete | authorizeArtifactUpload | cancel
    | retry => trivial

/-- The labels of the calls up to the first that raises. -/
def scriptLabels (self : StageScheduler) : Db → List Operation → List Label
  | _, [] => []
  | db, operation :: rest =>
      match operation.exec self db with
      | .error _ => []
      | .ok (db', response) => .returned operation response :: scriptLabels self db' rest

theorem runScript_run {self : StageScheduler} {operations : List Operation} {db db' : Db}
    (h : runScript self db operations = some db') :
    (controlPlane self).Run db (scriptLabels self db operations) db' := by
  induction operations generalizing db with
  | nil =>
      cases h
      exact .nil _
  | cons operation rest ih =>
      rw [runScript] at h
      split at h
      · next hanswered =>
          rw [scriptLabels]
          split at h
          · cases h
          · next db₁ response hexec =>
              have hstep : (controlPlane self).Step db (.returned operation response) db₁ :=
                .returned (answerable_of_answeredInOrder hanswered) hexec
              exact (System.Run.single hstep).trans (ih h)
      · cases h

/-- What a script leads to, or the database it started on. -/
def afterScript (self : StageScheduler) (db : Db) (operations : List Operation) : Db :=
  (runScript self db operations).getD db

theorem afterScript_run {self : StageScheduler} {operations : List Operation} {db : Db}
    (h : (runScript self db operations).isSome) :
    (controlPlane self).Run db (scriptLabels self db operations)
      (afterScript self db operations) := by
  obtain ⟨db', hrun⟩ := Option.isSome_iff_exists.mp h
  rw [afterScript, hrun]
  exact runScript_run hrun

theorem afterScript_reachable {self : StageScheduler} {operations : List Operation} {db : Db}
    (hdb : (controlPlane self).Reachable db) :
    (controlPlane self).Reachable (afterScript self db operations) := by
  unfold afterScript
  cases h : runScript self db operations with
  | none => exact hdb
  | some db' => exact hdb.run (runScript_run h)

end ParserServe
