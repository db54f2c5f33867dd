import ParserServe.Control.Scheduler
import ParserServe.Foundation.Runs
import ParserServe.Foundation.WriteBack

/-! # Completions that overlap

`StageScheduler.complete` as the steps of its transaction under READ COMMITTED, for the
completions of one task's stages that run at the same time.  `_stage_for_update` locks the
stage row alone: the `selectinload` options load the task and its stages by two further
queries without a lock, and the row that is locked is not loaded again.  The flush before
the query for the worker row writes the changed columns, which locks their rows until the
transaction ends.
-/

namespace ParserServe

open Foundation

/-- A call of `complete` that reports success. -/
structure Completion where
  stageId : String
  request : CompleteStageRequest
  now : Time
  succeeded : request.status = .succeeded := by decide

/-- The rows a completion may lock. -/
inductive Row
  | stage (stageId : String)
  | task
  | worker (workerId : String)
  deriving DecidableEq

/-- How far a transaction has come, and the rows its session holds: the locked stage, the
task row, the task with its stages, and the task as computed from these. -/
inductive Txn
  | begun
  | locked (stage : StageRecord)
  | taskLoaded (stage : StageRecord) (row : TaskRecord)
  | loaded (stage : StageRecord) (task : TaskRecord)
  | flushed (stage : StageRecord) (task computed : TaskRecord)
  | released (stage : StageRecord) (task computed : TaskRecord)
  | committed
  | rolledBack
  deriving DecidableEq

def Txn.ended : Txn → Bool
  | .committed | .rolledBack => true
  | _ => false

/-! ## Writing back -/

/-- The stage row after a write of the changed columns over the committed ones. -/
def StageRecord.merge (loaded computed current : StageRecord) : StageRecord where
  stageId := writeBack loaded.stageId computed.stageId current.stageId
  name := writeBack loaded.name computed.name current.name
  position := writeBack loaded.position computed.position current.position
  dependsOn := writeBack loaded.dependsOn computed.dependsOn current.dependsOn
  optional := writeBack loaded.optional computed.optional current.optional
  timeoutSeconds := writeBack loaded.timeoutSeconds computed.timeoutSeconds current.timeoutSeconds
  status := writeBack loaded.status computed.status current.status
  progressPercent :=
    writeBack loaded.progressPercent computed.progressPercent current.progressPercent
  backendId := writeBack loaded.backendId computed.backendId current.backendId
  backendVersion := writeBack loaded.backendVersion computed.backendVersion current.backendVersion
  backendCandidates :=
    writeBack loaded.backendCandidates computed.backendCandidates current.backendCandidates
  workerId := writeBack loaded.workerId computed.workerId current.workerId
  runtime := writeBack loaded.runtime computed.runtime current.runtime
  deviceId := writeBack loaded.deviceId computed.deviceId current.deviceId
  requiredRuntimes :=
    writeBack loaded.requiredRuntimes computed.requiredRuntimes current.requiredRuntimes
  attempt := writeBack loaded.attempt computed.attempt current.attempt
  maximumAttempts :=
    writeBack loaded.maximumAttempts computed.maximumAttempts current.maximumAttempts
  leaseTokenDigest :=
    writeBack loaded.leaseTokenDigest computed.leaseTokenDigest current.leaseTokenDigest
  completionWorkerId :=
    writeBack loaded.completionWorkerId computed.completionWorkerId current.completionWorkerId
  completionDeviceId :=
    writeBack loaded.completionDeviceId computed.completionDeviceId current.completionDeviceId
  completionLeaseTokenDigest := writeBack loaded.completionLeaseTokenDigest
    computed.completionLeaseTokenDigest current.completionLeaseTokenDigest
  completionRequestDigest := writeBack loaded.completionRequestDigest
    computed.completionRequestDigest current.completionRequestDigest
  leaseExpiresAt := writeBack loaded.leaseExpiresAt computed.leaseExpiresAt current.leaseExpiresAt
  parameters := writeBack loaded.parameters computed.parameters current.parameters
  retryPolicy := writeBack loaded.retryPolicy computed.retryPolicy current.retryPolicy
  availableAt := writeBack loaded.availableAt computed.availableAt current.availableAt
  resultUri := writeBack loaded.resultUri computed.resultUri current.resultUri
  error := writeBack loaded.error computed.error current.error
  createdAt := writeBack loaded.createdAt computed.createdAt current.createdAt
  updatedAt := writeBack loaded.updatedAt computed.updatedAt current.updatedAt
  startedAt := writeBack loaded.startedAt computed.startedAt current.startedAt
  completedAt := writeBack loaded.completedAt computed.completedAt current.completedAt

/-- The task row and its stage rows after a write of the changed columns. -/
def TaskRecord.merge (loaded computed current : TaskRecord) : TaskRecord where
  taskId := writeBack loaded.taskId computed.taskId current.taskId
  status := writeBack loaded.status computed.status current.status
  progressPercent :=
    writeBack loaded.progressPercent computed.progressPercent current.progressPercent
  source := writeBack loaded.source computed.source current.source
  sourceMetadata := writeBack loaded.sourceMetadata computed.sourceMetadata current.sourceMetadata
  options := writeBack loaded.options computed.options current.options
  pipelineId := writeBack loaded.pipelineId computed.pipelineId current.pipelineId
  pipelineVersion :=
    writeBack loaded.pipelineVersion computed.pipelineVersion current.pipelineVersion
  priority := writeBack loaded.priority computed.priority current.priority
  clientReference :=
    writeBack loaded.clientReference computed.clientReference current.clientReference
  callback := writeBack loaded.callback computed.callback current.callback
  idempotencyDigest :=
    writeBack loaded.idempotencyDigest computed.idempotencyDigest current.idempotencyDigest
  requestDigest := writeBack loaded.requestDigest computed.requestDigest current.requestDigest
  resultUri := writeBack loaded.resultUri computed.resultUri current.resultUri
  error := writeBack loaded.error computed.error current.error
  createdAt := writeBack loaded.createdAt computed.createdAt current.createdAt
  updatedAt := writeBack loaded.updatedAt computed.updatedAt current.updatedAt
  startedAt := writeBack loaded.startedAt computed.startedAt current.startedAt
  completedAt := writeBack loaded.completedAt computed.completedAt current.completedAt
  stages := writeBackRows (·.stageId) StageRecord.merge loaded.stages computed.stages
    current.stages

/-- The rows a flush updates. -/
def writtenRows (loaded computed : TaskRecord) : List Row :=
  (if { computed with stages := loaded.stages } = loaded then [] else [.task]) ++
    (computed.stages.filter (· ∉ loaded.stages)).map (.stage ·.stageId)

/-! ## Steps -/

/-- The locks a transaction holds. -/
def Txn.locks (call : Completion) : Txn → List Row
  | .begun | .committed | .rolledBack => []
  | .locked _ | .taskLoaded _ _ | .loaded _ _ => [.stage call.stageId]
  | .flushed _ task computed => .stage call.stageId :: writtenRows task computed
  | .released _ task computed =>
      .worker call.request.workerId :: .stage call.stageId :: writtenRows task computed

/-- The committed rows of the task and the transactions on its stages. -/
structure Overlap (n : Nat) where
  task : TaskRecord
  txns : Fin n → Txn

/-- No other transaction holds the row. -/
def Overlap.free {n : Nat} (calls : Fin n → Completion) (state : Overlap n) (i : Fin n)
    (row : Row) : Prop :=
  ∀ j, j ≠ i → row ∉ (state.txns j).locks (calls j)

instance {n : Nat} (calls : Fin n → Completion) (state : Overlap n) (i : Fin n) (row : Row) :
    Decidable (state.free calls i row) := inferInstanceAs (Decidable (∀ _, _))

def Overlap.move {n : Nat} (state : Overlap n) (i : Fin n) (txn : Txn) : Overlap n :=
  { state with txns := Function.update state.txns i txn }

/-- The next step of transaction `i`; `none` when it waits for a lock or has ended. -/
def Overlap.advance {n : Nat} (calls : Fin n → Completion) (state : Overlap n) (i : Fin n) :
    Option (Overlap n) :=
  match state.txns i with
  | .begun =>
      if state.free calls i (.stage (calls i).stageId) then
        match state.task.stage? (calls i).stageId with
        | none => some (state.move i .committed)
        | some stage => some (state.move i (.locked stage))
      else none
  | .locked stage => some (state.move i (.taskLoaded stage state.task))
  | .taskLoaded stage row =>
      some (state.move i (.loaded stage
        (TaskRecord.saveStage { row with stages := state.task.stages } stage)))
  | .loaded stage task =>
      if stage.completionRequestDigest ≠ none then
        -- the answer to a replay writes nothing
        if stage.completionMatches (calls i).request then some (state.move i .committed)
        else some (state.move i .rolledBack)
      else
        match task.complete stage (calls i).request (calls i).now with
        | .error _ => some (state.move i .rolledBack)
        | .ok (computed, _) =>
            if ∀ row ∈ writtenRows task computed, state.free calls i row then
              some (state.move i (.flushed stage task computed))
            else none
  | .flushed stage task computed =>
      if state.free calls i (.worker (calls i).request.workerId) then
        some (state.move i (.released stage task computed))
      else none
  | .released _ task computed =>
      -- the flushed rows are locked, so the commit finds them as the flush did
      some ({ state with task := task.merge computed state.task }.move i .committed)
  | .committed | .rolledBack => none

def Overlap.start (n : Nat) (task : TaskRecord) : Overlap n := ⟨task, fun _ => .begun⟩

/-- The completions `calls` in any interleaving. -/
def completions {n : Nat} (calls : Fin n → Completion) : System (Overlap n) (Fin n) :=
  System.ofStep (fun state => ∀ i, state.txns i = .begun) (Overlap.advance calls)

end ParserServe
