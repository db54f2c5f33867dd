import Mathlib.Data.List.Sort
import ParserServe.Control.Scheduler

/-! # Deferred routing

`control/routing_service.py`: a pass takes the oldest batch of the tasks that could not be routed
yet and tries each of them in a transaction of its own.  The queue notices that follow a commit
are not part of the database.
-/

namespace ParserServe

open Foundation

structure TaskRoutingService where
  batchSize : Nat := 100
  batch_pos : 1 ≤ batchSize := by decide

/-- Pending, with source metadata and without stages. -/
def TaskRecord.unrouted (task : TaskRecord) : Bool :=
  task.status == .pending && task.sourceMetadata.isSome && task.stages.isEmpty

def taskBefore (a b : TaskRecord) : Prop :=
  a.createdAt < b.createdAt ∨ (a.createdAt = b.createdAt ∧ a.taskId ≤ b.taskId)

instance : DecidableRel taskBefore := fun _ _ => inferInstanceAs (Decidable (_ ∨ _))

/-- The tasks a pass selects. -/
def TaskRoutingService.selected (self : TaskRoutingService) (db : Db) : List TaskRecord :=
  ((db.tasks.filter (·.unrouted)).insertionSort taskBefore).take self.batchSize

/-- The errors after which a pass goes on with the next task. -/
def ServiceError.deferred : ServiceError → Bool
  | .taskAlreadyRouted | .taskRoutingUnavailable | .taskSourceUnresolved => true
  | _ => false

/-- The loop of `run_once`; `stageIds` are the identifiers drawn for each task. -/
def routeEach (stageIds : String → Nat → String) (now : Time) :
    Db → Nat → List String → Db × Except ServiceError Nat
  | db, routed, [] => (db, .ok routed)
  | db, routed, taskId :: rest =>
      match routeTask db taskId false (stageIds taskId) now with
      | .error error =>
          if error.deferred then routeEach stageIds now db routed rest else (db, .error error)
      | .ok (db, record) =>
          if record.any (·.stages ≠ []) then routeEach stageIds now db (routed + 1) rest
          else routeEach stageIds now db routed rest

/-- `TaskRoutingService.run_once`. -/
def TaskRoutingService.runOnce (self : TaskRoutingService) (db : Db)
    (stageIds : String → Nat → String) (now : Time) : Db × Except ServiceError Nat :=
  routeEach stageIds now db 0 ((self.selected db).map (·.taskId))

/-- The database after a number of passes with nothing in between; each pass has its own draws
and its own reading of the clock. -/
def TaskRoutingService.passes (self : TaskRoutingService) (draws : Nat → String → Nat → String)
    (clock : Nat → Time) (db : Db) : Nat → Db
  | 0 => db
  | n + 1 => (self.runOnce (self.passes draws clock db n) (draws n) (clock n)).1

end ParserServe
