import ParserServe.Persistence.Models

/-! # Worker persistence

`persistence/workers.py`: registration, heartbeats, management updates and the offline sweep,
and the answer `api/routes/workers.py` gives to a heartbeat.  One column holds a worker's
status, and each of the four writes it.
-/

namespace ParserServe

/-- The exceptions of `WorkerRepository.heartbeat`. -/
inductive HeartbeatError
  | staleHeartbeat
  | unknownHeartbeatDevice
  deriving DecidableEq, Repr

/-- `_status_event`, published when the status changed. -/
def workerStatusChange (workerId : String) (previous : Option WorkerStatus)
    (current : WorkerStatus) : List EventPayload :=
  if previous = some current then [] else [.workerStatusChanged workerId previous current]

/-! ## Registration -/

theorem initialWeight_valid : 1 ≤ 100 ∧ 100 ≤ 1000 := by
  decide

/-- The row of a worker that registers for the first time. -/
def newWorker (request : WorkerRegistrationRequest) (now : Time) : WorkerRecord where
  workerId := request.workerId
  status := .online
  enabled := true
  maximumConcurrency := request.maximumConcurrency
  schedulingWeight := 100
  devices := request.devices
  deviceUsage := []
  backends := request.backends
  labels := request.labels
  heartbeatSequence := -1
  lastHeartbeatAt := some now
  updatedAt := now
  concurrency_pos := request.concurrency_pos
  weight_valid := initialWeight_valid
  devices_nodup := request.devices_nodup
  usage_nodup := List.nodup_nil
  backends_nodup := request.backends_nodup

/-- The row of a worker that registers again; it keeps its weight and `enabled`. -/
def WorkerRecord.reregister (record : WorkerRecord) (request : WorkerRegistrationRequest)
    (now : Time) : WorkerRecord :=
  { record with
    status := if record.enabled then .online else .offline
    maximumConcurrency := request.maximumConcurrency
    devices := request.devices
    deviceUsage := []
    backends := request.backends
    labels := request.labels
    heartbeatSequence := -1
    lastHeartbeatAt := some now
    updatedAt := now
    concurrency_pos := request.concurrency_pos
    devices_nodup := request.devices_nodup
    usage_nodup := List.nodup_nil
    backends_nodup := request.backends_nodup }

def Db.insertWorker (db : Db) (worker : WorkerRecord)
    (hnew : db.worker? worker.workerId = none) : Db :=
  { db with
    workers := db.workers ++ [worker]
    workers_nodup := by
      have hnot : ∀ other ∈ db.workers, other.workerId ≠ worker.workerId := by
        simpa [Db.worker?] using hnew
      rw [List.map_append, List.map_singleton, List.nodup_append']
      refine ⟨db.workers_nodup, List.nodup_singleton _, ?_⟩
      simpa using fun other hother heq => hnot other hother heq }

/-- `WorkerRepository.register`. -/
def registerWorker (db : Db) (request : WorkerRegistrationRequest) (now : Time) :
    Db × WorkerRecord :=
  match hfind : db.worker? (newWorker request now).workerId with
  | none =>
      let record := newWorker request now
      ((db.insertWorker record hfind).publishAll now
        (workerStatusChange record.workerId none record.status), record)
  | some previous =>
      let record := previous.reregister request now
      ((db.saveWorker record).publishAll now
        (workerStatusChange record.workerId (some previous.status) record.status), record)

/-! ## Heartbeats -/

/-- What an accepted heartbeat writes. -/
def WorkerRecord.beat (record : WorkerRecord) (request : WorkerHeartbeatRequest) (now : Time) :
    WorkerRecord :=
  { record with
    status := if record.enabled then request.status else .offline
    heartbeatSequence := request.sequence
    resources := some request.resources
    deviceUsage := request.devices
    lastHeartbeatAt := some now
    updatedAt := now
    usage_nodup := request.devices_nodup }

/-- `WorkerRepository.heartbeat`. -/
def heartbeatWorker (db : Db) (request : WorkerHeartbeatRequest) (now : Time) :
    Except HeartbeatError (Db × Option WorkerRecord) :=
  match db.worker? request.workerId with
  | none => .ok (db, none)
  | some record =>
      if (request.sequence : Int) ≤ record.heartbeatSequence then .error .staleHeartbeat
      else if ∃ usage ∈ request.devices, usage.deviceId ∉ record.devices.map (·.deviceId) then
        .error .unknownHeartbeatDevice
      else
        let current := record.beat request now
        .ok ((db.saveWorker current).publishAll now
          (workerStatusChange record.workerId (some record.status) current.status), some current)

/-- The answer of `heartbeat_worker`. -/
def heartbeatData (heartbeatIntervalSeconds : Nat) (record : WorkerRecord) :
    WorkerHeartbeatData where
  accepted := record.enabled
  nextHeartbeatSeconds := heartbeatIntervalSeconds
  shouldDrain := record.status = .draining

/-! ## Management -/

/-- The status after the `enabled` part of an update. -/
def statusAfterEnabled (status : WorkerStatus) : Option Bool → WorkerStatus
  | none => status
  | some false => .offline
  | some true => if status = .offline then .online else status

/-- The status after the `draining` part of an update. -/
def statusAfterDraining (enabled : Bool) (status : WorkerStatus) : Option Bool → WorkerStatus
  | none => status
  | some true => .draining
  | some false => if enabled ∧ status = .draining then .online else status

/-- What an update writes. -/
def WorkerRecord.update (record : WorkerRecord) (update : UpdateWorkerRequest) (now : Time) :
    WorkerRecord :=
  { record with
    enabled := update.enabled.getD record.enabled
    status := statusAfterDraining (update.enabled.getD record.enabled)
      (statusAfterEnabled record.status update.enabled) update.draining
    maximumConcurrency := update.maximumConcurrency.getD record.maximumConcurrency
    schedulingWeight := update.schedulingWeight.getD record.schedulingWeight
    labels := update.labels.getD record.labels
    updatedAt := now
    concurrency_pos := by
      cases h : update.maximumConcurrency with
      | none => exact record.concurrency_pos
      | some n => exact update.concurrency_pos n h
    weight_valid := by
      cases h : update.schedulingWeight with
      | none => exact record.weight_valid
      | some n => exact update.weight_valid n h }

/-- `WorkerRepository.update`. -/
def updateWorker (db : Db) (workerId : String) (update : UpdateWorkerRequest) (now : Time) :
    Db × Option WorkerRecord :=
  match db.worker? workerId with
  | none => (db, none)
  | some record =>
      let current := record.update update now
      ((db.saveWorker current).publishAll now
        (workerStatusChange workerId (some record.status) current.status), some current)

/-- The request of `drain_worker_self`. -/
def drainRequest : UpdateWorkerRequest where
  draining := some true

/-! ## The offline sweep -/

/-- The `WHERE` clause of `mark_offline`. -/
def WorkerRecord.silent (record : WorkerRecord) (cutoff : Time) : Prop :=
  (record.status = .online ∨ record.status = .busy) ∧
    ∃ heartbeat ∈ record.lastHeartbeatAt, heartbeat < cutoff

instance (record : WorkerRecord) (cutoff : Time) : Decidable (record.silent cutoff) :=
  inferInstanceAs (Decidable (_ ∧ _))

/-- The rows `mark_offline` selects; the query does not order them. -/
def Db.silentWorkers (db : Db) (cutoff : Time) : List String :=
  (db.workers.filter (·.silent cutoff)).map (·.workerId)

/-- One iteration of the loop of `mark_offline`. -/
def Db.markOfflineOne (now : Time) (db : Db) (workerId : String) : Db :=
  match db.worker? workerId with
  | none => db
  | some record =>
      (db.saveWorker { record with status := .offline, updatedAt := now }).publish now
        (.workerStatusChanged workerId (some record.status) .offline)

/-- `WorkerRepository.mark_offline` on the selected rows, in the order `rows`. -/
def markOffline (db : Db) (rows : List String) (now : Time) : Db × List String :=
  (rows.foldl (Db.markOfflineOne now) db, rows)

end ParserServe
