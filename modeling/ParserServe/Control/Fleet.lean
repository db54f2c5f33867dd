import ParserServe.Control.Operations
import ParserServe.Persistence.Workers

/-! # The control plane with its workers

The control plane again, now with the calls of the worker repository as steps of their own.
Every step of this system is one of `controlPlane`, where all that is known of such a call is
that it writes no task.
-/

namespace ParserServe

open Foundation

inductive WorkerCall
  | register (request : WorkerRegistrationRequest) (now : Time)
  | heartbeat (request : WorkerHeartbeatRequest) (now : Time)
  | update (workerId : String) (change : UpdateWorkerRequest) (now : Time)
  | markOffline (rows : List String) (cutoff now : Time)

inductive WorkerResponse
  | registered (record : WorkerRecord)
  | heartbeat (data : Option WorkerHeartbeatData)
  | updated (record : Option WorkerRecord)
  | offline (workerIds : List String)

def WorkerCall.exec (heartbeatIntervalSeconds : Nat) (db : Db) :
    WorkerCall → Except HeartbeatError (Db × WorkerResponse)
  | .register request now =>
      let (db, record) := registerWorker db request now
      .ok (db, .registered record)
  | .heartbeat request now => do
      let (db, record) ← heartbeatWorker db request now
      .ok (db, .heartbeat (record.map (heartbeatData heartbeatIntervalSeconds)))
  | .update workerId change now =>
      let (db, record) := updateWorker db workerId change now
      .ok (db, .updated record)
  | .markOffline rows _ now =>
      let (db, workerIds) := ParserServe.markOffline db rows now
      .ok (db, .offline workerIds)

/-- The rows handed to a sweep are those the database may answer with. -/
def WorkerCall.Answerable (db : Db) : WorkerCall → Prop
  | .markOffline rows cutoff _ => rows.Perm (db.silentWorkers cutoff)
  | _ => True

inductive FleetLabel
  | stage (label : Label)
  | returned (call : WorkerCall) (response : WorkerResponse)
  | refused (call : WorkerCall) (error : HeartbeatError)

/-- A step of the control plane that leaves the workers to their own calls, or such a call. -/
inductive FleetStep (self : StageScheduler) (heartbeatIntervalSeconds : Nat) :
    Db → FleetLabel → Db → Prop
  | stage {db db' : Db} {label : Label} : ControlStep self db label db' →
      (label = .administered → db'.workers = db.workers) →
        FleetStep self heartbeatIntervalSeconds db (.stage label) db'
  | returned {db db' : Db} {call : WorkerCall} {response : WorkerResponse} :
      call.Answerable db → call.exec heartbeatIntervalSeconds db = .ok (db', response) →
        FleetStep self heartbeatIntervalSeconds db (.returned call response) db'
  | refused {db : Db} {call : WorkerCall} {error : HeartbeatError} :
      call.Answerable db → call.exec heartbeatIntervalSeconds db = .error error →
        FleetStep self heartbeatIntervalSeconds db (.refused call error) db

def fleet (self : StageScheduler) (heartbeatIntervalSeconds : Nat) : System Db FleetLabel where
  Initial := (controlPlane self).Initial
  Step := FleetStep self heartbeatIntervalSeconds

/-- The status a worker service reports: `_heartbeat_loop` of `worker/service.py`. -/
def serviceStatus (healthFailed : Bool) (activeCount : Nat) : WorkerStatus :=
  if healthFailed then .unhealthy else if activeCount ≠ 0 then .busy else .online

theorem serviceStatus_ne_draining (healthFailed : Bool) (activeCount : Nat) :
    serviceStatus healthFailed activeCount ≠ .draining := by
  unfold serviceStatus
  split
  · exact nofun
  · split <;> exact nofun

/-! ## Worker calls write no task -/

variable {self : StageScheduler} {heartbeatIntervalSeconds : Nat} {db db' : Db}

theorem Administered.refl (db : Db) : Administered db db :=
  ⟨rfl, [], by simp, by simp⟩

theorem Administered.trans {db₁ db₂ db₃ : Db} (h : Administered db₁ db₂)
    (h' : Administered db₂ db₃) : Administered db₁ db₃ := by
  obtain ⟨new, hnew, hworker⟩ := h.events
  obtain ⟨new', hnew', hworker'⟩ := h'.events
  refine ⟨h'.tasks.trans h.tasks, new ++ new', by rw [hnew', hnew, List.append_assoc], ?_⟩
  intro event hevent
  rcases List.mem_append.mp hevent with hevent | hevent
  · exact hworker event hevent
  · exact hworker' event hevent

/-- A write to the worker table and a worker event. -/
theorem administered_publish {now : Time} {payload : EventPayload}
    (htasks : db'.tasks = db.tasks) (hevents : db'.events = db.events)
    (hpayload : payload.concernsWorker) : Administered db (db'.publish now payload) := by
  refine ⟨htasks, _, by rw [Db.publish, hevents], ?_⟩
  simpa using hpayload

theorem administered_publishAll {now : Time} {payloads : List EventPayload}
    (htasks : db'.tasks = db.tasks) (hevents : db'.events = db.events)
    (hpayloads : ∀ payload ∈ payloads, payload.concernsWorker) :
    Administered db (db'.publishAll now payloads) := by
  induction payloads generalizing db db' with
  | nil => exact ⟨htasks, [], by simpa [Db.publishAll] using hevents, by simp⟩
  | cons payload rest ih =>
      have hfirst : Administered db (db'.publish now payload) :=
        administered_publish htasks hevents (hpayloads payload List.mem_cons_self)
      exact hfirst.trans (ih rfl rfl fun p hp => hpayloads p (List.mem_cons_of_mem _ hp))

theorem workerStatusChange_concernsWorker (workerId : String) (previous : Option WorkerStatus)
    (current : WorkerStatus) :
    ∀ payload ∈ workerStatusChange workerId previous current, payload.concernsWorker := by
  unfold workerStatusChange
  split <;> simp [EventPayload.concernsWorker]

theorem markOfflineOne_administered (now : Time) (db : Db) (workerId : String) :
    Administered db (db.markOfflineOne now workerId) := by
  unfold Db.markOfflineOne
  split
  · exact Administered.refl db
  · exact administered_publish rfl rfl (by simp [EventPayload.concernsWorker])

theorem WorkerCall.administered {call : WorkerCall} {response : WorkerResponse}
    (h : call.exec heartbeatIntervalSeconds db = .ok (db', response)) : Administered db db' := by
  cases call with
  | register request now =>
      cases h
      split <;>
        exact administered_publishAll rfl rfl (workerStatusChange_concernsWorker _ _ _)
  | heartbeat request now =>
      simp only [WorkerCall.exec, bind_eq_ok] at h
      obtain ⟨⟨db₁, record⟩, hbeat, h⟩ := h
      cases h
      unfold heartbeatWorker at hbeat
      split at hbeat
      · cases hbeat
        exact Administered.refl db
      · split at hbeat
        · cases hbeat
        · split at hbeat
          · cases hbeat
          · cases hbeat
            exact administered_publishAll rfl rfl (workerStatusChange_concernsWorker _ _ _)
  | update workerId change now =>
      cases h
      split
      · exact Administered.refl db
      · exact administered_publishAll rfl rfl (workerStatusChange_concernsWorker _ _ _)
  | markOffline rows cutoff now =>
      cases h
      induction rows generalizing db with
      | nil => exact Administered.refl db
      | cons workerId rest ih =>
          exact (markOfflineOne_administered now db workerId).trans ih

/-- What the control plane sees of a step. -/
def FleetLabel.control : FleetLabel → Label
  | .stage label => label
  | .returned .. | .refused .. => .administered

/-- Every run of the fleet is a run of the control plane. -/
theorem fleet_run_control {labels : List FleetLabel}
    (h : (fleet self heartbeatIntervalSeconds).Run db labels db') :
    (controlPlane self).Run db (labels.map FleetLabel.control) db' := by
  induction h with
  | nil => exact .nil _
  | @snoc t u as label _ hstep ih =>
      rw [List.map_append]
      refine ih.snoc ?_
      cases hstep with
      | stage hstep _ => exact hstep
      | returned _ hexec => exact .administered (WorkerCall.administered hexec)
      | refused => exact .administered (Administered.refl t)

/-! ## Scripts -/

/-- A call with the rows in the order in which the database stores them. -/
inductive FleetMove
  | call (operation : Operation)
  | worker (call : WorkerCall)

def WorkerCall.answeredInOrder (db : Db) : WorkerCall → Bool
  | .markOffline rows cutoff _ => rows == db.silentWorkers cutoff
  | _ => true

theorem WorkerCall.answerable_of_answeredInOrder {call : WorkerCall}
    (h : call.answeredInOrder db) : call.Answerable db := by
  cases call with
  | markOffline rows cutoff now =>
      simp only [WorkerCall.answeredInOrder, beq_iff_eq] at h
      exact h ▸ List.Perm.refl _
  | register | heartbeat | update => trivial

/-- The step of a move; one that is not possible changes nothing. -/
def FleetMove.take (self : StageScheduler) (heartbeatIntervalSeconds : Nat) (db : Db) :
    FleetMove → FleetLabel × Db
  | .call operation =>
      if operation.answeredInOrder db then
        match operation.exec self db with
        | .ok (db', response) => (.stage (.returned operation response), db')
        | .error error => (.stage (.raised operation error), db)
      else (.stage .administered, db)
  | .worker request =>
      if request.answeredInOrder db then
        match request.exec heartbeatIntervalSeconds db with
        | .ok (db', response) => (.returned request response, db')
        | .error error => (.refused request error, db)
      else (.stage .administered, db)

theorem FleetMove.take_step (self : StageScheduler) (heartbeatIntervalSeconds : Nat) (db : Db)
    (move : FleetMove) : FleetStep self heartbeatIntervalSeconds db
      (move.take self heartbeatIntervalSeconds db).1
        (move.take self heartbeatIntervalSeconds db).2 := by
  have hunchanged : FleetStep self heartbeatIntervalSeconds db (.stage .administered) db :=
    .stage (.administered (Administered.refl db)) fun _ => rfl
  cases move with
  | call operation =>
      simp only [FleetMove.take]
      split
      · next hcall =>
          have hanswered := answerable_of_answeredInOrder hcall
          split
          · next hexec => exact .stage (.returned hanswered hexec) fun h => by cases h
          · next hexec => exact .stage (.raised hanswered hexec) fun h => by cases h
      · exact hunchanged
  | worker request =>
      simp only [FleetMove.take]
      split
      · next hcall =>
          have hanswered := WorkerCall.answerable_of_answeredInOrder hcall
          split
          · next hexec => exact .returned hanswered hexec
          · next hexec => exact .refused hanswered hexec
      · exact hunchanged

end ParserServe
