import ParserServe.Fleet.Rows
import ParserServe.Lifecycle.Admission

/-! # Draining a worker

A drain request is kept in the status column alone.  Leases, completions, updates of other
columns and the offline sweep leave it there, but a heartbeat writes the status the worker
reports, which is never `DRAINING`.
-/

namespace ParserServe

open Foundation

variable {self : StageScheduler} {heartbeatIntervalSeconds : Nat} {db db' : Db}
  {workerId : String} {record worker : WorkerRecord} {now : Time}

/-! ## Workers that are not offered leases -/

theorem lease_requester_ne {request : WorkerLeaseRequest} {rows : List String}
    {tokens : Nat → String} {leases : List LeasedStage}
    (h : self.lease db request rows tokens now = .ok (db', leases))
    (hfind : db.worker? workerId = some record) (hidle : record.acceptsLeases = false) :
    request.workerId ≠ workerId := by
  rintro rfl
  unfold StageScheduler.lease at h
  rw [hfind] at h
  simp only [bind_eq_ok, ensure_eq_ok] at h
  obtain ⟨_, haccepts, _⟩ := h
  rw [hidle] at haccepts
  cases haccepts

theorem not_idle_of_refusing (hidle : record.acceptsLeases = false) : ¬ record.idle db := by
  rintro ⟨henabled, hbusy, _⟩
  simp [WorkerRecord.acceptsLeases, henabled, hbusy] at hidle

/-- The calls on stages leave a worker alone that accepts no leases. -/
theorem exec_keeps_worker {operation : Operation} {response : Response}
    (h : operation.exec self db = .ok (db', response))
    (hfind : db.worker? workerId = some record) (hidle : record.acceptsLeases = false) :
    db'.worker? workerId = some record := by
  have hwritten : operation.writtenStatus db db' record response = none := by
    unfold Operation.writtenStatus
    split
    · next request rows tokens now stages =>
        simp only [Operation.exec, bind_eq_ok] at h
        obtain ⟨⟨db₁, leases⟩, hlease, _⟩ := h
        have hne := lease_requester_ne hlease hfind hidle
        exact if_neg fun hfull => hne (hfull.1.trans (workerId_of_worker? hfind))
    · exact if_neg fun hreleased => not_idle_of_refusing hidle hreleased.2.2
    · exact if_neg fun hreleased => not_idle_of_refusing hidle hreleased.2
    · rfl
  rw [exec_worker h hfind, hwritten, WorkerRecord.written]

/-! ## Worker calls -/

/-- The worker is enabled and was asked to drain. -/
def Db.Draining (db : Db) (workerId : String) : Prop :=
  ∃ record, db.worker? workerId = some record ∧ record.enabled ∧ record.status = .draining

theorem acceptsLeases_of_draining (h : record.status = .draining) :
    record.acceptsLeases = false := by
  simp [WorkerRecord.acceptsLeases, h]

/-- A drain request of an enabled worker is on record. -/
theorem draining_of_update {update : UpdateWorkerRequest}
    (h : updateWorker db workerId update now = (db', some record))
    (hdrain : update.draining = some true) (henabled : record.enabled) : db'.Draining workerId := by
  unfold updateWorker at h
  split at h
  · cases h
  · next previous hfind =>
      cases h
      refine ⟨previous.update update now, ?_, henabled, ?_⟩
      · rw [worker?_of_workers_eq _ (publishAll_workers _ _ _)]
        exact worker?_saveWorker hfind
          (show previous.workerId = workerId from workerId_of_worker? hfind)
      · simp [WorkerRecord.update, hdrain, statusAfterDraining]

theorem update_keeps_worker {updated : String} {change : UpdateWorkerRequest}
    (hne : updated ≠ workerId) (hfind : db.worker? workerId = some record) :
    (updateWorker db updated change now).1.worker? workerId = some record := by
  unfold updateWorker
  split
  · exact hfind
  · next worker hworker =>
      rw [worker?_of_workers_eq _ (publishAll_workers _ _ _), worker?_saveWorker_of_ne]
      · exact hfind
      · exact (workerId_of_worker? hworker).symm ▸ hne

/-- An update of other columns, or another drain request. -/
theorem update_keeps_draining {change : UpdateWorkerRequest} (hnone : change.enabled = none)
    (hdrain : change.draining ≠ some false) (hdb : db.Draining workerId) :
    (updateWorker db workerId change now).1.Draining workerId := by
  obtain ⟨record, hfind, henabled, hstatus⟩ := hdb
  unfold updateWorker
  rw [hfind]
  refine ⟨record.update change now, ?_, by simpa [WorkerRecord.update, hnone], ?_⟩
  · rw [worker?_of_workers_eq _ (publishAll_workers _ _ _)]
    exact worker?_saveWorker hfind
      (show record.workerId = workerId from workerId_of_worker? hfind)
  · simp only [WorkerRecord.update, hnone, statusAfterEnabled]
    cases hchange : change.draining with
    | none => exact hstatus
    | some draining =>
        cases draining with
        | true => rfl
        | false => exact absurd hchange hdrain

theorem register_keeps_worker {request : WorkerRegistrationRequest}
    (hne : request.workerId ≠ workerId) (hfind : db.worker? workerId = some record) :
    (registerWorker db request now).1.worker? workerId = some record := by
  unfold registerWorker
  split
  · rw [worker?_of_workers_eq _ (publishAll_workers _ _ _)]
    have hfirst : db.workers.find? (·.workerId = workerId) = some record := hfind
    simp only [Db.worker?, Db.insertWorker, List.find?_append, hfirst, Option.some_or]
  · next previous hprevious =>
      rw [worker?_of_workers_eq _ (publishAll_workers _ _ _), worker?_saveWorker_of_ne]
      · exact hfind
      · exact (workerId_of_worker? hprevious).symm ▸ hne

theorem heartbeat_of_none {request : WorkerHeartbeatRequest}
    (h : heartbeatWorker db request now = .ok (db', none)) : db' = db := by
  unfold heartbeatWorker at h
  split at h
  · cases h
    rfl
  · split at h
    · cases h
    · split at h <;> cases h

/-- An accepted heartbeat found its worker and wrote its report. -/
theorem beat_of_heartbeat {request : WorkerHeartbeatRequest}
    (h : heartbeatWorker db request now = .ok (db', some record)) :
    ∃ previous : WorkerRecord, previous.workerId = request.workerId ∧
      record = previous.beat request now ∧ db'.workers = (db.saveWorker record).workers := by
  unfold heartbeatWorker at h
  split at h
  · cases h
  · next previous hprevious =>
      split at h
      · cases h
      · split at h
        · cases h
        · cases h
          exact ⟨previous, workerId_of_worker? hprevious, rfl, publishAll_workers _ _ _⟩

theorem heartbeat_keeps_worker {request : WorkerHeartbeatRequest} {current : WorkerRecord}
    (h : heartbeatWorker db request now = .ok (db', some current))
    (hne : request.workerId ≠ workerId) (hfind : db.worker? workerId = some record) :
    db'.worker? workerId = some record := by
  obtain ⟨previous, hid, rfl, hworkers⟩ := beat_of_heartbeat h
  rw [worker?_of_workers_eq _ hworkers, worker?_saveWorker_of_ne]
  · exact hfind
  · exact hid.symm ▸ hne

theorem markOffline_keeps_worker {rows : List String} (hnot : workerId ∉ rows)
    (hfind : db.worker? workerId = some record) :
    (markOffline db rows now).1.worker? workerId = some record := by
  unfold markOffline
  induction rows generalizing db with
  | nil => exact hfind
  | cons other rest ih =>
      refine ih (fun h => hnot (List.mem_cons_of_mem _ h)) ?_
      unfold Db.markOfflineOne
      split
      · exact hfind
      · next worker hworker =>
          have hne : worker.workerId ≠ workerId := by
            rw [workerId_of_worker? hworker]
            exact fun heq => hnot (heq ▸ List.mem_cons_self)
          exact (worker?_saveWorker_of_ne (by exact hne)).trans hfind

/-! ## Steps of the fleet -/

/-- No registration of the worker, and no update that ends the drain or sets `enabled`; a
heartbeat carries a status that a worker service sends. -/
def FleetLabel.Undisturbed (workerId : String) : FleetLabel → Prop
  | .returned (.register request _) _ => request.workerId ≠ workerId
  | .returned (.update updated change _) _ =>
      updated = workerId → change.enabled = none ∧ change.draining ≠ some false
  | .returned (.heartbeat request _) _ => request.workerId = workerId →
      ∃ healthFailed activeCount, request.status = serviceStatus healthFailed activeCount
  | _ => True

/-- A heartbeat of the worker is accepted. -/
def FleetLabel.beats (workerId : String) : FleetLabel → Prop
  | .returned (.heartbeat request _) (.heartbeat (some _)) => request.workerId = workerId
  | _ => False

/-- The worker is granted nothing, and told to drain when it reports. -/
def FleetLabel.drains (workerId : String) : FleetLabel → Prop
  | .stage label => ∀ grant ∈ label.grants, grant.workerId ≠ workerId
  | .returned (.heartbeat request _) (.heartbeat answer) =>
      request.workerId = workerId → ∀ data ∈ answer, data.shouldDrain
  | _ => True

variable {label : FleetLabel} {labels : List FleetLabel}

/-- While the worker drains, a call on stages grants it nothing. -/
theorem exec_grants {operation : Operation} {response : Response}
    (h : operation.exec self db = .ok (db', response))
    (hfind : db.worker? workerId = some record) (hidle : record.acceptsLeases = false) :
    ∀ grant ∈ (Label.returned operation response).grants, grant.workerId ≠ workerId := by
  unfold Label.grants
  split
  · next request rows tokens now stages heq =>
      cases heq
      simp only [Operation.exec, bind_eq_ok] at h
      obtain ⟨⟨db₁, leases⟩, hlease, h⟩ := h
      cases h
      intro grant hgrant
      obtain ⟨stage, _, rfl⟩ := List.mem_map.mp hgrant
      exact lease_requester_ne hlease hfind hidle
  · simp

theorem ControlStep.keeps_worker {label : Label} (h : ControlStep self db label db')
    (hworkers : label = .administered → db'.workers = db.workers)
    (hfind : db.worker? workerId = some record) (hidle : record.acceptsLeases = false) :
    db'.worker? workerId = some record ∧ ∀ grant ∈ label.grants, grant.workerId ≠ workerId := by
  cases h with
  | returned _ hexec => exact ⟨exec_keeps_worker hexec hfind hidle, exec_grants hexec hfind hidle⟩
  | raised => exact ⟨hfind, by simp [Label.grants]⟩
  | administered =>
      exact ⟨(worker?_of_workers_eq _ (hworkers rfl)).trans hfind, by simp [Label.grants]⟩
  | reordered => exact ⟨hfind, by simp [Label.grants]⟩

/-- A worker call that is no heartbeat of the worker and leaves its drain request alone. -/
theorem WorkerCall.keeps_draining {call : WorkerCall} {response : WorkerResponse}
    (hanswerable : call.Answerable db)
    (h : call.exec heartbeatIntervalSeconds db = .ok (db', response))
    (hdb : db.Draining workerId)
    (hundisturbed : (FleetLabel.returned call response).Undisturbed workerId)
    (hbeat : ¬ (FleetLabel.returned call response).beats workerId) : db'.Draining workerId := by
  cases call with
  | register request now =>
      obtain ⟨record, hfind, hrest⟩ := hdb
      cases h
      exact ⟨record, register_keeps_worker hundisturbed hfind, hrest⟩
  | heartbeat request now =>
      simp only [WorkerCall.exec, bind_eq_ok] at h
      obtain ⟨⟨db₁, answer⟩, hheartbeat, h⟩ := h
      cases h
      cases answer with
      | none =>
          rw [heartbeat_of_none hheartbeat]
          exact hdb
      | some current =>
          obtain ⟨record, hfind, hrest⟩ := hdb
          exact ⟨record, heartbeat_keeps_worker hheartbeat hbeat hfind, hrest⟩
  | update updated change now =>
      cases h
      by_cases heq : updated = workerId
      · obtain ⟨hnone, hdrain⟩ := hundisturbed heq
        exact heq ▸ update_keeps_draining hnone hdrain (heq.symm ▸ hdb)
      · obtain ⟨record, hfind, hrest⟩ := hdb
        exact ⟨record, update_keeps_worker heq hfind, hrest⟩
  | markOffline rows cutoff now =>
      obtain ⟨record, hfind, henabled, hstatus⟩ := hdb
      cases h
      refine ⟨record, markOffline_keeps_worker ?_ hfind, henabled, hstatus⟩
      have hrows : rows.Perm (db.silentWorkers cutoff) := hanswerable
      intro hmem
      obtain ⟨worker, hworker, hid⟩ := List.mem_map.mp (hrows.mem_iff.mp hmem)
      obtain ⟨hstored, hsilent⟩ := List.mem_filter.mp hworker
      have hsame : worker = record := List.inj_on_of_nodup_map db.workers_nodup hstored
        (List.mem_of_find?_eq_some hfind) (hid.trans (workerId_of_worker? hfind).symm)
      simp [hsame, WorkerRecord.silent, hstatus] at hsilent

theorem FleetStep.drains (h : FleetStep self heartbeatIntervalSeconds db label db')
    (hdb : db.Draining workerId) (hundisturbed : label.Undisturbed workerId)
    (hbeat : ¬ label.beats workerId) : db'.Draining workerId ∧ label.drains workerId := by
  cases h with
  | stage hstep hworkers =>
      obtain ⟨record, hfind, henabled, hstatus⟩ := hdb
      obtain ⟨hkept, hgrants⟩ :=
        hstep.keeps_worker hworkers hfind (acceptsLeases_of_draining hstatus)
      exact ⟨⟨record, hkept, henabled, hstatus⟩, hgrants⟩
  | returned hanswerable hexec =>
      refine ⟨WorkerCall.keeps_draining hanswerable hexec hdb hundisturbed hbeat, ?_⟩
      unfold FleetLabel.drains
      split
      · next heq => cases heq
      · next request now answer heq =>
          cases heq
          intro hid data hdata
          cases hdata
          exact absurd hid hbeat
      · trivial
  | refused => exact ⟨hdb, trivial⟩

theorem run_drains (h : (fleet self heartbeatIntervalSeconds).Run db labels db')
    (hdb : db.Draining workerId) (hundisturbed : ∀ label ∈ labels, label.Undisturbed workerId)
    (hbeat : ∀ label ∈ labels, ¬ label.beats workerId) :
    db'.Draining workerId ∧ ∀ label ∈ labels, label.drains workerId := by
  induction h with
  | nil => exact ⟨hdb, by simp⟩
  | @snoc t u as label _ hstep ih =>
      simp only [List.forall_mem_append, List.forall_mem_singleton] at hundisturbed hbeat ⊢
      obtain ⟨hmiddle, hbefore⟩ := ih hundisturbed.1 hbeat.1
      obtain ⟨hlast, hdrains⟩ := FleetStep.drains hstep hmiddle hundisturbed.2 hbeat.2
      exact ⟨hlast, hbefore, hdrains⟩

/-- A worker service is never told to drain. -/
theorem FleetStep.not_drains_of_beats (h : FleetStep self heartbeatIntervalSeconds db label db')
    (hundisturbed : label.Undisturbed workerId) (hbeat : label.beats workerId) :
    ¬ label.drains workerId := by
  unfold FleetLabel.beats at hbeat
  split at hbeat
  · next request now data =>
      cases h with
      | returned _ hexec =>
          simp only [WorkerCall.exec, bind_eq_ok] at hexec
          obtain ⟨⟨db₁, answer⟩, hheartbeat, hexec⟩ := hexec
          cases answer with
          | none => cases hexec
          | some current =>
              obtain ⟨healthFailed, activeCount, hsent⟩ := hundisturbed hbeat
              cases hexec
              intro hdrains
              have htold := hdrains hbeat _ rfl
              simp only [heartbeatData, decide_eq_true_eq] at htold
              obtain ⟨previous, _, rfl, _⟩ := beat_of_heartbeat hheartbeat
              unfold WorkerRecord.beat at htold
              dsimp only at htold
              split at htold
              · rw [hsent] at htold
                exact serviceStatus_ne_draining _ _ htold
              · cases htold
  · exact hbeat.elim

/-! ## Results -/

/-- After a drain request of an enabled worker, the worker is granted nothing and told to drain
at each heartbeat exactly when no heartbeat of it is accepted. -/
theorem drain_sticky_iff {update : UpdateWorkerRequest} {db₀ : Db}
    (hupdate : updateWorker db₀ workerId update now = (db, some record))
    (hdrain : update.draining = some true) (henabled : record.enabled)
    (hrun : (fleet self heartbeatIntervalSeconds).Run db labels db')
    (hundisturbed : ∀ label ∈ labels, label.Undisturbed workerId) :
    (∀ label ∈ labels, label.drains workerId) ↔ ∀ label ∈ labels, ¬ label.beats workerId := by
  constructor
  · intro hdrains label hlabel hbeat
    obtain ⟨s, t, hstep⟩ := hrun.exists_step hlabel
    exact FleetStep.not_drains_of_beats hstep (hundisturbed label hlabel) hbeat
      (hdrains label hlabel)
  · intro hbeat
    exact (run_drains hrun (draining_of_update hupdate hdrain henabled) hundisturbed hbeat).2

/-! ## The sample worker drains -/

/-- The worker of the sample deployment was asked to drain before it leased anything. -/
def drainedDb : Db := (updateWorker routedDb "worker" drainRequest 2).1

theorem drainedDb_update :
    updateWorker routedDb "worker" drainRequest 2 =
      (drainedDb, some (sampleWorker.update drainRequest 2)) := by
  have hfind : routedDb.worker? "worker" = some sampleWorker := by decide +kernel
  simp [drainedDb, updateWorker, hfind]

def drainedLease : Operation :=
  .lease { workerId := "worker", availableSlots := 4 }
    ["stage-layout", "stage-tables", "stage-merge"] (fun _ => "token-drained") 4

/-- Without a heartbeat the worker is refused. -/
theorem drain_sticky_refused :
    (fleet sampleScheduler 10).Run drainedDb [.stage (.raised drainedLease .workerUnavailable)]
      drainedDb ∧
    ∀ label ∈ [FleetLabel.stage (.raised drainedLease .workerUnavailable)],
      label.drains "worker" := by
  have hanswered : drainedLease.answeredInOrder drainedDb := by decide +kernel
  have hrefused : drainedLease.exec sampleScheduler drainedDb = .error .workerUnavailable := by
    rfl
  have hrun : (fleet sampleScheduler 10).Run drainedDb
      [.stage (.raised drainedLease .workerUnavailable)] drainedDb :=
    .single (.stage (.raised (answerable_of_answeredInOrder hanswered) hrefused)
      (fun h => by cases h))
  refine ⟨hrun, (drain_sticky_iff drainedDb_update rfl rfl hrun ?_).mpr ?_⟩
  · simp [FleetLabel.Undisturbed]
  · simp [FleetLabel.beats]

def idleHeartbeat : WorkerHeartbeatRequest where
  workerId := "worker"
  sequence := 0
  status := .online
  resources := { cpuPercent := 0, runningTasks := 0, leasedTasks := 0 }
  devices := []
  devices_nodup := List.nodup_nil
  health_valid := by simp

/-- The worker reports once more and then asks for a lease. -/
def reportingLabels (answer : WorkerHeartbeatData) (leases : List LeasedStage) :
    List FleetLabel :=
  [.returned (.heartbeat idleHeartbeat 3) (.heartbeat (some answer)),
    .stage (.returned drainedLease (.leases leases))]

/-- The heartbeat puts the worker online again: it is not told to drain, and it is granted a
lease. -/
theorem drain_overwritten : ∃ answer leases db',
    (fleet sampleScheduler 10).Run drainedDb (reportingLabels answer leases) db' ∧
      (∀ label ∈ reportingLabels answer leases, label.Undisturbed "worker") ∧
      answer.shouldDrain = false ∧
      ∃ grant ∈ (Label.returned drainedLease (.leases leases)).grants,
        grant.workerId = "worker" := by
  have hsteps : ∃ beaten, heartbeatWorker drainedDb idleHeartbeat 3 = .ok beaten ∧
      (∃ record ∈ beaten.2, (heartbeatData 10 record).shouldDrain = false) ∧
      drainedLease.answeredInOrder beaten.1 ∧
      ∃ leased, sampleScheduler.lease beaten.1 { workerId := "worker", availableSlots := 4 }
        ["stage-layout", "stage-tables", "stage-merge"] (fun _ => "token-drained") 4 =
          .ok leased ∧ leased.2 ≠ [] := by
    decide +kernel
  obtain ⟨⟨db₁, answer⟩, hbeat, ⟨record, hrecord, htold⟩, hanswered, ⟨db₂, leases⟩, hlease,
    hleases⟩ := hsteps
  cases hrecord
  have hanswerable : (WorkerCall.heartbeat idleHeartbeat 3).Answerable drainedDb := trivial
  have hheartbeat : (WorkerCall.heartbeat idleHeartbeat 3).exec 10 drainedDb =
      .ok (db₁, .heartbeat (some (heartbeatData 10 record))) := by
    simp only [WorkerCall.exec, hbeat]
    rfl
  have hgranted : drainedLease.exec sampleScheduler db₁ = .ok (db₂, .leases leases) := by
    simp only [drainedLease, Operation.exec, hlease]
    rfl
  have hrun : (fleet sampleScheduler 10).Run drainedDb
      (reportingLabels (heartbeatData 10 record) leases) db₂ :=
    (System.Run.single (FleetStep.returned hanswerable hheartbeat)).snoc
      (FleetStep.stage (.returned (answerable_of_answeredInOrder hanswered) hgranted)
        (fun h => by cases h))
  obtain ⟨lease, hmem⟩ := List.exists_mem_of_ne_nil _ hleases
  have hgrant : ⟨lease.stageId, "worker", lease.leaseToken⟩ ∈
      (Label.returned drainedLease (.leases leases)).grants := List.mem_map_of_mem hmem
  refine ⟨_, leases, db₂, hrun, ?_, htold, _, hgrant, rfl⟩
  simp only [reportingLabels, List.forall_mem_cons]
  refine ⟨fun _ => ⟨false, 0, rfl⟩, trivial, ?_⟩
  simp

end ParserServe
