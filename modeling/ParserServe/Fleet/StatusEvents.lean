import ParserServe.Fleet.Rows
import ParserServe.Foundation.Links
import ParserServe.Lifecycle.Progress

/-! # The status events of a worker

The worker repository publishes an event with each status it writes, and the scheduler publishes
none.  The events of a worker tell its whole history until a lease or a release writes a status
that the row did not have.
-/

namespace ParserServe

open Foundation

variable {self : StageScheduler} {heartbeatIntervalSeconds : Nat} {db db' : Db}
  {workerId : String} {record worker : WorkerRecord} {now : Time}

/-! ## The history of a worker -/

/-- The previous and the current status, when the event is about this worker. -/
def EventPayload.workerLink (workerId : String) :
    EventPayload → Option (Option WorkerStatus × WorkerStatus)
  | .workerStatusChanged id previous current =>
      if id = workerId then some (previous, current) else none
  | _ => none

/-- The status events of a worker in the order of their publication. -/
def Db.workerHistory (db : Db) (workerId : String) : List (Option WorkerStatus × WorkerStatus) :=
  (db.events.map (·.payload)).filterMap (·.workerLink workerId)

def Db.workerStatus? (db : Db) (workerId : String) : Option WorkerStatus :=
  (db.worker? workerId).map (·.status)

/-- The events tell the worker's history: the first has no previous status, each of the others
goes on from the one before it, and the last one has the status of the row. -/
structure Db.StatusesTold (db : Db) (workerId : String) : Prop where
  first : ∀ link ∈ (db.workerHistory workerId).head?, link.1 = none
  chained : (db.workerHistory workerId).IsChain fun a b => b.1 = some a.2
  last : (db.workerHistory workerId).getLast?.map (·.2) = db.workerStatus? workerId

theorem statusesTold_iff : db.StatusesTold workerId ↔
    Recorded (db.workerHistory workerId) (db.workerStatus? workerId) := by
  rw [recorded_iff]
  exact ⟨fun h => ⟨h.first, h.chained, h.last⟩, fun h => ⟨h.1, h.2.1, h.2.2⟩⟩

theorem workerHistory_publishAll (db : Db) (now : Time) (payloads : List EventPayload) :
    (db.publishAll now payloads).workerHistory workerId =
      db.workerHistory workerId ++ payloads.filterMap (·.workerLink workerId) := by
  simp [Db.workerHistory]

theorem workerHistory_of_events_eq (h : db'.events = db.events) :
    db'.workerHistory workerId = db.workerHistory workerId := by
  rw [Db.workerHistory, h, Db.workerHistory]

theorem workerStatus?_of_workers_eq (h : db'.workers = db.workers) :
    db'.workerStatus? workerId = db.workerStatus? workerId := by
  rw [Db.workerStatus?, worker?_of_workers_eq _ h, Db.workerStatus?]

theorem workerStatus?_saveWorker {updated : String} (hfind : db.worker? updated = some record)
    (hid : worker.workerId = updated) : (db.saveWorker worker).workerStatus? workerId =
      if workerId = updated then some worker.status else db.workerStatus? workerId := by
  unfold Db.workerStatus?
  split
  · next heq => rw [heq, worker?_saveWorker hfind hid, Option.map_some]
  · next hne => rw [worker?_saveWorker_of_ne fun heq => hne (heq.symm.trans hid)]

/-! ## Worker calls -/

/-- A row is written and the change published, or the row keeps its status. -/
theorem Db.StatusesTold.published {written : Db} {updated : String} {current : WorkerStatus}
    {payloads : List EventPayload} (htold : db.StatusesTold workerId)
    (hevents : written.events = db.events)
    (hrow : written.workerStatus? workerId =
      if workerId = updated then some current else db.workerStatus? workerId)
    (hpayloads : payloads = [] ∧ db.workerStatus? updated = some current ∨
      payloads = [.workerStatusChanged updated (db.workerStatus? updated) current]) :
    (written.publishAll now payloads).StatusesTold workerId := by
  rw [statusesTold_iff] at htold ⊢
  rw [workerHistory_publishAll, workerHistory_of_events_eq hevents,
    workerStatus?_of_workers_eq (publishAll_workers _ _ _), hrow]
  rcases hpayloads with ⟨rfl, hsame⟩ | rfl
  · by_cases heq : workerId = updated
    · rw [if_pos heq, ← hsame, ← heq]
      simpa using htold
    · rw [if_neg heq]
      simpa using htold
  · by_cases heq : workerId = updated
    · subst heq
      rw [if_pos rfl]
      simpa [EventPayload.workerLink] using Recorded.snoc htold
    · rw [if_neg heq]
      simpa [EventPayload.workerLink, Ne.symm heq] using htold

theorem workerStatusChange_cases (updated : String) (previous : Option WorkerStatus)
    (current : WorkerStatus) :
    workerStatusChange updated previous current = [] ∧ previous = some current ∨
      workerStatusChange updated previous current =
        [.workerStatusChanged updated previous current] := by
  unfold workerStatusChange
  split
  · next h => exact .inl ⟨rfl, h⟩
  · exact .inr rfl

/-- What the three calls on one worker do with its row. -/
theorem Db.StatusesTold.saved {updated : String} (htold : db.StatusesTold workerId)
    (hfind : db.worker? updated = some record) (hid : worker.workerId = updated) :
    ((db.saveWorker worker).publishAll now
      (workerStatusChange updated (some record.status) worker.status)).StatusesTold workerId := by
  have hprevious : db.workerStatus? updated = some record.status := by
    rw [Db.workerStatus?, hfind, Option.map_some]
  rw [← hprevious]
  refine htold.published rfl (workerStatus?_saveWorker hfind hid) ?_
  rcases workerStatusChange_cases updated (db.workerStatus? updated) worker.status with h | h
  · exact .inl h
  · exact .inr h

theorem Db.StatusesTold.register {request : WorkerRegistrationRequest}
    (htold : db.StatusesTold workerId) :
    (registerWorker db request now).1.StatusesTold workerId := by
  unfold registerWorker
  split
  · next hnew =>
      have hnone : db.workerStatus? request.workerId = none := by
        rw [Db.workerStatus?, show db.worker? request.workerId = none from hnew, Option.map_none]
      refine htold.published rfl ?_ (.inr (by rw [hnone]; rfl))
      simp only [Db.workerStatus?, Db.worker?, Db.insertWorker, List.find?_append]
      by_cases heq : workerId = request.workerId
      · have hfind : db.workers.find? (·.workerId = workerId) = none := heq ▸ hnew
        rw [hfind]
        simp [heq, newWorker]
      · simp [newWorker, Ne.symm heq, heq]
  · next previous hfind =>
      have hid : previous.workerId = request.workerId := workerId_of_worker? hfind
      have hsame : db.worker? previous.workerId = some previous := hid.symm ▸ hfind
      exact htold.saved hsame rfl

theorem Db.StatusesTold.markOfflineOne (htold : db.StatusesTold workerId) (updated : String) :
    (db.markOfflineOne now updated).StatusesTold workerId := by
  unfold Db.markOfflineOne
  split
  · exact htold
  · next previous hfind =>
      have hid := workerId_of_worker? hfind
      have hprevious : db.workerStatus? previous.workerId = some previous.status := by
        rw [hid, Db.workerStatus?, hfind, Option.map_some]
      have hsame : db.worker? previous.workerId = some previous := hid.symm ▸ hfind
      show ((db.saveWorker _).publishAll now [_]).StatusesTold workerId
      refine htold.published rfl (workerStatus?_saveWorker hsame rfl) (.inr ?_)
      rw [hprevious, hid]

/-- The calls of the worker repository tell every status they write. -/
theorem Db.StatusesTold.exec {call : WorkerCall} {response : WorkerResponse}
    (htold : db.StatusesTold workerId)
    (h : call.exec heartbeatIntervalSeconds db = .ok (db', response)) :
    db'.StatusesTold workerId := by
  cases call with
  | register request now =>
      cases h
      exact htold.register
  | heartbeat request now =>
      simp only [WorkerCall.exec, bind_eq_ok] at h
      obtain ⟨⟨db₁, answer⟩, hheartbeat, h⟩ := h
      cases h
      unfold heartbeatWorker at hheartbeat
      split at hheartbeat
      · cases hheartbeat
        exact htold
      · next previous hfind =>
          split at hheartbeat
          · cases hheartbeat
          · split at hheartbeat
            · cases hheartbeat
            · cases hheartbeat
              have hid := workerId_of_worker? hfind
              exact htold.saved (hid.symm ▸ hfind) rfl
  | update updated change now =>
      cases h
      split
      · exact htold
      · next previous hfind =>
          have hid : previous.workerId = updated := workerId_of_worker? hfind
          exact htold.saved hfind hid
  | markOffline rows cutoff now =>
      cases h
      induction rows generalizing db with
      | nil => exact htold
      | cons updated rest ih => exact ih (htold.markOfflineOne updated)

/-! ## Calls on stages -/

theorem workerLink_statusChange (taskId : String) (previous current : TaskStatus) :
    (statusChange taskId previous current).filterMap (·.workerLink workerId) = [] := by
  unfold statusChange
  split <;> rfl

theorem DbChange.workerHistory {manual : Prop} {granted : Option LeaseGrant}
    (h : DbChange manual now db granted db') :
    db'.workerHistory workerId = db.workerHistory workerId := by
  cases h with
  | untouched _ hevents => exact workerHistory_of_events_eq hevents
  | created => simp [Db.workerHistory, Db.publish, EventPayload.workerLink]
  | routed _ _ hrouted =>
      rw [workerHistory_publishAll, workerHistory_of_events_eq (Db.saveTask_events _ _)]
      obtain ⟨_, _, _, _, _, _, rfl⟩ := hrouted.plan
      simp [EventPayload.workerLink]
  | moved _ hmove =>
      rw [workerHistory_publishAll, workerHistory_of_events_eq (Db.saveTask_events _ _)]
      cases hmove with
      | leased | started | ended | cancelled | retried =>
          rw [workerLink_statusChange, List.append_nil]
      | renewed => simp
      | progressed => simp [EventPayload.workerLink]

/-- The calls on stages publish no event of a worker. -/
theorem exec_workerHistory (workerId : String) {operation : Operation} {response : Response}
    (hkeys : db.KeysNodup)
    (hanswerable : operation.Answerable db)
    (h : operation.exec self db = .ok (db', response)) :
    db'.workerHistory workerId = db.workerHistory workerId :=
  (exec_changes hkeys hanswerable h).keeps
    (I := fun later => later.workerHistory workerId = db.workerHistory workerId)
    (fun _ _ _ hhistory hchange => hchange.workerHistory.trans hhistory) rfl

/-! ## Steps -/

/-- The fleet from an empty worker table, where a change of the catalogue publishes nothing. -/
def quietFleet (self : StageScheduler) (heartbeatIntervalSeconds : Nat) :
    System Db FleetLabel where
  Initial db := (fleet self heartbeatIntervalSeconds).Initial db ∧ db.workers = []
  Step db label db' := (fleet self heartbeatIntervalSeconds).Step db label db' ∧
    (label = .stage .administered → db'.events = db.events)

/-- A call on stages writes no status that the worker does not have: no lease fills the worker
while it is `ONLINE`, and no completion or requeue takes its last stage while it is `BUSY`. -/
def WritesNoStatus (self : StageScheduler) (workerId : String) (db : Db) : FleetLabel → Prop
  | .stage (.returned operation response) => ∀ record, db.worker? workerId = some record →
      ∀ db', operation.exec self db = .ok (db', response) →
        ∀ status ∈ operation.writtenStatus db db' record response, status = record.status
  | _ => True

theorem status_written (written : Option WorkerStatus) :
    (record.written now written).status = written.getD record.status := by
  cases written <;> rfl

theorem exec_told_iff {operation : Operation} {response : Response} (hkeys : db.KeysNodup)
    (hanswerable : operation.Answerable db)
    (h : operation.exec self db = .ok (db', response)) (htold : db.StatusesTold workerId) :
    WritesNoStatus self workerId db (.stage (.returned operation response)) ↔
      db'.StatusesTold workerId := by
  have hhistory := exec_workerHistory workerId hkeys hanswerable h
  rw [statusesTold_iff] at htold ⊢
  rw [hhistory]
  cases hfind : db.worker? workerId with
  | none =>
      have hnone : db'.worker? workerId = none := by
        rw [worker?_eq_none, exec_workerIds h, ← worker?_eq_none, hfind]
      rw [Db.workerStatus?, hfind] at htold
      rw [Db.workerStatus?, hnone]
      refine iff_of_true ?_ htold
      rintro record hrecord
      rw [hfind] at hrecord
      cases hrecord
  | some record =>
      have hrow := exec_worker h hfind
      rw [Db.workerStatus?, hfind] at htold
      rw [Db.workerStatus?, hrow, Option.map_some, status_written]
      constructor
      · intro hwrites
        have hstatus := hwrites record hfind db' h
        cases hwritten : operation.writtenStatus db db' record response with
        | none => exact htold
        | some status =>
            obtain rfl : status = record.status := hstatus status hwritten
            exact htold
      · intro htold' found hfound later hlater status hstatus
        rw [hfind] at hfound
        cases hfound
        rw [h] at hlater
        cases hlater
        rw [Option.mem_def.mp hstatus] at htold'
        exact Option.some.inj (htold'.unique htold)

/-- A step keeps the history exactly when it writes no status in silence. -/
theorem FleetStep.told_iff {label : FleetLabel} (hkeys : db.KeysNodup)
    (htold : db.StatusesTold workerId)
    (h : (quietFleet self heartbeatIntervalSeconds).Step db label db') :
    WritesNoStatus self workerId db label ↔ db'.StatusesTold workerId := by
  obtain ⟨hstep, hquiet⟩ := h
  have hsame : db'.workers = db.workers → db'.events = db.events →
      db'.StatusesTold workerId := by
    intro hworkers hevents
    rw [statusesTold_iff] at htold ⊢
    rwa [workerHistory_of_events_eq hevents, workerStatus?_of_workers_eq hworkers]
  cases hstep with
  | stage hstep hworkers =>
      cases hstep with
      | returned hanswerable hexec => exact exec_told_iff hkeys hanswerable hexec htold
      | raised => exact iff_of_true trivial htold
      | administered => exact iff_of_true trivial (hsame (hworkers rfl) (hquiet rfl))
      | reordered => exact iff_of_true trivial (hsame rfl rfl)
  | returned _ hexec => exact iff_of_true trivial (htold.exec hexec)
  | refused => exact iff_of_true trivial htold

/-! ## Runs -/

theorem fleet_step_keysNodup {label : FleetLabel} (hkeys : db.KeysNodup)
    (h : (fleet self heartbeatIntervalSeconds).Step db label db') : db'.KeysNodup :=
  run_keysNodup (fleet_run_control (.single h)) hkeys

/-- The events of a worker tell its history in every state of a run exactly when no call of the
run writes a status in silence. -/
theorem status_events_complete_iff {labels : List FleetLabel} (workerId : String)
    (hinit : (quietFleet self heartbeatIntervalSeconds).Initial db) :
    ((quietFleet self heartbeatIntervalSeconds).through (·.StatusesTold workerId)).Run db labels
        db' ↔
      ((quietFleet self heartbeatIntervalSeconds).restrict (WritesNoStatus self workerId)).Run db
        labels db' := by
  have hcontrol : (controlPlane self).Initial db := hinit.1
  have hstart : db.StatusesTold workerId := by
    have hevents : db.events = [] := hcontrol.2
    rw [statusesTold_iff]
    simpa [Db.workerHistory, hevents, Db.workerStatus?, Db.worker?, hinit.2] using Recorded.nil
  exact (System.restrict_run_iff_through (I := Db.KeysNodup)
    (fun _ _ _ hkeys hstep => fleet_step_keysNodup hkeys (And.left hstep))
    (fun _ _ _ hkeys htold hstep => FleetStep.told_iff hkeys htold hstep)
    (initial_keysNodup hcontrol) hstart).symm

/-! ## A worker that registers -/

theorem quietFleet_take_step (db : Db) (move : FleetMove) :
    (quietFleet self heartbeatIntervalSeconds).Step db
      (move.take self heartbeatIntervalSeconds db).1
      (move.take self heartbeatIntervalSeconds db).2 := by
  refine ⟨move.take_step self heartbeatIntervalSeconds db, fun hlabel => ?_⟩
  cases move with
  | call operation =>
      simp only [FleetMove.take] at hlabel ⊢
      split at hlabel
      · split at hlabel <;> cases hlabel
      · next hnot => rw [if_neg hnot]
  | worker call =>
      simp only [FleetMove.take] at hlabel ⊢
      split at hlabel
      · split at hlabel <;> cases hlabel
      · next hnot => rw [if_neg hnot]

def emptyFleet : Db where
  tasks := []
  workers := []
  backends := sampleDb.backends
  pipelines := sampleDb.pipelines
  events := []
  uploads := []
  artifacts := []
  deliveries := []
  attempts := []
  eventIdFactory := sampleDb.eventIdFactory
  published := 0
  workers_nodup := List.nodup_nil
  backends_nodup := sampleDb.backends_nodup
  deliveries_nodup := List.nodup_nil

def sampleRegistration : WorkerRegistrationRequest where
  workerId := "worker"
  devices := sampleWorker.devices
  backends := sampleWorker.backends
  maximumConcurrency := 2
  devices_nodup := sampleWorker.devices_nodup
  backends_nodup := sampleWorker.backends_nodup
  concurrency_pos := Nat.le_succ 1

def sampleHeartbeat (sequence : Nat) (status : WorkerStatus) : WorkerHeartbeatRequest where
  workerId := "worker"
  sequence := sequence
  status := status
  resources := { cpuPercent := 0, runningTasks := 0, leasedTasks := 0, healthChecks := [] }
  devices := []
  devices_nodup := List.nodup_nil
  health_valid := by simp

/-- The worker registers and a task is routed. -/
def registeredMoves : List FleetMove :=
  [.worker (.register sampleRegistration 0),
    .call (.create { source := .url "https://host/report.pdf", options := default } none false
      "task" (.ok (some sampleMetadata)) 0),
    .call (.route "task" false sampleStageIds 1)]

/-- It reports that it is busy before a lease fills it, and that it is online before its last stage
ends. -/
def workedMoves : List FleetMove :=
  registeredMoves ++
    [.worker (.heartbeat (sampleHeartbeat 0 .busy) 2),
      .call (.lease { workerId := "worker", availableSlots := 12 }
        ["stage-layout", "stage-tables", "stage-merge"]
        (fun n => if n = 0 then "token-layout" else "token-tables") 3),
      .call (.start "stage-layout" "worker" "token-layout" 4),
      .call (.start "stage-tables" "worker" "token-tables" 4),
      .call (.complete "stage-layout" (sampleCompletion "token-layout" "s3://layout") 5),
      .worker (.heartbeat (sampleHeartbeat 1 .online) 6),
      .call (.complete "stage-tables" (sampleCompletion "token-tables" "s3://tables") 7)]

/-- It leases the two stages it has room for. -/
def filledMoves : List FleetMove :=
  registeredMoves ++
    [.call (.lease { workerId := "worker", availableSlots := 8 }
      ["stage-layout", "stage-tables", "stage-merge"]
      (fun n => if n = 0 then "token-layout" else "token-tables") 2)]

def fleetAfter (moves : List FleetMove) : List FleetLabel × Db :=
  System.script (FleetMove.take sampleScheduler 10) emptyFleet moves

theorem emptyFleet_initial : (quietFleet sampleScheduler 10).Initial emptyFleet :=
  ⟨⟨rfl, rfl⟩, rfl⟩

theorem fleetAfter_run (moves : List FleetMove) : (quietFleet sampleScheduler 10).Run emptyFleet
    (fleetAfter moves).1 (fleetAfter moves).2 :=
  System.script_run quietFleet_take_step emptyFleet moves

/-- What decides `WritesNoStatus` from what the call returns in the state. -/
def FleetLabel.writesNoStatus (self : StageScheduler) (workerId : String) (db : Db) :
    FleetLabel → Bool
  | .stage (.returned operation _) =>
      match db.worker? workerId, operation.exec self db with
      | some record, .ok (db', response) =>
          (operation.writtenStatus db db' record response).all (· == record.status)
      | _, _ => true
  | _ => true

theorem writesNoStatus_of_eq_true {label : FleetLabel}
    (h : label.writesNoStatus self workerId db = true) : WritesNoStatus self workerId db label := by
  unfold WritesNoStatus
  split
  · next operation response =>
      intro record hrecord db' hexec status hstatus
      simp only [FleetLabel.writesNoStatus, hrecord, hexec, Option.all_eq_true, beq_iff_eq] at h
      exact h status hstatus
  · trivial

/-- A worker that takes two stages, works them off and reports in time. -/
theorem status_events_complete_registered :
    ((quietFleet sampleScheduler 10).through (·.StatusesTold "worker")).Run emptyFleet
      (fleetAfter workedMoves).1 (fleetAfter workedMoves).2 := by
  have hkeeps : System.ScriptKeeps (FleetMove.take sampleScheduler 10)
      (fun db label => label.writesNoStatus sampleScheduler "worker" db = true) emptyFleet
      workedMoves := by decide +kernel
  have hrun := System.script_run_restrict quietFleet_take_step hkeeps
  refine (status_events_complete_iff "worker" emptyFleet_initial).mpr (hrun.mono ?_)
  rintro db label db' ⟨hstep, hwrites⟩
  exact ⟨hstep, writesNoStatus_of_eq_true hwrites⟩

/-- The lease that fills a worker is told by no event: the last event says `ONLINE` and the row
`BUSY`, and the event of the next heartbeat has a previous status that no event has given. -/
theorem status_events_broken : ∃ labels db db' label,
    (quietFleet sampleScheduler 10).Run emptyFleet labels db ∧
      (quietFleet sampleScheduler 10).Step db label db' ∧
      db.workerHistory "worker" = [(none, .online)] ∧ db.workerStatus? "worker" = some .busy ∧
      db'.workerHistory "worker" = [(none, .online), (some .busy, .online)] ∧
      ¬ db.StatusesTold "worker" ∧ ¬ db'.StatusesTold "worker" := by
  refine ⟨_, (fleetAfter filledMoves).2, _, _, fleetAfter_run filledMoves,
    quietFleet_take_step _ (.worker (.heartbeat (sampleHeartbeat 0 .online) 3)), ?_⟩
  have hfilled : (fleetAfter filledMoves).2.workerHistory "worker" = [(none, .online)] ∧
      (fleetAfter filledMoves).2.workerStatus? "worker" = some .busy := by
    decide +kernel
  have hreported : (FleetMove.take sampleScheduler 10 (fleetAfter filledMoves).2
      (.worker (.heartbeat (sampleHeartbeat 0 .online) 3))).2.workerHistory "worker" =
        [(none, .online), (some .busy, .online)] := by
    decide +kernel
  refine ⟨hfilled.1, hfilled.2, hreported, fun htold => ?_, fun htold => ?_⟩
  · have hlast := htold.last
    rw [hfilled.1, hfilled.2] at hlast
    cases hlast
  · have hchained := htold.chained
    rw [hreported] at hchained
    cases hchained with
    | cons_cons hlink => cases hlink

end ParserServe
