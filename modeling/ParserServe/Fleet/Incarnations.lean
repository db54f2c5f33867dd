import ParserServe.Fleet.StatusEvents
import ParserServe.Lifecycle.Drain

/-! # Incarnations of a worker

The processes that serve one worker one after the other, and the network between them and the
control plane.  A heartbeat names no incarnation: the row has one sequence number, which every
registration sets back, so a request delivered late counts as one of the process that runs.
-/

namespace ParserServe

open Foundation

variable {self : StageScheduler} {heartbeatIntervalSeconds : Nat} {db db' : Db}
  {workerId : String} {record : WorkerRecord} {now : Time}

/-! ## Processes and messages -/

/-- A request of a process of the worker. -/
inductive WorkerMessage (workerId : String)
  | register (request : WorkerRegistrationRequest) (same : request.workerId = workerId)
  | heartbeat (request : WorkerHeartbeatRequest) (same : request.workerId = workerId)

def WorkerMessage.toCall (now : Time) : WorkerMessage workerId → WorkerCall
  | .register request _ => .register request now
  | .heartbeat request _ => .heartbeat request now

/-- A `WorkerService`: what it registers, whether the registration was accepted, and the sequence
number of `_heartbeat_loop`. -/
structure WorkerProcess (workerId : String) where
  registration : WorkerRegistrationRequest
  same : registration.workerId = workerId
  registered : Bool := false
  sequence : Nat := 0

/-- The database, the process that runs with its number, and the requests that were sent and not
delivered, each with the number of its sender. -/
structure WireState (workerId : String) where
  db : Db
  incarnation : Nat
  process : Option (WorkerProcess workerId)
  inFlight : List (Nat × WorkerMessage workerId)

inductive WireLabel (workerId : String)
  | started (registration : WorkerRegistrationRequest)
  | sent (request : WorkerHeartbeatRequest)
  | delivered (incarnation : Nat) (message : WorkerMessage workerId)
      (answer : Except HeartbeatError WorkerResponse)
  | elsewhere (label : FleetLabel)

/-- The step is no registration or heartbeat of the worker. -/
def FleetLabel.concernsOthers (workerId : String) : FleetLabel → Prop
  | .returned (.register request _) _ => request.workerId ≠ workerId
  | .returned (.heartbeat request _) _ => request.workerId ≠ workerId
  | _ => True

def WorkerRegistrationRequest.deviceIds (request : WorkerRegistrationRequest) : List String :=
  request.devices.map (·.deviceId)

/-- A process is started in the place of the one before, which may have died at any point. -/
def WireState.start (s : WireState workerId) (process : WorkerProcess workerId) :
    WireState workerId :=
  { s with
    incarnation := s.incarnation + 1
    process := some process
    inFlight := s.inFlight ++
      [(s.incarnation + 1, .register process.registration process.same)] }

/-- The process sends its next heartbeat. -/
def WireState.send (s : WireState workerId) (process : WorkerProcess workerId)
    (request : WorkerHeartbeatRequest) (same : request.workerId = workerId) :
    WireState workerId :=
  { s with
    process := some { process with sequence := process.sequence + 1 }
    inFlight := s.inFlight ++ [(s.incarnation, .heartbeat request same)] }

/-- The answer to a registration of the process that runs. -/
def WireState.answered (s : WireState workerId) (incarnation : Nat) :
    WorkerResponse → Option (WorkerProcess workerId)
  | .registered record =>
      if incarnation = s.incarnation then
        s.process.map fun process => { process with registered := record.enabled }
      else s.process
  | _ => s.process

/-- `_heartbeat_loop` reports only devices that the process registered.  The loop awaits the
answer to a heartbeat before it sends the next one; here it may also go on without. -/
inductive WireStep (self : StageScheduler) (heartbeatIntervalSeconds : Nat) :
    WireState workerId → WireLabel workerId → WireState workerId → Prop
  | started {s : WireState workerId} {process : WorkerProcess workerId} :
      process.registered = false → process.sequence = 0 →
        WireStep self heartbeatIntervalSeconds s (.started process.registration) (s.start process)
  | sent {s : WireState workerId} {process : WorkerProcess workerId}
      {request : WorkerHeartbeatRequest} (same : request.workerId = workerId) :
      s.process = some process → process.registered → request.sequence = process.sequence →
      (∀ usage ∈ request.devices, usage.deviceId ∈ process.registration.deviceIds) →
        WireStep self heartbeatIntervalSeconds s (.sent request) (s.send process request same)
  | delivered {s : WireState workerId} {db : Db} {k incarnation : Nat}
      {message : WorkerMessage workerId} {now : Time} {response : WorkerResponse} :
      s.inFlight[k]? = some (incarnation, message) →
      (message.toCall now).exec heartbeatIntervalSeconds s.db = .ok (db, response) →
        WireStep self heartbeatIntervalSeconds s (.delivered incarnation message (.ok response))
          { s with
            db := db
            process := s.answered incarnation response
            inFlight := s.inFlight.eraseIdx k }
  | refused {s : WireState workerId} {k incarnation : Nat} {message : WorkerMessage workerId}
      {now : Time} {error : HeartbeatError} :
      s.inFlight[k]? = some (incarnation, message) →
      (message.toCall now).exec heartbeatIntervalSeconds s.db = .error error →
        WireStep self heartbeatIntervalSeconds s (.delivered incarnation message (.error error))
          { s with inFlight := s.inFlight.eraseIdx k }
  | elsewhere {s : WireState workerId} {db : Db} {label : FleetLabel} :
      FleetStep self heartbeatIntervalSeconds s.db label db → label.concernsOthers workerId →
        WireStep self heartbeatIntervalSeconds s (.elsewhere label) { s with db := db }

/-- The processes of a worker on a database without tasks, with nothing in flight. -/
def wire (self : StageScheduler) (heartbeatIntervalSeconds : Nat) (workerId : String) :
    System (WireState workerId) (WireLabel workerId) where
  Initial s := (controlPlane self).Initial s.db ∧ s.process = none ∧ s.inFlight = []
  Step := WireStep self heartbeatIntervalSeconds

/-! ## What a heartbeat is compared with -/

/-- The row declares these devices and has this sequence number. -/
def Db.Registered (db : Db) (workerId : String) (declared : List String) (reached : Int) : Prop :=
  ∃ record, db.worker? workerId = some record ∧ record.devices.map (·.deviceId) = declared ∧
    record.heartbeatSequence = reached

/-- The heartbeat is newer than the sequence number and names declared devices only. -/
def WorkerHeartbeatRequest.Fresh (request : WorkerHeartbeatRequest) (declared : List String)
    (reached : Int) : Prop :=
  reached < request.sequence ∧ ∀ usage ∈ request.devices, usage.deviceId ∈ declared

instance (request : WorkerHeartbeatRequest) (declared : List String) (reached : Int) :
    Decidable (request.Fresh declared reached) := inferInstanceAs (Decidable (_ ∧ _))

variable {declared : List String} {reached : Int}

theorem register_registered (db : Db) (request : WorkerRegistrationRequest) (now : Time) :
    (registerWorker db request now).1.Registered request.workerId request.deviceIds (-1) := by
  unfold registerWorker
  split
  · next hnew =>
      refine ⟨newWorker request now, ?_, rfl, rfl⟩
      rw [worker?_of_workers_eq _ (publishAll_workers _ _ _)]
      have hfind : db.workers.find? (·.workerId = request.workerId) = none := hnew
      simp only [Db.worker?, Db.insertWorker, List.find?_append, hfind, Option.none_or]
      exact List.find?_cons_of_pos (decide_eq_true rfl)
  · next previous hfind =>
      have hid : previous.workerId = request.workerId := workerId_of_worker? hfind
      refine ⟨previous.reregister request now, ?_, rfl, rfl⟩
      rw [worker?_of_workers_eq _ (publishAll_workers _ _ _)]
      exact worker?_saveWorker hfind hid

/-- A heartbeat is accepted exactly when it is fresh, and then the row goes on to its number. -/
theorem heartbeat_registered (now : Time) {request : WorkerHeartbeatRequest}
    (hdb : db.Registered workerId declared reached) (same : request.workerId = workerId) :
    (request.Fresh declared reached ∧ ∃ db' current,
      heartbeatWorker db request now = .ok (db', some current) ∧
        db'.Registered workerId declared request.sequence) ∨
    (¬ request.Fresh declared reached ∧
      ∃ error, heartbeatWorker db request now = .error error) := by
  obtain ⟨record, hfind, rfl, rfl⟩ := hdb
  have hid := workerId_of_worker? hfind
  unfold heartbeatWorker WorkerHeartbeatRequest.Fresh
  rw [same, hfind]
  by_cases hstale : (request.sequence : Int) ≤ record.heartbeatSequence
  · right
    simp only [if_pos hstale]
    exact ⟨fun hfresh => by omega, _, rfl⟩
  · simp only [if_neg hstale]
    by_cases hunknown : ∃ usage ∈ request.devices, usage.deviceId ∉ record.devices.map (·.deviceId)
    · right
      simp only [if_pos hunknown]
      obtain ⟨usage, husage, hnot⟩ := hunknown
      exact ⟨fun hfresh => hnot (hfresh.2 usage husage), _, rfl⟩
    · left
      simp only [if_neg hunknown]
      refine ⟨⟨by omega, fun usage husage => ?_⟩, _, _, rfl, record.beat request now, ?_, rfl, rfl⟩
      · by_contra hnot
        exact hunknown ⟨usage, husage, hnot⟩
      · rw [worker?_of_workers_eq _ (publishAll_workers _ _ _)]
        exact worker?_saveWorker hfind (by exact hid)

/-! ## Other steps keep it -/

theorem Db.Registered.of_worker?_eq (hdb : db.Registered workerId declared reached)
    (h : ∀ record, db.worker? workerId = some record → db'.worker? workerId = some record) :
    db'.Registered workerId declared reached := by
  obtain ⟨record, hfind, hrest⟩ := hdb
  exact ⟨record, h record hfind, hrest⟩

theorem Db.Registered.markOfflineOne (hdb : db.Registered workerId declared reached)
    (updated : String) : (db.markOfflineOne now updated).Registered workerId declared reached := by
  unfold Db.markOfflineOne
  split
  · exact hdb
  · next worker hworker =>
      obtain ⟨record, hfind, hrest⟩ := hdb
      have hid := workerId_of_worker? hworker
      by_cases hne : updated = workerId
      · subst hne
        rw [hfind] at hworker
        cases hworker
        exact ⟨_, worker?_saveWorker hfind (by exact hid), hrest⟩
      · have hother : worker.workerId ≠ workerId := fun heq => hne (hid.symm.trans heq)
        exact ⟨record, (worker?_saveWorker_of_ne (by exact hother)).trans hfind, hrest⟩

theorem Db.Registered.exec {call : WorkerCall} {response : WorkerResponse}
    (hdb : db.Registered workerId declared reached)
    (h : call.exec heartbeatIntervalSeconds db = .ok (db', response))
    (hothers : (FleetLabel.returned call response).concernsOthers workerId) :
    db'.Registered workerId declared reached := by
  cases call with
  | register request now =>
      cases h
      exact hdb.of_worker?_eq fun _ => register_keeps_worker hothers
  | heartbeat request now =>
      simp only [WorkerCall.exec, bind_eq_ok] at h
      obtain ⟨⟨db₁, answer⟩, hheartbeat, h⟩ := h
      cases h
      cases answer with
      | none => rwa [heartbeat_of_none hheartbeat]
      | some current =>
          exact hdb.of_worker?_eq fun _ => heartbeat_keeps_worker hheartbeat hothers
  | update updated change now =>
      cases h
      by_cases hne : updated = workerId
      · subst hne
        obtain ⟨record, hfind, hrest⟩ := hdb
        have hid := workerId_of_worker? hfind
        simp only [hfind]
        refine ⟨record.update change now, ?_, hrest⟩
        rw [worker?_of_workers_eq _ (publishAll_workers _ _ _)]
        exact worker?_saveWorker hfind (by exact hid)
      · exact hdb.of_worker?_eq fun _ => update_keeps_worker hne
  | markOffline rows cutoff now =>
      cases h
      clear hothers
      induction rows generalizing db with
      | nil => exact hdb
      | cons updated rest ih => exact ih (hdb.markOfflineOne updated)

theorem Db.Registered.step {label : FleetLabel} (hdb : db.Registered workerId declared reached)
    (h : FleetStep self heartbeatIntervalSeconds db label db')
    (hothers : label.concernsOthers workerId) : db'.Registered workerId declared reached := by
  cases h with
  | stage hstep hworkers =>
      cases hstep with
      | returned _ hexec =>
          obtain ⟨record, hfind, hdevices, hsequence⟩ := hdb
          refine ⟨_, exec_worker hexec hfind, ?_, ?_⟩
          · rw [← hdevices]
            unfold WorkerRecord.written
            split <;> rfl
          · rw [← hsequence]
            unfold WorkerRecord.written
            split <;> rfl
      | raised => exact hdb
      | administered =>
          exact hdb.of_worker?_eq fun _ => (worker?_of_workers_eq _ (hworkers rfl)).trans
      | reordered => exact hdb
  | returned _ hexec => exact hdb.exec hexec hothers
  | refused => exact hdb

/-! ## Deliveries -/

/-- The heartbeats of the incarnation are accepted, and those of another one leave the row of the
worker as it is. -/
def Undisturbed (incarnation : Nat) (s : WireState workerId) :
    WireLabel workerId → WireState workerId → Prop
  | .delivered sender (.heartbeat _ _) answer, t =>
      (sender = incarnation → ∃ data, answer = .ok (.heartbeat (some data))) ∧
        (sender ≠ incarnation → t.db.worker? workerId = s.db.worker? workerId)
  | _, _ => True

/-- The order of the deliveries after a registration that declared the devices `declared`.  The
heartbeats of the incarnation come in their order and name devices of the registration delivered
last; every other heartbeat is no newer than the last of these that followed this registration,
or names a device that it did not declare. -/
def Orderly (incarnation : Nat) : List String → Int → List (WireLabel workerId) → Prop
  | _, _, [] => True
  | declared, reached, label :: labels =>
      match label with
      | .delivered _ (.register request _) _ => Orderly incarnation request.deviceIds (-1) labels
      | .delivered sender (.heartbeat request _) _ =>
          if sender = incarnation then
            request.Fresh declared reached ∧ Orderly incarnation declared request.sequence labels
          else ¬ request.Fresh declared reached ∧ Orderly incarnation declared reached labels
      | .started _ | .sent _ | .elsewhere _ => Orderly incarnation declared reached labels

instance Orderly.decidable (incarnation : Nat) : ∀ (declared : List String) (reached : Int)
    (labels : List (WireLabel workerId)), Decidable (Orderly incarnation declared reached labels)
  | _, _, [] => isTrue trivial
  | declared, reached, .delivered sender (.heartbeat request _) _ :: labels =>
      have := Orderly.decidable incarnation declared request.sequence labels
      have := Orderly.decidable incarnation declared reached labels
      inferInstanceAs (Decidable (if sender = incarnation then _ ∧ _ else _ ∧ _))
  | _, _, .delivered _ (.register request _) _ :: labels =>
      Orderly.decidable incarnation request.deviceIds (-1) labels
  | declared, reached, .started _ :: labels | declared, reached, .sent _ :: labels
  | declared, reached, .elsewhere _ :: labels =>
      Orderly.decidable incarnation declared reached labels

variable {s t u : WireState workerId} {incarnation : Nat} {label : WireLabel workerId}
  {labels : List (WireLabel workerId)}

theorem deliver_register {sender : Nat} {request : WorkerRegistrationRequest}
    {same : request.workerId = workerId} {answer : Except HeartbeatError WorkerResponse}
    (h : WireStep self heartbeatIntervalSeconds s
      (.delivered sender (.register request same) answer) t) :
    t.db.Registered workerId request.deviceIds (-1) := by
  cases h with
  | delivered _ hexec =>
      cases hexec
      exact same ▸ register_registered s.db request _
  | refused _ hexec => cases hexec

/-- What the delivery of a heartbeat does. -/
theorem deliver_heartbeat {sender : Nat} {request : WorkerHeartbeatRequest}
    {same : request.workerId = workerId} {answer : Except HeartbeatError WorkerResponse}
    (h : WireStep self heartbeatIntervalSeconds s
      (.delivered sender (.heartbeat request same) answer) t)
    (hdb : s.db.Registered workerId declared reached) :
    (request.Fresh declared reached ∧ (∃ data, answer = .ok (.heartbeat (some data))) ∧
      t.db.Registered workerId declared request.sequence) ∨
    (¬ request.Fresh declared reached ∧ (∃ error, answer = .error error) ∧ t.db = s.db) := by
  cases h with
  | @delivered _ _ _ _ now _ _ hexec =>
      simp only [WorkerMessage.toCall, WorkerCall.exec, bind_eq_ok] at hexec
      obtain ⟨⟨db, answer⟩, hbeat, hexec⟩ := hexec
      cases hexec
      rcases heartbeat_registered now hdb same with
        ⟨hfresh, db', current, hok, hnext⟩ | ⟨_, error, herror⟩
      · rw [hok] at hbeat
        cases hbeat
        exact .inl ⟨hfresh, ⟨_, rfl⟩, hnext⟩
      · rw [herror] at hbeat
        cases hbeat
  | @refused _ _ _ now _ _ hexec =>
      rcases heartbeat_registered now hdb same with
        ⟨_, db', current, hok, _⟩ | ⟨hnot, _, _⟩
      · simp only [WorkerMessage.toCall, WorkerCall.exec, hok] at hexec
        cases hexec
      · exact .inr ⟨hnot, ⟨_, rfl⟩, rfl⟩

theorem other_step (h : WireStep self heartbeatIntervalSeconds s label t)
    (hlabel : ∀ sender message answer, label ≠ .delivered sender message answer)
    (hdb : s.db.Registered workerId declared reached) :
    t.db.Registered workerId declared reached := by
  cases h with
  | started | sent => exact hdb
  | delivered | refused => exact absurd rfl (hlabel _ _ _)
  | elsewhere hstep hothers => exact hdb.step hstep hothers

/-- A heartbeat is delivered undisturbed when it is fresh and the incarnation's own, or neither. -/
theorem undisturbed_heartbeat_iff {sender : Nat} {request : WorkerHeartbeatRequest}
    {same : request.workerId = workerId} {answer : Except HeartbeatError WorkerResponse}
    (h : WireStep self heartbeatIntervalSeconds s
      (.delivered sender (.heartbeat request same) answer) t)
    (hdb : s.db.Registered workerId declared reached) :
    Undisturbed incarnation s (.delivered sender (.heartbeat request same) answer) t ↔
      (sender = incarnation ↔ request.Fresh declared reached) := by
  rcases deliver_heartbeat h hdb with ⟨hfresh, haccepted, hnext⟩ | ⟨hnot, ⟨error, rfl⟩, hsame⟩
  · have hchanged : t.db.worker? workerId ≠ s.db.worker? workerId := by
      intro heq
      obtain ⟨record, hfind, _, hsequence⟩ := hnext
      obtain ⟨previous, hprevious, _, hreached⟩ := hdb
      rw [heq, hprevious] at hfind
      cases hfind
      have hnewer := hfresh.1
      omega
    simp [Undisturbed, haccepted, hchanged, hfresh]
  · simp [Undisturbed, hsame, hnot]

/-! ## Runs -/

/-- All deliveries of every run over `labels` are undisturbed. -/
def AllUndisturbed (self : StageScheduler) (heartbeatIntervalSeconds : Nat) (incarnation : Nat)
    (s : WireState workerId) (labels : List (WireLabel workerId)) (t : WireState workerId) : Prop :=
  ∀ before v label w after,
    (wire self heartbeatIntervalSeconds workerId).At s labels t before v label w after →
      Undisturbed incarnation v label w

theorem allUndisturbed_of_orderly (hdb : s.db.Registered workerId declared reached)
    (horderly : Orderly incarnation declared reached labels) :
    AllUndisturbed self heartbeatIntervalSeconds incarnation s labels t := by
  induction labels generalizing s declared reached with
  | nil =>
      rintro before v label w after ⟨hlabels, _⟩
      simp at hlabels
  | cons first labels ih =>
      rintro before v label w after ⟨hlabels, hbefore, hstep, hafter⟩
      cases before with
      | nil =>
          cases hlabels
          rw [hbefore.eq_of_nil] at hstep ⊢
          cases first with
          | started | sent | elsewhere => trivial
          | delivered sender message answer =>
              cases message with
              | register => trivial
              | heartbeat request same =>
                  rw [undisturbed_heartbeat_iff hstep hdb]
                  by_cases hown : sender = incarnation
                  · simp only [Orderly, if_pos hown] at horderly
                    exact iff_of_true hown horderly.1
                  · simp only [Orderly, if_neg hown] at horderly
                    exact iff_of_false hown horderly.1
      | cons _ before =>
          cases hlabels
          obtain ⟨u, hfirst, hbefore⟩ := hbefore.uncons
          have hrest : ∀ {declared reached}, u.db.Registered workerId declared reached →
              Orderly incarnation declared reached (before ++ label :: after) →
                Undisturbed incarnation v label w := fun hu horderly =>
            ih hu horderly before v label w after ⟨rfl, hbefore, hstep, hafter⟩
          cases first with
          | started | sent | elsewhere => exact hrest (other_step hfirst (by simp) hdb) horderly
          | delivered sender message answer =>
              cases message with
              | register request same => exact hrest (deliver_register hfirst) horderly
              | heartbeat request same =>
                  by_cases hown : sender = incarnation
                  · simp only [Orderly, List.append_eq, if_pos hown] at horderly
                    rcases deliver_heartbeat hfirst hdb with ⟨_, _, hu⟩ | ⟨hnot, _⟩
                    · exact hrest hu horderly.2
                    · exact absurd horderly.1 hnot
                  · simp only [Orderly, List.append_eq, if_neg hown] at horderly
                    rcases deliver_heartbeat hfirst hdb with ⟨hfresh, _⟩ | ⟨_, _, hsame⟩
                    · exact absurd hfresh horderly.1
                    · exact hrest (hsame ▸ hdb) horderly.2

theorem orderly_of_allUndisturbed (hdb : s.db.Registered workerId declared reached)
    (hrun : (wire self heartbeatIntervalSeconds workerId).Run s labels t)
    (hall : AllUndisturbed self heartbeatIntervalSeconds incarnation s labels t) :
    Orderly incarnation declared reached labels := by
  induction labels generalizing s declared reached with
  | nil => trivial
  | cons first labels ih =>
      obtain ⟨u, hfirst, hrest⟩ := hrun.uncons
      have hundisturbed := hall [] s first u labels ⟨rfl, .nil s, hfirst, hrest⟩
      have hlater : AllUndisturbed self heartbeatIntervalSeconds incarnation u labels t := by
        rintro before v label w after ⟨hlabels, hbefore, hstep, hafter⟩
        exact hall (first :: before) v label w after
          ⟨by rw [hlabels]; rfl, (System.Run.single hfirst).trans hbefore, hstep, hafter⟩
      cases first with
      | started | sent | elsewhere => exact ih (other_step hfirst (by simp) hdb) hrest hlater
      | delivered sender message answer =>
          cases message with
          | register request same => exact ih (deliver_register hfirst) hrest hlater
          | heartbeat request same =>
              rw [undisturbed_heartbeat_iff hfirst hdb] at hundisturbed
              by_cases hown : sender = incarnation
              · simp only [Orderly, if_pos hown]
                have hfresh := hundisturbed.mp hown
                rcases deliver_heartbeat hfirst hdb with ⟨_, _, hu⟩ | ⟨hnot, _⟩
                · exact ⟨hfresh, ih hu hrest hlater⟩
                · exact absurd hfresh hnot
              · simp only [Orderly, if_neg hown]
                have hnot := fun hfresh => hown (hundisturbed.mpr hfresh)
                rcases deliver_heartbeat hfirst hdb with ⟨hfresh, _⟩ | ⟨_, _, hsame⟩
                · exact absurd hfresh hnot
                · exact ⟨hnot, ih (hsame ▸ hdb) hrest hlater⟩

/-- From the registration of the process that runs on, its heartbeats are accepted and the others
change nothing exactly when the requests are delivered in order. -/
theorem heartbeats_undisturbed_iff {registration : WorkerRegistrationRequest}
    {same : registration.workerId = workerId} {answer : Except HeartbeatError WorkerResponse}
    (hregistered : (wire self heartbeatIntervalSeconds workerId).Step s
      (.delivered s.incarnation (.register registration same) answer) u)
    (hrun : (wire self heartbeatIntervalSeconds workerId).Run u labels t) :
    AllUndisturbed self heartbeatIntervalSeconds s.incarnation u labels t ↔
      Orderly s.incarnation registration.deviceIds (-1) labels :=
  ⟨orderly_of_allUndisturbed (deliver_register hregistered) hrun,
    allUndisturbed_of_orderly (deliver_register hregistered)⟩

/-! ## A worker that is restarted -/

inductive WireMove
  | start
  | send (request : WorkerHeartbeatRequest) (same : request.workerId = "worker")
  | deliver (k : Nat) (now : Time)

def sampleProcess : WorkerProcess "worker" where
  registration := sampleRegistration
  same := rfl

/-- The step of a move; one that is not possible changes nothing. -/
def WireMove.take (s : WireState "worker") : WireMove → WireLabel "worker" × WireState "worker"
  | .start => (.started sampleRegistration, s.start sampleProcess)
  | .send request same =>
      match s.process with
      | none => (.elsewhere (.stage .administered), s)
      | some process =>
          if process.registered ∧ request.sequence = process.sequence ∧
              ∀ usage ∈ request.devices, usage.deviceId ∈ process.registration.deviceIds then
            (.sent request, s.send process request same)
          else (.elsewhere (.stage .administered), s)
  | .deliver k now =>
      match s.inFlight[k]? with
      | none => (.elsewhere (.stage .administered), s)
      | some (incarnation, message) =>
          match (message.toCall now).exec 10 s.db with
          | .ok (db, response) => (.delivered incarnation message (.ok response),
              { s with
                db := db
                process := s.answered incarnation response
                inFlight := s.inFlight.eraseIdx k })
          | .error error => (.delivered incarnation message (.error error),
              { s with inFlight := s.inFlight.eraseIdx k })

theorem WireMove.take_step (s : WireState "worker") (move : WireMove) :
    (wire sampleScheduler 10 "worker").Step s (move.take s).1 (move.take s).2 := by
  have hunchanged : WireStep sampleScheduler 10 s (.elsewhere (.stage .administered)) s :=
    .elsewhere (.stage (.administered (Administered.refl s.db)) fun _ => rfl) trivial
  cases move with
  | start =>
      show WireStep sampleScheduler 10 s (.started sampleProcess.registration)
        (s.start sampleProcess)
      exact .started rfl rfl
  | send request same =>
      simp only [WireMove.take]
      split
      · exact hunchanged
      · next process hprocess =>
          split
          · next hsends => exact .sent same hprocess hsends.1 hsends.2.1 hsends.2.2
          · exact hunchanged
  | deliver k now =>
      simp only [WireMove.take]
      split
      · exact hunchanged
      · next incarnation message hmessage =>
          split
          · next hexec => exact .delivered hmessage hexec
          · next hexec => exact .refused hmessage hexec

def wireStart : WireState "worker" := ⟨emptyFleet, 0, none, []⟩

def wireAfter (moves : List WireMove) : List (WireLabel "worker") × WireState "worker" :=
  System.script WireMove.take wireStart moves

theorem wireAfter_run (s : WireState "worker") (moves : List WireMove) :
    (wire sampleScheduler 10 "worker").Run s (System.script WireMove.take s moves).1
      (System.script WireMove.take s moves).2 :=
  System.script_run WireMove.take_step s moves

def beatMove (sequence : Nat) : WireMove := .send (sampleHeartbeat sequence .online) rfl

/-- The first process registers, has a heartbeat accepted, sends another one and dies; the second
one is started. -/
def restartMoves : List WireMove :=
  [.start, .deliver 0 0, beatMove 0, .deliver 0 1, beatMove 1, .start]

def restarted : WireState "worker" := (wireAfter restartMoves).2

theorem restarted_reachable : (wire sampleScheduler 10 "worker").Reachable restarted :=
  ⟨wireStart, _, ⟨⟨rfl, rfl⟩, rfl, rfl⟩, wireAfter_run wireStart restartMoves⟩

/-- The registration of the second process is delivered before the last heartbeat of the first. -/
def registeredAgain : WireLabel "worker" × WireState "worker" :=
  (WireMove.deliver 1 2).take restarted

theorem registeredAgain_step : ∃ answer, (wire sampleScheduler 10 "worker").Step restarted
    (.delivered restarted.incarnation (.register sampleRegistration rfl) answer)
      registeredAgain.2 := by
  have hstep := WireMove.take_step restarted (.deliver 1 2)
  have hlabel : registeredAgain.1 = .delivered restarted.incarnation
      (.register sampleRegistration rfl) (.ok (.registered
        (registerWorker restarted.db sampleRegistration 2).2)) := rfl
  exact ⟨_, hlabel ▸ hstep⟩

/-- The late heartbeat comes after two of the second process, and is refused. -/
def overtakenMoves : List WireMove :=
  [beatMove 0, .deliver 1 3, beatMove 1, .deliver 1 4, .deliver 0 5]

theorem heartbeats_undisturbed_overtaken :
    AllUndisturbed sampleScheduler 10 restarted.incarnation registeredAgain.2
      (System.script WireMove.take registeredAgain.2 overtakenMoves).1
      (System.script WireMove.take registeredAgain.2 overtakenMoves).2 := by
  obtain ⟨answer, hstep⟩ := registeredAgain_step
  refine (heartbeats_undisturbed_iff hstep (wireAfter_run registeredAgain.2 overtakenMoves)).mpr ?_
  decide +kernel

/-- It comes first, and the row goes on to its sequence number. -/
def lateBeatMoves : List WireMove := [.deliver 0 3, beatMove 0, .deliver 0 4]

/-- The late heartbeat is accepted and writes the row, and the first heartbeat of the process that
runs is refused as stale. -/
theorem heartbeats_disturbed : ∃ answer labels t,
    (wire sampleScheduler 10 "worker").Reachable restarted ∧
      (wire sampleScheduler 10 "worker").Step restarted
        (.delivered restarted.incarnation (.register sampleRegistration rfl) answer)
          registeredAgain.2 ∧
      (wire sampleScheduler 10 "worker").Run registeredAgain.2 labels t ∧
      WireLabel.delivered restarted.incarnation (.heartbeat (sampleHeartbeat 0 .online) rfl)
        (.error .staleHeartbeat) ∈ labels ∧
      ¬ AllUndisturbed sampleScheduler 10 restarted.incarnation registeredAgain.2 labels t := by
  obtain ⟨answer, hstep⟩ := registeredAgain_step
  have hrun := wireAfter_run registeredAgain.2 lateBeatMoves
  refine ⟨answer, _, _, restarted_reachable, hstep, hrun, ?_, fun hall => ?_⟩
  · have hlast : (System.script WireMove.take registeredAgain.2 lateBeatMoves).1[2]? =
        some (.delivered restarted.incarnation (.heartbeat (sampleHeartbeat 0 .online) rfl)
          (.error .staleHeartbeat)) := rfl
    exact List.mem_of_getElem? hlast
  · have horderly := orderly_of_allUndisturbed (deliver_register hstep) hrun hall
    revert horderly
    decide +kernel

end ParserServe
