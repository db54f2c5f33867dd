import ParserServe.Foundation.Runs
import ParserServe.Schema.Status

/-! # The worker service

`WorkerService.run` of `worker/service.py`.  Once the worker is registered three coroutines run side
by side, which drain, send heartbeats and poll; they share the event `stop`, which anybody may set.
What the environment decides is an event: the answers to the calls, what the probes find, which
coroutine is resumed, and when a failure or a cancellation reaches the others.
-/

namespace ParserServe

open Foundation

inductive ServiceCall
  | preload
  | register
  | heartbeat (sequence : Nat) (status : WorkerStatus)
  | drain
  | runOnce
  | unloadAll
  deriving DecidableEq

inductive DrainTask
  | waiting | draining | finished
  deriving DecidableEq

/-- The heartbeat that is sent tells whether a check failed. -/
inductive HeartbeatTask
  | starting | sampling
  | sending (healthFailed : Bool)
  | pausing | finished
  deriving DecidableEq

inductive PollTask
  | starting | running | pausing | finished
  deriving DecidableEq

inductive ServicePhase
  | created | preloading | preparing | registering | serving
  | unloading (failed : Bool)
  | ended (failed : Bool)
  deriving DecidableEq

structure WorkerServiceState where
  phase : ServicePhase := .created
  stop : Bool := false
  drain : DrainTask := .waiting
  heartbeat : HeartbeatTask := .starting
  poll : PollTask := .starting
  sequence : Nat := 0
  /-- One of the coroutines has raised. -/
  failed : Bool := false
  deriving DecidableEq

/-- `answer` is `none` where the call raises. -/
inductive ServiceEvent
  | began
  | preloaded (loaded : Bool)
  | prepared (built : Bool)
  | registered (answer : Option Bool)
  | stopped
  | drainWoke
  | drainAnswered
  | heartbeatWoke
  | sampled (reading : Option (Bool × Bool))
  | heartbeatAnswered (answer : Option (Bool × Bool))
  | pollWoke
  | pollAnswered (leased : Option Nat)
  | finished
  | aborted
  | unloaded
  deriving DecidableEq

/-- `while not stop.is_set()` of `_heartbeat_loop`. -/
def WorkerServiceState.checkHeartbeat (s : WorkerServiceState) : WorkerServiceState :=
  { s with heartbeat := if s.stop then .finished else .sampling }

/-- `while not stop.is_set()` of `_poll_loop`. -/
def WorkerServiceState.checkPoll (s : WorkerServiceState) : List ServiceCall × WorkerServiceState :=
  if s.stop then ([], { s with poll := .finished }) else ([.runOnce], { s with poll := .running })

def heartbeatStatus (healthFailed busy : Bool) : WorkerStatus :=
  if healthFailed then .unhealthy else if busy then .busy else .online

/-- `_drain_on_stop`, whose call may fail. -/
def WorkerServiceState.stepDrain (s : WorkerServiceState) :
    ServiceEvent → Option (List ServiceCall × WorkerServiceState)
  | .drainWoke =>
      if s.stop ∧ s.drain = .waiting then some ([.drain], { s with drain := .draining }) else none
  | .drainAnswered =>
      if s.drain = .draining then some ([], { s with drain := .finished }) else none
  | _ => none

/-- `_heartbeat_loop`. -/
def WorkerServiceState.stepHeartbeat (s : WorkerServiceState) :
    ServiceEvent → Option (List ServiceCall × WorkerServiceState)
  | .heartbeatWoke =>
      if s.heartbeat = .starting ∨ s.heartbeat = .pausing then some ([], s.checkHeartbeat) else none
  | .sampled reading =>
      if s.heartbeat = .sampling then
        match reading with
        | none => some ([], { s with heartbeat := .finished, failed := true })
        | some (healthFailed, busy) =>
            some ([.heartbeat s.sequence (heartbeatStatus healthFailed busy)],
              { s with heartbeat := .sending healthFailed })
      else none
  | .heartbeatAnswered answer =>
      match s.heartbeat, answer with
      | .sending _, none => some ([], { s with heartbeat := .finished, failed := true })
      | .sending healthFailed, some (accepted, shouldDrain) =>
          if healthFailed ∨ shouldDrain ∨ ¬ accepted then
            some ([], { s with stop := true, heartbeat := .finished })
          else some ([], { s with sequence := s.sequence + 1, heartbeat := .pausing })
      | _, _ => none
  | _ => none

/-- `_poll_loop`. -/
def WorkerServiceState.stepPoll (s : WorkerServiceState) :
    ServiceEvent → Option (List ServiceCall × WorkerServiceState)
  | .pollWoke => if s.poll = .starting ∨ s.poll = .pausing then some s.checkPoll else none
  | .pollAnswered leased =>
      if s.poll = .running then
        match leased with
        | none => some ([], { s with poll := .finished, failed := true })
        | some 0 => some ([], { s with poll := .pausing })
        | some _ => some s.checkPoll
      else none
  | _ => none

/-- The three coroutines and the end of their group. -/
def WorkerServiceState.stepGroup (s : WorkerServiceState) (event : ServiceEvent) :
    Option (List ServiceCall × WorkerServiceState) :=
  match event with
  | .finished =>
      if s.drain = .finished ∧ s.heartbeat = .finished ∧ s.poll = .finished ∧ s.failed = false then
        some ([.unloadAll], { s with phase := .unloading false })
      else none
  | .aborted => some ([.unloadAll], { s with phase := .unloading true })
  | .drainWoke | .drainAnswered => s.stepDrain event
  | .heartbeatWoke | .sampled _ | .heartbeatAnswered _ => s.stepHeartbeat event
  | .pollWoke | .pollAnswered _ => s.stepPoll event
  | _ => none

/-- One step of `run`, and the calls it makes. -/
def WorkerServiceState.step (s : WorkerServiceState) (event : ServiceEvent) :
    Option (List ServiceCall × WorkerServiceState) :=
  match s.phase, event with
  | _, .stopped => some ([], { s with stop := true })
  | .created, .began => some ([.preload], { s with phase := .preloading })
  | .preloading, .preloaded true => some ([], { s with phase := .preparing })
  -- the models are loaded outside the `try` statement
  | .preloading, .preloaded false => some ([], { s with phase := .ended true })
  | .preparing, .prepared true => some ([.register], { s with phase := .registering })
  | .preparing, .prepared false => some ([.unloadAll], { s with phase := .unloading true })
  | .registering, .registered (some true) => some ([], { s with phase := .serving })
  | .registering, .registered _ => some ([.unloadAll], { s with phase := .unloading true })
  | .preparing, .aborted | .registering, .aborted =>
      some ([.unloadAll], { s with phase := .unloading true })
  | .preloading, .aborted => some ([], { s with phase := .ended true })
  | .serving, event => s.stepGroup event
  | .unloading failed, .unloaded => some ([], { s with phase := .ended failed })
  | _, _ => none

/-- The runs of one worker process, each step with the calls it makes. -/
def workerService : System WorkerServiceState (ServiceEvent × List ServiceCall) where
  Initial s := s = {}
  Step s label t := s.step label.1 = some (label.2, t)

/-- The calls that a run makes. -/
def callsOf (labels : List (ServiceEvent × List ServiceCall)) : List ServiceCall :=
  labels.flatMap (·.2)

variable {s t u : WorkerServiceState} {event : ServiceEvent} {calls made : List ServiceCall}
  {labels before after : List (ServiceEvent × List ServiceCall)}

def ServiceCall.beat? : ServiceCall → Option (Nat × WorkerStatus)
  | .heartbeat sequence status => some (sequence, status)
  | _ => none

/-- The heartbeats among the calls. -/
def beatsOf (calls : List ServiceCall) : List (Nat × WorkerStatus) := calls.filterMap (·.beat?)

/-- The calls of `run` itself. -/
def ServiceCall.outer : ServiceCall → Prop
  | .preload | .register | .unloadAll => True
  | _ => False

/-! ## Steps -/

/-- A step of `run` itself leaves the coroutines as they are, and `stop` stays set. -/
def OuterStep (s : WorkerServiceState) (calls : List ServiceCall) (t : WorkerServiceState) : Prop :=
  (∀ call ∈ calls, call.outer) ∧ t.drain = s.drain ∧ t.heartbeat = s.heartbeat ∧ t.poll = s.poll ∧
    t.sequence = s.sequence ∧ (s.stop → t.stop)

theorem stepGroup_cases (h : s.stepGroup event = some (calls, t)) :
    OuterStep s calls t ∨ s.stepDrain event = some (calls, t) ∨
      s.stepHeartbeat event = some (calls, t) ∨ s.stepPoll event = some (calls, t) := by
  cases event with
  | finished =>
      simp only [WorkerServiceState.stepGroup, Option.ite_none_right_eq_some] at h
      cases h.2
      exact .inl ⟨by simp [ServiceCall.outer], rfl, rfl, rfl, rfl, id⟩
  | aborted =>
      cases h
      exact .inl ⟨by simp [ServiceCall.outer], rfl, rfl, rfl, rfl, id⟩
  | drainWoke | drainAnswered => exact .inr (.inl h)
  | heartbeatWoke | sampled | heartbeatAnswered => exact .inr (.inr (.inl h))
  | pollWoke | pollAnswered => exact .inr (.inr (.inr h))
  | began | preloaded | prepared | registered | stopped | unloaded => cases h

theorem service_step_cases (h : s.step event = some (calls, t)) :
    OuterStep s calls t ∨ s.stepDrain event = some (calls, t) ∨
      s.stepHeartbeat event = some (calls, t) ∨ s.stepPoll event = some (calls, t) := by
  unfold WorkerServiceState.step at h
  split at h
  case h_12 => exact stepGroup_cases h
  case h_14 => cases h
  all_goals
    cases h
    exact .inl ⟨by simp [ServiceCall.outer], rfl, rfl, rfl, rfl, by simp⟩

theorem beatsOf_outer (h : ∀ call ∈ calls, call.outer) : beatsOf calls = [] := by
  rw [beatsOf, List.filterMap_eq_nil_iff]
  intro call hcall
  have houter := h call hcall
  cases call <;> first | rfl | cases houter

theorem count_drain_outer (h : ∀ call ∈ calls, call.outer) : calls.count .drain = 0 :=
  List.count_eq_zero.mpr fun hmem => h _ hmem

theorem stepDrain_cases (h : s.stepDrain event = some (calls, t)) :
    (calls = [.drain] ∧ s.stop ∧ s.drain = .waiting ∧ t = { s with drain := .draining }) ∨
      (calls = [] ∧ s.drain = .draining ∧ t = { s with drain := .finished }) := by
  cases event <;> simp only [WorkerServiceState.stepDrain, Option.ite_none_right_eq_some] at h <;>
    first
    | cases h.2
      exact .inl ⟨rfl, h.1.1, h.1.2, rfl⟩
    | cases h.2
      exact .inr ⟨rfl, h.1, rfl⟩
    | cases h

/-- What a step of `_poll_loop` can do. -/
def PollLoopStep (s : WorkerServiceState) (calls : List ServiceCall)
    (t : WorkerServiceState) : Prop :=
  t.stop = s.stop ∧ t.drain = s.drain ∧ t.heartbeat = s.heartbeat ∧ t.sequence = s.sequence ∧
    t.phase = s.phase ∧ (calls = [] ∨ calls = [.runOnce] ∧ s.stop = false)

theorem checkPoll_cases (h : some s.checkPoll = some (calls, t)) : PollLoopStep s calls t := by
  rw [WorkerServiceState.checkPoll] at h
  split at h
  · cases h
    exact ⟨rfl, rfl, rfl, rfl, rfl, .inl rfl⟩
  · next hstop =>
      cases h
      exact ⟨rfl, rfl, rfl, rfl, rfl, .inr ⟨rfl, Bool.eq_false_iff.mpr hstop⟩⟩

theorem stepPoll_cases (h : s.stepPoll event = some (calls, t)) : PollLoopStep s calls t := by
  cases event with
  | pollWoke =>
      simp only [WorkerServiceState.stepPoll, Option.ite_none_right_eq_some] at h
      exact checkPoll_cases h.2
  | pollAnswered leased =>
      simp only [WorkerServiceState.stepPoll, Option.ite_none_right_eq_some] at h
      obtain ⟨-, h⟩ := h
      split at h
      · cases h
        exact ⟨rfl, rfl, rfl, rfl, rfl, .inl rfl⟩
      · cases h
        exact ⟨rfl, rfl, rfl, rfl, rfl, .inl rfl⟩
      · exact checkPoll_cases h
  | _ => cases h

/-- What a step of `_heartbeat_loop` can do. -/
inductive HeartbeatStep (s : WorkerServiceState) : List ServiceCall → WorkerServiceState → Prop
  | checked : s.heartbeat = .starting ∨ s.heartbeat = .pausing →
      HeartbeatStep s [] s.checkHeartbeat
  | raised : HeartbeatStep s [] { s with heartbeat := .finished, failed := true }
  | sent {healthFailed busy : Bool} : s.heartbeat = .sampling →
      HeartbeatStep s [.heartbeat s.sequence (heartbeatStatus healthFailed busy)]
        { s with heartbeat := .sending healthFailed }
  | last : HeartbeatStep s [] { s with stop := true, heartbeat := .finished }
  | answered : s.heartbeat = .sending false →
      HeartbeatStep s [] { s with sequence := s.sequence + 1, heartbeat := .pausing }

theorem stepHeartbeat_cases (h : s.stepHeartbeat event = some (calls, t)) :
    HeartbeatStep s calls t := by
  cases event with
  | heartbeatWoke =>
      simp only [WorkerServiceState.stepHeartbeat, Option.ite_none_right_eq_some] at h
      cases h.2
      exact .checked h.1
  | sampled reading =>
      simp only [WorkerServiceState.stepHeartbeat, Option.ite_none_right_eq_some] at h
      obtain ⟨hsampling, h⟩ := h
      split at h
      · cases h
        exact .raised
      · cases h
        exact .sent hsampling
  | heartbeatAnswered answer =>
      simp only [WorkerServiceState.stepHeartbeat] at h
      split at h
      · cases h
        exact .raised
      · next healthFailed accepted shouldDrain hsending =>
          split at h
          · cases h
            exact .last
          · next hgood =>
              cases h
              have hhealthy : healthFailed = false := by
                cases healthFailed with
                | false => rfl
                | true => exact absurd (.inl rfl) hgood
              exact .answered (hhealthy ▸ hsending)
      · cases h
  | _ => cases h

/-! ## What has been sent -/

theorem callsOf_snoc {label : ServiceEvent × List ServiceCall} :
    callsOf (labels ++ [label]) = callsOf labels ++ label.2 := by
  simp [callsOf]

@[simp] theorem beatsOf_append : beatsOf (calls ++ made) = beatsOf calls ++ beatsOf made :=
  List.filterMap_append

/-- The heartbeats that a worker has sent, by the state of its loop. -/
structure BeatHistory (beats : List (Nat × WorkerStatus)) (s : WorkerServiceState) : Prop where
  sequences : beats.map (·.1) = List.range beats.length
  reached : s.heartbeat ∈ [.starting, .sampling, .pausing] → beats.length = s.sequence
  sent : ∀ healthFailed, s.heartbeat = .sending healthFailed → beats.length = s.sequence + 1
  healthy : s.heartbeat ∈ [.starting, .sampling, .sending false, .pausing] →
    ∀ beat ∈ beats, beat.2 ≠ .unhealthy
  unhealthy : ∀ beat ∈ beats.dropLast, beat.2 ≠ .unhealthy

/-- What the calls of a run tell of the state it has reached. -/
structure ServiceHistory (calls : List ServiceCall) (s : WorkerServiceState) : Prop where
  beats : BeatHistory (beatsOf calls) s
  drains : calls.count .drain = if s.drain = .waiting then 0 else 1
  drained : s.drain ≠ .waiting → s.stop

theorem BeatHistory.frame {beats : List (Nat × WorkerStatus)} (h : BeatHistory beats s)
    (hheartbeat : t.heartbeat = s.heartbeat) (hsequence : t.sequence = s.sequence) :
    BeatHistory beats t := by
  constructor
  · exact h.sequences
  · rw [hheartbeat, hsequence]
    exact h.reached
  · rw [hheartbeat, hsequence]
    exact h.sent
  · rw [hheartbeat]
    exact h.healthy
  · exact h.unhealthy

/-- The loop is over. -/
theorem BeatHistory.finish {beats : List (Nat × WorkerStatus)} (h : BeatHistory beats s)
    (hfinished : t.heartbeat = .finished) : BeatHistory beats t where
  sequences := h.sequences
  reached := by simp [hfinished]
  sent := by simp [hfinished]
  healthy := by simp [hfinished]
  unhealthy := h.unhealthy

theorem heartbeatStatus_eq_unhealthy {healthFailed busy : Bool} :
    heartbeatStatus healthFailed busy = .unhealthy ↔ healthFailed = true := by
  cases healthFailed <;> cases busy <;> simp [heartbeatStatus]

theorem BeatHistory.step {beats : List (Nat × WorkerStatus)} (h : BeatHistory beats s)
    (hstep : HeartbeatStep s made t) : BeatHistory (beats ++ beatsOf made) t := by
  cases hstep with
  | checked hwaiting =>
      rw [show beatsOf [] = [] from rfl, List.append_nil]
      have hlength := h.reached (by rcases hwaiting with hw | hw <;> simp [hw])
      have hhealthy := h.healthy (by rcases hwaiting with hw | hw <;> simp [hw])
      rw [WorkerServiceState.checkHeartbeat]
      split
      · exact h.finish rfl
      · exact ⟨h.sequences, fun _ => hlength, by simp, fun _ => hhealthy, h.unhealthy⟩
  | raised =>
      rw [show beatsOf [] = [] from rfl, List.append_nil]
      exact h.finish rfl
  | @sent healthFailed busy hsampling =>
      have hlength := h.reached (by simp [hsampling])
      have hhealthy := h.healthy (by simp [hsampling])
      have hbeat : beatsOf [.heartbeat s.sequence (heartbeatStatus healthFailed busy)] =
          [(s.sequence, heartbeatStatus healthFailed busy)] := rfl
      rw [hbeat]
      constructor
      · rw [List.map_append, h.sequences, List.length_append, List.length_singleton,
          List.range_succ, hlength]
        rfl
      · simp
      · intro healthFailed' hsending
        rw [List.length_append, hlength]
        rfl
      · intro hstate beat hmem
        have hgood : healthFailed = false := by simpa using hstate
        rcases List.mem_append.mp hmem with hmem | hmem
        · exact hhealthy beat hmem
        · rw [List.mem_singleton.mp hmem]
          exact fun hunhealthy => by
            rw [heartbeatStatus_eq_unhealthy.mp hunhealthy] at hgood
            cases hgood
      · rw [List.dropLast_concat]
        exact hhealthy
  | last =>
      rw [show beatsOf [] = [] from rfl, List.append_nil]
      exact h.finish rfl
  | answered hsending =>
      rw [show beatsOf [] = [] from rfl, List.append_nil]
      have hlength := h.sent false hsending
      have hhealthy := h.healthy (by simp [hsending])
      exact ⟨h.sequences, fun _ => hlength, by simp, fun _ => hhealthy, h.unhealthy⟩

theorem ServiceHistory.step (h : ServiceHistory calls s) (hstep : s.step event = some (made, t)) :
    ServiceHistory (calls ++ made) t := by
  rcases service_step_cases hstep with houter | hdrain | hheartbeat | hpoll
  · obtain ⟨hcalls, hdrain, hheartbeat, -, hsequence, hstop⟩ := houter
    refine ⟨?_, ?_, ?_⟩
    · rw [beatsOf_append, beatsOf_outer hcalls, List.append_nil]
      exact h.beats.frame hheartbeat hsequence
    · rw [List.count_append, count_drain_outer hcalls, Nat.add_zero, hdrain]
      exact h.drains
    · rw [hdrain]
      exact fun hne => hstop (h.drained hne)
  · rcases stepDrain_cases hdrain with ⟨rfl, hstop, hwaiting, rfl⟩ | ⟨rfl, hdraining, rfl⟩
    · refine ⟨?_, ?_, fun _ => hstop⟩
      · rw [beatsOf_append, show beatsOf [.drain] = [] from rfl, List.append_nil]
        exact h.beats.frame rfl rfl
      · rw [List.count_append, h.drains, if_pos hwaiting]
        rfl
    · refine ⟨?_, ?_, fun _ => h.drained (by simp [hdraining])⟩
      · rw [List.append_nil]
        exact h.beats.frame rfl rfl
      · rw [List.append_nil, h.drains, if_neg (by simp [hdraining])]
        rfl
  · have hbeats := h.beats.step (stepHeartbeat_cases hheartbeat)
    have hsame : made.count .drain = 0 ∧ t.drain = s.drain ∧ (s.stop → t.stop) := by
      cases stepHeartbeat_cases hheartbeat with
      | checked => exact ⟨rfl, rfl, id⟩
      | raised => exact ⟨rfl, rfl, id⟩
      | sent => exact ⟨rfl, rfl, id⟩
      | last => exact ⟨rfl, rfl, fun _ => rfl⟩
      | answered => exact ⟨rfl, rfl, id⟩
    obtain ⟨hcount, hdrain, hstop⟩ := hsame
    refine ⟨by rwa [beatsOf_append], ?_, ?_⟩
    · rw [List.count_append, hcount, Nat.add_zero, hdrain]
      exact h.drains
    · rw [hdrain]
      exact fun hne => hstop (h.drained hne)
  · obtain ⟨hstop, hdrain, hheartbeat, hsequence, -, hcalls⟩ := stepPoll_cases hpoll
    have hquiet : beatsOf made = [] ∧ made.count .drain = 0 := by
      rcases hcalls with rfl | ⟨rfl, -⟩ <;> exact ⟨rfl, rfl⟩
    refine ⟨?_, ?_, ?_⟩
    · rw [beatsOf_append, hquiet.1, List.append_nil]
      exact h.beats.frame hheartbeat hsequence
    · rw [List.count_append, hquiet.2, Nat.add_zero, hdrain]
      exact h.drains
    · rw [hdrain, hstop]
      exact h.drained

theorem service_history (h : workerService.Run {} labels s) :
    ServiceHistory (callsOf labels) s := by
  induction h with
  | nil =>
      have hbeats : BeatHistory (beatsOf (callsOf [])) {} :=
        ⟨rfl, fun _ => rfl, by simp, by simp [callsOf, beatsOf], by simp [callsOf, beatsOf]⟩
      exact ⟨hbeats, rfl, by simp⟩
  | snoc _ hstep ih =>
      rw [callsOf_snoc]
      exact ih.step hstep

/-- The heartbeats of a process have the sequence numbers 0, 1, 2 and so on, one that tells of a
failed check is the last, and the process drains at most once, and only when it is to stop. -/
theorem service_calls_in_order (h : workerService.Run {} labels s) :
    (beatsOf (callsOf labels)).map (·.1) = List.range (beatsOf (callsOf labels)).length ∧
      (∀ beat ∈ (beatsOf (callsOf labels)).dropLast, beat.2 ≠ .unhealthy) ∧
      (callsOf labels).count .drain ≤ 1 ∧ (.drain ∈ callsOf labels → s.stop) := by
  have hhistory := service_history h
  refine ⟨hhistory.beats.sequences, hhistory.beats.unhealthy, ?_, fun hdrain => ?_⟩
  · rw [hhistory.drains]
    split <;> omega
  · apply hhistory.drained
    intro hwaiting
    have hcount := hhistory.drains
    rw [if_pos hwaiting, List.count_eq_zero] at hcount
    exact hcount hdrain

/-- The step with a label, whose calls are compared. -/
def WorkerServiceState.take (s : WorkerServiceState) (label : ServiceEvent × List ServiceCall) :
    Option WorkerServiceState :=
  (s.step label.1).bind fun (calls, t) => if calls = label.2 then some t else none

theorem run_of_take (h : labels.foldlM WorkerServiceState.take s = some t) :
    workerService.Run s labels t := by
  have hrun : (System.ofStep (fun s => s = {}) WorkerServiceState.take).Run s labels t :=
    System.ofStep_run h
  refine hrun.mono fun u label v hstep => ?_
  obtain ⟨⟨calls, w⟩, hstep, hsame⟩ := Option.bind_eq_some_iff.mp hstep
  obtain ⟨rfl, hw⟩ := Option.ite_none_right_eq_some.mp hsame
  cases hw
  exact hstep

/-- A worker that polls and sends one heartbeat until it is told to stop. -/
def servedOnce : List (ServiceEvent × List ServiceCall) :=
  [(.began, [.preload]), (.preloaded true, []), (.prepared true, [.register]),
    (.registered (some true), []), (.heartbeatWoke, []), (.pollWoke, [.runOnce]),
    (.sampled (some (false, true)), [.heartbeat 0 .busy]),
    (.heartbeatAnswered (some (true, false)), []), (.heartbeatWoke, []), (.stopped, [])]

/-- The same worker stops. -/
def stoppedInOrder : List (ServiceEvent × List ServiceCall) :=
  [(.pollAnswered (some 1), []), (.drainWoke, [.drain]),
    (.sampled (some (false, false)), [.heartbeat 1 .online]),
    (.heartbeatAnswered (some (true, true)), []), (.drainAnswered, []), (.finished, [.unloadAll]),
    (.unloaded, [])]

def stoppingState : WorkerServiceState where
  phase := .serving
  stop := true
  heartbeat := .sampling
  poll := .running
  sequence := 1

def stoppedState : WorkerServiceState where
  phase := .ended false
  stop := true
  drain := .finished
  heartbeat := .finished
  poll := .finished
  sequence := 1

theorem servedOnce_run : workerService.Run {} servedOnce stoppingState := run_of_take (by decide)

theorem stoppedInOrder_run : workerService.Run stoppingState stoppedInOrder stoppedState :=
  run_of_take (by decide)

theorem service_calls_in_order_stopped :
    (callsOf (servedOnce ++ stoppedInOrder)).count .drain ≤ 1 ∧
      (beatsOf (callsOf (servedOnce ++ stoppedInOrder))).map (·.1) = [0, 1] :=
  have h := service_calls_in_order (servedOnce_run.trans stoppedInOrder_run)
  ⟨h.2.2.1, h.1⟩

/-! ## Stopping -/

/-- The calls of `run` itself, up to each of its phases. -/
def ServicePhase.Accounts (calls : List ServiceCall) (drain : DrainTask) : ServicePhase → Prop
  | .created => calls = []
  | .preloading | .preparing => calls = [.preload]
  | .registering | .serving => .register ∈ calls ∧ .unloadAll ∉ calls
  | .unloading failed => calls.count .unloadAll = 1 ∧ (failed = false → drain = .finished)
  | .ended failed =>
      (calls = [.preload] ∧ failed) ∨
        (calls.count .unloadAll = 1 ∧ (failed = false → drain = .finished))

/-- A step of a coroutine. -/
theorem coroutine_step (h : s.stepDrain event = some (made, t) ∨
    s.stepHeartbeat event = some (made, t) ∨ s.stepPoll event = some (made, t)) :
    t.phase = s.phase ∧ .unloadAll ∉ made := by
  rcases h with hdrain | hheartbeat | hpoll
  · rcases stepDrain_cases hdrain with ⟨rfl, -, -, rfl⟩ | ⟨rfl, -, rfl⟩ <;> exact ⟨rfl, by simp⟩
  · cases stepHeartbeat_cases hheartbeat <;> exact ⟨rfl, by simp⟩
  · obtain ⟨-, -, -, -, hphase, hcalls⟩ := stepPoll_cases hpoll
    refine ⟨hphase, ?_⟩
    rcases hcalls with rfl | ⟨rfl, -⟩ <;> simp

theorem accounts_group (h : .register ∈ calls ∧ .unloadAll ∉ calls) (hphase : s.phase = .serving)
    (hstep : s.stepGroup event = some (made, t)) : t.phase.Accounts (calls ++ made) t.drain := by
  have hunload : (calls ++ [ServiceCall.unloadAll]).count ServiceCall.unloadAll = 1 := by
    rw [List.count_append, List.count_eq_zero.mpr h.2]
    rfl
  have hcoroutine : t.phase = s.phase ∧ .unloadAll ∉ made →
      t.phase.Accounts (calls ++ made) t.drain := by
    rintro ⟨hsame, hmade⟩
    rw [hsame, hphase]
    exact ⟨List.mem_append_left _ h.1, by simp [h.2, hmade]⟩
  cases event with
  | finished =>
      simp only [WorkerServiceState.stepGroup, Option.ite_none_right_eq_some] at hstep
      obtain ⟨⟨hdrain, -⟩, hstep⟩ := hstep
      cases hstep
      exact ⟨hunload, fun _ => hdrain⟩
  | aborted =>
      cases hstep
      exact ⟨hunload, by simp⟩
  | drainWoke | drainAnswered =>
      simp only [WorkerServiceState.stepGroup] at hstep
      exact hcoroutine (coroutine_step (.inl hstep))
  | heartbeatWoke | sampled | heartbeatAnswered =>
      simp only [WorkerServiceState.stepGroup] at hstep
      exact hcoroutine (coroutine_step (.inr (.inl hstep)))
  | pollWoke | pollAnswered =>
      simp only [WorkerServiceState.stepGroup] at hstep
      exact hcoroutine (coroutine_step (.inr (.inr hstep)))
  | began | preloaded | prepared | registered | stopped | unloaded => cases hstep

theorem accounts_step (h : s.phase.Accounts calls s.drain)
    (hstep : s.step event = some (made, t)) : t.phase.Accounts (calls ++ made) t.drain := by
  unfold WorkerServiceState.step at hstep
  split at hstep
  case h_12 hphase _ => exact accounts_group (by rwa [hphase] at h) hphase hstep
  case h_14 => cases hstep
  all_goals
    cases hstep
    simp_all [ServicePhase.Accounts, List.count_eq_zero]

end ParserServe
