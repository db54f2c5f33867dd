import ParserServe.Control.Outbox
import ParserServe.Lifecycle.Fencing

/-! # The current attempt in the task row

A callback is made from the row of its task as the row is when `materialize` runs.  The columns it
reads are those of the task's current attempt: they repeat what the task has published since its
last retry, and nothing of an earlier attempt is left in them.
-/

namespace ParserServe

open Foundation

variable {self : StageScheduler} {manual : Prop} {now : Time} {granted : Option LeaseGrant}
  {task task' : TaskRecord} {payload : EventPayload} {payloads : List EventPayload}
  {event row : EventRecord} {events rows : List EventRecord} {taskId : String}
  {p q : TaskStatus → Bool} {errorAt : String → Option ErrorDetail} {old : List String}

/-! ## Events of an attempt -/

theorem EventPayload.movesTo_iff : payload.movesTo taskId p ↔
    ∃ previous current, payload = .taskStatusChanged taskId previous current ∧ p current := by
  constructor
  · intro h
    cases payload with
    | taskStatusChanged id previous current =>
        simp only [EventPayload.movesTo, Bool.and_eq_true, beq_iff_eq] at h
        obtain ⟨rfl, hcurrent⟩ := h
        exact ⟨previous, current, rfl, hcurrent⟩
    | _ => cases h
  · rintro ⟨previous, current, rfl, hcurrent⟩
    simp [EventPayload.movesTo, hcurrent]

theorem EventPayload.movesTo_mono (hpq : ∀ status, p status → q status)
    (h : payload.movesTo taskId p) : payload.movesTo taskId q := by
  obtain ⟨previous, current, rfl, hcurrent⟩ := EventPayload.movesTo_iff.mp h
  exact EventPayload.movesTo_iff.mpr ⟨previous, current, rfl, hpq current hcurrent⟩

theorem EventPayload.taskId?_of_movesTo (h : payload.movesTo taskId p) :
    payload.taskId? = some taskId ∧ payload.callbackSource := by
  obtain ⟨previous, current, rfl, _⟩ := EventPayload.movesTo_iff.mp h
  exact ⟨rfl, rfl⟩

theorem EventPayload.taskId?_of_retries (h : payload.retries taskId) :
    payload.taskId? = some taskId := by
  cases payload with
  | taskStatusChanged id previous current =>
      simp only [EventPayload.retries, Bool.and_eq_true, beq_iff_eq] at h
      rw [← h.1.1]
      rfl
  | _ => cases h

/-- The event neither starts nor ends nor retries the task. -/
structure EventPayload.Quiet (taskId : String) (payload : EventPayload) : Prop where
  started : payload.movesTo taskId (· == .running) = false
  ended : payload.movesTo taskId (·.terminal) = false
  retried : payload.retries taskId = false

theorem EventPayload.Quiet.of_taskId? (h : payload.taskId? ≠ some taskId) :
    payload.Quiet taskId where
  started := Bool.eq_false_iff.mpr fun hmoves => h (taskId?_of_movesTo hmoves).1
  ended := Bool.eq_false_iff.mpr fun hmoves => h (taskId?_of_movesTo hmoves).1
  retried := Bool.eq_false_iff.mpr fun hretries => h (taskId?_of_retries hretries)

theorem EventPayload.Quiet.of_callbackSource (h : payload.callbackSource = false) :
    payload.Quiet taskId := by
  cases payload <;> first | exact ⟨rfl, rfl, rfl⟩ | cases h

theorem EventPayload.Quiet.movesTo (h : payload.Quiet taskId)
    (hp : ∀ status, p status → status.terminal) : payload.movesTo taskId p = false :=
  Bool.eq_false_iff.mpr fun hmoves => by
    simpa [h.ended] using EventPayload.movesTo_mono hp hmoves

theorem mem_of_mem_sinceRetry (h : event ∈ sinceRetry taskId events) : event ∈ events :=
  List.mem_reverse.mp ((List.takeWhile_prefix _).subset h)

/-- Without a retry the attempt goes on. -/
theorem mem_sinceRetry_append (h : ∀ row ∈ rows, row.payload.retries taskId = false) :
    event ∈ sinceRetry taskId (events ++ rows) ↔
      event ∈ rows ∨ event ∈ sinceRetry taskId events := by
  have hrows : ∀ row ∈ rows.reverse, (!row.payload.retries taskId) = true := by
    intro row hrow
    simp [h row (List.mem_reverse.mp hrow)]
  rw [sinceRetry, List.reverse_append, List.takeWhile_append_of_pos hrows, List.mem_append,
    List.mem_reverse]
  rfl

/-- A retry ends it. -/
theorem sinceRetry_append_retry (h : row.payload.retries taskId) :
    sinceRetry taskId (events ++ [row]) = [] := by
  simp [sinceRetry, h]

/-- What is written to an event row but its payload makes no difference. -/
theorem sinceRetry_map {f : EventRecord → EventRecord}
    (hf : ∀ event, (f event).payload = event.payload) :
    sinceRetry taskId (events.map f) = (sinceRetry taskId events).map f := by
  unfold sinceRetry
  rw [← List.map_reverse, List.takeWhile_map]
  congr 2
  funext event
  simp [hf]

/-! ## What the row says -/

/-- The columns that callbacks are made of repeat what the current attempt of the task has
published.  `errorAt` speaks of the events `old` of earlier transactions. -/
structure TaskRecord.Shows (task : TaskRecord) (taskId : String)
    (errorAt : String → Option ErrorDetail) (old : List String) (events : List EventRecord) :
    Prop where
  started : ∀ event ∈ sinceRetry taskId events,
    event.payload.movesTo taskId (· == .running) → task.startedAt = some event.occurredAt
  unstarted : (∀ event ∈ sinceRetry taskId events,
    event.payload.movesTo taskId (· == .running) = false) → task.startedAt = none
  ended : ∀ event ∈ sinceRetry taskId events,
    event.payload.movesTo taskId (·.terminal) → task.completedAt = some event.occurredAt
  unended : (∀ event ∈ sinceRetry taskId events,
    event.payload.movesTo taskId (·.terminal) = false) → task.completedAt = none
  failed : ∀ event ∈ sinceRetry taskId events, event.payload.movesTo taskId (· == .failed) →
    task.status = .failed ∧ task.error.isSome ∧
      (event.eventId ∈ old → errorAt event.eventId = task.error)
  succeeded : ∀ event ∈ events, event.payload.movesTo taskId (· == .succeeded) →
    task.status = .succeeded ∧ task.completedAt = some event.occurredAt
  waiting : task.status = .pending ∨ task.status = .leased → task.startedAt = none
  active : task.status.active → task.completedAt = none

/-- What a call does to these columns, with the events it publishes. -/
inductive ColumnMove (now : Time) (task task' : TaskRecord) (payloads : List EventPayload) : Prop
  | quiet : task'.startedAt = task.startedAt → task'.completedAt = task.completedAt →
      task'.error = task.error →
      (task'.status = task.status ∨ (task.status = .pending ∨ task.status = .leased) ∧
        (task'.status = .pending ∨ task'.status = .leased)) →
      (∀ payload ∈ payloads, payload.Quiet task.taskId) → ColumnMove now task task' payloads
  | started : task.status = .leased → task'.status = .running →
      task'.startedAt = some (task.startedAt.getD now) → task'.completedAt = task.completedAt →
      payloads = [.taskStatusChanged task.taskId .leased .running] →
        ColumnMove now task task' payloads
  | ended : task.status.active → task'.status.terminal → task'.startedAt = task.startedAt →
      task'.completedAt = some now → (task'.status = .failed → task'.error.isSome) →
      payloads = [.taskStatusChanged task.taskId task.status task'.status] →
        ColumnMove now task task' payloads
  | retried : task.status = .failed ∨ task.status = .cancelled →
      task'.startedAt = none → task'.completedAt = none →
      payloads = [.taskStatusChanged task.taskId task.status .pending] →
        ColumnMove now task task' payloads

/-! ## Every call makes such moves -/

theorem active_of_canTransitionTask {previous current : TaskStatus}
    (h : canTransitionTask previous current) (hcurrent : current.terminal) : previous.active := by
  cases previous <;> cases current <;>
    first | rfl | exact absurd h (by decide) | exact absurd hcurrent (by decide)

theorem not_terminal_of_active {status : TaskStatus} (h : status.active) :
    status.terminal = false := by
  cases status <;> first | rfl | cases h

theorem statusChange_of_ends {previous current : TaskStatus} (hprevious : previous.active)
    (hcurrent : current.terminal) :
    statusChange taskId previous current = [.taskStatusChanged taskId previous current] := by
  unfold statusChange
  rw [if_neg]
  rintro rfl
  simp [not_terminal_of_active hprevious] at hcurrent

/-- A status that changes before the first start makes no other difference. -/
theorem quiet_of_statusChange {previous current : TaskStatus}
    (hcurrent : current = .pending ∨ current = .leased) (hprevious : previous.active) :
    ∀ payload ∈ statusChange taskId previous current, payload.Quiet taskId := by
  intro payload hpayload
  unfold statusChange at hpayload
  split at hpayload
  · cases hpayload
  · rw [List.mem_singleton.mp hpayload]
    rcases hcurrent with rfl | rfl <;> cases previous <;> constructor <;>
      simp_all [EventPayload.movesTo, EventPayload.retries, TaskStatus.terminal, TaskStatus.active]

theorem Settled.columnMove {settled : TaskRecord} (h : Settled now task settled)
    (hsound : ∀ stage ∈ task.stages, stage.Sound) :
    ColumnMove now task (settled.updateProgress now)
      (statusChange task.taskId task.status settled.status) := by
  cases h with
  | @failed stage hmem hfailed htrans =>
      have hactive := active_of_canTransitionTask htrans rfl
      exact .ended hactive rfl rfl rfl (fun _ => (hsound stage hmem).error.mpr hfailed)
        (statusChange_of_ends hactive rfl)
  | succeeded _ _ htrans =>
      have hactive := active_of_canTransitionTask htrans rfl
      exact .ended hactive rfl rfl rfl (fun h => by cases h)
        (statusChange_of_ends hactive rfl)
  | released _ _ hleased =>
      exact .quiet rfl rfl rfl (.inr ⟨.inr hleased, .inl rfl⟩)
        (quiet_of_statusChange (.inl rfl) (by rw [hleased]; rfl))
  | unsettled =>
      exact .quiet rfl rfl rfl (.inl rfl) (by simp [statusChange])

/-- A stage row is none of the columns. -/
theorem ColumnMove.of_saveStage {stage : StageRecord}
    (h : ColumnMove now (task.saveStage stage) task' payloads) :
    ColumnMove now task task' payloads := by
  cases h with
  | quiet hstarted hcompleted herror hstatus hpayloads =>
      exact .quiet hstarted hcompleted herror hstatus hpayloads
  | started hleased hrunning hstarted hcompleted hpayloads =>
      exact .started hleased hrunning hstarted hcompleted hpayloads
  | ended hactive hterminal hstarted hcompleted herror hpayloads =>
      exact .ended hactive hterminal hstarted hcompleted herror hpayloads
  | retried hended hstarted hcompleted hpayloads =>
      exact .retried hended hstarted hcompleted hpayloads

theorem TaskMove.columnMove (h : TaskMove manual now task granted payloads task')
    (hsound : ∀ stage ∈ task.stages, stage.Sound) : ColumnMove now task task' payloads := by
  cases h with
  | leased grant _ _ hactive =>
      by_cases hs : task.status = .pending
      · simp only [hs, if_true]
        exact .quiet rfl rfl rfl (.inr ⟨.inl hs, .inr rfl⟩)
          (quiet_of_statusChange (.inr rfl) rfl)
      · simp only [hs, if_false]
        exact .quiet rfl rfl rfl (.inl rfl) (by simp [statusChange])
  | renewed => exact .quiet rfl rfl rfl (.inl rfl) (by simp)
  | started =>
      by_cases hs : task.status = .leased
      · simp only [hs, if_true]
        exact .started hs rfl rfl rfl rfl
      · simp only [hs, if_false]
        exact .quiet rfl rfl rfl (.inl rfl) (by simp [statusChange])
  | progressed =>
      refine .quiet rfl rfl rfl (.inl rfl) fun payload hpayload => ?_
      rw [List.mem_singleton.mp hpayload]
      exact ⟨rfl, rfl, rfl⟩
  | @ended stage stage' settled hmem hend hsettled =>
      have hsaved : ∀ saved ∈ (task.saveStage stage').stages, saved.Sound := by
        intro saved hsaved
        rcases mem_replaceKey_cases hsaved with rfl | ⟨hsaved, _⟩
        · exact hend.sound (hsound stage hmem)
        · exact hsound saved hsaved
      exact (hsettled.columnMove hsaved).of_saveStage
  | cancelled _ hactive =>
      exact .ended hactive rfl rfl rfl (fun h => by cases h)
        (statusChange_of_ends hactive rfl)
  | retried _ hended =>
      refine .retried hended rfl rfl ?_
      rcases hended with hs | hs <;> simp [statusChange, hs]

/-! ## The row keeps up -/

/-- Events that say nothing of an attempt leave a row with the same columns as it was. -/
theorem TaskRecord.Shows.quiet (h : task.Shows taskId errorAt old events)
    (hstarted : task'.startedAt = task.startedAt)
    (hcompleted : task'.completedAt = task.completedAt) (herror : task'.error = task.error)
    (hstatus : task'.status = task.status ∨ (task.status = .pending ∨ task.status = .leased) ∧
      (task'.status = .pending ∨ task'.status = .leased))
    (hquiet : ∀ row ∈ rows, row.payload.Quiet taskId) :
    task'.Shows taskId errorAt old (events ++ rows) := by
  have hsince (event : EventRecord) : event ∈ sinceRetry taskId (events ++ rows) ↔
      event ∈ rows ∨ event ∈ sinceRetry taskId events :=
    mem_sinceRetry_append fun row hrow => (hquiet row hrow).retried
  have hold {p : TaskStatus → Bool} {event : EventRecord}
      (hp : ∀ row ∈ rows, row.payload.movesTo taskId p = false)
      (hmem : event ∈ sinceRetry taskId (events ++ rows))
      (hmoves : event.payload.movesTo taskId p) : event ∈ sinceRetry taskId events := by
    refine ((hsince event).mp hmem).resolve_left fun hrow => ?_
    simp [hp event hrow] at hmoves
  have hstarts := fun row hrow => (hquiet row hrow).started
  have hends := fun row hrow => (hquiet row hrow).ended
  have hfails : ∀ row ∈ rows, row.payload.movesTo taskId (· == .failed) = false :=
    fun row hrow => (hquiet row hrow).movesTo (by simp [TaskStatus.terminal])
  have hsucceeds : ∀ row ∈ rows, row.payload.movesTo taskId (· == .succeeded) = false :=
    fun row hrow => (hquiet row hrow).movesTo (by simp [TaskStatus.terminal])
  have hkept {status : TaskStatus} (hs : task.status = status) (hterminal : status.terminal) :
      task'.status = status := by
    rcases hstatus with heq | ⟨hs' | hs', _⟩
    · exact heq.trans hs
    · rw [← hs, hs'] at hterminal
      cases hterminal
    · rw [← hs, hs'] at hterminal
      cases hterminal
  constructor
  case started =>
    intro event hmem hmoves
    exact hstarted.trans (h.started event (hold hstarts hmem hmoves) hmoves)
  case unstarted =>
    intro hnone
    exact hstarted.trans
      (h.unstarted fun event hmem => hnone event ((hsince event).mpr (.inr hmem)))
  case ended =>
    intro event hmem hmoves
    exact hcompleted.trans (h.ended event (hold hends hmem hmoves) hmoves)
  case unended =>
    intro hnone
    exact hcompleted.trans
      (h.unended fun event hmem => hnone event ((hsince event).mpr (.inr hmem)))
  case failed =>
    intro event hmem hmoves
    obtain ⟨hs, hsome, heq⟩ := h.failed event (hold hfails hmem hmoves) hmoves
    rw [herror]
    exact ⟨hkept hs rfl, hsome, heq⟩
  case succeeded =>
    intro event hmem hmoves
    rcases List.mem_append.mp hmem with hmem | hrow
    · obtain ⟨hs, heq⟩ := h.succeeded event hmem hmoves
      exact ⟨hkept hs rfl, hcompleted.trans heq⟩
    · simp [hsucceeds event hrow] at hmoves
  case waiting =>
    intro hs
    refine hstarted.trans (h.waiting ?_)
    rcases hstatus with heq | ⟨hs', _⟩
    · rwa [heq] at hs
    · exact hs'
  case active =>
    intro hactive
    refine hcompleted.trans (h.active ?_)
    rcases hstatus with heq | ⟨hs' | hs', _⟩
    · rwa [heq] at hactive
    · rw [hs']
      rfl
    · rw [hs']
      rfl

/-- The first start of an attempt. -/
theorem TaskRecord.Shows.start (h : task.Shows taskId errorAt old events)
    (hleased : task.status = .leased) (hrunning : task'.status = .running)
    (hstarted : task'.startedAt = some (task.startedAt.getD row.occurredAt))
    (hcompleted : task'.completedAt = task.completedAt)
    (hpayload : row.payload = .taskStatusChanged taskId .leased .running) :
    task'.Shows taskId errorAt old (events ++ [row]) := by
  have hsince (event : EventRecord) : event ∈ sinceRetry taskId (events ++ [row]) ↔
      event = row ∨ event ∈ sinceRetry taskId events := by
    rw [mem_sinceRetry_append (by simp [hpayload, EventPayload.retries, TaskStatus.terminal]),
      List.mem_singleton]
  have hnone := h.waiting (.inr hleased)
  constructor
  case started =>
    intro event hmem hmoves
    rcases (hsince event).mp hmem with rfl | hmem
    · rw [hstarted, hnone]
      rfl
    · cases hnone.symm.trans (h.started event hmem hmoves)
  case unstarted =>
    intro hfresh
    have hrow := hfresh row ((hsince row).mpr (.inl rfl))
    simp [hpayload, EventPayload.movesTo] at hrow
  case ended =>
    intro event hmem hmoves
    rcases (hsince event).mp hmem with rfl | hmem
    · simp [hpayload, EventPayload.movesTo, TaskStatus.terminal] at hmoves
    · exact hcompleted.trans (h.ended event hmem hmoves)
  case unended =>
    intro hopen
    exact hcompleted.trans
      (h.unended fun event hmem => hopen event ((hsince event).mpr (.inr hmem)))
  case failed =>
    intro event hmem hmoves
    rcases (hsince event).mp hmem with rfl | hmem
    · simp [hpayload, EventPayload.movesTo] at hmoves
    · cases hleased.symm.trans (h.failed event hmem hmoves).1
  case succeeded =>
    intro event hmem hmoves
    rcases List.mem_append.mp hmem with hmem | hmem
    · cases hleased.symm.trans (h.succeeded event hmem hmoves).1
    · simp [List.mem_singleton.mp hmem, hpayload, EventPayload.movesTo] at hmoves
  case waiting => simp [hrunning]
  case active => exact fun _ => hcompleted.trans (h.active (by rw [hleased]; rfl))

/-- The end of an attempt. -/
theorem TaskRecord.Shows.finish (h : task.Shows taskId errorAt old events)
    (hactive : task.status.active) (hterminal : task'.status.terminal)
    (hstarted : task'.startedAt = task.startedAt)
    (hcompleted : task'.completedAt = some row.occurredAt)
    (herror : task'.status = .failed → task'.error.isSome)
    (hpayload : row.payload = .taskStatusChanged taskId task.status task'.status)
    (hnew : row.eventId ∉ old) : task'.Shows taskId errorAt old (events ++ [row]) := by
  have hopen := not_terminal_of_active hactive
  have hretries : row.payload.retries taskId = false := by
    simp [hpayload, EventPayload.retries, hopen]
  have hsince (event : EventRecord) : event ∈ sinceRetry taskId (events ++ [row]) ↔
      event = row ∨ event ∈ sinceRetry taskId events := by
    rw [mem_sinceRetry_append (by simpa using hretries), List.mem_singleton]
  constructor
  case started =>
    intro event hmem hmoves
    rcases (hsince event).mp hmem with rfl | hmem
    · have hrunning : task'.status = .running := by
        simpa [hpayload, EventPayload.movesTo] using hmoves
      simp [hrunning, TaskStatus.terminal] at hterminal
    · exact hstarted.trans (h.started event hmem hmoves)
  case unstarted =>
    intro hfresh
    exact hstarted.trans
      (h.unstarted fun event hmem => hfresh event ((hsince event).mpr (.inr hmem)))
  case ended =>
    intro event hmem hmoves
    rcases (hsince event).mp hmem with rfl | hmem
    · exact hcompleted
    · cases (h.active hactive).symm.trans (h.ended event hmem hmoves)
  case unended =>
    intro hnone
    have hrow := hnone row ((hsince row).mpr (.inl rfl))
    simp [hpayload, EventPayload.movesTo, hterminal] at hrow
  case failed =>
    intro event hmem hmoves
    rcases (hsince event).mp hmem with rfl | hmem
    · have hfailed : task'.status = .failed := by
        simpa [hpayload, EventPayload.movesTo] using hmoves
      exact ⟨hfailed, herror hfailed, fun hold => absurd hold hnew⟩
    · simp [(h.failed event hmem hmoves).1, TaskStatus.terminal] at hopen
  case succeeded =>
    intro event hmem hmoves
    rcases List.mem_append.mp hmem with hmem | hmem
    · simp [(h.succeeded event hmem hmoves).1, TaskStatus.terminal] at hopen
    · rw [List.mem_singleton.mp hmem] at hmoves ⊢
      exact ⟨by simpa [hpayload, EventPayload.movesTo] using hmoves, hcompleted⟩
  case waiting =>
    rintro (hs | hs) <;> simp [hs, TaskStatus.terminal] at hterminal
  case active =>
    intro hactive'
    simp [not_terminal_of_active hactive'] at hterminal

/-- A retry clears the row. -/
theorem TaskRecord.Shows.restart (h : task.Shows taskId errorAt old events)
    (hended : task.status = .failed ∨ task.status = .cancelled)
    (hstarted : task'.startedAt = none) (hcompleted : task'.completedAt = none)
    (hpayload : row.payload = .taskStatusChanged taskId task.status .pending) :
    task'.Shows taskId errorAt old (events ++ [row]) := by
  have hretries : row.payload.retries taskId := by
    rcases hended with hs | hs <;> simp [hpayload, hs, EventPayload.retries, TaskStatus.terminal]
  have hsince : sinceRetry taskId (events ++ [row]) = [] := sinceRetry_append_retry hretries
  constructor
  case succeeded =>
    intro event hmem hmoves
    rcases List.mem_append.mp hmem with hmem | hmem
    · have hs := (h.succeeded event hmem hmoves).1
      rcases hended with hs' | hs' <;> cases hs.symm.trans hs'
    · simp [List.mem_singleton.mp hmem, hpayload, EventPayload.movesTo] at hmoves
  case waiting => exact fun _ => hstarted
  case active => exact fun _ => hcompleted
  all_goals simp [hsince, hstarted, hcompleted]

/-- The row repeats what a call has just published. -/
theorem TaskRecord.Shows.move (h : task.Shows task.taskId errorAt old events)
    (hmove : ColumnMove now task task' payloads) (hrows : rows.map (·.payload) = payloads)
    (htime : ∀ row ∈ rows, row.occurredAt = now) (hnew : ∀ row ∈ rows, row.eventId ∉ old) :
    task'.Shows task.taskId errorAt old (events ++ rows) := by
  have hone {payload : EventPayload} (hpayloads : payloads = [payload]) :
      ∃ row, rows = [row] ∧ row.payload = payload ∧ row.occurredAt = now ∧ row.eventId ∉ old := by
    obtain ⟨row, rfl, hpayload⟩ := List.map_eq_singleton_iff.mp (hrows.trans hpayloads)
    exact ⟨row, rfl, hpayload, htime row (List.mem_singleton_self row),
      hnew row (List.mem_singleton_self row)⟩
  cases hmove with
  | quiet hstarted hcompleted herror hstatus hquiet =>
      refine h.quiet hstarted hcompleted herror hstatus fun row hrow => hquiet _ ?_
      exact hrows ▸ List.mem_map_of_mem hrow
  | started hleased hrunning hstarted hcompleted hpayloads =>
      obtain ⟨row, rfl, hpayload, rfl, _⟩ := hone hpayloads
      exact h.start hleased hrunning hstarted hcompleted hpayload
  | ended hactive hterminal hstarted hcompleted herror hpayloads =>
      obtain ⟨row, rfl, hpayload, rfl, hfresh⟩ := hone hpayloads
      exact h.finish hactive hterminal hstarted hcompleted herror hpayload hfresh
  | retried hended hstarted hcompleted hpayloads =>
      obtain ⟨row, rfl, hpayload, _, _⟩ := hone hpayloads
      exact h.restart hended hstarted hcompleted hpayload

/-- A write to the event table that keeps what the events say. -/
theorem TaskRecord.Shows.map {f : EventRecord → EventRecord}
    (hf : ∀ event, (f event).payload = event.payload ∧ (f event).occurredAt = event.occurredAt ∧
      (f event).eventId = event.eventId)
    (h : task.Shows taskId errorAt old events) : task.Shows taskId errorAt old (events.map f) := by
  have hsince : sinceRetry taskId (events.map f) = (sinceRetry taskId events).map f :=
    sinceRetry_map fun event => (hf event).1
  constructor
  case unstarted | unended =>
    intro hnone
    rw [hsince, List.forall_mem_map] at hnone
    simp only [(hf _).1] at hnone
    first | exact h.unstarted hnone | exact h.unended hnone
  case waiting => exact h.waiting
  case active => exact h.active
  case succeeded =>
    rw [List.forall_mem_map]
    simpa only [(hf _).1, (hf _).2.1] using h.succeeded
  all_goals
    rw [hsince, List.forall_mem_map]
    simp only [(hf _).1, (hf _).2.1, (hf _).2.2]
  case started => exact h.started
  case ended => exact h.ended
  case failed => exact h.failed

/-- What is known of the errors after a commit. -/
theorem TaskRecord.Shows.commit {errorAt' : String → Option ErrorDetail} {old' : List String}
    (h : task.Shows taskId errorAt old events)
    (herror : ∀ event ∈ events, event.payload.taskId? = some taskId →
      event.eventId ∈ old ∧ errorAt' event.eventId = errorAt event.eventId ∨
        errorAt' event.eventId = task.error) : task.Shows taskId errorAt' old' events :=
  { h with
    failed := by
      intro event hmem hmoves
      obtain ⟨hs, hsome, hold⟩ := h.failed event hmem hmoves
      refine ⟨hs, hsome, fun _ => ?_⟩
      rcases herror event (mem_of_mem_sinceRetry hmem) (EventPayload.taskId?_of_movesTo hmoves).1
        with ⟨hmem, heq⟩ | heq
      · exact heq.trans (hold hmem)
      · exact heq }

/-! ## Over a transaction -/

/-- The rows that a call appends. -/
theorem publishAll_rows (db : Db) (now : Time) (payloads : List EventPayload) :
    ∃ rows, (db.publishAll now payloads).events = db.events ++ rows ∧
      rows.map (·.payload) = payloads ∧
      ∀ row ∈ rows, row.occurredAt = now ∧ row.callbackProcessed = false := by
  induction payloads generalizing db with
  | nil => exact ⟨[], (List.append_nil _).symm, rfl, by simp⟩
  | cons payload payloads ih =>
      obtain ⟨rows, hevents, hpayloads, hrows⟩ := ih (db.publish now payload)
      refine ⟨⟨db.eventIdFactory db.published, payload, now, false⟩ :: rows, ?_, ?_, ?_⟩
      · exact hevents.trans (List.append_assoc _ _ _)
      · rw [List.map_cons, hpayloads]
      · simpa using hrows

/-- What holds in a transaction that began on `start`: callback events are only appended, they
are about tasks there are, no task is removed and no subscription changes, and the rows of the
tasks keep up. -/
structure KeepsUp (errorAt : String → Option ErrorDetail) (start db : Db) : Prop where
  appended : ∃ rows, db.events = start.events ++ rows ∧
    ∀ row ∈ rows, row.payload.callbackSource → row.callbackProcessed = false
  known : ∀ event ∈ db.events, event.payload.callbackSource →
    ∀ taskId ∈ event.payload.taskId?, taskId ∈ db.tasks.map (·.taskId)
  sound : ∀ task ∈ db.tasks, ∀ stage ∈ task.stages, stage.Sound
  kept : ∀ taskId ∈ start.tasks.map (·.taskId), taskId ∈ db.tasks.map (·.taskId)
  subscribed : ∀ task ∈ db.tasks, task.taskId ∉ start.tasks.map (·.taskId) ∨
    ∃ task₀ ∈ start.tasks, task₀.taskId = task.taskId ∧ task₀.callback = task.callback
  shows : db.EventsKeyed → ∀ task ∈ db.tasks,
    task.Shows task.taskId errorAt (start.events.map (·.eventId)) db.events

variable {start db db' : Db}

/-- New events that no task row has to show. -/
theorem KeepsUp.quiet (h : KeepsUp errorAt start db) (htasks : db'.tasks = db.tasks)
    (hevents : db'.events = db.events ++ rows)
    (hrows : ∀ row ∈ rows, row.payload.callbackSource = false) : KeepsUp errorAt start db' where
  appended := by
    obtain ⟨rows₀, happended, hrows₀⟩ := h.appended
    refine ⟨rows₀ ++ rows, by rw [hevents, happended, List.append_assoc], ?_⟩
    intro row hrow hsource
    rcases List.mem_append.mp hrow with hrow | hrow
    · exact hrows₀ row hrow hsource
    · simp [hrows row hrow] at hsource
  known := by
    intro event hmem hsource
    rw [hevents] at hmem
    rw [htasks]
    rcases List.mem_append.mp hmem with hmem | hmem
    · exact h.known event hmem hsource
    · simp [hrows event hmem] at hsource
  sound := htasks ▸ h.sound
  kept := htasks ▸ h.kept
  subscribed := htasks ▸ h.subscribed
  shows := by
    intro hkeyed task htask
    rw [htasks] at htask
    have hold : db.EventsKeyed := by
      rw [Db.EventsKeyed, hevents, List.map_append] at hkeyed
      exact hkeyed.of_append_left
    rw [hevents]
    exact (h.shows hold task htask).quiet rfl rfl rfl (.inl rfl)
      fun row hrow => .of_callbackSource (hrows row hrow)

/-- A task written back with what it publishes. -/
theorem KeepsUp.saved (h : KeepsUp errorAt start db) (hmem : task ∈ db.tasks)
    (hid : task'.taskId = task.taskId) (hcallback : task'.callback = task.callback)
    (hsound : ∀ stage ∈ task'.stages, stage.Sound) (hmove : ColumnMove now task task' payloads)
    (habout : ∀ payload ∈ payloads, payload.taskId? = some task.taskId) :
    KeepsUp errorAt start ((db.saveTask task').publishAll now payloads) := by
  obtain ⟨rows, hevents, hpayloads, hrows⟩ := publishAll_rows (db.saveTask task') now payloads
  rw [Db.saveTask_events] at hevents
  have hids : ((db.saveTask task').publishAll now payloads).tasks.map (·.taskId) =
      db.tasks.map (·.taskId) := by
    rw [Db.publishAll_tasks, saveTask_taskIds]
  have hrow (row : EventRecord) (hrow : row ∈ rows) : row.payload.taskId? = some task.taskId :=
    habout _ (hpayloads ▸ List.mem_map_of_mem hrow)
  obtain ⟨rows₀, happended, hrows₀⟩ := h.appended
  constructor
  case appended =>
    refine ⟨rows₀ ++ rows, by rw [hevents, happended, List.append_assoc], ?_⟩
    intro row hmem hsource
    rcases List.mem_append.mp hmem with hmem | hmem
    · exact hrows₀ row hmem hsource
    · exact (hrows row hmem).2
  case known =>
    intro event hmem' hsource taskId htaskId
    rw [hids]
    rw [hevents] at hmem'
    rcases List.mem_append.mp hmem' with hmem' | hmem'
    · exact h.known event hmem' hsource taskId htaskId
    · obtain rfl := Option.some.inj (htaskId.symm.trans (hrow event hmem'))
      exact List.mem_map_of_mem hmem
  case sound =>
    intro saved hsaved
    rw [Db.publishAll_tasks] at hsaved
    rcases mem_saveTask hsaved with rfl | ⟨hsaved, _⟩
    · exact hsound
    · exact h.sound saved hsaved
  case kept => exact fun taskId hold => hids ▸ h.kept taskId hold
  case subscribed =>
    intro saved hsaved
    rw [Db.publishAll_tasks] at hsaved
    rcases mem_saveTask hsaved with rfl | ⟨hsaved, _⟩
    · rw [hid, hcallback]
      exact h.subscribed task hmem
    · exact h.subscribed saved hsaved
  case shows =>
    intro hkeyed saved hsaved
    rw [Db.EventsKeyed, hevents, List.map_append] at hkeyed
    rw [Db.publishAll_tasks] at hsaved
    rw [hevents]
    have hnew (row : EventRecord) (hrow : row ∈ rows) :
        row.eventId ∉ start.events.map (·.eventId) := by
      intro hold
      refine List.disjoint_of_nodup_append hkeyed ?_ (List.mem_map_of_mem hrow)
      rw [happended, List.map_append]
      exact List.mem_append_left _ hold
    have hshows := h.shows hkeyed.of_append_left
    rcases mem_saveTask hsaved with rfl | ⟨hsaved, hne⟩
    · rw [hid]
      exact (hshows task hmem).move hmove hpayloads (fun row hrow => (hrows row hrow).1) hnew
    · refine (hshows saved hsaved).quiet rfl rfl rfl (.inl rfl) fun row hmem' =>
        .of_taskId? fun heq => hne ?_
      rw [hid]
      exact Option.some.inj (heq.symm.trans (hrow row hmem'))

/-- A task of which nothing was said. -/
theorem KeepsUp.created {request : CreateTaskRequest} {idempotencyKey : Option String}
    {metadata : Option SourceMetadata} (h : KeepsUp errorAt start db)
    (hfresh : taskId ∉ db.tasks.map (·.taskId)) :
    KeepsUp errorAt start (({ db with
      tasks := db.tasks ++ [newTask request idempotencyKey taskId metadata now] }).publish now
        (.taskCreated taskId)) := by
  obtain ⟨rows₀, happended, hrows₀⟩ := h.appended
  constructor
  case appended =>
    refine ⟨rows₀ ++ [⟨db.eventIdFactory db.published, .taskCreated taskId, now, false⟩], ?_, ?_⟩
    · rw [Db.publish, happended, List.append_assoc]
    · intro row hmem hsource
      rcases List.mem_append.mp hmem with hmem | hmem
      · exact hrows₀ row hmem hsource
      · rw [List.mem_singleton.mp hmem]
  case known =>
    intro event hmem hsource id hid
    rw [Db.publish_tasks, List.map_append]
    rcases List.mem_append.mp hmem with hmem | hmem
    · exact List.mem_append_left _ (h.known event hmem hsource id hid)
    · rw [List.mem_singleton.mp hmem] at hid
      cases hid
      exact List.mem_append_right _ (List.mem_singleton_self _)
  case sound =>
    intro task htask
    rcases List.mem_append.mp htask with htask | htask
    · exact h.sound task htask
    · rw [List.mem_singleton.mp htask]
      exact soundStages_invariant.created request idempotencyKey taskId metadata now
  case kept =>
    intro id hold
    rw [Db.publish_tasks, List.map_append]
    exact List.mem_append_left _ (h.kept id hold)
  case subscribed =>
    intro task htask
    rcases List.mem_append.mp htask with htask | htask
    · exact h.subscribed task htask
    · rw [List.mem_singleton.mp htask]
      exact .inl fun hold => hfresh (h.kept taskId hold)
  case shows =>
    intro hkeyed task htask
    have hold : db.EventsKeyed := by
      rw [Db.EventsKeyed, Db.publish, List.map_append] at hkeyed
      exact hkeyed.of_append_left
    have hquiet (id : String) : ∀ row ∈ [(⟨db.eventIdFactory db.published, .taskCreated taskId, now,
        false⟩ : EventRecord)], row.payload.Quiet id := by
      intro row hrow
      rw [List.mem_singleton.mp hrow]
      exact ⟨rfl, rfl, rfl⟩
    rcases List.mem_append.mp htask with htask | htask
    · exact (h.shows hold task htask).quiet rfl rfl rfl (.inl rfl) (hquiet _)
    · rw [List.mem_singleton.mp htask]
      have hsilent {p : TaskStatus → Bool} (event : EventRecord) (hmem : event ∈ db.events) :
          event.payload.movesTo taskId p = false := by
        refine Bool.eq_false_iff.mpr fun hmoves => hfresh ?_
        obtain ⟨hid, hsource⟩ := EventPayload.taskId?_of_movesTo hmoves
        exact h.known event hmem hsource taskId hid
      have hnew : (newTask request idempotencyKey taskId metadata now).Shows taskId errorAt
          (start.events.map (·.eventId)) db.events := by
        constructor
        case unstarted => exact fun _ => rfl
        case unended => exact fun _ => rfl
        case waiting => exact fun _ => rfl
        case active => exact fun _ => rfl
        case succeeded => exact fun event hmem hmoves => by simp [hsilent event hmem] at hmoves
        all_goals
          intro event hmem hmoves
          simp [hsilent event (mem_of_mem_sinceRetry hmem)] at hmoves
      exact hnew.quiet rfl rfl rfl (.inl rfl) (hquiet taskId)

theorem TaskMove.about (h : TaskMove manual now task granted payloads task') :
    ∀ payload ∈ payloads, payload.taskId? = some task.taskId := by
  have hchange (previous current : TaskStatus) :
      ∀ payload ∈ statusChange task.taskId previous current,
        payload.taskId? = some task.taskId := by
    intro payload hpayload
    unfold statusChange at hpayload
    split at hpayload
    · cases hpayload
    · rw [List.mem_singleton.mp hpayload]
      rfl
  cases h with
  | leased | started | ended | cancelled | retried => exact hchange _ _
  | renewed => simp
  | progressed =>
      intro payload hpayload
      rw [List.mem_singleton.mp hpayload]
      rfl

theorem TaskMove.callback (h : TaskMove manual now task granted payloads task') :
    task'.callback = task.callback := by
  cases h with
  | ended _ _ hsettled => cases hsettled <;> rfl
  | leased | renewed | started | progressed | cancelled | retried => rfl

theorem DbChange.keepsUp (h : DbChange manual now db granted db') (hkeys : db.KeysNodup)
    (hdb : KeepsUp errorAt start db) : KeepsUp errorAt start db' := by
  cases h with
  | untouched htasks hevents =>
      exact hdb.quiet htasks (hevents.trans (List.append_nil _).symm) (by simp)
  | created _ hfresh => exact hdb.created hfresh
  | @routed task task' payloads hmem hnone hrouted =>
      obtain ⟨pipeline, stages, _, _, _, htask, hpayloads⟩ := hrouted.plan
      have hsound : ∀ stage ∈ task'.stages, stage.Sound :=
        soundStages_invariant.routed (hdb.sound task hmem) hnone hrouted
      subst htask hpayloads
      refine hdb.saved hmem rfl rfl hsound (.quiet rfl rfl rfl (.inl rfl) ?_)
        (by simp [EventPayload.taskId?])
      intro payload hpayload
      rw [List.mem_singleton.mp hpayload]
      exact ⟨rfl, rfl, rfl⟩
  | @moved task task' _ payloads hmem hmove =>
      exact hdb.saved hmem hmove.taskId hmove.callback
        (soundStages_invariant.moved (hdb.sound task hmem) (hkeys.task hmem) hmove)
        (hmove.columnMove (hdb.sound task hmem)) hmove.about

/-- Every transaction keeps the rows of the tasks up with the events. -/
theorem ControlStep.keepsUp {label : Label} (h : ControlStep self db label db')
    (hkeys : db.KeysNodup) (hdb : KeepsUp errorAt start db) : KeepsUp errorAt start db' := by
  refine h.keeps (I := KeepsUp errorAt start)
    (fun _ _ _ _ _ hkeys hdb hchange => hchange.keepsUp hkeys hdb) ?_ ?_ hkeys hdb
  · rintro db db' hdb ⟨htasks, rows, hevents, hrows⟩
    refine hdb.quiet htasks hevents fun row hrow => ?_
    have hworker := hrows row hrow
    cases hpayload : row.payload <;> rw [hpayload] at hworker <;> first | rfl | cases hworker
  · intro db task stages _ hdb hmem hperm
    have hsaved : KeepsUp errorAt start
        ((db.saveTask { task with stages := stages }).publishAll 0 []) :=
      hdb.saved hmem rfl rfl (soundStages_invariant.reordered (hdb.sound task hmem) hperm)
        (.quiet rfl rfl rfl (.inl rfl) (by simp)) (by simp)
    exact hsaved

end ParserServe
