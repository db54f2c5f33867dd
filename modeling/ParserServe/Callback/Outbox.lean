import ParserServe.Callback.LateResults
import ParserServe.Lifecycle.CurrentAttempt
import ParserServe.Lifecycle.Frames
import ParserServe.Lifecycle.Retry

/-! # What subscribers are told

A pass of `materialize` makes a delivery of each subscribed event it selects, from the row of the
task as it is by then.  While that row still shows the event, or nothing written over it, the
delivery says what happened; a retry that comes first takes the error of a failure with it, and
the attempt after it takes the times of a start and of a cancellation.
-/

namespace ParserServe

open Foundation

variable {self : StageScheduler} {db db' : Db} {event row : EventRecord}
  {events selected : List EventRecord} {task : TaskRecord} {record : CallbackDeliveryRecord}
  {now : Time} {maximumAttempts : Nat} {errorAt : String → Option ErrorDetail} {old : List String}

/-! ## The payload of an event -/

/-- A row that shows its current attempt tells an event that is tellable as it was. -/
theorem callbackPayload_faithful {callbackType : CallbackEventType}
    (hshows : task.Shows task.taskId errorAt old db.events) (hmem : event ∈ db.events)
    (hold : event.eventId ∈ old) (htask : event.payload.taskId? = some task.taskId)
    (htell : db.Tellable event) (htype : event.payload.callbackType? = some callbackType) :
    ∃ payload, callbackPayload event task = some (callbackType, payload) ∧
      payload.type = callbackType ∧ payload.time = event.occurredAt ∧
        ∀ detail ∈ payload.error?, errorAt event.eventId = some detail := by
  have htell := htell task.taskId htask
  have hnone : ∀ detail ∈ (none : Option ErrorDetail), errorAt event.eventId = some detail := by
    simp
  cases hpayload : event.payload with
  | taskStatusChanged taskId previous current =>
      rw [hpayload] at htask htype htell
      cases htask
      have hmoves {p : TaskStatus → Bool} (hp : p current) :
          event.payload.movesTo task.taskId p := by
        rw [hpayload]
        simp [EventPayload.movesTo, hp]
      cases current with
      | running =>
          cases htype
          have htime : task.startedAt.getD event.occurredAt = event.occurredAt := by
            rcases htell with hsince | ⟨_, hnone, _⟩
            · rw [hshows.started event hsince (hmoves rfl)]
              rfl
            · rw [hshows.unstarted (hnone (by simp [EventPayload.movesTo]))]
              rfl
          exact ⟨.taskRunning event.occurredAt, by simp only [callbackPayload, hpayload, htime],
            rfl, rfl, hnone⟩
      | succeeded =>
          cases htype
          have htime : task.completedAt.getD event.occurredAt = event.occurredAt := by
            rw [(hshows.succeeded event hmem (hmoves rfl)).2]
            rfl
          exact ⟨.taskSucceeded task.resultUri event.occurredAt,
            by simp only [callbackPayload, hpayload, htime], rfl, rfl, hnone⟩
      | failed =>
          cases htype
          have hsince : event ∈ sinceRetry task.taskId db.events :=
            htell.resolve_right fun h => by simp [EventPayload.movesTo] at h
          have htime : task.completedAt.getD event.occurredAt = event.occurredAt := by
            rw [hshows.ended event hsince (hmoves rfl)]
            rfl
          obtain ⟨_, hsome, herror⟩ := hshows.failed event hsince (hmoves rfl)
          obtain ⟨detail, hdetail⟩ := Option.isSome_iff_exists.mp hsome
          refine ⟨.taskFailed detail event.occurredAt, ?_, rfl, rfl, ?_⟩
          · simp only [callbackPayload, hpayload, hdetail, htime, Option.map_some]
          · rintro _ ⟨⟩
            rw [herror hold, hdetail]
      | cancelled =>
          cases htype
          have htime : task.completedAt.getD event.occurredAt = event.occurredAt := by
            rcases htell with hsince | ⟨_, _, hnone⟩
            · rw [hshows.ended event hsince (hmoves rfl)]
              rfl
            · rw [hshows.unended (hnone (by simp [EventPayload.movesTo]))]
              rfl
          exact ⟨.taskCancelled event.occurredAt, by simp only [callbackPayload, hpayload, htime],
            rfl, rfl, hnone⟩
      | pending | leased => cases htype
  | taskCreated =>
      rw [hpayload] at htype
      cases htype
      exact ⟨.taskCreated event.occurredAt, by simp only [callbackPayload, hpayload], rfl, rfl,
        hnone⟩
  | taskProgressUpdated _ progressPercent stageId =>
      rw [hpayload] at htype
      cases htype
      exact ⟨.taskProgress progressPercent stageId event.occurredAt,
        by simp only [callbackPayload, hpayload], rfl, rfl, hnone⟩
  | taskRouted | workerStatusChanged | callbackDeliveryChanged =>
      rw [hpayload] at htype
      cases htype

/-! ## What a pass writes -/

def EventRecord.processed (event : EventRecord) : EventRecord :=
  { event with callbackProcessed := true }

/-- The tables after a pass over `selected`: these events are marked, each of them has the delivery
it calls for, and what else is published is about deliveries. -/
structure Dispatched (maximumAttempts : Nat) (now : Time) (selected : List EventRecord)
    (db db' : Db) : Prop where
  tasks : db'.tasks = db.tasks
  events : ∃ (mark : EventRecord → EventRecord) (rows : List EventRecord),
    db'.events = db.events.map mark ++ rows ∧
      (∀ event, mark event = event ∨
        mark event = event.processed ∧ event.eventId ∈ selected.map (·.eventId)) ∧
      ∀ row ∈ rows, row.payload.callbackSource = false
  kept : ∀ record ∈ db.deliveries, record ∈ db'.deliveries
  unique : (db.deliveries.map (·.eventId)).Nodup → (db'.deliveries.map (·.eventId)).Nodup
  created : ∀ event ∈ selected, ∃ deliveryId, ∀ record,
    db.newDelivery? event deliveryId maximumAttempts now = some record → record ∈ db'.deliveries

theorem newDelivery?_congr (h : db'.tasks = db.tasks) (event : EventRecord) (deliveryId : String) :
    db'.newDelivery? event deliveryId maximumAttempts now =
      db.newDelivery? event deliveryId maximumAttempts now := by
  have htask : db'.task? = db.task? := by
    funext taskId
    rw [Db.task?, h, Db.task?]
  rw [Db.newDelivery?, htask, Db.newDelivery?]

theorem Dispatched.refl (db : Db) : Dispatched maximumAttempts now [] db db where
  tasks := rfl
  events := ⟨id, [], by simp, fun _ => .inl rfl, by simp⟩
  kept _ h := h
  unique h := h
  created := by simp

theorem Dispatched.trans {first rest : List EventRecord} {db'' : Db}
    (h : Dispatched maximumAttempts now first db db')
    (h' : Dispatched maximumAttempts now rest db' db'') :
    Dispatched maximumAttempts now (first ++ rest) db db'' where
  tasks := h'.tasks.trans h.tasks
  events := by
    obtain ⟨mark, rows, hevents, hmark, hrows⟩ := h.events
    obtain ⟨mark', rows', hevents', hmark', hrows'⟩ := h'.events
    have hquiet (row : EventRecord) : (mark' row).payload = row.payload := by
      rcases hmark' row with heq | ⟨heq, _⟩ <;> rw [heq]
      rfl
    refine ⟨mark' ∘ mark, rows.map mark' ++ rows', ?_, fun event => ?_, fun row hrow => ?_⟩
    · rw [hevents', hevents, List.map_append, List.map_map, List.append_assoc]
    · simp only [Function.comp_apply, List.map_append, List.mem_append]
      rcases hmark event with heq | ⟨heq, hmem⟩ <;> rw [heq]
      · exact (hmark' event).imp_right fun hmarked => ⟨hmarked.1, .inr hmarked.2⟩
      · refine .inr ⟨?_, .inl hmem⟩
        rcases hmark' event.processed with heq' | ⟨heq', _⟩ <;> rw [heq']
        rfl
    · rcases List.mem_append.mp hrow with hrow | hrow
      · obtain ⟨marked, hmarked, rfl⟩ := List.mem_map.mp hrow
        rw [hquiet]
        exact hrows marked hmarked
      · exact hrows' row hrow
  kept record hrecord := h'.kept record (h.kept record hrecord)
  unique hunique := h'.unique (h.unique hunique)
  created := by
    intro event hmem
    rcases List.mem_append.mp hmem with hmem | hmem
    · obtain ⟨deliveryId, hcreated⟩ := h.created event hmem
      exact ⟨deliveryId, fun record hrecord => h'.kept record (hcreated record hrecord)⟩
    · obtain ⟨deliveryId, hcreated⟩ := h'.created event hmem
      exact ⟨deliveryId, fun record hrecord =>
        hcreated record ((newDelivery?_congr h.tasks event deliveryId).trans hrecord)⟩

/-- The row written back over an event marks it and nothing else. -/
theorem markProcessed_events (hkeyed : db.EventsKeyed) (hrow : row ∈ db.events)
    (hsame : row.processed = event.processed) :
    (db.markProcessed event).events = db.events.map fun other =>
      if other.eventId = event.eventId then other.processed else other := by
  have hid : row.processed.eventId = event.processed.eventId := by rw [hsame]
  refine List.map_congr_left fun other hother => ?_
  by_cases heq : other.eventId = event.eventId
  · have hother : other = row :=
      List.inj_on_of_nodup_map hkeyed hother hrow (heq.trans hid.symm)
    rw [if_pos heq, if_pos heq, hother, hsame]
    rfl
  · rw [if_neg heq, if_neg heq]

theorem addDelivery_spec (h : db.addDelivery record now = .ok db') :
    record.eventId ∉ db.deliveries.map (·.eventId) ∧ db'.tasks = db.tasks ∧
      db'.deliveries = db.deliveries ++ [record] ∧
      ∃ row, db'.events = db.events ++ [row] ∧ row.payload.callbackSource = false := by
  unfold Db.addDelivery at h
  split at h
  · simp only [bind_eq_ok, ensure_eq_ok] at h
    obtain ⟨_, hfresh, h⟩ := h
    cases h
    exact ⟨hfresh, rfl, rfl, _, rfl, rfl⟩
  · cases h

theorem materializeEvent_dispatched {deliveryIds : Nat → String}
    {state state' : Db × List CallbackDeliveryRecord} (hrow : row ∈ state.1.events)
    (hsame : row.processed = event.processed) (hkeyed : state.1.EventsKeyed)
    (h : materializeEvent maximumAttempts deliveryIds now state event = .ok state') :
    Dispatched maximumAttempts now [event] state.1 state'.1 := by
  have hmark (other : EventRecord) :
      (if other.eventId = event.eventId then other.processed else other) = other ∨
        (if other.eventId = event.eventId then other.processed else other) = other.processed ∧
          other.eventId ∈ [event].map (·.eventId) := by
    by_cases heq : other.eventId = event.eventId
    · exact .inr ⟨if_pos heq, by simp [heq]⟩
    · exact .inl (if_neg heq)
  have hevents := markProcessed_events hkeyed hrow hsame
  have hmarked : (state.1.markProcessed event).tasks = state.1.tasks := rfl
  simp only [materializeEvent] at h
  split at h
  · next hnone =>
      cases h
      refine ⟨rfl, ⟨_, [], by rw [hevents, List.append_nil], hmark, by simp⟩, fun _ h => h,
        fun h => h, fun other hother => ⟨deliveryIds state.2.length, fun record hrecord => ?_⟩⟩
      rw [List.mem_singleton.mp hother, ← newDelivery?_congr hmarked, hnone] at hrecord
      cases hrecord
  · next record hrecord =>
      obtain ⟨db, hadd, h⟩ := bind_eq_ok.mp h
      cases h
      obtain ⟨hfresh, htasks, hdeliveries, row, hrows, hquiet⟩ := addDelivery_spec hadd
      constructor
      case tasks => exact htasks.trans hmarked
      case events => exact ⟨_, [row], by rw [hrows, hevents], hmark, by simpa using hquiet⟩
      case kept => exact fun old hold => hdeliveries ▸ List.mem_append_left _ hold
      case unique =>
        intro hunique
        rw [hdeliveries, List.map_append]
        exact List.nodup_append'.mpr ⟨hunique, List.nodup_singleton _, by simpa using hfresh⟩
      case created =>
        refine fun other hother => ⟨deliveryIds state.2.length, fun record' hrecord' => ?_⟩
        rw [List.mem_singleton.mp hother, ← newDelivery?_congr hmarked, hrecord] at hrecord'
        cases hrecord'
        rw [hdeliveries]
        exact List.mem_append_right _ (List.mem_singleton_self record)

/-- Identifiers are only appended. -/
theorem materializeEvent_eventIds {deliveryIds : Nat → String}
    {state state' : Db × List CallbackDeliveryRecord}
    (h : materializeEvent maximumAttempts deliveryIds now state event = .ok state') :
    state.1.events.map (·.eventId) <+: state'.1.events.map (·.eventId) := by
  have hmarked : (state.1.markProcessed event).events.map (·.eventId) =
      state.1.events.map (·.eventId) := map_replaceKey _ _ _
  simp only [materializeEvent] at h
  split at h
  · cases h
    exact hmarked ▸ List.prefix_refl _
  · obtain ⟨db, hadd, h⟩ := bind_eq_ok.mp h
    cases h
    obtain ⟨_, _, _, row, hrows, _⟩ := addDelivery_spec hadd
    rw [hrows, List.map_append, hmarked]
    exact List.prefix_append _ _

/-- A pass over events of the table, by induction on the events still to come. -/
theorem materializeEvents_dispatched {deliveryIds : Nat → String}
    {state state' : Db × List CallbackDeliveryRecord}
    (hrows : ∀ event ∈ selected, ∃ row ∈ state.1.events, row.processed = event.processed)
    (h : selected.foldlM (materializeEvent maximumAttempts deliveryIds now) state = .ok state')
    (hkeyed : state'.1.EventsKeyed) : Dispatched maximumAttempts now selected state.1 state'.1 := by
  induction selected generalizing state with
  | nil =>
      cases h
      exact .refl _
  | cons event rest ih =>
      rw [List.foldlM_cons] at h
      obtain ⟨state₁, hone, hrest⟩ := bind_eq_ok.mp h
      have hids : state₁.1.events.map (·.eventId) <+: state'.1.events.map (·.eventId) :=
        foldlM_keeps (I := fun later : Db × List CallbackDeliveryRecord =>
            state₁.1.events.map EventRecord.eventId <+: later.1.events.map EventRecord.eventId)
          (fun _ _ _ hprior hone => hprior.trans (materializeEvent_eventIds hone))
          (List.prefix_refl _) hrest
      have hkeyed₁ : state₁.1.EventsKeyed := hkeyed.sublist hids.sublist
      have hkeyed₀ : state.1.EventsKeyed :=
        hkeyed₁.sublist (materializeEvent_eventIds hone).sublist
      obtain ⟨row, hrow, hsame⟩ := hrows event List.mem_cons_self
      have hfirst := materializeEvent_dispatched hrow hsame hkeyed₀ hone
      refine hfirst.trans (ih (fun other hother => ?_) hrest)
      obtain ⟨row, hrow, hsame⟩ := hrows other (List.mem_cons_of_mem _ hother)
      obtain ⟨mark, rows, hevents, hmark, _⟩ := hfirst.events
      refine ⟨mark row, ?_, ?_⟩
      · rw [hevents]
        exact List.mem_append_left _ (List.mem_map_of_mem hrow)
      · rcases hmark row with heq | ⟨heq, _⟩ <;> rw [heq]
        · exact hsame
        · exact hsame

theorem mem_unprocessedEvents {limit : Nat} (h : event ∈ db.unprocessedEvents limit) :
    event ∈ db.events ∧ event.callbackProcessed = false := by
  have hmem := List.mem_of_mem_take h
  rw [List.mem_insertionSort, List.mem_filter] at hmem
  simp only [Bool.and_eq_true, Bool.not_eq_true'] at hmem
  exact ⟨hmem.1, hmem.2.1.1.2⟩

theorem materialize_dispatched {limit : Nat} {deliveryIds : Nat → String}
    {records : List CallbackDeliveryRecord} (hkeyed : db'.EventsKeyed)
    (h : materialize db maximumAttempts limit deliveryIds now = .ok (db', records)) :
    Dispatched maximumAttempts now (db.unprocessedEvents limit) db db' :=
  materializeEvents_dispatched
    (fun event hmem => ⟨event, (mem_unprocessedEvents hmem).1, rfl⟩) h hkeyed

/-! ## Commits -/

variable {s t s₀ : OutboxState} {label : OutboxLabel} {labels : List OutboxLabel}
  {kept rows : List EventRecord}

/-- The events of a commit that were there before are known by the same error. -/
theorem commit_errorAt_kept (hevents : db'.events = kept ++ rows)
    (hlength : kept.length = s.db.events.length) (hkeyed : db'.EventsKeyed) (hmem : event ∈ kept) :
    (s.commit db').errorAt event.eventId = s.errorAt event.eventId := by
  have hnone : rows.find? (·.eventId = event.eventId) = none := by
    rw [List.find?_eq_none]
    intro row hrow
    rw [Db.EventsKeyed, hevents, List.map_append] at hkeyed
    have hne : row.eventId ≠ event.eventId := fun heq =>
      List.disjoint_of_nodup_append hkeyed (List.mem_map_of_mem hmem)
        (heq ▸ List.mem_map_of_mem hrow)
    simpa using hne
  simp only [OutboxState.commit, hevents, ← hlength, List.drop_left, hnone]

theorem commit_errorAt_new (hevents : db'.events = kept ++ rows)
    (hlength : kept.length = s.db.events.length) (hkeyed : db'.EventsKeyed) (hmem : event ∈ rows) :
    (s.commit db').errorAt event.eventId = db'.errorOf event := by
  have hfind : rows.find? (·.eventId = event.eventId) = some event := by
    rw [Db.EventsKeyed, hevents, List.map_append] at hkeyed
    exact find?_key_eq_some hkeyed.of_append_right hmem
  simp only [OutboxState.commit, hevents, ← hlength, List.drop_left, hfind]

theorem errorOf_eq (hkeys : db.KeysNodup) (htask : task ∈ db.tasks)
    (hid : event.payload.taskId? = some task.taskId) : db.errorOf event = task.error := by
  have hfind : db.task? task.taskId = some task := find?_key_eq_some hkeys.tasks htask
  rw [Db.errorOf, hid, Option.bind_some, hfind, Option.bind_some]

/-! ## The outbox between two transactions -/

/-- Events are told apart and about tasks there are, the rows of the tasks show their attempts,
and an event that was processed has the one delivery its subscriber is owed. -/
structure Accounted (s : OutboxState) : Prop where
  keys : s.db.KeysNodup
  keyed : s.db.EventsKeyed
  current : KeepsUp s.errorAt s.db s.db
  unique : (s.db.deliveries.map (·.eventId)).Nodup
  sent : ∀ task ∈ s.db.tasks, ∀ event ∈ s.db.events, event.SubscribedBy task →
    event.callbackProcessed → ∃ delivery ∈ s.db.deliveries,
      delivery.eventId = event.eventId ∧ delivery.Faithful event (s.errorAt event.eventId)

theorem callbackSource_of_subscribed (h : event.SubscribedBy task) :
    event.payload.callbackSource := by
  obtain ⟨_, _, _, callbackType, htype, _⟩ := h
  cases hpayload : event.payload <;> rw [hpayload] at htype <;> first | rfl | cases htype

/-- The rows of a commit are where the next transaction begins. -/
theorem KeepsUp.commit (h : KeepsUp s.errorAt s.db db') (hkeys : db'.KeysNodup)
    (hkeyed : db'.EventsKeyed) : KeepsUp (s.commit db').errorAt db' db' := by
  obtain ⟨rows, hevents, _⟩ := h.appended
  refine ⟨⟨[], by simp, by simp⟩, h.known, h.sound, fun _ h => h,
    fun task htask => .inr ⟨task, htask, rfl, rfl⟩, fun _ task htask => ?_⟩
  refine (h.shows hkeyed task htask).commit fun event hmem hid => ?_
  rw [hevents] at hmem
  rcases List.mem_append.mp hmem with hmem | hmem
  · exact .inl ⟨List.mem_map_of_mem hmem, commit_errorAt_kept hevents rfl hkeyed hmem⟩
  · exact .inr ((commit_errorAt_new hevents rfl hkeyed hmem).trans (errorOf_eq hkeys htask hid))

theorem deliveries_frame : Frame fun db db' => db'.deliveries = db.deliveries where
  refl _ := rfl
  trans h h' := h'.trans h
  tasks _ _ := rfl
  publish _ _ _ := rfl
  worker _ _ := rfl

theorem Accounted.operated {call : Label} (h : Accounted s) (hstep : ControlStep self s.db call db')
    (hdeliveries : db'.deliveries = s.db.deliveries) (hkeyed : db'.EventsKeyed) :
    Accounted (s.commit db') := by
  have hkeys := hstep.keysNodup h.keys
  have hcurrent := hstep.keepsUp h.keys h.current
  obtain ⟨rows, hevents, hrows⟩ := hcurrent.appended
  refine ⟨hkeys, hkeyed, hcurrent.commit hkeys hkeyed, ?_, ?_⟩
  · show (db'.deliveries.map (·.eventId)).Nodup
    rw [hdeliveries]
    exact h.unique
  · intro task htask event hmem hsubscribed hprocessed
    show ∃ delivery ∈ db'.deliveries, _
    have hsource := callbackSource_of_subscribed hsubscribed
    have hsplit : event ∈ s.db.events ++ rows := hevents ▸ hmem
    rcases List.mem_append.mp hsplit with hmem | hmem
    · rw [hdeliveries, commit_errorAt_kept hevents rfl hkeyed hmem]
      rcases hcurrent.subscribed task htask with hfresh | ⟨task₀, htask₀, hid, hcallback⟩
      · exact absurd (h.current.known event hmem hsource _ hsubscribed.1) hfresh
      · refine h.sent task₀ htask₀ event hmem ?_ hprocessed
        rwa [EventRecord.SubscribedBy, hid, hcallback]
    · simp [hrows event hmem hsource] at hprocessed

theorem mark_spec {mark : EventRecord → EventRecord}
    (hmark : mark event = event ∨
      mark event = event.processed ∧ event.eventId ∈ selected.map (·.eventId)) :
    (mark event).payload = event.payload ∧ (mark event).occurredAt = event.occurredAt ∧
      (mark event).eventId = event.eventId := by
  rcases hmark with heq | ⟨heq, _⟩ <;> rw [heq] <;> exact ⟨rfl, rfl, rfl⟩

theorem Dispatched.keysNodup (h : Dispatched maximumAttempts now selected db db')
    (hkeys : db.KeysNodup) : db'.KeysNodup :=
  ⟨h.tasks ▸ hkeys.tasks, by simpa [Db.stages, h.tasks] using hkeys.stages⟩

/-- The marks and the news of deliveries leave every row of a task as current as it was. -/
theorem Dispatched.keepsUp (h : Dispatched maximumAttempts now selected s.db db')
    (hs : Accounted s) (hkeyed : db'.EventsKeyed) :
    KeepsUp (s.commit db').errorAt db' db' := by
  obtain ⟨mark, rows, hevents, hmark, hrows⟩ := h.events
  have hspec (event : EventRecord) := mark_spec (hmark event)
  have hlength : (s.db.events.map mark).length = s.db.events.length := List.length_map _
  refine ⟨⟨[], by simp, by simp⟩, ?_, h.tasks ▸ hs.current.sound, fun _ h => h,
    fun task htask => .inr ⟨task, htask, rfl, rfl⟩, fun _ task htask => ?_⟩
  · intro event hmem hsource
    rw [hevents] at hmem
    rw [h.tasks]
    rcases List.mem_append.mp hmem with hmem | hmem
    · obtain ⟨before, hbefore, rfl⟩ := List.mem_map.mp hmem
      rw [(hspec before).1] at hsource ⊢
      exact hs.current.known before hbefore hsource
    · simp [hrows event hmem] at hsource
  · rw [h.tasks] at htask
    have hshows := ((hs.current.shows hs.keyed task htask).map hspec).quiet rfl rfl rfl (.inl rfl)
      fun row hrow => .of_callbackSource (hrows row hrow)
    rw [← hevents] at hshows
    refine hshows.commit fun event hmem hid => ?_
    rw [hevents] at hmem
    rcases List.mem_append.mp hmem with hmem | hmem
    · refine .inl ⟨?_, commit_errorAt_kept hevents hlength hkeyed hmem⟩
      obtain ⟨before, hbefore, rfl⟩ := List.mem_map.mp hmem
      rw [(hspec before).2.2]
      exact List.mem_map_of_mem hbefore
    · refine .inr ((commit_errorAt_new hevents hlength hkeyed hmem).trans ?_)
      exact errorOf_eq (h.keysNodup hs.keys) (h.tasks ▸ htask) hid

/-- The delivery of a subscribed event is the one its payload says. -/
theorem newDelivery?_faithful (hkeys : db.KeysNodup) (htask : task ∈ db.tasks)
    (hshows : task.Shows task.taskId errorAt old db.events) (hmem : event ∈ db.events)
    (hold : event.eventId ∈ old) (hsubscribed : event.SubscribedBy task)
    (htell : db.Tellable event) (deliveryId : String) :
    ∃ record, db.newDelivery? event deliveryId maximumAttempts now = some record ∧
      record.eventId = event.eventId ∧ record.Faithful event (errorAt event.eventId) := by
  obtain ⟨hid, config, hconfig, callbackType, htype, hlisted⟩ := hsubscribed
  obtain ⟨payload, hpayload, hkind, htime, herror⟩ :=
    callbackPayload_faithful hshows hmem hold hid htell htype
  have hfind : db.task? task.taskId = some task := find?_key_eq_some hkeys.tasks htask
  have hevent : callbackEvent event task config = some (callbackType,
      ⟨"1.0", event.eventId, task.taskId, event.occurredAt, payload⟩) := by
    simp only [callbackEvent, hpayload, Option.bind_eq_bind, Option.bind_some, if_pos hlisted]
  have hrecord : db.newDelivery? event deliveryId maximumAttempts now = some
      { deliveryId := deliveryId
        eventId := event.eventId
        eventType := callbackType
        taskId := task.taskId
        targetUrl := config.url
        status := .pending
        maximumAttempts := maximumAttempts
        event := ⟨"1.0", event.eventId, task.taskId, event.occurredAt, payload⟩
        createdAt := now
        updatedAt := now } := by
    simp only [Db.newDelivery?, hid, hfind, Option.mem_def.mp hconfig, hevent,
      Option.bind_eq_bind, Option.bind_some]
  exact ⟨_, hrecord, rfl, hid, htype, hkind, htime, herror⟩

/-- A pass that comes in time sends what is owed for the events it selects. -/
theorem Accounted.materialized {limit : Nat} {deliveryIds : Nat → String}
    {records : List CallbackDeliveryRecord} (h : Accounted s)
    (hcall : materialize s.db maximumAttempts limit deliveryIds now = .ok (db', records))
    (hkeyed : db'.EventsKeyed) (htime : DispatchedInTime s (.materialized limit)) :
    Accounted (s.commit db') := by
  have hpass := materialize_dispatched hkeyed hcall
  obtain ⟨mark, rows, hevents, hmark, hrows⟩ := hpass.events
  refine ⟨hpass.keysNodup h.keys, hkeyed, hpass.keepsUp h hkeyed, hpass.unique h.unique, ?_⟩
  intro task htask event hmem hsubscribed hprocessed
  replace htask : task ∈ s.db.tasks := hpass.tasks ▸ htask
  have hsplit : event ∈ s.db.events.map mark ++ rows := hevents ▸ hmem
  rcases List.mem_append.mp hsplit with hkept | hrow
  · have herror := commit_errorAt_kept hevents (List.length_map _) hkeyed hkept
    obtain ⟨before, hbefore, rfl⟩ := List.mem_map.mp hkept
    have hspec := mark_spec (hmark before)
    rw [herror, hspec.2.2]
    have howed : before.SubscribedBy task := by
      rwa [EventRecord.SubscribedBy, hspec.1] at hsubscribed
    have hsent : ∃ delivery ∈ db'.deliveries, delivery.eventId = before.eventId ∧
        delivery.Faithful before (s.errorAt before.eventId) := by
      by_cases hdone : before.callbackProcessed
      · obtain ⟨delivery, hdelivery, hsent⟩ := h.sent task htask before hbefore howed hdone
        exact ⟨delivery, hpass.kept delivery hdelivery, hsent⟩
      · obtain ⟨_, hselected⟩ := (hmark before).resolve_left fun heq => hdone (heq ▸ hprocessed)
        obtain ⟨found, hfound, hid⟩ := List.mem_map.mp hselected
        obtain rfl : found = before :=
          List.inj_on_of_nodup_map h.keyed (mem_unprocessedEvents hfound).1 hbefore hid
        obtain ⟨deliveryId, hcreated⟩ := hpass.created found hfound
        obtain ⟨record, hrecord, hevent⟩ := newDelivery?_faithful h.keys htask
          (h.current.shows h.keyed task htask) hbefore (List.mem_map_of_mem hbefore) howed
          (htime found hfound task htask howed) deliveryId
        exact ⟨record, hcreated record hrecord, hevent⟩
    obtain ⟨delivery, hdelivery, hid, hfaithful⟩ := hsent
    exact ⟨delivery, hdelivery, hid, by rw [hspec.1]; exact hfaithful.taskId,
      by rw [hspec.1]; exact hfaithful.eventType, hfaithful.payload,
      hfaithful.time.trans hspec.2.1.symm, hfaithful.error⟩
  · have hsource := callbackSource_of_subscribed hsubscribed
    simp [hrows event hrow] at hsource

theorem initial_accounted (h : (outbox self).Initial s) : Accounted s := by
  obtain ⟨⟨htasks, hevents⟩, hdeliveries⟩ := h
  have hkeys : s.db.KeysNodup := by constructor <;> simp [Db.stages, htasks]
  refine ⟨hkeys, by simp [Db.EventsKeyed, hevents], ?_, by simp [hdeliveries], by simp [htasks]⟩
  constructor
  case appended => exact ⟨[], by simp, by simp⟩
  case kept => exact fun _ h => h
  all_goals simp [htasks, hevents]

theorem accounted_step (hs : Accounted s) (hstep : OutboxStep self s label t)
    (htime : DispatchedInTime s label) : Accounted t := by
  cases hstep with
  | @operated call db' hcontrol hadministered hkeyed =>
      refine hs.operated hcontrol ?_ hkeyed
      by_cases hcall : call = .administered
      · exact hadministered hcall
      · exact deliveries_frame.control hcontrol hcall
  | materialized hcall hkeyed => exact hs.materialized hcall hkeyed htime
  | rolledBack => exact hs

/-- In every run whose passes come in time, each subscribed event that was processed has one
delivery, and the delivery says what happened. -/
theorem callbacks_faithful (hstart : (outbox self).Initial s₀)
    (hrun : ((outbox self).restrict DispatchedInTime).Run s₀ labels s) :
    ∀ task ∈ s.db.tasks, ∀ event ∈ s.db.events, event.SubscribedBy task →
      event.callbackProcessed → ∃ delivery,
        s.db.deliveries.filter (·.eventId = event.eventId) = [delivery] ∧
          delivery.Faithful event (s.errorAt event.eventId) := by
  have hs : Accounted s := hrun.keeps (I := Accounted)
    (fun _ _ _ hs hstep => accounted_step hs (And.left hstep) (And.right hstep))
    (initial_accounted hstart)
  intro task htask event hmem hsubscribed hprocessed
  obtain ⟨delivery, hdelivery, hid, hfaithful⟩ :=
    hs.sent task htask event hmem hsubscribed hprocessed
  exact ⟨delivery, hid ▸ filter_key_eq_singleton hs.unique hdelivery, hfaithful⟩

/-! ## A failure told in time, and one that is lost -/

/-- The task is subscribed to its failure, which comes at 4. -/
def failingMoves : List OutboxMove :=
  [.operate (.create
      { source := .url "https://host/report.pdf"
        options := default
        callback := some
          { url := "https://host/hook", events := [.taskRunning, .taskFailed]
            secret := some "0123456789abcdef0123456789abcdef" } }
      none false "task" (.ok (some sampleMetadata)) 0),
    .operate (.route "task" false sampleStageIds 1),
    .operate (.lease { workerId := "worker", availableSlots := 9 }
      ["stage-layout", "stage-tables", "stage-merge"]
      (fun n => if n = 0 then "token-layout" else "token-tables") 2),
    .operate (.start "stage-layout" "worker" "token-layout" 3),
    .operate (.complete "stage-layout" (.failure "worker" "token-layout" layoutError) 4)]

def failurePass : OutboxMove := .pass 3 500 (fun n => if n = 0 then "first" else "second") 6

def outboxStart : OutboxState := ⟨sampleDb, fun _ => none⟩

/-- The state after a script. -/
def outboxAfter (moves : List OutboxMove) : OutboxState :=
  (System.script (OutboxMove.take sampleScheduler) outboxStart moves).2

theorem outboxStart_initial : (outbox sampleScheduler).Initial outboxStart :=
  ⟨⟨rfl, rfl⟩, rfl⟩

/-- The pass comes first, and the failure is told. -/
theorem callbacks_faithful_told :
    let s := outboxAfter (failingMoves ++ [failurePass, .operate (.retry "task" 7)])
    ∃ event ∈ s.db.events, event.payload = .taskStatusChanged "task" .running .failed ∧
      ∃ delivery, s.db.deliveries.filter (·.eventId = event.eventId) = [delivery] ∧
        delivery.Faithful event (s.errorAt event.eventId) := by
  set moves := failingMoves ++ [failurePass, .operate (.retry "task" 7)] with hmoves
  have hrun : ((outbox sampleScheduler).restrict DispatchedInTime).Run outboxStart _
      (outboxAfter moves) :=
    System.script_run_restrict (OutboxMove.take_step sampleScheduler) (by decide +kernel)
  have hexists : ∃ task ∈ (outboxAfter moves).db.tasks, ∃ event ∈ (outboxAfter moves).db.events,
      event.payload = .taskStatusChanged "task" .running .failed ∧ event.SubscribedBy task ∧
        event.callbackProcessed := by
    decide +kernel
  obtain ⟨task, htask, event, hmem, hpayload, hsubscribed, hprocessed⟩ := hexists
  exact ⟨event, hmem, hpayload,
    callbacks_faithful outboxStart_initial hrun task htask event hmem hsubscribed hprocessed⟩

/-- The retry comes first, and every event is processed without a delivery of the failure. -/
theorem failure_callback_lost :
    let s := outboxAfter (failingMoves ++ [.operate (.retry "task" 5), failurePass])
    (∃ labels, (outbox sampleScheduler).Run outboxStart labels s) ∧
      (∀ event ∈ s.db.events, event.payload.callbackSource → event.callbackProcessed) ∧
      ∃ task ∈ s.db.tasks, ∃ event ∈ s.db.events, event.SubscribedBy task ∧
        event.payload = .taskStatusChanged "task" .running .failed ∧
          s.db.deliveries.filter (·.eventId = event.eventId) = [] := by
  refine ⟨⟨_, System.script_run (OutboxMove.take_step sampleScheduler) _ _⟩, ?_, ?_⟩ <;>
    decide +kernel

end ParserServe
