import ParserServe.Control.RoutingTransactions
import ParserServe.Lifecycle.Compatibility
import ParserServe.Lifecycle.Creation
import ParserServe.Lifecycle.DeferredRouting

/-! # Routing copies the pipeline or nothing

The stages of a routed task are those of the definition, each with the backends that are left and
the runtimes of all of them.  An error at any stage is raised with earlier stages in the session,
and the callers undo them.
-/

namespace ParserServe

open Foundation

variable {db db' : Db} {options : TaskOptions} {metadata : SourceMetadata} {now : Time}
  {definition : PipelineStageDefinition} {stageIds : Nat → String} {task task' : TaskRecord}
  {allowUnpublished : Bool} {payloads : List EventPayload}

/-! ## One stage -/

/-- The stage is the copy of the definition at a position of the pipeline. -/
structure CopiedStage (db : Db) (device : DeviceRequirement) (position : Nat)
    (definition : PipelineStageDefinition) (stage : StageRecord) : Prop where
  name : stage.name = definition.name
  position : stage.position = position
  dependsOn : stage.dependsOn = definition.dependsOn
  optional : stage.optional = definition.optional
  timeoutSeconds : stage.timeoutSeconds = definition.timeoutSeconds
  retryPolicy : stage.retryPolicy = definition.retry
  maximumAttempts : stage.maximumAttempts = definition.retry.maximumAttempts
  candidates : stage.backendCandidates ≠ [] ∧ stage.backendCandidates.Nodup
  runtimes : stage.requiredRuntimes ≠ [] ∧ stage.requiredRuntimes.Nodup
  covered : ∀ backendId ∈ stage.backendCandidates, ∃ backend ∈ db.backends,
    backend.backendId = backendId ∧
      ∃ runtime ∈ backend.capability.runtimes, runtime ∈ stage.requiredRuntimes
  preferred : device.strategy = .prefer → ∃ others,
    stage.requiredRuntimes = device.runtimes.filter (· ∈ stage.requiredRuntimes) ++ others ∧
      ∀ runtime ∈ others, runtime ∉ device.runtimes

/-- Under PREFER the runtimes of the task come first, in their order. -/
theorem allowedRuntimes_prefer (candidates stageRequired taskRequired : List DeviceRuntime) :
    ∃ others, allowedRuntimes candidates stageRequired taskRequired .prefer =
        taskRequired.filter
          (· ∈ allowedRuntimes candidates stageRequired taskRequired .prefer) ++ others ∧
      ∀ runtime ∈ others, runtime ∉ taskRequired := by
  generalize hallowed : allowedRuntimes candidates stageRequired taskRequired .prefer = allowed
  by_cases hnone : taskRequired = []
  · exact ⟨allowed, by simp [hnone], by simp [hnone]⟩
  · obtain ⟨ordered, heq⟩ : ∃ ordered : List DeviceRuntime, allowed =
        taskRequired.filter (ordered.contains ·) ++
          ordered.filter (!(taskRequired.filter (ordered.contains ·)).contains ·) := by
      rw [← hallowed, allowedRuntimes]
      simp only [reduceCtorEq, false_and, if_false, true_and, ne_eq, hnone, not_false_eq_true,
        if_true]
      exact ⟨_, rfl⟩
    have hmem : ∀ runtime ∈ taskRequired, runtime ∈ allowed ↔ runtime ∈ ordered := by
      intro runtime hruntime
      rw [heq, List.mem_append]
      simp [hruntime]
    refine ⟨ordered.filter (!(taskRequired.filter (ordered.contains ·)).contains ·), ?_, ?_⟩
    · have hfilter : taskRequired.filter (· ∈ allowed) =
          taskRequired.filter (ordered.contains ·) := by
        refine List.filter_congr fun runtime hruntime => ?_
        rw [List.contains_eq_mem]
        exact decide_eq_decide.mpr (hmem runtime hruntime)
      rw [hfilter, ← heq]
    · intro runtime hother htask
      obtain ⟨hordered, hnot⟩ := List.mem_filter.mp hother
      simp [htask, hordered] at hnot

theorem mem_backends_of_candidate {names : List String} {backend : BackendRecord}
    (h : backend ∈ stageCandidates db options metadata definition names) :
    backend ∈ db.backends := by
  rw [(stageCandidates_perm names).mem_iff] at h
  exact (mem_of_mem_enabledByNames (List.mem_filter.mp h).1).1

/-- A candidate keeps one of its runtimes in the list for all of them. -/
theorem candidate_covered {stageId backendId : String} {position : Nat} {stage : StageRecord}
    (h : planStage db options metadata now stageId position definition = .ok stage)
    (hmem : backendId ∈ stage.backendCandidates) :
    ∃ backend ∈ db.backends, backend.backendId = backendId ∧
      ∃ runtime ∈ backend.capability.runtimes, runtime ∈ stage.requiredRuntimes := by
  obtain ⟨names, selected, others, _, hcandidates, hstage⟩ := planStage_eq_ok.mp h
  have hids : stage.backendCandidates = (selected :: others).map (·.backendId) := by
    rw [hstage]
    rfl
  obtain ⟨backend, hbackend, hid⟩ := List.mem_map.mp (hids ▸ hmem)
  have hrow : backend ∈ db.backends := mem_backends_of_candidate (hcandidates ▸ hbackend)
  obtain ⟨_, _, hcompatible, candidates, hin, hruntimes⟩ := kept_cases h hrow (hid ▸ hmem)
  refine ⟨backend, hrow, hid, ?_⟩
  rw [hruntimes]
  exact exists_allowed_runtime hin hcompatible

theorem CopiedStage.of_planStage {stageId : String} {position : Nat} {stage : StageRecord}
    (h : planStage db options metadata now stageId position definition = .ok stage) :
    CopiedStage db options.device position definition stage := by
  have hsound := (Planned.of_planStage h).sound
  have hcovered : ∀ backendId ∈ stage.backendCandidates, _ := fun _ => candidate_covered h
  obtain ⟨names, selected, others, hnames, hcandidates, rfl⟩ := planStage_eq_ok.mp h
  refine ⟨rfl, rfl, rfl, rfl, rfl, rfl, rfl, ⟨List.cons_ne_nil _ _, hsound.candidates_nodup⟩,
    ⟨?_, hsound.runtimes_nodup⟩, hcovered, fun hprefer => ?_⟩
  · intro hnone
    obtain ⟨_, _, _, runtime, _, hruntime⟩ := hcovered selected.backendId List.mem_cons_self
    rw [hnone] at hruntime
    cases hruntime
  · simp only [newStage, hprefer]
    exact allowedRuntimes_prefer _ _ _

/-! ## All stages -/

/-- What routing made of a task without stages: the copy of one pipeline, in its order, the
binding to it and its event. -/
def CopiesPipeline (db : Db) (allowUnpublished : Bool) (now : Time) (task : TaskRecord)
    (session : RoutingSession) : Prop :=
  ∃ metadata pipeline, task.sourceMetadata = some metadata ∧
    selectPipeline db task metadata allowUnpublished = .ok pipeline ∧
    session.task.stages.length = pipeline.definition.stages.length ∧
    (∀ position definition, pipeline.definition.stages[position]? = some definition →
      ∃ stage, session.task.stages[position]? = some stage ∧
        CopiedStage db task.options.device position definition stage) ∧
    session.task = { task with
      stages := session.task.stages
      pipelineId := some pipeline.definition.pipelineId
      pipelineVersion := some pipeline.definition.version
      updatedAt := now } ∧
    session.payloads = [.taskRouted task.taskId pipeline.definition.pipelineId
      pipeline.definition.version (session.task.stages.map (·.stageId))]

theorem planStages_copies {position : Nat} {definitions : List PipelineStageDefinition}
    {stages : List StageRecord}
    (h : planStages db options metadata now stageIds position definitions = .ok stages) :
    stages.length = definitions.length ∧ ∀ n definition, definitions[n]? = some definition →
      ∃ stage, stages[n]? = some stage ∧
        CopiedStage db options.device (position + n) definition stage := by
  induction definitions generalizing position stages with
  | nil =>
      cases h
      simp
  | cons first rest ih =>
      obtain ⟨stage, hstage, hrest⟩ := bind_eq_ok.mp h
      obtain ⟨others, hothers, hend⟩ := bind_eq_ok.mp hrest
      cases hend
      obtain ⟨hlength, hcopies⟩ := ih hothers
      refine ⟨by rw [List.length_cons, List.length_cons, hlength], fun n definition hn => ?_⟩
      cases n with
      | zero =>
          cases hn
          exact ⟨stage, rfl, .of_planStage hstage⟩
      | succ n =>
          obtain ⟨other, hother, hcopied⟩ := hcopies n definition hn
          refine ⟨other, hother, ?_⟩
          rwa [Nat.add_right_comm] at hcopied

theorem copies_of_route (hstages : task.stages = [])
    (h : task.route db allowUnpublished stageIds now = .ok (task', payloads)) :
    CopiesPipeline db allowUnpublished now task ⟨task', payloads⟩ := by
  simp only [TaskRecord.route, bind_eq_ok, ensure_eq_ok] at h
  obtain ⟨_, _, h⟩ := h
  simp only [hstages, ne_eq, not_true, if_false] at h
  cases hmetadata : task.sourceMetadata with
  | none => simp [hmetadata] at h
  | some metadata =>
      simp only [hmetadata, bind_eq_ok] at h
      obtain ⟨pipeline, hpipeline, stages, hplanned, _, _, h⟩ := h
      cases h
      obtain ⟨hlength, hcopies⟩ := planStages_copies hplanned
      refine ⟨metadata, pipeline, hmetadata, hpipeline, hlength, ?_, by rw [hmetadata], rfl⟩
      intro position definition hdefinition
      obtain ⟨stage, hstage, hcopied⟩ := hcopies position definition hdefinition
      exact ⟨stage, hstage, by rwa [Nat.zero_add] at hcopied⟩

/-- Routing in place raised, or it copied the pipeline. -/
theorem copies_of_routeInPlace {session : RoutingSession} (hstages : task.stages = [])
    (h : routeInPlace db allowUnpublished stageIds now ⟨task, []⟩ = (.ok (), session)) :
    CopiesPipeline db allowUnpublished now task session := by
  cases hroute : task.route db allowUnpublished stageIds now with
  | error error =>
      have hraised : (routeInPlace db allowUnpublished stageIds now ⟨task, []⟩).1 = .error error :=
        routeInPlace_error hroute
      rw [h] at hraised
      cases hraised
  | ok routed =>
      have hplace : routeInPlace db allowUnpublished stageIds now ⟨task, []⟩ =
          (.ok (), ⟨routed.1, [] ++ routed.2⟩) := routeInPlace_ok hroute
      rw [h] at hplace
      cases hplace
      exact copies_of_route hstages hroute

theorem route_of_routeInPlace_error {error : ServiceError}
    (h : (routeInPlace db allowUnpublished stageIds now ⟨task, payloads⟩).1 = .error error) :
    task.route db allowUnpublished stageIds now = .error error := by
  cases hroute : task.route db allowUnpublished stageIds now with
  | error other =>
      have hraised : (routeInPlace db allowUnpublished stageIds now ⟨task, payloads⟩).1 =
          .error other := routeInPlace_error hroute
      rw [Except.error.inj (hraised.symm.trans h)]
  | ok routed =>
      have hplace : routeInPlace db allowUnpublished stageIds now ⟨task, payloads⟩ =
          (.ok (), ⟨routed.1, payloads ++ routed.2⟩) := routeInPlace_ok hroute
      rw [hplace] at h
      cases h

/-- Without a backend for the second stage the first one is in the session. -/
example : (appendStages sampleDb default sampleMetadata 1 sampleStageIds 0
      [{ name := "layout", backend := { preferred := "docling" }, timeoutSeconds := 60 },
        { name := "tables", backend := { preferred := "absent" }, timeoutSeconds := 60 }] []
      ⟨laterTask, []⟩).2.task.stages.map (·.name) = ["layout"] := by
  decide +kernel

/-! ## Creation -/

variable {scheduler : StageScheduler} {call : CreationCall} {uncommitted : List TaskRecord}
  {event : CreationEvent} {phase : CreationPhase}

/-- The row is one that `create` inserts for the call, with the binding that the request asks
for and no stages. -/
def CreationCall.Inserts (call : CreationCall) (row : TaskRecord) : Prop :=
  ∃ taskId metadata, row = newTask call.request call.idempotencyKey taskId metadata call.now

/-- Before routing the row is as `create` inserted it. -/
def CreationCall.Unplanned (call : CreationCall) : Prop :=
  ∀ record, call.phase = .inserted record → call.Inserts record

/-- From this phase on the call routes nothing: a row that it will commit is as inserted. -/
def CreationCall.Defers (call : CreationCall) : CreationPhase → Prop
  | .started | .inserted _ => False
  | .unused second | .validated second _ => second = true
  | .flushed record payloads => call.Inserts record ∧ payloads = []
  | .collided | .answered _ => True

theorem collide_defers (second : Bool) : call.Defers (call.collide second) := by
  unfold CreationCall.collide
  split <;> exact trivial

theorem lookup_defers : call.Defers (call.lookup db true) := by
  unfold CreationCall.lookup
  split
  · exact rfl
  · exact trivial

theorem validate_defers (metadata : Except ServiceError (Option SourceMetadata)) :
    call.Defers (call.validate db true metadata) := by
  unfold CreationCall.validate
  split
  · exact trivial
  · exact trivial
  · exact rfl

/-- After an error of routing the call is deferred. -/
theorem route_defers {record : TaskRecord} {error : ServiceError} (hrecord : call.Inserts record)
    (herror : (routeInPlace db false stageIds call.now ⟨record, []⟩).1 = .error error)
    (h : call.route db uncommitted record stageIds = some phase) : call.Defers phase := by
  rw [← routeNested_eq, CreationCall.routeNested, atomically_of_error herror] at h
  dsimp only at h
  split at h
  · cases h
    exact ⟨hrecord, rfl⟩
  · cases h
    exact collide_defers false

theorem insert_cases {second : Bool} {metadata : Option SourceMetadata} {taskId : String}
    (h : call.insert db uncommitted second metadata taskId = some phase) :
    phase = call.collide second ∨ ∃ row, call.Inserts row ∧
      phase = if second then .flushed row [] else .inserted row := by
  unfold CreationCall.insert at h
  dsimp only at h
  split at h
  · cases h
  · split at h
    · cases h
      exact .inl rfl
    · cases h
      exact .inr ⟨_, ⟨taskId, metadata, rfl⟩, rfl⟩

/-- A step of a deferred call commits at most a row as inserted, without an event of routing. -/
theorem step_defers (hcall : call.Defers call.phase)
    (h : call.step db uncommitted event = some (db', phase)) :
    call.Defers phase ∧
      (db' = db ∨ ∃ row, call.Inserts row ∧ db' = db.commitTask row [] call.now) := by
  cases hphase : call.phase with
  | started | inserted _ =>
      rw [hphase] at hcall
      exact hcall.elim
  | unused second =>
      rw [hphase] at hcall
      obtain rfl : second = true := hcall
      cases event <;> simp [CreationCall.step, hphase] at h
      · obtain ⟨rfl, rfl⟩ := h
        exact ⟨validate_defers _, .inl rfl⟩
      · obtain ⟨rfl, rfl⟩ := h
        exact ⟨trivial, .inl rfl⟩
  | validated second metadata =>
      rw [hphase] at hcall
      obtain rfl : second = true := hcall
      cases event <;> simp [CreationCall.step, hphase] at h
      · obtain ⟨hinsert, rfl⟩ := h
        refine ⟨?_, .inl rfl⟩
        rcases insert_cases hinsert with rfl | ⟨row, hrow, rfl⟩
        · exact collide_defers true
        · exact ⟨hrow, rfl⟩
      · obtain ⟨rfl, rfl⟩ := h
        exact ⟨trivial, .inl rfl⟩
  | flushed record payloads =>
      rw [hphase] at hcall
      obtain ⟨hrow, rfl⟩ := hcall
      cases event <;> simp [CreationCall.step, hphase] at h
      · obtain ⟨rfl, rfl⟩ := h
        exact ⟨trivial, .inr ⟨record, hrow, rfl⟩⟩
      · obtain ⟨rfl, rfl⟩ := h
        exact ⟨trivial, .inl rfl⟩
  | collided =>
      cases event <;> simp [CreationCall.step, hphase] at h
      · obtain ⟨rfl, rfl⟩ := h
        exact ⟨lookup_defers, .inl rfl⟩
      · obtain ⟨rfl, rfl⟩ := h
        exact ⟨trivial, .inl rfl⟩
  | answered answer => cases event <;> simp [CreationCall.step, hphase] at h

theorem step_inserted {record : TaskRecord}
    (h : call.step db uncommitted event = some (db', phase)) (hphase : phase = .inserted record) :
    call.Inserts record := by
  have hnone : phase.row? ≠ none := by
    rw [hphase]
    exact Option.some_ne_none record
  cases event with
  | lookup =>
      simp only [CreationCall.step] at h
      split at h <;> cases h
      all_goals exact absurd (row?_lookup _) hnone
  | validate metadata =>
      simp only [CreationCall.step] at h
      split at h <;> cases h
      exact absurd (row?_validate _ _) hnone
  | insert taskId =>
      simp only [CreationCall.step] at h
      split at h
      · next second metadata _ =>
          obtain ⟨_, hinsert, heq⟩ := Option.map_eq_some_iff.mp h
          cases heq
          rcases insert_cases hinsert with hcollide | ⟨row, hrow, hrows⟩
          · rw [hcollide] at hnone
            exact absurd (row?_collide second) hnone
          · rw [hphase] at hrows
            cases second <;> cases hrows
            exact hrow
      · cases h
  | route stageIds =>
      simp only [CreationCall.step] at h
      split at h
      · obtain ⟨_, hroute, heq⟩ := Option.map_eq_some_iff.mp h
        cases heq
        unfold CreationCall.route at hroute
        repeat' split at hroute
        all_goals cases hroute
        all_goals first | cases hphase | exact absurd (row?_collide false) hnone
      · cases h
  | commit =>
      simp only [CreationCall.step] at h
      split at h <;> cases h
      cases hphase
  | databaseError =>
      simp only [CreationCall.step] at h
      split at h <;> cases h
      cases hphase

/-- In every run a row that waits to be routed is as `create` inserted it. -/
theorem run_unplanned {s t : CreationState} {labels : List CreationLabel}
    (hinit : (creations scheduler).Initial s) (h : (creations scheduler).Run s labels t) :
    ∀ call ∈ t.calls, call.Unplanned := by
  refine h.keeps (I := fun u => ∀ call ∈ u.calls, call.Unplanned) ?_ (by simp [hinit.2])
  intro u label v hu hstep
  cases hstep with
  | control => exact hu
  | requested =>
      intro call hmem
      rcases List.mem_append.mp hmem with hmem | hmem
      · exact hu call hmem
      · rw [List.mem_singleton.mp hmem]
        intro record hphase
        cases hphase
  | @advanced _ _ other _ _ _ hsplit htaken =>
      intro call hmem
      rcases List.mem_append.mp hmem with hmem | hmem
      · exact hu call (by rw [hsplit]; exact List.mem_append_left _ hmem)
      · rcases List.mem_cons.mp hmem with rfl | hmem
        · intro record hphase
          have hrow : other.Inserts record := step_inserted htaken hphase
          exact hrow
        · exact hu call (by
            rw [hsplit]
            exact List.mem_append_right _ (List.mem_cons_of_mem _ hmem))

/-- A deferred call stays deferred in every run. -/
theorem run_defers {s t : CreationState} {labels : List CreationLabel} {position : Nat}
    (h : (creations scheduler).Run s labels t)
    (hcall : s.calls[position]? = some { call with phase := phase }) (hphase : call.Defers phase) :
    ∃ later, t.calls[position]? = some { call with phase := later } ∧ call.Defers later := by
  refine h.keeps (I := fun u => ∃ later, u.calls[position]? = some { call with phase := later } ∧
    call.Defers later) ?_ ⟨phase, hcall, hphase⟩
  rintro u label v ⟨later, hlater, hdefers⟩ hstep
  by_cases hcaller : label.caller? = some position
  · obtain ⟨_, _, _, next, _, htaken, hnext⟩ := CreationStep.caller hstep hcaller hlater
    have hstays : CreationCall.Defers { call with phase := later } next :=
      (step_defers hdefers htaken).1
    exact ⟨next, hnext, hstays⟩
  · exact ⟨later, CreationStep.calls_of_ne hstep hcaller hlater, hdefers⟩

/-! ## Passes -/

def EventPayload.routes (taskId : String) : EventPayload → Bool
  | .taskRouted routed .. => routed = taskId
  | _ => false

/-- The `task.routed` events of a task. -/
def Db.routedEvents (db : Db) (taskId : String) : List EventPayload :=
  (db.events.map (·.payload)).filter (·.routes taskId)

/-- The row with the identifier and its events of routing are the same in both databases. -/
structure Db.Keeps (db db' : Db) (taskId : String) : Prop where
  row : db'.task? taskId = db.task? taskId
  events : db'.routedEvents taskId = db.routedEvents taskId

theorem Db.Keeps.refl (db : Db) (taskId : String) : db.Keeps db taskId := ⟨rfl, rfl⟩

variable {taskId : String}

theorem Db.Keeps.trans {db'' : Db} (h : db.Keeps db' taskId) (h' : db'.Keeps db'' taskId) :
    db.Keeps db'' taskId :=
  ⟨h'.row.trans h.row, h'.events.trans h.events⟩

/-- Routing one task keeps the others. -/
theorem routeTask_keeps {other : String} {record : Option TaskRecord} (hne : taskId ≠ other)
    (h : routeTask db other false stageIds now = .ok (db', record)) : db.Keeps db' taskId := by
  unfold routeTask Db.withTask at h
  split at h
  · cases h
    exact .refl db taskId
  · next found hfind =>
      obtain ⟨⟨routed, payloads⟩, hroute, hend⟩ := bind_eq_ok.mp h
      cases hend
      have hfound : found.taskId = other := by simpa using List.find?_some hfind
      have hrouted : routed.taskId = other ∧ payloads.filter (·.routes taskId) = [] := by
        rcases route_cases hroute with ⟨rfl, rfl⟩ | ⟨_, hrouted⟩
        · exact ⟨hfound, rfl⟩
        · obtain ⟨_, _, _, _, _, rfl, rfl⟩ := hrouted.plan
          refine ⟨hfound, ?_⟩
          simp [EventPayload.routes, hfound, Ne.symm hne]
      constructor
      · have hrow : (db.saveTask routed).task? taskId = db.task? taskId :=
          find?_replaceKey_of_ne (hrouted.1 ▸ hne)
        rwa [Db.task?, Db.publishAll_tasks, ← Db.task?]
      · have hsaved : (db.saveTask routed).events = db.events := rfl
        rw [Db.routedEvents, Db.publishAll_events, hsaved, List.filter_append, hrouted.2,
          List.append_nil, ← Db.routedEvents]

/-- A pass over other tasks keeps the task. -/
theorem routeEach_keeps {draws : String → Nat → String} {others : List String} (routed : Nat)
    (hne : taskId ∉ others) : db.Keeps (routeEach draws now db routed others).1 taskId := by
  induction others generalizing db routed with
  | nil => exact .refl db taskId
  | cons other rest ih =>
      have hfirst : taskId ≠ other := fun heq => hne (List.mem_cons.mpr (.inl heq))
      have hrest : taskId ∉ rest := fun hmem => hne (List.mem_cons_of_mem _ hmem)
      rw [routeEach]
      cases hroute : routeTask db other false (draws other) now with
      | error error =>
          dsimp only
          split
          · exact ih routed hrest
          · exact .refl db taskId
      | ok result =>
          have hkeeps := routeTask_keeps hfirst hroute
          dsimp only
          split
          · exact hkeeps.trans (ih _ hrest)
          · exact hkeeps.trans (ih _ hrest)

/-- A pass over two lists, when the first one raised nothing that ends it. -/
theorem routeEach_append {draws : String → Nat → String} {before rest : List String}
    {routed count : Nat} (h : routeEach draws now db routed before = (db', .ok count)) :
    routeEach draws now db routed (before ++ rest) = routeEach draws now db' count rest := by
  induction before generalizing db routed with
  | nil =>
      cases h
      rfl
  | cons other before ih =>
      rw [routeEach] at h
      rw [List.cons_append, routeEach]
      cases hroute : routeTask db other false (draws other) now with
      | error error =>
          rw [hroute] at h
          dsimp only at h ⊢
          split at h
          · next hdeferred =>
              rw [if_pos hdeferred]
              exact ih h
          · cases h
      | ok result =>
          rw [hroute] at h
          dsimp only at h ⊢
          split at h
          · next hsome =>
              rw [if_pos hsome]
              exact ih h
          · next hnone =>
              rw [if_neg hnone]
              exact ih h

/-- A task for which routing raises in a pass has the same row and events after the pass. -/
theorem runOnce_keeps {self : TaskRoutingService} {draws : String → Nat → String}
    {before after : List TaskRecord} {current : Db} {routed : Nat} {error : ServiceError}
    (hkeys : (db.tasks.map (·.taskId)).Nodup)
    (hselected : self.selected db = before ++ task :: after)
    (hbefore : routeEach draws now db 0 (before.map (·.taskId)) = (current, .ok routed))
    (herror : (routeInPlace current false (draws task.taskId) now ⟨task, []⟩).1 = .error error) :
    db.Keeps (self.runOnce db draws now).1 task.taskId := by
  have hrows : ∀ row ∈ self.selected db, row ∈ db.tasks :=
    fun row hrow => (mem_of_mem_selected self hrow).1
  have hids : ((before ++ task :: after).map (·.taskId)).Nodup := by
    rw [← hselected]
    exact (nodup_selected self hkeys).map_on fun a ha b hb heq =>
      List.inj_on_of_nodup_map hkeys (hrows a ha) (hrows b hb) heq
  rw [List.map_append, List.map_cons, List.nodup_append] at hids
  obtain ⟨_, hafter, hdisjoint⟩ := hids
  have hnotBefore : task.taskId ∉ before.map (·.taskId) :=
    fun hmem => hdisjoint _ hmem _ List.mem_cons_self rfl
  have hnotAfter := (List.nodup_cons.mp hafter).1
  have hmem : task ∈ db.tasks := by
    refine hrows task ?_
    rw [hselected]
    exact List.mem_append_right _ List.mem_cons_self
  have hkept : db.Keeps current task.taskId := by
    have hkeeps : db.Keeps (routeEach draws now db 0 (before.map (·.taskId))).1 task.taskId :=
      routeEach_keeps 0 hnotBefore
    rwa [hbefore] at hkeeps
  have hrow : current.task? task.taskId = some task :=
    hkept.row.trans (task?_of_mem hkeys hmem)
  have hraised : routeTask current task.taskId false (draws task.taskId) now = .error error := by
    rw [routeTask, Db.withTask, hrow]
    exact bind_eq_error.mpr (.inl (route_of_routeInPlace_error herror))
  rw [TaskRoutingService.runOnce, hselected, List.map_append, List.map_cons,
    routeEach_append hbefore, routeEach, hraised]
  dsimp only
  split
  · exact hkept.trans (routeEach_keeps routed hnotAfter)
  · exact hkept

/-! ## Results -/

/-- Routing copies the pipeline or raises.  When it raises, `create_task` commits at most a row as
`create` inserted it, without an event of routing, and a pass of `run_once` keeps the row and the
events of the task. -/
theorem routing_copies_or_nothing (scheduler : StageScheduler) :
    (∀ db allowUnpublished stageIds now task session, task.stages = [] →
      routeInPlace db allowUnpublished stageIds now ⟨task, []⟩ = (.ok (), session) →
        CopiesPipeline db allowUnpublished now task session) ∧
    (∀ s labels t, (creations scheduler).Initial s → (creations scheduler).Run s labels t →
      ∀ before call after record stageIds error, t.calls = before ++ call :: after →
        call.phase = .inserted record →
        (routeInPlace t.db false stageIds call.now ⟨record, []⟩).1 = .error error →
        ∀ db' phase, call.step t.db (uncommittedRows (before ++ after)) (.route stageIds) =
            some (db', phase) →
          db' = t.db ∧ ∀ rest u, (creations scheduler).Run
            ⟨db', before ++ { call with phase := phase } :: after⟩ rest u →
              ∀ label v, CreationStep scheduler u label v → label.caller? = some before.length →
                v.db = u.db ∨
                  ∃ row, call.Inserts row ∧ v.db = u.db.commitTask row [] call.now) ∧
    (∀ (self : TaskRoutingService) (db : Db) draws now before task after current routed error,
      (db.tasks.map (·.taskId)).Nodup → self.selected db = before ++ task :: after →
      routeEach draws now db 0 (before.map (·.taskId)) = (current, .ok routed) →
      (routeInPlace current false (draws task.taskId) now ⟨task, []⟩).1 = .error error →
        (self.runOnce db draws now).1.task? task.taskId = some task ∧
          (self.runOnce db draws now).1.routedEvents task.taskId =
            db.routedEvents task.taskId) := by
  refine ⟨fun _ _ _ _ _ _ => copies_of_routeInPlace, ?_, ?_⟩
  · intro s labels t hinit hrun before call after record stageIds error hsplit hphase herror
      db' phase hstep
    have hrecord : call.Inserts record := by
      refine run_unplanned hinit hrun call ?_ record hphase
      rw [hsplit]
      exact List.mem_append_right _ List.mem_cons_self
    simp only [CreationCall.step, hphase] at hstep
    obtain ⟨_, hroute, heq⟩ := Option.map_eq_some_iff.mp hstep
    cases heq
    refine ⟨rfl, fun rest u hrest label v hlast hcaller => ?_⟩
    have hposition : (before ++ { call with phase := phase } :: after)[before.length]? =
        some { call with phase := phase } := by simp
    obtain ⟨later, hlater, hdefers⟩ :=
      run_defers hrest hposition (route_defers hrecord herror hroute)
    obtain ⟨_, _, _, _, _, htaken, _⟩ := CreationStep.caller hlast hcaller hlater
    exact (step_defers hdefers htaken).2
  · intro self db draws now before task after current routed error hkeys hselected hbefore herror
    have hkeeps := runOnce_keeps hkeys hselected hbefore herror
    have hmem : task ∈ db.tasks := by
      refine (mem_of_mem_selected self ?_).1
      rw [hselected]
      exact List.mem_append_right _ List.mem_cons_self
    exact ⟨hkeeps.row.trans (task?_of_mem hkeys hmem), hkeeps.events⟩

end ParserServe
