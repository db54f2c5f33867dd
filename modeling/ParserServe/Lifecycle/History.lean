import ParserServe.Lifecycle.Progress

/-! # Status history

The `task.status_changed` events of a task, in the order of their publication, lead from
`PENDING` to the status the task has, one allowed transition after another.  Stages publish
no events; their statuses are followed from one state of a run to a later one.
-/

namespace ParserServe

open Foundation Relation

/-- The previous and the current status, when the event is about this task's status. -/
def EventPayload.statusLink (taskId : String) : EventPayload → Option (TaskStatus × TaskStatus)
  | .taskStatusChanged id previous current => if id = taskId then some (previous, current) else none
  | _ => none

/-- The status events of a task, oldest first. -/
def Db.statusHistory (db : Db) (taskId : String) : List (TaskStatus × TaskStatus) :=
  (db.events.map (·.payload)).filterMap (·.statusLink taskId)

/-- Links that lead from one status to another, each allowed by `TASK_TRANSITIONS`. -/
inductive StatusChain (first : TaskStatus) : List (TaskStatus × TaskStatus) → TaskStatus → Prop
  | nil : StatusChain first [] first
  | snoc {links : List (TaskStatus × TaskStatus)} {previous current : TaskStatus} :
      StatusChain first links previous → canTransitionTask previous current →
        StatusChain first (links ++ [(previous, current)]) current

variable {self : StageScheduler} {manual : Prop} {now : Time} {granted : Option LeaseGrant}
  {task task' : TaskRecord} {payloads : List EventPayload} {db db' : Db}

/-! ## What a move publishes -/

theorem statusLink_statusChange (taskId : String) (previous current : TaskStatus) :
    (statusChange taskId previous current).filterMap (·.statusLink taskId) =
      if current = previous then [] else [(previous, current)] := by
  unfold statusChange
  split <;> simp [EventPayload.statusLink]

theorem statusLink_statusChange_of_ne {taskId other : String} (h : taskId ≠ other)
    (previous current : TaskStatus) :
    (statusChange taskId previous current).filterMap (·.statusLink other) = [] := by
  unfold statusChange
  split <;> simp [EventPayload.statusLink, h]

/-- A settled task stays or takes one allowed transition. -/
theorem Settled.link {settled : TaskRecord} (h : Settled now task settled) :
    settled.status = task.status ∨ canTransitionTask task.status settled.status := by
  cases h with
  | failed _ _ htrans => exact .inr htrans
  | succeeded _ _ htrans => exact .inr htrans
  | released _ _ hleased => exact .inr (by rw [hleased]; rfl)
  | unsettled => exact .inl rfl

theorem TaskMove.link (h : TaskMove manual now task granted payloads task') :
    task'.status = task.status ∨ canTransitionTask task.status task'.status := by
  cases h with
  | leased =>
      by_cases hs : task.status = .pending
      · exact .inr (by simp [hs]; rfl)
      · exact .inl (by simp [hs])
  | renewed | progressed => exact .inl rfl
  | started =>
      by_cases hs : task.status = .leased
      · exact .inr (by simp [hs]; rfl)
      · exact .inl (by simp [hs])
  | ended _ _ hsettled => exact hsettled.link
  | cancelled _ hactive =>
      right
      cases hs : task.status <;> first | rfl | simp [hs, TaskStatus.active] at hactive
  | retried _ hended =>
      right
      rcases hended with hs | hs <;> rw [hs] <;> rfl

/-- The events of a move tell the status change of its task, and nothing of another task. -/
theorem TaskMove.statusLinks (h : TaskMove manual now task granted payloads task')
    (taskId : String) :
    payloads.filterMap (·.statusLink taskId) =
      if taskId = task.taskId ∧ task'.status ≠ task.status then [(task.status, task'.status)]
      else [] := by
  have hpayloads : payloads = statusChange task.taskId task.status task'.status ∨
      (payloads.filterMap (·.statusLink taskId) = [] ∧ task'.status = task.status) := by
    cases h with
    | leased | started | ended | cancelled | retried => exact .inl rfl
    | renewed => exact .inr ⟨rfl, rfl⟩
    | progressed => exact .inr ⟨by simp [EventPayload.statusLink], rfl⟩
  rcases hpayloads with rfl | ⟨hnone, hsame⟩
  · by_cases hid : taskId = task.taskId
    · rw [hid, statusLink_statusChange]
      by_cases hs : task'.status = task.status <;> simp [hs]
    · rw [statusLink_statusChange_of_ne (Ne.symm hid)]
      simp [hid]
  · simp [hnone, hsame]

/-! ## The chain -/

/-- The history of each task is legal, and nothing is told of a task that does not exist. -/
structure Db.HistoryLegal (db : Db) : Prop where
  chain : ∀ task ∈ db.tasks, StatusChain .pending (db.statusHistory task.taskId) task.status
  known : ∀ taskId, taskId ∉ db.tasks.map (·.taskId) → db.statusHistory taskId = []

theorem statusHistory_publishAll (db : Db) (now : Time) (payloads : List EventPayload)
    (taskId : String) : (db.publishAll now payloads).statusHistory taskId =
      db.statusHistory taskId ++ payloads.filterMap (·.statusLink taskId) := by
  simp [Db.statusHistory]

theorem StatusChain.extend {links : List (TaskStatus × TaskStatus)} {first previous current :
    TaskStatus} (h : StatusChain first links previous)
    (hlink : current = previous ∨ canTransitionTask previous current) :
    StatusChain first (links ++ if current ≠ previous then [(previous, current)] else [])
      current := by
  by_cases hs : current = previous
  · simpa [hs] using h
  · simpa [hs] using StatusChain.snoc h (hlink.resolve_left hs)

theorem DbChange.historyLegal (h : DbChange manual now db granted db') (hlegal : db.HistoryLegal) :
    db'.HistoryLegal := by
  cases h with
  | untouched htasks hevents =>
      constructor
      · rw [htasks]
        simpa [Db.statusHistory, hevents] using hlegal.chain
      · rw [htasks]
        simpa [Db.statusHistory, hevents] using hlegal.known
  | @created request key _ taskId metadata _ hfresh =>
      have hhistory : ∀ other, (({ db with
          tasks := db.tasks ++ [newTask request key taskId metadata now] }).publish now
            (.taskCreated taskId)).statusHistory other = db.statusHistory other := by
        intro other
        simp [Db.statusHistory, Db.publish, EventPayload.statusLink]
      constructor
      · intro task htask
        rw [hhistory]
        rcases List.mem_append.mp htask with htask | htask
        · exact hlegal.chain task htask
        · rw [List.mem_singleton.mp htask]
          show StatusChain .pending (db.statusHistory taskId) .pending
          rw [hlegal.known taskId hfresh]
          exact .nil
      · intro other hother
        rw [hhistory]
        refine hlegal.known other fun hmem => hother ?_
        rw [Db.publish_tasks, List.map_append]
        exact List.mem_append_left _ hmem
  | @routed task task' payloads hmem _ hrouted =>
      obtain ⟨pipeline, stages, _, _, _, htask, rfl⟩ := hrouted.plan
      have hid : task'.taskId = task.taskId := by rw [htask]
      have hstatus : task'.status = task.status := by rw [htask]
      constructor
      · intro task₀ htask₀
        rw [statusHistory_publishAll, Db.statusHistory, Db.saveTask_events, ← Db.statusHistory]
        simp only [List.filterMap_cons, EventPayload.statusLink, List.filterMap_nil,
          List.append_nil]
        rw [Db.publishAll_tasks] at htask₀
        rcases mem_saveTask htask₀ with rfl | ⟨htask₀, _⟩
        · rw [hid, hstatus]
          exact hlegal.chain task hmem
        · exact hlegal.chain task₀ htask₀
      · intro other hother
        rw [Db.publishAll_tasks, saveTask_taskIds] at hother
        rw [statusHistory_publishAll, Db.statusHistory, Db.saveTask_events, ← Db.statusHistory,
          hlegal.known other hother]
        simp [EventPayload.statusLink]
  | @moved task task' _ payloads hmem hmove =>
      constructor
      · intro task₀ htask₀
        rw [statusHistory_publishAll, hmove.statusLinks, Db.statusHistory, Db.saveTask_events,
          ← Db.statusHistory]
        rw [Db.publishAll_tasks] at htask₀
        rcases mem_saveTask htask₀ with rfl | ⟨htask₀, hne⟩
        · rw [hmove.taskId]
          simpa using (hlegal.chain task hmem).extend hmove.link
        · rw [hmove.taskId] at hne
          simpa [hne] using hlegal.chain task₀ htask₀
      · intro other hother
        rw [Db.publishAll_tasks, saveTask_taskIds] at hother
        have hne : other ≠ task.taskId := fun h => hother (h ▸ List.mem_map_of_mem hmem)
        rw [statusHistory_publishAll, hmove.statusLinks, Db.statusHistory, Db.saveTask_events,
          ← Db.statusHistory, hlegal.known other hother]
        simp [hne]

theorem Administered.statusHistory (h : Administered db db') (taskId : String) :
    db'.statusHistory taskId = db.statusHistory taskId := by
  obtain ⟨new, hevents, hworker⟩ := h.events
  have hnone : (new.map (·.payload)).filterMap (·.statusLink taskId) = [] := by
    rw [List.filterMap_eq_nil_iff]
    intro payload hmem
    obtain ⟨event, hevent, rfl⟩ := List.mem_map.mp hmem
    have := hworker event hevent
    cases hp : event.payload <;> simp_all [EventPayload.concernsWorker, EventPayload.statusLink]
  rw [Db.statusHistory, hevents, List.map_append, List.filterMap_append, hnone, List.append_nil,
    ← Db.statusHistory]

theorem ControlStep.historyLegal {label : Label} (h : ControlStep self db label db')
    (hkeys : db.KeysNodup) (hlegal : db.HistoryLegal) : db'.HistoryLegal := by
  refine h.keeps (I := Db.HistoryLegal) (fun _ _ _ _ _ _ hl hstep => hstep.historyLegal hl) ?_ ?_
    hkeys hlegal
  · intro db db' hlegal hadmin
    constructor
    · intro task htask
      rw [hadmin.statusHistory]
      exact hlegal.chain task (hadmin.tasks ▸ htask)
    · intro taskId hmem
      rw [hadmin.statusHistory]
      exact hlegal.known taskId (hadmin.tasks ▸ hmem)
  · intro db task stages _ hlegal hmem _
    constructor
    · intro task₀ htask₀
      rcases mem_saveTask htask₀ with rfl | ⟨htask₀, _⟩
      · exact hlegal.chain task hmem
      · exact hlegal.chain task₀ htask₀
    · intro taskId hother
      rw [saveTask_taskIds] at hother
      exact hlegal.known taskId hother

theorem reachable_historyLegal (h : (controlPlane self).Reachable db) : db.HistoryLegal := by
  have hboth : db.KeysNodup ∧ db.HistoryLegal := by
    refine h.invariant (I := fun db => db.KeysNodup ∧ db.HistoryLegal) ?_ ?_
    · rintro db hinit
      have htasks : db.tasks = [] := hinit.1
      have hevents : db.events = [] := hinit.2
      exact ⟨initial_keysNodup hinit, by simp [htasks], by simp [Db.statusHistory, hevents]⟩
    · intro db label db' hdb hstep
      exact ⟨ControlStep.keysNodup hstep hdb.1, ControlStep.historyLegal hstep hdb.1 hdb.2⟩
  exact hboth.2

/-! ## From one state to a later one -/

/-- A composition of steps that `TASK_TRANSITIONS` allows. -/
abbrev TaskPath : TaskStatus → TaskStatus → Prop := ReflTransGen fun a b => canTransitionTask a b

theorem TaskMove.path (h : TaskMove manual now task granted payloads task') :
    TaskPath task.status task'.status := by
  rcases h.link with hsame | htrans
  · rw [hsame]
  · exact .single htrans

/-- Tasks and stages are kept, and their statuses follow the transition tables. -/
structure Follows (db db' : Db) : Prop where
  tasks : ∀ task ∈ db.tasks, ∃ task' ∈ db'.tasks, task'.taskId = task.taskId ∧
    TaskPath task.status task'.status
  stages : ∀ stage ∈ db.stages, ∃ stage' ∈ db'.stages, stage'.stageId = stage.stageId ∧
    StagePath stage.status stage'.status

theorem Follows.refl (db : Db) : Follows db db :=
  ⟨fun task h => ⟨task, h, rfl, .refl⟩, fun stage h => ⟨stage, h, rfl, .refl⟩⟩

theorem Follows.trans {db₁ db₂ db₃ : Db} (h : Follows db₁ db₂) (h' : Follows db₂ db₃) :
    Follows db₁ db₃ := by
  constructor
  · intro task htask
    obtain ⟨task', htask', hid, hpath⟩ := h.tasks task htask
    obtain ⟨task'', htask'', hid', hpath'⟩ := h'.tasks task' htask'
    exact ⟨task'', htask'', hid'.trans hid, hpath.trans hpath'⟩
  · intro stage hstage
    obtain ⟨stage', hstage', hid, hpath⟩ := h.stages stage hstage
    obtain ⟨stage'', hstage'', hid', hpath'⟩ := h'.stages stage' hstage'
    exact ⟨stage'', hstage'', hid'.trans hid, hpath.trans hpath'⟩

/-- One record written back, its stages each followed by a stage of the new record. -/
theorem Follows.saveTask (hkeys : db.KeysNodup) (hmem : task ∈ db.tasks)
    (hid : task'.taskId = task.taskId) (hstatus : TaskPath task.status task'.status)
    (hstages : ∀ stage ∈ task.stages, ∃ stage' ∈ task'.stages, stage'.stageId = stage.stageId ∧
      StagePath stage.status stage'.status) (htasks : db'.tasks = (db.saveTask task').tasks) :
    Follows db db' := by
  have hself : task' ∈ db'.tasks := htasks ▸ mem_replaceKey_self hmem hid.symm
  have hother : ∀ task₀ ∈ db.tasks, task₀ ≠ task → task₀ ∈ db'.tasks := by
    intro task₀ h₀ hne
    rw [htasks]
    refine mem_replaceKey_of_ne h₀ fun heq => hne ?_
    exact List.inj_on_of_nodup_map hkeys.tasks h₀ hmem (heq.trans hid)
  constructor
  · intro task₀ h₀
    by_cases hne : task₀ = task
    · exact ⟨task', hself, by rw [hid, hne], by rw [hne]; exact hstatus⟩
    · exact ⟨task₀, hother task₀ h₀ hne, rfl, .refl⟩
  · intro stage hstage
    obtain ⟨task₀, h₀, hstage⟩ := Db.mem_stages.mp hstage
    by_cases hne : task₀ = task
    · rw [hne] at hstage
      obtain ⟨stage', hstage', hrest⟩ := hstages stage hstage
      exact ⟨stage', Db.mem_stages.mpr ⟨task', hself, hstage'⟩, hrest⟩
    · exact ⟨stage, Db.mem_stages.mpr ⟨task₀, hother task₀ h₀ hne, hstage⟩, rfl, .refl⟩

theorem DbChange.follows (h : DbChange manual now db granted db') (hkeys : db.KeysNodup) :
    Follows db db' := by
  cases h with
  | untouched htasks _ =>
      exact ⟨fun task h => ⟨task, htasks ▸ h, rfl, .refl⟩,
        fun stage h => ⟨stage, by simpa [Db.stages, htasks] using h, rfl, .refl⟩⟩
  | created =>
      exact ⟨fun task h => ⟨task, List.mem_append_left _ h, rfl, .refl⟩,
        fun stage h => ⟨stage, by simpa [Db.stages, newTask] using h, rfl, .refl⟩⟩
  | @routed task task' payloads hmem hnone hrouted =>
      obtain ⟨pipeline, stages, _, _, _, htask, rfl⟩ := hrouted.plan
      exact .saveTask hkeys hmem (by rw [htask]) (by rw [htask]) (by simp [hnone])
        (Db.publishAll_tasks _ _ _)
  | moved hmem hmove =>
      obtain ⟨f, hf, hchange⟩ := hmove.stages (hkeys.task hmem)
      refine .saveTask hkeys hmem hmove.taskId hmove.path ?_ (Db.publishAll_tasks _ _ _)
      intro stage hstage
      refine ⟨f stage, hf ▸ List.mem_map_of_mem hstage, (hchange stage hstage).samePlan.stageId, ?_⟩
      exact (hchange stage hstage).path

theorem ControlStep.follows {label : Label} (h : ControlStep self db label db')
    (hkeys : db.KeysNodup) : Follows db db' := by
  refine h.keeps (I := Follows db) (fun _ _ _ _ _ hkeys hf hstep => hf.trans (hstep.follows hkeys))
    ?_ ?_ hkeys (.refl db)
  · intro db₁ db₂ hf hadmin
    exact hf.trans ⟨fun task h => ⟨task, hadmin.tasks ▸ h, rfl, .refl⟩,
      fun stage h => ⟨stage, by simpa [Db.stages, hadmin.tasks] using h, rfl, .refl⟩⟩
  · intro db₁ task stages hkeys hf hmem hperm
    refine hf.trans (.saveTask hkeys hmem ?_ ?_ ?_ rfl)
    · rfl
    · exact .refl
    · exact fun stage hstage => ⟨stage, hperm.mem_iff.mpr hstage, rfl, .refl⟩

theorem run_follows {labels : List Label} (h : (controlPlane self).Run db labels db')
    (hkeys : db.KeysNodup) : Follows db db' := by
  induction h with
  | nil => exact .refl db
  | snoc hrun hstep ih => exact ih.trans (ControlStep.follows hstep (run_keysNodup hrun hkeys))

theorem TaskPath.eq_of_succeeded {a : TaskStatus} (h : TaskPath .succeeded a) :
    a = .succeeded := by
  induction h with
  | refl => rfl
  | tail _ hstep ih =>
      rw [ih] at hstep
      simp [canTransitionTask, taskTransitions] at hstep

/-- The published status events of every task form a legal chain that ends at its status;
an operation moves a stage's status along `STAGE_TRANSITIONS`; and what is `SUCCEEDED` or
`SKIPPED` stays so. -/
theorem status_history_legal (h : (controlPlane self).Reachable db) :
    (∀ task ∈ db.tasks, StatusChain .pending (db.statusHistory task.taskId) task.status) ∧
      (∀ label db', (controlPlane self).Step db label db' →
        ∀ stage ∈ db.stages, (∃ stage' ∈ db'.stages, stage'.stageId = stage.stageId) ∧
          ∀ stage' ∈ db'.stages, stage'.stageId = stage.stageId →
            ReflTransGen (fun a b => canTransitionStage a b) stage.status stage'.status) ∧
      ∀ labels db', (controlPlane self).Run db labels db' →
        (∀ stage ∈ db.stages, stage.status = .succeeded ∨ stage.status = .skipped →
          ∀ stage' ∈ db'.stages, stage'.stageId = stage.stageId → stage'.status = stage.status) ∧
        ∀ task ∈ db.tasks, task.status = .succeeded →
          ∀ task' ∈ db'.tasks, task'.taskId = task.taskId → task'.status = .succeeded := by
  have hkeys := reachable_keysNodup h
  refine ⟨(reachable_historyLegal h).chain, ?_, ?_⟩
  · intro label db' hstep stage hstage
    have hkeys' := ControlStep.keysNodup hstep hkeys
    obtain ⟨found, hfound, hid, hpath⟩ := (ControlStep.follows hstep hkeys).stages stage hstage
    refine ⟨⟨found, hfound, hid⟩, ?_⟩
    intro stage' hstage' hid'
    rw [List.inj_on_of_nodup_map hkeys'.stages hstage' hfound (hid'.trans hid.symm)]
    exact hpath
  · intro labels db' hrun
    have hkeys' := run_keysNodup hrun hkeys
    have hfollows := run_follows hrun hkeys
    constructor
    · intro stage hstage hfinished stage' hstage' hid'
      obtain ⟨found, hfound, hid, hpath⟩ := hfollows.stages stage hstage
      rw [List.inj_on_of_nodup_map hkeys'.stages hstage' hfound (hid'.trans hid.symm)]
      exact hpath.eq_of_finished (by rcases hfinished with h | h <;> rw [h] <;> rfl)
    · intro task htask hsucceeded task' htask' hid'
      obtain ⟨found, hfound, hid, hpath⟩ := hfollows.tasks task htask
      rw [List.inj_on_of_nodup_map hkeys'.tasks htask' hfound (hid'.trans hid.symm)]
      rw [hsucceeded] at hpath
      exact hpath.eq_of_succeeded

theorem status_history_legal_merging : ∃ task ∈ mergingDb.tasks, task.status = .running ∧
    mergingDb.statusHistory task.taskId = [(.pending, .leased), (.leased, .running)] ∧
      StatusChain .pending (mergingDb.statusHistory task.taskId) task.status := by
  have hexists : ∃ task ∈ mergingDb.tasks, task.status = .running ∧
      mergingDb.statusHistory task.taskId = [(.pending, .leased), (.leased, .running)] := by
    decide +kernel
  obtain ⟨task, htask, hstatus, hhistory⟩ := hexists
  exact ⟨task, htask, hstatus, hhistory,
    (status_history_legal mergingDb_reachable).1 task htask⟩

end ParserServe
