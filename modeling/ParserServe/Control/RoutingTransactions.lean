import ParserServe.Control.Creation
import ParserServe.Control.RoutingService

/-! # Routing inside a transaction

`TaskRouter.route` as it writes: each stage row joins the task before the next one is planned, so
an error at a later stage leaves the earlier ones in the session.  `create_task` calls it in a
savepoint and `run_once` in a transaction for each task.
-/

namespace ParserServe

open Foundation

/-- The task row of a session and the events published in it. -/
structure RoutingSession where
  task : TaskRecord
  payloads : List EventPayload := []

/-- `task.stages.append(stage)`. -/
def RoutingSession.append (session : RoutingSession) (stage : StageRecord) : RoutingSession :=
  { session with task := { session.task with stages := session.task.stages ++ [stage] } }

/-- The binding to the pipeline version and `task.routed`. -/
def RoutingSession.bind (session : RoutingSession) (definition : PipelineDefinition)
    (created : List StageRecord) (now : Time) : RoutingSession where
  task := { session.task with
    pipelineId := some definition.pipelineId
    pipelineVersion := some definition.version
    updatedAt := now }
  payloads := session.payloads ++ [.taskRouted session.task.taskId definition.pipelineId
    definition.version (created.map (·.stageId))]

/-- The loop of `route`, with the rows created so far. -/
def appendStages (db : Db) (options : TaskOptions) (metadata : SourceMetadata) (now : Time)
    (stageIds : Nat → String) : Nat → List PipelineStageDefinition → List StageRecord →
      Session RoutingSession ServiceError (List StageRecord)
  | _, [], created, session => (.ok created, session)
  | position, stageDefinition :: rest, created, session =>
      match planStage db options metadata now (stageIds position) position stageDefinition with
      | .error error => (.error error, session)
      | .ok stage =>
          appendStages db options metadata now stageIds (position + 1) rest (created ++ [stage])
            (session.append stage)

/-- `route` on the locked task row. -/
def routeInPlace (db : Db) (allowUnpublished : Bool) (stageIds : Nat → String) (now : Time) :
    Session RoutingSession ServiceError Unit := fun session =>
  if session.task.status ≠ .pending then (.error .taskAlreadyRouted, session)
  else if session.task.stages ≠ [] then (.ok (), session)
  else match session.task.sourceMetadata with
    | none => (.error .taskSourceUnresolved, session)
    | some metadata =>
        match selectPipeline db session.task metadata allowUnpublished with
        | .error error => (.error error, session)
        | .ok pipeline =>
            match appendStages db session.task.options metadata now stageIds 0
              pipeline.definition.stages [] session with
            | (.error error, session) => (.error error, session)
            | (.ok created, session) =>
                let session := session.bind pipeline.definition created now
                -- the flush, with the primary key of the stage table
                if (created.map (·.stageId)).Nodup ∧
                    ∀ stage ∈ created, stage.stageId ∉ db.stages.map (·.stageId) then
                  (.ok (), session)
                else (.error .integrityError, session)

/-- The part of `create_task` that routes the inserted row: three errors are caught outside the
savepoint, and any other ends the transaction. -/
def CreationCall.routeNested (call : CreationCall) (db : Db) (uncommitted : List TaskRecord)
    (record : TaskRecord) (stageIds : Nat → String) : Option CreationPhase :=
  match atomically (routeInPlace db false stageIds call.now) ⟨record, []⟩ with
  | (.ok (), session) =>
      if ∃ row ∈ uncommitted, row.clashes session.task then none
      else some (.flushed session.task session.payloads)
  | (.error error, session) =>
      if error.deferred then some (.flushed session.task session.payloads)
      else some (call.collide false)

/-- The transaction of `run_once` for one task: a commit, or nothing. -/
def routeTransaction (db : Db) (taskId : String) (stageIds : Nat → String) (now : Time) :
    Except ServiceError (Option TaskRecord) × Db :=
  match db.task? taskId with
  | none => (.ok none, db)
  | some task =>
      match routeInPlace db false stageIds now ⟨task, []⟩ with
      | (.ok (), session) =>
          (.ok (some session.task), (db.saveTask session.task).publishAll now session.payloads)
      | (.error error, _) => (.error error, db)

/-! ## Both forms of `route` -/

variable {db : Db} {options : TaskOptions} {metadata : SourceMetadata} {now : Time}
  {stageIds : Nat → String} {allowUnpublished : Bool} {task : TaskRecord}

/-- The loop appends what is planned. -/
theorem appendStages_ok {position : Nat} {definitions : List PipelineStageDefinition}
    {stages created : List StageRecord} {session : RoutingSession}
    (h : planStages db options metadata now stageIds position definitions = .ok stages) :
    appendStages db options metadata now stageIds position definitions created session =
      (.ok (created ++ stages),
        { session with
          task := { session.task with stages := session.task.stages ++ stages } }) := by
  induction definitions generalizing position stages created session with
  | nil =>
      cases h
      simp [appendStages]
  | cons definition rest ih =>
      obtain ⟨stage, hstage, hrest⟩ := bind_eq_ok.mp h
      obtain ⟨others, hothers, hend⟩ := bind_eq_ok.mp hrest
      cases hend
      rw [appendStages, hstage]
      dsimp only
      rw [ih hothers]
      simp [RoutingSession.append]

theorem appendStages_error {position : Nat} {definitions : List PipelineStageDefinition}
    {created : List StageRecord} {session : RoutingSession} {error : ServiceError}
    (h : planStages db options metadata now stageIds position definitions = .error error) :
    ∃ session', appendStages db options metadata now stageIds position definitions created session =
      (.error error, session') := by
  induction definitions generalizing position created session with
  | nil => cases h
  | cons definition rest ih =>
      rw [appendStages]
      rcases bind_eq_error.mp h with hstage | ⟨stage, hstage, hrest⟩
      · rw [hstage]
        exact ⟨session, rfl⟩
      · rcases bind_eq_error.mp hrest with hothers | ⟨others, hothers, hend⟩
        · rw [hstage]
          exact ih hothers
        · cases hend

/-- Where `TaskRecord.route` returns, routing in place leaves its row and its events. -/
theorem routeInPlace_ok {task' : TaskRecord} {payloads new : List EventPayload}
    (h : task.route db allowUnpublished stageIds now = .ok (task', new)) :
    routeInPlace db allowUnpublished stageIds now ⟨task, payloads⟩ =
      (.ok (), ⟨task', payloads ++ new⟩) := by
  obtain ⟨_, hstatus, h⟩ := bind_eq_ok.mp h
  rw [routeInPlace, if_neg (not_not.mpr (ensure_eq_ok.mp hstatus))]
  by_cases hstages : task.stages = []
  · rw [if_neg (not_not.mpr hstages)] at h ⊢
    cases hmetadata : task.sourceMetadata with
    | none => simp [hmetadata] at h
    | some metadata =>
        simp only [hmetadata, bind_eq_ok, ensure_eq_ok] at h
        obtain ⟨pipeline, hpipeline, stages, hplanned, _, hkeys, h⟩ := h
        cases h
        dsimp only
        rw [hpipeline]
        dsimp only
        rw [appendStages_ok hplanned]
        dsimp only
        rw [List.nil_append, if_pos hkeys]
        simp [RoutingSession.bind, hstages, hmetadata]
  · rw [if_pos hstages] at h ⊢
    cases h
    simp

/-- Where it raises, routing in place raises the same. -/
theorem routeInPlace_error {payloads : List EventPayload} {error : ServiceError}
    (h : task.route db allowUnpublished stageIds now = .error error) :
    (routeInPlace db allowUnpublished stageIds now ⟨task, payloads⟩).1 = .error error := by
  rw [routeInPlace]
  rcases bind_eq_error.mp h with hstatus | ⟨_, hstatus, h⟩
  · obtain ⟨hnot, rfl⟩ := ensure_eq_error.mp hstatus
    rw [if_pos hnot]
  · rw [if_neg (not_not.mpr (ensure_eq_ok.mp hstatus))]
    by_cases hstages : task.stages = []
    · rw [if_neg (not_not.mpr hstages)] at h ⊢
      cases hmetadata : task.sourceMetadata with
      | none =>
          simp only [hmetadata, Except.error.injEq] at h
          rw [h]
      | some metadata =>
          simp only [hmetadata] at h
          dsimp only
          rcases bind_eq_error.mp h with hpipeline | ⟨pipeline, hpipeline, h⟩
          · rw [hpipeline]
          · rw [hpipeline]
            dsimp only
            rcases bind_eq_error.mp h with hplanned | ⟨stages, hplanned, h⟩
            · obtain ⟨session', hloop⟩ : ∃ session', appendStages db task.options metadata now
                  stageIds 0 pipeline.definition.stages [] ⟨task, payloads⟩ =
                    (.error error, session') := appendStages_error hplanned
              rw [hloop]
            · rw [appendStages_ok hplanned]
              rcases bind_eq_error.mp h with hkeys | ⟨_, _, h⟩
              · obtain ⟨hnot, rfl⟩ := ensure_eq_error.mp hkeys
                dsimp only
                rw [List.nil_append, if_neg hnot]
              · cases h
    · rw [if_pos hstages] at h
      cases h

/-- The savepoint of `create_task` makes routing in place the step of the call. -/
theorem routeNested_eq (call : CreationCall) (db : Db) (uncommitted : List TaskRecord)
    (record : TaskRecord) (stageIds : Nat → String) :
    call.routeNested db uncommitted record stageIds =
      call.route db uncommitted record stageIds := by
  unfold CreationCall.routeNested CreationCall.route
  cases hroute : record.route db false stageIds call.now with
  | ok routed => rw [atomically_of_ok (routeInPlace_ok hroute)]; rfl
  | error error =>
      rw [atomically_of_error (routeInPlace_error hroute)]
      cases error <;> rfl

/-- The transaction of `run_once` is `routeTask`, with a rollback on errors. -/
theorem routeTransaction_eq (db : Db) (taskId : String) (stageIds : Nat → String) (now : Time) :
    routeTransaction db taskId stageIds now =
      match routeTask db taskId false stageIds now with
      | .ok (db', record) => (.ok record, db')
      | .error error => (.error error, db) := by
  unfold routeTransaction routeTask Db.withTask
  cases db.task? taskId with
  | none => rfl
  | some task =>
      dsimp only
      cases hroute : task.route db false stageIds now with
      | ok routed => rw [routeInPlace_ok hroute]; rfl
      | error error =>
          have hraised : (routeInPlace db false stageIds now ⟨task, []⟩).1 = .error error :=
            routeInPlace_error hroute
          generalize routeInPlace db false stageIds now ⟨task, []⟩ = outcome at hraised
          obtain ⟨_ | _, session⟩ := outcome
          · cases hraised
            rfl
          · cases hraised

end ParserServe
