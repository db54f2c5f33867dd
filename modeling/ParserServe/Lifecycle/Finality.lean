import ParserServe.Lifecycle.Attempts
import ParserServe.Lifecycle.Display
import ParserServe.Retention.Pass

/-! # Tasks that have ended

The record of an ended task stays what it is: but for the order of its rows, and for result URIs
whose artifacts a retention pass has deleted, which moves `updated_at` too, nothing is written to it
until a manual retry, which a task that succeeded never accepts.
-/

namespace ParserServe

open Foundation

variable {self : StageScheduler} {retention : RetentionService} {manual : Prop} {now : Time}
  {db db' : Db} {task task' : TaskRecord} {granted : Option LeaseGrant} {label : Label}
  {payloads : List EventPayload} {state state' : ServiceState} {labels : List ServiceLabel}
  {removed removed' : String → Time → Prop}

/-! ## What may still change -/

/-- A result URI and the time of the last write stay, or the artifact of the URI was removed and
the row written with it. -/
def ResultKept (removed : String → Time → Prop) (uri : Option String) (updatedAt : Time)
    (uri' : Option String) (updatedAt' : Time) : Prop :=
  (uri' = uri ∧ updatedAt' = updatedAt) ∨
    (uri' = none ∧ ∃ name, uri = some name ∧ removed name updatedAt')

theorem ResultKept.trans {a b c : Option String} {x y z : Time} (h : ResultKept removed a x b y)
    (h' : ResultKept removed b y c z) : ResultKept removed a x c z := by
  rcases h' with ⟨rfl, rfl⟩ | ⟨hgone, name, hname, hremoved⟩
  · exact h
  · rcases h with ⟨rfl, rfl⟩ | ⟨hnone, _⟩
    · exact .inr ⟨hgone, name, hname, hremoved⟩
    · rw [hnone] at hname
      cases hname

theorem ResultKept.mono (hremoved : ∀ uri now, removed uri now → removed' uri now)
    {a b : Option String} {x y : Time} (h : ResultKept removed a x b y) :
    ResultKept removed' a x b y :=
  h.imp id fun ⟨hgone, name, hname, hname'⟩ => ⟨hgone, name, hname, hremoved _ _ hname'⟩

/-- The same row, whose result may have been removed. -/
structure StageRecord.Kept (removed : String → Time → Prop) (stage stage' : StageRecord) :
    Prop where
  same : stage' = { stage with resultUri := stage'.resultUri, updatedAt := stage'.updatedAt }
  result : ResultKept removed stage.resultUri stage.updatedAt stage'.resultUri stage'.updatedAt

/-- The same record with the same rows, whose results may have been removed. -/
structure TaskRecord.Kept (removed : String → Time → Prop) (task task' : TaskRecord) : Prop where
  same : task' = { task with
    stages := task'.stages, resultUri := task'.resultUri, updatedAt := task'.updatedAt }
  result : ResultKept removed task.resultUri task.updatedAt task'.resultUri task'.updatedAt
  rows : (task'.stages.map (·.stageId)).Perm (task.stages.map (·.stageId))
  stages : ∀ stage ∈ task.stages, ∃ stage' ∈ task'.stages, stage.Kept removed stage'

theorem StageRecord.Kept.refl (stage : StageRecord) : stage.Kept removed stage :=
  ⟨rfl, .inl ⟨rfl, rfl⟩⟩

theorem StageRecord.Kept.trans {a b c : StageRecord} (h : a.Kept removed b)
    (h' : b.Kept removed c) : a.Kept removed c :=
  ⟨by rw [h'.same, h.same], h.result.trans h'.result⟩

theorem TaskRecord.Kept.refl (task : TaskRecord) : task.Kept removed task :=
  ⟨rfl, .inl ⟨rfl, rfl⟩, .refl _, fun stage hstage => ⟨stage, hstage, .refl stage⟩⟩

theorem TaskRecord.Kept.trans {a b c : TaskRecord} (h : a.Kept removed b)
    (h' : b.Kept removed c) : a.Kept removed c := by
  refine ⟨?_, h.result.trans h'.result, h'.rows.trans h.rows, fun stage hstage => ?_⟩
  · rw [h'.same, h.same]
  · obtain ⟨stage₁, hstage₁, hkept₁⟩ := h.stages stage hstage
    obtain ⟨stage₂, hstage₂, hkept₂⟩ := h'.stages stage₁ hstage₁
    exact ⟨stage₂, hstage₂, hkept₁.trans hkept₂⟩

theorem TaskRecord.Kept.mono (hremoved : ∀ uri now, removed uri now → removed' uri now)
    (h : task.Kept removed task') : task.Kept removed' task' := by
  refine ⟨h.same, h.result.mono hremoved, h.rows, fun stage hstage => ?_⟩
  obtain ⟨stage', hstage', hkept⟩ := h.stages stage hstage
  exact ⟨stage', hstage', hkept.same, hkept.result.mono hremoved⟩

theorem TaskRecord.Kept.taskId (h : task.Kept removed task') : task'.taskId = task.taskId := by
  rw [h.same]

theorem TaskRecord.Kept.status (h : task.Kept removed task') : task'.status = task.status := by
  rw [h.same]

theorem TaskRecord.Kept.reordered {stages : List StageRecord} (h : stages.Perm task.stages) :
    task.Kept removed { task with stages := stages } :=
  ⟨rfl, .inl ⟨rfl, rfl⟩, h.map _, fun stage hstage => ⟨stage, h.mem_iff.mpr hstage, .refl stage⟩⟩

theorem TaskRecord.Kept.forgetResult (task : TaskRecord) {uri : String} (h : removed uri now) :
    task.Kept removed (task.forgetResult uri now) := by
  have hstage : ∀ stage : StageRecord, stage.Kept removed (stage.forgetResult uri now) := by
    intro stage
    unfold StageRecord.forgetResult
    split
    · next hresult => exact ⟨rfl, .inr ⟨rfl, uri, hresult, h⟩⟩
    · exact .refl stage
  have hids : (task.forgetResult uri now).stages.map (·.stageId) =
      task.stages.map (·.stageId) := by
    rw [TaskRecord.forgetResult, List.map_map]
    refine List.map_congr_left fun stage _ => ?_
    show (stage.forgetResult uri now).stageId = stage.stageId
    rw [(hstage stage).same]
  refine ⟨rfl, ?_, .of_eq hids, fun stage hmem => ?_⟩
  · simp only [TaskRecord.forgetResult]
    split
    · next hresult => exact .inr ⟨rfl, uri, hresult, h⟩
    · exact .inl ⟨rfl, rfl⟩
  · exact ⟨_, List.mem_map_of_mem hmem, hstage stage⟩

theorem TaskRecord.Kept.forgetResults (task : TaskRecord) {uris : List String}
    (h : ∀ uri ∈ uris, removed uri now) : task.Kept removed (task.forgetResults uris now) := by
  induction uris generalizing task with
  | nil => exact .refl task
  | cons uri uris ih =>
      have hfirst : task.Kept removed (task.forgetResult uri now) :=
        .forgetResult task (h uri List.mem_cons_self)
      exact hfirst.trans (ih _ fun other hother => h other (List.mem_cons_of_mem _ hother))

/-! ## Changes -/

theorem StageStatus.terminal_of_finished {a : StageStatus} (h : a.finished) : a.terminal := by
  cases a <;> first | rfl | cases h

theorem terminal_of_ended (hcons : task.Consistent) (hended : task.status.terminal)
    {stage : StageRecord} (hstage : stage ∈ task.stages) : stage.status.terminal := by
  have hagrees := hcons.agrees
  cases hstatus : task.status <;> rw [hstatus] at hagrees hended
  case succeeded => exact StageStatus.terminal_of_finished (hagrees.2 stage hstage)
  case failed => exact hagrees.1 stage hstage
  case cancelled => exact (hagrees.resolve_left (List.ne_nil_of_mem hstage)).1 stage hstage
  all_goals cases hended

theorem StageStatus.active_of_terminal {a : StageStatus} (h : a.terminal) : a.active = false := by
  cases a <;> first | rfl | cases h

theorem TaskStatus.active_of_terminal {a : TaskStatus} (h : a.terminal) : a.active = false := by
  cases a <;> first | rfl | cases h

/-- Only a manual retry works on a task that has ended. -/
theorem TaskMove.not_ended (h : TaskMove False now task granted payloads task')
    (hcons : task.Consistent) : ¬ task.status.terminal := by
  intro hended
  have hidle : ∀ stage ∈ task.stages, ¬ stage.status.active := fun stage hstage =>
    Bool.eq_false_iff.mp (StageStatus.active_of_terminal (terminal_of_ended hcons hended hstage))
  cases h with
  | leased _ _ _ hopen _ =>
      exact Bool.eq_false_iff.mp (TaskStatus.active_of_terminal hended) hopen
  | renewed _ hstage hheld => exact hidle _ hstage hheld
  | started hstage hleased => exact hidle _ hstage (by rw [hleased]; rfl)
  | progressed _ _ hstage hrunning => exact hidle _ hstage (by rw [hrunning]; rfl)
  | ended hstage hend _ => exact hidle _ hstage hend.active
  | cancelled hmanual | retried hmanual => exact hmanual

/-- Where another record is written back, the record of the task stays. -/
theorem mem_saveTask_of_ne (htask : task ∈ db.tasks) (hne : task.taskId ≠ task'.taskId) :
    task ∈ ((db.saveTask task').publishAll now payloads).tasks := by
  rw [Db.publishAll_tasks]
  exact mem_replaceKey_of_ne htask hne

theorem DbChange.keeps_ended (h : DbChange False now db granted db') (hkeys : db.KeysNodup)
    (htask : task ∈ db.tasks) (hcons : task.Consistent) (hended : task.status.terminal) :
    task ∈ db'.tasks := by
  have hsame : ∀ task₁ ∈ db.tasks, task.taskId = task₁.taskId → task = task₁ :=
    fun task₁ htask₁ hid => List.inj_on_of_nodup_map hkeys.tasks htask htask₁ hid
  cases h with
  | untouched htasks _ _ => exact htasks ▸ htask
  | created =>
      rw [Db.publish_tasks]
      exact List.mem_append_left _ htask
  | routed hmem _ hrouted =>
      obtain ⟨_, _, _, _, _, hwritten, _⟩ := hrouted.plan
      apply mem_saveTask_of_ne htask
      rw [hwritten]
      intro hid
      have hpending := hrouted.status
      rw [← hsame _ hmem hid] at hpending
      rw [hpending] at hended
      cases hended
  | moved hmem hmove =>
      apply mem_saveTask_of_ne htask
      rw [hmove.taskId]
      intro hid
      rw [← hsame _ hmem hid] at hmove
      exact hmove.not_ended hcons hended

theorem Changes.keeps_ended {grants : List LeaseGrant} (h : Changes False now db grants db')
    (hkeys : db.KeysNodup) (htask : task ∈ db.tasks) (hcons : task.Consistent)
    (hended : task.status.terminal) : task ∈ db'.tasks := by
  have hboth := h.keeps (I := fun db => db.KeysNodup ∧ task ∈ db.tasks)
    (fun _ _ _ hdb hchange => ⟨hchange.keysNodup hdb.1,
      hchange.keeps_ended hdb.1 hdb.2 hcons hended⟩) ⟨hkeys, htask⟩
  exact hboth.2

/-- A user's call writes to the task it names, if it is not refused. -/
theorem withTask_keeps {taskId : String} {record : Option TaskRecord}
    {operation : TaskRecord → Except ServiceError (TaskRecord × List EventPayload)}
    (hop : ∀ task₁ written payloads, operation task₁ = .ok (written, payloads) →
      written.taskId = task₁.taskId)
    (h : db.withTask taskId now operation = .ok (db', record)) (hkeys : db.KeysNodup)
    (htask : task ∈ db.tasks) : task ∈ db'.tasks ∨
      task.taskId = taskId ∧ record.isSome ∧ ∃ written, operation task = .ok written := by
  unfold Db.withTask at h
  split at h
  · cases h
    exact .inl htask
  · next found hfind =>
      obtain ⟨⟨written, payloads⟩, hoperation, h⟩ := bind_eq_ok.mp h
      cases h
      have hfound : found ∈ db.tasks := List.mem_of_find?_eq_some hfind
      have hid : found.taskId = taskId := by simpa using List.find?_some hfind
      by_cases hsame : task.taskId = found.taskId
      · obtain rfl : task = found := List.inj_on_of_nodup_map hkeys.tasks htask hfound hsame
        exact .inr ⟨hid, rfl, _, hoperation⟩
      · refine .inl (mem_saveTask_of_ne htask ?_)
        rwa [hop _ _ _ hoperation]

/-! ## Steps -/

/-- The task that a step retries by hand. -/
def Label.retriedTask : Label → Option String
  | .returned (.retry taskId _) (.task (some _)) => some taskId
  | _ => none

theorem ControlStep.keeps_ended (h : ControlStep self db label db') (hkeys : db.KeysNodup)
    (htask : task ∈ db.tasks) (hcons : task.Consistent) (hended : task.status.terminal)
    (hretry : task.status ≠ .succeeded → label.retriedTask ≠ some task.taskId) :
    ∃ task' ∈ db'.tasks, task.Kept removed task' := by
  cases h with
  | raised => exact ⟨task, htask, .refl task⟩
  | administered hadmin => exact ⟨task, hadmin.tasks ▸ htask, .refl task⟩
  | @reordered task₁ stages hmem hperm =>
      by_cases hsame : task.taskId = task₁.taskId
      · obtain rfl : task = task₁ := List.inj_on_of_nodup_map hkeys.tasks htask hmem hsame
        exact ⟨_, mem_replaceKey_self hmem rfl, .reordered hperm⟩
      · exact ⟨task, mem_replaceKey_of_ne htask hsame, .refl task⟩
  | returned hanswerable hexec =>
      rename_i operation response
      refine ⟨task, ?_, .refl task⟩
      cases operation with
      | cancel taskId now =>
          obtain ⟨⟨db₁, record⟩, hcancel, heq⟩ := bind_eq_ok.mp hexec
          cases heq
          rcases withTask_keeps (fun _ _ _ hop => (cancel_eq_ok hop).1) hcancel hkeys htask with
            hkept | ⟨_, _, written, hop⟩
          · exact hkept
          · simp [TaskRecord.cancel, hended, ensure, bind, Except.bind] at hop
      | retry taskId now =>
          obtain ⟨⟨db₁, record⟩, hcall, heq⟩ := bind_eq_ok.mp hexec
          cases heq
          rcases withTask_keeps (fun _ _ _ hop => (retry_eq_ok hop).1) hcall hkeys htask with
            hkept | ⟨hid, hrecord, written, hop⟩
          · exact hkept
          · obtain ⟨saved, rfl⟩ := Option.isSome_iff_exists.mp hrecord
            by_cases hdone : task.status = .succeeded
            · simp [TaskRecord.retry, hdone, ensure, bind, Except.bind] at hop
            · exact absurd (congrArg some hid.symm) (hretry hdone)
      | create | route | lease | renew | start | progress | complete | authorizeArtifactUpload
        | requeueExpired =>
          exact (exec_changes hkeys hanswerable hexec).keeps_ended hkeys htask hcons hended

/-! ## Retention -/

/-- A pass removes the artifacts whose URIs it takes out of the tasks. -/
theorem runOnce_keeps_ended {storage storage' : List String} {deleteFails : String → Bool}
    {dryRun : Bool} {maximumRecords : Option Nat} {report : RetentionRunData}
    (h : retention.runOnce db storage deleteFails now dryRun maximumRecords =
      some (db', storage', report)) (htask : task ∈ db.tasks)
    (hremoved : ∀ record ∈ db.artifacts, record ∉ db'.artifacts → removed record.storageUri now) :
    ∃ task' ∈ db'.tasks, task.Kept removed task' := by
  cases dryRun with
  | true =>
      rw [runOnce_eq] at h
      dsimp only at h
      split at h
      · cases h
      · cases h
        exact ⟨task, htask, .refl task⟩
  | false =>
      have heffect := runOnce_effect h
      refine ⟨_, heffect.tasks ▸ List.mem_map_of_mem htask, .forgetResults task fun uri huri => ?_⟩
      obtain ⟨record, hrecord, rfl⟩ := List.mem_map.mp huri
      have hselected := List.mem_of_mem_filter (List.mem_of_mem_filter hrecord)
      refine hremoved record (mem_expiredArtifacts hselected).1 ?_
      rw [heffect.artifacts]
      simp only [List.mem_filter, decide_eq_true_eq, not_and, not_not]
      exact fun _ => List.mem_map_of_mem hrecord

/-! ## Runs -/

/-- The task that a step of the service retries by hand. -/
def ServiceLabel.retriedTask : ServiceLabel → Option String
  | .control label => label.retriedTask
  | .retained _ => none

def ServiceLabel.leases : ServiceLabel → List LeasedStage
  | .control label => label.leases
  | .retained _ => []

/-- The attempt counter of a row tells that it is not leased again. -/
theorem ControlStep.leases_ended (h : ControlStep self db label db') (hkeys : db.KeysNodup)
    (htask : task ∈ db.tasks) (hcons : task.Consistent) (hended : task.status.terminal)
    (hretry : task.status ≠ .succeeded → label.retriedTask ≠ some task.taskId) {stage : StageRecord}
    (hstage : stage ∈ task.stages) : leasesOf stage.stageId label.leases = [] := by
  have hstays : ∃ task' ∈ db'.tasks, task.Kept (fun _ _ => False) task' :=
    h.keeps_ended hkeys htask hcons hended hretry
  obtain ⟨task', htask', hkept⟩ := hstays
  obtain ⟨stage', hstage', hrow⟩ := hkept.stages stage hstage
  have hid : stage'.stageId = stage.stageId := by rw [hrow.same]
  have hattempt : stage'.attempt = stage.attempt := by rw [hrow.same]
  have hbefore := attemptOf_of_mem hkeys (Db.mem_stages.mpr ⟨task, htask, hstage⟩)
  have hafter := attemptOf_of_mem (h.keysNodup hkeys) (Db.mem_stages.mpr ⟨task', htask', hstage'⟩)
  rw [hid, hattempt] at hafter
  obtain ⟨_, hcounter | ⟨_, hnone, _⟩⟩ := h.attempts hkeys stage.stageId
  · rw [hbefore, hafter] at hcounter
    exact List.eq_nil_of_length_eq_zero (by omega)
  · rw [hnone]
    rfl

/-- In the step a retention pass at the time `now` removes an artifact with the URI. -/
def RemovedBy (state : ServiceState) (label : ServiceLabel) (state' : ServiceState) (uri : String)
    (now : Time) : Prop :=
  (∃ report, label = .retained report) ∧ state'.clock = now ∧
    ∃ record ∈ state.db.artifacts, record.storageUri = uri ∧ record ∉ state'.db.artifacts

/-- A step of the run has done so. -/
def RemovedIn (self : StageScheduler) (retention : RetentionService) (state : ServiceState)
    (labels : List ServiceLabel) (state' : ServiceState) (uri : String) (now : Time) : Prop :=
  ∃ before t label u after,
    (parserService self retention).At state labels state' before t label u after ∧
      RemovedBy t label u uri now

theorem ServiceStep.keeps_ended {label : ServiceLabel}
    (h : ServiceStep self retention state label state') (hdb : state.db.Showable state.clock)
    (htask : task ∈ state.db.tasks) (hended : task.status.terminal)
    (hretry : task.status ≠ .succeeded → label.retriedTask ≠ some task.taskId) :
    (∃ task' ∈ state'.db.tasks, task.Kept (RemovedBy state label state') task') ∧
      ∀ stage ∈ task.stages, leasesOf stage.stageId label.leases = [] := by
  have hcons := (hdb.tasks task htask).1
  cases h with
  | control _ _ hstep =>
      exact ⟨hstep.keeps_ended hdb.keys htask hcons hended hretry,
        fun _ hstage => hstep.leases_ended hdb.keys htask hcons hended hretry hstage⟩
  | retained _ hrun =>
      refine ⟨runOnce_keeps_ended hrun htask fun record hrecord hgone => ?_, fun _ _ => rfl⟩
      exact ⟨⟨_, rfl⟩, rfl, record, hrecord, rfl, hgone⟩

/-- An ended task is final: in every run of calls and retention passes that does not retry it by
hand (a task that succeeded cannot be retried) its record stays as it is, but for the order of its
rows and for result URIs whose artifacts a pass of the run has removed, which is then the last write
of the row; and none of its stages is leased again. -/
theorem ended_task_final (hstate : (parserService self retention).Reachable state)
    (hrun : (parserService self retention).Run state labels state') (htask : task ∈ state.db.tasks)
    (hended : task.status.terminal)
    (hretry : task.status ≠ .succeeded → ∀ label ∈ labels, label.retriedTask ≠ some task.taskId) :
    (∃ task' ∈ state'.db.tasks,
        task.Kept (RemovedIn self retention state labels state') task') ∧
      ∀ stage ∈ task.stages, leasesOf stage.stageId (labels.flatMap (·.leases)) = [] := by
  induction hrun with
  | nil => exact ⟨⟨task, htask, .refl task⟩, fun _ _ => rfl⟩
  | @snoc t u labels label hrun hstep ih =>
      obtain ⟨⟨task₁, htask₁, hkept₁⟩, hquiet⟩ := ih fun hopen label hlabel =>
        hretry hopen label (List.mem_append_left _ hlabel)
      have hretry₁ : task₁.status ≠ .succeeded → label.retriedTask ≠ some task₁.taskId := by
        rw [hkept₁.status, hkept₁.taskId]
        exact fun hopen => hretry hopen label (List.mem_append_right _ List.mem_cons_self)
      obtain ⟨⟨task₂, htask₂, hkept₂⟩, hnone⟩ := ServiceStep.keeps_ended hstep
        (service_showable (hstate.run hrun)) htask₁ (hkept₁.status ▸ hended) hretry₁
      have hearlier : ∀ uri now, RemovedIn self retention state labels t uri now →
          RemovedIn self retention state (labels ++ [label]) u uri now := by
        rintro uri now ⟨before, t', label', u', after, ⟨rfl, hbefore, hat, hafter⟩, hremoved⟩
        exact ⟨before, t', label', u', after ++ [label],
          ⟨by simp, hbefore, hat, hafter.snoc hstep⟩, hremoved⟩
      have hlast : ∀ uri now, RemovedBy t label u uri now →
          RemovedIn self retention state (labels ++ [label]) u uri now :=
        fun uri now hremoved => ⟨labels, t, label, u, [], ⟨rfl, hrun, hstep, .nil u⟩, hremoved⟩
      refine ⟨⟨task₂, htask₂, (hkept₁.mono hearlier).trans (hkept₂.mono hlast)⟩,
        fun stage hstage => ?_⟩
      obtain ⟨stage₁, hstage₁, hrow⟩ := hkept₁.stages stage hstage
      have hid : stage₁.stageId = stage.stageId := by rw [hrow.same]
      rw [List.flatMap_append, leasesOf_append, hquiet stage hstage, List.flatMap_singleton, ← hid]
      exact hnone stage₁ hstage₁

/-- The task is cancelled when one of its stages has a result. -/
def stoppedScript : List Operation :=
  leaseScript ++
    [.start "stage-layout" "worker" "token-layout" 3,
      .complete "stage-layout" (sampleCompletion "token-layout" "s3://layout") 4,
      .cancel "task" 5]

def stoppedDb : Db := afterScript sampleScheduler sampleDb stoppedScript

/-- The artifact of that result, which is kept until 10. -/
def layoutArtifact : ArtifactRecord where
  artifactType := .resultJson
  filename := "layout.json"
  mimeType := ⟨"application", "json"⟩
  sizeBytes := 2
  sha256 := ""
  artifactId := "artifact"
  taskId := "task"
  stageId := some "stage-layout"
  workerId := some "worker"
  storageKey := "artifacts/layout"
  storageUri := "s3://layout"
  idempotencyDigest := none
  requestDigest := none
  createdAt := 4
  expiresAt := some 10

def archiving : RetentionService where
  uploadedFileRetentionSeconds := none
  artifactRetentionSeconds := some 6
  eventRetentionSeconds := none
  batchSize := 20

theorem ended_task_final_stopped : ∃ task ∈ stoppedDb.tasks, task.status = .cancelled ∧
    ∃ db' storage' report,
      archiving.runOnce { stoppedDb with artifacts := [layoutArtifact] } ["artifacts/layout"]
        (fun _ => false) 20 false none = some (db', storage', report) ∧
      db'.stages.map (·.resultUri) = [none, none, none] ∧
      ∃ task' ∈ db'.tasks, task.Kept (fun _ now => now = 20) task' := by
  have hstart : (parserService sampleScheduler archiving).Reachable
      ⟨sampleDb, ["artifacts/layout"], 0⟩ := ⟨_, [], ⟨rfl, rfl⟩, .nil _⟩
  have hsome : (runScript sampleScheduler sampleDb stoppedScript).isSome := by decide +kernel
  obtain ⟨db, hdb⟩ := Option.isSome_iff_exists.mp hsome
  obtain rfl : db = stoppedDb := by simp [stoppedDb, afterScript, hdb]
  have hreach := runScript_service hstart (by decide +kernel) hdb
  obtain ⟨task, htask, hcancelled⟩ : ∃ task ∈ stoppedDb.tasks, task.status = .cancelled := by
    decide +kernel
  have harchived : (parserService sampleScheduler archiving).Step
      ⟨stoppedDb, ["artifacts/layout"], lastClock 0 stoppedScript⟩ (.control .administered)
      ⟨{ stoppedDb with artifacts := [layoutArtifact] }, ["artifacts/layout"],
        lastClock 0 stoppedScript⟩ :=
    .control _ le_rfl (.administered ⟨rfl, [], by simp, by simp⟩)
  have hpass : archiving.runOnce { stoppedDb with artifacts := [layoutArtifact] }
      ["artifacts/layout"] (fun _ => false) 20 false none = some (_, _, _) := rfl
  have hretained : (parserService sampleScheduler archiving).Step
      ⟨{ stoppedDb with artifacts := [layoutArtifact] }, ["artifacts/layout"],
        lastClock 0 stoppedScript⟩ (.retained _) ⟨_, _, 20⟩ :=
    .retained (by decide +kernel) hpass
  have hfinal := ended_task_final hreach ((System.Run.single harchived).snoc hretained) htask
    (by rw [hcancelled]; rfl) fun _ label hlabel => by
      rcases List.mem_cons.mp hlabel with rfl | hlabel
      · simp [ServiceLabel.retriedTask, Label.retriedTask]
      · rw [List.mem_singleton.mp hlabel]
        simp [ServiceLabel.retriedTask]
  obtain ⟨task', htask', hkept⟩ := hfinal.1
  refine ⟨task, htask, hcancelled, _, _, _, hpass, by decide +kernel, task', htask',
    hkept.mono ?_⟩
  rintro uri now ⟨before, _, _, u, after, ⟨hlabels, _, _, hafter⟩, ⟨report, rfl⟩, hclock, _⟩
  -- the pass is the second of the two steps, and the clock after it is its time
  have hlast : after = [] := by
    cases before with
    | nil => cases hlabels
    | cons first rest =>
        cases rest with
        | nil => exact (List.cons.inj (List.cons.inj hlabels).2).2.symm
        | cons => simp at hlabels
  rw [hlast] at hafter
  rw [← hclock, ← hafter.eq_of_nil]

end ParserServe
