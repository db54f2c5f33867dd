import ParserServe.Lifecycle.Stage

/-! # The life of one task record

`TaskMove` says once what an operation can do to a task that has its stages: the stage it
works on, the outcome for the task, the events it publishes and the lease it grants.  The
functions of the scheduler and the repository are read off here, and nowhere after.
-/

namespace ParserServe

open Foundation

/-- The status event of a transaction; none when the status stays. -/
def statusChange (taskId : String) (previous current : TaskStatus) : List EventPayload :=
  if current = previous then [] else [.taskStatusChanged taskId previous current]

/-! ## Reconciliation -/

/-- The four outcomes of `_reconcile_task`. -/
inductive Settled (now : Time) (task : TaskRecord) : TaskRecord → Prop
  | failed {stage : StageRecord} : stage ∈ task.stages → stage.status = .failed →
      canTransitionTask task.status .failed →
        Settled now task
          { task with
            status := .failed
            error := stage.error
            completedAt := some now
            stages := task.stages.map (·.stop now) }
  | succeeded : task.stages ≠ [] → (∀ stage ∈ task.stages, stage.status.finished) →
      canTransitionTask task.status .succeeded →
        Settled now task
          { task with
            status := .succeeded
            progressPercent := 100
            completedAt := some now
            resultUri := lastResultUri task.stages }
  | released : (∀ stage ∈ task.stages, stage.status = .pending ∨ stage.status.finished) →
      ¬ (task.stages ≠ [] ∧ ∀ stage ∈ task.stages, stage.status.finished) →
        task.status = .leased → Settled now task { task with status := .pending }
  | unsettled : (∀ stage ∈ task.stages, stage.status ≠ .failed) →
      ¬ (task.stages ≠ [] ∧ ∀ stage ∈ task.stages, stage.status.finished) →
      ¬ (task.status = .leased ∧
        ∀ stage ∈ task.stages, stage.status = .pending ∨ stage.status.finished) →
        Settled now task task

theorem Settled.of_settle {now : Time} {task task' : TaskRecord}
    (h : task.settle now = .ok task') : Settled now task task' := by
  unfold TaskRecord.settle at h
  cases hfind : task.stages.find? (fun stage => decide (stage.status = .failed)) with
  | some stage =>
      simp only [hfind, bind_eq_ok, requireTaskTransition_eq_ok] at h
      obtain ⟨_, htrans, h⟩ := h
      cases h
      exact .failed (List.mem_of_find?_eq_some hfind) (by simpa using List.find?_some hfind) htrans
  | none =>
      have hnone : ∀ stage ∈ task.stages, stage.status ≠ .failed := by
        simpa using List.find?_eq_none.mp hfind
      simp only [hfind] at h
      split at h
      · next hall =>
          simp only [bind_eq_ok, requireTaskTransition_eq_ok] at h
          obtain ⟨_, htrans, h⟩ := h
          cases h
          exact .succeeded hall.1 hall.2 htrans
      · next hnotall =>
          split at h
          · next hrest =>
              simp only [bind_eq_ok] at h
              obtain ⟨_, _, h⟩ := h
              cases h
              exact .released hrest.2 hnotall hrest.1
          · next hrest =>
              cases h
              exact .unsettled hnone hnotall hrest

/-- Reconciliation of a task that can end raises nothing. -/
theorem settle_isOk {now : Time} {task : TaskRecord}
    (h : task.status = .leased ∨ task.status = .running) :
    ∃ task', task.settle now = .ok task' := by
  have htrans : requireTaskTransition task.status .failed = .ok () ∧
      requireTaskTransition task.status .succeeded = .ok () := by
    rcases h with h | h <;> rw [h] <;> exact ⟨rfl, rfl⟩
  unfold TaskRecord.settle
  dsimp only
  split
  · exact ⟨_, by rw [htrans.1]; rfl⟩
  · split
    · exact ⟨_, by rw [htrans.2]; rfl⟩
    · split
      · next hleased => exact ⟨_, by rw [hleased.1]; rfl⟩
      · exact ⟨_, rfl⟩

theorem reconcile_eq_ok {now : Time} {task task' : TaskRecord} {payloads : List EventPayload} :
    task.reconcile now = .ok (task', payloads) ↔ ∃ settled, task.settle now = .ok settled ∧
      task' = settled.updateProgress now ∧
        payloads = statusChange settled.taskId task.status settled.status := by
  simp only [TaskRecord.reconcile, bind_eq_ok]
  constructor
  · rintro ⟨settled, hsettle, h⟩
    cases h
    exact ⟨settled, hsettle, rfl, rfl⟩
  · rintro ⟨settled, hsettle, rfl, rfl⟩
    exact ⟨settled, hsettle, rfl⟩

/-! ## Moves -/

/-- What an operation does to a routed task: the lease it grants, the events it publishes
and the record it writes back.  Only a user's call, where `manual` holds, cancels or retries. -/
inductive TaskMove (manual : Prop) (now : Time) (task : TaskRecord) :
    Option LeaseGrant → List EventPayload → TaskRecord → Prop
  | leased {stage : StageRecord} (grant : Grant) : stage ∈ task.stages →
      stage.status = .pending → task.status.active → task.dependenciesSatisfied stage →
        TaskMove manual now task (some ⟨stage.stageId, grant.workerId, grant.token⟩)
          (statusChange task.taskId task.status
            (if task.status = .pending then .leased else task.status))
          { task.saveStage (stage.grant grant now) with
            status := if task.status = .pending then .leased else task.status
            updatedAt := if task.status = .pending then now else task.updatedAt }
  | renewed {stage : StageRecord} (expiresAt : Time) : stage ∈ task.stages →
      stage.status.active →
        TaskMove manual now task none [] (task.saveStage
          { stage with leaseExpiresAt := some expiresAt, updatedAt := now })
  | started {stage : StageRecord} : stage ∈ task.stages → stage.status = .leased →
      TaskMove manual now task none
        (statusChange task.taskId task.status
          (if task.status = .leased then .running else task.status))
        { task.saveStage
            { stage with
              status := .running
              startedAt := some (stage.startedAt.getD now)
              updatedAt := now } with
          status := if task.status = .leased then .running else task.status
          startedAt :=
            if task.status = .leased then some (task.startedAt.getD now) else task.startedAt
          updatedAt := if task.status = .leased then now else task.updatedAt }
  | progressed {stage : StageRecord} (percent total : ℚ) : stage ∈ task.stages →
      stage.status = .running → 0 ≤ percent → percent ≤ 100 →
        TaskMove manual now task none
          [.taskProgressUpdated task.taskId total stage.stageId .running]
          ((task.saveStage
            { stage with progressPercent := percent, updatedAt := now }).updateProgress now)
  | ended {stage stage' : StageRecord} {settled : TaskRecord} : stage ∈ task.stages →
      Ended now stage stage' → Settled now (task.saveStage stage') settled →
        TaskMove manual now task none (statusChange task.taskId task.status settled.status)
          (settled.updateProgress now)
  | cancelled : manual → task.status.active →
      TaskMove manual now task none (statusChange task.taskId task.status .cancelled)
        { task with
          status := .cancelled
          completedAt := some now
          updatedAt := now
          stages := task.stages.map (·.cancel now) }
  | retried : manual → task.status = .failed ∨ task.status = .cancelled →
      TaskMove manual now task none (statusChange task.taskId task.status .pending)
        { task with
          status := .pending
          progressPercent := 0
          error := none
          resultUri := none
          startedAt := none
          completedAt := none
          updatedAt := now
          stages := task.stages.map (·.reset now) }

variable {manual : Prop} {now : Time} {task task' : TaskRecord} {stage : StageRecord}
  {payloads : List EventPayload}

theorem requireValidLease_eq_ok {s : StageRecord} {workerId token : String} {u : Unit} :
    s.requireValidLease workerId token now = .ok u ↔
      (s.workerId = some workerId ∧ s.leaseTokenDigest = some (leaseDigest token)) ∧
        ∃ expiresAt ∈ s.leaseExpiresAt, now < expiresAt := by
  simp [StageRecord.requireValidLease]

theorem Settled.taskId {settled : TaskRecord} (h : Settled now task settled) :
    settled.taskId = task.taskId := by
  cases h <;> rfl

/-- A grant on a pending task moves it to `LEASED`; the guards never fire. -/
theorem lease_eq {grant : Grant} :
    task.lease stage grant now = .ok
      ({ task.saveStage (stage.grant grant now) with
          status := if task.status = .pending then .leased else task.status
          updatedAt := if task.status = .pending then now else task.updatedAt },
        statusChange task.taskId task.status
          (if task.status = .pending then .leased else task.status)) := by
  have hstage : requireStageTransition .pending .leased = .ok () := rfl
  unfold TaskRecord.lease
  rw [hstage]
  by_cases hs : task.status = .pending
  · simp only [hs, if_true]
    rfl
  · simp only [hs, if_false, statusChange, if_true]
    rfl

theorem TaskMove.of_lease {grant : Grant} (hmem : stage ∈ task.stages)
    (hpending : stage.status = .pending) (hactive : task.status.active)
    (hdeps : task.dependenciesSatisfied stage)
    (h : task.lease stage grant now = .ok (task', payloads)) :
    TaskMove manual now task (some ⟨stage.stageId, grant.workerId, grant.token⟩) payloads
      task' := by
  rw [lease_eq] at h
  cases h
  exact .leased grant hmem hpending hactive hdeps

theorem TaskMove.of_renew {self : StageScheduler} {workerId token : String}
    (hmem : stage ∈ task.stages)
    (h : task.renew self stage workerId token now = .ok (task', payloads)) :
    TaskMove manual now task none payloads task' := by
  simp only [TaskRecord.renew, bind_eq_ok, ensure_eq_ok] at h
  obtain ⟨_, _, _, hactive, h⟩ := h
  cases h
  exact .renewed _ hmem hactive

theorem TaskMove.of_start {workerId token : String} (hmem : stage ∈ task.stages)
    (h : task.start stage workerId token now = .ok (task', payloads)) :
    TaskMove manual now task none payloads task' := by
  simp only [TaskRecord.start, bind_eq_ok, ensure_eq_ok] at h
  obtain ⟨_, _, _, hleased, _, _, h⟩ := h
  have hmove : TaskMove manual now task _ _ _ := .started hmem hleased
  by_cases hs : task.status = .leased
  · simp only [hs, if_true, bind_eq_ok] at h
    obtain ⟨_, _, h⟩ := h
    cases h
    simpa [statusChange, hs] using hmove
  · simp only [hs, if_false] at h
    cases h
    simpa [statusChange, hs, TaskRecord.saveStage] using hmove

theorem TaskMove.of_progress {request : StageProgressRequest} (hmem : stage ∈ task.stages)
    (h : task.progress stage request now = .ok (task', payloads)) :
    TaskMove manual now task none payloads task' := by
  simp only [TaskRecord.progress, bind_eq_ok, ensure_eq_ok] at h
  obtain ⟨_, _, _, hrunning, h⟩ := h
  cases h
  exact .progressed _ _ hmem hrunning request.progress_valid.1 request.progress_valid.2

theorem TaskMove.of_reconcile {stage' : StageRecord} (hmem : stage ∈ task.stages)
    (hend : Ended now stage stage')
    (h : (task.saveStage stage').reconcile now = .ok (task', payloads)) :
    TaskMove manual now task none payloads task' := by
  obtain ⟨settled, hsettle, rfl, rfl⟩ := reconcile_eq_ok.mp h
  have hsettled := Settled.of_settle hsettle
  have hid : settled.taskId = task.taskId := hsettled.taskId
  rw [hid]
  exact .ended hmem hend hsettled

theorem Ended.of_complete {stage' : StageRecord} {request : CompleteStageRequest}
    (hvalid : stage.requireValidLease request.workerId request.leaseToken now = .ok ())
    (hrunning : stage.status = .running) (hnone : stage.completionRequestDigest = none)
    (h : stage.complete request now = .ok stage') : Ended now stage stage' := by
  obtain ⟨⟨hworker, htoken⟩, _⟩ := requireValidLease_eq_ok.mp hvalid
  exact .completed request hrunning hnone hworker htoken (.of_complete hrunning h)

theorem TaskMove.of_complete {request : CompleteStageRequest} (hmem : stage ∈ task.stages)
    (hnone : stage.completionRequestDigest = none)
    (h : task.complete stage request now = .ok (task', payloads)) :
    TaskMove manual now task none payloads task' := by
  simp only [TaskRecord.complete, bind_eq_ok, ensure_eq_ok] at h
  obtain ⟨_, hvalid, _, hrunning, stage', hcomplete, h⟩ := h
  exact .of_reconcile hmem (.of_complete hvalid hrunning hnone hcomplete) h

theorem TaskMove.of_expire (hmem : stage ∈ task.stages)
    (h : task.expire stage now = .ok (task', payloads)) :
    TaskMove manual now task none payloads task' := by
  simp only [TaskRecord.expire, bind_eq_ok] at h
  obtain ⟨stage', hfail, h⟩ := h
  exact .of_reconcile hmem (.expired (.of_failOrRetry hfail)) h

theorem TaskMove.of_cancel (hmanual : manual) (h : task.cancel now = .ok (task', payloads)) :
    TaskMove manual now task none payloads task' := by
  simp only [TaskRecord.cancel, bind_eq_ok, ensure_eq_ok] at h
  obtain ⟨_, hopen, _, _, h⟩ := h
  cases h
  have hactive : task.status.active := by
    cases hs : task.status <;> simp_all [TaskStatus.terminal, TaskStatus.active]
  have hne : TaskStatus.cancelled ≠ task.status := by
    intro hs
    simp [← hs, TaskStatus.active] at hactive
  have hmove : TaskMove manual now task _ _ _ := .cancelled hmanual hactive
  simpa [statusChange, hne] using hmove

theorem TaskMove.of_retry (hmanual : manual) (h : task.retry now = .ok (task', payloads)) :
    TaskMove manual now task none payloads task' := by
  simp only [TaskRecord.retry, bind_eq_ok, ensure_eq_ok] at h
  obtain ⟨_, hended, _, _, h⟩ := h
  cases h
  have hne : TaskStatus.pending ≠ task.status := by
    rcases hended with hs | hs <;> simp [hs]
  have hmove : TaskMove manual now task _ _ _ := .retried hmanual hended
  simpa [statusChange, hne] using hmove

/-! ## What becomes of the stages -/

/-- A stage of the task before and after a move. -/
inductive StageChange (manual : Prop) (now : Time) (task : TaskRecord) (granted : Option LeaseGrant)
    (s : StageRecord) : StageRecord → Prop
  | moved {s' : StageRecord} : StageMoves manual now s s' → (∀ g ∈ granted, g.stageId ≠ s.stageId) →
      StageChange manual now task granted s s'
  | granted (grant : Grant) : s.status = .pending → task.dependenciesSatisfied s →
      granted = some ⟨s.stageId, grant.workerId, grant.token⟩ →
        StageChange manual now task granted s (s.grant grant now)

variable {granted : Option LeaseGrant}

theorem StageChange.samePlan {s s' : StageRecord} (h : StageChange manual now task granted s s') :
    SamePlan s s' := by
  cases h with
  | moved hmoves => exact hmoves.samePlan
  | granted grant => exact SamePlan.grant s grant now

theorem StageChange.path {s s' : StageRecord} (h : StageChange manual now task granted s s') :
    StagePath s.status s'.status := by
  cases h with
  | moved hmoves => exact hmoves.path
  | granted grant hpending =>
      rw [hpending]
      exact .single rfl

theorem StageChange.sound {s s' : StageRecord} (h : StageChange manual now task granted s s')
    (hs : s.Sound) : s'.Sound := by
  cases h with
  | moved hmoves => exact hmoves.sound hs
  | granted grant hpending => exact hs.grant hpending grant now

theorem StageChange.moves {s s' : StageRecord} (h : StageChange manual now task none s s') :
    StageMoves manual now s s' := by
  cases h with
  | moved hmoves => exact hmoves
  | granted _ _ _ hgrant => cases hgrant

/-- The stages of a task are distinct rows. -/
def TaskRecord.KeysNodup (task : TaskRecord) : Prop := (task.stages.map (·.stageId)).Nodup

theorem Settled.stages {settled : TaskRecord} (h : Settled now task settled) :
    ∃ f : StageRecord → StageRecord, settled.stages = task.stages.map f ∧
      ∀ s, StageMoves manual now s (f s) := by
  cases h with
  | failed => exact ⟨(·.stop now), rfl, fun s => .single .stopped⟩
  | succeeded | released | unsettled => exact ⟨id, by simp, fun s => .refl⟩

/-- Writing one stage back touches no other. -/
theorem saveStage_stages (hkeys : task.KeysNodup) (hmem : stage ∈ task.stages)
    {stage' : StageRecord} (hid : stage'.stageId = stage.stageId) :
    ∃ f : StageRecord → StageRecord, (task.saveStage stage').stages = task.stages.map f ∧
      f stage = stage' ∧
        ∀ s ∈ task.stages, s ≠ stage → f s = s ∧ s.stageId ≠ stage.stageId := by
  refine ⟨fun s => if s.stageId = stage'.stageId then stage' else s, rfl, by simp [hid], ?_⟩
  intro s hs hne
  have hsid : s.stageId ≠ stage.stageId := fun heq =>
    hne (List.inj_on_of_nodup_map hkeys hs hmem heq)
  simp [hid, hsid]

/-- A write of one stage is a change of every stage of the task. -/
theorem saveStage_change (hkeys : task.KeysNodup) (hmem : stage ∈ task.stages)
    {stage' : StageRecord} (hid : stage'.stageId = stage.stageId)
    (hstage : StageChange manual now task granted stage stage')
    (hgranted : ∀ g ∈ granted, g.stageId = stage.stageId) :
    ∃ f : StageRecord → StageRecord, (task.saveStage stage').stages = task.stages.map f ∧
      ∀ s ∈ task.stages, StageChange manual now task granted s (f s) := by
  obtain ⟨f, hmap, hself, hother⟩ := saveStage_stages hkeys hmem hid
  refine ⟨f, hmap, ?_⟩
  intro s hs
  by_cases hne : s = stage
  · rw [hne, hself]
    exact hstage
  · obtain ⟨heq, hsid⟩ := hother s hs hne
    rw [heq]
    refine .moved .refl ?_
    intro g hg
    rw [hgranted g hg]
    exact fun h => hsid h.symm

/-- What a move does to each stage of its task. -/
theorem TaskMove.stages (h : TaskMove manual now task granted payloads task')
    (hkeys : task.KeysNodup) :
    ∃ f : StageRecord → StageRecord, task'.stages = task.stages.map f ∧
      ∀ s ∈ task.stages, StageChange manual now task granted s (f s) := by
  cases h with
  | leased grant hmem hpending _ hdeps =>
      exact saveStage_change hkeys hmem rfl (.granted grant hpending hdeps rfl) (by simp)
  | renewed expiresAt hmem hactive =>
      exact saveStage_change hkeys hmem rfl
        (.moved (.single (.renewed expiresAt hactive)) (by simp)) (by simp)
  | started hmem hleased =>
      exact saveStage_change hkeys hmem rfl
        (.moved (.single (.started hleased)) (by simp)) (by simp)
  | progressed percent total hmem hrunning hlow hhigh =>
      exact saveStage_change hkeys hmem rfl
        (.moved (.single (.progressed percent hrunning hlow hhigh)) (by simp)) (by simp)
  | @ended stage stage' settled hmem hend hsettled =>
      have hstage : StageChange manual now task none stage stage' :=
        .moved (.single (.ended hend)) (by simp)
      obtain ⟨f, hf, hfmoves⟩ := saveStage_change hkeys hmem hend.samePlan.stageId hstage
        (by simp)
      obtain ⟨g, hg, hgmoves⟩ := hsettled.stages
      refine ⟨g ∘ f, by simp [TaskRecord.updateProgress, hg, hf], ?_⟩
      intro s hs
      exact .moved ((hfmoves s hs).moves.trans (hgmoves (f s))) (by simp)
  | cancelled hmanual =>
      exact ⟨(·.cancel now), rfl, fun s _ => .moved (.single (.cancelled hmanual)) (by simp)⟩
  | retried hmanual =>
      exact ⟨(·.reset now), rfl, fun s _ => .moved (.single (.reset hmanual)) (by simp)⟩

theorem TaskMove.taskId (h : TaskMove manual now task granted payloads task') :
    task'.taskId = task.taskId := by
  cases h with
  | ended _ _ hsettled => exact hsettled.taskId
  | leased | renewed | started | progressed | cancelled | retried => rfl

theorem TaskMove.stageIds (h : TaskMove manual now task granted payloads task')
    (hkeys : task.KeysNodup) : task'.stages.map (·.stageId) = task.stages.map (·.stageId) := by
  obtain ⟨f, hf, hchange⟩ := h.stages hkeys
  rw [hf, List.map_map]
  exact List.map_congr_left fun s hs => (hchange s hs).samePlan.stageId

end ParserServe
